import Mathlib.Logic.Basic
import Mathlib.Data.List.Induction

/-! # Trees of tables

    A table has an index type and, at some indices, a link to another table.
    Following a list of indices from a root is a walk.

    Several roots with trees that share no table (`Apart`) stay so when a table
    that none of them reaches is linked below one of them, and the new table is
    then reached by one path only (`walk_link`, `Apart.link`).  Roots may also
    share tables, as long as each is reached along the same path from all of
    them (`SamePath`, `SamePath.link`), or at least on the same level
    (`SameLevel`, `SameLevel.link`).  Walks do not see changes to links they do
    not follow (`walk_frame`). -/

namespace Radix

variable {κ ι : Type}

/-- The table reached from `r` by following a list of indices. -/
def walk (child : κ → ι → Option κ) (r : κ) : List ι → Option κ
  | [] => some r
  | i :: is => (child r i).bind fun k => walk child k is

variable {child child' : κ → ι → Option κ} {roots : κ → Prop} {paths : List ι → Prop}

@[simp] theorem walk_nil (r : κ) : walk child r [] = some r := rfl

theorem walk_concat (r : κ) (p : List ι) (i : ι) :
    walk child r (p ++ [i]) = (walk child r p).bind fun k => child k i := by
  induction p generalizing r with
  | nil => cases h : child r i <;> simp [walk, h]
  | cons j p ih =>
    rw [List.cons_append]
    simp only [walk]
    cases child r j with
    | none => rfl
    | some k => exact ih k

/-- Links that a walk does not follow do not matter to it. -/
theorem walk_frame (paths : List ι → Prop) (hpaths : ∀ p i, paths (p ++ [i]) → paths p) {r : κ}
    (h : ∀ p i t, paths (p ++ [i]) → walk child r p = some t → child' t i = child t i)
    {p : List ι} (hp : paths p) : walk child' r p = walk child r p := by
  induction p using List.reverseRecOn with
  | nil => rfl
  | append_singleton p i ih =>
    rw [walk_concat, walk_concat, ih (hpaths p i hp)]
    cases hw : walk child r p with
    | none => rfl
    | some t => exact h p i t hp hw

/-- No table is reached from two roots, or by two paths. -/
def Apart (child : κ → ι → Option κ) (roots : κ → Prop) (paths : List ι → Prop) : Prop :=
  ∀ r r' p p' k, roots r → roots r' → paths p → paths p' →
    walk child r p = some k → walk child r' p' = some k → r = r' ∧ p = p'

/-- The table `k` is linked at index `i` of the table `t`, and has no links
    itself. -/
structure Linked (child child' : κ → ι → Option κ) (t : κ) (i : ι) (k : κ) : Prop where
  empty : child t i = none
  link : child' t i = some k
  fresh : ∀ j, child' k j = none
  other : ∀ t' j, t' ≠ k → ¬ (t' = t ∧ j = i) → child' t' j = child t' j

/-- Linking an unreached table, at an index that one walk only comes to, adds
    one path to one tree. -/
theorem walk_link (roots : κ → Prop) (paths : List ι → Prop)
    (hpaths : ∀ p i, paths (p ++ [i]) → paths p) {r t k : κ} {p : List ι} {i : ι}
    (ht : walk child r p = some t)
    (huniq : ∀ r' q, roots r' → paths (q ++ [i]) → walk child r' q = some t → r' = r ∧ q = p)
    (hk : ∀ r' q, roots r' → paths q → walk child r' q ≠ some k) (h : Linked child child' t i k)
    {r' : κ} {q : List ι} (hr' : roots r') (hq : paths q) :
    (r' = r ∧ q = p ++ [i] ∧ walk child' r' q = some k) ∨
      (¬ (r' = r ∧ q = p ++ [i]) ∧ walk child' r' q = walk child r' q) := by
  -- By induction on the path from its end: the last index is read in one table.
  induction q using List.reverseRecOn with
  | nil =>
    right
    refine ⟨?_, rfl⟩
    intro heq
    simp at heq
  | append_singleton q j ih =>
    rw [walk_concat, walk_concat]
    rcases ih (hpaths q j hq) with ⟨rfl, rfl, hwalk⟩ | ⟨_, hwalk⟩
    · -- Below the new table there is nothing, neither before nor after.
      right
      refine ⟨by simp, ?_⟩
      rw [hwalk, walk_concat, ht]
      show child' k j = ((child t i).bind fun k => child k j)
      rw [h.fresh, h.empty]
      rfl
    · rw [hwalk]
      cases hw : walk child r' q with
      | none =>
        right
        refine ⟨?_, rfl⟩
        intro heq
        obtain ⟨rfl, _⟩ := List.append_inj' heq.2 rfl
        rw [heq.1, ht] at hw
        cases hw
      | some t' =>
        by_cases hlink : t' = t ∧ j = i
        · obtain ⟨rfl, rfl⟩ := hlink
          obtain ⟨rfl, rfl⟩ := huniq r' q hr' hq hw
          exact .inl ⟨rfl, rfl, h.link⟩
        · right
          have hne : t' ≠ k := by
            intro heq
            exact hk r' q hr' (hpaths q j hq) (by rw [hw, heq])
          refine ⟨?_, h.other t' j hne hlink⟩
          intro heq
          obtain ⟨rfl, hj⟩ := List.append_inj' heq.2 rfl
          rw [heq.1, ht] at hw
          exact hlink ⟨(Option.some.inj hw).symm, List.singleton_inj.mp hj⟩

/-- The trees stay apart when an unreached table is linked. -/
theorem Apart.link (hpaths : ∀ p i, paths (p ++ [i]) → paths p) (hapart : Apart child roots paths)
    {r t k : κ} {p : List ι} {i : ι} (hr : roots r) (hp : paths p) (ht : walk child r p = some t)
    (hk : ∀ r' q, roots r' → paths q → walk child r' q ≠ some k) (h : Linked child child' t i k) :
    Apart child' roots paths := by
  have huniq : ∀ r' q, roots r' → paths (q ++ [i]) → walk child r' q = some t → r' = r ∧ q = p := by
    intro r' q hr' hq hw
    exact hapart r' r q p t hr' hr (hpaths q i hq) hp hw ht
  intro r₁ r₂ p₁ p₂ x hr₁ hr₂ hp₁ hp₂ hw₁ hw₂
  rcases walk_link roots paths hpaths ht huniq hk h hr₁ hp₁ with ⟨rfl, rfl, hx⟩ | ⟨_, hx⟩
  · obtain rfl := Option.some.inj (hw₁.symm.trans hx)
    rcases walk_link roots paths hpaths ht huniq hk h hr₂ hp₂ with ⟨rfl, rfl, _⟩ | ⟨_, hy⟩
    · exact ⟨rfl, rfl⟩
    · exact absurd (hy.symm.trans hw₂) (hk r₂ p₂ hr₂ hp₂)
  · rcases walk_link roots paths hpaths ht huniq hk h hr₂ hp₂ with ⟨rfl, rfl, hy⟩ | ⟨_, hy⟩
    · obtain rfl := Option.some.inj (hw₂.symm.trans hy)
      exact absurd (hx.symm.trans hw₁) (hk r₁ p₁ hr₁ hp₁)
    · exact hapart r₁ r₂ p₁ p₂ x hr₁ hr₂ hp₁ hp₂ (hx.symm.trans hw₁) (hy.symm.trans hw₂)

/-! ## Shared tables -/

/-- A table is reached along one path only, whichever root it is reached from. -/
def SamePath (child : κ → ι → Option κ) (roots : κ → Prop) (paths : List ι → Prop) : Prop :=
  ∀ r r' p p' k, roots r → roots r' → paths p → paths p' →
    walk child r p = some k → walk child r' p' = some k → p = p'

section shared

variable {r t k : κ} {p : List ι} {i : ι} (hpaths : ∀ p i, paths (p ++ [i]) → paths p)
  (hsame : SamePath child roots paths) (hr : roots r) (hp : paths p) (ht : walk child r p = some t)
  (hk : ∀ r' q, roots r' → paths q → walk child r' q ≠ some k) (h : Linked child child' t i k)

include hpaths hsame hr hp ht hk h

/-- Linking an unreached table adds one path, to the roots that see the link. -/
theorem SamePath.walk_link {r' : κ} {q : List ι} (hr' : roots r') (hq : paths q) :
    (walk child r' p = some t ∧ q = p ++ [i] ∧ walk child' r' q = some k) ∨
      (¬ (walk child r' p = some t ∧ q = p ++ [i]) ∧ walk child' r' q = walk child r' q) := by
  by_cases hsee : walk child r' p = some t
  · have huniq : ∀ r'' q', r'' = r' → paths (q' ++ [i]) → walk child r'' q' = some t →
        r'' = r' ∧ q' = p := by
      intro r'' q' heq hq' hw
      rw [heq] at hw
      exact ⟨heq, hsame r' r' q' p t hr' hr' (hpaths q' i hq') hp hw hsee⟩
    have hfresh : ∀ r'' q', r'' = r' → paths q' → walk child r'' q' ≠ some k := by
      intro r'' q' heq hq'
      rw [heq]
      exact hk r' q' hr' hq'
    rcases Radix.walk_link (· = r') paths hpaths hsee huniq hfresh h rfl hq with
      ⟨_, heq, hw⟩ | ⟨hne, hw⟩
    · exact .inl ⟨hsee, heq, hw⟩
    · exact .inr ⟨fun hc => hne ⟨rfl, hc.2⟩, hw⟩
  · -- This root does not come to the table that gets the link.
    right
    refine ⟨fun hc => hsee hc.1, walk_frame paths hpaths ?_ hq⟩
    intro q' j t' hq' hw
    apply h.other
    · intro heq
      exact hk r' q' hr' (hpaths q' j hq') (by rw [hw, heq])
    · intro hlink
      rw [hlink.1] at hw
      obtain rfl := hsame r' r q' p t hr' hr (hpaths q' j hq') hp hw ht
      exact hsee hw

theorem SamePath.link : SamePath child' roots paths := by
  intro r₁ r₂ p₁ p₂ x hr₁ hr₂ hp₁ hp₂ hw₁ hw₂
  rcases hsame.walk_link hpaths hr hp ht hk h hr₁ hp₁ with ⟨_, heq₁, hx⟩ | ⟨_, hx⟩
  · obtain rfl := Option.some.inj (hw₁.symm.trans hx)
    rcases hsame.walk_link hpaths hr hp ht hk h hr₂ hp₂ with ⟨_, heq₂, _⟩ | ⟨_, hy⟩
    · exact heq₁.trans heq₂.symm
    · exact absurd (hy.symm.trans hw₂) (hk r₂ p₂ hr₂ hp₂)
  · rcases hsame.walk_link hpaths hr hp ht hk h hr₂ hp₂ with ⟨_, heq₂, hy⟩ | ⟨_, hy⟩
    · obtain rfl := Option.some.inj (hw₂.symm.trans hy)
      exact absurd (hx.symm.trans hw₁) (hk r₁ p₁ hr₁ hp₁)
    · exact hsame r₁ r₂ p₁ p₂ x hr₁ hr₂ hp₁ hp₂ (hx.symm.trans hw₁) (hy.symm.trans hw₂)

end shared

/-! ## Levels -/

/-- A table is reached on one level only, whichever root and path it is reached by. -/
def SameLevel (child : κ → ι → Option κ) (roots : κ → Prop) (paths : List ι → Prop) : Prop :=
  ∀ r r' p p' k, roots r → roots r' → paths p → paths p' →
    walk child r p = some k → walk child r' p' = some k → p.length = p'.length

theorem SamePath.sameLevel (h : SamePath child roots paths) : SameLevel child roots paths := by
  intro r r' p p' k hr hr' hp hp' hw hw'
  rw [h r r' p p' k hr hr' hp hp' hw hw']

section level

variable {t k : κ} {i : ι} (hpaths : ∀ p i, paths (p ++ [i]) → paths p)
  (hk : ∀ r q, roots r → paths q → walk child r q ≠ some k) (h : Linked child child' t i k)

include hpaths hk h

/-- Linking an unreached table keeps the walks there are. -/
theorem Linked.walk_old {r x : κ} {q : List ι} (hr : roots r) (hq : paths q)
    (hw : walk child r q = some x) : walk child' r q = some x := by
  induction q using List.reverseRecOn generalizing x with
  | nil => exact hw
  | append_singleton q j ih =>
    rw [walk_concat] at hw ⊢
    obtain ⟨t', ht', hchild⟩ := Option.bind_eq_some_iff.mp hw
    rw [ih (hpaths q j hq) ht', Option.bind_some, h.other t' j]
    · exact hchild
    · intro heq
      exact hk r q hr (hpaths q j hq) (heq ▸ ht')
    · rintro ⟨rfl, rfl⟩
      rw [h.empty] at hchild
      cases hchild

/-- The walks it adds end at the new table. -/
theorem Linked.walk_new {r x : κ} {q : List ι} (hr : roots r) (hq : paths q)
    (hw : walk child' r q = some x) :
    walk child r q = some x ∨ x = k ∧ ∃ p, q = p ++ [i] ∧ walk child r p = some t := by
  induction q using List.reverseRecOn generalizing x with
  | nil => exact .inl hw
  | append_singleton q j ih =>
    rw [walk_concat] at hw
    obtain ⟨t', ht', hchild⟩ := Option.bind_eq_some_iff.mp hw
    rcases ih (hpaths q j hq) ht' with hold | ⟨rfl, _⟩
    · by_cases hlink : t' = t ∧ j = i
      · obtain ⟨rfl, rfl⟩ := hlink
        rw [h.link] at hchild
        exact .inr ⟨(Option.some.inj hchild).symm, q, rfl, hold⟩
      · left
        have hne : t' ≠ k := fun heq => hk r q hr (hpaths q j hq) (heq ▸ hold)
        rw [walk_concat, hold, Option.bind_some, ← h.other t' j hne hlink]
        exact hchild
    · -- Nothing hangs below the new table.
      rw [h.fresh] at hchild
      cases hchild

theorem SameLevel.link (hlevel : SameLevel child roots paths) : SameLevel child' roots paths := by
  intro r₁ r₂ p₁ p₂ x hr₁ hr₂ hp₁ hp₂ hw₁ hw₂
  rcases h.walk_new hpaths hk hr₁ hp₁ hw₁ with h₁ | ⟨rfl, q₁, rfl, h₁⟩
  · rcases h.walk_new hpaths hk hr₂ hp₂ hw₂ with h₂ | ⟨rfl, _⟩
    · exact hlevel r₁ r₂ p₁ p₂ x hr₁ hr₂ hp₁ hp₂ h₁ h₂
    · exact absurd h₁ (hk r₁ p₁ hr₁ hp₁)
  · rcases h.walk_new hpaths hk hr₂ hp₂ hw₂ with h₂ | ⟨_, q₂, rfl, h₂⟩
    · exact absurd h₂ (hk r₂ p₂ hr₂ hp₂)
    · have hlen := hlevel r₁ r₂ q₁ q₂ t hr₁ hr₂ (hpaths _ _ hp₁) (hpaths _ _ hp₂) h₁ h₂
      rw [List.length_append, List.length_append, hlen]

end level

end Radix
