import Scdk.Mm.RootTree
import Mathlib.Data.Nat.Bitwise

/-! # Reported and effective permissions

    `scdk_vmm_virt_to_phys_in_root` reports the flags of the leaf entry, while the
    processor grants what all four levels grant (`hwTranslate`).

    * `UserAlong`: the tables on the way to a page grant user access,
    * `UserTree`: the invariant of the user half of one root,
    * `permissions_effective`: if user mappings are only made where the tables that
      are there grant user access, the two agree in every run. -/

namespace Scdk

open Radix

/-! ## Bits -/

/-- One of the bits U/S and R/W. -/
def IsAccessBit (m : UInt64) : Prop := m = Pte.user ∨ m = Pte.writable

theorem and_accessBit {m : UInt64} (hm : IsAccessBit m) (e : UInt64) (h : e &&& m ≠ 0) :
    e &&& m = m := by
  have hbit : ∀ i : Nat, m.toNat = 2 ^ i → e &&& m = m := by
    intro i hi
    apply UInt64.toNat_inj.mp
    have hne : (e &&& m).toNat ≠ 0 := fun h0 => h (UInt64.toNat_inj.mp h0)
    rw [UInt64.toNat_and, hi, Nat.and_two_pow] at hne ⊢
    cases ht : e.toNat.testBit i with
    | false => simp [ht] at hne
    | true => simp
  rcases hm with rfl | rfl
  · exact hbit 2 rfl
  · exact hbit 1 rfl

/-- A level that grants access leaves the decision to the others. -/
theorem and_granted {a m : UInt64} (hm : IsAccessBit m) (ha : a &&& m ≠ 0) (y : UInt64) :
    (a &&& y) &&& m = y &&& m := by
  rw [UInt64.and_assoc, UInt64.and_comm y m, ← UInt64.and_assoc, and_accessBit hm a ha]

theorem and_refused {a m : UInt64} (ha : a &&& m = 0) (y : UInt64) : (a &&& y) &&& m = 0 := by
  rw [UInt64.and_assoc, UInt64.and_comm y m, ← UInt64.and_assoc, ha, UInt64.zero_and]

theorem entryFlags_user (e : UInt64) : entryFlags e &&& vmmMapUser ≠ 0 ↔ e &&& Pte.user ≠ 0 := by
  unfold entryFlags
  dsimp only
  by_cases huser : e &&& Pte.user ≠ 0
  · rw [if_pos huser]
    simp only [huser, ne_eq, not_false_eq_true, iff_true]
    split
    · decide
    · decide
  · rw [if_neg huser]
    simp only [huser, iff_false, not_not]
    split
    · decide
    · decide

theorem entryFlags_write (e : UInt64) :
    entryFlags e &&& vmmMapWrite ≠ 0 ↔ e &&& Pte.writable ≠ 0 := by
  unfold entryFlags
  dsimp only
  by_cases hwrite : e &&& Pte.writable ≠ 0
  · rw [if_pos hwrite]
    simp only [hwrite, ne_eq, not_false_eq_true, iff_true]
    split
    · decide
    · decide
  · rw [if_neg hwrite]
    simp only [hwrite, iff_false, not_not]
    split
    · decide
    · decide

/-- Only a user mapping has an entry with user access. -/
theorem leafEntry_user_imp {phys flags : UInt64} (h : leafEntry phys flags &&& Pte.user ≠ 0) :
    flags &&& vmmMapUser ≠ 0 := by
  intro hno
  apply h
  have hzero : ∀ c : UInt64, c &&& Pte.user = 0 → (phys &&& Pte.addr ||| c) &&& Pte.user = 0 := by
    intro c hc
    rw [or_and_distrib, hc, UInt64.and_assoc, show Pte.addr &&& Pte.user = 0 by decide,
      UInt64.and_zero, UInt64.or_zero]
  unfold leafEntry
  dsimp only
  rw [if_neg (not_not.mpr hno)]
  apply hzero
  split
  · decide
  · decide

/-! ## The way to a page -/

/-- Every table entry on a path that is present grants user access. -/
def UserAlong (tables : PageTables) (r : UInt64) (path : List (Fin 512)) : Prop :=
  ∀ p i t, p ++ [i] <+: path → walk (childOf tables) r p = some t →
    tables t i &&& Pte.present ≠ 0 → tables t i &&& Pte.user ≠ 0

/-- The user half of the root `r`: the tables grant write access, and those above a
    page with user access grant that too. -/
structure UserTree (tables : PageTables) (r : UInt64) : Prop where
  same : SamePath (childOf tables) (· = r) UserPath
  writable : ∀ p i t, UserPath (p ++ [i]) → walk (childOf tables) r p = some t →
    tables t i &&& Pte.present = 0 ∨ tables t i &&& Pte.writable ≠ 0
  user : ∀ x e, x.toNat < 2 ^ 47 → lookupEntry tables r x = .ok e → e &&& Pte.user ≠ 0 →
    UserAlong tables r (tablePath x)

/-- The lookup, step by step: the processor walks the same tables. -/
theorem hwTranslate_of_lookup {tables : PageTables} {r x e : UInt64}
    (h : lookupEntry tables r x = .ok e) :
    ∃ pdpt pd : UInt64,
      (walk (childOf tables) r [pml4Index x] = some pdpt ∧
        walk (childOf tables) r [pml4Index x, pdptIndex x] = some pd) ∧
      (tables r (pml4Index x) &&& Pte.present ≠ 0 ∧ tables pdpt (pdptIndex x) &&& Pte.present ≠ 0 ∧
        tables pd (pdIndex x) &&& Pte.present ≠ 0) ∧
      hwTranslate tables r x = some ⟨(e &&& Pte.addr) ||| (x &&& 0xfff),
        tables r (pml4Index x) &&& tables pdpt (pdptIndex x) &&& tables pd (pdIndex x) &&& e &&&
          Pte.user ≠ 0,
        tables r (pml4Index x) &&& tables pdpt (pdptIndex x) &&& tables pd (pdIndex x) &&& e &&&
          Pte.writable ≠ 0⟩ := by
  -- The software lookup passed each level, so the walk of the hardware passes it too.
  have hlevel : ∀ {t : UInt64} {i : Fin 512} {is : List (Fin 512)},
      lookupAlong tables t (ptIndex x) (i :: is) = .ok e →
      tables t i &&& Pte.present ≠ 0 ∧ tables t i &&& Pte.huge = 0 ∧
        childOf tables t i = some (tables t i &&& Pte.addr) ∧
        lookupAlong tables (tables t i &&& Pte.addr) (ptIndex x) is = .ok e := by
    intro t i is hl
    unfold lookupAlong at hl
    split at hl
    · cases hl
    next hpresent =>
    by_cases hhuge : tables t i &&& Pte.huge = 0
    · have hentry : entryTable (tables t i) = .ok (tables t i &&& Pte.addr) :=
        if_neg (not_not.mpr hhuge)
      rw [hentry] at hl
      refine ⟨hpresent, hhuge, ?_, hl⟩
      simp [childOf, hpresent, hentry, Except.toOption]
    · have hentry : entryTable (tables t i) = .error .busy := if_pos hhuge
      rw [hentry] at hl
      cases hl
  obtain ⟨hp4, _, hc4, hl4⟩ := hlevel h
  obtain ⟨hp3, hh3, hc3, hl3⟩ := hlevel hl4
  obtain ⟨hp2, hh2, _, hl2⟩ := hlevel hl3
  have hleaf : tables (tables (tables (tables r (pml4Index x) &&& Pte.addr) (pdptIndex x) &&&
      Pte.addr) (pdIndex x) &&& Pte.addr) (ptIndex x) = e ∧ e &&& Pte.present ≠ 0 := by
    unfold lookupAlong at hl2
    split at hl2
    · cases hl2
    next hpresent =>
    have heq := Except.ok.inj hl2
    rw [← heq]
    exact ⟨rfl, hpresent⟩
  refine ⟨_, _, ⟨?_, ?_⟩, ⟨hp4, hp3, hp2⟩, ?_⟩
  · simp only [walk, hc4, Option.bind_some]
  · simp only [walk, hc4, hc3, Option.bind_some]
  · unfold hwTranslate
    dsimp only
    rw [if_neg (by simp [hp4, hp3]), if_neg (by simp [hh3]), if_neg hp2, if_neg (by simp [hh2]),
      hleaf.1, if_neg hleaf.2]

/-- The processor grants what the leaf entry says. -/
theorem UserTree.hwTranslate {tables : PageTables} {r x e : UInt64} (h : UserTree tables r)
    (hx : x.toNat < 2 ^ 47) (hl : lookupEntry tables r x = .ok e) :
    ∃ t, Scdk.hwTranslate tables r x = some t ∧ t.phys = (e &&& Pte.addr) ||| (x &&& 0xfff) ∧
      (t.user = true ↔ e &&& Pte.user ≠ 0) ∧ (t.write = true ↔ e &&& Pte.writable ≠ 0) := by
  obtain ⟨pdpt, pd, ⟨hw4, hw3⟩, ⟨hp4, hp3, hp2⟩, hhw⟩ := hwTranslate_of_lookup hl
  have hpath := tablePath_userPath hx
  have hpre : ∀ p i, p ++ [i] <+: tablePath x → UserPath (p ++ [i]) :=
    fun p i hshort => tablePaths_user.of_prefix hshort hpath
  have hpre4 : [] ++ [pml4Index x] <+: tablePath x := ⟨[pdptIndex x, pdIndex x], rfl⟩
  have hpre3 : [pml4Index x] ++ [pdptIndex x] <+: tablePath x := ⟨[pdIndex x], rfl⟩
  have hpre2 : [pml4Index x, pdptIndex x] ++ [pdIndex x] <+: tablePath x := ⟨[], rfl⟩
  -- The tables above the leaf are writable wherever they are present.
  have hwr : ∀ {p i t}, p ++ [i] <+: tablePath x → walk (childOf tables) r p = some t →
      tables t i &&& Pte.present ≠ 0 → tables t i &&& Pte.writable ≠ 0 := by
    intro p i t hshort hw hpresent
    exact (h.writable p i t (hpre p i hshort) hw).resolve_left hpresent
  refine ⟨_, hhw, rfl, ?_, ?_⟩
  · show decide _ = true ↔ _
    rw [decide_eq_true_eq]
    by_cases huser : e &&& Pte.user ≠ 0
    · -- The three tables grant user access too.
      have halong := h.user x e hx hl huser
      have hbit : IsAccessBit Pte.user := .inl rfl
      rw [UInt64.and_assoc (tables r (pml4Index x)), UInt64.and_assoc (tables r (pml4Index x)),
        and_granted hbit (halong [] _ r hpre4 rfl hp4), UInt64.and_assoc (tables pdpt _),
        and_granted hbit (halong _ _ pdpt hpre3 hw4 hp3),
        and_granted hbit (halong _ _ pd hpre2 hw3 hp2)]
    · have hno := not_not.mp huser
      rw [UInt64.and_comm _ e, and_refused hno]
      simp [huser]
  · show decide _ = true ↔ _
    rw [decide_eq_true_eq]
    have hbit : IsAccessBit Pte.writable := .inr rfl
    rw [UInt64.and_assoc (tables r (pml4Index x)), UInt64.and_assoc (tables r (pml4Index x)),
      and_granted hbit (hwr hpre4 rfl hp4), UInt64.and_assoc (tables pdpt _),
      and_granted hbit (hwr hpre3 hw4 hp3), and_granted hbit (hwr hpre2 hw3 hp2)]

/-! ## What the calls keep -/

section kept

variable {tables : PageTables} {r t : UInt64} {p : List (Fin 512)} {i : Fin 512}

section link

variable {f flags : UInt64} (h : UserTree tables r) (hi : UserPath (p ++ [i]))
  (ht : walk (childOf tables) r p = some t) (habsent : tables t i &&& Pte.present = 0)
  (hfresh : FreshPage tables (· = r) UserPath f) (hflags : IsTableFlags flags)

include h hi ht habsent hfresh hflags

/-- A table entry that is present after linking is the new one, or was there. -/
theorem UserTree.link_present {q : List (Fin 512)} {j : Fin 512} {t' : UInt64}
    (hq : UserPath (q ++ [j]))
    (hw : walk (childOf (linkWith tables t i f flags)) r q = some t')
    (hpresent : linkWith tables t i f flags t' j &&& Pte.present ≠ 0) :
    (q = p ∧ j = i ∧ linkWith tables t i f flags t' j = tableEntryWith f flags) ∨
      (walk (childOf tables) r q = some t' ∧ linkWith tables t i f flags t' j = tables t' j ∧
        ¬ (q = p ∧ j = i)) := by
  have hp := userPath_closed p i hi
  have hft : f ≠ t := by
    intro heq
    exact hfresh.unreached r p rfl hp (heq ▸ ht)
  rcases h.same.walk_link userPath_closed rfl hp ht hfresh.unreached
    (linked_linkWith hfresh.ok hflags hft habsent) rfl (userPath_closed q j hq) with
    ⟨_, _, hx⟩ | ⟨_, hx⟩
  · -- The new table is empty.
    obtain rfl := Option.some.inj (hw.symm.trans hx)
    rw [linkWith_fresh hft] at hpresent
    exact absurd (UInt64.zero_and) hpresent
  · have hold := hx.symm.trans hw
    by_cases hlink : q = p ∧ t' = t ∧ j = i
    · obtain ⟨rfl, rfl, rfl⟩ := hlink
      exact .inl ⟨rfl, rfl, linkWith_link⟩
    · right
      refine ⟨hold, linkWith_read tablePaths_user h.same rfl hi ht hfresh rfl
        (userPath_closed q j hq) hold hlink, ?_⟩
      intro hc
      obtain ⟨rfl, rfl⟩ := hc
      exact hlink ⟨rfl, Option.some.inj (hold.symm.trans ht), rfl⟩

theorem UserTree.link : UserTree (linkWith tables t i f flags) r := by
  obtain ⟨hsame, _, _, hlookup⟩ := link_kept tablePaths_user h.same rfl hi ht habsent hfresh hflags
  refine ⟨hsame, ?_, ?_⟩
  · intro q j t' hq hw
    by_cases hpresent : linkWith tables t i f flags t' j &&& Pte.present = 0
    · exact .inl hpresent
    right
    rcases h.link_present hi ht habsent hfresh hflags hq hw hpresent with
      ⟨_, _, heq⟩ | ⟨hold, heq, _⟩
    · rw [heq, tableEntryWith_bits hfresh.ok hflags (by decide)]
      rcases hflags with rfl | rfl
      · decide
      · decide
    · rw [heq] at hpresent ⊢
      exact (h.writable q j t' hq hold).resolve_left hpresent
  · intro x e hx hl huser q j t' hshort hw hpresent
    have hpath := tablePath_userPath hx
    rw [hlookup r x rfl hpath] at hl
    rcases h.link_present hi ht habsent hfresh hflags (tablePaths_user.of_prefix hshort hpath) hw
      hpresent with ⟨rfl, rfl, _⟩ | ⟨hold, heq, _⟩
    · -- The lookup would have ended at the absent entry.
      obtain ⟨rest, hrest⟩ := hshort
      unfold lookupEntry at hl
      rw [← hrest, List.append_assoc, List.singleton_append, lookupAlong_absent ht habsent] at hl
      cases hl
    · rw [heq] at hpresent ⊢
      exact h.user x e hx hl huser q j t' hshort hold hpresent

/-- A table for a user mapping keeps the way open. -/
theorem UserTree.userAlong_link {path : List (Fin 512)} (hpath : UserPath path)
    (halong : UserAlong tables r path) (huser : flags = Pte.user) :
    UserAlong (linkWith tables t i f flags) r path := by
  intro q j t' hshort hw hpresent
  rcases h.link_present hi ht habsent hfresh hflags (tablePaths_user.of_prefix hshort hpath) hw
    hpresent with ⟨_, _, heq⟩ | ⟨hold, heq, _⟩
  · rw [heq, tableEntryWith_bits hfresh.ok hflags (by decide), huser]
    decide
  · rw [heq] at hpresent ⊢
    exact halong q j t' hshort hold hpresent

end link

/-- Writing a leaf entry leaves the table entries alone. -/
theorem UserTree.table_entries (h : UserTree tables r) (hp : UserPath p) (hlen : p.length = 3)
    (ht : walk (childOf tables) r p = some t) (e : UInt64) {q : List (Fin 512)} {j : Fin 512}
    {t' : UInt64} (hq : UserPath (q ++ [j]))
    (hw : walk (childOf (tables.setEntry t i e)) r q = some t') :
    walk (childOf tables) r q = some t' ∧ tables.setEntry t i e t' j = tables t' j := by
  have hq' := userPath_closed q j hq
  rw [walk_setLeaf tablePaths_user h.same.sameLevel rfl hp hlen ht i e rfl hq'] at hw
  refine ⟨hw, PageTables.setEntry_ne ?_⟩
  intro hc
  rw [hc.1] at hw
  have hqp := h.same r r q p t rfl rfl hq' hp hw ht
  have hle := hq.1
  rw [List.length_append, List.length_singleton, hqp, hlen] at hle
  omega

theorem UserTree.setLeaf (h : UserTree tables r) {virt : UInt64} (hvirt : virt.toNat < 2 ^ 47)
    (ht : walk (childOf tables) r (tablePath virt) = some t) {e : UInt64}
    (halong : e &&& Pte.user ≠ 0 → UserAlong tables r (tablePath virt)) :
    UserTree (tables.setEntry t (ptIndex virt) e) r := by
  have hpath := tablePath_userPath hvirt
  obtain ⟨hsame, hself, hother⟩ :=
    setLeaf_kept tablePaths_user h.same rfl hpath rfl ht (ptIndex virt) e
  have hkept : ∀ x : UInt64, x.toNat < 2 ^ 47 → UserAlong tables r (tablePath x) →
      UserAlong (tables.setEntry t (ptIndex virt) e) r (tablePath x) := by
    intro x hx hold q j t' hshort hw hpresent
    obtain ⟨hw', heq⟩ := h.table_entries hpath rfl ht e
      (tablePaths_user.of_prefix hshort (tablePath_userPath hx)) hw
    rw [heq] at hpresent ⊢
    exact hold q j t' hshort hw' hpresent
  refine ⟨hsame, ?_, ?_⟩
  · intro q j t' hq hw
    obtain ⟨hw', heq⟩ := h.table_entries hpath rfl ht e hq hw
    rw [heq]
    exact h.writable q j t' hq hw'
  · intro x e' hx hl huser
    apply hkept x hx
    by_cases hpage : tablePath x = tablePath virt ∧ ptIndex x = ptIndex virt
    · unfold lookupEntry at hl
      rw [hpage.1, hpage.2, lookupAlong_of_walk hself, PageTables.setEntry_self] at hl
      split at hl
      · cases hl
      obtain rfl := Except.ok.inj hl
      rw [hpage.1]
      exact halong huser
    · rw [hother r x rfl (tablePath_userPath hx) hpage] at hl
      exact h.user x e' hx hl huser

end kept

/-! ## Runs on one root -/

/-- A call that maps or unmaps a page of the root. -/
inductive MapCall where
  | map (pages : PageSupply) (virt phys flags : UInt64)
  | unmap (virt : UInt64)

/-- The calls on a root made by `scdk_vmm_create_root`. -/
def oneRoot (r : UInt64) : System Vmm MapCall (Except Err Unit) where
  init := fun v => ∃ v₀ pages, vmmCreateRoot v₀ pages = (.ok r, v)
  step := fun v call =>
    match call with
    | .map pages virt phys flags => vmmMapPageInRoot v pages r virt phys flags
    | .unmap virt => vmmUnmapPageInRoot v r virt

/-- The calls are on addresses of the lower half, and the page allocator hands out
    no page that is in use as a table there. -/
def LowerHalf (r : UInt64) (v : Vmm) : MapCall → Prop
  | .map pages virt _ _ => virt.toNat < 2 ^ 47 ∧ SupplyFresh v.tables (· = r) UserPath pages
  | .unmap virt => virt.toNat < 2 ^ 47

/-- Moreover, where a page gets a user mapping, the tables that are there already
    grant user access. -/
def UserWhereGranted (r : UInt64) (v : Vmm) : MapCall → Prop
  | .map pages virt phys flags => LowerHalf r v (.map pages virt phys flags) ∧
    (flags &&& vmmMapUser ≠ 0 → lookupEntry v.tables r virt = .error .noent →
      UserAlong v.tables r (tablePath virt))
  | .unmap virt => LowerHalf r v (.unmap virt)

section run

variable {v : Vmm} {r virt : UInt64}

/-- The user half of a new root is empty. -/
theorem userTree_init {v₀ : Vmm} {pages : PageSupply} (h : vmmCreateRoot v₀ pages = (.ok r, v)) :
    UserTree v.tables r := by
  have hzero : ∀ i : Fin 512, i.val < 256 → v.tables r i = 0 := by
    unfold vmmCreateRoot at h
    split at h
    · cases h
    split at h
    · cases h
    · intro i hi
      obtain ⟨hr, rfl⟩ := Prod.mk.inj h
      obtain rfl := Except.ok.inj hr
      simp [hi]
  -- The user half is empty, so the root is the only table reached by a user path.
  have hwalk : ∀ p k, UserPath p → walk (childOf v.tables) r p = some k → p = [] ∧ k = r := by
    intro p k hp hw
    cases p with
    | nil => exact ⟨rfl, (Option.some.inj hw).symm⟩
    | cons i p => simp [walk, childOf, hzero i (hp.2 i (by simp))] at hw
  refine ⟨?_, ?_, ?_⟩
  · intro r₁ r₂ p₁ p₂ k hr₁ hr₂ hp₁ hp₂ hw₁ hw₂
    rw [hr₁] at hw₁
    rw [hr₂] at hw₂
    rw [(hwalk p₁ k hp₁ hw₁).1, (hwalk p₂ k hp₂ hw₂).1]
  · intro p i t hp hw
    obtain ⟨rfl, rfl⟩ := hwalk p t (userPath_closed p i hp) hw
    left
    rw [hzero i (hp.2 i (by simp))]
    rfl
  · intro x e hx hl _
    have hi := pml4Index_lt hx
    have habsent : lookupEntry v.tables r x = .error .noent := by
      unfold lookupEntry
      refine lookupAlong_absent (p := []) (i := pml4Index x) rfl ?_
      rw [hzero _ hi]
      rfl
    rw [habsent] at hl
    cases hl

/-- The tables and the supply while tables are linked for a mapping at `virt`: the
    way to a page that gets a user mapping stays open. -/
structure Mapping (v : Vmm) (r virt flags : UInt64) (tables : PageTables) (pages : PageSupply) :
    Prop where
  kept : LookupsKept v.tables (· = r) UserPath tables pages
  tree : UserTree tables r
  along : flags &&& vmmMapUser ≠ 0 → lookupEntry v.tables r virt = .error .noent →
    UserAlong tables r (tablePath virt)

theorem Mapping.link {flags f t : UInt64} {tables : PageTables} {pages : PageSupply}
    {p : List (Fin 512)} {i : Fin 512} (h : Mapping v r virt flags tables (.ok f :: pages))
    (hvirt : virt.toNat < 2 ^ 47) (hshort : p ++ [i] <+: tablePath virt)
    (ht : walk (childOf tables) r p = some t) (habsent : tables t i &&& Pte.present = 0) :
    Mapping v r virt flags (linkWith tables t i f (tableFlagsOf flags)) pages ∧ FrameOk f ∧
      walk (childOf (linkWith tables t i f (tableFlagsOf flags))) r (p ++ [i]) = some f := by
  have hpath := tablePath_userPath hvirt
  have hi := tablePaths_user.of_prefix hshort hpath
  have hflags := isTableFlags_of flags
  have hfresh := h.kept.supply.fresh f (by simp [Except.toOption])
  have hlink := @LookupsKept.link (· = r) UserPath r virt tablePaths_user rfl hpath
  obtain ⟨hkept, hf, hself⟩ := hlink h.kept hflags hshort ht habsent
  refine ⟨⟨hkept, h.tree.link hi ht habsent hfresh hflags, ?_⟩, hf, hself⟩
  intro huser hnoent
  exact h.tree.userAlong_link hi ht habsent hfresh hflags hpath (h.along huser hnoent)
    (if_pos huser)

/-- Where the tables grant user access, mapping keeps the tree. -/
theorem UserTree.mapPage (h : UserTree v.tables r) (hvirt : virt.toNat < 2 ^ 47)
    {pages : PageSupply} (hfresh : SupplyFresh v.tables (· = r) UserPath pages)
    (phys : UInt64) {flags : UInt64}
    (hgranted : flags &&& vmmMapUser ≠ 0 → lookupEntry v.tables r virt = .error .noent →
      UserAlong v.tables r (tablePath virt)) :
    UserTree (vmmMapPageInRoot v pages r virt phys flags).2.tables r := by
  have hpath := tablePath_userPath hvirt
  have hflags := isTableFlags_of flags
  unfold vmmMapPageInRoot
  split
  · exact h
  split
  · exact h
  split
  · exact h
  -- Each table that is linked keeps the tree; what is left is the leaf.
  have hstart : Mapping v r virt flags v.tables pages :=
    ⟨⟨h.same, hfresh, fun _ _ _ _ => rfl⟩, h, hgranted⟩
  obtain ⟨res, tables, pages', hrun, ⟨⟨_, _, hlookup⟩, htree, halong⟩, hw⟩ :=
    leafTableForRoot_rule (fun _ _ _ hinv => ⟨hinv.kept.skip, hinv.tree, hinv.along⟩)
      (fun _ _ _ _ _ _ hinv => hinv.link hvirt) hflags hstart
  have hrun' : leafTableForRoot v.tables pages r virt true
      (if flags &&& vmmMapUser ≠ 0 then Pte.user else 0) = (res, tables, pages') := hrun
  dsimp only
  rw [hrun']
  cases res with
  | error e => exact htree
  | ok pt =>
    have hpt := hw pt rfl
    dsimp only
    split
    · exact htree
    · next hfree =>
      refine htree.setLeaf hvirt hpt ?_
      intro huser
      apply halong (leafEntry_user_imp huser)
      rw [← hlookup r virt rfl hpath]
      unfold lookupEntry
      rw [lookupAlong_of_walk hpt, if_pos (not_not.mp hfree)]

theorem UserTree.unmapPage (h : UserTree v.tables r) (hvirt : virt.toNat < 2 ^ 47) :
    UserTree (vmmUnmapPageInRoot v r virt).2.tables r := by
  unfold vmmUnmapPageInRoot
  split
  · exact h
  split
  · exact h
  obtain ⟨res, hrun, _, hw⟩ := leafTableForRoot_noCreate v.tables r virt
  rw [hrun]
  cases res with
  | error e => exact h
  | ok pt =>
    dsimp only
    split
    · exact h
    · exact h.setLeaf hvirt (hw pt rfl) (fun huser => absurd UInt64.zero_and huser)

/-- **Effective permissions.**  If user mappings are made only where the tables that
    are there grant user access, then in every run on a root the processor grants a
    user access to a page that is reported with `SCDK_VMM_MAP_USER`, and a write
    access to one reported with `SCDK_VMM_MAP_WRITE`, and no other. -/
theorem permissions_effective {log : List (MapCall × Except Err Unit)}
    (hrun : (oneRoot r).RunWhen (UserWhereGranted r) log v) {x phys flags : UInt64}
    (hx : x.toNat < 2 ^ 47) (hreport : vmmVirtToPhysInRoot v r x = .ok (phys, flags)) :
    ∃ t, hwTranslate v.tables r x = some t ∧ t.phys = phys ∧
      (t.user = true ↔ flags &&& vmmMapUser ≠ 0) ∧
      (t.write = true ↔ flags &&& vmmMapWrite ≠ 0) := by
  have htree : UserTree v.tables r := by
    apply hrun.invariant (P := fun v => UserTree v.tables r)
    · intro v hinit
      obtain ⟨v₀, pages, hcreate⟩ := hinit
      exact userTree_init hcreate
    · intro v call h hguard
      cases call with
      | map pages virt phys flags => exact h.mapPage hguard.1.1 hguard.1.2 phys hguard.2
      | unmap virt => exact h.unmapPage hguard
  rw [vmmVirtToPhysInRoot_lookup] at hreport
  split at hreport
  · cases hreport
  split at hreport
  · cases hreport
  cases hl : lookupEntry v.tables r x with
  | error e =>
    rw [hl] at hreport
    cases hreport
  | ok e =>
    rw [hl] at hreport
    obtain ⟨rfl, rfl⟩ := Prod.mk.inj (Except.ok.inj hreport)
    rw [entryFlags_user, entryFlags_write]
    exact htree.hwTranslate hx hl

end run

/-! ### A user page below a kernel table -/

/-- The root 0x1000, made below the boot root 0x8000. -/
def madeRoot : Vmm := (vmmCreateRoot ⟨fun _ _ => 0, 0x8000, true⟩ [.ok 0x1000]).2

theorem madeRoot_init : (oneRoot 0x1000).init madeRoot :=
  ⟨⟨fun _ _ => 0, 0x8000, true⟩, [.ok 0x1000], rfl⟩

/-- No table is reached from the new root but itself. -/
theorem walk_madeRoot {p : List (Fin 512)} {k : UInt64}
    (h : walk (childOf madeRoot.tables) 0x1000 p = some k) : p = [] ∧ k = 0x1000 := by
  cases p with
  | nil => exact ⟨rfl, (Option.some.inj h).symm⟩
  | cons i p =>
    have hzero : madeRoot.tables 0x1000 i = 0 := by
      simp [madeRoot, vmmCreateRoot, pageAlloc]
    simp [walk, childOf, hzero] at h

/-- A mapping at 0x200000, with the pages for its tables. -/
def firstMap (flags : UInt64) : MapCall :=
  .map [.ok 0x2000, .ok 0x3000, .ok 0x4000] 0x200000 0x9000 flags

theorem firstMap_lowerHalf (flags : UInt64) : LowerHalf 0x1000 madeRoot (firstMap flags) := by
  refine ⟨by decide, by decide, ?_⟩
  intro f hf
  have hpage : f = 0x2000 ∨ f = 0x3000 ∨ f = 0x4000 := by
    simpa [Except.toOption, eq_comm] using hf
  refine ⟨?_, ?_⟩
  · rcases hpage with rfl | rfl | rfl <;> decide
  · intro r q hr _ hw
    rw [hr] at hw
    obtain ⟨_, rfl⟩ := walk_madeRoot hw
    exact absurd hpage (by decide)

/-- A user mapping in the empty root. -/
theorem permissions_effective_first :
    ∃ t, hwTranslate ((oneRoot 0x1000).step madeRoot (firstMap 3)).2.tables 0x1000 0x200008 = some t ∧
      t.phys = 0x9008 ∧ (t.user = true ↔ (3 : UInt64) &&& vmmMapUser ≠ 0) ∧
      (t.write = true ↔ (3 : UInt64) &&& vmmMapWrite ≠ 0) := by
  have hguard : UserWhereGranted 0x1000 madeRoot (firstMap 3) := by
    refine ⟨firstMap_lowerHalf 3, ?_⟩
    intro _ _ p i t hshort hw hpresent
    obtain ⟨rfl, rfl⟩ := walk_madeRoot hw
    have hzero : madeRoot.tables 0x1000 i = 0 := by
      simp [madeRoot, vmmCreateRoot, pageAlloc]
    rw [hzero] at hpresent
    exact absurd UInt64.zero_and hpresent
  exact permissions_effective (.step _ (.init madeRoot_init) hguard) (by decide) (by decide +kernel)

/-- A kernel-only mapping makes the tables, and a user mapping in the same 2 MiB
    is then reported, but not granted. -/
theorem permissions_effective_fails :
    ¬ ∀ (r : UInt64) (log : List (MapCall × Except Err Unit)) (v : Vmm) (x phys flags : UInt64),
      (oneRoot r).RunWhen (LowerHalf r) log v → x.toNat < 2 ^ 47 →
      vmmVirtToPhysInRoot v r x = .ok (phys, flags) →
      ∃ t, hwTranslate v.tables r x = some t ∧
        (t.user = true ↔ flags &&& vmmMapUser ≠ 0) ∧
        (t.write = true ↔ flags &&& vmmMapWrite ≠ 0) := by
  intro hall
  have hsecond : LowerHalf 0x1000 ((oneRoot 0x1000).step madeRoot (firstMap 1)).2
      (.map [] 0x201000 0xa000 3) := by
    refine ⟨by decide, List.nodup_nil, ?_⟩
    intro f hf
    exact absurd hf List.not_mem_nil
  have hrun := ((System.RunWhen.init madeRoot_init).step _ (firstMap_lowerHalf 1)).step _ hsecond
  obtain ⟨t, ht, huser, _⟩ :=
    hall 0x1000 _ _ 0x201000 0xa000 3 hrun (by decide) (by decide +kernel)
  have hhw : hwTranslate ((oneRoot 0x1000).step ((oneRoot 0x1000).step madeRoot (firstMap 1)).2
      (.map [] 0x201000 0xa000 3)).2.tables 0x1000 0x201000 = some ⟨0xa000, false, true⟩ := by
    decide +kernel
  obtain rfl := Option.some.inj (ht.symm.trans hhw)
  have hyes : false = true := huser.mpr (by decide)
  cases hyes

end Scdk
