import Mathlib.Order.Defs.Unbundled

/-! # Fallible actions on a state

    A function of a C program that returns a status and works on static
    variables: it answers a value or an error, and what it did to the state
    before it failed stays done.

    * `Effect`, with its monad structure and the primitive actions,
    * `Effect.Within R`: whatever the action answers, the step it takes is one
      of the preorder `R`; one rule for each way to build an action,
    * `Effect.Over part`: the same action on more state; one rule for each way to
      build an action,
    * `Effect.Triple`: pre- and postconditions, with one for errors,
    * `Effect.Keeps P`: the preorder of the steps that keep `P`,
    * `Effect.bind_eq_ok`: the run of a sequence that succeeds. -/

/-- An effect on states of type `σ`: a value or an error, and the state
    afterwards. -/
def Effect (ε σ α : Type) : Type := σ → Except ε α × σ

namespace Effect

variable {ε σ α β : Type}

instance : Monad (Effect ε σ) where
  pure a := fun s => (.ok a, s)
  bind m f := fun s =>
    match m s with
    | (.error e, s') => (.error e, s')
    | (.ok a, s') => f a s'

/-- Answer an error. -/
def fail (e : ε) : Effect ε σ α := fun s => (.error e, s)

/-- Go on if `p` holds, and answer the error `e` otherwise. -/
def require (p : Prop) [Decidable p] (e : ε) : Effect ε σ Unit :=
  fun s => if p then (.ok (), s) else (.error e, s)

/-- Read the state, which may answer an error. -/
def ask (f : σ → Except ε α) : Effect ε σ α := fun s => (f s, s)

/-- The state. -/
def get : Effect ε σ σ := fun s => (.ok s, s)

/-- Change the state. -/
def modify (f : σ → σ) : Effect ε σ Unit := fun s => (.ok (), f s)

/-- Run an action and look at what it answered. -/
def attempt (m : Effect ε σ α) : Effect ε σ (Except ε α) := fun s => (.ok (m s).1, (m s).2)

/-! ## Running -/

section run

variable {s : σ}

@[simp] theorem pure_run (a : α) : (pure a : Effect ε σ α) s = (.ok a, s) := rfl

theorem bind_run (m : Effect ε σ α) (f : α → Effect ε σ β) :
    (m >>= f) s =
      match m s with
      | (.error e, s') => (.error e, s')
      | (.ok a, s') => f a s' := rfl

/-- A first action that fails ends the sequence. -/
theorem bind_of_error {m : Effect ε σ α} {e : ε} {s' : σ} (h : m s = (.error e, s'))
    (f : α → Effect ε σ β) : (m >>= f) s = (.error e, s') := by
  rw [bind_run, h]

/-- A first action that succeeds hands over its value. -/
theorem bind_of_ok {m : Effect ε σ α} {a : α} {s' : σ} (h : m s = (.ok a, s'))
    (f : α → Effect ε σ β) : (m >>= f) s = f a s' := by
  rw [bind_run, h]

theorem bind_assoc {γ : Type} (m : Effect ε σ α) (f : α → Effect ε σ β) (g : β → Effect ε σ γ) :
    (m >>= f) >>= g = m >>= fun a => f a >>= g := by
  funext s
  rw [bind_run, bind_run, bind_run]
  rcases m s with ⟨r, s'⟩
  cases r with
  | error e => rfl
  | ok a => rfl

/-- A sequence succeeds when both parts do. -/
theorem bind_eq_ok {m : Effect ε σ α} {f : α → Effect ε σ β} {b : β} {s'' : σ}
    (h : (m >>= f) s = (.ok b, s'')) : ∃ a s', m s = (.ok a, s') ∧ f a s' = (.ok b, s'') := by
  rw [bind_run] at h
  rcases hm : m s with ⟨r, s'⟩
  rw [hm] at h
  cases r with
  | error e => cases h
  | ok a => exact ⟨a, s', rfl, h⟩

/-- A sequence ends with its first part, or goes on from there. -/
theorem bind_cases (m : Effect ε σ α) (f : α → Effect ε σ β) (s : σ) :
    ((m >>= f) s).2 = (m s).2 ∨ ∃ a, (m >>= f) s = f a (m s).2 := by
  rw [bind_run]
  rcases m s with ⟨r, s'⟩
  cases r with
  | error e => exact .inl rfl
  | ok a => exact .inr ⟨a, rfl⟩

theorem require_pos {p : Prop} [Decidable p] (h : p) (e : ε) :
    require p e s = (.ok (), s) := if_pos h

theorem require_neg {p : Prop} [Decidable p] (h : ¬ p) (e : ε) :
    require p e s = (.error e, s) := if_neg h

theorem require_eq_ok {p : Prop} [Decidable p] {e : ε} {u : Unit} {s' : σ}
    (h : require p e s = (.ok u, s')) : p ∧ s' = s := by
  unfold require at h
  split at h
  · next hp => exact ⟨hp, (Prod.mk.inj h).2.symm⟩
  · cases h

theorem ask_bind (f : σ → Except ε α) (g : α → Effect ε σ β) :
    (ask f >>= g) s =
      match f s with
      | .error e => (.error e, s)
      | .ok a => g a s := by
  rw [bind_run, ask]
  cases f s with
  | error e => rfl
  | ok a => rfl

theorem attempt_bind (m : Effect ε σ α) (f : Except ε α → Effect ε σ β) :
    (m.attempt >>= f) s = f (m s).1 (m s).2 := rfl

theorem ask_attempt_bind (f : σ → Except ε α) (g : Except ε α → Effect ε σ β) :
    ((ask f).attempt >>= g) s = g (f s) s := rfl

theorem get_run : (get : Effect ε σ σ) s = (.ok s, s) := rfl

theorem ask_eq_ok {f : σ → Except ε α} {a : α} {s' : σ} (h : ask f s = (.ok a, s')) :
    f s = .ok a ∧ s' = s := by
  obtain ⟨hf, hs⟩ := Prod.mk.inj h
  exact ⟨hf, hs.symm⟩

end run

/-! ## Frames -/

/-- Every step of `m` is a step of `R`. -/
def Within (R : σ → σ → Prop) (m : Effect ε σ α) : Prop := ∀ s, R s (m s).2

section within

variable {R : σ → σ → Prop}

theorem Within.attempt {m : Effect ε σ α} (hm : Within R m) : Within R m.attempt := hm

theorem Within.ite {p : Prop} [Decidable p] {m m' : Effect ε σ α} (hm : Within R m)
    (hm' : Within R m') : Within R (if p then m else m') := by
  split
  · exact hm
  · exact hm'

theorem within_modify {f : σ → σ} (h : ∀ s, R s (f s)) :
    Within R (modify f : Effect ε σ Unit) := h

/-- What a sequence answers and leaves, where its first part takes steps of `R`. -/
theorem Within.bind_ends {m : Effect ε σ α} {f : α → Effect ε σ β} {s : σ}
    {Q : Except ε β → σ → Prop} (hm : Within R m) (herror : ∀ e s', R s s' → Q (.error e) s')
    (hok : ∀ a s', m s = (.ok a, s') → R s s' → Q (f a s').1 (f a s').2) :
    Q ((m >>= f) s).1 ((m >>= f) s).2 := by
  have hfirst := hm s
  rw [bind_run]
  rcases h : m s with ⟨r, s'⟩
  rw [h] at hfirst
  cases r with
  | error e => exact herror e s' hfirst
  | ok a => exact hok a s' h hfirst

variable [IsPreorder σ R]

theorem within_pure (a : α) : Within R (pure a : Effect ε σ α) := fun s => refl s

theorem within_fail (e : ε) : Within R (fail e : Effect ε σ α) := fun s => refl s

theorem within_ask (f : σ → Except ε α) : Within R (ask f) := fun s => refl s

theorem within_get : Within R (get : Effect ε σ σ) := fun s => refl s

theorem within_require (p : Prop) [Decidable p] (e : ε) :
    Within R (require p e : Effect ε σ Unit) := by
  intro s
  unfold require
  split
  · exact refl s
  · exact refl s

/-- The steps of a sequence are the steps of its parts. -/
theorem Within.bind {m : Effect ε σ α} {f : α → Effect ε σ β} (hm : Within R m)
    (hf : ∀ a, Within R (f a)) : Within R (m >>= f) := by
  intro s
  have hfirst := hm s
  rw [bind_run]
  rcases h : m s with ⟨r, s'⟩
  rw [h] at hfirst
  cases r with
  | error e => exact hfirst
  | ok a => exact IsTrans.trans _ _ _ hfirst (hf a s')

end within

/-! ## Part of the state -/

/-- On the part `part` of the state, `m` does what `m'` does. -/
def Over {τ : Type} (part : σ → τ) (m : Effect ε σ α) (m' : Effect ε τ α) : Prop :=
  ∀ s, (m s).1 = (m' (part s)).1 ∧ part (m s).2 = (m' (part s)).2

section parts

variable {τ : Type} {part : σ → τ}

theorem over_pure (a : α) : Over part (pure a : Effect ε σ α) (pure a) := fun _ => ⟨rfl, rfl⟩

theorem over_fail (e : ε) : Over part (fail e : Effect ε σ α) (fail e) := fun _ => ⟨rfl, rfl⟩

theorem Over.attempt {m : Effect ε σ α} {m' : Effect ε τ α} (h : Over part m m') :
    Over part m.attempt m'.attempt := by
  intro s
  obtain ⟨hanswer, hstate⟩ := h s
  exact ⟨congrArg Except.ok hanswer, hstate⟩

theorem Over.bind {m : Effect ε σ α} {m' : Effect ε τ α} {f : α → Effect ε σ β}
    {f' : α → Effect ε τ β} (hm : Over part m m') (hf : ∀ a, Over part (f a) (f' a)) :
    Over part (m >>= f) (m' >>= f') := by
  intro s
  obtain ⟨hanswer, hstate⟩ := hm s
  rw [bind_run, bind_run]
  rcases hrun : m s with ⟨r, s'⟩
  rcases hrun' : m' (part s) with ⟨r', t'⟩
  rw [hrun, hrun'] at hanswer hstate
  obtain rfl : r = r' := hanswer
  obtain rfl : part s' = t' := hstate
  cases r with
  | error e => exact ⟨rfl, rfl⟩
  | ok a => exact hf a s'

/-- A first action beside that part. -/
theorem Over.beside {m : Effect ε σ α} {a : α} {f : α → Effect ε σ β} {m' : Effect ε τ β}
    (hm : ∀ s, ∃ s', m s = (.ok a, s') ∧ part s' = part s) (hf : Over part (f a) m') :
    Over part (m >>= f) m' := by
  intro s
  obtain ⟨s', hrun, hpart⟩ := hm s
  rw [bind_of_ok hrun, ← hpart]
  exact hf s'

end parts

/-! ## Pre- and postconditions -/

/-- From a state with `P`, an answer leaves `Q`, and an error leaves `E`. -/
def Triple (P : σ → Prop) (m : Effect ε σ α) (Q : α → σ → Prop) (E : σ → Prop) : Prop :=
  ∀ s, P s → (∀ a, (m s).1 = .ok a → Q a (m s).2) ∧ ∀ e, (m s).1 = .error e → E (m s).2

section triple

variable {P : σ → Prop} {E : σ → Prop}

theorem triple_pure {Q : α → σ → Prop} {a : α} (h : ∀ s, P s → Q a s) :
    Triple P (pure a : Effect ε σ α) Q E := by
  intro s hs
  refine ⟨fun b hb => ?_, fun _ he => nomatch he⟩
  obtain rfl := Except.ok.inj hb
  exact h s hs

theorem Triple.bind {Q : α → σ → Prop} {Q' : β → σ → Prop} {m : Effect ε σ α}
    {f : α → Effect ε σ β} (hm : Triple P m Q E) (hf : ∀ a, Triple (Q a) (f a) Q' E) :
    Triple P (m >>= f) Q' E := by
  intro s hs
  obtain ⟨hok, herror⟩ := hm s hs
  rw [bind_run]
  generalize m s = out at hok herror
  obtain ⟨r, s'⟩ := out
  cases r with
  | error e => exact ⟨fun _ ha => (nomatch ha), fun _ _ => herror e rfl⟩
  | ok a => exact hf a s' (hok a rfl)

/-- Less is said about errors. -/
theorem Triple.errors {E' : σ → Prop} {Q : α → σ → Prop} {m : Effect ε σ α} (h : Triple P m Q E)
    (hE : ∀ s, E s → E' s) : Triple P m Q E' := by
  intro s hs
  obtain ⟨hok, herror⟩ := h s hs
  exact ⟨hok, fun e he => hE _ (herror e he)⟩

end triple

/-! ## Properties of the state -/

/-- A step that keeps `P`. -/
def Keeps (P : σ → Prop) (s s' : σ) : Prop := P s → P s'

instance (P : σ → Prop) : IsPreorder σ (Keeps P) where
  refl := fun _ h => h
  trans := fun _ _ _ h h' hs => h' (h hs)

end Effect
