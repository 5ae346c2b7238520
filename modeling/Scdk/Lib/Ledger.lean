import Scdk.Lib.Effect

/-! # Ledgers

    A C function that allocates has to give back what it has taken, on each of its
    ways out, and once.  Here the state of the program stands beside the list of what
    was taken and the list of what was given back.

    * `Ledger`, with the actions `on`, `take` and `release`,
    * `Ledger.Owes`: which resources are still to be given back,
    * `Owes.take`, `Owes.release`: how the two actions change them,
    * `Ledger.Gives`: an action that gives back exactly these; one rule for each way to
      build it. -/

/-- A state, with the resources that were taken and those that were released. -/
structure Ledger (σ ρ : Type) where
  state : σ
  taken : List ρ
  released : List ρ

namespace Ledger

variable {ε σ ρ α : Type}

/-- Nothing was taken yet. -/
def start (s : σ) : Ledger σ ρ := ⟨s, [], []⟩

/-- An action on the state. -/
def on (m : Effect ε σ α) : Effect ε (Ledger σ ρ) α := fun l =>
  ((m l.state).1, { l with state := (m l.state).2 })

/-- The allocator hands out `r`. -/
def take (r : ρ) : Effect ε (Ledger σ ρ) Unit := .modify fun l => { l with taken := r :: l.taken }

/-- The allocator takes `r` back. -/
def release (r : ρ) : Effect ε (Ledger σ ρ) Unit :=
  .modify fun l => { l with released := r :: l.released }

/-- What was taken has been released once, all but `held`. -/
def Owes (l : Ledger σ ρ) (held : List ρ) : Prop := l.taken.Perm (held ++ l.released)

theorem owes_start (s : σ) : (start s : Ledger σ ρ).Owes [] := .refl []

theorem take_run (r : ρ) (l : Ledger σ ρ) :
    (take r l : Except ε Unit × Ledger σ ρ) = (.ok (), { l with taken := r :: l.taken }) := rfl

theorem release_run (r : ρ) (l : Ledger σ ρ) :
    (release r l : Except ε Unit × Ledger σ ρ) = (.ok (), { l with released := r :: l.released }) := rfl

theorem Owes.take {l : Ledger σ ρ} {held : List ρ} (h : l.Owes held) (r : ρ) :
    Owes { l with taken := r :: l.taken } (r :: held) := h.cons r

theorem Owes.release {l : Ledger σ ρ} {held : List ρ} {r : ρ} (h : l.Owes (r :: held)) :
    Owes { l with released := r :: l.released } held := h.trans List.perm_middle.symm

/-- An action on the state alone. -/
theorem Owes.on {l : Ledger σ ρ} {held : List ρ} (h : l.Owes held) (m : Effect ε σ α) :
    (Ledger.on m l).2.Owes held := h

/-- The action gives back `part`, whatever else is held, and takes nothing. -/
def Gives (m : Effect ε (Ledger σ ρ) Unit) (part : List ρ) : Prop :=
  ∀ l rest, l.Owes (part ++ rest) → ∃ l', m l = (.ok (), l') ∧ l'.Owes rest ∧ l'.taken = l.taken

theorem gives_pure : Gives (pure () : Effect ε (Ledger σ ρ) Unit) [] :=
  fun l _ h => ⟨l, rfl, h, rfl⟩

theorem gives_release (r : ρ) : Gives (release r : Effect ε (Ledger σ ρ) Unit) [r] :=
  fun l _ h => ⟨_, release_run r l, h.release, rfl⟩

theorem Gives.bind {m m' : Effect ε (Ledger σ ρ) Unit} {part part' : List ρ} (hm : Gives m part)
    (hm' : Gives m' part') : Gives (m >>= fun _ => m') (part ++ part') := by
  intro l rest h
  rw [List.append_assoc] at h
  obtain ⟨l₁, hrun, howes, htaken⟩ := hm l _ h
  obtain ⟨l₂, hrun', howes', htaken'⟩ := hm' l₁ rest howes
  exact ⟨l₂, (Effect.bind_of_ok hrun _).trans hrun', howes', htaken'.trans htaken⟩

/-- An action on the state first, that does not fail. -/
theorem Gives.on_bind {m : Effect ε σ Unit} (hm : ∀ s, (m s).1 = .ok ())
    {m' : Effect ε (Ledger σ ρ) Unit} {part : List ρ} (hm' : Gives m' part) :
    Gives (on m >>= fun _ => m') part := by
  intro l rest h
  have hrun : on m l = (.ok (), { l with state := (m l.state).2 }) := Prod.ext (hm l.state) rfl
  rw [Effect.bind_of_ok hrun]
  exact hm' _ rest h

/-- Or one whose answer is not looked at. -/
theorem Gives.after {m : Effect ε σ α} {m' : Effect ε (Ledger σ ρ) Unit} {part : List ρ}
    (hm' : Gives m' part) : Gives ((on m).attempt >>= fun _ => m') part := by
  intro l rest h
  rw [Effect.attempt_bind]
  exact hm' _ rest h

end Ledger
