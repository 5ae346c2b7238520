import Scdk.Lib.Effect

/-! # Two runs that start apart

    A change `T` of the state, and the runs of an action from a state and from
    the changed one.

    * `Effect.Carries T m s`: the two runs answer the same, and the states
      afterwards still differ by `T`,
    * `Effect.Forgets T m s`: the two runs end in the same way.

    * `Effect.Splits T A m s`: the runs forget the change if `A` holds, and carry
      it otherwise.

    One rule for each way to build an action, from the run that starts in `s`; the
    rules for `Splits` compute the condition along the action. -/

namespace Effect

variable {ε σ α β : Type} {T : σ → σ} {s : σ}

/-- The run from the changed state is that from `s`, with the change. -/
def Carries (T : σ → σ) (m : Effect ε σ α) (s : σ) : Prop := m (T s) = ((m s).1, T (m s).2)

/-- The run from the changed state is that from `s`. -/
def Forgets (T : σ → σ) (m : Effect ε σ α) (s : σ) : Prop := m (T s) = m s

theorem carries_pure (a : α) : Carries T (pure a : Effect ε σ α) s := rfl

theorem carries_fail (e : ε) : Carries T (fail e : Effect ε σ α) s := rfl

theorem carries_ask {f : σ → Except ε α} (h : f (T s) = f s) : Carries T (ask f) s := by
  unfold Carries ask
  rw [h]

theorem carries_require (p : Prop) [Decidable p] (e : ε) :
    Carries T (require p e : Effect ε σ Unit) s := by
  unfold Carries require
  split
  · rfl
  · rfl

theorem forgets_modify {f : σ → σ} (h : f (T s) = f s) :
    Forgets T (modify f : Effect ε σ Unit) s := by
  unfold Forgets modify
  rw [h]

theorem Carries.attempt {m : Effect ε σ α} (h : Carries T m s) : Carries T m.attempt s := by
  unfold Carries Effect.attempt
  rw [h]

theorem Forgets.attempt {m : Effect ε σ α} (h : Forgets T m s) : Forgets T m.attempt s := by
  unfold Forgets Effect.attempt
  rw [h]

/-- What carries the change hands it on. -/
theorem Carries.bind {m : Effect ε σ α} {f : α → Effect ε σ β} (hm : Carries T m s)
    (hf : ∀ a s', m s = (.ok a, s') → Carries T (f a) s') : Carries T (m >>= f) s := by
  unfold Carries at hm ⊢
  rw [bind_run, bind_run, hm]
  rcases h : m s with ⟨r, s'⟩
  cases r with
  | error e => rfl
  | ok a => exact hf a s' h

/-- A sequence forgets the change as soon as one part does. -/
theorem Carries.bind_forgets {m : Effect ε σ α} {f : α → Effect ε σ β} {a : α} {s' : σ}
    (hm : Carries T m s) (h : m s = (.ok a, s')) (hf : Forgets T (f a) s') :
    Forgets T (m >>= f) s := by
  unfold Carries at hm
  unfold Forgets at hf ⊢
  rw [bind_run, bind_run, hm, h]
  exact hf

theorem Forgets.bind {m : Effect ε σ α} (hm : Forgets T m s) (f : α → Effect ε σ β) :
    Forgets T (m >>= f) s := by
  unfold Forgets at hm ⊢
  rw [bind_run, bind_run, hm]

/-! ## Which of the two -/

/-- The change is forgotten exactly where `A` says so. -/
structure Splits (T : σ → σ) (A : Prop) (m : Effect ε σ α) (s : σ) : Prop where
  forgets : A → Forgets T m s
  carries : ¬ A → Carries T m s

theorem Carries.splits {m : Effect ε σ α} (h : Carries T m s) : Splits T False m s :=
  ⟨False.elim, fun _ => h⟩

theorem Forgets.splits {m : Effect ε σ α} (h : Forgets T m s) : Splits T True m s :=
  ⟨fun _ => h, fun hn => absurd trivial hn⟩

theorem Splits.congr {A B : Prop} {m : Effect ε σ α} (h : Splits T A m s) (hiff : B ↔ A) :
    Splits T B m s :=
  ⟨fun hb => h.forgets (hiff.mp hb), fun hb => h.carries fun ha => hb (hiff.mpr ha)⟩

/-- A first part that carries the change, and a rest that depends on what it
    answers. -/
theorem Splits.bind {m : Effect ε σ α} {f : α → Effect ε σ β} {A : α → σ → Prop}
    (hm : Carries T m s) (hf : ∀ a s', m s = (.ok a, s') → Splits T (A a s') (f a) s') :
    Splits T (∃ a s', m s = (.ok a, s') ∧ A a s') (m >>= f) s where
  forgets := by
    rintro ⟨a, s', h, ha⟩
    exact hm.bind_forgets h ((hf a s' h).forgets ha)
  carries := by
    intro hn
    apply hm.bind
    intro a s' h
    exact (hf a s' h).carries fun ha => hn ⟨a, s', h, ha⟩

/-- The same where the first part reads the state. -/
theorem Splits.ask_bind {f : σ → Except ε α} {g : α → Effect ε σ β} {A : α → Prop}
    (hf : f (T s) = f s) (hg : ∀ a, f s = .ok a → Splits T (A a) (g a) s) :
    Splits T (∃ a, f s = .ok a ∧ A a) (ask f >>= g) s where
  forgets := by
    rintro ⟨a, h, ha⟩
    have hask : ask f s = (.ok a, s) := Prod.ext h rfl
    exact (carries_ask hf).bind_forgets hask ((hg a h).forgets ha)
  carries := by
    intro hn
    apply (carries_ask hf).bind
    intro a s' h
    obtain ⟨hfa, rfl⟩ := ask_eq_ok h
    exact (hg a hfa).carries fun ha => hn ⟨a, hfa, ha⟩

theorem Splits.require_bind {p : Prop} [Decidable p] {e : ε} {f : Unit → Effect ε σ β} {A : Prop}
    (hf : p → Splits T A (f ()) s) : Splits T (p ∧ A) (require p e >>= f) s where
  forgets := by
    rintro ⟨hp, ha⟩
    exact (carries_require p e).bind_forgets (require_pos hp e) ((hf hp).forgets ha)
  carries := by
    intro hn
    apply (carries_require p e).bind
    intro u s' h
    obtain ⟨hp, rfl⟩ := require_eq_ok h
    exact (hf hp).carries fun ha => hn ⟨hp, ha⟩

/-- A part of the state is read, and used in the same way in both runs. -/
theorem Splits.read_bind {f : σ → α} {g : α → Effect ε σ β} {A : Prop} (h : g (f (T s)) = g (f s))
    (hg : Splits T A (g (f s)) s) : Splits T A ((ask fun s => .ok (f s)) >>= g) s := by
  have hrun : ∀ s', ((ask fun s => .ok (f s)) >>= g) s' = g (f s') s' := fun _ => rfl
  constructor
  · intro ha
    unfold Forgets
    rw [hrun, hrun, h]
    exact hg.forgets ha
  · intro ha
    unfold Carries
    rw [hrun, hrun, h]
    exact hg.carries ha

theorem Splits.get_bind {g : σ → Effect ε σ β} {A : Prop} (h : g (T s) = g s)
    (hg : Splits T A (g s) s) : Splits T A (get >>= g) s :=
  Splits.read_bind (f := fun s => s) h hg

end Effect
