import Mathlib.Logic.Basic

/-! # Systems that answer their callers

    A table, a queue or an allocator is driven by calls: each call is a step
    of the system, and the caller sees an answer.  This module fixes the
    small amount of run theory that the rest of the development uses:

    * `System`: initial states and a step function that returns an answer,
    * `System.RunWhen`: the runs whose steps all satisfy a guard, together
      with the log of calls and answers,
    * the invariant rule and the decomposition of a run at one of its steps,
    * `System.exec`: the run of a given list of calls.
-/

/-- A log that ends in `last` has an entry `x` either as that last one, or in
    its older part. -/
theorem List.concat_eq_append_cons {γ : Type} {l pre post : List γ} {last x : γ}
    (h : l ++ [last] = pre ++ x :: post) :
    (pre = l ∧ x = last ∧ post = []) ∨ ∃ post', post = post' ++ [last] ∧ l = pre ++ x :: post' := by
  rcases List.eq_nil_or_concat post with rfl | ⟨post', y, rfl⟩
  · have hcut := List.append_inj' h rfl
    exact .inl ⟨hcut.1.symm, (List.singleton_inj.mp hcut.2).symm, rfl⟩
  · have hshort : l ++ [last] = (pre ++ x :: post') ++ [y] := by simpa using h
    have hcut := List.append_inj' hshort rfl
    rw [List.concat_eq_append, List.singleton_inj.mp hcut.2]
    exact .inr ⟨post', rfl, hcut.1⟩

/-- A system driven by calls.  `step s a` is the answer given to the call `a`
    in state `s`, and the state afterwards. -/
structure System (σ α β : Type) where
  init : σ → Prop
  step : σ → α → β × σ

namespace System

variable {σ α β : Type}

/-- `sys.RunWhen guard log s`: some run from an initial state, each of whose
    steps satisfies `guard` in the state it is taken from, ends in `s` and has
    produced the calls and answers of `log`, oldest first. -/
inductive RunWhen (sys : System σ α β) (guard : σ → α → Prop) :
    List (α × β) → σ → Prop where
  | init {s : σ} : sys.init s → RunWhen sys guard [] s
  | step {log : List (α × β)} {s : σ} (a : α) :
      RunWhen sys guard log s → guard s a →
      RunWhen sys guard (log ++ [(a, (sys.step s a).1)]) (sys.step s a).2

/-- An unrestricted run. -/
def Run (sys : System σ α β) : List (α × β) → σ → Prop :=
  sys.RunWhen (fun _ _ => True)

variable {sys : System σ α β} {guard guard' : σ → α → Prop}
  {log : List (α × β)} {s : σ}

theorem Run.init (h : sys.init s) : sys.Run [] s := RunWhen.init h

theorem Run.step (h : sys.Run log s) (a : α) :
    sys.Run (log ++ [(a, (sys.step s a).1)]) (sys.step s a).2 :=
  RunWhen.step a h trivial

/-- Loosening the guard keeps a run. -/
theorem RunWhen.mono (hg : ∀ s a, guard s a → guard' s a)
    (h : sys.RunWhen guard log s) : sys.RunWhen guard' log s := by
  induction h with
  | init h0 => exact .init h0
  | step a _ hga ih => exact .step a ih (hg _ a hga)

/-- **Invariant rule.**  What holds initially and is kept by every guarded
    step holds at the end of every guarded run. -/
theorem RunWhen.invariant {P : σ → Prop} (hinit : ∀ s, sys.init s → P s)
    (hstep : ∀ s a, P s → guard s a → P (sys.step s a).2)
    (h : sys.RunWhen guard log s) : P s := by
  induction h with
  | init h0 => exact hinit _ h0
  | step a _ hga ih => exact hstep _ a ih hga

/-- A run can be cut before any of its steps: the step was taken, under the
    guard, from a state that the run had reached. -/
theorem RunWhen.cut (h : sys.RunWhen guard log s) :
    ∀ {pre post : List (α × β)} {a : α} {b : β}, log = pre ++ (a, b) :: post →
      ∃ s₀, sys.RunWhen guard pre s₀ ∧ guard s₀ a ∧ (sys.step s₀ a).1 = b := by
  induction h with
  | init _ => intro pre post a b heq; simp at heq
  | @step log s a' hrun hga ih =>
    intro pre post a b heq
    rcases List.concat_eq_append_cons heq with ⟨rfl, hlast, _⟩ | ⟨post', _, hlog⟩
    · obtain ⟨rfl, rfl⟩ := Prod.mk.inj hlast
      exact ⟨s, hrun, hga, rfl⟩
    · exact ih hlog

/-! ## Runs of given calls -/

/-- The state after the calls of a list. -/
def exec (sys : System σ α β) : σ → List α → σ
  | s, [] => s
  | s, a :: calls => exec sys (sys.step s a).2 calls

/-- Every call of the list satisfies the guard where it is made. -/
def Guarded (sys : System σ α β) (guard : σ → α → Prop) : σ → List α → Prop
  | _, [] => True
  | s, a :: calls => guard s a ∧ Guarded sys guard (sys.step s a).2 calls

/-- A run goes on with any calls that satisfy the guard. -/
theorem RunWhen.exec {calls : List α} (h : sys.RunWhen guard log s)
    (hg : sys.Guarded guard s calls) : ∃ log', sys.RunWhen guard log' (sys.exec s calls) := by
  induction calls generalizing log s with
  | nil => exact ⟨log, h⟩
  | cons a calls ih => exact ih (h.step a hg.1) hg.2

/-- An unrestricted run goes on with any calls. -/
theorem Run.exec (h : sys.Run log s) (calls : List α) : ∃ log', sys.Run log' (sys.exec s calls) := by
  induction calls generalizing log s with
  | nil => exact ⟨log, h⟩
  | cons a calls ih => exact ih (h.step a)

/-- What every guarded step keeps still holds after the calls of a list. -/
theorem Guarded.invariant {P : σ → Prop} {calls : List α}
    (hstep : ∀ s a, P s → guard s a → P (sys.step s a).2)
    (hg : sys.Guarded guard s calls) (h : P s) : P (sys.exec s calls) := by
  induction calls generalizing s with
  | nil => exact h
  | cons a calls ih => exact ih hg.2 (hstep s a h hg.1)

end System
