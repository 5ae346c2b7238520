import Mathlib.Data.List.Basic
import Mathlib.Data.List.Nodup
import Mathlib.Data.List.Perm.Basic

/-! # Pools

    A pool hands out items and takes them back.  From the log of its calls and
    answers one reads off which items are outstanding (`Pool.outstanding`): those
    handed out and not taken back since.

    The free items of a pool and its outstanding items have no item twice as
    long as nothing that is free is taken back (`take_nodup`, `give_nodup`), and
    they are always the same items if only outstanding ones are (`give_perm`). -/

namespace Pool

/-- A call to a pool. -/
inductive Call (α : Type) where
  | take
  | give (a : α)
  deriving DecidableEq, Repr

variable {α ε : Type} [DecidableEq α]

/-- The outstanding items after one more call. -/
def record (out : List α) : Call α × Except ε α → List α
  | (.take, .ok a) => a :: out
  | (.give a, .ok _) => out.filter (· ≠ a)
  | (_, .error _) => out

/-- The items that were handed out and not taken back since. -/
def outstanding (log : List (Call α × Except ε α)) : List α := log.foldl record []

theorem outstanding_concat (log : List (Call α × Except ε α)) (entry : Call α × Except ε α) :
    outstanding (log ++ [entry]) = record (outstanding log) entry := by
  simp [outstanding]

variable {a : α} {free out : List α}

omit [DecidableEq α] in
/-- An item moves from the free ones to the outstanding ones. -/
theorem take_perm : (free ++ a :: out).Perm ((a :: free) ++ out) := List.perm_middle

omit [DecidableEq α] in
theorem take_nodup (h : ((a :: free) ++ out).Nodup) : (free ++ a :: out).Nodup :=
  take_perm.nodup_iff.mpr h

/-- Whether or not it was outstanding, an item that is not free can be taken
    back. -/
theorem give_nodup (h : (free ++ out).Nodup) (ha : a ∉ free) :
    ((a :: free) ++ out.filter (· ≠ a)).Nodup := by
  have hout : a ∉ out.filter (· ≠ a) := by simp
  have hkept : (free ++ out.filter (· ≠ a)).Nodup :=
    h.sublist (List.filter_sublist.append_left free)
  rw [List.cons_append, List.nodup_cons]
  refine ⟨?_, hkept⟩
  intro hmem
  rcases List.mem_append.mp hmem with hmem | hmem
  · exact ha hmem
  · exact hout hmem

/-- An outstanding item that is taken back moves to the free ones. -/
theorem give_perm (h : (free ++ out).Nodup) (ha : a ∈ out) :
    ((a :: free) ++ out.filter (· ≠ a)).Perm (free ++ out) := by
  have hfilter : out.filter (· ≠ a) = out.erase a := by
    rw [h.of_append_right.erase_eq_filter]
    apply List.filter_congr
    intro b _
    by_cases hb : b = a <;> simp [hb]
  rw [hfilter]
  have hmove : ((a :: free) ++ out.erase a).Perm (free ++ a :: out.erase a) :=
    List.perm_middle.symm
  exact hmove.trans ((List.perm_cons_erase ha).symm.append_left free)

end Pool
