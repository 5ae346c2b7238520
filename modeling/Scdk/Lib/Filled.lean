import Mathlib.Data.List.OfFn
import Mathlib.Logic.Function.Basic

/-! # Arrays that are filled from the front

    An array of `n` cells with the number of those that are filled.

    * `Filled.items`: what is in the filled cells,
    * `Filled.push`: the next cell is filled,
    * `Filled.set`: a cell behind them is written, which the items do not show,
    * `Filled.cells`: all cells, which start with the items. -/

/-- The cells, and how many of them are filled. -/
structure Filled (n : Nat) (α : Type) where
  data : Fin n → α
  len : Nat
  len_le : len ≤ n

namespace Filled

variable {n : Nat} {α : Type}

/-- The items, in the order in which they came. -/
def items (r : Filled n α) : List α := List.ofFn fun i : Fin r.len => r.data (i.castLE r.len_le)

/-- Fill the next cell. -/
def push (r : Filled n α) (h : r.len < n) (x : α) : Filled n α where
  data := Function.update r.data ⟨r.len, h⟩ x
  len := r.len + 1
  len_le := h

/-- Write any cell. -/
def set (r : Filled n α) (j : Fin n) (x : α) : Filled n α :=
  { r with data := Function.update r.data j x }

@[simp] theorem length_items (r : Filled n α) : r.items.length = r.len := List.length_ofFn

@[simp] theorem len_push (r : Filled n α) (h : r.len < n) (x : α) : (r.push h x).len = r.len + 1 := rfl

theorem items_push (r : Filled n α) (h : r.len < n) (x : α) : (r.push h x).items = r.items ++ [x] := by
  have hlast : (r.push h x).items = List.ofFn fun i : Fin (r.len + 1) =>
      Function.update r.data ⟨r.len, h⟩ x (i.castLE h) := rfl
  rw [hlast, List.ofFn_succ_last]
  congr 1
  · -- the cells before the one that is written
    unfold items
    congr 1
    funext i
    apply Function.update_of_ne
    intro heq
    have hval : i.val = r.len := congrArg Fin.val heq
    exact absurd hval (Nat.ne_of_lt i.isLt)
  · have hcell : (Fin.last r.len).castLE h = ⟨r.len, h⟩ := rfl
    rw [hcell, Function.update_self]

/-- A cell that is not filled is not seen. -/
theorem items_set (r : Filled n α) {j : Fin n} (hj : r.len ≤ j.val) (x : α) :
    (r.set j x).items = r.items := by
  show (List.ofFn fun i : Fin r.len => Function.update r.data j x (i.castLE r.len_le)) = r.items
  unfold items
  congr 1
  funext i
  apply Function.update_of_ne
  intro heq
  have hval : i.val = j.val := congrArg Fin.val heq
  exact absurd i.isLt (by omega)

/-- What is in all cells. -/
def cells (r : Filled n α) : List α := List.ofFn r.data

@[simp] theorem length_cells (r : Filled n α) : r.cells.length = n := List.length_ofFn

@[simp] theorem getElem_cells (r : Filled n α) {i : Nat} (h : i < r.cells.length) :
    r.cells[i] = r.data ⟨i, by simpa using h⟩ := by
  simp [cells]

theorem take_cells (r : Filled n α) : r.cells.take r.len = r.items := by
  apply List.ext_getElem
  · simpa using r.len_le
  · intro i hi _
    simp [items]

end Filled
