import Mathlib.Data.Fin.Tuple.Basic
import Mathlib.Data.Nat.ModEq

/-! # Circular buffers with a count

    A queue kept in an array of `n` cells, with the index of the oldest item, the
    index of the next free cell and the number of items.  Both indices wrap around
    at `n`.

    * `Fifo.items`: the queue a buffer stands for, oldest item first.
    * `Fifo.items_push`, `Fifo.items_pop`: pushing appends to it, popping removes
      its first item. -/

/-- The cells of a queue, its two indices and its length. -/
structure Fifo (n : Nat) (α : Type) where
  cells : Fin n → α
  head : Fin n
  tail : Fin n
  count : Nat

namespace Fifo

variable {n : Nat} [NeZero n] {α : Type}

/-- Store `x` in the next free cell. -/
def push (q : Fifo n α) (x : α) : Fifo n α :=
  { q with
    cells := Function.update q.cells q.tail x
    tail := q.tail + 1
    count := q.count + 1 }

omit [NeZero n] in
/-- The oldest item. -/
def front (q : Fifo n α) : α := q.cells q.head

/-- Drop the oldest item. -/
def pop (q : Fifo n α) : Fifo n α := { q with head := q.head + 1, count := q.count - 1 }

/-- The cell that is `j` cells after the head. -/
def cell (q : Fifo n α) (j : Nat) : Fin n := Fin.ofNat n (q.head.val + j)

/-- The items, oldest first. -/
def items (q : Fifo n α) : List α := (List.range q.count).map fun j => q.cells (q.cell j)

/-- The indices and the count agree. -/
structure Wf (q : Fifo n α) : Prop where
  tail : q.tail = q.cell q.count
  count : q.count ≤ n

@[simp] theorem length_items (q : Fifo n α) : q.items.length = q.count := by
  simp [items]

theorem cell_zero (q : Fifo n α) : q.cell 0 = q.head := by
  apply Fin.ext
  simp [cell]

theorem add_one_val (i : Fin n) : (i + 1).val = (i.val + 1) % n := by
  rw [Fin.val_add, Fin.val_one', Nat.add_mod_mod]

theorem cell_pop (q : Fifo n α) (j : Nat) : q.pop.cell j = q.cell (j + 1) := by
  apply Fin.ext
  simp only [cell, pop, Fin.val_ofNat, add_one_val]
  rw [Nat.mod_add_mod]
  congr 1
  omega

/-- Popping removes the oldest item. -/
theorem items_pop {q : Fifo n α} (h : q.count ≠ 0) : q.items = q.front :: q.pop.items := by
  obtain ⟨k, hk⟩ := Nat.exists_eq_succ_of_ne_zero h
  unfold items
  rw [hk, List.range_succ_eq_map, List.map_cons, List.map_map, cell_zero]
  have hcount : q.pop.count = k := by simp [pop, hk]
  rw [hcount]
  congr 1
  apply List.map_congr_left
  intro j _
  rw [cell_pop]
  rfl

theorem Wf.pop {q : Fifo n α} (h : q.Wf) (hne : q.count ≠ 0) : q.pop.Wf where
  tail := by
    obtain ⟨k, hk⟩ := Nat.exists_eq_succ_of_ne_zero hne
    have hcount : q.pop.count = k := by simp [Fifo.pop, hk]
    rw [hcount, cell_pop, ← Nat.succ_eq_add_one, ← hk]
    exact h.tail
  count := Nat.le_trans (Nat.sub_le _ _) h.count

theorem cell_succ (q : Fifo n α) (j : Nat) : q.cell (j + 1) = q.cell j + 1 := by
  apply Fin.ext
  rw [add_one_val]
  simp only [cell, Fin.val_ofNat]
  rw [Nat.mod_add_mod]
  congr 1

theorem Wf.push {q : Fifo n α} (h : q.Wf) (hroom : q.count < n) (x : α) : (q.push x).Wf where
  tail := by
    show q.tail + 1 = q.cell (q.count + 1)
    rw [cell_succ, h.tail]
  count := hroom

/-- The items are in different cells. -/
theorem cell_ne {q : Fifo n α} {j k : Nat} (hjk : j < k) (hk : k < n) : q.cell j ≠ q.cell k := by
  intro heq
  have hval := congrArg Fin.val heq
  simp only [cell, Fin.val_ofNat] at hval
  have hdvd : n ∣ (q.head.val + k) - (q.head.val + j) :=
    (Nat.modEq_iff_dvd' (by omega)).mp hval
  exact absurd (Nat.le_of_dvd (by omega) hdvd) (by omega)

/-- Pushing appends to the queue. -/
theorem items_push {q : Fifo n α} (h : q.Wf) (hroom : q.count < n) (x : α) :
    (q.push x).items = q.items ++ [x] := by
  show (List.range (q.count + 1)).map (fun j => (q.push x).cells (q.cell j)) = _
  rw [List.range_succ, List.map_append]
  congr 1
  · -- The cell just written is none of the cells in use.
    apply List.map_congr_left
    intro j hj
    rw [List.mem_range] at hj
    apply Function.update_of_ne
    rw [h.tail]
    exact cell_ne hj hroom
  · simp [Fifo.push, h.tail]

end Fifo
