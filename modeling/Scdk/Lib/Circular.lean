import Mathlib.Data.Fin.Tuple.Basic
import Mathlib.Data.Nat.ModEq

/-! # Circular buffers with free-running counters

    A queue kept in an array of cells, with a head and a tail counter that are
    only ever incremented, modulo `2 ^ 32`.  An item pushed while the tail is
    `t` is stored in cell `t % entries`, so the number of entries need not
    divide the range of the counters.

    * `Circular.items`: the queue a buffer stands for, oldest item first.
    * Popping always removes the first of the `items`.
    * Pushing appends to the `items` unless the counter has wrapped out of step
      with the cell index (`Circular.items_push_iff`); so it does when `entries`
      divides `2 ^ 32`, or while at most `2 ^ 32` items have ever been pushed
      (`Circular.items_push`). -/

/-- Head and tail counter of a queue and the cells it is kept in. -/
structure Circular (n : Nat) (α : Type) where
  head : UInt32
  tail : UInt32
  cells : Fin n → α

namespace Circular

variable {n : Nat} [NeZero n] {α : Type}

/-! ## Operations -/

/-- The cell used for counter value `pos`. -/
def cellIndex (n : Nat) [NeZero n] (entries pos : UInt32) : Fin n :=
  Fin.ofNat n (pos % entries).toNat

/-- The number of items, by wrapping subtraction of the counters. -/
def count (q : Circular n α) : UInt32 := q.tail - q.head

/-- Store `x` at the tail and advance the tail. -/
def push (entries : UInt32) (q : Circular n α) (x : α) : Circular n α :=
  { q with
    cells := Function.update q.cells (cellIndex n entries q.tail) x
    tail := q.tail + 1 }

/-- The item at the head. -/
def front (entries : UInt32) (q : Circular n α) : α := q.cells (cellIndex n entries q.head)

/-- Advance the head. -/
def pop (q : Circular n α) : Circular n α := { q with head := q.head + 1 }

/-- The items at positions `head, ..., tail - 1`, oldest first. -/
def items (entries : UInt32) (q : Circular n α) : List α :=
  (List.range q.count.toNat).map fun j =>
    q.cells (cellIndex n entries (q.head + UInt32.ofNat j))

/-- Push the items of a list, one after the other. -/
def pushAll (entries : UInt32) (q : Circular n α) : List α → Circular n α
  | [] => q
  | x :: xs => pushAll entries (push entries q x) xs

/-- What relates the counters of a buffer to the number of items that were
    ever pushed to it. -/
structure Tracks (entries : UInt32) (q : Circular n α) (pushed : Nat) : Prop where
  tail : q.tail = UInt32.ofNat pushed
  le_entries : q.count.toNat ≤ entries.toNat
  le_pushed : q.count.toNat ≤ pushed

/-- The counter and the cell index stay in step up to `pushed` items. -/
def InStep (entries : UInt32) (pushed : Nat) : Prop :=
  entries.toNat ∣ 2 ^ 32 ∨ pushed ≤ 2 ^ 32

/-! ## Counters -/

omit [NeZero n] in
theorem toNat_count (q : Circular n α) :
    q.count.toNat = (q.tail.toNat + 2 ^ 32 - q.head.toNat) % 2 ^ 32 := by
  have := q.head.toNat_lt
  rw [count, UInt32.toNat_sub]
  congr 1
  omega

@[simp] theorem length_items (entries : UInt32) (q : Circular n α) :
    (q.items entries).length = q.count.toNat := by
  simp [items]

omit [NeZero n] in
theorem count_eq_zero {q : Circular n α} : q.count.toNat = 0 ↔ q.head = q.tail := by
  have hh := q.head.toNat_lt
  have ht := q.tail.toNat_lt
  rw [toNat_count, ← UInt32.toNat_inj]
  omega

theorem count_push (entries : UInt32) (q : Circular n α) (x : α)
    (h : q.count.toNat < 2 ^ 32 - 1) : (push entries q x).count.toNat = q.count.toNat + 1 := by
  have hh := q.head.toNat_lt
  have ht := q.tail.toNat_lt
  have hadd : (q.tail + 1).toNat = (q.tail.toNat + 1) % 2 ^ 32 := UInt32.toNat_add q.tail 1
  rw [toNat_count] at h
  rw [toNat_count, toNat_count]
  simp only [push, hadd]
  omega

omit [NeZero n] in
theorem count_pop (q : Circular n α) (h : q.head ≠ q.tail) :
    q.pop.count.toNat + 1 = q.count.toNat := by
  have hh := q.head.toNat_lt
  have ht := q.tail.toNat_lt
  have hadd : (q.head + 1).toNat = (q.head.toNat + 1) % 2 ^ 32 := UInt32.toNat_add q.head 1
  have hne : q.head.toNat ≠ q.tail.toNat := fun heq => h (UInt32.toNat_inj.mp heq)
  rw [toNat_count, toNat_count]
  simp only [pop, hadd]
  omega

omit [NeZero n] in
/-- Counters reset to zero track an empty queue. -/
theorem tracks_reset (entries : UInt32) (q : Circular n α) :
    Tracks entries { q with head := 0, tail := 0 } 0 where
  tail := rfl
  le_entries := by simp [count]
  le_pushed := by simp [count]

theorem Tracks.push {entries : UInt32} {q : Circular n α} {pushed : Nat}
    (h : Tracks entries q pushed) (hroom : q.count.toNat < entries.toNat) (x : α) :
    Tracks entries (push entries q x) (pushed + 1) := by
  have hlt := entries.toNat_lt
  have hcount := count_push entries q x (by omega)
  have hle := h.le_pushed
  refine ⟨?_, by omega, by omega⟩
  show q.tail + 1 = UInt32.ofNat (pushed + 1)
  rw [h.tail, UInt32.ofNat_add]
  rfl

omit [NeZero n] in
theorem Tracks.pop {entries : UInt32} {q : Circular n α} {pushed : Nat}
    (h : Tracks entries q pushed) (hne : q.head ≠ q.tail) : Tracks entries q.pop pushed := by
  have hcount := count_pop q hne
  have hle := h.le_entries
  have hle' := h.le_pushed
  exact ⟨h.tail, by omega, by omega⟩

/-! ## Items -/

theorem items_eq_nil {entries : UInt32} {q : Circular n α} :
    q.items entries = [] ↔ q.head = q.tail := by
  rw [← List.length_eq_zero_iff, length_items, count_eq_zero]

/-- Popping removes the oldest item. -/
theorem items_pop (entries : UInt32) {q : Circular n α} (h : q.head ≠ q.tail) :
    q.items entries = q.front entries :: q.pop.items entries := by
  unfold items
  rw [← count_pop q h, List.range_succ_eq_map, List.map_cons, List.map_map]
  congr 1
  · show q.cells (cellIndex n entries (q.head + 0)) = _
    rw [UInt32.add_zero]
    rfl
  · apply List.map_congr_left
    intro j _
    show q.cells (cellIndex n entries (q.head + UInt32.ofNat (j + 1))) =
      q.cells (cellIndex n entries (q.head + 1 + UInt32.ofNat j))
    have hcomm : UInt32.ofNat (j + 1) = 1 + UInt32.ofNat j := by
      rw [UInt32.ofNat_add, UInt32.add_comm]
      rfl
    rw [hcomm, UInt32.add_assoc]

theorem val_cellIndex {entries : UInt32} (hpos : 0 < entries.toNat) (hn : entries.toNat ≤ n)
    (pos : UInt32) : (cellIndex n entries pos).val = pos.toNat % entries.toNat := by
  have hlt := Nat.mod_lt pos.toNat hpos
  simp only [cellIndex, Fin.ofNat, UInt32.toNat_mod]
  exact Nat.mod_eq_of_lt (by omega)

/-- Of the positions less than `entries` before the tail, only one can use the cell
    of the tail: the one that is as far away as the wrap puts the cell index out of
    step, when the counter has wrapped since. -/
theorem cellIndex_eq_tail {entries : UInt32} (hn : entries.toNat ≤ n) {q : Circular n α} {j : Nat}
    (hj : j < q.count.toNat) (hroom : q.count.toNat < entries.toNat) :
    cellIndex n entries (q.head + UInt32.ofNat j) = cellIndex n entries q.tail ↔
      q.tail.toNat < 2 ^ 32 % entries.toNat ∧ j + 2 ^ 32 % entries.toNat = q.count.toNat := by
  have hpos : 0 < entries.toNat := by omega
  have hh := q.head.toNat_lt
  have ht := q.tail.toNat_lt
  have he := entries.toNat_lt
  have hcount := toNat_count q
  have hposition : (q.head + UInt32.ofNat j).toNat =
      (q.tail.toNat + 2 ^ 32 - (q.count.toNat - j)) % 2 ^ 32 := by
    rw [UInt32.toNat_add, UInt32.toNat_ofNat']
    omega
  rw [← Fin.val_inj, val_cellIndex hpos hn, val_cellIndex hpos hn, hposition]
  obtain ⟨d, hd⟩ : ∃ d, q.count.toNat - j = d := ⟨_, rfl⟩
  rw [hd]
  by_cases hwrap : d ≤ q.tail.toNat
  · -- No wrap in between: the cells are less than `entries` apart.
    have hback : (q.tail.toNat + 2 ^ 32 - d) % 2 ^ 32 = q.tail.toNat - d := by omega
    rw [hback]
    constructor
    · intro heq
      have hdvd : entries.toNat ∣ q.tail.toNat - (q.tail.toNat - d) :=
        (Nat.modEq_iff_dvd' (by omega)).mp heq
      exact absurd (Nat.le_of_dvd (by omega) hdvd) (by omega)
    · intro ⟨hlow, hout⟩
      omega
  · -- The position wrapped: it is the same cell when `entries` divides the way round.
    have hback : (q.tail.toNat + 2 ^ 32 - d) % 2 ^ 32 = q.tail.toNat + (2 ^ 32 - d) := by omega
    rw [hback]
    constructor
    · intro heq
      have hdvd : entries.toNat ∣ 2 ^ 32 - d := by
        have hdiff := (Nat.modEq_iff_dvd' (Nat.le_add_right q.tail.toNat (2 ^ 32 - d))).mp heq.symm
        rwa [Nat.add_sub_cancel_left] at hdiff
      have hout : 2 ^ 32 % entries.toNat = d := by
        obtain ⟨c, hc⟩ := hdvd
        have hsum : 2 ^ 32 = entries.toNat * c + d := by omega
        rw [hsum, Nat.mul_add_mod, Nat.mod_eq_of_lt (by omega)]
      omega
    · intro ⟨_, hout⟩
      have hdvd : entries.toNat ∣ 2 ^ 32 - d := by
        have hd' : d = 2 ^ 32 % entries.toNat := by omega
        rw [hd']
        exact Nat.dvd_sub_mod _
      obtain ⟨c, hc⟩ := hdvd
      rw [hc, Nat.add_mul_mod_self_left]

omit [NeZero n] in
/-- The position of the head and so many items further on is the tail. -/
theorem head_add_count (q : Circular n α) : q.head + UInt32.ofNat q.count.toNat = q.tail := by
  rw [UInt32.ofNat_toNat, count]
  rw [UInt32.add_comm, UInt32.sub_add_cancel]

/-- **Pushing.**  What a push does to the queue, without any assumption on the
    counters: it appends, unless the counter has wrapped out of step with the cell
    index and the cell of the tail is one of a pending item. -/
theorem items_push_iff {entries : UInt32} (hn : entries.toNat ≤ n) {q : Circular n α}
    (hroom : q.count.toNat < entries.toNat) (x : α) :
    (push entries q x).items entries = q.items entries ++ [x] ↔
      (q.tail.toNat < 2 ^ 32 % entries.toNat → 2 ^ 32 % entries.toNat ≤ q.count.toNat →
        (q.items entries)[q.count.toNat - 2 ^ 32 % entries.toNat]? = some x) := by
  have hlt := entries.toNat_lt
  have hlast : Function.update q.cells (cellIndex n entries q.tail) x
      (cellIndex n entries (q.head + UInt32.ofNat q.count.toNat)) = x := by
    rw [head_add_count, Function.update_self]
  have hsplit : (push entries q x).items entries =
      ((List.range q.count.toNat).map fun j =>
        Function.update q.cells (cellIndex n entries q.tail) x
          (cellIndex n entries (q.head + UInt32.ofNat j))) ++ [x] := by
    unfold items
    rw [count_push entries q x (by omega), List.range_succ, List.map_append]
    congr 1
    exact congrArg (fun y => [y]) hlast
  -- What was in the queue is kept when no cell of it is the one written.
  have hsame : ((List.range q.count.toNat).map fun j =>
        Function.update q.cells (cellIndex n entries q.tail) x
          (cellIndex n entries (q.head + UInt32.ofNat j))) = q.items entries ↔
      ∀ j ∈ List.range q.count.toNat, Function.update q.cells (cellIndex n entries q.tail) x
          (cellIndex n entries (q.head + UInt32.ofNat j)) =
        q.cells (cellIndex n entries (q.head + UInt32.ofNat j)) := List.map_inj_left
  rw [hsplit, List.append_left_inj, hsame]
  have hget : ∀ j < q.count.toNat, (q.items entries)[j]? =
      some (q.cells (cellIndex n entries (q.head + UInt32.ofNat j))) := by
    intro j hj
    simp [items, hj]
  constructor
  · -- The one cell that can be written is at this place, so it held `x` before.
    intro hkept hlow hle
    have hmod : 0 < 2 ^ 32 % entries.toNat := by omega
    have hj : q.count.toNat - 2 ^ 32 % entries.toNat < q.count.toNat := by omega
    have hcell := (cellIndex_eq_tail hn hj hroom).mpr ⟨hlow, by omega⟩
    have hold := hkept _ (List.mem_range.mpr hj)
    rw [hcell, Function.update_self] at hold
    have hitem := hget _ hj
    rw [hcell, ← hold] at hitem
    exact hitem
  · intro hsafe j hj
    rw [List.mem_range] at hj
    by_cases hcell : cellIndex n entries (q.head + UInt32.ofNat j) = cellIndex n entries q.tail
    · obtain ⟨hlow, hout⟩ := (cellIndex_eq_tail hn hj hroom).mp hcell
      have hitem := hsafe hlow (by omega)
      have hplace : q.count.toNat - 2 ^ 32 % entries.toNat = j := by omega
      rw [hplace, hget j hj] at hitem
      rw [Option.some.inj hitem, hcell, Function.update_self]
    · exact Function.update_of_ne hcell _ _

/-- Pushing appends to the queue, as long as the counter stays in step with
    the cell index. -/
theorem items_push {entries : UInt32} (hn : entries.toNat ≤ n) {q : Circular n α} {pushed : Nat}
    (h : Tracks entries q pushed) (hroom : q.count.toNat < entries.toNat)
    (hstep : InStep entries (pushed + 1)) (x : α) :
    (push entries q x).items entries = q.items entries ++ [x] := by
  have hle := h.le_pushed
  apply (items_push_iff hn hroom x).mpr
  intro hlow hout
  rcases hstep with hdvd | hfew
  · rw [Nat.mod_eq_zero_of_dvd hdvd] at hlow
    omega
  · have htail := congrArg UInt32.toNat h.tail
    rw [UInt32.toNat_ofNat', Nat.mod_eq_of_lt (by omega)] at htail
    omega

/-- Pushing a list appends it. -/
theorem items_pushAll {entries : UInt32} (hn : entries.toNat ≤ n) {xs : List α} :
    ∀ {q : Circular n α} {pushed : Nat}, Tracks entries q pushed →
      q.count.toNat + xs.length ≤ entries.toNat → InStep entries (pushed + xs.length) →
      (pushAll entries q xs).items entries = q.items entries ++ xs ∧
        Tracks entries (pushAll entries q xs) (pushed + xs.length) := by
  induction xs with
  | nil =>
    intro q pushed h _ _
    exact ⟨(List.append_nil _).symm, h⟩
  | cons x xs ih =>
    intro q pushed h hroom hstep
    have hlt := entries.toNat_lt
    rw [List.length_cons] at hroom hstep ⊢
    -- In step at the end is in step at the first push.
    have hstep' : InStep entries (pushed + 1) := by
      rcases hstep with hdvd | hle
      · exact .inl hdvd
      · exact .inr (by omega)
    have hcount := count_push entries q x (by omega)
    have hlen : pushed + (xs.length + 1) = pushed + 1 + xs.length := by omega
    rw [hlen] at hstep ⊢
    obtain ⟨hitems, htracks⟩ := ih (h.push (by omega) x) (by omega) hstep
    refine ⟨?_, htracks⟩
    show (pushAll entries (push entries q x) xs).items entries = _
    rw [hitems, items_push hn h (by omega) hstep', List.append_assoc]
    rfl

end Circular
