import Mathlib.Data.List.Basic
import Mathlib.Data.Nat.ModEq
import Mathlib.Logic.Function.Basic

/-! # Rings that overwrite

    A ring of `n` cells with the position of the next item and the number of items,
    which stops growing when the ring is full: from then on an item takes the place
    of the oldest one.

    * `Recent.items`: the items that are kept, oldest first,
    * `newest`: the last items of a list,
    * `Recent.items_pushAll`: the items after some more are the newest ones. -/

/-- The last `n` items of a list. -/
def newest {α : Type} (n : Nat) (xs : List α) : List α := xs.drop (xs.length - n)

/-- The cells, the position of the next item and the number of items. -/
structure Recent (n : Nat) (α : Type) where
  cells : Fin n → α
  head : Fin n
  len : Nat
  len_le : len ≤ n

/-! ## The newest items -/

section newest

variable {α : Type} (n : Nat) (xs : List α)

theorem length_newest : (newest n xs).length = min n xs.length := by
  unfold newest
  rw [List.length_drop]
  omega

/-- As long as there is room, nothing is dropped. -/
theorem newest_of_le (h : xs.length ≤ n) : newest n xs = xs := by
  unfold newest
  rw [Nat.sub_eq_zero_of_le h, List.drop_zero]

/-- What was dropped before is not missed later. -/
theorem newest_append (ys : List α) : newest n (newest n xs ++ ys) = newest n (xs ++ ys) := by
  have hlen := length_newest n xs
  unfold newest at hlen ⊢
  have hsplit : xs.drop (xs.length - n) ++ ys = (xs ++ ys).drop (xs.length - n) := by
    rw [List.drop_append_of_le_length (by omega)]
  rw [hsplit, List.drop_drop, ← hsplit, List.length_append, List.length_append, hlen]
  congr 1
  omega

end newest

namespace Recent

variable {n : Nat} [NeZero n] {α : Type}

/-! ## Operations -/

/-- Store an item at the head and advance the head. -/
def push (r : Recent n α) (x : α) : Recent n α where
  cells := Function.update r.cells r.head x
  head := Fin.ofNat n (r.head.val + 1)
  len := if r.len < n then r.len + 1 else r.len
  len_le := by
    have := r.len_le
    split <;> omega

/-- Push the items of a list, one after the other. -/
def pushAll (r : Recent n α) (xs : List α) : Recent n α := xs.foldl push r

/-- The position of the oldest item. -/
def start (r : Recent n α) : Nat := (r.head.val + n - r.len) % n

/-- The item at an offset from the oldest one. -/
def item (r : Recent n α) (offset : Nat) : α := r.cells (Fin.ofNat n (r.start + offset))

/-- The items, oldest first. -/
def items (r : Recent n α) : List α := (List.range r.len).map r.item

/-- The item that was pushed `d` items ago. -/
def back (r : Recent n α) (d : Nat) : α := r.cells (Fin.ofNat n (r.head.val + n - d))

@[simp] theorem length_items (r : Recent n α) : r.items.length = r.len := by
  simp [items]

theorem item_eq_back (r : Recent n α) {offset : Nat} (h : offset < r.len) :
    r.item offset = r.back (r.len - offset) := by
  have hle := r.len_le
  unfold item back start
  congr 1
  apply Fin.ext
  show ((r.head.val + n - r.len) % n + offset) % n = (r.head.val + n - (r.len - offset)) % n
  rw [Nat.mod_add_mod]
  congr 1
  omega

theorem back_push_one (r : Recent n α) (x : α) : (r.push x).back 1 = x := by
  have hhead := r.head.isLt
  have hcell : Fin.ofNat n ((r.push x).head.val + n - 1) = r.head := by
    apply Fin.ext
    show ((r.head.val + 1) % n + n - 1) % n = r.head.val
    by_cases hwrap : r.head.val + 1 = n
    · rw [hwrap, Nat.mod_self, Nat.zero_add, Nat.mod_eq_of_lt (by omega)]
      omega
    · rw [Nat.mod_eq_of_lt (show r.head.val + 1 < n by omega),
        show r.head.val + 1 + n - 1 = r.head.val + n by omega, Nat.add_mod_right,
        Nat.mod_eq_of_lt hhead]
  show Function.update r.cells r.head x _ = x
  rw [hcell, Function.update_self]

/-- The cell of an item is not written before the ring has come round. -/
theorem back_push_succ (r : Recent n α) (x : α) {d : Nat} (hpos : 0 < d) (hd : d < n) :
    (r.push x).back (d + 1) = r.back d := by
  have hhead := r.head.isLt
  have hcell : Fin.ofNat n ((r.push x).head.val + n - (d + 1)) =
      Fin.ofNat n (r.head.val + n - d) := by
    apply Fin.ext
    show ((r.head.val + 1) % n + n - (d + 1)) % n = (r.head.val + n - d) % n
    by_cases hwrap : r.head.val + 1 = n
    · rw [hwrap, Nat.mod_self, show r.head.val + n - d = n - (d + 1) + n by omega,
        Nat.add_mod_right]
      congr 1
      omega
    · rw [Nat.mod_eq_of_lt (show r.head.val + 1 < n by omega)]
      congr 1
      omega
  have hne : Fin.ofNat n (r.head.val + n - d) ≠ r.head := by
    intro heq
    have hval : (r.head.val + n - d) % n = r.head.val := congrArg Fin.val heq
    by_cases hle : d ≤ r.head.val
    · rw [show r.head.val + n - d = r.head.val - d + n by omega, Nat.add_mod_right,
        Nat.mod_eq_of_lt (by omega)] at hval
      omega
    · rw [Nat.mod_eq_of_lt (by omega)] at hval
      omega
  show Function.update r.cells r.head x _ = r.cells _
  rw [hcell, Function.update_of_ne hne]

/-! ## The items that are kept -/

/-- **Pushing.**  The items after a push are the newest of those before and the new
    one. -/
theorem items_push (r : Recent n α) (x : α) : (r.push x).items = newest n (r.items ++ [x]) := by
  have hle := r.len_le
  have hlen : (r.push x).len = min n (r.len + 1) := by
    show (if r.len < n then r.len + 1 else r.len) = _
    split <;> omega
  apply List.ext_getElem
  · rw [length_items, length_newest, List.length_append, length_items, hlen]
    rfl
  · intro j hj hj'
    rw [length_items] at hj
    have hnew : (r.push x).items[j] = (r.push x).back ((r.push x).len - j) := by
      simp only [items, List.getElem_map, List.getElem_range]
      exact item_eq_back _ hj
    have hbound : r.len + 1 - n + j < (r.items ++ [x]).length := by
      rw [List.length_append, length_items, List.length_singleton]
      omega
    have hold : (newest n (r.items ++ [x]))[j] = (r.items ++ [x])[r.len + 1 - n + j] := by
      simp only [newest, List.getElem_drop, List.length_append, length_items, List.length_singleton]
    rw [hnew, hold]
    by_cases hlast : j + 1 = (r.push x).len
    · -- the new item
      rw [show (r.push x).len - j = 1 by omega, back_push_one,
        List.getElem_append_right (by simp; omega)]
      simp
    · rw [show (r.push x).len - j = (r.push x).len - j - 1 + 1 by omega,
        back_push_succ r x (by omega) (by omega), List.getElem_append_left (by simp; omega)]
      simp only [items, List.getElem_map, List.getElem_range]
      rw [item_eq_back r (by omega)]
      congr 1
      omega

/-- **Newest items.**  After any number of pushes the ring holds the newest of all
    items. -/
theorem items_pushAll (r : Recent n α) (xs : List α) :
    (r.pushAll xs).items = newest n (r.items ++ xs) := by
  induction xs generalizing r with
  | nil =>
    rw [List.append_nil, newest_of_le n r.items (by rw [length_items]; exact r.len_le)]
    rfl
  | cons x xs ih =>
    show ((r.push x).pushAll xs).items = _
    rw [ih, items_push, newest_append, List.append_assoc]
    rfl

end Recent
