import Mathlib.Data.Fin.Tuple.Basic
import Mathlib.Data.Fintype.Card

/-! # First-fit search in a fixed table

    The loops `for (i = 0; i < N; i++)` that look for a slot all have the same
    shape: they stop at the first index that satisfies a test.  `firstSlot` is
    that loop, by structural recursion on the number of slots still to visit,
    so that it can be evaluated on a concrete table.  `count` is the number of
    slots that it can still find. -/

namespace Slots

/-- Visit the last `k` slots, in increasing order, and stop at the first one
    that satisfies `p`. -/
def searchLast {n : Nat} (p : Fin n → Bool) : (k : Nat) → k ≤ n → Option (Fin n)
  | 0, _ => none
  | k + 1, h =>
    if p ⟨n - (k + 1), by omega⟩ then
      some ⟨n - (k + 1), by omega⟩
    else
      searchLast p k (by omega)

/-- The first slot that satisfies `p`, if any. -/
def firstSlot {n : Nat} (p : Fin n → Bool) : Option (Fin n) :=
  searchLast p n (Nat.le_refl n)

theorem searchLast_eq_some {n : Nat} {p : Fin n → Bool} {k : Nat} {hk : k ≤ n} {i : Fin n}
    (h : searchLast p k hk = some i) : p i = true ∧ ∀ j < i, n - k ≤ j.val → p j = false := by
  induction k with
  | zero => simp [searchLast] at h
  | succ k ih =>
    unfold searchLast at h
    split at h
    · next hp =>
      obtain rfl := Option.some.inj h
      refine ⟨hp, fun j hj hle => ?_⟩
      -- No slot lies between the first one visited and itself.
      have : j.val < n - (k + 1) := hj
      omega
    · next hp =>
      obtain ⟨hpi, hmin⟩ := ih h
      refine ⟨hpi, fun j hj hle => ?_⟩
      by_cases hfirst : j.val = n - (k + 1)
      · have hj' : j = ⟨n - (k + 1), by omega⟩ := Fin.ext hfirst
        rw [hj']
        exact Bool.eq_false_iff.mpr hp
      · exact hmin j hj (by omega)

theorem searchLast_eq_none {n : Nat} {p : Fin n → Bool} {k : Nat} {hk : k ≤ n}
    (h : searchLast p k hk = none) : ∀ j : Fin n, n - k ≤ j.val → p j = false := by
  induction k with
  | zero =>
    intro j hj
    have := j.isLt
    omega
  | succ k ih =>
    unfold searchLast at h
    split at h
    · cases h
    · next hp =>
      intro j hj
      -- The place looked at in this round, or one behind it.
      by_cases hfirst : j.val = n - (k + 1)
      · have hj' : j = ⟨n - (k + 1), by omega⟩ := Fin.ext hfirst
        rw [hj']
        exact Bool.eq_false_iff.mpr hp
      · exact ih h j (by omega)

/-- The search stops at a slot that satisfies the test, and at the first one. -/
theorem firstSlot_eq_some {n : Nat} {p : Fin n → Bool} {i : Fin n} (h : firstSlot p = some i) :
    p i = true ∧ ∀ j < i, p j = false := by
  obtain ⟨hp, hmin⟩ := searchLast_eq_some h
  exact ⟨hp, fun j hj => hmin j hj (by omega)⟩

/-- The search comes back empty only when no slot satisfies the test. -/
theorem firstSlot_eq_none {n : Nat} {p : Fin n → Bool} (h : firstSlot p = none) (i : Fin n) :
    p i = false :=
  searchLast_eq_none h i (by omega)

/-- The only slot that satisfies the test is found. -/
theorem firstSlot_of_unique {n : Nat} {p : Fin n → Bool} {i : Fin n} (h : p i = true)
    (hunique : ∀ j, p j = true → j = i) : firstSlot p = some i := by
  cases hfind : firstSlot p with
  | none =>
    rw [firstSlot_eq_none hfind i] at h
    cases h
  | some j => rw [hunique j (firstSlot_eq_some hfind).1]

/-! ## How many slots are left -/

section count

variable {n : Nat} {p p' : Fin n → Bool} {i : Fin n}

/-- The number of slots that satisfy `p`. -/
def count (p : Fin n → Bool) : Nat := (Finset.univ.filter fun i => p i = true).card

theorem count_pos (h : p i = true) : 0 < count p := by
  apply Finset.card_pos.mpr
  exact ⟨i, by simpa using h⟩

theorem count_all (h : ∀ i, p i = true) : count p = n := by
  unfold count
  simp [h]

/-- A search on a table with such a slot finds one. -/
theorem firstSlot_of_count (h : 0 < count p) : ∃ i, firstSlot p = some i := by
  cases hfind : firstSlot p with
  | some i => exact ⟨i, rfl⟩
  | none =>
    obtain ⟨i, hi⟩ := Finset.card_pos.mp h
    have hp : p i = true := by simpa using hi
    rw [firstSlot_eq_none hfind i] at hp
    cases hp

theorem firstSlot_of_count_eq_zero (h : count p = 0) : firstSlot p = none := by
  cases hfind : firstSlot p with
  | none => rfl
  | some i =>
    have := count_pos (firstSlot_eq_some hfind).1
    omega

/-- Taking one slot. -/
theorem count_take (hi : p i = true) (hi' : p' i = false) (hother : ∀ j, j ≠ i → p' j = p j) :
    count p' + 1 = count p := by
  have herase : (Finset.univ.filter fun j => p' j = true) =
      (Finset.univ.filter fun j => p j = true).erase i := by
    ext j
    by_cases hj : j = i
    · simp [hj, hi']
    · simp [hj, hother j hj]
  unfold count
  rw [herase]
  apply Finset.card_erase_add_one
  simpa using hi

/-- Slots are taken, and none gets free. -/
theorem count_le (h : ∀ j, p' j = true → p j = true) : count p' ≤ count p :=
  Finset.card_le_card (Finset.monotone_filter_right _ fun j _ => h j)

/-- At least one is taken. -/
theorem count_lt (h : ∀ j, p' j = true → p j = true) (hi : p i = true) (hi' : p' i = false) :
    count p' < count p := by
  apply Finset.card_lt_card
  refine ⟨Finset.monotone_filter_right _ fun j _ => h j, ?_⟩
  intro hback
  have hmem : i ∈ Finset.univ.filter fun j => p' j = true := hback (by simpa using hi)
  simp [hi'] at hmem

end count

end Slots
