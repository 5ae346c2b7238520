import Mathlib.Algebra.Group.Nat.Defs
import Mathlib.Logic.Basic

/-! # Fields of words

    Formats of the processor put several fields into one word: each is shifted to its
    place, and they are joined with `|||`.

    * `bits`: the number in a field, and `bits_of_split`: where it stands in the word,
    * `toNat_or_shift`: a further field above the others is added to the number of the word,
    * `toNat_and_not`: the fields at the low end are cleared. -/

namespace Bits

/-- The number in the `len` bits from bit `lo` on. -/
def bits (n lo len : Nat) : Nat := n / 2 ^ lo % 2 ^ len

/-- A field is found between what is below it and what is above it. -/
theorem bits_of_split {n lo len : Nat} (low field high : Nat)
    (hn : n = low + 2 ^ lo * (field + 2 ^ len * high)) (hlow : low < 2 ^ lo)
    (hfield : field < 2 ^ len) : bits n lo len = field := by
  unfold bits
  rw [hn, Nat.add_mul_div_left _ _ (Nat.two_pow_pos lo), Nat.div_eq_of_lt hlow, Nat.zero_add,
    Nat.add_mul_mod_self_left, Nat.mod_eq_of_lt hfield]

/-- A field above the others. -/
theorem toNat_or_shift {x y k : UInt64} (hk : k.toNat < 64) (hx : x.toNat < 2 ^ k.toNat)
    (hy : y.toNat * 2 ^ k.toNat < 2 ^ 64) :
    (x ||| y <<< k).toNat = x.toNat + y.toNat * 2 ^ k.toNat := by
  have hshift : (y <<< k).toNat = y.toNat <<< k.toNat := by
    rw [UInt64.toNat_shiftLeft, Nat.mod_eq_of_lt hk, Nat.shiftLeft_eq, Nat.mod_eq_of_lt hy]
  rw [UInt64.toNat_or, hshift, Nat.or_comm, ← Nat.shiftLeft_add_eq_or_of_lt hx, Nat.shiftLeft_eq,
    Nat.add_comm]

/-- The low bits cleared. -/
theorem toNat_and_not {mask : UInt64} {k : Nat} (hk : k ≤ 64)
    (hmask : (~~~mask).toNat = 2 ^ k * (2 ^ (64 - k) - 1)) (x : UInt64) :
    (x &&& ~~~mask).toNat = x.toNat / 2 ^ k * 2 ^ k := by
  have hlow : (x.toNat &&& 2 ^ k * (2 ^ (64 - k) - 1)) % 2 ^ k = 0 := by
    rw [Nat.and_mod_two_pow, Nat.mul_mod_right, Nat.and_zero]
  have hhigh : (x.toNat &&& 2 ^ k * (2 ^ (64 - k) - 1)) / 2 ^ k = x.toNat / 2 ^ k := by
    rw [Nat.and_div_two_pow, Nat.mul_div_cancel_left _ (Nat.two_pow_pos k),
      Nat.and_two_pow_sub_one_eq_mod]
    apply Nat.mod_eq_of_lt
    rw [Nat.div_lt_iff_lt_mul (Nat.two_pow_pos k), ← Nat.pow_add, Nat.sub_add_cancel hk]
    exact x.toNat_lt
  have hsplit := Nat.div_add_mod (x.toNat &&& 2 ^ k * (2 ^ (64 - k) - 1)) (2 ^ k)
  rw [hlow, hhigh, Nat.add_zero] at hsplit
  rw [UInt64.toNat_and, hmask, ← hsplit, Nat.mul_comm]

end Bits
