import Mathlib.Tactic.Ring
import Mathlib.Data.Nat.ModEq

/-! # Generation-tagged handles

    A handle names a slot of a fixed table together with a generation number,
    so that a handle to a recycled slot can be told from the current one.

    * `Handle.pack`: slot index in the low half, generation in the high half.
    * `Handle.bump`: the generation counter, which skips `0` when it wraps, and
      its value after `n` bumps in closed form.
    * Since the counter runs through an odd number of values, a slot that
      bumps twice for each handle it issues repeats itself only after
      `2 ^ 32 - 1` handles.
-/

namespace Handle

/-! ## Packing -/

/-- The handle of slot `index` at generation `generation`. -/
def pack (index generation : UInt32) : UInt64 :=
  (generation.toUInt64 <<< 32) ||| index.toUInt64

/-- The slot a handle names. -/
def index (h : UInt64) : UInt32 := (h &&& 0xffffffff).toUInt32

/-- The generation a handle carries. -/
def generation (h : UInt64) : UInt32 := (h >>> 32).toUInt32

theorem toNat_pack (i g : UInt32) : (pack i g).toNat = g.toNat * 2 ^ 32 + i.toNat := by
  have hi := i.toNat_lt
  have hg := g.toNat_lt
  have hshift : g.toNat <<< 32 % 2 ^ 64 = 2 ^ 32 * g.toNat := by
    rw [Nat.shiftLeft_eq, Nat.mod_eq_of_lt (by omega), Nat.mul_comm]
  simp only [pack, UInt64.toNat_or, UInt64.toNat_shiftLeft, UInt32.toNat_toUInt64]
  rw [show (32 : UInt64).toNat % 64 = 32 from rfl, hshift, ← Nat.two_pow_add_eq_or_of_lt hi]
  omega

theorem toNat_index (h : UInt64) : (index h).toNat = h.toNat % 2 ^ 32 := by
  have hmask : h.toNat &&& 0xffffffff = h.toNat % 2 ^ 32 := Nat.and_two_pow_sub_one_eq_mod _ 32
  simp only [index, UInt64.toNat_toUInt32, UInt64.toNat_and]
  rw [show (0xffffffff : UInt64).toNat = 0xffffffff from rfl, hmask, Nat.mod_mod]

theorem toNat_generation (h : UInt64) : (generation h).toNat = h.toNat / 2 ^ 32 := by
  have hh := h.toNat_lt
  simp only [generation, UInt64.toNat_toUInt32, UInt64.toNat_shiftRight]
  rw [show (32 : UInt64).toNat % 64 = 32 from rfl, Nat.shiftRight_eq_div_pow]
  omega

@[simp] theorem index_pack (i g : UInt32) : index (pack i g) = i := by
  apply UInt32.toNat_inj.mp
  have hi := i.toNat_lt
  rw [toNat_index, toNat_pack]
  omega

@[simp] theorem generation_pack (i g : UInt32) : generation (pack i g) = g := by
  apply UInt32.toNat_inj.mp
  have hi := i.toNat_lt
  rw [toNat_generation, toNat_pack]
  omega

@[simp] theorem pack_index_generation (h : UInt64) : pack (index h) (generation h) = h := by
  apply UInt64.toNat_inj.mp
  rw [toNat_pack, toNat_index, toNat_generation]
  omega

theorem pack_injective {i i' g g' : UInt32} (h : pack i g = pack i' g') : i = i' ∧ g = g' := by
  refine ⟨?_, ?_⟩
  · rw [← index_pack i g, h, index_pack]
  · rw [← generation_pack i g, h, generation_pack]

theorem pack_ne_zero {i g : UInt32} (hg : g ≠ 0) : pack i g ≠ 0 := by
  intro h
  apply hg
  rw [← generation_pack i g, h]
  rfl

/-- The index of a slot of a table of at most `2 ^ 32` slots, as a word. -/
def slotWord {n : Nat} (i : Fin n) : UInt32 := UInt32.ofNat i.val

theorem toNat_slotWord {n : Nat} (hn : n ≤ 2 ^ 32) (i : Fin n) : (slotWord i).toNat = i.val := by
  have := i.isLt
  unfold slotWord
  rw [UInt32.toNat_ofNat', Nat.mod_eq_of_lt (by omega)]

/-! ## The generation counter -/

/-- The next generation: one more, with `0` skipped on wrap. -/
def bump (g : UInt32) : UInt32 := if g + 1 = 0 then 1 else g + 1

/-- Advance the generation counter of slot `i` in an array of counters. -/
def next {n : Nat} (generations : Fin n → UInt32) (i : Fin n) : UInt32 × (Fin n → UInt32) :=
  (bump (generations i), Function.update generations i (bump (generations i)))

/-- The generation after `n` bumps of a fresh counter. -/
def generationAt (n : Nat) : UInt32 := bump^[n] 0

theorem generationAt_succ (n : Nat) : generationAt (n + 1) = bump (generationAt n) :=
  Function.iterate_succ_apply' bump n 0

theorem toNat_bump (g : UInt32) :
    (bump g).toNat = if g.toNat + 1 = 2 ^ 32 then 1 else g.toNat + 1 := by
  have hg := g.toNat_lt
  have hadd : (g + 1).toNat = (g.toNat + 1) % 2 ^ 32 := UInt32.toNat_add g 1
  have hzero : g + 1 = 0 ↔ g.toNat + 1 = 2 ^ 32 := by
    rw [← UInt32.toNat_inj, hadd, show (0 : UInt32).toNat = 0 from rfl]
    omega
  unfold bump
  by_cases h : g.toNat + 1 = 2 ^ 32
  · rw [if_pos (hzero.mpr h), if_pos h]
    rfl
  · rw [if_neg (fun h' => h (hzero.mp h')), if_neg h, hadd]
    omega

theorem bump_ne_zero (g : UInt32) : bump g ≠ 0 := by
  intro h
  have := toNat_bump g
  rw [h, show (0 : UInt32).toNat = 0 from rfl] at this
  split at this <;> omega

/-- The counter runs through `1, ..., 2 ^ 32 - 1` and starts over at `1`. -/
theorem toNat_generationAt_succ (n : Nat) :
    (generationAt (n + 1)).toNat = n % (2 ^ 32 - 1) + 1 := by
  induction n with
  | zero => rfl
  | succ n ih =>
    rw [generationAt_succ, toNat_bump, ih]
    split <;> omega

/-- `2` is invertible modulo the odd cycle length `2 ^ 32 - 1`: among the first
    `2 ^ 32 - 1` odd positions no generation repeats. -/
theorem generationAt_odd_injective {j k : Nat} (hj : j < 2 ^ 32 - 1) (hk : k < 2 ^ 32 - 1)
    (h : generationAt (2 * j + 1) = generationAt (2 * k + 1)) : j = k := by
  have hnat := congrArg UInt32.toNat h
  rw [toNat_generationAt_succ, toNat_generationAt_succ] at hnat
  have hdouble : 2 * j ≡ 2 * k [MOD 2 ^ 32 - 1] := Nat.succ.inj hnat
  have hcop : Nat.gcd (2 ^ 32 - 1) 2 = 1 := by decide
  have hmod : j ≡ k [MOD 2 ^ 32 - 1] := Nat.ModEq.cancel_left_of_coprime hcop hdouble
  exact Nat.ModEq.eq_of_lt_of_lt hmod hj hk

/-- After a whole cycle of odd positions the generations start over. -/
theorem generationAt_odd_period (k : Nat) :
    generationAt (2 * (k + (2 ^ 32 - 1)) + 1) = generationAt (2 * k + 1) := by
  apply UInt32.toNat_inj.mp
  rw [toNat_generationAt_succ, toNat_generationAt_succ]
  omega

end Handle
