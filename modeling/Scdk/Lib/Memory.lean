import Mathlib.Algebra.Group.Nat.Defs
import Mathlib.Logic.Basic
import Mathlib.Logic.Function.Basic

/-! # Byte-addressed memory

    Memory as a function from addresses to bytes, with little-endian words:

    * `load m a n`: the number stored in the `n` bytes from address `a`,
    * `store m a n v`: memory after the `n` low bytes of `v` were stored there.

    A load of what was just stored gives it back modulo `256 ^ n`, a load of
    other bytes is not affected (`load_store_self`, `load_store_of_disjoint`),
    and a store changes no byte outside the ones it is for
    (`store_of_not_mem`). -/

/-- The bytes at all addresses. -/
abbrev Memory : Type := Nat → UInt8

namespace Memory

/-- The number in the `n` bytes from `a`, least significant byte first. -/
def load (m : Memory) (a : Nat) : Nat → Nat
  | 0 => 0
  | n + 1 => (m a).toNat + 256 * load m (a + 1) n

/-- Store the `n` low bytes of `v` from `a` on, least significant byte first. -/
def store (m : Memory) (a n v : Nat) : Memory := fun x =>
  if a ≤ x ∧ x < a + n then UInt8.ofNat (v / 256 ^ (x - a)) else m x

/-- Replace the `n` bytes from `a` on by those of `m'`. -/
def overlay (m m' : Memory) (a n : Nat) : Memory := fun x =>
  if a ≤ x ∧ x < a + n then m' x else m x

theorem overlay_of_not_mem {m m' : Memory} {a n x : Nat} (h : x < a ∨ a + n ≤ x) :
    overlay m m' a n x = m x := by
  unfold overlay
  rw [if_neg]
  omega

theorem overlay_of_mem {m m' : Memory} {a n x : Nat} (h : a ≤ x ∧ x < a + n) :
    overlay m m' a n x = m' x := if_pos h

theorem overlay_zero (m m' : Memory) (a : Nat) : overlay m m' a 0 = m := by
  funext x
  apply overlay_of_not_mem
  omega

/-- One more byte at the end. -/
theorem overlay_succ (m m' : Memory) (a n : Nat) :
    overlay m m' a (n + 1) = Function.update (overlay m m' a n) (a + n) (m' (a + n)) := by
  funext x
  by_cases hx : x = a + n
  · rw [hx, Function.update_self, overlay_of_mem (by omega)]
  rw [Function.update_of_ne hx]
  by_cases hin : a ≤ x ∧ x < a + n
  · rw [overlay_of_mem hin, overlay_of_mem (by omega)]
  · rw [overlay_of_not_mem (by omega), overlay_of_not_mem (by omega)]

/-- A store changes only the bytes it is for. -/
theorem store_of_not_mem {m : Memory} {a n v x : Nat} (h : x < a ∨ a + n ≤ x) :
    store m a n v x = m x := by
  unfold store
  rw [if_neg]
  omega

/-- A load depends on the bytes loaded only. -/
theorem load_congr {m m' : Memory} {a n : Nat} (h : ∀ x, a ≤ x → x < a + n → m' x = m x) :
    load m' a n = load m a n := by
  induction n generalizing a with
  | zero => rfl
  | succ n ih =>
    have htail : load m' (a + 1) n = load m (a + 1) n := by
      apply ih
      intro x hlo hhi
      exact h x (by omega) (by omega)
    unfold load
    rw [h a (by omega) (by omega), htail]

/-- A load of equal bytes that are elsewhere. -/
theorem load_congr_at {m m' : Memory} {a b n : Nat} (h : ∀ i < n, m' (a + i) = m (b + i)) :
    load m' a n = load m b n := by
  induction n generalizing a b with
  | zero => rfl
  | succ n ih =>
    have htail : load m' (a + 1) n = load m (b + 1) n := by
      apply ih
      intro i hi
      rw [Nat.add_assoc, Nat.add_assoc, Nat.add_comm 1 i]
      exact h (i + 1) (by omega)
    have hhead : m' a = m b := h 0 (Nat.succ_pos n)
    unfold load
    rw [htail, hhead]

theorem load_store_of_disjoint {m : Memory} {a n v b k : Nat} (h : b + k ≤ a ∨ a + n ≤ b) :
    load (store m a n v) b k = load m b k := by
  apply load_congr
  intro x hlo hhi
  apply store_of_not_mem
  omega

/-- A stored number is read back modulo what fits into `n` bytes. -/
theorem load_store_self (m : Memory) (a n v : Nat) : load (store m a n v) a n = v % 256 ^ n := by
  induction n generalizing a v with
  | zero =>
    show 0 = v % 1
    rw [Nat.mod_one]
  | succ n ih =>
    -- The bytes above the first one are those of `v / 256`.
    have htail : load (store m a (n + 1) v) (a + 1) n = v / 256 % 256 ^ n := by
      rw [← ih (a + 1) (v / 256)]
      apply load_congr
      intro x hlo hhi
      have hx : x - a = (x - (a + 1)) + 1 := by omega
      unfold store
      rw [if_pos (by omega), if_pos (by omega), hx, Nat.pow_succ, Nat.mul_comm,
        ← Nat.div_div_eq_div_mul]
    have hhead : store m a (n + 1) v a = UInt8.ofNat v := by
      unfold store
      rw [if_pos (by omega), Nat.sub_self, Nat.pow_zero, Nat.div_one]
    have hbyte : (UInt8.ofNat v).toNat = v % 256 := UInt8.toNat_ofNat'
    unfold load
    rw [htail, hhead, hbyte, Nat.pow_succ, Nat.mul_comm (256 ^ n) 256, Nat.mod_mul]

end Memory
