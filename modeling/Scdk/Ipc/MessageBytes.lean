import Mathlib.Data.Nat.Digits.Defs
import Scdk.Kernel

/-! # Messages as bytes

    A message that the kernel copies to a task and reads back from its memory is the
    message it was.

    * `wordOfBytes_bytesOfWord`: a word,
    * `wordAt_flatMap`: a word of a structure of words,
    * `Message.ofBytes_toBytes`: a message. -/

namespace Scdk

/-! ## Words -/

/-- One more byte at the low end: its bits and those above do not meet. -/
theorem toNat_wordOfBytes_cons (b : UInt8) {bytes : List UInt8}
    (h : (wordOfBytes bytes).toNat < 2 ^ 56) :
    (wordOfBytes (b :: bytes)).toNat = b.toNat + 256 * (wordOfBytes bytes).toNat := by
  have hb := b.toNat_lt
  have hshift : (wordOfBytes bytes <<< 8).toNat = (wordOfBytes bytes).toNat <<< 8 := by
    rw [UInt64.toNat_shiftLeft]
    apply Nat.mod_eq_of_lt
    rw [Nat.shiftLeft_eq]
    show (wordOfBytes bytes).toNat * 2 ^ 8 < 2 ^ 64
    omega
  have hcons : wordOfBytes (b :: bytes) = b.toUInt64 ||| wordOfBytes bytes <<< 8 := rfl
  rw [hcons, UInt64.toNat_or, hshift, UInt8.toNat_toUInt64, Nat.or_comm,
    ← Nat.shiftLeft_add_eq_or_of_lt hb, Nat.shiftLeft_eq]
  omega

/-- The number of up to eight bytes. -/
theorem toNat_wordOfBytes {bytes : List UInt8} (h : bytes.length ≤ 8) :
    (wordOfBytes bytes).toNat = Nat.ofDigits 256 (bytes.map UInt8.toNat) ∧
      (wordOfBytes bytes).toNat < 256 ^ bytes.length := by
  induction bytes with
  | nil => exact ⟨rfl, by decide⟩
  | cons b bytes ih =>
    have hlen : bytes.length ≤ 7 := Nat.le_of_succ_le_succ h
    obtain ⟨hnumber, hlt⟩ := ih (by omega)
    have hfits : (wordOfBytes bytes).toNat < 2 ^ 56 :=
      Nat.lt_of_lt_of_le hlt (Nat.pow_le_pow_right (by decide) hlen : 256 ^ bytes.length ≤ 256 ^ 7)
    have hb := b.toNat_lt
    rw [toNat_wordOfBytes_cons b hfits, List.map_cons, Nat.ofDigits_cons, hnumber, List.length_cons,
      Nat.pow_succ]
    rw [hnumber] at hlt
    exact ⟨rfl, by omega⟩

/-- The first `n` digits of a number, low end first. -/
theorem ofDigits_range (v n : Nat) :
    Nat.ofDigits 256 ((List.range n).map fun i => v / 256 ^ i % 256) = v % 256 ^ n := by
  induction n generalizing v with
  | zero => simp [Nat.mod_one]
  | succ n ih =>
    have htail : ((List.range n).map fun i => v / 256 ^ (i + 1) % 256) =
        (List.range n).map fun i => v / 256 / 256 ^ i % 256 := by
      apply List.map_congr_left
      intro i _
      rw [Nat.pow_succ, Nat.mul_comm, Nat.div_div_eq_div_mul]
    rw [List.range_succ_eq_map, List.map_cons, List.map_map, Nat.ofDigits_cons]
    show v / 256 ^ 0 % 256 + 256 * Nat.ofDigits 256 ((List.range n).map fun i => v / 256 ^ (i + 1) % 256) = _
    rw [htail, ih, Nat.pow_zero, Nat.div_one, Nat.pow_succ, Nat.mul_comm (256 ^ n), Nat.mod_mul]

/-- **A word.**  Its bytes make the word again. -/
theorem wordOfBytes_bytesOfWord (w : UInt64) : wordOfBytes (bytesOfWord w) = w := by
  have hlen : (bytesOfWord w).length = 8 := by simp [bytesOfWord]
  have hdigits : (bytesOfWord w).map UInt8.toNat =
      (List.range 8).map fun i => w.toNat / 256 ^ i % 256 := by
    unfold bytesOfWord
    rw [List.map_map]
    apply List.map_congr_left
    intro i hi
    have hi := List.mem_range.mp hi
    have hsmall : 8 * i < 64 := by omega
    have hshift : (UInt64.ofNat (8 * i)).toNat = 8 * i :=
      UInt64.toNat_ofNat_of_lt (Nat.lt_trans hsmall (by decide))
    show (w >>> UInt64.ofNat (8 * i)).toUInt8.toNat = w.toNat / 256 ^ i % 256
    rw [UInt64.toNat_toUInt8, UInt64.toNat_shiftRight, hshift, Nat.mod_eq_of_lt hsmall,
      Nat.shiftRight_eq_div_pow, Nat.pow_mul]
  apply UInt64.toNat_inj.mp
  rw [(toNat_wordOfBytes (Nat.le_of_eq hlen)).1, hdigits, ofDigits_range]
  exact Nat.mod_eq_of_lt w.toNat_lt

/-! ## Structures of words -/

theorem length_bytesOfWord (w : UInt64) : (bytesOfWord w).length = 8 := by simp [bytesOfWord]

theorem length_flatMap_bytesOfWord (words : List UInt64) :
    (words.flatMap bytesOfWord).length = 8 * words.length := by
  induction words with
  | nil => rfl
  | cons w words ih =>
    rw [List.flatMap_cons, List.length_append, length_bytesOfWord, ih, List.length_cons]
    omega

/-- Word number `i` of the bytes of some words is word number `i`. -/
theorem wordAt_flatMap (words : List UInt64) (i : Nat) (hi : i < words.length) :
    wordAt (words.flatMap bytesOfWord) i = words.get ⟨i, hi⟩ := by
  induction words generalizing i with
  | nil => cases hi
  | cons w words ih =>
    have hw := length_bytesOfWord w
    unfold wordAt
    rw [List.flatMap_cons]
    cases i with
    | zero =>
      have hfirst : ((bytesOfWord w ++ words.flatMap bytesOfWord).drop (8 * 0)).take 8 =
          bytesOfWord w := List.take_left' hw
      rw [hfirst, wordOfBytes_bytesOfWord]
      rfl
    | succ i =>
      have hskip : 8 * (i + 1) = (bytesOfWord w).length + 8 * i := by
        rw [hw]
        omega
      rw [hskip, List.drop_length_add_append]
      exact ih i (Nat.lt_of_succ_lt_succ hi)

theorem Message.length_toBytes (m : Message) : m.toBytes.length = 64 :=
  length_flatMap_bytesOfWord _

/-- **A message.**  Its bytes make the message again. -/
theorem Message.ofBytes_toBytes (m : Message) : Message.ofBytes m.toBytes = m := by
  have hword : ∀ i (hi : i < 8), wordAt m.toBytes i =
      [m.sender, m.target, m.type, m.arg0, m.arg1, m.arg2, m.arg3, m.status].get ⟨i, hi⟩ :=
    wordAt_flatMap [m.sender, m.target, m.type, m.arg0, m.arg1, m.arg2, m.arg3, m.status]
  unfold Message.ofBytes
  rw [hword 0 (by decide), hword 1 (by decide), hword 2 (by decide), hword 3 (by decide),
    hword 4 (by decide), hword 5 (by decide), hword 6 (by decide), hword 7 (by decide)]
  rfl

end Scdk
