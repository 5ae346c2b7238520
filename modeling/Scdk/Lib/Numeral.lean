import Mathlib.Data.Nat.Digits.Lemmas
import Mathlib.Tactic.Ring

/-! # Numerals

    Numbers as texts, the most significant digit first.

    * `Numeral.read`: the number that a text stands for, for any choice of digits,
    * `Numeral.write`: the numeral of a number, without leading zeros,
    * `Numeral.read_write`: reading it back,
    * `Numeral.readSigned`, `Numeral.writeSigned`: the same with a sign in front. -/

namespace Numeral

variable {α : Type}

/-- One more digit behind those of `acc`. -/
def readDigit (digit : α → Option Nat) (base : Nat) (acc : Option Nat) (c : α) : Option Nat :=
  match acc, digit c with
  | some n, some d => if d < base then some (n * base + d) else none
  | _, _ => none

/-- The number that a text stands for; a text that is empty or has anything else but digits
    stands for none. -/
def read (digit : α → Option Nat) (base : Nat) (text : List α) : Option Nat :=
  match text with
  | [] => none
  | c :: cs => (c :: cs).foldl (readDigit digit base) (some 0)

/-- The numeral of a number. -/
def write (char : Nat → α) (base n : Nat) : List α :=
  if n = 0 then [char 0] else (Nat.digits base n).reverse.map char

/-! ## Reading a numeral -/

section write

variable {digit : α → Option Nat} {char : Nat → α} {base n : Nat}

theorem read_of_ne_nil {text : List α} (h : text ≠ []) :
    read digit base text = text.foldl (readDigit digit base) (some 0) := by
  cases text with
  | nil => exact absurd rfl h
  | cons c cs => rfl

theorem readDigit_char (hdigit : ∀ d < base, digit (char d) = some d) {d : Nat} (hd : d < base) :
    readDigit digit base (some n) (char d) = some (n * base + d) := by
  unfold readDigit
  rw [hdigit d hd]
  exact if_pos hd

/-- Digits behind others move these up. -/
theorem foldl_readDigit (hdigit : ∀ d < base, digit (char d) = some d) {ds : List Nat}
    (hds : ∀ d ∈ ds, d < base) (acc : Nat) :
    (ds.reverse.map char).foldl (readDigit digit base) (some acc) =
      some (acc * base ^ ds.length + Nat.ofDigits base ds) := by
  induction ds with
  | nil => simp
  | cons d ds ih =>
    have hd : d < base := hds d List.mem_cons_self
    have hrest : ∀ d ∈ ds, d < base := fun d' hd' => hds d' (List.mem_cons_of_mem _ hd')
    rw [List.reverse_cons, List.map_append, List.foldl_append, ih hrest]
    show readDigit digit base _ (char d) = _
    rw [readDigit_char hdigit hd, Nat.ofDigits_cons, List.length_cons]
    congr 1
    ring

theorem write_of_ne_zero (hn : n ≠ 0) : write char base n = (Nat.digits base n).reverse.map char :=
  if_neg hn

theorem write_ne_nil (char : Nat → α) (base n : Nat) : write char base n ≠ [] := by
  by_cases hn : n = 0
  · subst hn
    simp [write]
  · simp [write_of_ne_zero hn, Nat.digits_ne_nil_iff_ne_zero, hn]

/-- **Reading back.**  A numeral stands for its number. -/
theorem read_write (hbase : 1 < base) (hdigit : ∀ d < base, digit (char d) = some d) (n : Nat) :
    read digit base (write char base n) = some n := by
  rw [read_of_ne_nil (write_ne_nil char base n)]
  by_cases hn : n = 0
  · subst hn
    show readDigit digit base (some 0) (char 0) = some 0
    rw [readDigit_char hdigit (by omega)]
    simp
  · have hds : ∀ d ∈ Nat.digits base n, d < base := fun d hd => Nat.digits_lt_base hbase hd
    rw [write_of_ne_zero hn, foldl_readDigit hdigit hds, Nat.ofDigits_digits]
    simp

/-! ## The shape of a numeral -/

/-- All characters are digits. -/
theorem mem_write (hbase : 1 < base) {c : α} (hc : c ∈ write char base n) :
    ∃ d < base, c = char d := by
  by_cases hn : n = 0
  · subst hn
    exact ⟨0, by omega, by simpa [write] using hc⟩
  · rw [write_of_ne_zero hn] at hc
    obtain ⟨d, hd, rfl⟩ := List.mem_map.mp hc
    exact ⟨d, Nat.digits_lt_base hbase (List.mem_reverse.mp hd), rfl⟩

/-- Only the numeral of zero starts with a zero. -/
theorem head_write (hbase : 1 < base) (hzero : ∀ d < base, char d = char 0 → d = 0) (hn : n ≠ 0) :
    (write char base n).head? ≠ some (char 0) := by
  have hne : Nat.digits base n ≠ [] := Nat.digits_ne_nil_iff_ne_zero.mpr hn
  rw [write_of_ne_zero hn, List.head?_map, List.head?_reverse, List.getLast?_eq_some_getLast hne]
  intro hhead
  have hlast : char ((Nat.digits base n).getLast hne) = char 0 := by simpa using hhead
  have hlt := Nat.digits_lt_base hbase (List.getLast_mem hne)
  exact Nat.getLast_digit_ne_zero base hn (hzero _ hlt hlast)

/-- How long a numeral can be. -/
theorem length_write_le (hbase : 1 < base) {k : Nat} (hk : 1 ≤ k) (hn : n < base ^ k) :
    (write char base n).length ≤ k := by
  by_cases hzero : n = 0
  · subst hzero
    simpa [write] using hk
  · rw [write_of_ne_zero hzero, List.length_map, List.length_reverse]
    exact (Nat.digits_length_le_iff hbase n).mpr hn

end write

/-! ## Signs -/

section signed

variable [DecidableEq α]

/-- The number that a text stands for, with a sign in front if it is negative. -/
def readSigned (minus : α) (digit : α → Option Nat) (base : Nat) : List α → Option Int
  | [] => none
  | c :: cs =>
    if c = minus then Option.map (fun n : Nat => -(n : Int)) (read digit base cs)
    else Option.map (fun n : Nat => (n : Int)) (read digit base (c :: cs))

/-- The numeral of an integer. -/
def writeSigned (minus : α) (char : Nat → α) (base : Nat) (z : Int) : List α :=
  if z < 0 then minus :: write char base z.natAbs else write char base z.natAbs

variable {minus : α} {digit : α → Option Nat} {char : Nat → α} {base : Nat}

/-- **Reading back** an integer. -/
theorem readSigned_writeSigned (hbase : 1 < base) (hdigit : ∀ d < base, digit (char d) = some d)
    (hminus : ∀ d < base, char d ≠ minus) (z : Int) :
    readSigned minus digit base (writeSigned minus char base z) = some z := by
  unfold writeSigned
  by_cases hneg : z < 0
  · rw [if_pos hneg]
    have hread : readSigned minus digit base (minus :: write char base z.natAbs) =
        Option.map (fun n : Nat => -(n : Int)) (read digit base (write char base z.natAbs)) := if_pos rfl
    rw [hread, read_write hbase hdigit, Option.map_some]
    congr 1
    omega
  · rw [if_neg hneg]
    have hread := read_write hbase hdigit z.natAbs
    cases hwrite : write char base z.natAbs with
    | nil => exact absurd hwrite (write_ne_nil char base _)
    | cons c cs =>
      have hmem : c ∈ write char base z.natAbs := by
        rw [hwrite]
        exact List.mem_cons_self
      obtain ⟨d, hd, rfl⟩ := mem_write hbase hmem
      have hsigned : readSigned minus digit base (char d :: cs) =
          Option.map (fun n : Nat => (n : Int)) (read digit base (char d :: cs)) := if_neg (hminus d hd)
      rw [hsigned, ← hwrite, hread, Option.map_some]
      congr 1
      omega

end signed

end Numeral
