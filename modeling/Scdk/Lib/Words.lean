import Scdk.Lib.Memory

/-! # Words in memory

    Words of eight bytes, little-endian, and runs of them.

    * `word`, `setWord`: one word,
    * `words`, `setWords`: words one after the other,
    * `word_setWord`, `words_setWords`: what was stored is read back,
    * `word_congr`, `setWord_of_not_mem`, `setWords_of_not_mem`: other bytes do not matter,
      and are not changed. -/

namespace Memory

/-- The word at `a`. -/
def word (m : Memory) (a : Nat) : UInt64 := UInt64.ofNat (m.load a 8)

/-- Store a word. -/
def setWord (m : Memory) (a : Nat) (w : UInt64) : Memory := m.store a 8 w.toNat

/-- The `n` words from `a` on. -/
def words (m : Memory) (a : Nat) : Nat → List UInt64
  | 0 => []
  | n + 1 => m.word a :: words m (a + 8) n

/-- Store words from `a` on. -/
def setWords (m : Memory) (a : Nat) : List UInt64 → Memory
  | [] => m
  | w :: ws => (m.setWord a w).setWords (a + 8) ws

variable {m m' : Memory} {a b x : Nat} {w : UInt64}

theorem word_setWord (m : Memory) (a : Nat) (w : UInt64) : (m.setWord a w).word a = w := by
  have hlt := w.toNat_lt
  unfold word setWord
  rw [load_store_self, Nat.mod_eq_of_lt (show w.toNat < 256 ^ 8 from hlt), UInt64.ofNat_toNat]

theorem setWord_of_not_mem (h : x < a ∨ a + 8 ≤ x) : m.setWord a w x = m x := store_of_not_mem h

/-- The bytes of the word 0. -/
theorem setWord_zero_of_mem (h : a ≤ x ∧ x < a + 8) : m.setWord a 0 x = 0 := by
  unfold setWord store
  rw [if_pos h, UInt64.toNat_zero, Nat.zero_div]
  rfl

theorem word_congr (h : ∀ x, a ≤ x → x < a + 8 → m' x = m x) : m'.word a = m.word a := by
  unfold word
  rw [load_congr h]

theorem words_congr {n : Nat} (h : ∀ x, a ≤ x → x < a + 8 * n → m' x = m x) :
    m'.words a n = m.words a n := by
  induction n generalizing a with
  | zero => rfl
  | succ n ih =>
    have hhead : m'.word a = m.word a := by
      apply word_congr
      intro x hlo hhi
      exact h x hlo (by omega)
    have htail : m'.words (a + 8) n = m.words (a + 8) n := by
      apply ih
      intro x hlo hhi
      exact h x (by omega) (by omega)
    unfold words
    rw [hhead, htail]

theorem length_words (m : Memory) (a n : Nat) : (m.words a n).length = n := by
  induction n generalizing a with
  | zero => rfl
  | succ n ih => rw [words, List.length_cons, ih]

/-- Words are the first ones and those behind them. -/
theorem words_add (m : Memory) (a n k : Nat) :
    m.words a (n + k) = m.words a n ++ m.words (a + 8 * n) k := by
  induction n generalizing a with
  | zero => simp [words]
  | succ n ih =>
    have hnext : a + 8 + 8 * n = a + 8 * (n + 1) := by omega
    rw [Nat.succ_add, words, words, ih, hnext, List.cons_append]

theorem words_setWord_of_disjoint {n : Nat} (h : a + 8 * n ≤ b ∨ b + 8 ≤ a) :
    (m.setWord b w).words a n = m.words a n := by
  apply words_congr
  intro x hlo hhi
  apply setWord_of_not_mem
  omega

theorem setWords_cons (ws : List UInt64) :
    m.setWords a (w :: ws) = (m.setWord a w).setWords (a + 8) ws := rfl

theorem setWords_of_not_mem {ws : List UInt64} (h : x < a ∨ a + 8 * ws.length ≤ x) :
    m.setWords a ws x = m x := by
  induction ws generalizing m a with
  | nil => rfl
  | cons w ws ih =>
    rw [List.length_cons] at h
    rw [setWords_cons, ih (by omega), setWord_of_not_mem (by omega)]

/-- The words that were stored. -/
theorem words_setWords (m : Memory) (a : Nat) (ws : List UInt64) :
    (m.setWords a ws).words a ws.length = ws := by
  induction ws generalizing m a with
  | nil => rfl
  | cons w ws ih =>
    -- The rest is stored behind the first word.
    have hhead : (m.setWords a (w :: ws)).word a = w := by
      rw [setWords_cons]
      refine (word_congr fun x _ hhi => ?_).trans (word_setWord m a w)
      exact setWords_of_not_mem (.inl hhi)
    have htail : (m.setWords a (w :: ws)).words (a + 8) ws.length = ws := by
      rw [setWords_cons]
      exact ih (m.setWord a w) (a + 8)
    rw [List.length_cons]
    unfold words
    rw [hhead, htail]

end Memory
