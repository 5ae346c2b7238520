import Mathlib.Data.List.Induction
import Mathlib.Logic.Function.Basic

/-! # Copying one by one

    A loop that copies what is at one place to another, for each item of a list in turn.
    Places may be read after they were written, so that the order matters.

    * `copyEach`: the loop,
    * `copyEach_of_notMem`: only the destinations are written,
    * `copyEach_of_mem`: a destination gets what its source had before the loop, if no
      source is written before it is read. -/

variable {ι κ α : Type} [DecidableEq ι]

/-- Copy from the place `src a` to the place `dst a`, for each item `a`. -/
def copyEach (dst src : α → ι) (items : List α) (m : ι → κ) : ι → κ :=
  items.foldl (fun m a => Function.update m (dst a) (m (src a))) m

variable {dst src : α → ι} {items : List α} {m : ι → κ} {i : ι}

theorem copyEach_concat (dst src : α → ι) (items : List α) (a : α) (m : ι → κ) :
    copyEach dst src (items ++ [a]) m =
      Function.update (copyEach dst src items m) (dst a) (copyEach dst src items m (src a)) := by
  simp [copyEach]

/-- Only the destinations are written. -/
theorem copyEach_of_notMem (h : ∀ a ∈ items, dst a ≠ i) : copyEach dst src items m i = m i := by
  induction items using List.reverseRecOn with
  | nil => rfl
  | append_singleton items a ih =>
    have hne : i ≠ dst a := fun heq => h a (by simp) heq.symm
    rw [copyEach_concat, Function.update_of_ne hne]
    exact ih fun b hb => h b (by simp [hb])

/-- A destination gets what its source had before the loop. -/
theorem copyEach_of_mem (hdst : items.Pairwise fun a b => dst a ≠ dst b)
    (hsrc : items.Pairwise fun a b => dst a ≠ src b) {a : α} (ha : a ∈ items) :
    copyEach dst src items m (dst a) = m (src a) := by
  induction items using List.reverseRecOn with
  | nil => cases ha
  | append_singleton items b ih =>
    obtain ⟨hdst, _, hlast⟩ := List.pairwise_append.mp hdst
    obtain ⟨hsrc, _, hread⟩ := List.pairwise_append.mp hsrc
    rw [copyEach_concat]
    rcases List.mem_append.mp ha with ha | ha
    · -- an item before the last one, which goes to another place
      rw [Function.update_of_ne (hlast a ha b List.mem_cons_self)]
      exact ih hdst hsrc ha
    · obtain rfl := List.mem_singleton.mp ha
      rw [Function.update_self]
      apply copyEach_of_notMem
      intro b hb
      exact hread b hb a List.mem_cons_self

/-- Other places, and all places when nothing is to be copied. -/
theorem copyEach_eq (hdst : items.Pairwise fun a b => dst a ≠ dst b)
    (hsrc : items.Pairwise fun a b => dst a ≠ src b) {value : ι → κ}
    (hmem : ∀ a ∈ items, value (dst a) = m (src a))
    (hother : ∀ i, (∀ a ∈ items, dst a ≠ i) → value i = m i) : copyEach dst src items m = value := by
  funext i
  by_cases h : ∃ a ∈ items, dst a = i
  · obtain ⟨a, ha, rfl⟩ := h
    rw [copyEach_of_mem hdst hsrc ha, hmem a ha]
  · have hnot : ∀ a ∈ items, dst a ≠ i := fun a ha heq => h ⟨a, ha, heq⟩
    rw [copyEach_of_notMem hnot, hother i hnot]
