import Mathlib.Data.List.Induction

/-! # Writing over what is there

    A list of writes, each to one place of something with many places, done one after the
    other: what is at a place in the end is what was written there last.

    * `overwrite`: a place after some writes,
    * `overwrite_const`: writes of one value,
    * `overwrite_shadowed`: pairs of writes, of which the first goes to another place, and
      never to one that was written by the second of an earlier pair. -/

variable {ι κ α : Type} [DecidableEq ι]

/-- What is at the place `i` after the writes `ws`. -/
def overwrite (ws : List (ι × κ)) (i : ι) (old : κ) : κ :=
  ws.foldl (fun x w => if w.1 = i then w.2 else x) old

@[simp] theorem overwrite_nil (i : ι) (old : κ) : overwrite [] i old = old := rfl

theorem overwrite_append (ws ws' : List (ι × κ)) (i : ι) (old : κ) :
    overwrite (ws ++ ws') i old = overwrite ws' i (overwrite ws i old) := List.foldl_append

/-- Writes of one value. -/
theorem overwrite_const (places : List ι) (value : κ) (i : ι) (old : κ) :
    overwrite (places.map fun j => (j, value)) i old = if i ∈ places then value else old := by
  induction places using List.reverseRecOn with
  | nil => rfl
  | append_singleton places j ih =>
    rw [List.map_append, overwrite_append, ih]
    by_cases hj : j = i
    · simp [overwrite, hj]
    · simp [overwrite, hj, Ne.symm hj]

/-- Writes of `lower` to the shadow of each item and of `upper` to the item itself. -/
def shadowedWrites (place shadow : α → ι) (upper lower : κ) (items : List α) : List (ι × κ) :=
  items.flatMap fun a => [(shadow a, lower), (place a, upper)]

/-- When no shadow falls on an earlier item, the items are seen, and behind them the
    shadows. -/
theorem overwrite_shadowed (place shadow : α → ι) (upper lower : κ) {items : List α}
    (h : items.Pairwise fun a b => place a ≠ shadow b) (i : ι) (old : κ) :
    overwrite (shadowedWrites place shadow upper lower items) i old =
      if i ∈ items.map place then upper else if i ∈ items.map shadow then lower else old := by
  induction items using List.reverseRecOn with
  | nil => rfl
  | append_singleton items b ih =>
    obtain ⟨hitems, _, hlast⟩ := List.pairwise_append.mp h
    have hnot : i ∈ items.map place → shadow b ≠ i := by
      intro hi heq
      obtain ⟨a, ha, rfl⟩ := List.mem_map.mp hi
      exact hlast a ha b List.mem_cons_self heq.symm
    have hsplit : shadowedWrites place shadow upper lower (items ++ [b]) =
        shadowedWrites place shadow upper lower items ++ [(shadow b, lower), (place b, upper)] := by
      simp [shadowedWrites]
    rw [hsplit, overwrite_append, ih hitems]
    by_cases hplace : place b = i
    · simp [overwrite, hplace]
    · by_cases hmem : i ∈ items.map place
      · -- an earlier item, on which the shadow does not fall
        simp [overwrite, hplace, hnot hmem, hmem]
      · by_cases hshadow : shadow b = i
        · simp only [overwrite, List.foldl_cons, List.foldl_nil, hplace, hshadow, if_true, if_false,
            List.map_append, List.mem_append, hmem]
          simp [hshadow, Ne.symm hplace]
        · simp only [overwrite, List.foldl_cons, List.foldl_nil, hplace, hshadow, if_false,
            List.map_append, List.mem_append, hmem]
          simp [Ne.symm hplace, Ne.symm hshadow]
