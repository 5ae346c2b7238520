import Mathlib.Data.List.Basic
import Mathlib.Data.List.Chain

/-! # Tilings of an address range

    A list of tiles laid end to end from a start address, each a header of
    fixed size followed by a payload.  The addresses are determined by the
    sizes, so the list says everything:

    * `Tiling.stop`: where the last tile ends,
    * `Tiling.first`, `Tiling.last`: the first and the last address, as links
      at the two ends of a list,
    * `Tiling.placed`: the tiles with their addresses; different ones are
      disjoint (`placed_disjoint`),
    * `Tiling.used`: the tiles that are not free,
    * `Tiling.absorb`, `Tiling.join`: merging a free tile with a free one
      behind it; neither changes which tiles are used. -/

/-- A tile with a payload of `size` bytes. -/
structure Tile where
  size : Nat
  free : Bool
  deriving DecidableEq, Repr

namespace Tiling

variable (hd : Nat)

/-- The address behind the last tile. -/
def stop (addr : Nat) : List Tile → Nat
  | [] => addr
  | t :: ts => stop (addr + hd + t.size) ts

/-- The address of the last tile, or `prev` if there is none. -/
def last (prev addr : Nat) : List Tile → Nat
  | [] => prev
  | t :: ts => last addr (addr + hd + t.size) ts

/-- The address of the first tile, or `next` if there is none. -/
def first (addr next : Nat) : List Tile → Nat
  | [] => next
  | _ :: _ => addr

/-- The tiles with their addresses. -/
def placed (addr : Nat) : List Tile → List (Nat × Tile)
  | [] => []
  | t :: ts => (addr, t) :: placed (addr + hd + t.size) ts

/-- Addresses and sizes of the tiles that are not free. -/
def used (addr : Nat) : List Tile → List (Nat × Nat)
  | [] => []
  | t :: ts =>
    if t.free then used (addr + hd + t.size) ts
    else (addr, t.size) :: used (addr + hd + t.size) ts

/-- A free tile in front of `ts`, merged with the first of them if that is
    free. -/
def absorb (t : Tile) : List Tile → List Tile
  | [] => [t]
  | u :: ts => if u.free then ⟨t.size + (hd + u.size), t.free⟩ :: ts else t :: u :: ts

/-- The tiles `ts` in front of `us`; if the last of `ts` is free, it is merged
    with a free one behind it. -/
def join : List Tile → List Tile → List Tile
  | [], us => us
  | [t], us => if t.free then absorb hd t us else t :: us
  | t :: t' :: ts, us => t :: join (t' :: ts) us

/-- No two neighbours are both free. -/
def Coalesced (ts : List Tile) : Prop := ts.IsChain fun t u => ¬ (t.free = true ∧ u.free = true)

variable {hd}

@[simp] theorem first_nil (addr next : Nat) : first addr next [] = next := rfl

@[simp] theorem first_cons (addr next : Nat) (t : Tile) (ts : List Tile) :
    first addr next (t :: ts) = addr := rfl

/-! ## Concatenation -/

@[simp] theorem stop_append (addr : Nat) (xs ys : List Tile) :
    stop hd addr (xs ++ ys) = stop hd (stop hd addr xs) ys := by
  induction xs generalizing addr with
  | nil => rfl
  | cons t ts ih => exact ih _

@[simp] theorem last_append (prev addr : Nat) (xs ys : List Tile) :
    last hd prev addr (xs ++ ys) = last hd (last hd prev addr xs) (stop hd addr xs) ys := by
  induction xs generalizing prev addr with
  | nil => rfl
  | cons t ts ih => exact ih _ _

@[simp] theorem first_append (addr next : Nat) (xs ys : List Tile) :
    first addr next (xs ++ ys) = first addr (first addr next ys) xs := by
  cases xs with
  | nil => rfl
  | cons t ts => rfl

theorem placed_append (addr : Nat) (xs ys : List Tile) :
    placed hd addr (xs ++ ys) = placed hd addr xs ++ placed hd (stop hd addr xs) ys := by
  induction xs generalizing addr with
  | nil => rfl
  | cons t ts ih =>
    show (addr, t) :: placed hd _ (ts ++ ys) = _
    rw [ih]
    rfl

theorem used_append (addr : Nat) (xs ys : List Tile) :
    used hd addr (xs ++ ys) = used hd addr xs ++ used hd (stop hd addr xs) ys := by
  induction xs generalizing addr with
  | nil => rfl
  | cons t ts ih =>
    by_cases ht : t.free
    · simp [used, stop, ht, ih]
    · simp [used, stop, ht, ih]

/-! ## Addresses -/

theorem le_stop (hd addr : Nat) (ts : List Tile) : addr ≤ stop hd addr ts := by
  induction ts generalizing addr with
  | nil => exact Nat.le_refl addr
  | cons t ts ih =>
    have := ih (addr + hd + t.size)
    show addr ≤ stop hd (addr + hd + t.size) ts
    omega

/-- Tiles of at least `n` bytes, header included, take at least `n` bytes
    each. -/
theorem length_mul_le_stop {n : Nat} (addr : Nat) {ts : List Tile}
    (h : ∀ t ∈ ts, n ≤ hd + t.size) : addr + ts.length * n ≤ stop hd addr ts := by
  induction ts generalizing addr with
  | nil => simp [stop]
  | cons t ts ih =>
    have ht := h t (by simp)
    have htail : addr + hd + t.size + ts.length * n ≤ stop hd (addr + hd + t.size) ts :=
      ih _ fun u hu => h u (by simp [hu])
    rw [List.length_cons, Nat.succ_mul]
    show _ ≤ stop hd (addr + hd + t.size) ts
    omega

theorem dvd_stop {n addr : Nat} {ts : List Tile} (haddr : n ∣ addr)
    (h : ∀ t ∈ ts, n ∣ hd + t.size) : n ∣ stop hd addr ts := by
  induction ts generalizing addr with
  | nil => exact haddr
  | cons t ts ih =>
    apply ih
    · rw [Nat.add_assoc]
      exact Nat.dvd_add haddr (h t (by simp))
    · intro u hu
      exact h u (by simp [hu])

/-- The place of a tile splits the list. -/
theorem mem_placed {addr a : Nat} {t : Tile} {ts : List Tile} :
    (a, t) ∈ placed hd addr ts ↔ ∃ xs ys, ts = xs ++ t :: ys ∧ a = stop hd addr xs := by
  constructor
  · intro h
    induction ts generalizing addr with
    | nil => cases h
    | cons u ts ih =>
      rcases List.mem_cons.mp h with heq | htail
      · obtain ⟨rfl, rfl⟩ := Prod.mk.inj heq
        exact ⟨[], ts, rfl, rfl⟩
      · obtain ⟨xs, ys, rfl, rfl⟩ := ih htail
        exact ⟨u :: xs, ys, rfl, rfl⟩
  · rintro ⟨xs, ys, rfl, rfl⟩
    rw [placed_append]
    exact List.mem_append_right _ (by simp [placed])

theorem placed_bounds {addr a : Nat} {t : Tile} {ts : List Tile} (h : (a, t) ∈ placed hd addr ts) :
    addr ≤ a ∧ a + hd + t.size ≤ stop hd addr ts := by
  obtain ⟨xs, ys, rfl, rfl⟩ := mem_placed.mp h
  have h1 := le_stop hd addr xs
  have h2 := le_stop hd (stop hd addr xs + hd + t.size) ys
  refine ⟨h1, ?_⟩
  rw [stop_append]
  exact h2

/-- Two tiles of one tiling are the same or do not overlap. -/
theorem placed_disjoint {addr a b : Nat} {t u : Tile} {ts : List Tile}
    (ha : (a, t) ∈ placed hd addr ts) (hb : (b, u) ∈ placed hd addr ts) :
    (a = b ∧ t = u) ∨ a + hd + t.size ≤ b ∨ b + hd + u.size ≤ a := by
  induction ts generalizing addr with
  | nil => cases ha
  | cons v ts ih =>
    rcases List.mem_cons.mp ha with ha | ha
    · obtain ⟨rfl, rfl⟩ := Prod.mk.inj ha
      rcases List.mem_cons.mp hb with hb | hb
      · obtain ⟨rfl, rfl⟩ := Prod.mk.inj hb
        exact .inl ⟨rfl, rfl⟩
      · exact .inr (.inl (placed_bounds hb).1)
    · rcases List.mem_cons.mp hb with hb | hb
      · obtain ⟨rfl, rfl⟩ := Prod.mk.inj hb
        exact .inr (.inr (placed_bounds ha).1)
      · exact ih ha hb

theorem mem_used {addr a n : Nat} {ts : List Tile} :
    (a, n) ∈ used hd addr ts ↔ (a, ⟨n, false⟩) ∈ placed hd addr ts := by
  induction ts generalizing addr with
  | nil => simp [used, placed]
  | cons t ts ih =>
    obtain ⟨size, free⟩ := t
    cases free with
    | true => simp [used, placed, ih]
    | false => simp [used, placed, ih]

/-- The addresses of the used tiles increase. -/
theorem nodup_used (addr : Nat) (hpos : 0 < hd) (ts : List Tile) :
    ((used hd addr ts).map Prod.fst).Nodup := by
  induction ts generalizing addr with
  | nil => exact List.nodup_nil
  | cons t ts ih =>
    unfold used
    split
    · exact ih _
    · rw [List.map_cons, List.nodup_cons]
      refine ⟨?_, ih _⟩
      intro hmem
      obtain ⟨⟨a, n⟩, hn, rfl⟩ := List.mem_map.mp hmem
      have := (placed_bounds (mem_used.mp hn)).1
      dsimp only at this
      omega

/-! ## Merging -/

theorem absorb_cons_free {t u : Tile} (hu : u.free = true) (ts : List Tile) :
    absorb hd t (u :: ts) = ⟨t.size + (hd + u.size), t.free⟩ :: ts := by
  simp [absorb, hu]

theorem absorb_cons_used {t u : Tile} (hu : u.free = false) (ts : List Tile) :
    absorb hd t (u :: ts) = t :: u :: ts := by
  simp [absorb, hu]

theorem exists_absorb_eq_cons (hd : Nat) (t : Tile) (ts : List Tile) :
    ∃ u us, absorb hd t ts = u :: us := by
  cases ts with
  | nil => exact ⟨t, [], rfl⟩
  | cons u ts =>
    cases hu : u.free with
    | true => exact ⟨_, _, absorb_cons_free hu ts⟩
    | false => exact ⟨_, _, absorb_cons_used hu ts⟩

/-- Merging two free tiles does not change which tiles are used. -/
theorem used_absorb (addr : Nat) {t : Tile} (ht : t.free = true) (ts : List Tile) :
    used hd addr (absorb hd t ts) = used hd (addr + hd + t.size) ts := by
  cases ts with
  | nil => simp [absorb, used, ht]
  | cons u ts =>
    cases hu : u.free with
    | true =>
      have haddr : addr + hd + (t.size + (hd + u.size)) = addr + hd + t.size + hd + u.size := by
        omega
      simp [absorb_cons_free hu, used, ht, hu, haddr]
    | false => simp [absorb_cons_used hu, used, ht, hu]

theorem join_concat (xs : List Tile) (t : Tile) (us : List Tile) :
    join hd (xs ++ [t]) us = xs ++ if t.free then absorb hd t us else t :: us := by
  induction xs with
  | nil => rfl
  | cons x xs ih =>
    cases xs with
    | nil => rfl
    | cons y xs =>
      show x :: join hd ((y :: xs) ++ [t]) us = _
      rw [ih]
      rfl

/-- Joining does not change which tiles are used. -/
theorem used_join (addr : Nat) (ts us : List Tile) :
    used hd addr (join hd ts us) = used hd addr (ts ++ us) := by
  rcases List.eq_nil_or_concat ts with rfl | ⟨xs, t, rfl⟩
  · rfl
  · rw [List.concat_eq_append, join_concat, List.append_assoc, used_append, used_append]
    congr 1
    cases ht : t.free with
    | true =>
      rw [if_pos rfl, used_absorb _ ht]
      simp [used, ht]
    | false => rfl

/-! ## No two neighbours both free -/

/-- A used tile separates what is before it from what is behind it. -/
theorem coalesced_append_used {xs ys : List Tile} {t : Tile} (ht : t.free = false) :
    Coalesced (xs ++ t :: ys) ↔ Coalesced xs ∧ Coalesced ys := by
  unfold Coalesced
  rw [List.isChain_append, List.isChain_cons]
  constructor
  · intro h
    exact ⟨h.1, h.2.1.2⟩
  · intro h
    refine ⟨h.1, ⟨?_, h.2⟩, ?_⟩
    · intro y _ hfree
      rw [ht] at hfree
      exact absurd hfree.1 (by decide)
    · intro x _ y hy hfree
      rw [List.head?_cons, Option.mem_some_iff] at hy
      rw [← hy, ht] at hfree
      exact absurd hfree.2 (by decide)

/-- Only the flags of the tiles matter. -/
theorem Coalesced.resize_head {t t' : Tile} {ys : List Tile} (h : Coalesced (t :: ys))
    (hfree : t'.free = t.free) : Coalesced (t' :: ys) := by
  refine List.IsChain.imp_head ?_ h
  intro z hz
  rw [hfree]
  exact hz

theorem Coalesced.resize_last {t t' : Tile} {xs : List Tile} (h : Coalesced (xs ++ [t]))
    (hfree : t'.free = t.free) : Coalesced (xs ++ [t']) := by
  unfold Coalesced at *
  rw [List.isChain_append] at *
  refine ⟨h.1, List.isChain_singleton _, ?_⟩
  intro x hx y hy
  rw [List.head?_cons, Option.mem_some_iff] at hy
  rw [← hy, hfree]
  exact h.2.2 x hx t rfl

theorem Coalesced.absorb {xs us : List Tile} {t : Tile} (h : Coalesced (xs ++ [t]))
    (hus : Coalesced us) : Coalesced (xs ++ absorb hd t us) := by
  cases us with
  | nil => exact h
  | cons u us =>
    cases hu : u.free with
    | true =>
      rw [absorb_cons_free hu]
      cases ht : t.free with
      | true =>
        have hlast : Coalesced (xs ++ [⟨t.size + (hd + u.size), true⟩]) := h.resize_last ht.symm
        have hhead : Coalesced (⟨t.size + (hd + u.size), true⟩ :: us) := hus.resize_head hu.symm
        exact List.isChain_split.mpr ⟨hlast, hhead⟩
      | false =>
        have hsep := (coalesced_append_used ht).mp h
        have htail : Coalesced us := (List.isChain_cons.mp hus).2
        exact (coalesced_append_used rfl).mpr ⟨hsep.1, htail⟩
    | false =>
      rw [absorb_cons_used hu]
      refine List.isChain_split.mpr ⟨h, List.isChain_cons_cons.mpr ⟨?_, hus⟩⟩
      intro hfree
      rw [hu] at hfree
      exact absurd hfree.2 (by decide)

theorem Coalesced.join {ts us : List Tile} (h : Coalesced ts) (hus : Coalesced us) :
    Coalesced (join hd ts us) := by
  rcases List.eq_nil_or_concat ts with rfl | ⟨xs, t, rfl⟩
  · exact hus
  · rw [List.concat_eq_append] at h ⊢
    rw [join_concat]
    cases ht : t.free with
    | true =>
      rw [if_pos rfl]
      exact h.absorb hus
    | false =>
      rw [if_neg (by decide)]
      exact (coalesced_append_used ht).mpr ⟨((coalesced_append_used ht).mp h).1, hus⟩

end Tiling
