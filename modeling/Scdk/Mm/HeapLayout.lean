import Scdk.Mm.Heap
import Scdk.Lib.Tiling

/-! # The block list as a tiling

    `HeapRep h ts` says that the block list of `h` tiles the committed part of
    the heap with the tiles `ts`, in the order of the links.  Each operation of
    `heap.c` is then an operation on the list of tiles, and writes to headers
    and free memory only:

    * `blockCoalesceForward` merges a free tile with a free one behind it,
    * `kallocBlock` turns a free tile into a used one, and splits off the rest,
    * `heapExtend` appends a free tile, merged with a free one before it,
    * `findFreeBlock` is first fit. -/

namespace Scdk

open Tiling

variable {π : Type}

/-! ## Headers -/

theorem heapHeaderSize_eq : heapHeaderSize = 48 := by decide

theorem heapBlock_congr {m m' : Memory} {a : Nat} (h : ∀ x, a ≤ x → x < a + 48 → m' x = m x) :
    heapBlock m' a = heapBlock m a := by
  unfold heapBlock
  have hload : ∀ b n, a ≤ b → b + n ≤ a + 48 → m'.load b n = m.load b n := by
    intro b n hlo hhi
    apply Memory.load_congr
    intro x hx hx'
    exact h x (by omega) (by omega)
  rw [hload a 8 (by omega) (by omega), hload (a + 8) 8 (by omega) (by omega),
    hload (a + 16) 1 (by omega) (by omega), hload (a + 24) 8 (by omega) (by omega),
    hload (a + 32) 8 (by omega) (by omega)]

section setters

variable (h : Heap π) (a v : Nat)

@[simp] theorem Heap.block_setMagic_self :
    (h.setMagic a v).block a = { h.block a with magic := v % 2 ^ 64 } := by
  simp (disch := omega) only [Heap.block, Heap.setMagic, heapBlock, Memory.load_store_self,
    Memory.load_store_of_disjoint, Nat.reducePow]

@[simp] theorem Heap.block_setSize_self :
    (h.setSize a v).block a = { h.block a with size := v % 2 ^ 64 } := by
  simp (disch := omega) only [Heap.block, Heap.setSize, heapBlock, Memory.load_store_self,
    Memory.load_store_of_disjoint, Nat.reducePow]

@[simp] theorem Heap.block_setFree_self (v : Bool) :
    (h.setFree a v).block a = { h.block a with free := v } := by
  simp (disch := omega) only [Heap.block, Heap.setFree, heapBlock, Memory.load_store_self,
    Memory.load_store_of_disjoint, Nat.reducePow]
  cases v <;> rfl

@[simp] theorem Heap.block_setPrev_self :
    (h.setPrev a v).block a = { h.block a with prev := v % 2 ^ 64 } := by
  simp (disch := omega) only [Heap.block, Heap.setPrev, heapBlock, Memory.load_store_self,
    Memory.load_store_of_disjoint, Nat.reducePow]

@[simp] theorem Heap.block_setNext_self :
    (h.setNext a v).block a = { h.block a with next := v % 2 ^ 64 } := by
  simp (disch := omega) only [Heap.block, Heap.setNext, heapBlock, Memory.load_store_self,
    Memory.load_store_of_disjoint, Nat.reducePow]

@[simp] theorem Heap.setFree_initialized (v : Bool) :
    (h.setFree a v).initialized = h.initialized := rfl

/-- The five setters write to the header they are for only. -/
def WritesHeader (a : Nat) (h h' : Heap π) : Prop :=
  ∀ x, x < a ∨ a + 48 ≤ x → h'.mem x = h.mem x

theorem Heap.setMagic_writes : WritesHeader a h (h.setMagic a v) :=
  fun _ _ => Memory.store_of_not_mem (by omega)

theorem Heap.setSize_writes : WritesHeader a h (h.setSize a v) :=
  fun _ _ => Memory.store_of_not_mem (by omega)

theorem Heap.setFree_writes (v : Bool) : WritesHeader a h (h.setFree a v) :=
  fun _ _ => Memory.store_of_not_mem (by omega)

theorem Heap.setPrev_writes : WritesHeader a h (h.setPrev a v) :=
  fun _ _ => Memory.store_of_not_mem (by omega)

theorem Heap.setNext_writes : WritesHeader a h (h.setNext a v) :=
  fun _ _ => Memory.store_of_not_mem (by omega)

/-- Writing one header does not change another. -/
theorem WritesHeader.block {h h' : Heap π} {a b : Nat} (hw : WritesHeader a h h')
    (hb : b + 48 ≤ a ∨ a + 48 ≤ b) : h'.block b = h.block b := by
  apply heapBlock_congr
  intro x hlo hhi
  exact hw x (by omega)

variable {b : Nat} (hb : b + 48 ≤ a ∨ a + 48 ≤ b)
include hb

@[simp] theorem Heap.block_setMagic_ne : (h.setMagic a v).block b = h.block b :=
  (h.setMagic_writes a v).block hb

@[simp] theorem Heap.block_setSize_ne : (h.setSize a v).block b = h.block b :=
  (h.setSize_writes a v).block hb

@[simp] theorem Heap.block_setFree_ne (v : Bool) : (h.setFree a v).block b = h.block b :=
  (h.setFree_writes a v).block hb

@[simp] theorem Heap.block_setPrev_ne : (h.setPrev a v).block b = h.block b :=
  (h.setPrev_writes a v).block hb

@[simp] theorem Heap.block_setNext_ne : (h.setNext a v).block b = h.block b :=
  (h.setNext_writes a v).block hb

end setters

/-- Fill in the header of a free block. -/
def Heap.fillHeader (h : Heap π) (a size prev next : Nat) : Heap π :=
  ((((h.setMagic a heapMagic).setSize a size).setFree a true).setPrev a prev).setNext a next

theorem Heap.fillHeader_writes (h : Heap π) (a size prev next : Nat) :
    WritesHeader a h (h.fillHeader a size prev next) := by
  intro x hx
  unfold Heap.fillHeader
  rw [Heap.setNext_writes _ _ _ x hx, Heap.setPrev_writes _ _ _ x hx, Heap.setFree_writes _ _ _ x hx,
    Heap.setSize_writes _ _ _ x hx, Heap.setMagic_writes _ _ _ x hx]

theorem Heap.fillHeader_block (h : Heap π) (a : Nat) {size prev next : Nat} (hsize : size < 2 ^ 64)
    (hprev : prev < 2 ^ 64) (hnext : next < 2 ^ 64) :
    (h.fillHeader a size prev next).block a = ⟨heapMagic, size, true, prev, next⟩ := by
  unfold Heap.fillHeader
  rw [Heap.block_setNext_self, Heap.block_setPrev_self, Heap.block_setFree_self,
    Heap.block_setSize_self, Heap.block_setMagic_self, Nat.mod_eq_of_lt hsize,
    Nat.mod_eq_of_lt hprev, Nat.mod_eq_of_lt hnext]
  rfl

/-- The fields of the heap itself are as before. -/
theorem Heap.fillHeader_fields (h : Heap π) (a size prev next : Nat) :
    (h.fillHeader a size prev next).head = h.head ∧ (h.fillHeader a size prev next).tail = h.tail ∧
      (h.fillHeader a size prev next).commitEnd = h.commitEnd ∧
      (h.fillHeader a size prev next).initialized = h.initialized :=
  ⟨rfl, rfl, rfl, rfl⟩

/-! ## Linked tiles -/

/-- From `addr` on, the headers describe the tiles `ts`, linked both ways.
    The first one points back to `prev`, the last one on to `next`. -/
def Chain (blk : Nat → HeapBlock) (prev addr next : Nat) : List Tile → Prop
  | [] => True
  | t :: ts =>
    blk addr = ⟨heapMagic, t.size, t.free, prev, first (addr + 48 + t.size) next ts⟩ ∧
      Chain blk addr (addr + 48 + t.size) next ts

theorem chain_append {blk : Nat → HeapBlock} {prev addr next : Nat} {xs ys : List Tile} :
    Chain blk prev addr next (xs ++ ys) ↔
      Chain blk prev addr (first (stop 48 addr xs) next ys) xs ∧
        Chain blk (last 48 prev addr xs) (stop 48 addr xs) next ys := by
  induction xs generalizing prev addr with
  | nil => simp [Chain, stop, last]
  | cons t ts ih =>
    have hfirst : first (addr + 48 + t.size) next (ts ++ ys) =
        first (addr + 48 + t.size) (first (stop 48 addr (t :: ts)) next ys) ts := by
      cases ts with
      | nil => rfl
      | cons u us => rfl
    rw [List.cons_append]
    simp only [Chain]
    rw [ih, hfirst, and_assoc]
    rfl

/-- The links of a chain depend on the headers of its tiles only. -/
theorem chain_congr_placed {blk blk' : Nat → HeapBlock} {prev addr next : Nat} {ts : List Tile}
    (h : ∀ a t, (a, t) ∈ placed 48 addr ts → blk' a = blk a)
    (hc : Chain blk prev addr next ts) : Chain blk' prev addr next ts := by
  induction ts generalizing prev addr with
  | nil => trivial
  | cons t ts ih =>
    obtain ⟨hhead, htail⟩ := hc
    refine ⟨?_, ih ?_ htail⟩
    · rw [h addr t (by simp [placed])]
      exact hhead
    · intro a u hu
      exact h a u (by simp [placed, hu])

/-- The links of a chain depend on the headers in its range only. -/
theorem chain_congr {blk blk' : Nat → HeapBlock} {prev addr next : Nat} {ts : List Tile}
    (h : ∀ a, addr ≤ a → a + 48 ≤ stop 48 addr ts → blk' a = blk a)
    (hc : Chain blk prev addr next ts) : Chain blk' prev addr next ts := by
  refine chain_congr_placed ?_ hc
  intro a t ht
  obtain ⟨hlo, hhi⟩ := placed_bounds ht
  exact h a hlo (by omega)

/-- The header of the tile behind `xs`. -/
theorem chain_block {blk : Nat → HeapBlock} {prev addr next : Nat} {xs ys : List Tile} {t : Tile}
    (h : Chain blk prev addr next (xs ++ t :: ys)) :
    blk (stop 48 addr xs) = ⟨heapMagic, t.size, t.free, last 48 prev addr xs,
      first (stop 48 addr xs + 48 + t.size) next ys⟩ :=
  (chain_append.mp h).2.1

/-! ## The representation -/

/-- The tiles of the heap from `heapBase` on. -/
structure HeapRep (h : Heap π) (ts : List Tile) : Prop where
  chain : Chain h.block 0 heapBase 0 ts
  head : h.head = first heapBase 0 ts
  tail : h.tail = last 48 0 heapBase ts
  commitEnd : h.commitEnd = stop 48 heapBase ts
  bound : h.commitEnd ≤ heapBase + heapSize
  size : ∀ t ∈ ts, 16 ∣ t.size ∧ 0 < t.size

/-- The payloads of the used tiles hold the same bytes in `h` and `h'`. -/
def KeepsUsed (ts : List Tile) (h h' : Heap π) : Prop :=
  ∀ a n, (a, n) ∈ used 48 heapBase ts → ∀ x, a + 48 ≤ x → x < a + 48 + n → h'.mem x = h.mem x

theorem KeepsUsed.refl (ts : List Tile) (h : Heap π) : KeepsUsed ts h h := fun _ _ _ _ _ _ => rfl

theorem KeepsUsed.trans {ts ts' : List Tile} {h h' h'' : Heap π} (hk : KeepsUsed ts h h')
    (hused : ∀ u ∈ used 48 heapBase ts, u ∈ used 48 heapBase ts') (hk' : KeepsUsed ts' h' h'') :
    KeepsUsed ts h h'' := by
  intro a n hmem x hlo hhi
  rw [hk' a n (hused _ hmem) x hlo hhi, hk a n hmem x hlo hhi]

/-- A byte of a used payload is in no header, nor in one that a boundary
    between two tiles could hold. -/
theorem used_away {xs ys : List Tile} {a n x : Nat} (h : (a, n) ∈ used 48 heapBase (xs ++ ys))
    (hlo : a + 48 ≤ x) (hhi : x < a + 48 + n) :
    x < stop 48 heapBase xs ∨ stop 48 heapBase xs + 48 ≤ x := by
  rw [used_append, List.mem_append] at h
  rcases h with hl | hr
  · have := (placed_bounds (mem_used.mp hl)).2
    dsimp only at this
    exact .inl (by omega)
  · have := (placed_bounds (mem_used.mp hr)).1
    exact .inr (by omega)

/-- A header written at a boundary between two tiles holds no used payload. -/
theorem WritesHeader.keepsUsed {h h' : Heap π} {a : Nat} (hw : WritesHeader a h h')
    {xs : List Tile} (ha : stop 48 heapBase xs = a) (ys : List Tile) : KeepsUsed (xs ++ ys) h h' := by
  subst ha
  exact fun _ _ hmem x hlo hhi => hw x (used_away hmem hlo hhi)

theorem heapBase_pos : 0 < heapBase := by decide

theorem heapTop_lt : heapBase + heapSize < 2 ^ 64 := by decide

/-- Everything the list of a heap points to lies below `2 ^ 64`. -/
theorem HeapRep.stop_lt {h : Heap π} {xs ys : List Tile} (hr : HeapRep h (xs ++ ys)) :
    stop 48 heapBase xs < 2 ^ 64 := by
  have h1 := hr.bound
  have h2 := hr.commitEnd
  have h3 := le_stop 48 (stop 48 heapBase xs) ys
  have h4 := heapTop_lt
  rw [stop_append] at h2
  omega

theorem le_stop_base (xs : List Tile) : heapBase ≤ stop 48 heapBase xs := le_stop 48 heapBase xs

/-! ## Relinking a successor -/

/-- The idiom of `block_remove` and `block_split`: make `q` the predecessor of
    the block `next`, or the tail of the list if there is none. -/
def Heap.linkBack (h : Heap π) (next q : Nat) : Heap π :=
  if next ≠ 0 then h.setPrev next q else { h with tail := q }

section linkBack

variable {h : Heap π} {p q addr : Nat} {ys : List Tile}

/-- After relinking, the rest of the list hangs on `q`. -/
theorem Heap.linkBack_chain (hc : Chain h.block p addr 0 ys) (haddr : addr ≠ 0)
    (hq : q < 2 ^ 64) : Chain (h.linkBack (first addr 0 ys) q).block q addr 0 ys := by
  cases ys with
  | nil => trivial
  | cons y ys =>
    obtain ⟨hhead, htail⟩ := hc
    have hset : h.linkBack (first addr 0 (y :: ys)) q = h.setPrev addr q := if_pos haddr
    rw [hset]
    refine ⟨?_, chain_congr ?_ htail⟩
    · rw [Heap.block_setPrev_self, hhead, Nat.mod_eq_of_lt hq]
    · intro a hlo _
      exact (h.setPrev_writes addr q).block (by omega)

theorem Heap.linkBack_tail (htail : h.tail = last 48 p addr ys) (haddr : addr ≠ 0) :
    (h.linkBack (first addr 0 ys) q).tail = last 48 q addr ys := by
  cases ys with
  | nil => rfl
  | cons y ys =>
    have hset : h.linkBack (first addr 0 (y :: ys)) q = h.setPrev addr q := if_pos haddr
    rw [hset]
    exact htail

/-- Relinking writes at most to the first header of the rest of the list. -/
theorem Heap.linkBack_writes : WritesHeader addr h (h.linkBack (first addr 0 ys) q) := by
  cases ys with
  | nil => exact fun _ _ => rfl
  | cons y ys =>
    unfold Heap.linkBack
    split
    · exact h.setPrev_writes _ _
    · exact fun _ _ => rfl

@[simp] theorem Heap.linkBack_head (h : Heap π) (next q : Nat) :
    (h.linkBack next q).head = h.head := by
  unfold Heap.linkBack
  split <;> rfl

@[simp] theorem Heap.linkBack_commitEnd (h : Heap π) (next q : Nat) :
    (h.linkBack next q).commitEnd = h.commitEnd := by
  unfold Heap.linkBack
  split <;> rfl

@[simp] theorem Heap.linkBack_initialized (h : Heap π) (next q : Nat) :
    (h.linkBack next q).initialized = h.initialized := by
  unfold Heap.linkBack
  split <;> rfl

end linkBack

/-! ## Merging -/

/-- The block list below a boundary is not touched by writes behind it. -/
theorem chain_below {h h' : Heap π} {xs : List Tile} {next : Nat}
    (hc : Chain h.block 0 heapBase next xs)
    (hw : ∀ x, x < stop 48 heapBase xs → h'.mem x = h.mem x) :
    Chain h'.block 0 heapBase next xs := by
  refine chain_congr ?_ hc
  intro a _ hhi
  apply heapBlock_congr
  intro x _ hx
  exact hw x (by omega)

/-- Replacing the tiles `mid` by `mid'` in the same range: the headers of the
    new tiles are right, the rest of the list hangs on the last of them, and
    nothing below them was written. -/
theorem HeapRep.replace {h h' : Heap π} {xs ys : List Tile} {a c : Nat} (mid mid' : List Tile)
    (hr : HeapRep h (xs ++ (mid ++ ys))) (ha : stop 48 heapBase xs = a)
    (hmid : mid ≠ []) (hmid' : mid' ≠ []) (hc : stop 48 a mid = c) (hc' : stop 48 a mid' = c)
    (hbelow : ∀ x, x < a → h'.mem x = h.mem x)
    (hchain : Chain h'.block (last 48 0 heapBase xs) a (first c 0 ys) mid')
    (hrest : Chain h'.block (last 48 (last 48 0 heapBase xs) a mid') c 0 ys)
    (hhead : h'.head = h.head) (hcommit : h'.commitEnd = h.commitEnd)
    (htail : h'.tail = last 48 (last 48 (last 48 0 heapBase xs) a mid') c ys)
    (hsize : ∀ t ∈ mid', 16 ∣ t.size ∧ 0 < t.size) : HeapRep h' (xs ++ (mid' ++ ys)) := by
  obtain ⟨hxs, _⟩ := chain_append.mp hr.chain
  -- The tiles before the range point to its start, whatever it holds.
  have hfirst : ∀ zs, zs ≠ [] → ∀ ws, first a 0 (zs ++ ws) = a := by
    intro zs hzs ws
    cases zs with
    | nil => exact absurd rfl hzs
    | cons z zs => rfl
  rw [ha, hfirst mid hmid] at hxs
  refine ⟨?_, ?_, ?_, ?_, ?_, ?_⟩
  · rw [chain_append, ha, hfirst mid' hmid', chain_append, hc']
    refine ⟨chain_below hxs fun x hx => hbelow x ?_, hchain, hrest⟩
    rwa [ha] at hx
  · rw [hhead, hr.head]
    cases xs with
    | nil =>
      obtain rfl : heapBase = a := ha
      rw [List.nil_append, List.nil_append, hfirst mid hmid, hfirst mid' hmid']
    | cons x xs => rfl
  · rw [htail, last_append, ha, last_append, hc']
  · rw [hcommit, hr.commitEnd]
    simp only [stop_append, ha, hc, hc']
  · rw [hcommit]
    exact hr.bound
  · intro t ht
    rcases List.mem_append.mp ht with ht | ht
    · exact hr.size t (by simp [ht])
    · rcases List.mem_append.mp ht with ht | ht
      · exact hsize t ht
      · exact hr.size t (by simp [ht])

/-- The end of the list, as seen from a boundary between two tiles. -/
theorem HeapRep.at_boundary {h : Heap π} {xs ys : List Tile} {a : Nat}
    (hr : HeapRep h (xs ++ ys)) (ha : stop 48 heapBase xs = a) :
    heapBase ≤ a ∧ stop 48 a ys ≤ heapBase + heapSize ∧
      h.tail = last 48 (last 48 0 heapBase xs) a ys := by
  have hcommit := hr.commitEnd
  have hbound := hr.bound
  have htail := hr.tail
  rw [stop_append, ha] at hcommit
  rw [last_append, ha] at htail
  rw [hcommit] at hbound
  refine ⟨?_, hbound, htail⟩
  rw [← ha]
  exact le_stop_base xs

/-- Links to the rest of the list fit into a word. -/
theorem first_lt {c : Nat} {ys : List Tile} (h : stop 48 c ys ≤ heapBase + heapSize) :
    first c 0 ys < 2 ^ 64 := by
  have hle := le_stop 48 c ys
  have htop := heapTop_lt
  cases ys with
  | nil => exact Nat.two_pow_pos 64
  | cons y ys =>
    show c < 2 ^ 64
    omega

/-- The function takes its merging branch. -/
theorem blockCoalesceForward_eq {h : Heap π} {p a b c : Nat} {t u : Tile} {ys : List Tile}
    (ht : h.block a = ⟨heapMagic, t.size, t.free, p, b⟩)
    (hub : h.block b = ⟨heapMagic, u.size, u.free, a, first c 0 ys⟩) (hu : u.free = true)
    (ha : a ≠ 0) (hb : a + 48 + t.size = b) :
    blockCoalesceForward h a =
      ((h.setSize a (t.size + (48 + u.size))).setNext a (first c 0 ys)).linkBack
        (first c 0 ys) a := by
  have hb1 : (h.setSize a (t.size + (48 + u.size))).block b = h.block b :=
    (h.setSize_writes a _).block (by omega)
  have hb2 : ((h.setSize a (t.size + (48 + u.size))).setNext a (first c 0 ys)).block b =
      h.block b := by
    rw [(Heap.setNext_writes _ a _).block (by omega), hb1]
  have hmerge : ¬ (b = 0 ∨ true = false ∨ b ≠ a + 48 + t.size) := by
    simp only [Bool.true_eq_false, false_or]
    omega
  unfold blockCoalesceForward
  simp only [ht, hub, hu, heapHeaderSize_eq]
  rw [if_neg hmerge]
  unfold blockRemove
  simp only [hb1, hub, if_pos ha, hb2]
  rfl

/-- Merging a tile with the free one behind it. -/
theorem HeapRep.coalesce {h : Heap π} {xs ys : List Tile} {t u : Tile}
    (hr : HeapRep h (xs ++ t :: u :: ys)) (hu : u.free = true) :
    HeapRep (blockCoalesceForward h (stop 48 heapBase xs))
        (xs ++ ⟨t.size + (48 + u.size), t.free⟩ :: ys) ∧
      KeepsUsed (xs ++ t :: u :: ys) h (blockCoalesceForward h (stop 48 heapBase xs)) ∧
      (blockCoalesceForward h (stop 48 heapBase xs)).initialized = h.initialized := by
  obtain ⟨a, ha⟩ : ∃ a, stop 48 heapBase xs = a := ⟨_, rfl⟩
  obtain ⟨b, hb⟩ : ∃ b, a + 48 + t.size = b := ⟨_, rfl⟩
  obtain ⟨c, hc⟩ : ∃ c, b + 48 + u.size = c := ⟨_, rfl⟩
  have hc' : a + 48 + (t.size + (48 + u.size)) = c := by omega
  obtain ⟨hbase, hbound, htail⟩ := hr.at_boundary ha
  obtain ⟨_, ht, hub, hys⟩ := chain_append.mp hr.chain
  rw [ha] at ht
  simp only [ha, first, hb, hc] at ht hub hys
  simp only [stop, last, hb, hc] at hbound htail
  have hpos := heapBase_pos
  have htop := heapTop_lt
  have hle := le_stop 48 c ys
  have hfirst := first_lt hbound
  rw [ha, blockCoalesceForward_eq ht hub hu (by omega) hb]
  -- What the three writes touch.
  have hw1 := h.setSize_writes a (t.size + (48 + u.size))
  have hw2 := (h.setSize a (t.size + (48 + u.size))).setNext_writes a (first c 0 ys)
  have hw3 : WritesHeader c ((h.setSize a (t.size + (48 + u.size))).setNext a (first c 0 ys))
      (((h.setSize a (t.size + (48 + u.size))).setNext a (first c 0 ys)).linkBack
        (first c 0 ys) a) := Heap.linkBack_writes
  have htile := hr.size t (by simp)
  have hutile := hr.size u (by simp)
  refine ⟨?_, ?_, ?_⟩
  · refine hr.replace [t, u] [⟨t.size + (48 + u.size), t.free⟩] ha
      (by simp) (by simp) (by simp [stop, hb, hc]) hc' ?_ ⟨?_, trivial⟩ ?_ ?_ ?_ ?_ ?_
    · intro x hx
      rw [hw3 x (by omega), hw2 x (by omega), hw1 x (by omega)]
    · rw [hw3.block (by omega), Heap.block_setNext_self, Heap.block_setSize_self, ht,
        Nat.mod_eq_of_lt hfirst, Nat.mod_eq_of_lt (by omega)]
      rfl
    · refine Heap.linkBack_chain (chain_congr ?_ hys) (by omega) (by omega)
      intro d hlo _
      rw [hw2.block (by omega), hw1.block (by omega)]
    · rw [Heap.linkBack_head]
      rfl
    · rw [Heap.linkBack_commitEnd]
      rfl
    · exact Heap.linkBack_tail htail (by omega)
    · intro v hv
      rw [List.mem_singleton.mp hv]
      dsimp only
      omega
  · -- Both headers written are boundaries between tiles.
    have hk1 : KeepsUsed (xs ++ t :: u :: ys) h
        ((h.setSize a (t.size + (48 + u.size))).setNext a (first c 0 ys)) := by
      refine WritesHeader.keepsUsed ?_ ha _
      intro x hx
      rw [hw2 x hx, hw1 x hx]
    have hstop : stop 48 heapBase (xs ++ [t, u]) = c := by
      rw [stop_append, ha]
      simp only [stop, hb, hc]
    refine hk1.trans ?_ (hw3.keepsUsed hstop ys)
    intro w hw
    simpa using hw
  · rw [Heap.linkBack_initialized]
    rfl

/-- `blockCoalesceForward`, whatever follows the block. -/
theorem HeapRep.absorb {h : Heap π} {xs ys : List Tile} {t : Tile}
    (hr : HeapRep h (xs ++ t :: ys)) :
    HeapRep (blockCoalesceForward h (stop 48 heapBase xs)) (xs ++ Tiling.absorb 48 t ys) ∧
      KeepsUsed (xs ++ t :: ys) h (blockCoalesceForward h (stop 48 heapBase xs)) ∧
      (blockCoalesceForward h (stop 48 heapBase xs)).initialized = h.initialized := by
  have hblock := chain_block hr.chain
  cases ys with
  | nil =>
    have heq : blockCoalesceForward h (stop 48 heapBase xs) = h := by
      unfold blockCoalesceForward
      simp only [hblock, first_nil, true_or, if_true]
    rw [heq]
    exact ⟨hr, KeepsUsed.refl _ _, rfl⟩
  | cons u ys =>
    cases hu : u.free with
    | true =>
      rw [absorb_cons_free hu]
      exact hr.coalesce hu
    | false =>
      have hnext : h.block (stop 48 heapBase xs + 48 + t.size) = _ :=
        (chain_append.mp hr.chain).2.2.1
      have heq : blockCoalesceForward h (stop 48 heapBase xs) = h := by
        unfold blockCoalesceForward
        simp only [hblock, first_cons, hnext, hu, true_or, or_true, if_true]
      rw [heq, absorb_cons_used hu]
      exact ⟨hr, KeepsUsed.refl _ _, rfl⟩

/-- The idiom of `heap_extend` and `scdk_kfree`: merge a block with a free one
    before it. -/
def Heap.mergeBack (h : Heap π) (block : Nat) : Heap π :=
  if (h.block block).prev ≠ 0 ∧ (h.block (h.block block).prev).free = true then
    blockCoalesceForward h (h.block block).prev
  else h

theorem HeapRep.mergeBack {h : Heap π} {xs ys : List Tile} {t : Tile}
    (hr : HeapRep h (xs ++ t :: ys)) :
    HeapRep (h.mergeBack (stop 48 heapBase xs)) (join 48 xs (t :: ys)) ∧
      KeepsUsed (xs ++ t :: ys) h (h.mergeBack (stop 48 heapBase xs)) ∧
      (h.mergeBack (stop 48 heapBase xs)).initialized = h.initialized := by
  have hblock := chain_block hr.chain
  unfold Heap.mergeBack
  rw [hblock]
  rcases List.eq_nil_or_concat xs with rfl | ⟨zs, p, rfl⟩
  · -- The first block has no predecessor.
    rw [if_neg (by simp [last])]
    exact ⟨hr, KeepsUsed.refl _ _, rfl⟩
  · rw [List.concat_eq_append] at *
    have hlast : last 48 0 heapBase (zs ++ [p]) = stop 48 heapBase zs := by
      rw [last_append]
      rfl
    rw [List.append_assoc] at hr
    have hp : h.block (stop 48 heapBase zs) = _ := chain_block hr.chain
    have hbase := le_stop_base zs
    have hpos := heapBase_pos
    dsimp only
    rw [hlast, hp, join_concat, List.append_assoc]
    dsimp only
    cases hfree : p.free with
    | true =>
      rw [if_pos ⟨by omega, rfl⟩, if_pos rfl]
      exact hr.absorb
    | false =>
      rw [if_neg (by simp), if_neg (by simp)]
      exact ⟨hr, KeepsUsed.refl _ _, rfl⟩

/-! ## Taking and returning a block -/

/-- Setting the flag of a tile. -/
theorem HeapRep.setFree {h : Heap π} {xs ys : List Tile} {t : Tile} (hr : HeapRep h (xs ++ t :: ys))
    (free : Bool) : HeapRep (h.setFree (stop 48 heapBase xs) free) (xs ++ ⟨t.size, free⟩ :: ys) := by
  obtain ⟨a, ha⟩ : ∃ a, stop 48 heapBase xs = a := ⟨_, rfl⟩
  obtain ⟨hbase, _, htail⟩ := hr.at_boundary ha
  obtain ⟨_, ht, hys⟩ := chain_append.mp hr.chain
  rw [ha] at ht hys ⊢
  have hw := h.setFree_writes a free
  refine hr.replace [t] [⟨t.size, free⟩] ha (by simp) (by simp) rfl rfl
    ?_ ⟨?_, trivial⟩ ?_ rfl rfl htail ?_
  · intro x hx
    exact hw x (.inl hx)
  · rw [Heap.block_setFree_self, ht]
    rfl
  · refine chain_congr ?_ hys
    intro d hlo _
    change a + 48 + t.size ≤ d at hlo
    exact hw.block (.inr (by omega))
  · intro v hv
    rw [List.mem_singleton.mp hv]
    exact hr.size t (by simp)

/-- A used payload lies before or behind a free tile. -/
theorem used_away_free {xs ys : List Tile} {t : Tile} (ht : t.free = true) {a n x : Nat}
    (h : (a, n) ∈ used 48 heapBase (xs ++ t :: ys)) (hlo : a + 48 ≤ x) (hhi : x < a + 48 + n) :
    x < stop 48 heapBase xs ∨ stop 48 heapBase xs + 48 + t.size + 48 ≤ x := by
  rw [used_append, List.mem_append] at h
  simp only [used, ht, if_true] at h
  rcases h with hl | hr
  · have := (placed_bounds (mem_used.mp hl)).2
    dsimp only at this
    exact .inl (by omega)
  · have := (placed_bounds (mem_used.mp hr)).1
    exact .inr (by omega)

/-- The function takes its splitting branch. -/
theorem blockSplit_eq {h : Heap π} {p a c requested : Nat} {t : Tile} {ys : List Tile}
    (hta : h.block a = ⟨heapMagic, t.size, t.free, p, first c 0 ys⟩)
    (hroom : requested + 64 ≤ t.size) {b : Nat} (hb : a + 48 + requested = b) :
    blockSplit h a requested =
      (((h.fillHeader b (t.size - requested - 48) a (first c 0 ys)).linkBack (first c 0 ys) b).setNext
        a b).setSize a requested := by
  have hlarge : ¬ t.size < requested + 48 + 16 := by omega
  unfold blockSplit
  simp (disch := omega) only [hta, heapHeaderSize_eq, heapMinSplit, if_neg hlarge, hb,
    Heap.block_setMagic_ne, Heap.block_setSize_ne, Heap.block_setFree_ne, Heap.block_setPrev_ne,
    Heap.block_setNext_ne]
  rfl

/-- Splitting a free tile that is large enough. -/
theorem HeapRep.split {h : Heap π} {xs ys : List Tile} {t : Tile} {requested : Nat}
    (hr : HeapRep h (xs ++ t :: ys)) (ht : t.free = true) (h16 : 16 ∣ requested)
    (hpos : 0 < requested) (hroom : requested + 64 ≤ t.size) :
    HeapRep (blockSplit h (stop 48 heapBase xs) requested)
        (xs ++ ⟨requested, true⟩ :: ⟨t.size - requested - 48, true⟩ :: ys) ∧
      KeepsUsed (xs ++ t :: ys) h (blockSplit h (stop 48 heapBase xs) requested) ∧
      (blockSplit h (stop 48 heapBase xs) requested).initialized = h.initialized := by
  obtain ⟨a, ha⟩ : ∃ a, stop 48 heapBase xs = a := ⟨_, rfl⟩
  obtain ⟨c, hc⟩ : ∃ c, a + 48 + t.size = c := ⟨_, rfl⟩
  obtain ⟨b, hb⟩ : ∃ b, a + 48 + requested = b := ⟨_, rfl⟩
  have hc' : b + 48 + (t.size - requested - 48) = c := by omega
  obtain ⟨hbase, hbound, htail⟩ := hr.at_boundary ha
  obtain ⟨_, hta, hys⟩ := chain_append.mp hr.chain
  rw [ha] at hta hys
  simp only [hc] at hta hys
  simp only [stop, last, hc] at hbound htail
  have hle := le_stop 48 c ys
  have hfirst := first_lt hbound
  have hpos' := heapBase_pos
  have htop := heapTop_lt
  have htile := hr.size t (by simp)
  rw [ha, blockSplit_eq hta hroom hb]
  -- The heap once the new header is filled in.
  have hw1 := h.fillHeader_writes b (t.size - requested - 48) a (first c 0 ys)
  have hb1 := h.fillHeader_block b (show t.size - requested - 48 < 2 ^ 64 by omega)
    (show a < 2 ^ 64 by omega) hfirst
  have hfields := h.fillHeader_fields b (t.size - requested - 48) a (first c 0 ys)
  generalize h.fillHeader b (t.size - requested - 48) a (first c 0 ys) = h1 at hw1 hb1 hfields ⊢
  -- The successor is relinked to it.
  have hys1 : Chain h1.block a c 0 ys := by
    refine chain_congr ?_ hys
    intro d hlo _
    exact hw1.block (by omega)
  obtain ⟨h2, hh2⟩ : ∃ h2, h2 = h1.linkBack (first c 0 ys) b := ⟨_, rfl⟩
  have hw2 : WritesHeader c h1 h2 := by
    rw [hh2]
    exact Heap.linkBack_writes
  have hys2 : Chain h2.block b c 0 ys := by
    rw [hh2]
    exact Heap.linkBack_chain hys1 (by omega) (by omega)
  have htail2 : h2.tail = last 48 b c ys := by
    rw [hh2]
    exact Heap.linkBack_tail (hfields.2.1.trans htail) (by omega)
  have hfields2 : h2.head = h.head ∧ h2.commitEnd = h.commitEnd ∧
      h2.initialized = h.initialized := by
    rw [hh2, Heap.linkBack_head, Heap.linkBack_commitEnd, Heap.linkBack_initialized]
    exact ⟨hfields.1, hfields.2.2.1, hfields.2.2.2⟩
  rw [← hh2]
  have hw3 := h2.setNext_writes a b
  have hw4 := (h2.setNext a b).setSize_writes a requested
  refine ⟨?_, ?_, hfields2.2.2⟩
  · refine hr.replace [t] [⟨requested, true⟩, ⟨t.size - requested - 48, true⟩] ha
      (by simp) (by simp) hc (by simp [stop, hb, hc']) ?_ ⟨?_, ?_, trivial⟩ ?_ hfields2.1
      hfields2.2.1 ?_ ?_
    · intro x hx
      rw [hw4 x (by omega), hw3 x (by omega), hw2 x (by omega), hw1 x (by omega)]
    · have hta1 : h2.block a = h.block a := by
        rw [hw2.block (by omega), hw1.block (by omega)]
      rw [Heap.block_setSize_self, Heap.block_setNext_self, hta1, hta,
        Nat.mod_eq_of_lt (show b < 2 ^ 64 by omega),
        Nat.mod_eq_of_lt (show requested < 2 ^ 64 by omega), ht]
      simp only [hb, first]
    · simp only [hb]
      rw [hw4.block (by omega), hw3.block (by omega), hw2.block (by omega), hb1]
      rfl
    · simp only [last, hb]
      refine chain_congr ?_ hys2
      intro d hlo _
      rw [hw4.block (by omega), hw3.block (by omega)]
    · simp only [last, hb]
      exact htail2
    · intro v hv
      simp only [List.mem_cons, List.not_mem_nil, or_false] at hv
      rcases hv with rfl | rfl
      · exact ⟨h16, hpos⟩
      · dsimp only
        omega
  · intro d n hmem x hlo hhi
    have hx := used_away_free ht hmem hlo hhi
    rw [ha] at hx
    rw [hw4 x (by omega), hw3 x (by omega), hw2 x (by omega), hw1 x (by omega)]

/-- What `kalloc` makes of the tile it found. -/
def carve (requested : Nat) (t : Tile) : List Tile :=
  if t.size < requested + 64 then [⟨t.size, false⟩]
  else [⟨requested, false⟩, ⟨t.size - requested - 48, true⟩]

/-- Taking a free tile for an allocation. -/
theorem HeapRep.take {h : Heap π} {xs ys : List Tile} {t : Tile} {requested : Nat}
    (hr : HeapRep h (xs ++ t :: ys)) (ht : t.free = true) (h16 : 16 ∣ requested)
    (hpos : 0 < requested) :
    HeapRep (kallocBlock h (stop 48 heapBase xs) requested).2 (xs ++ (carve requested t ++ ys)) ∧
      KeepsUsed (xs ++ t :: ys) h (kallocBlock h (stop 48 heapBase xs) requested).2 ∧
      (kallocBlock h (stop 48 heapBase xs) requested).2.initialized = h.initialized := by
  unfold kallocBlock carve
  by_cases hsmall : t.size < requested + 64
  · have hsplit : blockSplit h (stop 48 heapBase xs) requested = h := by
      unfold blockSplit
      rw [chain_block hr.chain, if_pos]
      simp only [heapHeaderSize_eq, heapMinSplit]
      omega
    rw [if_pos hsmall, hsplit]
    exact ⟨hr.setFree false, (h.setFree_writes _ _).keepsUsed rfl _, rfl⟩
  · rw [if_neg hsmall]
    obtain ⟨hr', hk, hinit⟩ := hr.split ht h16 hpos (by omega)
    have hw := (blockSplit h (stop 48 heapBase xs) requested).setFree_writes (stop 48 heapBase xs) false
    have hk' : KeepsUsed (xs ++ ⟨requested, true⟩ :: ⟨t.size - requested - 48, true⟩ :: ys) _ _ :=
      hw.keepsUsed rfl _
    refine ⟨hr'.setFree false, hk.trans ?_ hk', (Heap.setFree_initialized _ _ _).trans hinit⟩
    -- The two tiles are still free, so no used payload was moved.
    intro w hw
    have haddr : stop 48 heapBase xs + 48 + t.size =
        stop 48 heapBase xs + 48 + requested + 48 + (t.size - requested - 48) := by omega
    rw [used_append] at hw ⊢
    simp only [used, ht, if_true, haddr] at hw ⊢
    exact hw

/-! ## First fit -/

/-- `t` is a free tile of at least `size` bytes. -/
def Fits (size : Nat) (t : Tile) : Prop := t.free = true ∧ size ≤ t.size

/-- The search from a tile on, with fuel for all the tiles that follow. -/
theorem findFreeBlockFrom_eq {m : Memory} {size fuel prev addr : Nat} {ts : List Tile}
    (hc : Chain (heapBlock m) prev addr 0 ts) (haddr : addr ≠ 0) (hfuel : ts.length < fuel) :
    (∃ xs t ys, ts = xs ++ t :: ys ∧ Fits size t ∧
      findFreeBlockFrom m size fuel (first addr 0 ts) = stop 48 addr xs) ∨
    ((∀ t ∈ ts, ¬ Fits size t) ∧ findFreeBlockFrom m size fuel (first addr 0 ts) = 0) := by
  -- By induction on the tiles: the search goes along the chain.
  induction ts generalizing prev addr fuel with
  | nil =>
    right
    refine ⟨by simp, ?_⟩
    cases fuel with
    | zero => rfl
    | succ fuel => simp [findFreeBlockFrom]
  | cons t ts ih =>
    obtain ⟨hhead, htail⟩ := hc
    cases fuel with
    | zero => simp at hfuel
    | succ fuel =>
      simp only [findFreeBlockFrom, first_cons, haddr, if_false, hhead]
      by_cases hfit : t.free = true ∧ size ≤ t.size
      · left
        refine ⟨[], t, ts, rfl, hfit, ?_⟩
        rw [if_pos hfit]
        rfl
      · have hlen : ts.length < fuel := by simpa using hfuel
        rw [if_neg hfit]
        rcases ih htail (by omega) hlen with ⟨xs, u, ys, rfl, hu, heq⟩ | ⟨hnone, heq⟩
        · exact .inl ⟨t :: xs, u, ys, rfl, hu, heq⟩
        · right
          refine ⟨?_, heq⟩
          intro u hu
          rcases List.mem_cons.mp hu with rfl | hu
          · exact hfit
          · exact hnone u hu

/-- A heap holds at most `maxHeapBlocks` blocks. -/
theorem HeapRep.length_le {h : Heap π} {ts : List Tile} (hr : HeapRep h ts) :
    ts.length ≤ maxHeapBlocks := by
  have hsize : ∀ t ∈ ts, 64 ≤ 48 + t.size := by
    intro t ht
    have := hr.size t ht
    omega
  have hlen := length_mul_le_stop heapBase hsize
  have hbound := hr.bound
  rw [hr.commitEnd] at hbound
  have hmax : maxHeapBlocks * 64 = heapSize := by decide
  omega

/-- The search ends, with the first tile that fits or none. -/
theorem HeapRep.findFreeBlock_eq {h : Heap π} {ts : List Tile} (hr : HeapRep h ts) (size : Nat) :
    (∃ xs t ys, ts = xs ++ t :: ys ∧ Fits size t ∧
      findFreeBlock h size = stop 48 heapBase xs) ∨
    ((∀ t ∈ ts, ¬ Fits size t) ∧ findFreeBlock h size = 0) := by
  have hlen := hr.length_le
  have hbase := heapBase_pos
  unfold findFreeBlock
  rw [hr.head]
  exact findFreeBlockFrom_eq hr.chain (by omega) (by omega)

/-! ## Growing the heap -/

/-- The list depends on the memory below the end of the heap only. -/
theorem HeapRep.congr {h h' : Heap π} {ts : List Tile} (hr : HeapRep h ts)
    (hmem : ∀ x, x < h.commitEnd → h'.mem x = h.mem x) (hhead : h'.head = h.head)
    (htail : h'.tail = h.tail) (hcommit : h'.commitEnd = h.commitEnd) : HeapRep h' ts where
  chain := by
    rw [hr.commitEnd] at hmem
    exact chain_below hr.chain hmem
  head := hhead.trans hr.head
  tail := htail.trans hr.tail
  commitEnd := hcommit.trans hr.commitEnd
  bound := by
    rw [hcommit]
    exact hr.bound
  size := hr.size

/-- Redirecting the last link of a list to `block`: through the last block, or
    through the head if there is none. -/
def Heap.linkLast (h : Heap π) (block : Nat) : Heap π :=
  if h.tail ≠ 0 then h.setNext h.tail block else { h with head := block }

/-- The list then ends in a link to `block`. -/
theorem HeapRep.linkLast {h : Heap π} {ts : List Tile} {block : Nat}
    (hc : Chain h.block 0 heapBase 0 ts) (hhead : h.head = first heapBase 0 ts)
    (htail : h.tail = last 48 0 heapBase ts) (hlt : block < 2 ^ 64) :
    Chain (h.linkLast block).block 0 heapBase block ts ∧
      (h.linkLast block).head = first heapBase block ts ∧
      (∀ x, stop 48 heapBase ts ≤ x → (h.linkLast block).mem x = h.mem x) ∧
      KeepsUsed ts h (h.linkLast block) := by
  have hpos := heapBase_pos
  unfold Heap.linkLast
  rcases List.eq_nil_or_concat ts with rfl | ⟨xs, t, rfl⟩
  · rw [if_neg (by rw [htail]; simp [last])]
    exact ⟨trivial, rfl, fun _ _ => rfl, KeepsUsed.refl _ _⟩
  · rw [List.concat_eq_append] at *
    -- The last header is the only one that is written.
    have hlast : last 48 0 heapBase (xs ++ [t]) = stop 48 heapBase xs := by
      rw [last_append]
      rfl
    have hbase := le_stop_base xs
    rw [htail, hlast, if_pos (by omega)]
    have hw := h.setNext_writes (stop 48 heapBase xs) block
    obtain ⟨hxs, ht, _⟩ := chain_append.mp hc
    refine ⟨?_, ?_, ?_, hw.keepsUsed rfl _⟩
    · rw [chain_append]
      refine ⟨chain_below hxs fun x hx => hw x (.inl hx), ?_, trivial⟩
      rw [Heap.block_setNext_self, ht, Nat.mod_eq_of_lt hlt]
      rfl
    · show h.head = _
      rw [hhead, first_append, first_append]
      rfl
    · intro x hx
      rw [stop_append] at hx
      change stop 48 heapBase xs + 48 + t.size ≤ x at hx
      exact hw x (by omega)

/-- The new pages become a free tile at the end of the list, merged with a
    free one before it. -/
theorem HeapRep.append {h : Heap π} {ts : List Tile} {commitSize : Nat} (hr : HeapRep h ts)
    (h16 : 16 ∣ commitSize) (hmin : 64 ≤ commitSize)
    (hbound : h.commitEnd + commitSize ≤ heapBase + heapSize) :
    HeapRep (heapAppend h commitSize) (join 48 ts [⟨commitSize - 48, true⟩]) ∧
      KeepsUsed ts h (heapAppend h commitSize) ∧
      (heapAppend h commitSize).initialized = h.initialized := by
  have htop := heapTop_lt
  have hend := hr.commitEnd
  obtain ⟨e, he⟩ : ∃ e, h.commitEnd = e := ⟨_, rfl⟩
  rw [he] at hbound hend
  -- The new header, not yet linked from the list.
  obtain ⟨h1, hh1⟩ : ∃ h1, h1 = h.fillHeader e (commitSize - 48) h.tail 0 := ⟨_, rfl⟩
  have hw1 : WritesHeader e h h1 := by
    rw [hh1]
    exact h.fillHeader_writes e _ _ _
  have hlast : last 48 0 heapBase ts < 2 ^ 64 := by
    rcases List.eq_nil_or_concat ts with rfl | ⟨xs, t, rfl⟩
    · exact Nat.two_pow_pos 64
    · rw [List.concat_eq_append] at hr ⊢
      rw [last_append]
      exact hr.stop_lt
  have he1 : h1.block e = ⟨heapMagic, commitSize - 48, true, last 48 0 heapBase ts, 0⟩ := by
    rw [hh1, hr.tail]
    exact h.fillHeader_block e (show commitSize - 48 < 2 ^ 64 by omega) hlast (Nat.two_pow_pos 64)
  have hfields : h1.head = h.head ∧ h1.tail = h.tail ∧ h1.commitEnd = h.commitEnd ∧
      h1.initialized = h.initialized := by
    rw [hh1]
    exact h.fillHeader_fields e _ _ _
  have hc1 : Chain h1.block 0 heapBase 0 ts := by
    refine chain_below hr.chain fun x hx => hw1 x (.inl ?_)
    omega
  -- The list extended by the new tile.
  obtain ⟨h2, hh2⟩ : ∃ h2 : Heap π, h2 = { h1.linkLast e with tail := e, commitEnd := e + commitSize } :=
    ⟨_, rfl⟩
  obtain ⟨hc2, hhead2, hmem2, hk2⟩ := HeapRep.linkLast hc1 (hfields.1.trans hr.head)
    (hfields.2.1.trans hr.tail) (show e < 2 ^ 64 by omega)
  have hinit2 : h2.initialized = h.initialized := by
    rw [hh2, ← hfields.2.2.2]
    unfold Heap.linkLast
    split <;> rfl
  have hr2 : HeapRep h2 (ts ++ [⟨commitSize - 48, true⟩]) := by
    rw [hh2]
    refine ⟨?_, ?_, ?_, ?_, hbound, ?_⟩
    · rw [chain_append, ← hend]
      refine ⟨hc2, ?_, trivial⟩
      have hblk : (h1.linkLast e).block e = h1.block e := by
        apply heapBlock_congr
        intro x hlo _
        exact hmem2 x (by omega)
      show (h1.linkLast e).block e = _
      rw [hblk, he1]
      rfl
    · show (h1.linkLast e).head = _
      rw [hhead2, first_append]
      cases ts with
      | nil => exact hend
      | cons t ts => rfl
    · rw [last_append, ← hend]
      rfl
    · rw [stop_append, ← hend]
      show e + commitSize = e + 48 + (commitSize - 48)
      omega
    · intro t ht
      rcases List.mem_append.mp ht with ht | ht
      · exact hr.size t ht
      · rw [List.mem_singleton.mp ht]
        dsimp only
        omega
  have heq : heapAppend h commitSize = h2.mergeBack e := by
    rw [hh2, hh1]
    unfold heapAppend
    rw [he]
    rfl
  obtain ⟨hr3, hk3, hinit3⟩ := hr2.mergeBack
  rw [← hend] at hr3 hk3 hinit3
  rw [heq]
  refine ⟨hr3, ?_, hinit3.trans hinit2⟩
  have hk1 : KeepsUsed ts h h1 := by
    have hk := hw1.keepsUsed hend.symm []
    rwa [List.append_nil] at hk
  have hk2' : KeepsUsed ts h1 h2 := by
    rw [hh2]
    exact hk2
  refine (hk1.trans (fun _ hw => hw) hk2').trans ?_ hk3
  intro w hw
  rw [used_append]
  exact List.mem_append_left _ hw

/-- The bytes asked for: whole pages, at least four, with room for the header
    and the payload. -/
theorem heapCommitSize_bounds {minPayload : Nat} (h : minPayload ≤ heapSize) :
    16 ∣ heapCommitSize minPayload ∧ 64 ≤ heapCommitSize minPayload ∧
      48 + minPayload ≤ heapCommitSize minPayload := by
  have hsize : heapSize = 4194304 := by decide
  have hinit : heapInitialPages * pageSize = 16384 := by decide
  have halign : alignUpSize (heapHeaderSize + minPayload) pageSize =
      (48 + minPayload + 4095) % 2 ^ 64 / 4096 * 4096 := by
    rw [heapHeaderSize_eq]
    rfl
  unfold heapCommitSize
  rw [hinit, halign]
  dsimp only
  split <;> omega

/-- An extension either changes nothing but the pager, or appends a free tile
    that is large enough. -/
theorem HeapRep.extend {h : Heap π} {ts : List Tile} (hr : HeapRep h ts) (P : Pager π)
    {minPayload : Nat} (hmin : minPayload ≤ heapSize) :
    (∃ e pager, heapExtend P h minPayload = (.error e, { h with pager })) ∨
    ∃ h' n, heapExtend P h minPayload = (.ok (), h') ∧ HeapRep h' (join 48 ts [⟨n, true⟩]) ∧
      KeepsUsed ts h h' ∧ h'.initialized = h.initialized ∧ minPayload ≤ n := by
  obtain ⟨h16, h64, hroom⟩ := heapCommitSize_bounds hmin
  unfold heapExtend
  split
  · exact .inl ⟨_, h.pager, rfl⟩
  · dsimp only
    split
    · exact .inl ⟨_, h.pager, rfl⟩
    · next hfits =>
      rw [not_or, Nat.not_lt, Nat.not_lt] at hfits
      cases hmap : mapHeapPages P h.commitEnd (heapCommitSize minPayload) h.pager with
      | mk result pager =>
        cases result with
        | error e => exact .inl ⟨e, pager, rfl⟩
        | ok u =>
          -- The new pages lie behind everything the list uses.
          right
          obtain ⟨h1, hh1⟩ : ∃ h1 : Heap π, h1 = { h with
              mem := h.mem.overlay (P.view pager) h.commitEnd (heapCommitSize minPayload)
              pager := pager } := ⟨_, rfl⟩
          have hbelow : ∀ x, x < h.commitEnd → h1.mem x = h.mem x := by
            intro x hx
            rw [hh1]
            exact Memory.overlay_of_not_mem (.inl hx)
          have hfields : h1.head = h.head ∧ h1.tail = h.tail ∧ h1.commitEnd = h.commitEnd ∧
              h1.initialized = h.initialized := by
            rw [hh1]
            exact ⟨rfl, rfl, rfl, rfl⟩
          have hr1 := hr.congr hbelow hfields.1 hfields.2.1 hfields.2.2.1
          have hbound1 := hfits.2
          rw [← hfields.2.2.1] at hbound1
          obtain ⟨hr2, hk2, hinit2⟩ := hr1.append h16 h64 hbound1
          refine ⟨heapAppend h1 (heapCommitSize minPayload), heapCommitSize minPayload - 48,
            by rw [hh1], hr2, ?_, hinit2.trans hfields.2.2.2, by omega⟩
          refine KeepsUsed.trans ?_ (fun _ hw => hw) hk2
          intro a n hmem x _ hhi
          apply hbelow
          have hle := (placed_bounds (mem_used.mp hmem)).2
          rw [hr.commitEnd]
          dsimp only at hle
          omega

/-! ## The end of the heap -/

theorem blockRemove_commitEnd (h : Heap π) (block : Nat) :
    (blockRemove h block).commitEnd = h.commitEnd := by
  unfold blockRemove
  dsimp only
  split <;> split <;> rfl

theorem blockCoalesceForward_commitEnd (h : Heap π) (block : Nat) :
    (blockCoalesceForward h block).commitEnd = h.commitEnd := by
  unfold blockCoalesceForward
  dsimp only
  split
  · rfl
  · rw [blockRemove_commitEnd]
    rfl

theorem blockSplit_commitEnd (h : Heap π) (block requested : Nat) :
    (blockSplit h block requested).commitEnd = h.commitEnd := by
  unfold blockSplit
  dsimp only
  split
  · rfl
  · split <;> rfl

theorem heapAppend_commitEnd (h : Heap π) (commitSize : Nat) :
    (heapAppend h commitSize).commitEnd = h.commitEnd + commitSize := by
  unfold heapAppend
  dsimp only
  split
  · rw [blockCoalesceForward_commitEnd]
  · rfl

/-- An extension does not move the end of the heap back. -/
theorem le_heapExtend_commitEnd (P : Pager π) (h : Heap π) (minPayload : Nat) :
    h.commitEnd ≤ (heapExtend P h minPayload).2.commitEnd := by
  unfold heapExtend
  split
  · exact Nat.le_refl _
  dsimp only
  split
  · exact Nat.le_refl _
  rcases mapHeapPages P h.commitEnd (heapCommitSize minPayload) h.pager with ⟨_ | _, pager⟩
  · exact Nat.le_refl _
  · dsimp only
    rw [heapAppend_commitEnd]
    exact Nat.le_add_right _ _

theorem kallocBlock_commitEnd (h : Heap π) (block requested : Nat) :
    (kallocBlock h block requested).2.commitEnd = h.commitEnd := by
  unfold kallocBlock Heap.setFree
  dsimp only
  exact blockSplit_commitEnd h block requested

/-- Only the extension in it moves the end of the heap. -/
theorem kalloc_commitEnd (P : Pager π) (h : Heap π) (size : UInt64) :
    (kalloc P h size).2.commitEnd = h.commitEnd ∨
      (kalloc P h size).2.commitEnd =
        (heapExtend P h (alignUpSize size.toNat heapAlign)).2.commitEnd := by
  unfold kalloc
  split
  · exact .inl rfl
  split
  · exact .inl rfl
  dsimp only
  split
  · exact .inl rfl
  split
  · exact .inl (kallocBlock_commitEnd _ _ _)
  right
  rcases heapExtend P h (alignUpSize size.toNat heapAlign) with ⟨_ | _, h'⟩
  · rfl
  · dsimp only
    split
    · rfl
    · exact kallocBlock_commitEnd _ _ _

theorem kfree_commitEnd (h : Heap π) (ptr : Nat) : (kfree h ptr).commitEnd = h.commitEnd := by
  unfold kfree
  split
  · rfl
  dsimp only
  split
  · rfl
  split
  · rw [blockCoalesceForward_commitEnd, blockCoalesceForward_commitEnd]
    rfl
  · rw [blockCoalesceForward_commitEnd]
    rfl

end Scdk
