import Scdk.Mm.HeapSafety

/-! # The block list of the heap

    From boot on the kernel calls `scdk_heap_init`, `scdk_kalloc` and `scdk_kfree` in
    any order; what is freed is null or was allocated.  The list of blocks that starts
    at `heap_head` is read here as the source reads it, through the `next` links.

    * `Heap.blocks`: the addresses in the list,
    * `FullyCoalesced`: the list tiles the heap, is linked both ways, and has no two
      free blocks side by side,
    * `HeapRep.fullyCoalesced`: so it is for the tiles of a heap,
    * `heap_coalesced`: so it is in every state, and the heap is a single free block
      when nothing is allocated. -/

namespace Scdk

open Tiling

variable {π : Type}

/-! ## The list -/

/-- The blocks from `block` on, for at most `fuel` of them. -/
def Heap.walk (h : Heap π) : Nat → Nat → List Nat
  | 0, _ => []
  | fuel + 1, block => if block = 0 then [] else block :: h.walk fuel (h.block block).next

/-- The blocks of the list, first one first. -/
def Heap.blocks (h : Heap π) : List Nat := h.walk (maxHeapBlocks + 1) h.head

/-- The address behind a block. -/
def Heap.blockEnd (h : Heap π) (block : Nat) : Nat := block + heapHeaderSize + (h.block block).size

/-- The blocks tile the heap from `heapBase` to its end, are linked both ways from
    `heap_head` to `heap_tail`, and no two neighbours are both free. -/
structure FullyCoalesced (h : Heap π) : Prop where
  head : h.blocks.head?.getD 0 = h.head
  tail : h.blocks.getLast?.getD 0 = h.tail
  first : ∀ b ∈ h.blocks.head?, b = heapBase ∧ (h.block b).prev = 0
  last : ∀ b ∈ h.blocks.getLast?, h.blockEnd b = h.commitEnd ∧ (h.block b).next = 0
  empty : h.blocks = [] → h.commitEnd ≤ heapBase
  links : h.blocks.IsChain fun a b => (h.block a).next = b ∧ (h.block b).prev = a
  adjacent : h.blocks.IsChain fun a b => h.blockEnd a = b
  size : ∀ b ∈ h.blocks, 0 < (h.block b).size ∧ 16 ∣ (h.block b).size
  coalesced : h.blocks.IsChain fun a b => ¬ ((h.block a).free = true ∧ (h.block b).free = true)

/-! ## The list of a chain -/

section chain

variable {h : Heap π} {prev addr : Nat} {ts : List Tile}

/-- The addresses of the tiles. -/
def starts (addr : Nat) (ts : List Tile) : List Nat := (placed 48 addr ts).map Prod.fst

@[simp] theorem starts_nil (addr : Nat) : starts addr [] = [] := rfl

@[simp] theorem starts_cons (addr : Nat) (t : Tile) (ts : List Tile) :
    starts addr (t :: ts) = addr :: starts (addr + 48 + t.size) ts := rfl

theorem head?_starts (addr : Nat) (ts : List Tile) :
    (starts addr ts).head?.getD 0 = Tiling.first addr 0 ts := by
  cases ts with
  | nil => rfl
  | cons t ts => rfl

/-- The walk passes the tiles of a chain and stops behind the last one. -/
theorem walk_of_chain {fuel : Nat} (hc : Chain h.block prev addr 0 ts) (haddr : addr ≠ 0)
    (hfuel : ts.length ≤ fuel) : h.walk (fuel + 1) (Tiling.first addr 0 ts) = starts addr ts := by
  induction ts generalizing prev addr fuel with
  | nil => rfl
  | cons t ts ih =>
    obtain ⟨hblock, hrest⟩ := hc
    obtain ⟨fuel, rfl⟩ : ∃ n, fuel = n + 1 := Nat.exists_eq_succ_of_ne_zero (by
      rw [List.length_cons] at hfuel
      omega)
    have hnext := ih hrest (by omega) (Nat.le_of_succ_le_succ hfuel)
    show (if addr = 0 then [] else addr :: h.walk (fuel + 1) (h.block addr).next) = _
    rw [if_neg haddr, hblock, hnext]
    rfl

/-- Neighbours point at each other, and one starts where the other ends. -/
theorem linked_of_chain (hc : Chain h.block prev addr 0 ts) :
    (starts addr ts).IsChain fun a b =>
      ((h.block a).next = b ∧ (h.block b).prev = a) ∧ h.blockEnd a = b := by
  induction ts generalizing prev addr with
  | nil => exact List.isChain_nil
  | cons t ts ih =>
    obtain ⟨hblock, hrest⟩ := hc
    cases ts with
    | nil => exact List.isChain_singleton _
    | cons u us =>
      rw [starts_cons, starts_cons, List.isChain_cons_cons]
      refine ⟨⟨⟨?_, ?_⟩, ?_⟩, ih hrest⟩
      · rw [hblock]
        rfl
      · rw [hrest.1]
      · rw [Heap.blockEnd, heapHeaderSize_eq, hblock]

/-- No two free blocks are neighbours if no two free tiles are. -/
theorem coalesced_of_chain (hc : Chain h.block prev addr 0 ts) (hco : Coalesced ts) :
    (starts addr ts).IsChain fun a b =>
      ¬ ((h.block a).free = true ∧ (h.block b).free = true) := by
  induction ts generalizing prev addr with
  | nil => exact List.isChain_nil
  | cons t ts ih =>
    obtain ⟨hblock, hrest⟩ := hc
    cases ts with
    | nil => exact List.isChain_singleton _
    | cons u us =>
      obtain ⟨hne, hco⟩ := List.isChain_cons_cons.mp hco
      rw [starts_cons, starts_cons, List.isChain_cons_cons]
      refine ⟨?_, ih hrest hco⟩
      rw [hblock, hrest.1]
      exact hne

/-- The size in a header is that of the tile. -/
theorem size_of_chain (hc : Chain h.block prev addr 0 ts) {b : Nat} (hb : b ∈ starts addr ts) :
    ∃ t ∈ ts, (h.block b).size = t.size := by
  induction ts generalizing prev addr with
  | nil => cases hb
  | cons t ts ih =>
    obtain ⟨hblock, hrest⟩ := hc
    rcases List.mem_cons.mp hb with rfl | hb
    · exact ⟨t, List.mem_cons_self, by rw [hblock]⟩
    · obtain ⟨u, hu, hsize⟩ := ih hrest hb
      exact ⟨u, List.mem_cons_of_mem _ hu, hsize⟩

/-- The last block is where the tiles say, ends where they end and points nowhere. -/
theorem last_of_chain (hc : Chain h.block prev addr 0 ts) {b : Nat}
    (hb : b ∈ (starts addr ts).getLast?) :
    b = Tiling.last 48 prev addr ts ∧ h.blockEnd b = stop 48 addr ts ∧ (h.block b).next = 0 := by
  induction ts generalizing prev addr with
  | nil => cases hb
  | cons t ts ih =>
    obtain ⟨hblock, hrest⟩ := hc
    -- The last block is the one with no tile behind it.
    cases ts with
    | nil =>
      obtain rfl : addr = b := Option.some.inj hb
      refine ⟨rfl, ?_, ?_⟩
      · rw [Heap.blockEnd, heapHeaderSize_eq, hblock]
        rfl
      · rw [hblock]
        rfl
    | cons u us =>
      rw [starts_cons, starts_cons, List.getLast?_cons_cons] at hb
      exact ih hrest hb

end chain

/-! ## The list of the heap -/

/-- The blocks of a heap are at the addresses of its tiles. -/
theorem HeapRep.blocks_eq {h : Heap π} {ts : List Tile} (hr : HeapRep h ts) :
    h.blocks = starts heapBase ts := by
  unfold Heap.blocks
  rw [hr.head]
  exact walk_of_chain hr.chain (Nat.ne_of_gt heapBase_pos) hr.length_le

/-- **Representation.**  A heap whose tiles are coalesced has a list that is so, too. -/
theorem HeapRep.fullyCoalesced {h : Heap π} {ts : List Tile} (hr : HeapRep h ts)
    (hco : Coalesced ts) : FullyCoalesced h := by
  have hblocks := hr.blocks_eq
  -- The blocks of the list are the tiles, so each part is one about the tiles.
  have hlinked := linked_of_chain hr.chain
  constructor
  · rw [hblocks, head?_starts, hr.head]
  · rw [hblocks, hr.tail]
    cases hlast : (starts heapBase ts).getLast? with
    | none =>
      rw [List.getLast?_eq_none_iff] at hlast
      cases ts with
      | nil => rfl
      | cons t ts => cases hlast
    | some b => exact (last_of_chain hr.chain hlast).1
  · intro b hb
    rw [hblocks] at hb
    cases ts with
    | nil => cases hb
    | cons t ts =>
      obtain rfl : heapBase = b := Option.some.inj hb
      exact ⟨rfl, by rw [hr.chain.1]⟩
  · intro b hb
    rw [hblocks] at hb
    obtain ⟨_, hend, hnext⟩ := last_of_chain hr.chain hb
    exact ⟨hend.trans hr.commitEnd.symm, hnext⟩
  · intro hnil
    rw [hblocks] at hnil
    cases ts with
    | nil => exact Nat.le_of_eq hr.commitEnd
    | cons t ts => cases hnil
  · rw [hblocks]
    exact hlinked.imp fun _ _ hab => hab.1
  · rw [hblocks]
    exact hlinked.imp fun _ _ hab => hab.2
  · intro b hb
    rw [hblocks] at hb
    obtain ⟨t, ht, hsize⟩ := size_of_chain hr.chain hb
    rw [hsize]
    exact ⟨(hr.size t ht).2, (hr.size t ht).1⟩
  · rw [hblocks]
    exact coalesced_of_chain hr.chain hco

/-- Tiles that are coalesced and all free are at most one. -/
theorem eq_single_of_used_nil {addr : Nat} {ts : List Tile} (hco : Coalesced ts)
    (hused : used 48 addr ts = []) : ts = [] ∨ ∃ t, ts = [t] ∧ t.free = true := by
  match ts, hused, hco with
  | [], _, _ => exact .inl rfl
  | [t], hused, _ =>
    refine .inr ⟨t, rfl, ?_⟩
    by_contra hfree
    simp [used, hfree] at hused
  | t :: u :: us, hused, hco =>
    have hne := (List.isChain_cons_cons.mp hco).1
    by_cases ht : t.free = true
    · by_cases hu : u.free = true
      · exact absurd ⟨ht, hu⟩ hne
      · simp [used, ht, hu] at hused
    · simp [used, ht] at hused

/-! ## Every order of calls -/

/-- The calls of the kernel: `scdk_heap_init`, or one of a client. -/
inductive HeapUse (π : Type) where
  | init
  | client (call : HeapCall π)

/-- The heap from boot on, with its static variables zero.  The answer of
    `scdk_heap_init` is not used. -/
def heapUseSystem (P : Pager π) : System (HeapClients π) (HeapUse π) Nat where
  init := fun s => s.live = [] ∧ s.heap.head = 0 ∧ s.heap.tail = 0 ∧ s.heap.commitEnd = 0 ∧
    s.heap.initialized = false
  step := fun s use =>
    match use with
    | .init => (0, { s with heap := (heapInit P s.heap).2 })
    | .client call => heapStep P s call

/-- What is freed and written is held. -/
def HeapUseGuard (s : HeapClients π) : HeapUse π → Prop
  | .init => True
  | .client call => HeapGuard s call

/-- The heap before a successful initialization. -/
structure Unused (s : HeapClients π) : Prop where
  live : s.live = []
  head : s.heap.head = 0
  tail : s.heap.tail = 0
  commitEnd : s.heap.commitEnd ≤ heapBase
  initialized : s.heap.initialized = false

/-- The heap after one. -/
structure InUse (s : HeapClients π) : Prop where
  tiles : ∃ ts, HeapInv s ts
  commitEnd : heapBase < s.heap.commitEnd

theorem Unused.fullyCoalesced {s : HeapClients π} (h : Unused s) : FullyCoalesced s.heap := by
  have hblocks : s.heap.blocks = [] := by
    unfold Heap.blocks
    rw [h.head]
    rfl
  constructor
  case empty => exact fun _ => h.commitEnd
  case head => rw [hblocks, h.head]; rfl
  case tail => rw [hblocks, h.tail]; rfl
  all_goals rw [hblocks]
  case first => exact fun _ hb => nomatch hb
  case last => exact fun _ hb => nomatch hb
  case size => exact fun _ hb => nomatch hb
  all_goals exact List.isChain_nil

/-- Initializing either fails and leaves the heap unused, or starts it. -/
theorem Unused.init {s : HeapClients π} (h : Unused s) (P : Pager π) :
    Unused { s with heap := (heapInit P s.heap).2 } ∨
      InUse { s with heap := (heapInit P s.heap).2 } := by
  have hr : HeapRep { s.heap with head := 0, tail := 0, commitEnd := heapBase } [] :=
    ⟨trivial, rfl, rfl, rfl, Nat.le_add_right _ _, fun _ ht => nomatch ht⟩
  rcases hr.extend P (Nat.zero_le heapSize) with ⟨e, pager, hext⟩ | ⟨h', n, hext, hr', _⟩
  · have hinit : heapInit P s.heap =
        (.error e, { s.heap with head := 0, tail := 0, commitEnd := heapBase, pager := pager }) := by
      unfold heapInit
      rw [if_neg (by simp [h.initialized]), hext]
    rw [hinit]
    exact .inl ⟨h.live, rfl, rfl, Nat.le_refl _, h.initialized⟩
  · have hinit : heapInit P s.heap = (.ok (), { h' with initialized := true }) := by
      unfold heapInit
      rw [if_neg (by simp [h.initialized]), hext]
    rw [hinit]
    refine .inr ⟨heapInv_init ⟨h.live, s.heap, hinit⟩, ?_⟩
    show heapBase < h'.commitEnd
    have hend : h'.commitEnd = heapBase + 48 + n := hr'.commitEnd
    omega

/-- Clients of a heap that is not initialized get nothing. -/
theorem Unused.client {s : HeapClients π} (h : Unused s) (P : Pager π) {call : HeapCall π}
    (hguard : HeapGuard s call) : Unused (heapStep P s call).2 := by
  cases call with
  | kalloc size =>
    have hnull : kalloc P s.heap size = (0, s.heap) := if_pos (.inl h.initialized)
    simp only [heapStep, hnull]
    exact h
  | kfree ptr =>
    have hnone : kfree s.heap ptr = s.heap := if_pos (.inr (.inl h.initialized))
    simp only [heapStep, hnone, h.live]
    exact ⟨rfl, h.head, h.tail, h.commitEnd, h.initialized⟩
  | write addr byte =>
    obtain ⟨p, n, hmem, _⟩ := hguard
    rw [h.live] at hmem
    cases hmem
  | pager p => exact ⟨h.live, h.head, h.tail, h.commitEnd, h.initialized⟩

/-- A second initialization changes nothing. -/
theorem InUse.init {s : HeapClients π} (h : InUse s) (P : Pager π) :
    InUse { s with heap := (heapInit P s.heap).2 } := by
  obtain ⟨ts, hinv⟩ := h.tiles
  have hbusy : heapInit P s.heap = (.error .busy, s.heap) := if_pos hinv.initialized
  rw [hbusy]
  exact h

theorem InUse.client {s : HeapClients π} (h : InUse s) (P : Pager π) {call : HeapCall π}
    (hguard : HeapGuard s call) : InUse (heapStep P s call).2 := by
  obtain ⟨ts, hinv⟩ := h.tiles
  have hend := h.commitEnd
  refine ⟨heapInv_step hinv P hguard, ?_⟩
  cases call with
  | kalloc size =>
    have hle := le_heapExtend_commitEnd P s.heap (alignUpSize size.toNat heapAlign)
    show heapBase < (kalloc P s.heap size).2.commitEnd
    rcases kalloc_commitEnd P s.heap size with heq | heq
    · omega
    · omega
  | kfree ptr =>
    show heapBase < (kfree s.heap ptr).commitEnd
    rw [kfree_commitEnd]
    exact hend
  | write addr byte => exact hend
  | pager p => exact hend

/-- The heap is unused or in use in every state. -/
theorem heapUse_run {P : Pager π} {log : List (HeapUse π × Nat)} {s : HeapClients π}
    (hrun : (heapUseSystem P).RunWhen HeapUseGuard log s) : Unused s ∨ InUse s := by
  refine System.RunWhen.invariant (P := fun s => Unused s ∨ InUse s) ?_ ?_ hrun
  · intro s ⟨hlive, hhead, htail, hend, hinit⟩
    exact .inl ⟨hlive, hhead, htail, by rw [hend]; exact Nat.zero_le _, hinit⟩
  · intro s use hs hguard
    cases use with
    | init => exact hs.elim (fun h => h.init P) fun h => .inr (h.init P)
    | client call =>
      exact hs.elim (fun h => .inl (h.client P hguard)) fun h => .inr (h.client P hguard)

/-- **Coalescing.**  Whatever the page allocator does, in every state that calls of
    the heap can reach the list of blocks tiles the heap, is linked both ways and has
    no two free blocks side by side; and once everything allocated has been freed, in
    whatever order, the heap is a single free block. -/
theorem heap_coalesced {P : Pager π} {log : List (HeapUse π × Nat)} {s : HeapClients π}
    (hrun : (heapUseSystem P).RunWhen HeapUseGuard log s) :
    FullyCoalesced s.heap ∧
      (s.heap.initialized = true → s.live = [] →
        s.heap.blocks = [heapBase] ∧ (s.heap.block heapBase).free = true ∧
          (s.heap.block heapBase).size = s.heap.commitEnd - heapBase - 48) := by
  rcases heapUse_run hrun with hunused | huse
  · refine ⟨hunused.fullyCoalesced, fun hinit => ?_⟩
    rw [hunused.initialized] at hinit
    cases hinit
  · obtain ⟨ts, hinv⟩ := huse.tiles
    refine ⟨hinv.rep.fullyCoalesced hinv.coalesced, fun _ hlive => ?_⟩
    have hused : used 48 heapBase ts = [] := by
      have hperm := hinv.ptrs
      rw [hlive, List.map_nil] at hperm
      exact List.map_eq_nil_iff.mp hperm.nil_eq.symm
    have hend := hinv.rep.commitEnd
    have hlow := huse.commitEnd
    rcases eq_single_of_used_nil hinv.coalesced hused with rfl | ⟨t, rfl, hfree⟩
    · -- no tile at all: the heap would be empty
      rw [hend] at hlow
      exact absurd hlow (Nat.lt_irrefl _)
    · have hblock := hinv.rep.chain.1
      refine ⟨hinv.rep.blocks_eq, ?_, ?_⟩
      · rw [hblock]
        exact hfree
      · rw [hblock, hend]
        show t.size = heapBase + 48 + t.size - heapBase - 48
        omega

/-- The state before the first call. -/
def heapAtBoot : HeapClients Unit := ⟨Heap.zero, []⟩

/-- Initialize, allocate twice, and free in the order of the allocations. -/
def freedInOrder : List (HeapUse Unit) :=
  [.init, .client (.kalloc 100), .client (.kalloc 200), .client (.kfree (heapBase + 48)),
    .client (.kfree (heapBase + 208))]

/-- The theorem after two allocations that were freed again. -/
theorem heap_coalesced_again :
    ((heapUseSystem zeroPager).exec heapAtBoot freedInOrder).heap.blocks = [heapBase] ∧
      (((heapUseSystem zeroPager).exec heapAtBoot freedInOrder).heap.block heapBase).size =
        4 * 4096 - 48 := by
  have hstart : (heapUseSystem zeroPager).RunWhen HeapUseGuard [] heapAtBoot :=
    .init ⟨rfl, rfl, rfl, rfl, rfl⟩
  have hguard : (heapUseSystem zeroPager).Guarded HeapUseGuard heapAtBoot freedInOrder := by
    refine ⟨trivial, trivial, trivial, .inr ⟨100, ?_⟩, .inr ⟨200, ?_⟩, trivial⟩
    · decide +kernel
    · decide +kernel
  obtain ⟨log, hrun⟩ := hstart.exec hguard
  obtain ⟨hblocks, _, hsize⟩ := (heap_coalesced hrun).2 (by decide +kernel) (by decide +kernel)
  refine ⟨hblocks, hsize.trans ?_⟩
  decide +kernel

end Scdk
