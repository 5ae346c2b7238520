import Scdk.Basic
import Scdk.Lib.Memory

/-! # The kernel heap

    Model of `mm/heap.c`: a first-fit allocator over an intrusive doubly linked
    list of blocks that lies in the heap's own memory, grown page by page at its
    end.

    Pointers and sizes are numbers; `0` is the null pointer.  Every address the
    heap computes lies below `heapBase + heapSize < 2 ^ 64`, so only the size
    arguments, which callers choose, are reduced modulo `2 ^ 64`.

    The physical page allocator and the page tables are a parameter (`Pager`):
    nothing is assumed about them, so they can refuse at any page of any
    extension, and fresh pages can hold any bytes. -/

namespace Scdk

/-! ## Memory of the heap -/

/-- `SCDK_HEAP_BASE` -/
def heapBase : Nat := 0xffffffffd0000000

/-- `SCDK_HEAP_SIZE` -/
def heapSize : Nat := 4 * 1024 * 1024

/-- `SCDK_HEAP_ALIGN` -/
def heapAlign : Nat := 16

/-- `SCDK_HEAP_MAGIC` -/
def heapMagic : Nat := 0x5343444b48454150

/-- `SCDK_HEAP_MIN_SPLIT` -/
def heapMinSplit : Nat := 16

/-- `SCDK_HEAP_INITIAL_PAGES` -/
def heapInitialPages : Nat := 4

/-- `align_up_size`, for an alignment that is a power of two: masking the low
    bits rounds down to a multiple. -/
def alignUpSize (value alignment : Nat) : Nat :=
  (value + (alignment - 1)) % 2 ^ 64 / alignment * alignment

/-- `heap_header_size`: `sizeof(struct scdk_heap_block)` is 40. -/
def heapHeaderSize : Nat := alignUpSize 40 heapAlign

/-- `struct scdk_heap_block`, as read from memory. -/
structure HeapBlock where
  magic : Nat
  size : Nat
  free : Bool
  prev : Nat
  next : Nat
  deriving DecidableEq, Repr

/-- The block whose header is at `a`: five fields at offsets 0, 8, 16, 24 and
    32, `free` a single byte. -/
def heapBlock (m : Memory) (a : Nat) : HeapBlock where
  magic := m.load a 8
  size := m.load (a + 8) 8
  free := m.load (a + 16) 1 ≠ 0
  prev := m.load (a + 24) 8
  next := m.load (a + 32) 8

/-- What the page allocator and the page tables do.  `view` is what is seen at
    a virtual address once it is mapped. -/
structure Pager (π : Type) where
  pageAlloc : π → Except Err UInt64 × π
  pageFree : π → UInt64 → π
  mapPage : π → UInt64 → UInt64 → UInt64 → Except Err Unit × π
  unmapPage : π → UInt64 → π
  virtToPhys : π → UInt64 → Except Err UInt64
  view : π → Memory

/-- The static variables of `heap.c`, the memory they point into, and the
    state of the pager. -/
structure Heap (π : Type) where
  mem : Memory
  head : Nat
  tail : Nat
  commitEnd : Nat
  initialized : Bool
  pager : π

section model

variable {π : Type}

/-- `block->magic = v` -/
def Heap.setMagic (h : Heap π) (block v : Nat) : Heap π := { h with mem := h.mem.store block 8 v }

/-- `block->size = v` -/
def Heap.setSize (h : Heap π) (block v : Nat) : Heap π :=
  { h with mem := h.mem.store (block + 8) 8 v }

/-- `block->free = v` -/
def Heap.setFree (h : Heap π) (block : Nat) (v : Bool) : Heap π :=
  { h with mem := h.mem.store (block + 16) 1 v.toNat }

/-- `block->prev = v` -/
def Heap.setPrev (h : Heap π) (block v : Nat) : Heap π :=
  { h with mem := h.mem.store (block + 24) 8 v }

/-- `block->next = v` -/
def Heap.setNext (h : Heap π) (block v : Nat) : Heap π :=
  { h with mem := h.mem.store (block + 32) 8 v }

/-- The header at `block` in the current memory. -/
def Heap.block (h : Heap π) (block : Nat) : HeapBlock := heapBlock h.mem block

/-! ## The block list -/

/-- `ptr_in_heap` -/
def ptrInHeap (h : Heap π) (ptr : Nat) : Bool := heapBase ≤ ptr ∧ ptr < h.commitEnd

/-- `block_payload` -/
def blockPayload (block : Nat) : Nat := block + heapHeaderSize

/-- `payload_block` -/
def payloadBlock (ptr : Nat) : Nat := ptr - heapHeaderSize

/-- `block_insert_tail` -/
def blockInsertTail (h : Heap π) (block : Nat) : Heap π :=
  let h := h.setPrev block h.tail
  let h := h.setNext block 0
  let h := if h.tail ≠ 0 then h.setNext h.tail block else { h with head := block }
  { h with tail := block }

/-- `block_remove` -/
def blockRemove (h : Heap π) (block : Nat) : Heap π :=
  let h :=
    if (h.block block).prev ≠ 0 then h.setNext (h.block block).prev (h.block block).next
    else { h with head := (h.block block).next }
  if (h.block block).next ≠ 0 then h.setPrev (h.block block).next (h.block block).prev
  else { h with tail := (h.block block).prev }

/-- `block_coalesce_forward` -/
def blockCoalesceForward (h : Heap π) (block : Nat) : Heap π :=
  let next := (h.block block).next
  let blockEnd := block + heapHeaderSize + (h.block block).size
  if next = 0 ∨ (h.block next).free = false ∨ next ≠ blockEnd then h
  else
    let h := h.setSize block ((h.block block).size + (heapHeaderSize + (h.block next).size))
    blockRemove h next

/-- `block_split` -/
def blockSplit (h : Heap π) (block requested : Nat) : Heap π :=
  if (h.block block).size < requested + heapHeaderSize + heapMinSplit then h
  else
    let newBlock := block + heapHeaderSize + requested
    let h := h.setMagic newBlock heapMagic
    let h := h.setSize newBlock ((h.block block).size - requested - heapHeaderSize)
    let h := h.setFree newBlock true
    let h := h.setPrev newBlock block
    let h := h.setNext newBlock (h.block block).next
    let h :=
      if (h.block block).next ≠ 0 then h.setPrev (h.block block).next newBlock
      else { h with tail := newBlock }
    let h := h.setNext block newBlock
    h.setSize block requested

/-- The loop of `find_free_block` from `block` on, for at most `fuel` blocks. -/
def findFreeBlockFrom (m : Memory) (size : Nat) : Nat → Nat → Nat
  | 0, _ => 0
  | fuel + 1, block =>
    if block = 0 then 0
    else if (heapBlock m block).free ∧ size ≤ (heapBlock m block).size then block
    else findFreeBlockFrom m size fuel (heapBlock m block).next

/-- No list of blocks in the heap is longer: a block takes its header and at
    least 16 bytes. -/
def maxHeapBlocks : Nat := heapSize / (heapHeaderSize + heapAlign)

/-- `find_free_block`.  The end of the list is reached within `maxHeapBlocks`
    steps, see `findFreeBlock_eq`. -/
def findFreeBlock (h : Heap π) (size : Nat) : Nat :=
  findFreeBlockFrom h.mem size (maxHeapBlocks + 1) h.head

/-! ## Growing the heap -/

variable (P : Pager π)

/-- The inner loop of `map_heap_pages`: give back the `n` pages mapped so far,
    last page first. -/
def unmapHeapPages (base : Nat) : Nat → π → π
  | 0, pager => pager
  | n + 1, pager =>
    let virt := UInt64.ofNat (base + n * pageSize)
    match P.virtToPhys pager virt with
    | .ok phys => unmapHeapPages base n (P.pageFree (P.unmapPage pager virt) phys)
    | .error _ => unmapHeapPages base n pager

/-- The outer loop of `map_heap_pages`, with `n` pages mapped and `left` to go. -/
def mapHeapPagesFrom (base : Nat) : Nat → Nat → π → Except Err Unit × π
  | _, 0, pager => (.ok (), pager)
  | n, left + 1, pager =>
    match P.pageAlloc pager with
    | (.error e, pager) => (.error e, pager)
    | (.ok phys, pager) =>
      match P.mapPage pager (UInt64.ofNat (base + n * pageSize)) phys vmmMapWrite with
      | (.error e, pager) => (.error e, unmapHeapPages P base n (P.pageFree pager phys))
      | (.ok _, pager) => mapHeapPagesFrom base (n + 1) left pager

/-- `map_heap_pages` -/
def mapHeapPages (base length : Nat) (pager : π) : Except Err Unit × π :=
  mapHeapPagesFrom P base 0 ((length + (pageSize - 1)) / pageSize) pager

/-- What `heap_extend` does once the new pages are mapped: make them one free
    block at the end of the list, merged with a free block before it. -/
def heapAppend (h : Heap π) (commitSize : Nat) : Heap π :=
  let block := h.commitEnd
  let newEnd := h.commitEnd + commitSize
  let h := h.setMagic block heapMagic
  let h := h.setSize block (commitSize - heapHeaderSize)
  let h := h.setFree block true
  let h := blockInsertTail h block
  let h := { h with commitEnd := newEnd }
  if (h.block block).prev ≠ 0 ∧ (h.block (h.block block).prev).free = true then
    blockCoalesceForward h (h.block block).prev
  else h

/-- The number of bytes `heap_extend` asks for. -/
def heapCommitSize (minPayload : Nat) : Nat :=
  let commitSize := alignUpSize (heapHeaderSize + minPayload) pageSize
  if commitSize < heapInitialPages * pageSize then heapInitialPages * pageSize else commitSize

/-- `heap_extend` -/
def heapExtend (h : Heap π) (minPayload : Nat) : Except Err Unit × Heap π :=
  if 2 ^ 64 - 1 - minPayload < heapHeaderSize then (.error .nomem, h)
  else
    let commitSize := heapCommitSize minPayload
    if 2 ^ 64 - 1 - commitSize < h.commitEnd ∨ heapBase + heapSize < h.commitEnd + commitSize then
      (.error .nomem, h)
    else
      match mapHeapPages P h.commitEnd commitSize h.pager with
      | (.error e, pager) => (.error e, { h with pager })
      | (.ok _, pager) =>
        let mem := h.mem.overlay (P.view pager) h.commitEnd commitSize
        (.ok (), heapAppend { h with mem, pager } commitSize)

/-! ## The interface -/

/-- `scdk_heap_init` -/
def heapInit (h : Heap π) : Except Err Unit × Heap π :=
  if h.initialized then (.error .busy, h)
  else
    match heapExtend P { h with head := 0, tail := 0, commitEnd := heapBase } 0 with
    | (.error e, h) => (.error e, h)
    | (.ok _, h) => (.ok (), { h with initialized := true })

/-- What `scdk_kalloc` does with the block it found. -/
def kallocBlock (h : Heap π) (block requested : Nat) : Nat × Heap π :=
  let h := blockSplit h block requested
  let h := h.setFree block false
  (blockPayload block, h)

/-- `scdk_kalloc`; the pointer returned is null when there is no memory. -/
def kalloc (h : Heap π) (size : UInt64) : Nat × Heap π :=
  if h.initialized = false ∨ size = 0 then (0, h)
  else if heapSize - heapHeaderSize < size.toNat then (0, h)
  else
    let requested := alignUpSize size.toNat heapAlign
    if requested < size.toNat ∨ heapSize - heapHeaderSize < requested then (0, h)
    else
      let block := findFreeBlock h requested
      if block ≠ 0 then kallocBlock h block requested
      else
        match heapExtend P h requested with
        | (.error _, h) => (0, h)
        | (.ok _, h) =>
          let block := findFreeBlock h requested
          if block = 0 then (0, h) else kallocBlock h block requested

/-- `scdk_kfree` -/
def kfree (h : Heap π) (ptr : Nat) : Heap π :=
  if ptr = 0 ∨ h.initialized = false ∨ ptrInHeap h ptr = false then h
  else
    let block := payloadBlock ptr
    if ptrInHeap h block = false ∨ (h.block block).magic ≠ heapMagic ∨ (h.block block).free then h
    else
      let h := h.setFree block true
      let h := blockCoalesceForward h block
      if (h.block block).prev ≠ 0 ∧ (h.block (h.block block).prev).free = true then
        blockCoalesceForward h (h.block block).prev
      else h

end model

end Scdk
