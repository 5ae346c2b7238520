import Scdk.Mm.HeapLayout
import Scdk.Lib.Run
import Mathlib.Data.List.Nodup

/-! # Heap safety for clients

    Clients call `kalloc` and `kfree` in any order and with any sizes, write
    into the memory they were given, and free only what they hold.  Between the
    calls the rest of the kernel uses the page allocator as it likes.

    In every state so reached the allocations the clients hold are aligned,
    inside the heap, large enough, disjoint from each other and from all block
    headers, and the next call of the heap does not change what they hold
    (`heap_safe`). -/

namespace Scdk

open Tiling

variable {π : Type}

/-! ## Allocating and freeing -/

/-- The heap after a call has the tiles `ts'`. -/
structure HeapStep (h h' : Heap π) (ts ts' : List Tile) : Prop where
  rep : HeapRep h' ts'
  initialized : h'.initialized = h.initialized
  coalesced : Coalesced ts → Coalesced ts'

theorem coalesced_singleton (t : Tile) : Coalesced [t] := List.isChain_singleton t

theorem coalesced_carve {xs ys : List Tile} {t : Tile} (h : Coalesced (xs ++ t :: ys))
    (ht : t.free = true) (requested : Nat) : Coalesced (xs ++ (carve requested t ++ ys)) := by
  obtain ⟨hxs, htys⟩ := List.isChain_split.mp h
  have hxs' : Coalesced xs := (List.isChain_append.mp hxs).1
  have hys : Coalesced ys := (List.isChain_cons.mp htys).2
  unfold carve
  split
  · exact (coalesced_append_used rfl).mpr ⟨hxs', hys⟩
  · refine (coalesced_append_used rfl).mpr ⟨hxs', ?_⟩
    have hhead : Coalesced (t :: ys) := htys
    exact hhead.resize_head ht.symm

/-- The tile carved out for an allocation is the only new used one. -/
theorem used_carve (xs ys : List Tile) {t : Tile} (ht : t.free = true) {requested : Nat}
    (hfit : requested ≤ t.size) :
    ∃ n, requested ≤ n ∧ ((stop 48 heapBase xs, n) :: used 48 heapBase (xs ++ t :: ys)).Perm
      (used 48 heapBase (xs ++ (carve requested t ++ ys))) := by
  unfold carve
  split
  · refine ⟨t.size, hfit, ?_⟩
    rw [used_append, used_append]
    simp only [used, ht, if_true, List.cons_append, List.nil_append]
    exact List.perm_middle.symm
  · refine ⟨requested, Nat.le_refl _, ?_⟩
    have haddr : stop 48 heapBase xs + 48 + t.size =
        stop 48 heapBase xs + 48 + requested + 48 + (t.size - requested - 48) := by omega
    rw [used_append, used_append]
    simp only [used, ht, if_true, haddr, List.cons_append, List.nil_append]
    exact List.perm_middle.symm

/-- What a call of `kalloc` that returned `ptr` has done: nothing for the
    client, or made a new used tile of at least the size asked for. -/
def Allocated (size ptr : Nat) (h h' : Heap π) (ts : List Tile) : Prop :=
  ∃ ts', HeapStep h h' ts ts' ∧ KeepsUsed ts h h' ∧
    ((ptr = 0 ∧ used 48 heapBase ts' = used 48 heapBase ts) ∨
      ∃ a n, ptr = a + 48 ∧ size ≤ n ∧
        ((a, n) :: used 48 heapBase ts).Perm (used 48 heapBase ts'))

/-- Once a free tile was found, it is carved up. -/
theorem HeapStep.take {h h1 : Heap π} {ts xs ys : List Tile} {t : Tile} {requested size : Nat}
    (hstep : HeapStep h h1 ts (xs ++ t :: ys)) (hkeep : KeepsUsed ts h h1)
    (hused : used 48 heapBase (xs ++ t :: ys) = used 48 heapBase ts) (hfit : Fits requested t)
    (h16 : 16 ∣ requested) (hpos : 0 < requested) (hsize : size ≤ requested) :
    Allocated size (kallocBlock h1 (stop 48 heapBase xs) requested).1 h
      (kallocBlock h1 (stop 48 heapBase xs) requested).2 ts := by
  obtain ⟨hr', hk', hinit'⟩ := hstep.rep.take hfit.1 h16 hpos
  obtain ⟨n, hn, hperm⟩ := used_carve xs ys hfit.1 hfit.2
  rw [hused] at hperm
  have hptr : (kallocBlock h1 (stop 48 heapBase xs) requested).1 = stop 48 heapBase xs + 48 := by
    show blockPayload (stop 48 heapBase xs) = _
    rw [blockPayload, heapHeaderSize_eq]
  generalize kallocBlock h1 (stop 48 heapBase xs) requested = r at *
  refine ⟨_, ⟨hr', hinit'.trans hstep.initialized, ?_⟩, hkeep.trans ?_ hk',
    .inr ⟨_, n, hptr, by omega, hperm⟩⟩
  · intro hc
    exact coalesced_carve (hstep.coalesced hc) hfit.1 requested
  · rw [hused]
    exact fun _ hw => hw

theorem HeapRep.alloc {h : Heap π} {ts : List Tile} (hr : HeapRep h ts) (P : Pager π)
    (size : UInt64) : Allocated size.toNat (kalloc P h size).1 h (kalloc P h size).2 ts := by
  have hquiet : HeapStep h h ts ts := ⟨hr, rfl, fun hc => hc⟩
  have hbase := heapBase_pos
  unfold kalloc
  split
  · exact ⟨ts, hquiet, KeepsUsed.refl _ _, .inl ⟨rfl, rfl⟩⟩
  · next hargs =>
    rw [not_or] at hargs
    split
    · exact ⟨ts, hquiet, KeepsUsed.refl _ _, .inl ⟨rfl, rfl⟩⟩
    · dsimp only
      split
      · exact ⟨ts, hquiet, KeepsUsed.refl _ _, .inl ⟨rfl, rfl⟩⟩
      · next hreq =>
        obtain ⟨requested, hrequested⟩ : ∃ r, alignUpSize size.toNat heapAlign = r := ⟨_, rfl⟩
        rw [hrequested] at hreq ⊢
        rw [not_or, Nat.not_lt, Nat.not_lt] at hreq
        have h16 : 16 ∣ requested := by
          rw [← hrequested]
          exact Nat.dvd_mul_left 16 _
        have hpos : 0 < requested := by
          have : size.toNat ≠ 0 := fun h0 => hargs.2 (UInt64.toNat_inj.mp h0)
          omega
        -- A free block that fits is taken as it is.
        rcases hr.findFreeBlock_eq requested with ⟨xs, t, ys, heq, hfit, hfind⟩ | ⟨_, hfind⟩
        · have hne := le_stop_base xs
          rw [hfind, if_pos (by omega)]
          subst heq
          exact hquiet.take (KeepsUsed.refl _ _) rfl hfit h16 hpos hreq.1
        · rw [hfind, if_neg (by simp)]
          have hsize : requested ≤ heapSize := by omega
          -- None fits: the heap grows at its end, and the search is made once more.
          rcases hr.extend P hsize with ⟨e, pager, hext⟩ | ⟨h1, n, hext, hr1, hk1, hinit1, _⟩
          · rw [hext]
            exact ⟨ts, ⟨hr.congr (fun _ _ => rfl) rfl rfl rfl, rfl, fun hc => hc⟩,
              fun _ _ _ _ _ _ => rfl, .inl ⟨rfl, rfl⟩⟩
          · rw [hext]
            dsimp only
            have hused : used 48 heapBase (join 48 ts [⟨n, true⟩]) = used 48 heapBase ts := by
              rw [used_join, used_append]
              simp [used]
            have hstep1 : HeapStep h h1 ts (join 48 ts [⟨n, true⟩]) :=
              ⟨hr1, hinit1, fun hc => hc.join (coalesced_singleton _)⟩
            rcases hr1.findFreeBlock_eq requested with ⟨xs, t, ys, heq, hfit, hfind'⟩ | ⟨_, hfind'⟩
            · have hne := le_stop_base xs
              rw [hfind', if_neg (by omega)]
              rw [heq] at hstep1 hused
              exact hstep1.take hk1 hused hfit h16 hpos hreq.1
            · rw [hfind', if_pos rfl]
              exact ⟨_, hstep1, hk1, .inl ⟨rfl, hused⟩⟩

/-- What `kfree` does with a used tile: it is free afterwards, and nothing else
    changes. -/
theorem HeapRep.release {h : Heap π} {ts : List Tile} (hr : HeapRep h ts)
    (hinit : h.initialized = true) {a n : Nat} (hmem : (a, n) ∈ used 48 heapBase ts) :
    ∃ ts', HeapStep h (kfree h (a + 48)) ts ts' ∧ KeepsUsed ts' h (kfree h (a + 48)) ∧
      ((a, n) :: used 48 heapBase ts').Perm (used 48 heapBase ts) := by
  obtain ⟨xs, ys, rfl, rfl⟩ := mem_placed.mp (mem_used.mp hmem)
  obtain ⟨a, ha⟩ : ∃ a, stop 48 heapBase xs = a := ⟨_, rfl⟩
  have hblock := chain_block hr.chain
  obtain ⟨hbase, _, _⟩ := hr.at_boundary ha
  have hpos := heapBase_pos
  have hcommit := hr.commitEnd
  rw [stop_append, ha] at hcommit
  have hle := le_stop 48 (a + 48 + n) ys
  change h.commitEnd = stop 48 (a + 48 + n) ys at hcommit
  have hsize : 0 < n := (hr.size ⟨n, false⟩ (by simp)).2
  -- Every check of the function passes.
  obtain ⟨h1, hh1⟩ : ∃ h1, h1 = blockCoalesceForward (h.setFree a true) a := ⟨_, rfl⟩
  have heq : kfree h (a + 48) = h1.mergeBack a := by
    have hptr : ptrInHeap h (a + 48) = true := by
      simp only [ptrInHeap, decide_eq_true_eq]
      omega
    have hptr' : ptrInHeap h a = true := by
      simp only [ptrInHeap, decide_eq_true_eq]
      omega
    have hpb : payloadBlock (a + 48) = a := by
      rw [payloadBlock, heapHeaderSize_eq]
      omega
    rw [ha] at hblock
    rw [hh1]
    unfold kfree
    rw [if_neg (by simp [hinit, hptr])]
    dsimp only
    rw [hpb, if_neg (by simp [hptr', hblock])]
    rfl
  have hr1 := hr.setFree true
  obtain ⟨hr2, hk2, hinit2⟩ := hr1.absorb
  obtain ⟨u, us, hcons⟩ := exists_absorb_eq_cons 48 ⟨n, true⟩ ys
  rw [hcons] at hr2
  obtain ⟨hr3, hk3, hinit3⟩ := hr2.mergeBack
  have hused : used 48 heapBase (xs ++ u :: us) =
      used 48 heapBase (xs ++ ⟨n, true⟩ :: ys) := by
    rw [← hcons, used_append, used_append, used_absorb _ rfl]
    simp [used]
  have hk1 := (h.setFree_writes a true).keepsUsed ha (⟨n, true⟩ :: ys)
  rw [ha] at hr2 hk2 hinit2 hr3 hk3 hinit3 ⊢
  rw [← hh1] at hr2 hk2 hinit2 hr3 hk3 hinit3
  rw [heq]
  refine ⟨_, ⟨hr3, ?_, ?_⟩, ?_, ?_⟩
  · rw [hinit3, hinit2]
    rfl
  · intro hc
    obtain ⟨hxs, hys⟩ := (coalesced_append_used rfl).mp hc
    apply hxs.join
    rw [← hcons]
    have hone : Coalesced ([] ++ [⟨n, true⟩]) := coalesced_singleton _
    exact hone.absorb hys
  · have hk := (hk1.trans (fun _ hw => hw) hk2).trans (fun w hw => by rw [hused]; exact hw) hk3
    intro b m hb
    rw [used_join, hused] at hb
    exact hk b m hb
  · rw [used_join, hused, used_append, used_append, ha]
    simp only [used, if_true]
    exact List.perm_middle.symm

/-! ## Clients of the heap -/

/-- The heap and what its clients hold: the pointers `kalloc` returned that
    were not freed since, with the sizes asked for. -/
structure HeapClients (π : Type) where
  heap : Heap π
  live : List (Nat × UInt64)

/-- The steps of a run: the two calls, a client writing a byte, and the rest of
    the kernel moving the page allocator and the page tables to another state. -/
inductive HeapCall (π : Type) where
  | kalloc (size : UInt64)
  | kfree (ptr : Nat)
  | write (addr : Nat) (byte : UInt8)
  | pager (p : π)

/-- One step; the answer is the pointer `kalloc` returns. -/
def heapStep (P : Pager π) (s : HeapClients π) : HeapCall π → Nat × HeapClients π
  | .kalloc size =>
      let (ptr, heap) := kalloc P s.heap size
      (ptr, ⟨heap, if ptr = 0 then s.live else (ptr, size) :: s.live⟩)
  | .kfree ptr => (0, ⟨kfree s.heap ptr, s.live.filter fun l => l.1 ≠ ptr⟩)
  | .write addr byte =>
      (0, { s with heap := { s.heap with mem := s.heap.mem.store addr 1 byte.toNat } })
  | .pager p => (0, { s with heap := { s.heap with pager := p } })

/-- The heap from a successful `scdk_heap_init` on. -/
def heapSystem (P : Pager π) : System (HeapClients π) (HeapCall π) Nat where
  init := fun s => s.live = [] ∧ ∃ h, heapInit P h = (.ok (), s.heap)
  step := heapStep P

/-- What clients may do: free null or what they hold, and write into what they
    hold, up to the size they asked for. -/
def HeapGuard (s : HeapClients π) : HeapCall π → Prop
  | .kalloc _ => True
  | .kfree ptr => ptr = 0 ∨ ∃ n, (ptr, n) ∈ s.live
  | .write addr _ => ∃ p n, (p, n) ∈ s.live ∧ p ≤ addr ∧ addr < p + n.toNat
  | .pager _ => True

/-- The size of the block behind a pointer, as its header has it. -/
def capacity (h : Heap π) (ptr : Nat) : Nat := (h.block (payloadBlock ptr)).size

/-- The headers reached from `heap_head` through the `next` links. -/
inductive Heap.Listed (h : Heap π) : Nat → Prop where
  | head : h.head ≠ 0 → Listed h h.head
  | next {block : Nat} : Listed h block → (h.block block).next ≠ 0 → Listed h (h.block block).next

/-! ## The invariant -/

/-- The tiles of the heap, and the clients' pointers as its used tiles. -/
structure HeapInv (s : HeapClients π) (ts : List Tile) : Prop where
  rep : HeapRep s.heap ts
  initialized : s.heap.initialized = true
  coalesced : Coalesced ts
  ptrs : (s.live.map Prod.fst).Perm ((used 48 heapBase ts).map fun u => u.1 + 48)
  size : ∀ p n, (p, n) ∈ s.live → ∃ a m, (a, m) ∈ used 48 heapBase ts ∧ p = a + 48 ∧ n.toNat ≤ m

theorem HeapInv.nodup {s : HeapClients π} {ts : List Tile} (h : HeapInv s ts) :
    (s.live.map Prod.fst).Nodup := by
  rw [h.ptrs.nodup_iff]
  have hnodup : ((used 48 heapBase ts).map Prod.fst).Nodup := nodup_used heapBase (by decide) ts
  have hmap : ((used 48 heapBase ts).map fun u => u.1 + 48) =
      ((used 48 heapBase ts).map Prod.fst).map (· + 48) := by
    rw [List.map_map]
    rfl
  rw [hmap]
  exact List.Nodup.map (fun x y hxy => Nat.add_right_cancel hxy) hnodup

/-- The heap starts as one free block. -/
theorem heapInv_init {P : Pager π} {s : HeapClients π} (h : (heapSystem P).init s) :
    ∃ ts, HeapInv s ts := by
  obtain ⟨hlive, h0, hinit⟩ := h
  unfold heapInit at hinit
  split at hinit
  · cases (Prod.mk.inj hinit).1
  · have hr0 : HeapRep { h0 with head := 0, tail := 0, commitEnd := heapBase } [] := by
      refine ⟨trivial, rfl, rfl, rfl, Nat.le_add_right _ _, ?_⟩
      intro t ht
      cases ht
    rcases hr0.extend P (Nat.zero_le heapSize) with ⟨e, pager, hext⟩ | ⟨h1, n, hext, hr1, _⟩
    · rw [hext] at hinit
      cases (Prod.mk.inj hinit).1
    · rw [hext] at hinit
      have hheap : s.heap = { h1 with initialized := true } := (Prod.mk.inj hinit).2.symm
      refine ⟨join 48 [] [⟨n, true⟩], ?_, ?_, coalesced_singleton _, ?_, ?_⟩
      · rw [hheap]
        exact hr1.congr (fun _ _ => rfl) rfl rfl rfl
      · rw [hheap]
      · rw [hlive]
        exact List.Perm.refl _
      · intro p m hmem
        rw [hlive] at hmem
        cases hmem

theorem HeapInv.kalloc {s : HeapClients π} {ts : List Tile} (h : HeapInv s ts) (P : Pager π)
    (size : UInt64) : ∃ ts', HeapInv (heapStep P s (.kalloc size)).2 ts' := by
  obtain ⟨ts', hstep, _, hres⟩ := h.rep.alloc P size
  refine ⟨ts', ?_⟩
  simp only [heapStep]
  rcases hres with ⟨hnull, hused⟩ | ⟨a, n, hptr, hn, hperm⟩
  · rw [hnull, if_pos rfl]
    refine ⟨hstep.rep, hstep.initialized.trans h.initialized, hstep.coalesced h.coalesced, ?_, ?_⟩
    · rw [hused]
      exact h.ptrs
    · rw [hused]
      exact h.size
  · rw [hptr, if_neg (by omega)]
    refine ⟨hstep.rep, hstep.initialized.trans h.initialized, hstep.coalesced h.coalesced, ?_, ?_⟩
    · have hcons : ((a + 48) :: s.live.map Prod.fst).Perm
          ((a + 48) :: (used 48 heapBase ts).map fun u => u.1 + 48) := h.ptrs.cons _
      exact hcons.trans (hperm.map fun u : Nat × Nat => u.1 + 48)
    · intro p m hmem
      rcases List.mem_cons.mp hmem with heq | hold
      · obtain ⟨rfl, rfl⟩ := Prod.mk.inj heq
        exact ⟨a, n, hperm.subset (by simp), rfl, hn⟩
      · obtain ⟨b, k, hb, hp, hk⟩ := h.size p m hold
        exact ⟨b, k, hperm.subset (List.mem_cons_of_mem _ hb), hp, hk⟩

/-- A pointer a client holds is the payload of a used tile. -/
theorem HeapInv.of_live {s : HeapClients π} {ts : List Tile} (h : HeapInv s ts) {p : Nat}
    {n : UInt64} (hmem : (p, n) ∈ s.live) :
    ∃ a, (a, capacity s.heap p) ∈ used 48 heapBase ts ∧ p = a + 48 ∧
      n.toNat ≤ capacity s.heap p := by
  obtain ⟨a, m, hused, rfl, hn⟩ := h.size p n hmem
  obtain ⟨xs, ys, rfl, rfl⟩ := mem_placed.mp (mem_used.mp hused)
  have hcap : capacity s.heap (stop 48 heapBase xs + 48) = m := by
    unfold capacity
    rw [payloadBlock, heapHeaderSize_eq, Nat.add_sub_cancel, chain_block h.rep.chain]
  rw [hcap]
  exact ⟨_, hused, rfl, hn⟩

theorem HeapInv.kfree {s : HeapClients π} {ts : List Tile} (h : HeapInv s ts) (P : Pager π)
    {ptr : Nat} (hguard : HeapGuard s (.kfree ptr)) :
    ∃ ts', HeapInv (heapStep P s (.kfree ptr)).2 ts' := by
  simp only [heapStep]
  rcases hguard with rfl | ⟨n, hmem⟩
  · -- Freeing null does nothing, and no client holds null.
    have hnull : Scdk.kfree s.heap 0 = s.heap := by
      unfold Scdk.kfree
      rw [if_pos (.inl rfl)]
    have hlive : s.live.filter (fun l => l.1 ≠ 0) = s.live := by
      rw [List.filter_eq_self]
      rintro ⟨p, m⟩ hp
      obtain ⟨a, _, rfl, _⟩ := h.of_live hp
      simp
    rw [hnull, hlive]
    exact ⟨ts, h⟩
  · obtain ⟨a, hused, rfl, _⟩ := h.of_live hmem
    obtain ⟨ts', hstep, _, hperm⟩ := h.rep.release h.initialized hused
    -- The pointers left are those of the used tiles left.
    have hnotin : a + 48 ∉ (used 48 heapBase ts').map fun u => u.1 + 48 := by
      have hnodup := h.nodup
      rw [(h.ptrs.trans (hperm.map fun u : Nat × Nat => u.1 + 48).symm).nodup_iff] at hnodup
      exact (List.nodup_cons.mp hnodup).1
    refine ⟨ts', hstep.rep, hstep.initialized.trans h.initialized, hstep.coalesced h.coalesced,
      ?_, ?_⟩
    · have hfilter := (h.ptrs.trans (hperm.map fun u : Nat × Nat => u.1 + 48).symm).filter (· ≠ a + 48)
      have hleft : (s.live.filter fun l => l.1 ≠ a + 48).map Prod.fst =
          (s.live.map Prod.fst).filter (· ≠ a + 48) := by
        rw [List.filter_map]
        rfl
      have hright : (((a, capacity s.heap (a + 48)) :: used 48 heapBase ts').map
          fun u => u.1 + 48).filter (· ≠ a + 48) =
          (used 48 heapBase ts').map fun u => u.1 + 48 := by
        rw [List.map_cons, List.filter_cons_of_neg (by simp), List.filter_eq_self]
        intro x hx
        rw [decide_eq_true_eq]
        rintro rfl
        exact hnotin hx
      rw [hright] at hfilter
      show ((s.live.filter fun l => l.1 ≠ a + 48).map Prod.fst).Perm _
      rw [hleft]
      exact hfilter
    · intro p m hp
      obtain ⟨hold, hne⟩ := List.mem_filter.mp hp
      rw [decide_eq_true_eq] at hne
      obtain ⟨b, k, hb, rfl, hk⟩ := h.size p m hold
      rcases List.mem_cons.mp (hperm.symm.subset hb) with heq | hb'
      · obtain ⟨rfl, _⟩ := Prod.mk.inj heq
        exact absurd rfl hne
      · exact ⟨b, k, hb', rfl, hk⟩

/-- Writing into memory a client holds touches no header. -/
theorem HeapInv.write {s : HeapClients π} {ts : List Tile} (h : HeapInv s ts) (P : Pager π)
    {addr : Nat} {byte : UInt8} (hguard : HeapGuard s (.write addr byte)) :
    HeapInv (heapStep P s (.write addr byte)).2 ts := by
  obtain ⟨p, n, hmem, hlo, hhi⟩ := hguard
  obtain ⟨a, hused, rfl, hn⟩ := h.of_live hmem
  have hcongr : ∀ b t, (b, t) ∈ placed 48 heapBase ts →
      heapBlock (s.heap.mem.store addr 1 byte.toNat) b = heapBlock s.heap.mem b := by
    intro b t hb
    apply heapBlock_congr
    intro x hx hx'
    apply Memory.store_of_not_mem
    -- The byte written lies in the payload of a tile, `x` in a header.
    rcases placed_disjoint hb (mem_used.mp hused) with ⟨rfl, _⟩ | hdis | hdis
    · omega
    · omega
    · dsimp only at hdis
      omega
  have hchain : Chain (heapBlock (s.heap.mem.store addr 1 byte.toNat)) 0 heapBase 0 ts :=
    chain_congr_placed hcongr h.rep.chain
  exact ⟨⟨hchain, h.rep.head, h.rep.tail, h.rep.commitEnd, h.rep.bound, h.rep.size⟩,
    h.initialized, h.coalesced, h.ptrs, h.size⟩

/-- One more call keeps the invariant. -/
theorem heapInv_step {s : HeapClients π} {ts : List Tile} (h : HeapInv s ts) (P : Pager π)
    {call : HeapCall π} (hguard : HeapGuard s call) : ∃ ts', HeapInv (heapStep P s call).2 ts' := by
  cases call with
  | kalloc size => exact h.kalloc P size
  | kfree ptr => exact h.kfree P hguard
  | write addr byte => exact ⟨ts, h.write P hguard⟩
  | pager p =>
    exact ⟨ts, h.rep.congr (fun _ _ => rfl) rfl rfl rfl, h.initialized, h.coalesced, h.ptrs, h.size⟩

/-- The invariant holds in every state clients can reach. -/
theorem heapInv_run {P : Pager π} {log : List (HeapCall π × Nat)} {s : HeapClients π}
    (h : (heapSystem P).RunWhen HeapGuard log s) : ∃ ts, HeapInv s ts := by
  refine System.RunWhen.invariant (P := fun s => ∃ ts, HeapInv s ts)
    (fun s hs => heapInv_init hs) ?_ h
  intro s call hs hguard
  obtain ⟨ts, hinv⟩ := hs
  exact heapInv_step hinv P hguard

/-! ## Safety -/

/-- The headers in the list are those of the tiles. -/
theorem HeapRep.of_listed {h : Heap π} {ts : List Tile} (hr : HeapRep h ts) {b : Nat}
    (hb : h.Listed b) : ∃ t, (b, t) ∈ placed 48 heapBase ts := by
  -- The list starts at the first tile, and each link leads to the next one.
  induction hb with
  | head hne =>
    rw [hr.head] at hne ⊢
    cases ts with
    | nil => exact absurd rfl hne
    | cons t ts => exact ⟨t, by simp [placed]⟩
  | @next block _ hne ih =>
    obtain ⟨t, ht⟩ := ih
    obtain ⟨xs, ys, rfl, rfl⟩ := mem_placed.mp ht
    rw [chain_block hr.chain] at hne ⊢
    cases ys with
    | nil => exact absurd rfl hne
    | cons u ys =>
      refine ⟨u, mem_placed.mpr ⟨xs ++ [t], ys, by simp, ?_⟩⟩
      rw [stop_append]
      rfl

/-- One more call keeps what clients hold. -/
theorem HeapInv.keeps {s : HeapClients π} {ts : List Tile} (h : HeapInv s ts) (P : Pager π)
    {call : HeapCall π} (hguard : HeapGuard s call) (hcall : ∀ a b, call ≠ .write a b) {p : Nat}
    {n : UInt64} (hmem : (p, n) ∈ s.live) (hmem' : (p, n) ∈ (heapStep P s call).2.live) {x : Nat}
    (hlo : p ≤ x) (hhi : x < p + capacity s.heap p) :
    (heapStep P s call).2.heap.mem x = s.heap.mem x := by
  obtain ⟨a, hused, rfl, _⟩ := h.of_live hmem
  cases call with
  | kalloc size =>
    obtain ⟨ts', _, hkeep, _⟩ := h.rep.alloc P size
    exact hkeep a _ hused x hlo hhi
  | kfree ptr =>
    rcases hguard with rfl | ⟨m, hptr⟩
    · rfl
    · obtain ⟨b, hb, rfl, _⟩ := h.of_live hptr
      obtain ⟨ts', _, hkeep, hperm⟩ := h.rep.release h.initialized hb
      rcases List.mem_cons.mp (hperm.symm.subset hused) with heq | hrest
      · -- The pointer just freed is not held any more.
        obtain ⟨rfl, _⟩ := Prod.mk.inj heq
        simp [heapStep] at hmem'
      · exact hkeep a _ hrest x hlo hhi
  | write addr byte => exact absurd rfl (hcall addr byte)
  | pager q => rfl

/-- **Heap safety.**  Whatever the page allocator and the page tables do, in
    every state clients can reach, all they hold is aligned, inside the heap,
    large enough, and disjoint from the rest of what they hold and from the
    headers in the list; and no call of the heap changes a byte of what stays
    held. -/
theorem heap_safe {P : Pager π} {log : List (HeapCall π × Nat)} {s : HeapClients π}
    (hrun : (heapSystem P).RunWhen HeapGuard log s) :
    (s.live.map Prod.fst).Nodup ∧
    (∀ p n, (p, n) ∈ s.live →
      16 ∣ p ∧ heapBase ≤ p ∧ p + capacity s.heap p ≤ s.heap.commitEnd ∧
      n.toNat ≤ capacity s.heap p ∧
      (∀ q m, (q, m) ∈ s.live → q ≠ p →
        p + capacity s.heap p ≤ q ∨ q + capacity s.heap q ≤ p) ∧
      (∀ b, s.heap.Listed b → p + capacity s.heap p ≤ b ∨ b + heapHeaderSize ≤ p)) ∧
    (∀ call, HeapGuard s call → (∀ a b, call ≠ .write a b) →
      ∀ p n, (p, n) ∈ s.live → (p, n) ∈ (heapStep P s call).2.live →
        ∀ x, p ≤ x → x < p + capacity s.heap p →
          (heapStep P s call).2.heap.mem x = s.heap.mem x) := by
  obtain ⟨ts, h⟩ := heapInv_run hrun
  refine ⟨h.nodup, ?_, fun call hguard hcall p n hmem hmem' x hlo hhi =>
    h.keeps P hguard hcall hmem hmem' hlo hhi⟩
  intro p n hmem
  obtain ⟨a, hused, rfl, hn⟩ := h.of_live hmem
  have hplaced := mem_used.mp hused
  obtain ⟨hbase, hend⟩ := placed_bounds hplaced
  refine ⟨?_, by omega, ?_, hn, ?_, ?_⟩
  · -- Headers and payloads are multiples of 16, and so is the base.
    obtain ⟨xs, ys, rfl, rfl⟩ := mem_placed.mp hplaced
    have hstop : 16 ∣ stop 48 heapBase xs := by
      apply dvd_stop (by decide)
      intro t ht
      have := h.rep.size t (by simp [ht])
      omega
    omega
  · rw [h.rep.commitEnd]
    exact hend
  · intro q m hq hne
    obtain ⟨b, hb, rfl, _⟩ := h.of_live hq
    rcases placed_disjoint hplaced (mem_used.mp hb) with ⟨rfl, _⟩ | hdis | hdis
    · exact absurd rfl hne
    · exact .inl (by dsimp only at hdis; omega)
    · exact .inr (by dsimp only at hdis; omega)
  · intro b hb
    rw [heapHeaderSize_eq]
    obtain ⟨t, ht⟩ := h.rep.of_listed hb
    rcases placed_disjoint hplaced ht with ⟨rfl, _⟩ | hdis | hdis
    · exact .inr (by omega)
    · exact .inl hdis
    · exact .inr (by omega)

/-- A pager that always succeeds and maps zeroed pages. -/
def zeroPager : Pager Unit where
  pageAlloc := fun _ => (.ok 0, ())
  pageFree := fun _ _ => ()
  mapPage := fun _ _ _ _ => (.ok (), ())
  unmapPage := fun _ _ => ()
  virtToPhys := fun _ _ => .ok 0
  view := fun _ _ => 0

/-- The heap before `scdk_heap_init`. -/
def Heap.zero : Heap Unit := ⟨fun _ => 0, 0, 0, 0, false, ()⟩

/-- Two blocks and a byte in the second one, which is still there when the first one has
    been freed. -/
theorem heap_safe_two :
    ∃ log s, (heapSystem zeroPager).RunWhen HeapGuard log s ∧
      s.live = [(heapBase + 208, 200), (heapBase + 48, 100)] ∧
      (heapBase + 208 + capacity s.heap (heapBase + 208) ≤ heapBase + 48 ∨
        heapBase + 48 + capacity s.heap (heapBase + 48) ≤ heapBase + 208) ∧
      (heapStep zeroPager s (.kfree (heapBase + 48))).2.live = [(heapBase + 208, 200)] ∧
      (heapStep zeroPager s (.kfree (heapBase + 48))).2.heap.mem (heapBase + 208) = 7 := by
  have hinit : (heapSystem zeroPager).init ⟨(heapInit zeroPager Heap.zero).2, []⟩ := by
    refine ⟨rfl, Heap.zero, Prod.ext ?_ rfl⟩
    decide +kernel
  have hguard : (heapSystem zeroPager).Guarded HeapGuard ⟨(heapInit zeroPager Heap.zero).2, []⟩
      [.kalloc 100, .kalloc 200, .write (heapBase + 208) 7] := by
    refine ⟨trivial, trivial, ⟨heapBase + 208, 200, ?_, by omega, by decide⟩, trivial⟩
    decide +kernel
  obtain ⟨log, hrun⟩ := (System.RunWhen.init hinit).exec hguard
  set s := (heapSystem zeroPager).exec ⟨(heapInit zeroPager Heap.zero).2, []⟩
    [.kalloc 100, .kalloc 200, .write (heapBase + 208) 7] with hs
  have hlive : s.live = [(heapBase + 208, 200), (heapBase + 48, 100)] := by
    decide +kernel
  have hbyte : s.heap.mem (heapBase + 208) = 7 := by
    decide +kernel
  have hfreed : (heapStep zeroPager s (.kfree (heapBase + 48))).2.live = [(heapBase + 208, 200)] := by
    simp [heapStep, hlive]
  obtain ⟨_, hsafe, hkeeps⟩ := heap_safe hrun
  have hmem : (heapBase + 208, 200) ∈ s.live := by simp [hlive]
  have hmem' : (heapBase + 48, 100) ∈ s.live := by simp [hlive]
  obtain ⟨_, _, _, hcap, hapart, _⟩ := hsafe _ _ hmem
  have hpos : 200 ≤ capacity s.heap (heapBase + 208) := hcap
  refine ⟨log, s, hrun, hlive, hapart _ _ hmem' (by omega), hfreed, ?_⟩
  rw [hkeeps (.kfree (heapBase + 48)) (.inr ⟨100, hmem'⟩) (by simp) _ _ hmem (by simp [hfreed]) _
    (Nat.le_refl _) (by omega)]
  exact hbyte

end Scdk
