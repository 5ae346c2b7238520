import Scdk.Mm.HeapSafety
import Scdk.Mm.Strings

/-! # Storage of objects

    Model of the allocating functions of `mm/heap.c` that clear what they return, and what
    the clients of the heap can rely on when they read.

    * `kzalloc`, `allocObjectStorage`: the functions of the source,
    * `storageSystem`: the clients of `heapSystem`, who call these two as well,
    * `HeapInv.cleared`: clearing an allocation is writing to it, byte after byte,
    * `lastStored`: what the calls of a run say about a byte,
    * `storage_reads_back`: a client reads what was stored last. -/

namespace Scdk

open Tiling

variable {π : Type}

/-! ## Functions -/

/-- `scdk_kzalloc` -/
def kzalloc (P : Pager π) (h : Heap π) (size : UInt64) : Nat × Heap π :=
  let (ptr, h) := kalloc P h size
  (ptr, if ptr ≠ 0 then { h with mem := memset h.mem ptr 0 size.toNat } else h)

/-- `scdk_alloc_object_storage` -/
def allocObjectStorage (P : Pager π) (h : Heap π) (objectType : UInt32) (size : UInt64) :
    Nat × Heap π :=
  if objectType = ObjType.none ∨ size = 0 then (0, h) else kzalloc P h size

/-! ## Clients -/

/-- A call of the heap as before, or one that clears. -/
inductive StorageCall (π : Type) where
  | heap (call : HeapCall π)
  | kzalloc (size : UInt64)
  | allocObjectStorage (objectType : UInt32) (size : UInt64)

/-- The client holds what a call has returned, unless that is null. -/
def HeapClients.take (s : HeapClients π) (answer : Nat × Heap π) (size : UInt64) : HeapClients π :=
  ⟨answer.2, if answer.1 = 0 then s.live else (answer.1, size) :: s.live⟩

/-- One step; the answer is the pointer returned. -/
def storageStep (P : Pager π) (s : HeapClients π) : StorageCall π → Nat × HeapClients π
  | .heap call => heapStep P s call
  | .kzalloc size => ((kzalloc P s.heap size).1, s.take (kzalloc P s.heap size) size)
  | .allocObjectStorage objectType size =>
    ((allocObjectStorage P s.heap objectType size).1,
      s.take (allocObjectStorage P s.heap objectType size) size)

/-- The heap from a successful `scdk_heap_init` on. -/
def storageSystem (P : Pager π) : System (HeapClients π) (StorageCall π) Nat where
  init := (heapSystem P).init
  step := storageStep P

/-- What clients may do is as before; each may ask for cleared memory. -/
def StorageGuard (s : HeapClients π) : StorageCall π → Prop
  | .heap call => HeapGuard s call
  | _ => True

/-! ## Clearing -/

section cleared

variable {s : HeapClients π} {ts : List Tile}

/-- A byte written is a store of one byte. -/
theorem store_byte (m : Memory) (a : Nat) (byte : UInt8) :
    m.store a 1 byte.toNat = Function.update m a byte := by
  funext x
  by_cases hx : x = a
  · subst hx
    rw [Function.update_self, Memory.store, if_pos (by omega), Nat.sub_self, Nat.pow_zero,
      Nat.div_one, UInt8.ofNat_toNat]
  · rw [Function.update_of_ne hx, Memory.store_of_not_mem (by omega)]

/-- The `k` bytes from `p` on are overlaid. -/
def HeapClients.overlay (s : HeapClients π) (m : Memory) (p k : Nat) : HeapClients π :=
  ⟨{ s.heap with mem := s.heap.mem.overlay m p k }, s.live⟩

theorem mem_overlay (s : HeapClients π) (m : Memory) (p k : Nat) :
    (s.overlay m p k).heap.mem = s.heap.mem.overlay m p k := rfl

/-- What a client holds can be overlaid: each byte is one that the client may write. -/
theorem HeapInv.overlay (h : HeapInv s ts) (P : Pager π) {p : Nat} {n : UInt64}
    (hmem : (p, n) ∈ s.live) (m : Memory) {k : Nat} (hk : k ≤ n.toNat) :
    HeapInv (s.overlay m p k) ts := by
  induction k with
  | zero =>
    rw [HeapClients.overlay, Memory.overlay_zero]
    exact h
  | succ k ih =>
    have hguard : HeapGuard (s.overlay m p k) (.write (p + k) (m (p + k))) :=
      ⟨p, n, hmem, by omega, by omega⟩
    have hwrite := (ih (by omega)).write P hguard
    simp only [heapStep, store_byte, mem_overlay] at hwrite
    rw [HeapClients.overlay, Memory.overlay_succ]
    exact hwrite

/-- `scdk_kzalloc` that returns memory: `scdk_kalloc`, and all bytes asked for are zero. -/
theorem kzalloc_eq (P : Pager π) (h : Heap π) (size : UInt64) :
    kzalloc P h size = ((kalloc P h size).1,
      if (kalloc P h size).1 ≠ 0 then
        { (kalloc P h size).2 with
          mem := (kalloc P h size).2.mem.overlay (fun _ => 0) (kalloc P h size).1 size.toNat }
      else (kalloc P h size).2) := by
  unfold kzalloc
  simp only [memset_eq]
  rfl

/-- The client that asked for cleared memory: the call of `scdk_kalloc`, and then the bytes
    asked for are overlaid with zeros. -/
theorem take_kzalloc (P : Pager π) (s : HeapClients π) (size : UInt64) :
    s.take (kzalloc P s.heap size) size = (heapStep P s (.kalloc size)).2 ∧
        (kalloc P s.heap size).1 = 0 ∨
      ∃ ptr, (kalloc P s.heap size).1 = ptr ∧ ptr ≠ 0 ∧
        (ptr, size) ∈ (heapStep P s (.kalloc size)).2.live ∧
        s.take (kzalloc P s.heap size) size =
          (heapStep P s (.kalloc size)).2.overlay (fun _ => 0) ptr size.toNat := by
  by_cases hptr : (kalloc P s.heap size).1 = 0
  · left
    refine ⟨?_, hptr⟩
    simp only [HeapClients.take, kzalloc_eq, heapStep, hptr, if_true, ne_eq, not_true_eq_false,
      if_false]
  · right
    refine ⟨_, rfl, hptr, ?_, ?_⟩
    · simp only [heapStep, hptr, if_false]
      exact List.mem_cons_self
    · simp only [HeapClients.take, HeapClients.overlay, kzalloc_eq, heapStep, hptr, ne_eq,
        not_false_eq_true, if_true, if_false]

/-- Memory that is returned cleared is memory like any other. -/
theorem HeapInv.cleared (h : HeapInv s ts) (P : Pager π) (size : UInt64) :
    ∃ ts', HeapInv (s.take (kzalloc P s.heap size) size) ts' := by
  obtain ⟨ts', h'⟩ := h.kalloc P size
  refine ⟨ts', ?_⟩
  rcases take_kzalloc P s size with ⟨heq, _⟩ | ⟨ptr, _, _, hmem, heq⟩
  · rw [heq]
    exact h'
  · rw [heq]
    exact h'.overlay P hmem _ (Nat.le_refl _)

end cleared

/-- The invariant of the heap holds in every state clients can reach, also when they ask for
    cleared memory. -/
theorem heapInv_storageStep {P : Pager π} {s : HeapClients π} {ts : List Tile} (h : HeapInv s ts)
    {call : StorageCall π} (hguard : StorageGuard s call) :
    ∃ ts', HeapInv (storageStep P s call).2 ts' := by
  cases call with
  | heap call => exact heapInv_step h P hguard
  | kzalloc size => exact h.cleared P size
  | allocObjectStorage objectType size =>
    simp only [storageStep, allocObjectStorage]
    split
    · exact ⟨ts, h⟩
    · exact h.cleared P size

/-! ## What is stored -/

/-- The address `x` is one of the `size` bytes at `ptr`, which is not null. -/
def WithinBlock (ptr : Nat) (size : UInt64) (x : Nat) : Prop :=
  ptr ≠ 0 ∧ ptr ≤ x ∧ x < ptr + size.toNat

instance (ptr : Nat) (size : UInt64) (x : Nat) : Decidable (WithinBlock ptr size x) :=
  inferInstanceAs (Decidable (_ ∧ _))

/-- The same is said of all bytes of what was returned; of nothing, when that is null. -/
def sayAll (known : Nat → Option UInt8) (ptr : Nat) (size : UInt64) (value : Option UInt8) :
    Nat → Option UInt8 :=
  fun x => if WithinBlock ptr size x then value else known x

/-- What a call and its answer say about the bytes, where `known` was said before. -/
def learn (known : Nat → Option UInt8) : StorageCall π × Nat → Nat → Option UInt8
  | (.heap (.kalloc size), ptr) => sayAll known ptr size none
  | (.heap (.write addr byte), _) => Function.update known addr (some byte)
  | (.heap (.kfree _), _) => known
  | (.heap (.pager _), _) => known
  | (.kzalloc size, ptr) => sayAll known ptr size (some 0)
  | (.allocObjectStorage _ size, ptr) => sayAll known ptr size (some 0)

/-- The byte at `x` as the calls of a run have it: the last one written there, or zero when
    the byte was cleared since; nothing when it was allocated without being cleared. -/
def lastStored (log : List (StorageCall π × Nat)) : Nat → Option UInt8 :=
  log.foldl learn fun _ => none

theorem lastStored_concat (log : List (StorageCall π × Nat)) (entry : StorageCall π × Nat) :
    lastStored (log ++ [entry]) = learn (lastStored log) entry := by
  unfold lastStored
  rw [List.foldl_append]
  rfl

/-- All bytes of what clients hold are as `known` says. -/
def HoldsKnown (s : HeapClients π) (known : Nat → Option UInt8) : Prop :=
  ∀ p n, (p, n) ∈ s.live → ∀ x, p ≤ x → x < p + n.toNat →
    ∀ byte, known x = some byte → s.heap.mem x = byte

section knowledge

variable {P : Pager π} {s : HeapClients π} {ts : List Tile} {known : Nat → Option UInt8} {ptr x : Nat}
  {size : UInt64} {value : Option UInt8}

theorem sayAll_within (h : WithinBlock ptr size x) : sayAll known ptr size value x = value := if_pos h

theorem sayAll_outside (h : ¬ WithinBlock ptr size x) : sayAll known ptr size value x = known x :=
  if_neg h

theorem sayAll_null : sayAll known 0 size value = known :=
  funext fun _ => sayAll_outside fun h => h.1 rfl

/-- What is held before and after a call that writes nothing is as it was known. -/
theorem HoldsKnown.kept (hk : HoldsKnown s known) (h : HeapInv s ts) {call : HeapCall π}
    (hguard : HeapGuard s call) (hcall : ∀ a b, call ≠ .write a b) {p : Nat} {n : UInt64}
    (hmem : (p, n) ∈ s.live) (hmem' : (p, n) ∈ (heapStep P s call).2.live) (hlo : p ≤ x)
    (hhi : x < p + n.toNat) {byte : UInt8} (hbyte : known x = some byte) :
    (heapStep P s call).2.heap.mem x = byte := by
  obtain ⟨_, _, _, hn⟩ := h.of_live hmem
  rw [h.keeps P hguard hcall hmem hmem' hlo (by omega)]
  exact hk p n hmem x hlo hhi byte hbyte

/-- What was allocated is new, and nothing is known of it. -/
theorem HoldsKnown.kalloc (hk : HoldsKnown s known) (h : HeapInv s ts) (size : UInt64) :
    HoldsKnown (heapStep P s (.kalloc size)).2 (sayAll known (Scdk.kalloc P s.heap size).1 size none) := by
  intro p n hmem' x hlo hhi byte hbyte
  by_cases hin : WithinBlock (Scdk.kalloc P s.heap size).1 size x
  · rw [sayAll_within hin] at hbyte
    cases hbyte
  rw [sayAll_outside hin] at hbyte
  -- What holds another byte was held before.
  have hmem : (p, n) ∈ s.live := by
    have hlive := hmem'
    simp only [heapStep] at hlive
    split at hlive
    · exact hlive
    · next hptr =>
      rcases List.mem_cons.mp hlive with heq | hold
      · obtain ⟨rfl, rfl⟩ := Prod.mk.inj heq
        exact absurd ⟨hptr, hlo, hhi⟩ hin
      · exact hold
  have hguard : HeapGuard s (.kalloc size) := trivial
  exact hk.kept h hguard (by simp) hmem hmem' hlo hhi hbyte

/-- A call of the heap leaves what is held, so what was known of it is still so. -/
theorem HoldsKnown.heap (hk : HoldsKnown s known) (h : HeapInv s ts) {call : HeapCall π}
    (hguard : HeapGuard s call) :
    HoldsKnown (heapStep P s call).2 (learn known (.heap call, (heapStep P s call).1)) := by
  cases call with
  | kalloc size => exact hk.kalloc h size
  | kfree ptr =>
    intro p n hmem' x hlo hhi byte hbyte
    have hmem : (p, n) ∈ s.live := (List.mem_filter.mp hmem').1
    exact hk.kept h hguard (by simp) hmem hmem' hlo hhi hbyte
  | write addr b =>
    intro p n hmem x hlo hhi byte hbyte
    simp only [learn] at hbyte
    simp only [heapStep, store_byte]
    by_cases heq : x = addr
    · rw [heq, Function.update_self] at hbyte ⊢
      exact Option.some.inj hbyte
    · rw [Function.update_of_ne heq] at hbyte ⊢
      exact hk p n hmem x hlo hhi byte hbyte
  | pager q => exact hk

/-- Memory returned cleared is known to be zero, and what else is held is as before. -/
theorem HoldsKnown.cleared (hk : HoldsKnown s known) (h : HeapInv s ts) (size : UInt64) :
    HoldsKnown (s.take (kzalloc P s.heap size) size)
      (sayAll known (kzalloc P s.heap size).1 size (some 0)) := by
  have hptr : (kzalloc P s.heap size).1 = (Scdk.kalloc P s.heap size).1 := rfl
  have hbase := hk.kalloc (P := P) h size
  rw [hptr]
  rcases take_kzalloc P s size with ⟨heq, hnull⟩ | ⟨ptr, hptr', _, _, heq⟩
  · rw [hnull, sayAll_null] at hbase ⊢
    rw [heq]
    exact hbase
  · rw [hptr'] at hbase ⊢
    rw [heq]
    intro p n hmem x hlo hhi byte hbyte
    by_cases hin : WithinBlock ptr size x
    · rw [sayAll_within hin] at hbyte
      cases hbyte
      rw [mem_overlay]
      exact Memory.overlay_of_mem hin.2
    · have hout : x < ptr ∨ ptr + size.toNat ≤ x := by
        by_contra hnot
        exact hin ⟨by assumption, by omega⟩
      rw [mem_overlay, Memory.overlay_of_not_mem hout]
      apply hbase p n hmem x hlo hhi
      rw [sayAll_outside hin] at hbyte ⊢
      exact hbyte

/-- One more call. -/
theorem HoldsKnown.step (hk : HoldsKnown s known) (h : HeapInv s ts) {call : StorageCall π}
    (hguard : StorageGuard s call) :
    HoldsKnown (storageStep P s call).2 (learn known (call, (storageStep P s call).1)) := by
  cases call with
  | heap call => exact hk.heap h hguard
  | kzalloc size => exact hk.cleared h size
  | allocObjectStorage objectType size =>
    simp only [storageStep, allocObjectStorage, learn]
    split
    · -- Refused: null, and nothing is learnt.
      rw [sayAll_null]
      exact hk
    · exact hk.cleared h size

end knowledge

/-- **Objects keep their bytes.**  Whatever the page allocator and the page tables do, and in
    whatever order clients allocate, free and write, every byte that a client holds is the
    one that was last stored there: zero in memory that was returned cleared, whatever it was
    used for before. -/
theorem storage_reads_back {P : Pager π} {log : List (StorageCall π × Nat)} {s : HeapClients π}
    (hrun : (storageSystem P).RunWhen StorageGuard log s) :
    ∀ p n, (p, n) ∈ s.live → ∀ x, p ≤ x → x < p + n.toNat →
      ∀ byte, lastStored log x = some byte → s.heap.mem x = byte := by
  -- By induction on the run, with the invariant of the heap.
  have hboth : (∃ ts, HeapInv s ts) ∧ HoldsKnown s (lastStored log) := by
    induction hrun with
    | init hinit => exact ⟨heapInv_init hinit, fun _ _ _ _ _ _ _ hnone => nomatch hnone⟩
    | step call _ hguard ih =>
      obtain ⟨⟨ts, h⟩, hk⟩ := ih
      refine ⟨heapInv_storageStep h hguard, ?_⟩
      rw [lastStored_concat]
      exact hk.step h hguard
  exact hboth.2

/-- A pager that always succeeds and maps pages full of old data. -/
def dirtyPager : Pager Unit := { zeroPager with view := fun _ _ => 0xaa }

/-- The storage of a service on such pages, after its second byte was written. -/
theorem storage_reads_back_service :
    ∃ log s, (storageSystem dirtyPager).RunWhen StorageGuard log s ∧
      s.live = [(heapBase + 48, 32)] ∧
      s.heap.mem (heapBase + 48) = 0 ∧ s.heap.mem (heapBase + 49) = 9 := by
  have hinit : (storageSystem dirtyPager).init ⟨(heapInit dirtyPager Heap.zero).2, []⟩ := by
    refine ⟨rfl, Heap.zero, Prod.ext ?_ rfl⟩
    decide +kernel
  have hstart : (storageSystem dirtyPager).RunWhen StorageGuard [] _ := .init hinit
  have halloc := System.RunWhen.step (StorageCall.allocObjectStorage ObjType.service 32) hstart trivial
  have hlive : ((storageSystem dirtyPager).step ⟨(heapInit dirtyPager Heap.zero).2, []⟩
      (.allocObjectStorage ObjType.service 32)).2.live = [(heapBase + 48, 32)] := by
    decide +kernel
  have hheld : (heapBase + 48, 32) ∈ ((storageSystem dirtyPager).step
      ⟨(heapInit dirtyPager Heap.zero).2, []⟩ (.allocObjectStorage ObjType.service 32)).2.live := by
    rw [hlive]
    exact List.mem_singleton.mpr rfl
  have hwrite := halloc.step (StorageCall.heap (.write (heapBase + 49) 9))
    ⟨heapBase + 48, 32, hheld, by decide, by decide⟩
  have hread := storage_reads_back hwrite (heapBase + 48) 32 hheld
  refine ⟨_, _, hwrite, hlive, ?_, ?_⟩
  · exact hread (heapBase + 48) (by decide) (by decide) 0 (by decide +kernel)
  · exact hread (heapBase + 49) (by decide) (by decide) 9 (by decide +kernel)

end Scdk
