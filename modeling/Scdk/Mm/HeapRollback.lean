import Scdk.Mm.HeapSafety
import Scdk.Mm.Paging
import Mathlib.Data.Finset.Union

/-! # Failed extensions of the heap

    `map_heap_pages` has two places to fail at each page.  When the page cannot be
    mapped it takes back what it has mapped; when there is no page to map it returns
    at once.  This file says what a failed extension leaves behind.

    * `cost`: the pages that the first rounds of the loop take, with the tables,
    * `Rounds`: the state after so many rounds; `Rounds.next`: one round,
    * `rounds_run`: the loop comes to every round for which there are pages,
    * `HeapMapped.unmapAll`: what the inner loop takes back,
    * `extension_rolled_back`: a failed extension leaves no trace if and only if the
      stack does not run out between two pages, and the allocator takes back the pages
      it gave. -/

namespace Scdk

open Radix

/-! ## The pages of an extension -/

/-- The page allocator and the page tables, as the heap sees them. -/
def pagingPager (view : Paging → Memory) : Pager Paging where
  pageAlloc := Paging.pageAlloc
  pageFree := Paging.pageFree
  mapPage := Paging.mapPage
  unmapPage := Paging.unmapPage
  virtToPhys := Paging.virtToPhys
  view := view

/-- The pages that `map_heap_pages` gets from `scdk_page_alloc`. -/
def heapPagesTaken {π : Type} (P : Pager π) (base : Nat) : Nat → Nat → π → List UInt64
  | _, 0, _ => []
  | n, left + 1, pager =>
    match P.pageAlloc pager with
    | (.error _, _) => []
    | (.ok phys, pager) =>
      match P.mapPage pager (UInt64.ofNat (base + n * pageSize)) phys vmmMapWrite with
      | (.error _, _) => [phys]
      | (.ok _, pager) => phys :: heapPagesTaken P base (n + 1) left pager

/-- The address of a page of the extension. -/
def heapPage (base i : Nat) : UInt64 := UInt64.ofNat (base + i * pageSize)

/-- The extension lies in the range of the heap. -/
structure InHeap (base n : Nat) : Prop where
  low : heapBase ≤ base
  aligned : base % 4096 = 0
  high : base + n * pageSize ≤ heapBase + heapSize

/-- The tables that the first pages need. -/
def heapTables (base n : Nat) : Finset (List (Fin 512)) :=
  (Finset.range n).biUnion fun i => pathTables (heapPage base i)

/-- What the first `n` pages take from the stack: themselves and the missing tables. -/
def cost (s : Paging) (base n : Nat) : Nat := n + s.missing (heapTables base n)

section pages

variable {base n : Nat}

theorem toNat_heapPage (h : InHeap base n) {i : Nat} (hi : i < n) :
    (heapPage base i).toNat = base + i * 4096 := by
  have hhigh := h.high
  have htop : heapBase + heapSize < 2 ^ 64 := by decide
  have hsize : pageSize = 4096 := rfl
  have hle : i * 4096 + 4096 ≤ n * 4096 := by omega
  unfold heapPage
  rw [UInt64.toNat_ofNat', hsize, Nat.mod_eq_of_lt]
  rw [hsize] at hhigh
  omega

theorem heapPage_aligned (h : InHeap base n) {i : Nat} (hi : i < n) :
    (heapPage base i).toNat % 4096 = 0 := by
  have := h.aligned
  rw [toNat_heapPage h hi]
  omega

/-- The pages of an extension have different indices. -/
theorem heapPage_indices (h : InHeap base n) {i j : Nat} (hi : i < n) (hj : j < n)
    (hsame : tablePath (heapPage base i) = tablePath (heapPage base j) ∧
      ptIndex (heapPage base i) = ptIndex (heapPage base j)) : i = j := by
  have hpage := indices_eq_iff.mp hsame
  have haligned := h.aligned
  have hlow := h.low
  have hhigh := h.high
  have hsize : pageSize = 4096 := rfl
  have hlast : heapBase + heapSize ≤ 2 ^ 64 := by decide
  have hfirst : 2 ^ 64 - 2 ^ 47 ≤ heapBase := by decide
  rw [toNat_heapPage h hi, toNat_heapPage h hj] at hpage
  rw [hsize] at hhigh
  omega

end pages

theorem heapTables_succ (base n : Nat) :
    heapTables base (n + 1) = heapTables base n ∪ pathTables (heapPage base n) := by
  unfold heapTables
  rw [Finset.range_add_one, Finset.biUnion_insert, Finset.union_comm]

theorem cost_zero (s : Paging) (base : Nat) : cost s base 0 = 0 := by
  simp [cost, heapTables, Paging.missing, missingTables]

/-- A further page costs at least itself. -/
theorem cost_lt_succ (s : Paging) (base n : Nat) : cost s base n < cost s base (n + 1) := by
  have hle : s.missing (heapTables base n) ≤ s.missing (heapTables base (n + 1)) := by
    apply Finset.card_le_card
    apply Finset.filter_subset_filter
    rw [heapTables_succ]
    exact Finset.subset_union_left
  unfold cost
  omega

theorem cost_strictMono (s : Paging) (base : Nat) : StrictMono (cost s base) :=
  strictMono_nat_of_lt_succ (cost_lt_succ s base)

/-- Four pages for each page are enough. -/
theorem cost_le (s : Paging) (base n : Nat) : cost s base n ≤ 4 * n := by
  have hthree : ∀ virt, (pathTables virt).card ≤ 3 := fun virt => Finset.card_le_three
  have hcard : (heapTables base n).card ≤ 3 * n := by
    induction n with
    | zero => simp [heapTables]
    | succ n ih =>
      have hunion := Finset.card_union_le (heapTables base n) (pathTables (heapPage base n))
      have := hthree (heapPage base n)
      rw [heapTables_succ]
      omega
  have hle : s.missing (heapTables base n) ≤ (heapTables base n).card :=
    Finset.card_le_card (Finset.filter_subset _ _)
  unfold cost
  omega

/-! ## The rounds -/

/-- The first `k` pages of the extension are mapped, to the pages of the stack that
    they cost; all else is as in `s₀`. -/
structure HeapMapped (s₀ : Paging) (roots : UInt64 → Prop) (base k : Nat) (s : Paging) : Prop where
  registers : SameRegisters s₀ s
  same : SamePath (childOf s.vmm.tables) roots AllPaths
  unmapped : ∀ i < k, s₀.virtToPhys (heapPage base i) = .error .noent
  entry : ∀ i < k, ∃ phys, s₀.pmm.pageStack[cost s₀ base i]? = some phys ∧
    s.lookup (heapPage base i) = .ok (leafEntry phys vmmMapWrite)
  others : ∀ x, (∀ i < k, ¬ (tablePath x = tablePath (heapPage base i) ∧
    ptIndex x = ptIndex (heapPage base i))) → s.lookup x = s₀.lookup x

/-- The state after `n` rounds of `map_heap_pages`. -/
structure Rounds (s₀ : Paging) (roots : UInt64 → Prop) (base n : Nat) (s : Paging) : Prop
    extends HeapMapped s₀ roots base n s where
  ok : PagingOk roots s
  enough : cost s₀ base n ≤ s₀.pmm.pageStack.length
  stack : s.pmm.pageStack = s₀.pmm.pageStack.drop (cost s₀ base n)
  tables : ∀ q, AllPaths q → (walk (childOf s.vmm.tables) s₀.vmm.activeCr3Phys q = none ↔
    walk (childOf s₀.vmm.tables) s₀.vmm.activeCr3Phys q = none ∧ q ∉ heapTables base n)

section rounds

variable {s₀ s : Paging} {roots : UInt64 → Prop} {base n N : Nat}

theorem rounds_zero (h : PagingOk roots s₀) : Rounds s₀ roots base 0 s₀ where
  registers := .refl s₀
  same := h.same
  unmapped := fun i hi => absurd hi (Nat.not_lt_zero i)
  entry := fun i hi => absurd hi (Nat.not_lt_zero i)
  others := fun _ _ => rfl
  ok := h
  enough := by simp [cost_zero]
  stack := by simp [cost_zero]
  tables := by simp [heapTables]

/-- The pages behind the first ones are as in `s₀`. -/
theorem HeapMapped.virtToPhys_next (h : HeapMapped s₀ roots base n s)
    (hheap : InHeap base N) {j : Nat} (hj : n ≤ j) (hlt : j < N) :
    s.virtToPhys (heapPage base j) = s₀.virtToPhys (heapPage base j) := by
  apply h.registers.virtToPhys
  apply h.others
  intro i hi hsame
  have := heapPage_indices hheap hlt (Nat.lt_trans hi (Nat.lt_of_le_of_lt hj hlt)) hsame
  omega

/-- What the next page costs, in the state after the rounds before it. -/
theorem Rounds.cost_succ (h : Rounds s₀ roots base n s) {s₁ : Paging} (hvmm : s₁.vmm = s.vmm) :
    cost s₀ base n + 1 + s₁.missing (pathTables (heapPage base n)) = cost s₀ base (n + 1) := by
  have hcr3 := h.registers.cr3
  have hmissing : missingTables s.vmm.tables s₀.vmm.activeCr3Phys (pathTables (heapPage base n)) =
      missingTables s₀.vmm.tables s₀.vmm.activeCr3Phys (pathTables (heapPage base n)) \
        missingTables s₀.vmm.tables s₀.vmm.activeCr3Phys (heapTables base n) := by
    ext q
    simp only [missingTables, Finset.mem_sdiff, Finset.mem_filter]
    constructor
    · rintro ⟨hmem, hnone⟩
      obtain ⟨hnone₀, hnot⟩ := (h.tables q (allPaths_pathTables hmem)).mp hnone
      exact ⟨⟨hmem, hnone₀⟩, fun hq => hnot hq.1⟩
    · rintro ⟨⟨hmem, hnone₀⟩, hnot⟩
      exact ⟨hmem, (h.tables q (allPaths_pathTables hmem)).mpr ⟨hnone₀, fun hq => hnot ⟨hq, hnone₀⟩⟩⟩
  have hunion : missingTables s₀.vmm.tables s₀.vmm.activeCr3Phys (heapTables base (n + 1)) =
      missingTables s₀.vmm.tables s₀.vmm.activeCr3Phys (pathTables (heapPage base n)) ∪
        missingTables s₀.vmm.tables s₀.vmm.activeCr3Phys (heapTables base n) := by
    unfold missingTables
    rw [heapTables_succ, Finset.filter_union, Finset.union_comm]
  unfold cost Paging.missing
  rw [hvmm, hcr3, hmissing, hunion, ← Finset.card_sdiff_add_card]
  omega

/-- The state between the two calls of a round. -/
structure Taken (s₀ : Paging) (roots : UInt64 → Prop) (base n : Nat) (s : Paging) (phys : UInt64)
    (s₁ : Paging) : Prop where
  page : s₀.pmm.pageStack[cost s₀ base n]? = some phys
  frame : FrameOk phys
  ok : PagingOk roots s₁
  vmm : s₁.vmm = s.vmm
  registers : SameRegisters s s₁
  stack : s₁.pmm.pageStack = s₀.pmm.pageStack.drop (cost s₀ base n + 1)

/-- The first call of a round fails exactly if the stack is empty. -/
theorem Rounds.pageAlloc (h : Rounds s₀ roots base n s) (hinit : s₀.pmm.initialized = true) :
    (∃ e, s.pageAlloc = (.error e, s) ∧ cost s₀ base n = s₀.pmm.pageStack.length) ∨
      ∃ phys s₁, s.pageAlloc = (.ok phys, s₁) ∧ cost s₀ base n < s₀.pmm.pageStack.length ∧
        Taken s₀ roots base n s phys s₁ := by
  have henough := h.enough
  have hstack := h.stack
  have hinit' : ¬ s.pmm.initialized = false := by
    rw [h.registers.pmmInit, hinit]
    decide
  unfold Paging.pageAlloc Pmm.pageAlloc
  rw [if_neg hinit']
  cases hs : s.pmm.pageStack with
  | nil =>
    left
    rw [hs] at hstack
    have := List.drop_eq_nil_iff.mp hstack.symm
    exact ⟨.nomem, rfl, by omega⟩
  | cons phys rest =>
    right
    rw [hs] at hstack
    have hpage : s₀.pmm.pageStack[cost s₀ base n]? = some phys := by
      rw [← List.head?_drop, ← hstack]
      rfl
    have hrest : rest = s₀.pmm.pageStack.drop (cost s₀ base n + 1) := by
      rw [← List.drop_drop, ← hstack]
      rfl
    have hfresh := h.ok.fresh
    rw [hs] at hfresh
    obtain ⟨hphys, _, htail⟩ := hfresh.head
    refine ⟨phys, _, rfl, List.getElem?_eq_some_iff.mp hpage |>.1, hpage, hphys.ok,
      ⟨h.ok.active, h.ok.same, htail⟩, rfl, ⟨rfl, rfl, rfl, rfl, rfl⟩, hrest⟩

/-- A round whose page was not mapped before leaves one more page mapped. -/
theorem Rounds.mapped (h : Rounds s₀ roots base n s) (hheap : InHeap base N) (hn : n < N)
    {phys : UInt64} {s₁ s₂ : Paging} (ht : Taken s₀ roots base n s phys s₁)
    (hnoent : s₀.virtToPhys (heapPage base n) = .error .noent)
    (henough : s₁.missing (pathTables (heapPage base n)) ≤ s₁.pmm.pageStack.length)
    (hmapped : MappedPage roots s₁ s₂ (heapPage base n) phys vmmMapWrite) :
    Rounds s₀ roots base (n + 1) s₂ where
  registers := (h.registers.trans ht.registers).trans hmapped.registers
  same := hmapped.ok.same
  unmapped := by
    intro i hi
    rcases Nat.lt_succ_iff_lt_or_eq.mp hi with hlt | rfl
    · exact h.unmapped i hlt
    · exact hnoent
  entry := by
    intro i hi
    rcases Nat.lt_succ_iff_lt_or_eq.mp hi with hlt | rfl
    · -- an earlier page has other indices
      obtain ⟨phys', hphys', hentry⟩ := h.entry i hlt
      refine ⟨phys', hphys', ?_⟩
      unfold Paging.lookup at hentry ⊢
      rw [hmapped.registers.cr3, ht.registers.cr3, ← hentry, ← ht.vmm]
      apply hmapped.others _ _ (ht.vmm ▸ h.ok.active) (allPaths_tablePath _)
      intro hsame
      have := heapPage_indices hheap (Nat.lt_trans hlt hn) hn hsame
      omega
    · exact ⟨phys, ht.page, hmapped.entry⟩
  others := by
    intro x hne
    rw [← h.others x fun i hi => hne i (Nat.lt_succ_of_lt hi)]
    unfold Paging.lookup
    rw [hmapped.registers.cr3, ← ht.vmm]
    exact hmapped.others _ x ht.ok.active (allPaths_tablePath x) (hne n (Nat.lt_succ_self n))
  ok := hmapped.ok
  enough := by
    have hcost := h.cost_succ ht.vmm
    have hlt := (List.getElem?_eq_some_iff.mp ht.page).1
    rw [ht.stack, List.length_drop] at henough
    omega
  stack := by
    have hcost := h.cost_succ ht.vmm
    rw [hmapped.stack, ht.stack, List.drop_drop, hcost]
  tables := by
    intro q hq
    have hcr3 : s₁.vmm.activeCr3Phys = s₀.vmm.activeCr3Phys :=
      (h.registers.trans ht.registers).cr3
    have htables := hmapped.tables q hq
    rw [hcr3, ht.vmm, h.tables q hq] at htables
    rw [htables, heapTables_succ, Finset.mem_union, not_or, and_assoc]

/-- The second call of a round fails exactly if the page is mapped, or the stack has
    too few pages for its tables. -/
theorem Rounds.mapPage (h : Rounds s₀ roots base n s) (hinit : s₀.pmm.initialized = true)
    (hheap : InHeap base N) (hn : n < N) {phys : UInt64} {s₁ : Paging}
    (ht : Taken s₀ roots base n s phys s₁) :
    (∃ e, s₁.mapPage (heapPage base n) phys vmmMapWrite = (.error e, s₁) ∧
        s₀.virtToPhys (heapPage base n) ≠ .error .noent) ∨
      (∃ e s₂, s₁.mapPage (heapPage base n) phys vmmMapWrite = (.error e, s₂) ∧
        s₀.pmm.pageStack.length < cost s₀ base (n + 1) ∧ RanOut roots s₁ s₂) ∨
      ∃ s₂, s₁.mapPage (heapPage base n) phys vmmMapWrite = (.ok (), s₂) ∧
        Rounds s₀ roots base (n + 1) s₂ := by
  have hinit₁ : s₁.pmm.initialized = true := by
    rw [ht.registers.pmmInit, h.registers.pmmInit, hinit]
  have halign := heapPage_aligned hheap hn
  have hcost := h.cost_succ ht.vmm
  have hlen : s₁.pmm.pageStack.length = s₀.pmm.pageStack.length - (cost s₀ base n + 1) := by
    rw [ht.stack, List.length_drop]
  have hlt := (List.getElem?_eq_some_iff.mp ht.page).1
  have hbefore : s₁.virtToPhys (heapPage base n) = s₀.virtToPhys (heapPage base n) := by
    have hs := h.virtToPhys_next hheap (Nat.le_refl n) hn
    rw [← hs]
    unfold Paging.virtToPhys
    rw [ht.vmm]
  by_cases hnoent : s₀.virtToPhys (heapPage base n) = .error .noent
  · right
    rw [← hbefore] at hnoent
    rcases mapPage_noent ht.ok hinit₁ halign ((isPageAligned_iff phys).mpr ht.frame.1) hnoent with
      ⟨e, s₂, hrun, hshort, hout⟩ | ⟨s₂, hrun, henough, hmapped⟩
    · exact .inl ⟨e, s₂, hrun, by omega, hout⟩
    · exact .inr ⟨s₂, hrun, h.mapped hheap hn ht (hbefore ▸ hnoent) henough hmapped⟩
  · left
    obtain ⟨e, hrun⟩ := mapPage_refused halign (hbefore ▸ hnoent) phys vmmMapWrite
    exact ⟨e, hrun, hnoent⟩

end rounds

/-! ## Taking pages back -/

/-- The pages that `scdk_page_free` takes if they are not on the stack. -/
def Pmm.Returnable (m : Pmm) (phys : UInt64) : Prop :=
  m.isUsablePage phys = true ∧ m.isReservedPage phys = false

instance (m : Pmm) (phys : UInt64) : Decidable (m.Returnable phys) :=
  inferInstanceAs (Decidable (m.isUsablePage phys = true ∧ m.isReservedPage phys = false))

/-- The checks of a page look at the regions only. -/
theorem SameRegisters.returnable {s s' : Paging} (h : SameRegisters s s') (phys : UInt64) :
    s'.pmm.Returnable phys ↔ s.pmm.Returnable phys := by
  unfold Pmm.Returnable Pmm.isReservedPage Pmm.isUsablePage
  rw [h.usable, h.reserved]

/-- A page that is not on the stack is on it afterwards exactly if it passes the
    checks. -/
theorem pageFree_stack {s : Paging} {phys : UInt64} (hinit : s.pmm.initialized = true)
    (hnot : phys ∉ s.pmm.pageStack) (hroom : s.pmm.pageStack.length < pmmMaxPages) :
    SameRegisters s (s.pageFree phys) ∧ (s.pageFree phys).vmm = s.vmm ∧
      (s.pageFree phys).pmm.pageStack.length ≤ s.pmm.pageStack.length + 1 ∧
      ∀ p, p ∈ (s.pageFree phys).pmm.pageStack ↔
        p ∈ s.pmm.pageStack ∨ p = phys ∧ s.pmm.Returnable phys := by
  unfold Paging.pageFree
  rcases s.pmm.pageFree_cases phys with ⟨hno, e, hrun⟩ | ⟨hyes, hrun⟩
  · have hkept : ¬ s.pmm.Returnable phys := fun hr => hno ⟨hinit, hr.1, hr.2, hnot, hroom⟩
    rw [hrun]
    exact ⟨.refl s, rfl, Nat.le_succ _, fun p => by simp [hkept]⟩
  · have hgood : s.pmm.Returnable phys := ⟨hyes.usable, hyes.notReserved⟩
    rw [hrun]
    refine ⟨⟨rfl, rfl, rfl, rfl, rfl⟩, rfl, Nat.le_refl _, fun p => ?_⟩
    simp [hgood, or_comm]

/-- The state in the inner loop of `map_heap_pages`, with `k` pages to go. -/
structure Unwinding (s₀ : Paging) (roots : UInt64 → Prop) (base k : Nat) (s : Paging) : Prop
    extends HeapMapped s₀ roots base k s where
  away : ∀ i < k, ∀ p, s₀.pmm.pageStack[cost s₀ base i]? = some p → p ∉ s.pmm.pageStack
  room : s.pmm.pageStack.length + k ≤ pmmMaxPages

section unwind

variable {s₀ s : Paging} {roots : UInt64 → Prop} {base k N : Nat} (view : Paging → Memory)

theorem PagingOk.stack_nodup (h : PagingOk roots s) : s.pmm.pageStack.Nodup := by
  have hnodup := h.fresh.nodup
  rwa [List.filterMap_map, List.filterMap_congr (g := some) (by intro x _; rfl),
    List.filterMap_some] at hnodup

theorem PagingOk.stack_frame (h : PagingOk roots s) {p : UInt64} (hp : p ∈ s.pmm.pageStack) :
    FrameOk p := by
  have hmem : p ∈ (s.pmm.pageStack.map Except.ok : PageSupply).filterMap Except.toOption := by
    rw [List.mem_filterMap]
    exact ⟨.ok p, List.mem_map_of_mem hp, rfl⟩
  exact (h.fresh.fresh p hmem).ok

/-- Two pages of the extension are two pages of the stack. -/
theorem cost_page_inj (h : PagingOk roots s₀) {i j : Nat} {p : UInt64}
    (hi : s₀.pmm.pageStack[cost s₀ base i]? = some p)
    (hj : s₀.pmm.pageStack[cost s₀ base j]? = some p) : i = j := by
  have hlt := (List.getElem?_eq_some_iff.mp hi).1
  have heq := (List.getElem?_inj hlt h.stack_nodup).mp (hi.trans hj.symm)
  exact (cost_strictMono s₀ base).injective heq

/-- A page of the extension that is mapped passes the checks, and is found. -/
theorem HeapMapped.found (h : HeapMapped s₀ roots base k s) (hok : PagingOk roots s₀) (hheap : InHeap base N)
    {i : Nat} (hi : i < k) (hN : i < N) :
    ∃ phys, s₀.pmm.pageStack[cost s₀ base i]? = some phys ∧
      s.lookup (heapPage base i) = .ok (leafEntry phys vmmMapWrite) ∧
      validateRoot s.vmm s.vmm.activeCr3Phys = .ok () ∧
      validateVmmAddress s.vmm (heapPage base i) = .ok () ∧
      s.virtToPhys (heapPage base i) = .ok phys := by
  obtain ⟨phys, hphys, hentry⟩ := h.entry i hi
  have halign := heapPage_aligned hheap hN
  have hframe := hok.stack_frame (List.mem_of_getElem? hphys)
  obtain ⟨hroot₀, haddr₀, _⟩ := (virtToPhys_noent halign).mp (h.unmapped i hi)
  have hroot : validateRoot s.vmm s.vmm.activeCr3Phys = .ok () := by
    unfold validateRoot at hroot₀ ⊢
    rw [h.registers.vmmInit, h.registers.cr3]
    exact hroot₀
  have haddr : validateVmmAddress s.vmm (heapPage base i) = .ok () := by
    unfold validateVmmAddress at haddr₀ ⊢
    rw [h.registers.vmmInit]
    exact haddr₀
  exact ⟨phys, hphys, hentry, hroot, haddr, virtToPhys_entry halign hroot haddr hframe hentry⟩

/-- **One round of the inner loop.** -/
theorem Unwinding.next (h : Unwinding s₀ roots base (k + 1) s) (hok : PagingOk roots s₀)
    (hinit : s₀.pmm.initialized = true) (hheap : InHeap base N) (hk : k + 1 ≤ N) :
    ∃ phys, s₀.pmm.pageStack[cost s₀ base k]? = some phys ∧
      s.virtToPhys (heapPage base k) = .ok phys ∧
      Unwinding s₀ roots base k ((s.unmapPage (heapPage base k)).pageFree phys) ∧
      ∀ p, p ∈ ((s.unmapPage (heapPage base k)).pageFree phys).pmm.pageStack ↔
        p ∈ s.pmm.pageStack ∨ p = phys ∧ s₀.pmm.Returnable phys := by
  obtain ⟨phys, hphys, hentry, hroot, haddr, hfound⟩ := h.found hok hheap (Nat.lt_succ_self k) hk
  have hactive : roots s.vmm.activeCr3Phys := h.registers.cr3 ▸ hok.active
  have hnoent₀ := ((virtToPhys_noent (heapPage_aligned hheap hk)).mp
    (h.unmapped k (Nat.lt_succ_self k))).2.2
  obtain ⟨hpmm, hreg, hsame, hothers, hgone⟩ := unmapPage_entry hactive h.same hroot haddr hentry
  have haway := h.away k (Nat.lt_succ_self k) phys hphys
  have hroom := h.room
  have hreg' := h.registers.trans hreg
  -- The page goes back to the stack it was taken from, so there is room for it.
  obtain ⟨hregf, hvmmf, hlenf, hmemf⟩ := pageFree_stack (s := s.unmapPage (heapPage base k))
    (hreg'.pmmInit.trans hinit) (by rw [hpmm]; exact haway) (by rw [hpmm]; omega)
  rw [hpmm] at hlenf hmemf
  have hmem : ∀ p, p ∈ ((s.unmapPage (heapPage base k)).pageFree phys).pmm.pageStack ↔
      p ∈ s.pmm.pageStack ∨ p = phys ∧ s₀.pmm.Returnable phys := by
    intro p
    rw [hmemf p, h.registers.returnable]
  refine ⟨phys, hphys, hfound,
    ⟨⟨hreg'.trans hregf, hvmmf ▸ hsame, fun i hi => h.unmapped i (Nat.lt_succ_of_lt hi), ?_, ?_⟩,
      ?_, by omega⟩, hmem⟩
  · intro i hi
    obtain ⟨phys', hphys', hentry'⟩ := h.entry i (Nat.lt_succ_of_lt hi)
    refine ⟨phys', hphys', ?_⟩
    unfold Paging.lookup at hentry' ⊢
    rw [hregf.cr3, hreg.cr3, hvmmf, ← hentry']
    apply hothers _ _ hactive (allPaths_tablePath _)
    intro hsame
    have := heapPage_indices hheap (by omega) hk hsame
    omega
  · -- the entry of the page itself is absent, as it was
    intro x hne
    have hlookup : ((s.unmapPage (heapPage base k)).pageFree phys).lookup x =
        (s.unmapPage (heapPage base k)).lookup x := by
      unfold Paging.lookup
      rw [hvmmf]
    rw [hlookup]
    by_cases hself : tablePath x = tablePath (heapPage base k) ∧ ptIndex x = ptIndex (heapPage base k)
    · have hentries : ∀ t : Paging, t.lookup x = t.lookup (heapPage base k) := by
        intro t
        unfold Paging.lookup lookupEntry
        rw [hself.1, hself.2]
      rw [hentries, hentries, hgone, hnoent₀]
    · have hkept : (s.unmapPage (heapPage base k)).lookup x = s.lookup x := by
        unfold Paging.lookup
        rw [hreg.cr3]
        exact hothers _ x hactive (allPaths_tablePath x) hself
      rw [hkept]
      apply h.others x
      intro i hi
      rcases Nat.lt_succ_iff_lt_or_eq.mp hi with hlt | rfl
      · exact hne i hlt
      · exact hself
  · intro i hi p hp hmemp
    rcases (hmem p).mp hmemp with hold | ⟨rfl, _⟩
    · exact h.away i (Nat.lt_succ_of_lt hi) p hp hold
    · have := cost_page_inj hok hp hphys
      omega

/-- **What the inner loop takes back.**  All pages are unmapped again, and those that
    pass the checks are on the stack. -/
theorem Unwinding.all (hok : PagingOk roots s₀) (hinit : s₀.pmm.initialized = true)
    (hheap : InHeap base N) : ∀ (k : Nat) (s : Paging), Unwinding s₀ roots base k s → k ≤ N →
    HeapMapped s₀ roots base 0 (unmapHeapPages (pagingPager view) base k s) ∧
      ∀ p, p ∈ (unmapHeapPages (pagingPager view) base k s).pmm.pageStack ↔
        p ∈ s.pmm.pageStack ∨
          ∃ i < k, s₀.pmm.pageStack[cost s₀ base i]? = some p ∧ s₀.pmm.Returnable p := by
  intro k
  -- The pages are unmapped from the last one down.
  induction k with
  | zero =>
    intro s h _
    refine ⟨h.toHeapMapped, fun p => ?_⟩
    simp [unmapHeapPages]
  | succ k ih =>
    intro s h hk
    obtain ⟨phys, hphys, hfound, hnext, hmem⟩ := h.next hok hinit hheap hk
    have hrun : unmapHeapPages (pagingPager view) base (k + 1) s =
        unmapHeapPages (pagingPager view) base k ((s.unmapPage (heapPage base k)).pageFree phys) := by
      have hfound' : (pagingPager view).virtToPhys s (UInt64.ofNat (base + k * pageSize)) = .ok phys :=
        hfound
      rw [unmapHeapPages]
      rw [hfound']
      rfl
    obtain ⟨hmapped, hall⟩ := ih _ hnext (Nat.le_of_succ_le hk)
    rw [hrun]
    refine ⟨hmapped, fun p => ?_⟩
    rw [hall p, hmem p]
    constructor
    · rintro ((hold | ⟨rfl, hgood⟩) | ⟨i, hi, hp, hgood⟩)
      · exact .inl hold
      · exact .inr ⟨k, Nat.lt_succ_self k, hphys, hgood⟩
      · exact .inr ⟨i, Nat.lt_succ_of_lt hi, hp, hgood⟩
    · rintro (hold | ⟨i, hi, hp, hgood⟩)
      · exact .inl (.inl hold)
      · rcases Nat.lt_succ_iff_lt_or_eq.mp hi with hlt | rfl
        · exact .inr ⟨i, hlt, hp, hgood⟩
        · obtain rfl := Option.some.inj (hphys.symm.trans hp)
          exact .inl (.inr ⟨rfl, hgood⟩)

/-- A page that was taken is not further down the stack. -/
theorem taken_not_mem (hok : PagingOk roots s₀) {i c : Nat} {p : UInt64}
    (hp : s₀.pmm.pageStack[i]? = some p) (hi : i < c) : p ∉ s₀.pmm.pageStack.drop c := by
  intro hmem
  obtain ⟨j, hj⟩ := List.mem_iff_getElem?.mp hmem
  rw [List.getElem?_drop] at hj
  have hlt := (List.getElem?_eq_some_iff.mp hp).1
  have := (List.getElem?_inj hlt hok.stack_nodup).mp (hp.trans hj.symm)
  omega

/-- **The mapping of a page has failed.**  What was given back for it is on the stack
    if it passes the checks, and the inner loop starts. -/
theorem Rounds.unwinding {n : Nat} (h : Rounds s₀ roots base n s) (hok : PagingOk roots s₀)
    (hinit : s₀.pmm.initialized = true) (hmax : s₀.pmm.pageStack.length ≤ pmmMaxPages)
    {phys : UInt64} {s₁ s₂ : Paging} (ht : Taken s₀ roots base n s phys s₁)
    (hreg : SameRegisters s₁ s₂) (hsame : SamePath (childOf s₂.vmm.tables) roots AllPaths)
    (hlookup : ∀ x, s₂.lookup x = s₁.lookup x) (hstack : s₂.pmm.pageStack <:+ s₁.pmm.pageStack) :
    Unwinding s₀ roots base n (s₂.pageFree phys) ∧
      ∀ p, p ∈ (s₂.pageFree phys).pmm.pageStack ↔
        p ∈ s₂.pmm.pageStack ∨ p = phys ∧ s₀.pmm.Returnable phys := by
  have hreg₂ := (h.registers.trans ht.registers).trans hreg
  have hlt := (List.getElem?_eq_some_iff.mp ht.page).1
  have hn : n ≤ cost s₀ base n := Nat.le_add_right _ _
  have hlen : s₂.pmm.pageStack.length ≤ s₀.pmm.pageStack.length - (cost s₀ base n + 1) := by
    have := hstack.length_le
    rwa [ht.stack, List.length_drop] at this
  -- the pages taken are not on the stack that is left
  have hgone : ∀ i ≤ n, ∀ p, s₀.pmm.pageStack[cost s₀ base i]? = some p → p ∉ s₂.pmm.pageStack := by
    intro i hi p hp hmem
    have hmem' := hstack.subset hmem
    rw [ht.stack] at hmem'
    have hle := (cost_strictMono s₀ base).monotone hi
    exact taken_not_mem hok hp (Nat.lt_succ_of_le hle) hmem'
  obtain ⟨hregf, hvmmf, hlenf, hmemf⟩ := pageFree_stack (hreg₂.pmmInit.trans hinit)
    (hgone n (Nat.le_refl n) phys ht.page) (by omega)
  have hlookup' : ∀ x, (s₂.pageFree phys).lookup x = s.lookup x := by
    intro x
    have hsl : (s₂.pageFree phys).lookup x = s₂.lookup x := by
      unfold Paging.lookup
      rw [hvmmf]
    rw [hsl, hlookup x]
    unfold Paging.lookup
    rw [ht.vmm]
  have hmem : ∀ p, p ∈ (s₂.pageFree phys).pmm.pageStack ↔
      p ∈ s₂.pmm.pageStack ∨ p = phys ∧ s₀.pmm.Returnable phys := by
    intro p
    rw [hmemf p, hreg₂.returnable]
  refine ⟨⟨⟨hreg₂.trans hregf, hvmmf ▸ hsame, h.unmapped, ?_, ?_⟩, ?_, by omega⟩, hmem⟩
  · intro i hi
    obtain ⟨phys', hphys', hentry⟩ := h.entry i hi
    exact ⟨phys', hphys', (hlookup' _).trans hentry⟩
  · intro x hne
    exact (hlookup' x).trans (h.others x hne)
  · intro i hi p hp hmemp
    rcases (hmem p).mp hmemp with hold | ⟨rfl, _⟩
    · exact hgone i (Nat.le_of_lt hi) p hp hold
    · have := cost_page_inj hok hp ht.page
      omega

end unwind

/-! ## Runs of the loop -/

/-- The loop comes to page `m`: the pages before it are not mapped, and the stack has
    what they cost. -/
def ReachesPage (s : Paging) (base m : Nat) : Prop :=
  (∀ i < m, s.virtToPhys (heapPage base i) = .error .noent) ∧ cost s base m ≤ s.pmm.pageStack.length

theorem reachesPage_zero (s : Paging) (base : Nat) : ReachesPage s base 0 :=
  ⟨fun i hi => absurd hi (Nat.not_lt_zero i), by simp [cost_zero]⟩

section run

variable {s₀ : Paging} {roots : UInt64 → Prop} {base N : Nat} (view : Paging → Memory)

/-- **The rounds that succeed.** -/
theorem rounds_run (hok : PagingOk roots s₀) (hinit : s₀.pmm.initialized = true)
    (hheap : InHeap base N) : ∀ (m : Nat), m ≤ N → ReachesPage s₀ base m →
    ∃ s, Rounds s₀ roots base m s ∧ ∀ left,
      mapHeapPagesFrom (pagingPager view) base 0 (m + left) s₀ =
        mapHeapPagesFrom (pagingPager view) base m left s ∧
      ∀ p, p ∈ heapPagesTaken (pagingPager view) base 0 (m + left) s₀ ↔
        (∃ i < m, s₀.pmm.pageStack[cost s₀ base i]? = some p) ∨
          p ∈ heapPagesTaken (pagingPager view) base m left s := by
  intro m
  -- By induction on the rounds: the next one cannot fail before page `m`.
  induction m with
  | zero =>
    intro _ _
    refine ⟨s₀, rounds_zero hok, fun left => ?_⟩
    rw [Nat.zero_add]
    exact ⟨rfl, fun p => by simp⟩
  | succ m ih =>
    intro hm hreach
    have hcost := cost_lt_succ s₀ base m
    have henough := hreach.2
    obtain ⟨s, hs, hruns⟩ := ih (Nat.le_of_succ_le hm)
      ⟨fun i hi => hreach.1 i (Nat.lt_succ_of_lt hi), by omega⟩
    rcases hs.pageAlloc hinit with ⟨_, _, hnone⟩ | ⟨phys, s₁, halloc, _, ht⟩
    · omega
    rcases hs.mapPage hinit hheap hm ht with ⟨_, _, hmapped⟩ | ⟨_, _, _, hshort, _⟩ | ⟨s₂, hmap, hnext⟩
    · exact absurd (hreach.1 m (Nat.lt_succ_self m)) hmapped
    · omega
    refine ⟨s₂, hnext, fun left => ?_⟩
    have halloc' : (pagingPager view).pageAlloc s = (.ok phys, s₁) := halloc
    have hmap' : (pagingPager view).mapPage s₁ (UInt64.ofNat (base + m * pageSize)) phys vmmMapWrite =
        (.ok (), s₂) := hmap
    obtain ⟨hrun, htaken⟩ := hruns (left + 1)
    rw [Nat.succ_add_eq_add_succ]
    constructor
    · rw [hrun, mapHeapPagesFrom, halloc']
      dsimp only
      rw [hmap']
    · intro p
      rw [htaken p, heapPagesTaken, halloc']
      dsimp only
      rw [hmap']
      dsimp only
      rw [List.mem_cons]
      constructor
      · rintro (⟨i, hi, hp⟩ | rfl | hrest)
        · exact .inl ⟨i, Nat.lt_succ_of_lt hi, hp⟩
        · exact .inl ⟨m, Nat.lt_succ_self m, ht.page⟩
        · exact .inr hrest
      · rintro (⟨i, hi, hp⟩ | hrest)
        · rcases Nat.lt_succ_iff_lt_or_eq.mp hi with hlt | rfl
          · exact .inl ⟨i, hlt, hp⟩
          · exact .inr (.inl (Option.some.inj (hp.symm.trans ht.page)))
        · exact .inr (.inr hrest)

/-- The loop ends if it comes to the last page, and else stops at some page. -/
theorem reachesPage_or (s₀ : Paging) (base : Nat) : ∀ (N : Nat), ReachesPage s₀ base N ∨
    ∃ m < N, ReachesPage s₀ base m ∧ ¬ ReachesPage s₀ base (m + 1) := by
  intro N
  induction N with
  | zero => exact .inl (reachesPage_zero s₀ base)
  | succ N ih =>
    rcases ih with hreach | ⟨m, hm, hstop⟩
    · by_cases hnext : ReachesPage s₀ base (N + 1)
      · exact .inl hnext
      · exact .inr ⟨N, Nat.lt_succ_self N, hreach, hnext⟩
    · exact .inr ⟨m, Nat.lt_succ_of_lt hm, hstop⟩

/-- All pages are mapped. -/
theorem map_succeeds (hok : PagingOk roots s₀) (hinit : s₀.pmm.initialized = true)
    (hheap : InHeap base N) (hreach : ReachesPage s₀ base N) :
    ∃ s, mapHeapPagesFrom (pagingPager view) base 0 N s₀ = (.ok (), s) := by
  obtain ⟨s, _, hruns⟩ := rounds_run view hok hinit hheap N (Nat.le_refl N) hreach
  exact ⟨s, (hruns 0).1⟩

/-- **The stack is empty at page `m`.**  The pages before it stay mapped. -/
theorem alloc_fails (hok : PagingOk roots s₀) (hinit : s₀.pmm.initialized = true)
    (hheap : InHeap base N) {m : Nat} (hm : m < N) (hreach : ReachesPage s₀ base m)
    (hempty : cost s₀ base m = s₀.pmm.pageStack.length) :
    ∃ e s, mapHeapPagesFrom (pagingPager view) base 0 N s₀ = (.error e, s) ∧
      Rounds s₀ roots base m s ∧
      ∀ p, p ∈ heapPagesTaken (pagingPager view) base 0 N s₀ ↔
        ∃ i < m, s₀.pmm.pageStack[cost s₀ base i]? = some p := by
  obtain ⟨left, rfl⟩ : ∃ left, N = m + (left + 1) := ⟨N - m - 1, by omega⟩
  obtain ⟨s, hs, hruns⟩ := rounds_run view hok hinit hheap m (Nat.le_of_lt hm) hreach
  obtain ⟨hrun, htaken⟩ := hruns (left + 1)
  rcases hs.pageAlloc hinit with ⟨e, halloc, _⟩ | ⟨_, _, _, hlt, _⟩
  · have halloc' : (pagingPager view).pageAlloc s = (.error e, s) := halloc
    refine ⟨e, s, ?_, hs, ?_⟩
    · rw [hrun, mapHeapPagesFrom, halloc']
    · intro p
      rw [htaken p, heapPagesTaken, halloc']
      simp
  · omega

/-- **Page `m` cannot be mapped.**  Everything is unmapped again, and of the pages
    taken those that pass the checks are back. -/
theorem map_fails (hok : PagingOk roots s₀) (hinit : s₀.pmm.initialized = true)
    (hmax : s₀.pmm.pageStack.length ≤ pmmMaxPages) (hheap : InHeap base N) {m : Nat} (hm : m < N)
    (hreach : ReachesPage s₀ base m) (hstop : ¬ ReachesPage s₀ base (m + 1))
    (hlt : cost s₀ base m < s₀.pmm.pageStack.length) :
    ∃ e s, mapHeapPagesFrom (pagingPager view) base 0 N s₀ = (.error e, s) ∧
      HeapMapped s₀ roots base 0 s ∧
      (∀ p, p ∈ heapPagesTaken (pagingPager view) base 0 N s₀ ↔
        ∃ i ≤ m, s₀.pmm.pageStack[cost s₀ base i]? = some p) ∧
      ∀ i ≤ m, ∀ p, s₀.pmm.pageStack[cost s₀ base i]? = some p →
        (p ∈ s.pmm.pageStack ↔ s₀.pmm.Returnable p) := by
  obtain ⟨left, rfl⟩ : ∃ left, N = m + (left + 1) := ⟨N - m - 1, by omega⟩
  obtain ⟨s, hs, hruns⟩ := rounds_run view hok hinit hheap m (Nat.le_of_lt hm) hreach
  obtain ⟨hrun, htaken⟩ := hruns (left + 1)
  rcases hs.pageAlloc hinit with ⟨_, _, hempty⟩ | ⟨phys, s₁, halloc, _, ht⟩
  · omega
  -- the second call fails, and leaves the lookups and a part of the stack
  obtain ⟨e, s₂, hmap, hreg, hsame, hlookup, hstack⟩ : ∃ e s₂,
      s₁.mapPage (heapPage base m) phys vmmMapWrite = (.error e, s₂) ∧ SameRegisters s₁ s₂ ∧
      SamePath (childOf s₂.vmm.tables) roots AllPaths ∧ (∀ x, s₂.lookup x = s₁.lookup x) ∧
      s₂.pmm.pageStack <:+ s₁.pmm.pageStack := by
    rcases hs.mapPage hinit hheap hm ht with ⟨e, hmap, _⟩ | ⟨e, s₂, hmap, _, hout⟩ | ⟨s₂, _, hnext⟩
    · exact ⟨e, s₁, hmap, .refl s₁, ht.ok.same, fun _ => rfl, List.suffix_refl _⟩
    · refine ⟨e, s₂, hmap, hout.registers, hout.ok.same, fun x => ?_, ?_⟩
      · unfold Paging.lookup
        rw [hout.registers.cr3]
        exact hout.lookup _ x ht.ok.active
      · rw [hout.stack]
        exact List.nil_suffix
    · exact absurd ⟨hnext.unmapped, hnext.enough⟩ hstop
  obtain ⟨hunwind, hfreed⟩ := hs.unwinding hok hinit hmax ht hreg hsame hlookup hstack
  obtain ⟨hmapped, hback⟩ := Unwinding.all view hok hinit hheap m _ hunwind (Nat.le_of_lt hm)
  have halloc' : (pagingPager view).pageAlloc s = (.ok phys, s₁) := halloc
  have hmap' : (pagingPager view).mapPage s₁ (UInt64.ofNat (base + m * pageSize)) phys vmmMapWrite =
      (.error e, s₂) := hmap
  refine ⟨e, unmapHeapPages (pagingPager view) base m (s₂.pageFree phys), ?_, hmapped, ?_, ?_⟩
  · rw [hrun, mapHeapPagesFrom, halloc']
    dsimp only
    rw [hmap']
    rfl
  · intro p
    rw [htaken p, heapPagesTaken, halloc']
    dsimp only
    rw [hmap']
    constructor
    · rintro (⟨i, hi, hp⟩ | hp)
      · exact ⟨i, Nat.le_of_lt hi, hp⟩
      · obtain rfl := List.mem_singleton.mp hp
        exact ⟨m, Nat.le_refl m, ht.page⟩
    · rintro ⟨i, hi, hp⟩
      rcases Nat.lt_or_eq_of_le hi with hlt' | rfl
      · exact .inl ⟨i, hlt', hp⟩
      · exact .inr (List.mem_singleton.mpr (Option.some.inj (hp.symm.trans ht.page)))
  · intro i hi p hp
    have hnot : p ∉ s₂.pmm.pageStack := by
      intro hmem
      have hmem' := hstack.subset hmem
      rw [ht.stack] at hmem'
      exact taken_not_mem hok hp (Nat.lt_succ_of_le ((cost_strictMono s₀ base).monotone hi)) hmem'
    rw [hback p, hfreed p]
    constructor
    · rintro ((hold | ⟨rfl, hgood⟩) | ⟨_, _, _, hgood⟩)
      · exact absurd hold hnot
      · exact hgood
      · exact hgood
    · intro hgood
      rcases Nat.lt_or_eq_of_le hi with hlt' | rfl
      · exact .inr ⟨i, hlt', hp, hgood⟩
      · obtain rfl := Option.some.inj (hp.symm.trans ht.page)
        exact .inl (.inr ⟨rfl, hgood⟩)

end run

/-! ## Extensions -/

/-- The number of pages that `heap_extend` asks for. -/
def heapCommitPages (minPayload : Nat) : Nat := (heapCommitSize minPayload + (pageSize - 1)) / pageSize

/-- The checks of `heap_extend`: the size does not overflow, and the range ends in the
    heap. -/
structure ExtensionFits {π : Type} (h : Heap π) (minPayload : Nat) : Prop where
  size : heapHeaderSize ≤ 2 ^ 64 - 1 - minPayload
  range : h.commitEnd + heapCommitSize minPayload ≤ heapBase + heapSize

/-- An extension is of whole pages. -/
theorem heapCommitPages_mul (minPayload : Nat) :
    heapCommitPages minPayload * pageSize = heapCommitSize minPayload ∧
      0 < heapCommitPages minPayload := by
  have hsize : pageSize = 4096 := rfl
  have hinit : heapInitialPages * pageSize = 16384 := rfl
  have hpages : heapCommitSize minPayload % 4096 = 0 ∧ 16384 ≤ heapCommitSize minPayload := by
    unfold heapCommitSize alignUpSize
    rw [hinit, hsize]
    dsimp only
    split <;> omega
  unfold heapCommitPages
  rw [hsize]
  omega

theorem heapExtend_fits {π : Type} {h : Heap π} {minPayload : Nat} (hfits : ExtensionFits h minPayload)
    (P : Pager π) :
    heapExtend P h minPayload =
      match mapHeapPagesFrom P h.commitEnd 0 (heapCommitPages minPayload) h.pager with
      | (.error e, pager) => (.error e, { h with pager })
      | (.ok _, pager) =>
        (.ok (), heapAppend { h with
          mem := h.mem.overlay (P.view pager) h.commitEnd (heapCommitSize minPayload), pager }
          (heapCommitSize minPayload)) := by
  have hsize := hfits.size
  have hrange := hfits.range
  have htop : heapBase + heapSize < 2 ^ 64 := by decide
  unfold heapExtend
  rw [if_neg (Nat.not_lt.mpr hsize)]
  dsimp only
  rw [if_neg (by omega)]
  rfl

/-! ### The end of the heap -/

/-- The heap ends at a page boundary, behind its base. -/
structure CommitOk {π : Type} (h : Heap π) : Prop where
  low : heapBase ≤ h.commitEnd
  aligned : h.commitEnd % 4096 = 0

theorem heapBase_aligned : heapBase % 4096 = 0 := by decide

section commit

variable {π : Type}

theorem CommitOk.congr {h h' : Heap π} (hc : CommitOk h) (heq : h'.commitEnd = h.commitEnd) :
    CommitOk h' := by
  constructor
  · rw [heq]
    exact hc.low
  · rw [heq]
    exact hc.aligned

/-- An extension moves the end of the heap by whole pages. -/
theorem CommitOk.extend {h : Heap π} (hc : CommitOk h) (P : Pager π) (minPayload : Nat) :
    CommitOk (heapExtend P h minPayload).2 := by
  have hpages := (heapCommitPages_mul minPayload).1
  have hsize : pageSize = 4096 := rfl
  have hlow := hc.low
  have haligned := hc.aligned
  unfold heapExtend
  split
  · exact hc
  dsimp only
  split
  · exact hc
  rcases mapHeapPages P h.commitEnd (heapCommitSize minPayload) h.pager with ⟨_ | _, pager⟩
  · exact ⟨hlow, haligned⟩
  · dsimp only
    rw [hsize] at hpages
    constructor
    · rw [heapAppend_commitEnd]
      dsimp only
      omega
    · rw [heapAppend_commitEnd]
      dsimp only
      omega

theorem CommitOk.kalloc {h : Heap π} (hc : CommitOk h) (P : Pager π) (size : UInt64) :
    CommitOk (kalloc P h size).2 := by
  rcases kalloc_commitEnd P h size with heq | heq
  · exact hc.congr heq
  · exact (hc.extend P (alignUpSize size.toNat heapAlign)).congr heq

theorem CommitOk.kfree {h : Heap π} (hc : CommitOk h) (ptr : Nat) : CommitOk (kfree h ptr) :=
  hc.congr (kfree_commitEnd h ptr)

/-- **The end of the heap** is at a page boundary in every state clients can reach. -/
theorem commitOk_run {P : Pager π} {log : List (HeapCall π × Nat)} {s : HeapClients π}
    (hrun : (heapSystem P).RunWhen HeapGuard log s) : CommitOk s.heap := by
  refine System.RunWhen.invariant (P := fun s => CommitOk s.heap) ?_ ?_ hrun
  · rintro s ⟨_, h, hinit⟩
    have hstart : CommitOk { h with head := 0, tail := 0, commitEnd := heapBase } :=
      ⟨Nat.le_refl _, heapBase_aligned⟩
    have hext := hstart.extend P 0
    unfold heapInit at hinit
    split at hinit
    · cases (Prod.mk.inj hinit).1
    rcases hmap : heapExtend P { h with head := 0, tail := 0, commitEnd := heapBase } 0 with ⟨_ | _, h'⟩
    · rw [hmap] at hinit
      cases (Prod.mk.inj hinit).1
    · rw [hmap] at hinit hext
      rw [← (Prod.mk.inj hinit).2]
      exact ⟨hext.low, hext.aligned⟩
  · intro s call hc _
    cases call with
    | kalloc size => exact hc.kalloc P size
    | kfree ptr => exact hc.kfree ptr
    | write addr byte => exact ⟨hc.low, hc.aligned⟩
    | pager p => exact ⟨hc.low, hc.aligned⟩

end commit

/-! ### What a failed extension leaves -/

/-- **No trace.**  The pages from the end of the heap on are mapped as before, every
    page taken for them is on the stack, and, if they were not mapped, the extension
    succeeds once there are pages. -/
structure NoTrace (roots : UInt64 → Prop) (view : Paging → Memory) (h h' : Heap Paging)
    (minPayload : Nat) : Prop where
  unmapped : ∀ virt, h.commitEnd ≤ virt.toNat → h'.pager.virtToPhys virt = h.pager.virtToPhys virt
  returned : ∀ phys ∈ heapPagesTaken (pagingPager view) h.commitEnd 0 (heapCommitPages minPayload)
    h.pager, phys ∈ h'.pager.pmm.pageStack
  later : (∀ i < heapCommitPages minPayload,
      h.pager.virtToPhys (heapPage h.commitEnd i) = .error .noent) →
    ∀ pmm : Pmm, pmm.initialized = true →
      SupplyFresh h'.pager.vmm.tables roots AllPaths (pmm.pageStack.map .ok) →
      4 * heapCommitPages minPayload ≤ pmm.pageStack.length →
      (heapExtend (pagingPager view) { h' with pager := { h'.pager with pmm } } minPayload).1 = .ok ()

/-- What must hold before the call.  Where the loop stops, the stack has not run out
    between two pages, and the pages taken pass the checks of `scdk_page_free`. -/
def RollsBack (s : Paging) (base N : Nat) : Prop :=
  s.pmm.initialized = true → ∀ m < N, ReachesPage s base m → ¬ ReachesPage s base (m + 1) →
    (cost s base m = s.pmm.pageStack.length → m = 0) ∧
    (cost s base m < s.pmm.pageStack.length →
      ∀ i ≤ m, ∀ p, s.pmm.pageStack[cost s base i]? = some p → s.pmm.Returnable p)

section extension

variable {h : Heap Paging} {roots : UInt64 → Prop} {view : Paging → Memory} {minPayload : Nat}

theorem ExtensionFits.inHeap (hfits : ExtensionFits h minPayload) (hend : CommitOk h) :
    InHeap h.commitEnd (heapCommitPages minPayload) := by
  refine ⟨hend.low, hend.aligned, ?_⟩
  rw [(heapCommitPages_mul minPayload).1]
  exact hfits.range

/-- If no page of the extension is left mapped, a later one succeeds. -/
theorem HeapMapped.noTrace {s : Paging} (hmapped : HeapMapped h.pager roots h.commitEnd 0 s)
    (hok : PagingOk roots h.pager) (hfits : ExtensionFits h minPayload)
    (hheap : InHeap h.commitEnd (heapCommitPages minPayload))
    (hback : ∀ phys ∈ heapPagesTaken (pagingPager view) h.commitEnd 0 (heapCommitPages minPayload)
      h.pager, phys ∈ s.pmm.pageStack) : NoTrace roots view h { h with pager := s } minPayload := by
  have hsame : ∀ virt, s.virtToPhys virt = h.pager.virtToPhys virt := fun virt =>
    hmapped.registers.virtToPhys (hmapped.others virt fun i hi => absurd hi (Nat.not_lt_zero i))
  refine ⟨fun virt _ => hsame virt, hback, ?_⟩
  intro hfree pmm hinit hfresh henough
  have hok' : PagingOk roots ⟨pmm, s.vmm⟩ :=
    ⟨hmapped.registers.cr3 ▸ hok.active, hmapped.same, hfresh⟩
  have hreach : ReachesPage ⟨pmm, s.vmm⟩ h.commitEnd (heapCommitPages minPayload) :=
    ⟨fun i hi => (hsame _).trans (hfree i hi), (cost_le _ _ _).trans henough⟩
  obtain ⟨s', hrun⟩ := map_succeeds view hok' hinit hheap hreach
  have hfits' : ExtensionFits { h with pager := Paging.mk pmm s.vmm } minPayload :=
    ⟨hfits.size, hfits.range⟩
  have hextend := heapExtend_fits hfits' (pagingPager view)
  dsimp only at hextend ⊢
  rw [hextend, hrun]

/-- Without an allocator nothing happens. -/
theorem map_uninitialized (view : Paging → Memory) {s : Paging} (hinit : ¬ s.pmm.initialized = true)
    {N : Nat} (hN : 0 < N) (base : Nat) :
    (∃ e, mapHeapPagesFrom (pagingPager view) base 0 N s = (.error e, s)) ∧
      heapPagesTaken (pagingPager view) base 0 N s = [] := by
  have halloc : (pagingPager view).pageAlloc s = (.error .notsup, s) := by
    change s.pageAlloc = _
    unfold Paging.pageAlloc Pmm.pageAlloc
    rw [if_pos (by simpa using hinit)]
  obtain ⟨left, rfl⟩ : ∃ left, N = left + 1 := ⟨N - 1, by omega⟩
  rw [mapHeapPagesFrom, heapPagesTaken, halloc]
  exact ⟨⟨_, rfl⟩, rfl⟩

/-- **Failed extensions.**  An extension that fails leaves no trace if and only if,
    where its loop stops, the stack has not run out between two pages, and the pages
    taken pass the checks of `scdk_page_free`. -/
theorem extension_rolled_back (hok : PagingOk roots h.pager)
    (hmax : h.pager.pmm.pageStack.length ≤ pmmMaxPages) (hend : CommitOk h)
    (hfits : ExtensionFits h minPayload) :
    (∀ e h', heapExtend (pagingPager view) h minPayload = (.error e, h') →
        NoTrace roots view h h' minPayload) ↔
      RollsBack h.pager h.commitEnd (heapCommitPages minPayload) := by
  have hheap := hfits.inHeap hend
  have hpos := (heapCommitPages_mul minPayload).2
  have hextend := heapExtend_fits hfits (pagingPager view)
  constructor
  · intro hall hinit m hm hreach hstop
    constructor
    · intro hempty
      obtain ⟨e, s, hrun, hs, _⟩ := alloc_fails view hok hinit hheap hm hreach hempty
      rw [hrun] at hextend
      by_contra hne
      -- the first page is still mapped
      obtain ⟨phys, _, _, _, _, hfound⟩ := hs.found hok hheap (Nat.pos_of_ne_zero hne) hpos
      have hbefore := (hall e _ hextend).unmapped (heapPage h.commitEnd 0)
        (by rw [toNat_heapPage hheap hpos]; omega)
      rw [hreach.1 0 (Nat.pos_of_ne_zero hne)] at hbefore
      exact absurd (hfound.symm.trans hbefore) (by simp)
    · intro hlt i hi p hp
      obtain ⟨e, s, hrun, _, htaken, hback⟩ := map_fails view hok hinit hmax hheap hm
        hreach hstop hlt
      rw [hrun] at hextend
      exact (hback i hi p hp).mp ((hall e _ hextend).returned p ((htaken p).mpr ⟨i, hi, hp⟩))
  · intro hcond e h' hrun
    rw [hextend] at hrun
    by_cases hinit : h.pager.pmm.initialized = true
    · rcases reachesPage_or h.pager h.commitEnd (heapCommitPages minPayload) with
        hreach | ⟨m, hm, hreach, hstop⟩
      · obtain ⟨s, hmap⟩ := map_succeeds view hok hinit hheap hreach
        rw [hmap] at hrun
        cases hrun
      obtain ⟨hfirst, hgood⟩ := hcond hinit m hm hreach hstop
      rcases Nat.lt_or_eq_of_le hreach.2 with hlt | hempty
      · obtain ⟨e', s, hmap, hmapped, htaken, hback⟩ := map_fails view hok hinit hmax hheap
          hm hreach hstop hlt
        rw [hmap] at hrun
        cases hrun
        apply hmapped.noTrace hok hfits hheap
        intro phys hphys
        obtain ⟨i, hi, hp⟩ := (htaken phys).mp hphys
        exact (hback i hi phys hp).mpr (hgood hlt i hi phys hp)
      · obtain rfl := hfirst hempty
        obtain ⟨e', s, hmap, hs, htaken⟩ := alloc_fails view hok hinit hheap hm hreach hempty
        rw [hmap] at hrun
        cases hrun
        apply hs.toHeapMapped.noTrace hok hfits hheap
        intro phys hphys
        obtain ⟨i, hi, _⟩ := (htaken phys).mp hphys
        exact absurd hi (Nat.not_lt_zero i)
    · obtain ⟨⟨e', hmap⟩, htaken⟩ := map_uninitialized view hinit hpos h.commitEnd
      rw [hmap] at hrun
      cases hrun
      apply (rounds_zero hok).toHeapMapped.noTrace hok hfits hheap
      rw [htaken]
      exact fun phys hphys => absurd hphys List.not_mem_nil

end extension

/-! ### Two small machines -/

/-- A heap of no pages over empty tables, with the given pages on the stack. -/
def bareHeap (pages : List UInt64) : Heap Paging where
  mem := fun _ => 0
  head := 0
  tail := 0
  commitEnd := heapBase
  initialized := true
  pager := ⟨⟨pages, 16, 0, [⟨0x1000, 0x10000, 0⟩], [], true⟩, emptyTables.vmm⟩

theorem bareHeap_ok {pages : List UInt64} (hnodup : pages.Nodup)
    (hall : (pages.all fun p => decide (FrameOk p ∧ p ≠ 0x1000)) = true) :
    PagingOk (· ∈ emptyTables.roots) (bareHeap pages).pager := by
  have hpages : ∀ p ∈ pages, FrameOk p ∧ p ≠ 0x1000 := fun p hp =>
    of_decide_eq_true (List.all_eq_true.mp hall p hp)
  have hmap : (pages.map Except.ok : PageSupply).filterMap Except.toOption = pages := by
    rw [List.filterMap_map, List.filterMap_congr (g := some) (by intro x _; rfl), List.filterMap_some]
  refine ⟨List.mem_singleton_self _, emptyTables_init.2, ?_, ?_⟩
  · change ((pages.map Except.ok : PageSupply).filterMap Except.toOption).Nodup
    rwa [hmap]
  · intro f hf
    change f ∈ (pages.map Except.ok : PageSupply).filterMap Except.toOption at hf
    rw [hmap] at hf
    refine ⟨(hpages f hf).1, ?_⟩
    intro r q hr _ hw
    obtain ⟨_, rfl⟩ := walk_emptyTables hw
    exact (hpages f hf).2 (List.mem_singleton.mp hr)

theorem bareHeap_end (pages : List UInt64) : CommitOk (bareHeap pages) :=
  ⟨Nat.le_refl _, heapBase_aligned⟩

theorem bareHeap_fits (pages : List UInt64) : ExtensionFits (bareHeap pages) 0 := by
  refine ⟨by decide, ?_⟩
  change heapBase + heapCommitSize 0 ≤ heapBase + heapSize
  decide

/-- With three pages, the first page cannot be mapped for want of a table, and all is
    taken back. -/
theorem extension_rolled_back_first :
    CommitOk (bareHeap [0x9000, 0x2000, 0x3000]) ∧
    ∀ e h', heapExtend (pagingPager fun _ _ => 0) (bareHeap [0x9000, 0x2000, 0x3000]) 0 =
        (.error e, h') →
      NoTrace (· ∈ emptyTables.roots) (fun _ _ => 0) (bareHeap [0x9000, 0x2000, 0x3000]) h' 0 := by
  refine ⟨bareHeap_end _, ?_⟩
  apply (extension_rolled_back (bareHeap_ok (by decide) rfl) (by decide) (bareHeap_end _)
    (bareHeap_fits _)).mpr
  intro _ m _ hreach _
  have hcost : cost (bareHeap [0x9000, 0x2000, 0x3000]).pager heapBase 1 = 4 := by decide +kernel
  have hzero : m = 0 := by
    by_contra hne
    have hmono := (cost_strictMono (bareHeap [0x9000, 0x2000, 0x3000]).pager heapBase).monotone
      (Nat.one_le_iff_ne_zero.mpr hne)
    have henough : cost (bareHeap [0x9000, 0x2000, 0x3000]).pager heapBase m ≤ 3 := hreach.2
    omega
  refine ⟨fun _ => hzero, fun _ i hi p hp => ?_⟩
  have hi0 : i = 0 := by omega
  rw [hi0, cost_zero] at hp
  obtain rfl := Option.some.inj hp
  decide

/-- With four pages, the first page is mapped and there is none for the second: the
    first stays mapped. -/
theorem extension_rolled_back_fails :
    ¬ ∀ (h : Heap Paging) (minPayload : Nat) (roots : UInt64 → Prop) (view : Paging → Memory),
        PagingOk roots h.pager → h.pager.pmm.pageStack.length ≤ pmmMaxPages →
        CommitOk h → ExtensionFits h minPayload →
        ∀ e h', heapExtend (pagingPager view) h minPayload = (.error e, h') →
          NoTrace roots view h h' minPayload := by
  intro hall
  have hfailed : (heapExtend (pagingPager fun _ _ => 0)
      (bareHeap [0x9000, 0x2000, 0x3000, 0x4000]) 0).1 = .error .nomem := by decide +kernel
  have hmapped : (heapExtend (pagingPager fun _ _ => 0)
      (bareHeap [0x9000, 0x2000, 0x3000, 0x4000]) 0).2.pager.virtToPhys 0xffffffffd0000000 =
      .ok 0x9000 := by decide +kernel
  have hbefore : (bareHeap [0x9000, 0x2000, 0x3000, 0x4000]).pager.virtToPhys 0xffffffffd0000000 =
      .error .noent := by decide +kernel
  obtain ⟨res, h', hrun⟩ : ∃ res h', heapExtend (pagingPager fun _ _ => 0)
      (bareHeap [0x9000, 0x2000, 0x3000, 0x4000]) 0 = (res, h') := ⟨_, _, rfl⟩
  rw [hrun] at hfailed hmapped
  dsimp only at hfailed hmapped
  rw [hfailed] at hrun
  have htrace := hall (bareHeap [0x9000, 0x2000, 0x3000, 0x4000]) 0 (· ∈ emptyTables.roots)
    (fun _ _ => 0) (bareHeap_ok (by decide) rfl) (by decide) (bareHeap_end _)
    (bareHeap_fits _) .nomem h' hrun
  have hsame := htrace.unmapped 0xffffffffd0000000 (Nat.le_refl _)
  rw [hmapped, hbefore] at hsame
  cases hsame

end Scdk
