import Scdk.Mm.PageTables
import Scdk.Lib.Pool
import Scdk.Lib.Run
import Mathlib.Data.List.Pairwise

/-! # Physical pages

    Model of `mm/pmm.c`: the free pages of the memory map on a stack, and the
    tables of regions that `scdk_page_free` checks a page against.

    The stack is a list, the page pushed last first; `free_pages` is its length.
    The counters cannot wrap, since both count pages that fit the stack.

    Contents:
    * the data and the functions of `pmm.c`,
    * `pagesFrom` and `collectLoop_run`: what the loop over a region collects,
    * `pmmInit_ledger`: the stack after `scdk_pmm_init`,
    * `pages_unique`: no page is handed out twice,
    * `outstanding_freed`: exactly the outstanding pages can be freed. -/

namespace Scdk

/-! ## The memory map -/

/-- `struct limine_memmap_entry` -/
structure MemmapEntry where
  base : UInt64
  length : UInt64
  type : UInt64
  deriving DecidableEq, Repr

/-- `LIMINE_MEMMAP_USABLE` -/
def memmapUsable : UInt64 := 0

/-- The entries of the memory map; a null pointer is `none`. -/
abbrev Memmap : Type := List (Option MemmapEntry)

/-- `SCDK_PMM_MAX_PAGES` -/
abbrev pmmMaxPages : Nat := 262144

/-- `SCDK_PMM_MAX_REGIONS` -/
abbrev pmmMaxRegions : Nat := 128

/-- `align_up`, to pages. -/
def alignUp (value : UInt64) : UInt64 := (value + 0xfff) &&& ~~~0xfff

/-- `align_down`, to pages. -/
def alignDown (value : UInt64) : UInt64 := value &&& ~~~0xfff

/-! ## The allocator -/

/-- `struct scdk_pmm_region` -/
structure PmmRegion where
  base : UInt64
  length : UInt64
  type : UInt64
  deriving DecidableEq, Repr

/-- The static variables of `pmm.c`. -/
structure Pmm where
  pageStack : List UInt64
  managedPages : Nat
  allocatedPages : Nat
  usableRegions : List PmmRegion
  reservedRegions : List PmmRegion
  initialized : Bool
  deriving DecidableEq, Repr

/-- Zeroed static variables. -/
def Pmm.zero : Pmm := ⟨[], 0, 0, [], [], false⟩

/-- `range_contains_page` -/
def rangeContainsPage (region : PmmRegion) (phys : UInt64) : Bool :=
  let endAddr := region.base + region.length
  if endAddr < region.base then false
  else region.base ≤ phys ∧ phys + 4096 ≤ endAddr

/-- `page_overlaps_region` -/
def pageOverlapsRegion (region : PmmRegion) (phys : UInt64) : Bool :=
  let pageEnd := phys + 4096
  let regionEnd := region.base + region.length
  if pageEnd < phys ∨ regionEnd < region.base then true
  else phys < regionEnd ∧ region.base < pageEnd

/-- `record_region` -/
def recordRegion (regions : List PmmRegion) (region : PmmRegion) : List PmmRegion :=
  if pmmMaxRegions ≤ regions.length then regions else regions ++ [region]

/-- `page_stack_contains` -/
def Pmm.pageStackContains (m : Pmm) (phys : UInt64) : Bool := m.pageStack.contains phys

/-- `page_stack[free_pages++] = page; managed_pages++` -/
def Pmm.collect (m : Pmm) (page : UInt64) : Pmm :=
  { m with pageStack := page :: m.pageStack, managedPages := m.managedPages + 1 }

/-- The loop of `collect_usable_region`, with room for so many more pages on the
    stack. -/
def collectLoop (endAddr : UInt64) : Nat → UInt64 → Pmm → Except Err Unit × Pmm
  | 0, page, m => if page + 4096 ≤ endAddr then (.error .busy, m) else (.ok (), m)
  | room + 1, page, m =>
    if page + 4096 ≤ endAddr then collectLoop endAddr room (page + 4096) (m.collect page)
    else (.ok (), m)

/-- `collect_usable_region` -/
def collectUsableRegion (m : Pmm) (base endAddr : UInt64) : Except Err Unit × Pmm :=
  collectLoop endAddr (pmmMaxPages - m.pageStack.length) base m

/-- The range of pages of an entry, from `base` to `end`; none for an entry that
    `scdk_pmm_init` passes over. -/
def MemmapEntry.range (entry : MemmapEntry) : Option (UInt64 × UInt64) :=
  if entry.length = 0 then none
  else
    let rawEnd := entry.base + entry.length
    if rawEnd < entry.base then none
    else
      let base := alignUp entry.base
      let endAddr := alignDown rawEnd
      if endAddr ≤ base then none else some (base, endAddr)

/-- The loop of `scdk_pmm_init` over the entries. -/
def initEntries : Memmap → Pmm → Pmm
  | [], m => m
  | none :: memmap, m => initEntries memmap m
  | some entry :: memmap, m =>
    match entry.range with
    | none => initEntries memmap m
    | some (base, endAddr) =>
      let region : PmmRegion := ⟨base, endAddr - base, entry.type⟩
      if entry.type = memmapUsable then
        let m := { m with usableRegions := recordRegion m.usableRegions region }
        match collectUsableRegion m base endAddr with
        | (.error _, m) => m
        | (.ok _, m) => initEntries memmap m
      else
        initEntries memmap { m with reservedRegions := recordRegion m.reservedRegions region }

/-- `scdk_pmm_init` -/
def pmmInit (m : Pmm) (memmap : Memmap) : Except Err Unit × Pmm :=
  if memmap = [] then (.error .inval, m)
  else
    let m := initEntries memmap Pmm.zero
    if m.managedPages = 0 then (.error .nomem, m)
    else (.ok (), { m with initialized := true })

/-- `scdk_pmm_is_usable_page` -/
def Pmm.isUsablePage (m : Pmm) (phys : UInt64) : Bool :=
  if phys &&& 0xfff ≠ 0 then false
  else m.usableRegions.any fun region => rangeContainsPage region phys

/-- `scdk_pmm_is_reserved_page` -/
def Pmm.isReservedPage (m : Pmm) (phys : UInt64) : Bool :=
  if phys &&& 0xfff ≠ 0 then true
  else if (m.reservedRegions.any fun region => pageOverlapsRegion region phys) = true then true
  else !m.isUsablePage phys

/-- `scdk_page_alloc` -/
def Pmm.pageAlloc (m : Pmm) : Except Err UInt64 × Pmm :=
  if m.initialized = false then (.error .notsup, m)
  else
    match m.pageStack with
    | [] => (.error .nomem, m)
    | page :: pages =>
      (.ok page, { m with pageStack := pages, allocatedPages := m.allocatedPages + 1 })

/-- `scdk_page_free` -/
def Pmm.pageFree (m : Pmm) (phys : UInt64) : Except Err Unit × Pmm :=
  if m.initialized = false then (.error .notsup, m)
  else if phys &&& 0xfff ≠ 0 then (.error .inval, m)
  else if m.isUsablePage phys = false ∨ m.isReservedPage phys = true then (.error .bounds, m)
  else if m.pageStackContains phys = true then (.error .busy, m)
  else if pmmMaxPages ≤ m.pageStack.length then (.error .nomem, m)
  else
    (.ok (), { m with
      pageStack := phys :: m.pageStack, allocatedPages := m.allocatedPages - 1 })

/-! ## Rounding -/

theorem toNat_alignDown (v : UInt64) : (alignDown v).toNat = v.toNat / 4096 * 4096 :=
  toNat_pageOf v

theorem toNat_alignUp (v : UInt64) :
    (alignUp v).toNat = (v.toNat + 4095) % 2 ^ 64 / 4096 * 4096 := by
  unfold alignUp
  rw [toNat_pageOf, UInt64.toNat_add]
  rfl

theorem and_low_eq_zero (v : UInt64) : v &&& 0xfff = 0 ↔ v.toNat % 4096 = 0 := by
  have h := isPageAligned_iff v
  unfold isPageAligned at h
  simpa using h

/-- The last page of the address space. -/
def lastPage : UInt64 := 0xfffffffffffff000

theorem toNat_lastPage : lastPage.toNat = 2 ^ 64 - 4096 := rfl

/-- The whole page number `n` lies in the entry. -/
def MemmapEntry.HoldsPage (entry : MemmapEntry) (n : Nat) : Prop :=
  entry.base.toNat ≤ n * 4096 ∧ (n + 1) * 4096 ≤ entry.base.toNat + entry.length.toNat

/-- The range of an entry is its pages, unless its base wraps around to zero. -/
theorem MemmapEntry.range_eq_some {entry : MemmapEntry} {base endAddr : UInt64}
    (h : entry.range = some (base, endAddr)) :
    base.toNat % 4096 = 0 ∧ endAddr.toNat % 4096 = 0 ∧ base.toNat < endAddr.toNat ∧
      (base = 0 ∧ endAddr = lastPage ∨
        entry.base.toNat ≤ base.toNat ∧
          endAddr.toNat ≤ entry.base.toNat + entry.length.toNat) := by
  unfold MemmapEntry.range at h
  dsimp only at h
  split at h
  · cases h
  split at h
  · cases h
  split at h
  · cases h
  next hlen hwrap hle =>
  obtain ⟨rfl, rfl⟩ := Prod.mk.inj (Option.some.inj h)
  rw [UInt64.lt_iff_toNat_lt, UInt64.toNat_add] at hwrap
  rw [UInt64.le_iff_toNat_le, toNat_alignDown, toNat_alignUp, UInt64.toNat_add] at hle
  have hb := entry.base.toNat_lt
  have hl := entry.length.toNat_lt
  rw [← UInt64.toNat_inj, ← UInt64.toNat_inj, toNat_alignUp, toNat_alignDown, toNat_lastPage,
    UInt64.toNat_add, show (0 : UInt64).toNat = 0 from rfl]
  omega

/-- The converse: an entry of aligned pages that does not reach the end of the
    address space. -/
theorem MemmapEntry.range_of_aligned {entry : MemmapEntry} (hbase : entry.base.toNat % 4096 = 0)
    (hlen : entry.length.toNat % 4096 = 0) (hpos : entry.length ≠ 0)
    (hend : entry.base.toNat + entry.length.toNat < 2 ^ 64) :
    entry.range = some (entry.base, entry.base + entry.length) := by
  have hne : entry.length.toNat ≠ 0 := fun h0 => hpos (UInt64.toNat_inj.mp h0)
  have hraw : (entry.base + entry.length).toNat = entry.base.toNat + entry.length.toNat := by
    rw [UInt64.toNat_add]
    omega
  have hup : alignUp entry.base = entry.base := by
    apply UInt64.toNat_inj.mp
    rw [toNat_alignUp]
    omega
  have hdown : alignDown (entry.base + entry.length) = entry.base + entry.length := by
    apply UInt64.toNat_inj.mp
    rw [toNat_alignDown, hraw]
    omega
  unfold MemmapEntry.range
  dsimp only
  rw [if_neg hpos, if_neg, if_neg, hup, hdown]
  · rw [hup, hdown, UInt64.le_iff_toNat_le, hraw]
    omega
  · rw [UInt64.lt_iff_toNat_lt, hraw]
    omega

/-! ## Collecting the pages of a region -/

/-- `n` pages from `page` on. -/
def pagesFrom (page : UInt64) : Nat → List UInt64
  | 0 => []
  | n + 1 => page :: pagesFrom (page + 4096) n

/-- The pages of a list were collected, in this order. -/
def Pmm.collectAll (m : Pmm) (pages : List UInt64) : Pmm :=
  { m with
    pageStack := pages.reverse ++ m.pageStack
    managedPages := m.managedPages + pages.length }

theorem Pmm.collectAll_cons (m : Pmm) (page : UInt64) (pages : List UInt64) :
    (m.collect page).collectAll pages = m.collectAll (page :: pages) := by
  simp only [collectAll, collect, List.reverse_cons, List.append_assoc, List.singleton_append,
    List.length_cons]
  congr 1
  omega

/-- The address of the next page, where it does not wrap. -/
theorem toNat_add_page {a : UInt64} (h : a.toNat + 4096 < 2 ^ 64) :
    (a + 4096).toNat = a.toNat + 4096 := by
  rw [UInt64.toNat_add]
  exact Nat.mod_eq_of_lt h

theorem length_pagesFrom (page : UInt64) (n : Nat) : (pagesFrom page n).length = n := by
  induction n generalizing page with
  | zero => rfl
  | succ n ih => simp [pagesFrom, ih]

theorem mem_pagesFrom {page p : UInt64} {n : Nat} (hfit : page.toNat + 4096 * n < 2 ^ 64) :
    p ∈ pagesFrom page n ↔ ∃ i, i < n ∧ p.toNat = page.toNat + 4096 * i := by
  induction n generalizing page with
  | zero => simp [pagesFrom]
  | succ n ih =>
    have hnext := toNat_add_page (a := page) (Nat.lt_of_le_of_lt (by omega) hfit)
    rw [pagesFrom, List.mem_cons, ih (by omega), hnext]
    constructor
    · intro h
      rcases h with rfl | ⟨i, hi, hp⟩
      · exact ⟨0, by omega, by omega⟩
      · exact ⟨i + 1, by omega, by omega⟩
    · intro h
      obtain ⟨i, hi, hp⟩ := h
      cases i with
      | zero => exact .inl (UInt64.toNat_inj.mp (by omega))
      | succ i => exact .inr ⟨i, by omega, by omega⟩

theorem nodup_pagesFrom {page : UInt64} {n : Nat} (hfit : page.toNat + 4096 * n < 2 ^ 64) :
    (pagesFrom page n).Nodup := by
  induction n generalizing page with
  | zero => exact List.nodup_nil
  | succ n ih =>
    have hnext := toNat_add_page (a := page) (Nat.lt_of_le_of_lt (by omega) hfit)
    rw [pagesFrom, List.nodup_cons]
    refine ⟨?_, ih (by omega)⟩
    intro hmem
    obtain ⟨i, _, hi⟩ := (mem_pagesFrom (by omega)).mp hmem
    omega

/-- Below the last page, the loop collects the pages up to the end of the region,
    or as many as there is room for. -/
theorem collectLoop_run {endAddr : UInt64} (hend : endAddr.toNat + 4096 < 2 ^ 64) (room : Nat) :
    ∀ (page : UInt64) (m : Pmm), page.toNat ≤ endAddr.toNat →
      ∃ n, (collectLoop endAddr room page m).2 = m.collectAll (pagesFrom page n) ∧
        page.toNat + 4096 * n ≤ endAddr.toNat ∧
        ((collectLoop endAddr room page m).1 = .ok () ∧ n ≤ room ∧
            endAddr.toNat < page.toNat + 4096 * (n + 1) ∨
          (∃ e, (collectLoop endAddr room page m).1 = .error e) ∧ n = room ∧
            page.toNat + 4096 * (n + 1) ≤ endAddr.toNat) := by
  -- By induction on the room; the loop stops at the end of the region or when there is none left.
  induction room with
  | zero =>
    intro page m hpage
    have hnext := toNat_add_page (a := page) (by omega)
    refine ⟨0, ?_⟩
    unfold collectLoop
    by_cases hmore : page + 4096 ≤ endAddr
    · rw [if_pos hmore]
      rw [UInt64.le_iff_toNat_le, hnext] at hmore
      exact ⟨rfl, by omega, .inr ⟨⟨.busy, rfl⟩, rfl, by omega⟩⟩
    · rw [if_neg hmore]
      rw [UInt64.le_iff_toNat_le, hnext] at hmore
      exact ⟨rfl, by omega, .inl ⟨rfl, le_rfl, by omega⟩⟩
  | succ room ih =>
    intro page m hpage
    have hnext := toNat_add_page (a := page) (by omega)
    unfold collectLoop
    by_cases hmore : page + 4096 ≤ endAddr
    · rw [if_pos hmore]
      rw [UInt64.le_iff_toNat_le, hnext] at hmore
      obtain ⟨n, hrun, hle, hends⟩ := ih (page + 4096) (m.collect page) (by omega)
      rw [hnext] at hle hends
      have hassoc : ∀ k, page.toNat + 4096 * (k + 1) = page.toNat + 4096 + 4096 * k := by
        intro k
        ring
      refine ⟨n + 1, ?_, ?_, ?_⟩
      · rw [hrun, Pmm.collectAll_cons]
        rfl
      · rw [hassoc]
        exact hle
      · rw [hassoc]
        rcases hends with ⟨hok, hn, hlast⟩ | ⟨herr, hn, hlast⟩
        · exact .inl ⟨hok, Nat.succ_le_succ hn, hlast⟩
        · exact .inr ⟨herr, congrArg Nat.succ hn, hlast⟩
    · rw [if_neg hmore]
      rw [UInt64.le_iff_toNat_le, hnext] at hmore
      exact ⟨0, rfl, by omega, .inl ⟨rfl, by omega, by omega⟩⟩

/-! ## The stack after initialization -/

/-- No page lies in two usable entries. -/
def UsableDisjoint (memmap : Memmap) : Prop :=
  memmap.Pairwise fun e e' => ∀ a ∈ e, ∀ b ∈ e', a.type = memmapUsable → b.type = memmapUsable →
    ∀ n, ¬ (a.HoldsPage n ∧ b.HoldsPage n)

/-- No usable entry that is collected ends in the last page. -/
def BelowLastPage (memmap : Memmap) : Prop :=
  ∀ entry, some entry ∈ memmap → entry.type = memmapUsable →
    ∀ base endAddr, entry.range = some (base, endAddr) → endAddr ≠ lastPage

section collect

variable {entry : MemmapEntry} {base endAddr : UInt64}

/-- The end of a range below the last page leaves room for one more page. -/
theorem MemmapEntry.range_end (hrange : entry.range = some (base, endAddr))
    (hlast : endAddr ≠ lastPage) : endAddr.toNat + 4096 < 2 ^ 64 := by
  have halign := (MemmapEntry.range_eq_some hrange).2.1
  have hne : endAddr.toNat ≠ 2 ^ 64 - 4096 := fun h => hlast (UInt64.toNat_inj.mp h)
  have hlt := endAddr.toNat_lt
  omega

/-- The pages of a range are pages of its entry. -/
theorem MemmapEntry.holdsPage_of_range (hrange : entry.range = some (base, endAddr))
    (hlast : endAddr ≠ lastPage) {p : UInt64} {i : Nat} (hp : p.toNat = base.toNat + 4096 * i)
    (hi : base.toNat + 4096 * (i + 1) ≤ endAddr.toNat) : entry.HoldsPage (p.toNat / 4096) := by
  obtain ⟨halign, _, _, hwrap | ⟨hlo, hhi⟩⟩ := MemmapEntry.range_eq_some hrange
  · exact absurd hwrap.2 hlast
  · unfold MemmapEntry.HoldsPage
    omega

theorem collectUsableRegion_nodup (hrange : entry.range = some (base, endAddr))
    (hlast : endAddr ≠ lastPage) {m : Pmm} (hnodup : m.pageStack.Nodup)
    (hnew : ∀ p ∈ m.pageStack, ¬ entry.HoldsPage (p.toNat / 4096)) :
    (collectUsableRegion m base endAddr).2.pageStack.Nodup ∧
      ∀ p ∈ (collectUsableRegion m base endAddr).2.pageStack,
        p ∈ m.pageStack ∨ entry.HoldsPage (p.toNat / 4096) := by
  have hend := MemmapEntry.range_end hrange hlast
  have hle := (MemmapEntry.range_eq_some hrange).2.2.1
  obtain ⟨n, hrun, hn, _⟩ :=
    collectLoop_run hend (pmmMaxPages - m.pageStack.length) base m (by omega)
  have hholds : ∀ p ∈ pagesFrom base n, entry.HoldsPage (p.toNat / 4096) := by
    intro p hp
    obtain ⟨i, hi, hpi⟩ := (mem_pagesFrom (by omega)).mp hp
    exact MemmapEntry.holdsPage_of_range hrange hlast hpi (by omega)
  have hstack : (collectUsableRegion m base endAddr).2.pageStack =
      (pagesFrom base n).reverse ++ m.pageStack := by
    unfold collectUsableRegion
    rw [hrun]
    rfl
  rw [hstack]
  constructor
  · rw [List.nodup_append]
    refine ⟨List.nodup_reverse.mpr (nodup_pagesFrom (by omega)), hnodup, ?_⟩
    intro p hp q hq heq
    rw [List.mem_reverse] at hp
    exact hnew q hq (heq ▸ hholds p hp)
  · intro p hp
    rcases List.mem_append.mp hp with hp | hp
    · exact .inr (hholds p (List.mem_reverse.mp hp))
    · exact .inl hp

end collect

/-- An entry whose pages are all collected. -/
theorem initEntries_usable {entry : MemmapEntry} {base endAddr : UInt64} {m m' : Pmm}
    (husable : entry.type = memmapUsable) (hrange : entry.range = some (base, endAddr))
    (hcollect : collectUsableRegion { m with
        usableRegions := recordRegion m.usableRegions ⟨base, endAddr - base, entry.type⟩ }
      base endAddr = (.ok (), m')) (memmap : Memmap) :
    initEntries (some entry :: memmap) m = initEntries memmap m' := by
  rw [initEntries, hrange]
  dsimp only
  rw [if_pos husable, hcollect]

/-- The loop over the entries puts no page on the stack twice. -/
theorem initEntries_nodup : ∀ (memmap : Memmap) (m : Pmm), UsableDisjoint memmap →
    BelowLastPage memmap → m.pageStack.Nodup →
    (∀ p ∈ m.pageStack, ∀ entry, some entry ∈ memmap → entry.type = memmapUsable →
      ¬ entry.HoldsPage (p.toNat / 4096)) →
    (initEntries memmap m).pageStack.Nodup := by
  intro memmap
  induction memmap with
  | nil =>
    intro m _ _ hnodup _
    exact hnodup
  | cons head memmap ih =>
    intro m hdisj hlast hnodup hnew
    have hdisj' := (List.pairwise_cons.mp hdisj).2
    have hlast' : BelowLastPage memmap := fun e he => hlast e (List.mem_cons_of_mem _ he)
    -- What is on the stack is not in the entries that are left.
    have hrest : ∀ m' : Pmm, m'.pageStack = m.pageStack →
        (initEntries memmap m').pageStack.Nodup := by
      intro m' hm'
      apply ih m' hdisj' hlast'
      · rw [hm']
        exact hnodup
      · rw [hm']
        exact fun p hp e he => hnew p hp e (List.mem_cons_of_mem _ he)
    cases head with
    | none => exact hrest m rfl
    | some entry =>
      unfold initEntries
      cases hrange : entry.range with
      | none => exact hrest m rfl
      | some range =>
        obtain ⟨base, endAddr⟩ := range
        dsimp only
        by_cases husable : entry.type = memmapUsable
        · rw [if_pos husable]
          set m' : Pmm := { m with
            usableRegions := recordRegion m.usableRegions ⟨base, endAddr - base, entry.type⟩ }
          have hcollect := collectUsableRegion_nodup (m := m') hrange
            (hlast entry List.mem_cons_self husable _ _ hrange) hnodup
            (fun p hp => hnew p hp entry List.mem_cons_self husable)
          rcases hc : collectUsableRegion m' base endAddr with ⟨r, m''⟩
          rw [hc] at hcollect
          cases r with
          | error e => exact hcollect.1
          | ok _ =>
            apply ih m'' hdisj' hlast' hcollect.1
            intro p hp e he hetype
            rcases hcollect.2 p hp with hold | hin
            · exact hnew p hold e (List.mem_cons_of_mem _ he) hetype
            · intro hholds
              exact (List.pairwise_cons.mp hdisj).1 _ he entry rfl e rfl husable hetype _
                ⟨hin, hholds⟩
        · rw [if_neg husable]
          exact hrest _ rfl

theorem pmmInit_pageStack (m : Pmm) {memmap : Memmap} (h : memmap ≠ []) :
    (pmmInit m memmap).2.pageStack = (initEntries memmap Pmm.zero).pageStack := by
  unfold pmmInit
  rw [if_neg h]
  dsimp only
  split
  · rfl
  · rfl

theorem pmmInit_nodup {m : Pmm} {memmap : Memmap} (hdisj : UsableDisjoint memmap)
    (hlast : BelowLastPage memmap) (hm : memmap = [] → m.pageStack = []) :
    (pmmInit m memmap).2.pageStack.Nodup := by
  have hnodup : (initEntries memmap Pmm.zero).pageStack.Nodup :=
    initEntries_nodup memmap Pmm.zero hdisj hlast List.nodup_nil
      (fun p hp => absurd hp List.not_mem_nil)
  by_cases hempty : memmap = []
  · unfold pmmInit
    rw [if_pos hempty, hm hempty]
    exact List.nodup_nil
  · rw [pmmInit_pageStack m hempty]
    exact hnodup

/-! ## Runs of the allocator -/

/-- A call of `scdk_page_alloc` or `scdk_page_free`; a page that is freed is the
    answer too. -/
def pageStep (m : Pmm) : Pool.Call UInt64 → Except Err UInt64 × Pmm
  | .take => m.pageAlloc
  | .give phys => ((m.pageFree phys).1.map fun _ => phys, (m.pageFree phys).2)

/-- The allocator, from what `scdk_pmm_init` leaves. -/
def pageSystem (memmap : Memmap) : System Pmm (Pool.Call UInt64) (Except Err UInt64) where
  init := fun m => ∃ m₀, (memmap = [] → m₀ = Pmm.zero) ∧ m = (pmmInit m₀ memmap).2
  step := pageStep

/-- What `scdk_page_alloc` can do. -/
theorem Pmm.pageAlloc_cases (m : Pmm) :
    (∃ e, m.pageAlloc = (.error e, m)) ∨
      ∃ page pages, m.initialized = true ∧ m.pageStack = page :: pages ∧
        m.pageAlloc = (.ok page, { m with
          pageStack := pages, allocatedPages := m.allocatedPages + 1 }) := by
  unfold Pmm.pageAlloc
  split
  · exact .inl ⟨_, rfl⟩
  · next hinit =>
    cases hstack : m.pageStack with
    | nil => exact .inl ⟨_, rfl⟩
    | cons page pages => exact .inr ⟨page, pages, by simpa using hinit, rfl, rfl⟩

/-- The checks that `scdk_page_free` makes. -/
structure Pmm.Freeable (m : Pmm) (phys : UInt64) : Prop where
  initialized : m.initialized = true
  usable : m.isUsablePage phys = true
  notReserved : m.isReservedPage phys = false
  notFree : phys ∉ m.pageStack
  room : m.pageStack.length < pmmMaxPages

/-- What `scdk_page_free` can do. -/
theorem Pmm.pageFree_cases (m : Pmm) (phys : UInt64) :
    (¬ m.Freeable phys ∧ ∃ e, m.pageFree phys = (.error e, m)) ∨
      (m.Freeable phys ∧ m.pageFree phys = (.ok (), { m with
        pageStack := phys :: m.pageStack, allocatedPages := m.allocatedPages - 1 })) := by
  unfold Pmm.pageFree
  -- The checks of the source in their order: each refuses, or is one part of `Freeable`.
  split
  · next h => exact .inl ⟨fun hf => by simp [hf.initialized] at h, _, rfl⟩
  next hinit =>
  split
  · next h =>
    left
    refine ⟨fun hf => ?_, _, rfl⟩
    have husable := hf.usable
    unfold Pmm.isUsablePage at husable
    rw [if_pos h] at husable
    cases husable
  next halign =>
  split
  · next h => exact .inl ⟨fun hf => by simp [hf.usable, hf.notReserved] at h, _, rfl⟩
  next hrange =>
  split
  · next h => exact .inl ⟨fun hf => hf.notFree (by simpa [pageStackContains] using h), _, rfl⟩
  next hfree =>
  split
  · next h => exact .inl ⟨fun hf => absurd hf.room (by omega), _, rfl⟩
  next hroom =>
  right
  refine ⟨⟨by simpa using hinit, ?_, ?_, ?_, by omega⟩, rfl⟩
  · by_contra hno
    exact hrange (.inl (by simpa using hno))
  · by_contra hno
    exact hrange (.inr (by simpa using hno))
  · simpa [pageStackContains] using hfree

/-- **No page twice.**  The stack has no page twice, and no page that is handed
    out is still outstanding. -/
theorem pages_unique {memmap : Memmap} (hdisj : UsableDisjoint memmap)
    (hlast : BelowLastPage memmap) {log : List (Pool.Call UInt64 × Except Err UInt64)} {m : Pmm}
    (hrun : (pageSystem memmap).Run log m) :
    m.pageStack.Nodup ∧ ∀ page, m.pageAlloc.1 = .ok page → page ∉ Pool.outstanding log := by
  have hinv : (m.pageStack ++ Pool.outstanding log).Nodup := by
    -- The pages on the stack and those that are out stay apart, along the run.
    induction hrun with
    | init h0 =>
      obtain ⟨m₀, hm₀, rfl⟩ := h0
      have hnodup := pmmInit_nodup (m := m₀) hdisj hlast (fun hempty => by rw [hm₀ hempty]; rfl)
      simpa [Pool.outstanding] using hnodup
    | @step log m call _ _ ih =>
      rw [Pool.outstanding_concat]
      cases call with
      | take =>
        show ((m.pageAlloc).2.pageStack ++ Pool.record _ (.take, m.pageAlloc.1)).Nodup
        rcases m.pageAlloc_cases with ⟨e, halloc⟩ | ⟨page, pages, _, hstack, halloc⟩
        · rw [halloc]
          exact ih
        · rw [halloc]
          rw [hstack] at ih
          exact Pool.take_nodup ih
      | give phys =>
        show ((m.pageFree phys).2.pageStack ++
          Pool.record _ (.give phys, (m.pageFree phys).1.map fun _ => phys)).Nodup
        rcases m.pageFree_cases phys with ⟨_, e, hfree⟩ | ⟨hok, hfree⟩
        · rw [hfree]
          exact ih
        · rw [hfree]
          exact Pool.give_nodup ih hok.notFree
  refine ⟨hinv.of_append_left, ?_⟩
  intro page hpage hout
  rcases m.pageAlloc_cases with ⟨e, halloc⟩ | ⟨first, pages, _, hstack, halloc⟩
  · rw [halloc] at hpage
    cases hpage
  · rw [halloc] at hpage
    obtain rfl := Except.ok.inj hpage
    rw [hstack] at hinv
    exact (List.nodup_append.mp hinv).2.2 first List.mem_cons_self first hout rfl

/-! ### The end of the address space -/

/-- Up to the last page, the loop never comes to an end of the region: the address
    wraps around to zero. -/
theorem collectLoop_lastPage (room : Nat) : ∀ (page : UInt64) (m : Pmm), page.toNat % 4096 = 0 →
    collectLoop lastPage room page m = (.error .busy, m.collectAll (pagesFrom page room)) := by
  -- No aligned page lies beyond the last one, and the next address wraps to page 0.
  have hmore : ∀ page : UInt64, page.toNat % 4096 = 0 →
      page + 4096 ≤ lastPage ∧ (page + 4096).toNat % 4096 = 0 := by
    intro page halign
    have hnext : (page + 4096).toNat = (page.toNat + 4096) % 2 ^ 64 := UInt64.toNat_add ..
    rw [UInt64.le_iff_toNat_le, toNat_lastPage, hnext]
    omega
  induction room with
  | zero =>
    intro page m halign
    unfold collectLoop
    rw [if_pos (hmore page halign).1]
    rfl
  | succ room ih =>
    intro page m halign
    unfold collectLoop
    rw [if_pos (hmore page halign).1, ih _ _ (hmore page halign).2, Pmm.collectAll_cons]
    rfl

/-- Two usable entries, of which the second ends where the last page begins. -/
def highMemmap : Memmap := [some ⟨0x1000, 0x2000, 0⟩, some ⟨0xffffffffffffe000, 0x1000, 0⟩]

theorem highMemmap_disjoint : UsableDisjoint highMemmap := by
  unfold UsableDisjoint highMemmap
  simp only [List.pairwise_cons, List.mem_singleton, List.not_mem_nil, false_implies, implies_true,
    List.Pairwise.nil, and_true]
  intro e he a ha b hb _ _ n hn
  subst he
  obtain rfl := Option.some.inj ha
  obtain rfl := Option.some.inj hb
  unfold MemmapEntry.HoldsPage at hn
  have hlow : (n + 1) * 4096 ≤ 0x1000 + 0x2000 := hn.1.2
  have hhigh : 0xffffffffffffe000 ≤ n * 4096 := hn.2.1
  omega

/-- An entry that ends where the last page begins fills the stack, with pages
    from its own and then from zero on. -/
theorem initEntries_lastPage {entry : MemmapEntry} {base : UInt64}
    (husable : entry.type = memmapUsable) (hrange : entry.range = some (base, lastPage))
    (memmap : Memmap) (m : Pmm) :
    (initEntries (some entry :: memmap) m).pageStack =
      (pagesFrom base (pmmMaxPages - m.pageStack.length)).reverse ++ m.pageStack := by
  have halign := (MemmapEntry.range_eq_some hrange).1
  unfold initEntries collectUsableRegion
  rw [hrange]
  dsimp only
  rw [if_pos husable, collectLoop_lastPage _ _ _ halign]
  rfl

theorem add_mem_pagesFrom {i n : Nat} (hi : i < n) (page : UInt64) :
    page + 4096 * UInt64.ofNat i ∈ pagesFrom page n := by
  induction n generalizing page i with
  | zero => exact absurd hi (Nat.not_lt_zero i)
  | succ n ih =>
    cases i with
    | zero =>
      have hzero : page + 4096 * UInt64.ofNat 0 = page := UInt64.add_zero page
      rw [pagesFrom, hzero]
      exact List.mem_cons_self
    | succ i =>
      have hshift : page + 4096 * UInt64.ofNat (i + 1) = page + 4096 + 4096 * UInt64.ofNat i := by
        rw [UInt64.ofNat_add, UInt64.mul_add, UInt64.add_comm (4096 * UInt64.ofNat i),
          ← UInt64.add_assoc]
        rfl
      rw [pagesFrom, hshift]
      exact List.mem_cons_of_mem _ (ih (Nat.lt_of_succ_lt_succ hi) _)

/-- The pages that the first entry put on the stack come again from the second. -/
theorem highMemmap_twice : ¬ (initEntries highMemmap Pmm.zero).pageStack.Nodup := by
  have hcollect : collectUsableRegion { Pmm.zero with
        usableRegions := recordRegion [] ⟨0x1000, 0x3000 - 0x1000, 0⟩ } 0x1000 0x3000 =
      (.ok (), ⟨[0x2000, 0x1000], 2, 0, [⟨0x1000, 0x2000, 0⟩], [], false⟩) := by
    decide +kernel
  have hwraps : (0xffffffffffffe000 : UInt64) + 4096 * UInt64.ofNat 3 = 0x1000 := by decide
  have hagain : ∀ n, 3 < n → (0x1000 : UInt64) ∈ pagesFrom 0xffffffffffffe000 n := by
    intro n hn
    rw [← hwraps]
    exact add_mem_pagesFrom hn _
  have hlow : MemmapEntry.range ⟨0x1000, 0x2000, 0⟩ = some (0x1000, 0x3000) := by decide
  have hhigh : MemmapEntry.range ⟨0xffffffffffffe000, 0x1000, 0⟩ =
      some (0xffffffffffffe000, lastPage) := by decide
  intro hnodup
  unfold highMemmap at hnodup
  rw [initEntries_usable rfl hlow hcollect, initEntries_lastPage rfl hhigh] at hnodup
  have hapart := (List.nodup_append.mp hnodup).2.2
  exact hapart 0x1000 (List.mem_reverse.mpr (hagain _ (by decide))) 0x1000 (by decide) rfl

/-- Two pages of memory, and one that is reserved. -/
def lowMemmap : Memmap := [some ⟨0x1000, 0x2000, 0⟩, some ⟨0x8000, 0x1000, 1⟩]

theorem lowMemmap_disjoint : UsableDisjoint lowMemmap := by
  unfold UsableDisjoint lowMemmap
  simp only [List.pairwise_cons, List.mem_singleton, List.not_mem_nil, false_implies, implies_true,
    List.Pairwise.nil, and_true]
  intro e he a _ b hb _ husable
  subst he
  obtain rfl := Option.some.inj hb
  exact absurd husable (by decide)

theorem lowMemmap_below : BelowLastPage lowMemmap := by
  intro entry hentry husable base endAddr hrange
  rcases List.mem_cons.mp hentry with heq | hentry
  · obtain rfl := Option.some.inj heq
    have hlow : MemmapEntry.range ⟨0x1000, 0x2000, 0⟩ = some (0x1000, 0x3000) := by decide
    obtain ⟨_, rfl⟩ := Prod.mk.inj (Option.some.inj (hlow.symm.trans hrange))
    decide
  · obtain rfl := Option.some.inj (List.mem_singleton.mp hentry)
    exact absurd husable (by decide)

/-- Two pages are handed out and one of them is freed. -/
theorem pages_unique_first :
    ∃ log m, (pageSystem lowMemmap).Run log m ∧ Pool.outstanding log = [0x2000] ∧
      m.pageStack.Nodup ∧ ∀ page, m.pageAlloc.1 = .ok page → page ∉ Pool.outstanding log := by
  have hinit : (pageSystem lowMemmap).init (pmmInit Pmm.zero lowMemmap).2 :=
    ⟨Pmm.zero, fun _ => rfl, rfl⟩
  have hrun := (((System.Run.init hinit).step .take).step .take).step (.give 0x1000)
  exact ⟨_, _, hrun, by decide +kernel, pages_unique lowMemmap_disjoint lowMemmap_below hrun⟩

theorem pages_unique_fails :
    ¬ ∀ (memmap : Memmap) (log : List (Pool.Call UInt64 × Except Err UInt64)) (m : Pmm),
      UsableDisjoint memmap → (pageSystem memmap).Run log m → m.pageStack.Nodup ∧
        ∀ page, m.pageAlloc.1 = .ok page → page ∉ Pool.outstanding log := by
  intro hall
  have hinit : (pageSystem highMemmap).init (pmmInit Pmm.zero highMemmap).2 :=
    ⟨Pmm.zero, fun _ => rfl, rfl⟩
  have hnodup := (hall _ _ _ highMemmap_disjoint (System.Run.init hinit)).1
  have hne : highMemmap ≠ [] := List.cons_ne_nil _ _
  rw [pmmInit_pageStack _ hne] at hnodup
  exact highMemmap_twice hnodup

/-! ## Freeing the outstanding pages -/

/-- The region that an entry is recorded as. -/
def MemmapEntry.region (entry : MemmapEntry) : Option PmmRegion :=
  entry.range.map fun range => ⟨range.1, range.2 - range.1, entry.type⟩

/-- The regions of the usable entries, or of the others, in order. -/
def regionsOf (usable : Bool) (memmap : Memmap) : List PmmRegion :=
  memmap.filterMap fun e => e.bind fun entry =>
    if decide (entry.type = memmapUsable) = usable then entry.region else none

/-- The number of pages in regions. -/
def pageCount (regions : List PmmRegion) : Nat :=
  (regions.map fun region => region.length.toNat / 4096).sum

/-- An address lies in the entry. -/
def MemmapEntry.Contains (entry : MemmapEntry) (x : Nat) : Prop :=
  entry.base.toNat ≤ x ∧ x < entry.base.toNat + entry.length.toNat

/-- Two entries, one of them usable, are disjoint. -/
def EntriesDisjoint (e e' : Option MemmapEntry) : Prop :=
  ∀ a ∈ e, ∀ b ∈ e', a.type = memmapUsable ∨ b.type = memmapUsable →
    ∀ x, ¬ (a.Contains x ∧ b.Contains x)

instance : Std.Symm EntriesDisjoint where
  symm := fun _ _ h a ha b hb htypes x hx => h b hb a ha htypes.symm x hx.symm

/-- The usable entries are page aligned, end below `2 ^ 63`, and are disjoint from
    all other entries. -/
structure MemmapOk (memmap : Memmap) : Prop where
  aligned : ∀ entry, some entry ∈ memmap → entry.type = memmapUsable →
    entry.base.toNat % 4096 = 0 ∧ entry.length.toNat % 4096 = 0
  below : ∀ entry, some entry ∈ memmap → entry.type = memmapUsable →
    entry.base.toNat + entry.length.toNat < 2 ^ 63
  disjoint : memmap.Pairwise EntriesDisjoint

/-- The tables of `pmm.c` hold the memory map: the usable regions and their pages
    fit, some other region is recorded, and no recorded one wraps around to all of
    the address space. -/
structure FitsTables (memmap : Memmap) : Prop where
  regions : (regionsOf true memmap).length ≤ pmmMaxRegions
  pages : pageCount (regionsOf true memmap) ≤ pmmMaxPages
  reserved : regionsOf false memmap ≠ []
  reservedOk : ∀ region ∈ (regionsOf false memmap).take pmmMaxRegions,
    ¬ (region.base = 0 ∧ region.length = lastPage)

theorem MemmapOk.tail {head : Option MemmapEntry} {memmap : Memmap} (h : MemmapOk (head :: memmap)) :
    MemmapOk memmap where
  aligned := fun e he => h.aligned e (List.mem_cons_of_mem _ he)
  below := fun e he => h.below e (List.mem_cons_of_mem _ he)
  disjoint := (List.pairwise_cons.mp h.disjoint).2

theorem MemmapOk.usableDisjoint {memmap : Memmap} (h : MemmapOk memmap) :
    UsableDisjoint memmap := by
  apply h.disjoint.imp
  intro e e' hdisj a ha b hb husable _ n hn
  obtain ⟨⟨ha1, ha2⟩, hb1, hb2⟩ := hn
  exact hdisj a ha b hb (.inl husable) (n * 4096)
    ⟨⟨ha1, by omega⟩, hb1, by omega⟩

/-- A usable region is its entry. -/
theorem MemmapOk.range {memmap : Memmap} (h : MemmapOk memmap) {entry : MemmapEntry}
    (hentry : some entry ∈ memmap) (husable : entry.type = memmapUsable) {base endAddr : UInt64}
    (hrange : entry.range = some (base, endAddr)) :
    endAddr.toNat < 2 ^ 63 ∧ entry.base.toNat ≤ base.toNat ∧
      endAddr.toNat ≤ entry.base.toNat + entry.length.toNat := by
  have hbelow := h.below entry hentry husable
  obtain ⟨_, _, _, ⟨_, hwrap⟩ | hin⟩ := MemmapEntry.range_eq_some hrange
  · -- The end of the entry would be in the last page.
    exfalso
    have hnowrap : entry.range = some (base, endAddr) := hrange
    obtain ⟨hbase, hlen⟩ := h.aligned entry hentry husable
    by_cases hpos : entry.length = 0
    · simp [MemmapEntry.range, hpos] at hnowrap
    · have heq := MemmapEntry.range_of_aligned hbase hlen hpos (by omega)
      rw [heq] at hnowrap
      have hlast : entry.base + entry.length = lastPage :=
        (Prod.mk.inj (Option.some.inj hnowrap)).2.trans hwrap
      have hnat := congrArg UInt64.toNat hlast
      rw [UInt64.toNat_add, toNat_lastPage] at hnat
      omega
  · exact ⟨by omega, hin⟩

theorem MemmapOk.belowLastPage {memmap : Memmap} (h : MemmapOk memmap) : BelowLastPage memmap := by
  intro entry hentry husable base endAddr hrange heq
  have hlt := (h.range hentry husable hrange).1
  rw [heq, toNat_lastPage] at hlt
  omega

/-- A page of a region. -/
def PmmRegion.HasPage (region : PmmRegion) (p : UInt64) : Prop :=
  p.toNat % 4096 = 0 ∧ region.base.toNat ≤ p.toNat ∧
    p.toNat + 4096 ≤ region.base.toNat + region.length.toNat

/-- With enough room, all pages of a region are collected. -/
theorem collectUsableRegion_all {base endAddr : UInt64} (hbase : base.toNat % 4096 = 0)
    (haligned : endAddr.toNat % 4096 = 0) (hle : base.toNat ≤ endAddr.toNat)
    (hend : endAddr.toNat < 2 ^ 63) (type : UInt64) {m : Pmm}
    (hroom : m.pageStack.length + (endAddr - base).toNat / 4096 ≤ pmmMaxPages) :
    ∃ pages, collectUsableRegion m base endAddr = (.ok (), m.collectAll pages) ∧
      pages.length = (endAddr - base).toNat / 4096 ∧
      ∀ p, p ∈ pages ↔ PmmRegion.HasPage ⟨base, endAddr - base, type⟩ p := by
  have hsub : (endAddr - base).toNat = endAddr.toNat - base.toNat :=
    UInt64.toNat_sub_of_le _ _ (UInt64.le_iff_toNat_le.mpr hle)
  rw [hsub] at hroom ⊢
  obtain ⟨n, hrun, hn, hends⟩ :=
    collectLoop_run (by omega) (pmmMaxPages - m.pageStack.length) base m hle
  have hcollect : collectUsableRegion m base endAddr =
      ((collectLoop endAddr (pmmMaxPages - m.pageStack.length) base m).1,
        m.collectAll (pagesFrom base n)) := by
    rw [← hrun]
    rfl
  refine ⟨pagesFrom base n, ?_, ?_, ?_⟩
  · -- There is room for every page of the region, so the loop reaches its end.
    rcases hends with ⟨hok, _, _⟩ | ⟨_, hfull, hmore⟩
    · rw [hcollect, hok]
    · omega
  · rw [length_pagesFrom]
    omega
  · intro p
    rw [mem_pagesFrom (by omega)]
    unfold PmmRegion.HasPage
    dsimp only
    rw [hsub]
    constructor
    · intro h
      obtain ⟨i, hi, hp⟩ := h
      omega
    · intro h
      obtain ⟨hp, hlo, hhi⟩ := h
      exact ⟨(p.toNat - base.toNat) / 4096, by omega, by omega⟩

theorem regionsOf_cons_none (usable : Bool) (memmap : Memmap) :
    regionsOf usable (none :: memmap) = regionsOf usable memmap := rfl

theorem regionsOf_cons_some (usable : Bool) (entry : MemmapEntry) (memmap : Memmap) :
    regionsOf usable (some entry :: memmap) =
      (if decide (entry.type = memmapUsable) = usable then entry.region else none).toList ++
        regionsOf usable memmap := by
  unfold regionsOf
  rw [List.filterMap_cons, Option.bind_some]
  cases (if decide (entry.type = memmapUsable) = usable then entry.region else none) with
  | none => rfl
  | some region => rfl

/-- What the loop over the entries adds to the tables, if they have room. -/
structure Loaded (memmap : Memmap) (m m' : Pmm) : Prop where
  usable : m'.usableRegions = m.usableRegions ++ regionsOf true memmap
  reserved : m'.reservedRegions = (m.reservedRegions ++ regionsOf false memmap).take pmmMaxRegions
  stack : ∀ p, p ∈ m'.pageStack ↔
    p ∈ m.pageStack ∨ ∃ region ∈ regionsOf true memmap, region.HasPage p
  length : m'.pageStack.length = m.pageStack.length + pageCount (regionsOf true memmap)
  managed : m'.managedPages = m.managedPages + pageCount (regionsOf true memmap)
  allocated : m'.allocatedPages = m.allocatedPages

theorem Loaded.congr {memmap memmap' : Memmap} {m m' : Pmm} (h : Loaded memmap m m')
    (hsame : ∀ usable, regionsOf usable memmap' = regionsOf usable memmap) : Loaded memmap' m m' := by
  constructor
  · rw [hsame]
    exact h.usable
  · rw [hsame]
    exact h.reserved
  · rw [hsame]
    exact h.stack
  · rw [hsame]
    exact h.length
  · rw [hsame]
    exact h.managed
  · exact h.allocated

/-- The region of an entry goes to the table of its kind. -/
theorem regionsOf_cons_region {entry : MemmapEntry} {region : PmmRegion}
    (hregion : entry.region = some region) (usable : Bool) (memmap : Memmap) :
    regionsOf usable (some entry :: memmap) =
      if decide (entry.type = memmapUsable) = usable then region :: regionsOf usable memmap
      else regionsOf usable memmap := by
  rw [regionsOf_cons_some, hregion]
  split <;> rfl

/-- Entries after one whose pages have been collected. -/
theorem Loaded.collected {memmap memmap' : Memmap} {m m' : Pmm} {region : PmmRegion}
    {pages : List UInt64} (htrue : regionsOf true memmap' = region :: regionsOf true memmap)
    (hfalse : regionsOf false memmap' = regionsOf false memmap)
    (hlen : pages.length = region.length.toNat / 4096) (hmem : ∀ p, p ∈ pages ↔ region.HasPage p)
    (h : Loaded memmap
      (Pmm.collectAll { m with usableRegions := m.usableRegions ++ [region] } pages) m') :
    Loaded memmap' m m' := by
  refine ⟨?_, ?_, ?_, ?_, ?_, h.allocated⟩
  · rw [h.usable, htrue]
    simp [Pmm.collectAll]
  · rw [h.reserved, hfalse]
    rfl
  · intro p
    rw [h.stack, htrue]
    simp only [Pmm.collectAll, List.mem_append, List.mem_reverse, List.mem_cons, exists_eq_or_imp,
      hmem]
    rw [or_comm (a := region.HasPage p), or_assoc]
  · rw [h.length, htrue]
    simp only [Pmm.collectAll, List.length_append, List.length_reverse, pageCount, List.map_cons,
      List.sum_cons, hlen]
    omega
  · rw [h.managed, htrue]
    simp only [Pmm.collectAll, pageCount, List.map_cons, List.sum_cons, hlen]
    omega

theorem recordRegion_length {regions : List PmmRegion} (region : PmmRegion)
    (hroom : regions.length ≤ pmmMaxRegions) :
    (recordRegion regions region).length ≤ pmmMaxRegions := by
  unfold recordRegion
  split
  · exact hroom
  · rw [List.length_append, List.length_singleton]
    omega

/-- A region that is dropped would not have fitted. -/
theorem recordRegion_take (regions more : List PmmRegion) (region : PmmRegion) :
    (recordRegion regions region ++ more).take pmmMaxRegions =
      (regions ++ region :: more).take pmmMaxRegions := by
  unfold recordRegion
  split
  · next hfull =>
    rw [List.take_append_of_le_length hfull, List.take_append_of_le_length hfull]
  · rw [List.append_assoc, List.singleton_append]

/-- Entries after one that is reserved. -/
theorem Loaded.recorded {memmap memmap' : Memmap} {m m' : Pmm} {region : PmmRegion}
    (htrue : regionsOf true memmap' = regionsOf true memmap)
    (hfalse : regionsOf false memmap' = region :: regionsOf false memmap)
    (h : Loaded memmap { m with reservedRegions := recordRegion m.reservedRegions region } m') :
    Loaded memmap' m m' := by
  refine ⟨?_, ?_, ?_, ?_, ?_, h.allocated⟩
  · rw [h.usable, htrue]
  · rw [h.reserved, hfalse, recordRegion_take]
  · rw [htrue]
    exact h.stack
  · rw [htrue]
    exact h.length
  · rw [htrue]
    exact h.managed

theorem initEntries_loaded : ∀ (memmap : Memmap) (m : Pmm), MemmapOk memmap →
    m.usableRegions.length + (regionsOf true memmap).length ≤ pmmMaxRegions →
    m.reservedRegions.length ≤ pmmMaxRegions →
    m.pageStack.length + pageCount (regionsOf true memmap) ≤ pmmMaxPages →
    Loaded memmap m (initEntries memmap m) := by
  intro memmap
  induction memmap with
  | nil =>
    intro m _ _ hreserved _
    refine ⟨by simp [initEntries, regionsOf], ?_, ?_, rfl, rfl, rfl⟩
    · simp [initEntries, regionsOf, List.take_of_length_le hreserved]
    · intro p
      simp [initEntries, regionsOf]
  | cons head memmap ih =>
    intro m hok husable hreserved hpages
    cases head with
    | none => exact (ih m hok.tail husable hreserved hpages).congr (regionsOf_cons_none · memmap)
    | some entry =>
      -- An entry without a whole page counts for nothing.
      cases hrange : entry.range with
      | none =>
        have hregion : entry.region = none := by simp [MemmapEntry.region, hrange]
        have hsame : ∀ usable, regionsOf usable (some entry :: memmap) = regionsOf usable memmap := by
          intro usable
          rw [regionsOf_cons_some, hregion, ite_self]
          rfl
        rw [hsame] at husable hpages
        have hload := ih m hok.tail husable hreserved hpages
        have hinit : initEntries (some entry :: memmap) m = initEntries memmap m := by
          rw [initEntries, hrange]
        rw [hinit]
        exact hload.congr hsame
      | some range =>
        obtain ⟨base, endAddr⟩ := range
        set region : PmmRegion := ⟨base, endAddr - base, entry.type⟩ with hregiondef
        have hregion : entry.region = some region := by simp [MemmapEntry.region, hrange, hregiondef]
        have htable := fun usable => regionsOf_cons_region hregion usable memmap
        by_cases htype : entry.type = memmapUsable
        · -- The region is recorded and its pages are collected.
          have htrue : regionsOf true (some entry :: memmap) = region :: regionsOf true memmap := by
            rw [htable, if_pos (by simp [htype])]
          have hfalse : regionsOf false (some entry :: memmap) = regionsOf false memmap := by
            rw [htable, if_neg (by simp [htype])]
          rw [htrue] at husable hpages
          simp only [List.length_cons, pageCount, List.map_cons, List.sum_cons] at husable hpages
          obtain ⟨hbase, haligned, hlt, _⟩ := MemmapEntry.range_eq_some hrange
          have hend := (hok.range List.mem_cons_self htype hrange).1
          have hrecord : recordRegion m.usableRegions region = m.usableRegions ++ [region] :=
            if_neg (by omega)
          obtain ⟨pages, hcollect, hlen, hmem⟩ :=
            collectUsableRegion_all hbase haligned (by omega) hend entry.type
              (m := { m with usableRegions := m.usableRegions ++ [region] })
              (show m.pageStack.length + region.length.toNat / 4096 ≤ _ by omega)
          have hlen' : pages.length = region.length.toNat / 4096 := hlen
          rw [initEntries_usable htype hrange (by rw [hrecord]; exact hcollect)]
          apply Loaded.collected htrue hfalse hlen' hmem
          apply ih _ hok.tail
          · simp only [Pmm.collectAll, List.length_append, List.length_singleton]
            omega
          · exact hreserved
          · simp only [Pmm.collectAll, List.length_append, List.length_reverse, hlen', pageCount]
            omega
        · -- The region is recorded among the reserved ones, if there is room.
          have htrue : regionsOf true (some entry :: memmap) = regionsOf true memmap := by
            rw [htable, if_neg (by simp [htype])]
          have hfalse : regionsOf false (some entry :: memmap) = region :: regionsOf false memmap := by
            rw [htable, if_pos (by simp [htype])]
          rw [htrue] at husable hpages
          have hinit : initEntries (some entry :: memmap) m = initEntries memmap
              { m with reservedRegions := recordRegion m.reservedRegions region } := by
            rw [initEntries, hrange]
            dsimp only
            rw [if_neg htype]
          rw [hinit]
          apply Loaded.recorded htrue hfalse
          exact ih _ hok.tail husable (recordRegion_length region hreserved) hpages

/-- The state of the allocator that fits the memory map, with the pages that are
    outstanding: a page of a usable region is either free or outstanding. -/
structure PoolOk (memmap : Memmap) (m : Pmm) (out : List UInt64) : Prop where
  nodup : (m.pageStack ++ out).Nodup
  pages : ∀ p, p ∈ m.pageStack ++ out ↔ ∃ region ∈ regionsOf true memmap, region.HasPage p
  usable : m.usableRegions = regionsOf true memmap
  reserved : m.reservedRegions = (regionsOf false memmap).take pmmMaxRegions
  managed : m.managedPages = m.pageStack.length + out.length
  allocated : m.allocatedPages = out.length
  fits : m.managedPages ≤ pmmMaxPages
  initialized : m.managedPages ≠ 0 → m.initialized = true

section pool

variable {memmap : Memmap} {m : Pmm} {out : List UInt64} {p : UInt64}

theorem poolOk_init (hok : MemmapOk memmap) (hfit : FitsTables memmap) (m₀ : Pmm) :
    PoolOk memmap (pmmInit m₀ memmap).2 [] := by
  have hne : memmap ≠ [] := by
    rintro rfl
    exact hfit.reserved rfl
  have hload := initEntries_loaded memmap Pmm.zero hok
    (show 0 + _ ≤ pmmMaxRegions by rw [Nat.zero_add]; exact hfit.regions) (Nat.zero_le _)
    (show 0 + _ ≤ pmmMaxPages by rw [Nat.zero_add]; exact hfit.pages)
  have hnodup := initEntries_nodup memmap Pmm.zero hok.usableDisjoint hok.belowLastPage
    List.nodup_nil (fun p hp => absurd hp List.not_mem_nil)
  have hstack : ∀ p, p ∈ (initEntries memmap Pmm.zero).pageStack ↔
      ∃ region ∈ regionsOf true memmap, region.HasPage p := by
    intro p
    rw [hload.stack p, show Pmm.zero.pageStack = [] from rfl]
    simp only [List.not_mem_nil, false_or]
  have hlen : (initEntries memmap Pmm.zero).pageStack.length = 0 + pageCount (regionsOf true memmap) :=
    hload.length
  have hmanaged : (initEntries memmap Pmm.zero).managedPages = 0 + pageCount (regionsOf true memmap) :=
    hload.managed
  have hpages := hfit.pages
  -- Everything but `initialized` is as the loop leaves it.
  have hrest : ∀ b, (b = false → (initEntries memmap Pmm.zero).managedPages = 0) →
      PoolOk memmap { initEntries memmap Pmm.zero with initialized := b } [] := by
    intro b hb
    refine ⟨by simpa using hnodup, by simpa using hstack, hload.usable, hload.reserved, ?_,
      hload.allocated, ?_, ?_⟩
    · show (initEntries memmap Pmm.zero).managedPages = (initEntries memmap Pmm.zero).pageStack.length
      omega
    · show (initEntries memmap Pmm.zero).managedPages ≤ pmmMaxPages
      omega
    · intro hpos
      by_contra hno
      exact hpos (hb (by simpa using hno))
  unfold pmmInit
  rw [if_neg hne]
  dsimp only
  split
  · next hzero => exact hrest _ (fun _ => hzero)
  · exact hrest true (fun h => by cases h)

/-- The regions of the usable entries lie in the entries. -/
theorem mem_regionsOf {usable : Bool} {region : PmmRegion} (h : region ∈ regionsOf usable memmap) :
    ∃ entry base endAddr, some entry ∈ memmap ∧ decide (entry.type = memmapUsable) = usable ∧
      entry.range = some (base, endAddr) ∧ region = ⟨base, endAddr - base, entry.type⟩ := by
  obtain ⟨e, he, hregion⟩ := List.mem_filterMap.mp h
  cases e with
  | none => cases hregion
  | some entry =>
    rw [Option.bind_some] at hregion
    split at hregion
    · next htype =>
      unfold MemmapEntry.region at hregion
      obtain ⟨⟨base, endAddr⟩, hrange, heq⟩ := Option.map_eq_some_iff.mp hregion
      exact ⟨entry, base, endAddr, he, htype, hrange, heq.symm⟩
    · cases hregion

/-- A recorded region as numbers. -/
theorem regionEnd {entry : MemmapEntry} {base endAddr : UInt64}
    (hrange : entry.range = some (base, endAddr)) :
    base + (endAddr - base) = endAddr ∧
      base.toNat + (endAddr - base).toNat = endAddr.toNat := by
  have hlt := (MemmapEntry.range_eq_some hrange).2.2.1
  have hsub : (endAddr - base).toNat = endAddr.toNat - base.toNat :=
    UInt64.toNat_sub_of_le _ _ (UInt64.le_iff_toNat_le.mpr (by omega))
  refine ⟨?_, by omega⟩
  rw [UInt64.add_comm, UInt64.sub_add_cancel]

/-- A page of a usable region is below `2 ^ 63` and in the entry. -/
theorem MemmapOk.hasPage (hok : MemmapOk memmap) {region : PmmRegion}
    (hregion : region ∈ regionsOf true memmap) (hp : region.HasPage p) :
    p.toNat + 4096 < 2 ^ 63 ∧ rangeContainsPage region p = true ∧
      ∃ entry, some entry ∈ memmap ∧ entry.type = memmapUsable ∧
        ∀ x, p.toNat ≤ x → x < p.toNat + 4096 → entry.Contains x := by
  obtain ⟨entry, base, endAddr, hentry, htype, hrange, rfl⟩ := mem_regionsOf hregion
  have husable : entry.type = memmapUsable := by simpa using htype
  obtain ⟨hend, hlo, hhi⟩ := hok.range hentry husable hrange
  obtain ⟨hsum, hnat⟩ := regionEnd hrange
  obtain ⟨_, hge, hle⟩ := hp
  dsimp only at hge hle
  have hnext := toNat_add_page (a := p) (by omega)
  refine ⟨by omega, ?_, entry, hentry, husable, ?_⟩
  · unfold rangeContainsPage
    dsimp only
    rw [hsum, if_neg]
    · rw [decide_eq_true_eq, UInt64.le_iff_toNat_le, UInt64.le_iff_toNat_le, hnext]
      omega
    · rw [UInt64.lt_iff_toNat_lt]
      omega
  · intro x hx hx'
    unfold MemmapEntry.Contains
    omega

/-- No recorded reserved region overlaps a page of a usable one. -/
theorem MemmapOk.not_overlaps (hok : MemmapOk memmap) (hfit : FitsTables memmap)
    {region other : PmmRegion} (hregion : region ∈ regionsOf true memmap) (hp : region.HasPage p)
    (hother : other ∈ (regionsOf false memmap).take pmmMaxRegions) :
    pageOverlapsRegion other p = false := by
  obtain ⟨hbelow, _, entry, hentry, husable, hin⟩ := hok.hasPage hregion hp
  have hnowrap := hfit.reservedOk other hother
  obtain ⟨entry', base, endAddr, hentry', htype, hrange, rfl⟩ :=
    mem_regionsOf (List.mem_of_mem_take hother)
  have hother' : entry'.type ≠ memmapUsable := by simpa using htype
  obtain ⟨hsum, hnat⟩ := regionEnd hrange
  obtain ⟨_, _, hlt, hwrap | ⟨hlo, hhi⟩⟩ := MemmapEntry.range_eq_some hrange
  · -- The region would be the whole address space.
    refine absurd ⟨hwrap.1, ?_⟩ hnowrap
    show endAddr - base = lastPage
    rw [hwrap.1, hwrap.2]
    rfl
  have hdisj : ∀ x, ¬ (entry.Contains x ∧ entry'.Contains x) := by
    have hne : some entry ≠ some entry' := by
      intro heq
      exact hother' (Option.some.inj heq ▸ husable)
    exact hok.disjoint.forall hentry hentry' hne entry rfl entry' rfl (.inl husable)
  have hnext := toNat_add_page (a := p) (by omega)
  unfold pageOverlapsRegion
  dsimp only
  rw [hsum, if_neg]
  · rw [decide_eq_false_iff_not, UInt64.lt_iff_toNat_lt, UInt64.lt_iff_toNat_lt, hnext]
    intro hboth
    -- The larger of the two starts is in both entries.
    refine hdisj (max p.toNat base.toNat) ⟨hin _ (by omega) (by omega), ?_⟩
    unfold MemmapEntry.Contains
    omega
  · rw [UInt64.lt_iff_toNat_lt, UInt64.lt_iff_toNat_lt, hnext]
    omega

/-- The pages that `scdk_page_free` takes back are the outstanding ones. -/
theorem PoolOk.freeable_iff (hok : MemmapOk memmap) (hfit : FitsTables memmap)
    (h : PoolOk memmap m out) : m.Freeable p ↔ p ∈ out := by
  constructor
  · intro hf
    have husable := hf.usable
    unfold Pmm.isUsablePage at husable
    split at husable
    · cases husable
    next halign =>
    have halign' := (and_low_eq_zero p).mp (by simpa using halign)
    obtain ⟨region, hregion, hcontains⟩ := List.any_eq_true.mp husable
    rw [h.usable] at hregion
    -- Some reserved region is recorded, and the page does not wrap around it.
    have hnowrap : p.toNat + 4096 < 2 ^ 64 := by
      have hreserved := hf.notReserved
      unfold Pmm.isReservedPage at hreserved
      rw [if_neg halign, h.reserved] at hreserved
      split at hreserved
      · cases hreserved
      next hany =>
      obtain ⟨first, rest, hcons⟩ := List.exists_cons_of_ne_nil hfit.reserved
      by_contra hwrap
      apply hany
      rw [hcons]
      apply List.any_eq_true.mpr
      refine ⟨first, by simp, ?_⟩
      unfold pageOverlapsRegion
      dsimp only
      rw [if_pos]
      left
      have hlt := p.toNat_lt
      rw [UInt64.lt_iff_toNat_lt, UInt64.toNat_add]
      show (p.toNat + 4096) % 2 ^ 64 < _
      omega
    have hpage : region.HasPage p := by
      obtain ⟨entry, base, endAddr, _, _, hrange, rfl⟩ := mem_regionsOf hregion
      obtain ⟨hsum, hnat⟩ := regionEnd hrange
      unfold rangeContainsPage at hcontains
      dsimp only at hcontains
      rw [hsum] at hcontains
      split at hcontains
      · cases hcontains
      rw [decide_eq_true_eq, UInt64.le_iff_toNat_le, UInt64.le_iff_toNat_le, UInt64.toNat_add]
        at hcontains
      have hle : (p.toNat + 4096) % 2 ^ 64 ≤ endAddr.toNat := hcontains.2
      refine ⟨halign', hcontains.1, ?_⟩
      dsimp only
      omega
    rcases List.mem_append.mp ((h.pages p).mpr ⟨region, hregion, hpage⟩) with hfree | hout
    · exact absurd hfree hf.notFree
    · exact hout
  · intro hout
    obtain ⟨region, hregion, hpage⟩ := (h.pages p).mp (List.mem_append_right _ hout)
    have halign : ¬ (p &&& 0xfff ≠ 0) := not_not.mpr ((and_low_eq_zero p).mpr hpage.1)
    have hcontains := (hok.hasPage hregion hpage).2.1
    have husable : m.isUsablePage p = true := by
      unfold Pmm.isUsablePage
      rw [if_neg halign, h.usable]
      exact List.any_eq_true.mpr ⟨region, hregion, hcontains⟩
    have hpos : 0 < out.length := List.length_pos_of_mem hout
    have hmanaged := h.managed
    have hfits := h.fits
    refine ⟨h.initialized (by omega), husable, ?_, ?_, by omega⟩
    · unfold Pmm.isReservedPage
      rw [if_neg halign, husable, h.reserved, if_neg]
      · rfl
      · intro hany
        obtain ⟨other, hother, hoverlap⟩ := List.any_eq_true.mp hany
        rw [hok.not_overlaps hfit hregion hpage hother] at hoverlap
        cases hoverlap
    · intro hfree
      exact (List.nodup_append.mp h.nodup).2.2 p hfree p hout rfl

/-- One call keeps the accounts. -/
theorem PoolOk.step (hok : MemmapOk memmap) (hfit : FitsTables memmap) (h : PoolOk memmap m out)
    (call : Pool.Call UInt64) :
    PoolOk memmap (pageStep m call).2 (Pool.record out (call, (pageStep m call).1)) := by
  -- A page moves between the stack and those that are out, so their union stays.
  cases call with
  | take =>
    show PoolOk memmap m.pageAlloc.2 (Pool.record out (.take, m.pageAlloc.1))
    rcases m.pageAlloc_cases with ⟨e, halloc⟩ | ⟨page, pages, _, hstack, halloc⟩
    · rw [halloc]
      exact h
    · rw [halloc]
      have hnodup := h.nodup
      have hpages := h.pages
      have hmanaged := h.managed
      have hallocated := h.allocated
      rw [hstack] at hnodup hpages hmanaged
      have hperm : (pages ++ page :: out).Perm (page :: pages ++ out) := Pool.take_perm
      refine ⟨Pool.take_nodup hnodup, ?_, h.usable, h.reserved, ?_, ?_, h.fits, h.initialized⟩
      · intro p
        exact hperm.mem_iff.trans (hpages p)
      · show m.managedPages = pages.length + (out.length + 1)
        rw [hmanaged, List.length_cons]
        omega
      · show m.allocatedPages + 1 = out.length + 1
        omega
  | give phys =>
    show PoolOk memmap (m.pageFree phys).2
      (Pool.record out (.give phys, (m.pageFree phys).1.map fun _ => phys))
    rcases m.pageFree_cases phys with ⟨_, e, hfree⟩ | ⟨hf, hfree⟩
    · rw [hfree]
      exact h
    · rw [hfree]
      have hout := (h.freeable_iff hok hfit).mp hf
      have hperm : (phys :: m.pageStack ++ out.filter (· ≠ phys)).Perm (m.pageStack ++ out) :=
        Pool.give_perm h.nodup hout
      have hlen := hperm.length_eq
      rw [List.length_append, List.length_append, List.length_cons] at hlen
      have hmanaged := h.managed
      have hallocated := h.allocated
      refine ⟨Pool.give_nodup h.nodup hf.notFree, ?_, h.usable, h.reserved, ?_, ?_, h.fits,
        h.initialized⟩
      · intro p
        exact hperm.mem_iff.trans (h.pages p)
      · show m.managedPages = (m.pageStack.length + 1) + (out.filter (· ≠ phys)).length
        omega
      · show m.allocatedPages - 1 = (out.filter (· ≠ phys)).length
        omega

end pool

/-- **Exactly the outstanding pages.**  If the tables hold the memory map, then in
    every run a page can be freed if and only if it is outstanding, and the free
    and the allocated pages are the managed ones. -/
theorem outstanding_freed {memmap : Memmap} (hok : MemmapOk memmap) (hfit : FitsTables memmap)
    {log : List (Pool.Call UInt64 × Except Err UInt64)} {m : Pmm}
    (hrun : (pageSystem memmap).Run log m) :
    (∀ p, (m.pageFree p).1 = .ok () ↔ p ∈ Pool.outstanding log) ∧
      m.pageStack.length + m.allocatedPages = m.managedPages := by
  have hpool : PoolOk memmap m (Pool.outstanding log) := by
    -- The pool stays as counted, along the run.
    induction hrun with
    | init h0 =>
      obtain ⟨m₀, _, rfl⟩ := h0
      exact poolOk_init hok hfit m₀
    | @step log m call _ _ ih =>
      rw [Pool.outstanding_concat]
      exact ih.step hok hfit call
  constructor
  · intro p
    rw [← hpool.freeable_iff hok hfit]
    rcases m.pageFree_cases p with ⟨hno, e, hfree⟩ | ⟨hf, hfree⟩
    · rw [hfree]
      constructor
      · intro h
        cases h
      · exact fun h => absurd h hno
    · rw [hfree]
      exact ⟨fun _ => hf, fun _ => rfl⟩
  · rw [hpool.allocated, hpool.managed]

/-! ### More regions than the table holds -/

/-- One page of usable memory in every two, `n` times, and a reserved page. -/
def sparseMemmap (n : Nat) : Memmap :=
  some ⟨0, 0x1000, 1⟩ ::
    (List.range n).map fun i => some ⟨UInt64.ofNat (8192 * (i + 1)), 0x1000, 0⟩

theorem mem_sparseMemmap {n : Nat} {entry : MemmapEntry} (h : some entry ∈ sparseMemmap n)
    (husable : entry.type = memmapUsable) :
    ∃ i, i < n ∧ entry = ⟨UInt64.ofNat (8192 * (i + 1)), 0x1000, 0⟩ := by
  rcases List.mem_cons.mp h with heq | hmem
  · rw [Option.some.inj heq] at husable
    exact absurd husable (by decide)
  · obtain ⟨i, hi, heq⟩ := List.mem_map.mp hmem
    exact ⟨i, List.mem_range.mp hi, (Option.some.inj heq).symm⟩

theorem toNat_sparseBase {i : Nat} (hi : i < 1000) :
    (UInt64.ofNat (8192 * (i + 1))).toNat = 8192 * (i + 1) :=
  UInt64.toNat_ofNat_of_lt' (by show _ < 2 ^ 64; omega)

theorem sparseMemmap_ok {n : Nat} (hn : n ≤ 1000) : MemmapOk (sparseMemmap n) where
  aligned := by
    intro entry hentry husable
    obtain ⟨i, hi, rfl⟩ := mem_sparseMemmap hentry husable
    refine ⟨?_, show (0x1000 : UInt64).toNat % 4096 = 0 by decide⟩
    rw [toNat_sparseBase (by omega)]
    omega
  below := by
    intro entry hentry husable
    obtain ⟨i, hi, rfl⟩ := mem_sparseMemmap hentry husable
    show (UInt64.ofNat _).toNat + 4096 < _
    rw [toNat_sparseBase (by omega)]
    omega
  disjoint := by
    unfold sparseMemmap
    rw [List.pairwise_cons]
    constructor
    · intro e he a ha b hb _ x hx
      -- The reserved page lies below all the usable ones.
      obtain ⟨i, hi, rfl⟩ := List.mem_map.mp he
      obtain rfl := Option.some.inj ha
      obtain rfl := Option.some.inj hb
      have hlow : x < 0 + 4096 := hx.1.2
      have hhigh : (UInt64.ofNat (8192 * (i + 1))).toNat ≤ x := hx.2.1
      rw [toNat_sparseBase (by have := List.mem_range.mp hi; omega)] at hhigh
      omega
    · rw [List.pairwise_map]
      apply List.pairwise_lt_range.imp_of_mem
      intro i j hi hj hlt a ha b hb _ x hx
      rw [List.mem_range] at hi hj
      obtain rfl := Option.some.inj ha
      obtain rfl := Option.some.inj hb
      have hlow : x < (UInt64.ofNat (8192 * (i + 1))).toNat + 4096 := hx.1.2
      have hhigh : (UInt64.ofNat (8192 * (j + 1))).toNat ≤ x := hx.2.1
      rw [toNat_sparseBase (by omega)] at hlow hhigh
      omega

theorem sparseMemmap_fits : FitsTables (sparseMemmap 2) where
  regions := by decide +kernel
  pages := by decide +kernel
  reserved := by decide +kernel
  reservedOk := by decide +kernel

/-- A page is handed out and freed. -/
theorem outstanding_freed_first :
    ∃ log m, (pageSystem (sparseMemmap 2)).Run log m ∧ Pool.outstanding log = [0x4000] ∧
      (∀ p, (m.pageFree p).1 = .ok () ↔ p ∈ Pool.outstanding log) ∧
      m.pageStack.length + m.allocatedPages = m.managedPages := by
  have hinit : (pageSystem (sparseMemmap 2)).init (pmmInit Pmm.zero (sparseMemmap 2)).2 :=
    ⟨Pmm.zero, fun _ => rfl, rfl⟩
  have hrun := (System.Run.init hinit).step .take
  exact ⟨_, _, hrun, by decide +kernel,
    outstanding_freed (sparseMemmap_ok (by decide)) sparseMemmap_fits hrun⟩

/-- The pages of the region that the table has no room for can be allocated, but
    not freed. -/
theorem outstanding_freed_fails :
    ¬ ∀ (memmap : Memmap) (log : List (Pool.Call UInt64 × Except Err UInt64)) (m : Pmm),
      MemmapOk memmap → (∃ entry, some entry ∈ memmap ∧ entry.type ≠ memmapUsable ∧
        entry.range.isSome = true) → (pageSystem memmap).Run log m →
      (∀ p, (m.pageFree p).1 = .ok () ↔ p ∈ Pool.outstanding log) ∧
        m.pageStack.length + m.allocatedPages = m.managedPages := by
  intro hall
  have hinit : (pageSystem (sparseMemmap 129)).init (pmmInit Pmm.zero (sparseMemmap 129)).2 :=
    ⟨Pmm.zero, fun _ => rfl, rfl⟩
  have hrun := (System.Run.init hinit).step .take
  have hreserved : ∃ entry, some entry ∈ sparseMemmap 129 ∧ entry.type ≠ memmapUsable ∧
      entry.range.isSome = true :=
    ⟨⟨0, 0x1000, 1⟩, List.mem_cons_self, by decide, by decide⟩
  have hfreed := (hall _ _ _ (sparseMemmap_ok (by decide)) hreserved hrun).1 (UInt64.ofNat (8192 * 129))
  have hrefused : (((pageSystem (sparseMemmap 129)).step (pmmInit Pmm.zero (sparseMemmap 129)).2
      .take).2.pageFree (UInt64.ofNat (8192 * 129))).1 ≠ .ok () := by
    decide +kernel
  exact hrefused (hfreed.mpr (by decide +kernel))

end Scdk
