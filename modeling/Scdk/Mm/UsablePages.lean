import Scdk.Mm.Pmm

/-! # Which pages are usable

    `mm/pmm.c` rounds the entries of the memory map and compares pages with regions
    in 64-bit sums that wrap.  At the end of the address space they do: a region that
    reaches up to the last page is collected beyond its end, and the last page is
    taken for a page of every region.

    * `collected`: the pages that `scdk_pmm_init` puts on the stack,
    * `TopPagesBacked`: what is asked of the first entry that reaches up to the last
      page,
    * `collected_usable_iff`: all pages on the stack are usable memory exactly then,
    * `WellJudged`: when the tests of a page against the regions are right,
    * `classification_iff`: they are right exactly then. -/

namespace Scdk

/-! ## The pages on the stack -/

/-- The pages of an item of the memory map that are collected. -/
def usableRange : Option MemmapEntry → Option (UInt64 × UInt64)
  | none => none
  | some entry => if entry.type = memmapUsable then entry.range else none

/-- The number of pages from `base` to `endAddr`. -/
def pagesBetween (base endAddr : UInt64) : Nat := (endAddr.toNat - base.toNat) / 4096

/-- The pages that are collected from a memory map while there is room for so many,
    in order. -/
def collected : Memmap → Nat → List UInt64
  | [], _ => []
  | item :: memmap, room =>
    match usableRange item with
    | none => collected memmap room
    | some (base, endAddr) =>
      if endAddr = lastPage ∨ room < pagesBetween base endAddr then pagesFrom base room
      else
        pagesFrom base (pagesBetween base endAddr) ++
          collected memmap (room - pagesBetween base endAddr)

theorem usableRange_eq_some {item : Option MemmapEntry} {base endAddr : UInt64}
    (h : usableRange item = some (base, endAddr)) :
    ∃ entry, item = some entry ∧ entry.type = memmapUsable ∧
      entry.range = some (base, endAddr) := by
  cases item with
  | none => cases h
  | some entry =>
    simp only [usableRange] at h
    by_cases husable : entry.type = memmapUsable
    · rw [if_pos husable] at h
      exact ⟨entry, rfl, husable, h⟩
    · rw [if_neg husable] at h
      cases h

/-- An item without pages that are collected leaves the stack alone. -/
theorem initEntries_skip {item : Option MemmapEntry} (h : usableRange item = none) (memmap : Memmap)
    (m : Pmm) :
    ∃ m', initEntries (item :: memmap) m = initEntries memmap m' ∧ m'.pageStack = m.pageStack := by
  cases item with
  | none => exact ⟨m, rfl, rfl⟩
  | some entry =>
    rw [initEntries]
    cases hrange : entry.range with
    | none => exact ⟨m, rfl, rfl⟩
    | some range =>
      have htype : entry.type ≠ memmapUsable := by
        intro husable
        simp only [usableRange, if_pos husable, hrange, reduceCtorEq] at h
      dsimp only
      rw [if_neg htype]
      exact ⟨_, rfl, rfl⟩

/-- A region below the last page is collected as far as there is room. -/
theorem collectUsableRegion_run {entry : MemmapEntry} {base endAddr : UInt64}
    (hrange : entry.range = some (base, endAddr)) (hlast : endAddr ≠ lastPage) (m : Pmm) :
    (pmmMaxPages - m.pageStack.length < pagesBetween base endAddr →
      ∃ e, collectUsableRegion m base endAddr =
        (.error e, m.collectAll (pagesFrom base (pmmMaxPages - m.pageStack.length)))) ∧
    (pagesBetween base endAddr ≤ pmmMaxPages - m.pageStack.length →
      collectUsableRegion m base endAddr =
        (.ok (), m.collectAll (pagesFrom base (pagesBetween base endAddr)))) := by
  obtain ⟨hbase, halign, hlt, _⟩ := MemmapEntry.range_eq_some hrange
  have hend := MemmapEntry.range_end hrange hlast
  obtain ⟨n, hstate, hle, hends⟩ :=
    collectLoop_run hend (pmmMaxPages - m.pageStack.length) base m (by omega)
  have hrun : collectUsableRegion m base endAddr =
      ((collectLoop endAddr (pmmMaxPages - m.pageStack.length) base m).1,
        m.collectAll (pagesFrom base n)) := by
    rw [← hstate]
    rfl
  unfold pagesBetween
  rcases hends with ⟨hok, hroom, hstop⟩ | ⟨⟨e, herror⟩, hroom, hmore⟩
  · have hn : n = (endAddr.toNat - base.toNat) / 4096 := by omega
    rw [hok, hn] at hrun
    exact ⟨fun hfull => by omega, fun _ => hrun⟩
  · rw [herror, hroom] at hrun
    exact ⟨fun _ => ⟨e, hrun⟩, fun hfits => by omega⟩

/-- What the loop over the entries puts on the stack. -/
theorem initEntries_collected (memmap : Memmap) :
    ∀ m : Pmm, (initEntries memmap m).pageStack =
      (collected memmap (pmmMaxPages - m.pageStack.length)).reverse ++ m.pageStack := by
  -- By induction on the memory map, as the entries are taken in turn.
  induction memmap with
  | nil =>
    intro m
    rfl
  | cons item memmap ih =>
    intro m
    unfold collected
    cases hitem : usableRange item with
    | none =>
      obtain ⟨m', hskip, hstack⟩ := initEntries_skip hitem memmap m
      rw [hskip, ih, hstack]
    | some range =>
      obtain ⟨base, endAddr⟩ := range
      obtain ⟨entry, rfl, husable, hrange⟩ := usableRange_eq_some hitem
      dsimp only
      by_cases hlast : endAddr = lastPage
      · rw [if_pos (.inl hlast)]
        rw [hlast] at hrange
        exact initEntries_lastPage husable hrange memmap m
      · set m' : Pmm := { m with
          usableRegions := recordRegion m.usableRegions ⟨base, endAddr - base, entry.type⟩ } with hm'
        obtain ⟨hfull, hfits⟩ := collectUsableRegion_run hrange hlast m'
        by_cases hroom : pmmMaxPages - m.pageStack.length < pagesBetween base endAddr
        · rw [if_pos (.inr hroom)]
          obtain ⟨e, hcollect⟩ := hfull hroom
          rw [initEntries, hrange]
          dsimp only
          rw [if_pos husable, hcollect]
          rfl
        · have hcollect := hfits (by simpa using hroom)
          rw [if_neg (by rw [not_or]; exact ⟨hlast, hroom⟩),
            initEntries_usable husable hrange hcollect, ih]
          have hstack : (m'.collectAll (pagesFrom base (pagesBetween base endAddr))).pageStack =
              (pagesFrom base (pagesBetween base endAddr)).reverse ++ m.pageStack := rfl
          rw [hstack, List.length_append, List.length_reverse, length_pagesFrom, List.reverse_append,
            List.append_assoc]
          congr 3
          omega

/-! ## Usable memory -/

/-- The page from `p` on lies in an entry of usable memory that does not wrap. -/
def Backed (memmap : Memmap) (p : UInt64) : Prop :=
  ∃ entry, some entry ∈ memmap ∧ entry.type = memmapUsable ∧
    entry.base.toNat + entry.length.toNat ≤ 2 ^ 64 ∧ entry.base.toNat ≤ p.toNat ∧
    p.toNat + 4096 ≤ entry.base.toNat + entry.length.toNat

/-- The number of pages of the usable entries of a map. -/
def pageTotal : Memmap → Nat
  | [] => 0
  | item :: memmap =>
    match usableRange item with
    | none => pageTotal memmap
    | some (base, endAddr) => pagesBetween base endAddr + pageTotal memmap

/-- `item` is the first of the map whose pages reach up to the last page, with the
    items `before` it; its pages start at `base`. -/
structure FirstAtTop (memmap before : Memmap) (base : UInt64) : Prop where
  split : ∃ item after, memmap = before ++ item :: after ∧
    usableRange item = some (base, lastPage)
  below : ∀ item ∈ before, ∀ base', usableRange item ≠ some (base', lastPage)

theorem not_firstAtTop_nil {before : Memmap} {base : UInt64} : ¬ FirstAtTop [] before base := by
  intro h
  obtain ⟨item, after, heq, _⟩ := h.split
  cases before with
  | nil => cases heq
  | cons _ _ => cases heq

/-- The first item is one that reaches the top, or belongs to those before it. -/
theorem firstAtTop_cons {item : Option MemmapEntry} {memmap before : Memmap} {base : UInt64} :
    FirstAtTop (item :: memmap) before base ↔
      (before = [] ∧ usableRange item = some (base, lastPage)) ∨
      ∃ before', before = item :: before' ∧ FirstAtTop memmap before' base ∧
        ∀ base', usableRange item ≠ some (base', lastPage) := by
  constructor
  · intro h
    obtain ⟨top, after, heq, htop⟩ := h.split
    cases before with
    | nil =>
      obtain ⟨rfl, _⟩ := List.cons.inj heq
      exact .inl ⟨rfl, htop⟩
    | cons head before' =>
      obtain ⟨rfl, hrest⟩ := List.cons.inj heq
      exact .inr ⟨before', rfl,
        ⟨⟨top, after, hrest, htop⟩, fun i hi => h.below i (List.mem_cons_of_mem _ hi)⟩,
        h.below item List.mem_cons_self⟩
  · intro h
    rcases h with ⟨rfl, htop⟩ | ⟨before', rfl, hrest, hne⟩
    · exact ⟨⟨item, memmap, rfl, htop⟩, fun i hi => absurd hi List.not_mem_nil⟩
    · obtain ⟨top, after, heq, htop⟩ := hrest.split
      refine ⟨⟨top, after, by rw [heq]; rfl, htop⟩, ?_⟩
      intro i hi
      rcases List.mem_cons.mp hi with rfl | hi
      · exact hne
      · exact hrest.below i hi

theorem mem_pagesFrom_iff {page p : UInt64} {n : Nat} :
    p ∈ pagesFrom page n ↔ ∃ i < n, p = page + 4096 * UInt64.ofNat i := by
  constructor
  · intro h
    induction n generalizing page with
    | zero => cases h
    | succ n ih =>
      rw [pagesFrom, List.mem_cons] at h
      rcases h with rfl | h
      · exact ⟨0, Nat.succ_pos n, (UInt64.add_zero p).symm⟩
      · obtain ⟨i, hi, hp⟩ := ih h
        refine ⟨i + 1, Nat.succ_lt_succ hi, ?_⟩
        rw [hp, UInt64.ofNat_add, UInt64.mul_add, UInt64.add_comm (4096 * UInt64.ofNat i),
          UInt64.add_assoc]
        rfl
  · intro h
    obtain ⟨i, hi, rfl⟩ := h
    exact add_mem_pagesFrom hi page

/-- The pages of a range below the last page are in its entry. -/
theorem backed_of_range {memmap : Memmap} {entry : MemmapEntry} {base endAddr p : UInt64}
    (hmem : some entry ∈ memmap) (husable : entry.type = memmapUsable)
    (hrange : entry.range = some (base, endAddr)) (hlast : endAddr ≠ lastPage) {n : Nat}
    (hn : n ≤ pagesBetween base endAddr) (hp : p ∈ pagesFrom base n) : Backed memmap p := by
  have hend := MemmapEntry.range_end hrange hlast
  obtain ⟨_, _, hlt, hwrap | ⟨hlo, hhi⟩⟩ := MemmapEntry.range_eq_some hrange
  · exact absurd hwrap.2 hlast
  unfold pagesBetween at hn
  obtain ⟨i, hi, hpi⟩ := (mem_pagesFrom (by omega)).mp hp
  have hraw : entry.base.toNat + entry.length.toNat ≤ 2 ^ 64 := by
    -- A sum that wraps is below the base, and such an entry is passed over.
    unfold MemmapEntry.range at hrange
    dsimp only at hrange
    split at hrange
    · cases hrange
    split at hrange
    · cases hrange
    next hok =>
    rw [UInt64.lt_iff_toNat_lt, UInt64.toNat_add] at hok
    have hb := entry.base.toNat_lt
    have hl := entry.length.toNat_lt
    omega
  exact ⟨entry, hmem, husable, hraw, by omega, by omega⟩

/-- All pages that are collected satisfy `P`, which the entries below the last page
    do anyway, exactly when those collected from the first entry that reaches the last
    page do. -/
theorem collected_iff {P : UInt64 → Prop} (memmap : Memmap) :
    ∀ room, (∀ item ∈ memmap, ∀ base endAddr, usableRange item = some (base, endAddr) →
        endAddr ≠ lastPage → ∀ n ≤ pagesBetween base endAddr, ∀ p ∈ pagesFrom base n, P p) →
      ((∀ p ∈ collected memmap room, P p) ↔
        ∀ before base, FirstAtTop memmap before base →
          ∀ i < room - pageTotal before, P (base + 4096 * UInt64.ofNat i)) := by
  induction memmap with
  | nil =>
    intro room _
    constructor
    · intro _ before base htop
      exact absurd htop not_firstAtTop_nil
    · intro _ p hp
      cases hp
  | cons item memmap ih =>
    intro room hbelow
    have ih' := fun room => ih room fun i hi => hbelow i (List.mem_cons_of_mem _ hi)
    simp only [firstAtTop_cons]
    unfold collected
    cases hitem : usableRange item with
    | none =>
      -- The item is passed over on both sides.
      dsimp only
      rw [ih' room]
      constructor
      · intro h before base hfirst
        rcases hfirst with ⟨_, htop⟩ | ⟨before', rfl, hrest, _⟩
        · cases htop
        · rw [pageTotal, hitem]
          exact h before' base hrest
      · intro h before base hrest
        have hstep := h (item :: before) base (.inr ⟨before, rfl, hrest, nofun⟩)
        rw [pageTotal, hitem] at hstep
        exact hstep
    | some range =>
      obtain ⟨first, endAddr⟩ := range
      dsimp only
      by_cases hlast : endAddr = lastPage
      · -- The item reaches the top: its pages fill the stack.
        rw [if_pos (.inl hlast), hlast]
        constructor
        · intro h before base hfirst i hi
          rcases hfirst with ⟨rfl, htop⟩ | ⟨_, _, _, hne⟩
          · obtain ⟨rfl, _⟩ := Prod.mk.inj (Option.some.inj htop)
            exact h _ (add_mem_pagesFrom hi _)
          · exact absurd rfl (hne first)
        · intro h p hp
          obtain ⟨i, hi, rfl⟩ := mem_pagesFrom_iff.mp hp
          exact h [] first (.inl ⟨rfl, rfl⟩) i hi
      · have hown := hbelow item List.mem_cons_self first endAddr hitem hlast
        have hne : ∀ base', some (first, endAddr) ≠ some (base', lastPage) := by
          intro base' heq
          exact hlast (Prod.mk.inj (Option.some.inj heq)).2
        by_cases hroom : room < pagesBetween first endAddr
        · -- The stack is full before the end of the item.
          rw [if_pos (.inr hroom)]
          constructor
          · intro _ before base hfirst i hi
            rcases hfirst with ⟨_, htop⟩ | ⟨before', rfl, _, _⟩
            · exact absurd htop (hne base)
            · rw [pageTotal, hitem] at hi
              dsimp only at hi
              omega
          · intro _ p hp
            exact hown room (Nat.le_of_lt hroom) p hp
        · rw [if_neg (by rw [not_or]; exact ⟨hlast, hroom⟩)]
          simp only [List.mem_append]
          have hsub : ∀ before, room - pageTotal (item :: before) =
              room - pagesBetween first endAddr - pageTotal before := by
            intro before
            rw [pageTotal, hitem]
            dsimp only
            omega
          constructor
          · intro h before base hfirst
            rcases hfirst with ⟨_, htop⟩ | ⟨before', rfl, hrest, _⟩
            · exact absurd htop (hne base)
            · rw [hsub]
              exact (ih' _).mp (fun p hp => h p (.inr hp)) before' base hrest
          · intro h p hp
            rcases hp with hp | hp
            · exact hown _ le_rfl p hp
            · refine (ih' _).mpr ?_ p hp
              intro before base hrest
              have hstep := h (item :: before) base (.inr ⟨before, rfl, hrest, hne⟩)
              rw [hsub] at hstep
              exact hstep

/-- The condition: the pages taken from the first entry that reaches up to the last
    page, as many as the entries before it leave room for and counted beyond the end of
    the address space, are usable memory. -/
def TopPagesBacked (memmap : Memmap) : Prop :=
  ∀ before base, FirstAtTop memmap before base →
    ∀ i < pmmMaxPages - pageTotal before, Backed memmap (base + 4096 * UInt64.ofNat i)

theorem pmmInit_collected (memmap : Memmap) :
    (pmmInit Pmm.zero memmap).2.pageStack = (collected memmap pmmMaxPages).reverse := by
  by_cases hempty : memmap = []
  · rw [hempty]
    rfl
  · rw [pmmInit_pageStack _ hempty, initEntries_collected]
    exact List.append_nil _

theorem aligned_of_mem_collected (memmap : Memmap) :
    ∀ room, ∀ p ∈ collected memmap room, p.toNat % 4096 = 0 := by
  -- Pages are counted from a base that is aligned.
  have hpages : ∀ base : UInt64, base.toNat % 4096 = 0 → ∀ n, ∀ p ∈ pagesFrom base n,
      p.toNat % 4096 = 0 := by
    intro base halign n p hp
    obtain ⟨i, _, rfl⟩ := mem_pagesFrom_iff.mp hp
    have hmul : (4096 * UInt64.ofNat i).toNat % 4096 = 0 := by
      rw [UInt64.toNat_mul]
      show 4096 * _ % 2 ^ 64 % 4096 = 0
      omega
    rw [UInt64.toNat_add]
    omega
  induction memmap with
  | nil =>
    intro room p hp
    cases hp
  | cons item memmap ih =>
    intro room p hp
    unfold collected at hp
    cases hitem : usableRange item with
    | none =>
      rw [hitem] at hp
      exact ih room p hp
    | some range =>
      obtain ⟨base, endAddr⟩ := range
      obtain ⟨entry, _, _, hrange⟩ := usableRange_eq_some hitem
      have halign := (MemmapEntry.range_eq_some hrange).1
      rw [hitem] at hp
      dsimp only at hp
      split at hp
      · exact hpages base halign _ p hp
      · rcases List.mem_append.mp hp with hp | hp
        · exact hpages base halign _ p hp
        · exact ih _ p hp

/-- **Collection.**  After `scdk_pmm_init` every page on the stack is aligned and in
    usable memory exactly when the entry that first reaches up to the last page does
    no harm. -/
theorem collected_usable_iff (memmap : Memmap) :
    (∀ p ∈ (pmmInit Pmm.zero memmap).2.pageStack, p.toNat % 4096 = 0 ∧ Backed memmap p) ↔
      TopPagesBacked memmap := by
  have hbelow : ∀ item ∈ memmap, ∀ base endAddr, usableRange item = some (base, endAddr) →
      endAddr ≠ lastPage → ∀ n ≤ pagesBetween base endAddr, ∀ p ∈ pagesFrom base n,
        Backed memmap p := by
    intro item hmem base endAddr hitem hlast n hn p hp
    obtain ⟨entry, rfl, husable, hrange⟩ := usableRange_eq_some hitem
    exact backed_of_range hmem husable hrange hlast hn hp
  rw [pmmInit_collected]
  unfold TopPagesBacked
  rw [← collected_iff memmap pmmMaxPages hbelow]
  constructor
  · intro h p hp
    exact (h p (List.mem_reverse.mpr hp)).2
  · intro h p hp
    have hmem := List.mem_reverse.mp hp
    exact ⟨aligned_of_mem_collected memmap _ p hmem, h p hmem⟩

/-- The second entry ends where the last page begins, and the loop goes on with that
    page and with page zero. -/
theorem collected_usable_fails :
    ¬ ∀ memmap : Memmap, ∀ p ∈ (pmmInit Pmm.zero memmap).2.pageStack,
      p.toNat % 4096 = 0 ∧ Backed memmap p := by
  intro hall
  have htop : FirstAtTop highMemmap [some ⟨0x1000, 0x2000, 0⟩] 0xffffffffffffe000 := by
    refine ⟨⟨some ⟨0xffffffffffffe000, 0x1000, 0⟩, [], rfl, by decide⟩, ?_⟩
    intro item hitem base'
    rw [List.mem_singleton.mp hitem]
    have hlow : usableRange (some ⟨0x1000, 0x2000, 0⟩) = some (0x1000, 0x3000) := by decide
    rw [hlow]
    intro heq
    exact absurd (Prod.mk.inj (Option.some.inj heq)).2 (by decide)
  have hbacked := (collected_usable_iff highMemmap).mp (hall highMemmap) _ _ htop 2 (by decide)
  obtain ⟨entry, hmem, _, _, hbase, _⟩ := hbacked
  -- Page zero is below both entries.
  have hzero : (0xffffffffffffe000 + 4096 * UInt64.ofNat 2 : UInt64).toNat = 0 := by decide
  rw [hzero] at hbase
  rcases List.mem_cons.mp hmem with heq | hmem
  · obtain rfl := Option.some.inj heq
    exact absurd hbase (by decide)
  · obtain rfl := Option.some.inj (List.mem_singleton.mp hmem)
    exact absurd hbase (by decide)

/-! ## Pages and regions -/

namespace PmmRegion

/-- The region does not wrap past the end of the address space. -/
def Fits (region : PmmRegion) : Prop := region.base.toNat + region.length.toNat ≤ 2 ^ 64

/-- The region ends with the address space. -/
def AtTop (region : PmmRegion) : Prop := region.base.toNat + region.length.toNat = 2 ^ 64

/-- The 4096 bytes from `phys` on lie in the region. -/
def Holds (region : PmmRegion) (phys : UInt64) : Prop :=
  region.base.toNat ≤ phys.toNat ∧
    phys.toNat + 4096 ≤ region.base.toNat + region.length.toNat

/-- One of the 4096 bytes from `phys` on lies in the region. -/
def Meets (region : PmmRegion) (phys : UInt64) : Prop :=
  ∃ x, phys.toNat ≤ x ∧ x < phys.toNat + 4096 ∧ region.base.toNat ≤ x ∧
    x < region.base.toNat + region.length.toNat

end PmmRegion

/-- `phys` is a page of a usable region. -/
def Pmm.UsablePage (m : Pmm) (phys : UInt64) : Prop :=
  phys.toNat % 4096 = 0 ∧ ∃ region ∈ m.usableRegions, region.Holds phys

/-- `phys` is not a page, or meets a reserved region, or is not usable. -/
def Pmm.ReservedPage (m : Pmm) (phys : UInt64) : Prop :=
  phys.toNat % 4096 ≠ 0 ∨ (∃ region ∈ m.reservedRegions, region.Meets phys) ∨ ¬ m.UsablePage phys

section tests

variable {region : PmmRegion} {phys : UInt64}

theorem toNat_nextPage (halign : phys.toNat % 4096 = 0) :
    (phys = lastPage ∧ (phys + 4096).toNat = 0) ∨
      (phys ≠ lastPage ∧ (phys + 4096).toNat = phys.toNat + 4096) := by
  have hlt := phys.toNat_lt
  have hnext : (phys + 4096).toNat = (phys.toNat + 4096) % 2 ^ 64 := UInt64.toNat_add ..
  rw [ne_eq, ← UInt64.toNat_inj, toNat_lastPage, hnext]
  omega

/-- `range_contains_page`: a region that ends with the address space has no pages,
    and the last page belongs to every other one below it. -/
theorem rangeContainsPage_iff (hfits : region.Fits) (halign : phys.toNat % 4096 = 0) :
    rangeContainsPage region phys = true ↔
      ¬ region.AtTop ∧ region.base.toNat ≤ phys.toNat ∧ (phys = lastPage ∨ region.Holds phys) := by
  have hb := region.base.toNat_lt
  have hl := region.length.toNat_lt
  have hsum : (region.base + region.length).toNat =
      (region.base.toNat + region.length.toNat) % 2 ^ 64 := UInt64.toNat_add ..
  unfold PmmRegion.Fits at hfits
  have hcmp : region.base + region.length < region.base ↔
      (region.base.toNat + region.length.toNat) % 2 ^ 64 < region.base.toNat := by
    rw [UInt64.lt_iff_toNat_lt, hsum]
  unfold rangeContainsPage PmmRegion.AtTop PmmRegion.Holds
  dsimp only
  by_cases htop : region.base.toNat + region.length.toNat = 2 ^ 64
  · have hwrap : (region.base.toNat + region.length.toNat) % 2 ^ 64 < region.base.toNat := by omega
    rw [if_pos (hcmp.mpr hwrap)]
    simp [htop]
  · have hwrap : ¬ (region.base.toNat + region.length.toNat) % 2 ^ 64 < region.base.toNat := by omega
    rw [if_neg (fun h => hwrap (hcmp.mp h)), decide_eq_true_eq, UInt64.le_iff_toNat_le,
      UInt64.le_iff_toNat_le, hsum]
    rcases toNat_nextPage halign with ⟨hlast, hnext⟩ | ⟨hlast, hnext⟩
    · rw [hnext]
      simp only [hlast, true_or, and_true]
      omega
    · rw [hnext]
      simp only [htop, hlast, not_false_eq_true, true_and, false_or]
      omega

/-- `page_overlaps_region`: sums that wrap count as an overlap, and an empty region
    overlaps the page that it is in. -/
theorem pageOverlapsRegion_iff (hfits : region.Fits) (halign : phys.toNat % 4096 = 0) :
    pageOverlapsRegion region phys = true ↔
      phys = lastPage ∨ region.AtTop ∨
        (phys.toNat < region.base.toNat + region.length.toNat ∧
          region.base.toNat < phys.toNat + 4096) := by
  have hb := region.base.toNat_lt
  have hl := region.length.toNat_lt
  have hsum : (region.base + region.length).toNat =
      (region.base.toNat + region.length.toNat) % 2 ^ 64 := UInt64.toNat_add ..
  have hpos := phys.toNat_lt
  unfold PmmRegion.Fits at hfits
  have hcmp : region.base + region.length < region.base ↔
      (region.base.toNat + region.length.toNat) % 2 ^ 64 < region.base.toNat := by
    rw [UInt64.lt_iff_toNat_lt, hsum]
  unfold pageOverlapsRegion PmmRegion.AtTop
  dsimp only
  -- Either end can wrap; then the source reports an overlap.
  rcases toNat_nextPage halign with ⟨hlast, hnext⟩ | ⟨hlast, hnext⟩
  · have hwrap : (phys + 4096).toNat < phys.toNat := by
      rw [hnext, hlast, toNat_lastPage]
      decide
    rw [if_pos (.inl (UInt64.lt_iff_toNat_lt.mpr hwrap))]
    simp [hlast]
  · by_cases htop : region.base.toNat + region.length.toNat = 2 ^ 64
    · have hwrap : (region.base.toNat + region.length.toNat) % 2 ^ 64 < region.base.toNat := by omega
      rw [if_pos (.inr (hcmp.mpr hwrap))]
      simp [htop]
    · have hgo : ¬ (phys + 4096 < phys ∨ region.base + region.length < region.base) := by
        rw [hcmp, UInt64.lt_iff_toNat_lt, hnext]
        omega
      rw [if_neg hgo, decide_eq_true_eq, UInt64.lt_iff_toNat_lt,
        UInt64.lt_iff_toNat_lt, hsum, hnext, Nat.mod_eq_of_lt (by omega)]
      simp only [hlast, htop, false_or]

/-- Overlap of intervals, with the empty region apart. -/
theorem overlaps_iff :
    (phys.toNat < region.base.toNat + region.length.toNat ∧
        region.base.toNat < phys.toNat + 4096) ↔
      region.Meets phys ∨ (region.length = 0 ∧ phys.toNat < region.base.toNat ∧
        region.base.toNat < phys.toNat + 4096) := by
  have hzero : region.length = 0 ↔ region.length.toNat = 0 := by
    rw [← UInt64.toNat_inj]
    rfl
  rw [hzero]
  unfold PmmRegion.Meets
  constructor
  · intro ⟨hlo, hhi⟩
    by_cases hempty : region.length.toNat = 0
    · exact .inr ⟨hempty, by omega, hhi⟩
    · exact .inl ⟨max phys.toNat region.base.toNat, by omega, by omega, by omega, by omega⟩
  · intro h
    rcases h with ⟨x, h1, h2, h3, h4⟩ | ⟨hempty, hlo, hhi⟩
    · omega
    · omega

end tests

/-- When the tests of the page `phys` are right.
    * `top`: a usable region that ends with the address space is not the only one that
      has the page;
    * `last`: the last page is not taken for one of a region that ends before it, unless
      it is usable anyway;
    * `reserved`: a usable page that meets no reserved region is not the last page while
      there are reserved regions at all, and no reserved region ends with the address
      space or is empty and strictly inside the page. -/
structure WellJudged (m : Pmm) (phys : UInt64) : Prop where
  top : ∀ region ∈ m.usableRegions, region.AtTop → region.Holds phys →
    ∃ region' ∈ m.usableRegions, ¬ region'.AtTop ∧ region'.base.toNat ≤ phys.toNat ∧
      (phys = lastPage ∨ region'.Holds phys)
  last : phys = lastPage → ∀ region ∈ m.usableRegions, ¬ region.AtTop →
    region.base.toNat ≤ phys.toNat → ∃ region' ∈ m.usableRegions, region'.AtTop ∧
      region'.Holds phys
  reserved : m.UsablePage phys → (∀ region ∈ m.reservedRegions, ¬ region.Meets phys) →
    ∀ region ∈ m.reservedRegions, phys ≠ lastPage ∧ ¬ region.AtTop ∧
      ¬ (region.length = 0 ∧ phys.toNat < region.base.toNat ∧
        region.base.toNat < phys.toNat + 4096)

/-- No recorded region wraps. -/
structure RegionsFit (m : Pmm) : Prop where
  usable : ∀ region ∈ m.usableRegions, region.Fits
  reserved : ∀ region ∈ m.reservedRegions, region.Fits

section classification

variable {m : Pmm} {phys : UInt64}

/-- What `scdk_pmm_is_usable_page` says of an aligned address. -/
theorem isUsablePage_iff (hfit : RegionsFit m) (halign : phys.toNat % 4096 = 0) :
    m.isUsablePage phys = true ↔
      ∃ region ∈ m.usableRegions, ¬ region.AtTop ∧ region.base.toNat ≤ phys.toNat ∧
        (phys = lastPage ∨ region.Holds phys) := by
  have hlow : phys &&& 0xfff = 0 := (and_low_eq_zero phys).mpr halign
  unfold Pmm.isUsablePage
  rw [if_neg (not_not_intro hlow), List.any_eq_true]
  constructor
  · intro ⟨region, hmem, hin⟩
    exact ⟨region, hmem, (rangeContainsPage_iff (hfit.usable region hmem) halign).mp hin⟩
  · intro ⟨region, hmem, hin⟩
    exact ⟨region, hmem, (rangeContainsPage_iff (hfit.usable region hmem) halign).mpr hin⟩

/-- What `scdk_pmm_is_reserved_page` says of an aligned address. -/
theorem isReservedPage_iff (hfit : RegionsFit m) (halign : phys.toNat % 4096 = 0) :
    m.isReservedPage phys = true ↔
      (∃ region ∈ m.reservedRegions, phys = lastPage ∨ region.AtTop ∨ region.Meets phys ∨
        (region.length = 0 ∧ phys.toNat < region.base.toNat ∧
          region.base.toNat < phys.toNat + 4096)) ∨
      m.isUsablePage phys = false := by
  have hlow : phys &&& 0xfff = 0 := (and_low_eq_zero phys).mpr halign
  have hany : (m.reservedRegions.any fun region => pageOverlapsRegion region phys) = true ↔
      ∃ region ∈ m.reservedRegions, phys = lastPage ∨ region.AtTop ∨ region.Meets phys ∨
        (region.length = 0 ∧ phys.toNat < region.base.toNat ∧
          region.base.toNat < phys.toNat + 4096) := by
    rw [List.any_eq_true]
    constructor
    · intro ⟨region, hmem, hin⟩
      rw [pageOverlapsRegion_iff (hfit.reserved region hmem) halign, overlaps_iff] at hin
      exact ⟨region, hmem, hin⟩
    · intro ⟨region, hmem, hin⟩
      refine ⟨region, hmem, ?_⟩
      rw [pageOverlapsRegion_iff (hfit.reserved region hmem) halign, overlaps_iff]
      exact hin
  unfold Pmm.isReservedPage
  rw [if_neg (not_not_intro hlow), ← hany]
  split
  · next hres => simp [hres]
  · next hres => simp [hres]

/-- The test for usable pages is right. -/
theorem usable_iff_wellJudged (hfit : RegionsFit m) (halign : phys.toNat % 4096 = 0) :
    (m.isUsablePage phys = true ↔ m.UsablePage phys) ↔
      (∀ region ∈ m.usableRegions, region.AtTop → region.Holds phys →
        ∃ region' ∈ m.usableRegions, ¬ region'.AtTop ∧ region'.base.toNat ≤ phys.toNat ∧
          (phys = lastPage ∨ region'.Holds phys)) ∧
      (phys = lastPage → ∀ region ∈ m.usableRegions, ¬ region.AtTop →
        region.base.toNat ≤ phys.toNat → ∃ region' ∈ m.usableRegions, region'.AtTop ∧
          region'.Holds phys) := by
  rw [isUsablePage_iff hfit halign]
  -- Only a region that ends with the address space has the last page.
  have hlastTop : ∀ region ∈ m.usableRegions, phys = lastPage → region.Holds phys →
      region.AtTop := by
    intro region hmem hlast hholds
    have hregion := hfit.usable region hmem
    unfold PmmRegion.Holds at hholds
    unfold PmmRegion.Fits at hregion
    unfold PmmRegion.AtTop
    rw [hlast, toNat_lastPage] at hholds
    omega
  constructor
  · intro h
    constructor
    · intro region hmem _ hholds
      exact h.mpr ⟨halign, region, hmem, hholds⟩
    · intro hlast region hmem hnot hbase
      obtain ⟨_, region', hmem', hholds⟩ := h.mp ⟨region, hmem, hnot, hbase, .inl hlast⟩
      exact ⟨region', hmem', hlastTop region' hmem' hlast hholds, hholds⟩
  · intro ⟨htop, hlast⟩
    constructor
    · intro ⟨region, hmem, hnot, hbase, hin⟩
      rcases hin with heq | hholds
      · obtain ⟨region', hmem', _, hholds⟩ := hlast heq region hmem hnot hbase
        exact ⟨halign, region', hmem', hholds⟩
      · exact ⟨halign, region, hmem, hholds⟩
    · intro ⟨_, region, hmem, hholds⟩
      by_cases hat : region.AtTop
      · exact htop region hmem hat hholds
      · exact ⟨region, hmem, hat, hholds.1, .inr hholds⟩

/-- **Classification.**  The two tests of a page say what they are meant to say exactly
    for addresses that are not aligned and for pages that are well judged. -/
theorem classification_iff (hfit : RegionsFit m) :
    ((m.isUsablePage phys = true ↔ m.UsablePage phys) ∧
        (m.isReservedPage phys = true ↔ m.ReservedPage phys)) ↔
      (phys.toNat % 4096 = 0 → WellJudged m phys) := by
  by_cases halign : phys.toNat % 4096 = 0
  · have husable := usable_iff_wellJudged hfit halign
    have hreserved := isReservedPage_iff hfit halign
    have hfalse : m.isUsablePage phys = false ↔ ¬ m.isUsablePage phys = true := by simp
    rw [hfalse] at hreserved
    have hspec : m.ReservedPage phys ↔
        (∃ region ∈ m.reservedRegions, region.Meets phys) ∨ ¬ m.UsablePage phys := by
      unfold Pmm.ReservedPage
      simp [halign]
    rw [hreserved, hspec]
    constructor
    · intro ⟨hright, hres⟩ _
      obtain ⟨htop, hlast⟩ := husable.mp hright
      refine ⟨htop, hlast, ?_⟩
      intro hpage hnone region hmem
      -- Such a region would make the page reserved.
      have hfree : ¬ ∃ region ∈ m.reservedRegions, phys = lastPage ∨ region.AtTop ∨
          region.Meets phys ∨ (region.length = 0 ∧ phys.toNat < region.base.toNat ∧
            region.base.toNat < phys.toNat + 4096) := by
        intro hsome
        rcases hres.mp (.inl hsome) with ⟨region', hmem', hmeets⟩ | hnot
        · exact hnone region' hmem' hmeets
        · exact hnot hpage
      refine ⟨fun h => hfree ⟨region, hmem, .inl h⟩, fun h => hfree ⟨region, hmem, .inr (.inl h)⟩,
        fun h => hfree ⟨region, hmem, .inr (.inr (.inr h))⟩⟩
    · intro hjudged
      have hj := hjudged halign
      have hright := husable.mpr ⟨hj.top, hj.last⟩
      refine ⟨hright, ?_⟩
      rw [hright]
      constructor
      · intro h
        rcases h with ⟨region, hmem, hover⟩ | hnot
        · by_cases hpage : m.UsablePage phys
          · by_cases hmeets : ∃ region ∈ m.reservedRegions, region.Meets phys
            · exact .inl hmeets
            · have hnone : ∀ region ∈ m.reservedRegions, ¬ region.Meets phys :=
                fun r hr h => hmeets ⟨r, hr, h⟩
              obtain ⟨hlast, hnot, hempty⟩ := hj.reserved hpage hnone region hmem
              rcases hover with h | h | h | h
              · exact absurd h hlast
              · exact absurd h hnot
              · exact absurd h (hnone region hmem)
              · exact absurd h hempty
          · exact .inr hpage
        · exact .inr hnot
      · intro h
        rcases h with ⟨region, hmem, hmeets⟩ | hnot
        · exact .inl ⟨region, hmem, .inr (.inr (.inl hmeets))⟩
        · exact .inr hnot
  · have hlow : phys &&& 0xfff ≠ 0 := fun h => halign ((and_low_eq_zero phys).mp h)
    have husable : m.isUsablePage phys = false := if_pos hlow
    have hreserved : m.isReservedPage phys = true := if_pos hlow
    unfold Pmm.UsablePage Pmm.ReservedPage
    simp [halign, husable, hreserved]

end classification

/-- The theorem at the first page of `lowMemmap`, which is judged well. -/
theorem classification_first :
    let m := (pmmInit Pmm.zero lowMemmap).2
    (m.isUsablePage 0x1000 = true ↔ m.UsablePage 0x1000) ∧
      (m.isReservedPage 0x1000 = true ↔ m.ReservedPage 0x1000) := by
  intro m
  have husable : m.usableRegions = [⟨0x1000, 0x2000, 0⟩] := by decide +kernel
  have hreserved : m.reservedRegions = [⟨0x8000, 0x1000, 1⟩] := by decide +kernel
  have hfit : RegionsFit m := by
    constructor
    · intro region hmem
      rw [husable, List.mem_singleton] at hmem
      rw [hmem]
      unfold PmmRegion.Fits
      decide
    · intro region hmem
      rw [hreserved, List.mem_singleton] at hmem
      rw [hmem]
      unfold PmmRegion.Fits
      decide
  apply (classification_iff hfit).mpr
  intro _
  constructor
  · intro region hmem htop _
    rw [husable, List.mem_singleton] at hmem
    rw [hmem] at htop
    unfold PmmRegion.AtTop at htop
    exact absurd htop (by decide)
  · intro hlast
    exact absurd hlast (by decide)
  · intro _ _ region hmem
    rw [hreserved, List.mem_singleton] at hmem
    rw [hmem]
    unfold PmmRegion.AtTop
    decide

/-- With one usable region of two pages, the last page of the address space is taken
    for usable. -/
theorem classification_fails :
    ¬ ∀ (m : Pmm) (phys : UInt64), RegionsFit m →
      (m.isUsablePage phys = true ↔ m.UsablePage phys) ∧
        (m.isReservedPage phys = true ↔ m.ReservedPage phys) := by
  intro hall
  set m := (pmmInit Pmm.zero [some ⟨0x1000, 0x2000, 0⟩]).2 with hm
  have husable : m.usableRegions = [⟨0x1000, 0x2000, 0⟩] := by decide +kernel
  have hreserved : m.reservedRegions = [] := by decide +kernel
  have hfit : RegionsFit m := by
    constructor
    · intro region hmem
      rw [husable, List.mem_singleton] at hmem
      rw [hmem]
      unfold PmmRegion.Fits
      decide
    · intro region hmem
      rw [hreserved] at hmem
      cases hmem
  have hcode : m.isUsablePage lastPage = true := by decide +kernel
  obtain ⟨_, region, hmem, hholds⟩ := (hall m lastPage hfit).1.mp hcode
  rw [husable, List.mem_singleton] at hmem
  rw [hmem] at hholds
  unfold PmmRegion.Holds at hholds
  exact absurd hholds (by decide)

end Scdk
