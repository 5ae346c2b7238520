import Scdk.Mm.RootTree
import Scdk.Mm.Pmm
import Mathlib.Data.Finset.Card
import Mathlib.Data.Finset.Insert

/-! # Page tables with the page allocator

    `scdk_vmm_map_page` takes the pages for the tables it makes from the page stack
    of `pmm.c`.  This file puts the two together, and says exactly which pages a
    mapping takes.

    * `Paging`: both states; `Paging.mapPage`, `Paging.unmapPage`, …: the calls in the
      active root,
    * `missingTables`: the tables that are not there,
    * `Search`: what `leaf_table_for_root` has made so far; one page of the stack for
      each table that was missing,
    * `mapPage_cases`: the four ways a mapping can go. -/

namespace Scdk

open Radix

/-! ## Both states -/

/-- `scdk_vmm_map_page_in_root`, with the answers of `scdk_page_alloc` that are left. -/
def vmmMapPageWith (v : Vmm) (pages : PageSupply) (rootPhys virt phys flags : UInt64) :
    Except Err Unit × Vmm × PageSupply :=
  match validateRoot v rootPhys with
  | .error e => (.error e, v, pages)
  | .ok _ =>
    match validateVmmAddress v virt with
    | .error e => (.error e, v, pages)
    | .ok _ =>
      if isPageAligned phys = false ∨ flags &&& ~~~(vmmMapWrite ||| vmmMapUser) ≠ 0 then
        (.error .inval, v, pages)
      else
        let tableFlags := if flags &&& vmmMapUser ≠ 0 then Pte.user else 0
        match leafTableForRoot v.tables pages rootPhys virt true tableFlags with
        | (.error e, tables, pages) => (.error e, { v with tables }, pages)
        | (.ok pt, tables, pages) =>
          if tables pt (ptIndex virt) &&& Pte.present ≠ 0 then
            (.error .busy, { v with tables }, pages)
          else
            (.ok (), { v with tables := tables.setEntry pt (ptIndex virt) (leafEntry phys flags) },
              pages)

theorem vmmMapPageWith_eq (v : Vmm) (pages : PageSupply) (rootPhys virt phys flags : UInt64) :
    vmmMapPageInRoot v pages rootPhys virt phys flags =
      ((vmmMapPageWith v pages rootPhys virt phys flags).1,
        (vmmMapPageWith v pages rootPhys virt phys flags).2.1) := by
  unfold vmmMapPageInRoot vmmMapPageWith
  cases validateRoot v rootPhys with
  | error e => rfl
  | ok _ =>
    cases validateVmmAddress v virt with
    | error e => rfl
    | ok _ =>
      dsimp only
      by_cases hinval : isPageAligned phys = false ∨ flags &&& ~~~(vmmMapWrite ||| vmmMapUser) ≠ 0
      · rw [if_pos hinval, if_pos hinval]
      rw [if_neg hinval, if_neg hinval]
      rcases leafTableForRoot v.tables pages rootPhys virt true
        (if flags &&& vmmMapUser ≠ 0 then Pte.user else 0) with ⟨_ | pt, tables, left⟩
      · rfl
      dsimp only
      by_cases hbusy : tables pt (ptIndex virt) &&& Pte.present ≠ 0
      · rw [if_pos hbusy, if_pos hbusy]
      · rw [if_neg hbusy, if_neg hbusy]

/-- The answers of `scdk_page_alloc` to call after call. -/
def Pmm.answers (m : Pmm) : PageSupply :=
  if m.initialized = true then m.pageStack.map .ok else [.error .notsup]

/-- The allocator after so many answers. -/
def Pmm.took (m : Pmm) (n : Nat) : Pmm :=
  if m.initialized = true then
    { m with pageStack := m.pageStack.drop n, allocatedPages := m.allocatedPages + n }
  else m

/-- The state of `pmm.c` and of `vmm.c`. -/
structure Paging where
  pmm : Pmm
  vmm : Vmm

namespace Paging

/-- `scdk_page_alloc` -/
def pageAlloc (s : Paging) : Except Err UInt64 × Paging :=
  let (r, pmm) := s.pmm.pageAlloc
  (r, { s with pmm })

/-- `scdk_page_free`, with its status ignored as `map_heap_pages` does. -/
def pageFree (s : Paging) (phys : UInt64) : Paging := { s with pmm := (s.pmm.pageFree phys).2 }

/-- `scdk_vmm_map_page` -/
def mapPage (s : Paging) (virt phys flags : UInt64) : Except Err Unit × Paging :=
  let (r, vmm, pages) := vmmMapPageWith s.vmm s.pmm.answers s.vmm.activeCr3Phys virt phys flags
  (r, ⟨s.pmm.took (s.pmm.answers.length - pages.length), vmm⟩)

/-- `scdk_vmm_unmap_page`, with its status ignored. -/
def unmapPage (s : Paging) (virt : UInt64) : Paging :=
  { s with vmm := (vmmUnmapPageInRoot s.vmm s.vmm.activeCr3Phys virt).2 }

/-- `scdk_vmm_virt_to_phys` -/
def virtToPhys (s : Paging) (virt : UInt64) : Except Err UInt64 :=
  (vmmVirtToPhysInRoot s.vmm s.vmm.activeCr3Phys virt).map Prod.fst

end Paging

/-! ## Missing tables -/

/-- The paths to the tables that the lookup of an address goes through. -/
def pathTables (virt : UInt64) : Finset (List (Fin 512)) :=
  {[pml4Index virt], [pml4Index virt, pdptIndex virt], tablePath virt}

/-- Those of some paths at which there is no table. -/
def missingTables (tables : PageTables) (r : UInt64) (paths : Finset (List (Fin 512))) :
    Finset (List (Fin 512)) :=
  paths.filter fun q => walk (childOf tables) r q = none

theorem allPaths_pathTables {virt : UInt64} {q : List (Fin 512)} (h : q ∈ pathTables virt) : AllPaths q := by
  unfold pathTables at h
  rw [Finset.mem_insert, Finset.mem_insert, Finset.mem_singleton] at h
  unfold AllPaths
  rcases h with rfl | rfl | rfl <;> simp [tablePath]

/-- Along the path of an address that is not mapped, an entry is absent or links a
    table. -/
theorem childOf_of_noent {tables : PageTables} {r virt t : UInt64} {p : List (Fin 512)} {i : Fin 512}
    (hnoent : lookupEntry tables r virt = .error .noent) (hshort : p ++ [i] <+: tablePath virt)
    (ht : walk (childOf tables) r p = some t) (hpresent : tables t i &&& Pte.present ≠ 0) :
    ∃ k, entryTable (tables t i) = .ok k := by
  obtain ⟨rest, hrest⟩ := hshort
  unfold lookupEntry at hnoent
  rw [← hrest, List.append_assoc] at hnoent
  -- the lookup comes to the table `t`
  have hfrom : ∀ (p : List (Fin 512)) (r : UInt64), walk (childOf tables) r p = some t →
      lookupAlong tables r (ptIndex virt) (p ++ ([i] ++ rest)) =
        lookupAlong tables t (ptIndex virt) (i :: rest) := by
    intro p
    induction p with
    | nil =>
      intro r hr
      obtain rfl := Option.some.inj hr
      rfl
    | cons j p ih =>
      intro r hr
      simp only [walk] at hr
      obtain ⟨k, hk, hrestwalk⟩ := Option.bind_eq_some_iff.mp hr
      rw [List.cons_append, lookupAlong]
      unfold childOf at hk
      split at hk
      · cases hk
      next hpres =>
      rw [if_neg hpres]
      cases hentry : entryTable (tables r j) with
      | error e =>
        rw [hentry] at hk
        cases hk
      | ok next =>
        rw [hentry] at hk
        obtain rfl := Option.some.inj hk
        exact ih next hrestwalk
  rw [hfrom p r ht, lookupAlong, if_neg hpresent] at hnoent
  cases hentry : entryTable (tables t i) with
  | ok k => exact ⟨k, rfl⟩
  | error e =>
    rw [hentry] at hnoent
    unfold entryTable at hentry
    split at hentry
    · cases hentry
      cases hnoent
    · cases hentry

/-! ## Making the tables -/

/-- The search for a leaf table, from `tables₀` and the stack `fs₀`: the tables on the
    paths `done` are there, and each that was missing has taken one page. -/
structure Search (tables₀ : PageTables) (fs₀ : List UInt64) (roots : UInt64 → Prop) (r : UInt64)
    (done : Finset (List (Fin 512))) (tables : PageTables) (fs : List UInt64) : Prop where
  kept : LookupsKept tables₀ roots AllPaths tables (fs.map .ok)
  missing : ∀ q, AllPaths q →
    (walk (childOf tables) r q = none ↔ walk (childOf tables₀) r q = none ∧ q ∉ done)
  used : fs = fs₀.drop (missingTables tables₀ r done).card
  enough : (missingTables tables₀ r done).card ≤ fs₀.length

section search

variable {tables₀ tables : PageTables} {fs₀ fs : List UInt64} {roots : UInt64 → Prop}
  {r virt flags : UInt64} {done : Finset (List (Fin 512))}

theorem Search.start (hsame : SamePath (childOf tables₀) roots AllPaths)
    (hfresh : SupplyFresh tables₀ roots AllPaths (fs₀.map .ok)) :
    Search tables₀ fs₀ roots r ∅ tables₀ fs₀ where
  kept := ⟨hsame, hfresh, fun _ _ _ _ => rfl⟩
  missing := by simp
  used := by simp [missingTables]
  enough := by simp [missingTables]

/-- One more path. -/
theorem card_missingTables_insert {q : List (Fin 512)} (hq : q ∉ done) :
    (missingTables tables₀ r (insert q done)).card =
      (missingTables tables₀ r done).card + if walk (childOf tables₀) r q = none then 1 else 0 := by
  unfold missingTables
  rw [Finset.filter_insert]
  split
  · rw [Finset.card_insert_of_notMem]
    exact fun hmem => hq (Finset.mem_filter.mp hmem).1
  · rfl

/-- A table that is absent is made from the next page of the stack. -/
theorem Search.link {f : UInt64} (h : Search tables₀ fs₀ roots r done tables (f :: fs)) (hr : roots r)
    (hflags : IsTableFlags flags) {p : List (Fin 512)} {i : Fin 512} {t : UInt64}
    (hshort : p ++ [i] <+: tablePath virt) (ht : walk (childOf tables) r p = some t)
    (hnew : p ++ [i] ∉ done) (habsent : tables t i &&& Pte.present = 0)
    (hgone : walk (childOf tables₀) r (p ++ [i]) = none) :
    entryTable (tableEntryWith f flags) = .ok f ∧
      Search tables₀ fs₀ roots r (insert (p ++ [i]) done) (linkWith tables t i f flags) fs ∧
      walk (childOf (linkWith tables t i f flags)) r (p ++ [i]) = some f := by
  have hall := tablePaths_all.of_prefix hshort (allPaths_tablePath virt)
  have hcard := @card_missingTables_insert tables₀ r done _ hnew
  rw [if_pos hgone] at hcard
  obtain ⟨hf, _, _⟩ := h.kept.supply.head
  obtain ⟨hkept', hok, hself⟩ := h.kept.link tablePaths_all hr (allPaths_tablePath virt) hflags
    hshort ht habsent
  have hused := h.used
  have hpos : (missingTables tables₀ r done).card < fs₀.length := by
    by_contra hle
    rw [List.drop_eq_nil_iff.mpr (Nat.not_lt.mp hle)] at hused
    cases hused
  refine ⟨(entryTable_tableEntryWith hok hflags).2, ⟨hkept', ?_, ?_, by omega⟩, hself⟩
  · intro q hq
    have hft := fresh_ne tablePaths_all hr hall ht hf
    -- The walks that were missing still are, but for the one to the new table.
    have hlinked := linked_linkWith hok hflags hft habsent
    rcases h.kept.same.walk_link tablePaths_all.closed hr (tablePaths_all.closed _ _ hall) ht
      hf.unreached hlinked hr hq with ⟨_, rfl, hwalk⟩ | ⟨hne, hwalk⟩
    · rw [hwalk]
      simp
    · have hqne : q ≠ p ++ [i] := fun heq => hne ⟨ht, heq⟩
      rw [hwalk, h.missing q hq, Finset.mem_insert, not_or]
      exact ⟨fun hw => ⟨hw.1, hqne, hw.2⟩, fun hw => ⟨hw.1, hw.2.2⟩⟩
  · rw [hcard, ← List.drop_drop, ← hused]
    rfl

/-- A table that is there was there from the start. -/
theorem Search.there (h : Search tables₀ fs₀ roots r done tables fs) {q : List (Fin 512)} {k : UInt64}
    (hall : AllPaths q) (hself : walk (childOf tables) r q = some k) (hnew : q ∉ done) :
    Search tables₀ fs₀ roots r (insert q done) tables fs := by
  have hthere : walk (childOf tables₀) r q ≠ none := by
    intro hnone
    have hnone' := (h.missing _ hall).mpr ⟨hnone, hnew⟩
    rw [hself] at hnone'
    cases hnone'
  have hcard := @card_missingTables_insert tables₀ r done _ hnew
  rw [if_neg hthere, Nat.add_zero] at hcard
  refine ⟨h.kept, ?_, ?_, ?_⟩
  · intro q' hq
    rw [h.missing q' hq, Finset.mem_insert, not_or]
    constructor
    · rintro ⟨hw, hnot⟩
      exact ⟨hw, fun heq => hthere (heq ▸ hw), hnot⟩
    · rintro ⟨hw, _, hnot⟩
      exact ⟨hw, hnot⟩
  · rw [hcard]
    exact h.used
  · rw [hcard]
    exact h.enough

/-- **One level.**  The table is there, or is made from the next page of the stack; the
    search fails exactly if there is no page. -/
theorem Search.next (h : Search tables₀ fs₀ roots r done tables fs) (hr : roots r)
    (hflags : IsTableFlags flags) (hnoent : lookupEntry tables₀ r virt = .error .noent)
    {p : List (Fin 512)} {i : Fin 512} {t : UInt64} (hshort : p ++ [i] <+: tablePath virt)
    (ht : walk (childOf tables) r p = some t) (hnew : p ++ [i] ∉ done) :
    (∃ e, nextTable tables (fs.map .ok) t i true flags = (.error e, tables, []) ∧
        LookupsKept tables₀ roots AllPaths tables [] ∧
        fs₀.length < (missingTables tables₀ r (insert (p ++ [i]) done)).card) ∨
      ∃ k tables' fs', nextTable tables (fs.map .ok) t i true flags = (.ok k, tables', fs'.map .ok) ∧
        Search tables₀ fs₀ roots r (insert (p ++ [i]) done) tables' fs' ∧
        walk (childOf tables') r (p ++ [i]) = some k := by
  have hall := tablePaths_all.of_prefix hshort (allPaths_tablePath virt)
  have hlookup := h.kept.lookup r virt hr (allPaths_tablePath virt)
  have hchild : walk (childOf tables) r (p ++ [i]) = childOf tables t i := by
    rw [walk_concat, ht]
    rfl
  rw [hnoent] at hlookup
  unfold nextTable
  dsimp only
  by_cases habsent : tables t i &&& Pte.present = 0
  · have hnone : walk (childOf tables) r (p ++ [i]) = none := by
      rw [hchild]
      simp [childOf, habsent]
    have hgone := ((h.missing _ hall).mp hnone).1
    rw [if_pos habsent, if_neg (by decide)]
    cases fs with
    | nil =>
      left
      have hlen : fs₀.length ≤ (missingTables tables₀ r done).card :=
        List.drop_eq_nil_iff.mp h.used.symm
      have hcard := @card_missingTables_insert tables₀ r done _ hnew
      rw [if_pos hgone] at hcard
      -- All pages were used for tables that were missing, and this one is missing too.
      exact ⟨.nomem, rfl, h.kept, by omega⟩
    | cons f fs' =>
      right
      obtain ⟨htable, hsearch, hself⟩ := h.link hr hflags hshort ht hnew habsent hgone
      refine ⟨f, linkWith tables t i f flags, fs', ?_, hsearch, hself⟩
      exact congrArg (·, linkWith tables t i f flags, (fs'.map Except.ok : PageSupply)) htable
  · right
    obtain ⟨k, hk⟩ := childOf_of_noent hlookup hshort ht habsent
    have hself : walk (childOf tables) r (p ++ [i]) = some k := by
      rw [hchild]
      simp [childOf, habsent, hk, Except.toOption]
    refine ⟨k, tables, fs, ?_, h.there hall hself hnew, hself⟩
    rw [if_neg habsent, hk]

/-- **The leaf table** is found exactly if the stack has a page for each table that is
    missing. -/
theorem leafTableForRoot_exact (hsame : SamePath (childOf tables₀) roots AllPaths)
    (hfresh : SupplyFresh tables₀ roots AllPaths (fs₀.map .ok)) (hr : roots r)
    (hflags : IsTableFlags flags) (hnoent : lookupEntry tables₀ r virt = .error .noent) :
    (∃ e tables', leafTableForRoot tables₀ (fs₀.map .ok) r virt true flags = (.error e, tables', []) ∧
        LookupsKept tables₀ roots AllPaths tables' [] ∧
        fs₀.length < (missingTables tables₀ r (pathTables virt)).card) ∨
      ∃ pt tables' fs', leafTableForRoot tables₀ (fs₀.map .ok) r virt true flags =
          (.ok pt, tables', fs'.map .ok) ∧
        Search tables₀ fs₀ roots r (pathTables virt) tables' fs' ∧
        walk (childOf tables') r (tablePath virt) = some pt := by
  have hmono : ∀ {done : Finset (List (Fin 512))}, done ⊆ pathTables virt →
      fs₀.length < (missingTables tables₀ r done).card →
      fs₀.length < (missingTables tables₀ r (pathTables virt)).card :=
    fun hsub hlt => hlt.trans_le (Finset.card_le_card (Finset.filter_subset_filter _ hsub))
  unfold leafTableForRoot
  rcases (Search.start hsame hfresh).next hr hflags hnoent (p := []) (i := pml4Index virt)
    ⟨[pdptIndex virt, pdIndex virt], rfl⟩ rfl (by simp) with
    ⟨e, hrun, hkept, hlt⟩ | ⟨pdpt, tables₁, fs₁, hrun, hsearch₁, hw₁⟩
  · rw [hrun]
    exact .inl ⟨e, _, rfl, hkept, hmono (by simp [pathTables]) hlt⟩
  rw [hrun]
  dsimp only
  rcases hsearch₁.next hr hflags hnoent (p := [pml4Index virt]) (i := pdptIndex virt)
    ⟨[pdIndex virt], rfl⟩ hw₁ (by simp) with
    ⟨e, hrun₂, hkept, hlt⟩ | ⟨pd, tables₂, fs₂, hrun₂, hsearch₂, hw₂⟩
  · rw [hrun₂]
    refine .inl ⟨e, _, rfl, hkept, hmono ?_ hlt⟩
    intro q hq
    simp only [Finset.mem_insert, Finset.notMem_empty, or_false] at hq
    rcases hq with rfl | rfl <;> simp [pathTables]
  rw [hrun₂]
  dsimp only
  -- Now all three tables of the path were looked for.
  have hdone : insert ([pml4Index virt, pdptIndex virt] ++ [pdIndex virt])
      (insert ([pml4Index virt] ++ [pdptIndex virt]) (insert ([] ++ [pml4Index virt]) ∅)) =
      pathTables virt := by
    ext q
    simp only [pathTables, tablePath, Finset.mem_insert, Finset.mem_singleton, Finset.notMem_empty,
      or_false, List.cons_append, List.nil_append]
    tauto
  rcases hsearch₂.next hr hflags hnoent (p := [pml4Index virt, pdptIndex virt])
    (i := pdIndex virt) ⟨[], rfl⟩ hw₂ (by simp) with
    ⟨e, hrun₃, hkept, hlt⟩ | ⟨pt, tables₃, fs₃, hrun₃, hsearch₃, hw₃⟩
  · rw [hdone] at hlt
    exact .inl ⟨e, _, hrun₃, hkept, hlt⟩
  · rw [hdone] at hsearch₃
    exact .inr ⟨pt, _, _, hrun₃, hsearch₃, hw₃⟩

end search

/-- For an address that is mapped, or in a large page, no table is made. -/
theorem leafTableForRoot_there {tables : PageTables} {r virt : UInt64} (pages : PageSupply)
    (flags : UInt64) (hthere : lookupEntry tables r virt ≠ .error .noent) :
    ∃ res, leafTableForRoot tables pages r virt true flags = (res, tables, pages) ∧
      ∀ pt, res = .ok pt → walk (childOf tables) r (tablePath virt) = some pt := by
  -- No table on the way is missing, else the lookup would find none.
  have hnext : ∀ {p : List (Fin 512)} {i : Fin 512} {t : UInt64}, p ++ [i] <+: tablePath virt →
      walk (childOf tables) r p = some t →
      nextTable tables pages t i true flags = (entryTable (tables t i), tables, pages) ∧
        ∀ k, entryTable (tables t i) = .ok k → walk (childOf tables) r (p ++ [i]) = some k := by
    intro p i t hshort ht
    have hpresent : ¬ tables t i &&& Pte.present = 0 := by
      intro habsent
      obtain ⟨rest, hrest⟩ := hshort
      apply hthere
      unfold lookupEntry
      rw [← hrest, List.append_assoc]
      exact lookupAlong_absent ht habsent
    constructor
    · unfold nextTable
      dsimp only
      rw [if_neg hpresent]
    · intro k hk
      rw [walk_concat, ht]
      simp [childOf, hpresent, hk, Except.toOption]
  unfold leafTableForRoot
  obtain ⟨hrun₁, hw₁⟩ := hnext (p := []) (i := pml4Index virt) ⟨[pdptIndex virt, pdIndex virt], rfl⟩ rfl
  rw [hrun₁]
  cases h₁ : entryTable (tables r (pml4Index virt)) with
  | error e => exact ⟨.error e, rfl, fun pt hpt => by cases hpt⟩
  | ok pdpt =>
    obtain ⟨hrun₂, hw₂⟩ := hnext (p := [pml4Index virt]) (i := pdptIndex virt) ⟨[pdIndex virt], rfl⟩
      (hw₁ pdpt h₁)
    dsimp only
    rw [hrun₂]
    cases h₂ : entryTable (tables pdpt (pdptIndex virt)) with
    | error e => exact ⟨.error e, rfl, fun pt hpt => by cases hpt⟩
    | ok pd =>
      obtain ⟨hrun₃, hw₃⟩ := hnext (p := [pml4Index virt, pdptIndex virt]) (i := pdIndex virt)
        ⟨[], rfl⟩ (hw₂ pd h₂)
      dsimp only
      exact ⟨_, hrun₃, hw₃⟩

/-! ## Calls in the active root -/

/-- The entry for an address in the active root. -/
def Paging.lookup (s : Paging) (virt : UInt64) : Except Err UInt64 :=
  lookupEntry s.vmm.tables s.vmm.activeCr3Phys virt

/-- Of some tables, the number that are missing in the active root. -/
def Paging.missing (s : Paging) (paths : Finset (List (Fin 512))) : Nat :=
  (missingTables s.vmm.tables s.vmm.activeCr3Phys paths).card

/-- The tables are trees, and no page of the stack is one of them. -/
structure PagingOk (roots : UInt64 → Prop) (s : Paging) : Prop where
  active : roots s.vmm.activeCr3Phys
  same : SamePath (childOf s.vmm.tables) roots AllPaths
  fresh : SupplyFresh s.vmm.tables roots AllPaths (s.pmm.pageStack.map .ok)

/-- The registers of the two files that no call here changes. -/
structure SameRegisters (s s' : Paging) : Prop where
  usable : s'.pmm.usableRegions = s.pmm.usableRegions
  reserved : s'.pmm.reservedRegions = s.pmm.reservedRegions
  pmmInit : s'.pmm.initialized = s.pmm.initialized
  vmmInit : s'.vmm.initialized = s.vmm.initialized
  cr3 : s'.vmm.activeCr3Phys = s.vmm.activeCr3Phys

theorem SameRegisters.refl (s : Paging) : SameRegisters s s := ⟨rfl, rfl, rfl, rfl, rfl⟩

theorem SameRegisters.trans {s s' s'' : Paging} (h : SameRegisters s s') (h' : SameRegisters s' s'') :
    SameRegisters s s'' :=
  ⟨h'.usable.trans h.usable, h'.reserved.trans h.reserved, h'.pmmInit.trans h.pmmInit,
    h'.vmmInit.trans h.vmmInit, h'.cr3.trans h.cr3⟩

/-- Equal entries give equal answers. -/
theorem SameRegisters.virtToPhys {s s' : Paging} (h : SameRegisters s s') {virt : UInt64}
    (hl : s'.lookup virt = s.lookup virt) : s'.virtToPhys virt = s.virtToPhys virt := by
  unfold Paging.lookup at hl
  unfold Paging.virtToPhys
  rw [h.cr3] at hl ⊢
  rw [vmmVirtToPhysInRoot_congr h.vmmInit hl]

section calls

variable {s : Paging} {roots : UInt64 → Prop} {virt phys : UInt64}

/-- A page is not mapped if the address passes the checks and has no entry. -/
theorem virtToPhys_noent (halign : virt.toNat % 4096 = 0) :
    s.virtToPhys virt = .error .noent ↔
      validateRoot s.vmm s.vmm.activeCr3Phys = .ok () ∧ validateVmmAddress s.vmm virt = .ok () ∧
        s.lookup virt = .error .noent := by
  have hpage : virt &&& ~~~0xfff = virt := by
    apply UInt64.toNat_inj.mp
    rw [toNat_pageOf]
    omega
  have hroot : ∀ e, validateRoot s.vmm s.vmm.activeCr3Phys = .error e → e ≠ .noent := by
    intro e he heq
    unfold validateRoot at he
    grind
  have haddr : ∀ e, validateVmmAddress s.vmm virt = .error e → e ≠ .noent := by
    intro e he heq
    unfold validateVmmAddress at he
    grind
  unfold Paging.virtToPhys Paging.lookup
  rw [vmmVirtToPhysInRoot_lookup, hpage]
  cases hr : validateRoot s.vmm s.vmm.activeCr3Phys with
  | error e => simpa [Except.map] using hroot e hr
  | ok _ =>
    cases ha : validateVmmAddress s.vmm virt with
    | error e => simpa [Except.map] using haddr e ha
    | ok _ =>
      cases lookupEntry s.vmm.tables s.vmm.activeCr3Phys virt with
      | error e => simp [Except.map]
      | ok entry => simp [Except.map]

theorem Pmm.took_zero (m : Pmm) : m.took 0 = m := by
  unfold Pmm.took
  split <;> rfl

/-- A page that is mapped, or whose address does not pass the checks, is not mapped
    again, and no page is taken for it. -/
theorem mapPage_refused (halign : virt.toNat % 4096 = 0) (hthere : s.virtToPhys virt ≠ .error .noent)
    (phys flags : UInt64) : ∃ e, s.mapPage virt phys flags = (.error e, s) := by
  have hsame : ∀ e, vmmMapPageWith s.vmm s.pmm.answers s.vmm.activeCr3Phys virt phys flags =
      (.error e, s.vmm, s.pmm.answers) → ∃ e, s.mapPage virt phys flags = (.error e, s) := by
    intro e he
    unfold Paging.mapPage
    rw [he]
    dsimp only
    rw [Nat.sub_self, Pmm.took_zero]
    exact ⟨e, rfl⟩
  rw [Ne, virtToPhys_noent halign] at hthere
  unfold vmmMapPageWith at hsame
  cases hroot : validateRoot s.vmm s.vmm.activeCr3Phys with
  | error e =>
    apply hsame e
    rw [hroot]
  | ok _ =>
  cases haddr : validateVmmAddress s.vmm virt with
  | error e =>
    apply hsame e
    rw [hroot, haddr]
  | ok _ =>
  have hentry : s.lookup virt ≠ .error .noent := fun hl => hthere ⟨hroot, haddr, hl⟩
  rw [hroot, haddr] at hsame
  dsimp only at hsame
  by_cases hinval : isPageAligned phys = false ∨ flags &&& ~~~(vmmMapWrite ||| vmmMapUser) ≠ 0
  · exact hsame _ (if_pos hinval)
  obtain ⟨res, hleaf, hw⟩ := leafTableForRoot_there s.pmm.answers
    (if flags &&& vmmMapUser ≠ 0 then Pte.user else 0) hentry
  rw [if_neg hinval, hleaf] at hsame
  cases res with
  | error e => exact hsame e rfl
  | ok pt =>
    -- the leaf table is there, so its entry is the one that was found
    have hbusy : s.vmm.tables pt (ptIndex virt) &&& Pte.present ≠ 0 := by
      intro habsent
      apply hentry
      unfold Paging.lookup lookupEntry
      rw [lookupAlong_of_walk (hw pt rfl), if_pos habsent]
    exact hsame _ (if_pos hbusy)

/-- What a mapping that succeeds has done. -/
structure MappedPage (roots : UInt64 → Prop) (s s' : Paging) (virt phys flags : UInt64) : Prop where
  ok : PagingOk roots s'
  registers : SameRegisters s s'
  stack : s'.pmm.pageStack = s.pmm.pageStack.drop (s.missing (pathTables virt))
  entry : s'.lookup virt = .ok (leafEntry phys flags)
  others : OthersKept roots AllPaths s.vmm s'.vmm virt
  tables : ∀ q, AllPaths q → (walk (childOf s'.vmm.tables) s.vmm.activeCr3Phys q = none ↔
    walk (childOf s.vmm.tables) s.vmm.activeCr3Phys q = none ∧ q ∉ pathTables virt)

/-- What a mapping for which there are not enough pages has done. -/
structure RanOut (roots : UInt64 → Prop) (s s' : Paging) : Prop where
  ok : PagingOk roots s'
  registers : SameRegisters s s'
  stack : s'.pmm.pageStack = []
  lookup : ∀ r x, roots r → lookupEntry s'.vmm.tables r x = lookupEntry s.vmm.tables r x

/-- **A page that is not mapped** is mapped exactly if the stack has a page for each
    table that is missing. -/
theorem mapPage_noent (h : PagingOk roots s) (hinit : s.pmm.initialized = true)
    (halign : virt.toNat % 4096 = 0) (hphys : isPageAligned phys = true)
    (hnoent : s.virtToPhys virt = .error .noent) :
    (∃ e s', s.mapPage virt phys vmmMapWrite = (.error e, s') ∧
        s.pmm.pageStack.length < s.missing (pathTables virt) ∧ RanOut roots s s') ∨
      ∃ s', s.mapPage virt phys vmmMapWrite = (.ok (), s') ∧
        s.missing (pathTables virt) ≤ s.pmm.pageStack.length ∧
        MappedPage roots s s' virt phys vmmMapWrite := by
  obtain ⟨hroot, haddr, hentry⟩ := (virtToPhys_noent halign).mp hnoent
  have hvalid : ¬ (isPageAligned phys = false ∨
      vmmMapWrite &&& ~~~(vmmMapWrite ||| vmmMapUser) ≠ 0) := by
    rw [hphys]
    decide
  have hanswers : s.pmm.answers = s.pmm.pageStack.map .ok := if_pos hinit
  have htook : ∀ n, s.pmm.took n = { s.pmm with
      pageStack := s.pmm.pageStack.drop n, allocatedPages := s.pmm.allocatedPages + n } :=
    fun n => if_pos hinit
  unfold Paging.mapPage vmmMapPageWith
  rw [hroot, haddr, hanswers]
  dsimp only
  rw [if_neg hvalid]
  rcases leafTableForRoot_exact h.same h.fresh h.active (isTableFlags_of vmmMapWrite) hentry with
    ⟨e, tables, hrun, hkept, hlt⟩ | ⟨pt, tables, fs, hrun, hsearch, hw⟩
  · left
    have hrun' : leafTableForRoot s.vmm.tables (s.pmm.pageStack.map .ok) s.vmm.activeCr3Phys virt true
        (if vmmMapWrite &&& vmmMapUser ≠ 0 then Pte.user else 0) = (.error e, tables, []) := hrun
    rw [hrun']
    dsimp only
    rw [htook]
    refine ⟨e, _, rfl, hlt, ⟨h.active, hkept.same, ?_⟩, ⟨rfl, rfl, rfl, rfl, rfl⟩, ?_,
      fun r x hr => hkept.lookup r x hr (allPaths_tablePath x)⟩
    · simpa using hkept.supply
    · simp
  · right
    have hrun' : leafTableForRoot s.vmm.tables (s.pmm.pageStack.map .ok) s.vmm.activeCr3Phys virt true
        (if vmmMapWrite &&& vmmMapUser ≠ 0 then Pte.user else 0) = (.ok pt, tables, fs.map .ok) := hrun
    have hlookup := hsearch.kept.lookup _ virt h.active (allPaths_tablePath virt)
    have hfree : ¬ tables pt (ptIndex virt) &&& Pte.present ≠ 0 := by
      intro hbusy
      unfold Paging.lookup at hentry
      unfold lookupEntry at hlookup hentry
      rw [hentry, lookupAlong_of_walk hw, if_neg hbusy] at hlookup
      cases hlookup
    have hused : (s.pmm.pageStack.map Except.ok : PageSupply).length -
        (fs.map Except.ok : PageSupply).length = s.missing (pathTables virt) := by
      have henough := hsearch.enough
      rw [List.length_map, List.length_map, hsearch.used, List.length_drop]
      unfold Paging.missing
      omega
    rw [hrun']
    dsimp only
    rw [if_neg hfree, hused, htook]
    obtain ⟨hsame, hself, hothers⟩ := setLeaf_kept tablePaths_all hsearch.kept.same h.active
      (allPaths_tablePath virt) rfl hw (ptIndex virt) (leafEntry phys vmmMapWrite)
    -- writing the entry changes no path to a table
    have hwalk : ∀ r q, roots r → AllPaths q →
        walk (childOf (tables.setEntry pt (ptIndex virt) (leafEntry phys vmmMapWrite))) r q =
          walk (childOf tables) r q :=
      fun r q hr hq => walk_setLeaf tablePaths_all hsearch.kept.same.sameLevel h.active
        (allPaths_tablePath virt) rfl hw _ _ hr hq
    have hstack : s.pmm.pageStack.drop (s.missing (pathTables virt)) = fs := hsearch.used.symm
    refine ⟨_, rfl, hsearch.enough, ⟨h.active, hsame, ?_⟩, ⟨rfl, rfl, rfl, rfl, rfl⟩, rfl, ?_, ?_, ?_⟩
    · dsimp only
      rw [hstack]
      refine ⟨hsearch.kept.supply.nodup, fun f hf => ?_⟩
      obtain ⟨hok, hunreached⟩ := hsearch.kept.supply.fresh f hf
      refine ⟨hok, fun r q hr hq hwf => hunreached r q hr hq ?_⟩
      rw [← hwalk r q hr hq]
      exact hwf
    · unfold Paging.lookup lookupEntry
      dsimp only
      rw [lookupAlong_of_walk hself, PageTables.setEntry_self, if_neg (leafEntry_present phys _)]
    · intro r x hr hx hne
      rw [← hsearch.kept.lookup r x hr hx]
      exact hothers r x hr hx hne
    · intro q hq
      rw [← hsearch.missing q hq, ← hwalk _ q h.active hq]

/-- The address of the page that a mapping of the kernel goes to. -/
theorem leafEntry_write_addr (hphys : FrameOk phys) :
    leafEntry phys vmmMapWrite &&& Pte.addr = phys := by
  have haddr : phys &&& Pte.addr = phys := by
    simpa using or_low_and_addr hphys (c := 0) (by decide)
  have hentry : leafEntry phys vmmMapWrite =
      phys &&& Pte.addr ||| (leafEntry 0 vmmMapWrite) := by
    unfold leafEntry
    simp [vmmMapWrite, vmmMapUser, Pte.addr, UInt64.or_assoc]
  rw [hentry, haddr]
  exact or_low_and_addr hphys (by decide)

/-- A page that is mapped is found. -/
theorem virtToPhys_entry (halign : virt.toNat % 4096 = 0)
    (hroot : validateRoot s.vmm s.vmm.activeCr3Phys = .ok ())
    (haddr : validateVmmAddress s.vmm virt = .ok ()) (hphys : FrameOk phys)
    (hentry : s.lookup virt = .ok (leafEntry phys vmmMapWrite)) : s.virtToPhys virt = .ok phys := by
  have hpage : virt &&& ~~~0xfff = virt := by
    apply UInt64.toNat_inj.mp
    rw [toNat_pageOf]
    omega
  have hlow : virt &&& 0xfff = 0 := by
    rw [and_low_eq_zero]
    exact halign
  unfold Paging.lookup at hentry
  unfold Paging.virtToPhys
  rw [vmmVirtToPhysInRoot_lookup, hpage, hroot, haddr, hentry, hlow]
  simp [Except.map, leafEntry_write_addr hphys]

/-- A page that is mapped is taken out of the tables. -/
theorem unmapPage_entry (hactive : roots s.vmm.activeCr3Phys)
    (hsame : SamePath (childOf s.vmm.tables) roots AllPaths)
    (hroot : validateRoot s.vmm s.vmm.activeCr3Phys = .ok ())
    (haddr : validateVmmAddress s.vmm virt = .ok ()) {e : UInt64} (hentry : s.lookup virt = .ok e) :
    (s.unmapPage virt).pmm = s.pmm ∧ SameRegisters s (s.unmapPage virt) ∧
      SamePath (childOf (s.unmapPage virt).vmm.tables) roots AllPaths ∧
      OthersKept roots AllPaths s.vmm (s.unmapPage virt).vmm virt ∧
      (s.unmapPage virt).lookup virt = .error .noent := by
  unfold Paging.lookup at hentry
  rcases vmmUnmapPageInRoot_tree tablePaths_all hactive (allPaths_tablePath virt) hsame with
    ⟨e', hrun⟩ | ⟨v', _, hrun, hcr3, hinit, hsame', hothers, _, hafter⟩
  · -- the call passes its checks and finds the entry
    obtain ⟨res, hleaf, hlookup, _⟩ := leafTableForRoot_noCreate s.vmm.tables s.vmm.activeCr3Phys virt
    unfold vmmUnmapPageInRoot at hrun
    rw [hroot, haddr, hleaf] at hrun
    rw [hentry] at hlookup
    cases res with
    | error _ => cases hlookup
    | ok pt =>
      dsimp only at hrun hlookup
      split at hlookup
      · cases hlookup
      · next hpresent =>
        rw [if_neg hpresent] at hrun
        cases hrun
  · unfold Paging.unmapPage Paging.lookup
    rw [hrun]
    dsimp only
    rw [hcr3]
    exact ⟨rfl, ⟨rfl, rfl, rfl, hinit, hcr3⟩, hsame', hothers, hafter⟩

end calls

end Scdk
