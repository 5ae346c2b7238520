import Scdk.Mm.AddressSpace

/-! # When a page can be mapped

    A mapping succeeds or not by the entries of the page tables, the rights of the token
    and the answers of the page allocator.

    * `LeadsTo`: one level of a walk that makes the tables it does not find,
    * `LeadsToLeaf`: its three levels,
    * `MapsPage`: what a mapping needs, and the page tables it leaves;
      `addressSpaceMap_eq_ok`: it succeeds exactly with these. -/

namespace Scdk

/-! ## Walking -/

/-- The entry that `next_table` writes for a new table. -/
def newTableEntry (phys tableFlags : UInt64) : UInt64 :=
  phys ||| Pte.present ||| Pte.writable ||| tableFlags

/-- The entry at `index` of `table` leads to another table: to the one it points to, or, where
    it is empty, to a page of the allocator, which is cleared and linked. -/
inductive LeadsTo (tableFlags : UInt64) (tables : PageTables) (pages : PageSupply) (table : UInt64)
    (index : Fin 512) : UInt64 → PageTables → PageSupply → Prop where
  | found (hpresent : tables table index &&& Pte.present ≠ 0)
      (htable : tables table index &&& Pte.huge = 0) :
      LeadsTo tableFlags tables pages table index (tables table index &&& Pte.addr) tables pages
  | made {phys : UInt64} {rest : PageSupply} (habsent : tables table index &&& Pte.present = 0)
      (hanswer : pages = .ok phys :: rest)
      (htable : newTableEntry phys tableFlags &&& Pte.huge = 0) :
      LeadsTo tableFlags tables pages table index (newTableEntry phys tableFlags &&& Pte.addr)
        (PageTables.setEntry (Function.update tables phys fun _ => 0) table index
          (newTableEntry phys tableFlags)) rest

/-- The walk from a root to the table with the entry of `virt`. -/
def LeadsToLeaf (tableFlags : UInt64) (tables : PageTables) (pages : PageSupply)
    (rootPhys virt pt : UInt64) (tables' : PageTables) : Prop :=
  ∃ pdpt tables₁ pages₁ pd tables₂ pages₂ pages',
    LeadsTo tableFlags tables pages rootPhys (pml4Index virt) pdpt tables₁ pages₁ ∧
    LeadsTo tableFlags tables₁ pages₁ pdpt (pdptIndex virt) pd tables₂ pages₂ ∧
    LeadsTo tableFlags tables₂ pages₂ pd (pdIndex virt) pt tables' pages'

section walk

variable {tableFlags table next rootPhys virt pt : UInt64} {index : Fin 512}
  {tables tables' : PageTables} {pages pages' : PageSupply}

theorem entryTable_eq_ok {entry : UInt64} :
    entryTable entry = .ok next ↔ entry &&& Pte.huge = 0 ∧ next = entry &&& Pte.addr := by
  unfold entryTable
  by_cases hhuge : entry &&& Pte.huge = 0
  · simp [hhuge, eq_comm]
  · simp [hhuge]

/-- One level of the walk, when the allocator has answered with the page `phys`. -/
theorem nextTable_of_answer {phys : UInt64} {rest : PageSupply}
    (habsent : tables table index &&& Pte.present = 0) :
    nextTable tables (.ok phys :: rest) table index true tableFlags =
      (entryTable (newTableEntry phys tableFlags),
        PageTables.setEntry (Function.update tables phys fun _ => 0) table index
          (newTableEntry phys tableFlags), rest) := by
  unfold nextTable
  simp only [habsent, if_true]
  rfl

/-- From an empty entry the walk goes on only with a page of the allocator. -/
theorem nextTable_answered
    (h : nextTable tables pages table index true tableFlags = (.ok next, tables', pages'))
    (habsent : tables table index &&& Pte.present = 0) : ∃ phys rest, pages = .ok phys :: rest := by
  cases pages with
  | nil => simp [nextTable, habsent, allocateTable, pageAlloc] at h
  | cons answer rest =>
    cases answer with
    | error e => simp [nextTable, habsent, allocateTable, pageAlloc] at h
    | ok phys => exact ⟨phys, rest, rfl⟩

theorem LeadsTo.answered (h : LeadsTo tableFlags tables pages table index next tables' pages')
    (habsent : tables table index &&& Pte.present = 0) : ∃ phys rest, pages = .ok phys :: rest := by
  cases h with
  | found hpresent _ => exact absurd habsent hpresent
  | made _ hanswer _ => exact ⟨_, _, hanswer⟩

theorem nextTable_eq_ok :
    nextTable tables pages table index true tableFlags = (.ok next, tables', pages') ↔
      LeadsTo tableFlags tables pages table index next tables' pages' := by
  by_cases habsent : tables table index &&& Pte.present = 0
  · by_cases hanswer : ∃ phys rest, pages = .ok phys :: rest
    swap
    -- without a page neither side holds
    · exact ⟨fun h => absurd (nextTable_answered h habsent) hanswer,
        fun h => absurd (h.answered habsent) hanswer⟩
    obtain ⟨phys, rest, rfl⟩ := hanswer
    -- The table is made, and the walk goes on if the new entry is one of a table.
    rw [nextTable_of_answer habsent]
    constructor
    · intro h
      obtain ⟨hentry, hrest⟩ := Prod.mk.inj h
      obtain ⟨rfl, rfl⟩ := Prod.mk.inj hrest
      obtain ⟨htable, rfl⟩ := entryTable_eq_ok.mp hentry
      exact .made habsent rfl htable
    · intro h
      cases h with
      | found hpresent _ => exact absurd habsent hpresent
      | made _ hanswer htable =>
        obtain ⟨hphys, rfl⟩ := List.cons.inj hanswer
        obtain rfl := Except.ok.inj hphys
        rw [entryTable_eq_ok.mpr ⟨htable, rfl⟩]
  · have hfound : nextTable tables pages table index true tableFlags =
        (entryTable (tables table index), tables, pages) := if_neg habsent
    rw [hfound]
    constructor
    · intro h
      obtain ⟨hentry, hrest⟩ := Prod.mk.inj h
      obtain ⟨rfl, rfl⟩ := Prod.mk.inj hrest
      obtain ⟨htable, rfl⟩ := entryTable_eq_ok.mp hentry
      exact .found habsent htable
    · intro h
      cases h with
      | found _ htable => rw [entryTable_eq_ok.mpr ⟨htable, rfl⟩]
      | made hempty _ _ => exact absurd hempty habsent

theorem leafTableForRoot_eq_ok :
    (∃ pages', leafTableForRoot tables pages rootPhys virt true tableFlags = (.ok pt, tables', pages')) ↔
      LeadsToLeaf tableFlags tables pages rootPhys virt pt tables' := by
  constructor
  · rintro ⟨pages', h⟩
    unfold leafTableForRoot at h
    rcases hfirst : nextTable tables pages rootPhys (pml4Index virt) true tableFlags with ⟨r, tables₁, pages₁⟩
    rw [hfirst] at h
    cases r with
    | error e => cases h
    | ok pdpt =>
      dsimp only at h
      rcases hsecond : nextTable tables₁ pages₁ pdpt (pdptIndex virt) true tableFlags with ⟨r, tables₂, pages₂⟩
      rw [hsecond] at h
      cases r with
      | error e => cases h
      | ok pd =>
        exact ⟨pdpt, tables₁, pages₁, pd, tables₂, pages₂, pages', nextTable_eq_ok.mp hfirst,
          nextTable_eq_ok.mp hsecond, nextTable_eq_ok.mp h⟩
  · rintro ⟨pdpt, tables₁, pages₁, pd, tables₂, pages₂, pages', hfirst, hsecond, hthird⟩
    refine ⟨pages', ?_⟩
    unfold leafTableForRoot
    rw [nextTable_eq_ok.mpr hfirst]
    dsimp only
    rw [nextTable_eq_ok.mpr hsecond]
    exact nextTable_eq_ok.mpr hthird

end walk

/-! ## Mapping -/

/-- What a mapping needs: the addresses are in order, the walk leads to a table, and nothing
    is mapped there.  `v'` has the new entry. -/
structure MapsPage (v : Vmm) (pages : PageSupply) (rootPhys virt phys flags : UInt64) (v' : Vmm) :
    Prop where
  validRoot : validateRoot v rootPhys = .ok ()
  validAddress : validateVmmAddress v virt = .ok ()
  aligned : isPageAligned phys = true
  known : flags &&& ~~~(vmmMapWrite ||| vmmMapUser) = 0
  entry : ∃ pt tables,
    LeadsToLeaf (if flags &&& vmmMapUser ≠ 0 then Pte.user else 0) v.tables pages rootPhys virt pt tables ∧
    tables pt (ptIndex virt) &&& Pte.present = 0 ∧
    v' = { v with tables := tables.setEntry pt (ptIndex virt) (leafEntry phys flags) }

section maps

variable {v v' : Vmm} {pages : PageSupply} {rootPhys virt phys flags : UInt64}

theorem vmmMapPageInRoot_eq_ok :
    vmmMapPageInRoot v pages rootPhys virt phys flags = (.ok (), v') ↔
      MapsPage v pages rootPhys virt phys flags v' := by
  constructor
  · intro h
    unfold vmmMapPageInRoot at h
    -- The checks in the order of the source; the one that fails ends the mapping.
    cases hroot : validateRoot v rootPhys with
    | error e =>
      rw [hroot] at h
      cases h
    | ok _ =>
    cases hvirt : validateVmmAddress v virt with
    | error e =>
      rw [hroot, hvirt] at h
      cases h
    | ok _ =>
    simp only [hroot, hvirt] at h
    by_cases hinval : isPageAligned phys = false ∨ flags &&& ~~~(vmmMapWrite ||| vmmMapUser) ≠ 0
    · rw [if_pos hinval] at h
      cases h
    rw [if_neg hinval] at h
    rw [not_or, not_not, Bool.not_eq_false] at hinval
    rcases hleaf : leafTableForRoot v.tables pages rootPhys virt true
      (if flags &&& vmmMapUser ≠ 0 then Pte.user else 0) with ⟨r, tables, pages'⟩
    rw [hleaf] at h
    cases r with
    | error e => cases h
    | ok pt =>
      dsimp only at h
      by_cases hbusy : tables pt (ptIndex virt) &&& Pte.present ≠ 0
      · rw [if_pos hbusy] at h
        cases h
      · rw [if_neg hbusy] at h
        exact ⟨hroot, hvirt, hinval.1, hinval.2, pt, tables, leafTableForRoot_eq_ok.mp ⟨pages', hleaf⟩,
          not_not.mp hbusy, (Prod.mk.inj h).2.symm⟩
  · intro h
    obtain ⟨pt, tables, hleads, hempty, rfl⟩ := h.entry
    obtain ⟨pages', hleaf⟩ := leafTableForRoot_eq_ok.mpr hleads
    unfold vmmMapPageInRoot
    rw [h.validRoot, h.validAddress]
    dsimp only
    rw [if_neg (by simp [h.aligned, h.known]), hleaf]
    dsimp only
    rw [if_neg (not_not.mpr hempty)]

variable {o : ObjectTable} {c : CapTable} {aspaces : AddressSpaces} {aspaceCap vaddr paddr : UInt64}

/-- **Mapping.**  The token has to be good for it, and the address be one of user mode. -/
theorem addressSpaceMap_eq_ok :
    addressSpaceMap o c aspaces v pages aspaceCap vaddr paddr flags = (.ok (), v') ↔
      ∃ b, lookupAspace o c aspaces aspaceCap (mapRights flags) = .ok b ∧
        validateUserPage vaddr = .ok () ∧
        MapsPage v pages (aspaces b).rootPhys vaddr paddr (flags ||| vmmMapUser) v' := by
  unfold addressSpaceMap
  cases hlookup : lookupAspace o c aspaces aspaceCap (mapRights flags) with
  | error e => simp
  | ok b =>
    cases hpage : validateUserPage vaddr with
    | error e => simp
    | ok _ =>
      dsimp only
      by_cases halign : isPageAligned paddr = false
      · rw [if_pos halign]
        constructor
        · intro h
          cases h
        · rintro ⟨_, _, _, hmaps⟩
          rw [hmaps.aligned] at halign
          cases halign
      · rw [if_neg halign, vmmMapPageInRoot_eq_ok]
        constructor
        · exact fun h => ⟨b, rfl, rfl, h⟩
        · rintro ⟨_, hb, _, hmaps⟩
          obtain rfl := Except.ok.inj hb
          exact hmaps

end maps

end Scdk
