import Scdk.Basic
import Scdk.Lib.Radix
import Mathlib.Logic.Function.Basic
import Mathlib.Tactic.Set

/-! # Page tables

    Model of `mm/vmm.c`: x86-64 page tables with four levels of 512 entries,
    read and written through the direct map.

    A table is addressed by the physical address of its page.  What
    `scdk_page_alloc` answers during a call is an argument of the call, one
    answer for each page asked for (`PageSupply`). -/

namespace Scdk

/-! ## Entries and indices -/

namespace Pte

/-- `X86_PTE_PRESENT` -/
def present : UInt64 := 1

/-- `X86_PTE_WRITABLE` -/
def writable : UInt64 := 2

/-- `X86_PTE_USER` -/
def user : UInt64 := 4

/-- `X86_PTE_HUGE` -/
def huge : UInt64 := 0x80

/-- `X86_PTE_ADDR` -/
def addr : UInt64 := 0x000ffffffffff000

end Pte

/-- A table has entries, as the numerals of indices need. -/
instance neZero_tableEntries : NeZero 512 := ⟨by decide⟩

/-- All page tables, by physical address and index. -/
abbrev PageTables : Type := UInt64 → Fin 512 → UInt64

/-- `table[index] = entry` -/
def PageTables.setEntry (tables : PageTables) (table : UInt64) (index : Fin 512) (entry : UInt64) :
    PageTables :=
  Function.update tables table (Function.update (tables table) index entry)

/-- The static variables of `vmm.c` and the tables in memory. -/
structure Vmm where
  tables : PageTables
  activeCr3Phys : UInt64
  initialized : Bool

/-- The answers of `scdk_page_alloc`, in the order they are asked for. -/
abbrev PageSupply : Type := List (Except Err UInt64)

/-- `scdk_page_alloc` -/
def pageAlloc : PageSupply → Except Err UInt64 × PageSupply
  | [] => (.error .nomem, [])
  | answer :: pages => (answer, pages)

/-- `is_canonical` -/
def isCanonical (virt : UInt64) : Bool := virt >>> 48 = 0 ∨ virt >>> 48 = 0xffff

/-- `is_page_aligned` -/
def isPageAligned (value : UInt64) : Bool := value &&& 0xfff = 0

/-- `(virt >> shift) & 0x1ff` -/
def tableIndex (shift virt : UInt64) : Fin 512 := Fin.ofNat 512 ((virt >>> shift) &&& 0x1ff).toNat

/-- `pml4_index` -/
def pml4Index : UInt64 → Fin 512 := tableIndex 39

/-- `pdpt_index` -/
def pdptIndex : UInt64 → Fin 512 := tableIndex 30

/-- `pd_index` -/
def pdIndex : UInt64 → Fin 512 := tableIndex 21

/-- `pt_index` -/
def ptIndex : UInt64 → Fin 512 := tableIndex 12

/-- `validate_vmm_address` -/
def validateVmmAddress (v : Vmm) (virt : UInt64) : Except Err Unit :=
  if v.initialized = false then .error .notsup
  else if isPageAligned virt = false ∨ isCanonical virt = false then .error .inval
  else .ok ()

/-- `validate_root` -/
def validateRoot (v : Vmm) (rootPhys : UInt64) : Except Err Unit :=
  if v.initialized = false then .error .notsup
  else if rootPhys = 0 ∨ isPageAligned rootPhys = false then .error .inval
  else .ok ()

/-! ## Walking -/

/-- `allocate_table` -/
def allocateTable (tables : PageTables) (pages : PageSupply) :
    Except Err UInt64 × PageTables × PageSupply :=
  match pageAlloc pages with
  | (.error e, pages) => (.error e, tables, pages)
  | (.ok phys, pages) => (.ok phys, Function.update tables phys fun _ => 0, pages)

/-- The end of `next_table`: the table that a present entry points to. -/
def entryTable (entry : UInt64) : Except Err UInt64 :=
  if entry &&& Pte.huge ≠ 0 then .error .busy else .ok (entry &&& Pte.addr)

/-- `next_table` -/
def nextTable (tables : PageTables) (pages : PageSupply) (table : UInt64) (index : Fin 512)
    (create : Bool) (tableFlags : UInt64) : Except Err UInt64 × PageTables × PageSupply :=
  let entry := tables table index
  if entry &&& Pte.present = 0 then
    if create = false then (.error .noent, tables, pages)
    else
      match allocateTable tables pages with
      | (.error e, tables, pages) => (.error e, tables, pages)
      | (.ok newTablePhys, tables, pages) =>
        let entry := newTablePhys ||| Pte.present ||| Pte.writable ||| tableFlags
        (entryTable entry, tables.setEntry table index entry, pages)
  else (entryTable entry, tables, pages)

/-- `leaf_table_for_root` -/
def leafTableForRoot (tables : PageTables) (pages : PageSupply) (rootPhys virt : UInt64)
    (create : Bool) (tableFlags : UInt64) : Except Err UInt64 × PageTables × PageSupply :=
  match nextTable tables pages rootPhys (pml4Index virt) create tableFlags with
  | (.error e, tables, pages) => (.error e, tables, pages)
  | (.ok pdpt, tables, pages) =>
    match nextTable tables pages pdpt (pdptIndex virt) create tableFlags with
    | (.error e, tables, pages) => (.error e, tables, pages)
    | (.ok pd, tables, pages) => nextTable tables pages pd (pdIndex virt) create tableFlags

/-! ## Roots and mappings -/

/-- `scdk_vmm_create_root` -/
def vmmCreateRoot (v : Vmm) (pages : PageSupply) : Except Err UInt64 × Vmm :=
  if v.initialized = false then (.error .notsup, v)
  else
    match pageAlloc pages with
    | (.error e, _) => (.error e, v)
    | (.ok rootPhys, _) =>
      let zeroed : PageTables := Function.update v.tables rootPhys fun _ => 0
      let copied : PageTables := Function.update zeroed rootPhys fun i =>
        if i.val < 256 then 0 else zeroed v.activeCr3Phys i
      (.ok rootPhys, { v with tables := copied })

/-- `scdk_vmm_activate_root` -/
def vmmActivateRoot (v : Vmm) (rootPhys : UInt64) : Except Err Unit × Vmm :=
  match validateRoot v rootPhys with
  | .error e => (.error e, v)
  | .ok _ => (.ok (), { v with activeCr3Phys := rootPhys })

/-- The entry `scdk_vmm_map_page_in_root` writes. -/
def leafEntry (phys flags : UInt64) : UInt64 :=
  let pteFlags := Pte.present
  let pteFlags := if flags &&& vmmMapWrite ≠ 0 then pteFlags ||| Pte.writable else pteFlags
  let pteFlags := if flags &&& vmmMapUser ≠ 0 then pteFlags ||| Pte.user else pteFlags
  (phys &&& Pte.addr) ||| pteFlags

/-- `scdk_vmm_map_page_in_root` -/
def vmmMapPageInRoot (v : Vmm) (pages : PageSupply) (rootPhys virt phys flags : UInt64) :
    Except Err Unit × Vmm :=
  match validateRoot v rootPhys with
  | .error e => (.error e, v)
  | .ok _ =>
    match validateVmmAddress v virt with
    | .error e => (.error e, v)
    | .ok _ =>
      if isPageAligned phys = false ∨ flags &&& ~~~(vmmMapWrite ||| vmmMapUser) ≠ 0 then
        (.error .inval, v)
      else
        let tableFlags := if flags &&& vmmMapUser ≠ 0 then Pte.user else 0
        match leafTableForRoot v.tables pages rootPhys virt true tableFlags with
        | (.error e, tables, _) => (.error e, { v with tables })
        | (.ok pt, tables, _) =>
          if tables pt (ptIndex virt) &&& Pte.present ≠ 0 then (.error .busy, { v with tables })
          else
            (.ok (), { v with tables := tables.setEntry pt (ptIndex virt) (leafEntry phys flags) })

/-- `scdk_vmm_unmap_page_in_root` -/
def vmmUnmapPageInRoot (v : Vmm) (rootPhys virt : UInt64) : Except Err Unit × Vmm :=
  match validateRoot v rootPhys with
  | .error e => (.error e, v)
  | .ok _ =>
    match validateVmmAddress v virt with
    | .error e => (.error e, v)
    | .ok _ =>
      match leafTableForRoot v.tables [] rootPhys virt false 0 with
      | (.error e, tables, _) => (.error e, { v with tables })
      | (.ok pt, tables, _) =>
        if tables pt (ptIndex virt) &&& Pte.present = 0 then (.error .noent, { v with tables })
        else (.ok (), { v with tables := tables.setEntry pt (ptIndex virt) 0 })

section initialized

variable (v : Vmm) (pages : PageSupply) (rootPhys virt phys flags : UInt64)

@[simp] theorem vmmCreateRoot_initialized : (vmmCreateRoot v pages).2.initialized = v.initialized := by
  unfold vmmCreateRoot
  split
  · rfl
  · split <;> rfl

@[simp] theorem vmmActivateRoot_initialized :
    (vmmActivateRoot v rootPhys).2.initialized = v.initialized := by
  unfold vmmActivateRoot
  split <;> rfl

@[simp] theorem vmmMapPageInRoot_initialized :
    (vmmMapPageInRoot v pages rootPhys virt phys flags).2.initialized = v.initialized := by
  unfold vmmMapPageInRoot
  dsimp only
  generalize (if flags &&& vmmMapUser ≠ 0 then Pte.user else 0) = tableFlags
  repeat' split
  all_goals rfl

@[simp] theorem vmmUnmapPageInRoot_initialized :
    (vmmUnmapPageInRoot v rootPhys virt).2.initialized = v.initialized := by
  unfold vmmUnmapPageInRoot
  repeat' split
  all_goals rfl

end initialized

/-- The flags `scdk_vmm_virt_to_phys_in_root` reports for an entry. -/
def entryFlags (entry : UInt64) : UInt64 :=
  let flags := if entry &&& Pte.writable ≠ 0 then vmmMapWrite else 0
  if entry &&& Pte.user ≠ 0 then flags ||| vmmMapUser else flags

/-- `scdk_vmm_virt_to_phys_in_root`: the physical address and the flags. -/
def vmmVirtToPhysInRoot (v : Vmm) (rootPhys virt : UInt64) : Except Err (UInt64 × UInt64) :=
  match validateRoot v rootPhys with
  | .error e => .error e
  | .ok _ =>
    match validateVmmAddress v (virt &&& ~~~0xfff) with
    | .error e => .error e
    | .ok _ =>
      match leafTableForRoot v.tables [] rootPhys virt false 0 with
      | (.error e, _, _) => .error e
      | (.ok pt, tables, _) =>
        let entry := tables pt (ptIndex virt)
        if entry &&& Pte.present = 0 then .error .noent
        else .ok ((entry &&& Pte.addr) ||| (virt &&& 0xfff), entryFlags entry)

/-! ## What the processor does -/

/-- A translation of the processor: the physical address, and whether user mode
    may access and write the page. -/
structure HwTranslation where
  phys : UInt64
  user : Bool
  write : Bool
  deriving DecidableEq, Repr

/-- The four-level walk of the processor.  Every level must be present; user
    and write access need the bits U/S and R/W at every level; an entry of the
    two middle levels with the size bit maps a large page. -/
def hwTranslate (tables : PageTables) (rootPhys virt : UInt64) : Option HwTranslation :=
  let pml4e := tables rootPhys (pml4Index virt)
  let pdpte := tables (pml4e &&& Pte.addr) (pdptIndex virt)
  let pde := tables (pdpte &&& Pte.addr) (pdIndex virt)
  let pte := tables (pde &&& Pte.addr) (ptIndex virt)
  if pml4e &&& Pte.present = 0 ∨ pdpte &&& Pte.present = 0 then none
  else if pdpte &&& Pte.huge ≠ 0 then
    some ⟨(pdpte &&& 0x000fffffc0000000) ||| (virt &&& 0x3fffffff),
      pml4e &&& pdpte &&& Pte.user ≠ 0, pml4e &&& pdpte &&& Pte.writable ≠ 0⟩
  else if pde &&& Pte.present = 0 then none
  else if pde &&& Pte.huge ≠ 0 then
    some ⟨(pde &&& 0x000fffffffe00000) ||| (virt &&& 0x1fffff),
      pml4e &&& pdpte &&& pde &&& Pte.user ≠ 0, pml4e &&& pdpte &&& pde &&& Pte.writable ≠ 0⟩
  else if pte &&& Pte.present = 0 then none
  else
    some ⟨(pte &&& Pte.addr) ||| (virt &&& 0xfff),
      pml4e &&& pdpte &&& pde &&& pte &&& Pte.user ≠ 0,
      pml4e &&& pdpte &&& pde &&& pte &&& Pte.writable ≠ 0⟩

end Scdk
