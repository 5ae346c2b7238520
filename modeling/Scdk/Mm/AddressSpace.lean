import Scdk.Core.Capability
import Scdk.Mm.Vmm

/-! # Address spaces

    Model of `mm/address_space.c`: a page-table root behind a capability, with
    mapping, unmapping and translation restricted to the user range.

    The records live in heap blocks (`AddressSpaces`).  What the storage
    allocator and the page allocator answer is an argument of the call. -/

namespace Scdk

/-- `struct scdk_address_space` -/
structure AddressSpace where
  objectId : UInt64
  rootPhys : UInt64
  ownerCore : UInt32
  flags : UInt32
  deriving DecidableEq, Repr

/-- The records, by the heap block they are in. -/
abbrev AddressSpaces : Type := Nat → AddressSpace

/-- `validate_user_page` -/
def validateUserPage (vaddr : UInt64) : Except Err Unit :=
  if isPageAligned vaddr = false then .error .inval
  else if vaddr < userVirtBase ∨ userVirtTop - 4096 < vaddr then .error .bounds
  else .ok ()

/-- `lookup_aspace`; the record returned is the one in the block returned. -/
def lookupAspace (o : ObjectTable) (c : CapTable) (aspaces : AddressSpaces)
    (aspaceCap requiredRights : UInt64) : Except Err Nat :=
  match capCheck o c aspaceCap requiredRights ObjType.addressSpace with
  | .error e => .error e
  | .ok entry =>
    match objectLookup o entry.objectId with
    | .error e => .error e
    | .ok object =>
      match object.payload with
      | .addressSpace b =>
        if (aspaces b).objectId ≠ entry.objectId ∨ (aspaces b).rootPhys = 0 then .error .noent
        else .ok b
      | _ => .error .noent

/-- The rights `check_map_rights` asks for. -/
def mapRights (flags : UInt64) : UInt64 :=
  if flags &&& vmmMapWrite ≠ 0 then Right.map ||| Right.read ||| Right.write
  else Right.map ||| Right.read

/-- The rights an address-space capability is minted with. -/
def spaceRights : UInt64 := Right.read ||| Right.write ||| Right.map ||| Right.bind

/-- `scdk_address_space_create`.  `storage` is the block that
    `scdk_alloc_object_storage` returned, if any; `pages` answers the allocation
    of the root. -/
def addressSpaceCreate (o : ObjectTable) (c : CapTable) (aspaces : AddressSpaces) (v : Vmm)
    (storage : Option Nat) (pages : PageSupply) :
    Except Err UInt64 × ObjectTable × CapTable × AddressSpaces × Vmm :=
  match storage with
  | none => (.error .nomem, o, c, aspaces, v)
  | some b =>
    let aspaces : AddressSpaces := Function.update aspaces b ⟨0, 0, 0, 0⟩
    match vmmCreateRoot v pages with
    | (.error e, v) => (.error e, o, c, aspaces, v)
    | (.ok rootPhys, v) =>
      match objectCreate o ObjType.addressSpace bootCore 0 (.addressSpace b) with
      | (.error e, o) => (.error e, o, c, aspaces, v)
      | (.ok objectId, o) =>
        let aspaces : AddressSpaces := Function.update aspaces b ⟨objectId, rootPhys, bootCore, 0⟩
        match capCreate o c objectId spaceRights with
        | (.error e, c) => (.error e, o, c, aspaces, v)
        | (.ok cap, c) => (.ok cap, o, c, aspaces, v)

/-- `scdk_address_space_map` -/
def addressSpaceMap (o : ObjectTable) (c : CapTable) (aspaces : AddressSpaces) (v : Vmm)
    (pages : PageSupply) (aspaceCap vaddr paddr flags : UInt64) : Except Err Unit × Vmm :=
  match lookupAspace o c aspaces aspaceCap (mapRights flags) with
  | .error e => (.error e, v)
  | .ok b =>
    match validateUserPage vaddr with
    | .error e => (.error e, v)
    | .ok _ =>
      if isPageAligned paddr = false then (.error .inval, v)
      else vmmMapPageInRoot v pages (aspaces b).rootPhys vaddr paddr (flags ||| vmmMapUser)

/-- `scdk_address_space_unmap` -/
def addressSpaceUnmap (o : ObjectTable) (c : CapTable) (aspaces : AddressSpaces) (v : Vmm)
    (aspaceCap vaddr : UInt64) : Except Err Unit × Vmm :=
  match lookupAspace o c aspaces aspaceCap (Right.map ||| Right.read) with
  | .error e => (.error e, v)
  | .ok b =>
    match validateUserPage vaddr with
    | .error e => (.error e, v)
    | .ok _ => vmmUnmapPageInRoot v (aspaces b).rootPhys vaddr

/-- `scdk_address_space_activate` -/
def addressSpaceActivate (o : ObjectTable) (c : CapTable) (aspaces : AddressSpaces) (v : Vmm)
    (aspaceCap : UInt64) : Except Err Unit × Vmm :=
  match lookupAspace o c aspaces aspaceCap Right.read with
  | .error e => (.error e, v)
  | .ok b => vmmActivateRoot v (aspaces b).rootPhys

/-- `scdk_address_space_translate`: the physical address and the flags. -/
def addressSpaceTranslate (o : ObjectTable) (c : CapTable) (aspaces : AddressSpaces) (v : Vmm)
    (aspaceCap vaddr : UInt64) : Except Err (UInt64 × UInt64) :=
  match lookupAspace o c aspaces aspaceCap Right.read with
  | .error e => .error e
  | .ok b =>
    match validateUserPage (vaddr &&& ~~~0xfff) with
    | .error e => .error e
    | .ok _ => vmmVirtToPhysInRoot v (aspaces b).rootPhys vaddr

/-- A token that is good for some rights is good for fewer. -/
theorem lookupAspace_of_less {o : ObjectTable} {c : CapTable} {aspaces : AddressSpaces}
    {aspaceCap rights less : UInt64} {b : Nat} (h : lookupAspace o c aspaces aspaceCap rights = .ok b)
    (hne : less ≠ 0) (hsub : rights &&& less = less) :
    lookupAspace o c aspaces aspaceCap less = .ok b := by
  unfold lookupAspace at h
  cases hcheck : capCheck o c aspaceCap rights ObjType.addressSpace with
  | error e =>
    rw [hcheck] at h
    cases h
  | ok entry =>
    obtain ⟨_, hlookup, htype, hrights⟩ := capCheck_eq_ok_iff_lookup.mp hcheck
    have hless : entry.rights &&& less = less := by
      rw [← hsub, ← UInt64.and_assoc, hrights]
    have hcheck' : capCheck o c aspaceCap less ObjType.addressSpace = .ok entry :=
      capCheck_eq_ok_iff_lookup.mpr ⟨hne, hlookup, htype, hless⟩
    unfold lookupAspace
    rw [hcheck']
    rw [hcheck] at h
    exact h

section initialized

variable (o : ObjectTable) (c : CapTable) (aspaces : AddressSpaces) (v : Vmm) (pages : PageSupply)
  (aspaceCap vaddr paddr flags : UInt64)

theorem addressSpaceCreate_initialized (storage : Option Nat) :
    (addressSpaceCreate o c aspaces v storage pages).2.2.2.2.initialized = v.initialized := by
  have hroot := vmmCreateRoot_initialized v pages
  unfold addressSpaceCreate
  split
  · rfl
  · dsimp only
    split
    · next hrun =>
      rw [hrun] at hroot
      exact hroot
    · next hrun =>
      rw [hrun] at hroot
      split
      · exact hroot
      · split <;> exact hroot

theorem addressSpaceMap_initialized :
    (addressSpaceMap o c aspaces v pages aspaceCap vaddr paddr flags).2.initialized = v.initialized := by
  unfold addressSpaceMap
  split
  · rfl
  · split
    · rfl
    · split
      · rfl
      · exact vmmMapPageInRoot_initialized v pages _ _ _ _

theorem addressSpaceUnmap_initialized :
    (addressSpaceUnmap o c aspaces v aspaceCap vaddr).2.initialized = v.initialized := by
  unfold addressSpaceUnmap
  split
  · rfl
  · split
    · rfl
    · exact vmmUnmapPageInRoot_initialized v _ _

theorem addressSpaceActivate_initialized :
    (addressSpaceActivate o c aspaces v aspaceCap).2.initialized = v.initialized := by
  unfold addressSpaceActivate
  split
  · rfl
  · exact vmmActivateRoot_initialized v _

end initialized

end Scdk
