import Scdk.Core.Capability
import Scdk.Ipc.UserMemory

/-! # Grants

    Model of `core/grant.c` and `core/user_grant.c`: kernel grants over kernel
    memory and user grants over the memory of a task.  Both are objects of type
    `SCDK_OBJ_GRANT`, so the lookup of a user grant can meet the slot of a
    kernel grant, and that of a kernel grant the slot of a user grant; the two
    structures have the same size, and the slot is then read at the same offsets
    (`GrantSlot.asUserGrant`, `UserGrantSlot.asGrant`). -/

namespace Scdk

/-! ## Kernel grants -/

/-- `struct scdk_grant_slot`, with the fields of `struct scdk_grant`. -/
structure GrantSlot where
  objectId : UInt64
  frameCap : UInt64
  base : UInt64
  offset : UInt64
  length : UInt64
  rights : UInt64
  lifetime : UInt32
  refcount : UInt32
  deriving DecidableEq, Repr

/-- The static `grant_table`. -/
abbrev GrantTable : Type := Fin maxGrants → GrantSlot

/-- `SCDK_GRANT_RIGHTS_MASK` and `SCDK_USER_GRANT_RIGHTS_MASK`. -/
def grantRightsMask : UInt64 := Right.read ||| Right.write ||| Right.map

/-- The body of the loop of `scdk_grant_create` for the free slot `i`. -/
def grantCreateSlot (o : ObjectTable) (c : CapTable) (grants : GrantTable) (i : Fin maxGrants)
    (base length rights : UInt64) (lifetime : UInt32) :
    Except Err UInt64 × ObjectTable × CapTable × GrantTable :=
  match objectCreate o ObjType.grant bootCore 0 (.grant i) with
  | (.error e, o) => (.error e, o, c, grants)
  | (.ok objectId, o) =>
    let slot : GrantSlot := ⟨objectId, 0, base, 0, length, rights, lifetime, 1⟩
    match capCreate o c objectId rights with
    | (.ok cap, c) => (.ok cap, o, c, Function.update grants i slot)
    | (.error e, c) => (.error e, o, c, Function.update grants i { slot with objectId := 0 })

/-- `scdk_grant_create` -/
def grantCreate (o : ObjectTable) (c : CapTable) (grants : GrantTable)
    (base length rights : UInt64) (lifetime : UInt32) :
    Except Err UInt64 × ObjectTable × CapTable × GrantTable :=
  if base = 0 ∨ length = 0 ∨ rights = 0 ∨ rights &&& ~~~grantRightsMask ≠ 0 then
    (.error .inval, o, c, grants)
  else
    match Slots.firstSlot fun i => (grants i).objectId == 0 with
    | none => (.error .nomem, o, c, grants)
    | some i => grantCreateSlot o c grants i base length rights lifetime

/-! ## User grants -/

/-- `struct scdk_user_grant_slot` -/
structure UserGrantSlot where
  objectId : UInt64
  sourceTask : UInt64
  targetEndpoint : UInt64
  userBase : UInt64
  length : UInt64
  rights : UInt64
  lifetime : UInt32
  revoked : Bool
  deriving DecidableEq, Repr

/-- The static `user_grants`. -/
abbrev UserGrantTable : Type := Fin maxUserGrants → UserGrantSlot

/-- A kernel grant read as a user grant: `revoked` is the low byte of the
    reference count. -/
def GrantSlot.asUserGrant (g : GrantSlot) : UserGrantSlot where
  objectId := g.objectId
  sourceTask := g.frameCap
  targetEndpoint := g.base
  userBase := g.offset
  length := g.length
  rights := g.rights
  lifetime := g.lifetime
  revoked := g.refcount &&& 0xff ≠ 0

/-- A slot that `user_grant_lookup` returns. -/
inductive UserGrantRef where
  | user (i : Fin maxUserGrants)
  | kernel (i : Fin maxGrants)
  deriving DecidableEq, Repr

/-- The two grant tables. -/
structure GrantTables where
  kernel : GrantTable
  user : UserGrantTable

/-- The slot behind a reference, as a user grant. -/
def GrantTables.slot (g : GrantTables) : UserGrantRef → UserGrantSlot
  | .user i => g.user i
  | .kernel i => (g.kernel i).asUserGrant

/-- `slot->revoked = true` -/
def GrantTables.setRevoked (g : GrantTables) : UserGrantRef → GrantTables
  | .user i => { g with user := Function.update g.user i { g.user i with revoked := true } }
  | .kernel i =>
    let refcount := (g.kernel i).refcount &&& 0xffffff00 ||| 1
    { g with kernel := Function.update g.kernel i { g.kernel i with refcount := refcount } }

/-- The payload of a grant object as a slot. -/
def Payload.grantRef : Payload → Option UserGrantRef
  | .userGrant i => some (.user i)
  | .grant i => some (.kernel i)
  | _ => none

/-- A user grant read as a kernel grant.  The reference count, which no function
    reads, is the flag and the bytes that pad it, taken as zero. -/
def UserGrantSlot.asGrant (g : UserGrantSlot) : GrantSlot where
  objectId := g.objectId
  frameCap := g.sourceTask
  base := g.targetEndpoint
  offset := g.userBase
  length := g.length
  rights := g.rights
  lifetime := g.lifetime
  refcount := if g.revoked = true then 1 else 0

/-- The slot behind a reference, as a kernel grant. -/
def GrantTables.kernelSlot (g : GrantTables) : UserGrantRef → GrantSlot
  | .user i => (g.user i).asGrant
  | .kernel i => g.kernel i

/-- `grant_lookup` -/
def grantLookup (o : ObjectTable) (c : CapTable) (g : GrantTables) (cap requiredRights : UInt64) :
    Except Err UserGrantRef :=
  payloadLookup o c cap requiredRights ObjType.grant fun payload objectId =>
    match payload.grantRef with
    | none => .error .noent
    | some ref => if (g.kernelSlot ref).objectId ≠ objectId then .error .noent else .ok ref

/-- `grant_check_range` -/
def grantCheckRange (grant : GrantSlot) (requiredRights offset length : UInt64) : Except Err Unit :=
  if requiredRights = 0 ∨ requiredRights &&& ~~~grantRightsMask ≠ 0 ∨ length = 0 then .error .inval
  else if grant.rights &&& requiredRights ≠ requiredRights then .error .perm
  else if offset < grant.offset then .error .bounds
  else
    let relativeOffset := offset - grant.offset
    if grant.length < relativeOffset ∨ grant.length - relativeOffset < length then .error .bounds
    else .ok ()

/-- `scdk_grant_resolve`: the address of the first byte. -/
def grantResolve (o : ObjectTable) (c : CapTable) (g : GrantTables)
    (grant requiredRights offset length : UInt64) : Except Err UInt64 :=
  match grantLookup o c g grant requiredRights with
  | .error e => .error e
  | .ok ref =>
    let target := g.kernelSlot ref
    match grantCheckRange target requiredRights offset length with
    | .error e => .error e
    | .ok _ => .ok (target.base + (offset - target.offset))

/-- `checked_user_range` -/
def checkedUserRange (v : Vmm) (userBase length : UInt64) (writable : Bool) : Except Err Unit :=
  if length = 0 then .error .inval else userValidateRange v userBase length writable

/-- The check of `user_grant_lookup` on the source task and the target
    endpoint. -/
def liveBinding (o : ObjectTable) (c : CapTable) (slot : UserGrantSlot) : Except Err Unit :=
  match capCheck o c slot.sourceTask Right.read ObjType.task with
  | .error e => .error e
  | .ok _ => toStatus (capCheck o c slot.targetEndpoint Right.send ObjType.endpoint)

/-- `user_grant_lookup` -/
def userGrantLookup (o : ObjectTable) (c : CapTable) (g : GrantTables)
    (grantCap requiredRights : UInt64) (requireLiveBinding : Bool) : Except Err UserGrantRef :=
  match capCheck o c grantCap requiredRights ObjType.grant with
  | .error e => .error e
  | .ok entry =>
    match objectLookup o entry.objectId with
    | .error e => .error e
    | .ok object =>
      match object.payload.grantRef with
      | none => .error .noent
      | some ref =>
        let slot := g.slot ref
        if slot.objectId ≠ entry.objectId then .error .noent
        else if slot.revoked = true then .error .perm
        else if requireLiveBinding = true then
          match liveBinding o c slot with
          | .error e => .error e
          | .ok _ => .ok ref
        else .ok ref

/-- `check_grant_range` -/
def checkGrantRange (slot : UserGrantSlot) (offset length requiredRights : UInt64) :
    Except Err Unit :=
  if length = 0 ∨ requiredRights = 0 ∨ requiredRights &&& ~~~grantRightsMask ≠ 0 then
    .error .inval
  else if slot.rights &&& requiredRights ≠ requiredRights then .error .perm
  else if slot.length < offset ∨ slot.length - offset < length then .error .bounds
  else .ok ()

/-- The rights a user grant capability is minted with. -/
def userGrantRights (rights : UInt64) : UInt64 := rights ||| Right.revoke

/-- The end of the loop body of `scdk_user_grant_create`: fill the slot `i` and
    mint a token for its object.  `reuse` tells whether the object was there
    before. -/
def userGrantFill (o : ObjectTable) (c : CapTable) (g : GrantTables) (i : Fin maxUserGrants)
    (reuse : Bool) (objectId sourceTask userBase length rights targetEndpoint : UInt64) :
    Except Err UInt64 × ObjectTable × CapTable × GrantTables :=
  let slot : UserGrantSlot :=
    ⟨objectId, sourceTask, targetEndpoint, userBase, length, rights, 1, false⟩
  match capCreate o c objectId (userGrantRights rights) with
  | (.ok cap, c) => (.ok cap, o, c, { g with user := Function.update g.user i slot })
  | (.error e, c) =>
    let slot : UserGrantSlot :=
      if reuse = true then ⟨objectId, 0, 0, 0, 0, 0, 0, true⟩ else ⟨0, 0, 0, 0, 0, 0, 0, false⟩
    (.error e, o, c, { g with user := Function.update g.user i slot })

/-- The loop body of `scdk_user_grant_create` for the slot `i`, which is free or
    revoked. -/
def userGrantCreateSlot (o : ObjectTable) (c : CapTable) (g : GrantTables) (i : Fin maxUserGrants)
    (sourceTask userBase length rights targetEndpoint : UInt64) :
    Except Err UInt64 × ObjectTable × CapTable × GrantTables :=
  if (g.user i).objectId ≠ 0 then
    userGrantFill o c g i true (g.user i).objectId sourceTask userBase length rights targetEndpoint
  else
    match objectCreate o ObjType.grant bootCore 0 (.userGrant i) with
    | (.error e, o) => (.error e, o, c, g)
    | (.ok objectId, o) =>
      userGrantFill o c g i false objectId sourceTask userBase length rights targetEndpoint

/-- `scdk_user_grant_create` -/
def userGrantCreate (o : ObjectTable) (c : CapTable) (g : GrantTables) (v : Vmm)
    (sourceTask userBase length rights targetEndpoint : UInt64) :
    Except Err UInt64 × ObjectTable × CapTable × GrantTables :=
  if sourceTask = 0 ∨ userBase = 0 ∨ length = 0 ∨ rights = 0 ∨
      rights &&& ~~~grantRightsMask ≠ 0 ∨ targetEndpoint = 0 then
    (.error .inval, o, c, g)
  else
    match capCheck o c sourceTask Right.read ObjType.task with
    | .error e => (.error e, o, c, g)
    | .ok _ =>
      match capCheck o c targetEndpoint Right.send ObjType.endpoint with
      | .error e => (.error e, o, c, g)
      | .ok _ =>
        match checkedUserRange v userBase length (rights &&& Right.write ≠ 0) with
        | .error e => (.error e, o, c, g)
        | .ok _ =>
          match Slots.firstSlot fun i => (g.user i).objectId == 0 || (g.user i).revoked with
          | none => (.error .nomem, o, c, g)
          | some i =>
            userGrantCreateSlot o c g i sourceTask userBase length rights targetEndpoint

/-- `scdk_user_grant_revoke` -/
def userGrantRevoke (o : ObjectTable) (c : CapTable) (g : GrantTables) (grantCap : UInt64) :
    Except Err Unit × CapTable × GrantTables :=
  match userGrantLookup o c g grantCap Right.revoke false with
  | .error e => (.error e, c, g)
  | .ok ref =>
    let (r, c) := capRevoke o c grantCap
    (r, c, g.setRevoked ref)

/-- `scdk_validate_grant_access` -/
def validateGrantAccess (o : ObjectTable) (c : CapTable) (g : GrantTables)
    (grantCap offset length requiredRights : UInt64) : Except Err Unit :=
  match userGrantLookup o c g grantCap requiredRights true with
  | .error e => .error e
  | .ok ref => checkGrantRange (g.slot ref) offset length requiredRights

/-- The slot and the range that `scdk_user_grant_copy_from` accepts. -/
def userGrantCopyCheck (o : ObjectTable) (c : CapTable) (g : GrantTables)
    (targetEndpoint grantCap offset length : UInt64) : Except Err UserGrantSlot :=
  if targetEndpoint = 0 then .error .inval
  else
    match userGrantLookup o c g grantCap Right.read true with
    | .error e => .error e
    | .ok ref =>
      let slot := g.slot ref
      if slot.targetEndpoint ≠ targetEndpoint then .error .perm
      else
        match checkGrantRange slot offset length Right.read with
        | .error e => .error e
        | .ok _ => .ok slot

/-- `scdk_user_grant_copy_from`: the bytes copied, and the source task recorded
    in the slot they were granted by. -/
def userGrantCopyFrom (o : ObjectTable) (c : CapTable) (g : GrantTables) (v : Vmm)
    (frames : Frames) (targetEndpoint grantCap offset length : UInt64) :
    Except Err (List UInt8 × UInt64) :=
  match userGrantCopyCheck o c g targetEndpoint grantCap offset length with
  | .error e => .error e
  | .ok slot =>
    match userCopyFrom v frames (slot.userBase + offset) length with
    | .error e => .error e
    | .ok bytes => .ok (bytes, slot.sourceTask)

end Scdk
