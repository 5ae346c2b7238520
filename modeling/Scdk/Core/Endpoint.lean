import Scdk.Core.Capability

/-! # Endpoints and the service registry

    Model of the tables of `core/endpoint.c`.  A handler is named by an
    enumeration of the handlers of the kernel; what each of them does is in
    the modules of the services, and `scdk_endpoint_call`, which runs it, in
    `Scdk.Services.Endpoint`.  The handlers ignore their context pointer, so it
    is left out. -/

namespace Scdk

/-! ## Model -/

namespace Service

def none : UInt64 := 0
def console : UInt64 := 1
def tmpfs : UInt64 := 2
def vfs : UInt64 := 3
def proc : UInt64 := 4
def grantTest : UInt64 := 5
def devmgr : UInt64 := 6
def tty : UInt64 := 7
def session : UInt64 := 8

end Service

/-- The handlers that the kernel registers.  `accept` stands for the two
    handlers of the self-tests that answer `SCDK_OK` to every message. -/
inductive Handler where
  | console
  | tmpfs
  | vfs
  | proc
  | grantTest
  | devmgr
  | tty
  | session
  | accept
  deriving DecidableEq, Repr

/-- `struct scdk_endpoint` -/
structure EndpointSlot where
  objectId : UInt64
  handler : Option Handler
  deriving DecidableEq, Repr

/-- `struct scdk_service_slot` -/
structure ServiceSlot where
  serviceId : UInt64
  endpoint : UInt64
  deriving DecidableEq, Repr

/-- The static `endpoint_table`. -/
abbrev EndpointTable : Type := Fin maxEndpoints → EndpointSlot

/-- The static `service_table`. -/
abbrev ServiceTable : Type := Fin maxServices → ServiceSlot

/-- The rights an endpoint capability is minted with. -/
def endpointRights : UInt64 := Right.send ||| Right.bind

/-- The body of the loop of `scdk_endpoint_create` for the free slot `i`. -/
def endpointCreateSlot (o : ObjectTable) (c : CapTable) (endpoints : EndpointTable)
    (i : Fin maxEndpoints) (ownerCore : UInt32) (handler : Handler) :
    Except Err UInt64 × ObjectTable × CapTable × EndpointTable :=
  match objectCreate o ObjType.endpoint ownerCore 0 (.endpoint i) with
  | (.error e, o) => (.error e, o, c, endpoints)
  | (.ok objectId, o) =>
    match capCreate o c objectId endpointRights with
    | (.ok cap, c) => (.ok cap, o, c, Function.update endpoints i ⟨objectId, some handler⟩)
    | (.error e, c) => (.error e, o, c, Function.update endpoints i ⟨0, none⟩)

/-- `scdk_endpoint_create` -/
def endpointCreate (o : ObjectTable) (c : CapTable) (endpoints : EndpointTable)
    (ownerCore : UInt32) (handler : Handler) :
    Except Err UInt64 × ObjectTable × CapTable × EndpointTable :=
  match Slots.firstSlot fun i => (endpoints i).objectId == 0 with
  | none => (.error .nomem, o, c, endpoints)
  | some i => endpointCreateSlot o c endpoints i ownerCore handler

/-- The part of `scdk_endpoint_call` before the handler runs: the object the
    token is for, and the handler. -/
def endpointTarget (o : ObjectTable) (c : CapTable) (endpoints : EndpointTable) (endpoint : UInt64) :
    Except Err (UInt64 × Handler) :=
  match capCheck o c endpoint Right.send ObjType.endpoint with
  | .error e => .error e
  | .ok entry =>
    match objectLookup o entry.objectId with
    | .error e => .error e
    | .ok object =>
      match object.payload with
      | .endpoint i =>
        if (endpoints i).objectId ≠ entry.objectId then .error .noent
        else
          match (endpoints i).handler with
          | none => .error .noent
          | some handler => .ok (entry.objectId, handler)
      | _ => .error .noent

/-- The token of an endpoint that can be called may send. -/
theorem capCheck_of_endpointTarget {o : ObjectTable} {c : CapTable} {endpoints : EndpointTable}
    {endpoint : UInt64} {target : UInt64 × Handler}
    (h : endpointTarget o c endpoints endpoint = .ok target) :
    ∃ entry, capCheck o c endpoint Right.send ObjType.endpoint = .ok entry := by
  unfold endpointTarget at h
  cases hcheck : capCheck o c endpoint Right.send ObjType.endpoint with
  | error e =>
    rw [hcheck] at h
    cases h
  | ok entry => exact ⟨entry, rfl⟩

/-- `scdk_service_register` -/
def serviceRegister (o : ObjectTable) (c : CapTable) (services : ServiceTable)
    (serviceId endpoint : UInt64) : Except Err Unit × ServiceTable :=
  if serviceId = Service.none then (.error .inval, services)
  else
    match capCheck o c endpoint Right.bind ObjType.endpoint with
    | .error e => (.error e, services)
    | .ok _ =>
      match Slots.firstSlot fun i => (services i).serviceId == serviceId with
      | some _ => (.error .busy, services)
      | none =>
        match Slots.firstSlot fun i => (services i).serviceId == Service.none with
        | none => (.error .nomem, services)
        | some i => (.ok (), Function.update services i ⟨serviceId, endpoint⟩)

/-- `scdk_service_lookup` -/
def serviceLookup (services : ServiceTable) (serviceId : UInt64) : Except Err UInt64 :=
  if serviceId = Service.none then .error .inval
  else
    match Slots.firstSlot fun i => (services i).serviceId == serviceId with
    | none => .error .noent
    | some i => .ok (services i).endpoint

/-- What the creation of an endpoint does to the tables. -/
theorem endpointCreate_run (o : ObjectTable) (c : CapTable) (endpoints : EndpointTable)
    (ownerCore : UInt32) (handler : Handler) :
    ∃ r o' c' endpoints' payload, endpointCreate o c endpoints ownerCore handler =
        (r, o', c', endpoints') ∧ TablesGrown ObjType.endpoint (.endpoint payload) o c o' c' := by
  unfold endpointCreate
  cases Slots.firstSlot fun i => (endpoints i).objectId == 0 with
  | none => exact ⟨_, _, _, _, 0, rfl, .same⟩
  | some i =>
    dsimp only
    unfold endpointCreateSlot
    rcases hc : objectCreate o ObjType.endpoint ownerCore 0 (.endpoint i) with ⟨r, o'⟩
    cases r with
    | error e => exact ⟨_, _, _, _, i, rfl, tablesGrown_objectCreate c hc⟩
    | ok objectId =>
      rcases hcap : capCreate o' c objectId endpointRights with ⟨r, c'⟩
      have hgrown := tablesGrown_capCreate hc hcap
      cases r with
      | ok cap => exact ⟨_, _, _, _, i, by simp only [hcap]; rfl, hgrown⟩
      | error e => exact ⟨_, _, _, _, i, by simp only [hcap]; rfl, hgrown⟩

end Scdk
