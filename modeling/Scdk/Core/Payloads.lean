import Scdk.Boot
import Scdk.Core.Creation
import Scdk.Services.Tmpfs

/-! # The slots behind the objects

    Nine subsystems keep their records in tables of their own and share one
    object table: an object has a type and a pointer to a record.  A lookup
    checks the type and reads the record through the pointer.

    * `Machine`: the tables of all subsystems, `MakeCall` the calls that create
      objects and tokens,
    * `Machine.lookup`: the lookup of a subsystem; what it reads through a
      pointer into the table of another subsystem is arbitrary, except for the
      two kinds of grants, which have the same layout,
    * `MadeBy`: the run has a creation by a subsystem that made an object with
      its record in a slot,
    * `payload_allocated`: a lookup returns a slot that its own subsystem has
      made for the object, exactly when it is not that of a kernel grant on the
      token of a user grant. -/

namespace Scdk

variable {δ : Type}

/-! ## Subsystems and lookups -/

/-- The subsystems that keep records behind objects. -/
inductive Subsystem where
  | endpoint
  | ring
  | grant
  | userGrant
  | task
  | thread
  | addressSpace
  | file
  | deviceQueue
  deriving DecidableEq, Repr

/-- The object type that the lookup of a subsystem asks for. -/
def Subsystem.type : Subsystem → UInt32
  | .endpoint => ObjType.endpoint
  | .ring => ObjType.ring
  | .grant => ObjType.grant
  | .userGrant => ObjType.grant
  | .task => ObjType.task
  | .thread => ObjType.thread
  | .addressSpace => ObjType.addressSpace
  | .file => ObjType.file
  | .deviceQueue => ObjType.deviceQueue

/-- The subsystem whose table a payload points into.  No lookup reads a device. -/
def Payload.owner : Payload → Option Subsystem
  | .null => none
  | .endpoint _ => some .endpoint
  | .ring _ => some .ring
  | .grant _ => some .grant
  | .userGrant _ => some .userGrant
  | .task _ => some .task
  | .thread _ => some .thread
  | .addressSpace _ => some .addressSpace
  | .file _ => some .file
  | .device _ => none
  | .deviceQueue _ => some .deviceQueue

/-- The tables of all subsystems. -/
structure Machine (δ : Type) where
  kernel : Kernel δ
  tasks : TaskTable
  threads : ThreadTable
  aspaces : AddressSpaces
  devmgr : DevmgrTables

/-- The object id in the record that a payload points to. -/
def Machine.slotId (m : Machine δ) : Payload → UInt64
  | .null => 0
  | .endpoint i => (m.kernel.endpoints i).objectId
  | .ring i => (m.kernel.rings i).objectId
  | .grant i => (m.kernel.grants.kernel i).objectId
  | .userGrant i => (m.kernel.grants.user i).objectId
  | .task i => (m.tasks i).objectId
  | .thread i => (m.threads i).objectId
  | .addressSpace b => (m.aspaces b).objectId
  | .file i => (m.kernel.files i).objectId
  | .device i => (m.devmgr.devices i).objectId
  | .deviceQueue i => (m.devmgr.queues i).objectId

/-- The tests of `user_grant_lookup` after that of the object id. -/
def userGrantTest (o : ObjectTable) (c : CapTable) (slot : UserGrantSlot) (live : Bool) :
    Except Err Unit :=
  if slot.revoked = true then .error .perm
  else if live = true then liveBinding o c slot
  else .ok ()

/-- What the lookups test of a record besides its object id.  `live` is the
    argument `require_live_binding` of `user_grant_lookup`. -/
def Machine.recordTest (m : Machine δ) (live : Bool) : Payload → Except Err Unit
  | .endpoint i => if (m.kernel.endpoints i).handler = none then .error .noent else .ok ()
  | .userGrant i => userGrantTest m.kernel.objects m.kernel.caps (m.kernel.grants.user i) live
  | .addressSpace b => if (m.aspaces b).rootPhys = 0 then .error .noent else .ok ()
  | .file i => if (m.kernel.files i).isOpen = false then .error .noent else .ok ()
  | .deviceQueue i => if (m.devmgr.queues i).present = false then .error .noent else .ok ()
  | _ => .ok ()

/-- The tests of the lookup of subsystem `k` on the record behind a payload, for
    the object `id`.  What is read through a pointer into the table of another
    subsystem is arbitrary (`stray`), but the slots of the two kinds of grants
    have their fields at the same offsets. -/
def Machine.slotTest (m : Machine δ) (stray : Subsystem → Payload → UInt64 → Except Err Unit)
    (live : Bool) (k : Subsystem) (payload : Payload) (id : UInt64) : Except Err Payload :=
  match k, payload with
  | _, .null => .error .noent
  | .grant, .userGrant i => if m.slotId (.userGrant i) ≠ id then .error .noent else .ok payload
  | .userGrant, .grant i =>
    if m.slotId (.grant i) ≠ id then .error .noent
    else
      (userGrantTest m.kernel.objects m.kernel.caps (m.kernel.grants.slot (.kernel i)) live).map
        fun _ => payload
  | k, payload =>
    if payload.owner = some k then
      if m.slotId payload ≠ id then .error .noent
      else (m.recordTest live payload).map fun _ => payload
    else (stray k payload id).map fun _ => payload

/-- The lookup of subsystem `k`: the payload whose record it returns. -/
def Machine.lookup (m : Machine δ) (stray : Subsystem → Payload → UInt64 → Except Err Unit)
    (live : Bool) (k : Subsystem) (cap requiredRights : UInt64) : Except Err Payload :=
  payloadLookup m.kernel.objects m.kernel.caps cap requiredRights k.type (m.slotTest stray live k)

/-! ## Creating objects -/

/-- The calls of a run: the creators, and what else changes tokens and records in
    use.  A creation that checks user memory is made in the address space `v`. -/
inductive MakeCall where
  | endpoint (ownerCore : UInt32) (handler : Handler)
  | ring (ownerCore entries : UInt32) (boundTarget : UInt64)
  | grant (base length rights : UInt64) (lifetime : UInt32)
  | userGrant (v : Vmm) (terms : GrantTerms)
  | task (ownerCore : UInt32) (addressSpace : UInt64)
  | thread (task entry arg : UInt64) (stack : Option UInt64)
  | addressSpace (v : Vmm) (storage : Option Nat) (pages : PageSupply)
  | file (msg : Message) (path : List UInt8)
  | device (msg : Message)
  | closeFile (msg : Message)
  | userGrantRevoke (grant : UInt64)
  | capCreate (objectId rights : UInt64)
  | capRevoke (cap : UInt64)

/-- The subsystem that a call creates an object of. -/
def MakeCall.subsystem : MakeCall → Option Subsystem
  | .endpoint _ _ => some .endpoint
  | .ring _ _ _ => some .ring
  | .grant _ _ _ _ => some .grant
  | .userGrant _ _ => some .userGrant
  | .task _ _ => some .task
  | .thread _ _ _ _ => some .thread
  | .addressSpace _ _ _ => some .addressSpace
  | .file _ _ => some .file
  | .device _ => some .deviceQueue
  | _ => none

/-- Deliver a message to a handler of tmpfs; the answer is `arg0` afterwards. -/
def Kernel.deliver (k : Kernel δ) (handler : K δ Unit) (msg : Message) (path : List UInt8) :
    Except Err UInt64 × Kernel δ :=
  let (r, k) := handler { k with msg := msg, payload := path }
  (r.map fun _ => k.msg.arg0, k)

/-- One call. -/
def makeStep (m : Machine δ) : MakeCall → Except Err UInt64 × Machine δ
  | .endpoint ownerCore handler =>
      let (r, kernel) := K.endpointCreate ownerCore handler m.kernel
      (r, { m with kernel })
  | .ring ownerCore entries boundTarget =>
      let k := m.kernel
      let (r, objects, caps, rings) :=
        ringCreate k.objects k.caps k.rings ownerCore entries boundTarget
      (r, { m with kernel := { k with objects, caps, rings } })
  | .grant base length rights lifetime =>
      let k := m.kernel
      let (r, objects, caps, kernel) :=
        grantCreate k.objects k.caps k.grants.kernel base length rights lifetime
      (r, { m with kernel := { k with objects, caps, grants := { k.grants with kernel } } })
  | .userGrant v terms =>
      let k := m.kernel
      let (r, objects, caps, grants) := userGrantCreate k.objects k.caps k.grants v terms.sourceTask
        terms.userBase terms.length terms.rights terms.targetEndpoint
      (r, { m with kernel := { k with objects, caps, grants } })
  | .task ownerCore addressSpace =>
      let k := m.kernel
      let (r, objects, caps, tasks) := taskCreate k.objects k.caps m.tasks ownerCore addressSpace
      (r, { m with kernel := { k with objects, caps }, tasks })
  | .thread task entry arg stack =>
      let k := m.kernel
      let (r, objects, caps, tasks, threads) :=
        threadCreate k.objects k.caps m.tasks m.threads task entry arg stack
      (r, { m with kernel := { k with objects, caps }, tasks, threads })
  | .addressSpace v storage pages =>
      let k := m.kernel
      let (r, objects, caps, aspaces, vmm) :=
        addressSpaceCreate k.objects k.caps m.aspaces v storage pages
      (r, { m with kernel := { k with objects, caps, vmm }, aspaces })
  | .file msg path =>
      let (r, kernel) := m.kernel.deliver tmpfsHandleOpen msg path
      (r, { m with kernel })
  | .device msg =>
      let k := m.kernel
      let (r, objects, caps, devmgr) := devmgrRegisterFakeDevice k.objects k.caps m.devmgr msg
      (r.map fun msg => msg.arg1, { m with kernel := { k with objects, caps }, devmgr })
  | .closeFile msg =>
      let (r, kernel) := m.kernel.deliver tmpfsHandleClose msg []
      (r, { m with kernel })
  | .userGrantRevoke grant =>
      let k := m.kernel
      let (r, caps, grants) := userGrantRevoke k.objects k.caps k.grants grant
      (r.map fun _ => 0, { m with kernel := { k with caps, grants } })
  | .capCreate objectId rights =>
      let k := m.kernel
      let (r, caps) := capCreate k.objects k.caps objectId rights
      (r, { m with kernel := { k with caps } })
  | .capRevoke cap =>
      let k := m.kernel
      let (r, caps) := capRevoke k.objects k.caps cap
      (r.map fun _ => 0, { m with kernel := { k with caps } })

/-- The tables before the first object. -/
structure MachineStart (m : Machine δ) : Prop where
  objects : m.kernel.objects = ObjectTable.zero
  caps : m.kernel.caps = CapTable.zero
  kernelGrants : ∀ i, (m.kernel.grants.kernel i).objectId = 0

/-- The tables, driven by any calls. -/
def makeSystem (δ : Type) : System (Machine δ) MakeCall (Except Err UInt64) where
  init := MachineStart
  step := makeStep

/-- The calls of a run with their answers, oldest first. -/
abbrev MakeLog : Type := List (MakeCall × Except Err UInt64)

/-- In the run, a creation by subsystem `k` has made the object `id` with
    `payload`. -/
def MadeBy (δ : Type) (log : MakeLog) (k : Subsystem) (id : UInt64) (payload : Payload) : Prop :=
  ∃ pre call r post m, log = pre ++ (call, r) :: post ∧ (makeSystem δ).Run pre m ∧
    call.subsystem = some k ∧ (∀ ob, objectLookup m.kernel.objects id ≠ .ok ob) ∧
    ∃ ob, objectLookup (makeStep m call).2.kernel.objects id = .ok ob ∧ ob.payload = payload

theorem MadeBy.concat {log : MakeLog} {k : Subsystem} {id : UInt64} {payload : Payload}
    (h : MadeBy δ log k id payload) (ev : MakeCall × Except Err UInt64) :
    MadeBy δ (log ++ [ev]) k id payload := by
  obtain ⟨pre, call, r, post, m, rfl, hrest⟩ := h
  exact ⟨pre, call, r, post ++ [ev], m, by simp, hrest⟩

/-- The steps of the kernel that make objects with payloads of `P` and leave the
    grants alone. -/
def MakesWithin (P : Payload → Prop) (k k' : Kernel δ) : Prop :=
  TablesWf k.objects k.caps →
    ObjectsMade P k.objects k.caps k'.objects k'.caps ∧ k'.grants = k.grants

instance (P : Payload → Prop) : IsPreorder (Kernel δ) (MakesWithin P) where
  refl := fun _ h => ⟨.refl P h, rfl⟩
  trans := by
    intro k k' k'' h h' hwf
    obtain ⟨hmade, hgrants⟩ := h hwf
    obtain ⟨hmade', hgrants'⟩ := h' hmade.wf
    exact ⟨hmade.trans hmade', hgrants'.trans hgrants⟩

section files

variable {P : Payload → Prop}

theorem makesWithin_of_eq {k k' : Kernel δ} (hobjects : k'.objects = k.objects)
    (hcaps : k'.caps = k.caps) (hgrants : k'.grants = k.grants) : MakesWithin P k k' := by
  intro hwf
  rw [hobjects, hcaps, hgrants]
  exact ⟨.refl P hwf, rfl⟩

theorem makesWithin_setFile (i : Fin tmpfsMaxOpenFiles) (f : TmpfsFile → TmpfsFile) :
    Effect.Within (MakesWithin P) (setFile i f : K δ Unit) :=
  Effect.within_modify fun _ => makesWithin_of_eq rfl rfl rfl

theorem makesWithin_capCreate (objectId rights : UInt64) :
    Effect.Within (MakesWithin P) (K.capCreate objectId rights : K δ UInt64) := by
  intro k hwf
  exact ⟨((TablesMade.refl P hwf).capCreate objectId rights).toObjectsMade, rfl⟩

theorem makesWithin_tmpfsHandleOpen (hP : ∀ i, P (.file i)) :
    Effect.Within (MakesWithin P) (tmpfsHandleOpen : K δ Unit) := by
  refine .bind (Effect.within_ask _) fun path => ?_
  refine .bind (Effect.within_ask _) fun backing => ?_
  refine .bind (Effect.within_ask _) fun i => ?_
  have hobject : Effect.Within (MakesWithin P)
      (K.objectCreate ObjType.file bootCore 0 (.file i) : K δ UInt64) := by
    intro k hwf
    exact ⟨((TablesMade.refl P hwf).objectCreate (hP i) bootCore 0).toObjectsMade, rfl⟩
  refine hobject.bind fun objectId => ?_
  refine .bind (makesWithin_capCreate objectId Right.read).attempt fun r => ?_
  cases r with
  | error e => exact .bind (makesWithin_setFile i _) fun _ => Effect.within_fail e
  | ok cap =>
    refine .bind (makesWithin_setFile i _) fun _ => ?_
    exact Effect.within_modify fun _ => makesWithin_of_eq rfl rfl rfl

theorem makesWithin_tmpfsHandleClose : Effect.Within (MakesWithin P) (tmpfsHandleClose : K δ Unit) := by
  refine .bind (Effect.within_ask _) fun msg => ?_
  refine .bind (Effect.within_ask _) fun i => ?_
  exact makesWithin_setFile i _

theorem Kernel.deliver_made {k : Kernel δ} (hwf : TablesWf k.objects k.caps) {handler : K δ Unit}
    (h : Effect.Within (MakesWithin P) handler) (msg : Message) (path : List UInt8) :
    ObjectsMade P k.objects k.caps (k.deliver handler msg path).2.objects
        (k.deliver handler msg path).2.caps ∧
      (k.deliver handler msg path).2.grants = k.grants :=
  h { k with msg := msg, payload := path } hwf

end files

/-! ## Runs -/

/-- The call makes objects of its own subsystem only. -/
def MakeCall.Makes (call : MakeCall) (payload : Payload) : Prop :=
  ∀ k, payload.owner = some k → call.subsystem = some k

/-- The invariant of the runs: the type of an object goes with its payload. -/
structure MachineInv (m : Machine δ) : Prop where
  wf : TablesWf m.kernel.objects m.kernel.caps
  typed : ∀ id ob, objectLookup m.kernel.objects id = .ok ob → ob.type = ob.payload.type
  counted : KernelSlotsCounted m.kernel.grants.kernel

/-- One call. -/
theorem MachineInv.made {m : Machine δ} (h : MachineInv m) (call : MakeCall) :
    ObjectsMade call.Makes m.kernel.objects m.kernel.caps (makeStep m call).2.kernel.objects
        (makeStep m call).2.kernel.caps ∧
      KernelSlotsCounted (makeStep m call).2.kernel.grants.kernel := by
  have hown : ∀ {payload : Payload} {k : Subsystem}, payload.owner = some k →
      call.subsystem = some k → call.Makes payload := by
    intro payload k hpay hcall k' hk'
    rw [hpay] at hk'
    rw [hcall, hk']
  -- A call makes objects of its own subsystem only; the kernel grants are counted
  -- by the calls on grants.
  cases call with
  | endpoint ownerCore handler =>
    have hmade := endpointCreate_made h.wf (P := MakeCall.Makes (.endpoint ownerCore handler))
      (fun i => hown rfl rfl) m.kernel.endpoints ownerCore handler
    exact ⟨hmade.toObjectsMade, h.counted⟩
  | ring ownerCore entries boundTarget =>
    have hmade := ringCreate_made h.wf (P := MakeCall.Makes (.ring ownerCore entries boundTarget))
      (fun i => hown rfl rfl) m.kernel.rings ownerCore entries boundTarget
    exact ⟨hmade.toObjectsMade, h.counted⟩
  | grant base length rights lifetime =>
    obtain ⟨hmade, hcounted⟩ := grantCreate_made h.wf
      (P := MakeCall.Makes (.grant base length rights lifetime)) (fun i => hown rfl rfl) h.counted
      base length rights lifetime
    exact ⟨hmade.toObjectsMade, hcounted⟩
  | userGrant v terms =>
    obtain ⟨hmade, hkernel⟩ := userGrantCreate_made h.wf (P := MakeCall.Makes (.userGrant v terms))
      (fun i => hown rfl rfl) m.kernel.grants v terms.sourceTask terms.userBase terms.length
      terms.rights terms.targetEndpoint
    refine ⟨hmade.toObjectsMade, ?_⟩
    simp only [makeStep]
    rw [hkernel]
    exact h.counted
  | task ownerCore addressSpace =>
    have hmade := taskCreate_made h.wf (P := MakeCall.Makes (.task ownerCore addressSpace))
      (fun i => hown rfl rfl) m.tasks ownerCore addressSpace
    exact ⟨hmade.toObjectsMade, h.counted⟩
  | thread task entry arg stack =>
    have hmade := threadCreate_made h.wf (P := MakeCall.Makes (.thread task entry arg stack))
      (fun i => hown rfl rfl) m.tasks m.threads task entry arg stack
    exact ⟨hmade.toObjectsMade, h.counted⟩
  | addressSpace v storage pages =>
    have hmade := addressSpaceCreate_made h.wf (P := MakeCall.Makes (.addressSpace v storage pages))
      (fun b => hown rfl rfl) m.aspaces v storage pages
    exact ⟨hmade.toObjectsMade, h.counted⟩
  | file msg path =>
    obtain ⟨hmade, hgrants⟩ := Kernel.deliver_made (P := MakeCall.Makes (.file msg path)) h.wf
      (makesWithin_tmpfsHandleOpen fun i => hown rfl rfl) msg path
    refine ⟨hmade, ?_⟩
    simp only [makeStep]
    rw [hgrants]
    exact h.counted
  | device msg =>
    have hdevice : ∀ i, MakeCall.Makes (.device msg) (.device i) := by
      intro i k hk
      cases hk
    have hmade := devmgrRegister_made h.wf hdevice (fun i => hown rfl rfl) m.devmgr msg
    exact ⟨hmade.toObjectsMade, h.counted⟩
  | closeFile msg =>
    obtain ⟨hmade, hgrants⟩ := Kernel.deliver_made (P := MakeCall.Makes (.closeFile msg)) h.wf
      makesWithin_tmpfsHandleClose msg []
    refine ⟨hmade, ?_⟩
    simp only [makeStep]
    rw [hgrants]
    exact h.counted
  | userGrantRevoke grant =>
    have hcounted : KernelGrantsCounted m.kernel.grants := h.counted
    rcases userGrantRevoke_cases h.wf m.kernel.grants grant with
      ⟨e, _, hrev⟩ | ⟨j, ref, hlook, _, _, _, _, hrev⟩
    · simp only [makeStep, hrev]
      exact ⟨.refl _ h.wf, h.counted⟩
    · obtain ⟨_, i, rfl, _⟩ := hcounted.lookup h.wf hlook
      simp only [makeStep, hrev]
      exact ⟨(ObjectsMade.refl _ h.wf).caps (tablesWf_revokeSlot h.wf j), h.counted⟩
  | capCreate objectId rights =>
    exact ⟨((TablesMade.refl _ h.wf).capCreate objectId rights).toObjectsMade, h.counted⟩
  | capRevoke cap =>
    exact ⟨(ObjectsMade.refl _ h.wf).caps (tablesWf_capRevoke h.wf cap), h.counted⟩

theorem MachineInv.step {m : Machine δ} (h : MachineInv m) (call : MakeCall) :
    MachineInv (makeStep m call).2 := by
  obtain ⟨hmade, hcounted⟩ := h.made call
  refine ⟨hmade.wf, ?_, hcounted⟩
  intro id ob hob
  rcases hmade.new hob with hold | ⟨_, _, htype⟩
  · exact h.typed id ob hold
  · exact htype

theorem MachineStart.inv {m : Machine δ} (h : MachineStart m) : MachineInv m := by
  refine ⟨?_, ?_, fun i hi => absurd (h.kernelGrants i) hi⟩
  · rw [h.objects, h.caps]
    exact tablesWf_zero
  · intro id ob hob
    rw [h.objects] at hob
    obtain ⟨j, rfl, htype, _⟩ := (objectLookup_eq_ok ObjectTable.wf_zero).mp hob
    exact absurd rfl htype

theorem machineInv_run {log : MakeLog} {m : Machine δ} (hrun : (makeSystem δ).Run log m) :
    MachineInv m := by
  apply hrun.invariant (P := MachineInv)
  · intro m hinit
    exact hinit.inv
  · intro m call h _
    exact h.step call

/-- Every object was made by a creation of the subsystem whose table its payload
    points into. -/
theorem madeBy_run {log : MakeLog} {m : Machine δ} (hrun : (makeSystem δ).Run log m) {id : UInt64}
    {ob : Object} (hob : objectLookup m.kernel.objects id = .ok ob) {k : Subsystem}
    (hk : ob.payload.owner = some k) : MadeBy δ log k id ob.payload := by
  induction hrun with
  | init hinit =>
    rw [hinit.objects] at hob
    obtain ⟨j, rfl, htype, _⟩ := (objectLookup_eq_ok ObjectTable.wf_zero).mp hob
    exact absurd rfl htype
  | @step log m call hrun _ ih =>
    have hinv := machineInv_run hrun
    rcases (hinv.made call).1.new hob with hold | ⟨hfresh, hmakes, _⟩
    · exact (ih hold).concat _
    · exact ⟨log, call, _, [], m, rfl, hrun, hmakes k hk, hfresh, ob, hob, rfl⟩

/-- A creation of a subsystem makes no object with a payload of another one. -/
theorem MadeBy.owner {log : MakeLog} {k k' : Subsystem} {id : UInt64} {payload : Payload}
    (h : MadeBy δ log k id payload) (hk' : payload.owner = some k') : k = k' := by
  obtain ⟨pre, call, r, post, m, _, hrun, hcall, hfresh, ob, hob, rfl⟩ := h
  rcases ((machineInv_run hrun).made call).1.new hob with hold | ⟨_, hmakes, _⟩
  · exact absurd hold (hfresh ob)
  · exact Option.some.inj (hcall.symm.trans (hmakes k' hk'))

/-! ## What a lookup returns -/

/-- Only the two kinds of grants share a type. -/
theorem Subsystem.eq_of_type {k k' : Subsystem} (h : k.type = k'.type) :
    k = k' ∨ (k = .grant ∧ k' = .userGrant) ∨ (k = .userGrant ∧ k' = .grant) := by
  revert h
  cases k <;> cases k' <;> decide

/-- No lookup asks for a null pointer or for a device. -/
theorem Subsystem.type_ne (k : Subsystem) : k.type ≠ ObjType.none ∧ k.type ≠ ObjType.device := by
  cases k <;> decide

theorem Payload.type_of_owner {payload : Payload} {k : Subsystem} (h : payload.owner = some k) :
    payload.type = k.type := by
  cases payload <;> cases h <;> rfl

/-- A payload that goes with the type a lookup asks for is in the table of its
    subsystem, or both are grants. -/
theorem Payload.owner_of_type {payload : Payload} {k : Subsystem} (h : payload.type = k.type) :
    payload.owner = some k ∨ (k = .grant ∧ ∃ i, payload = .userGrant i) ∨
      (k = .userGrant ∧ ∃ i, payload = .grant i) := by
  cases howner : payload.owner with
  | none =>
    cases payload with
    | null => exact absurd h.symm k.type_ne.1
    | device i => exact absurd h.symm k.type_ne.2
    | _ => cases howner
  | some k' =>
    rcases Subsystem.eq_of_type ((Payload.type_of_owner howner).symm.trans h) with
      rfl | ⟨rfl, rfl⟩ | ⟨rfl, rfl⟩
    · exact .inl rfl
    · cases payload with
      | grant i => exact .inr (.inr ⟨rfl, i, rfl⟩)
      | _ => cases howner
    · cases payload with
      | userGrant i => exact .inr (.inl ⟨rfl, i, rfl⟩)
      | _ => cases howner

/-- The payload that a reference to a grant stands for. -/
def UserGrantRef.payload : UserGrantRef → Payload
  | .user i => .userGrant i
  | .kernel i => .grant i

section lookup

variable {m : Machine δ} {stray : Subsystem → Payload → UInt64 → Except Err Unit} {live : Bool}
  {k : Subsystem} {payload : Payload} {id : UInt64}

theorem Except.map_eq_ok {ε α β : Type} {f : α → β} {r : Except ε α} {b : β} :
    r.map f = .ok b ↔ ∃ a, r = .ok a ∧ f a = b := by
  cases r with
  | error e => simp [Except.map]
  | ok a => simp [Except.map]

/-- The record of the own subsystem has passed the test of its object id. -/
theorem Machine.slotTest_own (hown : payload.owner = some k) {p : Payload}
    (h : m.slotTest stray live k payload id = .ok p) : p = payload ∧ m.slotId payload = id := by
  unfold Machine.slotTest at h
  split at h
  · cases h
  · cases hown
  · cases hown
  · rw [if_pos hown] at h
    split at h
    · cases h
    · next hid =>
      obtain ⟨_, _, rfl⟩ := Except.map_eq_ok.mp h
      exact ⟨rfl, not_not.mp hid⟩

/-- A user grant read as a kernel grant. -/
theorem Machine.slotTest_userGrant {i : Fin maxUserGrants} {p : Payload}
    (h : m.slotTest stray live .grant (.userGrant i) id = .ok p) : p = .userGrant i := by
  simp only [Machine.slotTest] at h
  split at h
  · cases h
  · exact (Except.ok.inj h).symm

/-- A kernel grant in use does not pass as a user grant. -/
theorem MachineInv.slotTest_grant (hinv : MachineInv m) (hid : id ≠ 0) {i : Fin maxGrants}
    {p : Payload} : m.slotTest stray live .userGrant (.grant i) id ≠ .ok p := by
  intro h
  simp only [Machine.slotTest] at h
  split at h
  · cases h
  · next heq =>
    have hslot : (m.kernel.grants.kernel i).objectId = id := not_not.mp heq
    have hrevoked := hinv.counted i (hslot ▸ hid)
    obtain ⟨_, htest, _⟩ := Except.map_eq_ok.mp h
    unfold userGrantTest GrantTables.slot at htest
    rw [if_pos hrevoked] at htest
    cases htest

/-- `cap` is a live token of a user grant. -/
def Machine.UserGrantToken (m : Machine δ) (cap : UInt64) : Prop :=
  ∃ j i, IsGrantCap m.kernel.objects m.kernel.caps j i ∧ cap = m.kernel.caps.token j

/-- The record behind `payload` was made by subsystem `k` for the object of the
    token `cap`. -/
def SlotAllocated (log : MakeLog) (m : Machine δ) (k : Subsystem) (cap : UInt64) (payload : Payload) :
    Prop :=
  ∃ entry, capLookup m.kernel.objects m.kernel.caps cap = .ok entry ∧
    MadeBy δ log k entry.objectId payload ∧ m.slotId payload = entry.objectId

/-- **The slots behind the objects.**  In every reachable state, a lookup that
    succeeds returns a slot that its own subsystem has made for the object of the
    token, exactly when it is not `grant_lookup` on the token of a user grant. -/
theorem payload_allocated {log : MakeLog} (hrun : (makeSystem δ).Run log m) {cap r : UInt64}
    (hlook : m.lookup stray live k cap r = .ok payload) :
    SlotAllocated log m k cap payload ↔ ¬ (k = .grant ∧ m.UserGrantToken cap) := by
  have hinv := machineInv_run hrun
  obtain ⟨entry, object, hcheck, hob, htest⟩ := payloadLookup_eq_ok.mp hlook
  have hentry := (capCheck_eq_ok_iff_lookup.mp hcheck).2.1
  obtain ⟨_, j, hocc, rfl, rfl, hgr⟩ := (capCheck_eq_ok hinv.wf).mp hcheck
  -- The type of the object is the one asked for, and goes with its payload.
  have htype : object.payload.type = k.type := by
    obtain ⟨object', hob', _, _, hobtype⟩ := hinv.wf.object j hocc
    obtain rfl := Except.ok.inj (hob.symm.trans hob')
    rw [← hinv.typed _ _ hob, hobtype]
    rcases hgr.1 with hnone | hty
    · exact absurd hnone k.type_ne.1
    · exact hty
  constructor
  · intro halloc hconf
    obtain ⟨rfl, j', i, ⟨_, object', hob', _, hpay⟩, htoken⟩ := hconf
    obtain rfl := CapTable.token_injective htoken
    obtain rfl := Except.ok.inj (hob.symm.trans hob')
    obtain ⟨_, _, hmade, _⟩ := halloc
    rw [hpay] at htest
    rw [Machine.slotTest_userGrant htest] at hmade
    cases hmade.owner (rfl : (Payload.userGrant i).owner = some .userGrant)
  · intro hconf
    rcases Payload.owner_of_type htype with hown | ⟨rfl, i, hpay⟩ | ⟨rfl, i, hpay⟩
    · obtain ⟨rfl, hslot⟩ := Machine.slotTest_own hown htest
      exact ⟨_, hentry, madeBy_run hrun hob hown, hslot⟩
    · -- The token is one of a user grant.
      refine absurd ⟨rfl, j, i, ⟨hocc, object, hob, ?_, hpay⟩, rfl⟩ hconf
      rw [hinv.typed _ _ hob, hpay]
      rfl
    · rw [hpay] at htest
      exact absurd htest (hinv.slotTest_grant (CapTable.occupied_iff.mp hocc).1)

/-! ### The models of the single lookups

    They answer `SCDK_ERR_NOENT` where a payload is not in the table of their
    subsystem; in a reachable state there is no such payload to meet. -/

/-- A lookup compares with a test as the tests compare on the payloads that go
    with the type asked for. -/
theorem MachineInv.lookup_rel (hinv : MachineInv m) {α : Type} (stray live) (k : Subsystem)
    {R : Except Err Payload → Except Err α → Prop} (herror : ∀ e, R (.error e) (.error e))
    {test : Payload → UInt64 → Except Err α}
    (h : ∀ payload id, payload.type = k.type → R (m.slotTest stray live k payload id)
      (test payload id)) (cap r : UInt64) :
    R (m.lookup stray live k cap r)
      (payloadLookup m.kernel.objects m.kernel.caps cap r k.type test) := by
  unfold Machine.lookup payloadLookup
  cases hcheck : capCheck m.kernel.objects m.kernel.caps cap r k.type with
  | error e => exact herror e
  | ok entry =>
    obtain ⟨_, j, hocc, _, rfl, hgr⟩ := (capCheck_eq_ok hinv.wf).mp hcheck
    obtain ⟨object, hob, _, _, hobtype⟩ := hinv.wf.object j hocc
    simp only [hob]
    apply h
    rw [← hinv.typed _ _ hob, hobtype]
    exact hgr.1.resolve_left k.type_ne.1

/-- The same for a subsystem whose type is its own, where the test returns slots
    of its table. -/
theorem MachineInv.lookup_map (hinv : MachineInv m) {α : Type} (stray live) {k : Subsystem}
    (hk : k ≠ .grant ∧ k ≠ .userGrant) {f : α → Payload} {test : Payload → UInt64 → Except Err α}
    (h : ∀ payload id, payload.owner = some k →
      m.slotTest stray live k payload id = (test payload id).map f) (cap r : UInt64) :
    m.lookup stray live k cap r =
      (payloadLookup m.kernel.objects m.kernel.caps cap r k.type test).map f := by
  apply hinv.lookup_rel (R := fun a b => a = b.map f) stray live k (fun _ => rfl)
  intro payload id hty
  rcases Payload.owner_of_type hty with hown | ⟨hgrant, _⟩ | ⟨huser, _⟩
  · exact h payload id hown
  · exact absurd hgrant hk.1
  · exact absurd huser hk.2

/-- The test of the object id, where it is the only one. -/
theorem ite_noent {α : Type} {p : Prop} [Decidable p] {f : α → Payload} {a : α} :
    (if p then .error .noent else (.ok () : Except Err Unit).map fun _ => f a) =
      (if p then .error .noent else .ok a : Except Err α).map f := by
  by_cases hp : p
  · rw [if_pos hp, if_pos hp]
    rfl
  · rw [if_neg hp, if_neg hp]
    rfl

/-- The test of the object id and a second one, in the order of the source. -/
theorem ite_or_noent {α : Type} {p q : Prop} [Decidable p] [Decidable q] {f : α → Payload} {a : α} :
    (if p then .error .noent
      else (if q then .error .noent else .ok () : Except Err Unit).map fun _ => f a) =
      (if p ∨ q then .error .noent else .ok a : Except Err α).map f := by
  by_cases hp : p
  · rw [if_pos hp, if_pos (.inl hp)]
    rfl
  · by_cases hq : q
    · rw [if_neg hp, if_pos hq, if_pos (.inr hq)]
      rfl
    · rw [if_neg hp, if_neg hq, if_neg (not_or.mpr ⟨hp, hq⟩)]
      rfl

theorem MachineInv.lookup_task (hinv : MachineInv m) (cap : UInt64) :
    m.lookup stray live .task cap Right.read =
      (Sched.taskSlotForCap m.kernel.objects m.kernel.caps m.tasks cap).map Payload.task := by
  refine hinv.lookup_map stray live (by decide) (fun payload id hown => ?_) cap Right.read
  cases payload with
  | task i => exact ite_noent
  | _ => cases hown

theorem MachineInv.lookup_thread (hinv : MachineInv m) (cap : UInt64) :
    m.lookup stray live .thread cap Right.read =
      (Sched.threadSlotForCap m.kernel.objects m.kernel.caps m.threads cap).map Payload.thread := by
  refine hinv.lookup_map stray live (by decide) (fun payload id hown => ?_) cap Right.read
  cases payload with
  | thread i => exact ite_noent
  | _ => cases hown

theorem MachineInv.lookup_deviceQueue (hinv : MachineInv m) (cap r : UInt64) :
    m.lookup stray live .deviceQueue cap r =
      (devmgrQueueFromCap m.kernel.objects m.kernel.caps m.devmgr cap r).map
        Payload.deviceQueue := by
  refine hinv.lookup_map stray live (by decide) (fun payload id hown => ?_) cap r
  cases payload with
  | deviceQueue i => exact ite_or_noent
  | _ => cases hown

/-- The test of `scdk_ring_lookup`, on payloads of all types. -/
def ringTest (rings : RingTable) (payload : Payload) (id : UInt64) : Except Err (Fin maxRings) :=
  match payload with
  | .ring i => if (rings i).objectId ≠ id then .error .noent else .ok i
  | _ => .error .noent

theorem MachineInv.lookup_ring (hinv : MachineInv m) (cap r : UInt64) :
    m.lookup stray live .ring cap r =
      (ringLookup m.kernel.objects m.kernel.caps m.kernel.rings cap r).map Payload.ring := by
  have heq : ringLookup m.kernel.objects m.kernel.caps m.kernel.rings cap r =
      payloadLookup m.kernel.objects m.kernel.caps cap r ObjType.ring (ringTest m.kernel.rings) :=
    rfl
  rw [heq]
  refine hinv.lookup_map stray live (by decide) (fun payload id hown => ?_) cap r
  cases payload with
  | ring i => exact ite_noent
  | _ => cases hown

/-- The test of `lookup_aspace`. -/
def addressSpaceTest (aspaces : AddressSpaces) (payload : Payload) (id : UInt64) :
    Except Err Nat :=
  match payload with
  | .addressSpace b =>
    if (aspaces b).objectId ≠ id ∨ (aspaces b).rootPhys = 0 then .error .noent else .ok b
  | _ => .error .noent

theorem MachineInv.lookup_addressSpace (hinv : MachineInv m) (cap r : UInt64) :
    m.lookup stray live .addressSpace cap r =
      (lookupAspace m.kernel.objects m.kernel.caps m.aspaces cap r).map Payload.addressSpace := by
  have heq : lookupAspace m.kernel.objects m.kernel.caps m.aspaces cap r =
      payloadLookup m.kernel.objects m.kernel.caps cap r ObjType.addressSpace
        (addressSpaceTest m.aspaces) := rfl
  rw [heq]
  refine hinv.lookup_map stray live (by decide) (fun payload id hown => ?_) cap r
  cases payload with
  | addressSpace b => exact ite_or_noent
  | _ => cases hown

/-- The test of `tmpfs_slot_for_cap`. -/
def fileTest (files : Fin tmpfsMaxOpenFiles → TmpfsFile) (payload : Payload) (id : UInt64) :
    Except Err (Fin tmpfsMaxOpenFiles) :=
  match payload with
  | .file i => if (files i).objectId ≠ id ∨ (files i).isOpen = false then .error .noent else .ok i
  | _ => .error .noent

theorem MachineInv.lookup_file (hinv : MachineInv m) (cap : UInt64) :
    m.lookup stray live .file cap Right.read = (tmpfsSlotForCap m.kernel cap).map Payload.file := by
  have heq : tmpfsSlotForCap m.kernel cap =
      payloadLookup m.kernel.objects m.kernel.caps cap Right.read ObjType.file
        (fileTest m.kernel.files) := rfl
  rw [heq]
  refine hinv.lookup_map stray live (by decide) (fun payload id hown => ?_) cap Right.read
  cases payload with
  | file i => exact ite_or_noent
  | _ => cases hown

/-- The test of `scdk_endpoint_call`: an endpoint with a handler. -/
def endpointTest (endpoints : EndpointTable) (payload : Payload) (id : UInt64) :
    Except Err (UInt64 × Handler) :=
  match payload with
  | .endpoint i =>
    if (endpoints i).objectId ≠ id then .error .noent
    else
      match (endpoints i).handler with
      | none => .error .noent
      | some handler => .ok (id, handler)
  | _ => .error .noent

/-- `scdk_endpoint_call` finds a handler exactly when the lookup succeeds. -/
theorem MachineInv.lookup_endpoint (hinv : MachineInv m) (cap : UInt64) :
    toStatus (m.lookup stray live .endpoint cap Right.send) =
      toStatus (endpointTarget m.kernel.objects m.kernel.caps m.kernel.endpoints cap) := by
  have heq : endpointTarget m.kernel.objects m.kernel.caps m.kernel.endpoints cap =
      payloadLookup m.kernel.objects m.kernel.caps cap Right.send ObjType.endpoint
        (endpointTest m.kernel.endpoints) := rfl
  rw [heq]
  refine hinv.lookup_rel (α := UInt64 × Handler) (R := fun a b => toStatus a = toStatus b) stray
    live .endpoint (fun _ => rfl) (fun payload id hty => ?_) cap Right.send
  rcases Payload.owner_of_type (k := .endpoint) hty with hown | ⟨h, _⟩ | ⟨h, _⟩
  · cases payload with
    | endpoint i =>
      show toStatus (if (m.kernel.endpoints i).objectId ≠ id then .error .noent
          else (if (m.kernel.endpoints i).handler = none then .error .noent
            else .ok () : Except Err Unit).map fun _ => Payload.endpoint i) = toStatus (if _ then _ else _)
      by_cases hid : (m.kernel.endpoints i).objectId ≠ id
      · rw [if_pos hid, if_pos hid]
        rfl
      · rw [if_neg hid, if_neg hid]
        cases (m.kernel.endpoints i).handler with
        | none => rfl
        | some handler => rfl
    | _ => cases hown
  · cases h
  · cases h

theorem MachineInv.lookup_grant (hinv : MachineInv m) (cap r : UInt64) :
    m.lookup stray live .grant cap r =
      (grantLookup m.kernel.objects m.kernel.caps m.kernel.grants cap r).map
        UserGrantRef.payload := by
  refine hinv.lookup_rel (R := fun a b => a = b.map UserGrantRef.payload) stray live .grant
    (fun _ => rfl) (fun payload id hty => ?_) cap r
  rcases Payload.owner_of_type (k := .grant) hty with hown | ⟨_, i, rfl⟩ | ⟨h, _⟩
  · cases payload with
    | grant i => exact @ite_noent _ _ _ UserGrantRef.payload (.kernel i)
    | _ => cases hown
  · exact @ite_noent _ _ _ UserGrantRef.payload (.user i)
  · cases h

/-- The test of `user_grant_lookup`, on payloads of all types. -/
def userGrantRefTest (objects : ObjectTable) (caps : CapTable) (grants : GrantTables) (live : Bool)
    (payload : Payload) (id : UInt64) : Except Err UserGrantRef :=
  match payload.grantRef with
  | none => .error .noent
  | some ref =>
    if (grants.slot ref).objectId ≠ id then .error .noent
    else (userGrantTest objects caps (grants.slot ref) live).map fun _ => ref

theorem MachineInv.lookup_userGrant (hinv : MachineInv m) (cap r : UInt64) :
    m.lookup stray live .userGrant cap r =
      (userGrantLookup m.kernel.objects m.kernel.caps m.kernel.grants cap r live).map
        UserGrantRef.payload := by
  -- The lookup of the source, as a test on the payload.
  have heq : userGrantLookup m.kernel.objects m.kernel.caps m.kernel.grants cap r live =
      payloadLookup m.kernel.objects m.kernel.caps cap r ObjType.grant
        (userGrantRefTest m.kernel.objects m.kernel.caps m.kernel.grants live) := by
    unfold userGrantLookup payloadLookup userGrantRefTest
    cases capCheck m.kernel.objects m.kernel.caps cap r ObjType.grant with
    | error e => rfl
    | ok entry =>
      dsimp only
      cases objectLookup m.kernel.objects entry.objectId with
      | error e => rfl
      | ok object =>
        dsimp only
        cases object.payload.grantRef with
        | none => rfl
        | some ref =>
          dsimp only
          unfold userGrantTest
          by_cases hid : (m.kernel.grants.slot ref).objectId ≠ entry.objectId
          · rw [if_pos hid, if_pos hid]
          rw [if_neg hid, if_neg hid]
          by_cases hrevoked : (m.kernel.grants.slot ref).revoked = true
          · rw [if_pos hrevoked, if_pos hrevoked]
            rfl
          rw [if_neg hrevoked, if_neg hrevoked]
          cases live with
          | false => rfl
          | true =>
            cases liveBinding m.kernel.objects m.kernel.caps (m.kernel.grants.slot ref) with
            | error e => rfl
            | ok u => rfl
  rw [heq]
  refine hinv.lookup_rel (R := fun a b => a = b.map UserGrantRef.payload) stray live .userGrant
    (fun _ => rfl) (fun payload id hty => ?_) cap r
  have hmap : ∀ (ref : UserGrantRef) (p : Prop) [Decidable p] (t : Except Err Unit),
      (if p then .error .noent else t.map fun _ => ref.payload) =
        (if p then .error .noent else t.map fun _ => ref : Except Err UserGrantRef).map
          UserGrantRef.payload := by
    intro ref p _ t
    split
    · rfl
    · cases t with
      | error e => rfl
      | ok u => rfl
  -- A kernel grant passes for a user grant: its payload has the same type.
  rcases Payload.owner_of_type (k := .userGrant) hty with hown | ⟨h, _⟩ | ⟨_, i, rfl⟩
  · cases payload with
    | userGrant i => exact hmap (.user i) _ _
    | _ => cases hown
  · cases h
  · exact hmap (.kernel i) _ _

end lookup

/-! ### A user grant read as a kernel grant -/

/-- The tables before the first object. -/
def Machine.zero : Machine Unit where
  kernel := Kernel.zero ⟨[], true⟩
  tasks := fun _ => ⟨0, 0, 0, 0, 0⟩
  threads := fun _ => ⟨0, 0, 0, 0, 0, 0, 0, 0, 0, .none, false⟩
  aspaces := fun _ => ⟨0, 0, 0, 0⟩
  devmgr := ⟨fun _ => ⟨0, 0, 0, false⟩, fun _ => ⟨0, 0, 0, 0, false⟩⟩

/-- An endpoint, a task, and a grant of sixteen bytes of the task to the endpoint;
    they get the first tokens of slots 0, 1 and 2. -/
def makeUserGrant : List MakeCall :=
  [.endpoint bootCore .console, .task bootCore 0,
    .userGrant Machine.zero.kernel.vmm ⟨firstToken 1, 0x200000, 16, Right.read, firstToken 0⟩]

def afterUserGrant : Machine Unit := (makeSystem Unit).exec Machine.zero makeUserGrant

theorem run_makeUserGrant : ∃ log, (makeSystem Unit).Run log afterUserGrant := by
  have hinit : (makeSystem Unit).init Machine.zero := ⟨rfl, rfl, fun _ => rfl⟩
  have hguard : (makeSystem Unit).Guarded (fun _ _ => True) Machine.zero makeUserGrant :=
    ⟨trivial, trivial, trivial, trivial⟩
  exact (System.RunWhen.init hinit).exec hguard

/-- A stray read finds nothing. -/
def noStray (_ : Subsystem) (_ : Payload) (_ : UInt64) : Except Err Unit := .error .noent

/-- The lookup of the user grant returns the slot that was made for it. -/
theorem payload_allocated_userGrant :
    ∃ log, SlotAllocated log afterUserGrant .userGrant (firstToken 2) (.userGrant 0) := by
  obtain ⟨log, hrun⟩ := run_makeUserGrant
  have hlook : afterUserGrant.lookup noStray true .userGrant (firstToken 2) Right.read =
      .ok (.userGrant 0) := by
    decide +kernel
  refine ⟨log, (payload_allocated hrun hlook).mpr ?_⟩
  intro hconf
  cases hconf.1

/-- The lookup of a kernel grant returns the slot of a user grant. -/
theorem payload_allocated_fails :
    ¬ ∀ (log : MakeLog) (m : Machine Unit) (stray : Subsystem → Payload → UInt64 → Except Err Unit)
        (live : Bool) (k : Subsystem) (cap r : UInt64) (payload : Payload),
      (makeSystem Unit).Run log m → m.lookup stray live k cap r = .ok payload →
      SlotAllocated log m k cap payload := by
  intro hall
  obtain ⟨log, hrun⟩ := run_makeUserGrant
  have hlook : afterUserGrant.lookup noStray true .grant (firstToken 2) Right.read =
      .ok (.userGrant 0) := by
    decide +kernel
  obtain ⟨entry, _, hmade, _⟩ := hall log _ _ _ _ _ _ _ hrun hlook
  cases hmade.owner (rfl : (Payload.userGrant 0).owner = some .userGrant)

-- The address that `scdk_grant_resolve` hands out is the token of the endpoint.
example : grantResolve afterUserGrant.kernel.objects afterUserGrant.kernel.caps
    afterUserGrant.kernel.grants (firstToken 2) Right.read 0x200000 16 = .ok (firstToken 0) := by
  decide +kernel

end Scdk
