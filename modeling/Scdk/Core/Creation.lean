import Scdk.Core.Endpoint
import Scdk.Core.GrantRefinement
import Scdk.Core.Scheduler
import Scdk.Mm.AddressSpace
import Scdk.Services.Devmgr

/-! # What a creation does to the tables

    Every subsystem creates its objects in the same way: an object, then a token
    for it.

    * `ObjectsMade P`: every object is an old one or has a payload of `P`;
      `TablesMade P`: and the tokens there were are as before,
    * one lemma for each function that creates objects. -/

namespace Scdk

/-! ## Objects and tokens -/

/-- The type of the objects that are made with a payload. -/
def Payload.type : Payload → UInt32
  | .null => ObjType.none
  | .endpoint _ => ObjType.endpoint
  | .ring _ => ObjType.ring
  | .grant _ => ObjType.grant
  | .userGrant _ => ObjType.grant
  | .task _ => ObjType.task
  | .thread _ => ObjType.thread
  | .addressSpace _ => ObjType.addressSpace
  | .file _ => ObjType.file
  | .device _ => ObjType.device
  | .deviceQueue _ => ObjType.deviceQueue

/-- Every object is an old one, or is new and has a payload of `P` that goes with
    its type. -/
structure ObjectsMade (P : Payload → Prop) (o : ObjectTable) (c : CapTable) (o' : ObjectTable)
    (c' : CapTable) : Prop where
  wf : TablesWf o' c'
  old : ∀ {id ob}, objectLookup o id = .ok ob → objectLookup o' id = .ok ob
  new : ∀ {id ob}, objectLookup o' id = .ok ob → objectLookup o id = .ok ob ∨
    ((∀ ob', objectLookup o id ≠ .ok ob') ∧ P ob.payload ∧ ob.type = ob.payload.type)

/-- The same where the tokens there were are as before. -/
structure TablesMade (P : Payload → Prop) (o : ObjectTable) (c : CapTable) (o' : ObjectTable)
    (c' : CapTable) : Prop extends ObjectsMade P o c o' c' where
  tokens : ∀ {j}, c.occupied j = true → c.SameSlot c' j

section made

variable {P : Payload → Prop} {o o' o'' : ObjectTable} {c c' c'' : CapTable}

theorem ObjectsMade.refl (P : Payload → Prop) (h : TablesWf o c) : ObjectsMade P o c o c where
  wf := h
  old := id
  new := .inl

theorem ObjectsMade.trans (h : ObjectsMade P o c o' c') (h' : ObjectsMade P o' c' o'' c'') :
    ObjectsMade P o c o'' c'' where
  wf := h'.wf
  old := fun hob => h'.old (h.old hob)
  new := by
    intro id ob hob
    rcases h'.new hob with hmid | ⟨hfresh, hnew⟩
    · exact h.new hmid
    · exact .inr ⟨fun ob' hold => hfresh ob' (h.old hold), hnew⟩

/-- The objects do not depend on the tokens. -/
theorem ObjectsMade.caps (h : ObjectsMade P o c o' c') (hwf : TablesWf o' c'') :
    ObjectsMade P o c o' c'' := ⟨hwf, h.old, h.new⟩

theorem TablesMade.refl (P : Payload → Prop) (h : TablesWf o c) : TablesMade P o c o c :=
  ⟨.refl P h, fun _ => .refl c _⟩

theorem TablesMade.trans (h : TablesMade P o c o' c') (h' : TablesMade P o' c' o'' c'') :
    TablesMade P o c o'' c'' := by
  refine ⟨h.toObjectsMade.trans h'.toObjectsMade, ?_⟩
  intro j hj
  have hsame := h.tokens hj
  have hj' : c'.occupied j = true := hsame.occupied.trans hj
  exact hsame.trans (h'.tokens hj')

theorem TablesMade.capCreate (h : TablesMade P o c o' c') (objectId rights : UInt64) :
    TablesMade P o c o' (capCreate o' c' objectId rights).2 := by
  refine h.trans ⟨(ObjectsMade.refl P h.wf).caps (tablesWf_capCreate h.wf objectId rights), ?_⟩
  intro j hj
  -- The token is not minted, or goes to a slot that was free.
  rcases capCreate_cases o' c' objectId rights with ⟨e, heq⟩ | ⟨i, object, _, _, hfree, heq⟩
  · rw [heq]
    exact .refl c' j
  · rw [heq]
    exact CapTable.sameSlot_mintSlot (CapTable.ne_of_occupied hfree hj) object rights

theorem TablesMade.objectCreate (h : TablesMade P o c o' c') {payload : Payload}
    (hP : P payload) (ownerCore flags : UInt32) :
    TablesMade P o c (objectCreate o' payload.type ownerCore flags payload).2 c' := by
  refine h.trans ⟨⟨tablesWf_objectCreate h.wf _ _ _ _, ?_, ?_⟩, fun _ => .refl c' _⟩
  · intro id ob hob
    exact objectLookup_objectCreate h.wf.objects hob _ _ _ _
  · intro id ob hob
    rcases hc : Scdk.objectCreate o' payload.type ownerCore flags payload with ⟨r, o''⟩
    rw [hc] at hob
    cases r with
    | error e =>
      rcases objectCreate_cases o' payload.type ownerCore flags payload with
        ⟨e', heq⟩ | ⟨_, _, _, _, _, heq⟩
      · rw [heq] at hc
        obtain ⟨_, rfl⟩ := Prod.mk.inj hc
        exact .inl hob
      · rw [heq] at hc
        cases hc
    | ok id' =>
      rcases objectLookup_objectCreate_cases h.wf.objects hc hob with rfl | hold
      · obtain ⟨_, hob'⟩ := objectLookup_of_objectCreate h.wf.objects hc
        obtain rfl := Except.ok.inj (hob'.symm.trans hob)
        exact .inr ⟨objectLookup_fresh h.wf.objects hc, hP, rfl⟩
      · exact .inl hold

/-- A table after `scdk_object_create`. -/
theorem TablesMade.ofCreate (h : TablesMade P o c o' c') {payload : Payload} (hP : P payload)
    {ownerCore flags : UInt32} {r : Except Err UInt64}
    (hc : Scdk.objectCreate o' payload.type ownerCore flags payload = (r, o'')) :
    TablesMade P o c o'' c' := by
  have hmade := h.objectCreate hP ownerCore flags
  rw [hc] at hmade
  exact hmade

/-- A table after `scdk_cap_create`. -/
theorem TablesMade.ofCap (h : TablesMade P o c o' c') {objectId rights : UInt64}
    {r : Except Err UInt64} (hc : Scdk.capCreate o' c' objectId rights = (r, c'')) :
    TablesMade P o c o' c'' := by
  have hmade := h.capCreate objectId rights
  rw [hc] at hmade
  exact hmade

theorem endpointCreate_made (h : TablesWf o c) (hP : ∀ i, P (.endpoint i))
    (endpoints : EndpointTable) (ownerCore : UInt32) (handler : Handler) :
    TablesMade P o c (endpointCreate o c endpoints ownerCore handler).2.1
      (endpointCreate o c endpoints ownerCore handler).2.2.1 := by
  unfold endpointCreate
  cases Slots.firstSlot fun i => (endpoints i).objectId == 0 with
  | none => exact .refl P h
  | some i =>
    dsimp only
    unfold endpointCreateSlot
    rcases hc : objectCreate o ObjType.endpoint ownerCore 0 (.endpoint i) with ⟨r, o'⟩
    have hmade := (TablesMade.refl P h).ofCreate (hP i) hc
    cases r with
    | error e => exact hmade
    | ok objectId =>
      dsimp only
      rcases hcap : capCreate o' c objectId endpointRights with ⟨r, c'⟩
      cases r with
      | error e => exact hmade.ofCap hcap
      | ok cap => exact hmade.ofCap hcap

theorem ringCreateFirst_made (h : TablesWf o c) (hP : ∀ i, P (.ring i)) (rings : RingTable)
    (ownerCore entries : UInt32) (boundTarget : UInt64) :
    TablesMade P o c (ringCreateFirst o c rings ownerCore entries boundTarget).2.1
      (ringCreateFirst o c rings ownerCore entries boundTarget).2.2.1 := by
  unfold ringCreateFirst
  cases Slots.firstSlot fun i => (rings i).objectId == 0 with
  | none => exact .refl P h
  | some i =>
    dsimp only
    unfold ringCreateSlot
    rcases hc : objectCreate o ObjType.ring ownerCore 0 (.ring i) with ⟨r, o'⟩
    have hmade := (TablesMade.refl P h).ofCreate (hP i) hc
    cases r with
    | error e => exact hmade
    | ok objectId =>
      dsimp only
      rcases hcap : capCreate o' c objectId ringRights with ⟨r, c'⟩
      cases r with
      | error e => exact hmade.ofCap hcap
      | ok cap => exact hmade.ofCap hcap

theorem ringCreate_made (h : TablesWf o c) (hP : ∀ i, P (.ring i)) (rings : RingTable)
    (ownerCore entries : UInt32) (boundTarget : UInt64) :
    TablesMade P o c (ringCreate o c rings ownerCore entries boundTarget).2.1
      (ringCreate o c rings ownerCore entries boundTarget).2.2.1 := by
  unfold ringCreate
  split
  · exact .refl P h
  split
  · split
    · exact .refl P h
    · exact ringCreateFirst_made h hP rings ownerCore entries boundTarget
  · exact ringCreateFirst_made h hP rings ownerCore entries boundTarget

/-- The records of the kernel grants as user grants. -/
def KernelSlotsCounted (grants : GrantTable) : Prop :=
  ∀ i, (grants i).objectId ≠ 0 → (grants i).asUserGrant.revoked = true

theorem KernelSlotsCounted.update {grants : GrantTable} (h : KernelSlotsCounted grants)
    (i : Fin maxGrants) {slot : GrantSlot} (hslot : slot.objectId ≠ 0 → slot.refcount = 1) :
    KernelSlotsCounted (Function.update grants i slot) := by
  intro i' hi'
  by_cases heq : i' = i
  · rw [heq, Function.update_self] at hi' ⊢
    unfold GrantSlot.asUserGrant
    rw [hslot hi']
    rfl
  · rw [Function.update_of_ne heq] at hi' ⊢
    exact h i' hi'

theorem grantCreate_made (h : TablesWf o c) (hP : ∀ i, P (.grant i)) {grants : GrantTable}
    (hcount : KernelSlotsCounted grants) (base length rights : UInt64) (lifetime : UInt32) :
    TablesMade P o c (grantCreate o c grants base length rights lifetime).2.1
        (grantCreate o c grants base length rights lifetime).2.2.1 ∧
      KernelSlotsCounted (grantCreate o c grants base length rights lifetime).2.2.2 := by
  unfold grantCreate
  split
  · exact ⟨.refl P h, hcount⟩
  cases Slots.firstSlot fun i => (grants i).objectId == 0 with
  | none => exact ⟨.refl P h, hcount⟩
  | some i =>
    dsimp only
    unfold grantCreateSlot
    rcases hc : objectCreate o ObjType.grant bootCore 0 (.grant i) with ⟨r, o'⟩
    have hmade := (TablesMade.refl P h).ofCreate (hP i) hc
    cases r with
    | error e => exact ⟨hmade, hcount⟩
    | ok objectId =>
      dsimp only
      rcases hcap : capCreate o' c objectId rights with ⟨r, c'⟩
      cases r with
      | error e => exact ⟨hmade.ofCap hcap, hcount.update i fun h0 => absurd rfl h0⟩
      | ok cap => exact ⟨hmade.ofCap hcap, hcount.update i fun _ => rfl⟩

theorem userGrantFill_made (h : TablesMade P o c o' c') (g : GrantTables) (i : Fin maxUserGrants)
    (reuse : Bool) (objectId sourceTask userBase length rights targetEndpoint : UInt64) :
    TablesMade P o c
        (userGrantFill o' c' g i reuse objectId sourceTask userBase length rights targetEndpoint).2.1
        (userGrantFill o' c' g i reuse objectId sourceTask userBase length rights
          targetEndpoint).2.2.1 ∧
      (userGrantFill o' c' g i reuse objectId sourceTask userBase length rights
        targetEndpoint).2.2.2.kernel = g.kernel := by
  unfold userGrantFill
  rcases hcap : capCreate o' c' objectId (userGrantRights rights) with ⟨r, c''⟩
  cases r with
  | error e => exact ⟨h.ofCap hcap, rfl⟩
  | ok cap => exact ⟨h.ofCap hcap, rfl⟩

theorem userGrantCreate_made (h : TablesWf o c) (hP : ∀ i, P (.userGrant i)) (g : GrantTables)
    (v : Vmm) (sourceTask userBase length rights targetEndpoint : UInt64) :
    TablesMade P o c
        (userGrantCreate o c g v sourceTask userBase length rights targetEndpoint).2.1
        (userGrantCreate o c g v sourceTask userBase length rights targetEndpoint).2.2.1 ∧
      (userGrantCreate o c g v sourceTask userBase length rights targetEndpoint).2.2.2.kernel =
        g.kernel := by
  have hsame := TablesMade.refl P h
  unfold userGrantCreate
  split
  · exact ⟨hsame, rfl⟩
  split
  · exact ⟨hsame, rfl⟩
  split
  · exact ⟨hsame, rfl⟩
  split
  · exact ⟨hsame, rfl⟩
  split
  · exact ⟨hsame, rfl⟩
  next i _ =>
  unfold userGrantCreateSlot
  split
  · -- The record of a revoked grant keeps its object.
    exact userGrantFill_made hsame g i true _ _ _ _ _ _
  · rcases hc : objectCreate o ObjType.grant bootCore 0 (.userGrant i) with ⟨r, o'⟩
    have hmade := hsame.ofCreate (hP i) hc
    cases r with
    | error e => exact ⟨hmade, rfl⟩
    | ok objectId => exact userGrantFill_made hmade g i false objectId _ _ _ _ _

theorem taskCreate_made (h : TablesWf o c) (hP : ∀ i, P (.task i)) (tasks : TaskTable)
    (ownerCore : UInt32) (addressSpace : UInt64) :
    TablesMade P o c (taskCreate o c tasks ownerCore addressSpace).2.1
      (taskCreate o c tasks ownerCore addressSpace).2.2.1 := by
  unfold taskCreate
  split
  · exact .refl P h
  cases Slots.firstSlot fun i => (tasks i).objectId == 0 with
  | none => exact .refl P h
  | some i =>
    dsimp only
    unfold taskCreateSlot
    rcases hc : objectCreate o ObjType.task ownerCore 0 (.task i) with ⟨r, o'⟩
    have hmade := (TablesMade.refl P h).ofCreate (hP i) hc
    cases r with
    | error e => exact hmade
    | ok objectId =>
      dsimp only
      rcases hcap : capCreate o' c objectId taskRights with ⟨r, c'⟩
      cases r with
      | error e => exact hmade.ofCap hcap
      | ok cap => exact hmade.ofCap hcap

theorem threadCreate_made (h : TablesWf o c) (hP : ∀ i, P (.thread i)) (tasks : TaskTable)
    (threads : ThreadTable) (task entry arg : UInt64) (stack : Option UInt64) :
    TablesMade P o c (threadCreate o c tasks threads task entry arg stack).2.1
      (threadCreate o c tasks threads task entry arg stack).2.2.1 := by
  unfold threadCreate
  split
  · exact .refl P h
  split
  · exact .refl P h
  cases Slots.firstSlot fun i => (threads i).objectId == 0 with
  | none => exact .refl P h
  | some i =>
    next t _ =>
    dsimp only
    unfold threadCreateSlot
    rcases hc : objectCreate o ObjType.thread (tasks t).ownerCore 0 (.thread i) with ⟨r, o'⟩
    have hmade := (TablesMade.refl P h).ofCreate (hP i) hc
    cases r with
    | error e => exact hmade
    | ok objectId =>
      dsimp only
      split
      · -- The object stays in the table although there is no stack.
        exact hmade
      · rcases hcap : capCreate o' c objectId threadRights with ⟨r, c'⟩
        cases r with
        | error e => exact hmade.ofCap hcap
        | ok cap => exact hmade.ofCap hcap

theorem addressSpaceCreate_made (h : TablesWf o c) (hP : ∀ b, P (.addressSpace b))
    (aspaces : AddressSpaces) (v : Vmm) (storage : Option Nat) (pages : PageSupply) :
    TablesMade P o c (addressSpaceCreate o c aspaces v storage pages).2.1
      (addressSpaceCreate o c aspaces v storage pages).2.2.1 := by
  unfold addressSpaceCreate
  split
  · exact .refl P h
  next b =>
  dsimp only
  rcases vmmCreateRoot v pages with ⟨r, v'⟩
  cases r with
  | error e => exact .refl P h
  | ok rootPhys =>
    dsimp only
    rcases hc : objectCreate o ObjType.addressSpace bootCore 0 (.addressSpace b) with ⟨r, o'⟩
    have hmade := (TablesMade.refl P h).ofCreate (hP b) hc
    cases r with
    | error e => exact hmade
    | ok objectId =>
      dsimp only
      rcases hcap : capCreate o' c objectId spaceRights with ⟨r, c'⟩
      cases r with
      | error e => exact hmade.ofCap hcap
      | ok cap => exact hmade.ofCap hcap

theorem devmgrRegister_made (h : TablesWf o c) (hdevice : ∀ i, P (.device i))
    (hqueue : ∀ i, P (.deviceQueue i)) (d : DevmgrTables) (msg : Message) :
    TablesMade P o c (devmgrRegisterFakeDevice o c d msg).2.1
      (devmgrRegisterFakeDevice o c d msg).2.2.1 := by
  unfold devmgrRegisterFakeDevice
  split
  · exact .refl P h
  split
  · next i q _ _ =>
    rcases hc : objectCreate o ObjType.device bootCore 0 (.device i) with ⟨r, o₁⟩
    have hmade := (TablesMade.refl P h).ofCreate (hdevice i) hc
    cases r with
    | error e => exact hmade
    | ok deviceObject =>
      dsimp only
      rcases hcap : capCreate o₁ c deviceObject deviceRights with ⟨r, c₁⟩
      have hmade₁ := hmade.ofCap hcap
      cases r with
      | error e => exact hmade₁
      | ok deviceCap =>
        dsimp only
        rcases hc₂ : objectCreate o₁ ObjType.deviceQueue bootCore 0 (.deviceQueue q) with ⟨r, o₂⟩
        have hmade₂ := hmade₁.ofCreate (hqueue q) hc₂
        cases r with
        | error e => exact hmade₂
        | ok queueObject =>
          dsimp only
          rcases hcap₂ : capCreate o₂ c₁ queueObject deviceQueueRights with ⟨r, c₂⟩
          cases r with
          | error e => exact hmade₂.ofCap hcap₂
          | ok queueCap => exact hmade₂.ofCap hcap₂
  · exact .refl P h

end made

end Scdk
