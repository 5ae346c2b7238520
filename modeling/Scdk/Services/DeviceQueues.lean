import Scdk.Core.Payloads

/-! # Devices and their queues

    The device manager between the other subsystems, which share the objects and the
    tokens with it: devices are registered, and a queue is bound to an endpoint by the
    holder of its token.

    * `DeviceCall`, `deviceSystem`: the calls that create objects and tokens, and the
      messages that bind a queue,
    * `DevmgrTables.bindings`: the registered queues, by their objects, with their targets,
    * `DeviceInv`: the invariant of the runs; a registered queue has the object that points
      to its slot, and as many slots are in use as devices were registered,
    * `bindQueue_cases`, `register_cases`: what the two functions do,
    * `device_calls_exact`: which call changes which binding, in every run, and that no
      ninth device is registered. -/

namespace Scdk

variable {δ : Type}

/-! ## Runs -/

/-- A call that creates objects or tokens, or a message for `devmgr_bind_queue`. -/
inductive DeviceCall where
  | make (call : MakeCall)
  | bind (msg : Message)

/-- One call. -/
def deviceStep (m : Machine δ) : DeviceCall → Except Err UInt64 × Machine δ
  | .make call => makeStep m call
  | .bind msg =>
    let (r, devmgr) := devmgrBindQueue m.kernel.objects m.kernel.caps m.devmgr msg
    (r.map fun _ => 0, { m with devmgr })

/-- The tables before the first object, with nothing registered. -/
structure DeviceStart (m : Machine δ) : Prop extends MachineStart m where
  devices : ∀ i, (m.devmgr.devices i).present = false
  queues : ∀ q, (m.devmgr.queues q).present = false

/-- The tables, driven by any calls. -/
def deviceSystem (δ : Type) : System (Machine δ) DeviceCall (Except Err UInt64) where
  init := DeviceStart
  step := deviceStep

/-- A registration. -/
def DeviceCall.registers : DeviceCall → Bool
  | .make (.device _) => true
  | _ => false

/-- The number of registrations that succeeded. -/
def registrations (log : List (DeviceCall × Except Err UInt64)) : Nat :=
  (log.filter fun e => e.1.registers && e.2.isOk).length

theorem registrations_concat (log : List (DeviceCall × Except Err UInt64)) (call : DeviceCall)
    (r : Except Err UInt64) :
    registrations (log ++ [(call, r)]) =
      registrations log + if call.registers = true ∧ r.isOk = true then 1 else 0 := by
  unfold registrations
  rw [List.filter_append, List.length_append]
  cases hcall : call.registers with
  | false => simp [hcall]
  | true => cases hr : r.isOk <;> simp [hcall, hr]

/-! ## Bindings -/

/-- The targets of the registered queues, by the objects of the queues. -/
def DevmgrTables.bindings (d : DevmgrTables) (id : UInt64) : Option UInt64 :=
  (Slots.firstSlot fun q => (d.queues q).present && (d.queues q).objectId == id).map
    fun q => (d.queues q).boundTarget

/-- The tables after a queue was bound. -/
def DevmgrTables.bindTo (d : DevmgrTables) (q : Fin devmgrMaxQueues) (target : UInt64) : DevmgrTables :=
  { d with queues := Function.update d.queues q { d.queues q with boundTarget := target } }

/-- The message may bind the queue with the object `id`: it names an endpoint that its
    sender may send to, and the queue by a token with the right to bind it. -/
structure MayBind (m : Machine δ) (msg : Message) (id : UInt64) : Prop where
  queueGiven : msg.arg0 ≠ 0
  targetGiven : msg.arg1 ≠ 0
  target : ∃ entry, capCheck m.kernel.objects m.kernel.caps msg.arg1 Right.send ObjType.endpoint =
    .ok entry
  queue : ∃ entry, capCheck m.kernel.objects m.kernel.caps msg.arg0 Right.bind ObjType.deviceQueue =
    .ok entry ∧ entry.objectId = id
  registered : m.devmgr.bindings id ≠ none

/-- The invariant of the runs. -/
structure DeviceInv (n : Nat) (m : Machine δ) : Prop extends MachineInv m where
  queue : ∀ q, (m.devmgr.queues q).present = true → ∃ ob,
    objectLookup m.kernel.objects (m.devmgr.queues q).objectId = .ok ob ∧ ob.payload = .deviceQueue q
  freeDevices : Slots.count (fun i => !(m.devmgr.devices i).present) + n = devmgrMaxDevices
  freeQueues : Slots.count (fun q => !(m.devmgr.queues q).present) + n = devmgrMaxQueues

section bindings

variable {n : Nat} {m : Machine δ} {d d' : DevmgrTables} {id : UInt64} {q : Fin devmgrMaxQueues}

theorem exists_queue_of_bindings (h : d.bindings id ≠ none) :
    ∃ q, (d.queues q).present = true ∧ (d.queues q).objectId = id := by
  obtain ⟨target, htarget⟩ := Option.ne_none_iff_exists'.mp h
  obtain ⟨q, hq, _⟩ := Option.map_eq_some_iff.mp htarget
  have hfound := (Slots.firstSlot_eq_some hq).1
  simp only [Bool.and_eq_true, beq_iff_eq] at hfound
  exact ⟨q, hfound⟩

/-- The record of one queue is written: a new one, or one that keeps its object. -/
theorem bindings_write (hother : ∀ q', q' ≠ q → d'.queues q' = d.queues q')
    (hpresent : (d'.queues q).present = true)
    (hapart : ∀ q', q' ≠ q → (d.queues q').present = true →
      (d.queues q').objectId ≠ (d'.queues q).objectId)
    (hsame : (d.queues q).present = true → (d.queues q).objectId = (d'.queues q).objectId) :
    d'.bindings = Function.update d.bindings (d'.queues q).objectId (some (d'.queues q).boundTarget) := by
  funext id
  by_cases hid : id = (d'.queues q).objectId
  · have hfirst : (Slots.firstSlot fun q' => (d'.queues q').present && (d'.queues q').objectId == id) =
        some q := by
      apply Slots.firstSlot_of_unique
      · simp [hpresent, hid]
      · intro q' hq'
        simp only [Bool.and_eq_true, beq_iff_eq] at hq'
        by_cases hne : q' = q
        · exact hne
        · rw [hother q' hne] at hq'
          exact absurd (hq'.2.trans hid) (hapart q' hne hq'.1)
    unfold DevmgrTables.bindings
    rw [hfirst, hid, Function.update_self]
    rfl
  · -- The search for another object meets the same slots, and does not stop at this one.
    have hpred : (fun q' => (d'.queues q').present && (d'.queues q').objectId == id) =
        fun q' => (d.queues q').present && (d.queues q').objectId == id := by
      funext q'
      by_cases hne : q' = q
      · subst hne
        cases hold : (d.queues q').present with
        | true => simp [hpresent, hsame hold]
        | false => simp [Ne.symm hid]
      · rw [hother q' hne]
    unfold DevmgrTables.bindings
    rw [Function.update_of_ne hid, hpred]
    cases hfind : Slots.firstSlot fun q' => (d.queues q').present && (d.queues q').objectId == id with
    | none => rfl
    | some q' =>
      have hfound := (Slots.firstSlot_eq_some hfind).1
      simp only [Bool.and_eq_true, beq_iff_eq] at hfound
      have hne : q' ≠ q := by
        rintro rfl
        exact hid (hfound.2.symm.trans (hsame hfound.1))
      simp only [Option.map_some, hother q' hne]

/-- An object belongs to one queue. -/
theorem DeviceInv.unique (h : DeviceInv n m) {q' : Fin devmgrMaxQueues}
    (hq : (m.devmgr.queues q).present = true) (hq' : (m.devmgr.queues q').present = true)
    (hid : (m.devmgr.queues q').objectId = (m.devmgr.queues q).objectId) : q' = q := by
  obtain ⟨ob, hob, hpay⟩ := h.queue q hq
  obtain ⟨ob', hob', hpay'⟩ := h.queue q' hq'
  rw [hid] at hob'
  obtain rfl := Except.ok.inj (hob.symm.trans hob')
  exact (Payload.deviceQueue.inj (hpay.symm.trans hpay')).symm

/-- A token leads to the queue of its object, if that is registered. -/
theorem DeviceInv.queueFromCap (h : DeviceInv n m) {cap req : UInt64} {q : Fin devmgrMaxQueues} :
    devmgrQueueFromCap m.kernel.objects m.kernel.caps m.devmgr cap req = .ok q ↔
      (m.devmgr.queues q).present = true ∧
        ∃ entry, capCheck m.kernel.objects m.kernel.caps cap req ObjType.deviceQueue = .ok entry ∧
          entry.objectId = (m.devmgr.queues q).objectId := by
  unfold devmgrQueueFromCap
  rw [payloadLookup_eq_ok]
  constructor
  · rintro ⟨entry, object, hcheck, _, htest⟩
    cases hpay : object.payload with
    | deviceQueue i =>
      rw [hpay] at htest
      dsimp only at htest
      split at htest
      · cases htest
      · next hok =>
        obtain rfl := Except.ok.inj htest
        rw [not_or, Bool.not_eq_false] at hok
        exact ⟨hok.2, entry, hcheck, (not_not.mp hok.1).symm⟩
    | _ =>
      rw [hpay] at htest
      cases htest
  · rintro ⟨hpresent, entry, hcheck, hid⟩
    obtain ⟨ob, hob, hpay⟩ := h.queue q hpresent
    refine ⟨entry, ob, hcheck, by rw [hid]; exact hob, ?_⟩
    rw [hpay]
    exact if_neg (by simp [hid, hpresent])

end bindings

/-! ## Calls -/

/-- What a call may do, when it has answered `r`. -/
def DeviceCall.Does (m m' : Machine δ) (r : Except Err UInt64) : DeviceCall → Prop
  | .bind msg =>
    (∃ e, r = .error e ∧ m'.devmgr.bindings = m.devmgr.bindings ∧ ∀ id, ¬ MayBind m msg id) ∨
    ∃ id, r = .ok 0 ∧ MayBind m msg id ∧
      m'.devmgr.bindings = Function.update m.devmgr.bindings id (some msg.arg1)
  | .make (.device msg) =>
    (∃ e, r = .error e ∧ m'.devmgr.bindings = m.devmgr.bindings) ∨
    ∃ queueCap id entry, r = .ok queueCap ∧ msg.arg0 = devmgrFakeDeviceId ∧
      (∀ ob, objectLookup m.kernel.objects id ≠ .ok ob) ∧
      m'.devmgr.bindings = Function.update m.devmgr.bindings id (some 0) ∧
      capCheck m'.kernel.objects m'.kernel.caps queueCap deviceQueueRights ObjType.deviceQueue =
        .ok entry ∧ entry.objectId = id
  | .make _ => m'.devmgr.bindings = m.devmgr.bindings

section calls

variable {n : Nat} {m : Machine δ} {id : UInt64}

/-- A token that was just made has its rights to its object. -/
theorem capCheck_capCreate {o : ObjectTable} {c c' : CapTable} (h : TablesWf o c) {object : Object}
    {objectId rights token : UInt64} (hl : objectLookup o objectId = .ok object)
    (hid : object.id = objectId) (hc : capCreate o c objectId rights = (.ok token, c')) :
    ∃ entry, capCheck o c' token rights object.type = .ok entry ∧ entry.objectId = objectId := by
  rcases capCreate_cases o c objectId rights with ⟨e, heq⟩ | ⟨j, ob, hrights, hob, _, heq⟩
  · rw [heq] at hc
    cases hc
  obtain rfl := Except.ok.inj (hl.symm.trans hob)
  rw [heq] at hc
  obtain ⟨htoken, rfl⟩ := Prod.mk.inj hc
  obtain rfl := Except.ok.inj htoken
  have hwf := tablesWf_mintSlot h j hrights hl
  have hocc := CapTable.mintSlot_occupied_self h.objects c j rights hl
  refine ⟨_, (capCheck_eq_ok hwf).mpr ⟨hrights, j, hocc, rfl, rfl, ?_⟩, ?_⟩
  · simp [CapEntry.grants]
  · simp [hid]

/-- **Binding.**  The binding of one queue changes, or nothing. -/
theorem bindQueue_cases (h : DeviceInv n m) (msg : Message) :
    (∃ e, devmgrBindQueue m.kernel.objects m.kernel.caps m.devmgr msg = (.error e, m.devmgr) ∧
      ∀ id, ¬ MayBind m msg id) ∨
    ∃ q, (m.devmgr.queues q).present = true ∧ MayBind m msg (m.devmgr.queues q).objectId ∧
      devmgrBindQueue m.kernel.objects m.kernel.caps m.devmgr msg =
        (.ok (), m.devmgr.bindTo q msg.arg1) := by
  unfold devmgrBindQueue
  by_cases hgiven : msg.arg0 = 0 ∨ msg.arg1 = 0
  · left
    refine ⟨.inval, if_pos hgiven, fun id hmay => ?_⟩
    exact hgiven.elim hmay.queueGiven hmay.targetGiven
  rw [if_neg hgiven]
  rw [not_or] at hgiven
  cases htarget : capCheck m.kernel.objects m.kernel.caps msg.arg1 Right.send ObjType.endpoint with
  | error e =>
    left
    refine ⟨e, rfl, fun id hmay => ?_⟩
    obtain ⟨entry, hentry⟩ := hmay.target
    rw [htarget] at hentry
    cases hentry
  | ok endpoint =>
    dsimp only
    cases hqueue : devmgrQueueFromCap m.kernel.objects m.kernel.caps m.devmgr msg.arg0 Right.bind with
    | error e =>
      left
      refine ⟨e, rfl, fun id hmay => ?_⟩
      -- The token and the registration would have been enough.
      obtain ⟨entry, hentry, rfl⟩ := hmay.queue
      obtain ⟨q, hpresent, hid⟩ := exists_queue_of_bindings hmay.registered
      rw [h.queueFromCap.mpr ⟨hpresent, entry, hentry, hid.symm⟩] at hqueue
      cases hqueue
    | ok q =>
      right
      obtain ⟨hpresent, entry, hentry, hid⟩ := h.queueFromCap.mp hqueue
      refine ⟨q, hpresent, ?_, rfl⟩
      have hregistered : m.devmgr.bindings (m.devmgr.queues q).objectId ≠ none := by
        have hfirst : (Slots.firstSlot fun q' => (m.devmgr.queues q').present &&
            (m.devmgr.queues q').objectId == (m.devmgr.queues q).objectId) = some q := by
          apply Slots.firstSlot_of_unique
          · simp [hpresent]
          · intro q' hq'
            simp only [Bool.and_eq_true, beq_iff_eq] at hq'
            exact h.unique hpresent hq'.1 hq'.2
        unfold DevmgrTables.bindings
        rw [hfirst]
        exact Option.some_ne_none _
      exact
        { queueGiven := hgiven.1
          targetGiven := hgiven.2
          target := ⟨endpoint, htarget⟩
          queue := ⟨entry, hentry, hid⟩
          registered := hregistered }

/-- **Registering.**  A device and a queue with a new object and a token for it, or
    nothing that the device manager would know of. -/
theorem register_cases (h : DeviceInv n m) (msg : Message) :
    (∃ e o c, devmgrRegisterFakeDevice m.kernel.objects m.kernel.caps m.devmgr msg =
      (.error e, o, c, m.devmgr)) ∨
    ∃ i q device queue reply o c, (m.devmgr.devices i).present = false ∧
      (m.devmgr.queues q).present = false ∧ msg.arg0 = devmgrFakeDeviceId ∧
      devmgrRegisterFakeDevice m.kernel.objects m.kernel.caps m.devmgr msg =
        (.ok reply, o, c, ⟨Function.update m.devmgr.devices i device,
          Function.update m.devmgr.queues q queue⟩) ∧
      device.present = true ∧ queue.present = true ∧ queue.boundTarget = 0 ∧
      (∀ ob, objectLookup m.kernel.objects queue.objectId ≠ .ok ob) ∧
      (∃ ob, objectLookup o queue.objectId = .ok ob ∧ ob.payload = .deviceQueue q) ∧
      ∃ entry, capCheck o c reply.arg1 deviceQueueRights ObjType.deviceQueue = .ok entry ∧
        entry.objectId = queue.objectId := by
  unfold devmgrRegisterFakeDevice
  by_cases hid : msg.arg0 ≠ devmgrFakeDeviceId
  · exact .inl ⟨_, _, _, if_pos hid⟩
  rw [if_neg hid]
  rw [not_not] at hid
  cases hdevice : Slots.firstSlot fun i => !(m.devmgr.devices i).present with
  | none => exact .inl ⟨_, _, _, rfl⟩
  | some i =>
    cases hqueue : Slots.firstSlot fun q => !(m.devmgr.queues q).present with
    | none => exact .inl ⟨_, _, _, rfl⟩
    | some q =>
      have hi : (m.devmgr.devices i).present = false := by simpa using (Slots.firstSlot_eq_some hdevice).1
      have hq : (m.devmgr.queues q).present = false := by simpa using (Slots.firstSlot_eq_some hqueue).1
      dsimp only
      rcases hc₁ : objectCreate m.kernel.objects ObjType.device bootCore 0 (.device i) with ⟨r, o₁⟩
      have hmade₁ := (TablesMade.refl (· ≠ .null) h.wf).ofCreate
        (Payload.noConfusion : Payload.device i ≠ .null) hc₁
      cases r with
      | error e => exact .inl ⟨_, _, _, rfl⟩
      | ok deviceObject =>
        dsimp only
        rcases hcap₁ : capCreate o₁ m.kernel.caps deviceObject deviceRights with ⟨r, c₁⟩
        have hmade₂ := hmade₁.ofCap hcap₁
        cases r with
        | error e => exact .inl ⟨_, _, _, rfl⟩
        | ok deviceCap =>
          dsimp only
          rcases hc₂ : objectCreate o₁ ObjType.deviceQueue bootCore 0 (.deviceQueue q) with ⟨r, o₂⟩
          have hmade₃ := hmade₂.ofCreate
            (Payload.noConfusion : Payload.deviceQueue q ≠ .null) hc₂
          cases r with
          | error e => exact .inl ⟨_, _, _, rfl⟩
          | ok queueObject =>
            dsimp only
            rcases hcap₂ : capCreate o₂ c₁ queueObject deviceQueueRights with ⟨r, c₂⟩
            cases r with
            | error e => exact .inl ⟨_, _, _, rfl⟩
            | ok queueCap =>
              right
              obtain ⟨g, hob⟩ := objectLookup_of_objectCreate hmade₂.wf.objects hc₂
              have hnew := objectLookup_fresh hmade₂.wf.objects hc₂
              refine ⟨i, q, _, _, _, _, _, hi, hq, hid, rfl, rfl, rfl, rfl, ?_, ⟨_, hob, rfl⟩, ?_⟩
              · intro ob hold
                exact hnew ob (hmade₂.old hold)
              · exact capCheck_capCreate hmade₃.wf hob rfl hcap₂

/-- The other calls leave the device manager alone. -/
theorem makeStep_devmgr (m : Machine δ) {call : MakeCall} (h : ∀ msg, call ≠ .device msg) :
    (makeStep m call).2.devmgr = m.devmgr := by
  cases call with
  | device msg => exact absurd rfl (h msg)
  | _ => rfl

/-- The objects there were stay, so a registered queue stays with its own. -/
theorem DeviceInv.make (h : DeviceInv n m) {call : MakeCall} (hcall : ∀ msg, call ≠ .device msg) :
    DeviceInv n (makeStep m call).2 := by
  have hkept := makeStep_devmgr m hcall
  obtain ⟨hmade, _⟩ := h.made call
  refine { toMachineInv := h.step call, queue := ?_, freeDevices := ?_, freeQueues := ?_ }
  · intro q hq
    rw [hkept] at hq ⊢
    obtain ⟨ob, hob, hpay⟩ := h.queue q hq
    exact ⟨ob, hmade.old hob, hpay⟩
  · rw [hkept]
    exact h.freeDevices
  · rw [hkept]
    exact h.freeQueues

theorem DeviceInv.register (h : DeviceInv n m) (msg : Message) :
    DeviceInv (if (makeStep m (.device msg)).1.isOk = true then n + 1 else n)
        (makeStep m (.device msg)).2 ∧
      (DeviceCall.make (.device msg)).Does m (makeStep m (.device msg)).2
        (makeStep m (.device msg)).1 := by
  have hmachine := h.step (.device msg)
  obtain ⟨hmade, _⟩ := h.made (.device msg)
  rcases register_cases h msg with ⟨e, o, c, hfail⟩ |
    ⟨i, q, device, queue, reply, o, c, hi, hq, hid, hdone, hdevice, hpresent, htarget, hnew, hob, hcap⟩
  · simp only [makeStep, hfail] at hmachine hmade ⊢
    have hqueue : ∀ q, (m.devmgr.queues q).present = true → ∃ ob,
        objectLookup o (m.devmgr.queues q).objectId = .ok ob ∧ ob.payload = .deviceQueue q := by
      intro q hq
      obtain ⟨ob, hob, hpay⟩ := h.queue q hq
      exact ⟨ob, hmade.old hob, hpay⟩
    exact ⟨⟨hmachine, hqueue, h.freeDevices, h.freeQueues⟩, .inl ⟨e, rfl, rfl⟩⟩
  · simp only [makeStep, hdone] at hmachine hmade ⊢
    have hqueue : ∀ q', (Function.update m.devmgr.queues q queue q').present = true → ∃ ob,
        objectLookup o (Function.update m.devmgr.queues q queue q').objectId = .ok ob ∧
          ob.payload = .deviceQueue q' := by
      intro q' hq'
      by_cases hne : q' = q
      · subst hne
        rw [Function.update_self]
        exact hob
      · rw [Function.update_of_ne hne] at hq' ⊢
        obtain ⟨ob, hob, hpay⟩ := h.queue q' hq'
        exact ⟨ob, hmade.old hob, hpay⟩
    -- one slot less in each of the two tables
    have hdevices := @Slots.count_take _ (fun i' => !(m.devmgr.devices i').present)
      (fun i' => !(Function.update m.devmgr.devices i device i').present) i (by simp [hi])
      (by simp [hdevice]) (by intro j hj; simp [hj])
    have hqueues := @Slots.count_take _ (fun q' => !(m.devmgr.queues q').present)
      (fun q' => !(Function.update m.devmgr.queues q queue q').present) q (by simp [hq])
      (by simp [hpresent]) (by intro j hj; simp [hj])
    have hfreeDevices := h.freeDevices
    have hfreeQueues := h.freeQueues
    have hbindings := @bindings_write m.devmgr ⟨Function.update m.devmgr.devices i device,
      Function.update m.devmgr.queues q queue⟩ q (by intro q' hne; simp [hne]) (by simp [hpresent])
    refine ⟨⟨hmachine, hqueue, ?_, ?_⟩, ?_⟩
    · simp only [Except.map, Except.isOk, Except.toBool, if_true]
      omega
    · simp only [Except.map, Except.isOk, Except.toBool, if_true]
      omega
    · obtain ⟨entry, hentry, hname⟩ := hcap
      refine .inr ⟨reply.arg1, queue.objectId, entry, rfl, hid, hnew, ?_, hentry, hname⟩
      simp only [Function.update_self, htarget] at hbindings
      apply hbindings
      · intro q' _ hq' heq
        obtain ⟨ob, hob, _⟩ := h.queue q' hq'
        rw [heq] at hob
        exact hnew ob hob
      · intro hq'
        rw [hq] at hq'
        cases hq'

theorem DeviceInv.bind (h : DeviceInv n m) (msg : Message) :
    DeviceInv n (deviceStep m (.bind msg)).2 ∧
      (DeviceCall.bind msg).Does m (deviceStep m (.bind msg)).2 (deviceStep m (.bind msg)).1 := by
  rcases bindQueue_cases h msg with ⟨e, hfail, hnot⟩ | ⟨q, hpresent, hmay, hdone⟩
  · simp only [deviceStep, hfail]
    exact ⟨h, .inl ⟨e, rfl, rfl, hnot⟩⟩
  · simp only [deviceStep, hdone]
    have hsame : ∀ q',
        ((m.devmgr.bindTo q msg.arg1).queues q').present = (m.devmgr.queues q').present ∧
        ((m.devmgr.bindTo q msg.arg1).queues q').objectId = (m.devmgr.queues q').objectId := by
      intro q'
      by_cases hne : q' = q
      · subst hne
        simp [DevmgrTables.bindTo]
      · simp [DevmgrTables.bindTo, hne]
    have hbindings : (m.devmgr.bindTo q msg.arg1).bindings =
        Function.update m.devmgr.bindings (m.devmgr.queues q).objectId (some msg.arg1) := by
      have htarget : ((m.devmgr.bindTo q msg.arg1).queues q).boundTarget = msg.arg1 := by
        simp [DevmgrTables.bindTo]
      have hwrite : (m.devmgr.bindTo q msg.arg1).bindings = Function.update m.devmgr.bindings
          ((m.devmgr.bindTo q msg.arg1).queues q).objectId
          (some ((m.devmgr.bindTo q msg.arg1).queues q).boundTarget) := by
        apply bindings_write
        · intro q' hne
          simp [DevmgrTables.bindTo, hne]
        · exact (hsame q).1.trans hpresent
        · intro q' hne hq' heq
          exact hne (h.unique hpresent hq' (heq.trans (hsame q).2))
        · exact fun _ => ((hsame q).2).symm
      rw [hwrite, htarget, (hsame q).2]
    refine ⟨⟨⟨h.wf, h.typed, h.counted⟩, ?_, h.freeDevices, ?_⟩, .inr ⟨_, rfl, hmay, hbindings⟩⟩
    · intro q' hq'
      simp only [(hsame q').1, (hsame q').2] at hq' ⊢
      exact h.queue q' hq'
    · simp only [fun q' => (hsame q').1]
      exact h.freeQueues

/-- The calls that are not for the device manager. -/
theorem DeviceCall.make_other {call : MakeCall} (h : ∀ msg, call ≠ .device msg) :
    (DeviceCall.make call).registers = false ∧ ∀ (m m' : Machine δ) (r : Except Err UInt64),
      (DeviceCall.make call).Does m m' r ↔ m'.devmgr.bindings = m.devmgr.bindings := by
  cases call with
  | device msg => exact absurd rfl (h msg)
  | _ => exact ⟨rfl, fun _ _ _ => Iff.rfl⟩

/-- **One call.** -/
theorem DeviceInv.step (h : DeviceInv n m) (call : DeviceCall) :
    DeviceInv (n + if call.registers = true ∧ (deviceStep m call).1.isOk = true then 1 else 0)
        (deviceStep m call).2 ∧
      call.Does m (deviceStep m call).2 (deviceStep m call).1 := by
  cases call with
  | bind msg => exact h.bind msg
  | make call =>
    by_cases hdevice : ∃ msg, call = .device msg
    · obtain ⟨msg, rfl⟩ := hdevice
      obtain ⟨hinv, hdoes⟩ := h.register msg
      refine ⟨?_, hdoes⟩
      by_cases hok : (makeStep m (.device msg)).1.isOk = true
      · simpa [DeviceCall.registers, deviceStep, hok] using hinv
      · simpa [DeviceCall.registers, deviceStep, hok] using hinv
    · have hcall : ∀ msg, call ≠ .device msg := fun msg heq => hdevice ⟨msg, heq⟩
      obtain ⟨hnot, hdoes⟩ := DeviceCall.make_other (δ := δ) hcall
      refine ⟨?_, (hdoes _ _ _).mpr ?_⟩
      · simpa [hnot, deviceStep] using h.make hcall
      · simp only [deviceStep, makeStep_devmgr m hcall]

theorem DeviceStart.inv (h : DeviceStart m) : DeviceInv 0 m where
  toMachineInv := h.toMachineStart.inv
  queue := by
    intro q hq
    rw [h.queues q] at hq
    cases hq
  freeDevices := by
    have hall : ∀ i, (!(m.devmgr.devices i).present) = true := by
      intro i
      rw [h.devices i]
      rfl
    rw [Slots.count_all hall]
  freeQueues := by
    have hall : ∀ q, (!(m.devmgr.queues q).present) = true := by
      intro q
      rw [h.queues q]
      rfl
    rw [Slots.count_all hall]

end calls

theorem deviceInv_of_run {log : List (DeviceCall × Except Err UInt64)} {m : Machine δ}
    (hrun : (deviceSystem δ).Run log m) : DeviceInv (registrations log) m := by
  induction hrun with
  | init h => exact h.inv
  | step call _ _ ih =>
    rw [registrations_concat]
    exact (ih.step call).1

/-- **The device manager keeps its queues apart.**  After any calls, a call changes the
    binding of one registered queue, and only if its sender may bind that one; a new queue
    starts without a target, under an object that there was not before; and nothing else
    changes a binding.  No more than eight devices are ever registered. -/
theorem device_calls_exact {log : List (DeviceCall × Except Err UInt64)} {m : Machine δ}
    (hrun : (deviceSystem δ).Run log m) :
    registrations log ≤ devmgrMaxDevices ∧
      ∀ call : DeviceCall, call.Does m (deviceStep m call).2 (deviceStep m call).1 := by
  have hinv := deviceInv_of_run hrun
  have hfree := hinv.freeDevices
  exact ⟨by omega, fun call => (hinv.step call).2⟩

/-- An endpoint, which gets the first token of slot 0, and a device with its queue, which
    get those of slots 1 and 2. -/
def makeDevice : List DeviceCall :=
  [.make (.endpoint bootCore .console), .make (.device ⟨0, 0, 0, devmgrFakeDeviceId, 0, 0, 0, 0⟩)]

def afterDevice : Machine Unit := (deviceSystem Unit).exec Machine.zero makeDevice

/-- The queue to the endpoint. -/
def bindMessage : Message := ⟨0, 0, 0, firstToken 2, firstToken 0, 0, 0, 0⟩

/-- A queue is bound. -/
theorem device_calls_exact_bound :
    ∃ id, (deviceStep afterDevice (.bind bindMessage)).2.devmgr.bindings =
      Function.update afterDevice.devmgr.bindings id (some (firstToken 0)) := by
  have hstart : (deviceSystem Unit).init Machine.zero :=
    ⟨⟨rfl, rfl, fun _ => rfl⟩, fun _ => rfl, fun _ => rfl⟩
  obtain ⟨log, hrun⟩ : ∃ log, (deviceSystem Unit).Run log afterDevice :=
    (System.Run.init hstart).exec makeDevice
  have hok : (deviceStep afterDevice (.bind bindMessage)).1 = .ok 0 := by decide +kernel
  rcases (device_calls_exact hrun).2 (.bind bindMessage) with ⟨e, herr, _⟩ | ⟨id, _, _, hbindings⟩
  · rw [hok] at herr
    cases herr
  · exact ⟨id, hbindings⟩

end Scdk
