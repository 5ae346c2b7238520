import Scdk.Core.GrantIsolation
import Scdk.Core.Lasting
import Scdk.Core.RingRefinement
import Scdk.Ipc.CallRun
import Scdk.Services.HandlerFrame

/-! # Rings of different tasks

    The rings of user tasks under any interleaving of the system calls that
    create, bind, fill and empty them, with grant calls and with messages to the
    console, the VFS and the session service.

    * `RingsStep`: steps that touch no ring, or only the one that a token names,
    * `OwnStep`: what a system call of a task does to the rings,
    * `RingsOwned`: every user ring names a ring slot, and no other one does,
    * `ring_isolation`: a ring changes in system calls of its task only. -/

namespace Scdk

variable {δ : Type}

/-! ## Rings that stay -/

/-- The token `r` names the ring of slot `j`. -/
def Kernel.Names (k : Kernel δ) (r : UInt64) (j : Fin maxRings) : Prop :=
  NamesRing k.objects k.caps k.rings r j

/-- The tokens of all but grants stay, and so do the services. -/
structure Stays (k k' : Kernel δ) : Prop where
  tokens : TablesWf k.objects k.caps → TokensKept k.objects k.caps k'.objects k'.caps
  endpoints : k'.endpoints = k.endpoints
  services : k'.services = k.services
  root : k'.rootTmpfsEndpoint = k.rootTmpfsEndpoint

instance : IsPreorder (Kernel δ) Stays where
  refl := fun _ => ⟨fun h => .refl h, rfl, rfl, rfl⟩
  trans := fun _ _ _ h h' =>
    ⟨fun hwf => (h.tokens hwf).trans (h'.tokens (h.tokens hwf).wf),
      h'.endpoints.trans h.endpoints, h'.services.trans h.services, h'.root.trans h.root⟩

section stays

variable {k k' : Kernel δ}

theorem Lasting.stays (h : Lasting k k') : Stays k k' :=
  ⟨h.tokens, h.endpoints, h.services, h.root⟩

theorem Quiet.stays (h : Quiet k k') : Stays k k' := by
  refine ⟨?_, h.endpoints, h.services, h.root⟩
  rw [h.objects, h.caps]
  exact fun hwf => .refl hwf

/-- A ring that keeps its object is named by the same token. -/
theorem Kernel.Names.kept {r : UInt64} {j : Fin maxRings} (h : k.Names r j)
    (hwf : TablesWf k.objects k.caps) (hstays : Stays k k')
    (hid : (k'.rings j).objectId = (k.rings j).objectId) : k'.Names r j := by
  have hkept := hstays.tokens hwf
  obtain ⟨entry, hlook, hentry, htype, hrights⟩ := h.lookup
  obtain ⟨object, hobject, hpayload⟩ := h.object
  have hgrant : entry.objectType ≠ ObjType.grant := by
    rw [htype]
    decide
  exact
    { lookup := ⟨entry, hkept.capLookup hwf hlook hgrant, hentry.trans hid.symm, htype, hrights⟩
      object := by
        rw [hid]
        exact ⟨object, hkept.objects hobject, hpayload⟩
      objectId := by
        rw [hid]
        exact h.objectId }

end stays

/-! ## Steps on one ring -/

/-- The steps that change no ring but those of `own`, which the token `r` names. -/
structure RingsStep (r : UInt64) (own : Fin maxRings → Prop) (k k' : Kernel δ) : Prop where
  stays : Stays k k'
  userRings : k'.userRings = k.userRings
  ids : ∀ j, (k'.rings j).objectId = (k.rings j).objectId
  rings : TablesWf k.objects k.caps → (∀ j, own j → k.Names r j) →
    ∀ j, ¬ own j → k'.rings j = k.rings j

section steps

variable {r : UInt64} {own : Fin maxRings → Prop}

instance : IsPreorder (Kernel δ) (RingsStep r own) where
  refl := fun k => ⟨refl k, rfl, fun _ => rfl, fun _ _ _ _ => rfl⟩
  trans := by
    intro k k' k'' h h'
    refine ⟨IsTrans.trans _ _ _ h.stays h'.stays, h'.userRings.trans h.userRings,
      fun j => (h'.ids j).trans (h.ids j), ?_⟩
    intro hwf hnames j hj
    have hnames' : ∀ j, own j → k'.Names r j :=
      fun j hj => (hnames j hj).kept hwf h.stays (h.ids j)
    rw [h'.rings (h.stays.tokens hwf).wf hnames' j hj]
    exact h.rings hwf hnames j hj

/-- Steps that leave the rings alone. -/
theorem Stays.ringsStep {k k' : Kernel δ} (h : Stays k k')
    (heq : (k'.rings, k'.userRings) = (k.rings, k.userRings)) : RingsStep r own k k' := by
  obtain ⟨hrings, huser⟩ := Prod.mk.inj heq
  refine ⟨h, huser, fun j => ?_, fun _ _ j _ => ?_⟩
  · rw [hrings]
  · rw [hrings]

theorem Quiet.ringsStep {k k' : Kernel δ} (h : Quiet k k') : RingsStep r own k k' := by
  apply h.stays.ringsStep
  rw [h.rings, h.userRings]

/-- Steps outside of all the tables. -/
theorem RingsStep.of_eq {k k' : Kernel δ} (h : (k'.objects, k'.caps, k'.endpoints, k'.services,
    k'.rootTmpfsEndpoint, k'.rings, k'.userRings) = (k.objects, k.caps, k.endpoints, k.services,
    k.rootTmpfsEndpoint, k.rings, k.userRings)) : RingsStep r own k k' := by
  simp only [Prod.mk.injEq] at h
  obtain ⟨hobjects, hcaps, hendpoints, hservices, hroot, hrings, huser⟩ := h
  refine Stays.ringsStep ⟨?_, hendpoints, hservices, hroot⟩ ?_
  · rw [hobjects, hcaps]
    exact fun hwf => .refl hwf
  · rw [hrings, huser]

/-- The steps of the handlers. -/
theorem steps_ringsStep (p : Platform δ) : Steps p (RingsStep r own) where
  msg := fun _ _ => .of_eq rfl
  frames := fun _ _ => .of_eq rfl
  trace := fun _ _ => .of_eq rfl
  files := fun _ _ => .of_eq rfl
  object := fun i k => (lasting_objectCreate (.file i) bootCore 0 k).stays.ringsStep rfl
  cap := fun objectId k => (lasting_capCreate objectId Right.read k).stays.ringsStep rfl
  consoleWrite := fun _ _ => .of_eq rfl
  consoleClear := fun _ => .of_eq rfl
  consoleGetInfo := fun _ => .of_eq rfl
  consoleScroll := fun _ _ => .of_eq rfl
  keyboardPoll := fun _ => .of_eq rfl

/-! ### The ring of a token -/

/-- What an operation on the token `r` does to the rings: nothing, or it replaces
    the ring that it looks up. -/
def OnRing (k : Kernel δ) (r : UInt64) (rings : RingTable) : Prop :=
  rings = k.rings ∨ ∃ i right ring, ringLookup k.objects k.caps k.rings r right = .ok i ∧
    rings = k.rings.setRing i ring

variable {j : Fin maxRings}

theorem OnRing.ringsStep {k : Kernel δ} {rings : RingTable} (h : OnRing k r rings) :
    RingsStep r (· = j) k { k with rings := rings } := by
  refine ⟨⟨fun hwf => .refl hwf, rfl, rfl, rfl⟩, rfl, ?_, ?_⟩
  · intro i
    rcases h with rfl | ⟨i', _, ring, _, rfl⟩
    · rfl
    · exact RingTable.setRing_objectId _ _ _ _
  · intro _ hnames i hi
    rcases h with rfl | ⟨i', _, ring, hlook, rfl⟩
    · rfl
    · obtain rfl := ringLookup_unique hlook (hnames j rfl).read
      exact RingTable.setRing_ne _ _ _ hi

theorem onRing_bindTarget (k : Kernel δ) (r target : UInt64) :
    OnRing k r (ringBindTarget k.objects k.caps k.rings r target).2 := by
  unfold ringBindTarget
  split
  · exact .inl rfl
  split
  · exact .inl rfl
  split
  · exact .inl rfl
  · next i hlook => exact .inr ⟨i, _, _, hlook, rfl⟩

theorem onRing_submit (k : Kernel δ) (r : UInt64) (desc : RingDesc) :
    OnRing k r (ringSubmit k.objects k.caps k.rings r desc).2 := by
  unfold ringSubmit
  split
  · exact .inl rfl
  · next i hlook =>
    dsimp only
    split
    · exact .inl rfl
    · exact .inr ⟨i, _, _, hlook, rfl⟩

theorem onRing_consume (k : Kernel δ) (r : UInt64) :
    OnRing k r (ringConsume k.objects k.caps k.rings r).2 := by
  unfold ringConsume
  split
  · exact .inl rfl
  · next i hlook =>
    dsimp only
    split
    · exact .inl rfl
    · exact .inr ⟨i, _, _, hlook, rfl⟩

theorem onRing_complete (k : Kernel δ) (r : UInt64) (completion : Completion) :
    OnRing k r (ringComplete k.objects k.caps k.rings r completion).2 := by
  unfold ringComplete
  split
  · exact .inl rfl
  · next i hlook =>
    dsimp only
    split
    · exact .inl rfl
    · exact .inr ⟨i, _, _, hlook, rfl⟩

theorem onRing_poll (k : Kernel δ) (r : UInt64) :
    OnRing k r (ringPoll k.objects k.caps k.rings r).2 := by
  unfold ringPoll
  split
  · exact .inl rfl
  · next i hlook =>
    dsimp only
    split
    · exact .inl rfl
    · exact .inr ⟨i, _, _, hlook, rfl⟩

/-- The console on the ring of a message. -/
theorem ringSteps_ringsStep : RingSteps (δ := δ) (RingsStep r (· = j)) r where
  consume := fun k => (onRing_consume k r).ringsStep
  complete := fun completion k => (onRing_complete k r completion).ringsStep

/-! ### Submissions -/

theorem ringsStep_userCopyFrom (ptr size : UInt64) :
    Effect.Within (RingsStep r own) (K.userCopyFrom ptr size : K δ (List UInt8)) := by
  intro k
  rcases K.userCopyFrom_run k ptr size with ⟨e, hrun⟩ | ⟨_, _, hrun⟩
  · rw [hrun]
    exact refl k
  · rw [hrun]
    exact .of_eq rfl

theorem ringsStep_submitLoop (n : Nat) :
    ∀ ptr, Effect.Within (RingsStep r (· = j)) (submitLoop r n ptr : K δ Unit) := by
  induction n with
  | zero =>
    intro ptr
    exact Effect.within_pure ()
  | succ n ih =>
    intro ptr
    refine .bind (ringsStep_userCopyFrom _ _) fun bytes => ?_
    refine .bind (fun k => (onRing_submit k r (RingDesc.ofBytes bytes)).ringsStep) fun _ => ?_
    exact ih _

theorem ringsStep_userRingTarget (task ring ptr : UInt64) (count : UInt32) :
    Effect.Within (RingsStep r own) (userRingTarget task ring ptr count : K δ UInt64) := by
  intro k
  rcases userRingTarget_run task ring ptr count k with ⟨e, hrun⟩ | ⟨_, _, _, _, _, hrun⟩
  · rw [hrun]
    exact refl k
  · rw [hrun]
    exact refl k

/-- A submission touches no ring but its own: the endpoint that it is bound to is
    told to process this one. -/
theorem ringsStep_userRingSubmit (p : Platform δ) (task ptr : UInt64) (count : UInt32) :
    Effect.Within (RingsStep r (· = j)) (userRingSubmit p task r ptr count) := by
  refine .bind (ringsStep_userRingTarget _ _ _ _) fun target => ?_
  refine .bind (fun k => (quiet_userValidateRange _ _ _ k).ringsStep) fun _ => ?_
  refine .bind (ringsStep_submitLoop _ _) fun _ => ?_
  intro k
  rw [Effect.bind_of_ok (show K.setMsg _ k = (.ok (), _) from rfl)]
  have hmsg : RingsStep r (· = j) k { k with msg := processMessage task r count } := .of_eq rfl
  refine IsTrans.trans _ _ _ hmsg (endpointCall_steps (steps_ringsStep p) target _ ?_ ?_)
  · have hout : ¬ (Msg.ringProcess = Msg.processSpawn) ∧ ¬ (Msg.ringProcess = Msg.deviceRegister ∨
        Msg.ringProcess = Msg.deviceQueueBind) ∧ ¬ (Msg.ringProcess = Msg.read) := by decide
    exact
      { spawn := fun h => absurd h hout.1
        devmgr := fun h => absurd h hout.2.1
        grantTest := fun h => absurd h hout.2.2 }
  · exact fun _ => ringSteps_ringsStep

theorem ringsStep_pollLoop (n : Nat) :
    ∀ ptr, Effect.Within (RingsStep r (· = j)) (pollLoop r n ptr : K δ UInt32) := by
  induction n with
  | zero =>
    intro ptr
    exact Effect.within_pure 0
  | succ n ih =>
    intro ptr
    refine .bind (Effect.Within.attempt fun k => (onRing_poll k r).ringsStep) fun result => ?_
    cases result with
    | error e => exact .ite (Effect.within_pure 0) (Effect.within_fail e)
    | ok completion =>
      refine .bind (fun k => (quiet_userCopyTo _ _ k).ringsStep) fun _ => ?_
      refine .bind (fun _ => .of_eq rfl) fun _ => ?_
      refine .bind (ih _) fun _ => ?_
      exact Effect.within_pure _

theorem ringsStep_userRingPoll (task ptr : UInt64) (count : UInt32) :
    Effect.Within (RingsStep r (· = j)) (userRingPoll task r ptr count : K δ UInt32) := by
  refine .bind (ringsStep_userRingTarget _ _ _ _) fun _ => ?_
  refine .bind (fun k => (quiet_userValidateRange _ _ _ k).ringsStep) fun _ => ?_
  exact ringsStep_pollLoop _ _

end steps

/-! ## Messages to the services -/

/-- A registered service has the endpoint of its handler. -/
def Serves (k : Kernel δ) (serviceId : UInt64) (handler : Handler) : Prop :=
  ∀ endpoint, serviceLookup k.services serviceId = .ok endpoint →
    ∃ id, endpointTarget k.objects k.caps k.endpoints endpoint = .ok (id, handler)

/-- The services have been started, as far as they are there. -/
structure ServicesStarted (k : Kernel δ) : Prop where
  console : Serves k Service.console .console
  vfs : Serves k Service.vfs .vfs
  session : Serves k Service.session .session
  root : k.rootTmpfsEndpoint ≠ 0 →
    ∃ id, endpointTarget k.objects k.caps k.endpoints k.rootTmpfsEndpoint = .ok (id, .tmpfs)

/-- The token of the call is that of the service, or its message names it. -/
def TalksTo (k : Kernel δ) (c : Syscall) (serviceId : UInt64) : Prop :=
  serviceLookup k.services serviceId = .ok c.arg0 ∨ (messageAt k c.arg1).target = serviceId

/-- The call is for the console, the VFS or the session service. -/
def ToServices (k : Kernel δ) (c : Syscall) : Prop :=
  TalksTo k c Service.console ∨ TalksTo k c Service.vfs ∨ TalksTo k c Service.session

section services

variable {k k' : Kernel δ} {c : Syscall}

theorem Serves.stays {serviceId : UInt64} {handler : Handler} (h : Serves k serviceId handler)
    (hwf : TablesWf k.objects k.caps) (hstays : Stays k k') : Serves k' serviceId handler := by
  intro endpoint hlook
  rw [hstays.services] at hlook
  obtain ⟨id, htarget⟩ := h endpoint hlook
  rw [hstays.endpoints]
  exact ⟨id, (hstays.tokens hwf).endpointTarget hwf htarget⟩

theorem ServicesStarted.stays (h : ServicesStarted k) (hwf : TablesWf k.objects k.caps)
    (hstays : Stays k k') : ServicesStarted k' where
  console := h.console.stays hwf hstays
  vfs := h.vfs.stays hwf hstays
  session := h.session.stays hwf hstays
  root := by
    rw [hstays.root, hstays.endpoints]
    intro hroot
    obtain ⟨id, htarget⟩ := h.root hroot
    exact ⟨id, (hstays.tokens hwf).endpointTarget hwf htarget⟩

/-- The endpoint of an accepted call is that of the service it is for. -/
theorem TalksTo.serviceLookup {serviceId : UInt64} (h : TalksTo k c serviceId)
    (htarget : validateUserMessageTarget (k.withMessage c.arg1) c.arg0 = .ok ()) :
    serviceLookup k.services serviceId = .ok c.arg0 := by
  rcases h with h | h
  · exact h
  · have htarget' : (k.withMessage c.arg1).msg.target = serviceId := h
    unfold validateUserMessageTarget at htarget
    rw [htarget'] at htarget
    split at htarget
    · cases htarget
    · have hservices : (k.withMessage c.arg1).services = k.services := rfl
      rw [hservices] at htarget
      cases hlook : Scdk.serviceLookup k.services serviceId with
      | error e =>
        rw [hlook] at htarget
        cases htarget
      | ok endpoint =>
        rw [hlook] at htarget
        dsimp only at htarget
        by_cases heq : endpoint = c.arg0
        · rw [heq]
        · rw [if_pos heq] at htarget
          cases htarget

/-- The handlers that a call for the services runs. -/
theorem ToServices.handler (h : ToServices k c) (hserv : ServicesStarted k)
    (htarget : validateUserMessageTarget (k.withMessage c.arg1) c.arg0 = .ok ()) {id : UInt64}
    {handler : Handler}
    (hrun : endpointTarget k.objects k.caps k.endpoints c.arg0 = .ok (id, handler)) :
    handler = .console ∨ handler = .vfs ∨ handler = .session := by
  have hsame : ∀ {handler' : Handler}, (∃ id', endpointTarget k.objects k.caps k.endpoints c.arg0 =
      .ok (id', handler')) → handler = handler' := by
    intro handler' ⟨id', h'⟩
    exact (Prod.mk.inj (Except.ok.inj (hrun.symm.trans h'))).2
  rcases h with h | h | h
  · exact .inl (hsame (hserv.console _ (h.serviceLookup htarget)))
  · exact .inr (.inl (hsame (hserv.vfs _ (h.serviceLookup htarget))))
  · exact .inr (.inr (hsame (hserv.session _ (h.serviceLookup htarget))))

/-- A message to one of the services touches no ring, whatever it says. -/
theorem sysEndpointCall_ringsStep (p : Platform δ) (h : ToServices k c) (hserv : ServicesStarted k)
    (r : UInt64) (own : Fin maxRings → Prop) :
    RingsStep r own k (sysEndpointCall p c.arg0 c.arg1 c.buffer k).2 := by
  rcases sysEndpointCall_run p c.arg0 c.arg1 c.buffer k with hq | ⟨k', events, hprep, hq⟩
  · exact hq.ringsStep
  have hacc := hprep.accepted
  have hstart : RingsStep r own k (k.withMessage c.arg1) := .of_eq rfl
  have hsteps : Steps p (RingsStep r own) := steps_ringsStep p
  -- The handler is that of a service, or the tmpfs behind the VFS.
  have hcall : RingsStep r own k' (endpointCall p c.arg0 k').2 := by
    apply endpointCall_frame hsteps.msg
    intro e id handler forward target he htarget hvfs
    rw [hacc.quiet.objects, hacc.quiet.caps, hacc.quiet.endpoints] at htarget
    rw [hacc.quiet.root] at he
    rcases he with rfl | rfl
    · rcases h.handler hserv hprep.target htarget with rfl | rfl | rfl
      · -- the switch accepts no message about a ring
        apply hsteps.consoleEndpointHandler
        intro htype
        obtain ⟨arg0, hmsg⟩ := hacc.msg
        have htype' : (k.withMessage c.arg1).msg.type = Msg.ringProcess := by
          have hsame : (k'.toTarget target).msg.type = k'.msg.type := rfl
          rw [← htype, hsame, hmsg]
        exfalso
        rcases hacc.type with (h | h | h | h | h) | h | (h | h | h | h | h | h | h | h)
        all_goals
          rw [htype'] at h
          exact absurd h (by decide)
      · exact absurd rfl hvfs
      · exact hsteps.sessionEndpointHandler _
    · have hroot : k.rootTmpfsEndpoint ≠ 0 := by
        intro hzero
        have htarget' : endpointTarget k.objects k.caps k.endpoints k.rootTmpfsEndpoint =
          .ok (id, handler) := htarget
        rw [hzero] at htarget'
        cases htarget'
      obtain ⟨id', htmpfs⟩ := hserv.root hroot
      obtain ⟨_, rfl⟩ := Prod.mk.inj (Except.ok.inj (htarget.symm.trans htmpfs))
      exact hsteps.tmpfsEndpointHandler _
  exact IsTrans.trans _ _ _ hstart (IsTrans.trans _ _ _ hacc.quiet.ringsStep
    (IsTrans.trans _ _ _ hcall hq.ringsStep))

end services

/-! ## Steps of one task -/

/-- The record is still that of the same ring. -/
structure UserRingSlot.SameRing (u u' : UserRingSlot) : Prop where
  inUse : u'.inUse = u.inUse
  sourceTask : u'.sourceTask = u.sourceTask
  ringCap : u'.ringCap = u.ringCap

theorem UserRingSlot.SameRing.refl (u : UserRingSlot) : u.SameRing u := ⟨rfl, rfl, rfl⟩

/-- User ring `s` is in use. -/
def Kernel.RingInUse (k : Kernel δ) (s : Fin maxUserRings) : Prop := (k.userRings s).inUse = true

/-- User ring `s` is in use, and belongs to `task`. -/
def Kernel.RingOf (k : Kernel δ) (task : UInt64) (s : Fin maxUserRings) : Prop :=
  k.RingInUse s ∧ (k.userRings s).sourceTask = task

/-- What a system call of `task` does to the rings; `creates` says whether it may
    create one. -/
structure OwnStep (task : UInt64) (creates : Prop) (k k' : Kernel δ) : Prop where
  stays : Stays k k'
  ids : ∀ j, (k.rings j).objectId ≠ 0 → (k'.rings j).objectId = (k.rings j).objectId
  records : ∀ s, k.RingInUse s → (k.userRings s).SameRing (k'.userRings s)
  others : ∀ s, k.RingInUse s → ¬ k.RingOf task s → k'.userRings s = k.userRings s
  rings : ∀ j, (k.rings j).objectId ≠ 0 →
    (∀ s, k.RingOf task s → ¬ k.Names (k.userRings s).ringCap j) → k'.rings j = k.rings j
  created : ∀ s, ¬ k.RingInUse s → k'.RingInUse s →
    creates ∧ k'.RingOf task s ∧ ∃ j, (k.rings j).objectId = 0 ∧ k'.Names (k'.userRings s).ringCap j
  once : ∀ s s', ¬ k.RingInUse s → ¬ k.RingInUse s' → k'.RingInUse s → k'.RingInUse s' → s = s'

/-- The user rings: each has a ring slot of its own. -/
structure RingsOwned (k : Kernel δ) : Prop where
  wf : TablesWf k.objects k.caps
  services : ServicesStarted k
  names : ∀ s, k.RingInUse s → ∃ j, k.Names (k.userRings s).ringCap j
  alone : ∀ s s' j, k.RingInUse s → k.RingInUse s' → k.Names (k.userRings s).ringCap j →
    k.Names (k.userRings s').ringCap j → s = s'

section own

variable {task : UInt64} {creates : Prop} {k k' k'' : Kernel δ} {r : UInt64}
  {own : Fin maxRings → Prop}

/-- A user ring in use names the same slot after the step. -/
theorem OwnStep.names (h : OwnStep task creates k k') (hown : RingsOwned k) {s : Fin maxUserRings}
    (hs : k.RingInUse s) : ∃ j, k.Names (k.userRings s).ringCap j ∧
      k'.Names (k'.userRings s).ringCap j := by
  obtain ⟨j, hj⟩ := hown.names s hs
  rw [(h.records s hs).ringCap]
  exact ⟨j, hj, hj.kept hown.wf h.stays (h.ids j hj.objectId)⟩

/-- Every system call keeps the invariant. -/
theorem RingsOwned.step (h : RingsOwned k) (hstep : OwnStep task creates k k') : RingsOwned k' := by
  refine ⟨(hstep.stays.tokens h.wf).wf, h.services.stays h.wf hstep.stays, ?_, ?_⟩
  · intro s hs
    by_cases hold : k.RingInUse s
    · obtain ⟨j, _, hj⟩ := hstep.names h hold
      exact ⟨j, hj⟩
    · obtain ⟨_, _, j, _, hj⟩ := hstep.created s hold hs
      exact ⟨j, hj⟩
  · intro s s' j hs hs' hj hj'
    -- a new ring takes a slot that no other ring has
    have hfresh : ∀ {s s'}, ¬ k.RingInUse s → k'.RingInUse s → k.RingInUse s' →
        k'.Names (k'.userRings s).ringCap j → ¬ k'.Names (k'.userRings s').ringCap j := by
      intro s s' hnew hs hold hj hj'
      obtain ⟨_, _, j₀, hzero, hj₀⟩ := hstep.created s hnew hs
      obtain ⟨j₁, hj₁, hj₁'⟩ := hstep.names h hold
      obtain rfl := hj.unique hj₀
      obtain rfl := hj'.unique hj₁'
      exact hj₁.objectId hzero
    by_cases hold : k.RingInUse s
    · by_cases hold' : k.RingInUse s'
      · obtain ⟨j₁, hj₁, hj₁'⟩ := hstep.names h hold
        obtain ⟨j₂, hj₂, hj₂'⟩ := hstep.names h hold'
        obtain rfl := hj.unique hj₁'
        obtain rfl := hj'.unique hj₂'
        exact h.alone s s' j hold hold' hj₁ hj₂
      · exact absurd hj (hfresh hold' hs' hold hj')
    · by_cases hold' : k.RingInUse s'
      · exact absurd hj' (hfresh hold hs hold' hj)
      · exact hstep.once s s' hold hold' hs hs'

/-- A step on the ring of a task. -/
theorem RingsStep.ownStep (h : RingsStep r own k k') (hwf : TablesWf k.objects k.caps)
    (hown : ∀ j, own j → k.Names r j ∧ ∃ s, k.RingOf task s ∧ (k.userRings s).ringCap = r) :
    OwnStep task creates k k' := by
  have hsame : ∀ s, k'.RingInUse s → k.RingInUse s := by
    intro s hs
    unfold Kernel.RingInUse at hs
    rw [h.userRings] at hs
    exact hs
  refine ⟨h.stays, fun j _ => h.ids j, ?_, ?_, ?_, ?_, ?_⟩
  · intro s _
    rw [h.userRings]
    exact .refl _
  · intro s _ _
    rw [h.userRings]
  · intro j _ hnot
    apply h.rings hwf fun j hj => (hown j hj).1
    intro hj
    obtain ⟨hnames, s, hs, hcap⟩ := hown j hj
    apply hnot s hs
    rw [hcap]
    exact hnames
  · exact fun s hnew hs => absurd (hsame s hs) hnew
  · exact fun s _ hnew _ hs _ => absurd (hsame s hs) hnew

/-- A step that touches no ring. -/
theorem RingsStep.noRing (h : RingsStep r (fun _ => False) k k') (hwf : TablesWf k.objects k.caps) :
    OwnStep task creates k k' := h.ownStep hwf fun _ hj => hj.elim

/-- What a case of the dispatch does after the call touches no ring. -/
theorem OwnStep.andThen (h : OwnStep task creates k k') (hwf : TablesWf k.objects k.caps)
    (h' : RingsStep 0 (fun _ => False) k' k'') : OwnStep task creates k k'' := by
  have hwf' := (h.stays.tokens hwf).wf
  have hrings : ∀ j, k''.rings j = k'.rings j := fun j => h'.rings hwf' (fun _ hj => hj.elim) j id
  have hback : ∀ s, k''.RingInUse s → k'.RingInUse s := by
    intro s hs
    unfold Kernel.RingInUse at hs
    rw [h'.userRings] at hs
    exact hs
  refine ⟨IsTrans.trans _ _ _ h.stays h'.stays, ?_, ?_, ?_, ?_, ?_, ?_⟩
  · intro j hj
    rw [h'.ids]
    exact h.ids j hj
  · intro s hs
    rw [h'.userRings]
    exact h.records s hs
  · intro s hs hother
    rw [h'.userRings]
    exact h.others s hs hother
  · intro j hj hnot
    rw [hrings]
    exact h.rings j hj hnot
  · intro s hnew hs
    obtain ⟨hcreates, ⟨_, htask⟩, j, hzero, hj⟩ := h.created s hnew (hback s hs)
    rw [h'.userRings]
    refine ⟨hcreates, ⟨hs, ?_⟩, j, hzero, hj.kept hwf' h'.stays (h'.ids j)⟩
    rw [h'.userRings]
    exact htask
  · exact fun s s' hnew hnew' hs hs' => h.once s s' hnew hnew' (hback s hs) (hback s' hs')

end own

/-! ## The ring calls -/

section calls

variable {task : UInt64} {creates : Prop} {k : Kernel δ}

theorem userRingSlotFor_found {r : UInt64} {s : Fin maxUserRings}
    (h : userRingSlotFor k task r = .ok s) : k.RingOf task s ∧ (k.userRings s).ringCap = r := by
  unfold userRingSlotFor at h
  split at h
  · cases h
  split at h
  · cases h
  split at h
  · cases h
  split at h
  · cases h
  · next i hfound =>
    obtain rfl := Except.ok.inj h
    have hslot := (Slots.firstSlot_eq_some hfound).1
    simp only [Bool.and_eq_true, beq_iff_eq] at hslot
    exact ⟨⟨hslot.1, hslot.2.1⟩, hslot.2.2⟩

/-- A step on the ring that a task has found. -/
theorem RingsOwned.ownStep (h : RingsOwned k) {k' : Kernel δ} {r : UInt64} {s : Fin maxUserRings}
    (hs : userRingSlotFor k task r = .ok s) (hstep : ∀ j, RingsStep r (· = j) k k') :
    OwnStep task creates k k' := by
  obtain ⟨hof, hcap⟩ := userRingSlotFor_found hs
  obtain ⟨j, hj⟩ := h.names s hof.1
  rw [hcap] at hj
  apply (hstep j).ownStep h.wf
  intro i hi
  rw [hi]
  exact ⟨hj, s, hof, hcap⟩

/-- `scdk_user_ring_submit` -/
theorem RingsOwned.submit (h : RingsOwned k) (p : Platform δ) (r ptr : UInt64) (count : UInt32) :
    OwnStep task creates k (userRingSubmit p task r ptr count k).2 := by
  rcases userRingTarget_run task r ptr count k with ⟨e, htarget⟩ | ⟨s, _, _, _, hs, _⟩
  · unfold userRingSubmit
    rw [Effect.bind_of_error htarget]
    exact (refl k : RingsStep 0 _ k k).noRing h.wf
  · exact h.ownStep hs fun _ => ringsStep_userRingSubmit p task ptr count k

/-- `scdk_user_ring_poll` -/
theorem RingsOwned.poll (h : RingsOwned k) (r ptr : UInt64) (count : UInt32) :
    OwnStep task creates k (userRingPoll task r ptr count k).2 := by
  rcases userRingTarget_run task r ptr count k with ⟨e, htarget⟩ | ⟨s, _, _, _, hs, _⟩
  · unfold userRingPoll
    rw [Effect.bind_of_error htarget]
    exact (refl k : RingsStep 0 _ k k).noRing h.wf
  · exact h.ownStep hs fun _ => ringsStep_userRingPoll task ptr count k

/-- The target of user ring `s` is recorded. -/
def Kernel.bindUserRing (k : Kernel δ) (s : Fin maxUserRings) (target : UInt64) : Kernel δ :=
  let slot := { k.userRings s with targetEndpoint := target }
  { k with userRings := Function.update k.userRings s slot }

theorem OwnStep.bindUserRing {k' : Kernel δ} (h : OwnStep task creates k k')
    (huser : k'.userRings = k.userRings) {s : Fin maxUserRings} (hs : k.RingOf task s)
    (target : UInt64) : OwnStep task creates k (k'.bindUserRing s target) := by
  have hne : ∀ i, i ≠ s → (k'.bindUserRing s target).userRings i = k.userRings i := by
    intro i hi
    rw [← huser]
    exact Function.update_of_ne hi _ _
  have hself : (k'.bindUserRing s target).userRings s =
      { k.userRings s with targetEndpoint := target } := by
    rw [← huser]
    exact Function.update_self _ _ _
  have hrecords : ∀ i, (k.userRings i).SameRing ((k'.bindUserRing s target).userRings i) := by
    intro i
    by_cases hi : i = s
    · rw [hi, hself]
      exact ⟨rfl, rfl, rfl⟩
    · rw [hne i hi]
      exact .refl _
  have hused : ∀ i, ¬ k.RingInUse i → ¬ (k'.bindUserRing s target).RingInUse i := by
    intro i hi
    unfold Kernel.RingInUse
    rw [(hrecords i).inUse]
    exact hi
  refine ⟨⟨h.stays.tokens, h.stays.endpoints, h.stays.services, h.stays.root⟩, h.ids,
    fun i _ => hrecords i, ?_, h.rings, ?_, ?_⟩
  · intro i hi hother
    apply hne
    rintro rfl
    exact hother hs
  · exact fun i hnew hi => absurd hi (hused i hnew)
  · exact fun i _ hnew _ hi _ => absurd hi (hused i hnew)

/-- `scdk_user_ring_bind` -/
theorem RingsOwned.bind (h : RingsOwned k) (r target : UInt64) :
    OwnStep task creates k (userRingBind task r target k).2 := by
  have hrefl : OwnStep task creates k k := (refl k : RingsStep 0 _ k k).noRing h.wf
  unfold userRingBind
  by_cases htarget : target ≠ 0
  · rw [Effect.bind_of_ok (Effect.require_pos htarget _), Effect.ask_bind]
    cases hs : userRingSlotFor k task r with
    | error e => exact hrefl
    | ok s =>
      have hbound : OwnStep task creates k
          { k with rings := (ringBindTarget k.objects k.caps k.rings r target).2 } :=
        h.ownStep hs fun _ => (onRing_bindTarget k r target).ringsStep
      dsimp only
      rw [Effect.bind_run]
      unfold K.ringBindTarget
      generalize ringBindTarget k.objects k.caps k.rings r target = out at hbound ⊢
      obtain ⟨result, rings⟩ := out
      cases result with
      | error e => exact hbound
      | ok _ => exact hbound.bindUserRing rfl (userRingSlotFor_found hs).1 target
  · rw [Effect.bind_of_error (Effect.require_neg htarget _)]
    exact hrefl

/-- A failed creation may only touch a ring slot that has no object. -/
theorem Stays.ownStep_free {k' : Kernel δ} (h : Stays k k') (huser : k'.userRings = k.userRings)
    (hrings : ∀ j, (k.rings j).objectId ≠ 0 → k'.rings j = k.rings j) :
    OwnStep task creates k k' := by
  have hused : ∀ s, k'.RingInUse s → k.RingInUse s := by
    intro s hs
    unfold Kernel.RingInUse at hs
    rw [huser] at hs
    exact hs
  refine ⟨h, ?_, ?_, ?_, fun j hj _ => hrings j hj, ?_, ?_⟩
  · intro j hj
    rw [hrings j hj]
  · intro s _
    rw [huser]
    exact .refl _
  · intro s _ _
    rw [huser]
  · exact fun s hnew hs => absurd (hused s hs) hnew
  · exact fun s _ hnew _ hs _ => absurd (hused s hs) hnew

/-- A new ring with its token is recorded in a free slot. -/
theorem OwnStep.newUserRing {k' : Kernel δ} (h : OwnStep task creates k k')
    (huser : k'.userRings = k.userRings) (hcreates : creates) {i : Fin maxUserRings}
    (hi : ¬ k.RingInUse i) {ring : UInt64} {j : Fin maxRings} (hzero : (k.rings j).objectId = 0)
    (hj : k'.Names ring j) :
    OwnStep task creates k
      { k' with userRings := Function.update k'.userRings i ⟨true, task, ring, 0⟩ } := by
  have hne : ∀ s, k.RingInUse s →
      Function.update k'.userRings i ⟨true, task, ring, 0⟩ s = k.userRings s := by
    intro s hs
    rw [← huser]
    apply Function.update_of_ne
    rintro rfl
    exact hi hs
  -- the new ring is the only one
  have hnew : ∀ s, ¬ k.RingInUse s →
      (Function.update k'.userRings i ⟨true, task, ring, 0⟩ s).inUse = true → s = i := by
    intro s hs hused
    by_contra hsi
    rw [Function.update_of_ne hsi, huser] at hused
    exact hs hused
  refine ⟨⟨h.stays.tokens, h.stays.endpoints, h.stays.services, h.stays.root⟩, h.ids, ?_, ?_,
    h.rings, ?_, ?_⟩
  · intro s hs
    show (k.userRings s).SameRing (Function.update k'.userRings i _ s)
    rw [hne s hs]
    exact .refl _
  · exact fun s hs _ => hne s hs
  · intro s hs hused
    obtain rfl := hnew s hs hused
    refine ⟨hcreates, ⟨hused, ?_⟩, j, hzero, ?_⟩
    · show (Function.update k'.userRings s _ s).sourceTask = task
      rw [Function.update_self]
    · show k'.Names (Function.update k'.userRings s _ s).ringCap j
      rw [Function.update_self]
      exact hj
  · intro s s' hs hs' hused hused'
    exact (hnew s hs hused).trans (hnew s' hs' hused').symm

theorem freeUserRing_found {i : Fin maxUserRings} (h : freeUserRing k = .ok i) :
    ¬ k.RingInUse i := by
  unfold freeUserRing at h
  split at h
  · cases h
  · next i' hfound =>
    obtain rfl := Except.ok.inj h
    have hslot := (Slots.firstSlot_eq_some hfound).1
    rw [Bool.not_eq_true'] at hslot
    exact fun hused => Bool.false_ne_true (hslot.symm.trans hused)

/-- `scdk_ring_create` touches a ring slot that has no object, and a new token
    names it. -/
theorem RingsOwned.ringCreate (h : RingsOwned k) (entries : UInt32) :
    OwnStep task creates k (K.ringCreate bootCore entries 0 k).2 ∧
      ∀ ring, (K.ringCreate bootCore entries 0 k).1 = .ok ring →
        ∃ j, (k.rings j).objectId = 0 ∧ (K.ringCreate bootCore entries 0 k).2.Names ring j := by
  have hstays : Stays k (K.ringCreate bootCore entries 0 k).2 :=
    (lasting_ringCreate bootCore entries 0 k).stays
  unfold K.ringCreate at hstays ⊢
  rcases ringCreate_cases k.objects k.caps k.rings bootCore entries 0 with
    ⟨e, hrun⟩ | ⟨j, _, _, hzero, hrun⟩
  · rw [hrun] at hstays ⊢
    exact ⟨hstays.ownStep_free rfl fun _ _ => rfl, fun _ hring => nomatch hring⟩
  have hother : ∀ slot i, (k.rings i).objectId ≠ 0 →
      Function.update k.rings j slot i = k.rings i :=
    fun slot i hi => RingTable.update_of_taken hzero hi slot
  rcases ringCreateSlot_cases k.objects k.caps k.rings j bootCore entries 0 with
    ⟨e, hslot⟩ | ⟨e, hslot⟩ | ⟨id, o', cap, object, hob, hlook, _, hslot⟩
  · rw [hrun, hslot] at hstays ⊢
    exact ⟨hstays.ownStep_free rfl fun _ _ => rfl, fun _ hring => nomatch hring⟩
  · rw [hrun, hslot] at hstays ⊢
    exact ⟨hstays.ownStep_free rfl (hother _), fun _ hring => nomatch hring⟩
  · rw [hrun, hslot] at hstays ⊢
    refine ⟨hstays.ownStep_free rfl (hother _), ?_⟩
    intro ring hring
    obtain rfl := Except.ok.inj hring
    obtain ⟨hid, howner⟩ := RingOwner.created (s := ⟨k.objects, k.caps, k.rings⟩) (k := cap)
      h.wf hob hlook ((k.rings j).ring.fresh entries 0)
    refine ⟨j, hzero, howner.names (hstays.tokens h.wf).wf ?_⟩
    simpa using hid

/-- `scdk_user_ring_create` -/
theorem RingsOwned.create (h : RingsOwned k) (hcreates : creates) (entries : UInt32) :
    OwnStep task creates k (userRingCreate task entries k).2 := by
  have hrefl : OwnStep task creates k k := (refl k : RingsStep 0 _ k k).noRing h.wf
  unfold userRingCreate
  by_cases htask : task ≠ 0
  · rw [Effect.bind_of_ok (Effect.require_pos htask _), Effect.ask_bind]
    cases validateCount entries with
    | error e => exact hrefl
    | ok _ =>
      dsimp only
      rw [K.capCheck, Effect.ask_bind]
      cases capCheck k.objects k.caps task Right.read ObjType.task with
      | error e => exact hrefl
      | ok _ =>
        dsimp only
        rw [Effect.ask_bind]
        cases hfree : freeUserRing k with
        | error e => exact hrefl
        | ok i =>
          dsimp only
          have huser : (K.ringCreate bootCore entries 0 k).2.userRings = k.userRings := rfl
          -- A ring that was made is recorded for the task, in a free slot.
          obtain ⟨hstep, hring⟩ := @RingsOwned.ringCreate δ task creates k h entries
          rw [Effect.bind_run]
          generalize K.ringCreate bootCore entries 0 k = out at huser hstep hring ⊢
          obtain ⟨result, k'⟩ := out
          cases result with
          | error e => exact hstep
          | ok ring =>
            obtain ⟨j, hzero, hj⟩ := hring ring rfl
            exact hstep.newUserRing huser hcreates (freeUserRing_found hfree) hzero hj
  · rw [Effect.bind_of_error (Effect.require_neg htask _)]
    exact hrefl

end calls

/-! ## System calls -/

/-- The calls on rings and grants, and those of the console, the VFS and the session
    service. -/
def IsolatedCall (k : Kernel δ) (c : Syscall) : Prop :=
  c.number = Sys.ringCreate ∨ c.number = Sys.ringBind ∨ c.number = Sys.ringSubmit ∨
    c.number = Sys.ringPoll ∨ c.number = Sys.grantCreate ∨ c.number = Sys.grantRevoke ∨
    (c.number = Sys.endpointCall ∧ ToServices k c)

section dispatch

variable {k : Kernel δ} {c : Syscall} {creates : Prop}

/-- A call that starts with a look at the current task. -/
theorem RingsOwned.withTask {α : Type} (h : RingsOwned k) {m : UInt64 → K δ α}
    (hm : OwnStep k.tasks.currentUserTask creates k (m k.tasks.currentUserTask k).2) :
    OwnStep k.tasks.currentUserTask creates k
      ((K.userTaskCurrent >>= fun task => m task : K δ α) k).2 := by
  unfold K.userTaskCurrent
  rw [Effect.ask_bind]
  unfold userTaskCurrent
  split
  · next e heq => exact (refl k : RingsStep 0 _ k k).noRing h.wf
  · next task heq =>
    split at heq
    · cases heq
    · obtain rfl := Except.ok.inj heq
      exact hm

theorem RingsOwned.answerValue (h : RingsOwned k) {task : UInt64} {m : K δ UInt64}
    (hm : OwnStep task creates k (m k).2) : OwnStep task creates k (answerValue m k).2 := by
  obtain ⟨value, hrun⟩ := answerValue_run k m
  rw [hrun]
  exact hm.andThen h.wf (.of_eq rfl)

theorem RingsOwned.answerStatus (h : RingsOwned k) {task : UInt64} {m : K δ Unit}
    (hm : OwnStep task creates k (m k).2) : OwnStep task creates k (answerStatus m k).2 := by
  rw [answerStatus_run]
  exact hm.andThen h.wf (.of_eq rfl)

theorem ringsStep_notePassed (status : Except Err Unit) :
    Effect.Within (RingsStep 0 fun _ => False) (notePassed status : K δ Unit) := by
  intro k
  cases status with
  | error e => exact refl k
  | ok _ => exact .of_eq rfl

theorem ringsStep_setReturnValue (value : UInt64) :
    Effect.Within (RingsStep 0 fun _ => False) (setReturnValue value : K δ Unit) :=
  fun _ => .of_eq rfl

/-- A system call of the current task. -/
theorem RingsOwned.dispatch (h : RingsOwned k) (p : Platform δ) (hc : IsolatedCall k c) :
    OwnStep k.tasks.currentUserTask (c.number = Sys.ringCreate) k (syscallDispatch p c k).2 := by
  have hsame : ∀ {k' : Kernel δ}, RingsStep 0 (fun _ => False) k k' →
      OwnStep k.tasks.currentUserTask (c.number = Sys.ringCreate) k k' := fun h' => h'.noRing h.wf
  -- The calls on rings are made for the current task; the others leave the rings alone.
  apply syscallDispatch_cases (P := fun out => OwnStep k.tasks.currentUserTask
    (c.number = Sys.ringCreate) k out.2)
  case notReady => exact hsame (ringsStep_setReturnValue _ k)
  case debugWrite => exact fun _ => hsame (ringsStep_setReturnValue _ k)
  case call =>
    intro hn
    have hto : ToServices k c := by
      rcases hc with hc | hc | hc | hc | hc | hc | hc
      case inr.inr.inr.inr.inr.inr => exact hc.2
      all_goals
        rw [hn] at hc
        exact absurd hc (by decide)
    apply hsame
    unfold dispatchEndpointCall
    rw [Effect.attempt_bind]
    refine IsTrans.trans _ _ _ (sysEndpointCall_ringsStep p hto h.services 0 _) ?_
    refine Effect.Within.bind Effect.within_get (fun _ => ?_) _
    refine .ite (Effect.within_pure ()) ?_
    exact .bind (ringsStep_notePassed _) fun _ => ringsStep_setReturnValue _
  case yield =>
    intro hn
    exfalso
    rcases hc with hc | hc | hc | hc | hc | hc | ⟨hc, _⟩
    all_goals
      rw [hn] at hc
      exact absurd hc (by decide)
  case exit => exact fun _ => hsame (.of_eq rfl)
  case grantCreate =>
    intro _
    apply h.answerValue
    apply h.withTask
    exact hsame ((lasting_userGrantCreate _ _ _ _ _ k).stays.ringsStep rfl)
  case grantRevoke =>
    intro _
    exact h.answerStatus (hsame ((lasting_userGrantRevoke _ k).stays.ringsStep rfl))
  case ringCreate => exact fun hn => h.answerValue (h.withTask (h.create hn _))
  case ringBind => exact fun _ => h.answerStatus (h.withTask (h.bind _ _))
  case ringSubmit =>
    intro _
    unfold dispatchRingSubmit
    rw [Effect.attempt_bind]
    have hsubmit : OwnStep k.tasks.currentUserTask (c.number = Sys.ringCreate) k ((do
        let task ← K.userTaskCurrent
        userRingSubmit p task c.arg0 c.arg1 c.arg2.toUInt32 : K δ Unit) k).2 := by
      apply h.withTask
      exact h.submit p _ _ _
    apply hsubmit.andThen h.wf
    exact Effect.Within.bind (ringsStep_notePassed _) (fun _ => ringsStep_setReturnValue _) _
  case ringPoll =>
    intro _
    apply h.answerValue
    apply h.withTask
    rw [Effect.bind_run]
    have hpoll := @RingsOwned.poll δ k.tasks.currentUserTask (c.number = Sys.ringCreate) k h c.arg0
      c.arg1 c.arg2.toUInt32
    generalize userRingPoll k.tasks.currentUserTask c.arg0 c.arg1 c.arg2.toUInt32 k = out at hpoll ⊢
    obtain ⟨result, k'⟩ := out
    cases result with
    | error e => exact hpoll
    | ok _ => exact hpoll
  case unknown => exact fun _ => hsame (.of_eq rfl)

end dispatch

/-! ### Calls on the ring of another task -/

section refused

variable {k : Kernel δ} {c : Syscall} {task r : UInt64}

/-- A task does not find the ring of another one. -/
theorem RingsOwned.notFound (h : RingsOwned k) {s : Fin maxUserRings} (hs : k.RingInUse s)
    (hcap : (k.userRings s).ringCap = r) (hother : ¬ k.RingOf task s) (s' : Fin maxUserRings) :
    userRingSlotFor k task r ≠ .ok s' := by
  intro hfound
  obtain ⟨hof, hcap'⟩ := userRingSlotFor_found hfound
  obtain ⟨j, hj⟩ := h.names s hs
  have hj' : k.Names (k.userRings s').ringCap j := by
    rw [hcap', ← hcap]
    exact hj
  obtain rfl := h.alone s s' j hs hof.1 hj hj'
  exact hother hof

variable (hnone : ∀ s, userRingSlotFor k task r ≠ .ok s)

include hnone

theorem userRingBind_refused (target : UInt64) :
    ∃ e, (userRingBind task r target k).1 = .error e := by
  unfold userRingBind
  by_cases htarget : target ≠ 0
  · rw [Effect.bind_of_ok (Effect.require_pos htarget _), Effect.ask_bind]
    cases hs : userRingSlotFor k task r with
    | error e => exact ⟨e, rfl⟩
    | ok s => exact absurd hs (hnone s)
  · rw [Effect.bind_of_error (Effect.require_neg htarget _)]
    exact ⟨_, rfl⟩

theorem userRingTarget_refused (ptr : UInt64) (count : UInt32) :
    ∃ e, userRingTarget task r ptr count k = (.error e, k) := by
  rcases userRingTarget_run task r ptr count k with hrun | ⟨s, _, _, _, hs, _⟩
  · exact hrun
  · exact absurd hs (hnone s)

theorem userRingSubmit_refused (p : Platform δ) (ptr : UInt64) (count : UInt32) :
    ∃ e, (userRingSubmit p task r ptr count k).1 = .error e := by
  obtain ⟨e, hrun⟩ := userRingTarget_refused hnone ptr count
  unfold userRingSubmit
  rw [Effect.bind_of_error hrun]
  exact ⟨e, rfl⟩

theorem userRingPoll_refused (ptr : UInt64) (count : UInt32) :
    ∃ e, (userRingPoll task r ptr count k).1 = .error e := by
  obtain ⟨e, hrun⟩ := userRingTarget_refused hnone ptr count
  unfold userRingPoll
  rw [Effect.bind_of_error hrun]
  exact ⟨e, rfl⟩

end refused

section answers

variable {k : Kernel δ}

/-- The answer to the task is an error. -/
def AnswersError (k : Kernel δ) : Prop := ∃ e : Err, k.syscall.returnValue = e.word

theorem answerStatus_error {m : K δ Unit} (h : ∃ e, (m k).1 = .error e) :
    AnswersError (answerStatus m k).2 := by
  obtain ⟨e, he⟩ := h
  rw [answerStatus_run, he]
  exact ⟨e, rfl⟩

theorem answerValue_error {m : K δ UInt64} (h : ∃ e, (m k).1 = .error e) :
    AnswersError (answerValue m k).2 := by
  obtain ⟨e, he⟩ := h
  unfold answerValue
  rw [Effect.attempt_bind, he]
  exact ⟨e, rfl⟩

/-- Without a current task there is an error anyway. -/
theorem withTask_error {α : Type} {m : UInt64 → K δ α}
    (h : ∃ e, (m k.tasks.currentUserTask k).1 = .error e) :
    ∃ e, ((K.userTaskCurrent >>= fun task => m task : K δ α) k).1 = .error e := by
  unfold K.userTaskCurrent
  rw [Effect.ask_bind]
  cases htask : userTaskCurrent k.tasks with
  | error e => exact ⟨e, rfl⟩
  | ok task =>
    unfold userTaskCurrent at htask
    split at htask
    · cases htask
    · obtain rfl := Except.ok.inj htask
      exact h

/-- A call on the ring of another task is refused. -/
theorem RingsOwned.refused (h : RingsOwned k) (p : Platform δ) {c : Syscall}
    (hn : c.number = Sys.ringBind ∨ c.number = Sys.ringSubmit ∨ c.number = Sys.ringPoll)
    {s : Fin maxUserRings} (hs : k.RingInUse s) (hcap : (k.userRings s).ringCap = c.arg0)
    (hother : ¬ k.RingOf k.tasks.currentUserTask s) : AnswersError (syscallDispatch p c k).2 := by
  have hnone := h.notFound hs hcap hother
  have hnumber : ∀ {n : UInt64}, c.number = n →
      n = Sys.ringBind ∨ n = Sys.ringSubmit ∨ n = Sys.ringPoll := by
    intro n hc
    rw [← hc]
    exact hn
  -- Each of the three calls looks the ring up in the slots of the current task first.
  apply syscallDispatch_cases (P := fun out => AnswersError out.2)
  case notReady => exact ⟨.notsup, rfl⟩
  case ringBind =>
    intro _
    exact answerStatus_error (withTask_error (userRingBind_refused hnone _))
  case ringSubmit =>
    intro _
    obtain ⟨e, he⟩ := withTask_error (m := fun task =>
      userRingSubmit p task c.arg0 c.arg1 c.arg2.toUInt32) (userRingSubmit_refused hnone p _ _)
    unfold dispatchRingSubmit
    rw [Effect.attempt_bind, he]
    exact ⟨e, rfl⟩
  case ringPoll =>
    intro _
    apply answerValue_error
    apply withTask_error
    obtain ⟨e, he⟩ := userRingPoll_refused hnone c.arg1 c.arg2.toUInt32
    refine ⟨e, ?_⟩
    rw [Effect.bind_of_error (Prod.ext he rfl)]
  case unknown =>
    intro hlt
    rcases hn with hn | hn | hn
    all_goals
      rw [hn] at hlt
      exact absurd hlt (by decide)
  all_goals
    intro hc
    exact absurd (hnumber hc) (by decide)

end answers

/-! ## Runs -/

/-- Steps whose system calls are those on rings and grants, and messages to the
    services. -/
def RingCalls (w : World δ) : UserStep → Prop
  | .syscall c => IsolatedCall w.kernel c
  | _ => True

/-- The kernel before its first user ring. -/
structure RingBoot (k : Kernel δ) : Prop where
  wf : TablesWf k.objects k.caps
  services : ServicesStarted k
  noRing : ∀ s, ¬ k.RingInUse s

/-- What a step may do to the rings of the tasks. -/
structure RingsIsolated (p : Platform δ) (w : World δ) (a : UserStep) : Prop where
  /-- A ring belongs to the task that created it. -/
  created : ∀ s, ¬ w.kernel.RingInUse s → (userStep p w a).2.kernel.RingInUse s →
    ∃ c, a = .syscall c ∧ c.number = Sys.ringCreate ∧
      (userStep p w a).2.kernel.RingOf w.kernel.tasks.currentUserTask s
  /-- It stays with this task. -/
  owner : ∀ s, w.kernel.RingInUse s →
    (w.kernel.userRings s).SameRing ((userStep p w a).2.kernel.userRings s)
  /-- Its queues and its target are left alone by all but system calls of this task. -/
  others : ∀ s, w.kernel.RingInUse s →
    ¬ (∃ c, a = .syscall c ∧ w.kernel.RingOf w.kernel.tasks.currentUserTask s) →
    ∃ j, w.kernel.Names (w.kernel.userRings s).ringCap j ∧
      (userStep p w a).2.kernel.Names (w.kernel.userRings s).ringCap j ∧
      (userStep p w a).2.kernel.rings j = w.kernel.rings j ∧
      (userStep p w a).2.kernel.userRings s = w.kernel.userRings s
  /-- Calls of another task on its token are refused. -/
  refused : ∀ s c, w.kernel.RingInUse s → a = .syscall c →
    c.number = Sys.ringBind ∨ c.number = Sys.ringSubmit ∨ c.number = Sys.ringPoll →
    c.arg0 = (w.kernel.userRings s).ringCap → ¬ w.kernel.RingOf w.kernel.tasks.currentUserTask s →
    ∃ e : Err, (userStep p w a).1 = e.word

section runs

variable {w : World δ} {a : UserStep} (p : Platform δ)

theorem RingBoot.ringsOwned {k : Kernel δ} (h : RingBoot k) : RingsOwned k where
  wf := h.wf
  services := h.services
  names := fun s hs => absurd hs (h.noRing s)
  alone := fun s _ _ hs => absurd hs (h.noRing s)

/-- Steps that are not system calls touch no ring. -/
theorem userStep_ringsStep (hnot : ∀ c, a ≠ .syscall c) :
    RingsStep 0 (fun _ => False) w.kernel (userStep p w a).2.kernel := by
  cases a with
  | syscall c => exact absurd rfl (hnot c)
  | enter task root => exact .of_eq rfl
  | leave =>
    unfold userStep
    cases w.nest with
    | nil => exact refl _
    | cons saved nest => exact .of_eq rfl
  | memory frames tables => exact .of_eq rfl
  | newTask i =>
    have hnew : Effect.Within (RingsStep 0 fun _ => False) (K.newTask i : K δ UInt64) := by
      refine .bind (fun k => ?_) fun objectId k => ?_
      · exact (lasting_objectCreate (.task i) bootCore 0 k).stays.ringsStep rfl
      · exact (lasting_capCreate objectId taskRights k).stays.ringsStep rfl
    exact hnew w.kernel

/-- Every step is one of the current task. -/
theorem RingsOwned.userStep (h : RingsOwned w.kernel) (ha : RingCalls w a) :
    OwnStep w.kernel.tasks.currentUserTask (∃ c, a = .syscall c ∧ c.number = Sys.ringCreate)
      w.kernel (userStep p w a).2.kernel := by
  by_cases hsys : ∃ c, a = .syscall c
  · obtain ⟨c, rfl⟩ := hsys
    have hstep := h.dispatch p ha
    exact ⟨hstep.stays, hstep.ids, hstep.records, hstep.others, hstep.rings,
      fun s hnew hs => ⟨⟨c, rfl, (hstep.created s hnew hs).1⟩, (hstep.created s hnew hs).2⟩,
      hstep.once⟩
  · apply (userStep_ringsStep p fun c hc => hsys ⟨c, hc⟩).noRing h.wf

/-- One step leaves the rings of other tasks alone. -/
theorem RingsOwned.isolated (h : RingsOwned w.kernel) (ha : RingCalls w a) :
    RingsIsolated p w a := by
  have hstep := h.userStep p ha
  refine ⟨?_, hstep.records, ?_, ?_⟩
  · intro s hnew hs
    obtain ⟨⟨c, hc, hn⟩, hof, _⟩ := hstep.created s hnew hs
    exact ⟨c, hc, hn, hof⟩
  · intro s hs hother
    obtain ⟨j, hj, hj'⟩ := hstep.names h hs
    rw [(hstep.records s hs).ringCap] at hj'
    by_cases hsys : ∃ c, a = .syscall c
    · obtain ⟨c, hc⟩ := hsys
      have hof : ¬ w.kernel.RingOf w.kernel.tasks.currentUserTask s :=
        fun hof => hother ⟨c, hc, hof⟩
      refine ⟨j, hj, hj', ?_, hstep.others s hs hof⟩
      apply hstep.rings j hj.objectId
      -- only the user ring itself names its slot
      intro s' hs' hnames
      obtain rfl := h.alone s s' j hs hs'.1 hj hnames
      exact hof hs'
    · have hrings := userStep_ringsStep (w := w) p fun c hc => hsys ⟨c, hc⟩
      refine ⟨j, hj, hj', hrings.rings h.wf (fun _ hj => hj.elim) j id, ?_⟩
      rw [hrings.userRings]
  · rintro s c hs rfl hn hcap hother
    exact h.refused p hn hs hcap.symm hother

/-- **Rings of other tasks.**  In every run of tasks that call on rings and grants
    and send messages to the console, the VFS and the session service, nested in any
    way, the rings of a task change in its own system calls only, and other tasks get
    an error for their tokens. -/
theorem ring_isolation {log : List (UserStep × UInt64)}
    (hrun : (userSystem p RingBoot).RunWhen RingCalls log w) (ha : RingCalls w a) :
    RingsIsolated p w a := by
  have hinv : RingsOwned w.kernel := by
    apply hrun.invariant (P := fun w => RingsOwned w.kernel)
    · intro w hinit
      exact hinit.1.ringsOwned
    · intro w a hw ha
      exact hw.step (hw.userStep p ha)
  exact hinv.isolated p ha

end runs

/-! ### A ring that another task tries to bind -/

theorem noRing_machine (initrd : Initrd) (s : Fin maxUserRings) :
    ¬ (machine initrd).RingInUse s := by
  apply within_startServices (P := fun k => ∀ s, ¬ k.RingInUse s) _ _ _ _ _ s
  · exact fun _ _ _ h => h
  · exact fun _ _ _ h => h
  · exact fun _ _ h => h
  · intro s hs
    cases hs

theorem serves_of_target {k : Kernel δ} {serviceId : UInt64} {handler : Handler}
    (endpoint id : UInt64) (hlook : serviceLookup k.services serviceId = .ok endpoint)
    (htarget : endpointTarget k.objects k.caps k.endpoints endpoint = .ok (id, handler)) :
    Serves k serviceId handler := by
  intro endpoint' hlook'
  obtain rfl := Except.ok.inj (hlook.symm.trans hlook')
  exact ⟨id, htarget⟩

theorem servicesStarted_machine : ServicesStarted (machine ⟨[], true⟩) where
  console := serves_of_target (firstToken 0) 0x100000000 (by decide +kernel) (by decide +kernel)
  vfs := serves_of_target (firstToken 3) 0x100000003 (by decide +kernel) (by decide +kernel)
  session := serves_of_target (firstToken 1) 0x100000001 (by decide +kernel) (by decide +kernel)
  root := fun _ => ⟨0x100000002, by decide +kernel⟩

theorem ringBoot_machine : RingBoot (machine ⟨[], true⟩) :=
  ⟨(grantBoot_machine _).wf, servicesStarted_machine, noRing_machine _⟩

/-- The first task creates a ring, and while it waits the second task runs. -/
def ringThenSwitch : List UserStep :=
  [.newTask 0, .newTask 1, .enter (firstToken 4) 0x1000,
    .syscall ⟨Sys.ringCreate, 8, 0, 0, 0, 0⟩, .enter (firstToken 5) 0x1000]

def afterRingThenSwitch : World Unit :=
  (userSystem quietPlatform RingBoot).exec ⟨machine ⟨[], true⟩, []⟩ ringThenSwitch

/-- The second task binds the ring of the first to the console. -/
def bindOther : UserStep := .syscall ⟨Sys.ringBind, firstToken 6, firstToken 0, 0, 0, 0⟩

theorem ring_isolation_bind :
    afterRingThenSwitch.kernel.userRings 0 = ⟨true, firstToken 4, firstToken 6, 0⟩ ∧
      RingsIsolated quietPlatform afterRingThenSwitch bindOther := by
  refine ⟨by decide +kernel, ?_⟩
  have hinit : (userSystem quietPlatform RingBoot).init ⟨machine ⟨[], true⟩, []⟩ :=
    ⟨ringBoot_machine, rfl⟩
  obtain ⟨log, hrun⟩ : ∃ log,
      (userSystem quietPlatform RingBoot).RunWhen RingCalls log afterRingThenSwitch := by
    apply (System.RunWhen.init hinit).exec
    exact ⟨trivial, trivial, trivial, .inl rfl, trivial, trivial⟩
  exact ring_isolation quietPlatform hrun (.inr (.inl rfl))

end Scdk
