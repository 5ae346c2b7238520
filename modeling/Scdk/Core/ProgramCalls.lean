import Scdk.Core.Lasting
import Scdk.Core.Program
import Scdk.Services.HandlerFrame

/-! # System calls of a program

    A system call of a task marks a fault, or leaves the records of tasks and the
    state around the kernel tables to the task that it spawns.

    * `Noted`: steps that touch none of these, and leave the flag of a fault,
    * `Faulted`: the step of a fault,
    * `Outcome R`: a fault, or a step of `R`; `syscallDispatch_outcome`: a system
      call whose spawn is a step of `R` has such an outcome,
    * `spawnWith_within`: a spawn is a step of `R` when making, running and
      cleaning up a task are. -/

namespace Scdk

variable {δ : Type}

/-! ## Steps -/

/-- The records of tasks, the state around the kernel tables, the page tables and the
    flag of a fault are as before, and what lasts does. -/
structure Noted (k k' : Kernel (Host δ)) : Prop where
  tasks : k'.tasks = k.tasks
  run : k'.devices.run = k.devices.run
  vmm : k'.vmm = k.vmm
  faulted : k'.syscall.userFaulted = k.syscall.userFaulted
  lasting : Lasting k k'

instance : IsPreorder (Kernel (Host δ)) Noted where
  refl := fun k => ⟨rfl, rfl, rfl, rfl, refl k⟩
  trans := fun _ _ _ h h' =>
    ⟨h'.tasks.trans h.tasks, h'.run.trans h.run, h'.vmm.trans h.vmm, h'.faulted.trans h.faulted,
      IsTrans.trans _ _ _ h.lasting h'.lasting⟩

/-- `mark_user_fault` with the status `e`, among steps that are noted. -/
structure Faulted (e : Err) (k k' : Kernel (Host δ)) : Prop where
  tasks : k'.tasks = (taskFaultCurrent k.tasks e.word).2
  run : k'.devices.run = k.devices.run
  vmm : k'.vmm = k.vmm
  faulted : k'.syscall.userFaulted = true
  status : k'.syscall.userFaultStatus = e.word
  lasting : Lasting k k'

theorem faulted_markUserFault (e : Err) (k : Kernel (Host δ)) :
    Faulted e k (K.markUserFault e k).2 := ⟨rfl, rfl, rfl, rfl, rfl, .of_eq rfl⟩

/-- A fault, or a step of `R`. -/
def Outcome (R : Kernel (Host δ) → Kernel (Host δ) → Prop) (k k' : Kernel (Host δ)) : Prop :=
  (∃ e, Faulted e k k') ∨ R k k'

section outcome

variable {R : Kernel (Host δ) → Kernel (Host δ) → Prop} (hR : ∀ {k k'}, Noted k k' → R k k')

theorem outcome_markUserFault (e : Err) (k : Kernel (Host δ)) :
    Outcome R k (K.markUserFault e k).2 := .inl ⟨e, faulted_markUserFault e k⟩

include hR in
theorem outcome_pure (k : Kernel (Host δ)) : Outcome R k ((pure () : K (Host δ) Unit) k).2 :=
  .inr (hR (refl k))

include hR in
/-- The steps of the handlers. -/
theorem steps_platform (d : Peripherals δ) (spawn : K (Host δ) Unit) :
    Steps (d.platform spawn) R where
  msg := fun _ _ => hR ⟨rfl, rfl, rfl, rfl, .of_eq rfl⟩
  frames := fun _ _ => hR ⟨rfl, rfl, rfl, rfl, .of_eq rfl⟩
  trace := fun _ _ => hR ⟨rfl, rfl, rfl, rfl, .of_eq rfl⟩
  files := fun _ _ => hR ⟨rfl, rfl, rfl, rfl, .of_eq rfl⟩
  object := fun i k => hR ⟨rfl, rfl, rfl, rfl, lasting_objectCreate (.file i) _ _ k⟩
  cap := fun id k => hR ⟨rfl, rfl, rfl, rfl, lasting_capCreate id _ k⟩
  consoleWrite := fun _ _ => hR ⟨rfl, rfl, rfl, rfl, .of_eq rfl⟩
  consoleClear := fun _ => hR ⟨rfl, rfl, rfl, rfl, .of_eq rfl⟩
  consoleGetInfo := fun _ => hR ⟨rfl, rfl, rfl, rfl, .of_eq rfl⟩
  consoleScroll := fun _ _ => hR ⟨rfl, rfl, rfl, rfl, .of_eq rfl⟩
  keyboardPoll := fun _ => hR ⟨rfl, rfl, rfl, rfl, .of_eq rfl⟩

/-- An action that has steps that are noted where it succeeds, and an outcome
    where it fails. -/
def Prepares (R : Kernel (Host δ) → Kernel (Host δ) → Prop) {α : Type} (m : K (Host δ) α) : Prop :=
  ∀ k, (∀ a, (m k).1 = .ok a → Noted k (m k).2) ∧ (∀ e, (m k).1 = .error e → Outcome R k (m k).2)

include hR in
theorem prepares_of_noted {α : Type} {m : K (Host δ) α} (h : Effect.Within Noted m) :
    Prepares R m := fun k => ⟨fun _ _ => h k, fun _ _ => .inr (hR (h k))⟩

variable [IsPreorder (Kernel (Host δ)) R]

include hR in
/-- Steps that are noted may come first. -/
theorem Outcome.after {k k₁ k' : Kernel (Host δ)} (hfirst : Noted k k₁) (h : Outcome R k₁ k') :
    Outcome R k k' := by
  rcases h with ⟨e, hfault⟩ | hstep
  · left
    refine ⟨e, ?_, hfault.run.trans hfirst.run, hfault.vmm.trans hfirst.vmm, hfault.faulted, hfault.status,
      IsTrans.trans _ _ _ hfirst.lasting hfault.lasting⟩
    rw [hfault.tasks, hfirst.tasks]
  · exact .inr (IsTrans.trans _ _ _ (hR hfirst) hstep)

include hR in
/-- What follows an action that prepares decides the outcome. -/
theorem Prepares.bind {α β : Type} {m : K (Host δ) α} {f : α → K (Host δ) β} (hm : Prepares R m)
    (hf : ∀ a k, Outcome R k (f a k).2) (k : Kernel (Host δ)) : Outcome R k ((m >>= f) k).2 := by
  obtain ⟨hok, herror⟩ := hm k
  rw [Effect.bind_run]
  rcases h : m k with ⟨r, k'⟩
  rw [h] at hok herror
  cases r with
  | error e => exact herror e rfl
  | ok a => exact (hf a k').after hR (hok a rfl)

/-! ## The message of the task -/

theorem noted_userValidateRange (ptr size : UInt64) (writable : Bool) :
    Effect.Within Noted (K.userValidateRange ptr size writable : K (Host δ) Unit) := by
  refine .bind (Effect.within_ask _) fun _ => ?_
  exact Effect.within_modify fun _ => ⟨rfl, rfl, rfl, rfl, .of_eq rfl⟩

theorem noted_userCopyFrom (ptr size : UInt64) :
    Effect.Within Noted (K.userCopyFrom ptr size : K (Host δ) (List UInt8)) := by
  refine .bind (Effect.within_require _ _) fun _ => ?_
  refine .bind (noted_userValidateRange _ _ _) fun _ => ?_
  exact Effect.within_ask _

theorem noted_userCopyTo (ptr : UInt64) (bytes : List UInt8) :
    Effect.Within Noted (K.userCopyTo ptr bytes : K (Host δ) Unit) := by
  refine .bind (Effect.within_require _ _) fun _ => ?_
  refine .bind (noted_userValidateRange _ _ _) fun _ => ?_
  exact Effect.within_modify fun _ => ⟨rfl, rfl, rfl, rfl, .of_eq rfl⟩

theorem noted_setMsg (f : Message → Message) : Effect.Within Noted (K.setMsg f : K (Host δ) Unit) :=
  Effect.within_modify fun _ => ⟨rfl, rfl, rfl, rfl, .of_eq rfl⟩

include hR in
/-- A refusal copies the message back, and may mark a fault. -/
theorem refuse_outcome {α : Type} (ptr : UInt64) (status : Err) {fault : K (Host δ) Unit}
    (hfault : ∀ k, Outcome R k (fault k).2) (k : Kernel (Host δ)) :
    Outcome R k (refuse ptr status fault k : Except Err α × Kernel (Host δ)).2 := by
  refine Prepares.bind hR (prepares_of_noted hR (noted_setMsg _)) (fun _ k => ?_) k
  refine Prepares.bind hR (prepares_of_noted hR Effect.within_get) (fun k' k => ?_) k
  refine Prepares.bind hR (prepares_of_noted hR (noted_userCopyTo _ _).attempt) (fun _ k => ?_) k
  -- The status is answered in the state after the fault.
  rw [Effect.bind_run]
  have houtcome := hfault k
  rcases h : fault k with ⟨r, k'⟩
  rw [h] at houtcome
  cases r with
  | error e => exact houtcome
  | ok u => exact houtcome

/-- A refusal does not succeed. -/
theorem refuse_error {α : Type} (ptr : UInt64) (status : Err) {fault : K (Host δ) Unit}
    (k : Kernel (Host δ)) (a : α) :
    (refuse ptr status fault k : Except Err α × Kernel (Host δ)).1 ≠ .ok a := by
  intro hok
  obtain ⟨_, _, _, h⟩ := Effect.bind_eq_ok (Prod.ext hok rfl)
  obtain ⟨_, _, _, h⟩ := Effect.bind_eq_ok h
  obtain ⟨_, _, _, h⟩ := Effect.bind_eq_ok h
  obtain ⟨_, _, _, h⟩ := Effect.bind_eq_ok h
  cases h

include hR in
theorem prepares_refuse {α : Type} (ptr : UInt64) (status : Err) {fault : K (Host δ) Unit}
    (hfault : ∀ k, Outcome R k (fault k).2) :
    Prepares R (refuse ptr status fault : K (Host δ) α) := fun k =>
  ⟨fun a hok => absurd hok (refuse_error ptr status k a),
    fun _ _ => refuse_outcome hR ptr status hfault k⟩

include hR in
/-- Two actions that prepare, one after the other. -/
theorem Prepares.seq {α β : Type} {m : K (Host δ) α} {f : α → K (Host δ) β}
    (hm : Effect.Within Noted m) (hf : ∀ a, Prepares R (f a)) : Prepares R (m >>= f) := by
  intro k
  have hfirst := hm k
  rw [Effect.bind_run]
  rcases h : m k with ⟨r, k'⟩
  rw [h] at hfirst
  cases r with
  | error e =>
    constructor
    · intro a hok
      cases hok
    · intro _ _
      exact .inr (hR hfirst)
  | ok a =>
    obtain ⟨hok, herror⟩ := hf a k'
    exact ⟨fun b hb => IsTrans.trans _ _ _ hfirst (hok b hb),
      fun e he => (herror e he).after hR hfirst⟩

include hR in
theorem prepares_validateDestination (ptr : UInt64) :
    Prepares R (validateDestination ptr : K (Host δ) Unit) := by
  refine Prepares.seq hR (Effect.within_ask _) fun msg => ?_
  refine Prepares.seq hR (noted_userValidateRange _ _ _).attempt fun r => ?_
  cases r with
  | error e => exact prepares_refuse hR ptr e (outcome_markUserFault e)
  | ok _ => exact prepares_of_noted hR (Effect.within_pure ())

theorem noted_prepareUserBufferArg (buffer : UInt64) :
    Effect.Within Noted (prepareUserBufferArg buffer : K (Host δ) Unit) := by
  refine .bind (Effect.within_ask _) fun _ => ?_
  refine .bind (Effect.within_require _ _) fun _ => ?_
  refine .bind (Effect.within_require _ _) fun _ => ?_
  refine .bind (noted_userCopyFrom _ _) fun _ => ?_
  refine .bind (Effect.within_modify fun _ => ⟨rfl, rfl, rfl, rfl, .of_eq rfl⟩) fun _ => ?_
  exact noted_setMsg _

include hR in
theorem prepares_prepareMessage (ptr buffer : UInt64) :
    Prepares R (prepareMessage ptr buffer : K (Host δ) Unit) := by
  have hpure : Prepares R (pure () : K (Host δ) Unit) :=
    prepares_of_noted hR (Effect.within_pure ())
  refine Prepares.seq hR (Effect.within_ask _) fun msg => ?_
  split
  · refine Prepares.seq hR (noted_prepareUserBufferArg buffer).attempt fun r => ?_
    cases r with
    | error e =>
      refine prepares_refuse hR ptr e fun k => ?_
      split
      · exact outcome_markUserFault e k
      · exact outcome_pure hR k
    | ok _ =>
      dsimp only
      split
      · exact prepares_validateDestination hR ptr
      · exact hpure
  split
  · split
    · exact prepares_validateDestination hR ptr
    · exact hpure
  split
  · exact hpure
  · exact prepares_refuse hR ptr _ (outcome_pure hR)

/-! ## Calls -/

variable {d : Peripherals δ} {spawn : K (Host δ) Unit} (hspawn : Effect.Within R spawn)

include hR hspawn in
/-- A call is a step of `R` when the spawn is one. -/
theorem endpointCall_within (endpoint : UInt64) :
    Effect.Within R (endpointCall (d.platform spawn) endpoint) := by
  intro k
  apply endpointCall_steps (steps_platform hR d spawn)
  · exact
      { spawn := fun _ k => IsTrans.trans _ _ _ (hspawn k) (hR ⟨rfl, rfl, rfl, rfl, .of_eq rfl⟩)
        devmgr := fun _ _ => hR ⟨rfl, rfl, rfl, rfl, .of_eq rfl⟩
        grantTest := fun _ _ => hR ⟨rfl, rfl, rfl, rfl, .of_eq rfl⟩ }
  · intro _
    exact ringSteps_of_rings (fun _ _ => hR ⟨rfl, rfl, rfl, rfl, .of_eq rfl⟩) _

include hR hspawn in
theorem sysEndpointCall_outcome (endpointCap ptr buffer : UInt64) (k : Kernel (Host δ)) :
    Outcome R k (sysEndpointCall (d.platform spawn) endpointCap ptr buffer k).2 := by
  have hfault : ∀ (e : Err) (k : Kernel (Host δ)),
      Outcome R k ((K.markUserFault e >>= fun _ => Effect.fail e : K (Host δ) Unit) k).2 :=
    fun e k => outcome_markUserFault e k
  refine Prepares.bind hR (prepares_of_noted hR (Effect.within_ask _).attempt) (fun r k => ?_) k
  cases r with
  | error e => exact hfault e k
  | ok entry =>
    refine Prepares.bind hR (prepares_of_noted hR (noted_userCopyFrom _ _).attempt)
      (fun r k => ?_) k
    cases r with
    | error e => exact hfault e k
    | ok bytes =>
      refine Prepares.bind hR (prepares_of_noted hR (noted_setMsg _)) (fun _ k => ?_) k
      refine Prepares.bind hR (prepares_of_noted hR (Effect.within_ask _).attempt)
        (fun r k => ?_) k
      cases r with
      | error e => exact refuse_outcome hR ptr e (outcome_markUserFault e) k
      | ok _ =>
        refine Prepares.bind hR (prepares_prepareMessage hR ptr buffer) (fun _ k => ?_) k
        -- The endpoint is called, and the message copied back.
        right
        have hnoted : ∀ {α : Type} {m : K (Host δ) α}, Effect.Within Noted m →
            Effect.Within R m := fun h k => hR (h k)
        refine Effect.Within.bind (endpointCall_within hR hspawn endpointCap).attempt
          (fun _ => ?_) k
        refine .bind (hnoted (noted_setMsg _)) fun _ => ?_
        refine .bind Effect.within_get fun _ => ?_
        refine .bind (hnoted (noted_userCopyTo _ _).attempt) fun r => ?_
        cases r with
        | error _ => exact Effect.within_fail _
        | ok _ => exact Effect.within_ask _

/-! ## System calls -/

theorem noted_setReturnValue (value : UInt64) :
    Effect.Within Noted (setReturnValue value : K (Host δ) Unit) :=
  Effect.within_modify fun _ => ⟨rfl, rfl, rfl, rfl, .of_eq rfl⟩

theorem noted_answerValue {m : K (Host δ) UInt64} (h : Effect.Within Noted m) :
    Effect.Within Noted (answerValue m) := by
  apply h.attempt.bind
  intro r
  cases r with
  | error e => exact noted_setReturnValue e.word
  | ok value => exact noted_setReturnValue value

theorem noted_answerStatus {m : K (Host δ) Unit} (h : Effect.Within Noted m) :
    Effect.Within Noted (answerStatus m) := by
  apply h.attempt.bind
  intro status
  exact noted_setReturnValue _

theorem noted_notePassed (status : Except Err Unit) :
    Effect.Within Noted (notePassed status : K (Host δ) Unit) := by
  apply Effect.within_modify
  intro k
  cases status with
  | error e => exact refl k
  | ok _ => exact ⟨rfl, rfl, rfl, rfl, .of_eq rfl⟩

include hR hspawn in
/-- A call of an endpoint; a task that has faulted gets no answer. -/
theorem dispatchEndpointCall_outcome (c : Syscall) (k : Kernel (Host δ)) :
    Outcome R k (dispatchEndpointCall (d.platform spawn) c k).2 := by
  have hcall := sysEndpointCall_outcome hR hspawn (d := d) c.arg0 c.arg1 c.buffer k
  unfold dispatchEndpointCall
  rw [Effect.attempt_bind, Effect.bind_of_ok Effect.get_run]
  generalize sysEndpointCall (d.platform spawn) c.arg0 c.arg1 c.buffer k = out at hcall
  by_cases hfaulted : out.2.syscall.userFaulted = true
  · rw [if_pos hfaulted]
    exact hcall
  · rw [if_neg hfaulted]
    rcases hcall with ⟨e, hfault⟩ | hstep
    · exact absurd hfault.faulted hfaulted
    · have hanswer : Effect.Within Noted (do
          notePassed out.1
          setReturnValue (statusWord out.1) : K (Host δ) Unit) :=
        (noted_notePassed _).bind fun _ => noted_setReturnValue _
      exact .inr (IsTrans.trans _ _ _ hstep (hR (hanswer out.2)))

theorem noted_userTaskCurrent : Effect.Within Noted (K.userTaskCurrent : K (Host δ) UInt64) :=
  Effect.within_ask _

theorem noted_userRingCreate (task : UInt64) (entries : UInt32) :
    Effect.Within Noted (userRingCreate task entries : K (Host δ) UInt64) := by
  refine .bind (Effect.within_require _ _) fun _ => ?_
  refine .bind (Effect.within_ask _) fun _ => ?_
  refine .bind (Effect.within_ask _) fun _ => ?_
  refine .bind (Effect.within_ask _) fun _ => ?_
  refine .bind (fun k => ⟨rfl, rfl, rfl, rfl, lasting_ringCreate _ _ _ k⟩) fun _ => ?_
  refine .bind (Effect.within_modify fun _ => ⟨rfl, rfl, rfl, rfl, .of_eq rfl⟩) fun _ => ?_
  exact Effect.within_pure _

theorem noted_userRingBind (task ring target : UInt64) :
    Effect.Within Noted (userRingBind task ring target : K (Host δ) Unit) := by
  refine .bind (Effect.within_require _ _) fun _ => ?_
  refine .bind (Effect.within_ask _) fun _ => ?_
  refine .bind (fun _ => ⟨rfl, rfl, rfl, rfl, .of_eq rfl⟩) fun _ => ?_
  exact Effect.within_modify fun _ => ⟨rfl, rfl, rfl, rfl, .of_eq rfl⟩

theorem noted_userRingTarget (task ring ptr : UInt64) (count : UInt32) :
    Effect.Within Noted (userRingTarget task ring ptr count : K (Host δ) UInt64) := by
  refine .bind (Effect.within_ask _) fun _ => ?_
  refine .bind (Effect.within_require _ _) fun _ => ?_
  refine .bind (Effect.within_ask _) fun _ => ?_
  refine .bind Effect.within_get fun _ => ?_
  refine .bind (Effect.within_require _ _) fun _ => ?_
  refine .bind (Effect.within_ask _) fun _ => ?_
  exact Effect.within_pure _

theorem noted_submitLoop (ring : UInt64) (n : Nat) :
    ∀ ptr, Effect.Within Noted (submitLoop ring n ptr : K (Host δ) Unit) := by
  induction n with
  | zero =>
    intro ptr
    exact Effect.within_pure ()
  | succ n ih =>
    intro ptr
    refine .bind (noted_userCopyFrom _ _) fun _ => ?_
    refine .bind (fun _ => ⟨rfl, rfl, rfl, rfl, .of_eq rfl⟩) fun _ => ?_
    exact ih _

theorem noted_pollLoop (ring : UInt64) (n : Nat) :
    ∀ ptr, Effect.Within Noted (pollLoop ring n ptr : K (Host δ) UInt32) := by
  induction n with
  | zero =>
    intro ptr
    exact Effect.within_pure 0
  | succ n ih =>
    intro ptr
    refine .bind (Effect.Within.attempt fun _ => ⟨rfl, rfl, rfl, rfl, .of_eq rfl⟩) fun r => ?_
    cases r with
    | error e => exact .ite (Effect.within_pure 0) (Effect.within_fail e)
    | ok completion =>
      refine .bind (noted_userCopyTo _ _) fun _ => ?_
      refine .bind (Effect.within_modify fun _ => ⟨rfl, rfl, rfl, rfl, .of_eq rfl⟩) fun _ => ?_
      refine .bind (ih _) fun _ => ?_
      exact Effect.within_pure _

theorem noted_userRingPoll (task ring ptr : UInt64) (count : UInt32) :
    Effect.Within Noted (userRingPoll task ring ptr count : K (Host δ) UInt32) := by
  refine .bind (noted_userRingTarget _ _ _ _) fun _ => ?_
  refine .bind (noted_userValidateRange _ _ _) fun _ => ?_
  exact noted_pollLoop _ _ _

/-- The message of a batch spawns nothing. -/
theorem noted_userRingSubmit (d : Peripherals δ) (spawn : K (Host δ) Unit)
    (task ring ptr : UInt64) (count : UInt32) :
    Effect.Within Noted (userRingSubmit (d.platform spawn) task ring ptr count) := by
  refine .bind (noted_userRingTarget _ _ _ _) fun target => ?_
  refine .bind (noted_userValidateRange _ _ _) fun _ => ?_
  refine .bind (noted_submitLoop _ _ _) fun _ => ?_
  intro k
  rw [Effect.bind_of_ok (show K.setMsg _ k = (.ok (), _) from rfl)]
  have hmsg : Noted k { k with msg :=
      { messageInit task 0 Msg.ringProcess with arg0 := ring, arg1 := count.toUInt64 } } :=
    ⟨rfl, rfl, rfl, rfl, .of_eq rfl⟩
  refine IsTrans.trans _ _ _ hmsg (endpointCall_steps (steps_platform id d spawn) target _ ?_ ?_)
  · exact
      { spawn := fun h => absurd h (by show (12 : UInt64) ≠ 9; decide)
        devmgr := fun _ _ => ⟨rfl, rfl, rfl, rfl, .of_eq rfl⟩
        grantTest := fun _ _ => ⟨rfl, rfl, rfl, rfl, .of_eq rfl⟩ }
  · intro _
    exact ringSteps_of_rings (fun _ _ => ⟨rfl, rfl, rfl, rfl, .of_eq rfl⟩) _

include hR hspawn in
/-- **System calls.**  A system call marks a fault, and the task does not go on,
    or is a step of `R`. -/
theorem syscallDispatch_outcome (c : Syscall) (k : Kernel (Host δ)) :
    (∃ e, Faulted e k (syscallDispatch (d.platform spawn) c k).2 ∧
      syscallLeaves c k (syscallDispatch (d.platform spawn) c k).2) ∨
    R k (syscallDispatch (d.platform spawn) c k).2 := by
  have hnoted : ∀ {m : K (Host δ) Unit}, Effect.Within Noted m →
      (∃ e, Faulted e k (m k).2 ∧ syscallLeaves c k (m k).2) ∨ R k (m k).2 :=
    fun h => .inr (hR (h k))
  -- Only a message and an unknown number can fault the program.
  apply syscallDispatch_cases
    (P := fun out => (∃ e, Faulted e k out.2 ∧ syscallLeaves c k out.2) ∨ R k out.2)
  case notReady => exact hnoted (noted_setReturnValue _)
  case debugWrite => exact fun _ => hnoted (noted_setReturnValue _)
  case call =>
    intro hnumber
    rcases dispatchEndpointCall_outcome hR hspawn c k with ⟨e, hfault⟩ | hstep
    · exact .inl ⟨e, hfault, .inr (.inr (.inr ⟨hnumber, hfault.faulted⟩))⟩
    · exact .inr hstep
  case yield =>
    intro _
    have hyield : Effect.Within Noted
        (K.outside fun k => (.ok (), (d.platform spawn).yield k)) := fun _ => ⟨rfl, rfl, rfl, rfl, .of_eq rfl⟩
    exact hnoted (hyield.bind fun _ => noted_setReturnValue _)
  case exit => exact fun _ => .inr (hR ⟨rfl, rfl, rfl, rfl, .of_eq rfl⟩)
  case grantCreate =>
    intro _
    apply hnoted
    apply noted_answerValue
    apply noted_userTaskCurrent.bind
    intro task k
    exact ⟨rfl, rfl, rfl, rfl, lasting_userGrantCreate _ _ _ _ _ k⟩
  case grantRevoke =>
    intro _
    exact hnoted (noted_answerStatus fun k => ⟨rfl, rfl, rfl, rfl, lasting_userGrantRevoke _ k⟩)
  case ringCreate =>
    intro _
    exact hnoted (noted_answerValue (noted_userTaskCurrent.bind fun _ => noted_userRingCreate _ _))
  case ringBind =>
    intro _
    exact hnoted (noted_answerStatus (noted_userTaskCurrent.bind fun _ => noted_userRingBind _ _ _))
  case ringSubmit =>
    intro _
    have hsubmit : Effect.Within Noted (do
        let task ← K.userTaskCurrent
        userRingSubmit (d.platform spawn) task c.arg0 c.arg1 c.arg2.toUInt32 : K (Host δ) Unit) :=
      noted_userTaskCurrent.bind fun _ => noted_userRingSubmit d spawn _ _ _ _
    apply hnoted
    apply hsubmit.attempt.bind
    intro status
    exact (noted_notePassed _).bind fun _ => noted_setReturnValue _
  case ringPoll =>
    intro _
    apply hnoted
    apply noted_answerValue
    apply noted_userTaskCurrent.bind
    intro _
    exact (noted_userRingPoll _ _ _ _).bind fun _ => Effect.within_pure _
  case unknown =>
    intro hnumber
    exact .inl ⟨_, faulted_markUserFault .notsup k, .inr (.inr (.inl hnumber))⟩

/-! ## Loading -/

theorem noted_callWith (d : Peripherals δ) (endpoint : UInt64) (msg : Message) (text : List UInt8) :
    Effect.Within Noted (K.callWith (d.platform noSpawn) endpoint msg text) := by
  intro k
  have hcall : Effect.Within Noted (endpointCall (d.platform noSpawn) endpoint) :=
    endpointCall_within id (Effect.within_fail _) endpoint
  have hstep := hcall { k with msg := msg, payload := text }
  have hlasting := hstep.lasting
  exact ⟨hstep.tasks, hstep.run, hstep.vmm, hstep.faulted, hlasting.tokens, hlasting.endpoints,
    hlasting.services, hlasting.initrd, hlasting.root⟩

theorem noted_loaderReadLoop (d : Peripherals δ) (vfsEndpoint file buffer size : UInt64) (n : Nat) :
    ∀ offset, Effect.Within Noted
      (loaderReadLoop (d.platform noSpawn) vfsEndpoint file buffer size n offset) := by
  induction n with
  | zero =>
    intro offset
    exact Effect.within_pure ()
  | succ n ih =>
    intro offset
    unfold loaderReadLoop
    split
    · exact Effect.within_pure ()
    · apply (noted_callWith d vfsEndpoint _ _).bind
      intro msg
      refine .bind (Effect.within_require _ _) fun _ => ?_
      exact ih _

theorem noted_loaderReadFile (d : Peripherals δ) (vfsEndpoint file buffer size : UInt64) :
    Effect.Within Noted (loaderReadFile (d.platform noSpawn) vfsEndpoint file buffer size) := by
  refine .bind (Effect.within_require _ _) fun _ => ?_
  exact noted_loaderReadLoop d vfsEndpoint file buffer size _ 0

theorem noted_loaderOpenFile (d : Peripherals δ) (vfsEndpoint path : UInt64) (text : List UInt8) :
    Effect.Within Noted (loaderOpenFile (d.platform noSpawn) vfsEndpoint path text) := by
  refine .bind (Effect.within_require _ _) fun _ => ?_
  apply (noted_callWith d vfsEndpoint _ text).bind
  intro msg
  refine .bind (Effect.within_require _ _) fun _ => ?_
  refine .bind (Effect.within_require _ _) fun _ => ?_
  exact Effect.within_pure _

theorem noted_loaderCloseFile (d : Peripherals δ) (vfsEndpoint file : UInt64) :
    Effect.Within Noted (loaderCloseFile (d.platform noSpawn) vfsEndpoint file) := by
  refine .bind (Effect.within_require _ _) fun _ => ?_
  apply (noted_callWith d vfsEndpoint _ _).bind
  intro msg
  exact Effect.within_pure ()

/-- Reading an image touches no task. -/
theorem noted_loaderReadImage (d : Peripherals δ) (answers : LoadAnswers) (text : List UInt8) :
    Effect.Within Noted (loaderReadImage (d.platform noSpawn) answers text) := by
  refine .bind (Effect.within_ask _) fun vfsEndpoint => ?_
  apply (noted_loaderOpenFile d vfsEndpoint answers.path text).bind
  intro opened
  obtain ⟨file, size⟩ := opened
  refine .bind (.attempt ?_) fun status => ?_
  · cases answers.image with
    | none => exact Effect.within_fail _
    | some image =>
      refine .bind (Effect.within_require _ _) fun _ => ?_
      apply (noted_loaderReadFile d vfsEndpoint file image size).bind
      intro _
      exact Effect.within_pure image
  apply (noted_loaderCloseFile d vfsEndpoint file).attempt.bind
  intro closed
  refine .bind (Effect.within_ask _) fun image => ?_
  refine .bind (Effect.within_ask _) fun _ => ?_
  exact Effect.within_pure _

include hR in
/-- A spawn is a step of `R` when its parts that touch tasks are. -/
theorem spawnWith_within (d : Peripherals δ) (hhdmOffset : UInt64) (answers : LoadAnswers)
    (user : K (Host δ) Unit)
    (hcreate : Effect.Within R (userTaskCreate answers.storage answers.rootPages : K (Host δ) NewTask))
    (hrun : ∀ task image size endpoint, Effect.Within R
      (userTaskRunFlat task answers.run user image size endpoint hhdmOffset))
    (hcleanup : ∀ task, Effect.Within R (K.taskCleanup task : K (Host δ) Unit)) :
    Effect.Within R (spawnWith d hhdmOffset answers user) := by
  have hnoted : ∀ {α : Type} {m : K (Host δ) α}, Effect.Within Noted m → Effect.Within R m :=
    fun h k => hR (h k)
  have hload : ∀ text endpoint, Effect.Within R
      (loaderLoadFromVfs (d.platform noSpawn) hhdmOffset answers user text endpoint) := by
    intro text endpoint
    refine .bind (Effect.within_require _ _) fun _ => ?_
    refine .bind (Effect.within_ask _) fun _ => ?_
    apply (hnoted (noted_loaderReadImage d answers text)).bind
    intro image
    apply hcreate.bind
    intro new
    refine .bind (Effect.within_require _ _) fun _ => ?_
    apply (hrun new.task image.1 image.2 endpoint).bind
    intro _
    exact Effect.within_pure _
  refine .bind (Effect.within_ask _) fun path => ?_
  refine .bind (Effect.within_ask _) fun endpoint => ?_
  -- The load runs with messages of its own.
  have haside : Effect.Within R (K.aside
      (loaderLoadFromVfs (d.platform noSpawn) hhdmOffset answers user path endpoint)) := by
    intro k
    have hstart : R k k.noMessage := hR ⟨rfl, rfl, rfl, rfl, .of_eq rfl⟩
    have hend := hload path endpoint k.noMessage
    exact IsTrans.trans _ _ _ hstart (IsTrans.trans _ _ _ hend (hR ⟨rfl, rfl, rfl, rfl, .of_eq rfl⟩))
  apply haside.bind
  intro task
  apply (hcleanup task).bind
  intro _
  exact hnoted (noted_setMsg _)

end outcome

end Scdk
