import Scdk.Boot
import Scdk.Core.RingAccounting
import Scdk.Services.HandlerTrace

/-! # The source task of the grants that are read

    Every successful `scdk_user_grant_copy_from` on behalf of a system call is in
    the trace, with the task that was current and the source task of the grant
    (`Event.grantRead`).

    * `Kernel.ForeignGrant`: a live grant of a task that is not the current one,
    * `HandsOwnGrants`: the system call hands no such grant to the console,
    * `grant_source`: in every run whose system calls do not, each grant that is
      read belongs to the task that was current. -/

namespace Scdk

variable {δ : Type}

/-! ## Reads of own grants -/

/-- If the event is the read of a grant, its source task was current. -/
def OwnRead : Event → Prop
  | .grantRead task _ source => source = task
  | _ => True

/-- `grant` is the token of a live grant with a source task that is not current. -/
def Kernel.ForeignGrant (k : Kernel δ) (grant : UInt64) : Prop :=
  ∃ ref, userGrantLookup k.objects k.caps k.grants grant Right.read true = .ok ref ∧
    (k.grants.slot ref).sourceTask ≠ k.tasks.currentUserTask

/-- A system call that hands no foreign grant to the console, neither in a
    message nor in one of the descriptors that the console gets to process. -/
structure HandsOwnGrants (k : Kernel δ) (c : Syscall) : Prop where
  message : c.number = Sys.endpointCall → (messageAt k c.arg1).type = Msg.consoleWrite →
    ¬ k.ForeignGrant (messageAt k c.arg1).arg0
  batch : c.number = Sys.ringSubmit → ∀ i,
    ringLookup k.objects k.caps k.rings c.arg0 Right.write = .ok i →
    ∀ desc ∈ (offered k i c.arg1 c.arg2.toUInt32).take c.arg2.toUInt32.toNat,
      desc.wellFormed desc.cap → ¬ k.ForeignGrant desc.grant

section reads

variable {k : Kernel δ} {p : Platform δ}

/-- The source task of a grant that is read, and is not foreign, is current. -/
theorem userGrantCopyFrom_source {endpoint grant offset length source : UInt64}
    {bytes : List UInt8}
    (h : userGrantCopyFrom k.objects k.caps k.grants k.vmm k.frames endpoint grant offset length =
      .ok (bytes, source)) (hown : ¬ k.ForeignGrant grant) : source = k.tasks.currentUserTask := by
  unfold userGrantCopyFrom userGrantCopyCheck at h
  split at h
  · cases h
  · next slot hcheck =>
    split at hcheck
    · cases hcheck
    · split at hcheck
      · cases hcheck
      · next ref hlook =>
        dsimp only at hcheck
        split at hcheck
        · cases hcheck
        split at hcheck
        · cases hcheck
        obtain rfl := Except.ok.inj hcheck
        split at h
        · cases h
        obtain ⟨_, rfl⟩ := Prod.mk.inj (Except.ok.inj h)
        by_contra hne
        exact hown ⟨ref, hlook, hne⟩

/-- `SCDK_MSG_CONSOLE_WRITE` with a grant that is not foreign. -/
theorem consoleHandleGrantWrite_own (endpoint : UInt64) (hown : ¬ k.ForeignGrant k.msg.arg0) :
    Extends OwnRead k (consoleHandleGrantWrite p endpoint k).2 := by
  unfold consoleHandleGrantWrite
  rw [Effect.bind_of_ok (show K.msg k = (.ok k.msg, k) from rfl)]
  by_cases harg : k.msg.arg0 ≠ 0
  · rw [Effect.bind_of_ok (Effect.require_pos harg _)]
    by_cases hlen : k.msg.arg2 ≠ 0 ∧ k.msg.arg2 ≤ consoleRingMaxWrite
    · rw [Effect.bind_of_ok (Effect.require_pos hlen _), Effect.bind_run, K.userGrantCopyFrom_run]
      cases hcopy : userGrantCopyFrom k.objects k.caps k.grants k.vmm k.frames endpoint k.msg.arg0
        k.msg.arg1 k.msg.arg2 with
      | error e => exact refl k
      | ok r =>
        refine ⟨[.grantRead k.tasks.currentUserTask k.msg.arg0 r.2], rfl, ?_⟩
        intro ev hev
        rw [List.mem_singleton.mp hev]
        exact userGrantCopyFrom_source hcopy hown
    · rw [Effect.bind_of_error (Effect.require_neg hlen _)]
      exact refl k
  · rw [Effect.bind_of_error (Effect.require_neg harg _)]
    exact refl k

/-- One descriptor with a grant that is not foreign. -/
theorem DescEvents.own {endpoint ring : UInt64} {desc : RingDesc} {events : List Event}
    (h : DescEvents k endpoint ring desc events)
    (hown : desc.wellFormed desc.cap → ¬ k.ForeignGrant desc.grant) : ∀ ev ∈ events, OwnRead ev := by
  rcases h with ⟨e, _, rfl⟩ | ⟨bytes, source, _, hform, hcopy, rfl⟩
  · intro ev hev
    rw [List.mem_singleton.mp hev]
    trivial
  · intro ev hev
    rcases List.mem_cons.mp hev with rfl | hev
    · trivial
    · rw [List.mem_singleton.mp hev]
      have hcap : desc.cap = endpoint := hform.2.1
      exact userGrantCopyFrom_source hcopy (hown (by rw [hcap]; exact hform))

/-- The loop of the console, over descriptors whose grants are not foreign. -/
theorem consoleRingLoop_own (endpoint ring : UInt64) (n : Nat) :
    ∀ k : Kernel δ,
      (∀ i, ringLookup k.objects k.caps k.rings ring Right.read = .ok i →
        ∀ desc ∈ (k.rings i).ring.pending.take n,
          desc.wellFormed desc.cap → ¬ k.ForeignGrant desc.grant) →
      Extends OwnRead k (consoleRingLoop p endpoint ring n k).2 := by
  induction n with
  | zero =>
    intro k _
    exact refl k
  | succ n ih =>
    intro k hown
    rcases consoleRingLoop_round p endpoint ring n k with
      ⟨e, hrun⟩ | ⟨i, devices, events, hi, hne, hevents, hrest⟩
    · rw [hrun]
      exact refl k
    have hpend := Ring.pending_popSq hne
    have hdescs := hown i hi
    rw [hpend, List.take_succ_cons] at hdescs
    have hfirst := hevents.own (hdescs _ List.mem_cons_self)
    have hstep : ∀ rings, Extends OwnRead k (k.after rings devices events) :=
      fun rings => ⟨events, rfl, hfirst⟩
    rcases hrest with ⟨⟨e, hrun⟩, _⟩ | ⟨completion, _, ⟨e, _, hrun⟩ | ⟨_, hrun⟩⟩
    · rw [hrun]
      exact hstep _
    · rw [hrun]
      exact hstep _
    · rw [hrun]
      refine IsTrans.trans _ _ _ (hstep _) (ih _ ?_)
      -- The other descriptors are those that waited behind the first.
      intro i' hi' desc hmem
      simp only [Kernel.after_objects, Kernel.after_caps, Kernel.after_rings,
        ringLookup_setRing_eq] at hi'
      obtain rfl := Except.ok.inj (hi.symm.trans hi')
      simp only [Kernel.after_rings, RingTable.setRing_ring_self] at hmem
      exact hdescs desc (List.mem_cons_of_mem _ hmem)

/-- A call with a message of type `SCDK_MSG_CONSOLE_WRITE`. -/
theorem endpointCall_own_message (endpoint : UInt64) (htype : k.msg.type = Msg.consoleWrite)
    (hown : ¬ k.ForeignGrant k.msg.arg0) : Extends OwnRead k (endpointCall p endpoint k).2 := by
  apply endpointCall_frame (R := Extends OwnRead) (fun _ _ => extends_of_eq rfl)
  intro e objectId handler forward target _ _ hvfs
  by_cases hconsole : handler = .console
  · rw [hconsole]
    show Extends OwnRead _ (consoleEndpointHandler p e (k.toTarget target)).2
    rw [consoleEndpointHandler_consoleWrite (k := k.toTarget target) p e htype]
    exact consoleHandleGrantWrite_own e hown
  · exact runHandler_extends p forward e _ hconsole hvfs fun _ _ _ _ => trivial

/-- A call with a message of type `SCDK_MSG_RING_PROCESS`. -/
theorem endpointCall_own_batch (endpoint : UInt64) (htype : k.msg.type = Msg.ringProcess)
    (hown : ∀ i, ringLookup k.objects k.caps k.rings k.msg.arg0 Right.read = .ok i →
      ∀ desc ∈ (k.rings i).ring.pending.take k.msg.arg1.toNat,
        desc.wellFormed desc.cap → ¬ k.ForeignGrant desc.grant) :
    Extends OwnRead k (endpointCall p endpoint k).2 := by
  apply endpointCall_frame (R := Extends OwnRead) (fun _ _ => extends_of_eq rfl)
  intro e objectId handler forward target _ _ hvfs
  by_cases hconsole : handler = .console
  · rw [hconsole]
    show Extends OwnRead _ (consoleEndpointHandler p e (k.toTarget target)).2
    rw [consoleEndpointHandler_ringProcess (k := k.toTarget target) p e htype]
    rcases consoleHandleRingProcess_run p e (k.toTarget target) with ⟨e', hrun⟩ | ⟨_, hrun⟩
    · rw [hrun]
      exact refl _
    · rw [hrun]
      exact consoleRingLoop_own e _ _ (k.toTarget target) hown
  · exact runHandler_extends p forward e _ hconsole hvfs fun _ _ _ _ => trivial

/-! ## System calls -/

theorem sysEndpointCall_own (endpointCap ptr buffer : UInt64)
    (hown : (messageAt k ptr).type = Msg.consoleWrite → ¬ k.ForeignGrant (messageAt k ptr).arg0) :
    Extends OwnRead k (sysEndpointCall p endpointCap ptr buffer k).2 := by
  have hval : ∀ ptr size writable, OwnRead (.validated ptr size writable) := fun _ _ _ => trivial
  rcases sysEndpointCall_run p endpointCap ptr buffer k with hq | ⟨k', events, hprep, hq⟩
  · exact hq.extends hval
  have hacc := hprep.accepted
  -- The run has four parts: the message is read, checked, delivered and answered.
  have hstart : Extends OwnRead k (k.withMessage ptr) := by
    refine ⟨_, rfl, ?_⟩
    intro ev hev
    rw [List.mem_singleton.mp hev]
    trivial
  have hcall : Extends OwnRead k' (endpointCall p endpointCap k').2 := by
    obtain ⟨arg0, hmsg⟩ := hacc.msg
    have htype : k'.msg.type = (messageAt k ptr).type := by
      rw [hmsg]
      rfl
    by_cases hwrite : (messageAt k ptr).type = Msg.consoleWrite
    · -- The message is delivered as it is.
      have hplain : ¬ (k.withMessage ptr).msg.hasText := by
        intro htext
        have heq : (k.withMessage ptr).msg.type = Msg.consoleWrite := hwrite
        rcases htext with h | h | h | h | h
        all_goals
          rw [heq] at h
          exact absurd h (by decide)
      have hsame := hacc.plain hplain
      apply endpointCall_own_message endpointCap (htype.trans hwrite)
      intro hforeign
      apply hown hwrite
      obtain ⟨ref, hlook, hne⟩ := hforeign
      rw [hacc.quiet.objects, hacc.quiet.caps, hacc.quiet.grants, hsame] at hlook
      rw [hacc.quiet.grants, hacc.quiet.current] at hne
      exact ⟨ref, hlook, hne⟩
    · -- Of the other types only the one of a submission may write for the kernel.
      apply endpointCall_extends
      · intro hbad
        rw [htype] at hbad
        rcases hbad with hbad | hbad
        · exact absurd hbad hwrite
        · -- A message of this type is refused.
          have heq : (k.withMessage ptr).msg.type = Msg.ringProcess := hbad
          exfalso
          rcases hacc.type with (h | h | h | h | h) | h | (h | h | h | h | h | h | h | h)
          all_goals
            rw [heq] at h
            exact absurd h (by decide)
      · exact fun _ _ _ => trivial
  exact IsTrans.trans _ _ _ hstart (IsTrans.trans _ _ _ (hacc.quiet.extends hval)
    (IsTrans.trans _ _ _ hcall (hq.extends hval)))

theorem userRingSubmit_own (task ring ptr : UInt64) (count : UInt32)
    (hown : ∀ i, ringLookup k.objects k.caps k.rings ring Right.write = .ok i →
      ∀ desc ∈ (offered k i ptr count).take count.toNat,
        desc.wellFormed desc.cap → ¬ k.ForeignGrant desc.grant) :
    Extends OwnRead k (userRingSubmit p task ring ptr count k).2 := by
  have hval : ∀ {events : List Event}, Validations events → ∀ ev ∈ events, OwnRead ev := by
    intro events h ev hev
    obtain ⟨ptr, size, writable, rfl⟩ := h ev hev
    trivial
  rcases userRingSubmit_run p task ring ptr count k with
    ⟨e, events, rings, hev, hrun, _⟩ | ⟨s, i, events, hev, _, _, _, _, hi, _, hrun⟩
  · rw [hrun]
    exact ⟨events, rfl, hval hev⟩
  · rw [hrun]
    refine IsTrans.trans _ _ _ (⟨events, rfl, hval hev⟩ : Extends OwnRead k _)
      (endpointCall_own_batch _ rfl ?_)
    intro i' hi' desc hmem
    have hlook : ringLookup k.objects k.caps (k.rings.setRing i ((k.rings i).ring.pushSq
        (batchAt k count.toNat ptr))) ring Right.read = .ok i' := hi'
    rw [ringLookup_setRing_eq] at hlook
    obtain rfl := ringLookup_unique hi hlook
    apply hown i hi
    have hmem' : desc ∈ (((k.rings.setRing i ((k.rings i).ring.pushSq
        (batchAt k count.toNat ptr))) i).ring.pending).take count.toUInt64.toNat := hmem
    rw [RingTable.setRing_ring_self, UInt32.toNat_toUInt64] at hmem'
    exact hmem'

theorem extends_userRingTarget (task ring ptr : UInt64) (count : UInt32) :
    Effect.Within (Extends OwnRead) (userRingTarget task ring ptr count : K δ UInt64) := by
  intro k
  rcases userRingTarget_run task ring ptr count k with ⟨e, hrun⟩ | ⟨s, _, _, _, _, hrun⟩
  · rw [hrun]
    exact refl k
  · rw [hrun]
    exact refl k

theorem extends_userValidateRange (ptr size : UInt64) (writable : Bool) :
    Effect.Within (Extends OwnRead) (K.userValidateRange ptr size writable : K δ Unit) :=
  fun k => (quiet_userValidateRange ptr size writable k).extends fun _ _ _ => trivial

theorem extends_pollLoop (ring : UInt64) (n : Nat) (ptr : UInt64) :
    Effect.Within (Extends OwnRead) (pollLoop ring n ptr : K δ UInt32) := by
  induction n generalizing ptr with
  | zero => exact Effect.within_pure 0
  | succ n ih =>
    refine .bind (Effect.Within.attempt fun _ => extends_of_eq rfl) fun r => ?_
    cases r with
    | error e => exact .ite (Effect.within_pure 0) (Effect.within_fail e)
    | ok completion =>
      refine .bind (fun k => (quiet_userCopyTo ptr _ k).extends fun _ _ _ => trivial) fun _ => ?_
      refine .bind (extends_emit trivial) fun _ => ?_
      refine .bind (ih _) fun _ => ?_
      exact Effect.within_pure _

theorem extends_userRingPoll (task ring ptr : UInt64) (count : UInt32) :
    Effect.Within (Extends OwnRead) (userRingPoll task ring ptr count : K δ UInt32) := by
  refine .bind (extends_userRingTarget _ _ _ _) fun _ => ?_
  refine .bind (extends_userValidateRange _ _ _) fun _ => ?_
  exact extends_pollLoop _ _ _

theorem extends_setReturnValue (value : UInt64) :
    Effect.Within (Extends OwnRead) (setReturnValue value : K δ Unit) :=
  fun _ => extends_of_eq rfl

theorem extends_notePassed (status : Except Err Unit) :
    Effect.Within (Extends OwnRead) (notePassed status : K δ Unit) := by
  intro k
  cases status with
  | error e => exact extends_of_eq rfl
  | ok u => exact extends_of_eq rfl

theorem extends_answerValue {m : K δ UInt64} (h : Effect.Within (Extends OwnRead) m) :
    Effect.Within (Extends OwnRead) (answerValue m) := by
  refine .bind h.attempt fun r => ?_
  cases r with
  | error e => exact extends_setReturnValue _
  | ok value => exact extends_setReturnValue _

theorem extends_answerStatus {m : K δ Unit} (h : Effect.Within (Extends OwnRead) m) :
    Effect.Within (Extends OwnRead) (answerStatus m) :=
  .bind h.attempt fun _ => extends_setReturnValue _

/-- One system call. -/
theorem syscallDispatch_own {c : Syscall} (h : HandsOwnGrants k c) :
    Extends OwnRead k (syscallDispatch p c k).2 := by
  have htask : Effect.Within (Extends OwnRead) (K.userTaskCurrent : K δ UInt64) :=
    Effect.within_ask _
  apply syscallDispatch_cases (P := fun out => Extends OwnRead k out.2)
  case notReady => exact extends_setReturnValue _ k
  case debugWrite => exact fun _ => extends_setReturnValue _ k
  case call =>
    intro hn
    unfold dispatchEndpointCall
    rw [Effect.attempt_bind]
    -- The message may hand a grant to the console, which reads it then.
    refine IsTrans.trans _ _ _
      (sysEndpointCall_own (p := p) c.arg0 c.arg1 c.buffer (h.message hn)) ?_
    refine Effect.Within.bind Effect.within_get (fun _ => ?_) _
    refine .ite (Effect.within_pure ()) ?_
    exact .bind (extends_notePassed _) fun _ => extends_setReturnValue _
  case yield =>
    intro _
    exact Effect.Within.bind (extends_outside _) (fun _ => extends_setReturnValue _) k
  case exit => exact fun _ => extends_of_eq rfl
  case grantCreate =>
    intro _
    refine extends_answerValue (.bind htask fun _ => ?_) k
    exact fun _ => extends_of_eq rfl
  case grantRevoke =>
    intro _
    exact extends_answerStatus (fun _ => extends_of_eq rfl) k
  case ringCreate =>
    intro _
    refine extends_answerValue (.bind htask fun _ => ?_) k
    refine .bind (Effect.within_require _ _) fun _ => ?_
    refine .bind (Effect.within_ask _) fun _ => ?_
    refine .bind (Effect.within_ask _) fun _ => ?_
    refine .bind (Effect.within_ask _) fun _ => ?_
    refine .bind (fun _ => extends_of_eq rfl) fun _ => ?_
    refine .bind (fun _ => extends_of_eq rfl) fun _ => ?_
    exact Effect.within_pure _
  case ringBind =>
    intro _
    refine extends_answerStatus (.bind htask fun _ => ?_) k
    refine .bind (Effect.within_require _ _) fun _ => ?_
    refine .bind (Effect.within_ask _) fun _ => ?_
    refine .bind (fun _ => extends_of_eq rfl) fun _ => ?_
    exact fun _ => extends_of_eq rfl
  case ringSubmit =>
    intro hn
    unfold dispatchRingSubmit
    rw [Effect.attempt_bind]
    refine IsTrans.trans _ _ _ ?_
      (Effect.Within.bind (extends_notePassed _) (fun _ => extends_setReturnValue _) _)
    -- The batch is submitted for the current task, if there is one.
    unfold K.userTaskCurrent
    rw [Effect.ask_bind]
    cases userTaskCurrent k.tasks with
    | error e => exact refl k
    | ok task => exact userRingSubmit_own task _ _ _ (h.batch hn)
  case ringPoll =>
    intro _
    refine extends_answerValue (.bind htask fun _ => ?_) k
    exact .bind (extends_userRingPoll _ _ _ _) fun _ => Effect.within_pure _
  case unknown =>
    intro _
    exact extends_of_eq rfl

end reads

/-! ## Runs -/

/-- A kernel that has read no grant. -/
def NoReads (k : Kernel δ) : Prop := k.trace = []

/-- Steps whose system calls hand no foreign grant to the console. -/
def StepsHandOwn (w : World δ) : UserStep → Prop
  | .syscall c => HandsOwnGrants w.kernel c
  | _ => True

/-- **Grants of the current task.**  In every run whose system calls hand no
    foreign grant to the console, every grant that was read on behalf of a task
    has that task as its source task. -/
theorem grant_source (p : Platform δ) {log : List (UserStep × UInt64)} {w : World δ}
    (hrun : (userSystem p NoReads).RunWhen StepsHandOwn log w)
    {task grant source : UInt64} (hread : .grantRead task grant source ∈ w.kernel.trace) :
    source = task := by
  have hinv : ∀ ev ∈ w.kernel.trace, OwnRead ev := by
    apply hrun.invariant (P := fun w => ∀ ev ∈ w.kernel.trace, OwnRead ev)
    · -- The trace starts empty, and each step adds reads of own grants only.
      intro w hinit ev hev
      rw [hinit.1] at hev
      exact absurd hev List.not_mem_nil
    · intro w s hw hs
      cases s with
      | syscall c =>
        obtain ⟨events, htrace, hown⟩ := syscallDispatch_own (p := p) hs
        intro ev hev
        have hmem : ev ∈ (syscallDispatch p c w.kernel).2.trace := hev
        rw [htrace] at hmem
        rcases List.mem_append.mp hmem with hmem | hmem
        · exact hw ev hmem
        · exact hown ev hmem
      | enter t root => exact hw
      | leave =>
        show ∀ ev ∈ (userStep p w .leave).2.kernel.trace, OwnRead ev
        unfold userStep
        cases w.nest with
        | nil => exact hw
        | cons saved nest => exact hw
      | memory frames tables => exact hw
      | newTask i =>
        obtain ⟨objects, caps, hnew, _⟩ := K.newTask_run w.kernel i
        show ∀ ev ∈ (K.newTask i w.kernel).2.trace, OwnRead ev
        rw [hnew]
        exact hw
  exact hinv _ hread

/-! ### Two tasks and a grant -/

theorem noReads_machine (initrd : Initrd) : NoReads (machine initrd) := by
  show (machine initrd).trace = []
  apply within_startServices (P := fun k => k.trace = []) _ _ _ _ rfl
  · exact fun _ _ _ h => h
  · exact fun _ _ _ h => h
  · exact fun _ _ h => h

/-- The words of a console message that writes eight bytes of the grant with the
    token of slot 6. -/
def grantMessage : Frames :=
  framesOfWords 0x6000 [0, Service.console, Msg.consoleWrite, firstToken 6, 0, 8, 0, 0]

/-- The first task grants sixteen bytes to the console. -/
def grantToConsole : List UserStep :=
  [.newTask 0, .newTask 1, .enter (firstToken 4) 0x1000,
    .syscall ⟨Sys.grantCreate, 0x200000, 16, Right.read, firstToken 0, 0⟩,
    .memory grantMessage flatTables]

/-- The current task hands the grant to the console. -/
def handGrant : UserStep := .syscall ⟨Sys.endpointCall, firstToken 0, 0x201000, 0, 0, 0⟩

def grantUser : System (World Unit) UserStep UInt64 := userSystem quietPlatform NoReads

theorem grantUser_init : grantUser.init ⟨machine ⟨[], true⟩, []⟩ := ⟨noReads_machine _, rfl⟩

def afterGrantToConsole : World Unit :=
  grantUser.exec ⟨machine ⟨[], true⟩, []⟩ grantToConsole

theorem run_grantToConsole : ∃ log, grantUser.RunWhen StepsHandOwn log afterGrantToConsole := by
  apply (System.RunWhen.init grantUser_init).exec
  refine ⟨trivial, trivial, trivial, ⟨fun h => ?_, fun h => ?_⟩, trivial, trivial⟩
  · exact absurd h (by decide)
  · exact absurd h (by decide)

/-- The grant belongs to the task that is current. -/
theorem grantToConsole_own : ¬ afterGrantToConsole.kernel.ForeignGrant (firstToken 6) := by
  intro hforeign
  obtain ⟨ref, hlook, hne⟩ := hforeign
  have hfirst : userGrantLookup afterGrantToConsole.kernel.objects afterGrantToConsole.kernel.caps
      afterGrantToConsole.kernel.grants (firstToken 6) Right.read true = .ok (.user 0) := by
    decide +kernel
  obtain rfl := Except.ok.inj (hlook.symm.trans hfirst)
  exact hne (by decide +kernel)

/-- The task that gave the grant hands it over: the console reads the grant, and reads it
    for its owner only. -/
theorem grant_source_own :
    (∃ source, .grantRead (firstToken 4) (firstToken 6) source ∈
        (grantUser.step afterGrantToConsole handGrant).2.kernel.trace) ∧
      ∀ source, .grantRead (firstToken 4) (firstToken 6) source ∈
        (grantUser.step afterGrantToConsole handGrant).2.kernel.trace → source = firstToken 4 := by
  have hread : .grantRead (firstToken 4) (firstToken 6) (firstToken 4) ∈
      (grantUser.step afterGrantToConsole handGrant).2.kernel.trace := by
    decide +kernel
  have hhand : StepsHandOwn afterGrantToConsole handGrant := by
    have hgrant : (messageAt afterGrantToConsole.kernel 0x201000).arg0 = firstToken 6 := by
      decide +kernel
    refine ⟨fun _ _ => ?_, fun h => absurd h (by decide)⟩
    exact hgrant.symm ▸ grantToConsole_own
  obtain ⟨log, hrun⟩ := run_grantToConsole
  refine ⟨⟨_, hread⟩, fun source hsource => ?_⟩
  exact grant_source quietPlatform (hrun.step handGrant hhand) hsource

/-- While the task that gave the grant waits, another one hands it over. -/
theorem grant_source_fails :
    ¬ ∀ (log : List (UserStep × UInt64)) (w : World Unit) (task grant source : UInt64),
      grantUser.Run log w → .grantRead task grant source ∈ w.kernel.trace → source = task := by
  intro hall
  have hguard : grantUser.Guarded (fun _ _ => True) ⟨machine ⟨[], true⟩, []⟩
      (grantToConsole ++ [.enter (firstToken 5) 0x1000, handGrant]) :=
    ⟨trivial, trivial, trivial, trivial, trivial, trivial, trivial, trivial⟩
  obtain ⟨log, hrun⟩ := (System.RunWhen.init grantUser_init).exec hguard
  have hread : .grantRead (firstToken 5) (firstToken 6) (firstToken 4) ∈
      (grantUser.exec ⟨machine ⟨[], true⟩, []⟩
        (grantToConsole ++ [.enter (firstToken 5) 0x1000, handGrant])).kernel.trace := by
    decide +kernel
  have heq := hall log _ _ _ _ hrun hread
  exact absurd heq (by decide)

end Scdk
