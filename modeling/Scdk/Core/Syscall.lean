import Scdk.Core.UserRing
import Scdk.Ipc.UserIpc

/-! # System calls

    Model of `scdk_syscall_dispatch` of `core/syscall_dispatch.c`. -/

namespace Scdk

variable {δ : Type}

namespace Sys

def debugWrite : UInt64 := 0
def endpointCall : UInt64 := 1
def yield : UInt64 := 2
def exit : UInt64 := 3
def grantCreate : UInt64 := 4
def grantRevoke : UInt64 := 5
def ringCreate : UInt64 := 6
def ringBind : UInt64 := 7
def ringSubmit : UInt64 := 8
def ringPoll : UInt64 := 9

end Sys

/-- The registers of a system call, and the kernel address of the buffer that
    `scdk_sys_endpoint_call` has on its stack. -/
structure Syscall where
  number : UInt64
  arg0 : UInt64
  arg1 : UInt64
  arg2 : UInt64
  arg3 : UInt64
  buffer : UInt64
  deriving DecidableEq, Repr

/-- `scdk_syscall_return_value = value` -/
def setReturnValue (value : UInt64) : K δ Unit :=
  .modify fun k => { k with syscall := { k.syscall with returnValue := value } }

/-- `endpoint_call_passed = true` on success. -/
def notePassed (status : Except Err Unit) : K δ Unit :=
  .modify fun k =>
    match status with
    | .error _ => k
    | .ok _ => { k with syscall := { k.syscall with endpointCallPassed := true } }

/-- `scdk_user_task_current` -/
def K.userTaskCurrent : K δ UInt64 := .ask fun k => Scdk.userTaskCurrent k.tasks

/-- `scdk_user_grant_create` -/
def K.userGrantCreate (sourceTask userBase length rights targetEndpoint : UInt64) : K δ UInt64 :=
  fun k =>
    let (r, objects, caps, grants) := Scdk.userGrantCreate k.objects k.caps k.grants k.vmm
      sourceTask userBase length rights targetEndpoint
    (r, { k with objects := objects, caps := caps, grants := grants })

/-- `scdk_user_grant_revoke` -/
def K.userGrantRevoke (grantCap : UInt64) : K δ Unit := fun k =>
  let (r, caps, grants) := Scdk.userGrantRevoke k.objects k.caps k.grants grantCap
  (r, { k with caps := caps, grants := grants })

/-- A case of the dispatch that returns a value to the user: the value, or the
    error code. -/
def answerValue (m : K δ UInt64) : K δ Unit := do
  match ← m.attempt with
  | .ok value => setReturnValue value
  | .error e => setReturnValue e.word

/-- A case of the dispatch that returns a status to the user. -/
def answerStatus (m : K δ Unit) : K δ Unit := do
  let status ← m.attempt
  setReturnValue (statusWord status)

/-- The case of `SCDK_SYS_ENDPOINT_CALL`; a faulted task gets no answer. -/
def dispatchEndpointCall (p : Platform δ) (c : Syscall) : K δ Unit := do
  let status ← (sysEndpointCall p c.arg0 c.arg1 c.buffer).attempt
  let k ← Effect.get
  if k.syscall.userFaulted = true then pure ()
  else do
    notePassed status
    setReturnValue (statusWord status)

/-- The case of `SCDK_SYS_RING_SUBMIT`. -/
def dispatchRingSubmit (p : Platform δ) (c : Syscall) : K δ Unit := do
  let status ← (do
    let task ← K.userTaskCurrent
    userRingSubmit p task c.arg0 c.arg1 c.arg2.toUInt32 : K δ Unit).attempt
  notePassed status
  setReturnValue (statusWord status)

/-- `scdk_syscall_dispatch`.  What the user sees is in `returnValue`. -/
def syscallDispatch (p : Platform δ) (c : Syscall) : K δ Unit := do
  let k ← Effect.get
  if k.syscall.ready = false then setReturnValue Err.notsup.word
  else if c.number = Sys.debugWrite then setReturnValue 0
  else if c.number = Sys.endpointCall then dispatchEndpointCall p c
  else if c.number = Sys.yield then do
    K.outside fun k => (.ok (), p.yield k)
    setReturnValue 0
  else if c.number = Sys.exit then
    .modify fun k => { k with syscall := { k.syscall with userExited := true, returnValue := 0 } }
  else if c.number = Sys.grantCreate then
    answerValue do
      let task ← K.userTaskCurrent
      K.userGrantCreate task c.arg0 c.arg1 c.arg2 c.arg3
  else if c.number = Sys.grantRevoke then answerStatus (K.userGrantRevoke c.arg0)
  else if c.number = Sys.ringCreate then
    answerValue do
      let task ← K.userTaskCurrent
      userRingCreate task c.arg0.toUInt32
  else if c.number = Sys.ringBind then
    answerStatus do
      let task ← K.userTaskCurrent
      userRingBind task c.arg0 c.arg1
  else if c.number = Sys.ringSubmit then dispatchRingSubmit p c
  else if c.number = Sys.ringPoll then
    answerValue do
      let task ← K.userTaskCurrent
      let polled ← userRingPoll task c.arg0 c.arg1 c.arg2.toUInt32
      pure polled.toUInt64
  else K.markUserFault .notsup

/-! ## What the cases of the dispatch do to the state -/

section run

variable (k : Kernel δ)

/-- Only the return value is added to what the call did. -/
theorem answerValue_run (m : K δ UInt64) :
    ∃ value, answerValue m k =
      (.ok (), { (m k).2 with syscall := { (m k).2.syscall with returnValue := value } }) := by
  unfold answerValue
  rw [Effect.bind_run]
  cases h : (m k).1 with
  | ok value => exact ⟨value, by simp [Effect.attempt, h, setReturnValue, Effect.modify]⟩
  | error e => exact ⟨e.word, by simp [Effect.attempt, h, setReturnValue, Effect.modify]⟩

theorem answerStatus_run (m : K δ Unit) :
    answerStatus m k =
      (.ok (), { (m k).2 with
        syscall := { (m k).2.syscall with returnValue := statusWord (m k).1 } }) := rfl

variable {k} {p : Platform δ} {c : Syscall}

theorem syscallDispatch_grantCreate (hready : k.syscall.ready = true)
    (hn : c.number = Sys.grantCreate) :
    syscallDispatch p c k =
      answerValue (do
        let task ← K.userTaskCurrent
        K.userGrantCreate task c.arg0 c.arg1 c.arg2 c.arg3) k := by
  unfold syscallDispatch
  rw [Effect.bind_of_ok (show Effect.get k = (.ok k, k) from rfl)]
  simp [hready, hn, Sys.debugWrite, Sys.endpointCall, Sys.yield, Sys.exit, Sys.grantCreate]

theorem syscallDispatch_grantRevoke (hready : k.syscall.ready = true)
    (hn : c.number = Sys.grantRevoke) :
    syscallDispatch p c k = answerStatus (K.userGrantRevoke c.arg0) k := by
  unfold syscallDispatch
  rw [Effect.bind_of_ok (show Effect.get k = (.ok k, k) from rfl)]
  simp [hready, hn, Sys.debugWrite, Sys.endpointCall, Sys.yield, Sys.exit, Sys.grantCreate,
    Sys.grantRevoke]

/-- A number that is none of those of the calls is above them. -/
theorem lt_number_of_ne {n : UInt64} (h0 : ¬ n = Sys.debugWrite) (h1 : ¬ n = Sys.endpointCall)
    (h2 : ¬ n = Sys.yield) (h3 : ¬ n = Sys.exit) (h4 : ¬ n = Sys.grantCreate)
    (h5 : ¬ n = Sys.grantRevoke) (h6 : ¬ n = Sys.ringCreate) (h7 : ¬ n = Sys.ringBind)
    (h8 : ¬ n = Sys.ringSubmit) (h9 : ¬ n = Sys.ringPoll) : Sys.ringPoll < n := by
  simp only [Sys.debugWrite, Sys.endpointCall, Sys.yield, Sys.exit, Sys.grantCreate,
    Sys.grantRevoke, Sys.ringCreate, Sys.ringBind, Sys.ringSubmit, Sys.ringPoll,
    ← UInt64.toNat_inj] at *
  rw [UInt64.lt_iff_toNat_lt]
  simp at *
  omega

/-- A property of the outcome holds if it holds in every case of the dispatch. -/
theorem syscallDispatch_cases {P : Except Err Unit × Kernel δ → Prop}
    (notReady : P (setReturnValue Err.notsup.word k))
    (debugWrite : c.number = Sys.debugWrite → P (setReturnValue 0 k))
    (call : c.number = Sys.endpointCall → P (dispatchEndpointCall p c k))
    (yield : c.number = Sys.yield → P ((do
      K.outside fun k => (.ok (), p.yield k)
      setReturnValue 0 : K δ Unit) k))
    (exit : c.number = Sys.exit → P (.ok (), { k with
      syscall := { k.syscall with userExited := true, returnValue := 0 } }))
    (grantCreate : c.number = Sys.grantCreate → P (answerValue (do
      let task ← K.userTaskCurrent
      K.userGrantCreate task c.arg0 c.arg1 c.arg2 c.arg3) k))
    (grantRevoke : c.number = Sys.grantRevoke → P (answerStatus (K.userGrantRevoke c.arg0) k))
    (ringCreate : c.number = Sys.ringCreate → P (answerValue (do
      let task ← K.userTaskCurrent
      userRingCreate task c.arg0.toUInt32) k))
    (ringBind : c.number = Sys.ringBind → P (answerStatus (do
      let task ← K.userTaskCurrent
      userRingBind task c.arg0 c.arg1) k))
    (ringSubmit : c.number = Sys.ringSubmit → P (dispatchRingSubmit p c k))
    (ringPoll : c.number = Sys.ringPoll → P (answerValue (do
      let task ← K.userTaskCurrent
      let polled ← userRingPoll task c.arg0 c.arg1 c.arg2.toUInt32
      pure polled.toUInt64) k))
    (unknown : Sys.ringPoll < c.number → P (K.markUserFault .notsup k)) :
    P (syscallDispatch p c k) := by
  unfold syscallDispatch
  rw [Effect.bind_of_ok Effect.get_run]
  by_cases hready : k.syscall.ready = false
  · rw [if_pos hready]; exact notReady
  rw [if_neg hready]
  -- The numbers are tried one after the other, as in the switch.
  by_cases h0 : c.number = Sys.debugWrite
  · rw [if_pos h0]; exact debugWrite h0
  rw [if_neg h0]
  by_cases h1 : c.number = Sys.endpointCall
  · rw [if_pos h1]; exact call h1
  rw [if_neg h1]
  by_cases h2 : c.number = Sys.yield
  · rw [if_pos h2]; exact yield h2
  rw [if_neg h2]
  by_cases h3 : c.number = Sys.exit
  · rw [if_pos h3]; exact exit h3
  rw [if_neg h3]
  by_cases h4 : c.number = Sys.grantCreate
  · rw [if_pos h4]; exact grantCreate h4
  rw [if_neg h4]
  by_cases h5 : c.number = Sys.grantRevoke
  · rw [if_pos h5]; exact grantRevoke h5
  rw [if_neg h5]
  by_cases h6 : c.number = Sys.ringCreate
  · rw [if_pos h6]; exact ringCreate h6
  rw [if_neg h6]
  by_cases h7 : c.number = Sys.ringBind
  · rw [if_pos h7]; exact ringBind h7
  rw [if_neg h7]
  by_cases h8 : c.number = Sys.ringSubmit
  · rw [if_pos h8]; exact ringSubmit h8
  rw [if_neg h8]
  by_cases h9 : c.number = Sys.ringPoll
  · rw [if_pos h9]; exact ringPoll h9
  rw [if_neg h9]
  exact unknown (lt_number_of_ne h0 h1 h2 h3 h4 h5 h6 h7 h8 h9)

/-- Every case answers the user, so that the dispatch itself does not fail. -/
theorem syscallDispatch_ok (p : Platform δ) (c : Syscall) (k : Kernel δ) :
    (syscallDispatch p c k).1 = .ok () := by
  have hvalue : ∀ m : K δ UInt64, (answerValue m k).1 = .ok () := by
    intro m
    obtain ⟨_, hrun⟩ := answerValue_run k m
    rw [hrun]
  apply syscallDispatch_cases (P := fun out => out.1 = .ok ())
  case notReady => rfl
  case debugWrite => exact fun _ => rfl
  case call =>
    intro _
    unfold dispatchEndpointCall
    rw [Effect.attempt_bind, Effect.bind_of_ok Effect.get_run]
    split
    · rfl
    · rfl
  case yield => exact fun _ => rfl
  case exit => exact fun _ => rfl
  case grantCreate => exact fun _ => hvalue _
  case grantRevoke => exact fun _ => rfl
  case ringCreate => exact fun _ => hvalue _
  case ringBind => exact fun _ => rfl
  case ringSubmit => exact fun _ => rfl
  case ringPoll => exact fun _ => hvalue _
  case unknown => exact fun _ => rfl

end run

end Scdk
