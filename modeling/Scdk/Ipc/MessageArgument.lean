import Scdk.Ipc.UserIpc
import Scdk.Lib.TwoRuns
import Scdk.Services.HandlerFrame
import Scdk.Services.Proc

/-! # What handlers do to the first argument of a message

    A message with a text has the address of the text in `arg0`.  The handlers
    test it and read the text, and some of them put their answer there.

    * `Kernel.withArg0`: the state with another address,
    * one predicate for each handler that answers in `arg0`, of the state it
      starts in (`OpenAnswers`, `StatAnswers`, `ListdirAnswers`, `SpawnAnswers`),
    * one lemma for each handler (`Effect.Splits`): with an answer the address is
      forgotten, and without one it is still in the message,
    * `endpointCall_splits`: the same for a call of a service. -/

namespace Scdk

variable {δ : Type}

/-- The state with another address in `arg0`. -/
def Kernel.withArg0 (k : Kernel δ) (address : UInt64) : Kernel δ :=
  { k with msg := { k.msg with arg0 := address } }

/-- The change of the address. -/
abbrev readdress (address : UInt64) : Kernel δ → Kernel δ := fun k => k.withArg0 address

/-! ## Answers -/

/-- `tmpfs_handle_open` answers a file. -/
def OpenAnswers (k : Kernel δ) : Prop :=
  ∃ path, tmpfsPathFromMessage k = .ok path ∧
  ∃ backing, initrdFind k.initrd path = .ok backing ∧
  ∃ i, allocOpenFileSlot k = .ok i ∧
  ∃ id objects, objectCreate k.objects ObjType.file bootCore 0 (.file i) = (.ok id, objects) ∧
  ∃ cap, (capCreate objects k.caps id Right.read).1 = .ok cap

/-- `tmpfs_handle_stat` answers a type and a size. -/
def StatAnswers (k : Kernel δ) : Prop :=
  ∃ path, tmpfsPathFromMessage k = .ok path ∧ ∃ r, initrdStat k.initrd path = .ok r

/-- `tmpfs_handle_listdir` answers entries. -/
def ListdirAnswers (k : Kernel δ) : Prop :=
  (k.msg.arg2 ≠ 0 ∧ direntSize ≤ k.msg.arg3) ∧
  ∃ path, tmpfsPathFromMessage k = .ok path ∧
  ∃ queryLen, initrdListdirCheck k.initrd path (k.msg.arg3 / direntSize) = .ok queryLen ∧
    (listdirLoop path queryLen (k.msg.arg3 / direntSize) k.initrd.files []).1 = .ok ()

/-- The tmpfs answers a message with a text. -/
def TmpfsAnswers (k : Kernel δ) : Prop :=
  (k.msg.type = Msg.openFile ∧ OpenAnswers k) ∨ (k.msg.type = Msg.stat ∧ StatAnswers k) ∨
    (k.msg.type = Msg.listdir ∧ ListdirAnswers k)

/-- `proc_handle_spawn` answers a task: the load succeeds, and the task is
    cleaned up. -/
def SpawnAnswers (load : List UInt8 → UInt64 → K δ UInt64) (k : Kernel δ) : Prop :=
  ∃ path, boundedPathFromMessage k = .ok path ∧
  ∃ endpoint, bootstrapEndpoint k = .ok endpoint ∧
  ∃ task k', load path endpoint k.noMessage = (.ok task, k') ∧ (taskCleanup k'.tasks task).1 = .ok ()

/-- The VFS forwards a path below its root to the tmpfs mounted there, which
    answers. -/
def VfsAnswers (k : Kernel δ) : Prop :=
  pathUnderRoot k.payload ∧ k.rootTmpfsEndpoint ≠ 0 ∧
  (∃ id, endpointTarget k.objects k.caps k.endpoints k.rootTmpfsEndpoint = .ok (id, .tmpfs)) ∧
  TmpfsAnswers k

/-- A handler puts an answer in `arg0`. -/
def HandlerAnswers (load : List UInt8 → UInt64 → K δ UInt64) (k : Kernel δ) : Handler → Prop
  | .vfs => VfsAnswers k
  | .proc => k.msg.type = Msg.processSpawn ∧ SpawnAnswers load k
  | _ => False

/-- The service behind an endpoint puts an answer in `arg0`. -/
def Answered (load : List UInt8 → UInt64 → K δ UInt64) (endpoint : UInt64) (k : Kernel δ) : Prop :=
  ∃ id handler, endpointTarget k.objects k.caps k.endpoints endpoint = .ok (id, handler) ∧
    HandlerAnswers load k handler

/-- The endpoint is one of the console, the VFS, the process service or the
    session, and what is mounted at the root of the VFS is a tmpfs. -/
structure Served (k : Kernel δ) (endpoint : UInt64) : Prop where
  service : ∀ id handler,
    endpointTarget k.objects k.caps k.endpoints endpoint = .ok (id, handler) →
    handler = .console ∨ handler = .vfs ∨ handler = .proc ∨ handler = .session
  mounted : ∀ id handler,
    endpointTarget k.objects k.caps k.endpoints k.rootTmpfsEndpoint = .ok (id, handler) →
    handler = .tmpfs

/-! ## The tmpfs -/

section tmpfs

variable {k : Kernel δ} {b : UInt64}

theorem tmpfsPathFromMessage_withArg0 (h0 : k.msg.arg0 ≠ 0) (hb : b ≠ 0) :
    tmpfsPathFromMessage (readdress b k) = tmpfsPathFromMessage k := by
  have hb' : ¬ (readdress b k).msg.arg0 = 0 := hb
  unfold tmpfsPathFromMessage
  rw [if_neg h0, if_neg hb']
  rfl

/-- The record of the file and the answer, for the capability that was made. -/
theorem openAnswer_splits (i : Fin tmpfsMaxOpenFiles) (backing : InitrdFile) (objectId : UInt64)
    (r : Except Err UInt64) :
    Effect.Splits (readdress b) (∃ cap, r = .ok cap)
      (match r with
        | .error e => do
          setFile i fun f => { f with objectId := 0 }
          Effect.fail e
        | .ok cap => do
          setFile i fun _ => ⟨objectId, cap, backing, true⟩
          K.setMsg fun m => { m with arg0 := cap, arg1 := backing.size } : K δ Unit) k := by
  cases r with
  | error e =>
    have hcarries : Effect.Carries (readdress b)
        (do setFile i fun f => { f with objectId := 0 }
            Effect.fail e : K δ Unit) k := rfl
    exact hcarries.splits.congr (by simp)
  | ok cap =>
    have hforgets : Effect.Forgets (readdress b)
        (do setFile i fun _ => ⟨objectId, cap, backing, true⟩
            K.setMsg fun m => { m with arg0 := cap, arg1 := backing.size } : K δ Unit) k := rfl
    exact hforgets.splits.congr (by simp)

theorem tmpfsHandleOpen_splits (h0 : k.msg.arg0 ≠ 0) (hb : b ≠ 0) :
    Effect.Splits (readdress b) (OpenAnswers k) (tmpfsHandleOpen : K δ Unit) k := by
  apply Effect.Splits.ask_bind (tmpfsPathFromMessage_withArg0 h0 hb)
  intro path _
  apply Effect.Splits.ask_bind (f := fun k : Kernel δ => initrdFind k.initrd path) rfl
  intro backing _
  apply Effect.Splits.ask_bind (f := allocOpenFileSlot) rfl
  intro i _
  -- The object and the capability are made whatever the address is.
  have hobject : Effect.Carries (readdress b)
      (K.objectCreate ObjType.file bootCore 0 (.file i) : K δ UInt64) k := rfl
  refine Effect.Splits.congr (Effect.Splits.bind
    (A := fun id k₁ => ∃ cap, (capCreate k₁.objects k₁.caps id Right.read).1 = .ok cap)
    hobject fun id k₁ _ => ?_) ?_
  · have hcap : Effect.Carries (readdress b) (K.capCreate id Right.read : K δ UInt64).attempt k₁ :=
      rfl
    refine Effect.Splits.congr (Effect.Splits.bind hcap fun r k₂ _ =>
      openAnswer_splits i backing id r) ?_
    constructor
    · rintro ⟨cap, hcap⟩
      exact ⟨_, _, rfl, cap, hcap⟩
    · rintro ⟨r, k₂, hrun, cap, rfl⟩
      exact ⟨cap, (Except.ok.inj (congrArg Prod.fst hrun))⟩
  · constructor
    · rintro ⟨id, objects, hcreate, hcap⟩
      refine ⟨id, { k with objects := objects }, ?_, hcap⟩
      unfold K.objectCreate
      rw [hcreate]
    · rintro ⟨id, k₁, hcreate, hcap⟩
      unfold K.objectCreate at hcreate
      rcases hobjects : objectCreate k.objects ObjType.file bootCore 0 (.file i) with ⟨r, objects⟩
      rw [hobjects] at hcreate
      obtain ⟨rfl, rfl⟩ := Prod.mk.inj hcreate
      exact ⟨id, objects, rfl, hcap⟩

theorem tmpfsHandleStat_splits (h0 : k.msg.arg0 ≠ 0) (hb : b ≠ 0) :
    Effect.Splits (readdress b) (StatAnswers k) (tmpfsHandleStat : K δ Unit) k := by
  apply Effect.Splits.ask_bind (tmpfsPathFromMessage_withArg0 h0 hb)
  intro path _
  have hstat := Effect.Splits.ask_bind (T := readdress b) (s := k) (A := fun _ => True)
    (f := fun k : Kernel δ => initrdStat k.initrd path)
    (g := fun r => K.setMsg fun m => { m with arg0 := r.1, arg1 := r.2, arg2 := 0, arg3 := 0 }) rfl
    fun r _ => (Effect.forgets_modify rfl).splits
  exact hstat.congr (by simp)

theorem tmpfsHandleListdir_splits (h0 : k.msg.arg0 ≠ 0) (hb : b ≠ 0) :
    Effect.Splits (readdress b) (ListdirAnswers k) (tmpfsHandleListdir : K δ Unit) k := by
  apply Effect.Splits.read_bind rfl
  apply Effect.Splits.require_bind
  intro _
  apply Effect.Splits.ask_bind (tmpfsPathFromMessage_withArg0 h0 hb)
  intro path _
  dsimp only
  apply Effect.Splits.ask_bind
    (f := fun j : Kernel δ => initrdListdirCheck j.initrd path (k.msg.arg3 / direntSize)) rfl
  intro queryLen _
  apply Effect.Splits.get_bind rfl
  rcases listdirLoop path queryLen (k.msg.arg3 / direntSize) k.initrd.files [] with ⟨status, entries⟩
  -- The entries are stored whatever the address is.
  dsimp only
  cases status with
  | error e =>
    have hcarries : Effect.Carries (readdress b) (do
        K.store k.msg.arg2 (List.replicate (direntSize * (k.msg.arg3 / direntSize)).toNat 0)
        K.store k.msg.arg2 (entries.flatMap Dirent.toBytes)
        K.emit (.copied k.msg.arg2 (direntSize * (k.msg.arg3 / direntSize)))
        .ask fun _ => .error e
        K.setMsg fun m =>
          { m with arg0 := UInt64.ofNat entries.length, arg1 := 0, arg2 := 0, arg3 := 0 } :
          K δ Unit) k := rfl
    exact hcarries.splits.congr (by simp)
  | ok u =>
    have hforgets : Effect.Forgets (readdress b) (do
        K.store k.msg.arg2 (List.replicate (direntSize * (k.msg.arg3 / direntSize)).toNat 0)
        K.store k.msg.arg2 (entries.flatMap Dirent.toBytes)
        K.emit (.copied k.msg.arg2 (direntSize * (k.msg.arg3 / direntSize)))
        .ask fun _ => .ok u
        K.setMsg fun m =>
          { m with arg0 := UInt64.ofNat entries.length, arg1 := 0, arg2 := 0, arg3 := 0 } :
          K δ Unit) k := rfl
    exact hforgets.splits.congr (by simp)

/-- A message with a text of a type that the tmpfs has. -/
theorem tmpfsEndpointHandler_splits (h0 : k.msg.arg0 ≠ 0) (hb : b ≠ 0)
    (htype : k.msg.type = Msg.openFile ∨ k.msg.type = Msg.stat ∨ k.msg.type = Msg.listdir) :
    Effect.Splits (readdress b) (TmpfsAnswers k) (tmpfsEndpointHandler : K δ Unit) k := by
  apply Effect.Splits.read_bind rfl
  rcases htype with h | h | h
  · rw [if_pos h]
    apply (tmpfsHandleOpen_splits h0 hb).congr
    unfold TmpfsAnswers
    rw [h]
    simp [Msg.openFile, Msg.stat, Msg.listdir]
  · rw [h, if_neg (by decide), if_pos rfl]
    apply (tmpfsHandleStat_splits h0 hb).congr
    unfold TmpfsAnswers
    rw [h]
    simp [Msg.openFile, Msg.stat, Msg.listdir]
  · rw [h, if_neg (by decide), if_neg (by decide), if_pos rfl]
    apply (tmpfsHandleListdir_splits h0 hb).congr
    unfold TmpfsAnswers
    rw [h]
    simp [Msg.openFile, Msg.stat, Msg.listdir]

end tmpfs

/-! ## Calls -/

section calls

variable {k : Kernel δ} {b : UInt64} {A : Prop}

/-- Delivering a message, by what its handler does to it. -/
theorem deliver_splits {handle : Handler → UInt64 → K δ Unit} {endpoint : UInt64}
    {B : Handler → Prop}
    (h : ∀ id handler, endpointTarget k.objects k.caps k.endpoints endpoint = .ok (id, handler) →
      Effect.Splits (readdress b) (B handler) (handle handler endpoint) (k.toTarget id)) :
    Effect.Splits (readdress b)
      (∃ id handler, endpointTarget k.objects k.caps k.endpoints endpoint = .ok (id, handler) ∧
        B handler) (deliver handle endpoint) k := by
  constructor
  · rintro ⟨id, handler, htarget, hanswer⟩
    have hrun := (h id handler htarget).forgets hanswer
    have htarget' : endpointTarget (readdress b k).objects (readdress b k).caps
        (readdress b k).endpoints endpoint = .ok (id, handler) := htarget
    unfold Effect.Forgets at hrun ⊢
    rw [deliver_of_target htarget, deliver_of_target htarget',
      show (readdress b k).toTarget id = readdress b (k.toTarget id) from rfl, hrun]
  · intro hno
    -- Without a target the call fails the same way on both messages.
    cases htarget : endpointTarget k.objects k.caps k.endpoints endpoint with
    | error e =>
      have htarget' : endpointTarget (readdress b k).objects (readdress b k).caps
          (readdress b k).endpoints endpoint = .error e := htarget
      unfold Effect.Carries
      rw [deliver_of_error htarget, deliver_of_error htarget']
      rfl
    | ok r =>
      obtain ⟨id, handler⟩ := r
      have hrun := (h id handler htarget).carries fun hanswer => hno ⟨id, handler, htarget, hanswer⟩
      have htarget' : endpointTarget (readdress b k).objects (readdress b k).caps
          (readdress b k).endpoints endpoint = .ok (id, handler) := htarget
      unfold Effect.Carries at hrun ⊢
      rw [deliver_of_target htarget, deliver_of_target htarget',
        show (readdress b k).toTarget id = readdress b (k.toTarget id) from rfl, hrun]
      rfl

/-- A forward is the call of the mounted endpoint, with another target. -/
theorem vfsForwardToTmpfs_run {call : UInt64 → K δ Unit} (h : k.rootTmpfsEndpoint ≠ 0) :
    vfsForwardToTmpfs call k =
      ((call k.rootTmpfsEndpoint (k.toTarget Service.tmpfs)).1,
        (call k.rootTmpfsEndpoint (k.toTarget Service.tmpfs)).2.toTarget Service.vfs) := by
  unfold vfsForwardToTmpfs
  rw [Effect.bind_of_ok Effect.get_run, Effect.bind_of_ok (Effect.require_pos h _)]
  rfl

theorem vfsForwardToTmpfs_splits {call : UInt64 → K δ Unit}
    (h : Effect.Splits (readdress b) A (call k.rootTmpfsEndpoint) (k.toTarget Service.tmpfs)) :
    Effect.Splits (readdress b) (k.rootTmpfsEndpoint ≠ 0 ∧ A) (vfsForwardToTmpfs call) k := by
  have hsame : (readdress b k).toTarget Service.tmpfs = readdress b (k.toTarget Service.tmpfs) := rfl
  constructor
  · rintro ⟨hroot, ha⟩
    have hroot' : (readdress b k).rootTmpfsEndpoint ≠ 0 := hroot
    have hrun := h.forgets ha
    unfold Effect.Forgets at hrun ⊢
    rw [vfsForwardToTmpfs_run hroot, vfsForwardToTmpfs_run hroot', hsame]
    show ((call k.rootTmpfsEndpoint _).1, Kernel.toTarget (call k.rootTmpfsEndpoint _).2 _) = _
    rw [hrun]
  · intro hno
    by_cases hroot : k.rootTmpfsEndpoint ≠ 0
    · have hroot' : (readdress b k).rootTmpfsEndpoint ≠ 0 := hroot
      have hrun := h.carries fun ha => hno ⟨hroot, ha⟩
      unfold Effect.Carries at hrun ⊢
      rw [vfsForwardToTmpfs_run hroot, vfsForwardToTmpfs_run hroot', hsame]
      show ((call k.rootTmpfsEndpoint _).1, Kernel.toTarget (call k.rootTmpfsEndpoint _).2 _) = _
      rw [hrun]
      rfl
    · have hroot' : ¬ (readdress b k).rootTmpfsEndpoint ≠ 0 := hroot
      unfold Effect.Carries vfsForwardToTmpfs
      rw [Effect.bind_of_ok Effect.get_run, Effect.bind_of_error (Effect.require_neg hroot' _),
        Effect.bind_of_ok Effect.get_run, Effect.bind_of_error (Effect.require_neg hroot _)]

/-- The VFS on a message with a path: the path has to be below the root. -/
theorem vfsEndpointHandler_run {forward : K δ Unit} (h0 : k.msg.arg0 ≠ 0)
    (htype : k.msg.type = Msg.openFile ∨ k.msg.type = Msg.stat ∨ k.msg.type = Msg.listdir) :
    vfsEndpointHandler forward k =
      (Effect.require (pathUnderRoot k.payload) .noent >>= fun _ => forward) k := by
  unfold vfsEndpointHandler
  rw [Effect.bind_of_ok Effect.get_run]
  by_cases hopen : k.msg.type = Msg.openFile
  · rw [if_pos hopen, Effect.bind_of_ok (Effect.require_pos h0 _)]
  · have hpath : k.msg.type = Msg.stat ∨ k.msg.type = Msg.listdir := by
      rcases htype with h | h
      · exact absurd h hopen
      · exact h
    rw [if_neg hopen, if_pos hpath]
    by_cases hroot : pathUnderRoot k.payload
    · rw [Effect.bind_of_ok (Effect.require_pos ⟨h0, hroot⟩ _),
        Effect.bind_of_ok (Effect.require_pos hroot _)]
    · rw [Effect.bind_of_error (Effect.require_neg (fun h => hroot h.2) _),
        Effect.bind_of_error (Effect.require_neg hroot _)]

theorem vfsEndpointHandler_splits {forward : K δ Unit} (h0 : k.msg.arg0 ≠ 0) (hb : b ≠ 0)
    (htype : k.msg.type = Msg.openFile ∨ k.msg.type = Msg.stat ∨ k.msg.type = Msg.listdir)
    (h : Effect.Splits (readdress b) A forward k) :
    Effect.Splits (readdress b) (pathUnderRoot k.payload ∧ A) (vfsEndpointHandler forward) k := by
  have hrest : Effect.Splits (readdress b) (pathUnderRoot k.payload ∧ A)
      (Effect.require (pathUnderRoot k.payload) .noent >>= fun _ => forward) k :=
    Effect.Splits.require_bind fun _ => h
  have hrun' : vfsEndpointHandler forward (readdress b k) =
      (Effect.require (pathUnderRoot k.payload) .noent >>= fun _ => forward) (readdress b k) :=
    vfsEndpointHandler_run (k := readdress b k) hb htype
  constructor
  · intro ha
    unfold Effect.Forgets
    rw [hrun', vfsEndpointHandler_run h0 htype]
    exact hrest.forgets ha
  · intro ha
    unfold Effect.Carries
    rw [hrun', vfsEndpointHandler_run h0 htype]
    exact hrest.carries ha

/-- A message with a text of another type is refused. -/
theorem vfsEndpointHandler_refuses {forward : K δ Unit}
    (htype : k.msg.type = Msg.write ∨ k.msg.type = Msg.processSpawn) :
    vfsEndpointHandler forward k = (.error .notsup, k) := by
  unfold vfsEndpointHandler
  rw [Effect.bind_of_ok Effect.get_run]
  rcases htype with h | h
  all_goals
    rw [h, if_neg (by decide), if_neg (by decide), if_neg (by decide)]
    rfl

/-! ## The other services -/

theorem boundedPathFromMessage_withArg0 (h0 : k.msg.arg0 ≠ 0) (hb : b ≠ 0) :
    boundedPathFromMessage (readdress b k) = boundedPathFromMessage k := by
  have hb' : ¬ (readdress b k).msg.arg0 = 0 := hb
  unfold boundedPathFromMessage
  rw [if_neg h0, if_neg hb']
  rfl

theorem procHandleSpawn_splits (load : List UInt8 → UInt64 → K δ UInt64) (h0 : k.msg.arg0 ≠ 0)
    (hb : b ≠ 0) :
    Effect.Splits (readdress b) (SpawnAnswers load k) (procHandleSpawn load) k := by
  apply Effect.Splits.ask_bind (boundedPathFromMessage_withArg0 h0 hb)
  intro path _
  apply Effect.Splits.ask_bind (f := bootstrapEndpoint) rfl
  intro endpoint _
  -- The load has messages of its own.
  have haside : Effect.Carries (readdress b) (K.aside (load path endpoint)) k := rfl
  refine Effect.Splits.congr (Effect.Splits.bind
    (A := fun task k₁ => (taskCleanup k₁.tasks task).1 = .ok ()) haside fun task k₁ _ => ?_) ?_
  · have hcleanup : Effect.Carries (readdress b) (K.taskCleanup task : K δ Unit) k₁ := rfl
    refine Effect.Splits.congr (Effect.Splits.bind (A := fun _ _ => True) hcleanup
      fun _ k₂ _ => (Effect.forgets_modify rfl).splits) ?_
    constructor
    · intro hok
      exact ⟨(), _, Prod.ext hok rfl, trivial⟩
    · rintro ⟨_, k₂, hrun, _⟩
      exact congrArg Prod.fst hrun
  · constructor
    · rintro ⟨task, k', hload, hcleanup⟩
      refine ⟨task, { k' with msg := k.msg, payload := k.payload }, ?_, hcleanup⟩
      unfold K.aside
      rw [hload]
    · rintro ⟨task, k₁, hload, hcleanup⟩
      refine ⟨task, (load path endpoint k.noMessage).2, ?_, ?_⟩
      · have hanswer : (K.aside (load path endpoint) k).1 = .ok task := congrArg Prod.fst hload
        exact Prod.ext hanswer rfl
      · have hstate := congrArg Prod.snd hload
        rw [← show (K.aside (load path endpoint) k).2 = k₁ from hstate] at hcleanup
        exact hcleanup

/-- The trace of code that is not modelled is that of the caller. -/
theorem outside_splits {f : K δ Unit} (h : Effect.Splits (readdress b) A f k) :
    Effect.Splits (readdress b) A (K.outside f) k := by
  constructor
  · intro ha
    have hrun := h.forgets ha
    unfold Effect.Forgets K.outside at *
    rw [hrun]
    rfl
  · intro ha
    have hrun := h.carries ha
    unfold Effect.Carries K.outside at *
    rw [hrun]
    rfl

theorem procEndpointHandler_splits {p : Platform δ} {load : List UInt8 → UInt64 → K δ UInt64}
    (hspawn : p.spawn = procHandleSpawn load) (h0 : k.msg.arg0 ≠ 0) (hb : b ≠ 0) :
    Effect.Splits (readdress b) (k.msg.type = Msg.processSpawn ∧ SpawnAnswers load k)
      (procEndpointHandler p) k := by
  apply Effect.Splits.read_bind rfl
  by_cases htype : k.msg.type = Msg.processSpawn
  · rw [if_pos htype, hspawn]
    apply (outside_splits (procHandleSpawn_splits load h0 hb)).congr
    simp [htype]
  · rw [if_neg htype]
    have hcarries : Effect.Carries (readdress b)
        (if k.msg.type = Msg.processExit then pure () else Effect.fail .notsup : K δ Unit) k := by
      split
      · exact Effect.carries_pure ()
      · exact Effect.carries_fail _
    apply hcarries.splits.congr
    simp [htype]

/-- The console writes the text, and answers nothing. -/
theorem consoleEndpointHandler_splits (p : Platform δ) (endpoint : UInt64) (h0 : k.msg.arg0 ≠ 0)
    (hb : b ≠ 0) (htype : k.msg.hasText) :
    Effect.Splits (readdress b) False (consoleEndpointHandler p endpoint) k := by
  apply Effect.Carries.splits
  -- Both runs pass the test of the address.
  have hwrite : ∀ a : UInt64, a ≠ 0 → k.msg.type = Msg.write →
      consoleEndpointHandler p endpoint (k.withArg0 a) =
        K.onDevices (fun d => (.ok (), p.consoleWrite d (k.payload.take
          (if k.msg.arg1 = 0 then (cString k.payload).length else k.msg.arg1.toNat))))
          (k.withArg0 a) := by
    intro a ha h
    have h' : (k.withArg0 a).msg.type = Msg.write := h
    have ha' : (k.withArg0 a).msg.arg0 ≠ 0 := ha
    unfold consoleEndpointHandler
    rw [Effect.bind_of_ok (show K.msg (k.withArg0 a) = (.ok (k.withArg0 a).msg, _) from rfl),
      if_pos h', Effect.bind_of_ok Effect.get_run]
    unfold consoleHandleWrite
    rw [Effect.bind_of_ok (Effect.require_pos ha' _)]
    rfl
  have hother : ∀ a : UInt64, k.msg.type ≠ Msg.write →
      consoleEndpointHandler p endpoint (k.withArg0 a) = (.error .notsup, k.withArg0 a) := by
    intro a h
    have h' : (k.withArg0 a).msg.type = k.msg.type := rfl
    unfold consoleEndpointHandler
    rw [Effect.bind_of_ok (show K.msg (k.withArg0 a) = (.ok (k.withArg0 a).msg, _) from rfl), h']
    rcases htype with htype | htype | htype | htype | htype
    · exact absurd htype h
    all_goals
      rw [htype]
      simp [Msg.write, Msg.openFile, Msg.processSpawn, Msg.stat, Msg.listdir, Msg.consoleWrite,
        Msg.consoleClear, Msg.consoleGetInfo, Msg.consoleScroll, Msg.ringProcess]
      rfl
  unfold Effect.Carries
  by_cases h : k.msg.type = Msg.write
  · have hrun := hwrite k.msg.arg0 h0 h
    have hself : k.withArg0 k.msg.arg0 = k := rfl
    rw [hself] at hrun
    rw [hrun, show readdress b k = k.withArg0 b from rfl, hwrite b hb h]
    rfl
  · have hrun := hother k.msg.arg0 h
    have hself : k.withArg0 k.msg.arg0 = k := rfl
    rw [hself] at hrun
    rw [hrun, show readdress b k = k.withArg0 b from rfl, hother b h]

/-- The session has no message with a text. -/
theorem sessionEndpointHandler_splits (htype : k.msg.hasText) :
    Effect.Splits (readdress b) False (sessionEndpointHandler : K δ Unit) k := by
  have hne : k.msg.type ≠ Msg.serviceLookup := by
    rcases htype with h | h | h | h | h
    all_goals
      rw [h]
      decide
  have hrun : ∀ a : UInt64, (sessionEndpointHandler : K δ Unit) (k.withArg0 a) =
      (.error .notsup, k.withArg0 a) := by
    intro a
    have hne' : ¬ (k.withArg0 a).msg.type = Msg.serviceLookup := hne
    unfold sessionEndpointHandler
    rw [Effect.bind_of_ok (show K.msg (k.withArg0 a) = (.ok (k.withArg0 a).msg, _) from rfl),
      if_neg hne']
    rfl
  apply Effect.Carries.splits
  exact (hrun b).trans (congrArg (fun out => (out.1, readdress b out.2)) (hrun k.msg.arg0).symm)

/-! ## The call of a service -/

variable {p : Platform δ} {load : List UInt8 → UInt64 → K δ UInt64} {endpoint : UInt64}

/-- A path that the VFS forwards is for the tmpfs. -/
theorem vfsAnswers_splits (hmounted : ∀ id handler,
      endpointTarget k.objects k.caps k.endpoints k.rootTmpfsEndpoint = .ok (id, handler) →
      handler = .tmpfs)
    (h0 : k.msg.arg0 ≠ 0) (hb : b ≠ 0) (htext : k.msg.hasText) :
    Effect.Splits (readdress b) (VfsAnswers k)
      (vfsEndpointHandler (vfsForwardToTmpfs (endpointCallDepth p 0))) k := by
  -- The file system forwards the three requests with a path and refuses the other two.
  by_cases htype : k.msg.type = Msg.openFile ∨ k.msg.type = Msg.stat ∨ k.msg.type = Msg.listdir
  · have hcall : Effect.Splits (readdress b)
        (∃ id handler, endpointTarget k.objects k.caps k.endpoints k.rootTmpfsEndpoint =
          .ok (id, handler) ∧ TmpfsAnswers k)
        (endpointCallDepth p 0 k.rootTmpfsEndpoint) (k.toTarget Service.tmpfs) := by
      apply deliver_splits (k := k.toTarget Service.tmpfs) (B := fun _ => TmpfsAnswers k)
      intro id handler htarget
      rw [hmounted id handler htarget]
      exact tmpfsEndpointHandler_splits (k := (k.toTarget Service.tmpfs).toTarget id) h0 hb htype
    apply (vfsEndpointHandler_splits h0 hb htype (vfsForwardToTmpfs_splits hcall)).congr
    constructor
    · rintro ⟨hpath, hroot, ⟨id, htarget⟩, hanswer⟩
      exact ⟨hpath, hroot, id, _, htarget, hanswer⟩
    · rintro ⟨hpath, hroot, id, handler, htarget, hanswer⟩
      obtain rfl := hmounted id handler htarget
      exact ⟨hpath, hroot, ⟨id, htarget⟩, hanswer⟩
  · have hother : k.msg.type = Msg.write ∨ k.msg.type = Msg.processSpawn := by
      rcases htext with h | h | h | h | h
      · exact .inl h
      · exact absurd (.inl h) htype
      · exact .inr h
      · exact absurd (.inr (.inl h)) htype
      · exact absurd (.inr (.inr h)) htype
    have hcarries : Effect.Carries (readdress b)
        (vfsEndpointHandler (vfsForwardToTmpfs (endpointCallDepth p 0))) k := by
      unfold Effect.Carries
      rw [vfsEndpointHandler_refuses hother,
        vfsEndpointHandler_refuses (k := readdress b k) hother]
    apply hcarries.splits.congr
    simp only [iff_false]
    rintro ⟨_, _, _, hanswer⟩
    rcases hanswer with ⟨h, _⟩ | ⟨h, _⟩ | ⟨h, _⟩
    · exact htype (.inl h)
    · exact htype (.inr (.inl h))
    · exact htype (.inr (.inr h))

/-- The call of a service forgets the address of a text exactly when the service
    answers. -/
theorem endpointCall_splits (hspawn : p.spawn = procHandleSpawn load) (hserved : Served k endpoint)
    (h0 : k.msg.arg0 ≠ 0) (hb : b ≠ 0) (htext : k.msg.hasText) :
    Effect.Splits (readdress b) (Answered load endpoint k) (endpointCall p endpoint) k := by
  apply deliver_splits (B := HandlerAnswers load k)
  intro id handler htarget
  rcases hserved.service id handler htarget with rfl | rfl | rfl | rfl
  · exact consoleEndpointHandler_splits (k := k.toTarget id) p endpoint h0 hb htext
  · exact vfsAnswers_splits (k := k.toTarget id) hserved.mounted h0 hb htext
  · exact procEndpointHandler_splits (k := k.toTarget id) hspawn h0 hb
  · exact sessionEndpointHandler_splits (k := k.toTarget id) htext

/-! ## Page tables -/

/-- The page tables after a spawn. -/
def spawnVmm (load : List UInt8 → UInt64 → K δ UInt64) (k : Kernel δ) : Vmm :=
  match boundedPathFromMessage k with
  | .error _ => k.vmm
  | .ok path =>
    match bootstrapEndpoint k with
    | .error _ => k.vmm
    | .ok endpoint => (load path endpoint k.noMessage).2.vmm

/-- The page tables after the call of a service: only a spawn changes them. -/
def vmmAfter (load : List UInt8 → UInt64 → K δ UInt64) (endpoint : UInt64) (k : Kernel δ) : Vmm :=
  match endpointTarget k.objects k.caps k.endpoints endpoint with
  | .ok (_, .proc) => if k.msg.type = Msg.processSpawn then spawnVmm load k else k.vmm
  | _ => k.vmm

theorem vmmAfter_of_type (h : k.msg.type ≠ Msg.processSpawn) : vmmAfter load endpoint k = k.vmm := by
  unfold vmmAfter
  split
  · exact if_neg h
  · rfl

/-- The page tables are as before. -/
def SameVmm (k k' : Kernel δ) : Prop := k'.vmm = k.vmm

instance : IsPreorder (Kernel δ) SameVmm where
  refl := fun _ => rfl
  trans := fun _ _ _ h h' => h'.trans h

theorem steps_sameVmm (p : Platform δ) : Steps p SameVmm where
  msg := fun _ _ => rfl
  frames := fun _ _ => rfl
  trace := fun _ _ => rfl
  files := fun _ _ => rfl
  object := fun _ _ => rfl
  cap := fun _ _ => rfl
  consoleWrite := fun _ _ => rfl
  consoleClear := fun _ => rfl
  consoleGetInfo := fun _ => rfl
  consoleScroll := fun _ _ => rfl
  keyboardPoll := fun _ => rfl

theorem procHandleSpawn_vmm (load : List UInt8 → UInt64 → K δ UInt64) (k : Kernel δ) :
    (procHandleSpawn load k).2.vmm = spawnVmm load k := by
  have hrest : ∀ task, Effect.Within SameVmm (do
      K.taskCleanup task
      K.setMsg fun m => { m with arg0 := task, arg1 := 0 } : K δ Unit) := by
    intro task
    refine .bind (fun _ => rfl) fun _ => ?_
    exact Effect.within_modify fun _ => rfl
  unfold procHandleSpawn spawnVmm
  rw [Effect.ask_bind]
  cases boundedPathFromMessage k with
  | error e => rfl
  | ok path =>
    dsimp only
    rw [Effect.ask_bind]
    cases bootstrapEndpoint k with
    | error e => rfl
    | ok endpoint =>
      dsimp only
      rcases Effect.bind_cases (K.aside (load path endpoint)) _ k with hrun | ⟨task, hrun⟩
      · rw [hrun]
        rfl
      · rw [hrun]
        exact hrest task _

/-- Every service but the process service leaves the page tables alone. -/
theorem endpointCall_sameVmm (hserved : Served k endpoint)
    (hproc : ∀ id, endpointTarget k.objects k.caps k.endpoints endpoint ≠ .ok (id, .proc)) :
    SameVmm k (endpointCall p endpoint k).2 := by
  have hsteps := steps_sameVmm p
  apply endpointCall_frame hsteps.msg
  intro e id handler forward target he htarget hvfs
  rcases he with rfl | rfl
  · rcases hserved.service id handler htarget with rfl | rfl | rfl | rfl
    · exact hsteps.consoleEndpointHandler e _ fun _ => ringSteps_of_rings (fun _ _ => rfl) _
    · exact absurd rfl hvfs
    · exact absurd htarget (hproc id)
    · exact hsteps.sessionEndpointHandler _
  · rw [hserved.mounted id handler htarget]
    exact hsteps.tmpfsEndpointHandler _

theorem endpointCall_vmm (hspawn : p.spawn = procHandleSpawn load) (hserved : Served k endpoint) :
    (endpointCall p endpoint k).2.vmm = vmmAfter load endpoint k := by
  by_cases hproc : ∃ id, endpointTarget k.objects k.caps k.endpoints endpoint = .ok (id, .proc)
  · obtain ⟨id, htarget⟩ := hproc
    unfold vmmAfter endpointCall endpointCallDepth
    rw [deliver_of_target htarget, htarget]
    show (procEndpointHandler p (k.toTarget id)).2.vmm = _
    unfold procEndpointHandler
    rw [Effect.bind_of_ok (show K.msg (k.toTarget id) = (.ok (k.toTarget id).msg, _) from rfl)]
    by_cases htype : k.msg.type = Msg.processSpawn
    · have htype' : (k.toTarget id).msg.type = Msg.processSpawn := htype
      rw [if_pos htype', if_pos htype, hspawn]
      exact procHandleSpawn_vmm load (k.toTarget id)
    · have htype' : ¬ (k.toTarget id).msg.type = Msg.processSpawn := htype
      rw [if_neg htype', if_neg htype]
      split
      · rfl
      · rfl
  · have hsame := endpointCall_sameVmm (p := p) hserved fun id h => hproc ⟨id, h⟩
    rw [show (endpointCall p endpoint k).2.vmm = k.vmm from hsame]
    unfold vmmAfter
    split
    · next id htarget => exact absurd ⟨id, htarget⟩ hproc
    · rfl

end calls

end Scdk
