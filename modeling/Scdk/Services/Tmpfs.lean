import Scdk.Kernel

/-! # The tmpfs service

    Model of `services/tmpfs_service.c`: read-only files of the initrd behind
    file capabilities. -/

namespace Scdk

variable {δ : Type}

/-- `sizeof(struct scdk_vfs_dirent)` -/
def direntSize : UInt64 := 80

/-- A directory entry in memory. -/
def Dirent.toBytes (d : Dirent) : List UInt8 :=
  d.name ++ List.replicate (vfsMaxName - d.name.length) 0 ++ bytesOfWord d.type ++ bytesOfWord d.size

/-- `tmpfs_slot_for_cap` -/
def tmpfsSlotForCap (k : Kernel δ) (fileCap : UInt64) : Except Err (Fin tmpfsMaxOpenFiles) :=
  match capCheck k.objects k.caps fileCap Right.read ObjType.file with
  | .error e => .error e
  | .ok entry =>
    match objectLookup k.objects entry.objectId with
    | .error e => .error e
    | .ok object =>
      match object.payload with
      | .file i =>
        if (k.files i).objectId ≠ entry.objectId ∨ (k.files i).isOpen = false then .error .noent
        else .ok i
      | _ => .error .noent

/-- `alloc_open_file_slot` -/
def allocOpenFileSlot (k : Kernel δ) : Except Err (Fin tmpfsMaxOpenFiles) :=
  match Slots.firstSlot fun i => !(k.files i).isOpen with
  | none => .error .nomem
  | some i => .ok i

/-- `tmpfs_path_from_message` -/
def tmpfsPathFromMessage (k : Kernel δ) : Except Err (List UInt8) :=
  if k.msg.arg0 = 0 then .error .inval
  else
    let pathLength := if k.msg.arg1 = 0 then (cString k.payload).length else k.msg.arg1.toNat
    if pathLength = 0 ∨ initrdMaxPath - 1 < pathLength then .error .bounds
    else .ok (cString (k.payload.take pathLength))

/-- Replace the open file of slot `i`. -/
def setFile (i : Fin tmpfsMaxOpenFiles) (f : TmpfsFile → TmpfsFile) : K δ Unit :=
  .modify fun k => { k with files := Function.update k.files i (f (k.files i)) }

/-- `tmpfs_handle_open` -/
def tmpfsHandleOpen : K δ Unit := do
  let path ← .ask tmpfsPathFromMessage
  let backing ← .ask fun k => initrdFind k.initrd path
  let i ← .ask allocOpenFileSlot
  let objectId ← K.objectCreate ObjType.file bootCore 0 (.file i)
  match ← (K.capCreate objectId Right.read).attempt with
  | .error e =>
    setFile i fun f => { f with objectId := 0 }
    Effect.fail e
  | .ok cap =>
    setFile i fun _ => ⟨objectId, cap, backing, true⟩
    K.setMsg fun m => { m with arg0 := cap, arg1 := backing.size }

/-- `tmpfs_handle_stat` -/
def tmpfsHandleStat : K δ Unit := do
  let path ← .ask tmpfsPathFromMessage
  let (type, size) ← .ask fun k => initrdStat k.initrd path
  K.setMsg fun m => { m with arg0 := type, arg1 := size, arg2 := 0, arg3 := 0 }

/-- `tmpfs_handle_listdir`.  The entries are written where `arg2` says, after
    the whole array was zeroed. -/
def tmpfsHandleListdir : K δ Unit := do
  let msg ← K.msg
  Effect.require (msg.arg2 ≠ 0 ∧ direntSize ≤ msg.arg3) .inval
  let path ← .ask tmpfsPathFromMessage
  let capacity := msg.arg3 / direntSize
  let queryLen ← .ask fun k => initrdListdirCheck k.initrd path capacity
  let k ← Effect.get
  let (status, entries) := listdirLoop path queryLen capacity k.initrd.files []
  K.store msg.arg2 (List.replicate (direntSize * capacity).toNat 0)
  K.store msg.arg2 (entries.flatMap Dirent.toBytes)
  K.emit (.copied msg.arg2 (direntSize * capacity))
  .ask fun _ => status
  K.setMsg fun m =>
    { m with arg0 := UInt64.ofNat entries.length, arg1 := 0, arg2 := 0, arg3 := 0 }

/-- `tmpfs_handle_read` -/
def tmpfsHandleRead : K δ Unit := do
  let msg ← K.msg
  Effect.require (msg.arg2 ≠ 0) .inval
  let i ← .ask fun k => tmpfsSlotForCap k msg.arg0
  let k ← Effect.get
  let backing := (k.files i).backing
  if msg.arg3 = 0 then K.setMsg fun m => { m with arg0 := 0 }
  else do
    Effect.require (msg.arg1 ≤ backing.size) .bounds
    let available := backing.size - msg.arg1
    let toCopy := if msg.arg3 < available then msg.arg3 else available
    K.store msg.arg2 ((backing.data.drop msg.arg1.toNat).take toCopy.toNat)
    K.emit (.copied msg.arg2 toCopy)
    K.setMsg fun m => { m with arg0 := toCopy }

/-- `tmpfs_handle_close` -/
def tmpfsHandleClose : K δ Unit := do
  let msg ← K.msg
  let i ← .ask fun k => tmpfsSlotForCap k msg.arg0
  setFile i fun f => { f with isOpen := false }

/-- `tmpfs_endpoint_handler` -/
def tmpfsEndpointHandler : K δ Unit := do
  let msg ← K.msg
  if msg.type = Msg.openFile then tmpfsHandleOpen
  else if msg.type = Msg.stat then tmpfsHandleStat
  else if msg.type = Msg.listdir then tmpfsHandleListdir
  else if msg.type = Msg.read then tmpfsHandleRead
  else if msg.type = Msg.close then tmpfsHandleClose
  else Effect.fail .notsup

/-! ## What the handlers answer -/

/-- The end of `tmpfs_handle_open`: make an object for the file slot `i` and a token
    for it. -/
def Kernel.openFile (k : Kernel δ) (backing : InitrdFile) (i : Fin tmpfsMaxOpenFiles) :
    Except Err Unit × Kernel δ :=
  match objectCreate k.objects ObjType.file bootCore 0 (.file i) with
  | (.error e, objects) => (.error e, { k with objects := objects })
  | (.ok objectId, objects) =>
    match capCreate objects k.caps objectId Right.read with
    | (.error e, caps) =>
      (.error e, { k with
        objects := objects
        caps := caps
        files := Function.update k.files i { k.files i with objectId := 0 } })
    | (.ok cap, caps) =>
      (.ok (), { k with
        objects := objects
        caps := caps
        files := Function.update k.files i ⟨objectId, cap, backing, true⟩
        msg := { k.msg with arg0 := cap, arg1 := backing.size } })

/-- The path in an OPEN message. -/
def pathOfMessage (msg : Message) (payload : List UInt8) : Except Err (List UInt8) :=
  if msg.arg0 = 0 then .error .inval
  else
    let pathLength := if msg.arg1 = 0 then (cString payload).length else msg.arg1.toNat
    if pathLength = 0 ∨ initrdMaxPath - 1 < pathLength then .error .bounds
    else .ok (cString (payload.take pathLength))

/-- The file that an OPEN message asks for. -/
def Initrd.resolves (initrd : Initrd) (msg : Message) (payload : List UInt8) :
    Except Err InitrdFile :=
  match pathOfMessage msg payload with
  | .error e => .error e
  | .ok path => initrdFind initrd path

theorem tmpfsPathFromMessage_eq (k : Kernel δ) :
    tmpfsPathFromMessage k = pathOfMessage k.msg k.payload := rfl

theorem tmpfsHandleOpen_run (k : Kernel δ) :
    (tmpfsHandleOpen : K δ Unit) k =
      match k.initrd.resolves k.msg k.payload with
      | .error e => (.error e, k)
      | .ok backing =>
        match Slots.firstSlot fun i => !(k.files i).isOpen with
        | none => (.error .nomem, k)
        | some i => k.openFile backing i := by
  unfold tmpfsHandleOpen Initrd.resolves
  rw [Effect.ask_bind, tmpfsPathFromMessage_eq]
  cases pathOfMessage k.msg k.payload with
  | error e => rfl
  | ok path =>
    dsimp only
    rw [Effect.ask_bind]
    cases initrdFind k.initrd path with
    | error e => rfl
    | ok backing =>
      dsimp only
      rw [Effect.ask_bind, allocOpenFileSlot]
      cases Slots.firstSlot fun i => !(k.files i).isOpen with
      | none => rfl
      | some i =>
        dsimp only
        unfold Kernel.openFile
        rw [Effect.bind_run, K.objectCreate]
        rcases objectCreate k.objects ObjType.file bootCore 0 (.file i) with ⟨r, objects⟩
        cases r with
        | error e => rfl
        | ok objectId =>
          dsimp only
          rw [Effect.attempt_bind, K.capCreate]
          rcases capCreate objects k.caps objectId Right.read with ⟨r, caps⟩
          cases r with
          | error e => rfl
          | ok cap => rfl

/-- The end of `tmpfs_handle_read`, for the file `f`. -/
def Kernel.readFile (k : Kernel δ) (f : InitrdFile) : Except Err Unit × Kernel δ :=
  if k.msg.arg3 = 0 then (.ok (), { k with msg := { k.msg with arg0 := 0 } })
  else if f.size < k.msg.arg1 then (.error .bounds, k)
  else
    let available := f.size - k.msg.arg1
    let toCopy := if k.msg.arg3 < available then k.msg.arg3 else available
    (.ok (), { k with
      frames := storeBytes k.vmm k.frames k.msg.arg2
        ((f.data.drop k.msg.arg1.toNat).take toCopy.toNat)
      trace := k.trace ++ [.copied k.msg.arg2 toCopy]
      msg := { k.msg with arg0 := toCopy } })

theorem tmpfsHandleRead_run (k : Kernel δ) :
    (tmpfsHandleRead : K δ Unit) k =
      if k.msg.arg2 = 0 then (.error .inval, k)
      else
        match tmpfsSlotForCap k k.msg.arg0 with
        | .error e => (.error e, k)
        | .ok i => k.readFile (k.files i).backing := by
  unfold tmpfsHandleRead
  rw [Effect.bind_of_ok (show K.msg k = (.ok k.msg, k) from rfl)]
  by_cases h2 : k.msg.arg2 = 0
  · rw [if_pos h2, Effect.bind_of_error (Effect.require_neg (not_not.mpr h2) _)]
  rw [if_neg h2, Effect.bind_of_ok (Effect.require_pos h2 _), Effect.ask_bind]
  cases tmpfsSlotForCap k k.msg.arg0 with
  | error e => rfl
  | ok i =>
    dsimp only
    rw [Effect.bind_of_ok Effect.get_run]
    unfold Kernel.readFile
    by_cases h3 : k.msg.arg3 = 0
    · rw [if_pos h3, if_pos h3]
      rfl
    rw [if_neg h3, if_neg h3]
    by_cases hle : k.msg.arg1 ≤ (k.files i).backing.size
    · rw [Effect.bind_of_ok (Effect.require_pos hle _), if_neg (UInt64.not_lt.mpr hle)]
      rfl
    · rw [Effect.bind_of_error (Effect.require_neg hle _), if_pos (UInt64.not_le.mp hle)]

theorem tmpfsHandleClose_run (k : Kernel δ) :
    (tmpfsHandleClose : K δ Unit) k =
      match tmpfsSlotForCap k k.msg.arg0 with
      | .error e => (.error e, k)
      | .ok i =>
        (.ok (), { k with files := Function.update k.files i { k.files i with isOpen := false } }) := by
  unfold tmpfsHandleClose
  rw [Effect.bind_of_ok (show K.msg k = (.ok k.msg, k) from rfl), Effect.ask_bind]
  cases tmpfsSlotForCap k k.msg.arg0 with
  | error e => rfl
  | ok i => rfl

end Scdk
