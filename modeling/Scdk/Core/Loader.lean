import Scdk.Core.TaskRun
import Scdk.Services.Endpoint

/-! # The loader

    Model of `core/loader.c`: a flat image is read through the VFS into a heap
    buffer and run in a task of its own.  The heap and the page allocator answer
    from the argument of the load. -/

namespace Scdk

variable {δ : Type}

/-- `SCDK_LOADER_MAX_IMAGE_SIZE` -/
def loaderMaxImageSize : UInt64 := 65536

/-- What is chosen below the loader: where the path of the file is, the buffer
    for the image, the storage and the pages of the address space, and the
    answers of the run. -/
structure LoadAnswers where
  path : UInt64
  image : Option UInt64
  storage : Option Nat
  rootPages : PageSupply
  run : RunAnswers

/-- `scdk_endpoint_call` on a message of the caller, with the text that its `arg0`
    points to. -/
def K.callWith (p : Platform δ) (endpoint : UInt64) (msg : Message) (text : List UInt8) :
    K δ Message := fun k =>
  let (r, k') := endpointCall p endpoint { k with msg := msg, payload := text }
  (r.map fun _ => k'.msg, { k' with msg := k.msg, payload := k.payload })

/-- `loader_close_file` -/
def loaderCloseFile (p : Platform δ) (vfsEndpoint file : UInt64) : K δ Unit := do
  Effect.require (vfsEndpoint ≠ 0 ∧ file ≠ 0) .inval
  let _ ← K.callWith p vfsEndpoint { messageInit 0 Service.vfs Msg.close with arg0 := file } []

/-- The loop of `loader_read_file`.  A round reads at least one byte, so `size`
    rounds are enough. -/
def loaderReadLoop (p : Platform δ) (vfsEndpoint file buffer size : UInt64) : Nat → UInt64 → K δ Unit
  | 0, _ => pure ()
  | n + 1, offset =>
    if size ≤ offset then pure ()
    else do
      let msg ← K.callWith p vfsEndpoint
        { messageInit 0 Service.vfs Msg.read with
          arg0 := file, arg1 := offset, arg2 := buffer + offset, arg3 := size - offset } []
      Effect.require (msg.arg0 ≠ 0 ∧ msg.arg0 ≤ size - offset) .bounds
      loaderReadLoop p vfsEndpoint file buffer size n (offset + msg.arg0)

/-- `loader_read_file` -/
def loaderReadFile (p : Platform δ) (vfsEndpoint file buffer size : UInt64) : K δ Unit := do
  Effect.require (vfsEndpoint ≠ 0 ∧ file ≠ 0 ∧ buffer ≠ 0 ∧ size ≠ 0) .inval
  loaderReadLoop p vfsEndpoint file buffer size size.toNat 0

/-- `loader_open_file`: the file and its size. -/
def loaderOpenFile (p : Platform δ) (vfsEndpoint path : UInt64) (text : List UInt8) :
    K δ (UInt64 × UInt64) := do
  Effect.require (vfsEndpoint ≠ 0 ∧ path ≠ 0) .inval
  let msg ← K.callWith p vfsEndpoint { messageInit 0 Service.vfs Msg.openFile with arg0 := path } text
  Effect.require (msg.arg0 ≠ 0 ∧ msg.arg1 ≠ 0) .noent
  Effect.require (msg.arg1 ≤ loaderMaxImageSize) .bounds
  pure (msg.arg0, msg.arg1)

/-- `loader_read_image`: the buffer and the size of the image. -/
def loaderReadImage (p : Platform δ) (a : LoadAnswers) (text : List UInt8) :
    K δ (UInt64 × UInt64) := do
  let vfsEndpoint ← .ask fun k => serviceLookup k.services Service.vfs
  let (file, size) ← loaderOpenFile p vfsEndpoint a.path text
  let status ← (do
    match a.image with
    | none => Effect.fail .nomem
    | some image =>
      Effect.require (image ≠ 0) .nomem
      loaderReadFile p vfsEndpoint file image size
      pure image : K δ UInt64).attempt
  let closed ← (loaderCloseFile p vfsEndpoint file).attempt
  let image ← .ask fun _ => status
  .ask fun _ => closed
  pure (image, size)

/-- `scdk_loader_load_from_vfs_with_endpoint`; `user` is what the program does in
    user mode. -/
def loaderLoadFromVfs (p : Platform (Host δ)) (hhdmOffset : UInt64) (a : LoadAnswers)
    (user : K (Host δ) Unit) (text : List UInt8) (bootstrapEndpoint : UInt64) :
    K (Host δ) UInt64 := do
  Effect.require (a.path ≠ 0 ∧ hhdmOffset ≠ 0 ∧ bootstrapEndpoint ≠ 0) .inval
  let _ ← K.capCheck bootstrapEndpoint Right.send ObjType.endpoint
  let (image, size) ← loaderReadImage p a text
  let new ← userTaskCreate a.storage a.rootPages
  Effect.require (new.addressSpace ≠ 0 ∧ new.mainThread ≠ 0) .noent
  userTaskRunFlat new.task a.run user image size bootstrapEndpoint hhdmOffset
  pure new.task

end Scdk
