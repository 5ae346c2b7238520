import Scdk.Core.UserSystem

/-! # Starting the services

    Model of the functions that start the console, session, tmpfs and VFS
    services, in the order in which the kernel calls them, and of a machine on
    which they have been started. -/

namespace Scdk

variable {δ : Type}

/-! ## Services -/

/-- `scdk_endpoint_create` -/
def K.endpointCreate (ownerCore : UInt32) (handler : Handler) : K δ UInt64 := fun k =>
  let (r, objects, caps, endpoints) :=
    Scdk.endpointCreate k.objects k.caps k.endpoints ownerCore handler
  (r, { k with objects := objects, caps := caps, endpoints := endpoints })

/-- `scdk_service_register` -/
def K.serviceRegister (serviceId endpoint : UInt64) : K δ Unit := fun k =>
  let (r, services) := Scdk.serviceRegister k.objects k.caps k.services serviceId endpoint
  (r, { k with services := services })

/-- What the functions that start a service have in common. -/
def serviceInit (handler : Handler) (serviceId : UInt64) : K δ UInt64 := do
  let endpoint ← K.endpointCreate bootCore handler
  K.serviceRegister serviceId endpoint
  pure endpoint

/-- `scdk_console_service_init` -/
def consoleServiceInit : K δ UInt64 := serviceInit .console Service.console

/-- `scdk_session_service_init` -/
def sessionServiceInit : K δ UInt64 := serviceInit .session Service.session

/-- `scdk_tmpfs_service_init` -/
def tmpfsServiceInit : K δ UInt64 := serviceInit .tmpfs Service.tmpfs

/-- `scdk_vfs_service_init` -/
def vfsServiceInit : K δ UInt64 := do
  let tmpfsEndpoint ← .ask fun k => serviceLookup k.services Service.tmpfs
  let _ ← K.capCheck tmpfsEndpoint Right.send ObjType.endpoint
  let endpoint ← serviceInit .vfs Service.vfs
  .modify fun k => { k with rootTmpfsEndpoint := tmpfsEndpoint }
  pure endpoint

/-- The services that the kernel starts. -/
def startServices : K δ Unit := do
  let _ ← consoleServiceInit
  let _ ← sessionServiceInit
  let _ ← tmpfsServiceInit
  let _ ← vfsServiceInit

/-- A property of the state that endpoints and services do not touch is kept. -/
theorem within_startServices {P : Kernel δ → Prop}
    (hendpoint : ∀ ownerCore handler, Effect.Within (Effect.Keeps P)
      (K.endpointCreate ownerCore handler))
    (hservice : ∀ serviceId endpoint, Effect.Within (Effect.Keeps P)
      (K.serviceRegister serviceId endpoint))
    (hmount : ∀ k endpoint, P k → P { k with rootTmpfsEndpoint := endpoint }) :
    Effect.Within (Effect.Keeps P) startServices := by
  have hinit : ∀ handler serviceId,
      Effect.Within (Effect.Keeps P) (serviceInit (δ := δ) handler serviceId) := by
    intro handler serviceId
    apply (hendpoint bootCore handler).bind
    intro endpoint
    apply (hservice serviceId endpoint).bind
    intro _
    exact Effect.within_pure endpoint
  apply (hinit .console Service.console).bind
  intro _
  apply (hinit .session Service.session).bind
  intro _
  apply (hinit .tmpfs Service.tmpfs).bind
  intro _
  refine .bind ?_ fun _ => Effect.within_pure ()
  unfold vfsServiceInit
  refine .bind (Effect.within_ask _) fun tmpfsEndpoint => ?_
  refine .bind (Effect.within_ask _) fun _ => ?_
  refine .bind (hinit .vfs Service.vfs) fun endpoint => ?_
  refine .bind (Effect.within_modify fun k => hmount k tmpfsEndpoint) fun _ => ?_
  exact Effect.within_pure endpoint

/-! ## A machine -/

/-- Memory that holds `words` from `base` on. -/
def framesOfWords (base : UInt64) (words : List UInt64) : Frames := fun phys =>
  if phys < base then 0 else ((words.flatMap bytesOfWord)[(phys - base).toNat]?).getD 0

/-- Page tables that map page `i` of every 2 MiB of user memory to the physical
    page `5 + i`. -/
def flatTables : PageTables := fun table i =>
  if table = 0x1000 then 0x2007
  else if table = 0x2000 then 0x3007
  else if table = 0x3000 then 0x4007
  else if table = 0x4000 then 0x5007 + UInt64.ofNat i * 4096
  else 0

/-- A platform that shows nothing and does nothing. -/
def quietPlatform : Platform Unit where
  consoleWrite := fun d _ => d
  consoleClear := fun d => (.ok (), d)
  consoleGetInfo := fun d => (.ok ⟨80, 25, 0, 0, 0⟩, d)
  consoleScroll := fun d _ => (.ok (), d)
  keyboardPoll := fun d => (.error .noent, d)
  spawn := fun k => (.error .notsup, k)
  devmgr := fun k => (.error .notsup, k)
  grantTest := fun k => (.error .notsup, k)
  yield := fun k => k

/-- Zeroed static variables, over the tables `flatTables`. -/
def Kernel.zero (initrd : Initrd) : Kernel Unit where
  objects := ObjectTable.zero
  caps := CapTable.zero
  endpoints := fun _ => ⟨0, none⟩
  services := fun _ => ⟨0, 0⟩
  rings := RingTable.zero
  userRings := fun _ => ⟨false, 0, 0, 0⟩
  grants := ⟨fun _ => ⟨0, 0, 0, 0, 0, 0, 0, 0⟩, fun _ => ⟨0, 0, 0, 0, 0, 0, 0, false⟩⟩
  files := fun _ => ⟨0, 0, ⟨[], [], 0⟩, false⟩
  initrd := initrd
  rootTmpfsEndpoint := 0
  tasks := ⟨fun _ => ⟨false, 0, 0, 0, 0, 0, 0, .none, 0⟩, fun _ => ⟨false, 0, 0, 0, 0, 0, 0, .none⟩, 0⟩
  vmm := ⟨flatTables, 0x1000, true⟩
  frames := fun _ => 0
  syscall := ⟨true, false, false, false, 0, 0⟩
  msg := messageInit 0 0 0
  payload := []
  devices := ()
  trace := []

/-- The first token that slot `i` of the capability table issues. -/
def firstToken (i : UInt64) : UInt64 := 0x100000000 + i

/-- A machine with its services started: the console has the first token of slot
    0, and the first task made gets that of slot 4. -/
def machine (initrd : Initrd) : Kernel Unit := (startServices (Kernel.zero initrd)).2

end Scdk
