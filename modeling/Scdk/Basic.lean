import Scdk.Lib.Handle

/-! # Status codes, rights, object types and messages

    The vocabulary shared by all subsystems: `include/scdk/status.h`,
    `capability.h`, `object.h`, `service.h` and `message.h`.

    A function that returns `scdk_status_t` is modelled as one that returns
    `Except Err α`, where `α` holds what the C function stores through its out
    pointers.  Out pointers themselves are never null at the call sites, so the
    tests of the source for a null out pointer have no counterpart here. -/

namespace Scdk

/-! ## Status codes -/

/-- The error codes of `scdk_status_t`. -/
inductive Err where
  | inval
  | nomem
  | noent
  | perm
  | bounds
  | busy
  | notsup
  deriving DecidableEq, Repr

/-- An error code as the 64-bit word `(uint64_t)status`. -/
def Err.word : Err → UInt64
  | .inval => -1
  | .nomem => -2
  | .noent => -3
  | .perm => -4
  | .bounds => -5
  | .busy => -6
  | .notsup => -7

/-- The status of a call as the 64-bit word `(uint64_t)status`. -/
def statusWord {α : Type} : Except Err α → UInt64
  | .ok _ => 0
  | .error e => e.word

/-- Keep the status of a call and drop what it returned. -/
def toStatus {α : Type} : Except Err α → Except Err Unit
  | .ok _ => .ok ()
  | .error e => .error e

@[simp] theorem toStatus_ok {α : Type} (a : α) : toStatus (.ok a) = .ok () := rfl

@[simp] theorem toStatus_error {α : Type} (e : Err) :
    toStatus (.error e : Except Err α) = .error e := rfl

/-- `SCDK_BOOT_CORE` -/
def bootCore : UInt32 := 0

/-- `SCDK_MAX_CORES` -/
def maxCores : UInt32 := 1

/-! ## Rights -/

namespace Right

def read : UInt64 := 1
def write : UInt64 := 2
def exec : UInt64 := 4
def map : UInt64 := 8
def send : UInt64 := 16
def recv : UInt64 := 32
def bind : UInt64 := 64
def revoke : UInt64 := 128

end Right

/-! ## Object types -/

namespace ObjType

def none : UInt32 := 0
def frame : UInt32 := 1
def addressSpace : UInt32 := 2
def task : UInt32 := 3
def thread : UInt32 := 4
def endpoint : UInt32 := 5
def ring : UInt32 := 6
def grant : UInt32 := 7
def service : UInt32 := 8
def file : UInt32 := 9
def device : UInt32 := 10
def deviceQueue : UInt32 := 11

end ObjType

/-! ## Table sizes -/

/-- `SCDK_MAX_OBJECTS` -/
abbrev maxObjects : Nat := 4096

/-- `SCDK_MAX_CAPS` -/
abbrev maxCaps : Nat := 4096

/-- `SCDK_MAX_ENDPOINTS` -/
abbrev maxEndpoints : Nat := 64

/-- `SCDK_MAX_SERVICES` -/
abbrev maxServices : Nat := 32

/-- `SCDK_MAX_RINGS` -/
abbrev maxRings : Nat := 64

/-- `SCDK_RING_MAX_ENTRIES` -/
abbrev ringMaxEntries : Nat := 64

/-- `SCDK_MAX_GRANTS` -/
abbrev maxGrants : Nat := 128

/-- `SCDK_MAX_USER_GRANTS` -/
abbrev maxUserGrants : Nat := 128

/-- `SCDK_MAX_USER_RINGS` -/
abbrev maxUserRings : Nat := 64

/-- `SCDK_MAX_TASKS` -/
abbrev maxTasks : Nat := 64

/-- `SCDK_MAX_THREADS` -/
abbrev maxThreads : Nat := 128

/-- `SCDK_TMPFS_MAX_OPEN_FILES` -/
abbrev tmpfsMaxOpenFiles : Nat := 32

/-- `SCDK_DEVMGR_MAX_DEVICES` -/
abbrev devmgrMaxDevices : Nat := 8

/-- `SCDK_DEVMGR_MAX_QUEUES` -/
abbrev devmgrMaxQueues : Nat := 16

/-! Tables that are indexed by numerals, or are rings, are not empty. -/

instance neZero_maxTasks : NeZero maxTasks := ⟨by decide⟩

instance neZero_maxThreads : NeZero maxThreads := ⟨by decide⟩

/-! ## Pages -/

/-- `SCDK_PAGE_SIZE` -/
abbrev pageSize : Nat := 4096

/-- `SCDK_VMM_MAP_WRITE` -/
def vmmMapWrite : UInt64 := 1

/-- `SCDK_VMM_MAP_USER` -/
def vmmMapUser : UInt64 := 2

/-- `SCDK_USER_VIRT_BASE` -/
def userVirtBase : UInt64 := 0x100000

/-- `SCDK_USER_VIRT_TOP` -/
def userVirtTop : UInt64 := 0x0000800000000000

end Scdk
