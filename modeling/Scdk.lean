import Scdk.Lib.Run
import Scdk.Core.Object
import Scdk.Core.Capability
import Scdk.Core.CapabilityRefinement
import Scdk.Core.Ring
import Scdk.Core.RingRefinement
import Scdk.Lib.Memory
import Scdk.Mm.Heap
import Scdk.Lib.Tiling
import Scdk.Mm.HeapLayout
import Scdk.Mm.HeapSafety
import Scdk.Lib.Radix
import Scdk.Mm.Vmm
import Scdk.Mm.PageTables
import Scdk.Mm.AddressSpace
import Scdk.Mm.AddressSpaceRefinement
import Scdk.Core.Endpoint
import Scdk.Core.UserGrant
import Scdk.Lib.Effect
import Scdk.Core.Task
import Scdk.Kernel
import Scdk.Services.Console
import Scdk.Services.Tmpfs
import Scdk.Core.UserRing
import Scdk.Ipc.UserIpc
import Scdk.Core.Syscall
import Scdk.Core.UserSystem
import Scdk.Core.GrantIsolation
import Scdk.Boot
import Scdk.Core.RingBatch
import Scdk.Core.RingAccounting
import Scdk.Ipc.CallRun
import Scdk.Services.HandlerTrace
import Scdk.Core.GrantSource
import Scdk.Lib.Pool
import Scdk.Mm.Pmm
import Scdk.Mm.RootTree
import Scdk.Mm.Permissions
import Scdk.Core.GrantRefinement
import Scdk.Core.GrantRevocation
import Scdk.Services.Devmgr
import Scdk.Core.Payloads
import Scdk.Arch.Usermode
import Scdk.Core.Loader
import Scdk.Services.Proc
import Scdk.Services.HandlerFrame
import Scdk.Core.Program
import Scdk.Core.ProgramCalls
import Scdk.Arch.FlatRun
import Scdk.Arch.EntryState
import Scdk.Core.FaultContainment
import Scdk.Lib.TwoRuns
import Scdk.Ipc.KernelPointers
import Scdk.Mm.KernelHalf
import Scdk.Core.Coop
import Scdk.Lib.Fifo
import Scdk.Core.CoopRefinement
import Scdk.Core.SchedulerSafety
import Scdk.Core.Room
import Scdk.Core.FailedCreation
import Scdk.Services.FileHandles
import Scdk.Services.OpenClose
import Scdk.Core.Lasting
import Scdk.Core.TaskRecords
import Scdk.Core.TaskSteps
import Scdk.Core.DeadThreads
import Scdk.Arch.StubRun
import Scdk.Core.TaskLifecycle
import Scdk.Mm.TarImage
import Scdk.Core.ImageRead
import Scdk.Mm.UserSpace
import Scdk.Ipc.RangeCheck
import Scdk.Core.RingWrap
import Scdk.Core.RingReject
import Scdk.Mm.UsablePages
import Scdk.Mm.TarEncode
import Scdk.Mm.InitrdQueries
import Scdk.Arch.ConsoleScreen
import Scdk.Mm.Paging
import Scdk.Mm.HeapRollback
import Scdk.Arch.ImageMap
import Scdk.Core.TaskRoom
import Scdk.Core.ProgramImage
import Scdk.Arch.ConsoleTabs
import Scdk.Arch.Scrollback
import Scdk.Core.LogTrace
import Scdk.Mm.HeapBlocks
import Scdk.Mm.InitrdListing
import Scdk.Mm.TarPaths
import Scdk.Mm.TarReads
import Scdk.Core.ImageRelease
import Scdk.Arch.RunHeld
import Scdk.Arch.RunRelease
import Scdk.Ipc.DestinationCheck
import Scdk.Core.RingIsolation
import Scdk.Core.Spawns
import Scdk.Core.LogFormat
import Scdk.Lib.Overwrite
import Scdk.Lib.Copy
import Scdk.Drivers.Keyboard
import Scdk.Drivers.KeyEvents
import Scdk.Drivers.ConsoleBackend
import Scdk.Arch.Serial
import Scdk.Arch.Glyphs
import Scdk.Arch.Pixels
import Scdk.Arch.PixelScreen
import Scdk.Core.LogLine
import Scdk.Core.Waiting
import Scdk.Services.Tty
import Scdk.Services.LogConsole
import Scdk.Ipc.MessageBytes
import Scdk.Services.Directory
import Scdk.Mm.Strings
import Scdk.Lib.Bits
import Scdk.Arch.Descriptors
import Scdk.Arch.TimerDevices
import Scdk.Arch.Tables
import Scdk.Arch.Interrupts
import Scdk.Arch.TimerRun
import Scdk.Services.DeviceQueues
import Scdk.Lib.Words
import Scdk.Arch.ContextSwitch
import Scdk.Arch.InterruptEntry
import Scdk.Mm.ObjectStorage
import Scdk.Arch.UserEntry
