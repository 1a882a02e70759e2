import Vproc.Lib.Run
import Vproc.Fd.PipeLifetime
import Vproc.Fd.Resolution
import Vproc.Fd.NumberSpaces
import Vproc.Fd.FileLeaks
import Vproc.Fd.BorrowedFds
import Vproc.Fd.DescriptorIsolation
import Vproc.Sched.ReadyQueue
import Vproc.Sched.ExitDurability
import Vproc.Sched.FatalSignals
import Vproc.Ffi.SessionIsolation
import Vproc.Ffi.DriverSleep
import Vproc.Ffi.ExitNotification
import Vproc.Ffi.SpawnRequests
import Vproc.Exec.Elf
import Vproc.Exec.Image
import Vproc.Exec.CachedStart
import Vproc.Exec.BinaryCache
import Vproc.Exec.RunningImages
import Vproc.Sched.RoundRobin
import Vproc.Sched.WaitPid
import Vproc.Lib.PathWalk
import Vproc.Sched.Lineage
import Vproc.Sched.WorkingDir
import Vproc.Sched.RelativePaths
import Vproc.Sched.SwapBrackets
import Vproc.Ffi.StdDescriptors
import Vproc.Ffi.VirtualFork
import Vproc.Ffi.ForkReturns
import Vproc.Fd.DupFailures
import Vproc.Fd.FreshNumbers
import Vproc.Fd.ExecInheritance
import Vproc.Ffi.FdSwap
import Vproc.Fd.Poll
import Vproc.Fd.Select
import Vproc.Sched.PollTimeout
import Vproc.Ffi.PreloadLayers
import Vproc.Sched.ExecIdentity
import Vproc.Sched.RealChildren
import Vproc.Ffi.ExitStatuses
import Vproc.Sched.ProcessTree
import Vproc.Sched.WakeUps
import Vproc.Sched.StepApi
import Vproc.Ffi.PollReadiness
import Vproc.Exec.ElfTables
import Vproc.Lib.Procedure
import Vproc.Lib.Alignment
import Vproc.Exec.LoadPie
import Vproc.Exec.LoadSteps
import Vproc.Exec.HarmlessLoads
import Vproc.Exec.HostileFiles
import Vproc.Exec.RelocationTable
import Vproc.Exec.LoadedRanges
import Vproc.Lib.Patches
import Vproc.Lib.Acting
import Vproc.Exec.SlotAlignment
import Vproc.Exec.LoadEvents
import Vproc.Exec.AddressSpace
import Vproc.Exec.LoadedImage
import Vproc.Exec.FailedLoads
import Vproc.Exec.GotProtection
import Vproc.Exec.GotSlots
import Vproc.Exec.DynamicTables
import Vproc.Sched.ResolvePath
import Vproc.Exec.EntryCode
import Vproc.Sched.CanonicalDirs
import Vproc.Exec.ElfStack
import Vproc.Sched.ForkContext
import Vproc.Exec.Arguments
import Vproc.Lib.Coroutines
import Vproc.Sched.ContextSwitch
import Vproc.Lib.Simulation
import Vproc.Sched.CoroutineTurns
import Vproc.Exec.Instructions
import Vproc.Sched.SwitchCode
import Vproc.Exec.InlineHook
import Vproc.Exec.OwnHeaders
import Vproc.Exec.CoroutineMemory
import Vproc.Exec.ProgramMemory
import Vproc.Fd.ByteStreams
import Vproc.Lib.Custody
import Vproc.Sched.Processes
import Vproc.Sched.CoroutineCalls
import Vproc.Sched.DriverCoroutines
import Vproc.Sched.DriverTurns
