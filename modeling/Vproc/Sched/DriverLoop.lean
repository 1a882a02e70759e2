import Vproc.Sched.Scheduler
import Vproc.Lib.Run

/-!
# The driver of a session

The driver thread resumes one coroutine at a time.  A turn begins with
`step_from_driver` or `step_from_driver_with_fd_swap`, and ends when the
coroutine yields, waits for descriptors, exits, or returns from its entry; in
between the coroutine may spawn, fork, send signals and use descriptors.  Each
of these is one step here, so that a run is any interleaving the source
allows.  A step is refused where the source aborts or panics, and where it
does not belong to the present side: the driver does not reap during a turn,
and only a running coroutine yields.

`resumes` and `spawned` have no counterpart in the source.  They list the
coroutines which `mco_resume` was called on, and count the processes spawned.
-/

namespace Vproc.Sched.DriverLoop

open Vproc.Fd.Table
open Vproc.Fd.Runtime
open Vproc.Sched.Scheduler

/-- Three descriptors, for the numbers 0, 1 and 2. -/
abbrev StdFds := CInt × CInt × CInt

/-- A turn: who runs, and what to put back at 0, 1 and 2 afterwards. -/
structure Turn where
  pid : VPid
  restore : Option StdFds
deriving DecidableEq, Repr

/-- The driver of one session. -/
structure Driver where
  executor : Executor
  turn : Option Turn
  polled : List VPid
  resumes : List VPid
  spawned : Nat

/-- Why a coroutine calls `vproc_exit_with_code`. -/
inductive ExitCause where
  | exit (code : CInt)
  | brokenPipe
  | returned
  | panicked
deriving DecidableEq, Repr

/-- The code which is passed. -/
def ExitCause.code : ExitCause → CInt
  | .exit code => code
  | .brokenPipe => 128 + 13
  | .returned => 0
  | .panicked => 134

/-- The steps of the driver and of the coroutine it has resumed. -/
inductive DriverOp where
  | spawn
  | spawnFront
  | spawnElf
  | spawnForkChild (parent : VPid)
  | virtualExecve
  | createProcess (stdin stdout stderr : CInt)
  | stepFromDriver
  | stepFromDriverWithFdSwap (saved : StdFds)
  | doYield
  | yieldForIo (fds : List (CInt × Int)) (timeoutMs : CInt) (now : Nat)
  | exit (cause : ExitCause)
  | raise (sig : CInt)
  | entryReturned
  | sys (call : World.SysCall)
  | kill (pid : VPid) (sig : CInt)
  | removeExitCode (pid : VPid)
  | collectIoWaits
  | wakeIoReady (revents : List Bool) (now : Nat)
  | reapDoneCoroutines
deriving DecidableEq, Repr

namespace Driver

/-- A driver which has not done anything yet. -/
def new : Driver where
  executor := Executor.new
  turn := none
  polled := []
  resumes := []
  spawned := 0

/-- Replace the executor. -/
def withExecutor (driver : Driver) (ex : Executor) : Driver :=
  { driver with executor := ex }

/-- Replace the executor after a spawn. -/
def withSpawned (driver : Driver) (ex : Executor) : Driver :=
  { driver with executor := ex, spawned := driver.spawned + 1 }

/-- Three calls of `raw_dup3`; the source aborts if one of them fails. -/
def installFds (world : World) (fds : StdFds) : Option World :=
  let first := world.rawDup3 fds.1 0
  let second := first.1.rawDup3 fds.2.1 1
  let third := second.1.rawDup3 fds.2.2 2
  if first.2 < 0 ∨ second.2 < 0 ∨ third.2 < 0 then none else some third.1

/-- Install descriptors if there are any to install. -/
def installFds? (world : World) : Option StdFds → Option World
  | some fds => installFds world fds
  | none => some world

/-- `get_real_fds`. -/
def getRealFds (world : World) (pid : VPid) : Option StdFds :=
  (world.getTable pid).bind VfdTable.getRealFds012

/--
The first half of `step_from_driver` and of its variant which swaps the
standard descriptors.  The answer of `deliver_signals` is not looked at.
-/
def beginTurn (world : World) (driver : Driver)
    (saved : Option StdFds) : Option (World × Driver) :=
  match driver.executor.pickNext with
  | (ex, none) => some (world, driver.withExecutor ex)
  | (ex, some pid) =>
      let delivered := (ex.deliverSignals pid).1
      let fds := saved.bind fun _ => getRealFds world pid
      (installFds? world fds).bind fun swapped =>
        (delivered.resumeBegin pid).map fun resumed =>
          (swapped,
            { driver with
              executor := resumed
              turn :=
                some { pid := pid, restore := fds.bind fun _ => saved }
              resumes := driver.resumes ++ [pid] })

/-- The second half: control has come back from the coroutine. -/
def endTurn (world : World) (driver : Driver) (ex : Executor)
    (dead : Bool) : Option (World × Driver) :=
  driver.turn.bind fun turn =>
    (installFds? world turn.restore).map fun restored =>
      (restored,
        { driver with
          executor := ex.resumeEnd turn.pid dead
          turn := none })

/-- What the driver does outside of turns only. -/
def whenIdle (driver : Driver) (result : Option (World × Driver)) :
    Option (World × Driver) :=
  if driver.turn.isNone then result else none

/--
`spawn_fork_child`.  A missing parent is a panic, which the trampoline of a
closure turns into an exit of the running coroutine.
-/
def forkStep (world : World) (driver : Driver) (parent : VPid) :
    Option (World × Driver) :=
  match driver.executor.spawnForkChild parent with
  | some (ex, child) =>
      some (world.forkFdTable parent child, driver.withSpawned ex)
  | none =>
      driver.turn.bind fun turn =>
        match driver.executor.vprocs.lookup turn.pid with
        | some co =>
            if co.body = .closure then
              endTurn world (driver.withSpawned driver.executor)
                (driver.executor.takePid.vprocExitWithCode
                  ExitCause.panicked.code)
                false
            else none
        | none => none

/--
`virtual_execve_via_entry`: a new process with the descriptors of the current
one, if there is one.
-/
def execStep (world : World) (driver : Driver) : World × Driver :=
  let spawned := driver.executor.spawnElf
  (world.execTable driver.executor.current spawned.2,
    driver.withSpawned spawned.1)

/-- `raise`: a fatal signal exits, any other is queued. -/
def raiseStep (world : World) (driver : Driver) (turn : Turn)
    (sig : CInt) : Option (World × Driver) :=
  if Executor.isFatal sig then
    endTurn world driver
      (driver.executor.vprocExitWithCode (128 + sig)) false
  else
    some (world, driver.withExecutor (driver.executor.kill turn.pid sig))

/-- `reap_done_coroutines`, with the descriptor tables. -/
def reapStep (world : World) (driver : Driver) : World × Driver :=
  (driver.executor.donePids.foldl World.reapTable world,
    driver.withExecutor driver.executor.reapDone)

/-- One step of a driver on the shared descriptor world. -/
def step (world : World) (driver : Driver) :
    DriverOp → Option (World × Driver)
  | .spawn => some (world, driver.withSpawned driver.executor.spawn.1)
  | .spawnFront =>
      some (world, driver.withSpawned driver.executor.spawnFront.1)
  | .spawnElf =>
      some (world, driver.withSpawned driver.executor.spawnElf.1)
  | .spawnForkChild parent => forkStep world driver parent
  | .virtualExecve => some (execStep world driver)
  | .createProcess stdin stdout stderr =>
      let spawned := execStep world driver
      driver.whenIdle
        (some
          (spawned.1.createTableWithFds driver.executor.nextPid stdin
              stdout stderr,
            spawned.2))
  | .stepFromDriver => driver.whenIdle (beginTurn world driver none)
  | .stepFromDriverWithFdSwap saved =>
      driver.whenIdle (beginTurn world driver (some saved))
  | .doYield => endTurn world driver driver.executor.doYield false
  | .yieldForIo fds timeoutMs now =>
      endTurn world driver
        (driver.executor.yieldForIo fds timeoutMs now) false
  | .exit cause =>
      endTurn world driver
        (driver.executor.vprocExitWithCode cause.code) false
  | .raise sig =>
      driver.turn.bind fun turn => raiseStep world driver turn sig
  | .entryReturned => endTurn world driver driver.executor true
  | .sys call =>
      driver.turn.bind fun turn =>
        (world.step (.sys turn.pid call)).map fun next => (next, driver)
  | .kill pid sig =>
      some (world, driver.withExecutor (driver.executor.kill pid sig))
  | .removeExitCode pid =>
      some
        (world, driver.withExecutor (driver.executor.removeExitCode pid))
  | .collectIoWaits =>
      driver.whenIdle
        (some
          (world,
            { driver with polled := driver.executor.collectIoWaits }))
  | .wakeIoReady revents now =>
      driver.whenIdle
        (some
          (world,
            driver.withExecutor
              (driver.executor.wakeIoReady (revents.zip driver.polled)
                now)))
  | .reapDoneCoroutines => driver.whenIdle (some (reapStep world driver))

end Driver

/-- A session alone in its process: a driver and the descriptor world. -/
structure Machine where
  world : World
  driver : Driver

namespace Machine

/-- The state in which a session starts. -/
def init (world : World) : Machine where
  world := world
  driver := Driver.new

/-- One step of a session. -/
def step (machine : Machine) (op : DriverOp) : Option Machine :=
  (Driver.step machine.world machine.driver op).map fun next =>
    { world := next.1, driver := next.2 }

end Machine

end Vproc.Sched.DriverLoop
