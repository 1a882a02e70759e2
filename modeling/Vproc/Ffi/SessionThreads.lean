import Vproc.Sched.ReadyQueue
import Vproc.Sched.ExitDurability

/-!
# The threads of a session

A session is shared by its driver thread and by any number of client threads
which call `vproc_ffi_create_process`, `vproc_ffi_run_until_exit` and
`vproc_ffi_destroy_session`.  They meet in the session mutex, in the spawn
queue with a mutex of its own, in the condition variable `wake`, and in one
result slot for each call.  This module has the code of each of these
functions cut at the points where another thread can get in between.

The driver keeps the session mutex over many steps; `Place.holdsLock` says
where.  A client does nothing visible to a thread without the mutex while it
has it, so each of its critical sections is one step, which is refused while
the driver has the mutex.  `try_lock` may fail at any time, since another
client may be within such a section.  A call stands for the slot it has made,
and a thread which makes several calls is not told from several threads.

The session is in the map of sessions at the start.  `pushed` and `served`
have no counterpart in the source: they list the requests which were pushed
and those which were executed, with the process number or 0.
-/

namespace Vproc.Ffi.SessionThreads

open Vproc.Lib.FiniteMap
open Vproc.Fd.Table
open Vproc.Fd.Runtime
open Vproc.Sched.Scheduler
open Vproc.Sched.DriverLoop

/-- A call of a client, which is also the name of its result slot. -/
abbrev CallId := Nat

/-- `SpawnRequest`: the three descriptors, and the slot for the answer. -/
structure SpawnRequest where
  call : CallId
  fds : StdFds
deriving DecidableEq, Repr

/-- `Waiter`. -/
structure Waiter where
  vpid : VPid
  call : CallId
deriving DecidableEq, Repr

/-- What is left to do in a call of `vproc_ffi_create_process`. -/
inductive CreateCall where
  | notMade
  | trying (fds : StdFds) (tries : Nat)
  | pushing (fds : StdFds)
  | notifying
  | polling (attempts : Nat)
  | returned (vpid : VPid)
deriving DecidableEq, Repr

/-- Why `vproc_ffi_run_until_exit` returns. -/
inductive Answer where
  | code (value : CInt)
  | timedOut
  | noSession
deriving DecidableEq, Repr

/-- The return value. -/
def Answer.value : Answer → CInt
  | .code value => value
  | .timedOut => -1
  | .noSession => -1

/-- What is left to do in a call of `vproc_ffi_run_until_exit`. -/
inductive ExitCall where
  | notMade
  | checking (vpid : VPid)
  | rechecking (vpid : VPid)
  | polling (vpid : VPid) (looks : Nat)
  | returned (vpid : VPid) (answer : Answer)
deriving DecidableEq, Repr

/-- Where the driver thread is in `run_session_driver`. -/
inductive Place where
  | starting
  | top
  | serving (requests : List SpawnRequest)
  | answering (call : CallId) (vpid : VPid) (requests : List SpawnRequest)
  | running
  | checking (kept left : List Waiter)
  | reaping
  | collecting
  | polling
  | between
  | testing
  | tested (spawnHasWork : Bool)
  | waiting
  | woken
  | ended
deriving DecidableEq, Repr

namespace Place

/-- Does the driver thread have the session mutex? -/
def holdsLock : Place → Bool
  | .serving _ => true
  | .answering _ _ _ => true
  | .running => true
  | .checking _ _ => true
  | .reaping => true
  | .collecting => true
  | .testing => true
  | .tested _ => true
  | _ => false

/-- The requests which are drained and not yet executed. -/
def requests : Place → List SpawnRequest
  | .serving requests => requests
  | .answering _ _ requests => requests
  | _ => []

end Place

/-- A session with its driver thread and its clients. -/
structure Threads where
  machine : Machine
  place : Place
  savedFds : StdFds
  listed : Bool
  destroying : Bool
  shutdown : Bool
  spawnQueue : List SpawnRequest
  waiters : List Waiter
  creates : CallId → CreateCall
  spawnResults : CallId → Option VPid
  exits : CallId → ExitCall
  exitResults : CallId → Option CInt
  pushed : List SpawnRequest
  served : List (SpawnRequest × VPid)

/-- The steps of the driver thread, of the clients and of other sessions. -/
inductive ThreadOp where
  | start (answers : StdFds)
  | enter
  | serve (loaded : Bool)
  | answer
  | stepFromDriver
  | coroutine (op : DriverOp)
  | checkWaiter
  | reap
  | collect
  | poll (answer : Option (List Bool × Nat))
  | lockForWait
  | readQueue
  | decideWait
  | spuriousWake
  | relock
  | createProcess (call : CallId) (fds : StdFds)
  | tryLock (call : CallId) (obtained : Bool)
  | push (call : CallId)
  | notify (call : CallId)
  | pollResult (call : CallId)
  | runUntilExit (call : CallId) (vpid : VPid)
  | check (call : CallId)
  | recheck (call : CallId)
  | look (call : CallId)
  | destroySession
  | setShutdown
  | elsewhere (op : World.FdOp)
deriving DecidableEq, Repr

/--
What a coroutine does during its turn.  Nothing in the source calls
`remove_exit_code`.
-/
def isCoroutineOp : DriverOp → Bool
  | .createProcess _ _ _ => false
  | .stepFromDriver => false
  | .stepFromDriverWithFdSwap _ => false
  | .removeExitCode _ => false
  | .collectIoWaits => false
  | .wakeIoReady _ _ => false
  | .reapDoneCoroutines => false
  | _ => true

namespace Threads

/-- The session when its driver thread has been started. -/
def init (world : World) : Threads where
  machine := Machine.init world
  place := .starting
  savedFds := (-1, -1, -1)
  listed := true
  destroying := false
  shutdown := false
  spawnQueue := []
  waiters := []
  creates := fun _ => .notMade
  spawnResults := fun _ => none
  exits := fun _ => .notMade
  exitResults := fun _ => none
  pushed := []
  served := []

/-- The executor of the session. -/
def executor (state : Threads) : Executor :=
  state.machine.driver.executor

/-- The driver thread goes on at another place. -/
def goto (state : Threads) (place : Place) : Threads :=
  { state with place := place }

/-- A call of `vproc_ffi_create_process` goes on. -/
def setCreate (state : Threads) (call : CallId) (create : CreateCall) :
    Threads :=
  { state with creates := Function.update state.creates call create }

/-- A call of `vproc_ffi_run_until_exit` goes on. -/
def setExit (state : Threads) (call : CallId) (exit : ExitCall) :
    Threads :=
  { state with exits := Function.update state.exits call exit }

/-- `wake.notify_all()`. -/
def notifyWake (state : Threads) : Threads :=
  { state with
    place := if state.place = .waiting then .woken else state.place }

/-- The step of a thread which needs the session mutex. -/
def whenUnlocked (state : Threads) (result : Threads) : Option Threads :=
  if state.place.holdsLock then none else some result

/-- A step of the executor, after which the driver thread goes on. -/
def drive (state : Threads) (op : DriverOp) (after : Machine → Place) :
    Option Threads :=
  (state.machine.step op).map fun machine =>
    { state with machine := machine, place := after machine }

/-! ## The driver thread -/

/-- A duplicate of a standard descriptor, or the descriptor itself. -/
def savedFd (fd reply : CInt) : CInt :=
  if 0 ≤ reply then reply else fd

/-- The standard descriptors are saved; the kernel chooses the numbers. -/
def start (state : Threads) (answers : StdFds) : Threads :=
  let world := state.machine.world
  let first := world.kernel.dup 0 answers.1
  let second := first.1.dup 1 answers.2.1
  let third := second.1.dup 2 answers.2.2
  { state with
    machine :=
      { world := { world with kernel := third.1 }
        driver := state.machine.driver }
    savedFds :=
      (savedFd 0 first.2, savedFd 1 second.2, savedFd 2 third.2)
    place := .top }

/-- The beginning of the loop: the flag, or the requests in the queue. -/
def enter (state : Threads) : Threads :=
  if state.shutdown then
    let reaped := Driver.reapStep state.machine.world state.machine.driver
    { state with
      machine := { world := reaped.1.cleanup, driver := reaped.2 }
      place := .ended }
  else
    { state with spawnQueue := [], place := .serving state.spawnQueue }

/-- One turn of the loop over the drained requests, up to its answer. -/
def serve (state : Threads) (request : SpawnRequest)
    (requests : List SpawnRequest) (loaded : Bool) : Option Threads :=
  let vpid := if loaded then state.executor.nextPid else 0
  let served := { state with served := state.served ++ [(request, vpid)] }
  if loaded then
    served.drive
      (.createProcess request.fds.1 request.fds.2.1 request.fds.2.2)
      fun _ => .answering request.call vpid requests
  else some (served.goto (.answering request.call vpid requests))

/-- The answer to a request. -/
def answer (state : Threads) (call : CallId) (vpid : VPid)
    (requests : List SpawnRequest) : Threads :=
  { state with
    spawnResults := Function.update state.spawnResults call (some vpid)
    place := .serving requests }

/-- Where the driver goes on when the coroutine has run or has not. -/
def afterStep (waiters : List Waiter) (machine : Machine) : Place :=
  if machine.driver.turn.isNone then .checking [] waiters else .running

/-- One turn of `s.waiters.retain`. -/
def checkWaiter (state : Threads) (kept : List Waiter) (waiter : Waiter)
    (left : List Waiter) : Threads :=
  match state.executor.getExitCode waiter.vpid with
  | some code =>
      { state with
        exitResults :=
          Function.update state.exitResults waiter.call (some code)
        place := .checking kept left }
  | none => state.goto (.checking (kept ++ [waiter]) left)

/-- `has_ready`: some coroutine is neither done nor waiting. -/
def hasReady (ex : Executor) : Bool :=
  !(values ex.vprocs).all fun co => co.isDone || co.ioWait.isSome

/-- `has_work || s.shutdown`. -/
def staysAwake (state : Threads) (spawnHasWork : Bool) : Bool :=
  spawnHasWork || !state.waiters.isEmpty || hasReady state.executor ||
    state.shutdown

/-! ## The clients -/

/-- A failed `try_lock`, at most 100 of them. -/
def tryAgain (fds : StdFds) (tries : Nat) : CreateCall :=
  if tries + 1 < 100 then .trying fds (tries + 1) else .returned 0

/-- The push to the spawn queue. -/
def push (state : Threads) (call : CallId) (fds : StdFds) : Threads :=
  { state.setCreate call .notifying with
    spawnQueue := state.spawnQueue ++ [⟨call, fds⟩]
    pushed := state.pushed ++ [⟨call, fds⟩] }

/-- One look at the result slot of a request, at most 1001 of them. -/
def pollResult (state : Threads) (call : CallId) (attempts : Nat) :
    CreateCall :=
  match state.spawnResults call with
  | some vpid => .returned vpid
  | none =>
      if 1000 < attempts + 1 then .returned 0 else .polling (attempts + 1)

/-- The first check of `vproc_ffi_run_until_exit`. -/
def check (state : Threads) (vpid : VPid) : ExitCall :=
  match state.executor.getExitCode vpid with
  | some code => .returned vpid (.code code)
  | none => .rechecking vpid

/-- The second check, which registers a waiter. -/
def recheck (state : Threads) (call : CallId) (vpid : VPid) : Threads :=
  match state.executor.getExitCode vpid with
  | some code => state.setExit call (.returned vpid (.code code))
  | none =>
      notifyWake
        { state.setExit call (.polling vpid 0) with
          waiters := state.waiters ++ [⟨vpid, call⟩] }

/-- One look at the result slot of a waiter, at most 30000 of them. -/
def look (state : Threads) (call : CallId) (vpid : VPid) (looks : Nat) :
    ExitCall :=
  match state.exitResults call with
  | some code => .returned vpid (.code code)
  | none =>
      if looks + 1 < 30000 then .polling vpid (looks + 1)
      else .returned vpid .timedOut

/-! ## Steps -/

/-- One step of the driver thread. -/
def driverStep (state : Threads) : ThreadOp → Place → Option Threads
  | .start answers, .starting => some (state.start answers)
  | .enter, .top => some state.enter
  | .serve loaded, .serving (request :: requests) =>
      state.serve request requests loaded
  | .answer, .answering call vpid requests =>
      some (state.answer call vpid requests)
  | .stepFromDriver, .serving [] =>
      state.drive (.stepFromDriverWithFdSwap state.savedFds)
        (afterStep state.waiters)
  | .coroutine op, .running =>
      if isCoroutineOp op then state.drive op (afterStep state.waiters)
      else none
  | .checkWaiter, .checking kept (waiter :: left) =>
      some (state.checkWaiter kept waiter left)
  | .checkWaiter, .checking kept [] =>
      some { state with waiters := kept, place := .reaping }
  | .reap, .reaping =>
      state.drive .reapDoneCoroutines fun _ => .collecting
  | .collect, .collecting =>
      state.drive .collectIoWaits fun machine =>
        if machine.driver.polled.isEmpty then .between else .polling
  | .poll (some (revents, now)), .polling =>
      state.drive (.wakeIoReady revents now) fun _ => .between
  | .poll none, .polling => some (state.goto .between)
  | .lockForWait, .between => some (state.goto .testing)
  | .readQueue, .testing =>
      some (state.goto (.tested !state.spawnQueue.isEmpty))
  | .decideWait, .tested spawnHasWork =>
      some
        (state.goto
          (if state.staysAwake spawnHasWork then .top else .waiting))
  | .spuriousWake, .waiting => some (state.goto .woken)
  | .relock, .woken => some (state.goto .testing)
  | _, _ => none

/-- One step of a call of `vproc_ffi_create_process`. -/
def createStep (state : Threads) (call : CallId) :
    ThreadOp → CreateCall → Option Threads
  | .createProcess _ fds, .notMade =>
      if state.destroying then none
      else if state.listed then
        some (state.setCreate call (.trying fds 0))
      else some (state.setCreate call (.returned 0))
  | .tryLock _ true, .trying fds _ =>
      state.whenUnlocked (state.setCreate call (.pushing fds))
  | .tryLock _ false, .trying fds tries =>
      some (state.setCreate call (tryAgain fds tries))
  | .push _, .pushing fds => some (state.push call fds)
  | .notify _, .notifying =>
      state.whenUnlocked (state.setCreate call (.polling 0)).notifyWake
  | .pollResult _, .polling attempts =>
      some (state.setCreate call (state.pollResult call attempts))
  | _, _ => none

/-- One step of a call of `vproc_ffi_run_until_exit`. -/
def exitStep (state : Threads) (call : CallId) :
    ThreadOp → ExitCall → Option Threads
  | .runUntilExit _ vpid, .notMade =>
      if state.destroying then none
      else if state.listed then
        some (state.setExit call (.checking vpid))
      else some (state.setExit call (.returned vpid .noSession))
  | .check _, .checking vpid =>
      state.whenUnlocked (state.setExit call (state.check vpid))
  | .recheck _, .rechecking vpid =>
      state.whenUnlocked (state.recheck call vpid)
  | .look _, .polling vpid looks =>
      some (state.setExit call (state.look call vpid looks))
  | _, _ => none

/-- One step of a thread. -/
def step (state : Threads) : ThreadOp → Option Threads
  | .createProcess call fds =>
      state.createStep call (.createProcess call fds) (state.creates call)
  | .tryLock call obtained =>
      state.createStep call (.tryLock call obtained) (state.creates call)
  | .push call => state.createStep call (.push call) (state.creates call)
  | .notify call =>
      state.createStep call (.notify call) (state.creates call)
  | .pollResult call =>
      state.createStep call (.pollResult call) (state.creates call)
  | .runUntilExit call vpid =>
      state.exitStep call (.runUntilExit call vpid) (state.exits call)
  | .check call => state.exitStep call (.check call) (state.exits call)
  | .recheck call =>
      state.exitStep call (.recheck call) (state.exits call)
  | .look call => state.exitStep call (.look call) (state.exits call)
  | .destroySession =>
      if state.destroying then none
      else some { state with listed := false, destroying := state.listed }
  | .setShutdown =>
      if state.destroying then
        state.whenUnlocked
          { state with destroying := false, shutdown := true }
      else none
  | .elsewhere op =>
      (state.machine.world.step op).map fun world =>
        { state with
          machine := { world := world, driver := state.machine.driver } }
  | op => state.driverStep op state.place

end Threads

end Vproc.Ffi.SessionThreads
