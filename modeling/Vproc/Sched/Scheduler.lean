import Vproc.Fd.Runtime

/-!
# The cooperative scheduler

An executor owns the coroutines of a session, a queue of those which are ready
to run, and the exit codes of those which have finished.  The functions of the
source are given here as functions on that state.

A resume is one call in the source, during which the coroutine runs.  Here it
is cut in two: `resumeBegin` is what happens before control passes to the
coroutine, `resumeEnd` what happens after it has come back.  What the
coroutine does in between are steps of their own (`Vproc.Sched.DriverLoop`).
-/

namespace Vproc.Sched.Scheduler

open Vproc.Lib.FiniteMap
open Vproc.Fd.Table
open Vproc.Fd.Runtime

/-- `State` of a coroutine. -/
inductive State where
  | ready
  | running
  | done
deriving DecidableEq, Repr

/-- `IoWait`: the polled descriptors with their events, and the deadline. -/
structure IoWait where
  fds : List (CInt × Int)
  deadline : Option Nat
deriving DecidableEq, Repr

/-- What a coroutine runs: a closure through the trampoline, or an entry. -/
inductive Body where
  | closure
  | elf
deriving DecidableEq, Repr

/--
`Coroutine`.  `started` says whether its context has been entered, and
`closure` whether its user data still holds the closure to run.
-/
structure Coroutine where
  id : VPid
  ppid : VPid
  body : Body
  started : Bool
  closure : Bool
  state : State
  exitCode : CInt
  isForkChild : Bool
  forkChildPid : VPid
  pendingSignals : List CInt
  cwd : Option String
  binaryPath : Option String
  ioWait : Option IoWait
deriving DecidableEq, Repr

namespace Coroutine

/-- `Coroutine::new`. -/
def new (id : VPid) : Coroutine where
  id := id
  ppid := 0
  body := .closure
  started := false
  closure := true
  state := .ready
  exitCode := 0
  isForkChild := false
  forkChildPid := 0
  pendingSignals := []
  cwd := none
  binaryPath := none
  ioWait := none

/-- `Coroutine::new_elf`. -/
def newElf (id : VPid) : Coroutine :=
  { new id with body := .elf, closure := false }

/--
`Coroutine::fork_from`: the context is the parent's, also if it has not been
entered yet, and the user data holds no closure.
-/
def forkFrom (id : VPid) (parent : Coroutine) : Coroutine :=
  { new id with
    ppid := parent.id
    body := parent.body
    started := parent.started
    closure := false
    isForkChild := true
    cwd := parent.cwd }

/-- `is_done`. -/
def isDone (co : Coroutine) : Bool :=
  co.state == .done

/-- `set_done`: the closure is dropped. -/
def setDone (co : Coroutine) (code : CInt) : Coroutine :=
  { co with state := .done, exitCode := code, closure := false }

end Coroutine

/-- `Executor`. -/
structure Executor where
  vprocs : KeyMap VPid Coroutine
  readyQueue : List VPid
  nextPid : VPid
  current : Option VPid
  switchCount : Nat
  children : KeyMap VPid (List VPid)
  exitCodes : KeyMap VPid CInt

namespace Executor

/-- `Executor::new`. -/
def new : Executor where
  vprocs := ∅
  readyQueue := []
  nextPid := 1
  current := none
  switchCount := 0
  children := ∅
  exitCodes := ∅

/-- Take the next process number, as a release build counts. -/
def takePid (ex : Executor) : Executor :=
  { ex with nextPid := succU32 ex.nextPid }

/-- Enter a coroutine under a number. -/
def insertCoroutine (ex : Executor) (pid : VPid) (co : Coroutine) :
    Executor :=
  { ex with vprocs := ex.vprocs.insert pid co }

/-- `ready_queue.push_back`. -/
def pushBack (ex : Executor) (pid : VPid) : Executor :=
  { ex with readyQueue := ex.readyQueue ++ [pid] }

/-- `ready_queue.push_front`. -/
def pushFront (ex : Executor) (pid : VPid) : Executor :=
  { ex with readyQueue := pid :: ex.readyQueue }

/-- Change one coroutine in place. -/
def update (ex : Executor) (pid : VPid)
    (change : Coroutine → Coroutine) : Executor :=
  { ex with vprocs := modify pid change ex.vprocs }

/-- `spawn`. -/
def spawn (ex : Executor) : Executor × VPid :=
  let pid := ex.nextPid
  ((ex.takePid.insertCoroutine pid (Coroutine.new pid)).pushBack pid, pid)

/-- `spawn_front`. -/
def spawnFront (ex : Executor) : Executor × VPid :=
  let pid := ex.nextPid
  ((ex.takePid.insertCoroutine pid (Coroutine.new pid)).pushFront pid, pid)

/-- `spawn_elf`. -/
def spawnElf (ex : Executor) : Executor × VPid :=
  let pid := ex.nextPid
  ((ex.takePid.insertCoroutine pid (Coroutine.newElf pid)).pushBack pid,
    pid)

/-- `children.entry(parent).or_default().push(child)`. -/
def addChild (ex : Executor) (parent child : VPid) : Executor :=
  { ex with
    children :=
      ex.children.insert parent
        (((ex.children.lookup parent).getD []) ++ [child]) }

/--
`spawn_fork_child`, without the descriptor table; none if the parent is not
there, which is a panic.
-/
def spawnForkChild (ex : Executor) (parentPid : VPid) :
    Option (Executor × VPid) :=
  let childId := ex.nextPid
  (ex.vprocs.lookup parentPid).map fun parent =>
    (((((ex.takePid.insertCoroutine childId
              (Coroutine.forkFrom childId parent)).pushBack
            childId).addChild parentPid childId).update parentPid
        fun co => { co with forkChildPid := childId }),
      childId)

/-! ## Picking and resuming -/

/-- The loop of `pick_next`: what is left of the queue, and the choice. -/
def pickLoop (vprocs : KeyMap VPid Coroutine) :
    List VPid → List VPid × Option VPid
  | [] => ([], none)
  | pid :: rest =>
      match vprocs.lookup pid with
      | some co =>
          if co.isDone then pickLoop vprocs rest else (rest, some pid)
      | none => pickLoop vprocs rest

/-- `pick_next`. -/
def pickNext (ex : Executor) : Executor × Option VPid :=
  let picked := pickLoop ex.vprocs ex.readyQueue
  ({ ex with readyQueue := picked.1 }, picked.2)

/-- `SIGKILL` and `SIGTERM`. -/
def isFatal (sig : CInt) : Bool :=
  sig == 9 || sig == 15

/--
`deliver_signals`: the pending signals are taken, and the first fatal one
marks the coroutine done.
-/
def deliverSignals (ex : Executor) (pid : VPid) : Executor × Bool :=
  match ex.vprocs.lookup pid with
  | none => (ex, false)
  | some co =>
      if co.pendingSignals.isEmpty then (ex, false)
      else
        match co.pendingSignals.find? isFatal with
        | some sig =>
            (ex.update pid fun co =>
                { co with pendingSignals := [] }.setDone (128 + sig),
              true)
        | none =>
            (ex.update pid fun co => { co with pendingSignals := [] },
              false)

/-- The trampoline of a closure which has been dropped panics. -/
def cannotStart (co : Coroutine) : Bool :=
  co.body == .closure && !co.started && !co.closure

/--
Make a coroutine the current one and pass control to it; none if it is not
there, or if its closure is gone.
-/
def resumeBegin (ex : Executor) (pid : VPid) : Option Executor :=
  match ex.vprocs.lookup pid with
  | none => none
  | some co =>
      if cannotStart co then none
      else
        some
          { ex.update pid fun co =>
              { co with state := .running, started := true } with
            current := some pid
            switchCount := (ex.switchCount + 1) % 18446744073709551616 }

/-- The rest of `Coroutine::resume`, and `current = None` of its caller. -/
def resumeEnd (ex : Executor) (pid : VPid) (dead : Bool) : Executor :=
  { ex.update pid fun co =>
      if co.isDone then co
      else { co with state := if dead then .done else .ready } with
    current := none }

/-- `ready_queue.push_back` of the current process, if there is one. -/
def requeueCurrent (ex : Executor) : Executor :=
  match ex.current with
  | none => ex
  | some pid => ex.pushBack pid

/-- The same, if the current process is there and not done. -/
def requeueLive (ex : Executor) : Executor :=
  match ex.current with
  | none => ex
  | some pid =>
      match ex.vprocs.lookup pid with
      | none => ex
      | some co => if co.isDone then ex else ex.pushBack pid

/--
`step` until control passes to the coroutine it resumes, if it resumes one;
none if that is not possible.
-/
def stepBegin (ex : Executor) : Option (Executor × Option VPid) :=
  match ex.pickNext with
  | (picked, none) => some (picked, none)
  | (picked, some pid) =>
      let delivered := picked.deliverSignals pid
      if delivered.2 then some (delivered.1.requeueCurrent, none)
      else
        (delivered.1.requeueLive.resumeBegin pid).map fun resumed =>
          (resumed, some pid)

/-! ## Calls of the running coroutine -/

/-- `do_yield` inside a coroutine, before it switches. -/
def doYield (ex : Executor) : Executor :=
  ex.requeueLive

/-- The deadline `yield_for_io` computes from its timeout. -/
def deadlineOf (timeoutMs : CInt) (now : Nat) : Option Nat :=
  if timeoutMs < 0 then none else some (now + timeoutMs.toNat)

/-- `yield_for_io` inside a coroutine, before it switches. -/
def yieldForIo (ex : Executor) (fds : List (CInt × Int))
    (timeoutMs : CInt) (now : Nat) : Executor :=
  match ex.current with
  | none => ex
  | some pid =>
      ex.update pid fun co =>
        if co.isDone then co
        else
          { co with
            ioWait :=
              some { fds := fds, deadline := deadlineOf timeoutMs now } }

/-- `vproc_exit_with_code`, before it switches. -/
def vprocExitWithCode (ex : Executor) (code : CInt) : Executor :=
  match ex.current with
  | none => ex
  | some pid =>
      { ex.update pid fun co =>
          { co with state := .done, exitCode := code } with
        exitCodes := ex.exitCodes.insert pid code }

/-- `get_exit_code`. -/
def getExitCode (ex : Executor) (pid : VPid) : Option CInt :=
  match ex.exitCodes.lookup pid with
  | some code => some code
  | none =>
      (ex.vprocs.lookup pid).bind fun co =>
        if co.isDone then some co.exitCode else none

/-- `remove_exit_code`. -/
def removeExitCode (ex : Executor) (pid : VPid) : Executor :=
  { ex with exitCodes := ex.exitCodes.erase pid }

/-- `kill` of a virtual process: the signal is queued. -/
def kill (ex : Executor) (pid : VPid) (sig : CInt) : Executor :=
  ex.update pid fun co =>
    { co with pendingSignals := co.pendingSignals ++ [sig] }

/-! ## Waiting for descriptors -/

/-- The process numbers of `collect_io_waits`, one for each descriptor. -/
def collectIoWaits (ex : Executor) : List VPid :=
  ex.vprocs.entries.flatMap fun entry =>
    match entry.2.ioWait with
    | some wait => wait.fds.map fun _ => entry.1
    | none => []

/-- `if !ready_pids.contains(&pid) { ready_pids.push(pid) }`. -/
def addReady (readyPids : List VPid) (pid : VPid) : List VPid :=
  if pid ∈ readyPids then readyPids else readyPids ++ [pid]

/-- Has the deadline of a waiting coroutine passed? -/
def hasExpired (now : Nat) (co : Coroutine) : Bool :=
  match co.ioWait with
  | some { deadline := some deadline, .. } => decide (deadline ≤ now)
  | _ => false

/-- The processes which `wake_io_ready` finds ready or timed out. -/
def readyPids (ex : Executor) (polled : List (Bool × VPid))
    (now : Nat) : List VPid :=
  let byPoll :=
    ((polled.filter Prod.fst).map Prod.snd).foldl addReady []
  ((ex.vprocs.entries.filter fun entry =>
      hasExpired now entry.2).map Sigma.fst).foldl addReady byPoll

/-- One turn of the last loop of `wake_io_ready`. -/
def wakeOne (ex : Executor) (pid : VPid) : Executor :=
  let woken := ex.update pid fun co => { co with ioWait := none }
  if pid ∈ woken.readyQueue then woken else woken.pushBack pid

/-- `wake_io_ready`, with the polled numbers and whether they are ready. -/
def wakeIoReady (ex : Executor) (polled : List (Bool × VPid))
    (now : Nat) : Executor :=
  (ex.readyPids polled now).foldl wakeOne ex

/-! ## Reaping -/

/-- The numbers of the coroutines which are done. -/
def donePids (ex : Executor) : List VPid :=
  (ex.vprocs.entries.filter fun entry => entry.2.isDone).map Sigma.fst

/-- The children lists after reaping. -/
def reapedChildren (ex : Executor) : KeyMap VPid (List VPid) :=
  let left := ex.donePids.foldl (fun kids pid => kids.erase pid) ex.children
  retain (fun _ kids => !kids.isEmpty)
    { entries :=
        left.entries.map
          (Sigma.map id fun _ kids =>
            kids.filter fun kid => decide (kid ∈ ex.vprocs))
      nodupKeys := List.NodupKeys.map₂ _ _ left.nodupKeys }

/-- `reap_done_coroutines`, but for the descriptor tables. -/
def reapDone (ex : Executor) : Executor :=
  { ex with
    children := ex.reapedChildren
    vprocs := retain (fun _ co => !co.isDone) ex.vprocs }

end Executor

end Vproc.Sched.Scheduler
