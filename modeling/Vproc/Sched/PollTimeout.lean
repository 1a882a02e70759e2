import Vproc.Fd.Select
import Vproc.Sched.Lineage
import Vproc.Sched.ReadyQueue

/-!
# Timeouts of `poll` and `select`

A coroutine which finds nothing ready parks with `yield_for_io`, which turns
the timeout into a deadline in its scheduler record.  `wake_io_ready` wakes it
when the deadline has passed, and clears the record.  The loop of `poll` knows
nothing of that: it looks at its descriptors, and if still none is ready it
parks with the timeout it was called with, from now on.

So a finite timeout does not end a call.  `select` waits in the same loop.
-/

namespace Vproc.Sched.PollTimeout

open Vproc.Lib.Run
open Vproc.Fd.Table
open Vproc.Fd.Runtime
open Vproc.Fd.Poll
open Vproc.Fd.Select
open Vproc.Sched.Scheduler
open Vproc.Sched.DriverLoop
open Vproc.Sched.DriverSteps
open Vproc.Sched.Lineage
open Vproc.Sched.ReadyQueue

/-! ## Calls in a session -/

/-- A call of `poll`, or of `select`, which calls it. -/
inductive Request where
  | poll (fds : List PollFd) (timeout : CInt)
  | select (nfds : CInt) (sets : FdSets) (timeout : Option Timeval)
deriving DecidableEq

/-- The array `poll` is called with. -/
def Request.fds : Request → List PollFd
  | .poll fds _ => fds
  | .select nfds sets _ => pollfds nfds sets

/-- The milliseconds `poll` is called with. -/
def Request.timeout : Request → CInt
  | .poll _ timeout => timeout
  | .select _ _ timeout => (timeoutMs timeout).toInt

/-- A call which has returned. -/
structure Reply where
  caller : VPid
  request : Request
  ret : CInt
deriving DecidableEq

/--
A session, with the calls its coroutines are in, and whether a coroutine was
woken after its deadline since it parked.
-/
structure Polling where
  machine : Machine
  inside : VPid → Option Request
  expired : VPid → Bool
  replies : List Reply

/--
The running coroutine makes a call, or goes around the loop of its call once
more; anything else is a step of the driver.
-/
inductive PollOp where
  | driver (op : DriverOp)
  | call (request : Request) (kernel : KernelPoll) (now : Nat)
  | again (kernel : KernelPoll) (now : Nat)

namespace Polling

/-- A session in which nothing has happened. -/
def init (world : World) : Polling where
  machine := Machine.init world
  inside := fun _ => none
  expired := fun _ => false
  replies := []

/-- The running coroutine is inside of a call. -/
def blocked (state : Polling) : Bool :=
  state.machine.driver.turn.any fun turn => (state.inside turn.pid).isSome

/-- The calls after a step: a fork child is in the same call as its parent. -/
def insideAfter (state : Polling) (op : DriverOp) : VPid → Option Request :=
  if spawns state.machine.driver op then
    Function.update state.inside state.machine.driver.executor.nextPid
      (match op with
      | .spawnForkChild parent => state.inside parent
      | _ => none)
  else state.inside

/-- `wake_io_ready` wakes those whose deadline has passed. -/
def expiredAfter (state : Polling) (op : DriverOp) : VPid → Bool :=
  match op with
  | .wakeIoReady _ now => fun pid =>
      state.expired pid ||
        (state.machine.driver.executor.vprocs.lookup pid).any
          (Executor.hasExpired now)
  | _ =>
      if spawns state.machine.driver op then
        Function.update state.expired
          state.machine.driver.executor.nextPid false
      else state.expired

/-- What `yield_for_io` is given. -/
def waitList (waitFds : List PollFd) : List (CInt × Int) :=
  waitFds.map fun pfd => (pfd.fd, pfd.events.toInt)

/--
One turn of the loop, and `yield_for_io` if it does not end.  A call without
descriptors stays in the kernel.
-/
def loopTurn (state : Polling) (caller : VPid) (request : Request)
    (kernel : KernelPoll) (now : Nat) : Option Polling :=
  match pollRound state.machine.world caller kernel request.fds
    request.timeout with
  | .returns count =>
      some
        { machine := state.machine
          inside := Function.update state.inside caller none
          expired := Function.update state.expired caller false
          replies :=
            state.replies ++
              [{ caller := caller, request := request, ret := count }] }
  | .parks waitFds =>
      (state.machine.step
          (.yieldForIo (waitList waitFds) request.timeout now)).map
        fun next =>
          { machine := next
            inside := Function.update state.inside caller (some request)
            expired := Function.update state.expired caller false
            replies := state.replies }
  | .kernel => none

/-- One step of a session with its calls. -/
def step (state : Polling) : PollOp → Option Polling
  | .driver op =>
      if state.blocked then none
      else
        (state.machine.step op).map fun next =>
          { machine := next
            inside := state.insideAfter op
            expired := state.expiredAfter op
            replies := state.replies }
  | .call request kernel now =>
      if state.blocked then none
      else
        state.machine.driver.turn.bind fun turn =>
          state.loopTurn turn.pid request kernel now
  | .again kernel now =>
      state.machine.driver.turn.bind fun turn =>
        (state.inside turn.pid).bind fun request =>
          state.loopTurn turn.pid request kernel now

end Polling

open Polling

/--
A coroutine is back in its call with a finite timeout after its deadline has
passed, and none of its descriptors is ready.
-/
structure TimedOut (state : Polling) (kernel : KernelPoll) (caller : VPid)
    (request : Request) : Prop where
  runs : state.machine.driver.turn.map Turn.pid = some caller
  inside : state.inside caller = some request
  finite : 0 < request.timeout
  expired : state.expired caller = true
  unready :
    readyCount state.machine.world caller kernel request.fds = 0

/-- The call returns 0. -/
def ReturnsZero (state next : Polling) (caller : VPid)
    (request : Request) : Prop :=
  next.replies =
    state.replies ++ [{ caller := caller, request := request, ret := 0 }]

/-- The call goes on, with a deadline counted from now. -/
def ParksAnew (next : Polling) (caller : VPid) (request : Request)
    (now : Nat) : Prop :=
  next.inside caller = some request ∧
    ((next.machine.driver.executor.vprocs.lookup caller).bind
        Coroutine.ioWait).map IoWait.deadline =
      some (some (now + request.timeout.toNat))

/-- What a timed-out call is to do. -/
def TimesOut (state : Polling) (op : PollOp) (next : Polling) : Prop :=
  match op with
  | .again kernel _ =>
      ∀ caller request, TimedOut state kernel caller request →
        ReturnsZero state next caller request
  | _ => True

/-- What it does. -/
def ParksInstead (state : Polling) (op : PollOp) (next : Polling) : Prop :=
  match op with
  | .again kernel now =>
      ∀ caller request, TimedOut state kernel caller request →
        ¬ ReturnsZero state next caller request ∧
          ParksAnew next caller request now
  | _ => True

/-! ## Parking -/

/-- The running process is current, there and not done. -/
structure Sound (state : Polling) : Prop where
  runs : TurnRuns state.machine.driver
  live : RunsLive state.machine.driver

theorem sound_machine
    {machine next : Machine} {op : DriverOp}
    (moved : machine.step op = some next)
    (runs : TurnRuns machine.driver) (live : RunsLive machine.driver) :
    TurnRuns next.driver ∧ RunsLive next.driver := by
  have change := change_of_machineStep moved
  exact ⟨turnRuns_change change runs, runsLive_change change live⟩

theorem sound_loopTurn
    {state next : Polling} {caller : VPid} {request : Request}
    {kernel : KernelPoll} {now : Nat} (sound : Sound state)
    (looked : state.loopTurn caller request kernel now = some next) :
    Sound next := by
  unfold loopTurn at looked
  split at looked
  · cases looked
    exact ⟨sound.runs, sound.live⟩
  · obtain ⟨machine, moved, rfl⟩ := Option.map_eq_some_iff.mp looked
    obtain ⟨runs, live⟩ := sound_machine moved sound.runs sound.live
    exact ⟨runs, live⟩
  · cases looked

theorem sound_step
    (state : Polling) (op : PollOp) (next : Polling)
    (sound : Sound state) (stepped : step state op = some next) :
    Sound next := by
  cases op with
  | driver op =>
      unfold step at stepped
      dsimp only at stepped
      split at stepped
      · cases stepped
      · obtain ⟨machine, moved, rfl⟩ :=
          Option.map_eq_some_iff.mp stepped
        obtain ⟨runs, live⟩ := sound_machine moved sound.runs sound.live
        exact ⟨runs, live⟩
  | call request kernel now =>
      unfold step at stepped
      dsimp only at stepped
      split at stepped
      · cases stepped
      · obtain ⟨turn, _, looked⟩ := Option.bind_eq_some_iff.mp stepped
        exact sound_loopTurn sound looked
  | again kernel now =>
      obtain ⟨turn, _, entered⟩ := Option.bind_eq_some_iff.mp stepped
      obtain ⟨request, _, looked⟩ := Option.bind_eq_some_iff.mp entered
      exact sound_loopTurn sound looked

/-- `yield_for_io` leaves its deadline in the record of the process. -/
theorem deadline_of_yieldForIo
    {machine next : Machine} {turn : Turn}
    {fds : List (CInt × Int)} {timeoutMs : CInt} {now : Nat}
    (isTurn : machine.driver.turn = some turn)
    (runs : TurnRuns machine.driver) (live : RunsLive machine.driver)
    (moved :
      machine.step (.yieldForIo fds timeoutMs now) = some next) :
    ((next.driver.executor.vprocs.lookup turn.pid).bind
        Coroutine.ioWait).map IoWait.deadline =
      some (Executor.deadlineOf timeoutMs now) := by
  obtain ⟨co, found, notDone⟩ := live turn isTurn
  have current := runs turn isTurn
  obtain ⟨result, ended, rfl⟩ := Option.map_eq_some_iff.mp moved
  obtain ⟨_, same, restored⟩ := Option.bind_eq_some_iff.mp ended
  cases isTurn.symm.trans same
  obtain ⟨_, _, rfl⟩ := Option.map_eq_some_iff.mp restored
  simp only [lookup_resumeEnd, if_true, Executor.yieldForIo, current,
    lookup_update, found, Option.map_some, notDone, Bool.false_eq_true,
    if_false, Option.bind_some, ioWait_settled]

/-- A timed-out call does not return: it parks with its whole timeout. -/
theorem parksInstead_step
    (state : Polling) (op : PollOp) (next : Polling)
    (sound : Sound state) (stepped : step state op = some next) :
    ParksInstead state op next := by
  cases op with
  | driver op => exact True.intro
  | call request kernel now => exact True.intro
  | again kernel now =>
      intro caller request timedOut
      obtain ⟨turn, isTurn, entered⟩ := Option.bind_eq_some_iff.mp stepped
      obtain ⟨_, isInside, looked⟩ := Option.bind_eq_some_iff.mp entered
      have isCaller : turn.pid = caller := by
        have runs := timedOut.runs
        rw [isTurn] at runs
        exact Option.some.inj runs
      subst isCaller
      cases isInside.symm.trans timedOut.inside
      have finite : request.timeout ≠ 0 := timedOut.finite.ne'
      unfold loopTurn at looked
      by_cases empty : request.fds = []
      · simp [pollRound, empty] at looked
      · rw [pollRound_of_unready empty finite timedOut.unready] at looked
        obtain ⟨machine, moved, rfl⟩ := Option.map_eq_some_iff.mp looked
        refine ⟨?_, Function.update_self _ _ _, ?_⟩
        · intro returned
          have longer := congrArg List.length returned
          simp at longer
        · have deadline :=
            deadline_of_yieldForIo isTurn sound.runs sound.live moved
          have positive : ¬ request.timeout < 0 :=
            not_lt.mpr timedOut.finite.le
          rw [Executor.deadlineOf, if_neg positive] at deadline
          exact deadline

theorem sound_init (world : World) : Sound (Polling.init world) where
  runs := nofun
  live := runsLive_new

/--
In every run: whenever a call of `poll` or `select` with a finite timeout is
woken after its deadline and finds nothing ready, it does not return 0, but
parks again with its whole timeout.
-/
theorem expired_poll_parks_again (world : World) (ops : List PollOp) :
    Along step ParksInstead (Polling.init world) ops := by
  refine
    @along_mono _ _ _ (fun _ _ _ => True) ParksInstead Sound ?_ ?_ _ _
      (sound_init world) (along_of_forall (fun _ _ _ _ => True.intro) _ _)
  · exact fun state op next sound stepped _ =>
      sound_step state op next sound stepped
  · exact fun state op next sound stepped _ =>
      parksInstead_step state op next sound stepped

/-- A process makes a call, parks, is woken at 7 and gets its next turn. -/
def wokenIn (request : Request) : List PollOp :=
  [.driver (.createProcess 0 1 2), .driver .stepFromDriver,
    .call request .silent 0, .driver .collectIoWaits,
    .driver (.wakeIoReady [false] 7), .driver .stepFromDriver]

/-- Standard input is polled for 5 ms. -/
def pollInput : Request :=
  .poll [{ fd := 0, events := pollIn }] 5

/-- The same with `select`, whose only set has the bit of number 0. -/
def selectInput : Request :=
  .select 1 { readfds := some 1, writefds := none, exceptfds := none }
    (some { tvSec := 0, tvUsec := 5000 })

/-- The state in which the process looks again. -/
def woken (request : Request)
    (runs :
      (run step (Polling.init (World.init .standard))
        (wokenIn request)).isSome =
      true) :
    Polling :=
  (run step (Polling.init (World.init .standard)) (wokenIn request)).get
    runs

instance (state next : Polling) (caller : VPid) (request : Request) :
    Decidable (ReturnsZero state next caller request) :=
  inferInstanceAs (Decidable (_ = _))

/-- A run whose last turn is that of a timed-out call. -/
theorem not_timesOut
    {start state : Polling} {ops : List PollOp} {kernel : KernelPoll}
    {now : Nat} {caller : VPid} {request : Request}
    (reached : run step start ops = some state)
    (runs : (step state (.again kernel now)).isSome = true)
    (timedOut : TimedOut state kernel caller request)
    (unreturned :
      ¬ ReturnsZero state ((step state (.again kernel now)).get runs)
        caller request) :
    ¬ Along step TimesOut start (ops ++ [.again kernel now]) := by
  intro along
  obtain ⟨timesOut, _⟩ :=
    along_append along reached _ (Option.some_get runs).symm
  exact unreturned (timesOut caller request timedOut)

/-- Woken at 7 for their deadline 5, the calls park again at 8. -/
theorem expired_poll_does_not_return :
    ¬ Along step TimesOut (Polling.init (World.init .standard))
        (wokenIn pollInput ++ [.again .silent 8]) ∧
      ¬ Along step TimesOut (Polling.init (World.init .standard))
        (wokenIn selectInput ++ [.again .silent 8]) := by
  constructor
  · have timedOut :
        TimedOut (woken pollInput (by decide)) .silent 1 pollInput :=
      ⟨by decide, by decide, by decide, by decide, by decide⟩
    exact
      not_timesOut (Option.some_get _).symm (by decide) timedOut
        (by decide)
  · have timedOut :
        TimedOut (woken selectInput (by decide +kernel)) .silent 1
          selectInput :=
      ⟨by decide +kernel, by decide +kernel, by decide +kernel,
        by decide +kernel, by decide +kernel⟩
    exact
      not_timesOut (Option.some_get _).symm (by decide +kernel) timedOut
        (by decide +kernel)

end Vproc.Sched.PollTimeout
