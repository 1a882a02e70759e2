import Vproc.Ffi.Rollover

/-!
# When the driver thread sleeps

The driver thread blocks in `wake.wait` when its test finds no work: the spawn
queue was empty, no client waits for an exit, every coroutine is done or
parked, and the session is not shut down.  A notification wakes it, so while
it sleeps nothing can have been added but requests whose client has not
notified yet.

Two things are not covered by the test or by a notification.  A parked
coroutine does not count as work, so it stays parked for as long as the driver
sleeps.  And the client which shuts the session down does not notify.
-/

namespace Vproc.Ffi.DriverSleep

open Vproc.Lib.Run
open Vproc.Lib.FiniteMap
open Vproc.Fd.Table
open Vproc.Fd.KernelTable
open Vproc.Fd.Runtime
open Vproc.Sched.Scheduler
open Vproc.Sched.DriverLoop
open Vproc.Sched.DriverSteps
open Vproc.Sched.ReadyQueue
open Vproc.Ffi.SessionThreads
open Vproc.Ffi.ThreadSteps
open Vproc.Ffi.Rollover

section Asleep

variable {state next : Threads} {op : ThreadOp}

theorem notifyWake_awake (state : Threads) :
    state.notifyWake.place ≠ .waiting := by
  rcases notifyWake_place state with ⟨woken, _⟩ | ⟨same, awake⟩
  · rw [woken]
    exact fun impossible => nomatch impossible
  · rw [same]
    exact awake

theorem afterStep_awake (waiters : List Waiter) (machine : Machine) :
    Threads.afterStep waiters machine ≠ .waiting := by
  unfold Threads.afterStep
  split
  · exact fun impossible => nomatch impossible
  · exact fun impossible => nomatch impossible

/-- The driver thread falls asleep. -/
structure FallsAsleep (state : Threads) (op : ThreadOp)
    (next : Threads) : Prop where
  isDecision : op = .decideWait
  noWork : ∃ spawnHasWork, state.place = .tested spawnHasWork ∧
    state.staysAwake spawnHasWork = false
  result : next = { state with place := .waiting }

/-- The driver thread was asleep, and what it has tested is as it was. -/
structure SleepsOn (state : Threads) (op : ThreadOp)
    (next : Threads) : Prop where
  asleep : state.place = .waiting
  notDecision : op ≠ .decideWait
  driver : next.machine.driver = state.machine.driver
  waiters : next.waiters = state.waiters
  shutdown : op ≠ .setShutdown → next.shutdown = state.shutdown

/-- There is no other way of being asleep. -/
theorem asleep_move
    (move : Move state op next) (asleep : next.place = .waiting) :
    FallsAsleep state op next ∨ SleepsOn state op next := by
  cases move with
  | driver move =>
      left
      cases move with
      | sleeps here noWork => exact ⟨rfl, ⟨_, here, noWork⟩, rfl⟩
      | begins here stepped => exact (afterStep_awake _ _ asleep).elim
      | runs here allowed stepped =>
          exact (afterStep_awake _ _ asleep).elim
      | collects here stepped =>
          dsimp only at asleep
          split at asleep
          · cases asleep
          · cases asleep
      | _ => cases asleep
  | client move =>
      right
      cases move with
      | notifies here unlocked => exact (notifyWake_awake _ asleep).elim
      | registers here unlocked lives =>
          exact (notifyWake_awake _ asleep).elim
      | shutsDown unlocked =>
          exact ⟨asleep, by simp, rfl, rfl, fun other => (other rfl).elim⟩
      | _ => exact ⟨asleep, by simp, rfl, rfl, fun _ => rfl⟩

end Asleep

/-! ## What there is to do while the driver thread sleeps -/

/-- The driver thread is asleep, or has found the spawn queue empty. -/
def resting : Place → Bool
  | .waiting => true
  | .tested false => true
  | _ => false

/--
While the driver thread sleeps nobody waits for an exit and no coroutine can
run.  The requests in the queue came after the driver had looked at it, and
their clients need the session mutex to notify.
-/
structure Rested (state : Threads) : Prop where
  noWork : state.place = .waiting →
    state.waiters = [] ∧ Threads.hasReady state.executor = false
  unnotified : resting state.place = true →
    ∀ request ∈ state.spawnQueue, state.creates request.call = .notifying

theorem rested_init (world : World) : Rested (Threads.init world) where
  noWork := fun asleep => nomatch asleep
  unnotified := fun _ _ member => nomatch member

section Resting

variable {state next : Threads} {op : ThreadOp}

theorem noWork_move
    (rested : Rested state) (move : Move state op next)
    (asleep : next.place = .waiting) :
    next.waiters = [] ∧ Threads.hasReady next.executor = false := by
  rcases asleep_move move asleep with falls | sleepsOn
  · obtain ⟨spawnHasWork, _, noWork⟩ := falls.noWork
    rw [falls.result]
    simp only [Threads.staysAwake, Bool.or_eq_false_iff,
      Bool.not_eq_false', List.isEmpty_iff] at noWork
    exact ⟨noWork.1.1.2, noWork.1.2⟩
  · have same : next.executor = state.executor :=
      congrArg Driver.executor sleepsOn.driver
    rw [sleepsOn.waiters, same]
    exact rested.noWork sleepsOn.asleep

theorem notifyWake_resting
    (rests : resting state.notifyWake.place = true) :
    state.place.holdsLock = true := by
  rcases notifyWake_place state with ⟨woken, _⟩ | ⟨same, awake⟩
  · rw [woken] at rests
    cases rests
  · rw [same] at rests
    cases here : state.place with
    | waiting => exact (awake here).elim
    | tested spawnHasWork => rfl
    | _ =>
        rw [here] at rests
        cases rests

/-- A call which is not about to notify is not one of those in the queue. -/
theorem notifying_update
    {creates : CallId → CreateCall} {call other : CallId}
    {create after : CreateCall} (here : creates call = create)
    (different : create ≠ .notifying)
    (notifying : creates other = .notifying) :
    Function.update creates call after other = .notifying := by
  have apart : other ≠ call := by
    rintro rfl
    exact different (here.symm.trans notifying)
  rw [Function.update_of_ne apart]
  exact notifying

theorem unnotified_client
    (rested : Rested state) (move : ClientMove state op next)
    (rests : resting next.place = true) :
    ∀ request ∈ next.spawnQueue, next.creates request.call = .notifying := by
  have other {call : CallId} {create after : CreateCall}
      (here : state.creates call = create)
      (different : create ≠ .notifying)
      (rests : resting state.place = true) :
      ∀ request ∈ state.spawnQueue,
        Function.update state.creates call after request.call =
          .notifying :=
    fun request member =>
      notifying_update here different
        (rested.unnotified rests request member)
  cases move with
  | creates fds here listed => exact other here (by simp) rests
  | createsNowhere fds here unlisted => exact other here (by simp) rests
  | obtainsLock here => exact other here (by simp) rests
  | missesLock here => exact other here (by simp) rests
  | readsResult here => exact other here (by simp) rests
  | pushes here =>
      intro request member
      rcases List.mem_append.mp member with queued | pushed
      · exact other here (by simp) rests request queued
      · rw [List.mem_singleton.mp pushed]
        exact Function.update_self _ _ _
  | notifies here unlocked =>
      cases unlocked.symm.trans (notifyWake_resting rests)
  | registers here unlocked lives =>
      cases unlocked.symm.trans (notifyWake_resting rests)
  | _ => exact rested.unnotified rests

theorem unnotified_driver
    (rested : Rested state) (move : DriverMove state op next)
    (rests : resting next.place = true) :
    ∀ request ∈ next.spawnQueue, next.creates request.call = .notifying := by
  have awake {waiters : List Waiter} {machine : Machine}
      (impossible : resting (Threads.afterStep waiters machine) = true) :
      False := by
    unfold Threads.afterStep at impossible
    split at impossible
    · cases impossible
    · cases impossible
  cases move with
  | begins here stepped => exact (awake rests).elim
  | runs here allowed stepped => exact (awake rests).elim
  | collects here stepped =>
      dsimp only at rests
      split at rests
      · cases rests
      · cases rests
  | reads here =>
      -- The queue is empty when the driver finds it so.
      cases empty : state.spawnQueue with
      | nil => exact fun _ member => nomatch member
      | cons first rest =>
          dsimp only at rests
          rw [empty] at rests
          cases rests
  | sleeps here noWork =>
      apply rested.unnotified
      rw [here]
      simp only [Threads.staysAwake, Bool.or_eq_false_iff] at noWork
      rw [noWork.1.1.1]
      rfl
  | _ => cases rests

theorem rested_move (rested : Rested state) (move : Move state op next) :
    Rested next := by
  refine ⟨noWork_move rested move, ?_⟩
  cases move with
  | driver move => exact unnotified_driver rested move
  | client move => exact unnotified_client rested move

end Resting

theorem rested_of_run
    {world : World} {ops : List ThreadOp} {final : Threads}
    (reached : run Threads.step (Threads.init world) ops = some final) :
    Rested final :=
  invariant_of_run
    (fun _ _ _ rested stepped => rested_move rested (move_of_step stepped))
    (rested_init world) reached

/--
While the driver thread sleeps there is nothing to do: no waiter, no coroutine
which could run, and no request whose client has notified.  Until the process
numbers come round, no live coroutine is in the ready queue either.
-/
theorem sleeps_without_work
    (world : World) (ops : List ThreadOp) (final : Threads)
    (reached : run Threads.step (Threads.init world) ops = some final)
    (asleep : final.place = .waiting) :
    final.waiters = [] ∧
      (∀ pid co, final.executor.vprocs.lookup pid = some co →
        co.isDone = true ∨ co.ioWait.isSome = true) ∧
      (final.machine.driver.spawned < 4294967296 →
        ∀ pid ∈ final.executor.readyQueue, ∀ co,
          final.executor.vprocs.lookup pid = some co →
          co.isDone = true) ∧
      ∀ request ∈ final.spawnQueue,
        final.creates request.call = .notifying := by
  have sound := sound_of_run reached
  have rested := rested_of_run reached
  obtain ⟨noWaiters, noneReady⟩ := rested.noWork asleep
  have doneOrParked (pid : VPid) (co : Coroutine)
      (found : final.executor.vprocs.lookup pid = some co) :
      co.isDone = true ∨ co.ioWait.isSome = true :=
    not_hasReady noneReady found
  refine ⟨noWaiters, doneOrParked, ?_, ?_⟩
  · intro few pid queued co found
    have invariant := sound.ordered few
    have idle : final.machine.driver.turn = none :=
      idle_of_place sound asleep (by simp)
    have notRunning : final.executor.current ≠ some pid := by
      rw [Threads.executor, current_of_idle invariant idle]
      rintro ⟨⟩
    rcases doneOrParked pid co found with finished | parked
    · exact finished
    · have absent :=
        (invariant.balanced.waiting pid co found notRunning).2 parked
      exact (List.count_eq_zero.mp absent queued).elim
  · exact rested.unnotified (by rw [asleep]; rfl)

/-- A parked process, and a client which has not notified yet. -/
theorem sleeps_without_work_pushed :
    ∃ final,
      run Threads.step (Threads.init (World.init Kernel.standard))
          [.start (3, 4, 5), .createProcess 0 (0, 1, 2),
            .tryLock 0 true, .push 0, .notify 0, .enter, .serve true,
            .answer, .stepFromDriver,
            .coroutine (.yieldForIo [(0, 1)] (-1) 0), .checkWaiter,
            .reap, .collect, .poll none, .lockForWait,
            .createProcess 1 (0, 1, 2), .readQueue, .decideWait,
            .tryLock 1 true, .push 1] = some final ∧
      final.place = .waiting ∧ final.spawnQueue = [⟨1, (0, 1, 2)⟩] ∧
      final.creates 1 = .notifying := by
  have sleeps :
      (run Threads.step (Threads.init (World.init Kernel.standard))
          [.start (3, 4, 5), .createProcess 0 (0, 1, 2),
            .tryLock 0 true, .push 0, .notify 0, .enter, .serve true,
            .answer, .stepFromDriver,
            .coroutine (.yieldForIo [(0, 1)] (-1) 0), .checkWaiter,
            .reap, .collect, .poll none, .lockForWait,
            .createProcess 1 (0, 1, 2), .readQueue, .decideWait,
            .tryLock 1 true, .push 1]).any
        (fun final =>
          decide
            (final.place = .waiting ∧
              final.spawnQueue = [⟨1, (0, 1, 2)⟩])) =
      true := by
    decide
  obtain ⟨final, reached, holds⟩ := Option.any_eq_true _ _ |>.mp sleeps
  obtain ⟨asleep, queue⟩ := of_decide_eq_true holds
  refine ⟨final, reached, asleep, queue, ?_⟩
  obtain ⟨_, _, _, unnotified⟩ :=
    sleeps_without_work _ _ final reached asleep
  exact unnotified ⟨1, (0, 1, 2)⟩ (by simp [queue])

/-- The driver when the running process has parked on no descriptor. -/
def parked (begun : Driver) (pid : VPid) : Driver :=
  { begun with
    executor := (begun.executor.yieldForIo [] (-1) 0).resumeEnd pid false
    turn := none }

theorem lookup_parked
    {others : VPid → Option Coroutine} {rest : List VPid} {pid : VPid}
    {begun : Driver} (running : Running others rest pid begun)
    (other : VPid) :
    (parked begun pid).executor.vprocs.lookup other =
      if other = pid then
        some
          { Coroutine.new pid with
            started := true
            ioWait := some { fds := [], deadline := none } }
      else others other := by
  simp only [parked, lookup_resumeEnd, Executor.yieldForIo,
    running.current, lookup_update, running.lookup]
  by_cases same : other = pid
  · simp only [same, if_true, Option.map_some]
    rfl
  · simp only [same, if_false]

/-- The only process parks without descriptors to wait for. -/
theorem run_park
    {others : VPid → Option Coroutine} {rest : List VPid} {pid : VPid}
    {state : Threads} (quiet : Quiet state)
    (passing : Passing others rest pid state.machine)
    (alone : ∀ other, other ≠ pid → others other = none) :
    ∃ final,
      run Threads.step state (iteration [.yieldForIo [] (-1) 0]) =
        some final ∧
      final.place = .waiting ∧ final.executor.readyQueue = rest ∧
      ∃ co, final.executor.vprocs.lookup pid = some co ∧
        co.isDone = false := by
  obtain ⟨begun, begins, running, _⟩ := step_begin passing state.savedFds
  have busy : begun.turn ≠ none := by
    rw [running.turn]
    exact fun impossible => nomatch impossible
  have left (other : VPid) (co : Coroutine)
      (found : (parked begun pid).executor.reapDone.vprocs.lookup other =
        some co) :
      co.ioWait = some { fds := [], deadline := none } := by
    obtain ⟨stored, _⟩ := lookup_retain_iff.mp found
    rw [lookup_parked running] at stored
    split at stored
    · cases stored
      rfl
    · rename_i different
      rw [alone other different] at stored
      cases stored
  have nothing :
      (parked begun pid).executor.reapDone.collectIoWaits = [] := by
    apply collectIoWaits_of_ready
    intro other co found wait waits
    rw [left other co found] at waits
    cases waits
    rfl
  have noneReady :
      Threads.hasReady (parked begun pid).executor.reapDone = false := by
    simp only [Threads.hasReady, Bool.not_eq_false', List.all_eq_true,
      Bool.or_eq_true]
    intro co member
    obtain ⟨other, found⟩ := mem_values_iff.mp member
    rw [left other co found]
    exact Or.inr rfl
  have parks :
      Machine.step ⟨state.machine.world, begun⟩ (.yieldForIo [] (-1) 0) =
        some ⟨state.machine.world, parked begun pid⟩ := by
    simp only [Machine.step, Driver.step, Driver.endTurn, running.turn,
      Option.bind_some, Driver.installFds?, Option.map_some]
    rfl
  have finishes :=
    @run_afterTurn
      { state with
        machine := ⟨state.machine.world, parked begun pid⟩
        place := .checking [] state.waiters }
      (congrArg _ quiet.noWaiters) quiet.noShutdown quiet.noRequests
      quiet.noWaiters rfl nothing
  have runs :
      run Threads.step state (iteration [.yieldForIo [] (-1) 0]) =
        some
          { state with
            machine := reaped ⟨state.machine.world, parked begun pid⟩
            place := .waiting } := by
    rw [iteration, run_append, run_append, run_enter quiet begins busy]
    simp only [Option.bind_some, List.map_cons, List.map_nil, run]
    rw [step_coroutine rfl rfl parks]
    simp only [Option.bind_some]
    refine finishes.trans ?_
    simp only [Threads.executor, noneReady]
    rfl
  have queue : (parked begun pid).executor.readyQueue = rest := by
    simp only [parked, Executor.yieldForIo, running.current]
    exact running.queue
  have found :=
    (lookup_parked running pid).trans (if_pos rfl)
  exact
    ⟨_, runs, rfl, queue, _, lookup_retain_iff.mpr ⟨found, rfl⟩, rfl⟩

/-- A process yields, behind its child in the queue. -/
def oneBehind : List ThreadOp :=
  opening ++ iteration [.spawnFront, .doYield]

/-- The other process. -/
def secondWaits (pid : VPid) : Option Coroutine :=
  if pid = 2 then some { Coroutine.new 2 with started := true } else none

theorem run_oneBehind :
    ∃ state,
      run Threads.step (Threads.init (World.init Kernel.standard))
        oneBehind = some state ∧
      Quiet state ∧ Passing secondWaits [2] 3 state.machine := by
  have behind :
      (run Threads.step (Threads.init (World.init Kernel.standard))
          oneBehind).any
        (fun state =>
          decide
            (state.place = .top ∧ state.shutdown = false ∧
              state.spawnQueue = [] ∧ state.waiters = [] ∧
              state.machine.world.tables.entries = [] ∧
              state.machine.driver.turn = none ∧
              state.executor.readyQueue = [3, 2] ∧
              state.executor.nextPid = 4 ∧
              state.executor.vprocs.entries =
                [⟨3, Coroutine.new 3⟩,
                  ⟨2, { Coroutine.new 2 with started := true }⟩])) =
      true := by
    decide
  obtain ⟨state, reached, holds⟩ := Option.any_eq_true _ _ |>.mp behind
  obtain ⟨here, noShutdown, noRequests, noWaiters, noTables, idle, queue,
      next, entries⟩ := of_decide_eq_true holds
  refine
    ⟨state, reached, ⟨here, noShutdown, noRequests, noWaiters⟩,
      ⟨AList.ext noTables, idle, queue, next, ?_⟩⟩
  intro other
  refine Option.ext fun co => ?_
  refine mem_entries_iff.symm.trans ?_
  rw [show state.machine.driver.executor.vprocs.entries = _ from entries,
    secondWaits]
  by_cases third : other = 3
  · simp [third, eq_comm]
  · by_cases second : other = 2
    · simp [second, eq_comm]
    · simp [third, second]

/--
After `2 ^ 32` spawns the number of a process in the queue is given again.
When the new process parks, its number is still in the queue.
-/
theorem sleeps_with_queue_after_wrap :
    ¬ ∀ (world : World) (ops : List ThreadOp) (final : Threads),
      run Threads.step (Threads.init world) ops = some final →
      final.place = .waiting →
      ∀ pid ∈ final.executor.readyQueue, ∀ co,
        final.executor.vprocs.lookup pid = some co →
        co.isDone = true := by
  intro empty
  obtain ⟨state, starts, quiet, passing⟩ := run_oneBehind
  have gone (pid : VPid) (other : pid ≠ 2) : secondWaits pid = none :=
    if_neg other
  have ready : AllReady secondWaits := by
    intro pid co found
    unfold secondWaits at found
    split at found
    · cases found
      exact ⟨rfl, rfl⟩
    · cases found
  obtain ⟨round, machine, goes, second, _⟩ :=
    run_round gone ready quiet passing
  have stillQuiet : Quiet { state with machine := machine } :=
    ⟨quiet.here, quiet.noShutdown, quiet.noRequests, quiet.noWaiters⟩
  obtain ⟨final, parks, asleep, queue, co, found, live⟩ :=
    run_park stillQuiet second gone
  have reached := run_trans starts (run_trans goes parks)
  have finished :=
    empty _ _ final reached asleep 2 (by simp [queue]) co found
  rw [live] at finished
  cases finished

/-! ## Shutting down -/

/-- The flag is set, and the driver thread is asleep. -/
def Unnoticed (state : Threads) : Prop :=
  state.shutdown = true ∧ state.place = .waiting

theorem noticed_move
    {state next : Threads} {op : ThreadOp} (move : Move state op next)
    (noticed : ¬ Unnoticed state)
    (awake : op = .setShutdown → state.place ≠ .waiting) :
    ¬ Unnoticed next := by
  rintro ⟨flag, asleep⟩
  rcases asleep_move move asleep with falls | sleepsOn
  · obtain ⟨spawnHasWork, _, noWork⟩ := falls.noWork
    rw [falls.result] at flag
    simp [Threads.staysAwake, show state.shutdown = true from flag]
      at noWork
  · have other : op ≠ .setShutdown :=
      fun same => awake same sleepsOn.asleep
    rw [sleepsOn.shutdown other] at flag
    exact noticed ⟨flag, sleepsOn.asleep⟩

/--
No state of a run has the flag set with the driver thread asleep, if and only
if the flag is never set while the driver thread sleeps.
-/
theorem shutdown_noticed_iff (world : World) (ops : List ThreadOp) :
    Along Threads.step (fun _ _ next => ¬ Unnoticed next)
        (Threads.init world) ops ↔
      Along Threads.step
        (fun state op _ => op = .setShutdown → state.place ≠ .waiting)
        (Threads.init world) ops := by
  refine along_good_iff ?_ ?_ ?_
  · intro state op next noticed stepped awake
    exact noticed_move (move_of_step stepped) noticed awake
  · rintro state op next _ stepped noticed rfl asleep
    cases move_of_step stepped with
    | driver move => cases move
    | client move =>
        cases move with
        | shutsDown unlocked => exact noticed ⟨rfl, asleep⟩
  · intro unnoticed
    cases unnoticed.1

/-- A session without processes is destroyed while its driver sleeps. -/
theorem shutdown_unnoticed :
    ¬ ∀ (world : World) (ops : List ThreadOp) (final : Threads),
      run Threads.step (Threads.init world) ops = some final →
      ¬ Unnoticed final := by
  intro noticed
  have sleeps :
      (run Threads.step (Threads.init (World.init Kernel.standard))
          [.start (3, 4, 5), .enter, .stepFromDriver, .checkWaiter,
            .reap, .collect, .lockForWait, .readQueue, .decideWait,
            .destroySession, .setShutdown]).any
        (fun final =>
          decide (final.shutdown = true ∧ final.place = .waiting)) =
      true := by
    decide
  obtain ⟨final, reached, holds⟩ := Option.any_eq_true _ _ |>.mp sleeps
  obtain ⟨flag, asleep⟩ := of_decide_eq_true holds
  exact noticed _ _ final reached ⟨flag, asleep⟩

/-! ## Parked coroutines -/

/-- No live coroutine waits for descriptors. -/
def NoneParked (ex : Executor) : Prop :=
  ∀ pid co, ex.vprocs.lookup pid = some co → co.isDone = false →
    co.ioWait = none

/-- The driver thread is awake, or no live coroutine is parked. -/
def NoneAbandoned (state : Threads) : Prop :=
  state.place = .waiting → NoneParked state.executor

/--
Before the driver thread decides whether to wait: if a live coroutine is
parked, there is something else to do.
-/
def ParkedWithWork (state : Threads) (op : ThreadOp) : Prop :=
  ∀ spawnHasWork, op = .decideWait →
    state.place = .tested spawnHasWork → ¬ NoneParked state.executor →
    state.staysAwake spawnHasWork = true

theorem noneAbandoned_move
    {state next : Threads} {op : ThreadOp} (move : Move state op next)
    (before : NoneAbandoned state) (work : ParkedWithWork state op) :
    NoneAbandoned next := by
  intro asleep
  rcases asleep_move move asleep with falls | sleepsOn
  · obtain ⟨spawnHasWork, here, noWork⟩ := falls.noWork
    rw [falls.result]
    by_contra parked
    rw [work spawnHasWork falls.isDecision here parked] at noWork
    cases noWork
  · have same : next.executor = state.executor :=
      congrArg Driver.executor sleepsOn.driver
    rw [same]
    exact before sleepsOn.asleep

/--
The driver thread never sleeps in a run while a live coroutine is parked, if
and only if there is other work whenever it decides with one parked.
-/
theorem parked_not_abandoned_iff (world : World) (ops : List ThreadOp) :
    Along Threads.step (fun _ _ next => NoneAbandoned next)
        (Threads.init world) ops ↔
      Along Threads.step (fun state op _ => ParkedWithWork state op)
        (Threads.init world) ops := by
  refine along_good_iff ?_ ?_ ?_
  · intro state op next before stepped work
    exact noneAbandoned_move (move_of_step stepped) before work
  · rintro state op next _ stepped after spawnHasWork rfl here parked
    cases move_of_step stepped with
    | client move => cases move
    | driver move =>
        cases move with
        | goesOn there work =>
            rw [here] at there
            cases there
            exact work
        | sleeps there noWork => exact (parked (after rfl)).elim
  · intro asleep
    cases asleep

/-- A process polls a terminal with no input, and no client waits for it. -/
theorem parked_abandoned :
    ¬ ∀ (world : World) (ops : List ThreadOp) (final : Threads),
      run Threads.step (Threads.init world) ops = some final →
      NoneAbandoned final := by
  intro kept
  have sleeps :
      (run Threads.step (Threads.init (World.init Kernel.standard))
          [.start (3, 4, 5), .createProcess 0 (0, 1, 2),
            .tryLock 0 true, .push 0, .notify 0, .enter, .serve true,
            .answer, .pollResult 0, .stepFromDriver,
            .coroutine (.yieldForIo [(0, 1)] (-1) 0), .checkWaiter,
            .reap, .collect, .poll (some ([false], 50)), .lockForWait,
            .readQueue, .decideWait]).any
        (fun final =>
          decide
            (final.place = .waiting ∧
              final.creates 0 = .returned 1 ∧
              (final.executor.vprocs.lookup 1).any
                (fun co => !co.isDone && co.ioWait.isSome) = true)) =
      true := by
    decide
  obtain ⟨final, reached, holds⟩ := Option.any_eq_true _ _ |>.mp sleeps
  obtain ⟨asleep, _, parked⟩ := of_decide_eq_true holds
  obtain ⟨co, found, parked⟩ := Option.any_eq_true _ _ |>.mp parked
  simp only [Bool.and_eq_true, Bool.not_eq_true'] at parked
  have ready := kept _ _ final reached asleep 1 co found parked.1
  rw [ready] at parked
  cases parked.2

end Vproc.Ffi.DriverSleep
