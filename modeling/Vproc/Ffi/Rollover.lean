import Vproc.Ffi.ThreadSteps

/-!
# The process numbers come round

The results about a session hold until `2 ^ 32` process numbers have been
taken.  This module has a run of the threads which goes beyond: the process at
the front of the queue spawns another one before it and exits, so that its
successor is at the front of the queue in the next iteration.  Nothing else in
the session changes, and after `2 ^ 32 - 1` iterations the number before the
first one is given again.
-/

namespace Vproc.Ffi.Rollover

open Vproc.Lib.Run
open Vproc.Lib.FiniteMap
open Vproc.Fd.Table
open Vproc.Fd.Runtime
open Vproc.Sched.Scheduler
open Vproc.Sched.DriverLoop
open Vproc.Sched.DriverSteps
open Vproc.Sched.ReadyQueue
open Vproc.Ffi.SessionThreads
open Vproc.Ffi.ThreadSteps

/-! ## One iteration of the loop -/

/-- The driver is at the top of its loop, and no client has asked it. -/
structure Quiet (state : Threads) : Prop where
  here : state.place = .top
  noShutdown : state.shutdown = false
  noRequests : state.spawnQueue = []
  noWaiters : state.waiters = []

/-- From the end of a turn to the decision whether to wait. -/
def afterTurn : List ThreadOp :=
  [.checkWaiter, .reap, .collect, .lockForWait, .readQueue, .decideWait]

/-- An iteration in which a coroutine takes the given steps. -/
def iteration (ops : List DriverOp) : List ThreadOp :=
  [.enter, .stepFromDriver] ++ ops.map .coroutine ++ afterTurn

section Iteration

variable {state : Threads}

theorem run_enter
    (quiet : Quiet state) {begun : Machine}
    (begins : state.machine.step
      (.stepFromDriverWithFdSwap state.savedFds) = some begun)
    (busy : begun.driver.turn ≠ none) :
    run Threads.step state [.enter, .stepFromDriver] =
      some { state with machine := begun, place := .running } := by
  obtain ⟨here, noShutdown, noRequests, _⟩ := quiet
  simp [run, Threads.step, Threads.driverStep, Threads.enter,
    Threads.drive, Threads.afterStep, here, noShutdown, noRequests,
    begins, busy]

theorem step_coroutine
    {op : DriverOp} {next : Machine} (here : state.place = .running)
    (allowed : isCoroutineOp op = true)
    (stepped : state.machine.step op = some next) :
    state.step (.coroutine op) =
      some
        { state with
          machine := next
          place := Threads.afterStep state.waiters next } := by
  simp [Threads.step, Threads.driverStep, Threads.drive, here, allowed,
    stepped]

/-- The coroutines which are left after reaping. -/
def reaped (machine : Machine) : Machine where
  world := (Driver.reapStep machine.world machine.driver).1
  driver :=
    { (Driver.reapStep machine.world machine.driver).2 with polled := [] }

/-- The driver reaps and polls between turns only, and so it can here. -/
theorem step_idle
    {machine : Machine} (idle : machine.driver.turn = none) :
    machine.step .reapDoneCoroutines =
        some
          { world := (Driver.reapStep machine.world machine.driver).1
            driver := (Driver.reapStep machine.world machine.driver).2 } ∧
      machine.step .collectIoWaits =
        some
          { machine with
            driver :=
              { machine.driver with
                polled := machine.driver.executor.collectIoWaits } } := by
  constructor
  · simp only [Machine.step, Driver.step, Driver.whenIdle, idle,
      Option.isNone_none, if_true, Option.map_some]
  · simp only [Machine.step, Driver.step, Driver.whenIdle, idle,
      Option.isNone_none, if_true, Option.map_some]

/-- The waiters are looked at, finished coroutines reaped, none is polled. -/
theorem run_reaping
    (here : state.place = .checking [] [])
    (idle : state.machine.driver.turn = none)
    (nothing : state.executor.reapDone.collectIoWaits = []) :
    run Threads.step state [.checkWaiter, .reap, .collect] =
      some
        { state with
          machine := reaped state.machine
          waiters := []
          place := .between } := by
  have polled :
      state.machine.driver.executor.reapDone.collectIoWaits = [] :=
    nothing
  have checks :
      state.step .checkWaiter =
        some { state with waiters := [], place := .reaping } := by
    change state.driverStep .checkWaiter state.place = _
    rw [here]
    rfl
  refine run_cons_iff.mpr ⟨_, checks, ?_⟩
  have reaps := (step_idle idle).1
  refine run_cons_iff.mpr ⟨_, congrArg (Option.map _) reaps, ?_⟩
  have collects :=
    (@step_idle
      { world :=
          (Driver.reapStep state.machine.world state.machine.driver).1
        driver :=
          (Driver.reapStep state.machine.world state.machine.driver).2 }
      idle).2
  refine run_cons_iff.mpr ⟨_, congrArg (Option.map _) collects, ?_⟩
  simp only [run, Driver.reapStep, Driver.withExecutor, polled,
    List.isEmpty_nil, if_true, reaped]

/-- The driver thread decides whether it waits. -/
theorem run_deciding
    (here : state.place = .between) (noShutdown : state.shutdown = false)
    (noRequests : state.spawnQueue = []) (noWaiters : state.waiters = []) :
    run Threads.step state [.lockForWait, .readQueue, .decideWait] =
      some
        { state with
          place :=
            if Threads.hasReady state.executor then .top
            else .waiting } := by
  simp [run, Threads.step, Threads.driverStep, Threads.goto,
    Threads.staysAwake, Threads.executor, here, noShutdown, noRequests,
    noWaiters]
  rfl

theorem run_afterTurn
    (here : state.place = .checking [] [])
    (noShutdown : state.shutdown = false)
    (noRequests : state.spawnQueue = [])
    (noWaiters : state.waiters = [])
    (idle : state.machine.driver.turn = none)
    (nothing : state.executor.reapDone.collectIoWaits = []) :
    run Threads.step state afterTurn =
      some
        { state with
          machine := reaped state.machine
          place :=
            if Threads.hasReady state.executor.reapDone then .top
            else .waiting } := by
  have decides :=
    @run_deciding
      { state with
        machine := reaped state.machine
        waiters := []
        place := .between }
      rfl noShutdown noRequests rfl
  refine (run_trans (run_reaping here idle nothing) decides).trans ?_
  rw [← noWaiters]
  rfl

end Iteration

/-! ## One process after the other -/

/--
The process at the front of the queue has not run yet, and the next number is
its own plus one.  No process has a descriptor table.
-/
structure Passing (others : VPid → Option Coroutine) (rest : List VPid)
    (pid : VPid) (machine : Machine) : Prop where
  noTables : machine.world.tables = ∅
  idle : machine.driver.turn = none
  queue : machine.driver.executor.readyQueue = pid :: rest
  next : machine.driver.executor.nextPid = succU32 pid
  lookup : ∀ other, machine.driver.executor.vprocs.lookup other =
    if other = pid then some (Coroutine.new pid) else others other

theorem beginTurn_noTables
    {world : World} (noTables : world.tables = ∅) (driver : Driver)
    (saved : StdFds) :
    Driver.beginTurn world driver (some saved) =
      Driver.beginTurn world driver none := by
  have noFds (pid : VPid) : Driver.getRealFds world pid = none := by
    simp [Driver.getRealFds, World.getTable, noTables]
  unfold Driver.beginTurn
  split
  · rfl
  · simp only [Option.bind_some, noFds, Option.bind_none]

theorem reapTable_noTables
    {world : World} (noTables : world.tables = ∅) (pid : VPid) :
    (world.reapTable pid).tables = ∅ := by
  have absent : world.getTable pid = none := by
    simp [World.getTable, noTables]
  simp only [World.reapTable, World.removeTableAndGetFds, absent]
  exact noTables

theorem foldl_reapTable_noTables
    {world : World} (noTables : world.tables = ∅) (pids : List VPid) :
    (pids.foldl World.reapTable world).tables = ∅ :=
  List.foldlRecOn (motive := fun after : World => after.tables = ∅)
    pids _ noTables fun _ before pid _ => reapTable_noTables before pid

/-- The other processes are neither done nor parked. -/
def AllReady (others : VPid → Option Coroutine) : Prop :=
  ∀ pid co, others pid = some co → co.isDone = false ∧ co.ioWait = none

/-- The process spawns its successor and exits. -/
def handOver : List DriverOp :=
  [.spawnFront, .exit (.exit 0)]

theorem succU32_ne (pid : VPid) : succU32 pid ≠ pid := by
  rw [succU32]
  omega

/-- The driver when the process has spawned its successor and exited. -/
def handedOver (begun : Driver) (pid : VPid) : Driver :=
  { begun.withSpawned begun.executor.spawnFront.1 with
    executor :=
      (begun.executor.spawnFront.1.vprocExitWithCode 0).resumeEnd pid
        false
    turn := none }

/-- A process in its turn, with its number and the next one. -/
structure Running (others : VPid → Option Coroutine) (rest : List VPid)
    (pid : VPid) (driver : Driver) : Prop where
  turn : driver.turn = some { pid := pid, restore := none }
  current : driver.executor.current = some pid
  queue : driver.executor.readyQueue = rest
  next : driver.executor.nextPid = succU32 pid
  lookup : ∀ other, driver.executor.vprocs.lookup other =
    if other = pid then
      some { Coroutine.new pid with state := .running, started := true }
    else others other

theorem step_begin
    {others : VPid → Option Coroutine} {rest : List VPid} {pid : VPid}
    {machine : Machine} (passing : Passing others rest pid machine)
    (saved : StdFds) :
    ∃ begun,
      machine.step (.stepFromDriverWithFdSwap saved) =
        some { world := machine.world, driver := begun } ∧
      Running others rest pid begun ∧
      begun.executor.exitCodes = machine.driver.executor.exitCodes := by
  obtain ⟨noTables, idle, queue, next, lookup⟩ := passing
  obtain ⟨begun, isBegun, turn, _, current, begunQueue, begunNext,
      begunLookup⟩ :=
    beginTurn_front machine.world queue
      ((lookup pid).trans (if_pos rfl)) rfl rfl rfl
  have begins :
      machine.step (.stepFromDriverWithFdSwap saved) =
        some { world := machine.world, driver := begun } := by
    simp [Machine.step, Driver.step, Driver.whenIdle, idle,
      beginTurn_noTables noTables, isBegun]
  refine
    ⟨begun, begins,
      ⟨turn, current, begunQueue, begunNext.trans next, ?_⟩, ?_⟩
  · intro other
    rw [begunLookup]
    by_cases same : other = pid
    · rw [if_pos same, if_pos same]
    · rw [if_neg same, if_neg same, lookup, if_neg same]
  · cases change_of_machineStep begins with
    | spawned isSpawn child => cases isSpawn
    | idles _ _ nothing => rw [(pickNext_none nothing).1]
    | resumes _ _ _ chosen isResumed =>
        exact (resumed_spec chosen isResumed).1.exitCodes
    | ends _ running ending => cases ending
    | signals _ _ isSignal => simp at isSignal

theorem lookup_handedOver
    {others : VPid → Option Coroutine} {rest : List VPid} {pid : VPid}
    {begun : Driver} (running : Running others rest pid begun)
    (gone : others pid = none) (ready : AllReady others) (other : VPid) :
    (handedOver begun pid).executor.reapDone.vprocs.lookup other =
      if other = succU32 pid then some (Coroutine.new (succU32 pid))
      else others other := by
  obtain ⟨_, current, _, next, lookup⟩ := running
  have spawned (number : VPid) :
      begun.executor.spawnFront.1.vprocs.lookup number =
        if number = succU32 pid then some (Coroutine.new (succU32 pid))
        else begun.executor.vprocs.lookup number := by
    rw [← next]
    exact lookup_insert_eq begun.executor.vprocs begun.executor.nextPid number _
  have spawnedCurrent : begun.executor.spawnFront.1.current = some pid := current
  have exited := lookup_exited spawnedCurrent 0 other
  refine Option.ext fun co => ?_
  refine lookup_retain_iff.trans ?_
  rw [handedOver, exited]
  by_cases own : other = pid
  · subst other
    rw [if_pos rfl, if_neg (succU32_ne pid).symm, gone, spawned,
      if_neg (succU32_ne pid).symm, lookup, if_pos rfl]
    constructor
    · rintro ⟨stored, alive⟩
      cases stored
      cases alive
    · exact fun impossible => nomatch impossible
  · rw [if_neg own, spawned]
    by_cases new : other = succU32 pid
    · rw [if_pos new, if_pos new]
      constructor
      · exact fun stored => stored.1
      · intro stored
        refine ⟨stored, ?_⟩
        cases stored
        rfl
    · rw [if_neg new, if_neg new, lookup, if_neg own]
      constructor
      · exact fun stored => stored.1
      · intro stored
        exact ⟨stored, by simp [(ready other co stored).1]⟩

theorem collectIoWaits_of_ready
    {ex : Executor}
    (ready : ∀ pid co, ex.vprocs.lookup pid = some co →
      ∀ wait, co.ioWait = some wait → wait.fds = []) :
    ex.collectIoWaits = [] := by
  apply List.flatMap_eq_nil_iff.mpr
  intro entry member
  split
  · rename_i wait waits
    rw [ready entry.1 entry.2 (mem_entries_iff.mp member) wait waits]
    rfl
  · rfl

theorem run_coroutine_handOver
    {state : Threads} {others : VPid → Option Coroutine}
    {rest : List VPid} {pid : VPid} (here : state.place = .running)
    (running : Running others rest pid state.machine.driver) :
    run Threads.step state (handOver.map .coroutine) =
      some
        { state with
          machine :=
            { world := state.machine.world
              driver := handedOver state.machine.driver pid }
          place := .checking [] state.waiters } := by
  have stillBusy :
      (state.machine.driver.withSpawned
        state.machine.driver.executor.spawnFront.1).turn =
        some { pid := pid, restore := none } :=
    running.turn
  refine
    run_cons_iff.mpr
      ⟨_, step_coroutine here rfl rfl, run_cons_iff.mpr ⟨_, ?_, rfl⟩⟩
  refine
    step_coroutine ?_ rfl
      (step_exit state.machine.world stillBusy (.exit 0))
  exact if_neg (by simp [stillBusy])

/-- One process follows the other; the rest of the session is as it was. -/
theorem run_handOver
    {others : VPid → Option Coroutine} {rest : List VPid} {pid : VPid}
    {state : Threads} (quiet : Quiet state)
    (passing : Passing others rest pid state.machine)
    (gone : others pid = none) (ready : AllReady others) :
    ∃ machine,
      run Threads.step state (iteration handOver) =
        some { state with machine := machine } ∧
      Passing others rest (succU32 pid) machine ∧
      ∀ other, other ≠ pid →
        machine.driver.executor.exitCodes.lookup other =
          state.executor.exitCodes.lookup other := by
  obtain ⟨begun, begins, running, codes⟩ :=
    step_begin passing state.savedFds
  have left := lookup_handedOver running gone ready
  have busy : begun.turn ≠ none := by
    rw [running.turn]
    exact fun impossible => nomatch impossible
  have nobodyWaits (other : VPid) (co : Coroutine)
      (found : (handedOver begun pid).executor.reapDone.vprocs.lookup
        other = some co) :
      co.isDone = false ∧ co.ioWait = none := by
    rw [left] at found
    split at found
    · cases found
      exact ⟨rfl, rfl⟩
    · exact ready other co found
  have nothing :
      (handedOver begun pid).executor.reapDone.collectIoWaits = [] := by
    apply collectIoWaits_of_ready
    intro other co found wait waits
    rw [(nobodyWaits other co found).2] at waits
    cases waits
  have hasNext :
      Threads.hasReady (handedOver begun pid).executor.reapDone =
        true := by
    by_contra noneReady
    have successor := (left (succU32 pid)).trans (if_pos rfl)
    rcases not_hasReady (Bool.eq_false_of_not_eq_true noneReady) successor
      with finished | parked
    · cases finished
    · cases parked
  refine ⟨reaped ⟨state.machine.world, handedOver begun pid⟩, ?_, ?_, ?_⟩
  · have finishes :=
      @run_afterTurn
        { state with
          machine := ⟨state.machine.world, handedOver begun pid⟩
          place := .checking [] state.waiters }
        (congrArg _ quiet.noWaiters) quiet.noShutdown quiet.noRequests
        quiet.noWaiters rfl nothing
    rw [iteration, run_append, run_append, run_enter quiet begins busy]
    simp only [Option.bind_some]
    rw [run_coroutine_handOver rfl running]
    simp only [Option.bind_some]
    rw [finishes]
    simp only [Threads.executor, hasNext, if_true]
    rw [quiet.here]
  · constructor
    · exact foldl_reapTable_noTables passing.noTables _
    · rfl
    · refine (exited_queue begun.executor.spawnFront.1 0 pid).trans ?_
      exact congrArg₂ _ running.next running.queue
    · refine (exited_nextPid begun.executor.spawnFront.1 0 pid).trans ?_
      exact congrArg succU32 running.next
    · exact left
  · intro other different
    have spawnedCurrent :
        begun.executor.spawnFront.1.current = some pid :=
      running.current
    refine (exitCodes_exited spawnedCurrent 0 other).trans ?_
    rw [if_neg different]
    exact congrArg _ codes

/-- The numbers go round, but for the one before the first. -/
theorem run_handOvers
    {others : VPid → Option Coroutine} {rest : List VPid}
    (gone : ∀ pid, pid ≠ 2 → others pid = none)
    (ready : AllReady others) {state : Threads} (quiet : Quiet state)
    (passing : Passing others rest 3 state.machine)
    (count : Nat) (few : count < 4294967296) :
    ∃ machine,
      run Threads.step state
          (List.replicate count (iteration handOver)).flatten =
        some { state with machine := machine } ∧
      Passing others rest ((3 + count) % 4294967296) machine ∧
      machine.driver.executor.exitCodes.lookup 2 =
        state.executor.exitCodes.lookup 2 := by
  induction count with
  | zero => exact ⟨state.machine, rfl, passing, rfl⟩
  | succ count induction =>
      obtain ⟨middle, reached, still, codes⟩ := induction (by omega)
      have notSecond : (3 + count) % 4294967296 ≠ 2 := by omega
      have counts :
          succU32 ((3 + count) % 4294967296) =
            (3 + (count + 1)) % 4294967296 := by
        rw [succU32]
        omega
      have stillQuiet : Quiet { state with machine := middle } :=
        ⟨quiet.here, quiet.noShutdown, quiet.noRequests, quiet.noWaiters⟩
      obtain ⟨machine, handed, passes, kept⟩ :=
        run_handOver stillQuiet still (gone _ notSecond) ready
      refine ⟨machine, ?_, counts ▸ passes, ?_⟩
      · rw [List.replicate_succ', List.flatten_append, run_append, reached]
        simpa using handed
      · exact (kept 2 notSecond.symm).trans codes

/-- The first process of a session, which a client creates, hands over. -/
def opening : List ThreadOp :=
  .start (3, 4, 5) :: .createProcess 0 (0, 1, 2) :: .tryLock 0 true ::
    .push 0 :: .notify 0 :: .enter :: .serve true :: .answer ::
    .stepFromDriver :: .coroutine .spawnFront ::
    .coroutine (.exit (.exit 0)) :: afterTurn

/-- From the third process on until the second number is given again. -/
theorem run_round
    {others : VPid → Option Coroutine} {rest : List VPid}
    (gone : ∀ pid, pid ≠ 2 → others pid = none)
    (ready : AllReady others) {state : Threads} (quiet : Quiet state)
    (passing : Passing others rest 3 state.machine) :
    ∃ ops machine,
      run Threads.step state ops = some { state with machine := machine } ∧
      Passing others rest 2 machine ∧
      machine.driver.executor.exitCodes.lookup 2 =
        state.executor.exitCodes.lookup 2 := by
  obtain ⟨machine, reached, passes, codes⟩ :=
    run_handOvers gone ready quiet passing 4294967295 (by decide)
  exact ⟨_, machine, reached, passes, codes⟩

end Vproc.Ffi.Rollover
