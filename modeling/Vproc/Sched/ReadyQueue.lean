import Vproc.Sched.DriverSteps

/-!
# The ready queue

Between turns every live coroutine which does not wait for descriptors stands
in the ready queue exactly once, and a waiting one does not stand in it.  The
invariant behind it also covers the turns: the running coroutine is not in the
queue and does not wait.

A spawn takes the next process number without looking whether it is in use.
The counter is a `u32` and comes round after `2 ^ 32` spawns, so the invariant
needs that every spawn finds its number free.
-/

namespace Vproc.Sched.ReadyQueue

open Vproc.Lib.Run
open Vproc.Lib.FiniteMap
open Vproc.Fd.Table
open Vproc.Fd.KernelTable
open Vproc.Fd.Runtime
open Vproc.Sched.Scheduler
open Vproc.Sched.DriverLoop
open Vproc.Sched.DriverSteps

/-- How often a coroutine which does not run stands in the queue. -/
def Queued (ex : Executor) (pid : VPid) (co : Coroutine) : Prop :=
  (co.isDone = false → co.ioWait = none → ex.readyQueue.count pid = 1) ∧
    (co.ioWait.isSome = true → ex.readyQueue.count pid = 0)

/-- Nothing runs, and every coroutine is queued as its state demands. -/
def QueueConsistent (ex : Executor) : Prop :=
  ex.current = none ∧
    ∀ pid co, ex.vprocs.lookup pid = some co → Queued ex pid co

/-- The same for all coroutines but the running one. -/
structure Balanced (ex : Executor) : Prop where
  waiting : ∀ pid co, ex.vprocs.lookup pid = some co →
    ex.current ≠ some pid → Queued ex pid co
  running : ∀ pid, ex.current = some pid →
    pid ∉ ex.readyQueue ∧
      ∃ co, ex.vprocs.lookup pid = some co ∧
        co.state = .running ∧ co.ioWait = none

/-! ## The parts of an executor -/

/-- A change of coroutines which the queue does not depend on. -/
def KeepsShape (change : Coroutine → Coroutine) : Prop :=
  ∀ co, (change co).state = co.state ∧ (change co).ioWait = co.ioWait

theorem isDone_congr
    {left right : Coroutine} (same : left.state = right.state) :
    left.isDone = right.isDone := by
  rw [Coroutine.isDone, Coroutine.isDone, same]

theorem balanced_update
    {ex : Executor} (balanced : Balanced ex) (pid : VPid)
    {change : Coroutine → Coroutine} (keeps : KeepsShape change) :
    Balanced (ex.update pid change) := by
  constructor
  case waiting =>
    intro other co found notRunning
    rw [lookup_update] at found
    split at found
    · obtain ⟨before, stored, rfl⟩ := Option.map_eq_some_iff.mp found
      obtain ⟨state, ioWait⟩ := keeps before
      have queued := balanced.waiting other before stored notRunning
      unfold Queued at queued ⊢
      rw [isDone_congr state, ioWait]
      exact queued
    · exact balanced.waiting other co found notRunning
  case running =>
    intro other isRunning
    obtain ⟨absent, co, found, state, ioWait⟩ :=
      balanced.running other isRunning
    refine ⟨absent, ?_⟩
    rw [lookup_update]
    split
    · obtain ⟨sameState, sameWait⟩ := keeps co
      exact
        ⟨change co, by simp [found], sameState.trans state,
          sameWait.trans ioWait⟩
    · exact ⟨co, found, state, ioWait⟩

/-- Only coroutines, queue and current process matter. -/
theorem balanced_congr
    {ex next : Executor} (balanced : Balanced ex)
    (vprocs : next.vprocs = ex.vprocs)
    (queue : next.readyQueue = ex.readyQueue)
    (current : next.current = ex.current) :
    Balanced next := by
  constructor
  case waiting =>
    intro pid co found notRunning
    rw [vprocs] at found
    rw [current] at notRunning
    unfold Queued
    rw [queue]
    exact balanced.waiting pid co found notRunning
  case running =>
    intro pid isRunning
    rw [current] at isRunning
    rw [queue, vprocs]
    exact balanced.running pid isRunning

/-! ## Spawning -/

/-- A new coroutine which is put into the queue once. -/
theorem balanced_insert
    {ex next : Executor} (balanced : Balanced ex) (fresh : FreshPid ex)
    {co : Coroutine} (ready : co.ioWait = none)
    (vprocs : next.vprocs = ex.vprocs.insert ex.nextPid co)
    (queue : next.readyQueue = ex.readyQueue ++ [ex.nextPid] ∨
      next.readyQueue = ex.nextPid :: ex.readyQueue)
    (current : next.current = ex.current) :
    Balanced next := by
  have absent : ex.readyQueue.count ex.nextPid = 0 :=
    List.count_eq_zero.mpr fresh.2
  have counted (pid : VPid) :
      next.readyQueue.count pid =
        ex.readyQueue.count pid + if pid = ex.nextPid then 1 else 0 := by
    by_cases same : pid = ex.nextPid
    · subst pid
      rcases queue with back | front
      · simp [back]
      · simp [front]
    · have other : ex.nextPid ≠ pid := fun equal => same equal.symm
      rcases queue with back | front
      · simp [back, same, other]
      · simp [front, same, other]
  have runningDiffers (pid : VPid) (isRunning : ex.current = some pid) :
      pid ≠ ex.nextPid := by
    rintro rfl
    obtain ⟨_, other, found, _⟩ := balanced.running _ isRunning
    exact fresh.1 (mem_iff_lookup.mpr ⟨other, found⟩)
  constructor
  case waiting =>
    intro pid other found notRunning
    rw [vprocs, lookup_insert_eq] at found
    rw [current] at notRunning
    unfold Queued
    rw [counted]
    by_cases same : pid = ex.nextPid
    · subst pid
      simp only [if_true, Option.some.injEq] at found
      subst other
      simp [absent, ready]
    · simp only [same, if_false] at found ⊢
      exact balanced.waiting pid other found notRunning
  case running =>
    intro pid isRunning
    rw [current] at isRunning
    have different := runningDiffers pid isRunning
    obtain ⟨notQueued, other, found, shape⟩ :=
      balanced.running pid isRunning
    refine ⟨?_, other, ?_, shape⟩
    · rw [← List.count_eq_zero, counted, if_neg different,
        List.count_eq_zero.mpr notQueued]
    · rw [vprocs, lookup_insert_eq, if_neg different]
      exact found

theorem balanced_spawned
    {ex next : Executor} (balanced : Balanced ex)
    (child : Spawned ex next) (fresh : FreshPid ex) :
    Balanced next := by
  cases child with
  | back => exact balanced_insert balanced fresh rfl rfl (Or.inl rfl) rfl
  | front =>
      exact balanced_insert balanced fresh rfl rfl (Or.inr rfl) rfl
  | elf => exact balanced_insert balanced fresh rfl rfl (Or.inl rfl) rfl
  | fork forked =>
      obtain ⟨co, found, result⟩ := Option.map_eq_some_iff.mp forked
      cases result
      apply balanced_update
      · exact balanced_insert balanced fresh rfl rfl (Or.inl rfl) rfl
      · intro co
        exact ⟨rfl, rfl⟩

/-! ## Turns -/

/-- Leaving out finished processes does not change how often others stand. -/
theorem count_skipped
    {ex : Executor} {pid : VPid} {co : Coroutine}
    (found : ex.vprocs.lookup pid = some co) (live : co.isDone = false)
    {skipped : List VPid}
    (allDone : ∀ other ∈ skipped, ∀ co,
      ex.vprocs.lookup other = some co → co.isDone = true) :
    skipped.count pid = 0 := by
  apply List.count_eq_zero.mpr
  intro member
  rw [allDone pid member co found] at live
  cases live

/-- A turn begins: the picked coroutine leaves the queue and runs. -/
theorem balanced_beginTurn
    {ex picked next : Executor} (balanced : Balanced ex)
    (idle : ex.current = none) {pid : VPid}
    (chosen : ex.pickNext = (picked, some pid))
    (resumed : (picked.deliverSignals pid).1.resumeBegin pid =
      some next) :
    Balanced next := by
  obtain ⟨skipped, rest, co, allDone, queue, rfl, found, live⟩ :=
    pickNext_some chosen
  obtain ⟨change, keepsWait, delivered, sameQueue⟩ :=
    deliverSignals_spec { ex with readyQueue := rest } pid
  obtain ⟨nextQueue, nextCurrent, lookups⟩ := resumeBegin_spec resumed
  have leftQueue : next.readyQueue = rest := nextQueue.trans sameQueue
  have notRunning (other : VPid) : ex.current ≠ some other := by
    rw [idle]
    exact fun impossible => nomatch impossible
  have wasQueued := balanced.waiting pid co found (notRunning pid)
  have noWait : co.ioWait = none := by
    by_contra waits
    have absent := wasQueued.2 (Option.isSome_iff_ne_none.mpr waits)
    rw [queue] at absent
    simp at absent
  have once := wasQueued.1 live noWait
  constructor
  case waiting =>
    intro other coroutine stored others
    have different : other ≠ pid := by
      rintro rfl
      exact others nextCurrent
    rw [lookups, if_neg different, delivered, if_neg different] at stored
    have before :=
      balanced.waiting other coroutine stored (notRunning other)
    unfold Queued at before ⊢
    rw [leftQueue]
    rw [queue, List.count_append, List.count_cons_of_ne different.symm]
      at before
    constructor
    · intro alive ready
      have total := before.1 alive ready
      rw [count_skipped stored alive allDone] at total
      simpa using total
    · intro waits
      have total := before.2 waits
      omega
  case running =>
    intro other isRunning
    rw [nextCurrent] at isRunning
    cases isRunning
    constructor
    · rw [leftQueue, ← List.count_eq_zero]
      rw [queue, List.count_append, count_skipped found live allDone,
        List.count_cons_self] at once
      omega
    · refine
        ⟨{ change co with state := .running, started := true }, ?_, rfl,
          ?_⟩
      · rw [lookups, if_pos rfl, delivered, if_pos rfl]
        simp [found]
      · exact (keepsWait co).trans noWait

theorem balanced_pickNext_none
    {ex next : Executor} (balanced : Balanced ex)
    (idle : ex.current = none)
    (picked : ex.pickNext = (next, none)) :
    Balanced next := by
  obtain ⟨rfl, allDone⟩ := pickNext_none picked
  constructor
  case waiting =>
    intro pid co found notRunning
    have before := balanced.waiting pid co found notRunning
    constructor
    · intro alive ready
      have once := before.1 alive ready
      have member : pid ∈ ex.readyQueue := by
        rw [← List.count_pos_iff, once]
        exact Nat.one_pos
      rw [allDone pid member co found] at alive
      cases alive
    · intro _
      rfl
  case running =>
    intro pid isRunning
    rw [idle] at isRunning
    cases isRunning

theorem ioWait_settled (dead : Bool) (co : Coroutine) :
    (settled dead co).ioWait = co.ioWait := by
  unfold settled
  split <;> rfl

/-- A turn ends: the coroutine is queued as its new state demands. -/
theorem balanced_resumeEnd
    {ex left : Executor} (balanced : Balanced ex) {pid : VPid}
    (running : ex.current = some pid) (dead : Bool)
    (others : ∀ other, other ≠ pid →
      left.vprocs.lookup other = ex.vprocs.lookup other)
    (queue : ∀ other, other ≠ pid →
      left.readyQueue.count other = ex.readyQueue.count other)
    (own : ∀ co, left.vprocs.lookup pid = some co →
      Queued left pid (settled dead co)) :
    Balanced (left.resumeEnd pid dead) := by
  constructor
  case waiting =>
    intro other co found _
    rw [lookup_resumeEnd] at found
    by_cases same : other = pid
    · subst other
      rw [if_pos rfl] at found
      obtain ⟨before, stored, rfl⟩ := Option.map_eq_some_iff.mp found
      exact own before stored
    · rw [if_neg same, others other same] at found
      have notRunning : ex.current ≠ some other := by
        rw [running]
        exact fun equal => same (Option.some.inj equal).symm
      have before := balanced.waiting other co found notRunning
      unfold Queued at before ⊢
      have sameQueue :
          (left.resumeEnd pid dead).readyQueue = left.readyQueue :=
        rfl
      rw [sameQueue, queue other same]
      exact before
  case running =>
    intro other isRunning
    cases isRunning

section EndOfTurn

variable {ex : Executor} (balanced : Balanced ex) {pid : VPid}
variable (running : ex.current = some pid)

include balanced running

theorem balanced_doYield :
    Balanced (ex.doYield.resumeEnd pid false) := by
  obtain ⟨absent, co, found, state, ready⟩ :=
    balanced.running pid running
  have yielded : ex.doYield = ex.pushBack pid := by
    simp [Executor.doYield, Executor.requeueLive, running, found,
      Coroutine.isDone, state]
  rw [yielded]
  apply balanced_resumeEnd balanced running false
  · intro other _
    rfl
  · intro other different
    simp [Executor.pushBack, different.symm]
  · intro stored isStored
    have same : stored = co := by
      have lookup : ex.vprocs.lookup pid = some stored := isStored
      rw [found] at lookup
      exact (Option.some.inj lookup).symm
    subst stored
    constructor
    · intro _ _
      simp [Executor.pushBack, List.count_eq_zero.mpr absent]
    · intro waits
      rw [ioWait_settled, ready] at waits
      cases waits

theorem balanced_yieldForIo
    (fds : List (CInt × Int)) (timeoutMs : CInt) (now : Nat) :
    Balanced ((ex.yieldForIo fds timeoutMs now).resumeEnd pid false) := by
  obtain ⟨absent, co, found, state, _⟩ := balanced.running pid running
  simp only [Executor.yieldForIo, running]
  apply balanced_resumeEnd balanced running false
  · intro other different
    rw [lookup_update, if_neg different]
  · intro other _
    rfl
  · intro stored isStored
    rw [lookup_update, if_pos rfl, found] at isStored
    cases isStored
    constructor
    · intro _ ready
      rw [ioWait_settled] at ready
      simp [Coroutine.isDone, state] at ready
    · intro _
      exact List.count_eq_zero.mpr absent

theorem balanced_vprocExitWithCode (code : CInt) :
    Balanced ((ex.vprocExitWithCode code).resumeEnd pid false) := by
  obtain ⟨_, co, found, _, ready⟩ := balanced.running pid running
  simp only [Executor.vprocExitWithCode, running]
  apply balanced_resumeEnd balanced running false
  · intro other different
    exact (lookup_update ex pid other _).trans (if_neg different)
  · intro other _
    rfl
  · intro stored isStored
    have lookup := (lookup_update ex pid pid _).symm.trans isStored
    rw [if_pos rfl, found] at lookup
    cases lookup
    constructor
    · intro alive
      cases alive
    · intro waits
      rw [ioWait_settled] at waits
      simp [ready] at waits

theorem balanced_entryReturned :
    Balanced (ex.resumeEnd pid true) := by
  obtain ⟨_, co, found, state, ready⟩ := balanced.running pid running
  apply balanced_resumeEnd balanced running true
  · intro other _
    rfl
  · intro other _
    rfl
  · intro stored isStored
    rw [found] at isStored
    cases isStored
    constructor
    · intro alive
      simp [settled, Coroutine.isDone, state] at alive
    · intro waits
      rw [ioWait_settled, ready] at waits
      cases waits

/-- However the running coroutine ends its turn. -/
theorem balanced_ending
    {op : DriverOp} {left : Executor} {dead : Bool} {taken : Nat}
    (ending : Ending ex op left dead taken) :
    Balanced (left.resumeEnd pid dead) := by
  cases ending with
  | yields => exact balanced_doYield balanced running
  | waits fds timeoutMs now =>
      exact balanced_yieldForIo balanced running fds timeoutMs now
  | exits cause =>
      exact balanced_vprocExitWithCode balanced running cause.code
  | raises fatal => exact balanced_vprocExitWithCode balanced running _
  | panics missing =>
      have taken : Balanced ex.takePid :=
        balanced_congr balanced rfl rfl rfl
      exact balanced_vprocExitWithCode taken running _
  | returns => exact balanced_entryReturned balanced running

end EndOfTurn

/-! ## Waking and reaping -/

/-- A woken number stands in the queue once, if it stood there at most once. -/
theorem count_wakeOne (ex : Executor) (pid other : VPid) :
    (ex.wakeOne pid).readyQueue.count other =
      if other = pid then max 1 (ex.readyQueue.count pid)
      else ex.readyQueue.count other := by
  rw [wakeOne_eq]
  dsimp only
  split
  · rename_i member
    have positive : 0 < ex.readyQueue.count pid :=
      List.count_pos_iff.mpr member
    by_cases same : other = pid
    · subst other
      rw [if_pos rfl, max_eq_right positive]
    · rw [if_neg same]
  · rename_i missing
    have zero : ex.readyQueue.count pid = 0 :=
      List.count_eq_zero.mpr missing
    by_cases same : other = pid
    · subst other
      simp [zero]
    · have different : pid ≠ other := fun equal => same equal.symm
      simp [same, different]

theorem balanced_wakeOne
    {ex : Executor} (balanced : Balanced ex) (idle : ex.current = none)
    (pid : VPid) :
    Balanced (ex.wakeOne pid) := by
  have notRunning (other : VPid) : ex.current ≠ some other := by
    rw [idle]
    exact fun impossible => nomatch impossible
  constructor
  case waiting =>
    intro other co found _
    rw [wakeOne_eq] at found
    replace found := (lookup_update ex pid other _).symm.trans found
    unfold Queued
    rw [count_wakeOne]
    by_cases same : other = pid
    · subst other
      rw [if_pos rfl] at found ⊢
      obtain ⟨before, stored, rfl⟩ := Option.map_eq_some_iff.mp found
      have queued := balanced.waiting pid before stored (notRunning pid)
      constructor
      · intro alive _
        have wasAlive : before.isDone = false := alive
        cases waits : before.ioWait with
        | none => simp [queued.1 wasAlive waits]
        | some wait => simp [queued.2 (by simp [waits])]
      · intro waits
        cases waits
    · rw [if_neg same] at found ⊢
      exact balanced.waiting other co found (notRunning other)
  case running =>
    intro other isRunning
    rw [wakeOne_eq] at isRunning
    exact (notRunning other isRunning).elim

theorem balanced_wakeIoReady
    {ex : Executor} (balanced : Balanced ex) (idle : ex.current = none)
    (polled : List (Bool × VPid)) (now : Nat) :
    Balanced (ex.wakeIoReady polled now) := by
  have kept :
      Balanced (ex.wakeIoReady polled now) ∧
        (ex.wakeIoReady polled now).current = none := by
    refine wakeIoReady_rec
      (motive := fun after => Balanced after ∧ after.current = none)
      ex polled now ?_ ?_
    · exact ⟨balanced, idle⟩
    · rintro before ⟨balanced, idle⟩ pid _
      refine ⟨balanced_wakeOne balanced idle pid, ?_⟩
      rw [wakeOne_eq]
      exact idle
  exact kept.1

theorem balanced_reapDone
    {ex : Executor} (balanced : Balanced ex) (idle : ex.current = none) :
    Balanced ex.reapDone := by
  constructor
  case waiting =>
    intro pid co found notRunning
    obtain ⟨stored, _⟩ := lookup_retain_iff.mp found
    exact balanced.waiting pid co stored notRunning
  case running =>
    intro pid isRunning
    have impossible : ex.current = some pid := isRunning
    rw [idle] at impossible
    cases impossible

/-! ## Steps and runs -/

/-- The invariant of the driver path, within turns and between them. -/
structure DriverInvariant (driver : Driver) : Prop where
  balanced : Balanced driver.executor
  current : driver.executor.current = driver.turn.map Turn.pid

theorem current_of_idle
    {driver : Driver} (invariant : DriverInvariant driver)
    (idle : driver.turn = none) :
    driver.executor.current = none := by
  rw [invariant.current, idle]
  rfl

/-- A change of the executor which keeps who runs. -/
theorem driverInvariant_withExecutor
    {driver : Driver} (invariant : DriverInvariant driver)
    {next : Driver} (balanced : Balanced next.executor)
    (current : next.executor.current = driver.executor.current)
    (turn : next.turn = driver.turn) :
    DriverInvariant next where
  balanced := balanced
  current := by rw [current, turn, invariant.current]

theorem keepsShape_signal (sig : CInt) :
    KeepsShape fun co =>
      { co with pendingSignals := co.pendingSignals ++ [sig] } := by
  intro co
  exact ⟨rfl, rfl⟩

/-- Every step which spawns fresh processes only keeps the invariant. -/
theorem driverInvariant_change
    {driver next : Driver} {op : DriverOp}
    (invariant : DriverInvariant driver)
    (change : Change driver op next)
    (fresh : spawns driver op = true → FreshPid driver.executor) :
    DriverInvariant next := by
  have balanced := invariant.balanced
  cases change with
  | spawned isSpawn child =>
      exact
        driverInvariant_withExecutor invariant
          (balanced_spawned balanced child (fresh isSpawn))
          (counters_spawned child).2.1 rfl
  | idles idle begins nothing =>
      have noCurrent := current_of_idle invariant idle
      refine driverInvariant_withExecutor invariant ?_ ?_ rfl
      · exact balanced_pickNext_none balanced noCurrent nothing
      · obtain ⟨rfl, _⟩ := pickNext_none nothing
        rfl
  | resumes turn idle begins chosen isResumed =>
      have noCurrent := current_of_idle invariant idle
      constructor
      · exact balanced_beginTurn balanced noCurrent chosen isResumed
      · exact (resumeBegin_spec isResumed).2.1
  | ends turn running ending =>
      have current : driver.executor.current = some turn.pid := by
        rw [invariant.current, running]
        rfl
      exact ⟨balanced_ending balanced current ending, rfl⟩
  | signals target sig isSignal =>
      exact
        driverInvariant_withExecutor invariant
          (balanced_update balanced target (keepsShape_signal sig)) rfl
          rfl
  | forgets target =>
      exact
        driverInvariant_withExecutor invariant
          (balanced_congr balanced rfl rfl rfl) rfl rfl
  | collects =>
      exact driverInvariant_withExecutor invariant balanced rfl rfl
  | wakes revents now idle =>
      have noCurrent := current_of_idle invariant idle
      have woken :=
        balanced_wakeIoReady balanced noCurrent
          (revents.zip driver.polled) now
      exact
        driverInvariant_withExecutor invariant woken
          (current_wakeIoReady _ _ now) rfl
  | reaps idle =>
      have noCurrent := current_of_idle invariant idle
      exact
        driverInvariant_withExecutor invariant
          (balanced_reapDone balanced noCurrent) rfl rfl
  | calls call => exact invariant

theorem driverInvariant_new : DriverInvariant Driver.new where
  balanced :=
    { waiting := by
        intro pid co found
        cases found
      running := by
        intro pid isRunning
        cases isRunning }
  current := rfl

theorem driverInvariant_step
    (machine : Machine) (op : DriverOp) (next : Machine)
    (invariant : DriverInvariant machine.driver)
    (stepped : machine.step op = some next)
    (fresh : SpawnsFresh machine op) :
    DriverInvariant next.driver :=
  driverInvariant_change invariant (change_of_machineStep stepped) fresh

/--
In a run in which every spawn finds its process number free, the ready queue
is consistent between turns.
-/
theorem ready_queue_consistent
    (world : World) (ops : List DriverOp) (final : Machine)
    (reached : run Machine.step (Machine.init world) ops = some final)
    (fresh : Along Machine.step (fun machine op _ => SpawnsFresh machine op)
      (Machine.init world) ops)
    (between : final.driver.turn = none) :
    QueueConsistent final.driver.executor := by
  have invariant : DriverInvariant final.driver :=
    @invariant_of_along Machine DriverOp Machine.step
      (fun machine op _ => SpawnsFresh machine op)
      (fun machine => DriverInvariant machine.driver)
      driverInvariant_step ops _ _ driverInvariant_new fresh
      reached
  have idle := current_of_idle invariant between
  refine ⟨idle, ?_⟩
  intro pid co found
  apply invariant.balanced.waiting pid co found
  rw [idle]
  exact fun impossible => nomatch impossible

/-- Two processes; one yields, the other waits and times out. -/
theorem ready_queue_consistent_two :
    ∃ final,
      run Machine.step (Machine.init (World.init Kernel.standard))
          [.spawn, .stepFromDriver, .spawn, .doYield, .stepFromDriver,
            .yieldForIo [(0, 1)] 5 10, .collectIoWaits,
            .wakeIoReady [false] 15, .reapDoneCoroutines] = some final ∧
      final.driver.executor.readyQueue = [1, 2] ∧
      QueueConsistent final.driver.executor := by
  have completes :
      (run Machine.step (Machine.init (World.init Kernel.standard))
          [.spawn, .stepFromDriver, .spawn, .doYield, .stepFromDriver,
            .yieldForIo [(0, 1)] 5 10, .collectIoWaits,
            .wakeIoReady [false] 15, .reapDoneCoroutines]).any
        (fun final =>
          decide
            (final.driver.executor.readyQueue = [1, 2] ∧
              final.driver.turn = none ∧ final.driver.spawned = 2)) =
      true := by
    decide
  obtain ⟨final, reached, holds⟩ := Option.any_eq_true _ _ |>.mp completes
  obtain ⟨queue, idle, spawned⟩ := of_decide_eq_true holds
  refine ⟨final, reached, queue, ?_⟩
  apply ready_queue_consistent _ _ final reached _ idle
  apply spawnsFresh_of_few numbered_new reached
  rw [spawned]
  decide

/-! ## When the process numbers come round -/

/-- The process at the front of the queue has its turn. -/
theorem beginTurn_front
    (world : World) {driver : Driver} {pid : VPid} {rest : List VPid}
    {co : Coroutine}
    (queue : driver.executor.readyQueue = pid :: rest)
    (found : driver.executor.vprocs.lookup pid = some co)
    (alive : co.isDone = false) (unsignalled : co.pendingSignals = [])
    (startable : Executor.cannotStart co = false) :
    ∃ next,
      Driver.beginTurn world driver none = some (world, next) ∧
      next.turn = some { pid := pid, restore := none } ∧
      next.resumes = driver.resumes ++ [pid] ∧
      next.executor.current = some pid ∧
      next.executor.readyQueue = rest ∧
      next.executor.nextPid = driver.executor.nextPid ∧
      ∀ other, next.executor.vprocs.lookup other =
        if other = pid then
          some { co with state := .running, started := true }
        else driver.executor.vprocs.lookup other := by
  have picked :
      driver.executor.pickNext =
        ({ driver.executor with readyQueue := rest }, some pid) := by
    unfold Executor.pickNext Executor.pickLoop
    rw [queue]
    simp only [found, alive]
    rfl
  have delivered :
      ({ driver.executor with readyQueue := rest }.deliverSignals pid).1 =
        { driver.executor with readyQueue := rest } := by
    simp only [Executor.deliverSignals, found, unsignalled]
    rfl
  unfold Driver.beginTurn
  rw [picked]
  dsimp only
  rw [delivered]
  simp only [Executor.resumeBegin, found, startable]
  refine ⟨_, rfl, rfl, rfl, rfl, rfl, rfl, ?_⟩
  intro other
  refine
    (lookup_update { driver.executor with readyQueue := rest } pid other
      _).trans ?_
  split
  · rename_i same
    subst other
    rw [found]
    rfl
  · rfl

/-- One process waits for its first turn, and nothing else is there. -/
structure OnlyFirst (driver : Driver) : Prop where
  idle : driver.turn = none
  queue : driver.executor.readyQueue = [1]
  lookup : ∀ pid, driver.executor.vprocs.lookup pid =
    if pid = 1 then some (Coroutine.new 1) else none

/-- A short-lived process: spawned at the front, run, and reaped. -/
def lap : List DriverOp :=
  [.spawnFront, .stepFromDriver, .exit (.exit 0), .reapDoneCoroutines]

theorem step_exit
    (world : World) {driver : Driver} {pid : VPid}
    (turn : driver.turn = some { pid := pid, restore := none })
    (cause : ExitCause) :
    Machine.step { world := world, driver := driver } (.exit cause) =
      some
        { world := world
          driver :=
            { driver with
              executor :=
                (driver.executor.vprocExitWithCode cause.code).resumeEnd
                  pid false
              turn := none } } := by
  simp only [Machine.step, Driver.step, Driver.endTurn, turn,
    Option.bind_some, Driver.installFds?, Option.map_some]

theorem exited_queue (ex : Executor) (code : CInt) (pid : VPid) :
    ((ex.vprocExitWithCode code).resumeEnd pid false).readyQueue =
      ex.readyQueue := by
  unfold Executor.vprocExitWithCode
  split <;> rfl

theorem exited_nextPid (ex : Executor) (code : CInt) (pid : VPid) :
    ((ex.vprocExitWithCode code).resumeEnd pid false).nextPid =
      ex.nextPid := by
  unfold Executor.vprocExitWithCode
  split <;> rfl

theorem run_lap
    {machine : Machine} (only : OnlyFirst machine.driver)
    (other : machine.driver.executor.nextPid ≠ 1) :
    ∃ next, run Machine.step machine lap = some next ∧
      OnlyFirst next.driver ∧
      next.driver.executor.nextPid =
        succU32 machine.driver.executor.nextPid := by
  obtain ⟨world, driver⟩ := machine
  obtain ⟨idle, queue, lookup⟩ := only
  dsimp only at idle queue lookup other
  let pid := driver.executor.nextPid
  let spawned := driver.withSpawned driver.executor.spawnFront.1
  have spawnedLookup (number : VPid) :
      spawned.executor.vprocs.lookup number =
        if number = pid then some (Coroutine.new pid)
        else driver.executor.vprocs.lookup number :=
    lookup_insert_eq driver.executor.vprocs pid number _
  obtain ⟨begun, isBegun, turn, _, current, begunQueue, begunNext,
      begunLookup⟩ :=
    beginTurn_front world
      (show spawned.executor.readyQueue =
          pid :: driver.executor.readyQueue from rfl)
      ((spawnedLookup pid).trans (if_pos rfl)) rfl rfl rfl
  have begins :
      Machine.step { world := world, driver := spawned } .stepFromDriver =
        some { world := world, driver := begun } := by
    have spawnedIdle : spawned.turn.isNone = true := by
      rw [Option.isNone_iff_eq_none]
      exact idle
    simp only [Machine.step, Driver.step, Driver.whenIdle, spawnedIdle,
      if_true, isBegun, Option.map_some]
  have exits := step_exit world turn (.exit 0)
  refine
    ⟨_,
      run_cons_iff.mpr
        ⟨_, rfl,
          run_cons_iff.mpr
            ⟨_, begins,
              run_cons_iff.mpr
                ⟨_, exits, run_cons_iff.mpr ⟨_, rfl, rfl⟩⟩⟩⟩,
      ⟨rfl, ?_, ?_⟩, ?_⟩
  · exact (exited_queue begun.executor _ pid).trans (begunQueue.trans queue)
  · intro number
    refine Option.ext fun co => ?_
    refine lookup_retain_iff.trans ?_
    rw [lookup_exited current]
    by_cases same : number = pid
    · subst number
      rw [if_pos rfl, if_neg other, begunLookup, if_pos rfl]
      constructor
      · rintro ⟨stored, alive⟩
        cases stored
        cases alive
      · exact fun impossible => nomatch impossible
    · rw [if_neg same, begunLookup, if_neg same, spawnedLookup,
        if_neg same, lookup]
      constructor
      · exact fun stored => stored.1
      · intro stored
        refine ⟨stored, ?_⟩
        split at stored
        · cases stored
          rfl
        · cases stored
  · exact (exited_nextPid begun.executor _ pid).trans begunNext

theorem run_laps
    (count : Nat) (few : count < 4294967296) {machine : Machine}
    (only : OnlyFirst machine.driver)
    (second : machine.driver.executor.nextPid = 2) :
    ∃ next,
      run Machine.step machine (List.replicate count lap).flatten =
        some next ∧
      OnlyFirst next.driver ∧
      next.driver.executor.nextPid = (2 + count) % 4294967296 := by
  induction count with
  | zero => exact ⟨machine, rfl, only, second⟩
  | succ count induction =>
      obtain ⟨middle, reached, still, number⟩ := induction (by omega)
      have notFirst : (2 + count) % 4294967296 ≠ 1 := by omega
      have counts :
          succU32 ((2 + count) % 4294967296) =
            (2 + (count + 1)) % 4294967296 := by
        rw [succU32]
        omega
      obtain ⟨next, lapped, again, counted⟩ :=
        run_lap still (number ▸ notFirst)
      refine ⟨next, ?_, again, ?_⟩
      · rw [List.replicate_succ', List.flatten_append, run_append, reached]
        simpa using lapped
      · rw [counted, number, counts]

/--
After `2 ^ 32 - 1` short-lived processes the number of a process which still
waits is given again, and stands in the queue twice.
-/
theorem ready_queue_inconsistent_after_wrap :
    ¬ ∀ (world : World) (ops : List DriverOp) (final : Machine),
      run Machine.step (Machine.init world) ops = some final →
      final.driver.turn = none →
      QueueConsistent final.driver.executor := by
  intro consistent
  let world := World.init Kernel.standard
  let first : Machine :=
    { world := world
      driver := Driver.new.withSpawned Executor.new.spawn.1 }
  have only : OnlyFirst first.driver :=
    ⟨rfl, rfl, fun pid => lookup_insert_eq _ 1 pid _⟩
  obtain ⟨middle, lapped, still, number⟩ :=
    run_laps 4294967295 (by decide) only rfl
  have reached :
      run Machine.step (Machine.init world)
          (.spawn ::
            ((List.replicate 4294967295 lap).flatten ++ [.spawn])) =
        some
          { world := middle.world
            driver :=
              middle.driver.withSpawned
                middle.driver.executor.spawn.1 } := by
    exact run_cons_iff.mpr ⟨first, rfl, run_trans lapped rfl⟩
  have queued :=
    (consistent world _ _ reached still.idle).2 1 (Coroutine.new 1)
      ?_
  · have once := queued.1 rfl rfl
    have twice :
        (middle.driver.executor.readyQueue ++
            [middle.driver.executor.nextPid]).count 1 = 1 :=
      once
    rw [still.queue, number] at twice
    cases twice
  · refine (lookup_insert_eq _ _ 1 _).trans ?_
    rw [number]
    rfl

end Vproc.Sched.ReadyQueue
