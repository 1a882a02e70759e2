import Vproc.Sched.ExitDurability
import Vproc.Sched.ReadyQueue

/-!
# Round robin

A coroutine which gives back control goes to the end of the ready queue, at
once or when it is woken, and new processes do not take its place before
others.  So if another coroutine stands in the queue while it runs, that one
has its turn first.

The order is read off the queue: as long as the waiting coroutine has not had
its turn, the other one does not stand before it.  A process number which is
given a second time breaks this, since the number can then stand in the queue
twice.
-/

namespace Vproc.Sched.RoundRobin

open Vproc.Lib.Run
open Vproc.Lib.FiniteMap
open Vproc.Fd.Table
open Vproc.Fd.KernelTable
open Vproc.Fd.Runtime
open Vproc.Sched.Scheduler
open Vproc.Sched.DriverLoop
open Vproc.Sched.DriverSteps
open Vproc.Sched.ExitDurability
open Vproc.Sched.ReadyQueue

/-! ## Order in a queue -/

section Order

variable {α : Type} {queue rest skipped : List α} {waiting other head : α}

/-- The element is in the queue, and the other one is not before it. -/
def Precedes (queue : List α) (waiting other : α) : Prop :=
  ∃ front back, queue = front ++ waiting :: back ∧ other ∉ front

theorem precedes_append
    (precedes : Precedes queue waiting other) (tail : List α) :
    Precedes (queue ++ tail) waiting other := by
  obtain ⟨front, back, rfl, absent⟩ := precedes
  exact ⟨front, back ++ tail, by simp, absent⟩

theorem precedes_cons
    (precedes : Precedes queue waiting other) (different : other ≠ head) :
    Precedes (head :: queue) waiting other := by
  obtain ⟨front, back, rfl, absent⟩ := precedes
  refine ⟨head :: front, back, rfl, ?_⟩
  rw [List.mem_cons]
  rintro (same | member)
  · exact different same
  · exact absent member

/--
Taking elements from the front up to one which is not the waiting one: it was
not the other one either, and the order stays.
-/
theorem precedes_drop
    (precedes : Precedes (skipped ++ head :: rest) waiting other)
    (notSkipped : waiting ∉ skipped) (notHead : head ≠ waiting) :
    head ≠ other ∧ Precedes rest waiting other := by
  obtain ⟨front, back, shape, absent⟩ := precedes
  rcases List.append_eq_append_iff.mp shape with
    ⟨middle, isFront, isRest⟩ | ⟨middle, isSkipped, isBack⟩
  · cases middle with
    | nil =>
        cases isRest
        exact (notHead rfl).elim
    | cons first middle =>
        cases isRest
        subst isFront
        constructor
        · rintro rfl
          exact absent (by simp)
        · refine ⟨middle, back, rfl, ?_⟩
          intro member
          exact absent (by simp [member])
  · cases middle with
    | nil =>
        cases isBack
        exact (notHead rfl).elim
    | cons first middle =>
        cases isBack
        exact (notSkipped (by simp [isSkipped])).elim

end Order

/-! ## Changes of the queue -/

theorem queue_ending
    {ex left : Executor} {op : DriverOp} {dead : Bool} {taken : Nat}
    (ending : Ending ex op left dead taken) :
    ∃ tail, left.readyQueue = ex.readyQueue ++ tail := by
  have exited (start : Executor) (code : CInt) :
      (start.vprocExitWithCode code).readyQueue = start.readyQueue := by
    unfold Executor.vprocExitWithCode
    split <;> rfl
  cases ending with
  | yields =>
      rw [Executor.doYield]
      rcases requeueLive_eq ex with same | ⟨pid, _, pushed⟩
      · exact ⟨[], by rw [same, List.append_nil]⟩
      · exact ⟨[pid], by rw [pushed]; rfl⟩
  | waits fds timeoutMs now =>
      refine ⟨[], ?_⟩
      rw [List.append_nil]
      unfold Executor.yieldForIo
      split <;> rfl
  | exits cause => exact ⟨[], by rw [exited, List.append_nil]⟩
  | raises fatal => exact ⟨[], by rw [exited, List.append_nil]⟩
  | panics missing =>
      exact ⟨[], by rw [exited, List.append_nil]; rfl⟩
  | returns => exact ⟨[], by rw [List.append_nil]⟩

theorem queue_wakeIoReady
    (ex : Executor) (polled : List (Bool × VPid)) (now : Nat) :
    ∃ tail,
      (ex.wakeIoReady polled now).readyQueue = ex.readyQueue ++ tail := by
  refine
    @wakeIoReady_rec
      (fun next => ∃ tail, next.readyQueue = ex.readyQueue ++ tail)
      ex polled now ?_ ?_
  · exact ⟨[], (List.append_nil _).symm⟩
  · rintro before ⟨tail, queue⟩ pid _
    rw [wakeOne_eq]
    dsimp only
    split
    · exact ⟨tail, queue⟩
    · exact ⟨tail ++ [pid], by rw [queue, List.append_assoc]⟩

/-! ## The process which waits -/

/-- The step passes control to the process. -/
def Resumed (pid : VPid) (machine : Machine) (_ : DriverOp)
    (next : Machine) : Prop :=
  next.driver.resumes = machine.driver.resumes ++ [pid]

/-- The process can be picked, and the other one is not picked before it. -/
structure Waits (driver : Driver) (waiting other : VPid) : Prop where
  live : Lives driver.executor waiting
  notRunning : NotRunning driver waiting
  order : Precedes driver.executor.readyQueue waiting other

theorem not_mem_skipped
    {driver : Driver} {waiting other : VPid}
    (waits : Waits driver waiting other) {skipped : List VPid}
    (allDone : ∀ pid ∈ skipped, ∀ co,
      driver.executor.vprocs.lookup pid = some co → co.isDone = true) :
    waiting ∉ skipped := by
  obtain ⟨co, found, alive⟩ := waits.live
  intro member
  rw [allDone waiting member co found] at alive
  cases alive

/-- No spawn of the step takes the number. -/
def KeepsNumber (pid : VPid) (machine : Machine) (op : DriverOp) : Prop :=
  spawns machine.driver op = true →
    machine.driver.executor.nextPid ≠ pid

/-- With fewer than `2 ^ 32` numbers taken, no number is given again. -/
theorem keepsNumber_of_few
    {ops : List DriverOp} {machine final : Machine} {pid : VPid}
    (numbered : Numbered machine.driver)
    (taken : pid ≤ machine.driver.spawned)
    (reached : run Machine.step machine ops = some final)
    (few : final.driver.spawned < 4294967296) :
    Along Machine.step (fun state op _ => KeepsNumber pid state op)
      machine ops := by
  refine
    @along_of_bounded Machine DriverOp Machine.step _
      (fun state => Numbered state.driver ∧ pid ≤ state.driver.spawned)
      (fun state => state.driver.spawned < 4294967296)
      ?_ ?_ ?_ ops machine final ⟨numbered, taken⟩ reached few
  · rintro state op next ⟨numbered, taken⟩ stepped
    have change := change_of_machineStep stepped
    exact
      ⟨numbered_change change numbered,
        taken.trans (nextPid_change change numbered.next).2⟩
  · rintro state op next ⟨numbered, _⟩ stepped few
    exact few_before state op next numbered stepped few
  · rintro state op next ⟨numbered, taken⟩ stepped few isSpawn
    exact
      (ne_nextPid_of_taken (change_of_machineStep stepped) numbered few
        taken isSpawn).symm

section Steps

variable {driver next : Driver} {op : DriverOp} {waiting other : VPid}

/-- Only the number of a new process gets before a process which waits. -/
theorem order_change
    (change : Change driver op next)
    (kept : spawns driver op = true → driver.executor.nextPid ≠ other)
    (notPicked : picks driver op waiting = false)
    (waits : Waits driver waiting other) :
    Precedes next.executor.readyQueue waiting other := by
  have order := waits.order
  cases change with
  | spawned isSpawn child =>
      rcases queue_spawned child with back | front
      · rw [Driver.withSpawned, back]
        exact precedes_append order _
      · rw [Driver.withSpawned, front]
        exact precedes_cons order (kept isSpawn).symm
  | idles idle begins nothing =>
      obtain ⟨_, allDone⟩ := pickNext_none nothing
      obtain ⟨front, back, queue, _⟩ := order
      exact (not_mem_skipped waits allDone (by simp [queue])).elim
  | resumes turn idle begins chosen isResumed =>
      obtain ⟨skipped, rest, _, allDone, queue, rfl, _, _⟩ :=
        pickNext_some chosen
      have different : turn.pid ≠ waiting := by
        rintro rfl
        simp [picks, begins, chosen] at notPicked
      obtain ⟨_, _, _, sameQueue⟩ :=
        deliverSignals_spec
          { driver.executor with readyQueue := rest } turn.pid
      rw [queue] at order
      dsimp only
      rw [(resumeBegin_spec isResumed).1, sameQueue]
      exact
        (precedes_drop order (not_mem_skipped waits allDone)
          different).2
  | ends turn running ending =>
      obtain ⟨tail, queue⟩ := queue_ending ending
      exact queue ▸ precedes_append order tail
  | wakes revents now idle =>
      obtain ⟨tail, queue⟩ :=
        queue_wakeIoReady driver.executor (revents.zip driver.polled) now
      rw [Driver.withExecutor, queue]
      exact precedes_append order tail
  | signals target sig isSignal => exact order
  | forgets target => exact order
  | collects => exact order
  | reaps idle => exact order
  | calls call => exact order

/-- A step leaves a waiting process waiting, or gives it its turn. -/
theorem waits_change
    (change : Change driver op next) (runs : TurnRuns driver)
    (fresh : spawns driver op = true → FreshPid driver.executor)
    (kept : spawns driver op = true → driver.executor.nextPid ≠ other)
    (waits : Waits driver waiting other) :
    Waits next waiting other ∨
      next.resumes = driver.resumes ++ [waiting] := by
  cases picked : picks driver op waiting with
  | true => exact Or.inr (resumes_of_picks change picked)
  | false =>
      left
      obtain ⟨co, found, _⟩ := waits.live
      have follows :=
        follows_change change runs (fun _ => waits.notRunning) picked (by
          rintro isSpawn rfl
          exact (fresh isSpawn).1 (mem_iff_lookup.mpr ⟨co, found⟩))
      exact
        { live := lives_of_follows follows waits.live
          notRunning := (resumes_change change picked).1 waits.notRunning
          order := order_change change kept picked waits }

end Steps

theorem turnRuns_of_invariant
    {driver : Driver} (invariant : DriverInvariant driver) :
    TurnRuns driver := by
  intro turn running
  rw [invariant.current, running]
  rfl

/-- A process in the queue waits behind the running one. -/
theorem waits_of_queued
    {driver : Driver} {turn : Turn} {waiting : VPid}
    (invariant : DriverInvariant driver)
    (isTurn : driver.turn = some turn)
    (queued : waiting ∈ driver.executor.readyQueue)
    (live : Lives driver.executor waiting) :
    turn.pid ≠ waiting ∧ Waits driver waiting turn.pid := by
  have current := turnRuns_of_invariant invariant turn isTurn
  have absent := (invariant.balanced.running turn.pid current).1
  have different : turn.pid ≠ waiting := by
    rintro rfl
    exact absent queued
  refine ⟨different, live, ?_, ?_⟩
  · intro other running
    rw [isTurn] at running
    cases running
    exact different
  · obtain ⟨front, back, queue⟩ := List.append_of_mem queued
    refine ⟨front, back, queue, ?_⟩
    intro member
    exact absent (by simp [queue, member])

/-- The step passes control to the process, or leaves it done. -/
def Served (pid : VPid) (machine : Machine) (op : DriverOp)
    (next : Machine) : Prop :=
  Resumed pid machine op next ∨
    ∃ co, next.driver.executor.vprocs.lookup pid = some co ∧
      co.isDone = true

/--
A coroutine which is in the queue while another one is resumed has its turn
before that one is resumed again, in every run which gives out free process
numbers only.
-/
theorem no_bypass
    (world : World) (before between : List DriverOp)
    (first again : DriverOp) (start resumed last next : Machine)
    (p q : VPid)
    (reached : run Machine.step (Machine.init world) before = some start)
    (begins : start.step first = some resumed)
    (runs : Resumed p start first resumed)
    (queued : q ∈ resumed.driver.executor.readyQueue)
    (live : Lives resumed.driver.executor q)
    (continues : run Machine.step resumed between = some last)
    (repeats : last.step again = some next)
    (runsAgain : Resumed p last again next)
    (fresh : Along Machine.step (fun machine op _ => SpawnsFresh machine op)
      (Machine.init world) (before ++ first :: between))
    (same : Along Machine.step (fun machine op _ => KeepsNumber p machine op)
      resumed between) :
    Happens Machine.step (Served q) resumed between := by
  have startInvariant : DriverInvariant start.driver :=
    @invariant_of_along Machine DriverOp Machine.step
      (fun machine op _ => SpawnsFresh machine op)
      (fun machine => DriverInvariant machine.driver)
      driverInvariant_step before _ _ driverInvariant_new
      (along_left fresh) reached
  obtain ⟨freshFirst, freshBetween⟩ :=
    along_append fresh reached resumed begins
  have invariant :=
    driverInvariant_step start first resumed startInvariant begins
      freshFirst
  have change := change_of_machineStep begins
  obtain ⟨⟨turn, isTurn, rfl, _⟩, _⟩ := queue_of_resumes change runs
  obtain ⟨different, waits⟩ := waits_of_queued invariant isTurn queued live
  rcases
    @kept_or_happens Machine DriverOp Machine.step
      (fun machine op _ =>
        SpawnsFresh machine op ∧ KeepsNumber turn.pid machine op)
      (Served q) (fun machine => TurnRuns machine.driver)
      (fun machine => Waits machine.driver q turn.pid)
      (fun _ _ _ runs stepped =>
        turnRuns_change (change_of_machineStep stepped) runs)
      (by
        intro machine op after runs waits stepped good
        rcases waits_change (change_of_machineStep stepped) runs good.1
          good.2 waits with still | served
        · exact Or.inl still
        · exact Or.inr (Or.inl served))
      between resumed last (turnRuns_of_invariant invariant) waits
      (along_and freshBetween same)
      continues with still | happens
  · obtain ⟨_, skipped, rest, allDone, queue⟩ :=
      queue_of_resumes (change_of_machineStep repeats) runsAgain
    have order := still.order
    rw [queue] at order
    exact
      ((precedes_drop order (not_mem_skipped still allDone)
        different).1 rfl).elim
  · exact happens

/-- A yielding process, with a helper which is put before the waiting one. -/
theorem no_bypass_helper :
    ∃ resumed last,
      run Machine.step (Machine.init (World.init Kernel.standard))
          [.spawn, .spawn, .stepFromDriver] = some resumed ∧
      run Machine.step resumed
          [.spawnFront, .doYield, .stepFromDriver, .exit (.exit 0),
            .stepFromDriver, .doYield] = some last ∧
      last.driver.executor.readyQueue = [1, 2] ∧
      Happens Machine.step (Served 2) resumed
        [.spawnFront, .doYield, .stepFromDriver, .exit (.exit 0),
          .stepFromDriver, .doYield] := by
  have completes :
      (run Machine.step (Machine.init (World.init Kernel.standard))
          [.spawn, .spawn]).any
        (fun start =>
          (start.step .stepFromDriver).any fun resumed =>
            decide
                (resumed.driver.resumes = start.driver.resumes ++ [1] ∧
                  resumed.driver.executor.readyQueue = [2] ∧
                  ((resumed.driver.executor.vprocs.lookup 2).any fun co =>
                    !co.isDone) = true ∧
                  1 ≤ resumed.driver.spawned) &&
              (run Machine.step resumed
                  [.spawnFront, .doYield, .stepFromDriver,
                    .exit (.exit 0), .stepFromDriver, .doYield]).any
                fun last =>
                  decide
                      (last.driver.executor.readyQueue = [1, 2] ∧
                        last.driver.spawned = 3) &&
                    (last.step .stepFromDriver).any fun next =>
                      decide
                        (next.driver.resumes =
                          last.driver.resumes ++ [1])) =
      true := by
    decide
  obtain ⟨start, reached, holds⟩ := Option.any_eq_true _ _ |>.mp completes
  obtain ⟨resumed, begins, holds⟩ := Option.any_eq_true _ _ |>.mp holds
  obtain ⟨atResume, holds⟩ := Bool.and_eq_true_iff.mp holds
  obtain ⟨runs, queue, isLive, taken⟩ := of_decide_eq_true atResume
  obtain ⟨last, continues, holds⟩ := Option.any_eq_true _ _ |>.mp holds
  obtain ⟨atLast, holds⟩ := Bool.and_eq_true_iff.mp holds
  obtain ⟨lastQueue, spawned⟩ := of_decide_eq_true atLast
  obtain ⟨next, repeats, holds⟩ := Option.any_eq_true _ _ |>.mp holds
  have runsAgain := of_decide_eq_true holds
  obtain ⟨co, found, alive⟩ := Option.any_eq_true _ _ |>.mp isLive
  have stepped : run Machine.step start [.stepFromDriver] = some resumed :=
    run_cons_iff.mpr ⟨resumed, begins, rfl⟩
  have together := run_trans reached stepped
  refine ⟨resumed, last, together, continues, lastQueue, ?_⟩
  refine
    no_bypass _ _ _ .stepFromDriver .stepFromDriver start resumed last next
      1 2 reached begins runs (by simp [queue])
      ⟨co, found, by simpa using alive⟩ continues repeats runsAgain ?_ ?_
  · apply spawnsFresh_of_few numbered_new
      (run_trans reached (run_cons_iff.mpr ⟨_, begins, continues⟩))
    rw [spawned]
    decide
  · refine keepsNumber_of_few ?_ ?_ continues (by rw [spawned]; decide)
    · exact
        @invariant_of_run Machine DriverOp Machine.step
          (fun machine => Numbered machine.driver) numbered_step _ _ _
          numbered_new together
    · exact taken

theorem step_front
    {machine : Machine} {pid : VPid} {rest : List VPid} {co : Coroutine}
    (idle : machine.driver.turn = none)
    (queue : machine.driver.executor.readyQueue = pid :: rest)
    (found : machine.driver.executor.vprocs.lookup pid = some co)
    (alive : co.isDone = false) (unsignalled : co.pendingSignals = [])
    (startable : Executor.cannotStart co = false) :
    ∃ next,
      machine.step .stepFromDriver = some next ∧
      Resumed pid machine .stepFromDriver next ∧
      next.driver.turn = some { pid := pid, restore := none } ∧
      next.driver.executor.current = some pid ∧
      next.driver.executor.readyQueue = rest ∧
      ∀ other, next.driver.executor.vprocs.lookup other =
        if other = pid then
          some { co with state := .running, started := true }
        else machine.driver.executor.vprocs.lookup other := by
  obtain ⟨next, begins, turn, resumes, current, queue, _, lookups⟩ :=
    beginTurn_front machine.world queue found alive unsignalled startable
  refine
    ⟨{ world := machine.world, driver := next }, ?_, resumes, turn,
      current, queue, lookups⟩
  simp [Machine.step, Driver.step, Driver.whenIdle, idle, begins]

theorem step_doYield
    {machine : Machine} {pid : VPid} {co : Coroutine}
    (turn : machine.driver.turn = some { pid := pid, restore := none })
    (current : machine.driver.executor.current = some pid)
    (found : machine.driver.executor.vprocs.lookup pid = some co)
    (alive : co.isDone = false) :
    ∃ next,
      machine.step .doYield = some next ∧
      next.driver.turn = none ∧
      next.driver.resumes = machine.driver.resumes ∧
      next.driver.executor.readyQueue =
        machine.driver.executor.readyQueue ++ [pid] ∧
      ∀ other, next.driver.executor.vprocs.lookup other =
        if other = pid then some { co with state := .ready }
        else machine.driver.executor.vprocs.lookup other := by
  have pushed :
      machine.driver.executor.doYield =
        machine.driver.executor.pushBack pid := by
    simp [Executor.doYield, Executor.requeueLive, current, found, alive]
  refine
    ⟨{ world := machine.world
       driver :=
        { machine.driver with
          executor :=
            (machine.driver.executor.pushBack pid).resumeEnd pid false
          turn := none } }, ?_, rfl, rfl, rfl, ?_⟩
  · simp [Machine.step, Driver.step, Driver.endTurn, turn, pushed,
      Driver.installFds?]
  · intro other
    refine (lookup_resumeEnd _ pid false other).trans ?_
    split
    · rename_i same
      subst other
      exact
        (congrArg _ found).trans (by simp [settled, alive])
    · rfl

/--
After `2 ^ 32 - 1` short-lived processes the number of a process which still
waits is given again.  It then stands in the queue twice, and has two turns
before a process which was spawned in between.
-/
theorem bypass_after_wrap :
    ¬ ∀ (world : World) (before between : List DriverOp)
        (first again : DriverOp) (start resumed last next : Machine)
        (p q : VPid),
      run Machine.step (Machine.init world) before = some start →
      start.step first = some resumed →
      Resumed p start first resumed →
      q ∈ resumed.driver.executor.readyQueue →
      Lives resumed.driver.executor q →
      run Machine.step resumed between = some last →
      last.step again = some next →
      Resumed p last again next →
      Happens Machine.step (Served q) resumed between := by
  intro served
  let world := World.init Kernel.standard
  let begun : Machine :=
    { world := world
      driver := Driver.new.withSpawned Executor.new.spawn.1 }
  have only : OnlyFirst begun.driver :=
    ⟨rfl, rfl, fun pid => lookup_insert_eq _ 1 pid _⟩
  obtain ⟨middle, lapped, still, number⟩ :=
    run_laps 4294967295 (by decide) only rfl
  let second : Machine :=
    { middle with
      driver := middle.driver.withSpawned middle.driver.executor.spawn.1 }
  let third : Machine :=
    { second with
      driver := second.driver.withSpawned second.driver.executor.spawn.1 }
  have reached :
      run Machine.step (Machine.init world)
          (.spawn ::
            ((List.replicate 4294967295 lap).flatten ++
              [.spawn, .spawn])) =
        some third := by
    refine run_cons_iff.mpr ⟨begun, rfl, ?_⟩
    exact run_trans lapped rfl
  have isSecond : second.driver.executor.nextPid = 2 := by
    change succU32 middle.driver.executor.nextPid = 2
    rw [number]
    rfl
  have queue : third.driver.executor.readyQueue = [1, 1, 2] := by
    change
      (middle.driver.executor.readyQueue ++
          [middle.driver.executor.nextPid]) ++
          [second.driver.executor.nextPid] = [1, 1, 2]
    rw [still.queue, number, isSecond]
    rfl
  have lookups (pid : VPid) :
      third.driver.executor.vprocs.lookup pid =
        if pid = 2 then some (Coroutine.new 2)
        else if pid = 1 then some (Coroutine.new 1)
        else middle.driver.executor.vprocs.lookup pid := by
    refine (lookup_insert_eq _ _ pid _).trans ?_
    rw [isSecond]
    refine congrArg _ ((lookup_insert_eq _ _ pid _).trans ?_)
    rw [number]
    rfl
  obtain ⟨resumed, begins, runs, turn, current, resumedQueue,
      resumedLookups⟩ :=
    @step_front third 1 [1, 2] (Coroutine.new 1) still.idle queue
      (lookups 1) rfl rfl rfl
  obtain ⟨last, yields, idle, sameResumes, lastQueue, lastLookups⟩ :=
    step_doYield turn current (resumedLookups 1) rfl
  obtain ⟨next, repeats, runsAgain, _⟩ :=
    step_front idle (lastQueue.trans (by rw [resumedQueue]; rfl))
      (lastLookups 1) rfl rfl rfl
  have happens :=
    served world _ [.doYield] .stepFromDriver .stepFromDriver third
      resumed last next 1 2 reached begins runs (by simp [resumedQueue])
      ⟨Coroutine.new 2, (resumedLookups 2).trans (lookups 2), rfl⟩
      (run_cons_iff.mpr ⟨last, yields, rfl⟩) repeats runsAgain
  obtain ⟨after, isAfter, event | later⟩ := happens
  · cases yields.symm.trans isAfter
    rcases event with isResumed | ⟨co, found, finished⟩
    · rw [Resumed, sameResumes] at isResumed
      simp at isResumed
    · rw [lastLookups, if_neg (by decide), resumedLookups,
        if_neg (by decide), lookups] at found
      cases found
      cases finished
  · exact later

end Vproc.Sched.RoundRobin
