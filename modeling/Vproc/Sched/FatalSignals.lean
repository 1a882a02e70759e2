import Vproc.Sched.ExitDurability

/-!
# Fatal signals

`kill` queues a signal with the process, and the scheduler delivers the queue
when it picks the process.  A fatal signal marks the coroutine as done, and
`deliver_signals` answers that it did.  `step` then leaves the coroutine alone.
The two entry points of the driver do not look at the answer: they resume the
coroutine, which makes it a running one again.

The mark is the only trace of the signal.  The exit code is not stored apart
from the coroutine, so reaping drops it.

`step` is not called by the driver, but it is one of the scheduler's public
entry points.  Here it is a further operation, beside those of the driver.
Unlike theirs, its turns leave the resumed process as the current one.
-/

namespace Vproc.Sched.FatalSignals

open Vproc.Lib.Run
open Vproc.Lib.FiniteMap
open Vproc.Fd.Table
open Vproc.Fd.KernelTable
open Vproc.Fd.Runtime
open Vproc.Sched.Scheduler
open Vproc.Sched.DriverLoop
open Vproc.Sched.DriverSteps
open Vproc.Sched.ExitDurability

/-! ## The scheduler with all its entry points -/

/-- An operation of the driver, or `step`. -/
inductive SchedulerOp where
  | driver (op : DriverOp)
  | step
deriving DecidableEq, Repr

/-- A session, and whether its present turn was begun by `step`. -/
structure SchedulerState where
  world : World
  driver : Driver
  byStep : Bool

namespace SchedulerState

/-- The state in which a session starts. -/
def init (world : World) : SchedulerState where
  world := world
  driver := Driver.new
  byStep := false

/-- A turn begun by `step` leaves its process as the current one. -/
def keepCurrent (driver next : Driver) (byStep : Bool) : Driver :=
  match driver.turn, next.turn with
  | some turn, none =>
      if byStep then
        next.withExecutor { next.executor with current := some turn.pid }
      else next
  | _, _ => next

/-- The driver after `step` has passed control, if it has. -/
def beginStep (driver : Driver) : Option Driver :=
  driver.executor.stepBegin.map fun begun =>
    match begun with
    | (ex, none) => driver.withExecutor ex
    | (ex, some pid) =>
        { driver with
          executor := ex
          turn := some { pid := pid, restore := none }
          resumes := driver.resumes ++ [pid] }

/-- One operation. -/
def step (state : SchedulerState) :
    SchedulerOp → Option SchedulerState
  | .driver op =>
      (Driver.step state.world state.driver op).map fun next =>
        { world := next.1
          driver := keepCurrent state.driver next.2 state.byStep
          byStep := state.byStep && next.2.turn.isSome }
  | .step =>
      if state.driver.turn.isNone then
        (beginStep state.driver).map fun next =>
          { state with driver := next, byStep := next.turn.isSome }
      else none

end SchedulerState

/-- What `step` does to the driver. -/
inductive StepChange (driver : Driver) : Driver → Prop where
  | idles {ex : Executor}
      (nothing : driver.executor.pickNext = (ex, none)) :
      StepChange driver (driver.withExecutor ex)
  | kills {picked : Executor} (pid : VPid)
      (chosen : driver.executor.pickNext = (picked, some pid))
      (fatal : (picked.deliverSignals pid).2 = true) :
      StepChange driver
        (driver.withExecutor (picked.deliverSignals pid).1.requeueCurrent)
  | resumes {picked resumed : Executor} (pid : VPid)
      (chosen : driver.executor.pickNext = (picked, some pid))
      (harmless : (picked.deliverSignals pid).2 = false)
      (isResumed : (picked.deliverSignals pid).1.requeueLive.resumeBegin
        pid = some resumed) :
      StepChange driver
        { driver with
          executor := resumed
          turn := some { pid := pid, restore := none }
          resumes := driver.resumes ++ [pid] }

theorem stepChange_of_beginStep
    {driver next : Driver}
    (begun : SchedulerState.beginStep driver = some next) :
    StepChange driver next := by
  obtain ⟨result, stepped, rfl⟩ := Option.map_eq_some_iff.mp begun
  unfold Executor.stepBegin at stepped
  split at stepped
  · rename_i picked nothing
    cases stepped
    exact .idles nothing
  · rename_i picked pid chosen
    dsimp only at stepped
    split at stepped
    · rename_i fatal
      cases stepped
      exact .kills pid chosen fatal
    · rename_i notFatal
      obtain ⟨resumed, isResumed, rfl⟩ :=
        Option.map_eq_some_iff.mp stepped
      exact
        .resumes pid chosen (Bool.eq_false_of_not_eq_true notFatal)
          isResumed

/-- A driver which differs in the current process only. -/
def withCurrent (driver : Driver) (current : Option VPid) : Driver :=
  driver.withExecutor { driver.executor with current := current }

/-- An operation of the driver: one of its changes, up to who is current. -/
theorem step_driver
    {state next : SchedulerState} {op : DriverOp}
    (stepped : state.step (.driver op) = some next) :
    ∃ middle current,
      Change state.driver op middle ∧
      next.driver = withCurrent middle current ∧
      (current = middle.executor.current ∨
        middle.turn = none ∧
          ∃ turn, state.driver.turn = some turn ∧
            current = some turn.pid) := by
  obtain ⟨result, isResult, rfl⟩ := Option.map_eq_some_iff.mp stepped
  have change := change_of_step isResult
  dsimp only [SchedulerState.keepCurrent]
  split
  · rename_i turn running ended
    split
    · exact
        ⟨result.2, some turn.pid, change, rfl,
          Or.inr ⟨ended, turn, running, rfl⟩⟩
    · exact ⟨result.2, _, change, rfl, Or.inl rfl⟩
  · exact ⟨result.2, _, change, rfl, Or.inl rfl⟩

theorem step_step
    {state next : SchedulerState}
    (stepped : state.step .step = some next) :
    state.driver.turn = none ∧ StepChange state.driver next.driver := by
  simp only [SchedulerState.step] at stepped
  split at stepped
  · rename_i idle
    obtain ⟨begun, isBegun, rfl⟩ := Option.map_eq_some_iff.mp stepped
    exact
      ⟨Option.isNone_iff_eq_none.mp idle,
        stepChange_of_beginStep isBegun⟩
  · cases stepped

/-! ## Numbers and stored codes -/

/-- The executor after a process has been picked and its signals delivered. -/
structure Delivered (ex next : Executor) (pid : VPid) : Prop where
  wasQueued : pid ∈ ex.readyQueue
  books : SameBooks ex next
  current : next.current = ex.current
  others : ∀ other, other ≠ pid →
    next.vprocs.lookup other = ex.vprocs.lookup other
  queue : ∀ other ∈ next.readyQueue,
    other ∈ ex.readyQueue ∨ ex.current = some other

theorem current_deliverSignals (ex : Executor) (pid : VPid) :
    (ex.deliverSignals pid).1.current = ex.current := by
  unfold Executor.deliverSignals
  split
  · rfl
  · split
    · rfl
    · split
      · rfl
      · rfl

/-- Putting the current process back into the queue does not matter. -/
theorem delivered_requeued
    {ex picked next : Executor} {pid : VPid}
    (chosen : ex.pickNext = (picked, some pid))
    (requeued : next = (picked.deliverSignals pid).1 ∨
      ∃ current, (picked.deliverSignals pid).1.current = some current ∧
        next = (picked.deliverSignals pid).1.pushBack current) :
    Delivered ex next pid := by
  obtain ⟨skipped, rest, _, _, queue, rfl, _, _⟩ := pickNext_some chosen
  obtain ⟨_, _, lookups, sameQueue⟩ :=
    deliverSignals_spec { ex with readyQueue := rest } pid
  have books := sameBooks_deliverSignals { ex with readyQueue := rest } pid
  have current := current_deliverSignals { ex with readyQueue := rest } pid
  have wasQueued : pid ∈ ex.readyQueue := by
    rw [queue]
    exact List.mem_append_right _ List.mem_cons_self
  have others (other : VPid) (different : other ≠ pid) :
      ({ ex with readyQueue := rest }.deliverSignals
          pid).1.vprocs.lookup other = ex.vprocs.lookup other := by
    rw [lookups, if_neg different]
  have left (other : VPid) (member : other ∈ rest) :
      other ∈ ex.readyQueue := by
    rw [queue]
    exact List.mem_append_right _ (List.mem_cons_of_mem _ member)
  rcases requeued with rfl | ⟨requeued, isCurrent, rfl⟩
  · refine ⟨wasQueued, ⟨books.nextPid, books.exitCodes⟩, current, others, ?_⟩
    intro other member
    rw [sameQueue] at member
    exact Or.inl (left other member)
  · refine ⟨wasQueued, ⟨books.nextPid, books.exitCodes⟩, current, others, ?_⟩
    intro other member
    rcases List.mem_append.mp member with before | last
    · rw [sameQueue] at before
      exact Or.inl (left other before)
    · rw [List.mem_singleton.mp last]
      exact Or.inr (current.symm.trans isCurrent)

section StepChanges

variable {driver next : Driver}

theorem books_stepChange (change : StepChange driver next) :
    SameBooks driver.executor next.executor ∧
      next.spawned = driver.spawned := by
  cases change with
  | idles nothing =>
      obtain ⟨rfl, _⟩ := pickNext_none nothing
      exact ⟨⟨rfl, rfl⟩, rfl⟩
  | kills pid chosen fatal =>
      have delivered := delivered_requeued chosen (requeueCurrent_eq _)
      exact ⟨delivered.books, rfl⟩
  | resumes pid chosen harmless isResumed =>
      have delivered := delivered_requeued chosen (requeueLive_eq _)
      have resumed := sameBooks_resumeBegin isResumed
      exact
        ⟨⟨resumed.nextPid.trans delivered.books.nextPid,
            resumed.exitCodes.trans delivered.books.exitCodes⟩,
          rfl⟩

/-- Only the coroutine of the picked process changes. -/
theorem others_stepChange
    (change : StepChange driver next) {other : VPid}
    (notPicked : driver.executor.pickNext.2 ≠ some other) :
    next.executor.vprocs.lookup other =
      driver.executor.vprocs.lookup other := by
  have different {picked : Executor} {pid : VPid}
      (chosen : driver.executor.pickNext = (picked, some pid)) :
      other ≠ pid := by
    rintro rfl
    exact notPicked (congrArg Prod.snd chosen)
  cases change with
  | idles nothing =>
      obtain ⟨rfl, _⟩ := pickNext_none nothing
      rfl
  | kills pid chosen fatal =>
      have delivered := delivered_requeued chosen (requeueCurrent_eq _)
      exact delivered.others other (different chosen)
  | resumes pid chosen harmless isResumed =>
      have delivered := delivered_requeued chosen (requeueLive_eq _)
      obtain ⟨_, _, lookups⟩ := resumeBegin_spec isResumed
      rw [lookups, if_neg (different chosen)]
      exact delivered.others other (different chosen)

theorem mem_queue_stepChange
    (change : StepChange driver next) {pid : VPid}
    (member : pid ∈ next.executor.readyQueue) :
    pid ∈ driver.executor.readyQueue ∨
      driver.executor.current = some pid := by
  cases change with
  | idles nothing =>
      obtain ⟨rfl, _⟩ := pickNext_none nothing
      cases member
  | kills target chosen fatal =>
      have delivered := delivered_requeued chosen (requeueCurrent_eq _)
      exact delivered.queue pid member
  | resumes target chosen harmless isResumed =>
      have delivered := delivered_requeued chosen (requeueLive_eq _)
      refine delivered.queue pid ?_
      rw [← (resumeBegin_spec isResumed).1]
      exact member

/-- Who is current, whose turn it is, and what was polled. -/
theorem turn_stepChange
    (change : StepChange driver next) {pid : VPid}
    (notPicked : driver.executor.pickNext.2 ≠ some pid) :
    (next.executor.current = some pid →
        driver.executor.current = some pid) ∧
      (NotRunning driver pid → NotRunning next pid) ∧
      next.polled = driver.polled ∧
      next.resumes.count pid = driver.resumes.count pid := by
  cases change with
  | idles nothing =>
      obtain ⟨rfl, _⟩ := pickNext_none nothing
      exact ⟨id, id, rfl, rfl⟩
  | kills target chosen fatal =>
      have delivered := delivered_requeued chosen (requeueCurrent_eq _)
      exact ⟨delivered.current.symm.trans, id, rfl, rfl⟩
  | resumes target chosen harmless isResumed =>
      have different : target ≠ pid := by
        rintro rfl
        exact notPicked (congrArg Prod.snd chosen)
      refine ⟨?_, ?_, rfl, ?_⟩
      · intro current
        have same := (resumeBegin_spec isResumed).2.1.symm.trans current
        exact (different (Option.some.inj same)).elim
      · intro _ turn running
        cases running
        exact different
      · simp [different]

theorem mentions_stepChange
    (change : StepChange driver next) (idle : driver.turn = none)
    {pid : VPid} (mentions : Mentions next pid) :
    Mentions driver pid := by
  by_cases picked : driver.executor.pickNext.2 = some pid
  · exact .queued (live_of_pickNext picked).1
  obtain ⟨current, turn, polled, _⟩ := turn_stepChange change picked
  cases mentions with
  | coroutine member =>
      obtain ⟨co, found⟩ := mem_iff_lookup.mp member
      rw [others_stepChange change picked] at found
      exact .coroutine (mem_iff_lookup.mpr ⟨co, found⟩)
  | queued member =>
      rcases mem_queue_stepChange change member with before | isCurrent
      · exact .queued before
      · exact .current isCurrent
  | exitCode member =>
      rw [(books_stepChange change).1.exitCodes] at member
      exact .exitCode member
  | polled member =>
      rw [polled] at member
      exact .polled member
  | current same => exact .current (current same)
  | running started isTurn same =>
      have notRunning : NotRunning driver pid := by
        intro other impossible
        rw [idle] at impossible
        cases impossible
      exact (turn notRunning started isTurn same).elim

theorem turnRuns_stepChange
    (change : StepChange driver next) (idle : driver.turn = none) :
    TurnRuns next := by
  cases change with
  | idles nothing =>
      intro turn running
      rw [Driver.withExecutor, idle] at running
      cases running
  | kills target chosen fatal =>
      intro turn running
      rw [Driver.withExecutor, idle] at running
      cases running
  | resumes target chosen harmless isResumed =>
      intro turn running
      cases running
      exact (resumeBegin_spec isResumed).2.1

theorem numbered_stepChange
    (change : StepChange driver next) (idle : driver.turn = none)
    (numbered : Numbered driver) :
    Numbered next := by
  obtain ⟨books, spawned⟩ := books_stepChange change
  refine ⟨turnRuns_stepChange change idle, ?_, ?_⟩
  · rw [books.nextPid, spawned]
    exact numbered.next
  · intro pid mentions
    rw [spawned]
    exact numbered.taken pid (mentions_stepChange change idle mentions)

end StepChanges

/-! ## The running process -/

theorem isDone_settled
    {co : Coroutine} (dead : Bool) (finished : co.isDone = true) :
    settled dead co = co := by
  simp [settled, finished]

theorem signals_settled (dead : Bool) (co : Coroutine) :
    (settled dead co).pendingSignals = co.pendingSignals := by
  unfold settled
  split <;> rfl

/-- A change of the running process when its turn ends. -/
structure EndsAs (change : Coroutine → Coroutine) (kept : Prop) : Prop where
  signals : ∀ co, (change co).pendingSignals = co.pendingSignals
  finished : ∀ co, co.isDone = true → (change co).isDone = true
  live : ∀ co, (change co).isDone = false → kept

/-- A turn which leaves the state alone, or ends because its body is over. -/
theorem endsAs_returned
    {ex before : Executor} {pid : VPid} (dead : Bool)
    {parked : Coroutine → Coroutine}
    (keeps : ∀ co, (parked co).state = co.state ∧
      (parked co).pendingSignals = co.pendingSignals)
    (lookup : before.vprocs.lookup pid =
      (ex.vprocs.lookup pid).map parked)
    (codes : before.exitCodes = ex.exitCodes) :
    ∃ change,
      EndsAs change
        (before.exitCodes.lookup pid = ex.exitCodes.lookup pid) ∧
      (before.resumeEnd pid dead).vprocs.lookup pid =
        (ex.vprocs.lookup pid).map change := by
  refine ⟨settled dead ∘ parked, ⟨?_, ?_, ?_⟩, ?_⟩
  · intro co
    exact (signals_settled dead _).trans (keeps co).2
  · intro co finished
    have parkedDone : (parked co).isDone = true := by
      rw [Coroutine.isDone, (keeps co).1]
      exact finished
    rw [Function.comp_apply, isDone_settled dead parkedDone]
    exact parkedDone
  · intro co live
    rw [codes]
  · rw [lookup_resumeEnd, if_pos rfl, lookup, Option.map_map]

/-- A turn which ends by an exit. -/
theorem endsAs_exited
    {ex start : Executor} {pid : VPid} (code : CInt)
    (running : start.current = some pid)
    (vprocs : start.vprocs = ex.vprocs) :
    ∃ change,
      EndsAs change
        ((start.vprocExitWithCode code).exitCodes.lookup pid =
          ex.exitCodes.lookup pid) ∧
      ((start.vprocExitWithCode code).resumeEnd pid
          false).vprocs.lookup pid =
        (ex.vprocs.lookup pid).map change := by
  refine
    ⟨fun co => { co with state := .done, exitCode := code },
      ⟨fun _ => rfl, fun _ _ => rfl, ?_⟩, ?_⟩
  · intro co live
    cases live
  · rw [lookup_exited running, if_pos rfl, vprocs]

theorem own_ending
    {ex left : Executor} {op : DriverOp} {dead : Bool} {taken : Nat}
    {pid : VPid} (ending : Ending ex op left dead taken)
    (current : ex.current = some pid) :
    ∃ change,
      EndsAs change
        (left.exitCodes.lookup pid = ex.exitCodes.lookup pid) ∧
      (left.resumeEnd pid dead).vprocs.lookup pid =
        (ex.vprocs.lookup pid).map change := by
  cases ending with
  | yields =>
      rw [Executor.doYield]
      rcases requeueLive_eq ex with same | ⟨_, _, pushed⟩
      · rw [same]
        exact endsAs_returned false (fun _ => ⟨rfl, rfl⟩)
          Option.map_id'.symm rfl
      · rw [pushed]
        exact endsAs_returned false (fun _ => ⟨rfl, rfl⟩)
          Option.map_id'.symm rfl
  | waits fds timeoutMs now =>
      simp only [Executor.yieldForIo, current]
      refine
        endsAs_returned false ?_
          ((lookup_update ex pid pid _).trans (if_pos rfl)) rfl
      intro co
      split <;> exact ⟨rfl, rfl⟩
  | exits cause => exact endsAs_exited _ current rfl
  | raises fatal => exact endsAs_exited _ current rfl
  | panics missing => exact @endsAs_exited ex ex.takePid pid _ current rfl
  | returns =>
      exact endsAs_returned true (fun _ => ⟨rfl, rfl⟩)
        Option.map_id'.symm rfl

/-! ## Live processes have no stored exit code -/

/-- Numbers are in order, and an exit code is stored for the finished only. -/
structure Sound (driver : Driver) : Prop where
  numbered : Numbered driver
  unstored : ∀ pid co, driver.executor.vprocs.lookup pid = some co →
    co.isDone = false → driver.executor.exitCodes.lookup pid = none

section Changes

variable {driver next : Driver} {op : DriverOp} {pid : VPid}

/-- The end of a turn, seen from the process whose turn it was. -/
theorem own_change
    (change : Change driver op next) (runs : TurnRuns driver)
    {turn : Turn} (running : driver.turn = some turn)
    (ended : next.turn = none) :
    ∃ own,
      EndsAs own
        (next.executor.exitCodes.lookup turn.pid =
          driver.executor.exitCodes.lookup turn.pid) ∧
      next.executor.vprocs.lookup turn.pid =
        (driver.executor.vprocs.lookup turn.pid).map own ∧
      next.resumes = driver.resumes := by
  have still {final : Driver} (same : final.turn = driver.turn)
      (ended : final.turn = none) : False := by
    rw [same, running] at ended
    cases ended
  cases change with
  | ends finished isTurn ending =>
      rw [running] at isTurn
      cases isTurn
      obtain ⟨own, endsAs, lookup⟩ := own_ending ending (runs turn running)
      exact ⟨own, endsAs, lookup, rfl⟩
  | resumes started idle begins chosen isResumed => cases ended
  | spawned isSpawn child => exact (still rfl ended).elim
  | idles idle begins nothing => exact (still rfl ended).elim
  | signals target sig isSignal => exact (still rfl ended).elim
  | forgets target => exact (still rfl ended).elim
  | collects => exact (still rfl ended).elim
  | wakes revents now idle => exact (still rfl ended).elim
  | reaps idle => exact (still rfl ended).elim
  | calls call => exact (still rfl ended).elim

theorem unstored_change
    (change : Change driver op next) (sound : Sound driver)
    (few : next.spawned < 4294967296) {co : Coroutine}
    (found : next.executor.vprocs.lookup pid = some co)
    (live : co.isDone = false) :
    next.executor.exitCodes.lookup pid = none := by
  have runs := sound.numbered.runs
  by_cases ending :
      next.turn = none ∧
        ∃ turn, driver.turn = some turn ∧ turn.pid = pid
  · obtain ⟨ended, turn, running, rfl⟩ := ending
    obtain ⟨own, endsAs, lookup, _⟩ := own_change change runs running ended
    rw [lookup] at found
    obtain ⟨before, stored, rfl⟩ := Option.map_eq_some_iff.mp found
    rw [endsAs.live before live]
    refine sound.unstored turn.pid before stored ?_
    by_contra finished
    rw [endsAs.finished before (Bool.eq_true_of_not_eq_false finished)]
      at live
    cases live
  have bystander : next.turn = none → NotRunning driver pid :=
    fun ended turn running same => ending ⟨ended, turn, running, same⟩
  rw [exitCode_change change runs bystander]
  split
  · rfl
  by_cases picked : picks driver op pid = true
  · simp only [picks, Bool.and_eq_true, decide_eq_true_eq] at picked
    obtain ⟨_, before, stored, wasLive⟩ := live_of_pickNext picked.2
    exact sound.unstored pid before stored wasLive
  by_cases new : spawns driver op = true ∧ pid = driver.executor.nextPid
  · obtain ⟨isSpawn, same⟩ := new
    by_contra stored
    have member : pid ∈ driver.executor.exitCodes :=
      mem_iff_lookup.mpr (Option.ne_none_iff_exists'.mp stored)
    exact
      ne_nextPid_of_taken change sound.numbered few
        (sound.numbered.taken pid (.exitCode member)) isSpawn same
  have follows :=
    follows_change change runs bystander
      (Bool.eq_false_of_not_eq_true picked)
      fun isSpawn same => new ⟨isSpawn, same⟩
  rw [found] at follows
  cases before : driver.executor.vprocs.lookup pid with
  | none =>
      rw [before] at follows
      cases follows
  | some origin =>
      rw [before] at follows
      cases follows with
      | persists same =>
          refine sound.unstored pid origin before ?_
          exact (isDone_of_persists same).symm.trans live

theorem sound_change
    (change : Change driver op next) (sound : Sound driver)
    (few : next.spawned < 4294967296) :
    Sound next where
  numbered := numbered_change change sound.numbered
  unstored := fun _ _ found live =>
    unstored_change change sound few found live

theorem sound_stepChange
    (change : StepChange driver next) (idle : driver.turn = none)
    (sound : Sound driver) :
    Sound next where
  numbered := numbered_stepChange change idle sound.numbered
  unstored := by
    intro pid co found live
    rw [(books_stepChange change).1.exitCodes]
    by_cases picked : driver.executor.pickNext.2 = some pid
    · obtain ⟨_, before, stored, wasLive⟩ := live_of_pickNext picked
      exact sound.unstored pid before stored wasLive
    · rw [others_stepChange change picked] at found
      exact sound.unstored pid co found live

end Changes

theorem sound_new : Sound Driver.new where
  numbered := numbered_new
  unstored := by
    intro pid co impossible
    cases impossible

/-- Who is current does not matter, outside of turns. -/
theorem numbered_withCurrent
    {driver : Driver} {current : Option VPid} (numbered : Numbered driver)
    (known : current = driver.executor.current ∨
      driver.turn = none ∧
        ∃ pid, pid ≤ driver.spawned ∧ current = some pid) :
    Numbered (withCurrent driver current) := by
  rcases known with rfl | ⟨idle, pid, taken, rfl⟩
  · exact numbered
  · refine ⟨?_, numbered.next, ?_⟩
    · intro turn running
      have impossible : driver.turn = some turn := running
      rw [idle] at impossible
      cases impossible
    · intro other mentions
      cases mentions with
      | coroutine member => exact numbered.taken other (.coroutine member)
      | queued member => exact numbered.taken other (.queued member)
      | exitCode member => exact numbered.taken other (.exitCode member)
      | polled member => exact numbered.taken other (.polled member)
      | current same =>
          cases same
          exact taken
      | running turn isTurn same =>
          exact numbered.taken other (.running turn isTurn same)

theorem numbered_schedulerStep
    {state next : SchedulerState} {op : SchedulerOp}
    (stepped : state.step op = some next)
    (numbered : Numbered state.driver) :
    Numbered next.driver ∧ state.driver.spawned ≤ next.driver.spawned := by
  cases op with
  | driver op =>
      obtain ⟨middle, current, change, same, known⟩ := step_driver stepped
      have grows := (nextPid_change change numbered.next).2
      rw [same]
      refine ⟨?_, grows⟩
      refine numbered_withCurrent (numbered_change change numbered) ?_
      rcases known with rfl | ⟨ended, turn, running, rfl⟩
      · exact Or.inl rfl
      · have taken := numbered.taken turn.pid (.running turn running rfl)
        exact Or.inr ⟨ended, turn.pid, taken.trans grows, rfl⟩
  | step =>
      obtain ⟨idle, change⟩ := step_step stepped
      exact
        ⟨numbered_stepChange change idle numbered,
          (books_stepChange change).2.ge⟩

theorem sound_schedulerStep
    {state next : SchedulerState} {op : SchedulerOp}
    (stepped : state.step op = some next) (sound : Sound state.driver)
    (few : next.driver.spawned < 4294967296) :
    Sound next.driver := by
  refine ⟨(numbered_schedulerStep stepped sound.numbered).1, ?_⟩
  cases op with
  | driver op =>
      obtain ⟨middle, current, change, same, _⟩ := step_driver stepped
      rw [same] at few ⊢
      exact (sound_change change sound few).unstored
  | step =>
      obtain ⟨idle, change⟩ := step_step stepped
      exact (sound_stepChange change idle sound).unstored

theorem spawned_le_of_schedulerRun
    {ops : List SchedulerOp} {state final : SchedulerState}
    (numbered : Numbered state.driver)
    (reached : run SchedulerState.step state ops = some final) :
    state.driver.spawned ≤ final.driver.spawned := by
  induction ops generalizing state with
  | nil =>
      cases reached
      exact le_rfl
  | cons op rest induction =>
      obtain ⟨next, stepped, remaining⟩ := run_cons_iff.mp reached
      obtain ⟨later, grows⟩ := numbered_schedulerStep stepped numbered
      exact grows.trans (induction later remaining)

theorem sound_of_schedulerRun
    {ops : List SchedulerOp} {state final : SchedulerState}
    (sound : Sound state.driver)
    (reached : run SchedulerState.step state ops = some final)
    (few : final.driver.spawned < 4294967296) :
    Sound final.driver := by
  induction ops generalizing state with
  | nil =>
      cases reached
      exact sound
  | cons op rest induction =>
      obtain ⟨next, stepped, remaining⟩ := run_cons_iff.mp reached
      have later := (numbered_schedulerStep stepped sound.numbered).1
      have below := spawned_le_of_schedulerRun later remaining
      exact
        induction (sound_schedulerStep stepped sound (by omega)) remaining

/-! ## From the signal to the end -/

/-- A live process with a fatal signal in its queue. -/
def Doomed (driver : Driver) (pid : VPid) (sig : CInt) : Prop :=
  ∃ co, driver.executor.vprocs.lookup pid = some co ∧
    co.isDone = false ∧
    co.pendingSignals.find? Executor.isFatal = some sig

/-- A process which a signal has marked as done, and which is still there. -/
structure Killed (driver : Driver) (pid : VPid) (code : CInt) : Prop where
  notRunning : NotRunning driver pid
  marked : ∃ co, driver.executor.vprocs.lookup pid = some co ∧
    co.isDone = true ∧ co.exitCode = code
  unstored : driver.executor.exitCodes.lookup pid = none

theorem ended_of_killed
    {driver : Driver} {pid : VPid} {code : CInt}
    (numbered : Numbered driver) (killed : Killed driver pid code) :
    Ended driver pid := by
  obtain ⟨co, found, finished, _⟩ := killed.marked
  refine ⟨killed.notRunning, ?_, ?_⟩
  · intro other stored
    rw [found] at stored
    cases stored
    exact finished
  · exact
      numbered.taken pid (.coroutine (mem_iff_lookup.mpr ⟨co, found⟩))

theorem getExitCode_of_killed
    {driver : Driver} {pid : VPid} {code : CInt}
    (killed : Killed driver pid code) :
    driver.executor.getExitCode pid = some code := by
  obtain ⟨co, found, finished, isCode⟩ := killed.marked
  simp [Executor.getExitCode, killed.unstored, found, finished, isCode]

/-- Reaping drops the only record of the exit code. -/
theorem getExitCode_reapDone
    {driver : Driver} {pid : VPid} {code : CInt}
    (killed : Killed driver pid code) :
    driver.executor.reapDone.getExitCode pid = none := by
  obtain ⟨co, found, finished, _⟩ := killed.marked
  have dropped : driver.executor.reapDone.vprocs.lookup pid = none := by
    by_contra kept
    obtain ⟨left, stored⟩ := Option.ne_none_iff_exists'.mp kept
    obtain ⟨same, live⟩ := lookup_retain_iff.mp stored
    rw [found] at same
    cases same
    simp [finished] at live
  have unstored :
      driver.executor.reapDone.exitCodes.lookup pid = none :=
    killed.unstored
  simp [Executor.getExitCode, unstored, dropped]

theorem deliverSignals_fatal
    {ex : Executor} {pid : VPid} {co : Coroutine} {sig : CInt}
    (found : ex.vprocs.lookup pid = some co)
    (pending : co.pendingSignals.find? Executor.isFatal = some sig) :
    ex.deliverSignals pid =
      (ex.update pid fun co =>
          { co with pendingSignals := [] }.setDone (128 + sig),
        true) := by
  have some_signal : co.pendingSignals.isEmpty = false := by
    cases signals : co.pendingSignals with
    | nil =>
        rw [signals] at pending
        cases pending
    | cons first rest => rfl
  simp [Executor.deliverSignals, found, some_signal, pending]

theorem vprocs_requeueCurrent (ex : Executor) :
    ex.requeueCurrent.vprocs = ex.vprocs := by
  rcases requeueCurrent_eq ex with same | ⟨_, _, pushed⟩
  · rw [same]
  · rw [pushed]
    rfl

section Phases

variable {driver next : Driver} {op : DriverOp} {pid : VPid}

/-- Unless it is picked, the process waits for its signal or ends by itself. -/
theorem doomed_change
    {sig : CInt} (change : Change driver op next) (sound : Sound driver)
    (few : next.spawned < 4294967296)
    (notPicked : picks driver op pid = false)
    (doomed : Doomed driver pid sig) :
    (Doomed next pid sig ∨ Ended next pid) ∧
      next.resumes.count pid = driver.resumes.count pid := by
  have numbered := sound.numbered
  refine ⟨?_, (resumes_change change notPicked).2⟩
  obtain ⟨co, found, live, pending⟩ := doomed
  have taken : pid ≤ driver.spawned :=
    numbered.taken pid (.coroutine (mem_iff_lookup.mpr ⟨co, found⟩))
  by_cases ending :
      next.turn = none ∧
        ∃ turn, driver.turn = some turn ∧ turn.pid = pid
  · obtain ⟨ended, turn, running, rfl⟩ := ending
    obtain ⟨own, endsAs, lookup, _⟩ :=
      own_change change numbered.runs running ended
    rw [found, Option.map_some] at lookup
    cases finished : (own co).isDone with
    | false =>
        refine Or.inl ⟨own co, lookup, finished, ?_⟩
        rw [endsAs.signals co]
        exact pending
    | true =>
        refine Or.inr ⟨?_, ?_, ?_⟩
        · intro later impossible
          rw [ended] at impossible
          cases impossible
        · intro other stored
          rw [lookup] at stored
          cases stored
          exact finished
        · exact taken.trans (nextPid_change change numbered.next).2
  · have follows :=
      follows_change change numbered.runs
        (fun ended turn running same =>
          ending ⟨ended, turn, running, same⟩)
        notPicked (ne_nextPid_of_taken change numbered few taken)
    rw [found] at follows
    cases after : next.executor.vprocs.lookup pid with
    | none =>
        rw [after] at follows
        cases follows with
        | reaped isReaped finished =>
            rw [live] at finished
            cases finished
    | some left =>
        rw [after] at follows
        cases follows with
        | persists same =>
            refine Or.inl ⟨left, after, ?_, ?_⟩
            · exact (isDone_of_persists same).trans live
            · exact List.IsPrefix.find?_eq_some same.signals pending

/-- A process marked by a signal stays so until it is reaped. -/
theorem killed_change
    {code : CInt} (change : Change driver op next) (sound : Sound driver)
    (few : next.spawned < 4294967296)
    (notReaped : op ≠ .reapDoneCoroutines)
    (killed : Killed driver pid code) :
    Killed next pid code ∧
      next.resumes.count pid = driver.resumes.count pid := by
  have numbered := sound.numbered
  have ended := ended_of_killed numbered killed
  obtain ⟨stillEnded, resumes⟩ := ended_change change numbered few ended
  obtain ⟨co, found, finished, isCode⟩ := killed.marked
  have follows :=
    follows_change change numbered.runs (fun _ => ended.notRunning)
      (not_picks_of_finished ended.finished op)
      (ne_nextPid_of_taken change numbered few ended.taken)
  refine ⟨⟨stillEnded.notRunning, ?_, ?_⟩, resumes⟩
  · rw [found] at follows
    cases after : next.executor.vprocs.lookup pid with
    | none =>
        rw [after] at follows
        cases follows with
        | reaped isReaped _ => exact (notReaped isReaped).elim
    | some left =>
        rw [after] at follows
        cases follows with
        | persists same =>
            refine ⟨left, rfl, ?_, ?_⟩
            · exact (isDone_of_persists same).trans finished
            · exact same.exitCode.trans isCode
  · rw [exitCode_change change numbered.runs fun _ => ended.notRunning]
    split
    · rfl
    · exact killed.unstored

theorem pickNext_of_finished
    (finished : ∀ co, driver.executor.vprocs.lookup pid = some co →
      co.isDone = true) :
    driver.executor.pickNext.2 ≠ some pid := by
  intro picked
  obtain ⟨_, co, found, live⟩ := live_of_pickNext picked
  rw [finished co found] at live
  cases live

/-- `step` marks the process it picks, and leaves others alone. -/
theorem doomed_stepChange
    {sig : CInt} (change : StepChange driver next) (sound : Sound driver)
    (idle : driver.turn = none) (doomed : Doomed driver pid sig) :
    (if driver.executor.pickNext.2 = some pid then
        Killed next pid (128 + sig)
      else Doomed next pid sig) ∧
      next.resumes.count pid = driver.resumes.count pid := by
  obtain ⟨co, found, live, pending⟩ := doomed
  split
  · rename_i picked
    cases change with
    | idles nothing =>
        rw [nothing] at picked
        cases picked
    | kills target chosen fatal =>
        rw [chosen] at picked
        cases picked
        have books :=
          (delivered_requeued chosen (requeueCurrent_eq _)).books
        obtain ⟨_, rest, _, _, _, rfl, _, _⟩ := pickNext_some chosen
        refine ⟨⟨?_, ?_, ?_⟩, rfl⟩
        · intro turn impossible
          rw [Driver.withExecutor, idle] at impossible
          cases impossible
        · refine
            ⟨{ co with pendingSignals := [] }.setDone (128 + sig), ?_,
              rfl, rfl⟩
          refine
            (congrArg (AList.lookup pid) (vprocs_requeueCurrent _)).trans
              ?_
          rw [@deliverSignals_fatal
            { driver.executor with readyQueue := rest } pid co sig found
            pending]
          refine (lookup_update _ pid pid _).trans ?_
          rw [if_pos rfl]
          exact congrArg _ found
        · refine (congrArg (AList.lookup pid) books.exitCodes).trans ?_
          exact sound.unstored pid co found live
    | resumes target chosen harmless isResumed =>
        rw [chosen] at picked
        cases picked
        obtain ⟨_, rest, _, _, _, rfl, _, _⟩ := pickNext_some chosen
        rw [@deliverSignals_fatal
          { driver.executor with readyQueue := rest } pid co sig found
          pending] at harmless
        cases harmless
  · rename_i notPicked
    refine ⟨⟨co, ?_, live, pending⟩, ?_⟩
    · rw [others_stepChange change notPicked]
      exact found
    · exact (turn_stepChange change notPicked).2.2.2

theorem ended_stepChange
    (change : StepChange driver next) (ended : Ended driver pid) :
    Ended next pid ∧
      next.resumes.count pid = driver.resumes.count pid := by
  have notPicked := pickNext_of_finished ended.finished
  obtain ⟨_, notRunning, _, resumes⟩ := turn_stepChange change notPicked
  refine ⟨⟨notRunning ended.notRunning, ?_, ?_⟩, resumes⟩
  · rw [others_stepChange change notPicked]
    exact ended.finished
  · rw [(books_stepChange change).2]
    exact ended.taken

theorem killed_stepChange
    {code : CInt} (change : StepChange driver next)
    (numbered : Numbered driver) (killed : Killed driver pid code) :
    Killed next pid code ∧
      next.resumes.count pid = driver.resumes.count pid := by
  have ended := ended_of_killed numbered killed
  obtain ⟨stillEnded, resumes⟩ := ended_stepChange change ended
  refine ⟨⟨stillEnded.notRunning, ?_, ?_⟩, resumes⟩
  · rw [others_stepChange change (pickNext_of_finished ended.finished)]
    exact killed.marked
  · rw [(books_stepChange change).1.exitCodes]
    exact killed.unstored

end Phases

/-! ## Whole runs -/

/-- The process which the scheduler picks in an operation. -/
def pickedBy (state : SchedulerState) : SchedulerOp → Option VPid
  | .driver op =>
      if beginsTurn op then state.driver.executor.pickNext.2 else none
  | .step => state.driver.executor.pickNext.2

/-- The first fatal signal in the queue of a process. -/
def firstFatal (ex : Executor) (pid : VPid) : Option CInt :=
  (ex.vprocs.lookup pid).bind fun co =>
    co.pendingSignals.find? Executor.isFatal

/--
The signal ends the process: it is not resumed any more, and once it has been
picked it is done, with the exit code of the signal.
-/
structure EndsProcess (pid : VPid) (sig : CInt) (start : SchedulerState)
    (ops : List SchedulerOp) (final : SchedulerState) : Prop where
  notResumed : final.driver.resumes.count pid =
    start.driver.resumes.count pid
  finished : ∀ earlier op later middle,
    ops = earlier ++ op :: later →
    run SchedulerState.step start earlier = some middle →
    pickedBy middle op = some pid →
      (∀ co, final.driver.executor.vprocs.lookup pid = some co →
        co.isDone = true) ∧
      final.driver.executor.getExitCode pid = some (128 + sig)

/--
The operation is not one of those which lose the signal: the driver does not
pick the process, and does not reap it while its exit code is not stored.
-/
def KeepsSignal (pid : VPid) (state : SchedulerState) :
    SchedulerOp → Prop
  | .driver op =>
      picks state.driver op pid = false ∧
        (op = .reapDoneCoroutines →
          ∀ co, state.driver.executor.vprocs.lookup pid = some co →
            co.isDone = true →
              state.driver.executor.exitCodes.lookup pid ≠ none)
  | .step => True

theorem pickedBy_driver_iff
    {state : SchedulerState} {op : DriverOp} {pid : VPid} :
    pickedBy state (.driver op) = some pid ↔
      picks state.driver op pid = true := by
  cases begins : beginsTurn op with
  | true => simp [pickedBy, picks, begins]
  | false => simp [pickedBy, picks, begins]

section Runs

variable {state next final : SchedulerState} {op : SchedulerOp}
variable {pid : VPid} {sig code : CInt}

theorem ended_schedulerStep
    (stepped : state.step op = some next)
    (numbered : Numbered state.driver)
    (few : next.driver.spawned < 4294967296)
    (ended : Ended state.driver pid) :
    Ended next.driver pid ∧ pickedBy state op ≠ some pid ∧
      next.driver.resumes.count pid = state.driver.resumes.count pid := by
  cases op with
  | driver op =>
      obtain ⟨middle, current, change, same, _⟩ := step_driver stepped
      rw [same] at few ⊢
      obtain ⟨still, resumes⟩ := ended_change change numbered few ended
      refine ⟨⟨still.notRunning, still.finished, still.taken⟩, ?_, resumes⟩
      rw [Ne, pickedBy_driver_iff, not_picks_of_finished ended.finished]
      exact Bool.false_ne_true
  | step =>
      obtain ⟨_, change⟩ := step_step stepped
      obtain ⟨still, resumes⟩ := ended_stepChange change ended
      exact ⟨still, pickNext_of_finished ended.finished, resumes⟩

theorem killed_schedulerStep
    (stepped : state.step op = some next) (sound : Sound state.driver)
    (few : next.driver.spawned < 4294967296)
    (keeps : KeepsSignal pid state op)
    (killed : Killed state.driver pid code) :
    Killed next.driver pid code ∧
      next.driver.resumes.count pid = state.driver.resumes.count pid := by
  cases op with
  | driver op =>
      obtain ⟨middle, current, change, same, _⟩ := step_driver stepped
      rw [same] at few ⊢
      have notReaped : op ≠ .reapDoneCoroutines := by
        intro isReap
        obtain ⟨co, found, finished, _⟩ := killed.marked
        exact keeps.2 isReap co found finished killed.unstored
      obtain ⟨still, resumes⟩ :=
        killed_change change sound few notReaped killed
      exact ⟨⟨still.notRunning, still.marked, still.unstored⟩, resumes⟩
  | step =>
      obtain ⟨_, change⟩ := step_step stepped
      exact killed_stepChange change sound.numbered killed

theorem doomed_schedulerStep
    (stepped : state.step op = some next) (sound : Sound state.driver)
    (few : next.driver.spawned < 4294967296)
    (keeps : KeepsSignal pid state op)
    (doomed : Doomed state.driver pid sig) :
    (if pickedBy state op = some pid then
        Killed next.driver pid (128 + sig)
      else Doomed next.driver pid sig ∨ Ended next.driver pid) ∧
      next.driver.resumes.count pid = state.driver.resumes.count pid := by
  cases op with
  | driver op =>
      obtain ⟨middle, current, change, same, _⟩ := step_driver stepped
      rw [same] at few ⊢
      have notPicked : pickedBy state (.driver op) ≠ some pid := by
        rw [Ne, pickedBy_driver_iff, keeps.1]
        exact Bool.false_ne_true
      obtain ⟨phase, resumes⟩ :=
        doomed_change change sound few keeps.1 doomed
      rw [if_neg notPicked]
      refine ⟨?_, resumes⟩
      rcases phase with still | ended
      · exact Or.inl still
      · exact Or.inr ⟨ended.notRunning, ended.finished, ended.taken⟩
  | step =>
      obtain ⟨idle, change⟩ := step_step stepped
      obtain ⟨phase, resumes⟩ := doomed_stepChange change sound idle doomed
      refine ⟨?_, resumes⟩
      change if state.driver.executor.pickNext.2 = some pid then _ else _
      split
      · rename_i picked
        rw [if_pos picked] at phase
        exact phase
      · rename_i notPicked
        rw [if_neg notPicked] at phase
        exact Or.inl phase

theorem killed_run
    {ops : List SchedulerOp} (sound : Sound state.driver)
    (killed : Killed state.driver pid code)
    (reached : run SchedulerState.step state ops = some final)
    (keeps : Along SchedulerState.step
      (fun state op _ => KeepsSignal pid state op) state ops)
    (few : final.driver.spawned < 4294967296) :
    Killed final.driver pid code ∧
      final.driver.resumes.count pid = state.driver.resumes.count pid := by
  induction ops generalizing state with
  | nil =>
      cases reached
      exact ⟨killed, rfl⟩
  | cons op rest induction =>
      obtain ⟨next, stepped, remaining⟩ := run_cons_iff.mp reached
      obtain ⟨keepsNow, keepsLater⟩ := keeps next stepped
      have later := (numbered_schedulerStep stepped sound.numbered).1
      have below := spawned_le_of_schedulerRun later remaining
      have fewNow : next.driver.spawned < 4294967296 := by omega
      obtain ⟨still, resumes⟩ :=
        killed_schedulerStep stepped sound fewNow keepsNow killed
      obtain ⟨stillFinal, finalResumes⟩ :=
        induction (sound_schedulerStep stepped sound fewNow) still
          remaining keepsLater
      exact ⟨stillFinal, finalResumes.trans resumes⟩

/-- An operation which does not pick the process, before the others. -/
theorem endsProcess_cons
    {rest : List SchedulerOp} (stepped : state.step op = some next)
    (notPicked : pickedBy state op ≠ some pid)
    (resumes : next.driver.resumes.count pid =
      state.driver.resumes.count pid)
    (ends : EndsProcess pid sig next rest final) :
    EndsProcess pid sig state (op :: rest) final where
  notResumed := ends.notResumed.trans resumes
  finished := by
    intro earlier picking later middle split reached picked
    cases earlier with
    | nil =>
        cases split
        cases reached
        exact (notPicked picked).elim
    | cons first others =>
        cases split
        obtain ⟨_, same, remaining⟩ := run_cons_iff.mp reached
        rw [stepped] at same
        cases same
        exact ends.finished others picking later middle rfl remaining picked

theorem endsProcess_nil : EndsProcess pid sig state [] state where
  notResumed := rfl
  finished := by
    intro earlier op later middle split
    exact (List.append_ne_nil_of_right_ne_nil _ (by simp) split.symm).elim

theorem endsProcess_of_ended
    {ops : List SchedulerOp} (numbered : Numbered state.driver)
    (ended : Ended state.driver pid)
    (reached : run SchedulerState.step state ops = some final)
    (few : final.driver.spawned < 4294967296) :
    EndsProcess pid sig state ops final := by
  induction ops generalizing state with
  | nil =>
      cases reached
      exact endsProcess_nil
  | cons op rest induction =>
      obtain ⟨next, stepped, remaining⟩ := run_cons_iff.mp reached
      have later := (numbered_schedulerStep stepped numbered).1
      have below := spawned_le_of_schedulerRun later remaining
      obtain ⟨still, notPicked, resumes⟩ :=
        ended_schedulerStep stepped numbered (by omega) ended
      exact
        endsProcess_cons stepped notPicked resumes
          (induction later still remaining)

theorem endsProcess_of_doomed
    {ops : List SchedulerOp} (sound : Sound state.driver)
    (doomed : Doomed state.driver pid sig)
    (reached : run SchedulerState.step state ops = some final)
    (keeps : Along SchedulerState.step
      (fun state op _ => KeepsSignal pid state op) state ops)
    (few : final.driver.spawned < 4294967296) :
    EndsProcess pid sig state ops final := by
  induction ops generalizing state with
  | nil =>
      cases reached
      exact endsProcess_nil
  | cons op rest induction =>
      obtain ⟨next, stepped, remaining⟩ := run_cons_iff.mp reached
      obtain ⟨keepsNow, keepsLater⟩ := keeps next stepped
      have later := (numbered_schedulerStep stepped sound.numbered).1
      have below := spawned_le_of_schedulerRun later remaining
      have fewNow : next.driver.spawned < 4294967296 := by omega
      have soundNext := sound_schedulerStep stepped sound fewNow
      obtain ⟨phase, resumes⟩ :=
        doomed_schedulerStep stepped sound fewNow keepsNow doomed
      split at phase
      · obtain ⟨killed, finalResumes⟩ :=
          killed_run soundNext phase remaining keepsLater few
        have soundFinal := sound_of_schedulerRun soundNext remaining few
        have ended := ended_of_killed soundFinal.numbered killed
        exact
          { notResumed := finalResumes.trans resumes
            finished := fun _ _ _ _ _ _ _ =>
              ⟨ended.finished, getExitCode_of_killed killed⟩ }
      · rename_i notPicked
        refine endsProcess_cons stepped notPicked resumes ?_
        rcases phase with still | ended
        · exact induction soundNext still remaining keepsLater
        · exact endsProcess_of_ended later ended remaining few

end Runs

theorem vprocs_keepCurrent (driver next : Driver) (byStep : Bool) :
    (SchedulerState.keepCurrent driver next byStep).executor.vprocs =
      next.executor.vprocs := by
  unfold SchedulerState.keepCurrent
  split
  · split
    · rfl
    · rfl
  · rfl

theorem doomed_of_kill
    {start killed : SchedulerState} {pid : VPid} {co : Coroutine}
    {sig : CInt}
    (found : start.driver.executor.vprocs.lookup pid = some co)
    (live : co.isDone = false)
    (fatal : Executor.isFatal sig = true)
    (signalled : start.step (.driver (.kill pid sig)) = some killed) :
    ∃ first, Doomed killed.driver pid first := by
  have lookup :
      killed.driver.executor.vprocs.lookup pid =
        some
          { co with pendingSignals := co.pendingSignals ++ [sig] } := by
    cases signalled
    refine
      (congrArg (AList.lookup pid)
        (vprocs_keepCurrent start.driver _ start.byStep)).trans ?_
    refine (lookup_update start.driver.executor pid pid _).trans ?_
    rw [if_pos rfl, found]
    rfl
  have queued :
      ((co.pendingSignals ++ [sig]).find? Executor.isFatal).isSome =
        true := by
    simp [fatal]
  obtain ⟨first, isFirst⟩ := Option.isSome_iff_exists.mp queued
  exact ⟨first, _, lookup, live, isFirst⟩

/--
After a fatal signal has been queued with a live process, the signal ends the
process in every run whose operations keep the signal.
-/
theorem fatal_signal_ends_process
    (world : World) (before ops : List SchedulerOp)
    (start killed final : SchedulerState) (pid : VPid) (co : Coroutine)
    (sig : CInt)
    (reached : run SchedulerState.step (SchedulerState.init world) before =
      some start)
    (found : start.driver.executor.vprocs.lookup pid = some co)
    (live : co.isDone = false)
    (fatal : Executor.isFatal sig = true)
    (signalled : start.step (.driver (.kill pid sig)) = some killed)
    (continues : run SchedulerState.step killed ops = some final)
    (keeps : Along SchedulerState.step
      (fun state op _ => KeepsSignal pid state op) killed ops)
    (few : final.driver.spawned < 4294967296) :
    ∃ first, firstFatal killed.driver.executor pid = some first ∧
      EndsProcess pid first killed ops final := by
  obtain ⟨first, doomed⟩ := doomed_of_kill found live fatal signalled
  have numbered : Numbered start.driver :=
    @invariant_of_run SchedulerState SchedulerOp SchedulerState.step
      (fun state => Numbered state.driver)
      (fun _ _ _ numbered stepped =>
        (numbered_schedulerStep stepped numbered).1)
      before _ _ numbered_new reached
  have grows := (numbered_schedulerStep signalled numbered).2
  have killedNumbered := (numbered_schedulerStep signalled numbered).1
  have below := spawned_le_of_schedulerRun killedNumbered continues
  have soundStart : Sound start.driver :=
    sound_of_schedulerRun sound_new reached (by omega)
  have soundKilled := sound_schedulerStep signalled soundStart (by omega)
  refine ⟨first, ?_, ?_⟩
  · obtain ⟨stored, isStored, _, pending⟩ := doomed
    simp only [firstFatal, isStored, Option.bind_some]
    exact pending
  · exact
      endsProcess_of_doomed soundKilled doomed continues keeps few

/-- `step` picks a terminated process, and then resumes another one. -/
theorem fatal_signal_ends_process_by_step :
    ∃ killed final,
      run SchedulerState.step
          (SchedulerState.init (World.init Kernel.standard))
          [.driver .spawn, .step, .driver .doYield,
            .driver (.kill 1 15)] = some killed ∧
      run SchedulerState.step killed [.step, .driver .spawn, .step] =
        some final ∧
      EndsProcess 1 15 killed [.step, .driver .spawn, .step] final := by
  have begins :
      (run SchedulerState.step
          (SchedulerState.init (World.init Kernel.standard))
          [.driver .spawn, .step, .driver .doYield]).any
        (fun start =>
          (start.driver.executor.vprocs.lookup 1).any
              (fun co => !co.isDone) &&
            (start.step (.driver (.kill 1 15))).any fun killed =>
              decide (firstFatal killed.driver.executor 1 = some 15) &&
                (run SchedulerState.step killed
                    [.step, .driver .spawn, .step]).any
                  fun final => decide (final.driver.spawned = 2)) =
      true := by
    decide
  obtain ⟨start, reached, holds⟩ := Option.any_eq_true _ _ |>.mp begins
  obtain ⟨isLive, signals⟩ := Bool.and_eq_true_iff.mp holds
  obtain ⟨co, found, notDone⟩ := Option.any_eq_true _ _ |>.mp isLive
  obtain ⟨killed, signalled, rest⟩ := Option.any_eq_true _ _ |>.mp signals
  obtain ⟨isFirst, continues⟩ := Bool.and_eq_true_iff.mp rest
  obtain ⟨final, finishes, isFinal⟩ :=
    Option.any_eq_true _ _ |>.mp continues
  have spawned : final.driver.spawned = 2 := of_decide_eq_true isFinal
  obtain ⟨first, same, ends⟩ :=
    fatal_signal_ends_process _ _ _ start killed final 1 co 15 reached
      found (by simpa using notDone) rfl signalled finishes
      (by
        intro marked _
        refine ⟨trivial, ?_⟩
        intro spawnedNext _
        refine ⟨⟨rfl, fun impossible => nomatch impossible⟩, ?_⟩
        intro resumed _
        exact ⟨trivial, trivial⟩)
      (by rw [spawned]; decide)
  rw [of_decide_eq_true isFirst] at same
  cases same
  refine ⟨killed, final, ?_, finishes, ends⟩
  have split :
      run SchedulerState.step
          (SchedulerState.init (World.init Kernel.standard))
          ([.driver .spawn, .step, .driver .doYield] ++
            [.driver (.kill 1 15)]) = some killed :=
    run_trans reached (run_cons_iff.mpr ⟨killed, signalled, rfl⟩)
  exact split

/--
The driver resumes a process with a pending `SIGKILL`: `deliver_signals` has
marked it as done, and the resume makes it a running process again.
-/
theorem fatal_signal_ignored_by_driver :
    ¬ ∀ (world : World) (before ops : List SchedulerOp)
        (start killed final : SchedulerState) (pid : VPid)
        (co : Coroutine) (sig : CInt),
      run SchedulerState.step (SchedulerState.init world) before =
        some start →
      start.driver.executor.vprocs.lookup pid = some co →
      co.isDone = false →
      Executor.isFatal sig = true →
      start.step (.driver (.kill pid sig)) = some killed →
      run SchedulerState.step killed ops = some final →
      ∃ first, firstFatal killed.driver.executor pid = some first ∧
        EndsProcess pid first killed ops final := by
  intro claimed
  have resumes :
      (run SchedulerState.step
          (SchedulerState.init (World.init Kernel.standard))
          [.driver .spawn, .driver .stepFromDriver,
            .driver .doYield]).any
        (fun start =>
          (start.driver.executor.vprocs.lookup 1).any
              (fun co => !co.isDone) &&
            (start.step (.driver (.kill 1 9))).any fun killed =>
              decide (killed.driver.resumes = [1]) &&
                (run SchedulerState.step killed
                    [.driver .stepFromDriver]).any
                  fun final => decide (final.driver.resumes = [1, 1])) =
      true := by
    decide
  obtain ⟨start, reached, holds⟩ := Option.any_eq_true _ _ |>.mp resumes
  obtain ⟨isLive, signals⟩ := Bool.and_eq_true_iff.mp holds
  obtain ⟨co, found, notDone⟩ := Option.any_eq_true _ _ |>.mp isLive
  obtain ⟨killed, signalled, rest⟩ := Option.any_eq_true _ _ |>.mp signals
  obtain ⟨once, continues⟩ := Bool.and_eq_true_iff.mp rest
  obtain ⟨final, finishes, twice⟩ :=
    Option.any_eq_true _ _ |>.mp continues
  obtain ⟨first, _, ends⟩ :=
    claimed _ _ _ start killed final 1 co 9 reached found
      (by simpa using notDone) rfl signalled finishes
  have counts := ends.notResumed
  rw [of_decide_eq_true once, of_decide_eq_true twice] at counts
  cases counts

end Vproc.Sched.FatalSignals
