import Vproc.Sched.DriverSteps

/-!
# Exits are final

A coroutine which calls `vproc_exit_with_code` is marked done and its code is
stored apart from it.  Nothing marks a finished coroutine as ready again, and
reaping drops the coroutine but not the stored code.  So the process is never
resumed again, and its code can be asked for until `remove_exit_code` is
called, or until its number is given to another process.
-/

namespace Vproc.Sched.ExitDurability

open Vproc.Lib.Run
open Vproc.Lib.FiniteMap
open Vproc.Fd.Table
open Vproc.Fd.KernelTable
open Vproc.Fd.Runtime
open Vproc.Sched.Scheduler
open Vproc.Sched.DriverLoop
open Vproc.Sched.DriverSteps

/-- The code with which the running coroutine exits in a step. -/
def exitCode? (driver : Driver) : DriverOp → Option CInt
  | .exit cause => some cause.code
  | .raise sig => if Executor.isFatal sig then some (128 + sig) else none
  | .spawnForkChild parent =>
      if parent ∈ driver.executor.vprocs then none
      else some ExitCause.panicked.code
  | _ => none

/-- The process is over: not running, done or reaped, never to be picked. -/
structure Ended (driver : Driver) (pid : VPid) : Prop where
  notRunning : NotRunning driver pid
  finished : ∀ co, driver.executor.vprocs.lookup pid = some co →
    co.isDone = true
  taken : pid ≤ driver.spawned

theorem not_picks_of_finished
    {driver : Driver} {pid : VPid}
    (finished : ∀ co, driver.executor.vprocs.lookup pid = some co →
      co.isDone = true)
    (op : DriverOp) :
    picks driver op pid = false := by
  cases picked : picks driver op pid with
  | false => rfl
  | true =>
      simp only [picks, Bool.and_eq_true, decide_eq_true_eq] at picked
      obtain ⟨_, co, found, live⟩ := live_of_pickNext picked.2
      rw [finished co found] at live
      cases live

theorem finished_of_follows
    {reaps : Prop} {before after : Option Coroutine}
    (follows : Follows reaps before after)
    (finished : ∀ co, before = some co → co.isDone = true) :
    ∀ co, after = some co → co.isDone = true := by
  cases follows with
  | absent => exact finished
  | reaped _ _ =>
      intro co impossible
      cases impossible
  | persists same =>
      intro co stored
      cases stored
      exact (isDone_of_persists same).trans (finished _ rfl)

/-- What is over stays over, and is not resumed. -/
theorem ended_change
    {driver next : Driver} {op : DriverOp} {pid : VPid}
    (change : Change driver op next) (numbered : Numbered driver)
    (few : next.spawned < 4294967296) (ended : Ended driver pid) :
    Ended next pid ∧ next.resumes.count pid = driver.resumes.count pid := by
  have notPicked := not_picks_of_finished ended.finished op
  obtain ⟨notRunning, resumes⟩ := resumes_change change notPicked
  have follows :=
    follows_change change numbered.runs (fun _ => ended.notRunning)
      notPicked (ne_nextPid_of_taken change numbered few ended.taken)
  exact
    ⟨{ notRunning := notRunning ended.notRunning
       finished := finished_of_follows follows ended.finished
       taken :=
        ended.taken.trans (nextPid_change change numbered.next).2 },
      resumes⟩

theorem exits_of_ending
    {driver : Driver} {op : DriverOp} {left : Executor} {dead : Bool}
    {taken : Nat} {code : CInt}
    (ending : Ending driver.executor op left dead taken)
    (exits : exitCode? driver op = some code) :
    dead = false ∧
      ∃ start : Executor, start.current = driver.executor.current ∧
        left = start.vprocExitWithCode code := by
  cases ending with
  | exits cause =>
      cases exits
      exact ⟨rfl, driver.executor, rfl, rfl⟩
  | raises fatal =>
      simp only [exitCode?, fatal, if_true] at exits
      cases exits
      exact ⟨rfl, driver.executor, rfl, rfl⟩
  | panics missing =>
      simp only [exitCode?, missing, if_false] at exits
      cases exits
      exact ⟨rfl, driver.executor.takePid, rfl, rfl⟩
  | yields => cases exits
  | waits fds timeoutMs now => cases exits
  | returns => cases exits

theorem exitCode?_of_spawns
    {driver : Driver} {op : DriverOp}
    (isSpawn : spawns driver op = true) :
    exitCode? driver op = none := by
  cases op with
  | spawnForkChild parent =>
      have present : parent ∈ driver.executor.vprocs := by
        simpa [spawns] using isSpawn
      simp [exitCode?, present]
  | exit cause => cases isSpawn
  | raise sig => cases isSpawn
  | _ => rfl

/-- The step in which the running coroutine exits. -/
theorem ended_of_exit
    {driver next : Driver} {op : DriverOp} {turn : Turn} {code : CInt}
    (change : Change driver op next) (numbered : Numbered driver)
    (running : driver.turn = some turn)
    (exits : exitCode? driver op = some code) :
    Ended next turn.pid ∧
      next.executor.exitCodes.lookup turn.pid = some code ∧
      next.resumes = driver.resumes := by
  have current := numbered.runs turn running
  have taken := numbered.taken turn.pid (.running turn running rfl)
  have grows := (nextPid_change change numbered.next).2
  cases change with
  | ends ending sameTurn how =>
      rw [running] at sameTurn
      cases sameTurn
      obtain ⟨rfl, start, sameCurrent, rfl⟩ := exits_of_ending how exits
      have startCurrent := sameCurrent.trans current
      refine ⟨⟨?_, ?_, taken.trans grows⟩, ?_, rfl⟩
      · intro later impossible
        cases impossible
      · intro co found
        rw [lookup_exited startCurrent, if_pos rfl] at found
        obtain ⟨before, _, rfl⟩ := Option.map_eq_some_iff.mp found
        rfl
      · exact
          (exitCodes_exited startCurrent code turn.pid).trans (if_pos rfl)
  | spawned isSpawn child =>
      rw [exitCode?_of_spawns isSpawn] at exits
      cases exits
  | idles idle begins nothing =>
      rw [running] at idle
      cases idle
  | resumes started idle begins chosen isResumed =>
      rw [running] at idle
      cases idle
  | signals target sig isSignal =>
      rcases isSignal with rfl | ⟨rfl, harmless⟩
      · cases exits
      · simp [exitCode?, harmless] at exits
  | forgets target => cases exits
  | collects => cases exits
  | wakes revents now idle => cases exits
  | reaps idle => cases exits
  | calls call => cases exits

/-! ## Live processes -/

/-- The process is there and not done. -/
def Lives (ex : Executor) (pid : VPid) : Prop :=
  ∃ co, ex.vprocs.lookup pid = some co ∧ co.isDone = false

/-- A new process is there and not done. -/
theorem lives_spawned
    {ex after : Executor} (child : Spawned ex after) :
    Lives after ex.nextPid := by
  have inserted {new : Coroutine} (live : new.isDone = false) :
      ∃ co, (ex.vprocs.insert ex.nextPid new).lookup ex.nextPid =
        some co ∧ co.isDone = false := by
    rw [lookup_insert_eq, if_pos rfl]
    exact ⟨new, rfl, live⟩
  cases child with
  | back => exact inserted rfl
  | front => exact inserted rfl
  | elf => exact inserted rfl
  | fork forked =>
      obtain ⟨parent, _, result⟩ := Option.map_eq_some_iff.mp forked
      cases result
      obtain ⟨co, stored, live⟩ := inserted
        (show (Coroutine.forkFrom ex.nextPid parent).isDone = false
          from rfl)
      unfold Lives
      rw [lookup_update]
      split
      · refine ⟨_, congrArg _ stored, ?_⟩
        exact live
      · exact ⟨co, stored, live⟩

theorem lives_of_follows
    {reaps : Prop} {ex next : Executor} {pid : VPid}
    (follows : Follows reaps (ex.vprocs.lookup pid)
      (next.vprocs.lookup pid))
    (lives : Lives ex pid) :
    Lives next pid := by
  obtain ⟨co, found, alive⟩ := lives
  unfold Lives
  rw [found] at follows
  generalize next.vprocs.lookup pid = after at follows
  cases follows with
  | persists same =>
      exact ⟨_, rfl, (isDone_of_persists same).trans alive⟩
  | reaped _ finished =>
      rw [finished] at alive
      cases alive

/-- The running process lives on if it neither exits nor returns. -/
theorem lives_ending
    {driver : Driver} {op : DriverOp} {left : Executor} {dead : Bool}
    {taken : Nat} {pid : VPid}
    (ending : Ending driver.executor op left dead taken)
    (current : driver.executor.current = some pid)
    (noExit : exitCode? driver op = none) (goesOn : op ≠ .entryReturned)
    (lives : Lives driver.executor pid) :
    Lives (left.resumeEnd pid dead) pid := by
  obtain ⟨co, found, alive⟩ := lives
  have settles {before : Executor} (change : Coroutine → Coroutine)
      (keeps : (change co).isDone = false)
      (stored : before.vprocs.lookup pid =
        (driver.executor.vprocs.lookup pid).map change) :
      Lives (before.resumeEnd pid false) pid := by
    unfold Lives
    rw [lookup_resumeEnd, if_pos rfl, stored, found]
    refine ⟨_, rfl, ?_⟩
    rw [settled, keeps]
    rfl
  cases ending with
  | yields =>
      rw [Executor.doYield]
      rcases requeueLive_eq driver.executor with same | ⟨_, _, pushed⟩
      · rw [same]
        exact settles id alive Option.map_id'.symm
      · rw [pushed]
        exact settles id alive Option.map_id'.symm
  | waits fds timeoutMs now =>
      simp only [Executor.yieldForIo, current]
      refine settles _ ?_ ((lookup_update _ pid pid _).trans (if_pos rfl))
      split
      · exact alive
      · exact alive
  | exits cause => cases noExit
  | raises fatal => simp [exitCode?, fatal] at noExit
  | panics missing => simp [exitCode?, missing] at noExit
  | returns => exact (goesOn rfl).elim

/-- A live process stays there and live unless it exits or returns. -/
theorem lives_change
    {driver next : Driver} {op : DriverOp} {pid : VPid}
    (change : Change driver op next) (runs : TurnRuns driver)
    (goesOn : ∀ turn, driver.turn = some turn → turn.pid = pid →
      exitCode? driver op = none ∧ op ≠ .entryReturned)
    (lives : Lives driver.executor pid) :
    Lives next.executor pid := by
  cases change with
  | spawned isSpawn child =>
      by_cases new : pid = driver.executor.nextPid
      · subst new
        exact lives_spawned child
      · have follows := @follows_spawned True _ _ child _ new
        exact lives_of_follows follows lives
  | idles idle begins nothing =>
      obtain ⟨rfl, _⟩ := pickNext_none nothing
      exact lives
  | resumes turn idle begins chosen isResumed =>
      by_cases same : pid = turn.pid
      · subst same
        obtain ⟨_, _, co, _, _, rfl, found, _⟩ := pickNext_some chosen
        obtain ⟨_, _, delivered, _⟩ := deliverSignals_spec _ turn.pid
        unfold Lives
        dsimp only
        rw [(resumeBegin_spec isResumed).2.2, if_pos rfl, delivered,
          if_pos rfl, found]
        exact ⟨_, rfl, rfl⟩
      · obtain ⟨_, _, others⟩ := resumed_spec chosen isResumed
        unfold Lives
        rw [others pid same]
        exact lives
  | ends turn running ending =>
      by_cases same : pid = turn.pid
      · subst same
        obtain ⟨noExit, goesOn⟩ := goesOn turn running rfl
        exact
          lives_ending ending (runs turn running) noExit goesOn lives
      · unfold Lives
        rw [lookup_resumeEnd, if_neg same,
          (others_ending ending (runs turn running) same).1]
        exact lives
  | signals target sig isSignal =>
      refine @lives_of_follows True _ _ _ ?_ lives
      exact
        follows_modify _ target pid
          fun co => ⟨rfl, rfl, List.prefix_append _ [sig]⟩
  | wakes revents now idle =>
      have follows :=
        @follows_wakeIoReady True driver.executor
          (revents.zip driver.polled) now pid
      exact lives_of_follows follows lives
  | reaps idle =>
      exact lives_of_follows (follows_reapDone _ pid True.intro) lives
  | forgets target => exact lives
  | collects => exact lives
  | calls call => exact lives

theorem lives_of_spawns
    {driver next : Driver} {op : DriverOp}
    (change : Change driver op next) (isSpawn : spawns driver op = true) :
    Lives next.executor driver.executor.nextPid := by
  cases change with
  | spawned _ child => exact lives_spawned child
  | idles idle begins nothing =>
      cases op with
      | stepFromDriver => cases isSpawn
      | stepFromDriverWithFdSwap saved => cases isSpawn
      | _ => cases begins
  | resumes turn idle begins chosen isResumed =>
      cases op with
      | stepFromDriver => cases isSpawn
      | stepFromDriverWithFdSwap saved => cases isSpawn
      | _ => cases begins
  | ends turn running ending =>
      cases ending with
      | panics missing => simp [spawns, missing] at isSpawn
      | _ => cases isSpawn
  | signals target sig isSignal =>
      rcases isSignal with rfl | ⟨rfl, _⟩
      · cases isSpawn
      · cases isSpawn
  | _ => cases isSpawn

theorem absent_ending
    {ex left : Executor} {op : DriverOp} {dead : Bool} {taken : Nat}
    {pid : VPid} (ending : Ending ex op left dead taken)
    (absent : ex.vprocs.lookup pid = none) :
    left.vprocs.lookup pid = none := by
  have exited (start : Executor) (code : CInt)
      (missing : start.vprocs.lookup pid = none) :
      (start.vprocExitWithCode code).vprocs.lookup pid = none := by
    unfold Executor.vprocExitWithCode
    split
    · exact missing
    · refine (lookup_update start _ pid _).trans ?_
      simp [missing]
  cases ending with
  | yields =>
      rw [Executor.doYield]
      rcases requeueLive_eq ex with same | ⟨_, _, pushed⟩
      · rw [same, absent]
      · rw [pushed]
        exact absent
  | waits fds timeoutMs now =>
      unfold Executor.yieldForIo
      split
      · exact absent
      · refine (lookup_update ex _ pid _).trans ?_
        simp [absent]
  | exits cause => exact exited ex _ absent
  | raises fatal => exact exited ex _ absent
  | panics missing => exact exited ex.takePid _ absent
  | returns => exact absent

/-- What is not there comes only by a spawn. -/
theorem absent_change
    {driver next : Driver} {op : DriverOp} {pid : VPid}
    (change : Change driver op next)
    (notSpawned : spawns driver op = true →
      pid ≠ driver.executor.nextPid)
    (absent : driver.executor.vprocs.lookup pid = none) :
    next.executor.vprocs.lookup pid = none := by
  have followed {after : Option Coroutine}
      (follows : Follows True (driver.executor.vprocs.lookup pid) after) :
      after = none := by
    rw [absent] at follows
    cases follows with
    | absent => rfl
  cases change with
  | spawned isSpawn child =>
      exact followed (follows_spawned child (notSpawned isSpawn))
  | idles idle begins nothing =>
      obtain ⟨rfl, _⟩ := pickNext_none nothing
      exact absent
  | resumes turn idle begins chosen isResumed =>
      obtain ⟨_, _, co, _, _, _, found, _⟩ := pickNext_some chosen
      have different : pid ≠ turn.pid := by
        rintro rfl
        rw [absent] at found
        cases found
      obtain ⟨_, _, others⟩ := resumed_spec chosen isResumed
      rw [others pid different, absent]
  | ends turn running ending =>
      rw [lookup_resumeEnd, absent_ending ending absent]
      split <;> rfl
  | signals target sig isSignal =>
      refine followed ?_
      exact
        follows_modify _ target pid
          fun co => ⟨rfl, rfl, List.prefix_append _ [sig]⟩
  | wakes revents now idle =>
      exact followed (follows_wakeIoReady _ _ now pid)
  | reaps idle => exact followed (follows_reapDone _ pid True.intro)
  | forgets target => exact absent
  | collects => exact absent
  | calls call => exact absent

theorem exitCodes_of_no_exit
    {driver : Driver} {op : DriverOp} {left : Executor} {dead : Bool} {taken : Nat}
    (ending : Ending driver.executor op left dead taken)
    (noExit : exitCode? driver op = none) :
    left.exitCodes = driver.executor.exitCodes := by
  cases ending with
  | yields =>
      rw [Executor.doYield]
      rcases requeueLive_eq driver.executor with same | ⟨_, _, pushed⟩
      · rw [same]
      · rw [pushed]
        rfl
  | waits fds timeoutMs now =>
      unfold Executor.yieldForIo
      split <;> rfl
  | exits cause => cases noExit
  | raises fatal => simp [exitCode?, fatal] at noExit
  | panics missing => simp [exitCode?, missing] at noExit
  | returns => rfl

/-- A turn is over only if the running coroutine has ended it. -/
theorem exitCodes_of_turn_over
    {driver next : Driver} {op : DriverOp}
    (change : Change driver op next) {turn : Turn}
    (running : driver.turn = some turn) (isOver : next.turn = none)
    (noExit : exitCode? driver op = none) :
    next.executor.exitCodes = driver.executor.exitCodes := by
  cases change with
  | ends ending sameTurn how =>
      have same := exitCodes_of_no_exit how noExit
      exact same
  | resumes started idle begins chosen isResumed => cases isOver
  | collects => rfl
  | calls call => rfl
  | _ => cases running.symm.trans isOver

/-- The stored codes after a step. -/
theorem exitCodes_change
    {driver next : Driver} {op : DriverOp}
    (change : Change driver op next) (runs : TurnRuns driver)
    {pid : VPid} (kept : op ≠ .removeExitCode pid) :
    next.executor.exitCodes.lookup pid =
      match driver.turn, exitCode? driver op with
      | some turn, some code =>
          if pid = turn.pid then some code
          else driver.executor.exitCodes.lookup pid
      | _, _ => driver.executor.exitCodes.lookup pid := by
  cases exits : exitCode? driver op with
  | none =>
      have same :
          next.executor.exitCodes.lookup pid =
            driver.executor.exitCodes.lookup pid := by
        by_cases bystander : next.turn = none → NotRunning driver pid
        · exact
            (exitCode_change change runs bystander).trans (if_neg kept)
        · simp only [NotRunning, Classical.not_imp, not_forall, not_not]
            at bystander
          obtain ⟨isOver, turn, running, _⟩ := bystander
          rw [exitCodes_of_turn_over change running isOver exits]
      rw [same]
      cases driver.turn <;> rfl
  | some code =>
      cases change with
      | ends turn running ending =>
          obtain ⟨_, start, sameCurrent, rfl⟩ :=
            exits_of_ending ending exits
          have current := sameCurrent.trans (runs turn running)
          rw [running]
          by_cases own : pid = turn.pid
          · subst own
            simp only [if_true]
            exact
              (exitCodes_exited current code turn.pid).trans (if_pos rfl)
          · simp only [own, if_false]
            exact (others_ending ending (runs turn running) own).2
      | spawned isSpawn child =>
          rw [exitCode?_of_spawns isSpawn] at exits
          cases exits
      | idles idle begins nothing =>
          cases op with
          | stepFromDriver => cases exits
          | stepFromDriverWithFdSwap saved => cases exits
          | _ => cases begins
      | resumes turn idle begins chosen isResumed =>
          cases op with
          | stepFromDriver => cases exits
          | stepFromDriverWithFdSwap saved => cases exits
          | _ => cases begins
      | signals target sig isSignal =>
          rcases isSignal with rfl | ⟨rfl, harmless⟩
          · cases exits
          · simp [exitCode?, harmless] at exits
      | _ => cases exits

/-- From the exit on, through a whole run. -/
theorem ended_run
    {ops : List DriverOp} {machine final : Machine} {pid : VPid}
    {code : CInt}
    (numbered : Numbered machine.driver)
    (ended : Ended machine.driver pid)
    (stored : machine.driver.executor.exitCodes.lookup pid = some code)
    (reached : run Machine.step machine ops = some final)
    (kept : DriverOp.removeExitCode pid ∉ ops)
    (few : final.driver.spawned < 4294967296) :
    final.driver.executor.exitCodes.lookup pid = some code ∧
      final.driver.resumes.count pid =
        machine.driver.resumes.count pid := by
  induction ops generalizing machine with
  | nil =>
      cases reached
      exact ⟨stored, rfl⟩
  | cons op rest induction =>
      obtain ⟨next, stepped, remaining⟩ := run_cons_iff.mp reached
      have change := change_of_machineStep stepped
      have later := numbered_change change numbered
      have below := spawned_le_of_run later remaining
      obtain ⟨stillEnded, resumes⟩ :=
        ended_change change numbered (by omega) ended
      have stillStored :
          next.driver.executor.exitCodes.lookup pid = some code := by
        rw [exitCode_change change numbered.runs
          fun _ => ended.notRunning, if_neg]
        · exact stored
        · rintro rfl
          exact kept List.mem_cons_self
      obtain ⟨finalStored, finalResumes⟩ :=
        induction later stillEnded stillStored remaining
          (List.not_mem_of_not_mem_cons kept)
      exact ⟨finalStored, finalResumes.trans resumes⟩

/--
Once the running process has exited with a code, it is not resumed again, and
its exit code is that code in every later state of the run.
-/
theorem exit_is_final
    (world : World) (before after : List DriverOp) (op : DriverOp)
    (start final : Machine) (turn : Turn) (code : CInt)
    (reached : run Machine.step (Machine.init world) before = some start)
    (running : start.driver.turn = some turn)
    (exits : exitCode? start.driver op = some code)
    (continues : run Machine.step start (op :: after) = some final)
    (kept : DriverOp.removeExitCode turn.pid ∉ after)
    (few : final.driver.spawned < 4294967296) :
    final.driver.executor.getExitCode turn.pid = some code ∧
      final.driver.resumes.count turn.pid =
        start.driver.resumes.count turn.pid := by
  have numbered : Numbered start.driver :=
    @invariant_of_run Machine DriverOp Machine.step
      (fun machine => Numbered machine.driver) numbered_step before
      _ _ numbered_new reached
  obtain ⟨next, stepped, remaining⟩ := run_cons_iff.mp continues
  have change := change_of_machineStep stepped
  obtain ⟨ended, stored, resumes⟩ :=
    ended_of_exit change numbered running exits
  obtain ⟨finalStored, finalResumes⟩ :=
    ended_run (numbered_change change numbered) ended stored remaining
      kept few
  constructor
  · simp only [Executor.getExitCode, finalStored]
  · rw [finalResumes, resumes]

-- the codes of a closure which returns, of one which panics, and of SIGPIPE
example :
    [ExitCause.returned, .panicked, .brokenPipe].map
        (fun cause =>
          (run Machine.step (Machine.init (World.init Kernel.standard))
              [.spawn, .stepFromDriver, .exit cause,
                .reapDoneCoroutines]).bind
            fun final => final.driver.executor.getExitCode 1) =
      [some 0, some 134, some 141] := by
  decide

/-- A process exits with code 7, is reaped, and another one is resumed. -/
theorem exit_is_final_seven :
    ∃ final,
      run Machine.step (Machine.init (World.init Kernel.standard))
          ([.spawn, .stepFromDriver] ++
            [.exit (.exit 7), .reapDoneCoroutines, .spawn,
              .stepFromDriver]) = some final ∧
      1 ∉ final.driver.executor.vprocs ∧
      final.driver.executor.getExitCode 1 = some 7 ∧
      final.driver.resumes.count 1 = 1 := by
  have begins :
      (run Machine.step (Machine.init (World.init Kernel.standard))
          [.spawn, .stepFromDriver]).any
        (fun start =>
          decide
            (start.driver.turn = some { pid := 1, restore := none } ∧
              start.driver.resumes = [1]) &&
          (run Machine.step start
              [.exit (.exit 7), .reapDoneCoroutines, .spawn,
                .stepFromDriver]).any
            fun final =>
              decide
                (1 ∉ final.driver.executor.vprocs ∧
                  final.driver.spawned = 2)) =
      true := by
    decide
  obtain ⟨start, reached, holds⟩ := Option.any_eq_true _ _ |>.mp begins
  obtain ⟨started, ends⟩ := Bool.and_eq_true_iff.mp holds
  obtain ⟨running, resumes⟩ := of_decide_eq_true started
  obtain ⟨final, continues, finished⟩ :=
    Option.any_eq_true _ _ |>.mp ends
  obtain ⟨reaped, spawned⟩ := of_decide_eq_true finished
  obtain ⟨code, count⟩ :=
    exit_is_final _ _ _ _ start final _ 7 reached running rfl continues
      (by decide) (by rw [spawned]; decide)
  refine ⟨final, run_trans reached continues, reaped, code, ?_⟩
  · rw [count, resumes]
    rfl

end Vproc.Sched.ExitDurability
