import Vproc.Sched.DriverCoroutines

/-!
# The turns of processes

What the switches of minicoro come to for a session.  In every run the
coroutine which runs is that of the process whose turn it is, and no call
fails.  For the driver a turn is a call which gives its registers back, and so
is a yield for the process.
-/

namespace Vproc.Sched.DriverTurns

open Vproc.Lib.Run
open Vproc.Lib.FiniteMap
open Vproc.Exec.Elf
open Vproc.Fd.Table
open Vproc.Fd.Runtime
open Vproc.Fd.KernelTable (Kernel)
open Vproc.Sched.Scheduler (Executor)
open Vproc.Sched.DriverLoop
open Vproc.Sched.DriverSteps
open Vproc.Sched.ExitDurability
open Vproc.Sched.ForkContext
open Vproc.Sched.CoroutineBlocks
open Vproc.Sched.CoroutineTurns
  (ReturnedTo returnedTo_leave MovedTo movedTo_forked forked_context Makes
    created_context)
open Vproc.Sched.ContextSwitch
  (Thread Op Registers Represents loaded represents_execute
    represents_store)
open Vproc.Sched.CoroutineCalls
open Vproc.Sched.DriverCoroutines

/-! ## Runs -/

/-- A session which has not done anything yet. -/
def Session.init (world : World) (cpu : Registers) (bytes : Bytes) :
    Session where
  machine := Machine.init world
  thread := Thread.init cpu bytes
  handles := ∅

/-- What a step of the driver is supplied with; other steps need nothing. -/
def Accepted (session : Session) : Act → Prop
  | .drive op supply => Supplied session supply op
  | _ => True

section Runs

variable {xpaci : Usize → Usize} {symbols : Symbols} {trampoline : Usize}
  {session : Session}

theorem attached_init (world : World) (cpu : Registers) (bytes : Bytes) :
    Attached (Session.init world cpu bytes) := by
  constructor
  · refine ⟨⟨_, CoroutineTurns.represents_init cpu bytes⟩, ?_⟩
    rintro co coro ⟨⟩
  · rintro turn ⟨⟩
  · exact fun pid => Iff.rfl
  · rintro pid other co ⟨⟩
  · intro co
    refine iff_of_false (not_not.mpr rfl) ?_
    rintro ⟨pid, ⟨⟩⟩
  · exact fun _ => rfl
  · rintro turn ⟨⟩
  · rintro pid co ⟨⟩

/-- Code between two calls leaves the coroutines as they are. -/
theorem attached_between
    {thread : Thread} (attached : Attached session)
    (represents : ∀ machine, Represents session.thread machine →
      ∃ after, Represents thread after)
    (coros : thread.coros = session.thread.coros)
    (current : thread.currentCo = session.thread.currentCo) :
    Attached { session with thread := thread } := by
  rcases attached.flat.represents with ⟨machine, represented⟩
  have same : states thread = states session.thread := by
    ext1 co
    rw [states, states, coros]
  have running : thread.mcoRunning = session.thread.mcoRunning := current
  constructor
  · refine ⟨represents machine represented, ?_⟩
    rw [coros]
    exact attached.flat.unlinked
  · exact attached.runs
  · exact attached.processes
  · exact attached.injective
  · show ∀ co, states thread co ≠ none ↔ _
    rw [same]
    exact attached.owned
  · show _ → thread.mcoRunning = 0
    rw [running]
    exact attached.idle
  · show ∀ turn, _ → _ = some thread.mcoRunning
    rw [running]
    exact attached.current
  · show ∀ pid co, _ → states thread co = _ → _
    rw [same]
    exact attached.finished

/-- The first of the calls succeeds. -/
theorem head_of_runs
    {thread next : Thread} {calls : List Op}
    (runs : Runs xpaci symbols thread calls next) :
    calls.head?.all (succeeds xpaci symbols thread) = true := by
  cases calls with
  | nil => rfl
  | cons op rest =>
      rcases run_cons_iff.mp runs.reached with ⟨middle, stepped, _⟩
      exact (runs.succeed middle stepped).1

/-- The driver can always go on, and minicoro with it. -/
theorem step_drive
    {supply : Supply} {op : DriverOp} {machine : Machine}
    (isCode : trampoline ≠ 0) (attached : Attached session)
    (supplied : Supplied session supply op)
    (stepped : session.machine.step op = some machine) :
    ∃ thread,
      step xpaci symbols trampoline session (.drive op supply) =
          some (after session supply op machine thread) ∧
        Runs xpaci symbols session.thread
          (session.calls trampoline supply op) thread ∧
        Driven xpaci session op (after session supply op machine thread) := by
  rcases @drives xpaci symbols session supply op machine trampoline isCode
    attached supplied stepped with ⟨thread, runs, driven⟩
  refine ⟨thread, ?_, runs, driven⟩
  simp only [step, head_of_runs runs, stepped, runs.reached, Bool.not_true,
    Bool.and_false, Bool.false_eq_true, if_false, Option.bind_some,
    Option.map_some]

theorem machine_of_drive
    {supply : Supply} {op : DriverOp} {next : Session}
    (stepped :
      step xpaci symbols trampoline session (.drive op supply) = some next) :
    session.machine.step op = some next.machine := by
  simp only [step] at stepped
  split at stepped
  · cases stepped
  · rcases Option.bind_eq_some_iff.mp stepped with ⟨machine, isNext, ran⟩
    rcases Option.map_eq_some_iff.mp ran with ⟨thread, _, rfl⟩
    exact isNext

/-- Two steps of the driver with the same calls are the same. -/
theorem thread_of_drive
    {supply : Supply} {op : DriverOp} {next : Session} {thread : Thread}
    (stepped :
      step xpaci symbols trampoline session (.drive op supply) = some next)
    (runs : Runs xpaci symbols session.thread
      (session.calls trampoline supply op) thread) :
    next = after session supply op next.machine thread := by
  have isNext := machine_of_drive stepped
  simp only [step, head_of_runs runs, isNext, runs.reached, Bool.not_true,
    Bool.and_false, Bool.false_eq_true, if_false, Option.bind_some,
    Option.map_some, Option.some.injEq] at stepped
  exact stepped.symm

/-- What holds after any step. -/
theorem goes_step
    (isCode : trampoline ≠ 0) {act : Act} {next : Session}
    (attached : Attached session) (accepted : Accepted session act)
    (stepped : step xpaci symbols trampoline session act = some next) :
    Attached next ∧ Switched xpaci session next := by
  cases act with
  | execute cpu =>
      cases stepped
      exact
        ⟨attached_between attached
            (fun _ represented => ⟨_, represents_execute represented cpu⟩)
            rfl rfl,
          switched_of_same rfl (fun _ _ _ _ => rfl) rfl⟩
  | store address byte =>
      cases stepped
      exact
        ⟨attached_between attached
            (fun _ represented => ⟨_, represents_store represented _⟩) rfl
            rfl,
          switched_of_same rfl (fun _ _ _ _ => rfl) rfl⟩
  | drive op supply =>
      rcases @drives xpaci symbols session supply op next.machine trampoline
        isCode attached accepted (machine_of_drive stepped) with
        ⟨thread, runs, driven⟩
      rw [← thread_of_drive stepped runs] at driven
      exact ⟨driven.attached, driven.switched⟩

theorem attached_of_run
    (isCode : trampoline ≠ 0) {acts : List Act} {final : Session}
    (attached : Attached session)
    (reached : run (step xpaci symbols trampoline) session acts =
      some final)
    (accepted : Along (step xpaci symbols trampoline)
      (fun before act _ => Accepted before act) session acts) :
    Attached final := by
  refine
    @invariant_of_along _ _ (step xpaci symbols trampoline) _ Attached ?_ acts
      session final attached accepted reached
  intro before act next attached stepped accepted
  exact (goes_step isCode attached accepted stepped).1

/-- The record of a process which does not get a turn. -/
theorem record_of_waiting
    (isCode : trampoline ≠ 0) {acts : List Act} {final : Session}
    {pid : VPid} {co : Usize} (attached : Attached session)
    (found : session.handles.lookup pid = some co)
    (waits : NotRunning session.driver pid)
    (reached : run (step xpaci symbols trampoline) session acts =
      some final)
    (accepted : Along (step xpaci symbols trampoline)
      (fun before act _ => Accepted before act) session acts)
    (stays : Along (step xpaci symbols trampoline)
      (fun _ _ next => next.handles.lookup pid = some co ∧
        NotRunning next.driver pid) session acts) :
    Attached final ∧ final.handles.lookup pid = some co ∧
      NotRunning final.driver pid ∧
      final.thread.coros co = session.thread.coros co := by
  refine
    @invariant_of_along _ _ (step xpaci symbols trampoline) _
      (fun current => Attached current ∧
        current.handles.lookup pid = some co ∧
        NotRunning current.driver pid ∧
        current.thread.coros co = session.thread.coros co)
      ?_ acts session final ⟨attached, found, waits, rfl⟩
      (along_and accepted stays) reached
  rintro before act next ⟨attached, found, waits, same⟩ stepped
    ⟨accepted, still, waitsStill⟩
  rcases goes_step isCode attached accepted stepped with
    ⟨isAttached, switched⟩
  refine ⟨isAttached, still, waitsStill, ?_⟩
  rw [switched.kept pid co found still (.inr ⟨waits, waitsStill⟩), same]

/-- The record of the process whose turn it is. -/
theorem record_of_turn
    (isCode : trampoline ≠ 0) {acts : List Act} {final : Session}
    {turn : Turn} (attached : Attached session)
    (isTurn : session.driver.turn = some turn)
    (reached : run (step xpaci symbols trampoline) session acts =
      some final)
    (accepted : Along (step xpaci symbols trampoline)
      (fun before act _ => Accepted before act) session acts)
    (stays : Along (step xpaci symbols trampoline)
      (fun _ _ next => next.driver.turn = some turn) session acts) :
    Attached final ∧ final.driver.turn = some turn ∧
      final.thread.mcoRunning = session.thread.mcoRunning ∧
      final.thread.coros session.thread.mcoRunning =
        session.thread.coros session.thread.mcoRunning := by
  refine
    @invariant_of_along _ _ (step xpaci symbols trampoline) _
      (fun current => Attached current ∧
        current.driver.turn = some turn ∧
        current.thread.mcoRunning = session.thread.mcoRunning ∧
        current.thread.coros session.thread.mcoRunning =
          session.thread.coros session.thread.mcoRunning)
      ?_ acts session final ⟨attached, isTurn, rfl, rfl⟩
      (along_and accepted stays) reached
  rintro before act next ⟨attached, isTurn, running, same⟩ stepped
    ⟨accepted, still⟩
  rcases goes_step isCode attached accepted stepped with
    ⟨isAttached, switched⟩
  have sameTurn : next.driver.turn = before.driver.turn :=
    still.trans isTurn.symm
  have goesOn := (switched.current sameTurn).trans running
  refine ⟨isAttached, still, goesOn, ?_⟩
  have found := attached.current turn isTurn
  have foundStill := isAttached.current turn still
  rw [running] at found
  rw [goesOn] at foundStill
  rw [switched.kept turn.pid _ found foundStill (.inl sameTurn), same]

/-- A turn begins where there is none. -/
theorem idle_of_begun
    {act : Act} {next : Session} {turn : Turn}
    (stepped : step xpaci symbols trampoline session act = some next)
    (isTurn : next.driver.turn = some turn)
    (waits : NotRunning session.driver turn.pid) :
    session.driver.turn = none := by
  cases act with
  | execute cpu =>
      cases stepped
      exact (waits turn isTurn rfl).elim
  | store address byte =>
      cases stepped
      exact (waits turn isTurn rfl).elim
  | drive op supply =>
      have change := change_of_machineStep (machine_of_drive stepped)
      rcases turn_cases change isTurn with before | ⟨_, _, idle, _⟩
      · exact (waits turn before rfl).elim
      · exact idle

/-- A process which gets a turn goes on from what its context holds. -/
theorem cpu_of_resumed
    (isCode : trampoline ≠ 0) {during : List Act} {resumes : Act}
    {last final : Session} {pid : VPid} {co : Usize} {record : Coro}
    {turn : Turn} (attached : Attached session)
    (found : session.handles.lookup pid = some co)
    (waits : NotRunning session.driver pid)
    (there : session.thread.coros co = some record)
    (ran : run (step xpaci symbols trampoline) session during = some last)
    (stays : Along (step xpaci symbols trampoline)
      (fun _ _ next => next.handles.lookup pid = some co ∧
        NotRunning next.driver pid) session during)
    (resumed : step xpaci symbols trampoline last resumes = some final)
    (isTurn : final.driver.turn = some turn) (samePid : turn.pid = pid)
    (accepted : Along (step xpaci symbols trampoline)
      (fun before act _ => Accepted before act) session
      (during ++ [resumes])) :
    final.thread.cpu = loaded record.context.ctx := by
  subst samePid
  rcases record_of_waiting isCode attached found waits ran
    (along_left accepted) stays with ⟨attachedLast, isCo, waitsLast, same⟩
  rcases along_append accepted ran final resumed with ⟨acceptedEnd, _⟩
  rcases goes_step isCode attachedLast acceptedEnd resumed with ⟨_, switched⟩
  have idle := idle_of_begun resumed isTurn waitsLast
  rcases switched.enters turn idle isTurn with
    ⟨_, _, isCoToo, isRecord, isResumed⟩
  cases isCo.symm.trans isCoToo
  rw [same, there] at isRecord
  cases isRecord
  exact isResumed.cpu

/-- The call which makes a coroutine, and where its record is. -/
theorem made_of_drive
    (isCode : trampoline ≠ 0) {supply : Supply} {op : DriverOp}
    {made : Session} (attached : Attached session)
    (supplied : Supplied session supply op)
    (isSpawn : spawns session.driver op = true)
    (stepped :
      step xpaci symbols trampoline session (.drive op supply) = some made) :
    made.handles.lookup session.executor.nextPid = some supply.co ∧
      NotRunning made.driver session.executor.nextPid ∧
      ∃ call rest middle,
        session.calls trampoline supply op = call :: rest ∧
        ContextSwitch.step xpaci symbols session.thread call = some middle ∧
        made.thread.coros supply.co = middle.coros supply.co := by
  rcases @calls_of_spawns xpaci symbols session supply op trampoline attached
    isCode supplied isSpawn with ⟨call, middle, calls, turns⟩
  have isNext := machine_of_drive stepped
  rcases attached_spawned attached supplied isNext isSpawn turns with
    ⟨thread, runs, still, _⟩
  rw [← calls] at runs
  have isMade := thread_of_drive stepped runs
  refine ⟨?_, ?_, call, _, middle, calls, turns.stepped, ?_⟩
  · rw [isMade, after, lookup_handlesAfter, if_pos isSpawn, if_pos rfl]
  · have sameTurn : made.driver.turn = session.driver.turn :=
      turn_of_spawns (change_of_machineStep isNext) isSpawn
    intro turn isTurn
    exact supplied.number isSpawn turn (sameTurn.symm.trans isTurn)
  · rw [isMade]
    exact still

end Runs

/-! ### A session to try this with -/

instance (thread : Thread) (stackAddr : Usize) :
    Decidable (OnStack thread stackAddr) :=
  decidable_of_iff
    ((thread.coros thread.mcoRunning).all fun coro =>
      decide (coro.stackBase ≤ stackAddr ∧
        stackAddr ≤ coro.stackBase + coro.stackSize))
    (by
      rw [OnStack]
      cases thread.coros thread.mcoRunning <;> simp)

instance (driver : Driver) (pid : VPid) : Decidable (NotRunning driver pid) :=
  decidable_of_iff (driver.turn.all fun turn => decide (turn.pid ≠ pid))
    (by
      rw [NotRunning]
      cases driver.turn <;> simp)

instance (session : Session) (supply : Supply) (op : DriverOp) :
    Decidable (Supplied session supply op) :=
  decidable_of_iff
    ((spawns session.driver op = true →
        supply.co ≠ 0 ∧ session.thread.coros supply.co = none) ∧
      (spawns session.driver op = true →
        NotRunning session.driver session.executor.nextPid) ∧
      OnStack session.thread supply.stackAddr)
    ⟨fun ⟨fresh, number, onStack⟩ => ⟨fresh, number, onStack⟩,
      fun supplied =>
        ⟨supplied.fresh, supplied.number, supplied.onStack⟩⟩

instance (session : Session) (act : Act) : Decidable (Accepted session act) :=
  match act with
  | .execute _ => inferInstanceAs (Decidable True)
  | .store _ _ => inferInstanceAs (Decidable True)
  | .drive op supply => inferInstanceAs (Decidable (Supplied session supply op))

/-- A block, and an address which is on a stack. -/
def supplyOf (co stackAddr : Usize) : Supply where
  co := co
  userData := 0
  entry := 0x400500
  elfSp := 0
  stackBase := 0
  stackSize := 0
  stackAddr := stackAddr

def someStep : Session → Act → Option Session :=
  step id CoroutineTurns.someSymbols 0x400400

def noSession : Session :=
  Session.init (World.init Kernel.standard) (CoroutineTurns.registersAt 5)
    fun _ => 0

/-- Where a run ends which is possible. -/
def someSession (acts : List Act) : Session :=
  (run someStep noSession acts).getD noSession

theorem someSession_reached
    {acts : List Act}
    (possible : (run someStep noSession acts).isSome = true) :
    run someStep noSession acts = some (someSession acts) := by
  rcases Option.isSome_iff_exists.mp possible with ⟨final, reached⟩
  rw [someSession, reached]
  rfl

def twoSpawned : List Act :=
  [.drive .spawn (supplyOf 0x10000 0), .drive .spawnElf (supplyOf 0x800000 0)]

/-- The driver gives a process its turn. -/
def begins : Act :=
  .drive .stepFromDriver (supplyOf 0 0)

/-- The first one runs and yields. -/
def firstYields : Act :=
  .drive .doYield (supplyOf 0 0x10800)

def firstRuns : List Act :=
  twoSpawned ++ [begins] ++ [.execute (CoroutineTurns.registersAt 0x10800)]

/-- The other one has a turn, and returns. -/
def otherReturns : List Act :=
  [begins, .drive .entryReturned (supplyOf 0 0x800800)]

theorem someStep_run
    {acts more : List Act}
    (possible : (run someStep noSession (acts ++ more)).isSome = true) :
    run someStep (someSession acts) more =
      some (someSession (acts ++ more)) := by
  have whole := someSession_reached possible
  rw [run_append] at whole
  cases first : run someStep noSession acts with
  | none =>
      rw [first] at whole
      cases whole
  | some middle =>
      have there : someSession acts = middle := by
        rw [someSession, first]
        rfl
      rw [first] at whole
      rw [there]
      exact whole

theorem someStep_eq
    {acts : List Act} {act : Act}
    (possible : (run someStep noSession (acts ++ [act])).isSome = true) :
    someStep (someSession acts) act = some (someSession (acts ++ [act])) := by
  rcases run_cons_iff.mp (someStep_run possible) with ⟨next, stepped, same⟩
  cases same
  exact stepped

/-! ## Every run -/

section Every

variable {xpaci : Usize → Usize} {symbols : Symbols} {trampoline : Usize}

/--
In every run the processes have the coroutines of minicoro, each its own, and
`mco_running` is that of the process whose turn it is, or null between the
turns.  So `do_yield` tells the driver from a coroutine, and a coroutine whose
function has returned is not resumed again.
-/
theorem coroutines_are_processes
    (isCode : trampoline ≠ 0)
    (world : World) (cpu : Registers) (bytes : Bytes) (acts : List Act)
    (session : Session)
    (reached : run (step xpaci symbols trampoline)
      (Session.init world cpu bytes) acts = some session)
    (accepted : Along (step xpaci symbols trampoline)
      (fun session act _ => Accepted session act)
      (Session.init world cpu bytes) acts) :
    Attached session :=
  attached_of_run isCode (attached_init world cpu bytes) reached accepted

end Every

theorem coroutines_are_processes_reaped :
    Attached
      (someSession
        (firstRuns ++ [firstYields] ++ otherReturns ++
          [.drive .reapDoneCoroutines (supplyOf 0 0)])) := by
  exact
    coroutines_are_processes (by decide) (World.init Kernel.standard)
      (CoroutineTurns.registersAt 5) (fun _ => 0) _ _
      (someSession_reached (by decide +kernel)) (by decide +kernel)

section Every

variable {xpaci : Usize → Usize} {symbols : Symbols} {trampoline : Usize}

/--
Wherever the driver, or the process whose turn it is, can go on, minicoro can:
every call is made on a coroutine which is there and succeeds, also where the
source does not look at the result.  And `mco_status` says dead after a turn
if and only if the turn has ended because the entry has returned.
-/
theorem calls_succeed
    (isCode : trampoline ≠ 0)
    (world : World) (cpu : Registers) (bytes : Bytes) (acts : List Act)
    (session : Session) (op : DriverOp) (supply : Supply) (machine : Machine)
    (reached : run (step xpaci symbols trampoline)
      (Session.init world cpu bytes) acts = some session)
    (accepted : Along (step xpaci symbols trampoline)
      (fun session act _ => Accepted session act)
      (Session.init world cpu bytes) acts)
    (supplied : Supplied session supply op)
    (stepped : session.machine.step op = some machine) :
    ∃ next,
      step xpaci symbols trampoline session (.drive op supply) = some next ∧
        next.machine = machine ∧
        Runs xpaci symbols session.thread
          (session.calls trampoline supply op) next.thread ∧
        StatusTells session op next := by
  have attached : Attached session :=
    attached_of_run isCode (attached_init world cpu bytes) reached accepted
  rcases @step_drive xpaci symbols trampoline session supply op machine
    isCode attached supplied stepped with ⟨thread, isNext, runs, driven⟩
  exact ⟨_, isNext, rfl, runs, driven.tells⟩

end Every

theorem calls_succeed_yields :
    ∃ machine next, (someSession firstRuns).machine.step .doYield =
        some machine ∧
      someStep (someSession firstRuns)
          (.drive .doYield (supplyOf 0 0x10800)) = some next ∧
        next.machine = machine := by
  have possible :
      ((someSession firstRuns).machine.step .doYield).isSome = true := by
    decide +kernel
  rcases Option.isSome_iff_exists.mp possible with ⟨machine, stepped⟩
  rcases @calls_succeed id CoroutineTurns.someSymbols 0x400400 (by decide)
    (World.init Kernel.standard) (CoroutineTurns.registersAt 5) (fun _ => 0)
    firstRuns (someSession firstRuns) .doYield (supplyOf 0 0x10800) machine
    (someSession_reached (by decide +kernel)) (by decide +kernel)
    (by decide +kernel) stepped with ⟨next, isNext, same, _⟩
  exact ⟨machine, next, stepped, isNext, same⟩

/-! ## Turns -/

section Every

variable {xpaci : Usize → Usize} {symbols : Symbols} {trampoline : Usize}

/--
For the driver a turn is a call: whatever the process does in its turn, and
whomever it spawns or forks, the driver has its registers back when the turn
has ended.
-/
theorem driver_gets_registers_back
    (isCode : trampoline ≠ 0)
    (world : World) (cpu : Registers) (bytes : Bytes)
    (before during : List Act) (begins ends : Act)
    (start resumed last final : Session) (turn : Turn)
    (reached : run (step xpaci symbols trampoline)
      (Session.init world cpu bytes) before = some start)
    (idle : start.driver.turn = none)
    (begun : step xpaci symbols trampoline start begins = some resumed)
    (isTurn : resumed.driver.turn = some turn)
    (ran : run (step xpaci symbols trampoline) resumed during = some last)
    (stays : Along (step xpaci symbols trampoline)
      (fun _ _ next => next.driver.turn = some turn) resumed during)
    (ended : step xpaci symbols trampoline last ends = some final)
    (isOver : final.driver.turn = none)
    (accepted : Along (step xpaci symbols trampoline)
      (fun session act _ => Accepted session act)
      (Session.init world cpu bytes)
      (before ++ (begins :: (during ++ [ends])))) :
    ReturnedTo xpaci start.thread.cpu final.thread.cpu := by
  have attached :=
    attached_of_run isCode (attached_init world cpu bytes) reached
      (along_left accepted)
  rcases along_append accepted reached resumed begun with
    ⟨acceptedBegin, accepted⟩
  rcases goes_step isCode attached acceptedBegin begun with
    ⟨isAttached, switched⟩
  rcases switched.enters turn idle isTurn with ⟨co, coro, _, _, isResumed⟩
  rcases record_of_turn isCode isAttached isTurn ran (along_left accepted)
    stays with ⟨attachedLast, isTurnLast, running, same⟩
  rcases along_append accepted ran final ended with ⟨acceptedEnd, _⟩
  rcases goes_step isCode attachedLast acceptedEnd ended with ⟨_, switched⟩
  rcases switched.leaves turn isTurnLast isOver with
    ⟨_, record, _, isCo, _, found, left⟩
  -- The record of the running coroutine is as `mco_resume` has left it.
  have isRunning : resumed.thread.mcoRunning = co := isResumed.current
  cases isCo.symm.trans (attachedLast.current turn isTurnLast)
  rw [running, same, isRunning, isResumed.self] at found
  cases found
  rw [left.cpu]
  exact returnedTo_leave start.thread.cpu

end Every

theorem driver_gets_registers_back_yielded :
    ReturnedTo id (CoroutineTurns.registersAt 5)
      (someSession (firstRuns ++ [firstYields])).thread.cpu := by
  exact
    driver_gets_registers_back (by decide) (World.init Kernel.standard)
      (CoroutineTurns.registersAt 5) (fun _ => 0) twoSpawned
      [.execute (CoroutineTurns.registersAt 0x10800)] begins firstYields
      (someSession twoSpawned) (someSession (twoSpawned ++ [begins]))
      (someSession firstRuns) (someSession (firstRuns ++ [firstYields]))
      { pid := 1, restore := none } (someSession_reached (by decide +kernel))
      (by decide +kernel) (someStep_eq (by decide +kernel))
      (by decide +kernel) (someStep_run (by decide +kernel))
      (by decide +kernel) (someStep_eq (by decide +kernel))
      (by decide +kernel) (by decide +kernel)

section Every

variable {xpaci : Usize → Usize} {symbols : Symbols} {trampoline : Usize}

/--
For a process what it calls to yield is a call too: when it has its next turn,
it goes on behind the call with its registers, whatever has had turns in
between.
-/
theorem process_gets_registers_back
    (isCode : trampoline ≠ 0)
    (world : World) (cpu : Registers) (bytes : Bytes)
    (before during : List Act) (yields resumes : Act)
    (start yielded last final : Session) (turn next : Turn) (co : Usize)
    (reached : run (step xpaci symbols trampoline)
      (Session.init world cpu bytes) before = some start)
    (isTurn : start.driver.turn = some turn)
    (stepped : step xpaci symbols trampoline start yields = some yielded)
    (isOver : yielded.driver.turn = none)
    (ran : run (step xpaci symbols trampoline) yielded during = some last)
    (found : start.handles.lookup turn.pid = some co)
    (waits : Along (step xpaci symbols trampoline)
      (fun _ _ next => next.handles.lookup turn.pid = some co ∧
        NotRunning next.driver turn.pid) yielded during)
    (resumed : step xpaci symbols trampoline last resumes = some final)
    (isNext : final.driver.turn = some next) (samePid : next.pid = turn.pid)
    (accepted : Along (step xpaci symbols trampoline)
      (fun session act _ => Accepted session act)
      (Session.init world cpu bytes)
      (before ++ (yields :: (during ++ [resumes])))) :
    ReturnedTo xpaci start.thread.cpu final.thread.cpu := by
  have attached :=
    attached_of_run isCode (attached_init world cpu bytes) reached
      (along_left accepted)
  rcases along_append accepted reached yielded stepped with
    ⟨acceptedYield, accepted⟩
  rcases goes_step isCode attached acceptedYield stepped with
    ⟨isAttached, switched⟩
  rcases switched.leaves turn isTurn isOver with
    ⟨_, coro, state, isCo, still, isThere, left⟩
  cases found.symm.trans isCo
  have waiting : NotRunning yielded.driver turn.pid := by
    intro given isGiven
    cases isOver.symm.trans isGiven
  have isCpu :=
    cpu_of_resumed isCode isAttached still waiting left.self ran waits
      resumed isNext samePid accepted
  rw [isCpu]
  exact returnedTo_leave start.thread.cpu

end Every

/-- The other one has had a turn in between. -/
theorem process_gets_registers_back_resumed :
    ReturnedTo id (CoroutineTurns.registersAt 0x10800)
      (someSession
        (firstRuns ++ [firstYields] ++ otherReturns ++
          [begins])).thread.cpu := by
  exact
    process_gets_registers_back (by decide) (World.init Kernel.standard)
      (CoroutineTurns.registersAt 5) (fun _ => 0) firstRuns otherReturns
      firstYields begins (someSession firstRuns)
      (someSession (firstRuns ++ [firstYields]))
      (someSession (firstRuns ++ [firstYields] ++ otherReturns))
      (someSession (firstRuns ++ [firstYields] ++ otherReturns ++ [begins]))
      { pid := 1, restore := none } { pid := 1, restore := none } 0x10000
      (someSession_reached (by decide +kernel)) (by decide +kernel)
      (someStep_eq (by decide +kernel)) (by decide +kernel)
      (someStep_run (by decide +kernel)) (by decide +kernel)
      (by decide +kernel) (someStep_eq (by decide +kernel))
      (by decide +kernel) rfl (by decide +kernel)

/-! ## First turns -/

section Every

variable {xpaci : Usize → Usize} {symbols : Symbols} {trampoline : Usize}

/-- Without a fork, the first call of a spawn makes a coroutine anew. -/
theorem makes_of_calls
    {session : Session} {supply : Supply} {op : DriverOp} {call : Op}
    {rest : List Op} (isSpawn : spawns session.driver op = true)
    (notFork : ∀ parent, op ≠ .spawnForkChild parent)
    (calls : session.calls trampoline supply op = call :: rest) :
    Makes supply.co call := by
  cases op with
  | spawn =>
      cases calls
      exact .create _ _ _
  | spawnFront =>
      cases calls
      exact .create _ _ _
  | spawnElf =>
      cases calls
      exact .createElf _ _ _ _
  | virtualExecve =>
      cases calls
      exact .createElf _ _ _ _
  | createProcess stdin stdout stderr =>
      cases calls
      exact .createElf _ _ _ _
  | spawnForkChild parent => exact (notFork parent rfl).elim
  | _ => cases isSpawn

/--
A process which has been spawned, but not forked, is entered at null in its
first turn, whatever has happened until then: `_mco_switch` returns to `x30`,
and the entry is only in `lr`.
-/
theorem first_turn_enters_null
    (isCode : trampoline ≠ 0)
    (world : World) (cpu : Registers) (bytes : Bytes)
    (before during : List Act) (op : DriverOp) (supply : Supply)
    (resumes : Act) (start made last final : Session) (turn : Turn)
    (reached : run (step xpaci symbols trampoline)
      (Session.init world cpu bytes) before = some start)
    (isSpawn : spawns start.driver op = true)
    (notFork : ∀ parent, op ≠ .spawnForkChild parent)
    (spawned : step xpaci symbols trampoline start (.drive op supply) =
      some made)
    (ran : run (step xpaci symbols trampoline) made during = some last)
    (stays : Along (step xpaci symbols trampoline)
      (fun _ _ next =>
        next.handles.lookup start.executor.nextPid = some supply.co ∧
          NotRunning next.driver start.executor.nextPid) made during)
    (resumed : step xpaci symbols trampoline last resumes = some final)
    (isTurn : final.driver.turn = some turn)
    (samePid : turn.pid = start.executor.nextPid)
    (accepted : Along (step xpaci symbols trampoline)
      (fun session act _ => Accepted session act)
      (Session.init world cpu bytes)
      (before ++ (.drive op supply :: (during ++ [resumes])))) :
    final.thread.cpu.pc = 0 := by
  have attached :=
    attached_of_run isCode (attached_init world cpu bytes) reached
      (along_left accepted)
  rcases along_append accepted reached made spawned with
    ⟨supplied, accepted⟩
  rcases goes_step isCode attached supplied spawned with ⟨isAttached, _⟩
  rcases made_of_drive isCode attached supplied isSpawn spawned with
    ⟨found, waits, call, rest, middle, calls, stepped, same⟩
  have present := (isAttached.present found).1
  cases there : made.thread.coros supply.co with
  | none => simp [states, there] at present
  | some record =>
      rcases created_context (makes_of_calls isSpawn notFork calls)
        (supplied.fresh isSpawn).2 stepped (same.symm.trans there) with
        ⟨_, isNull, _⟩
      rw [cpu_of_resumed isCode isAttached found waits there ran stays resumed
        isTurn samePid accepted]
      exact isNull

end Every

/-- The second process is spawned before the first one, and runs after it. -/
theorem first_turn_enters_null_second :
    (someSession
        (firstRuns ++ [firstYields] ++ [begins])).thread.cpu.pc = 0 := by
  exact
    first_turn_enters_null (by decide) (World.init Kernel.standard)
      (CoroutineTurns.registersAt 5) (fun _ => 0)
      [.drive .spawn (supplyOf 0x10000 0)]
      [begins, .execute (CoroutineTurns.registersAt 0x10800), firstYields]
      .spawnElf (supplyOf 0x800000 0) begins
      (someSession [.drive .spawn (supplyOf 0x10000 0)])
      (someSession twoSpawned) (someSession (firstRuns ++ [firstYields]))
      (someSession (firstRuns ++ [firstYields] ++ [begins]))
      { pid := 2, restore := none } (someSession_reached (by decide +kernel))
      (by decide +kernel) (by simp) (someStep_eq (by decide +kernel))
      (someStep_run (by decide +kernel)) (by decide +kernel)
      (someStep_eq (by decide +kernel)) (by decide +kernel)
      (by decide +kernel) (by decide +kernel)

section Every

variable {xpaci : Usize → Usize} {symbols : Symbols} {trampoline : Usize}

/--
The child of a fork goes on behind the call to yield which its parent waits
in, with the registers of the parent; what points into the stack of the parent
points into its own.
-/
theorem forked_child_has_its_turn
    (isCode : trampoline ≠ 0)
    (world : World) (cpu : Registers) (bytes : Bytes)
    (before waiting after : List Act) (yields resumes : Act)
    (supply : Supply) (start yielded forking forked last final : Session)
    (turn childTurn : Turn) (co : Usize) (coro : Coro)
    (reached : run (step xpaci symbols trampoline)
      (Session.init world cpu bytes) before = some start)
    (isTurn : start.driver.turn = some turn)
    (found : start.handles.lookup turn.pid = some co)
    (stepped : step xpaci symbols trampoline start yields = some yielded)
    (isOver : yielded.driver.turn = none)
    (ran : run (step xpaci symbols trampoline) yielded waiting =
      some forking)
    (waits : Along (step xpaci symbols trampoline)
      (fun _ _ next => next.handles.lookup turn.pid = some co ∧
        NotRunning next.driver turn.pid) yielded waiting)
    (there : forking.thread.coros co = some coro)
    (forks : step xpaci symbols trampoline forking
      (.drive (.spawnForkChild turn.pid) supply) = some forked)
    (ranOn : run (step xpaci symbols trampoline) forked after = some last)
    (stays : Along (step xpaci symbols trampoline)
      (fun _ _ next =>
        next.handles.lookup forking.executor.nextPid = some supply.co ∧
          NotRunning next.driver forking.executor.nextPid) forked after)
    (resumed : step xpaci symbols trampoline last resumes = some final)
    (isChild : final.driver.turn = some childTurn)
    (samePid : childTurn.pid = forking.executor.nextPid)
    (accepted : Along (step xpaci symbols trampoline)
      (fun session act _ => Accepted session act)
      (Session.init world cpu bytes)
      (before ++ (yields :: (waiting ++
        (.drive (.spawnForkChild turn.pid) supply ::
          (after ++ [resumes])))))) :
    MovedTo xpaci coro supply.co start.thread.cpu final.thread.cpu := by
  have attached :=
    attached_of_run isCode (attached_init world cpu bytes) reached
      (along_left accepted)
  rcases along_append accepted reached yielded stepped with
    ⟨acceptedYield, accepted⟩
  rcases goes_step isCode attached acceptedYield stepped with
    ⟨isAttached, switched⟩
  rcases switched.leaves turn isTurn isOver with
    ⟨_, _, _, isCo, still, _, left⟩
  cases found.symm.trans isCo
  have waitsOver : NotRunning yielded.driver turn.pid := by
    intro given isGiven
    cases isOver.symm.trans isGiven
  rcases record_of_waiting isCode isAttached still waitsOver ran
    (along_left accepted) waits with ⟨attachedForking, isCoStill, _, same⟩
  -- The record of the parent is as `mco_yield` has left it.
  rw [there, left.self] at same
  cases same
  rcases along_append accepted ran forked forks with ⟨supplied, accepted⟩
  rcases goes_step isCode attachedForking supplied forks with
    ⟨attachedForked, _⟩
  have isSpawn :
      spawns forking.driver (.spawnForkChild turn.pid) = true :=
    decide_eq_true
      ((attachedForking.processes turn.pid).mp
        (mem_iff_lookup.mpr ⟨co, isCoStill⟩))
  rcases made_of_drive isCode attachedForking supplied isSpawn forks with
    ⟨isChildCo, childWaits, call, rest, middle, calls, made, same⟩
  simp only [Session.calls, isCoStill, List.cons.injEq] at calls
  rcases calls with ⟨rfl, _⟩
  have copied :=
    forked_context there (supplied.fresh isSpawn).1 made
  rw [cpu_of_resumed isCode attachedForked isChildCo childWaits
    (same.trans copied) ranOn stays resumed isChild samePid accepted]
  exact movedTo_forked (returnedTo_leave start.thread.cpu)

end Every

/-- The first process spawns the helper which forks it. -/
def helperSpawned : List Act :=
  firstRuns ++ [.drive .spawnFront (supplyOf 0xa00000 0x10800)]

/-- The helper forks the first process, and exits. -/
def forksFirst : Act :=
  .drive (.spawnForkChild 1) (supplyOf 0x900000 0xa00800)

/-- The second one and the parent have turns before the child. -/
def childWaits : List Act :=
  [.drive (.exit .returned) (supplyOf 0 0xa00800)] ++ otherReturns ++
    [begins, firstYields]

/-- Where the run up to the fork ends. -/
def helperRuns : List Act :=
  helperSpawned ++ [firstYields] ++ [begins]

theorem forked_child_has_its_turn_resumed :
    ∃ parent, (someSession helperRuns).thread.coros 0x10000 = some parent ∧
      MovedTo id parent 0x900000 (someSession helperSpawned).thread.cpu
        (someSession
          (helperRuns ++ [forksFirst] ++ childWaits ++
            [begins])).thread.cpu := by
  have isThere :
      ((someSession helperRuns).thread.coros 0x10000).isSome = true := by
    decide +kernel
  rcases Option.isSome_iff_exists.mp isThere with ⟨parent, there⟩
  refine ⟨parent, there, ?_⟩
  exact
    forked_child_has_its_turn (by decide) (World.init Kernel.standard)
      (CoroutineTurns.registersAt 5) (fun _ => 0) helperSpawned [begins]
      childWaits firstYields begins (supplyOf 0x900000 0xa00800)
      (someSession helperSpawned)
      (someSession (helperSpawned ++ [firstYields])) (someSession helperRuns)
      (someSession (helperRuns ++ [forksFirst]))
      (someSession (helperRuns ++ [forksFirst] ++ childWaits))
      (someSession (helperRuns ++ [forksFirst] ++ childWaits ++ [begins]))
      { pid := 1, restore := none } { pid := 4, restore := none } 0x10000
      parent (someSession_reached (by decide +kernel)) (by decide +kernel)
      (by decide +kernel) (someStep_eq (by decide +kernel))
      (by decide +kernel) (someStep_run (by decide +kernel))
      (by decide +kernel) there (someStep_eq (by decide +kernel))
      (someStep_run (by decide +kernel)) (by decide +kernel)
      (someStep_eq (by decide +kernel)) (by decide +kernel)
      (by decide +kernel) (by decide +kernel)

end Vproc.Sched.DriverTurns
