import Vproc.Sched.CoroutineCalls
import Vproc.Sched.ExitDurability
import Vproc.Sched.Processes

/-!
# The coroutines under the driver

Each process has a coroutine of minicoro, its `co`.  The driver makes it when
it spawns the process, resumes it when the process has a turn, and destroys it
when it drops the process; in its turn the process yields on whatever
`mco_running` says.  Here the driver and the thread of minicoro run together,
with the calls which the source makes in each step.

The source does not look at what `mco_resume`, `mco_yield` and `mco_destroy`
return.  It need not: the calls succeed, `mco_running` is the coroutine of the
process whose turn it is, and null between the turns.

What the calls get from outside is supplied with each step: the block of a new
coroutine, its entry and stack, and where the local variable of `mco_yield` is.
User data does not take part in the switches, and only `mco_create` is given
some.
-/

namespace Vproc.Sched.DriverCoroutines

open Vproc.Lib.Run
open Vproc.Lib.FiniteMap
open Vproc.Exec.Elf
open Vproc.Fd.Table
open Vproc.Fd.Runtime
open Vproc.Sched.Scheduler (Executor)
open Vproc.Sched.DriverLoop
open Vproc.Sched.DriverSteps
open Vproc.Sched.ExitDurability
open Vproc.Sched.ForkContext
open Vproc.Sched.CoroutineBlocks
open Vproc.Sched.CoroutineCalls
open Vproc.Sched.ContextSwitch
  (Thread Op Registers Resumed Left)

/-! ## The functions of the source -/

/-- A session and its thread, with the `co` of every process. -/
structure Session where
  machine : Machine
  thread : Thread
  handles : KeyMap VPid Usize

/-- What the calls of a step get from outside. -/
structure Supply where
  co : Usize
  userData : Usize
  entry : Usize
  elfSp : Usize
  stackBase : Usize
  stackSize : Usize
  stackAddr : Usize

namespace Session

variable (session : Session)

def driver : Driver :=
  session.machine.driver

def executor : Executor :=
  session.machine.driver.executor

/-- The `mco_destroy` of each coroutine which is dropped. -/
def drops (pids : List VPid) : List Op :=
  (pids.filterMap session.handles.lookup).map .destroy

/--
The calls of minicoro in a step.  `insert` of a number in use drops the
coroutine under it, after the new one has been made.
-/
def calls (trampoline : Usize) (supply : Supply) : DriverOp → List Op
  | .spawn | .spawnFront =>
      .create trampoline supply.userData DEFAULT_STACK_SIZE supply.co ::
        session.drops [session.executor.nextPid]
  | .spawnElf | .virtualExecve | .createProcess _ _ _ =>
      .createElf supply.entry supply.elfSp supply.stackBase supply.stackSize
          supply.co ::
        session.drops [session.executor.nextPid]
  | .spawnForkChild parent =>
      match session.handles.lookup parent with
      | some co =>
          .fork co supply.co :: session.drops [session.executor.nextPid]
      | none => [.yield session.thread.mcoRunning supply.stackAddr]
  | .stepFromDriver | .stepFromDriverWithFdSwap _ =>
      ((session.executor.pickNext.2.bind session.handles.lookup).map
        .resume).toList
  | .doYield | .yieldForIo _ _ _ | .exit _ =>
      [.yield session.thread.mcoRunning supply.stackAddr]
  | .raise sig =>
      if Executor.isFatal sig then
        [.yield session.thread.mcoRunning supply.stackAddr]
      else []
  | .entryReturned => [.ends session.thread.mcoRunning]
  | .reapDoneCoroutines => session.drops session.executor.donePids
  | _ => []

/-- The `co` of every process after a step. -/
def handlesAfter (supply : Supply) (op : DriverOp) : KeyMap VPid Usize :=
  if spawns session.driver op then
    session.handles.insert session.executor.nextPid supply.co
  else if op = .reapDoneCoroutines then
    retain (fun pid _ => decide (pid ∉ session.executor.donePids))
      session.handles
  else session.handles

end Session

/-- A step of the driver, or what the code between two calls does. -/
inductive Act where
  | execute (cpu : Registers)
  | store (address : Usize) (byte : UInt8)
  | drive (op : DriverOp) (supply : Supply)

/-- A session after a step. -/
def after (session : Session) (supply : Supply) (op : DriverOp)
    (machine : Machine) (thread : Thread) : Session where
  machine := machine
  thread := thread
  handles := session.handlesAfter supply op

/-- One step.  Where a coroutine cannot be made, the source aborts. -/
def step (xpaci : Usize → Usize) (symbols : Symbols) (trampoline : Usize)
    (session : Session) : Act → Option Session
  | .execute cpu =>
      some { session with thread := { session.thread with cpu := cpu } }
  | .store address byte =>
      some
        { session with
          thread :=
            { session.thread with
              bytes :=
                Function.update session.thread.bytes address byte } }
  | .drive op supply =>
      let calls := session.calls trampoline supply op
      if spawns session.driver op &&
          !calls.head?.all (succeeds xpaci symbols session.thread) then
        none
      else
        (session.machine.step op).bind fun machine =>
          (run (ContextSwitch.step xpaci symbols) session.thread calls).map
            (after session supply op machine)

/-! ## Processes and their coroutines -/

/-- The process is done, or not there. -/
def Over (ex : Executor) (pid : VPid) : Prop :=
  ∀ co, ex.vprocs.lookup pid = some co → co.isDone = true

/--
Every process has a coroutine of its own, and there are no others.  The one of
the process whose turn it is runs, and one which is dead is never resumed.
-/
structure Attached (session : Session) : Prop where
  flat : Flat session.thread
  runs : TurnRuns session.driver
  processes : ∀ pid,
    pid ∈ session.handles ↔ pid ∈ session.executor.vprocs
  injective : ∀ pid other co,
    session.handles.lookup pid = some co →
      session.handles.lookup other = some co → pid = other
  owned : ∀ co, states session.thread co ≠ none ↔
    ∃ pid, session.handles.lookup pid = some co
  idle : session.driver.turn = none → session.thread.mcoRunning = 0
  current : ∀ turn, session.driver.turn = some turn →
    session.handles.lookup turn.pid = some session.thread.mcoRunning
  finished : ∀ pid co, session.handles.lookup pid = some co →
    states session.thread co = some .dead → Over session.executor pid

section Attached

variable {session : Session} {pid : VPid} {co : Usize}

/-- The coroutine of a process is there, and its address is not null. -/
theorem Attached.present
    (attached : Attached session)
    (found : session.handles.lookup pid = some co) :
    states session.thread co ≠ none ∧ co ≠ 0 := by
  have present := (attached.owned co).mpr ⟨pid, found⟩
  refine ⟨present, ?_⟩
  rintro rfl
  rcases attached.flat.represents with ⟨machine, represents⟩
  rw [states, represents.null] at present
  exact present rfl

/-- The coroutine of a process runs if and only if it is its turn. -/
theorem Attached.running_iff
    (attached : Attached session)
    (found : session.handles.lookup pid = some co) :
    states session.thread co = some .running ↔
      ∃ turn, session.driver.turn = some turn ∧ turn.pid = pid := by
  have given := (attached.present found).2
  rw [attached.flat.running_iff]
  constructor
  · rintro ⟨isCurrent, _⟩
    cases isTurn : session.driver.turn with
    | none => exact (given (isCurrent.trans (attached.idle isTurn))).elim
    | some turn =>
        have current := attached.current turn isTurn
        refine ⟨turn, rfl, attached.injective _ pid co ?_ found⟩
        exact current.trans (congrArg some isCurrent.symm)
  · rintro ⟨turn, isTurn, rfl⟩
    have current := attached.current turn isTurn
    rw [found] at current
    exact ⟨Option.some.inj current, given⟩

/-- A process whose coroutine is dead does not have the turn. -/
theorem Attached.notRunning_of_dead
    (attached : Attached session)
    (found : session.handles.lookup pid = some co)
    (dead : states session.thread co = some .dead) :
    NotRunning session.driver pid := by
  intro turn isTurn same
  have running := (attached.running_iff found).mpr ⟨turn, isTurn, same⟩
  rw [dead] at running
  cases running

/-- It stays over. -/
theorem Attached.stays_over
    {op : DriverOp} {next : Driver} (attached : Attached session)
    (found : session.handles.lookup pid = some co)
    (dead : states session.thread co = some .dead)
    (change : Change session.driver op next)
    (notSpawned : spawns session.driver op = true →
      pid ≠ session.executor.nextPid) :
    Over next.executor pid := by
  have finished := attached.finished pid co found dead
  exact
    finished_of_follows
      (follows_change change attached.runs
        (fun _ => attached.notRunning_of_dead found dead)
        (not_picks_of_finished finished op) notSpawned)
      finished

end Attached

/-! ## A step of the driver -/

/--
What a step is supplied with: a block which is not in use, for a process which
is not the running one, and the stack of the running coroutine.
-/
structure Supplied (session : Session) (supply : Supply) (op : DriverOp) :
    Prop where
  fresh : spawns session.driver op = true →
    supply.co ≠ 0 ∧ session.thread.coros supply.co = none
  number : spawns session.driver op = true →
    NotRunning session.driver session.executor.nextPid
  onStack : OnStack session.thread supply.stackAddr

section Drive

variable {xpaci : Usize → Usize} {symbols : Symbols} {session : Session}
  {supply : Supply} {op : DriverOp} {machine : Machine} {thread : Thread}

theorem lookup_handlesAfter (pid : VPid) :
    (session.handlesAfter supply op).lookup pid =
      if spawns session.driver op then
        if pid = session.executor.nextPid then some supply.co
        else session.handles.lookup pid
      else if op = .reapDoneCoroutines ∧ pid ∈ session.executor.donePids then
        none
      else session.handles.lookup pid := by
  rw [Session.handlesAfter]
  split
  · exact lookup_insert_eq _ _ _ _
  · split
    · rename_i reaps
      ext co
      rw [lookup_retain_iff, decide_eq_true_eq]
      by_cases done : pid ∈ session.executor.donePids
      · simp [reaps, done]
      · simp [done]
    · rename_i stays
      rw [if_neg fun both => stays both.1]

/-- The coroutines are those of the processes after a step. -/
theorem mem_handlesAfter_iff
    (attached : Attached session)
    (stepped : session.machine.step op = some machine) (pid : VPid) :
    pid ∈ session.handlesAfter supply op ↔
      pid ∈ machine.driver.executor.vprocs := by
  have change := change_of_machineStep stepped
  refine Iff.trans ?_ (Processes.processes_change change pid).symm
  have before := attached.processes pid
  rw [mem_iff_lookup] at before
  rw [mem_iff_lookup, lookup_handlesAfter]
  change _ ↔ if spawns session.driver op = true then _ else _
  split
  · split
    · rename_i new
      exact iff_of_true ⟨_, rfl⟩ (.inl new)
    · rename_i old
      rw [before]
      exact (or_iff_right old).symm
  · by_cases reaps : op = .reapDoneCoroutines
    · rw [if_pos reaps]
      by_cases done : pid ∈ session.executor.donePids
      · rw [if_pos ⟨reaps, done⟩]
        refine iff_of_false (by simp) ?_
        exact fun both => both.2 done
      · rw [if_neg fun both => done both.2, before]
        exact (and_iff_left done).symm
    · rw [if_neg reaps, if_neg fun both => reaps both.1]
      exact before

/--
What a step does to the records: that of a process is changed only where a
turn of the process begins or ends.
-/
structure Switched (xpaci : Usize → Usize) (session next : Session) :
    Prop where
  kept : ∀ pid co, session.handles.lookup pid = some co →
    next.handles.lookup pid = some co →
    next.driver.turn = session.driver.turn ∨
      NotRunning session.driver pid ∧ NotRunning next.driver pid →
    next.thread.coros co = session.thread.coros co
  current : next.driver.turn = session.driver.turn →
    next.thread.mcoRunning = session.thread.mcoRunning
  enters : ∀ turn, session.driver.turn = none →
    next.driver.turn = some turn →
    ∃ co coro, session.handles.lookup turn.pid = some co ∧
      session.thread.coros co = some coro ∧
      Resumed xpaci session.thread co coro next.thread
  leaves : ∀ turn, session.driver.turn = some turn →
    next.driver.turn = none →
    ∃ co coro state, session.handles.lookup turn.pid = some co ∧
      next.handles.lookup turn.pid = some co ∧
      session.thread.coros co = some coro ∧
      Left xpaci session.thread co coro state next.thread

/-- A step which neither begins nor ends a turn. -/
theorem switched_of_same
    {next : Session} (sameTurn : next.driver.turn = session.driver.turn)
    (kept : ∀ pid co, session.handles.lookup pid = some co →
      next.handles.lookup pid = some co →
      next.thread.coros co = session.thread.coros co)
    (current : next.thread.mcoRunning = session.thread.mcoRunning) :
    Switched xpaci session next := by
  refine
    ⟨fun pid co found still _ => kept pid co found still, fun _ => current,
      ?_, ?_⟩
  · intro turn idle isTurn
    cases idle.symm.trans (sameTurn.symm.trans isTurn)
  · intro turn isTurn ended
    cases isTurn.symm.trans (sameTurn.symm.trans ended)

theorem handlesAfter_of_quiet
    (quiet : spawns session.driver op = false)
    (stays : op ≠ .reapDoneCoroutines) :
    session.handlesAfter supply op = session.handles := by
  rw [Session.handlesAfter, quiet, if_neg Bool.false_ne_true, if_neg stays]

/-- A step without a call, in or outside of a turn. -/
theorem attached_quiet
    (attached : Attached session)
    (stepped : session.machine.step op = some machine)
    (quiet : spawns session.driver op = false)
    (stays : op ≠ .reapDoneCoroutines)
    (sameTurn : machine.driver.turn = session.driver.turn) :
    Attached (after session supply op machine session.thread) ∧
      Switched xpaci session
        (after session supply op machine session.thread) := by
  have change := change_of_machineStep stepped
  have handles :
      (after session supply op machine session.thread).handles =
        session.handles := handlesAfter_of_quiet quiet stays
  refine ⟨?_, switched_of_same sameTurn (fun _ _ _ _ => rfl) rfl⟩
  constructor
  · exact attached.flat
  · exact turnRuns_change change attached.runs
  · exact mem_handlesAfter_iff attached stepped
  · rw [handles]
    exact attached.injective
  · rw [handles]
    exact attached.owned
  · intro idle
    exact attached.idle (sameTurn.symm.trans idle)
  · rw [handles]
    intro turn isTurn
    exact attached.current turn (sameTurn.symm.trans isTurn)
  · rw [handles]
    intro pid co found dead
    refine attached.stays_over found dead change ?_
    simp [quiet]

/-- A process has the turn: its coroutine is resumed. -/
theorem attached_resumed
    {turn : Turn} {co : Usize} (attached : Attached session)
    (stepped : session.machine.step op = some machine)
    (quiet : spawns session.driver op = false)
    (stays : op ≠ .reapDoneCoroutines)
    (isTurn : machine.driver.turn = some turn)
    (found : session.handles.lookup turn.pid = some co)
    (isIdle : session.driver.turn = none)
    (turns : Turns xpaci symbols session.thread (.resume co) co
      (some .running) co thread)
    (resumed : ∃ coro, session.thread.coros co = some coro ∧
      Resumed xpaci session.thread co coro thread) :
    Attached (after session supply op machine thread) ∧
      Switched xpaci session (after session supply op machine thread) := by
  have change := change_of_machineStep stepped
  have handles :
      (after session supply op machine thread).handles = session.handles :=
    handlesAfter_of_quiet quiet stays
  have present := (attached.present found).1
  refine ⟨?_, ⟨?_, ?_, ?_, ?_⟩⟩
  constructor
  · exact turns.flat
  · exact turnRuns_change change attached.runs
  · exact mem_handlesAfter_iff attached stepped
  · rw [handles]
    exact attached.injective
  · rw [handles]
    intro other
    show states thread other ≠ none ↔ _
    rw [turns.states, ← attached.owned other]
    by_cases same : other = co
    · subst same
      simpa using present
    · rw [Function.update_of_ne same]
  · intro idle
    cases isTurn.symm.trans idle
  · rw [handles]
    intro given isGiven
    cases isTurn.symm.trans isGiven
    exact found.trans (congrArg some turns.current.symm)
  · rw [handles]
    intro pid other isOther dead
    have dead : states thread other = some .dead := dead
    have differs : other ≠ co := by
      rintro rfl
      rw [turns.states, Function.update_self] at dead
      cases dead
    rw [turns.states, Function.update_of_ne differs] at dead
    refine attached.stays_over isOther dead change ?_
    simp [quiet]
  · rintro pid other isOther - (sameTurn | ⟨_, notRunning⟩)
    · cases isIdle.symm.trans (sameTurn.symm.trans isTurn)
    · refine turns.others other ?_
      rintro rfl
      refine notRunning turn isTurn ?_
      exact attached.injective turn.pid pid other found isOther
  · intro sameTurn
    cases isIdle.symm.trans (sameTurn.symm.trans isTurn)
  · intro given _ isGiven
    cases isTurn.symm.trans isGiven
    rcases resumed with ⟨coro, isThere, resumed⟩
    exact ⟨co, coro, found, isThere, resumed⟩
  · intro given isGiven
    cases isIdle.symm.trans isGiven

/-- The turn ends: the running coroutine is left for the driver. -/
theorem attached_left
    {turn : Turn} {call : Op} {state : McoState} (attached : Attached session)
    (stepped : session.machine.step op = some machine)
    (quiet : spawns session.driver op = false)
    (stays : op ≠ .reapDoneCoroutines)
    (isTurn : session.driver.turn = some turn)
    (ended : machine.driver.turn = none)
    (turns : Turns xpaci symbols session.thread call
      session.thread.mcoRunning (some state) 0 thread)
    (left : ∃ coro,
      session.thread.coros session.thread.mcoRunning = some coro ∧
        Left xpaci session.thread session.thread.mcoRunning coro state
          thread)
    (finished : state = .dead → Over machine.driver.executor turn.pid) :
    Attached (after session supply op machine thread) ∧
      Switched xpaci session (after session supply op machine thread) := by
  have change := change_of_machineStep stepped
  have handles :
      (after session supply op machine thread).handles = session.handles :=
    handlesAfter_of_quiet quiet stays
  have found := attached.current turn isTurn
  have present := (attached.present found).1
  refine ⟨?_, ⟨?_, ?_, ?_, ?_⟩⟩
  constructor
  · exact turns.flat
  · exact turnRuns_change change attached.runs
  · exact mem_handlesAfter_iff attached stepped
  · rw [handles]
    exact attached.injective
  · rw [handles]
    intro other
    show states thread other ≠ none ↔ _
    rw [turns.states, ← attached.owned other]
    by_cases same : other = session.thread.mcoRunning
    · subst same
      simpa using present
    · rw [Function.update_of_ne same]
  · exact fun _ => turns.current
  · intro given isGiven
    cases ended.symm.trans isGiven
  · rw [handles]
    intro pid other isOther dead
    have dead : states thread other = some .dead := dead
    rw [turns.states] at dead
    by_cases same : other = session.thread.mcoRunning
    · subst same
      rw [Function.update_self] at dead
      have isPid := attached.injective pid turn.pid _ isOther found
      rw [isPid]
      exact finished (Option.some.inj dead)
    · rw [Function.update_of_ne same] at dead
      refine attached.stays_over isOther dead change ?_
      simp [quiet]
  · rintro pid other isOther - (sameTurn | ⟨notRunning, _⟩)
    · cases isTurn.symm.trans (sameTurn.symm.trans ended)
    · refine turns.others other ?_
      rintro rfl
      refine notRunning turn isTurn ?_
      exact attached.injective turn.pid pid _ found isOther
  · intro sameTurn
    cases isTurn.symm.trans (sameTurn.symm.trans ended)
  · intro given isIdle
    cases isTurn.symm.trans isIdle
  · intro given isGiven _
    cases isTurn.symm.trans isGiven
    rcases left with ⟨coro, isThere, left⟩
    exact ⟨_, coro, state, found, handles.symm ▸ found, isThere, left⟩

/-- The coroutines of these processes are dropped, and no others. -/
structure Dropped (session : Session) (pids : List VPid)
    (thread next : Thread) : Prop where
  flat : Flat next
  current : next.currentCo = thread.currentCo
  gone : ∀ pid ∈ pids, ∀ co, session.handles.lookup pid = some co →
    next.coros co = none
  others : ∀ co, (∀ pid ∈ pids, session.handles.lookup pid ≠ some co) →
    next.coros co = thread.coros co

theorem Dropped.states_gone
    {pids : List VPid} {next : Thread} {pid : VPid} {co : Usize}
    (dropped : Dropped session pids thread next) (member : pid ∈ pids)
    (found : session.handles.lookup pid = some co) :
    states next co = none := by
  rw [states, dropped.gone pid member co found]
  rfl

theorem Dropped.states_others
    {pids : List VPid} {next : Thread} {co : Usize}
    (dropped : Dropped session pids thread next)
    (outside : ∀ pid ∈ pids, session.handles.lookup pid ≠ some co) :
    states next co = states thread co := by
  rw [states, dropped.others co outside, states]

theorem runs_drops
    {pids : List VPid} (attached : Attached session) (flat : Flat thread)
    (nodup : pids.Nodup)
    (waits : ∀ pid ∈ pids, ∀ co, session.handles.lookup pid = some co →
      states thread co ≠ none ∧ states thread co ≠ some .running) :
    ∃ next, Runs xpaci symbols thread (session.drops pids) next ∧
      Dropped session pids thread next := by
  have distinct : (pids.filterMap session.handles.lookup).Nodup :=
    nodup.filterMap fun pid other co found =>
      attached.injective pid other co found
  have still (co : Usize)
      (member : co ∈ pids.filterMap session.handles.lookup) :
      states thread co ≠ none ∧ states thread co ≠ some .running := by
    rcases List.mem_filterMap.mp member with ⟨pid, isPid, found⟩
    exact waits pid isPid co found
  rcases @runs_destroys xpaci symbols thread _ flat distinct still with
    ⟨next, runs, flat, current, gone, others⟩
  refine ⟨next, runs, flat, current, ?_, ?_⟩
  · intro pid isPid co found
    exact gone co (List.mem_filterMap.mpr ⟨pid, isPid, found⟩)
  · intro co outside
    refine others co fun member => ?_
    rcases List.mem_filterMap.mp member with ⟨pid, isPid, found⟩
    exact outside pid isPid found

theorem nodup_donePids (ex : Executor) : ex.donePids.Nodup :=
  List.Nodup.sublist (List.filter_sublist.map Sigma.fst)
    ex.vprocs.nodupKeys

/-- A new process gets a coroutine, and one of the same number is dropped. -/
theorem attached_spawned
    {call : Op} {middle : Thread} (attached : Attached session)
    (supplied : Supplied session supply op)
    (stepped : session.machine.step op = some machine)
    (isSpawn : spawns session.driver op = true)
    (turns : Turns xpaci symbols session.thread call supply.co
      (some .suspended) session.thread.currentCo middle) :
    ∃ thread,
      Runs xpaci symbols session.thread
          (call :: session.drops [session.executor.nextPid]) thread ∧
        thread.coros supply.co = middle.coros supply.co ∧
        Attached (after session supply op machine thread) ∧
        Switched xpaci session
          (after session supply op machine thread) := by
  have change := change_of_machineStep stepped
  have number := supplied.number isSpawn
  rcases supplied.fresh isSpawn with ⟨given, absent⟩
  have unused (pid : VPid) : session.handles.lookup pid ≠ some supply.co := by
    intro found
    have present := (attached.present found).1
    rw [states, absent] at present
    exact present rfl
  have beside (co : Usize) (differs : co ≠ supply.co) :
      states middle co = states session.thread co := by
    rw [states, turns.others co differs, states]
  have apart (pid : VPid) (co : Usize)
      (found : session.handles.lookup pid = some co) : co ≠ supply.co :=
    fun same => unused pid (found.trans (congrArg some same))
  rcases @runs_drops xpaci symbols session middle
    [session.executor.nextPid] attached turns.flat (List.nodup_singleton _)
    (by
      intro pid isPid co found
      rw [List.mem_singleton] at isPid
      rw [beside co (apart pid co found)]
      refine ⟨(attached.present found).1, ?_⟩
      rw [Ne, attached.running_iff found]
      rintro ⟨turn, isTurn, same⟩
      exact number turn isTurn (same.trans isPid)) with
    ⟨thread, runs, dropped⟩
  have lookups (pid : VPid) :
      (after session supply op machine thread).handles.lookup pid =
        if pid = session.executor.nextPid then some supply.co
        else session.handles.lookup pid :=
    (lookup_handlesAfter pid).trans (if_pos isSpawn)
  have sameTurn : machine.driver.turn = session.driver.turn :=
    turn_of_spawns change isSpawn
  have current : thread.mcoRunning = session.thread.mcoRunning :=
    dropped.current.trans turns.current
  have kept (pid : VPid) (co : Usize)
      (old : pid ≠ session.executor.nextPid)
      (found : session.handles.lookup pid = some co) :
      thread.coros co = session.thread.coros co := by
    rw [dropped.others co, turns.others co (apart pid co found)]
    intro other isOther isFound
    rw [List.mem_singleton] at isOther
    exact
      old ((attached.injective pid other co found isFound).trans isOther)
  have still := dropped.others supply.co fun pid _ => unused pid
  refine ⟨thread, runs_cons turns runs, still, ?_, ?_⟩
  constructor
  · exact dropped.flat
  · exact turnRuns_change change attached.runs
  · exact mem_handlesAfter_iff attached stepped
  · intro pid other co found isOther
    rw [lookups] at found isOther
    split at found
    · cases found
      rename_i isNew
      split at isOther
      · rename_i isNewToo
        rw [isNew, isNewToo]
      · exact (unused other isOther).elim
    · split at isOther
      · cases isOther
        exact (unused pid found).elim
      · exact attached.injective pid other co found isOther
  · intro co
    show states thread co ≠ none ↔ _
    by_cases isNew : co = supply.co
    · subst isNew
      rw [dropped.states_others fun pid _ => unused pid, turns.states,
        Function.update_self]
      refine iff_of_true (by simp) ⟨session.executor.nextPid, ?_⟩
      exact (lookups _).trans (if_pos rfl)
    · by_cases isOld :
          session.handles.lookup session.executor.nextPid = some co
      · rw [dropped.states_gone List.mem_cons_self isOld]
        refine iff_of_false (by simp) ?_
        rintro ⟨pid, found⟩
        rw [lookups] at found
        split at found
        · cases found
          exact isNew rfl
        · rename_i differs
          exact differs (attached.injective pid _ co found isOld)
      · rw [dropped.states_others (by simpa using isOld), beside co isNew,
          attached.owned co]
        constructor
        · rintro ⟨pid, found⟩
          refine ⟨pid, (lookups pid).trans ?_⟩
          rw [if_neg]
          · exact found
          · rintro rfl
            exact isOld found
        · rintro ⟨pid, found⟩
          rw [lookups] at found
          split at found
          · cases found
            exact (isNew rfl).elim
          · exact ⟨pid, found⟩
  · intro idle
    show thread.mcoRunning = 0
    rw [current]
    exact attached.idle (sameTurn.symm.trans idle)
  · intro turn isTurn
    have before : session.driver.turn = some turn :=
      sameTurn.symm.trans isTurn
    rw [lookups, if_neg (number turn before)]
    exact (attached.current turn before).trans (congrArg some current.symm)
  · intro pid co found dead
    have dead : states thread co = some .dead := dead
    rw [lookups] at found
    split at found
    · cases found
      rw [dropped.states_others fun pid _ => unused pid, turns.states,
        Function.update_self] at dead
      cases dead
    · rename_i old
      rw [states, kept pid co old found] at dead
      exact attached.stays_over found dead change fun _ => old
  · refine switched_of_same sameTurn (fun pid co found still => ?_) current
    rw [lookups] at still
    split at still
    · cases still
      exact (unused pid found).elim
    · rename_i old
      exact kept pid co old found

/-- The coroutines of finished processes are dropped. -/
theorem attached_reaped
    (attached : Attached session)
    (stepped : session.machine.step .reapDoneCoroutines = some machine)
    (isIdle : session.driver.turn = none)
    (sameTurn : machine.driver.turn = session.driver.turn) :
    ∃ thread,
      Runs xpaci symbols session.thread
          (session.drops session.executor.donePids) thread ∧
        Attached
          (after session supply .reapDoneCoroutines machine thread) ∧
        Switched xpaci session
          (after session supply .reapDoneCoroutines machine thread) := by
  have change := change_of_machineStep stepped
  rcases @runs_drops xpaci symbols session session.thread
    session.executor.donePids attached attached.flat (nodup_donePids _)
    (by
      intro pid _ co found
      refine ⟨(attached.present found).1, ?_⟩
      rw [Ne, attached.running_iff found]
      rintro ⟨turn, isTurn, _⟩
      cases isIdle.symm.trans isTurn) with
    ⟨thread, runs, dropped⟩
  have lookups (pid : VPid) (co : Usize) :
      (after session supply .reapDoneCoroutines machine
            thread).handles.lookup pid = some co ↔
        session.handles.lookup pid = some co ∧
          pid ∉ session.executor.donePids := by
    rw [after, lookup_handlesAfter]
    by_cases done : pid ∈ session.executor.donePids
    · simp [spawns, done]
    · simp [spawns, done]
  have kept (pid : VPid) (co : Usize)
      (found : session.handles.lookup pid = some co)
      (lives : pid ∉ session.executor.donePids) :
      thread.coros co = session.thread.coros co := by
    refine dropped.others co fun other done isOther => ?_
    exact lives (attached.injective other pid co isOther found ▸ done)
  refine ⟨thread, runs, ?_, ?_⟩
  constructor
  · exact dropped.flat
  · exact turnRuns_change change attached.runs
  · exact mem_handlesAfter_iff attached stepped
  · intro pid other co found isOther
    exact
      attached.injective pid other co ((lookups pid co).mp found).1
        ((lookups other co).mp isOther).1
  · intro co
    show states thread co ≠ none ↔ _
    constructor
    · intro present
      have before : states session.thread co ≠ none := by
        intro absent
        refine present ((dropped.states_others ?_).trans absent)
        intro pid _ found
        exact (attached.present found).1 absent
      rcases (attached.owned co).mp before with ⟨pid, found⟩
      refine ⟨pid, (lookups pid co).mpr ⟨found, fun done => ?_⟩⟩
      exact present (dropped.states_gone done found)
    · rintro ⟨pid, found⟩
      rcases (lookups pid co).mp found with ⟨before, lives⟩
      rw [states, kept pid co before lives]
      exact (attached.present before).1
  · intro _
    exact dropped.current.trans (attached.idle isIdle)
  · intro turn isTurn
    cases isIdle.symm.trans (sameTurn.symm.trans isTurn)
  · intro pid co found dead
    rcases (lookups pid co).mp found with ⟨before, lives⟩
    have dead : states thread co = some .dead := dead
    rw [states, kept pid co before lives] at dead
    refine attached.stays_over before dead change ?_
    simp [spawns]
  · refine
      switched_of_same sameTurn (fun pid co found still => ?_)
        dropped.current
    exact kept pid co found ((lookups pid co).mp still).2

/-! ### The calls of a step -/

variable {trampoline : Usize}

/-- What a spawn calls first makes the coroutine. -/
theorem calls_of_spawns
    (attached : Attached session) (isCode : trampoline ≠ 0)
    (supplied : Supplied session supply op)
    (isSpawn : spawns session.driver op = true) :
    ∃ call middle,
      session.calls trampoline supply op =
          call :: session.drops [session.executor.nextPid] ∧
        Turns xpaci symbols session.thread call supply.co (some .suspended)
          session.thread.currentCo middle := by
  rcases supplied.fresh isSpawn with ⟨given, absent⟩
  rcases @turns_create xpaci symbols _ _ trampoline supply.userData
    attached.flat absent given isCode with ⟨_, closure⟩
  rcases @turns_createElf xpaci symbols _ _ supply.entry supply.elfSp
    supply.stackBase supply.stackSize attached.flat absent given with
    ⟨_, program⟩
  cases op with
  | spawn => exact ⟨_, _, rfl, closure⟩
  | spawnFront => exact ⟨_, _, rfl, closure⟩
  | spawnElf => exact ⟨_, _, rfl, program⟩
  | virtualExecve => exact ⟨_, _, rfl, program⟩
  | createProcess stdin stdout stderr => exact ⟨_, _, rfl, program⟩
  | spawnForkChild parent =>
      have member : parent ∈ session.handles :=
        (attached.processes parent).mpr (of_decide_eq_true isSpawn)
      rcases mem_iff_lookup.mp member with ⟨co, found⟩
      rcases @turns_fork xpaci symbols _ _ co attached.flat
        (attached.present found).1 absent given with ⟨middle, turns⟩
      refine ⟨_, middle, ?_, turns⟩
      simp only [Session.calls, found]
  | _ => cases isSpawn

theorem calls_of_begins (begins : beginsTurn op = true) :
    session.calls trampoline supply op =
      ((session.executor.pickNext.2.bind session.handles.lookup).map
        .resume).toList := by
  cases op with
  | stepFromDriver => rfl
  | stepFromDriverWithFdSwap saved => rfl
  | _ => cases begins

/-- The running coroutine yields, or its function has returned. -/
theorem calls_of_ending
    {left : Executor} {dead : Bool} {taken : Nat}
    (attached : Attached session)
    (ending : Ending session.executor op left dead taken) :
    session.calls trampoline supply op =
        [if dead then .ends session.thread.mcoRunning
          else .yield session.thread.mcoRunning supply.stackAddr] ∧
      (dead = true ↔ op = .entryReturned) ∧
      spawns session.driver op = false ∧ op ≠ .reapDoneCoroutines := by
  cases ending with
  | panics missing =>
      rename_i parent
      have absent : session.handles.lookup parent = none := by
        rw [AList.lookup_eq_none, attached.processes]
        exact missing
      refine ⟨?_, by simp, decide_eq_false missing, by simp⟩
      simp only [Session.calls, absent]
      rfl
  | yields => exact ⟨rfl, by simp, rfl, by simp⟩
  | waits fds timeoutMs now => exact ⟨rfl, by simp, rfl, by simp⟩
  | exits cause => exact ⟨rfl, by simp, rfl, by simp⟩
  | raises fatal => exact ⟨if_pos fatal, by simp, rfl, by simp⟩
  | returns => exact ⟨rfl, by simp, rfl, by simp⟩

/-- A process whose coroutine is dead when control comes back is done. -/
theorem over_resumeEnd (ex : Executor) (pid : VPid) :
    Over (ex.resumeEnd pid true) pid := by
  intro co found
  rw [lookup_resumeEnd, if_pos rfl] at found
  rcases Option.map_eq_some_iff.mp found with ⟨before, _, rfl⟩
  unfold settled
  split
  · assumption
  · rfl

/-- A suspended coroutine is resumed where a turn begins. -/
theorem suspended_of_picked
    {co : Usize} {pid : VPid} (attached : Attached session)
    (isIdle : session.driver.turn = none)
    (picked : session.executor.pickNext.2 = some pid)
    (found : session.handles.lookup pid = some co) :
    states session.thread co = some .suspended := by
  rcases live_of_pickNext picked with ⟨_, process, isProcess, lives⟩
  cases isState : states session.thread co with
  | none => exact ((attached.present found).1 isState).elim
  | some state =>
      cases state with
      | suspended => rfl
      | running =>
          rcases (attached.running_iff found).mp isState with
            ⟨turn, isTurn, _⟩
          cases isIdle.symm.trans isTurn
      | dead =>
          have done := attached.finished pid co found isState process isProcess
          rw [lives] at done
          cases done
      | normal =>
          rcases Option.map_eq_some_iff.mp isState with
            ⟨coro, isThere, isNormal⟩
          exact
            ((attached.flat.unlinked co coro isThere).notNormal isNormal).elim

/-- After a turn the coroutine is dead if and only if it has returned. -/
def StatusTells (session : Session) (op : DriverOp) (next : Session) : Prop :=
  ∀ turn co, session.driver.turn = some turn → next.driver.turn = none →
    session.handles.lookup turn.pid = some co →
      (states next.thread co = some .dead ↔ op = .entryReturned)

/-- What becomes of a session in a step. -/
structure Driven (xpaci : Usize → Usize) (session : Session) (op : DriverOp)
    (next : Session) : Prop where
  attached : Attached next
  switched : Switched xpaci session next
  tells : StatusTells session op next

/-- The calls of a step succeed, and every process keeps its coroutine. -/
theorem drives
    (isCode : trampoline ≠ 0) (attached : Attached session)
    (supplied : Supplied session supply op)
    (stepped : session.machine.step op = some machine) :
    ∃ thread,
      Runs xpaci symbols session.thread (session.calls trampoline supply op)
          thread ∧
        Driven xpaci session op (after session supply op machine thread) := by
  have change := change_of_machineStep stepped
  -- Where the turn stays as it is, there is nothing to tell.
  have silent (thread : Thread)
      (sameTurn : machine.driver.turn = session.driver.turn) :
      StatusTells session op (after session supply op machine thread) := by
    intro turn co isTurn ended
    cases isTurn.symm.trans (sameTurn.symm.trans ended)
  have quietly (calls : session.calls trampoline supply op = [])
      (quiet : spawns session.driver op = false)
      (stays : op ≠ .reapDoneCoroutines)
      (sameTurn : machine.driver.turn = session.driver.turn) :
      ∃ thread,
        Runs xpaci symbols session.thread
            (session.calls trampoline supply op) thread ∧
          Driven xpaci session op
            (after session supply op machine thread) := by
    rcases @attached_quiet xpaci session supply op machine attached stepped
      quiet stays sameTurn with ⟨isAttached, switched⟩
    rw [calls]
    exact ⟨_, runs_nil, isAttached, switched, silent _ sameTurn⟩
  have turning (begins : beginsTurn op = true) :
      spawns session.driver op = false ∧ op ≠ .reapDoneCoroutines := by
    cases op <;> simp_all [beginsTurn, spawns]
  generalize isNext : machine.driver = next at change
  cases change with
  | spawned isSpawn child =>
      rcases @calls_of_spawns xpaci symbols session supply op trampoline
        attached isCode supplied isSpawn with ⟨call, middle, calls, turns⟩
      rcases attached_spawned attached supplied stepped isSpawn turns with
        ⟨thread, runs, _, isAttached, switched⟩
      rw [calls]
      exact
        ⟨thread, runs, isAttached, switched, silent thread (isNext ▸ rfl)⟩
  | idles idle begins nothing =>
      rcases turning begins with ⟨quiet, stays⟩
      refine quietly ?_ quiet stays (isNext ▸ rfl)
      have picked : session.executor.pickNext.2 = none :=
        congrArg Prod.snd nothing
      rw [calls_of_begins begins, picked]
      rfl
  | resumes turn idle begins chosen isResumed =>
      rcases turning begins with ⟨quiet, stays⟩
      have picked : session.executor.pickNext.2 = some turn.pid :=
        congrArg Prod.snd chosen
      rcases (live_of_pickNext picked).2 with ⟨process, isProcess, _⟩
      have member : turn.pid ∈ session.handles :=
        (attached.processes turn.pid).mpr
          (mem_iff_lookup.mpr ⟨process, isProcess⟩)
      rcases mem_iff_lookup.mp member with ⟨co, found⟩
      rcases @turns_resume xpaci symbols session.thread co attached.flat
        (attached.idle idle)
        (suspended_of_picked attached idle picked found) with
        ⟨thread, turns, resumed⟩
      rcases @attached_resumed xpaci symbols session supply op machine thread
        turn co attached stepped quiet stays (isNext ▸ rfl) found idle turns
        resumed with ⟨isAttached, switched⟩
      rw [calls_of_begins begins, picked, Option.bind_some, found]
      refine ⟨thread, runs_single turns, isAttached, switched, ?_⟩
      · intro given _ isGiven
        cases idle.symm.trans isGiven
  | ends turn running ending =>
      rename_i left dead taken
      rcases @calls_of_ending session supply op trampoline _ _ _ attached
        ending with ⟨calls, isReturn, quiet, stays⟩
      have found := attached.current turn running
      have runs :=
        (attached.running_iff found).mpr ⟨turn, running, rfl⟩
      rcases @turns_ending xpaci symbols _ supply.stackAddr attached.flat
        runs supplied.onStack dead with
        ⟨state, thread, turns, isLeft, isDead⟩
      have finished (died : state = .dead) :
          Over machine.driver.executor turn.pid := by
        rw [isNext, isDead.mp died]
        exact over_resumeEnd left turn.pid
      rcases @attached_left xpaci symbols session supply op machine thread
        turn _ state attached stepped quiet stays running (isNext ▸ rfl)
        turns isLeft finished with ⟨isAttached, switched⟩
      rw [calls]
      refine ⟨thread, runs_single turns, isAttached, switched, ?_⟩
      intro given co isGiven _ isCo
      cases running.symm.trans isGiven
      cases found.symm.trans isCo
      show states thread session.thread.mcoRunning = some .dead ↔ _
      rw [turns.states, Function.update_self, Option.some.injEq, isDead]
      exact isReturn
  | signals target sig isSignal =>
      rcases isSignal with rfl | ⟨rfl, harmless⟩
      · exact quietly rfl rfl (by simp) (isNext ▸ rfl)
      · refine quietly ?_ rfl (by simp) (isNext ▸ rfl)
        simp [Session.calls, harmless]
  | forgets target => exact quietly rfl rfl (by simp) (isNext ▸ rfl)
  | collects => exact quietly rfl rfl (by simp) (isNext ▸ rfl)
  | wakes revents now idle =>
      exact quietly rfl rfl (by simp) (isNext ▸ rfl)
  | reaps idle =>
      have sameTurn : machine.driver.turn = session.driver.turn :=
        isNext ▸ rfl
      rcases @attached_reaped xpaci symbols session supply machine attached
        stepped idle sameTurn with ⟨thread, runs, isAttached, switched⟩
      exact ⟨thread, runs, isAttached, switched, silent thread sameTurn⟩
  | calls call => exact quietly rfl rfl (by simp) (isNext ▸ rfl)

end Drive

end Vproc.Sched.DriverCoroutines
