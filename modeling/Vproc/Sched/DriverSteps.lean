import Vproc.Sched.DriverLoop

/-!
# What a step of the driver does

`Change` lists what a step can do to the driver, with the conditions under
which it does it; `change_of_step` says that there is nothing else.  The
results about the driver are proved from this list.

Two things follow at once.  The running coroutine is the current one, and the
process numbers in use do not exceed the number of spawns.  So a spawn finds
its number free as long as fewer than `2 ^ 32` numbers have been taken.
-/

namespace Vproc.Sched.DriverSteps

open Vproc.Lib.Run
open Vproc.Lib.FiniteMap
open Vproc.Fd.Table
open Vproc.Fd.Runtime
open Vproc.Sched.Scheduler
open Vproc.Sched.DriverLoop

/-! ## The functions of the executor -/

theorem lookup_update
    (ex : Executor) (pid other : VPid) (change : Coroutine → Coroutine) :
    (ex.update pid change).vprocs.lookup other =
      if other = pid then (ex.vprocs.lookup other).map change
      else ex.vprocs.lookup other :=
  lookup_modify_eq ex.vprocs pid other change

/-- Waking ends the wait, and queues the number unless it is queued. -/
theorem wakeOne_eq (ex : Executor) (pid : VPid) :
    ex.wakeOne pid =
      { ex.update pid fun co => { co with ioWait := none } with
        readyQueue :=
          if pid ∈ ex.readyQueue then ex.readyQueue
          else ex.readyQueue ++ [pid] } := by
  by_cases queued : pid ∈ ex.readyQueue
  · rw [if_pos queued]
    exact if_pos queued
  · rw [if_neg queued]
    exact if_neg queued

/-- What holds before `wake_io_ready` and is kept by each waking. -/
theorem wakeIoReady_rec
    {motive : Executor → Prop} (ex : Executor)
    (polled : List (Bool × VPid)) (now : Nat) (start : motive ex)
    (wake : ∀ before, motive before →
      ∀ pid ∈ ex.readyPids polled now, motive (before.wakeOne pid)) :
    motive (ex.wakeIoReady polled now) :=
  List.foldlRecOn _ _ start wake

/-- What `pick_next` takes from the queue. -/
theorem pickLoop_spec
    (vprocs : KeyMap VPid Coroutine) (queue : List VPid) :
    ∃ skipped,
      (∀ pid ∈ skipped, ∀ co, vprocs.lookup pid = some co →
        co.isDone = true) ∧
      match (Executor.pickLoop vprocs queue).2 with
      | none =>
          queue = skipped ∧ (Executor.pickLoop vprocs queue).1 = []
      | some pid =>
          queue =
              skipped ++ pid :: (Executor.pickLoop vprocs queue).1 ∧
            ∃ co, vprocs.lookup pid = some co ∧ co.isDone = false := by
  induction queue with
  | nil => exact ⟨[], by simp, rfl, rfl⟩
  | cons pid rest induction =>
      obtain ⟨skipped, allDone, shape⟩ := induction
      have skip (finished : ∀ co, vprocs.lookup pid = some co →
            co.isDone = true)
          (loop : Executor.pickLoop vprocs (pid :: rest) =
            Executor.pickLoop vprocs rest) :
          ∃ skipped,
            (∀ pid ∈ skipped, ∀ co, vprocs.lookup pid = some co →
              co.isDone = true) ∧
            match (Executor.pickLoop vprocs (pid :: rest)).2 with
            | none =>
                pid :: rest = skipped ∧
                  (Executor.pickLoop vprocs (pid :: rest)).1 = []
            | some next =>
                pid :: rest =
                    skipped ++
                      next ::
                        (Executor.pickLoop vprocs (pid :: rest)).1 ∧
                  ∃ co, vprocs.lookup next = some co ∧
                    co.isDone = false := by
        refine ⟨pid :: skipped, ?_, ?_⟩
        · intro other member
          rcases List.mem_cons.mp member with rfl | later
          · exact finished
          · exact allDone other later
        · rw [loop]
          split
          · rename_i nothing
            simp only [nothing] at shape
            exact ⟨congrArg _ shape.1, shape.2⟩
          · rename_i next chosen
            simp only [chosen] at shape
            exact ⟨congrArg _ shape.1, shape.2⟩
      cases found : vprocs.lookup pid with
      | none =>
          apply skip
          · intro co stored
            rw [found] at stored
            cases stored
          · simp only [Executor.pickLoop, found]
      | some co =>
          cases finished : co.isDone with
          | true =>
              apply skip
              · intro other stored
                rw [found] at stored
                cases stored
                exact finished
              · simp only [Executor.pickLoop, found, finished, if_true]
          | false =>
              refine ⟨[], by simp, ?_⟩
              simp only [Executor.pickLoop, found, finished]
              exact ⟨rfl, co, found, finished⟩

theorem pickNext_none
    {ex next : Executor} (picked : ex.pickNext = (next, none)) :
    next = { ex with readyQueue := [] } ∧
      ∀ pid ∈ ex.readyQueue, ∀ co, ex.vprocs.lookup pid = some co →
        co.isDone = true := by
  obtain ⟨skipped, allDone, shape⟩ :=
    pickLoop_spec ex.vprocs ex.readyQueue
  obtain ⟨result, nothing⟩ := Prod.mk.inj picked
  simp only [nothing] at shape
  subst result
  rw [shape.1, ← shape.1, shape.2]
  exact ⟨rfl, shape.1 ▸ allDone⟩

theorem pickNext_some
    {ex next : Executor} {pid : VPid}
    (picked : ex.pickNext = (next, some pid)) :
    ∃ skipped rest co,
      (∀ other ∈ skipped, ∀ co, ex.vprocs.lookup other = some co →
        co.isDone = true) ∧
      ex.readyQueue = skipped ++ pid :: rest ∧
      next = { ex with readyQueue := rest } ∧
      ex.vprocs.lookup pid = some co ∧ co.isDone = false := by
  obtain ⟨skipped, allDone, shape⟩ :=
    pickLoop_spec ex.vprocs ex.readyQueue
  obtain ⟨result, chosen⟩ := Prod.mk.inj picked
  simp only [chosen] at shape
  obtain ⟨queue, co, found, live⟩ := shape
  exact ⟨skipped, _, co, allDone, queue, result.symm, found, live⟩

/-- The process which is picked was in the queue and is not done. -/
theorem live_of_pickNext
    {ex : Executor} {pid : VPid} (picked : ex.pickNext.2 = some pid) :
    pid ∈ ex.readyQueue ∧
      ∃ co, ex.vprocs.lookup pid = some co ∧ co.isDone = false := by
  obtain ⟨skipped, rest, co, _, queue, _, found, live⟩ :=
    pickNext_some (Prod.ext rfl picked)
  refine ⟨?_, co, found, live⟩
  rw [queue]
  exact List.mem_append_right _ List.mem_cons_self

/-- `deliver_signals` changes the process only, and not what it waits for. -/
theorem deliverSignals_spec (ex : Executor) (pid : VPid) :
    ∃ change : Coroutine → Coroutine,
      (∀ co, (change co).ioWait = co.ioWait) ∧
      (∀ other, (ex.deliverSignals pid).1.vprocs.lookup other =
        if other = pid then (ex.vprocs.lookup other).map change
        else ex.vprocs.lookup other) ∧
      (ex.deliverSignals pid).1.readyQueue = ex.readyQueue := by
  unfold Executor.deliverSignals
  split
  · exact ⟨id, fun _ => rfl, by simp, rfl⟩
  · split
    · exact ⟨id, fun _ => rfl, by simp, rfl⟩
    · split
      · refine ⟨_, ?_, fun other => lookup_update ex pid other _, rfl⟩
        intro co
        rfl
      · refine ⟨_, ?_, fun other => lookup_update ex pid other _, rfl⟩
        intro co
        rfl

theorem resumeBegin_spec
    {ex next : Executor} {pid : VPid}
    (resumed : ex.resumeBegin pid = some next) :
    next.readyQueue = ex.readyQueue ∧ next.current = some pid ∧
      ∀ other, next.vprocs.lookup other =
        if other = pid then
          (ex.vprocs.lookup other).map fun co =>
            { co with state := .running, started := true }
        else ex.vprocs.lookup other := by
  unfold Executor.resumeBegin at resumed
  split at resumed
  · cases resumed
  · split at resumed
    · cases resumed
    · cases resumed
      exact ⟨rfl, rfl, fun other => lookup_update ex pid other _⟩

/-- What `resume` leaves of the coroutine when control has come back. -/
def settled (dead : Bool) (co : Coroutine) : Coroutine :=
  if co.isDone then co
  else { co with state := if dead then .done else .ready }

theorem lookup_resumeEnd
    (ex : Executor) (pid : VPid) (dead : Bool) (other : VPid) :
    (ex.resumeEnd pid dead).vprocs.lookup other =
      if other = pid then (ex.vprocs.lookup other).map (settled dead)
      else ex.vprocs.lookup other :=
  lookup_update ex pid other _

/-- Only the current process is put back into the queue. -/
theorem requeueLive_eq (ex : Executor) :
    ex.requeueLive = ex ∨
      ∃ pid, ex.current = some pid ∧ ex.requeueLive = ex.pushBack pid := by
  unfold Executor.requeueLive
  split
  · exact Or.inl rfl
  · rename_i pid current
    split
    · exact Or.inl rfl
    · split
      · exact Or.inl rfl
      · exact Or.inr ⟨pid, current, rfl⟩

theorem requeueCurrent_eq (ex : Executor) :
    ex.requeueCurrent = ex ∨
      ∃ pid, ex.current = some pid ∧
        ex.requeueCurrent = ex.pushBack pid := by
  unfold Executor.requeueCurrent
  split
  · exact Or.inl rfl
  · rename_i pid current
    exact Or.inr ⟨pid, current, rfl⟩

/-- The process which exits is done, and no other is touched. -/
theorem lookup_exited
    {ex : Executor} {pid : VPid} (current : ex.current = some pid)
    (code : CInt) (other : VPid) :
    ((ex.vprocExitWithCode code).resumeEnd pid false).vprocs.lookup other =
      if other = pid then
        (ex.vprocs.lookup pid).map fun co =>
          { co with state := .done, exitCode := code }
      else ex.vprocs.lookup other := by
  simp only [Executor.vprocExitWithCode, current, lookup_resumeEnd]
  by_cases same : other = pid
  · subst other
    rw [if_pos rfl, if_pos rfl]
    refine
      (congrArg _ (lookup_update ex pid pid _)).trans ?_
    rw [if_pos rfl, Option.map_map]
    rfl
  · rw [if_neg same, if_neg same]
    exact (lookup_update ex pid other _).trans (if_neg same)

theorem exitCodes_exited
    {ex : Executor} {pid : VPid} (current : ex.current = some pid)
    (code : CInt) (other : VPid) :
    (ex.vprocExitWithCode code).exitCodes.lookup other =
      if other = pid then some code else ex.exitCodes.lookup other := by
  simp only [Executor.vprocExitWithCode, current]
  exact lookup_insert_eq ex.exitCodes pid other code

theorem whenIdle_eq_some_iff
    {driver : Driver} {result : Option (World × Driver)}
    {next : World × Driver} :
    driver.whenIdle result = some next ↔
      driver.turn.isNone = true ∧ result = some next := by
  unfold Driver.whenIdle
  split
  · rename_i idle
    simp [idle]
  · rename_i busy
    simp [busy]

/-- The step spawns a process. -/
def spawns (driver : Driver) : DriverOp → Bool
  | .spawn => true
  | .spawnFront => true
  | .spawnElf => true
  | .virtualExecve => true
  | .createProcess _ _ _ => true
  | .spawnForkChild parent => decide (parent ∈ driver.executor.vprocs)
  | _ => false

/-- The next process number is free. -/
def FreshPid (ex : Executor) : Prop :=
  ex.nextPid ∉ ex.vprocs ∧ ex.nextPid ∉ ex.readyQueue

/-- A step which spawns finds the next process number free. -/
def SpawnsFresh (machine : Machine) (op : DriverOp) : Prop :=
  spawns machine.driver op = true → FreshPid machine.driver.executor

/-! ## All changes -/

/-- The executor after a process has been spawned. -/
inductive Spawned (ex : Executor) : Executor → Prop where
  | back : Spawned ex ex.spawn.1
  | front : Spawned ex ex.spawnFront.1
  | elf : Spawned ex ex.spawnElf.1
  | fork {parent : VPid} {next : Executor} {child : VPid}
      (forked : ex.spawnForkChild parent = some (next, child)) :
      Spawned ex next

/--
How the running coroutine gives back control: the executor it leaves, whether
its context is dead, and how many process numbers it has taken.
-/
inductive Ending (ex : Executor) :
    DriverOp → Executor → Bool → Nat → Prop where
  | yields : Ending ex .doYield ex.doYield false 0
  | waits (fds : List (CInt × Int)) (timeoutMs : CInt) (now : Nat) :
      Ending ex (.yieldForIo fds timeoutMs now)
        (ex.yieldForIo fds timeoutMs now) false 0
  | exits (cause : ExitCause) :
      Ending ex (.exit cause) (ex.vprocExitWithCode cause.code) false 0
  | raises {sig : CInt} (fatal : Executor.isFatal sig = true) :
      Ending ex (.raise sig) (ex.vprocExitWithCode (128 + sig)) false 0
  | panics {parent : VPid} (missing : parent ∉ ex.vprocs) :
      Ending ex (.spawnForkChild parent)
        (ex.takePid.vprocExitWithCode ExitCause.panicked.code) false 1
  | returns : Ending ex .entryReturned ex true 0

/-- The operation begins a turn. -/
def beginsTurn : DriverOp → Bool
  | .stepFromDriver => true
  | .stepFromDriverWithFdSwap _ => true
  | _ => false

/-- What a step does to the driver. -/
inductive Change (driver : Driver) : DriverOp → Driver → Prop where
  | spawned {op : DriverOp} {ex : Executor}
      (isSpawn : spawns driver op = true)
      (child : Spawned driver.executor ex) :
      Change driver op (driver.withSpawned ex)
  | idles {op : DriverOp} {ex : Executor}
      (idle : driver.turn = none) (begins : beginsTurn op = true)
      (nothing : driver.executor.pickNext = (ex, none)) :
      Change driver op (driver.withExecutor ex)
  | resumes {op : DriverOp} {picked resumed : Executor} (turn : Turn)
      (idle : driver.turn = none) (begins : beginsTurn op = true)
      (chosen : driver.executor.pickNext = (picked, some turn.pid))
      (isResumed : (picked.deliverSignals turn.pid).1.resumeBegin
        turn.pid = some resumed) :
      Change driver op
        { driver with
          executor := resumed
          turn := some turn
          resumes := driver.resumes ++ [turn.pid] }
  | ends {op : DriverOp} {left : Executor} {dead : Bool} {taken : Nat}
      (turn : Turn) (running : driver.turn = some turn)
      (ending : Ending driver.executor op left dead taken) :
      Change driver op
        { driver with
          executor := left.resumeEnd turn.pid dead
          turn := none
          spawned := driver.spawned + taken }
  | signals {op : DriverOp} (pid : VPid) (sig : CInt)
      (isSignal : op = .kill pid sig ∨
        op = .raise sig ∧ Executor.isFatal sig = false) :
      Change driver op
        (driver.withExecutor (driver.executor.kill pid sig))
  | forgets (pid : VPid) :
      Change driver (.removeExitCode pid)
        (driver.withExecutor (driver.executor.removeExitCode pid))
  | collects :
      Change driver .collectIoWaits
        { driver with polled := driver.executor.collectIoWaits }
  | wakes (revents : List Bool) (now : Nat) (idle : driver.turn = none) :
      Change driver (.wakeIoReady revents now)
        (driver.withExecutor
          (driver.executor.wakeIoReady (revents.zip driver.polled) now))
  | reaps (idle : driver.turn = none) :
      Change driver .reapDoneCoroutines
        (driver.withExecutor driver.executor.reapDone)
  | calls (call : World.SysCall) : Change driver (.sys call) driver

theorem change_of_endTurn
    {driver : Driver} {world : World} {op : DriverOp} {left : Executor}
    {dead : Bool} {next : World × Driver}
    (ending : Ending driver.executor op left dead 0)
    (ended : Driver.endTurn world driver left dead = some next) :
    Change driver op next.2 := by
  obtain ⟨turn, running, restored⟩ := Option.bind_eq_some_iff.mp ended
  obtain ⟨after, _, rfl⟩ := Option.map_eq_some_iff.mp restored
  exact .ends turn running ending

theorem change_of_beginTurn
    {driver : Driver} {world : World} {op : DriverOp}
    {saved : Option StdFds} {next : World × Driver}
    (begins : beginsTurn op = true) (idle : driver.turn = none)
    (begun : Driver.beginTurn world driver saved = some next) :
    Change driver op next.2 := by
  unfold Driver.beginTurn at begun
  split at begun
  · rename_i ex nothing
    cases begun
    exact .idles idle begins nothing
  · rename_i ex pid chosen
    obtain ⟨swapped, _, entered⟩ := Option.bind_eq_some_iff.mp begun
    obtain ⟨resumed, isResumed, rfl⟩ :=
      Option.map_eq_some_iff.mp entered
    exact
      .resumes { pid := pid, restore := _ } idle begins chosen isResumed

theorem change_of_forkStep
    {driver : Driver} {world : World} {parent : VPid}
    {next : World × Driver}
    (stepped : Driver.forkStep world driver parent = some next) :
    Change driver (.spawnForkChild parent) next.2 := by
  unfold Driver.forkStep at stepped
  split at stepped
  · rename_i ex child forked
    cases stepped
    have present : parent ∈ driver.executor.vprocs := by
      obtain ⟨co, found, _⟩ := Option.map_eq_some_iff.mp forked
      exact mem_iff_lookup.mpr ⟨co, found⟩
    exact .spawned (by simp [spawns, present]) (.fork forked)
  · rename_i failed
    have missing : parent ∉ driver.executor.vprocs := by
      intro present
      obtain ⟨co, found⟩ := mem_iff_lookup.mp present
      simp [Executor.spawnForkChild, found] at failed
    obtain ⟨turn, running, rest⟩ := Option.bind_eq_some_iff.mp stepped
    split at rest
    · split at rest
      · obtain ⟨ending, sameTurn, restored⟩ :=
          Option.bind_eq_some_iff.mp rest
        obtain ⟨after, _, rfl⟩ := Option.map_eq_some_iff.mp restored
        exact .ends ending sameTurn (.panics missing)
      · cases rest
    · cases rest

/-- A step changes the driver in one of the listed ways. -/
theorem change_of_step
    {world : World} {driver : Driver} {op : DriverOp}
    {next : World × Driver}
    (stepped : Driver.step world driver op = some next) :
    Change driver op next.2 := by
  have idleOf {result : Option (World × Driver)}
      (guarded : driver.whenIdle result = some next) :
      driver.turn = none ∧ result = some next := by
    obtain ⟨idle, result⟩ := whenIdle_eq_some_iff.mp guarded
    exact ⟨Option.isNone_iff_eq_none.mp idle, result⟩
  cases op with
  | spawn =>
      cases stepped
      exact .spawned rfl .back
  | spawnFront =>
      cases stepped
      exact .spawned rfl .front
  | spawnElf =>
      cases stepped
      exact .spawned rfl .elf
  | spawnForkChild parent => exact change_of_forkStep stepped
  | virtualExecve =>
      cases stepped
      exact .spawned rfl .elf
  | createProcess stdin stdout stderr =>
      obtain ⟨_, result⟩ := idleOf stepped
      cases result
      exact .spawned rfl .elf
  | stepFromDriver =>
      obtain ⟨idle, begun⟩ := idleOf stepped
      exact change_of_beginTurn rfl idle begun
  | stepFromDriverWithFdSwap saved =>
      obtain ⟨idle, begun⟩ := idleOf stepped
      exact change_of_beginTurn rfl idle begun
  | doYield => exact change_of_endTurn .yields stepped
  | yieldForIo fds timeoutMs now =>
      exact change_of_endTurn (.waits fds timeoutMs now) stepped
  | exit cause => exact change_of_endTurn (.exits cause) stepped
  | raise sig =>
      obtain ⟨turn, running, raised⟩ :=
        Option.bind_eq_some_iff.mp stepped
      unfold Driver.raiseStep at raised
      split at raised
      · rename_i fatal
        exact change_of_endTurn (.raises fatal) raised
      · rename_i harmless
        cases raised
        exact
          .signals turn.pid sig
            (Or.inr ⟨rfl, Bool.eq_false_of_not_eq_true harmless⟩)
  | entryReturned => exact change_of_endTurn .returns stepped
  | sys call =>
      obtain ⟨turn, _, called⟩ := Option.bind_eq_some_iff.mp stepped
      obtain ⟨after, _, rfl⟩ := Option.map_eq_some_iff.mp called
      exact .calls call
  | kill pid sig =>
      cases stepped
      exact .signals pid sig (Or.inl rfl)
  | removeExitCode pid =>
      cases stepped
      exact .forgets pid
  | collectIoWaits =>
      obtain ⟨_, result⟩ := idleOf stepped
      cases result
      exact .collects
  | wakeIoReady revents now =>
      obtain ⟨idle, result⟩ := idleOf stepped
      cases result
      exact .wakes revents now idle
  | reapDoneCoroutines =>
      obtain ⟨idle, result⟩ := idleOf stepped
      cases result
      exact .reaps idle

theorem change_of_machineStep
    {machine next : Machine} {op : DriverOp}
    (stepped : machine.step op = some next) :
    Change machine.driver op next.driver := by
  obtain ⟨result, isResult, rfl⟩ := Option.map_eq_some_iff.mp stepped
  exact change_of_step isResult

/-! ## Counters and stored exit codes -/

/-- The next process number and the stored exit codes are the same. -/
structure SameBooks (ex next : Executor) : Prop where
  nextPid : next.nextPid = ex.nextPid
  exitCodes : next.exitCodes = ex.exitCodes

theorem sameBooks_deliverSignals (ex : Executor) (pid : VPid) :
    SameBooks ex (ex.deliverSignals pid).1 := by
  unfold Executor.deliverSignals
  split
  · exact ⟨rfl, rfl⟩
  · split
    · exact ⟨rfl, rfl⟩
    · split
      · exact ⟨rfl, rfl⟩
      · exact ⟨rfl, rfl⟩

theorem sameBooks_resumeBegin
    {ex next : Executor} {pid : VPid}
    (resumed : ex.resumeBegin pid = some next) :
    SameBooks ex next := by
  unfold Executor.resumeBegin at resumed
  split at resumed
  · cases resumed
  · split at resumed
    · cases resumed
    · cases resumed
      exact ⟨rfl, rfl⟩

theorem sameBooks_wakeIoReady
    (ex : Executor) (polled : List (Bool × VPid)) (now : Nat) :
    SameBooks ex (ex.wakeIoReady polled now) := by
  apply wakeIoReady_rec
  · exact ⟨rfl, rfl⟩
  · intro before same pid _
    rw [wakeOne_eq]
    exact ⟨same.nextPid, same.exitCodes⟩

theorem counters_spawned
    {ex next : Executor} (child : Spawned ex next) :
    next.nextPid = succU32 ex.nextPid ∧ next.current = ex.current ∧
      next.exitCodes = ex.exitCodes := by
  cases child with
  | back => exact ⟨rfl, rfl, rfl⟩
  | front => exact ⟨rfl, rfl, rfl⟩
  | elf => exact ⟨rfl, rfl, rfl⟩
  | fork forked =>
      obtain ⟨co, _, result⟩ := Option.map_eq_some_iff.mp forked
      cases result
      exact ⟨rfl, rfl, rfl⟩

/-- What the beginning of a turn leaves as it was. -/
theorem resumed_spec
    {ex picked resumed : Executor} {pid : VPid}
    (chosen : ex.pickNext = (picked, some pid))
    (isResumed : (picked.deliverSignals pid).1.resumeBegin pid =
      some resumed) :
    SameBooks ex resumed ∧
      (∃ skipped, ex.readyQueue = skipped ++ pid :: resumed.readyQueue) ∧
      ∀ other, other ≠ pid →
        resumed.vprocs.lookup other = ex.vprocs.lookup other := by
  obtain ⟨skipped, rest, _, _, queue, rfl, _, _⟩ := pickNext_some chosen
  obtain ⟨_, _, delivered, sameQueue⟩ :=
    deliverSignals_spec { ex with readyQueue := rest } pid
  have books :=
    sameBooks_deliverSignals { ex with readyQueue := rest } pid
  have resumedBooks := sameBooks_resumeBegin isResumed
  obtain ⟨resumedQueue, _, lookups⟩ := resumeBegin_spec isResumed
  refine ⟨⟨?_, ?_⟩, ⟨skipped, ?_⟩, ?_⟩
  · exact resumedBooks.nextPid.trans books.nextPid
  · exact resumedBooks.exitCodes.trans books.exitCodes
  · rw [resumedQueue, sameQueue]
    exact queue
  · intro other different
    rw [lookups, if_neg different, delivered, if_neg different]

/-! ## A process which does not run -/

/-- Neither finished nor revived, and no pending signal is lost. -/
structure Persists (before after : Coroutine) : Prop where
  state : after.state = before.state
  exitCode : after.exitCode = before.exitCode
  signals : before.pendingSignals <+: after.pendingSignals

/-- A process stays as it is, or has finished and is reaped. -/
inductive Follows (reaps : Prop) :
    Option Coroutine → Option Coroutine → Prop where
  | absent : Follows reaps none none
  | persists {before after : Coroutine} (same : Persists before after) :
      Follows reaps (some before) (some after)
  | reaped {before : Coroutine} (isReaped : reaps)
      (finished : before.isDone = true) :
      Follows reaps (some before) none

section Following

variable {reaps : Prop}

theorem persists_refl (co : Coroutine) : Persists co co :=
  ⟨rfl, rfl, List.prefix_rfl⟩

theorem persists_trans
    {first second third : Coroutine}
    (left : Persists first second) (right : Persists second third) :
    Persists first third :=
  ⟨right.state.trans left.state, right.exitCode.trans left.exitCode,
    left.signals.trans right.signals⟩

theorem isDone_of_persists
    {before after : Coroutine} (same : Persists before after) :
    after.isDone = before.isDone := by
  rw [Coroutine.isDone, Coroutine.isDone, same.state]

theorem follows_map
    {change : Coroutine → Coroutine}
    (same : ∀ co, Persists co (change co)) (stored : Option Coroutine) :
    Follows reaps stored (stored.map change) := by
  cases stored with
  | none => exact .absent
  | some co => exact .persists (same co)

theorem follows_refl (stored : Option Coroutine) :
    Follows reaps stored stored := by
  simpa using follows_map persists_refl stored

theorem follows_trans
    {first second third : Option Coroutine}
    (left : Follows reaps first second) (right : Follows reaps second third) :
    Follows reaps first third := by
  cases left with
  | absent => exact right
  | reaped isReaped finished =>
      cases right with
      | absent => exact .reaped isReaped finished
  | persists same =>
      cases right with
      | persists again => exact .persists (persists_trans same again)
      | reaped isReaped finished =>
          refine .reaped isReaped ?_
          exact (isDone_of_persists same).symm.trans finished

theorem follows_modify
    (vprocs : KeyMap VPid Coroutine) (pid other : VPid)
    {change : Coroutine → Coroutine}
    (same : ∀ co, Persists co (change co)) :
    Follows reaps (vprocs.lookup other)
      ((modify pid change vprocs).lookup other) := by
  rw [lookup_modify_eq]
  split
  · exact follows_map same _
  · exact follows_refl _

theorem follows_spawned
    {ex next : Executor} (child : Spawned ex next) {pid : VPid}
    (other : pid ≠ ex.nextPid) :
    Follows reaps (ex.vprocs.lookup pid) (next.vprocs.lookup pid) := by
  have inserted (co : Coroutine) :
      Follows reaps (ex.vprocs.lookup pid)
        ((ex.vprocs.insert ex.nextPid co).lookup pid) := by
    rw [lookup_insert_eq, if_neg other]
    exact follows_refl _
  cases child with
  | back => exact inserted _
  | front => exact inserted _
  | elf => exact inserted _
  | fork forked =>
      obtain ⟨origin, _, result⟩ := Option.map_eq_some_iff.mp forked
      cases result
      exact
        follows_trans (inserted _)
          (follows_modify _ _ pid fun co =>
            ⟨rfl, rfl, List.prefix_rfl⟩)

theorem follows_wakeIoReady
    (ex : Executor) (polled : List (Bool × VPid)) (now : Nat)
    (pid : VPid) :
    Follows reaps (ex.vprocs.lookup pid)
      ((ex.wakeIoReady polled now).vprocs.lookup pid) := by
  refine wakeIoReady_rec
    (motive := fun after =>
      Follows reaps (ex.vprocs.lookup pid) (after.vprocs.lookup pid))
    ex polled now ?_ ?_
  · exact follows_refl _
  · intro before follows woken _
    rw [wakeOne_eq]
    exact
      follows_trans follows
        (follows_modify before.vprocs woken pid
          fun co => ⟨rfl, rfl, List.prefix_rfl⟩)

theorem follows_reapDone
    (ex : Executor) (pid : VPid) (isReaped : reaps) :
    Follows reaps (ex.vprocs.lookup pid) (ex.reapDone.vprocs.lookup pid) := by
  cases left : ex.reapDone.vprocs.lookup pid with
  | some co =>
      rw [(lookup_retain_iff.mp left).1]
      exact follows_refl _
  | none =>
      cases found : ex.vprocs.lookup pid with
      | none => exact .absent
      | some co =>
          refine .reaped isReaped ?_
          by_contra alive
          have kept : ex.reapDone.vprocs.lookup pid = some co :=
            lookup_retain_iff.mpr ⟨found, by simp [alive]⟩
          rw [left] at kept
          cases kept

end Following

theorem done_of_mem_donePids
    {ex : Executor} {pid : VPid} (member : pid ∈ ex.donePids) :
    ∃ co, ex.vprocs.lookup pid = some co ∧ co.isDone = true := by
  obtain ⟨entry, isDone, rfl⟩ := List.mem_map.mp member
  obtain ⟨stored, done⟩ := List.mem_filter.mp isDone
  exact ⟨entry.2, mem_entries_iff.mp stored, done⟩

/-- The step resumes the process. -/
def picks (driver : Driver) (op : DriverOp) (pid : VPid) : Bool :=
  beginsTurn op && decide (driver.executor.pickNext.2 = some pid)

/-- In a turn the executor's current process is the one resumed. -/
def TurnRuns (driver : Driver) : Prop :=
  ∀ turn, driver.turn = some turn →
    driver.executor.current = some turn.pid

/-- The process is not the one whose turn it is. -/
def NotRunning (driver : Driver) (pid : VPid) : Prop :=
  ∀ turn, driver.turn = some turn → turn.pid ≠ pid

/-- The running coroutine ends its turn without touching other processes. -/
theorem others_ending
    {ex left : Executor} {op : DriverOp} {dead : Bool} {taken : Nat}
    {pid other : VPid} (ending : Ending ex op left dead taken)
    (current : ex.current = some pid) (different : other ≠ pid) :
    left.vprocs.lookup other = ex.vprocs.lookup other ∧
      left.exitCodes.lookup other = ex.exitCodes.lookup other := by
  have exited (start : Executor) (code : CInt)
      (running : start.current = some pid)
      (vprocs : start.vprocs = ex.vprocs)
      (codes : start.exitCodes = ex.exitCodes) :
      (start.vprocExitWithCode code).vprocs.lookup other =
          ex.vprocs.lookup other ∧
        (start.vprocExitWithCode code).exitCodes.lookup other =
          ex.exitCodes.lookup other := by
    simp only [Executor.vprocExitWithCode, running]
    constructor
    · refine (lookup_update start pid other _).trans ?_
      rw [if_neg different, vprocs]
    · rw [lookup_insert_eq, if_neg different, codes]
  cases ending with
  | yields =>
      rw [Executor.doYield]
      rcases requeueLive_eq ex with same | ⟨_, _, pushed⟩
      · rw [same]
        exact ⟨rfl, rfl⟩
      · rw [pushed]
        exact ⟨rfl, rfl⟩
  | waits fds timeoutMs now =>
      simp only [Executor.yieldForIo, current]
      exact ⟨(lookup_update ex pid other _).trans (if_neg different), rfl⟩
  | exits cause => exact exited ex _ current rfl rfl
  | raises fatal => exact exited ex _ current rfl rfl
  | panics missing => exact exited ex.takePid _ current rfl rfl
  | returns => exact ⟨rfl, rfl⟩

section Bystander

variable {driver next : Driver} {op : DriverOp} {pid : VPid}

/--
A step leaves a process alone unless it resumes or spawns it, or ends its
turn.
-/
theorem follows_change
    (change : Change driver op next) (runs : TurnRuns driver)
    (bystander : next.turn = none → NotRunning driver pid)
    (notPicked : picks driver op pid = false)
    (notSpawned : spawns driver op = true →
      pid ≠ driver.executor.nextPid) :
    Follows (op = .reapDoneCoroutines)
      (driver.executor.vprocs.lookup pid)
      (next.executor.vprocs.lookup pid) := by
  cases change with
  | spawned isSpawn child =>
      exact follows_spawned child (notSpawned isSpawn)
  | idles idle begins nothing =>
      obtain ⟨rfl, _⟩ := pickNext_none nothing
      exact follows_refl _
  | resumes turn idle begins chosen isResumed =>
      have different : pid ≠ turn.pid := by
        rintro rfl
        simp [picks, begins, chosen] at notPicked
      obtain ⟨_, _, others⟩ := resumed_spec chosen isResumed
      rw [others pid different]
      exact follows_refl _
  | ends turn running ending =>
      have different : pid ≠ turn.pid :=
        (bystander rfl turn running).symm
      rw [lookup_resumeEnd, if_neg different,
        (others_ending ending (runs turn running) different).1]
      exact follows_refl _
  | signals target sig isSignal =>
      exact
        follows_modify _ _ _
          fun co => ⟨rfl, rfl, List.prefix_append _ _⟩
  | forgets target => exact follows_refl _
  | collects => exact follows_refl _
  | wakes revents now idle => exact follows_wakeIoReady _ _ now pid
  | reaps idle => exact follows_reapDone _ pid rfl
  | calls call => exact follows_refl _

theorem resumes_change
    (change : Change driver op next)
    (notPicked : picks driver op pid = false) :
    (NotRunning driver pid → NotRunning next pid) ∧
      next.resumes.count pid = driver.resumes.count pid := by
  cases change with
  | resumes turn idle begins chosen isResumed =>
      have different : turn.pid ≠ pid := by
        rintro rfl
        simp [picks, begins, chosen] at notPicked
      constructor
      · intro _ started same
        cases same
        exact different
      · simp [different]
  | ends turn running ending =>
      refine ⟨?_, rfl⟩
      intro _ later impossible
      cases impossible
  | spawned isSpawn child => exact ⟨id, rfl⟩
  | idles idle begins nothing => exact ⟨id, rfl⟩
  | signals target sig isSignal => exact ⟨id, rfl⟩
  | forgets target => exact ⟨id, rfl⟩
  | collects => exact ⟨id, rfl⟩
  | wakes revents now idle => exact ⟨id, rfl⟩
  | reaps idle => exact ⟨id, rfl⟩
  | calls call => exact ⟨id, rfl⟩

/-- A stored exit code is replaced by its process, and dropped on request. -/
theorem exitCode_change
    (change : Change driver op next) (runs : TurnRuns driver)
    (bystander : next.turn = none → NotRunning driver pid) :
    next.executor.exitCodes.lookup pid =
      if op = .removeExitCode pid then none
      else driver.executor.exitCodes.lookup pid := by
  have kept {left : Executor} (other : op ≠ .removeExitCode pid)
      (codes : left.exitCodes = driver.executor.exitCodes) :
      left.exitCodes.lookup pid =
        if op = .removeExitCode pid then none
        else driver.executor.exitCodes.lookup pid := by
    rw [if_neg other, codes]
  cases change with
  | forgets target =>
      refine (lookup_erase_eq _ target pid).trans ?_
      by_cases same : pid = target
      · rw [if_pos same, if_pos (congrArg _ same.symm)]
      · rw [if_neg same, if_neg]
        exact fun equal => same (DriverOp.removeExitCode.inj equal).symm
  | spawned isSpawn child =>
      refine kept ?_ (counters_spawned child).2.2
      rintro rfl
      cases isSpawn
  | idles idle begins nothing =>
      obtain ⟨rfl, _⟩ := pickNext_none nothing
      refine kept ?_ rfl
      rintro rfl
      cases begins
  | resumes turn idle begins chosen isResumed =>
      refine kept ?_ (resumed_spec chosen isResumed).1.exitCodes
      rintro rfl
      cases begins
  | ends turn running ending =>
      have different : pid ≠ turn.pid :=
        (bystander rfl turn running).symm
      rw [if_neg]
      · exact (others_ending ending (runs turn running) different).2
      · rintro rfl
        cases ending
  | signals target sig isSignal =>
      refine kept ?_ rfl
      rintro rfl
      rcases isSignal with equal | ⟨equal, _⟩
      · cases equal
      · cases equal
  | collects => exact kept (fun equal => nomatch equal) rfl
  | wakes revents now idle =>
      exact
        kept (fun equal => nomatch equal)
          (sameBooks_wakeIoReady _ _ now).exitCodes
  | reaps idle => exact kept (fun equal => nomatch equal) rfl
  | calls call => exact kept (fun equal => nomatch equal) rfl

end Bystander

/-! ## The turns -/

/-- A process which runs has run before the step, or is resumed by it. -/
theorem turn_cases
    {driver next : Driver} {op : DriverOp} {turn : Turn}
    (change : Change driver op next) (isTurn : next.turn = some turn) :
    driver.turn = some turn ∨
      spawns driver op = false ∧ beginsTurn op = true ∧
        driver.turn = none ∧
        driver.executor.pickNext.2 = some turn.pid := by
  cases change with
  | resumes started idle begins chosen isResumed =>
      cases isTurn
      refine Or.inr ⟨?_, begins, idle, by rw [chosen]⟩
      cases op with
      | stepFromDriver => rfl
      | stepFromDriverWithFdSwap saved => rfl
      | _ => cases begins
  | ends ended running ending => cases isTurn
  | spawned isSpawn child => exact Or.inl isTurn
  | idles idle begins nothing => exact Or.inl isTurn
  | signals target sig isSignal => exact Or.inl isTurn
  | forgets target => exact Or.inl isTurn
  | collects => exact Or.inl isTurn
  | wakes revents now idle => exact Or.inl isTurn
  | reaps idle => exact Or.inl isTurn
  | calls call => exact Or.inl isTurn

/-- A step which spawns does nothing else to the driver. -/
theorem child_of_spawns
    {driver next : Driver} {op : DriverOp}
    (change : Change driver op next) (isSpawn : spawns driver op = true) :
    ∃ ex, Spawned driver.executor ex ∧ next = driver.withSpawned ex := by
  have begun (begins : beginsTurn op = true) : False := by
    cases op <;> cases begins <;> cases isSpawn
  cases change with
  | spawned isSpawn child => exact ⟨_, child, rfl⟩
  | idles idle begins nothing => exact (begun begins).elim
  | resumes turn idle begins chosen isResumed =>
      exact (begun begins).elim
  | ends turn running ending =>
      cases ending with
      | panics missing => simp [spawns, missing] at isSpawn
      | _ => cases isSpawn
  | signals target sig isSignal =>
      rcases isSignal with rfl | ⟨rfl, _⟩
      · cases isSpawn
      · cases isSpawn
  | _ => cases isSpawn

/-- A spawn does not end or begin a turn. -/
theorem turn_of_spawns
    {driver next : Driver} {op : DriverOp}
    (change : Change driver op next) (isSpawn : spawns driver op = true) :
    next.turn = driver.turn := by
  obtain ⟨_, _, rfl⟩ := child_of_spawns change isSpawn
  rfl

theorem resumes_of_picks
    {driver next : Driver} {op : DriverOp} (change : Change driver op next) {pid : VPid}
    (picked : picks driver op pid = true) :
    next.resumes = driver.resumes ++ [pid] := by
  obtain ⟨begins, chosen⟩ := Bool.and_eq_true_iff.mp picked
  have chosen := of_decide_eq_true chosen
  cases change with
  | resumes turn idle _ isChosen isResumed =>
      rw [isChosen] at chosen
      cases chosen
      rfl
  | idles idle _ nothing =>
      rw [nothing] at chosen
      cases chosen
  | spawned isSpawn child =>
      cases op with
      | stepFromDriver => cases isSpawn
      | stepFromDriverWithFdSwap saved => cases isSpawn
      | _ => cases begins
  | ends turn running ending =>
      cases ending with
      | _ => cases begins
  | signals target sig isSignal =>
      rcases isSignal with rfl | ⟨rfl, _⟩
      · cases begins
      · cases begins
  | _ => cases begins

/-- A resume has taken the process from the queue, behind finished ones. -/
theorem queue_of_resumes
    {driver next : Driver} {op : DriverOp} (change : Change driver op next) {pid : VPid}
    (resumed : next.resumes = driver.resumes ++ [pid]) :
    (∃ turn, next.turn = some turn ∧ turn.pid = pid ∧
        pid ∈ next.executor.vprocs) ∧
      ∃ skipped rest,
        (∀ other ∈ skipped, ∀ co,
          driver.executor.vprocs.lookup other = some co →
            co.isDone = true) ∧
        driver.executor.readyQueue = skipped ++ pid :: rest := by
  cases change with
  | resumes turn idle begins chosen isResumed =>
      have same : turn.pid = pid := by simpa using resumed
      subst same
      obtain ⟨skipped, rest, co, allDone, queue, rfl, found, _⟩ :=
        pickNext_some chosen
      obtain ⟨_, _, delivered, _⟩ := deliverSignals_spec _ turn.pid
      refine ⟨⟨turn, rfl, rfl, ?_⟩, skipped, rest, allDone, queue⟩
      rw [mem_iff_lookup, (resumeBegin_spec isResumed).2.2, if_pos rfl,
        delivered, if_pos rfl, found]
      exact ⟨_, rfl⟩
  | _ => simp [Driver.withSpawned, Driver.withExecutor] at resumed

/-- A step which resumes a process makes it the running one. -/
theorem running_of_picks
    {driver after : Driver} {op : DriverOp} {pid : VPid}
    (change : Change driver op after)
    (picked : picks driver op pid = true) :
    ∃ turn, after.turn = some turn ∧ turn.pid = pid := by
  obtain ⟨⟨turn, isTurn, same, _⟩, _⟩ :=
    queue_of_resumes change (resumes_of_picks change picked)
  exact ⟨turn, isTurn, same⟩

/-- A descriptor call does not change coroutines and turns. -/
theorem driver_of_sys
    {call : World.SysCall} {driver next : Driver}
    (change : Change driver (.sys call) next) :
    next = driver := by
  generalize same : DriverOp.sys call = op at change
  cases change with
  | calls _ => rfl
  | spawned isSpawn child =>
      subst same
      cases isSpawn
  | idles idle begins nothing =>
      subst same
      cases begins
  | resumes turn idle begins chosen isResumed =>
      subst same
      cases begins
  | ends turn running ending =>
      subst same
      cases ending
  | signals target sig isSignal =>
      subst same
      rcases isSignal with impossible | ⟨impossible, _⟩
      · cases impossible
      · cases impossible
  | _ => cases same

/-! ## Numbers in use -/

theorem queue_spawned
    {ex next : Executor} (child : Spawned ex next) :
    next.readyQueue = ex.readyQueue ++ [ex.nextPid] ∨
      next.readyQueue = ex.nextPid :: ex.readyQueue := by
  cases child with
  | back => exact Or.inl rfl
  | front => exact Or.inr rfl
  | elf => exact Or.inl rfl
  | fork forked =>
      obtain ⟨co, _, result⟩ := Option.map_eq_some_iff.mp forked
      cases result
      exact Or.inl rfl

theorem mem_queue_spawned
    {ex next : Executor} (child : Spawned ex next) {pid : VPid}
    (member : pid ∈ next.readyQueue) :
    pid ∈ ex.readyQueue ∨ pid = ex.nextPid := by
  rcases queue_spawned child with back | front
  · rw [back, List.mem_append, List.mem_singleton] at member
    exact member
  · rw [front, List.mem_cons] at member
    exact member.symm

theorem turnRuns_change
    {driver next : Driver} {op : DriverOp}
    (change : Change driver op next) (runs : TurnRuns driver) :
    TurnRuns next := by
  cases change with
  | spawned isSpawn child =>
      intro turn running
      exact (counters_spawned child).2.1.trans (runs turn running)
  | idles idle begins nothing =>
      obtain ⟨rfl, _⟩ := pickNext_none nothing
      exact runs
  | resumes turn idle begins chosen isResumed =>
      intro started same
      cases same
      exact (resumeBegin_spec isResumed).2.1
  | ends turn running ending =>
      intro later impossible
      cases impossible
  | wakes revents now idle =>
      intro turn running
      rw [Driver.withExecutor, idle] at running
      cases running
  | signals target sig isSignal => exact runs
  | forgets target => exact runs
  | collects => exact runs
  | reaps idle => exact runs
  | calls call => exact runs

/-- The process number stands somewhere in the driver's state. -/
inductive Mentions (driver : Driver) (pid : VPid) : Prop where
  | coroutine (member : pid ∈ driver.executor.vprocs)
  | queued (member : pid ∈ driver.executor.readyQueue)
  | exitCode (member : pid ∈ driver.executor.exitCodes)
  | polled (member : pid ∈ driver.polled)
  | current (same : driver.executor.current = some pid)
  | running (turn : Turn) (runs : driver.turn = some turn)
      (same : turn.pid = pid)

/-- Numbers are taken in order, and those in use have been taken. -/
structure Numbered (driver : Driver) : Prop where
  runs : TurnRuns driver
  next : driver.executor.nextPid = (1 + driver.spawned) % 4294967296
  taken : ∀ pid, Mentions driver pid → pid ≤ driver.spawned

theorem mem_of_follows
    {reaps : Prop} {before after : KeyMap VPid Coroutine} {pid : VPid}
    (follows : Follows reaps (before.lookup pid) (after.lookup pid))
    (member : pid ∈ after) :
    pid ∈ before := by
  obtain ⟨co, found⟩ := mem_iff_lookup.mp member
  rw [found] at follows
  cases stored : before.lookup pid with
  | none =>
      rw [stored] at follows
      cases follows
  | some origin => exact mem_iff_lookup.mpr ⟨origin, stored⟩

theorem nextPid_ending
    {ex left : Executor} {op : DriverOp} {dead : Bool} {taken : Nat}
    (ending : Ending ex op left dead taken) :
    taken = 0 ∧ left.nextPid = ex.nextPid ∨
      taken = 1 ∧ left.nextPid = succU32 ex.nextPid := by
  have exited (start : Executor) (code : CInt) :
      (start.vprocExitWithCode code).nextPid = start.nextPid := by
    unfold Executor.vprocExitWithCode
    split <;> rfl
  cases ending with
  | yields =>
      refine Or.inl ⟨rfl, ?_⟩
      rw [Executor.doYield]
      rcases requeueLive_eq ex with same | ⟨_, _, pushed⟩
      · rw [same]
      · rw [pushed]
        rfl
  | waits fds timeoutMs now =>
      refine Or.inl ⟨rfl, ?_⟩
      unfold Executor.yieldForIo
      split <;> rfl
  | exits cause => exact Or.inl ⟨rfl, exited ex _⟩
  | raises fatal => exact Or.inl ⟨rfl, exited ex _⟩
  | panics missing => exact Or.inr ⟨rfl, exited ex.takePid _⟩
  | returns => exact Or.inl ⟨rfl, rfl⟩

theorem mem_queue_ending
    {ex left : Executor} {op : DriverOp} {dead : Bool} {taken : Nat}
    (ending : Ending ex op left dead taken) {pid : VPid}
    (member : pid ∈ left.readyQueue) :
    pid ∈ ex.readyQueue ∨ ex.current = some pid := by
  have exited (start : Executor) (code : CInt) :
      (start.vprocExitWithCode code).readyQueue = start.readyQueue := by
    unfold Executor.vprocExitWithCode
    split <;> rfl
  cases ending with
  | yields =>
      rw [Executor.doYield] at member
      rcases requeueLive_eq ex with same | ⟨running, current, pushed⟩
      · rw [same] at member
        exact Or.inl member
      · rw [pushed] at member
        rcases List.mem_append.mp member with before | last
        · exact Or.inl before
        · rw [List.mem_singleton.mp last]
          exact Or.inr current
  | waits fds timeoutMs now =>
      unfold Executor.yieldForIo at member
      split at member
      · exact Or.inl member
      · exact Or.inl member
  | exits cause => exact Or.inl (exited ex _ ▸ member)
  | raises fatal => exact Or.inl (exited ex _ ▸ member)
  | panics missing => exact Or.inl (exited ex.takePid _ ▸ member)
  | returns => exact Or.inl member

theorem mem_foldl_addReady
    {pids start : List VPid} {pid : VPid}
    (member : pid ∈ pids.foldl Executor.addReady start) :
    pid ∈ start ∨ pid ∈ pids := by
  induction pids generalizing start with
  | nil => exact Or.inl member
  | cons first rest induction =>
      rcases induction member with added | later
      · unfold Executor.addReady at added
        split at added
        · exact Or.inl added
        · rcases List.mem_append.mp added with before | pushed
          · exact Or.inl before
          · rw [List.mem_singleton.mp pushed]
            exact Or.inr List.mem_cons_self
      · exact Or.inr (List.mem_cons_of_mem _ later)

theorem mem_readyPids
    {ex : Executor} {polled : List (Bool × VPid)} {now : Nat} {pid : VPid}
    (member : pid ∈ ex.readyPids polled now) :
    pid ∈ polled.map Prod.snd ∨ pid ∈ ex.vprocs := by
  rcases mem_foldl_addReady member with byPoll | expired
  · rcases mem_foldl_addReady byPoll with impossible | ready
    · cases impossible
    · obtain ⟨entry, kept, rfl⟩ := List.mem_map.mp ready
      exact Or.inl (List.mem_map_of_mem (List.mem_filter.mp kept).1)
  · obtain ⟨entry, kept, rfl⟩ := List.mem_map.mp expired
    refine Or.inr (mem_iff_lookup.mpr ⟨entry.2, ?_⟩)
    exact mem_entries_iff.mp (List.mem_filter.mp kept).1

theorem mem_queue_wakeIoReady
    {ex : Executor} {polled : List (Bool × VPid)} {now : Nat} {pid : VPid}
    (member : pid ∈ (ex.wakeIoReady polled now).readyQueue) :
    pid ∈ ex.readyQueue ∨ pid ∈ ex.readyPids polled now := by
  revert member
  refine wakeIoReady_rec
    (motive := fun after => pid ∈ after.readyQueue →
      pid ∈ ex.readyQueue ∨ pid ∈ ex.readyPids polled now)
    ex polled now ?_ ?_
  · exact Or.inl
  · intro before known woken ready member
    simp only [wakeOne_eq] at member
    split at member
    · exact known member
    · rcases List.mem_append.mp member with queued | pushed
      · exact known queued
      · rw [List.mem_singleton.mp pushed]
        exact Or.inr ready

theorem mem_collectIoWaits
    {ex : Executor} {pid : VPid} (member : pid ∈ ex.collectIoWaits) :
    pid ∈ ex.vprocs := by
  obtain ⟨entry, stored, waits⟩ := List.mem_flatMap.mp member
  split at waits
  · obtain ⟨_, _, rfl⟩ := List.mem_map.mp waits
    exact mem_iff_lookup.mpr ⟨entry.2, mem_entries_iff.mp stored⟩
  · cases waits

section Numbers

variable {driver next : Driver} {op : DriverOp}

theorem spawned_of_spawns
    (change : Change driver op next) (isSpawn : spawns driver op = true) :
    next.spawned = driver.spawned + 1 := by
  obtain ⟨_, _, rfl⟩ := child_of_spawns change isSpawn
  rfl

theorem nextPid_change
    (change : Change driver op next)
    (numbered : driver.executor.nextPid =
      (1 + driver.spawned) % 4294967296) :
    next.executor.nextPid = (1 + next.spawned) % 4294967296 ∧
      driver.spawned ≤ next.spawned := by
  have counts :
      succU32 ((1 + driver.spawned) % 4294967296) =
        (1 + (driver.spawned + 1)) % 4294967296 := by
    rw [succU32]
    omega
  cases change with
  | spawned isSpawn child =>
      refine ⟨?_, Nat.le_succ _⟩
      refine (counters_spawned child).1.trans ?_
      rw [numbered]
      exact counts
  | idles idle begins nothing =>
      obtain ⟨rfl, _⟩ := pickNext_none nothing
      exact ⟨numbered, le_rfl⟩
  | resumes turn idle begins chosen isResumed =>
      exact
        ⟨(resumed_spec chosen isResumed).1.nextPid.trans numbered,
          le_rfl⟩
  | ends turn running ending =>
      refine ⟨?_, Nat.le_add_right _ _⟩
      rcases nextPid_ending ending with ⟨rfl, same⟩ | ⟨rfl, succ⟩
      · exact same.trans numbered
      · refine succ.trans ?_
        rw [numbered]
        exact counts
  | wakes revents now idle =>
      exact
        ⟨(sameBooks_wakeIoReady _ _ now).nextPid.trans numbered, le_rfl⟩
  | signals target sig isSignal => exact ⟨numbered, le_rfl⟩
  | forgets target => exact ⟨numbered, le_rfl⟩
  | collects => exact ⟨numbered, le_rfl⟩
  | reaps idle => exact ⟨numbered, le_rfl⟩
  | calls call => exact ⟨numbered, le_rfl⟩

theorem mem_queue_change
    (change : Change driver op next) (runs : TurnRuns driver)
    {pid : VPid} (member : pid ∈ next.executor.readyQueue) :
    Mentions driver pid ∨
      spawns driver op = true ∧ pid = driver.executor.nextPid := by
  cases change with
  | spawned isSpawn child =>
      rcases mem_queue_spawned child member with before | new
      · exact Or.inl (.queued before)
      · exact Or.inr ⟨isSpawn, new⟩
  | idles idle begins nothing =>
      obtain ⟨rfl, _⟩ := pickNext_none nothing
      cases member
  | resumes turn idle begins chosen isResumed =>
      obtain ⟨_, ⟨skipped, queue⟩, _⟩ := resumed_spec chosen isResumed
      refine Or.inl (.queued ?_)
      rw [queue]
      exact List.mem_append_right _ (List.mem_cons_of_mem _ member)
  | ends turn running ending =>
      rcases mem_queue_ending ending member with before | current
      · exact Or.inl (.queued before)
      · rw [runs turn running] at current
        exact Or.inl (.running turn running (Option.some.inj current))
  | wakes revents now idle =>
      rcases mem_queue_wakeIoReady member with before | ready
      · exact Or.inl (.queued before)
      · rcases mem_readyPids ready with polled | stored
        · obtain ⟨pair, zipped, rfl⟩ := List.mem_map.mp polled
          exact Or.inl (.polled (List.of_mem_zip zipped).2)
        · exact Or.inl (.coroutine stored)
  | signals target sig isSignal => exact Or.inl (.queued member)
  | forgets target => exact Or.inl (.queued member)
  | collects => exact Or.inl (.queued member)
  | reaps idle => exact Or.inl (.queued member)
  | calls call => exact Or.inl (.queued member)

theorem polled_change
    (change : Change driver op next) {pid : VPid}
    (member : pid ∈ next.polled) :
    Mentions driver pid := by
  cases change with
  | collects => exact .coroutine (mem_collectIoWaits member)
  | spawned isSpawn child => exact .polled member
  | idles idle begins nothing => exact .polled member
  | resumes turn idle begins chosen isResumed => exact .polled member
  | ends turn running ending => exact .polled member
  | wakes revents now idle => exact .polled member
  | signals target sig isSignal => exact .polled member
  | forgets target => exact .polled member
  | reaps idle => exact .polled member
  | calls call => exact .polled member

theorem current_wakeIoReady
    (ex : Executor) (polled : List (Bool × VPid)) (now : Nat) :
    (ex.wakeIoReady polled now).current = ex.current := by
  refine wakeIoReady_rec
    (motive := fun after => after.current = ex.current) ex polled now ?_ ?_
  · rfl
  · intro before same pid _
    rw [wakeOne_eq]
    exact same

theorem current_change
    (change : Change driver op next) {pid : VPid}
    (notPicked : picks driver op pid = false)
    (current : next.executor.current = some pid) :
    driver.executor.current = some pid := by
  cases change with
  | spawned isSpawn child =>
      exact (counters_spawned child).2.1.symm.trans current
  | idles idle begins nothing =>
      obtain ⟨rfl, _⟩ := pickNext_none nothing
      exact current
  | resumes turn idle begins chosen isResumed =>
      have same := (resumeBegin_spec isResumed).2.1.symm.trans current
      rw [picks, begins, chosen, same] at notPicked
      simp at notPicked
  | ends turn running ending => cases current
  | wakes revents now idle =>
      exact (current_wakeIoReady _ _ now).symm.trans current
  | signals target sig isSignal => exact current
  | forgets target => exact current
  | collects => exact current
  | reaps idle => exact current
  | calls call => exact current

/-- No step brings up a number but the one it gives to a new process. -/
theorem mentions_change
    (change : Change driver op next) (runs : TurnRuns driver)
    {pid : VPid} (mentions : Mentions next pid) :
    Mentions driver pid ∨
      spawns driver op = true ∧ pid = driver.executor.nextPid := by
  by_cases running :
      ∃ turn, driver.turn = some turn ∧ turn.pid = pid
  · obtain ⟨turn, isTurn, same⟩ := running
    exact Or.inl (.running turn isTurn same)
  by_cases picked : picks driver op pid = true
  · refine Or.inl (.queued ?_)
    simp only [picks, Bool.and_eq_true, decide_eq_true_eq] at picked
    exact (live_of_pickNext picked.2).1
  by_cases new : spawns driver op = true ∧ pid = driver.executor.nextPid
  · exact Or.inr new
  have notRunning : NotRunning driver pid :=
    fun turn isTurn same => running ⟨turn, isTurn, same⟩
  have notPicked : picks driver op pid = false :=
    Bool.eq_false_of_not_eq_true picked
  cases mentions with
  | coroutine member =>
      have follows :=
        follows_change change runs (fun _ => notRunning) notPicked
          fun isSpawn same => new ⟨isSpawn, same⟩
      exact Or.inl (.coroutine (mem_of_follows follows member))
  | queued member => exact mem_queue_change change runs member
  | exitCode member =>
      obtain ⟨code, stored⟩ := mem_iff_lookup.mp member
      rw [exitCode_change change runs fun _ => notRunning] at stored
      split at stored
      · cases stored
      · exact Or.inl (.exitCode (mem_iff_lookup.mpr ⟨code, stored⟩))
  | polled member => exact Or.inl (polled_change change member)
  | current same =>
      exact Or.inl (.current (current_change change notPicked same))
  | running turn isTurn same =>
      exact
        ((resumes_change change notPicked).1 notRunning turn isTurn
          same).elim

theorem numbered_change
    (change : Change driver op next) (numbered : Numbered driver) :
    Numbered next := by
  obtain ⟨nextPid, grows⟩ := nextPid_change change numbered.next
  refine ⟨turnRuns_change change numbered.runs, nextPid, ?_⟩
  intro pid mentions
  rcases mentions_change change numbered.runs mentions with
    before | ⟨isSpawn, rfl⟩
  · exact (numbered.taken pid before).trans grows
  · rw [spawned_of_spawns change isSpawn, numbered.next, Nat.add_comm]
    exact Nat.mod_le _ _

end Numbers

theorem numbered_new : Numbered Driver.new where
  runs := by
    intro turn impossible
    cases impossible
  next := rfl
  taken := by
    intro pid mentions
    cases mentions with
    | coroutine member => cases member
    | queued member => cases member
    | exitCode member => cases member
    | polled member => cases member
    | current impossible => cases impossible
    | running turn impossible same => cases impossible

theorem numbered_step
    (machine : Machine) (op : DriverOp) (next : Machine)
    (numbered : Numbered machine.driver)
    (stepped : machine.step op = some next) :
    Numbered next.driver :=
  numbered_change (change_of_machineStep stepped) numbered

theorem spawned_le_of_run
    {ops : List DriverOp} {machine final : Machine}
    (numbered : Numbered machine.driver)
    (reached : run Machine.step machine ops = some final) :
    machine.driver.spawned ≤ final.driver.spawned := by
  have invariant :
      Numbered final.driver ∧
        machine.driver.spawned ≤ final.driver.spawned :=
    @invariant_of_run Machine DriverOp Machine.step
      (fun state => Numbered state.driver ∧
        machine.driver.spawned ≤ state.driver.spawned)
      (by
        rintro state op next ⟨before, below⟩ stepped
        refine ⟨numbered_step state op next before stepped, ?_⟩
        have change := change_of_machineStep stepped
        exact below.trans (nextPid_change change before.next).2)
      ops machine final ⟨numbered, le_rfl⟩ reached
  exact invariant.2

/-- The next number is free if it does not exceed the last `u32`. -/
theorem freshPid_of_numbered
    {driver : Driver} (numbered : Numbered driver)
    (few : driver.spawned + 1 < 4294967296) :
    FreshPid driver.executor := by
  have free : ¬ Mentions driver driver.executor.nextPid := by
    intro mentions
    have taken := numbered.taken _ mentions
    rw [numbered.next, Nat.mod_eq_of_lt (by omega), Nat.add_comm]
      at taken
    exact Nat.lt_irrefl _ taken
  exact
    ⟨fun member => free (.coroutine member),
      fun member => free (.queued member)⟩

/-- Numbers which have been taken are not given back. -/
theorem few_before
    (machine : Machine) (op : DriverOp) (next : Machine)
    (numbered : Numbered machine.driver)
    (stepped : machine.step op = some next)
    (few : next.driver.spawned < 4294967296) :
    machine.driver.spawned < 4294967296 :=
  lt_of_le_of_lt
    (nextPid_change (change_of_machineStep stepped) numbered.next).2 few

/-- With fewer than `2 ^ 32` numbers taken, every spawn finds its number free. -/
theorem spawnsFresh_of_few
    {ops : List DriverOp} {machine final : Machine}
    (numbered : Numbered machine.driver)
    (reached : run Machine.step machine ops = some final)
    (few : final.driver.spawned < 4294967296) :
    Along Machine.step (fun state op _ => SpawnsFresh state op)
      machine ops := by
  refine along_of_bounded numbered_step few_before ?_ numbered reached few
  intro state op next numbered stepped few isSpawn
  have grows := spawned_of_spawns (change_of_machineStep stepped) isSpawn
  exact freshPid_of_numbered numbered (by omega)

theorem ne_nextPid_of_taken
    {driver next : Driver} {op : DriverOp}
    (change : Change driver op next) (numbered : Numbered driver)
    (few : next.spawned < 4294967296) {pid : VPid}
    (taken : pid ≤ driver.spawned) (isSpawn : spawns driver op = true) :
    pid ≠ driver.executor.nextPid := by
  have grows := spawned_of_spawns change isSpawn
  rw [numbered.next, Nat.mod_eq_of_lt (by omega)]
  rintro rfl
  rw [Nat.add_comm] at taken
  exact Nat.lt_irrefl _ taken

end Vproc.Sched.DriverSteps
