import Vproc.Ffi.Sessions
import Vproc.Fd.TableFrame
import Vproc.Sched.ExitDurability

/-!
# Sessions and the descriptor tables

The descriptor tables of all sessions stand in one map, under the process
number.  Every executor numbers its processes from 1, so the processes of two
sessions share their numbers and with them their tables.  A driver which shuts
down drops the whole map.

A step of one session leaves the tables of the other sessions' live processes
alone if the numbers it handles are not theirs.  Without that, the first
processes of two sessions already get into each other's way.
-/

namespace Vproc.Ffi.SessionIsolation

open Vproc.Lib.Run
open Vproc.Lib.FiniteMap
open Vproc.Fd.Table
open Vproc.Fd.KernelTable
open Vproc.Fd.Runtime
open Vproc.Fd.Effects
open Vproc.Fd.TableFrame
open Vproc.Sched.Scheduler
open Vproc.Sched.DriverLoop
open Vproc.Sched.DriverSteps
open Vproc.Sched.ExitDurability
open Vproc.Ffi.Sessions

/-- The process numbers whose tables a step of a driver handles. -/
def handles (driver : Driver) (pid : VPid) : DriverOp → Bool
  | .spawnForkChild _ => decide (pid = driver.executor.nextPid)
  | .virtualExecve => decide (pid = driver.executor.nextPid)
  | .createProcess _ _ _ => decide (pid = driver.executor.nextPid)
  | .sys _ => decide (driver.turn.map Turn.pid = some pid)
  | .reapDoneCoroutines => decide (pid ∈ driver.executor.donePids)
  | _ => false

/-! ## Steps of one driver -/

section Drivers

variable {world : World} {driver : Driver} {pid : VPid}

theorem getTable_installFds
    {fds : StdFds} {next : World}
    (installed : Driver.installFds world fds = some next) :
    next.getTable pid = world.getTable pid := by
  unfold Driver.installFds at installed
  dsimp only at installed
  split at installed
  · cases installed
  · cases installed
    apply getTable_congr
    rw [rawDup3_tables, rawDup3_tables, rawDup3_tables]

theorem getTable_installFds?
    {fds : Option StdFds} {next : World}
    (installed : Driver.installFds? world fds = some next) :
    next.getTable pid = world.getTable pid := by
  cases fds with
  | none =>
      cases installed
      rfl
  | some fds => exact getTable_installFds installed

theorem getTable_endTurn
    {ex : Executor} {dead : Bool} {next : World × Driver}
    (ended : Driver.endTurn world driver ex dead = some next) :
    next.1.getTable pid = world.getTable pid := by
  obtain ⟨turn, _, restored⟩ := Option.bind_eq_some_iff.mp ended
  obtain ⟨left, installed, rfl⟩ := Option.map_eq_some_iff.mp restored
  exact getTable_installFds? installed

theorem getTable_beginTurn
    {saved : Option StdFds} {next : World × Driver}
    (begun : Driver.beginTurn world driver saved = some next) :
    next.1.getTable pid = world.getTable pid := by
  unfold Driver.beginTurn at begun
  split at begun
  · cases begun
    rfl
  · obtain ⟨swapped, installed, entered⟩ :=
      Option.bind_eq_some_iff.mp begun
    obtain ⟨resumed, _, rfl⟩ := Option.map_eq_some_iff.mp entered
    exact getTable_installFds? installed

theorem getTable_forkStep
    {parent : VPid} {next : World × Driver}
    (different : pid ≠ driver.executor.nextPid)
    (stepped : Driver.forkStep world driver parent = some next) :
    next.1.getTable pid = world.getTable pid := by
  unfold Driver.forkStep at stepped
  split at stepped
  · rename_i ex child forked
    cases stepped
    obtain ⟨_, _, result⟩ := Option.map_eq_some_iff.mp forked
    cases result
    exact changesOnly_forkFdTable world _ parent pid different
  · obtain ⟨turn, _, rest⟩ := Option.bind_eq_some_iff.mp stepped
    split at rest
    · split at rest
      · exact getTable_endTurn rest
      · cases rest
    · cases rest

/-- The tables which a step does not handle. -/
theorem getTable_driverStep
    {op : DriverOp} {next : World × Driver}
    (spared : handles driver pid op = false)
    (stepped : Driver.step world driver op = some next) :
    next.1.getTable pid = world.getTable pid := by
  cases op with
  | spawn =>
      cases stepped
      rfl
  | spawnFront =>
      cases stepped
      rfl
  | spawnElf =>
      cases stepped
      rfl
  | spawnForkChild parent =>
      exact getTable_forkStep (of_decide_eq_false spared) stepped
  | virtualExecve =>
      cases stepped
      exact
        changesOnly_execTable world _ _ pid (of_decide_eq_false spared)
  | createProcess stdin stdout stderr =>
      have different := of_decide_eq_false spared
      obtain ⟨_, result⟩ := whenIdle_eq_some_iff.mp stepped
      cases result
      exact
        changesOnly_trans (changesOnly_execTable world _ _)
          (changesOnly_createTableWithFds _ _ stdin stdout stderr) pid
          different
  | stepFromDriver =>
      obtain ⟨_, begun⟩ := whenIdle_eq_some_iff.mp stepped
      exact getTable_beginTurn begun
  | stepFromDriverWithFdSwap saved =>
      obtain ⟨_, begun⟩ := whenIdle_eq_some_iff.mp stepped
      exact getTable_beginTurn begun
  | doYield => exact getTable_endTurn stepped
  | yieldForIo fds timeoutMs now => exact getTable_endTurn stepped
  | exit cause => exact getTable_endTurn stepped
  | raise sig =>
      obtain ⟨turn, _, raised⟩ := Option.bind_eq_some_iff.mp stepped
      unfold Driver.raiseStep at raised
      split at raised
      · exact getTable_endTurn raised
      · cases raised
        rfl
  | entryReturned => exact getTable_endTurn stepped
  | sys call =>
      obtain ⟨turn, running, called⟩ := Option.bind_eq_some_iff.mp stepped
      obtain ⟨after, isAfter, rfl⟩ := Option.map_eq_some_iff.mp called
      have different : pid ≠ turn.pid := by
        rintro rfl
        simp [handles, running] at spared
      obtain ⟨_, rfl⟩ := step_eq_some_iff.mp isAfter
      exact changesOnly_sys world turn.pid call pid different
  | kill target sig =>
      cases stepped
      rfl
  | removeExitCode target =>
      cases stepped
      rfl
  | collectIoWaits =>
      obtain ⟨_, result⟩ := whenIdle_eq_some_iff.mp stepped
      cases result
      rfl
  | wakeIoReady revents now =>
      obtain ⟨_, result⟩ := whenIdle_eq_some_iff.mp stepped
      cases result
      rfl
  | reapDoneCoroutines =>
      obtain ⟨_, result⟩ := whenIdle_eq_some_iff.mp stepped
      cases result
      exact getTable_reapTables _ world (of_decide_eq_false spared)

/-- The table of a live process which does not run stays as it is. -/
theorem getTable_kept
    {machine next : Machine} {op : DriverOp}
    (moved : machine.step op = some next)
    (notRunning : NotRunning machine.driver pid)
    (lives : Lives machine.driver.executor pid)
    (notSpawned : spawns machine.driver op = true →
      pid ≠ machine.driver.executor.nextPid) :
    next.world.getTable pid = machine.world.getTable pid := by
  obtain ⟨result, stepped, rfl⟩ := Option.map_eq_some_iff.mp moved
  cases handled : handles machine.driver pid op with
  | false => exact getTable_driverStep handled stepped
  | true =>
      cases op with
      | spawnForkChild parent =>
          have number := of_decide_eq_true handled
          have missing : ¬ spawns machine.driver (.spawnForkChild parent) =
              true :=
            fun isSpawn => notSpawned isSpawn number
          have absent : machine.driver.executor.vprocs.lookup parent =
              none := by
            simpa [spawns, mem_iff_lookup, Option.eq_none_iff_forall_not_mem]
              using missing
          simp only [Driver.step, Driver.forkStep,
            Executor.spawnForkChild, absent, Option.map_none] at stepped
          obtain ⟨turn, _, rest⟩ := Option.bind_eq_some_iff.mp stepped
          split at rest
          · split at rest
            · exact getTable_endTurn rest
            · cases rest
          · cases rest
      | virtualExecve =>
          exact (notSpawned rfl (of_decide_eq_true handled)).elim
      | createProcess stdin stdout stderr =>
          exact (notSpawned rfl (of_decide_eq_true handled)).elim
      | sys call =>
          obtain ⟨turn, isTurn, same⟩ :=
            Option.map_eq_some_iff.mp (of_decide_eq_true handled)
          exact (notRunning turn isTurn same).elim
      | reapDoneCoroutines =>
          obtain ⟨co, found, live⟩ := lives
          obtain ⟨other, isOther, done⟩ :=
            done_of_mem_donePids (of_decide_eq_true handled)
          cases found.symm.trans isOther
          rw [live] at done
          cases done
      | _ => cases handled

end Drivers

/-! ## Steps of the system -/

/-- The session whose step it is. -/
def owner (system : System) : SystemOp → SessionId
  | .createSession => system.nextSessionId
  | .destroySession id => id
  | .createProcess id _ => id
  | .drainRequest id _ => id
  | .drive id _ => id
  | .shutDown id => id

/-- The process is a live one of the session. -/
def LiveIn (system : System) (id : SessionId) (pid : VPid) : Prop :=
  ∃ session co, system.sessions.lookup id = some session ∧
    session.driver.executor.vprocs.lookup pid = some co ∧
    co.isDone = false

/-- The step may touch the table under a process number. -/
def Touches (system : System) (pid : VPid) : SystemOp → Prop
  | .drainRequest id loaded =>
      loaded = true ∧
        ∃ session, system.sessions.lookup id = some session ∧
          pid = session.driver.executor.nextPid
  | .drive id op =>
      ∃ session, system.sessions.lookup id = some session ∧
        handles session.driver pid op = true
  | .shutDown _ => system.world.getTable pid ≠ none
  | _ => False

/-- The step keeps the tables of the other sessions' live processes. -/
def Isolated (system : System) (op : SystemOp) (next : System) : Prop :=
  ∀ id pid, id ≠ owner system op → LiveIn system id pid →
    next.world.getTable pid = system.world.getTable pid

/-- The step handles no number of another session's live process. -/
def Apart (system : System) (op : SystemOp) : Prop :=
  ∀ id pid, id ≠ owner system op → LiveIn system id pid →
    ¬ Touches system pid op

theorem getTable_drive
    {system next : System} {id : SessionId} {session : Session}
    {op : DriverOp} {pid : VPid}
    (spared : handles session.driver pid op = false)
    (stepped : system.drive id session op = some next) :
    next.world.getTable pid = system.world.getTable pid := by
  obtain ⟨result, isResult, rfl⟩ := Option.map_eq_some_iff.mp stepped
  exact getTable_driverStep spared isResult

theorem getTable_drainRequest
    {system next : System} {id : SessionId} {session : Session}
    {loaded : Bool} {pid : VPid}
    (spared : loaded = true → pid ≠ session.driver.executor.nextPid)
    (stepped : system.drainRequest id session loaded = some next) :
    next.world.getTable pid = system.world.getTable pid := by
  unfold System.drainRequest at stepped
  split at stepped
  · dsimp only at stepped
    split at stepped
    · rename_i isLoaded
      refine getTable_drive ?_ stepped
      exact decide_eq_false (spared isLoaded)
    · cases stepped
      rfl
  · cases stepped

theorem getTable_cleanup (world : World) (pid : VPid) :
    world.cleanup.getTable pid = none :=
  rfl

theorem getTable_shutDown
    {system next : System} {id : SessionId} {session : Session}
    {pid : VPid} (missing : system.world.getTable pid = none)
    (stepped : system.shutDown id session = some next) :
    next.world.getTable pid = system.world.getTable pid := by
  unfold System.shutDown at stepped
  split at stepped
  · cases stepped
    rw [missing]
    exact getTable_cleanup _ pid
  · cases stepped

/-- A table which the step does not touch. -/
theorem getTable_systemStep
    {system next : System} {op : SystemOp} {pid : VPid}
    (spared : ¬ Touches system pid op)
    (stepped : system.step op = some next) :
    next.world.getTable pid = system.world.getTable pid := by
  cases op with
  | createSession =>
      cases stepped
      rfl
  | destroySession id =>
      cases stepped
      unfold System.destroySession
      split
      · rfl
      · rfl
  | createProcess id fds =>
      cases stepped
      unfold System.createProcess
      split
      · rfl
      · split
        · rfl
        · rfl
  | drainRequest id loaded =>
      obtain ⟨session, found, drained⟩ :=
        Option.bind_eq_some_iff.mp stepped
      refine getTable_drainRequest ?_ drained
      intro isLoaded same
      exact spared ⟨isLoaded, session, found, same⟩
  | drive id op =>
      unfold System.step at stepped
      dsimp only at stepped
      split at stepped
      · cases stepped
      · obtain ⟨session, found, driven⟩ :=
          Option.bind_eq_some_iff.mp stepped
        refine getTable_drive ?_ driven
        apply Bool.eq_false_of_not_eq_true
        intro isHandled
        exact spared ⟨session, found, isHandled⟩
  | shutDown id =>
      obtain ⟨session, found, stopped⟩ :=
        Option.bind_eq_some_iff.mp stepped
      exact getTable_shutDown (not_not.mp spared) stopped

theorem isolated_of_apart
    {system next : System} {op : SystemOp} (apart : Apart system op)
    (stepped : system.step op = some next) :
    Isolated system op next :=
  fun id pid other live =>
    getTable_systemStep (apart id pid other live) stepped

/--
In a run whose steps handle no number of another session's live process, no
step changes the table of another session's live process.
-/
theorem sessions_isolated
    (world : World) (ops : List SystemOp)
    (apart : Along System.step (fun system op _ => Apart system op)
      (System.init world) ops) :
    Along System.step Isolated (System.init world) ops :=
  @along_mono System SystemOp System.step
    (fun system op _ => Apart system op) Isolated (fun _ => True)
    (fun _ _ _ _ _ _ => trivial)
    (fun _ _ _ _ stepped apart => isolated_of_apart apart stepped)
    ops (System.init world) trivial apart

/-- One session serves a request while the other one has no process. -/
theorem sessions_isolated_one_at_a_time :
    Along System.step Isolated (System.init (World.init Kernel.standard))
      [.createSession, .createSession, .createProcess 1 (0, 1, 2),
        .drainRequest 1 true, .drive 2 .spawn] := by
  apply sessions_isolated
  rintro _ ⟨⟩
  refine ⟨fun _ _ _ _ touched => touched, ?_⟩
  rintro _ ⟨⟩
  refine ⟨fun _ _ _ _ touched => touched, ?_⟩
  rintro _ ⟨⟩
  refine ⟨fun _ _ _ _ touched => touched, ?_⟩
  intro served isServed
  refine ⟨?_, ?_⟩
  · rintro id pid other ⟨session, co, found, live, _⟩ _
    have second : id ≠ 1 := other
    have explicit :
        (((AList.insert 1 Session.new (∅ : KeyMap SessionId Session)).insert
            2 Session.new).insert 1
              { Session.new with spawnQueue := [(0, 1, 2)] }).lookup id =
          some session :=
      found
    rw [lookup_insert_eq, if_neg second, lookup_insert_eq] at explicit
    split at explicit
    · cases explicit
      cases live
    · rw [lookup_insert_eq, if_neg second] at explicit
      cases explicit
  · intro spawned _
    refine ⟨?_, trivial⟩
    rintro id pid other live ⟨session, found, handled⟩
    cases handled

/-- The first processes of two sessions get the same table. -/
theorem sessions_share_tables :
    ¬ ∀ (world : World) (ops : List SystemOp),
      Along System.step Isolated (System.init world) ops := by
  intro claimed
  have both :
      (run System.step (System.init (World.init Kernel.standard))
          [.createSession, .createSession, .createProcess 1 (5, 5, 5),
            .drainRequest 1 true, .createProcess 2 (7, 7, 7)]).any
        (fun system =>
          ((system.sessions.lookup 1).bind fun session =>
              session.driver.executor.vprocs.lookup 1).any
              (fun co => !co.isDone) &&
            decide (system.world.entry 1 0 = some (.real 5)) &&
            (system.step (.drainRequest 2 true)).any fun next =>
              decide (next.world.entry 1 0 = some (.real 7))) =
      true := by
    decide
  obtain ⟨system, reached, holds⟩ := Option.any_eq_true _ _ |>.mp both
  obtain ⟨before, replaced⟩ := Bool.and_eq_true_iff.mp holds
  obtain ⟨isLive, five⟩ := Bool.and_eq_true_iff.mp before
  obtain ⟨co, found, notDone⟩ := Option.any_eq_true _ _ |>.mp isLive
  obtain ⟨session, isSession, stored⟩ :=
    Option.bind_eq_some_iff.mp found
  obtain ⟨next, stepped, seven⟩ := Option.any_eq_true _ _ |>.mp replaced
  have along :=
    claimed (World.init Kernel.standard)
      ([.createSession, .createSession, .createProcess 1 (5, 5, 5),
          .drainRequest 1 true, .createProcess 2 (7, 7, 7)] ++
        [.drainRequest 2 true])
  have last := along_append along reached
  have isolated := (last next stepped).1
  have same :=
    isolated 1 1 (show 1 ≠ 2 by decide)
      ⟨session, co, isSession, stored, by simpa using notDone⟩
  have entries : next.world.entry 1 0 = system.world.entry 1 0 := by
    rw [World.entry, World.entry, same]
  rw [of_decide_eq_true five, of_decide_eq_true seven] at entries
  cases entries

end Vproc.Ffi.SessionIsolation
