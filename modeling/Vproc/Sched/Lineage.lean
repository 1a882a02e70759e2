import Vproc.Sched.ExitDurability

/-!
# Where a coroutine comes from

A coroutine keeps its parent, its working directory and its mark of a fork
child through all steps of the driver; only the calls of the coroutine itself
change the last two.  So what stands there at some point is what it was
spawned with, and a step shows whether it spawned the coroutine or found it.
-/

namespace Vproc.Sched.Lineage

open Vproc.Lib.Run
open Vproc.Lib.FiniteMap
open Vproc.Fd.Table
open Vproc.Fd.Runtime
open Vproc.Sched.Scheduler
open Vproc.Sched.DriverLoop
open Vproc.Sched.DriverSteps
open Vproc.Sched.ExitDurability

/-- The fields which a step of the driver leaves alone. -/
structure SameOrigin (before after : Coroutine) : Prop where
  id : after.id = before.id
  ppid : after.ppid = before.ppid
  cwd : after.cwd = before.cwd
  isForkChild : after.isForkChild = before.isForkChild

/-- Nothing is changed but what scheduling a coroutine changes. -/
structure SameRecord (before after : Coroutine) : Prop
    extends SameOrigin before after where
  forkChildPid : after.forkChildPid = before.forkChildPid

/-- A change of coroutines which leaves these fields alone. -/
def KeepsRecord (change : Coroutine → Coroutine) : Prop :=
  ∀ co, SameRecord co (change co)

theorem sameOrigin_refl (co : Coroutine) : SameOrigin co co :=
  ⟨rfl, rfl, rfl, rfl⟩

theorem sameRecord_refl (co : Coroutine) : SameRecord co co :=
  ⟨sameOrigin_refl co, rfl⟩

theorem sameRecord_trans
    {first second third : Coroutine}
    (one : SameRecord first second) (two : SameRecord second third) :
    SameRecord first third where
  id := two.id.trans one.id
  ppid := two.ppid.trans one.ppid
  cwd := two.cwd.trans one.cwd
  isForkChild := two.isForkChild.trans one.isForkChild
  forkChildPid := two.forkChildPid.trans one.forkChildPid

/-- The process was there before, with the same origin. -/
def Continues (ex next : Executor) (pid : VPid) : Prop :=
  ∀ co, next.vprocs.lookup pid = some co →
    ∃ before, ex.vprocs.lookup pid = some before ∧ SameOrigin before co

/-- The process was there before, with the same record. -/
def Stays (ex next : Executor) (pid : VPid) : Prop :=
  ∀ co, next.vprocs.lookup pid = some co →
    ∃ before, ex.vprocs.lookup pid = some before ∧ SameRecord before co

theorem continues_of_stays
    {ex next : Executor} {pid : VPid} (stays : Stays ex next pid) :
    Continues ex next pid := by
  intro co found
  obtain ⟨before, isBefore, same⟩ := stays co found
  exact ⟨before, isBefore, same.toSameOrigin⟩

theorem stays_refl (ex : Executor) (pid : VPid) : Stays ex ex pid :=
  fun co found => ⟨co, found, sameRecord_refl co⟩

theorem stays_of_lookup
    {ex next : Executor} {pid : VPid}
    (same : next.vprocs.lookup pid = ex.vprocs.lookup pid) :
    Stays ex next pid :=
  fun co found => ⟨co, same ▸ found, sameRecord_refl co⟩

theorem stays_trans
    {first second third : Executor} {pid : VPid}
    (one : Stays first second pid) (two : Stays second third pid) :
    Stays first third pid := by
  intro co found
  obtain ⟨middle, isMiddle, sameMiddle⟩ := two co found
  obtain ⟨before, isBefore, sameBefore⟩ := one middle isMiddle
  exact ⟨before, isBefore, sameRecord_trans sameBefore sameMiddle⟩

/-- A change of one coroutine in place. -/
theorem stays_of_map
    {ex next : Executor} {target pid : VPid}
    {change : Coroutine → Coroutine}
    (lookup : next.vprocs.lookup pid =
      if pid = target then (ex.vprocs.lookup pid).map change
      else ex.vprocs.lookup pid)
    (keeps : KeepsRecord change) :
    Stays ex next pid := by
  intro co found
  rw [lookup] at found
  split at found
  · obtain ⟨before, isBefore, rfl⟩ := Option.map_eq_some_iff.mp found
    exact ⟨before, isBefore, keeps before⟩
  · exact ⟨co, found, sameRecord_refl co⟩

theorem stays_update
    (ex : Executor) {change : Coroutine → Coroutine}
    (target pid : VPid) (keeps : KeepsRecord change) :
    Stays ex (ex.update target change) pid :=
  stays_of_map (lookup_update ex target pid change) keeps

theorem keepsRecord_settled (dead : Bool) :
    KeepsRecord (settled dead) := by
  intro co
  unfold settled
  split
  · exact sameRecord_refl co
  · exact ⟨⟨rfl, rfl, rfl, rfl⟩, rfl⟩

/-! ## The steps -/

theorem stays_deliverSignals (ex : Executor) (target pid : VPid) :
    Stays ex (ex.deliverSignals target).1 pid := by
  unfold Executor.deliverSignals
  split
  · exact stays_refl ex pid
  · split
    · exact stays_refl ex pid
    · split
      · refine stays_update ex target pid ?_
        exact fun _ => ⟨⟨rfl, rfl, rfl, rfl⟩, rfl⟩
      · refine stays_update ex target pid ?_
        exact fun _ => ⟨⟨rfl, rfl, rfl, rfl⟩, rfl⟩

theorem stays_resumed
    {ex picked resumed : Executor} {target : VPid}
    (chosen : ex.pickNext = (picked, some target))
    (isResumed : (picked.deliverSignals target).1.resumeBegin target =
      some resumed)
    (pid : VPid) :
    Stays ex resumed pid := by
  obtain ⟨_, rest, _, _, _, rfl, _, _⟩ := pickNext_some chosen
  have delivered :=
    stays_deliverSignals { ex with readyQueue := rest } target pid
  refine stays_trans delivered ?_
  refine stays_of_map ((resumeBegin_spec isResumed).2.2 pid) ?_
  exact fun _ => ⟨⟨rfl, rfl, rfl, rfl⟩, rfl⟩

theorem stays_ending
    {ex left : Executor} {op : DriverOp} {dead : Bool} {taken : Nat}
    (ending : Ending ex op left dead taken) (target pid : VPid) :
    Stays ex (left.resumeEnd target dead) pid := by
  have exited (start : Executor) (code : CInt)
      (vprocs : start.vprocs = ex.vprocs) :
      Stays ex (start.vprocExitWithCode code) pid := by
    unfold Executor.vprocExitWithCode
    split
    · exact stays_of_lookup (by rw [vprocs])
    · have changed := lookup_update start
      rw [vprocs] at changed
      refine stays_of_map (changed _ pid _) ?_
      exact fun _ => ⟨⟨rfl, rfl, rfl, rfl⟩, rfl⟩
  have left : Stays ex left pid := by
    cases ending with
    | yields =>
        rw [Executor.doYield]
        rcases requeueLive_eq ex with same | ⟨_, _, pushed⟩
        · rw [same]
          exact stays_refl ex pid
        · rw [pushed]
          exact stays_of_lookup rfl
    | waits fds timeoutMs now =>
        unfold Executor.yieldForIo
        split
        · exact stays_refl ex pid
        · refine stays_update ex _ pid ?_
          intro co
          dsimp only
          split
          · exact sameRecord_refl co
          · exact ⟨⟨rfl, rfl, rfl, rfl⟩, rfl⟩
    | exits cause => exact exited ex _ rfl
    | raises fatal => exact exited ex _ rfl
    | panics missing => exact exited ex.takePid _ rfl
    | returns => exact stays_refl ex pid
  refine stays_trans left ?_
  exact
    stays_of_map (lookup_resumeEnd _ target dead pid)
      (keepsRecord_settled dead)

theorem stays_wakeIoReady
    (ex : Executor) (polled : List (Bool × VPid)) (now : Nat)
    (pid : VPid) :
    Stays ex (ex.wakeIoReady polled now) pid := by
  refine
    @wakeIoReady_rec (fun next => Stays ex next pid) ex polled now ?_ ?_
  · exact stays_refl ex pid
  · intro before stays woken _
    rw [wakeOne_eq]
    refine stays_trans stays ?_
    refine stays_update before woken pid ?_
    exact fun _ => ⟨⟨rfl, rfl, rfl, rfl⟩, rfl⟩

theorem stays_reapDone (ex : Executor) (pid : VPid) :
    Stays ex ex.reapDone pid :=
  fun co found =>
    ⟨co, (lookup_retain_iff.mp found).1, sameRecord_refl co⟩

section Changes

variable {driver next : Driver} {op : DriverOp} {pid : VPid}

/-- A step which does not spawn leaves the records. -/
theorem stays_change
    (change : Change driver op next)
    (notSpawn : spawns driver op = false) :
    Stays driver.executor next.executor pid := by
  cases change with
  | spawned isSpawn child =>
      rw [isSpawn] at notSpawn
      cases notSpawn
  | idles idle begins nothing =>
      obtain ⟨rfl, _⟩ := pickNext_none nothing
      exact stays_refl _ pid
  | resumes turn idle begins chosen isResumed =>
      exact stays_resumed chosen isResumed pid
  | ends turn running ending => exact stays_ending ending _ pid
  | signals target sig isSignal =>
      refine stays_update _ target pid ?_
      exact fun _ => ⟨⟨rfl, rfl, rfl, rfl⟩, rfl⟩
  | forgets target => exact stays_of_lookup rfl
  | collects => exact stays_refl _ pid
  | wakes revents now idle => exact stays_wakeIoReady _ _ now pid
  | reaps idle => exact stays_reapDone _ pid
  | calls call => exact stays_refl _ pid

/-- A step which does not spawn the process has found it there. -/
theorem continues_change
    (change : Change driver op next)
    (notSpawned : spawns driver op = true →
      pid ≠ driver.executor.nextPid) :
    Continues driver.executor next.executor pid := by
  cases isSpawn : spawns driver op with
  | false => exact continues_of_stays (stays_change change isSpawn)
  | true =>
      have other := notSpawned isSpawn
      have inserted (co : Coroutine) (after : Executor)
          (vprocs : after.vprocs =
            driver.executor.vprocs.insert driver.executor.nextPid co) :
          Stays driver.executor after pid := by
        apply stays_of_lookup
        rw [vprocs, lookup_insert_eq, if_neg other]
      obtain ⟨_, child, rfl⟩ := child_of_spawns change isSpawn
      cases child with
      | back => exact continues_of_stays (inserted _ _ rfl)
      | front => exact continues_of_stays (inserted _ _ rfl)
      | elf => exact continues_of_stays (inserted _ _ rfl)
      | @fork parent _ _ forked =>
          obtain ⟨origin, _, result⟩ := Option.map_eq_some_iff.mp forked
          cases result
          intro co found
          obtain ⟨middle, isMiddle, sameMiddle⟩ :
              ∃ middle,
                (driver.executor.insertCoroutine driver.executor.nextPid
                    (Coroutine.forkFrom driver.executor.nextPid
                      origin)).vprocs.lookup pid = some middle ∧
                  SameOrigin middle co := by
            have changed :=
              (lookup_update
                (driver.executor.insertCoroutine driver.executor.nextPid
                  (Coroutine.forkFrom driver.executor.nextPid origin))
                parent pid
                (fun co =>
                  { co with
                    forkChildPid := driver.executor.nextPid })).symm.trans
                found
            split at changed
            · obtain ⟨middle, isMiddle, rfl⟩ :=
                Option.map_eq_some_iff.mp changed
              exact ⟨middle, isMiddle, ⟨rfl, rfl, rfl, rfl⟩⟩
            · exact ⟨co, changed, sameOrigin_refl co⟩
          obtain ⟨before, isBefore, same⟩ :=
            inserted _ _ rfl middle isMiddle
          refine ⟨before, isBefore, ?_⟩
          exact
            ⟨sameMiddle.id.trans same.id, sameMiddle.ppid.trans same.ppid,
              sameMiddle.cwd.trans same.cwd,
              sameMiddle.isForkChild.trans same.isForkChild⟩

end Changes

/-! ## New processes -/

/-- What a step spawns: a process without a parent, or a copy of one. -/
inductive Newborn (driver : Driver) (op : DriverOp) (co : Coroutine) :
    Prop where
  | fresh (notFork : ∀ parent, op ≠ .spawnForkChild parent)
      (ppid : co.ppid = 0) (cwd : co.cwd = none)
      (mark : co.isForkChild = false)
  | forked (parent : VPid) (origin : Coroutine)
      (isFork : op = .spawnForkChild parent)
      (found : driver.executor.vprocs.lookup parent = some origin)
      (ppid : co.ppid = origin.id) (cwd : co.cwd = origin.cwd)
      (mark : co.isForkChild = true)

theorem spawnForkChild_eq
    {ex : Executor} {parent : VPid} {origin : Coroutine}
    (found : ex.vprocs.lookup parent = some origin) :
    ex.spawnForkChild parent =
      some
        ((((ex.takePid.insertCoroutine ex.nextPid
                  (Coroutine.forkFrom ex.nextPid origin)).pushBack
                ex.nextPid).addChild parent ex.nextPid).update parent
            fun co => { co with forkChildPid := ex.nextPid },
          ex.nextPid) := by
  simp only [Executor.spawnForkChild, found, Option.map_some]

/-- The process which a fork adds. -/
theorem lookup_forked
    {ex next : Executor} {parent child : VPid} {origin : Coroutine}
    (found : ex.vprocs.lookup parent = some origin)
    (forked : ex.spawnForkChild parent = some (next, child)) :
    child = ex.nextPid ∧
      ∃ co, next.vprocs.lookup child = some co ∧ co.id = child ∧
        co.ppid = origin.id ∧ co.cwd = origin.cwd ∧
        co.isForkChild = true := by
  rw [spawnForkChild_eq found] at forked
  cases forked
  refine ⟨rfl, ?_⟩
  have stored :
      (ex.vprocs.insert ex.nextPid
          (Coroutine.forkFrom ex.nextPid origin)).lookup ex.nextPid =
        some (Coroutine.forkFrom ex.nextPid origin) :=
    (lookup_insert_eq _ _ _ _).trans (if_pos rfl)
  rw [lookup_update]
  split
  · exact ⟨_, congrArg _ stored, rfl, rfl, rfl, rfl⟩
  · exact ⟨_, stored, rfl, rfl, rfl, rfl⟩

/-- What a step spawns, and what it does to the processes. -/
theorem spawn_cases
    {machine next : Machine} {op : DriverOp}
    (stepped : machine.step op = some next)
    (isSpawn : spawns machine.driver op = true) :
    (∃ new : Coroutine,
        (∀ parent, op ≠ .spawnForkChild parent) ∧
        new.id = machine.driver.executor.nextPid ∧ new.ppid = 0 ∧
        new.cwd = none ∧ new.isForkChild = false ∧
        next.driver.executor.vprocs =
          machine.driver.executor.vprocs.insert
            machine.driver.executor.nextPid new ∧
        next.driver.executor.children =
          machine.driver.executor.children) ∨
      ∃ parent origin forked, op = .spawnForkChild parent ∧
        machine.driver.executor.vprocs.lookup parent = some origin ∧
        machine.driver.executor.spawnForkChild parent =
          some (forked, machine.driver.executor.nextPid) ∧
        next =
          { world :=
              machine.world.forkFdTable parent
                machine.driver.executor.nextPid
            driver := machine.driver.withSpawned forked } := by
  cases op with
  | spawn =>
      cases stepped
      exact
        Or.inl ⟨Coroutine.new _, nofun, rfl, rfl, rfl, rfl, rfl, rfl⟩
  | spawnFront =>
      cases stepped
      exact
        Or.inl ⟨Coroutine.new _, nofun, rfl, rfl, rfl, rfl, rfl, rfl⟩
  | spawnElf =>
      cases stepped
      exact
        Or.inl ⟨Coroutine.newElf _, nofun, rfl, rfl, rfl, rfl, rfl, rfl⟩
  | virtualExecve =>
      cases stepped
      exact
        Or.inl ⟨Coroutine.newElf _, nofun, rfl, rfl, rfl, rfl, rfl, rfl⟩
  | createProcess stdin stdout stderr =>
      obtain ⟨result, isResult, rfl⟩ := Option.map_eq_some_iff.mp stepped
      obtain ⟨_, same⟩ := whenIdle_eq_some_iff.mp isResult
      cases same
      exact
        Or.inl ⟨Coroutine.newElf _, nofun, rfl, rfl, rfl, rfl, rfl, rfl⟩
  | spawnForkChild parent =>
      obtain ⟨origin, found⟩ :=
        mem_iff_lookup.mp (of_decide_eq_true isSpawn)
      obtain ⟨result, isResult, rfl⟩ := Option.map_eq_some_iff.mp stepped
      have forked := spawnForkChild_eq found
      simp only [Driver.step, Driver.forkStep, forked] at isResult
      cases isResult
      exact Or.inr ⟨parent, origin, _, rfl, found, forked, rfl⟩
  | _ => cases isSpawn

theorem newborn_step
    {machine next : Machine} {op : DriverOp}
    (stepped : machine.step op = some next)
    (isSpawn : spawns machine.driver op = true) :
    ∃ co,
      next.driver.executor.vprocs.lookup
          machine.driver.executor.nextPid = some co ∧
        co.id = machine.driver.executor.nextPid ∧
        Newborn machine.driver op co := by
  rcases spawn_cases stepped isSpawn with
    ⟨new, notFork, id, ppid, cwd, mark, vprocs, _⟩ |
      ⟨parent, origin, forked, rfl, found, isForked, rfl⟩
  · refine ⟨new, ?_, id, .fresh notFork ppid cwd mark⟩
    rw [vprocs]
    exact (lookup_insert_eq _ _ _ _).trans (if_pos rfl)
  · obtain ⟨_, co, stored, id, ppid, cwd, mark⟩ :=
      lookup_forked found isForked
    exact ⟨co, stored, id, .forked parent origin rfl found ppid cwd mark⟩

/-- A step leaves the record of a process which it does not spawn or fork. -/
theorem stays_step
    {machine next : Machine} {op : DriverOp} {pid : VPid}
    (stepped : machine.step op = some next)
    (notSpawned : spawns machine.driver op = true →
      pid ≠ machine.driver.executor.nextPid)
    (notForked : op ≠ .spawnForkChild pid) :
    Stays machine.driver.executor next.driver.executor pid := by
  cases isSpawn : spawns machine.driver op with
  | false => exact stays_change (change_of_machineStep stepped) isSpawn
  | true =>
      have other := notSpawned isSpawn
      apply stays_of_lookup
      rcases spawn_cases stepped isSpawn with
        ⟨new, _, _, _, _, _, vprocs, _⟩ |
          ⟨parent, origin, forked, rfl, found, isForked, rfl⟩
      · rw [vprocs, lookup_insert_eq, if_neg other]
      · have different : pid ≠ parent := by
          rintro rfl
          exact notForked rfl
        rw [spawnForkChild_eq found] at isForked
        cases isForked
        refine (lookup_update _ parent pid _).trans ?_
        rw [if_neg different]
        exact (lookup_insert_eq _ _ _ _).trans (if_neg other)

/-! ## The running process -/

/-- The process whose turn it is is there and not done. -/
def RunsLive (driver : Driver) : Prop :=
  ∀ turn, driver.turn = some turn → Lives driver.executor turn.pid

theorem runsLive_change
    {driver next : Driver} {op : DriverOp}
    (change : Change driver op next) (holds : RunsLive driver) :
    RunsLive next := by
  intro turn isTurn
  cases change with
  | spawned isSpawn child =>
      by_cases new : turn.pid = driver.executor.nextPid
      · rw [new]
        exact lives_spawned child
      · have follows := @follows_spawned True _ _ child _ new
        exact lives_of_follows follows (holds turn isTurn)
  | idles idle begins nothing =>
      rw [Driver.withExecutor, idle] at isTurn
      cases isTurn
  | resumes started idle begins chosen isResumed =>
      cases isTurn
      obtain ⟨_, _, co, _, _, rfl, found, _⟩ := pickNext_some chosen
      obtain ⟨_, _, delivered, _⟩ := deliverSignals_spec _ turn.pid
      unfold Lives
      dsimp only
      rw [(resumeBegin_spec isResumed).2.2, if_pos rfl, delivered,
        if_pos rfl, found]
      exact ⟨_, rfl, rfl⟩
  | ends ended running ending => cases isTurn
  | signals target sig isSignal =>
      refine @lives_of_follows True _ _ _ ?_ (holds turn isTurn)
      exact
        follows_modify _ target turn.pid
          fun co => ⟨rfl, rfl, List.prefix_append _ [sig]⟩
  | wakes revents now idle =>
      rw [Driver.withExecutor, idle] at isTurn
      cases isTurn
  | reaps idle =>
      rw [Driver.withExecutor, idle] at isTurn
      cases isTurn
  | forgets target => exact holds turn isTurn
  | collects => exact holds turn isTurn
  | calls call => exact holds turn isTurn

theorem runsLive_new : RunsLive Driver.new :=
  nofun

end Vproc.Sched.Lineage
