import Vproc.Ffi.SessionIsolation
import Vproc.Ffi.VirtualFork
import Vproc.Sched.RoundRobin

/-!
# Fork returns twice

A call of `vproc_ffi_fork` goes through four stages: the helper has not run
yet; the child is there and the caller has not returned; the caller has
returned; the child has returned too.  The queue puts them in this order.  The
helper stands before the caller from the start, and the child is put behind
the caller.

In each stage only the coroutines of the call stand in it, so another call,
also one of the child, cannot be mistaken for it.  That needs process numbers
which are not given twice.
-/

namespace Vproc.Ffi.ForkReturns

open Vproc.Lib.Run
open Vproc.Lib.FiniteMap
open Vproc.Fd.Table
open Vproc.Fd.KernelTable
open Vproc.Fd.Runtime
open Vproc.Fd.Effects
open Vproc.Sched.Scheduler
open Vproc.Sched.DriverLoop
open Vproc.Sched.DriverSteps
open Vproc.Sched.ExitDurability
open Vproc.Sched.ReadyQueue
open Vproc.Sched.RoundRobin
open Vproc.Sched.Lineage
open Vproc.Sched.WorkingDir
open Vproc.Ffi.SessionIsolation
open Vproc.Ffi.VirtualFork

/-! ## Children -/

/-- The children which the executor lists for a process. -/
def kidsOf (ex : Executor) (pid : VPid) : List VPid :=
  (ex.children.lookup pid).getD []

section Kids

variable {ex : Executor}

theorem kidsOf_forked
    {next : Executor} {parent child : VPid}
    (forked : ex.spawnForkChild parent = some (next, child)) (pid : VPid) :
    kidsOf next pid =
      if pid = parent then kidsOf ex pid ++ [child] else kidsOf ex pid := by
  obtain ⟨origin, _, result⟩ := Option.map_eq_some_iff.mp forked
  cases result
  simp only [kidsOf, Executor.update, Executor.addChild,
    Executor.pushBack, Executor.insertCoroutine, Executor.takePid,
    lookup_insert_eq]
  split
  · rename_i same
    rw [same]
    rfl
  · rfl

theorem lookup_foldl_erase
    (pids : List VPid) (kids : KeyMap VPid (List VPid)) (pid : VPid) :
    (pids.foldl (fun left done => left.erase done) kids).lookup pid =
      if pid ∈ pids then none else kids.lookup pid := by
  induction pids generalizing kids with
  | nil => rfl
  | cons first rest induction =>
      rw [List.foldl_cons, induction, lookup_erase_eq]
      by_cases same : pid = first
      · simp [same]
      · simp [same]

/-- Reaping takes the lists of finished processes, and children gone before. -/
theorem kidsOf_reapDone (ex : Executor) (pid : VPid) :
    kidsOf ex.reapDone pid =
      if pid ∈ ex.donePids then []
      else (kidsOf ex pid).filter fun kid => decide (kid ∈ ex.vprocs) := by
  let left :=
    ex.donePids.foldl (fun kids done => kids.erase done) ex.children
  let filtered : KeyMap VPid (List VPid) :=
    { entries :=
        left.entries.map
          (Sigma.map id fun _ kids =>
            kids.filter fun kid => decide (kid ∈ ex.vprocs))
      nodupKeys := List.NodupKeys.map₂ _ _ left.nodupKeys }
  have isFiltered :
      filtered.lookup pid =
        (left.lookup pid).map fun kids =>
          kids.filter fun kid => decide (kid ∈ ex.vprocs) :=
    List.dlookup_map₂ pid
  have retained :
      kidsOf ex.reapDone pid = (filtered.lookup pid).getD [] := by
    unfold kidsOf
    cases found : filtered.lookup pid with
    | none =>
        have absent : ex.reapDone.children.lookup pid = none := by
          rw [Option.eq_none_iff_forall_ne_some]
          intro kids stored
          have before := (lookup_retain_iff.mp stored).1
          exact Option.some_ne_none _ (before.symm.trans found)
        rw [absent]
    | some kids =>
        cases kids with
        | nil =>
            have absent : ex.reapDone.children.lookup pid = none := by
              rw [Option.eq_none_iff_forall_ne_some]
              intro kids stored
              obtain ⟨before, nonempty⟩ := lookup_retain_iff.mp stored
              cases found.symm.trans before
              cases nonempty
            rw [absent]
            rfl
        | cons first rest =>
            have stored :
                ex.reapDone.children.lookup pid = some (first :: rest) :=
              lookup_retain_iff.mpr ⟨found, rfl⟩
            rw [stored]
  rw [retained, isFiltered, lookup_foldl_erase, kidsOf]
  split
  · rfl
  · cases ex.children.lookup pid <;> rfl

end Kids

theorem children_ending
    {ex left : Executor} {op : DriverOp} {dead : Bool} {taken : Nat}
    (ending : Ending ex op left dead taken) :
    left.children = ex.children := by
  have exited (start : Executor) (code : CInt) :
      (start.vprocExitWithCode code).children = start.children := by
    unfold Executor.vprocExitWithCode
    split <;> rfl
  cases ending with
  | yields =>
      rw [Executor.doYield]
      rcases requeueLive_eq ex with same | ⟨_, _, pushed⟩
      · rw [same]
      · rw [pushed]
        rfl
  | waits fds timeoutMs now =>
      unfold Executor.yieldForIo
      split <;> rfl
  | exits cause => exact exited ex _
  | raises fatal => exact exited ex _
  | panics missing => exact exited ex.takePid _
  | returns => rfl

theorem children_resumed
    {ex picked resumed : Executor} {pid : VPid}
    (chosen : ex.pickNext = (picked, some pid))
    (isResumed : (picked.deliverSignals pid).1.resumeBegin pid =
      some resumed) :
    resumed.children = ex.children := by
  obtain ⟨_, rest, _, _, _, rfl, _, _⟩ := pickNext_some chosen
  have delivered :
      ({ ex with readyQueue := rest }.deliverSignals pid).1.children =
        ex.children := by
    unfold Executor.deliverSignals
    split
    · rfl
    · split
      · rfl
      · split <;> rfl
  unfold Executor.resumeBegin at isResumed
  split at isResumed
  · cases isResumed
  · split at isResumed
    · cases isResumed
    · cases isResumed
      exact delivered

/-- Only a fork and reaping change the lists of children. -/
theorem kidsOf_change
    {driver next : Driver} {op : DriverOp}
    (change : Change driver op next)
    (notSpawn : spawns driver op = false) (pid : VPid) :
    kidsOf next.executor pid = kidsOf driver.executor pid ∨
      op = .reapDoneCoroutines ∧
        kidsOf next.executor pid = kidsOf driver.executor.reapDone pid := by
  have same {ex : Executor} (children : ex.children =
      driver.executor.children) :
      kidsOf ex pid = kidsOf driver.executor pid := by
    rw [kidsOf, kidsOf, children]
  cases change with
  | spawned isSpawn child =>
      rw [isSpawn] at notSpawn
      cases notSpawn
  | idles idle begins nothing =>
      obtain ⟨rfl, _⟩ := pickNext_none nothing
      exact Or.inl rfl
  | resumes turn idle begins chosen isResumed =>
      exact Or.inl (same (children_resumed chosen isResumed))
  | ends turn running ending =>
      have kept := children_ending ending
      exact Or.inl (same kept)
  | signals target sig isSignal => exact Or.inl rfl
  | forgets target => exact Or.inl rfl
  | collects => exact Or.inl rfl
  | wakes revents now idle =>
      refine Or.inl (same ?_)
      refine
        @wakeIoReady_rec
          (fun after => after.children = driver.executor.children)
          driver.executor _ now rfl ?_
      intro before sameBefore woken _
      rw [wakeOne_eq]
      exact sameBefore
  | reaps idle => exact Or.inr ⟨rfl, rfl⟩
  | calls call => exact Or.inl rfl

/-! ## The driver -/

/-- What holds of a driver between all steps. -/
structure Sound (driver : Driver) : Prop where
  queue : DriverInvariant driver
  numbered : Numbered driver
  live : RunsLive driver
  ids : ∀ pid co, driver.executor.vprocs.lookup pid = some co →
    co.id = pid
  kids : ∀ pid, ∀ kid ∈ kidsOf driver.executor pid, kid ≤ driver.spawned

/-- Change the record of one process in place. -/
def adjusted (machine : Machine) (pid : VPid)
    (change : Coroutine → Coroutine) : Machine :=
  { machine with
    driver :=
      machine.driver.withExecutor
        (machine.driver.executor.update pid change) }

section Sound

variable {machine next : Machine} {op : DriverOp} {pid : VPid}

theorem sound_new : Sound Driver.new where
  queue := driverInvariant_new
  numbered := numbered_new
  live := runsLive_new
  ids := by
    intro pid co impossible
    cases impossible
  kids := by
    intro pid kid member
    cases member

theorem nextPid_le
    {driver : Driver} (numbered : Numbered driver) :
    driver.executor.nextPid ≤ driver.spawned + 1 := by
  rw [numbered.next, Nat.add_comm]
  exact Nat.mod_le _ _

theorem sound_step
    (sound : Sound machine.driver) (stepped : machine.step op = some next)
    (fresh : SpawnsFresh machine op) :
    Sound next.driver := by
  have change := change_of_machineStep stepped
  have grows := (nextPid_change change sound.numbered.next).2
  refine
    { queue := driverInvariant_change sound.queue change fresh
      numbered := numbered_change change sound.numbered
      live := runsLive_change change sound.live
      ids := ?_
      kids := ?_ }
  · intro pid co found
    by_cases new : spawns machine.driver op = true ∧
        pid = machine.driver.executor.nextPid
    · obtain ⟨isSpawn, rfl⟩ := new
      obtain ⟨other, stored, id, _⟩ := newborn_step stepped isSpawn
      cases stored.symm.trans found
      exact id
    · have continues :=
        continues_change change
          (fun isSpawn same => new ⟨isSpawn, same⟩)
      obtain ⟨before, isBefore, same⟩ := continues co found
      rw [same.id]
      exact sound.ids pid before isBefore
  · intro pid kid member
    cases isSpawn : spawns machine.driver op with
    | false =>
        rcases kidsOf_change change isSpawn pid with same | ⟨_, reaped⟩
        · rw [same] at member
          exact (sound.kids pid kid member).trans grows
        · rw [reaped, kidsOf_reapDone] at member
          split at member
          · cases member
          · have before := (List.mem_filter.mp member).1
            exact (sound.kids pid kid before).trans grows
    | true =>
        rcases spawn_cases stepped isSpawn with
          ⟨_, _, _, _, _, _, _, children⟩ |
            ⟨parent, _, forked, _, _, isForked, rfl⟩
        · rw [kidsOf, children] at member
          exact (sound.kids pid kid member).trans grows
        · dsimp only [Driver.withSpawned] at member
          rw [kidsOf_forked isForked] at member
          split at member
          · rcases List.mem_append.mp member with before | new
            · exact (sound.kids pid kid before).trans grows
            · cases List.mem_singleton.mp new
              exact nextPid_le sound.numbered
          · exact (sound.kids pid kid member).trans grows

theorem lookup_adjusted
    {change : Coroutine → Coroutine} {other : VPid} {co : Coroutine}
    (found : (adjusted machine pid change).driver.executor.vprocs.lookup
      other = some co) :
    ∃ old, machine.driver.executor.vprocs.lookup other = some old ∧
      (co = change old ∨ co = old) := by
  have changed :=
    (lookup_update machine.driver.executor pid other change).symm.trans
      found
  split at changed
  · obtain ⟨old, isOld, rfl⟩ := Option.map_eq_some_iff.mp changed
    exact ⟨old, isOld, Or.inl rfl⟩
  · exact ⟨co, changed, Or.inr rfl⟩

theorem numbered_adjusted
    (numbered : Numbered machine.driver) (change : Coroutine → Coroutine) :
    Numbered (adjusted machine pid change).driver where
  runs := numbered.runs
  next := numbered.next
  taken := by
    intro other mentions
    refine numbered.taken other ?_
    cases mentions with
    | coroutine member =>
        obtain ⟨co, found⟩ := mem_iff_lookup.mp member
        obtain ⟨old, isOld, _⟩ := lookup_adjusted found
        exact .coroutine (mem_iff_lookup.mpr ⟨old, isOld⟩)
    | queued member => exact .queued member
    | exitCode member => exact .exitCode member
    | polled member => exact .polled member
    | current same => exact .current same
    | running turn isTurn same => exact .running turn isTurn same

theorem sound_adjusted
    (sound : Sound machine.driver) {change : Coroutine → Coroutine}
    (shape : KeepsShape change) (ids : ∀ co, (change co).id = co.id) :
    Sound (adjusted machine pid change).driver := by
  refine
    { queue :=
        driverInvariant_withExecutor sound.queue
          (balanced_update sound.queue.balanced pid shape) rfl rfl
      numbered := numbered_adjusted sound.numbered change
      live := ?_
      ids := ?_
      kids := sound.kids }
  · intro turn isTurn
    obtain ⟨co, found, alive⟩ := sound.live turn isTurn
    unfold Lives
    dsimp only [adjusted, Driver.withExecutor]
    rw [lookup_update]
    split
    · rw [found]
      refine ⟨change co, rfl, ?_⟩
      rw [isDone_congr (shape co).1, alive]
    · exact ⟨co, found, alive⟩
  · intro other co found
    obtain ⟨old, isOld, rfl | rfl⟩ := lookup_adjusted found
    · rw [ids]
      exact sound.ids other old isOld
    · exact sound.ids other _ isOld

/-- What a step of a session consists of. -/
inductive Moves (machine : Machine) : Machine → Prop where
  | rests : Moves machine machine
  | steps {middle next : Machine} {op : DriverOp}
      (before : Moves machine middle)
      (stepped : middle.step op = some next) : Moves machine next
  | adjusts {middle : Machine} {pid : VPid}
      {change : Coroutine → Coroutine} (before : Moves machine middle)
      (shape : KeepsShape change) (ids : ∀ co, (change co).id = co.id) :
      Moves machine (adjusted middle pid change)

theorem numbered_moves
    (moves : Moves machine next) (numbered : Numbered machine.driver) :
    Numbered next.driver ∧
      machine.driver.spawned ≤ next.driver.spawned := by
  induction moves with
  | rests => exact ⟨numbered, le_rfl⟩
  | steps before stepped induction =>
      have change := change_of_machineStep stepped
      refine ⟨numbered_change change induction.1, ?_⟩
      exact induction.2.trans (nextPid_change change induction.1.next).2
  | adjusts before shape ids induction =>
      exact ⟨numbered_adjusted induction.1 _, induction.2⟩

theorem spawnsFresh_of_bound
    (numbered : Numbered machine.driver)
    (stepped : machine.step op = some next)
    (few : next.driver.spawned < 4294967296) :
    SpawnsFresh machine op := by
  intro isSpawn
  have grows := spawned_of_spawns (change_of_machineStep stepped) isSpawn
  exact freshPid_of_numbered numbered (by omega)

end Sound

/-! ## Processes which a step does not concern -/

/-- What stays of a process which neither runs nor is spawned or forked. -/
structure Bystander (machine next : Machine) (pid : VPid) : Prop where
  stays : Stays machine.driver.executor next.driver.executor pid
  lives : Lives machine.driver.executor pid →
    Lives next.driver.executor pid
  table : Lives machine.driver.executor pid →
    next.world.getTable pid = machine.world.getTable pid
  kids : Lives machine.driver.executor pid →
    ∀ kid ∈ machine.driver.executor.vprocs,
      (kidsOf next.driver.executor pid).count kid =
        (kidsOf machine.driver.executor pid).count kid

/-- The process runs, or has its turn before the other one. -/
def Before (driver : Driver) (first second : VPid) : Prop :=
  (∃ turn, driver.turn = some turn ∧ turn.pid = first) ∨
    Waits driver first second

section Bystander

variable {machine next : Machine} {op : DriverOp} {pid : VPid}

theorem bystander_step
    (stepped : machine.step op = some next)
    (sound : Sound machine.driver)
    (notRunning : NotRunning machine.driver pid)
    (notSpawned : spawns machine.driver op = true →
      pid ≠ machine.driver.executor.nextPid)
    (notForked : op ≠ .spawnForkChild pid) :
    Bystander machine next pid := by
  have change := change_of_machineStep stepped
  refine ⟨stays_step stepped notSpawned notForked, ?_, ?_, ?_⟩
  · refine lives_change change sound.numbered.runs ?_
    intro turn isTurn same
    exact (notRunning turn isTurn same).elim
  · intro lives
    exact getTable_kept stepped notRunning lives notSpawned
  · intro lives kid present
    cases isSpawn : spawns machine.driver op with
    | false =>
        rcases kidsOf_change change isSpawn pid with same | ⟨_, reaped⟩
        · rw [same]
        · have notDone : pid ∉ machine.driver.executor.donePids := by
            intro member
            obtain ⟨co, found, done⟩ := done_of_mem_donePids member
            obtain ⟨other, isOther, alive⟩ := lives
            cases found.symm.trans isOther
            rw [done] at alive
            cases alive
          rw [reaped, kidsOf_reapDone, if_neg notDone]
          exact List.count_filter (decide_eq_true present)
    | true =>
        rcases spawn_cases stepped isSpawn with
          ⟨_, _, _, _, _, _, _, children⟩ |
            ⟨parent, _, forked, rfl, _, isForked, rfl⟩
        · rw [kidsOf, children, kidsOf]
        · have different : pid ≠ parent := by
            rintro rfl
            exact notForked rfl
          dsimp only [Driver.withSpawned]
          rw [kidsOf_forked isForked, if_neg different]

theorem bystander_adjusted
    {target : VPid} (change : Coroutine → Coroutine)
    (different : pid ≠ target) :
    Bystander machine (adjusted machine target change) pid := by
  have same :
      (adjusted machine target change).driver.executor.vprocs.lookup pid =
        machine.driver.executor.vprocs.lookup pid :=
    (lookup_update _ target pid change).trans (if_neg different)
  refine ⟨stays_of_lookup same, ?_, fun _ => rfl, fun _ _ _ => rfl⟩
  intro lives
  unfold Lives
  rw [same]
  exact lives

/-- Who waits is not overtaken by the process it waits before. -/
theorem not_picked_of_waits
    {driver : Driver} {first second : VPid}
    (waits : Waits driver first second) (different : first ≠ second) :
    picks driver op second = false := by
  rw [Bool.eq_false_iff]
  intro picked
  obtain ⟨_, chosen⟩ := Bool.and_eq_true_iff.mp picked
  obtain ⟨skipped, rest, _, allDone, queue, _, _, _⟩ :=
    pickNext_some (Prod.ext rfl (of_decide_eq_true chosen))
  have order := waits.order
  rw [queue] at order
  exact
    (precedes_drop order (not_mem_skipped waits allDone)
      different.symm).1 rfl

theorem waits_step
    {first second : VPid}
    (stepped : machine.step op = some next)
    (sound : Sound machine.driver)
    (waits : Waits machine.driver first second)
    (notPicked : picks machine.driver op first = false)
    (kept : spawns machine.driver op = true →
      machine.driver.executor.nextPid ≠ second) :
    Waits next.driver first second := by
  have change := change_of_machineStep stepped
  refine
    { live := ?_
      notRunning := (resumes_change change notPicked).1 waits.notRunning
      order := order_change change kept notPicked waits }
  refine lives_change change sound.numbered.runs ?_ waits.live
  intro turn isTurn same
  exact (waits.notRunning turn isTurn same).elim

/-- A process which waits before another one runs or still does. -/
theorem before_step
    {first second : VPid}
    (stepped : machine.step op = some next)
    (sound : Sound machine.driver)
    (waits : Waits machine.driver first second)
    (kept : spawns machine.driver op = true →
      machine.driver.executor.nextPid ≠ second) :
    Before next.driver first second := by
  cases picked : picks machine.driver op first with
  | true =>
      exact Or.inl (running_of_picks (change_of_machineStep stepped) picked)
  | false => exact Or.inr (waits_step stepped sound waits picked kept)

theorem waits_adjusted
    {first second target : VPid} (change : Coroutine → Coroutine)
    (different : first ≠ target)
    (waits : Waits machine.driver first second) :
    Waits (adjusted machine target change).driver first second where
  live := (bystander_adjusted change different).lives waits.live
  notRunning := waits.notRunning
  order := waits.order

theorem waits_of_before
    {driver : Driver} {first second : VPid}
    (before : Before driver first second)
    (notRunning : NotRunning driver first) :
    Waits driver first second := by
  rcases before with ⟨turn, isTurn, same⟩ | waits
  · exact (notRunning turn isTurn same).elim
  · exact waits

end Bystander

/-! ## The stages, as far as the machine is concerned -/

/-- The caller waits behind its helper, with the table it had. -/
structure Pending (machine : Machine) (call : ForkCall)
    (helper : VPid) : Prop where
  table : machine.world.getTable call.caller = call.table
  unmarked : ∀ co,
    machine.driver.executor.vprocs.lookup call.caller = some co →
      co.isForkChild = false
  queued : Waits machine.driver call.caller call.caller
  first : Before machine.driver helper call.caller

/-- The table has the entries of another one. -/
def Copies (world : World) (pid : VPid) (original : VfdTable) : Prop :=
  ∃ copy, world.getTable pid = some copy ∧
    ∀ number, copy.get number = original.get number

/-- The child of a call, as the caller finds it. -/
structure ChildOf (machine : Machine) (call : ForkCall)
    (child : VPid) : Prop where
  lives : Lives machine.driver.executor child
  ppid : ∀ co, machine.driver.executor.vprocs.lookup child = some co →
    co.ppid = call.caller
  cwd : ∀ co parent,
    machine.driver.executor.vprocs.lookup child = some co →
      machine.driver.executor.vprocs.lookup call.caller = some parent →
        co.cwd = parent.cwd
  listed : (kidsOf machine.driver.executor call.caller).count child = 1
  table : ∀ table, call.table = some table →
    Copies machine.world child table

/-- The process has the mark of a fork child, as long as it is there. -/
def Marked (machine : Machine) (pid : VPid) : Prop :=
  ∀ co, machine.driver.executor.vprocs.lookup pid = some co →
    co.isForkChild = true

/-- The caller runs, or waits before its child. -/
structure Made (machine : Machine) (call : ForkCall) (child : VPid) :
    Prop where
  unmarked : ∀ co,
    machine.driver.executor.vprocs.lookup call.caller = some co →
      co.isForkChild = false
  named : ∀ co,
    machine.driver.executor.vprocs.lookup call.caller = some co →
      co.forkChildPid = child
  first : Before machine.driver call.caller child
  rests : NotRunning machine.driver child
  marked : Marked machine child
  childOf : ChildOf machine call child

section Stages

variable {machine next : Machine} {op : DriverOp} {call : ForkCall}
  {helper child : VPid}

theorem marked_of_bystander
    (bystander : Bystander machine next child)
    (marked : Marked machine child) :
    Marked next child := by
  intro co found
  obtain ⟨before, isBefore, same⟩ := bystander.stays co found
  rw [same.isForkChild]
  exact marked before isBefore

theorem childOf_of_bystanders
    (ofCaller : Bystander machine next call.caller)
    (ofChild : Bystander machine next child)
    (lives : Lives machine.driver.executor call.caller)
    (childOf : ChildOf machine call child) :
    ChildOf next call child := by
  refine ⟨ofChild.lives childOf.lives, ?_, ?_, ?_, ?_⟩
  · intro co found
    obtain ⟨before, isBefore, same⟩ := ofChild.stays co found
    rw [same.ppid]
    exact childOf.ppid before isBefore
  · intro co parent found isParent
    obtain ⟨before, isBefore, same⟩ := ofChild.stays co found
    obtain ⟨old, isOld, sameParent⟩ := ofCaller.stays parent isParent
    rw [same.cwd, sameParent.cwd]
    exact childOf.cwd before old isBefore isOld
  · obtain ⟨co, found, _⟩ := childOf.lives
    rw [ofCaller.kids lives child (mem_iff_lookup.mpr ⟨co, found⟩)]
    exact childOf.listed
  · intro table isTable
    unfold Copies
    rw [ofChild.table childOf.lives]
    exact childOf.table table isTable

theorem pending_of_bystander
    (ofCaller : Bystander machine next call.caller)
    (pending : Pending machine call helper)
    (queued : Waits next.driver call.caller call.caller)
    (first : Before next.driver helper call.caller) :
    Pending next call helper := by
  refine ⟨?_, ?_, queued, first⟩
  · rw [ofCaller.table pending.queued.live, pending.table]
  · intro co found
    obtain ⟨before, isBefore, same⟩ := ofCaller.stays co found
    rw [same.isForkChild]
    exact pending.unmarked before isBefore

theorem made_of_bystanders
    (ofCaller : Bystander machine next call.caller)
    (ofChild : Bystander machine next child)
    (made : Made machine call child)
    (lives : Lives machine.driver.executor call.caller)
    (first : Before next.driver call.caller child)
    (rests : NotRunning next.driver child) :
    Made next call child := by
  refine
    { unmarked := ?_
      named := ?_
      first := first
      rests := rests
      marked := marked_of_bystander ofChild made.marked
      childOf := childOf_of_bystanders ofCaller ofChild lives made.childOf }
  · intro co found
    obtain ⟨before, isBefore, same⟩ := ofCaller.stays co found
    rw [same.isForkChild]
    exact made.unmarked before isBefore
  · intro co found
    obtain ⟨before, isBefore, same⟩ := ofCaller.stays co found
    rw [same.forkChildPid]
    exact made.named before isBefore

theorem ne_nextPid_of_lives
    {driver : Driver} {pid : VPid} (fresh : FreshPid driver.executor)
    (lives : Lives driver.executor pid) :
    pid ≠ driver.executor.nextPid := by
  rintro rfl
  obtain ⟨co, found, _⟩ := lives
  exact fresh.1 (mem_iff_lookup.mpr ⟨co, found⟩)

/-- Nobody of the call runs, so a step leaves the call in its stage. -/
theorem pending_step
    (stepped : machine.step op = some next)
    (sound : Sound machine.driver) (fresh : SpawnsFresh machine op)
    (notForked : op ≠ .spawnForkChild call.caller)
    (different : helper ≠ call.caller)
    (notRunning : NotRunning machine.driver helper)
    (pending : Pending machine call helper) :
    Pending next call helper := by
  have queued := pending.queued
  have waits := waits_of_before pending.first notRunning
  have kept (isSpawn : spawns machine.driver op = true) :=
    ne_nextPid_of_lives (fresh isSpawn) queued.live
  have bystander :=
    bystander_step stepped sound queued.notRunning kept notForked
  refine pending_of_bystander bystander pending ?_ ?_
  · refine
      waits_step stepped sound queued (not_picked_of_waits waits different)
        ?_
    exact fun isSpawn => (kept isSpawn).symm
  · exact
      before_step stepped sound waits fun isSpawn => (kept isSpawn).symm

theorem made_step
    (stepped : machine.step op = some next)
    (sound : Sound machine.driver) (fresh : SpawnsFresh machine op)
    (notFork : ∀ parent, op = .spawnForkChild parent →
      parent ≠ call.caller ∧ parent ≠ child)
    (different : call.caller ≠ child)
    (notRunning : NotRunning machine.driver call.caller)
    (made : Made machine call child) :
    Made next call child := by
  have waits := waits_of_before made.first notRunning
  have keptCaller (isSpawn : spawns machine.driver op = true) :=
    ne_nextPid_of_lives (fresh isSpawn) waits.live
  have keptChild (isSpawn : spawns machine.driver op = true) :=
    ne_nextPid_of_lives (fresh isSpawn) made.childOf.lives
  have notPicked := @not_picked_of_waits op _ _ _ waits different
  have ofCaller : Bystander machine next call.caller :=
    bystander_step stepped sound notRunning keptCaller
      fun same => (notFork _ same).1 rfl
  have ofChild : Bystander machine next child :=
    bystander_step stepped sound made.rests keptChild
      fun same => (notFork _ same).2 rfl
  refine made_of_bystanders ofCaller ofChild made waits.live ?_ ?_
  · exact
      before_step stepped sound waits fun isSpawn => (keptChild isSpawn).symm
  · exact
      (resumes_change (change_of_machineStep stepped) notPicked).1 made.rests

theorem pending_adjusted
    {target : VPid} (change : Coroutine → Coroutine)
    (notCaller : call.caller ≠ target) (notHelper : helper ≠ target)
    (notRunning : NotRunning machine.driver helper)
    (pending : Pending machine call helper) :
    Pending (adjusted machine target change) call helper := by
  have waits := waits_of_before pending.first notRunning
  refine
    pending_of_bystander (bystander_adjusted change notCaller) pending ?_ ?_
  · exact waits_adjusted change notCaller pending.queued
  · exact Or.inr (waits_adjusted change notHelper waits)

theorem made_adjusted
    {target : VPid} (change : Coroutine → Coroutine)
    (notCaller : call.caller ≠ target) (notChild : child ≠ target)
    (notRunning : NotRunning machine.driver call.caller)
    (made : Made machine call child) :
    Made (adjusted machine target change) call child := by
  have waits := waits_of_before made.first notRunning
  refine
    made_of_bystanders (bystander_adjusted change notCaller)
      (bystander_adjusted change notChild) made waits.live ?_ made.rests
  exact Or.inr (waits_adjusted change notCaller waits)

/-- A process which yields goes to the end of the queue. -/
theorem queue_doYield
    {turn : Turn} (sound : Sound machine.driver)
    (isTurn : machine.driver.turn = some turn)
    (stepped : machine.step .doYield = some next) :
    next.driver.turn = none ∧
      next.driver.executor.readyQueue =
        machine.driver.executor.readyQueue ++ [turn.pid] := by
  obtain ⟨result, ended, rfl⟩ := Option.map_eq_some_iff.mp stepped
  obtain ⟨other, isOther, restored⟩ := Option.bind_eq_some_iff.mp ended
  obtain ⟨_, _, rfl⟩ := Option.map_eq_some_iff.mp restored
  obtain ⟨co, found, alive⟩ := sound.live turn isTurn
  have current := sound.numbered.runs turn isTurn
  have pushed :
      machine.driver.executor.doYield =
        machine.driver.executor.pushBack turn.pid := by
    simp [Executor.doYield, Executor.requeueLive, current, found, alive]
  refine ⟨rfl, ?_⟩
  dsimp only
  rw [pushed]
  rfl

/-- The first stage: the helper is at the front, the caller at the end. -/
theorem pending_of_yield
    {spawned : Machine} {turn : Turn} {co : Coroutine}
    (sound : Sound machine.driver)
    (fresh : FreshPid machine.driver.executor)
    (isTurn : machine.driver.turn = some turn)
    (isCaller : turn.pid = call.caller)
    (isTable : call.table = machine.world.getTable call.caller)
    (found : machine.driver.executor.vprocs.lookup call.caller = some co)
    (unmarked : co.isForkChild = false)
    (spawns : machine.step .spawnFront = some spawned)
    (yields : spawned.step .doYield = some next) :
    Pending next call machine.driver.executor.nextPid := by
  have live := sound.live turn isTurn
  rw [isCaller] at live
  have different := ne_nextPid_of_lives fresh live
  have soundSpawned := sound_step sound spawns fun _ => fresh
  have isSpawnedTurn : spawned.driver.turn = some turn := by
    cases spawns
    exact isTurn
  obtain ⟨idle, queue⟩ := queue_doYield soundSpawned isSpawnedTurn yields
  have front :
      spawned.driver.executor.readyQueue =
        machine.driver.executor.nextPid ::
          machine.driver.executor.readyQueue := by
    cases spawns
    rfl
  rw [front, isCaller] at queue
  have nobody (pid : VPid) : NotRunning next.driver pid := by
    intro later isLater
    rw [idle] at isLater
    cases isLater
  have goesOn (pid : VPid) (lives : Lives spawned.driver.executor pid) :
      Lives next.driver.executor pid :=
    lives_change (change_of_machineStep yields)
      soundSpawned.numbered.runs (fun _ _ _ => ⟨rfl, nofun⟩) lives
  have stays :
      Stays machine.driver.executor next.driver.executor call.caller :=
    stays_trans (stays_step spawns (fun _ => different) nofun)
      (stays_step yields nofun nofun)
  refine ⟨?_, ?_, ⟨?_, nobody _, ?_⟩, Or.inr ⟨?_, nobody _, ?_⟩⟩
  · rw [isTable]
    obtain ⟨_, isFirst, rfl⟩ := Option.map_eq_some_iff.mp spawns
    obtain ⟨_, isSecond, rfl⟩ := Option.map_eq_some_iff.mp yields
    exact
      (getTable_driverStep rfl isSecond).trans
        (getTable_driverStep rfl isFirst)
  · intro later isLater
    obtain ⟨before, isBefore, same⟩ := stays later isLater
    cases found.symm.trans isBefore
    rw [same.isForkChild, unmarked]
  · refine goesOn _ ?_
    exact
      lives_change (change_of_machineStep spawns) sound.numbered.runs
        (fun _ _ _ => ⟨rfl, nofun⟩) live
  · have member : call.caller ∈ next.driver.executor.readyQueue := by
      rw [queue]
      simp
    obtain ⟨before, behind, shape, absent⟩ :=
      List.eq_append_cons_of_mem member
    exact ⟨before, behind, shape, absent⟩
  · refine goesOn _ ?_
    cases spawns
    exact lives_spawned .front
  · exact ⟨[], _, queue, nofun⟩

theorem copies_forkFdTable
    {world : World} {parent pid : VPid} {table : VfdTable}
    (isTable : world.getTable parent = some table) :
    Copies (world.forkFdTable parent pid) pid table := by
  refine ⟨table.cloneForFork, ?_, fun _ => rfl⟩
  rw [World.forkFdTable,
    getTable_congr (replaceTable_tables world pid _), getTable_setTable,
    if_pos rfl, World.forkedTable, isTable]

/-- What `spawn_fork_child` leaves for the caller to find. -/
theorem childOf_fork
    {forked : Executor} {origin : Coroutine}
    (sound : Sound machine.driver)
    (notKid : child ∉ kidsOf machine.driver.executor call.caller)
    (isTable : machine.world.getTable call.caller = call.table)
    (found : machine.driver.executor.vprocs.lookup call.caller =
      some origin)
    (isForked : machine.driver.executor.spawnForkChild call.caller =
      some (forked, child))
    (different : call.caller ≠ child) :
    ChildOf
      { world := machine.world.forkFdTable call.caller child
        driver := machine.driver.withSpawned forked } call child := by
  obtain ⟨isChild, co, stored, _, ppid, cwd, _⟩ :=
    lookup_forked found isForked
  have live : Lives forked child := by
    rw [isChild]
    exact lives_spawned (.fork isForked)
  refine ⟨live, ?_, ?_, ?_, ?_⟩
  · intro other isOther
    cases stored.symm.trans isOther
    rw [ppid]
    exact sound.ids _ origin found
  · intro other parent isOther isParent
    cases stored.symm.trans isOther
    obtain ⟨before, isBefore, same⟩ :
        ∃ before,
          machine.driver.executor.vprocs.lookup call.caller =
              some before ∧
            parent.cwd = before.cwd := by
      rw [spawnForkChild_eq found] at isForked
      cases isForked
      have changed :=
        (lookup_update _ call.caller call.caller _).symm.trans isParent
      rw [if_pos rfl] at changed
      obtain ⟨middle, isMiddle, rfl⟩ := Option.map_eq_some_iff.mp changed
      refine ⟨middle, ?_, rfl⟩
      exact
        ((lookup_insert_eq _ _ _ _).trans
          (if_neg different)).symm.trans isMiddle
    cases found.symm.trans isBefore
    rw [cwd, same]
  · dsimp only [Driver.withSpawned]
    rw [kidsOf_forked isForked, if_pos rfl, List.count_append,
      List.count_eq_zero_of_not_mem notKid]
    simp
  · intro table hasTable
    exact copies_forkFdTable (isTable.trans hasTable)

/-- The second stage: the helper has put the child behind the caller. -/
theorem made_of_fork
    {turn : Turn} (sound : Sound machine.driver)
    (fresh : FreshPid machine.driver.executor)
    (notKid : machine.driver.executor.nextPid ∉
      kidsOf machine.driver.executor call.caller)
    (isTurn : machine.driver.turn = some turn)
    (pending : Pending machine call turn.pid)
    (forks : machine.step (.spawnForkChild call.caller) = some next) :
    Made next call machine.driver.executor.nextPid := by
  have waits := pending.queued
  have different := ne_nextPid_of_lives fresh waits.live
  obtain ⟨origin, found, _⟩ := waits.live
  have isSpawn :
      spawns machine.driver (.spawnForkChild call.caller) = true :=
    decide_eq_true (mem_iff_lookup.mpr ⟨origin, found⟩)
  have change := change_of_machineStep forks
  have runs := sound.numbered.runs
  have continues :
      Continues machine.driver.executor next.driver.executor
        call.caller :=
    continues_change change fun _ => different
  rcases spawn_cases forks isSpawn with
    ⟨_, notFork, _⟩ | ⟨parent, _, forked, same, _, isForked, rfl⟩
  · exact (notFork _ rfl).elim
  · cases same
    have queue :
        forked.readyQueue =
          machine.driver.executor.readyQueue ++
            [machine.driver.executor.nextPid] := by
      obtain ⟨_, _, result⟩ := Option.map_eq_some_iff.mp isForked
      cases result
      rfl
    obtain ⟨_, co, stored, _, _, _, mark⟩ := lookup_forked found isForked
    refine
      { unmarked := ?_
        named := ?_
        first := Or.inr ⟨?_, waits.notRunning, ?_⟩
        rests := ?_
        marked := ?_
        childOf :=
          childOf_fork sound notKid pending.table found isForked
            different }
    · intro later isLater
      obtain ⟨before, isBefore, same⟩ := continues later isLater
      rw [same.isForkChild]
      exact pending.unmarked before isBefore
    · intro later isLater
      rw [spawnForkChild_eq found] at isForked
      cases isForked
      have changed :=
        (lookup_update _ call.caller call.caller _).symm.trans isLater
      rw [if_pos rfl] at changed
      obtain ⟨_, _, rfl⟩ := Option.map_eq_some_iff.mp changed
      rfl
    · exact lives_change change runs
        (fun other isOther same =>
          (waits.notRunning other isOther same).elim) waits.live
    · obtain ⟨before, behind, shape, _⟩ := waits.order
      dsimp only [Driver.withSpawned]
      rw [queue, shape]
      refine ⟨before, behind ++ [machine.driver.executor.nextPid], ?_, ?_⟩
      · simp
      · intro member
        exact fresh.2 (by rw [shape]; simp [member])
    · intro later isLater same
      have sameTurn : some later = some turn := isLater.symm.trans isTurn
      cases sameTurn
      exact ne_nextPid_of_lives fresh (sound.live turn isTurn) same
    · intro other isOther
      cases stored.symm.trans isOther
      exact mark

end Stages

/-! ## The stages of a call -/

/-- The number was given out once the call had begun. -/
def New (state : Forking) (call : ForkCall) (pid : VPid) : Prop :=
  pid ∈ state.used ∧ pid ∉ call.used ∧ pid ≠ call.caller

/-- The stage of a call, and who stands in it. -/
inductive Stage (state : Forking) (call : ForkCall) : Prop where
  | pending (helper : VPid)
      (inFork : state.places call.caller = .inFork call)
      (isHelper : state.places helper = .helper call)
      (only : ∀ pid, (state.places pid).call? = some call →
        pid = call.caller ∨ pid = helper)
      (facts : Pending state.machine call helper)
      (silent : ∀ entry ∈ state.returned, entry.call ≠ call)
  | made (child : VPid)
      (inFork : state.places call.caller = .inFork call)
      (isCopy : state.places child = .copied call)
      (only : ∀ pid, (state.places pid).call? = some call →
        pid = call.caller ∨ pid = child)
      (new : New state call child)
      (facts : Made state.machine call child)
      (silent : ∀ entry ∈ state.returned, entry.call ≠ call)
  | left (child : VPid)
      (isCopy : state.places child = .copied call)
      (only : ∀ pid, (state.places pid).call? = some call → pid = child)
      (new : New state call child)
      (marked : Marked state.machine child)
      (returns : ∀ entry ∈ state.returned, entry.call = call →
        entry.pid = call.caller ∧ entry.value = child)
  | finished (child : VPid)
      (nobody : ∀ pid, (state.places pid).call? ≠ some call)
      (new : New state call child)
      (returns : ∀ entry ∈ state.returned, entry.call = call →
        entry.pid = call.caller ∧ entry.value = child ∨
          entry.pid = child ∧ entry.value = 0)

/-- What a change of the machine leaves of the stages of a call. -/
structure Transfers (places : VPid → Place) (used : List VPid)
    (call : ForkCall) (machine next : Machine) : Prop where
  pending : ∀ helper, places call.caller = .inFork call →
    places helper = .helper call → Pending machine call helper →
      Pending next call helper
  made : ∀ child, places call.caller = .inFork call →
    places child = .copied call → Made machine call child →
      Made next call child
  marked : ∀ child, places child = .copied call → child ∈ used →
    Marked machine child → Marked next child

section Transfers

variable {places : VPid → Place} {used : List VPid} {call : ForkCall}
  {machine next last : Machine} {op : DriverOp}

theorem transfers_refl : Transfers places used call machine machine where
  pending := fun _ _ _ facts => facts
  made := fun _ _ _ facts => facts
  marked := fun _ _ _ marked => marked

theorem transfers_trans
    (one : Transfers places used call machine next)
    (two : Transfers places used call next last) :
    Transfers places used call machine last where
  pending := fun helper inFork isHelper facts =>
    two.pending helper inFork isHelper
      (one.pending helper inFork isHelper facts)
  made := fun child inFork isCopy facts =>
    two.made child inFork isCopy (one.made child inFork isCopy facts)
  marked := fun child isCopy isUsed marked =>
    two.marked child isCopy isUsed (one.marked child isCopy isUsed marked)

theorem transfers_step
    (stepped : machine.step op = some next)
    (sound : Sound machine.driver) (fresh : SpawnsFresh machine op)
    (unused : spawns machine.driver op = true →
      machine.driver.executor.nextPid ∉ used)
    (notFork : ∀ parent, op = .spawnForkChild parent →
      (places parent).call? ≠ some call)
    (uninvolved : ∀ pid, (places pid).call? = some call →
      NotRunning machine.driver pid) :
    Transfers places used call machine next := by
  have notForked (pid : VPid) (isCall : (places pid).call? = some call) :
      op ≠ .spawnForkChild pid :=
    fun same => notFork pid same isCall
  constructor
  · intro helper inFork isHelper facts
    refine
      pending_step stepped sound fresh
        (notForked _ (by rw [inFork]; rfl)) ?_
        (uninvolved helper (by rw [isHelper]; rfl)) facts
    rintro rfl
    cases inFork.symm.trans isHelper
  · intro child inFork isCopy facts
    refine
      made_step stepped sound fresh ?_ ?_
        (uninvolved _ (by rw [inFork]; rfl)) facts
    · rintro parent rfl
      constructor
      · rintro rfl
        exact notForked _ (by rw [inFork]; rfl) rfl
      · rintro rfl
        exact notForked _ (by rw [isCopy]; rfl) rfl
    · rintro rfl
      cases inFork.symm.trans isCopy
  · intro child isCopy isUsed marked
    have isCall : (places child).call? = some call := by
      rw [isCopy]
      rfl
    refine marked_of_bystander ?_ marked
    refine
      bystander_step stepped sound (uninvolved child isCall) ?_
        (notForked child isCall)
    rintro isSpawn rfl
    exact unused isSpawn isUsed

theorem transfers_adjusted
    {target : VPid} (change : Coroutine → Coroutine)
    (notTarget : (places target).call? ≠ some call)
    (uninvolved : ∀ pid, (places pid).call? = some call →
      NotRunning machine.driver pid) :
    Transfers places used call machine
      (adjusted machine target change) := by
  have other {pid : VPid} (isCall : (places pid).call? = some call) :
      pid ≠ target := by
    rintro rfl
    exact notTarget isCall
  constructor
  · intro helper inFork isHelper facts
    exact
      pending_adjusted change (other (by rw [inFork]; rfl))
        (other (by rw [isHelper]; rfl))
        (uninvolved helper (by rw [isHelper]; rfl)) facts
  · intro child inFork isCopy facts
    exact
      made_adjusted change (other (by rw [inFork]; rfl))
        (other (by rw [isCopy]; rfl))
        (uninvolved _ (by rw [inFork]; rfl)) facts
  · intro child isCopy _ marked
    refine marked_of_bystander ?_ marked
    exact bystander_adjusted change (other (by rw [isCopy]; rfl))

end Transfers

section Stages

variable {state next : Forking} {call : ForkCall}

/-- A step which does not concern a call leaves it in its stage. -/
theorem stage_of_transfers
    (stage : Stage state call)
    (transfers : Transfers state.places state.used call state.machine
      next.machine)
    (places : ∀ pid,
      (state.places pid).call? = some call ∨
          (next.places pid).call? = some call →
        next.places pid = state.places pid)
    (used : ∀ pid ∈ state.used, pid ∈ next.used)
    (returned : ∀ entry ∈ next.returned, entry.call = call →
      entry ∈ state.returned) :
    Stage next call := by
  have same {pid : VPid} {place : Place} (isPlace : state.places pid = place)
      (isCall : place.call? = some call) :
      next.places pid = place := by
    rw [places pid (Or.inl (by rw [isPlace, isCall])), isPlace]
  have before {pid : VPid} (isCall : (next.places pid).call? = some call) :
      (state.places pid).call? = some call := by
    rw [← places pid (Or.inr isCall)]
    exact isCall
  cases stage with
  | pending helper inFork isHelper only facts silent =>
      refine
        .pending helper (same inFork rfl) (same isHelper rfl)
          (fun pid isCall => only pid (before isCall))
          (transfers.pending helper inFork isHelper facts) ?_
      intro entry member isCall
      exact silent entry (returned entry member isCall) isCall
  | made child inFork isCopy only new facts silent =>
      refine
        .made child (same inFork rfl) (same isCopy rfl)
          (fun pid isCall => only pid (before isCall))
          ⟨used child new.1, new.2⟩
          (transfers.made child inFork isCopy facts) ?_
      intro entry member isCall
      exact silent entry (returned entry member isCall) isCall
  | left child isCopy only new marked returns =>
      refine
        .left child (same isCopy rfl)
          (fun pid isCall => only pid (before isCall))
          ⟨used child new.1, new.2⟩
          (transfers.marked child isCopy new.1 marked) ?_
      intro entry member isCall
      exact returns entry (returned entry member isCall) isCall
  | finished child nobody new returns =>
      refine
        .finished child
          (fun pid isCall => nobody pid (before isCall))
          ⟨used child new.1, new.2⟩ ?_
      intro entry member isCall
      exact returns entry (returned entry member isCall) isCall

end Stages

/-! ## Steps -/

/-- The invariant of a session whose coroutines fork. -/
structure Kept (state : Forking) : Prop where
  sound : Sound state.driver
  used : ∀ pid ∈ state.used, pid ≤ state.driver.spawned
  distinct : state.used.Nodup
  ids : ∀ call ∈ state.calls, call.id < state.calls.length
  past : ∀ call ∈ state.calls, ∀ pid ∈ call.used,
    pid ≤ state.driver.spawned
  places : ∀ pid call, (state.places pid).call? = some call →
    call ∈ state.calls ∧ pid ≤ state.driver.spawned
  stages : ∀ call ∈ state.calls, Stage state call
  returned : ∀ entry ∈ state.returned, entry.call ∈ state.calls
  once : (state.returned.map fun entry => (entry.call, entry.pid)).Nodup

section Moving

variable {state next : Forking}

/-- What else happens: a step, a changed record, or nothing. -/
theorem dirs_cases
    {op : DirOp} {dirs : Directories}
    (stepped : state.dirs.step op = some dirs)
    (notFork : Forking.isFork op = false) :
    (∃ step, state.machine.step step = some dirs.machine ∧
        (∀ parent, step ≠ .spawnForkChild parent) ∧
        spawns state.driver step = state.takes op) ∨
      state.takes op = false ∧
        (dirs.machine = state.machine ∨
          ∃ pid change, state.running = some pid ∧ KeepsShape change ∧
            (∀ co, (change co).id = co.id) ∧
            dirs.machine = adjusted state.machine pid change) := by
  cases op with
  | driver step =>
      obtain ⟨machine, moved, rfl⟩ := Option.map_eq_some_iff.mp stepped
      refine Or.inl ⟨step, moved, ?_, rfl⟩
      rintro parent rfl
      cases notFork
  | call pid call =>
      simp only [Directories.step] at stepped
      split at stepped
      · rename_i isRunning
        obtain ⟨result, happens, rfl⟩ := Option.map_eq_some_iff.mp stepped
        cases call with
        | chdir path answer =>
            refine Or.inr ⟨rfl, ?_⟩
            simp only [Directories.effect] at happens
            split at happens
            · cases happens
              refine
                Or.inr
                  ⟨pid,
                    fun co =>
                      { co with
                        cwd :=
                          some
                            (chdirPath (state.dirs.cwdOf pid)
                              state.dirs.kernelCwd path) },
                    isRunning, fun _ => ⟨rfl, rfl⟩, fun _ => rfl, rfl⟩
            · cases happens
              exact Or.inl rfl
        | getcwd size =>
            cases happens
            exact Or.inr ⟨rfl, Or.inl rfl⟩
        | openPath path flags answer =>
            obtain ⟨machine, moved, rfl⟩ :=
              Option.map_eq_some_iff.mp happens
            exact Or.inl ⟨_, moved, fun _ => by rintro ⟨⟩, rfl⟩
        | openatPath dirfd path flags answer =>
            obtain ⟨machine, moved, rfl⟩ :=
              Option.map_eq_some_iff.mp happens
            exact Or.inl ⟨_, moved, fun _ => by rintro ⟨⟩, rfl⟩
        | creat path answer =>
            obtain ⟨machine, moved, rfl⟩ :=
              Option.map_eq_some_iff.mp happens
            exact Or.inl ⟨_, moved, fun _ => by rintro ⟨⟩, rfl⟩
      · cases stepped

theorem clearMark_eq (machine : Machine) (pid : VPid) :
    Forking.clearMark machine pid =
      adjusted machine pid fun co => { co with isForkChild := false } :=
  rfl

/-- Every step of the session is made of steps of the machine. -/
theorem moves_step
    {op : ForkOp} (stepped : state.step op = some next) :
    Moves state.machine next.machine := by
  have cleared (pid : VPid) :
      Moves state.machine (Forking.clearMark state.machine pid) :=
    .adjusts .rests (fun _ => ⟨rfl, rfl⟩) fun _ => rfl
  cases op with
  | other op =>
      obtain ⟨notFork, _, dirs, isDirs, result⟩ := otherStep_cases stepped
      have same : next.machine = dirs.machine := by
        rcases result with ⟨_, rfl⟩ | ⟨_, rfl⟩
        · rfl
        · rfl
      rw [same]
      rcases dirs_cases isDirs notFork with
        ⟨step, moved, _, _⟩ | ⟨_, rests | adjusts⟩
      · exact .steps .rests moved
      · rw [rests]
        exact .rests
      · obtain ⟨pid, change, _, shape, ids, isNext⟩ := adjusts
        rw [isNext]
        exact .adjusts .rests shape ids
  | vprocFfiFork lr =>
      obtain ⟨pid, _, _, _, _, marked | unmarked⟩ :=
        vprocFfiFork_cases stepped
      · obtain ⟨_, rfl⟩ := marked
        exact cleared pid
      · obtain ⟨_, _, _, spawns, yields, rfl⟩ := unmarked
        exact .steps (.steps .rests spawns) yields
  | forkHelper =>
      obtain ⟨_, _, _, _, _, forks, present | missing⟩ :=
        forkHelper_cases stepped
      · obtain ⟨_, _, exits, rfl⟩ := present
        exact .steps (.steps .rests forks) exits
      · obtain ⟨_, rfl⟩ := missing
        exact .steps .rests forks
  | forkReturns =>
      obtain ⟨pid, _, co, _, _, _, _, _, _, _, _, dirs⟩ :=
        forkReturns_cases stepped
      have same : next.machine =
          (if co.isForkChild then
            state.setMachine (Forking.clearMark state.machine pid)
          else state).machine :=
        congrArg Directories.machine dirs
      rw [same]
      split
      · exact cleared pid
      · exact .rests

/-- Nobody of a call runs while a process runs which is not in it. -/
theorem uninvolved
    {call : ForkCall}
    (isOther : ∀ pid, state.running = some pid →
      (state.places pid).call? ≠ some call) :
    ∀ pid, (state.places pid).call? = some call →
      NotRunning state.machine.driver pid := by
  intro pid isCall turn isTurn same
  refine isOther turn.pid ?_ (same ▸ isCall)
  exact congrArg (Option.map Turn.pid) isTurn

theorem free_spec
    (free : state.free = true) {pid : VPid}
    (isRunning : state.running = some pid) :
    (state.places pid).call? = none := by
  rw [Forking.free, isRunning] at free
  exact Option.isNone_iff_eq_none.mp free

/-- A number which is taken is not the next one. -/
theorem ne_nextPid
    (isNext : state.nextPid = state.driver.spawned + 1) {pid : VPid}
    (taken : pid ≤ state.driver.spawned) :
    pid ≠ state.nextPid := by
  rintro rfl
  rw [isNext] at taken
  exact Nat.not_succ_le_self _ taken

/-- A number which is given out was not used before. -/
theorem nextPid_new
    (kept : Kept state)
    (few : state.driver.spawned + 1 < 4294967296) :
    FreshPid state.driver.executor ∧
      state.nextPid = state.driver.spawned + 1 ∧
      state.nextPid ∉ state.used := by
  have isNext : state.nextPid = state.driver.spawned + 1 := by
    refine kept.sound.numbered.next.trans ?_
    rw [Nat.mod_eq_of_lt (by omega), Nat.add_comm]
  refine ⟨freshPid_of_numbered kept.sound.numbered few, isNext, ?_⟩
  exact fun member => ne_nextPid isNext (kept.used _ member) rfl

/-- Nobody with the next number is concerned with a call yet. -/
theorem call_nextPid
    (kept : Kept state)
    (isNext : state.nextPid = state.driver.spawned + 1)
    (call : ForkCall) :
    (state.places state.nextPid).call? ≠ some call :=
  fun isCall => ne_nextPid isNext (kept.places _ call isCall).2 rfl

/-- Who is concerned with a call after a process has got a new place. -/
theorem call_of_placed
    {places : VPid → Place} {pid other : VPid} {place : Place}
    {call : ForkCall}
    (isCall : (Function.update places pid place other).call? =
      some call) :
    other = pid ∧ place.call? = some call ∨
      other ≠ pid ∧ (places other).call? = some call ∧
        Function.update places pid place other = places other := by
  rw [Function.update_apply] at isCall ⊢
  split at isCall
  · rename_i same
    exact Or.inl ⟨same, isCall⟩
  · rename_i different
    exact Or.inr ⟨different, isCall, if_neg different⟩

/-- Who is concerned with a call after a process has left its own. -/
theorem call_of_left
    {places : VPid → Place} {pid other : VPid} {call : ForkCall}
    (isCall : (Function.update places pid .elsewhere other).call? =
      some call) :
    other ≠ pid ∧ (places other).call? = some call := by
  rcases call_of_placed isCall with ⟨_, impossible⟩ | ⟨other, old, _⟩
  · cases impossible
  · exact ⟨other, old⟩

/-- A process which is concerned neither before nor after moves unseen. -/
theorem same_of_placed
    {places : VPid → Place} {pid other : VPid} {place : Place}
    {call : ForkCall}
    (notBefore : (places pid).call? ≠ some call)
    (notAfter : place.call? ≠ some call)
    (isCall : (places other).call? = some call ∨
      (Function.update places pid place other).call? = some call) :
    Function.update places pid place other = places other := by
  rcases isCall with before | after
  · rw [Function.update_of_ne]
    rintro rfl
    exact notBefore before
  · rcases call_of_placed after with ⟨_, isPlace⟩ | ⟨_, _, same⟩
    · exact (notAfter isPlace).elim
    · exact same

/-- The books of a session after a number has been given out. -/
theorem kept_books
    (kept : Kept state) (grows : state.driver.spawned + 1 ≤
      next.driver.spawned)
    (isNext : state.nextPid = state.driver.spawned + 1)
    (unused : state.nextPid ∉ state.used)
    (used : next.used = state.used ++ [state.nextPid]) :
    (∀ pid ∈ next.used, pid ≤ next.driver.spawned) ∧ next.used.Nodup := by
  rw [used]
  constructor
  · intro pid member
    rcases List.mem_append.mp member with before | last
    · exact (kept.used pid before).trans ((Nat.le_succ _).trans grows)
    · rw [List.mem_singleton.mp last, isNext]
      exact grows
  · rw [List.nodup_append]
    refine ⟨kept.distinct, List.nodup_singleton _, ?_⟩
    rintro pid member other last rfl
    cases List.mem_singleton.mp last
    exact unused member

/-- A step of the driver which is none of a fork. -/
theorem kept_steps
    {op : DriverOp} (kept : Kept state)
    (few : next.driver.spawned < 4294967296)
    (isFree : state.free = true)
    (stepped : state.machine.step op = some next.machine)
    (notFork : ∀ parent, op ≠ .spawnForkChild parent)
    (places : next.places =
      if spawns state.driver op then
        Function.update state.places state.nextPid .elsewhere
      else state.places)
    (used : next.used =
      if spawns state.driver op then state.used ++ [state.nextPid]
      else state.used)
    (calls : next.calls = state.calls)
    (returned : next.returned = state.returned) :
    Kept next := by
  have change := change_of_machineStep stepped
  have grows := (nextPid_change change kept.sound.numbered.next).2
  have fresh :=
    spawnsFresh_of_bound kept.sound.numbered stepped few
  have new (isSpawn : spawns state.driver op = true) :
      state.nextPid = state.driver.spawned + 1 ∧
        state.nextPid ∉ state.used ∧
        next.driver.spawned = state.driver.spawned + 1 := by
    have succ := spawned_of_spawns change isSpawn
    have few : next.machine.driver.spawned < 4294967296 := few
    obtain ⟨_, isNext, unused⟩ :=
      nextPid_new kept (by rw [succ] at few; exact few)
    exact ⟨isNext, unused, succ⟩
  -- No call is concerned with the place of the new process.
  have same (call : ForkCall) (pid : VPid)
      (isCall : (state.places pid).call? = some call ∨
        (next.places pid).call? = some call) :
      next.places pid = state.places pid := by
    rw [places] at isCall ⊢
    split
    · rename_i isSpawn
      rw [if_pos isSpawn] at isCall
      exact
        same_of_placed (call_nextPid kept (new isSpawn).1 call) nofun isCall
    · rfl
  have books :
      (∀ pid ∈ next.used, pid ≤ next.driver.spawned) ∧
        next.used.Nodup := by
    cases isSpawn : spawns state.driver op with
    | true =>
        obtain ⟨isNext, unused, succ⟩ := new isSpawn
        rw [if_pos isSpawn] at used
        exact kept_books kept succ.ge isNext unused used
    | false =>
        rw [isSpawn] at used
        rw [used]
        exact
          ⟨fun pid member => (kept.used pid member).trans grows,
            kept.distinct⟩
  refine
    { sound := sound_step kept.sound stepped fresh
      used := books.1
      distinct := books.2
      ids := by rw [calls]; exact kept.ids
      past := ?_
      places := ?_
      stages := ?_
      returned := by rw [returned, calls]; exact kept.returned
      once := by rw [returned]; exact kept.once }
  · intro call member pid isUsed
    rw [calls] at member
    exact (kept.past call member pid isUsed).trans grows
  · intro pid call isCall
    rw [same call pid (Or.inr isCall)] at isCall
    obtain ⟨member, taken⟩ := kept.places pid call isCall
    rw [calls]
    exact ⟨member, taken.trans grows⟩
  · intro call member
    rw [calls] at member
    refine
      stage_of_transfers (kept.stages call member) ?_ (same call) ?_ ?_
    · refine
        transfers_step stepped kept.sound fresh
          (fun isSpawn => (new isSpawn).2.1) ?_ ?_
      · exact fun parent same => (notFork parent same).elim
      · refine uninvolved ?_
        intro pid isRunning
        rw [free_spec isFree isRunning]
        nofun
    · intro pid isUsed
      rw [used]
      split
      · exact List.mem_append_left _ isUsed
      · exact isUsed
    · intro entry isEntry _
      rw [returned] at isEntry
      exact isEntry

/-- A step which leaves all calls as they are. -/
theorem kept_of_transfers
    (kept : Kept state) (sound : Sound next.driver)
    (sameSpawned : next.driver.spawned = state.driver.spawned)
    (transfers : ∀ call,
      Transfers state.places state.used call state.machine next.machine)
    (places : next.places = state.places)
    (used : next.used = state.used) (calls : next.calls = state.calls)
    (returned : next.returned = state.returned) :
    Kept next := by
  refine
    { sound := sound
      used := by rw [used, sameSpawned]; exact kept.used
      distinct := by rw [used]; exact kept.distinct
      ids := by rw [calls]; exact kept.ids
      past := by rw [calls, sameSpawned]; exact kept.past
      places := by rw [places, calls, sameSpawned]; exact kept.places
      stages := ?_
      returned := by rw [returned, calls]; exact kept.returned
      once := by rw [returned]; exact kept.once }
  intro call member
  rw [calls] at member
  refine
    stage_of_transfers (kept.stages call member) (transfers call) ?_ ?_ ?_
  · exact fun pid _ => congrFun places pid
  · rw [used]
    exact fun _ isUsed => isUsed
  · rw [returned]
    exact fun _ isEntry _ => isEntry

/-- A change of the record of the running process, outside of forks. -/
theorem kept_adjusts
    {pid : VPid} {change : Coroutine → Coroutine} (kept : Kept state)
    (isRunning : state.running = some pid)
    (isFree : (state.places pid).call? = none)
    (isNext : next.machine = adjusted state.machine pid change)
    (shape : KeepsShape change) (ids : ∀ co, (change co).id = co.id)
    (places : next.places = state.places)
    (used : next.used = state.used) (calls : next.calls = state.calls)
    (returned : next.returned = state.returned) :
    Kept next := by
  have sound : Sound (adjusted state.machine pid change).driver :=
    sound_adjusted kept.sound shape ids
  rw [← isNext] at sound
  refine
    kept_of_transfers kept sound
      (congrArg (fun machine => machine.driver.spawned) isNext) ?_ places
      used calls returned
  intro call
  rw [isNext]
  refine transfers_adjusted change (by rw [isFree]; nofun) ?_
  refine uninvolved ?_
  intro other isOther
  cases isRunning.symm.trans isOther
  rw [isFree]
  nofun

/-- A spawn of the running process, and the end of its turn. -/
structure SpawnsThen (state : Forking) (first last : DriverOp)
    (middle final : Machine) : Prop where
  one : state.machine.step first = some middle
  two : middle.step last = some final
  isSpawn : spawns state.driver first = true
  ends : spawns middle.driver last = false
  notFork : ∀ parent, last ≠ .spawnForkChild parent
  few : final.driver.spawned < 4294967296

theorem spawnsThen_spec
    {first last : DriverOp} {middle final : Machine} (kept : Kept state)
    (steps : SpawnsThen state first last middle final) :
    state.driver.spawned + 1 ≤ final.driver.spawned ∧
      FreshPid state.driver.executor ∧
      state.nextPid = state.driver.spawned + 1 ∧
      state.nextPid ∉ state.used ∧ Sound middle.driver ∧
      Sound final.driver := by
  have succ :=
    spawned_of_spawns (change_of_machineStep steps.one) steps.isSpawn
  have numbered :=
    numbered_change (change_of_machineStep steps.one)
      kept.sound.numbered
  have grows :=
    (nextPid_change (change_of_machineStep steps.two) numbered.next).2
  rw [succ] at grows
  have few : state.driver.spawned + 1 < 4294967296 :=
    lt_of_le_of_lt grows steps.few
  obtain ⟨fresh, isNext, unused⟩ := nextPid_new kept few
  have sound := sound_step kept.sound steps.one fun _ => fresh
  refine ⟨grows, fresh, isNext, unused, sound, ?_⟩
  refine sound_step sound steps.two ?_
  intro isSpawn
  rw [steps.ends] at isSpawn
  cases isSpawn

theorem transfers_spawnsThen
    {first last : DriverOp} {middle final : Machine} (kept : Kept state)
    (steps : SpawnsThen state first last middle final) {call : ForkCall}
    (notFork : ∀ parent, first = .spawnForkChild parent →
      (state.places parent).call? ≠ some call)
    (isOther : ∀ pid, state.running = some pid →
      (state.places pid).call? ≠ some call) :
    Transfers state.places state.used call state.machine final := by
  obtain ⟨_, fresh, _, unused, sound, _⟩ := spawnsThen_spec kept steps
  have sameTurn :=
    turn_of_spawns (change_of_machineStep steps.one) steps.isSpawn
  refine
    transfers_trans
      (transfers_step steps.one kept.sound (fun _ => fresh)
        (fun _ => unused) notFork (uninvolved isOther)) ?_
  have notSpawn : ¬ spawns middle.driver last = true := by
    rw [steps.ends]
    nofun
  refine
    transfers_step steps.two sound (fun isSpawn => (notSpawn isSpawn).elim)
      (fun isSpawn => (notSpawn isSpawn).elim)
      (fun parent same => (steps.notFork parent same).elim) ?_
  intro pid isCall turn isTurn
  rw [sameTurn] at isTurn
  exact uninvolved isOther pid isCall turn isTurn

/-- A call which a spawn and the end of the turn do not concern. -/
theorem stage_of_spawnsThen
    {first last : DriverOp} {middle : Machine} (kept : Kept state)
    (steps : SpawnsThen state first last middle next.machine)
    {pid : VPid} {new own : Place} {call : ForkCall}
    (member : call ∈ state.calls) (isRunning : state.running = some pid)
    (notPid : (state.places pid).call? ≠ some call)
    (notNew : new.call? ≠ some call) (notOwn : own.call? ≠ some call)
    (notFork : ∀ parent, first = .spawnForkChild parent →
      (state.places parent).call? ≠ some call)
    (places : next.places =
      Function.update (Function.update state.places state.nextPid new)
        pid own)
    (used : next.used = state.used ++ [state.nextPid])
    (returned : next.returned = state.returned) :
    Stage next call := by
  obtain ⟨_, _, isNext, _⟩ := spawnsThen_spec kept steps
  have notNext := call_nextPid kept isNext call
  have notMiddle :
      (Function.update state.places state.nextPid new pid).call? ≠
        some call := by
    intro isCall
    rcases call_of_placed isCall with ⟨_, isNew⟩ | ⟨_, isPid, _⟩
    · exact notNew isNew
    · exact notPid isPid
  refine stage_of_transfers (kept.stages call member) ?_ ?_ ?_ ?_
  · refine transfers_spawnsThen kept steps notFork ?_
    intro other isOther
    cases isRunning.symm.trans isOther
    exact notPid
  · rw [places]
    rintro other (before | after)
    · have inner := same_of_placed notNext notNew (Or.inl before)
      rw [← inner] at before
      exact (same_of_placed notMiddle notOwn (Or.inl before)).trans inner
    · have outer := same_of_placed notMiddle notOwn (Or.inr after)
      rw [outer] at after ⊢
      exact same_of_placed notNext notNew (Or.inr after)
  · rw [used]
    exact fun _ isUsed => List.mem_append_left _ isUsed
  · rw [returned]
    exact fun _ isEntry _ => isEntry

/-- A process calls fork: a call in its first stage. -/
theorem kept_calls
    {pid : VPid} {co : Coroutine} {lr : UInt64} {spawned : Machine}
    (kept : Kept state)
    (few : next.driver.spawned < 4294967296)
    (isRunning : state.running = some pid)
    (isFree : (state.places pid).call? = none)
    (found : state.driver.executor.vprocs.lookup pid = some co)
    (unmarked : co.isForkChild = false)
    (spawns : state.machine.step .spawnFront = some spawned)
    (yields : spawned.step .doYield = some next.machine)
    (places : next.places =
      Function.update
        (Function.update state.places state.nextPid
          (.helper (state.callOf pid lr)))
        pid (.inFork (state.callOf pid lr)))
    (used : next.used = state.used ++ [state.nextPid])
    (calls : next.calls = state.calls ++ [state.callOf pid lr])
    (returned : next.returned = state.returned) :
    Kept next := by
  have steps :
      SpawnsThen state .spawnFront .doYield spawned next.machine :=
    ⟨spawns, yields, rfl, rfl, nofun, few⟩
  obtain ⟨grows, fresh, isNext, unused, _, sound⟩ :=
    spawnsThen_spec kept steps
  obtain ⟨turn, isTurn, isPid⟩ := Option.map_eq_some_iff.mp isRunning
  have mentions := kept.sound.numbered.taken pid (.running turn isTurn isPid)
  have different : pid ≠ state.nextPid := ne_nextPid isNext mentions
  have new : state.callOf pid lr ∉ state.calls := by
    intro member
    exact Nat.lt_irrefl _ (kept.ids _ member)
  have cases {other : VPid} {call : ForkCall}
      (isCall : (next.places other).call? = some call) :
      call = state.callOf pid lr ∧
          (other = pid ∨ other = state.nextPid) ∨
        (state.places other).call? = some call := by
    rw [places] at isCall
    rcases call_of_placed isCall with ⟨same, own⟩ | ⟨_, inner, _⟩
    · exact Or.inl ⟨(Option.some.inj own).symm, Or.inl same⟩
    · rcases call_of_placed inner with ⟨same, first⟩ | ⟨_, before, _⟩
      · exact Or.inl ⟨(Option.some.inj first).symm, Or.inr same⟩
      · exact Or.inr before
  obtain ⟨bounded, distinct⟩ := kept_books kept grows isNext unused used
  have more : state.driver.spawned ≤ next.driver.spawned :=
    (Nat.le_succ _).trans grows
  refine
    { sound := sound
      used := bounded
      distinct := distinct
      ids := ?_
      past := ?_
      places := ?_
      stages := ?_
      returned := ?_
      once := by rw [returned]; exact kept.once }
  · intro call member
    rw [calls, List.length_append, List.length_singleton]
    rw [calls] at member
    rcases List.mem_append.mp member with before | last
    · exact (kept.ids call before).trans (Nat.lt_succ_self _)
    · cases List.mem_singleton.mp last
      exact Nat.lt_succ_self _
  · intro call member other isUsed
    rw [calls] at member
    rcases List.mem_append.mp member with before | last
    · exact (kept.past call before other isUsed).trans more
    · cases List.mem_singleton.mp last
      exact (kept.used other isUsed).trans more
  · intro other call isCall
    rw [calls]
    rcases cases isCall with ⟨rfl, same⟩ | before
    · refine ⟨List.mem_append_right _ (.head _), ?_⟩
      rcases same with rfl | rfl
      · exact mentions.trans more
      · rw [isNext]
        exact grows
    · obtain ⟨member, taken⟩ := kept.places other call before
      exact ⟨List.mem_append_left _ member, taken.trans more⟩
  · intro call member
    rw [calls] at member
    rcases List.mem_append.mp member with before | last
    · have old : call ≠ state.callOf pid lr := by
        rintro rfl
        exact new before
      have other : ∀ place : Place,
          place.call? = some (state.callOf pid lr) →
            place.call? ≠ some call := by
        rintro place isNew isCall
        exact old (Option.some.inj (isCall.symm.trans isNew))
      refine
        stage_of_spawnsThen kept steps before isRunning ?_ (other _ rfl)
          (other _ rfl) nofun places used returned
      rw [isFree]
      nofun
    · cases List.mem_singleton.mp last
      refine .pending state.nextPid ?_ ?_ ?_ ?_ ?_
      · rw [places]
        exact Function.update_self _ _ _
      · rw [places, Function.update_of_ne different.symm]
        exact Function.update_self _ _ _
      · intro other isCall
        rcases cases isCall with ⟨_, same⟩ | isOld
        · exact same
        · exact (new (kept.places other _ isOld).1).elim
      · refine
          pending_of_yield kept.sound fresh isTurn isPid rfl found unmarked
            spawns yields
      · rw [returned]
        rintro entry isEntry same
        exact new (same ▸ kept.returned entry isEntry)
  · intro entry member
    rw [returned] at member
    rw [calls]
    exact List.mem_append_left _ (kept.returned entry member)

/-- Who stands as a helper is the one of a call in its first stage. -/
theorem pending_of_helper
    (kept : Kept state) {pid : VPid} {call : ForkCall}
    (isHelper : state.places pid = .helper call) :
    call ∈ state.calls ∧ state.places call.caller = .inFork call ∧
      Pending state.machine call pid ∧
      (∀ other, (state.places other).call? = some call →
        other = call.caller ∨ other = pid) ∧
      ∀ entry ∈ state.returned, entry.call ≠ call := by
  have isCall : (state.places pid).call? = some call := by
    rw [isHelper]
    rfl
  have member := (kept.places pid call isCall).1
  refine ⟨member, ?_⟩
  cases kept.stages call member with
  | pending helper inFork _ only facts silent =>
      rcases only pid isCall with rfl | rfl
      · cases inFork.symm.trans isHelper
      · exact ⟨inFork, facts, only, silent⟩
  | made child inFork isCopy only _ _ _ =>
      rcases only pid isCall with rfl | rfl
      · cases inFork.symm.trans isHelper
      · cases isCopy.symm.trans isHelper
  | left child isCopy only _ _ _ =>
      cases only pid isCall
      cases isCopy.symm.trans isHelper
  | finished child nobody _ _ => exact (nobody pid isCall).elim

/-- The helper forks the caller and exits. -/
theorem made_spawnsThen
    {pid : VPid} {call : ForkCall} {forked final : Machine}
    (kept : Kept state)
    (steps : SpawnsThen state (.spawnForkChild call.caller)
      (.exit .returned) forked final)
    (isRunning : state.running = some pid)
    (pending : Pending state.machine call pid)
    (notCaller : call.caller ≠ state.nextPid) :
    Made final call state.nextPid := by
  obtain ⟨_, fresh, isNext, _, soundForked, _⟩ :=
    spawnsThen_spec kept steps
  have notKid :
      state.nextPid ∉ kidsOf state.driver.executor call.caller :=
    fun isKid =>
      ne_nextPid isNext (kept.sound.kids call.caller _ isKid) rfl
  obtain ⟨turn, isTurn, isPid⟩ := Option.map_eq_some_iff.mp isRunning
  rw [← isPid] at pending
  have made :=
    made_of_fork kept.sound fresh notKid isTurn pending steps.one
  have sameTurn :=
    turn_of_spawns (change_of_machineStep steps.one) steps.isSpawn
  have rests : NotRunning forked.driver call.caller := by
    intro later isLater
    rw [sameTurn] at isLater
    exact pending.queued.notRunning later isLater
  exact made_step steps.two soundForked nofun nofun notCaller rests made

/-- The helper runs: the call is in its second stage. -/
theorem kept_forks
    {pid : VPid} {call : ForkCall} {forked : Machine}
    (kept : Kept state)
    (few : next.driver.spawned < 4294967296)
    (isRunning : state.running = some pid)
    (isHelper : state.places pid = .helper call)
    (present : call.caller ∈ state.driver.executor.vprocs)
    (forks : state.machine.step (.spawnForkChild call.caller) =
      some forked)
    (exits : forked.step (.exit .returned) = some next.machine)
    (places : next.places =
      Function.update
        (Function.update state.places state.nextPid
          (state.places call.caller).copy)
        pid .elsewhere)
    (used : next.used = state.used ++ [state.nextPid])
    (calls : next.calls = state.calls)
    (returned : next.returned = state.returned) :
    Kept next := by
  obtain ⟨isMade, inFork, pending, only, silent⟩ :=
    pending_of_helper kept isHelper
  have isSpawn :
      spawns state.driver (.spawnForkChild call.caller) = true :=
    decide_eq_true present
  have steps :
      SpawnsThen state (.spawnForkChild call.caller) (.exit .returned)
        forked next.machine :=
    ⟨forks, exits, isSpawn, rfl, nofun, few⟩
  obtain ⟨grows, _, isNext, unused, _, sound⟩ :=
    spawnsThen_spec kept steps
  have more : state.driver.spawned ≤ next.driver.spawned :=
    (Nat.le_succ _).trans grows
  have isCall : (state.places pid).call? = some call := by
    rw [isHelper]
    rfl
  have notPid : pid ≠ state.nextPid :=
    ne_nextPid isNext (kept.places pid call isCall).2
  have notCaller : call.caller ≠ state.nextPid :=
    ne_nextPid isNext
      (kept.places call.caller call (by rw [inFork]; rfl)).2
  have callerElse : call.caller ≠ pid := by
    intro same
    rw [same] at inFork
    cases inFork.symm.trans isHelper
  rw [inFork] at places
  have cases {other : VPid} {some' : ForkCall}
      (isSome : (next.places other).call? = some some') :
      some' = call ∧ other = state.nextPid ∨
        other ≠ pid ∧ (state.places other).call? = some some' := by
    rw [places] at isSome
    obtain ⟨outer, inner⟩ := call_of_left isSome
    rcases call_of_placed inner with ⟨same, first⟩ | ⟨_, before, _⟩
    · exact Or.inl ⟨(Option.some.inj first).symm, same⟩
    · exact Or.inr ⟨outer, before⟩
  obtain ⟨bounded, distinct⟩ := kept_books kept grows isNext unused used
  refine
    { sound := sound
      used := bounded
      distinct := distinct
      ids := by rw [calls]; exact kept.ids
      past := ?_
      places := ?_
      stages := ?_
      returned := by rw [returned, calls]; exact kept.returned
      once := by rw [returned]; exact kept.once }
  · intro other member number isUsed
    rw [calls] at member
    exact (kept.past other member number isUsed).trans more
  · intro other some' isSome
    rw [calls]
    rcases cases isSome with ⟨rfl, rfl⟩ | ⟨_, before⟩
    · refine ⟨isMade, ?_⟩
      rw [isNext]
      exact grows
    · obtain ⟨member, taken⟩ := kept.places other some' before
      exact ⟨member, taken.trans more⟩
  · intro other member
    rw [calls] at member
    by_cases same : other = call
    · subst same
      refine
        .made state.nextPid ?_ ?_ ?_ ⟨?_, ?_, notCaller.symm⟩
          (made_spawnsThen kept steps isRunning pending notCaller) ?_
      · rw [places, Function.update_of_ne callerElse,
          Function.update_of_ne notCaller]
        exact inFork
      · rw [places, Function.update_of_ne notPid.symm]
        exact Function.update_self _ _ _
      · intro another isAnother
        rcases cases isAnother with ⟨_, isNew⟩ | ⟨different, before⟩
        · exact Or.inr isNew
        · exact Or.inl ((only another before).resolve_right different)
      · rw [used]
        exact List.mem_append_right _ (.head _)
      · exact fun past =>
          ne_nextPid isNext (kept.past other member _ past) rfl
      · rw [returned]
        exact silent
    · have notCall {place : Place} (isPlace : place.call? = some call) :
          place.call? ≠ some other := by
        intro isOther
        exact same (Option.some.inj (isOther.symm.trans isPlace))
      refine
        stage_of_spawnsThen kept steps member isRunning (notCall isCall) ?_
          ?_ ?_ places used returned
      · exact notCall rfl
      · nofun
      · rintro parent isFork
        cases isFork
        exact notCall (by rw [inFork]; rfl)

/-- A coroutine which goes on in a call, and what it returns. -/
theorem returns_cases
    (kept : Kept state) {pid : VPid} {call : ForkCall} {co : Coroutine}
    (isRunning : state.running = some pid)
    (isCall : (state.places pid).resumed? = some call)
    (found : state.driver.executor.vprocs.lookup pid = some co) :
    (∃ child, pid = call.caller ∧ state.places pid = .inFork call ∧
        state.places child = .copied call ∧
        (∀ other, (state.places other).call? = some call →
          other = pid ∨ other = child) ∧
        New state call child ∧ Made state.machine call child ∧
        (∀ entry ∈ state.returned, entry.call ≠ call) ∧
        co.isForkChild = false ∧ co.forkChildPid = child) ∨
      state.places pid = .copied call ∧
        (∀ other, (state.places other).call? = some call → other = pid) ∧
        New state call pid ∧
        (∀ entry ∈ state.returned, entry.call = call →
          entry.pid = call.caller ∧ entry.value = pid) ∧
        co.isForkChild = true := by
  have places :
      state.places pid = .inFork call ∨ state.places pid = .copied call := by
    cases isPlace : state.places pid with
    | inFork other =>
        rw [isPlace] at isCall
        cases isCall
        exact Or.inl rfl
    | copied other =>
        rw [isPlace] at isCall
        cases isCall
        exact Or.inr rfl
    | _ =>
        rw [isPlace] at isCall
        cases isCall
  have concerned : (state.places pid).call? = some call := by
    rcases places with isPlace | isPlace <;> rw [isPlace] <;> rfl
  obtain ⟨turn, isTurn, isPid⟩ := Option.map_eq_some_iff.mp isRunning
  have runs {other : VPid} (rests : NotRunning state.machine.driver other)
      (same : pid = other) : False :=
    rests turn isTurn (isPid.trans same)
  cases kept.stages call (kept.places pid call concerned).1 with
  | pending helper inFork isHelper only facts silent =>
      rcases only pid concerned with same | same
      · exact (runs facts.queued.notRunning same).elim
      · rw [same, isHelper] at places
        rcases places with impossible | impossible
        · cases impossible
        · cases impossible
  | made child inFork isCopy only new facts silent =>
      rcases only pid concerned with same | same
      · subst same
        refine
          Or.inl
            ⟨child, rfl, inFork, isCopy, only, new, facts, silent, ?_, ?_⟩
        · exact facts.unmarked co found
        · exact facts.named co found
      · exact (runs facts.rests same).elim
  | left child isCopy only new marked returns =>
      have same := only pid concerned
      subst same
      exact
        Or.inr ⟨isCopy, only, new, returns, marked co found⟩
  | finished child nobody _ _ => exact (nobody pid concerned).elim

/-- The call from which the running process returns. -/
theorem stage_of_returning
    {pid : VPid} {call : ForkCall} {co : Coroutine} (kept : Kept state)
    (isRunning : state.running = some pid)
    (isCall : (state.places pid).resumed? = some call)
    (found : state.driver.executor.vprocs.lookup pid = some co)
    (places : next.places =
      Function.update state.places pid .elsewhere)
    (used : next.used = state.used)
    (returned : next.returned =
      state.returned ++
        [{ call := call
           pid := pid
           value := if co.isForkChild then 0 else co.forkChildPid }])
    (machine : next.machine =
      if co.isForkChild then Forking.clearMark state.machine pid
      else state.machine) :
    Stage next call := by
  rcases returns_cases kept isRunning isCall found with
    ⟨child, isCaller, isIn, isCopy, only, new, made, silent, mark,
      value⟩ | ⟨isCopy, only, new, returns, mark⟩
  · rw [mark, if_neg Bool.false_ne_true] at machine
    have different : child ≠ pid := by
      rw [isCaller]
      exact new.2.2
    refine .left child ?_ ?_ (by rw [New, used]; exact new) ?_ ?_
    · rw [places, Function.update_of_ne different]
      exact isCopy
    · intro another isAnother
      rw [places] at isAnother
      obtain ⟨notPid, old⟩ := call_of_left isAnother
      exact (only another old).resolve_left notPid
    · rw [machine]
      exact made.marked
    · rw [returned, mark, value]
      intro entry isEntry sameCall
      rcases List.mem_append.mp isEntry with old | last
      · exact (silent entry old sameCall).elim
      · cases List.mem_singleton.mp last
        exact ⟨isCaller, rfl⟩
  · refine .finished pid ?_ (by rw [New, used]; exact new) ?_
    · intro another isAnother
      rw [places] at isAnother
      obtain ⟨notPid, old⟩ := call_of_left isAnother
      exact notPid (only another old)
    · rw [returned, mark]
      intro entry isEntry sameCall
      rcases List.mem_append.mp isEntry with old | last
      · exact Or.inl (returns entry old sameCall)
      · cases List.mem_singleton.mp last
        exact Or.inr ⟨rfl, rfl⟩

/-- The running process returns from its call. -/
theorem kept_returns
    {pid : VPid} {call : ForkCall} {co : Coroutine} (kept : Kept state)
    (isRunning : state.running = some pid)
    (isCall : (state.places pid).resumed? = some call)
    (found : state.driver.executor.vprocs.lookup pid = some co)
    (places : next.places =
      Function.update state.places pid .elsewhere)
    (used : next.used = state.used) (calls : next.calls = state.calls)
    (returned : next.returned =
      state.returned ++
        [{ call := call
           pid := pid
           value := if co.isForkChild then 0 else co.forkChildPid }])
    (machine : next.machine =
      if co.isForkChild then Forking.clearMark state.machine pid
      else state.machine) :
    Kept next := by
  have sameSpawned : next.driver.spawned = state.driver.spawned := by
    rw [Forking.driver, machine]
    split <;> rfl
  have sound : Sound next.driver := by
    have adjusts : Sound (Forking.clearMark state.machine pid).driver :=
      sound_adjusted kept.sound (fun _ => ⟨rfl, rfl⟩) fun _ => rfl
    rw [Forking.driver, machine]
    split
    · exact adjusts
    · exact kept.sound
  have concerned : (state.places pid).call? = some call := by
    cases isPlace : state.places pid with
    | inFork other =>
        rw [isPlace] at isCall
        exact isCall
    | copied other =>
        rw [isPlace] at isCall
        exact isCall
    | _ =>
        rw [isPlace] at isCall
        cases isCall
  have isMade := (kept.places pid call concerned).1
  have outcome := returns_cases kept isRunning isCall found
  -- Nothing was returned to this process from this call before.
  have unique (entry : Returned) (isEntry : entry ∈ state.returned)
      (sameCall : entry.call = call) : entry.pid ≠ pid := by
    rcases outcome with
      ⟨_, _, _, _, _, _, _, silent, _⟩ | ⟨_, _, new, returns, _⟩
    · exact (silent entry isEntry sameCall).elim
    · rw [(returns entry isEntry sameCall).1]
      exact new.2.2.symm
  refine
    { sound := sound
      used := by rw [used, sameSpawned]; exact kept.used
      distinct := by rw [used]; exact kept.distinct
      ids := by rw [calls]; exact kept.ids
      past := by rw [calls, sameSpawned]; exact kept.past
      places := ?_
      stages := ?_
      returned := ?_
      once := ?_ }
  · intro other some' isSome
    rw [places] at isSome
    rw [calls, sameSpawned]
    exact kept.places other some' (call_of_left isSome).2
  · intro other member
    rw [calls] at member
    by_cases same : other = call
    · subst same
      exact
        stage_of_returning kept isRunning isCall found places used returned
          machine
    · have notOther : (state.places pid).call? ≠ some other := by
        rw [concerned]
        rintro impossible
        cases impossible
        exact same rfl
      have involved :=
        @uninvolved state other (by
          intro another isAnother
          cases isRunning.symm.trans isAnother
          exact notOther)
      refine stage_of_transfers (kept.stages other member) ?_ ?_ ?_ ?_
      · rw [machine]
        split
        · exact transfers_adjusted _ notOther involved
        · exact transfers_refl
      · rw [places]
        intro another isOther
        refine same_of_placed notOther ?_ isOther
        nofun
      · rw [used]
        exact fun _ isUsed => isUsed
      · rw [returned]
        intro entry isEntry sameCall
        rcases List.mem_append.mp isEntry with old | last
        · exact old
        · cases List.mem_singleton.mp last
          exact (same sameCall.symm).elim
  · rw [returned, calls]
    intro entry isEntry
    rcases List.mem_append.mp isEntry with old | last
    · exact kept.returned entry old
    · cases List.mem_singleton.mp last
      exact isMade
  · rw [returned, List.map_append, List.nodup_append]
    refine ⟨kept.once, List.nodup_singleton _, ?_⟩
    rintro pair isOld other isLast rfl
    obtain ⟨entry, isEntry, rfl⟩ := List.mem_map.mp isOld
    obtain ⟨sameCall, samePid⟩ := Prod.mk.inj (List.mem_singleton.mp isLast)
    exact unique entry isEntry sameCall samePid

/-- Every step keeps the invariant, as long as there are numbers left. -/
theorem kept_step
    {op : ForkOp} (kept : Kept state) (stepped : state.step op = some next)
    (few : next.driver.spawned < 4294967296) :
    Kept next := by
  cases op with
  | other op =>
      obtain ⟨notFork, isFree, dirs, isDirs, result⟩ :=
        otherStep_cases stepped
      rcases dirs_cases isDirs notFork with
        ⟨step, moved, noFork, isSpawn⟩ | ⟨keeps, moved⟩
      · rcases result with ⟨takes, rfl⟩ | ⟨takes, rfl⟩
        · rw [takes] at isSpawn
          refine kept_steps kept few isFree moved noFork ?_ ?_ rfl rfl
          · exact (if_pos isSpawn).symm
          · exact (if_pos isSpawn).symm
        · rw [takes] at isSpawn
          have notSpawn : ¬ spawns state.driver step = true := by
            rw [isSpawn]
            nofun
          refine kept_steps kept few isFree moved noFork ?_ ?_ rfl rfl
          · exact (if_neg notSpawn).symm
          · exact (if_neg notSpawn).symm
      · rcases result with ⟨takes, _⟩ | ⟨_, rfl⟩
        · rw [keeps] at takes
          cases takes
        · rcases moved with same | ⟨pid, change, isRunning, shape, ids, isNext⟩
          · refine
              kept_of_transfers kept ?_
                (congrArg (fun machine => machine.driver.spawned) same)
                ?_ rfl rfl rfl rfl
            · have sound := kept.sound
              rw [Forking.driver, ← same] at sound
              exact sound
            · intro call
              rw [← same]
              exact transfers_refl
          · exact
              kept_adjusts kept isRunning (free_spec isFree isRunning)
                isNext shape ids rfl rfl rfl rfl
  | vprocFfiFork lr =>
      obtain ⟨pid, co, isRunning, isFree, found, marked | unmarked⟩ :=
        vprocFfiFork_cases stepped
      · obtain ⟨_, rfl⟩ := marked
        exact
          kept_adjusts kept isRunning isFree (clearMark_eq _ pid)
            (fun _ => ⟨rfl, rfl⟩) (fun _ => rfl) rfl rfl rfl rfl
      · obtain ⟨notMarked, spawned, after, spawns, yields, rfl⟩ := unmarked
        exact
          kept_calls kept few isRunning isFree found notMarked spawns yields
            rfl rfl rfl rfl
  | forkHelper =>
      obtain ⟨pid, call, forked, isRunning, isHelper, forks, result⟩ :=
        forkHelper_cases stepped
      rcases result with ⟨present, after, exits, rfl⟩ | ⟨missing, _⟩
      · exact
          kept_forks kept few isRunning isHelper present forks exits rfl rfl
            rfl rfl
      · obtain ⟨_, _, pending, _⟩ := pending_of_helper kept isHelper
        obtain ⟨co, found, _⟩ := pending.queued.live
        exact (missing (mem_iff_lookup.mpr ⟨co, found⟩)).elim
  | forkReturns =>
      obtain ⟨pid, call, co, isRunning, isCall, found, _, places, used,
        calls, returned, dirs⟩ := forkReturns_cases stepped
      refine
        kept_returns kept isRunning isCall found places used calls returned
          ?_
      have same := congrArg Directories.machine dirs
      rw [Forking.machine, same]
      split <;> rfl

end Moving

/-! ## Runs -/

/--
When a caller returns, the number which it returns is that of its child: a
live process with the caller as parent, listed once among its children, with
its directory and a copy of the descriptor table it had at the call.
-/
def ReturnsChild (state : Forking) (op : ForkOp) (next : Forking) : Prop :=
  op = .forkReturns →
    ∀ pid, state.running = some pid →
      ∀ call, state.places pid = .inFork call →
        ∃ child,
          next.returned =
              state.returned ++
                [{ call := call, pid := pid, value := child }] ∧
            ChildOf next.machine call child

/--
Every call returns at most once in its caller, with a number which was not
used before, and at most once in the process with this number, with 0.
Nobody else returns from it.
-/
structure ReturnsTwice (state : Forking) : Prop where
  made : ∀ entry ∈ state.returned, entry.call ∈ state.calls
  once : (state.returned.map fun entry => (entry.call, entry.pid)).Nodup
  twice : ∀ call ∈ state.calls, ∃ child,
    child ∉ call.used ∧ state.used.count child ≤ 1 ∧
      child ≠ call.caller ∧
      ∀ entry ∈ state.returned, entry.call = call →
        entry.pid = call.caller ∧ entry.value = child ∨
          entry.pid = child ∧ entry.value = 0

theorem kept_init (world : World) (dir : KernelDir) :
    Kept (Forking.init world dir) where
  sound := sound_new
  used := nofun
  distinct := List.nodup_nil
  ids := nofun
  past := nofun
  places := nofun
  stages := nofun
  returned := nofun
  once := List.nodup_nil

theorem returnsTwice_of_kept
    {state : Forking} (kept : Kept state) : ReturnsTwice state := by
  refine ⟨kept.returned, kept.once, ?_⟩
  intro call member
  have least (child : VPid) : state.used.count child ≤ 1 :=
    List.nodup_iff_count_le_one.mp kept.distinct child
  cases kept.stages call member with
  | pending helper inFork isHelper only facts silent =>
      -- No child yet: any number above those given out will do.
      refine
        ⟨state.driver.spawned + 1, ?_, least _, ?_,
          fun entry isEntry same => (silent entry isEntry same).elim⟩
      · intro past
        exact Nat.not_succ_le_self _ (kept.past call member _ past)
      · intro same
        have taken :=
          (kept.places call.caller call (by rw [inFork]; rfl)).2
        rw [← same] at taken
        exact Nat.not_succ_le_self _ taken
  | made child _ _ _ new _ silent =>
      exact
        ⟨child, new.2.1, least child, new.2.2,
          fun entry isEntry same => (silent entry isEntry same).elim⟩
  | left child _ _ new _ returns =>
      exact
        ⟨child, new.2.1, least child, new.2.2,
          fun entry isEntry same => Or.inl (returns entry isEntry same)⟩
  | finished child _ new returns =>
      exact ⟨child, new.2.1, least child, new.2.2, returns⟩

theorem returnsChild_of_kept
    {state next : Forking} {op : ForkOp} (kept : Kept state)
    (stepped : state.step op = some next) :
    ReturnsChild state op next := by
  rintro rfl pid isRunning call isIn
  obtain ⟨other, same, co, isOther, isCall, found, _, _, _, _, returned,
    dirs⟩ := forkReturns_cases stepped
  cases isRunning.symm.trans isOther
  rw [isIn] at isCall
  cases isCall
  have isCall : (state.places pid).resumed? = some call := by
    rw [isIn]
    rfl
  rcases returns_cases kept isRunning isCall found with
    ⟨child, _, _, _, _, _, facts, _, mark, value⟩ | ⟨isCopy, _⟩
  · rw [mark, value] at returned
    rw [mark, if_neg Bool.false_ne_true] at dirs
    refine ⟨child, returned, ?_⟩
    rw [Forking.machine, dirs]
    exact facts.childOf
  · cases isIn.symm.trans isCopy

/--
In every run with fewer than `2 ^ 32` processes, each call of fork returns
twice at most: in the caller with the number of its child, and in the child
with 0.
-/
theorem fork_returns_twice
    (world : World) (dir : KernelDir) (ops : List ForkOp) (final : Forking)
    (reached : run Forking.step (Forking.init world dir) ops = some final)
    (few : final.driver.spawned < 4294967296) :
    Along Forking.step ReturnsChild (Forking.init world dir) ops ∧
      ReturnsTwice final := by
  have numbered (state : Forking) (op : ForkOp) (next : Forking)
      (holds : Numbered state.driver)
      (stepped : state.step op = some next) : Numbered next.driver :=
    (numbered_moves (moves_step stepped) holds).1
  have before (state : Forking) (op : ForkOp) (next : Forking)
      (holds : Numbered state.driver)
      (stepped : state.step op = some next)
      (bounded : next.driver.spawned < 4294967296) :
      state.driver.spawned < 4294967296 :=
    lt_of_le_of_lt (numbered_moves (moves_step stepped) holds).2 bounded
  have within :
      Along Forking.step
        (fun _ _ next => next.driver.spawned < 4294967296)
        (Forking.init world dir) ops :=
    along_of_bounded numbered before (fun _ _ _ _ _ bounded => bounded)
      numbered_new reached few
  constructor
  · exact
      along_mono
        (fun _ _ _ kept stepped bounded => kept_step kept stepped bounded)
        (fun _ _ _ kept stepped _ => returnsChild_of_kept kept stepped)
        (kept_init world dir) within
  · refine returnsTwice_of_kept ?_
    exact
      invariant_of_along
        (fun _ _ _ kept stepped bounded => kept_step kept stepped bounded)
        (kept_init world dir) within reached

/-- Two processes fork at the same time, and the first child forks too. -/
def nestedForks : List ForkOp :=
  firstForks ++
    [resume, .vprocFfiFork 200, resume, .forkHelper, resume, .forkReturns,
      .other (.driver .doYield), resume, .forkReturns, .vprocFfiFork 300,
      resume, .forkHelper, resume, .forkReturns,
      .other (.driver (.exit .returned)), resume, .forkReturns,
      .other (.driver .doYield), resume, .other (.driver .doYield), resume,
      .forkReturns]

theorem fork_returns_twice_nested :
    ∃ final,
      run Forking.step
          (Forking.init (World.init Kernel.standard) KernelDir.root)
          nestedForks = some final ∧
        final.driver.spawned < 4294967296 ∧
        (final.returned.map fun entry =>
            (entry.call.id, entry.pid, entry.value)) =
          [(0, 1, 4), (0, 4, 0), (1, 2, 6), (1, 6, 0), (2, 4, 8)] ∧
        Along Forking.step ReturnsChild
          (Forking.init (World.init Kernel.standard) KernelDir.root)
          nestedForks ∧
        ReturnsTwice final := by
  have arrives :
      (run Forking.step
        (Forking.init (World.init Kernel.standard) KernelDir.root)
        nestedForks).isSome = true := by
    decide
  obtain ⟨final, reached⟩ := Option.isSome_iff_exists.mp arrives
  have counted :
      (run Forking.step
          (Forking.init (World.init Kernel.standard) KernelDir.root)
          nestedForks).map
        (fun state =>
          (state.driver.spawned,
            state.returned.map fun entry =>
              (entry.call.id, entry.pid, entry.value))) =
        some (8, [(0, 1, 4), (0, 4, 0), (1, 2, 6), (1, 6, 0), (2, 4, 8)]) := by
    decide
  rw [reached] at counted
  obtain ⟨spawned, returned⟩ :=
    Prod.mk.inj (Option.some.inj counted)
  have few : final.driver.spawned < 4294967296 := by
    rw [spawned]
    decide
  exact
    ⟨final, reached, few, returned,
      fork_returns_twice _ _ _ final reached few⟩

end Vproc.Ffi.ForkReturns
