import Vproc.Sched.ProcessTree

/-!
# Which processes there are

A process is there from its spawn until it is reaped; no other step of the
driver adds one or takes one away.
-/

namespace Vproc.Sched.Processes

open Vproc.Lib.FiniteMap
open Vproc.Fd.Table
open Vproc.Fd.Runtime
open Vproc.Sched.Scheduler
open Vproc.Sched.DriverLoop
open Vproc.Sched.DriverSteps
open Vproc.Sched.ProcessTree

/-- The same processes are there. -/
def SameProcesses (ex next : Executor) : Prop :=
  ∀ pid, pid ∈ next.vprocs ↔ pid ∈ ex.vprocs

theorem SameProcesses.trans
    {first second third : Executor}
    (left : SameProcesses first second) (right : SameProcesses second third) :
    SameProcesses first third :=
  fun pid => (right pid).trans (left pid)

theorem sameProcesses_deliverSignals (ex : Executor) (pid : VPid) :
    SameProcesses ex (ex.deliverSignals pid).1 := by
  unfold Executor.deliverSignals
  split
  · exact fun _ => Iff.rfl
  · split
    · exact fun _ => Iff.rfl
    · split
      · exact fun other => mem_update ex pid other _
      · exact fun other => mem_update ex pid other _

theorem sameProcesses_resumeBegin
    {ex next : Executor} {pid : VPid}
    (resumed : ex.resumeBegin pid = some next) :
    SameProcesses ex next := by
  unfold Executor.resumeBegin at resumed
  split at resumed
  · cases resumed
  · split at resumed
    · cases resumed
    · cases resumed
      exact fun other => mem_update ex pid other _

theorem sameProcesses_wakeIoReady
    (ex : Executor) (polled : List (Bool × VPid)) (now : Nat) :
    SameProcesses ex (ex.wakeIoReady polled now) := by
  refine @wakeIoReady_rec (SameProcesses ex) ex polled now ?_ ?_
  · exact fun _ => Iff.rfl
  · intro before same woken _
    rw [wakeOne_eq]
    exact same.trans fun other => mem_update before woken other _

theorem sameProcesses_ending
    {ex left : Executor} {op : DriverOp} {dead : Bool} {taken : Nat}
    (ending : Ending ex op left dead taken) (pid : VPid) :
    SameProcesses ex (left.resumeEnd pid dead) := by
  have ended (start : Executor) :
      SameProcesses start (start.resumeEnd pid dead) :=
    fun other => mem_update start pid other _
  have exited (start : Executor) (code : CInt) :
      SameProcesses start (start.vprocExitWithCode code) := by
    unfold Executor.vprocExitWithCode
    split
    · exact fun _ => Iff.rfl
    · exact fun other => mem_update start _ other _
  refine SameProcesses.trans ?_ (ended left)
  cases ending with
  | yields =>
      rw [Executor.doYield]
      rcases requeueLive_eq ex with same | ⟨_, _, pushed⟩
      · rw [same]
        exact fun _ => Iff.rfl
      · rw [pushed]
        exact fun _ => Iff.rfl
  | waits fds timeoutMs now =>
      unfold Executor.yieldForIo
      split
      · exact fun _ => Iff.rfl
      · exact fun other => mem_update ex _ other _
  | exits cause => exact exited ex _
  | raises fatal => exact exited ex _
  | panics missing => exact exited ex.takePid _
  | returns => exact fun _ => Iff.rfl

/-- A process is spawned under the next number. -/
theorem mem_spawned_iff
    {ex next : Executor} (child : Spawned ex next) (pid : VPid) :
    pid ∈ next.vprocs ↔ pid = ex.nextPid ∨ pid ∈ ex.vprocs := by
  cases child with
  | back => exact AList.mem_insert _
  | front => exact AList.mem_insert _
  | elf => exact AList.mem_insert _
  | fork forked =>
      rcases Option.map_eq_some_iff.mp forked with ⟨co, _, result⟩
      cases result
      exact (mem_update _ _ _ _).trans (AList.mem_insert _)

/-- The processes after a step. -/
theorem processes_change
    {driver next : Driver} {op : DriverOp}
    (change : Change driver op next) (pid : VPid) :
    pid ∈ next.executor.vprocs ↔
      if spawns driver op then
        pid = driver.executor.nextPid ∨ pid ∈ driver.executor.vprocs
      else if op = .reapDoneCoroutines then
        pid ∈ driver.executor.vprocs ∧ pid ∉ driver.executor.donePids
      else pid ∈ driver.executor.vprocs := by
  have neither (quiet : spawns driver op = false)
      (stays : op ≠ .reapDoneCoroutines)
      (same : SameProcesses driver.executor next.executor) :
      pid ∈ next.executor.vprocs ↔
        if spawns driver op then
          pid = driver.executor.nextPid ∨ pid ∈ driver.executor.vprocs
        else if op = .reapDoneCoroutines then
          pid ∈ driver.executor.vprocs ∧ pid ∉ driver.executor.donePids
        else pid ∈ driver.executor.vprocs := by
    rw [quiet, if_neg Bool.false_ne_true, if_neg stays]
    exact same pid
  have turning (begins : beginsTurn op = true) :
      spawns driver op = false ∧ op ≠ .reapDoneCoroutines := by
    cases op <;> simp_all [beginsTurn, spawns]
  cases change with
  | spawned isSpawn child =>
      rw [isSpawn, if_pos rfl]
      exact mem_spawned_iff child pid
  | idles idle begins nothing =>
      rcases turning begins with ⟨quiet, stays⟩
      rcases pickNext_none nothing with ⟨rfl, _⟩
      exact neither quiet stays fun _ => Iff.rfl
  | resumes turn idle begins chosen isResumed =>
      rcases turning begins with ⟨quiet, stays⟩
      rcases pickNext_some chosen with ⟨_, rest, _, _, _, rfl, _, _⟩
      refine neither quiet stays ?_
      exact
        (sameProcesses_deliverSignals
            { driver.executor with readyQueue := rest } turn.pid).trans
          (sameProcesses_resumeBegin isResumed)
  | ends turn running ending =>
      have same := sameProcesses_ending ending turn.pid
      cases ending with
      | panics missing =>
          exact neither (decide_eq_false missing) (by simp) same
      | yields => exact neither rfl (by simp) same
      | waits => exact neither rfl (by simp) same
      | exits => exact neither rfl (by simp) same
      | raises => exact neither rfl (by simp) same
      | returns => exact neither rfl (by simp) same
  | signals target sig isSignal =>
      rcases isSignal with rfl | ⟨rfl, _⟩
      · exact neither rfl (by simp) fun other => mem_update _ target other _
      · exact neither rfl (by simp) fun other => mem_update _ target other _
  | forgets target => exact neither rfl (by simp) fun _ => Iff.rfl
  | collects => exact neither rfl (by simp) fun _ => Iff.rfl
  | wakes revents now idle =>
      exact neither rfl (by simp) (sameProcesses_wakeIoReady _ _ now)
  | reaps idle =>
      rw [if_neg (by simp [spawns]), if_pos rfl]
      exact mem_reapedVprocs_iff
  | calls call => exact neither rfl (by simp) fun _ => Iff.rfl

end Vproc.Sched.Processes
