import Vproc.Sched.ProcessTree

/-!
# Scheduling by `step` and `yield`

`Executor::step` and `Executor::yield` resume the next coroutine, as the driver
of a session does, but they leave the resumed coroutine the current one.  The
next call puts the current coroutine back into the queue if it is not done.

The coroutine has been put there already when its turn ended in `do_yield`,
and must not be put there when it ended in `yield_for_io`.  So a coroutine is
queued once for each turn only if no call finds the coroutine of the turn
before it alive, or none finds somebody to resume.
-/

namespace Vproc.Sched.StepApi

open Vproc.Lib.Run
open Vproc.Lib.FiniteMap
open Vproc.Fd.Table
open Vproc.Fd.Runtime
open Vproc.Sched.Scheduler
open Vproc.Sched.DriverSteps
open Vproc.Sched.ProcessTree

/-! ## Calls -/

/-- How a coroutine ends its turn. -/
inductive TurnEnd where
  | doYield
  | yieldForIo (fds : List (CInt × Int)) (timeoutMs : CInt) (now : Nat)
  | exit (code : CInt)
deriving DecidableEq, Repr

/-- What a resumed coroutine does: it spawns others, and ends its turn. -/
structure TurnPlan where
  spawned : Nat
  ending : TurnEnd
deriving DecidableEq, Repr

/-- The calls of the public interface. -/
inductive ApiOp where
  | spawn
  | step (turn : TurnPlan)
  | yield (turn : TurnPlan)
deriving DecidableEq, Repr

/-- Several processes spawned one after the other. -/
def spawnMany : Nat → Executor → Executor
  | 0, ex => ex
  | count + 1, ex => spawnMany count ex.spawn.1

/-- The end of a turn, before control goes back. -/
def TurnEnd.leave (ex : Executor) : TurnEnd → Executor
  | .doYield => ex.doYield
  | .yieldForIo fds timeoutMs now => ex.yieldForIo fds timeoutMs now
  | .exit code => ex.vprocExitWithCode code

/-- The rest of `Coroutine::resume`; the coroutine stays the current one. -/
def afterResume (ex : Executor) (pid : VPid) : Executor :=
  ex.update pid (settled false)

/-- The turn of a coroutine which has been resumed. -/
def runTurn (resumed : Executor) (pid : VPid) (turn : TurnPlan) : Executor :=
  afterResume (turn.ending.leave (spawnMany turn.spawned resumed)) pid

/-- `Executor::step`; none if the coroutine cannot be resumed. -/
def apiStep (ex : Executor) (turn : TurnPlan) : Option Executor :=
  ex.stepBegin.map fun begun =>
    match begun with
    | (left, none) => left
    | (resumed, some pid) => runTurn resumed pid turn

/-- `Executor::yield` before it calls `step`; none if it panics. -/
def requeueReady (ex : Executor) : Option Executor :=
  match ex.current with
  | none => some ex
  | some pid =>
      (ex.vprocs.lookup pid).map fun co =>
        if co.isDone then ex else (setReady ex pid).pushBack pid

/-- One call. -/
def call (ex : Executor) : ApiOp → Option Executor
  | .spawn => some ex.spawn.1
  | .step turn => apiStep ex turn
  | .yield turn => (requeueReady ex).bind fun queued => apiStep queued turn

/-! ## One turn for each yield -/

/-- The number of coroutines which are not done. -/
def liveCount (ex : Executor) : Nat :=
  (ex.vprocs.entries.filter fun entry => !entry.2.isDone).length

/-- Every live coroutine is queued at most once, and not while it waits. -/
structure OneTurnEach (ex : Executor) : Prop where
  once : ∀ pid co, ex.vprocs.lookup pid = some co → co.isDone = false →
    ex.readyQueue.count pid ≤ 1
  parked : ∀ pid co, ex.vprocs.lookup pid = some co →
    co.ioWait.isSome = true → pid ∉ ex.readyQueue
  short : ex.readyQueue.length ≤ liveCount ex

/-- The current coroutine is there and not done. -/
def liveCurrent (ex : Executor) : Bool :=
  ex.current.any fun pid =>
    (ex.vprocs.lookup pid).any fun co => !co.isDone

/-- Each of the next processes finds its number free. -/
def SpawnsFree : Nat → Executor → Prop
  | 0, _ => True
  | count + 1, ex => FreshPid ex ∧ SpawnsFree count ex.spawn.1

instance decidableSpawnsFree :
    ∀ (count : Nat) (ex : Executor), Decidable (SpawnsFree count ex)
  | 0, _ => isTrue True.intro
  | count + 1, ex =>
      have := decidableSpawnsFree count ex.spawn.1
      inferInstanceAs (Decidable ((_ ∧ _) ∧ SpawnsFree count ex.spawn.1))

/-- The processes which the resumed coroutine spawns find numbers. -/
def TurnSpawnsFree (ex : Executor) (turn : TurnPlan) : Prop :=
  ∀ begun ∈ ex.stepBegin, begun.2.isSome = true →
    SpawnsFree turn.spawned begun.1

instance (ex : Executor) (turn : TurnPlan) :
    Decidable (TurnSpawnsFree ex turn) :=
  inferInstanceAs (Decidable (∀ begun ∈ ex.stepBegin, _ → _))

/--
The coroutine of the turn before is done, or `step` finds nobody to resume;
new processes find free numbers.
-/
def Settled (ex : Executor) : ApiOp → Prop
  | .spawn => FreshPid ex
  | .step turn =>
      (liveCurrent ex = false ∨ ex.pickNext.2 = none) ∧
        TurnSpawnsFree ex turn
  | .yield turn => liveCurrent ex = false ∧ TurnSpawnsFree ex turn

instance (ex : Executor) (op : ApiOp) : Decidable (Settled ex op) :=
  match op with
  | .spawn => inferInstanceAs (Decidable (_ ∧ _))
  | .step _ => inferInstanceAs (Decidable ((_ ∨ _) ∧ _))
  | .yield _ => inferInstanceAs (Decidable (_ ∧ _))

/-! ## The invariant -/

/-- The coroutine can be resumed: it is not done, and does not wait. -/
def Runnable (ex : Executor) (pid : VPid) : Prop :=
  ∃ co, ex.vprocs.lookup pid = some co ∧ co.isDone = false ∧
    co.ioWait = none

/-- Who is queued is runnable, and queued once; no signal is pending. -/
structure Queues (ex : Executor) : Prop where
  nodup : ex.readyQueue.Nodup
  runnable : ∀ pid ∈ ex.readyQueue, Runnable ex pid
  unsignalled : ∀ pid co, ex.vprocs.lookup pid = some co →
    co.pendingSignals = []

/-- A coroutine has its turn, and is not queued. -/
structure InTurn (ex : Executor) (pid : VPid) : Prop extends Queues ex where
  current : ex.current = some pid
  absent : pid ∉ ex.readyQueue
  running : ∃ co, ex.vprocs.lookup pid = some co ∧
    co.state = .running ∧ co.ioWait = none

theorem oneTurnEach_of_queues {ex : Executor} (queues : Queues ex) :
    OneTurnEach ex where
  once := by
    intro pid co _ _
    exact List.nodup_iff_count_le_one.mp queues.nodup pid
  parked := by
    intro pid co found waits queued
    obtain ⟨other, same, _, ready⟩ := queues.runnable pid queued
    rw [found] at same
    cases same
    rw [ready] at waits
    cases waits
  short := by
    have listed : ex.readyQueue ⊆
        (ex.vprocs.entries.filter fun entry => !entry.2.isDone).map
          Sigma.fst := by
      intro pid queued
      obtain ⟨co, found, live, _⟩ := queues.runnable pid queued
      refine List.mem_map.mpr ⟨⟨pid, co⟩, ?_, rfl⟩
      exact
        List.mem_filter.mpr ⟨mem_entries_iff.mpr found, by simp [live]⟩
    have short := (queues.nodup.subperm listed).length_le
    rwa [List.length_map] at short

/-! ## Spawning -/

/-- A spawn adds one coroutine, and queues it last. -/
theorem lookup_spawn (ex : Executor) (pid : VPid) :
    ex.spawn.1.vprocs.lookup pid =
      if pid = ex.nextPid then some (Coroutine.new ex.nextPid)
      else ex.vprocs.lookup pid :=
  lookup_insert_eq ex.vprocs ex.nextPid pid _

theorem queues_spawn
    {ex : Executor} (queues : Queues ex) (fresh : FreshPid ex) :
    Queues ex.spawn.1 where
  nodup := by
    have apart : List.Disjoint ex.readyQueue [ex.nextPid] :=
      List.disjoint_singleton.mpr fresh.2
    exact queues.nodup.append (List.nodup_singleton _) apart
  runnable := by
    intro pid queued
    by_cases new : pid = ex.nextPid
    · exact ⟨_, (lookup_spawn ex pid).trans (if_pos new), rfl, rfl⟩
    · have before : pid ∈ ex.readyQueue := by
        rcases List.mem_append.mp queued with old | last
        · exact old
        · exact absurd (List.mem_singleton.mp last) new
      obtain ⟨co, found, live, ready⟩ := queues.runnable pid before
      have kept := (lookup_spawn ex pid).trans (if_neg new)
      exact ⟨co, kept.trans found, live, ready⟩
  unsignalled := by
    intro pid co found
    rw [lookup_spawn] at found
    split at found
    · cases found
      rfl
    · exact queues.unsignalled pid co found

theorem inTurn_spawn
    {ex : Executor} {pid : VPid} (turn : InTurn ex pid)
    (fresh : FreshPid ex) : InTurn ex.spawn.1 pid := by
  obtain ⟨co, found, running, ready⟩ := turn.running
  have old : pid ≠ ex.nextPid := by
    rintro rfl
    exact fresh.1 (mem_iff_lookup.mpr ⟨co, found⟩)
  refine
    { queues_spawn turn.toQueues fresh with
      current := turn.current
      absent := ?_
      running := ?_ }
  · intro queued
    rcases List.mem_append.mp queued with before | last
    · exact turn.absent before
    · exact old (List.mem_singleton.mp last)
  · have kept := (lookup_spawn ex pid).trans (if_neg old)
    exact ⟨co, kept.trans found, running, ready⟩

theorem inTurn_spawnMany
    {count : Nat} {ex : Executor} {pid : VPid}
    (turn : InTurn ex pid) (free : SpawnsFree count ex) :
    InTurn (spawnMany count ex) pid := by
  induction count generalizing ex with
  | zero => exact turn
  | succ count induction =>
      exact induction (inTurn_spawn turn free.1) free.2

/-! ## Resuming -/

/-- Nobody is put back if the current coroutine is not alive. -/
theorem requeueLive_of_not_live
    {ex : Executor} (idle : liveCurrent ex = false) :
    ex.requeueLive = ex := by
  unfold Executor.requeueLive
  cases current : ex.current with
  | none => rfl
  | some pid =>
      cases found : ex.vprocs.lookup pid with
      | none => simp only [found]
      | some co =>
          have finished : co.isDone = true := by
            simpa [liveCurrent, current, found] using idle
          simp only [found, finished, if_true]

theorem deliverSignals_of_unsignalled
    {ex : Executor} (queues : Queues ex) (pid : VPid) :
    ex.deliverSignals pid = (ex, false) := by
  unfold Executor.deliverSignals
  cases found : ex.vprocs.lookup pid with
  | none => rfl
  | some co => simp [queues.unsignalled pid co found]

/-- Dropping the front of the queue keeps the rest in order. -/
theorem queues_suffix
    {ex : Executor} (queues : Queues ex) {left : List VPid}
    (suffix : left <:+ ex.readyQueue) :
    Queues { ex with readyQueue := left } where
  nodup := queues.nodup.sublist suffix.sublist
  runnable := fun pid queued =>
    queues.runnable pid (suffix.mem queued)
  unsignalled := queues.unsignalled

/-- The turn of a coroutine begins with the coroutine off the queue. -/
theorem inTurn_resumeBegin
    {ex resumed : Executor} {pid : VPid} (queues : Queues ex)
    (absent : pid ∉ ex.readyQueue) (runnable : Runnable ex pid)
    (resumes : ex.resumeBegin pid = some resumed) :
    InTurn resumed pid := by
  obtain ⟨sameQueue, current, lookups⟩ := resumeBegin_spec resumes
  obtain ⟨co, found, _, ready⟩ := runnable
  refine
    { nodup := sameQueue ▸ queues.nodup
      runnable := ?_
      unsignalled := ?_
      current := current
      absent := sameQueue ▸ absent
      running := ?_ }
  · intro other queued
    rw [sameQueue] at queued
    have different : other ≠ pid := by
      rintro rfl
      exact absent queued
    obtain ⟨waiting, stored, live, off⟩ := queues.runnable other queued
    have kept := (lookups other).trans (if_neg different)
    exact ⟨waiting, kept.trans stored, live, off⟩
  · intro other changed stored
    rw [lookups] at stored
    split at stored
    · obtain ⟨before, was, rfl⟩ := Option.map_eq_some_iff.mp stored
      exact queues.unsignalled other before was
    · exact queues.unsignalled other changed stored
  · refine ⟨{ co with state := .running, started := true }, ?_, rfl, ready⟩
    rw [lookups, if_pos rfl, found]
    rfl

/-! ## Leaving -/

/-- What the end of a turn does: it may queue its own coroutine, once. -/
structure Left (ex left : Executor) (pid : VPid) : Prop where
  others : ∀ other, other ≠ pid →
    left.vprocs.lookup other = ex.vprocs.lookup other
  unsignalled : ∀ co, left.vprocs.lookup pid = some co →
    co.pendingSignals = []
  queue : left.readyQueue = ex.readyQueue ∨
    left.readyQueue = ex.readyQueue ++ [pid] ∧ Runnable left pid

theorem queues_of_left
    {ex left : Executor} {pid : VPid} (turn : InTurn ex pid)
    (leaves : Left ex left pid) : Queues left where
  nodup := by
    rcases leaves.queue with same | ⟨queued, _⟩
    · exact same ▸ turn.nodup
    · have apart : List.Disjoint ex.readyQueue [pid] :=
        List.disjoint_singleton.mpr turn.absent
      exact queued ▸ turn.nodup.append (List.nodup_singleton _) apart
  runnable := by
    have before : ∀ other ∈ ex.readyQueue, Runnable left other := by
      intro other queued
      have different : other ≠ pid := by
        rintro rfl
        exact turn.absent queued
      obtain ⟨co, found, live, ready⟩ := turn.runnable other queued
      exact ⟨co, (leaves.others other different).trans found, live, ready⟩
    intro other queued
    rcases leaves.queue with same | ⟨last, runnable⟩
    · exact before other (same ▸ queued)
    · rw [last, List.mem_append, List.mem_singleton] at queued
      rcases queued with old | rfl
      · exact before other old
      · exact runnable
  unsignalled := by
    intro other co found
    by_cases same : other = pid
    · exact leaves.unsignalled co (same ▸ found)
    · exact turn.unsignalled other co
        ((leaves.others other same).symm.trans found)

/-- A turn which changes its coroutine only, and leaves the queue. -/
theorem left_of_update
    {ex left : Executor} {pid : VPid} (turn : InTurn ex pid)
    (change : Coroutine → Coroutine)
    (quiet : ∀ co, (change co).pendingSignals = co.pendingSignals)
    (vprocs : left.vprocs = (ex.update pid change).vprocs)
    (sameQueue : left.readyQueue = ex.readyQueue) :
    Left ex (afterResume left pid) pid := by
  have lookups (other : VPid) :
      (afterResume left pid).vprocs.lookup other =
        if other = pid then
          (ex.vprocs.lookup other).map (settled false ∘ change)
        else ex.vprocs.lookup other := by
    rw [afterResume, lookup_update, vprocs, lookup_update]
    split
    · rw [Option.map_map]
    · rfl
  refine ⟨?_, ?_, Or.inl sameQueue⟩
  · intro other different
    exact (lookups other).trans (if_neg different)
  · intro co found
    rw [lookups, if_pos rfl] at found
    obtain ⟨before, was, rfl⟩ := Option.map_eq_some_iff.mp found
    have calm := turn.unsignalled pid before was
    simp only [Function.comp_apply, settled]
    split
    · rw [quiet, calm]
    · exact (quiet before).trans calm

theorem left_of_doYield
    {ex : Executor} {pid : VPid} (turn : InTurn ex pid) :
    Left ex (afterResume ex.doYield pid) pid := by
  obtain ⟨co, found, running, ready⟩ := turn.running
  have live : co.isDone = false := by
    rw [Coroutine.isDone, running]
    rfl
  have queued : ex.doYield = ex.pushBack pid := by
    simp [Executor.doYield, Executor.requeueLive, turn.current, found, live]
  have lookups (other : VPid) :
      (afterResume (ex.pushBack pid) pid).vprocs.lookup other =
        if other = pid then (ex.vprocs.lookup other).map (settled false)
        else ex.vprocs.lookup other :=
    lookup_update (ex.pushBack pid) pid other _
  have stays :
      (afterResume (ex.pushBack pid) pid).vprocs.lookup pid =
        some (settled false co) := by
    rw [lookups, if_pos rfl, found]
    rfl
  rw [queued]
  refine ⟨?_, ?_, Or.inr ⟨rfl, settled false co, stays, ?_, ?_⟩⟩
  · intro other different
    exact (lookups other).trans (if_neg different)
  · intro changed stored
    cases stays.symm.trans stored
    simp [settled, live, turn.unsignalled pid co found]
  · simp [settled, Coroutine.isDone, running]
  · simp [settled, live, ready]

theorem left_of_ending
    {ex : Executor} {pid : VPid} (turn : InTurn ex pid)
    (ending : TurnEnd) :
    Left ex (afterResume (ending.leave ex) pid) pid := by
  cases ending with
  | doYield => exact left_of_doYield turn
  | yieldForIo fds timeoutMs now =>
      refine
        left_of_update turn
          (fun co =>
            if co.isDone then co
            else
              { co with
                ioWait :=
                  some
                    { fds := fds
                      deadline := Executor.deadlineOf timeoutMs now } })
          ?_ ?_ ?_
      · intro co
        split
        · rfl
        · rfl
      · simp only [TurnEnd.leave, Executor.yieldForIo, turn.current]
      · simp only [TurnEnd.leave, Executor.yieldForIo, turn.current]
        rfl
  | exit code =>
      refine
        left_of_update turn
          (fun co => { co with state := .done, exitCode := code })
          (fun _ => rfl) ?_ ?_
      · simp only [TurnEnd.leave, Executor.vprocExitWithCode, turn.current]
      · simp only [TurnEnd.leave, Executor.vprocExitWithCode, turn.current]
        rfl

/-! ## Runs -/

theorem queues_apiStep
    {ex next : Executor} {turn : TurnPlan} (queues : Queues ex)
    (settles : liveCurrent ex = false ∨ ex.pickNext.2 = none)
    (free : TurnSpawnsFree ex turn)
    (stepped : apiStep ex turn = some next) : Queues next := by
  obtain ⟨begun, begins, result⟩ := Option.map_eq_some_iff.mp stepped
  have spawnsFree := free begun begins
  cases picked : ex.pickNext with
  | mk left choice =>
      cases choice with
      | none =>
          obtain ⟨rfl, _⟩ := pickNext_none picked
          simp only [Executor.stepBegin, picked] at begins
          cases begins
          cases result
          exact queues_suffix queues List.nil_suffix
      | some pid =>
          obtain ⟨skipped, rest, co, _, queue, rfl, _, _⟩ :=
            pickNext_some picked
          have shorter : rest <:+ ex.readyQueue := by
            rw [queue]
            exact
              (List.suffix_cons pid rest).trans (List.suffix_append _ _)
          have leftQueues := queues_suffix queues shorter
          have idle : liveCurrent { ex with readyQueue := rest } = false :=
            settles.resolve_right (by simp [picked])
          simp only [Executor.stepBegin, picked,
            deliverSignals_of_unsignalled leftQueues,
            requeueLive_of_not_live idle] at begins
          obtain ⟨resumed, resumes, rfl⟩ :=
            Option.map_eq_some_iff.mp begins
          cases result
          have queued : pid ∈ ex.readyQueue := by
            rw [queue]
            exact List.mem_append_right _ List.mem_cons_self
          have absent : pid ∉ rest := by
            have nodup := queues.nodup
            rw [queue] at nodup
            exact (List.nodup_cons.mp nodup.of_append_right).1
          have inTurn :=
            inTurn_resumeBegin leftQueues absent
              (queues.runnable pid queued) resumes
          have spawned := inTurn_spawnMany inTurn (spawnsFree rfl)
          exact
            queues_of_left spawned (left_of_ending spawned turn.ending)

/-- Each call keeps the queue in order. -/
theorem queues_call
    {ex next : Executor} {op : ApiOp} (queues : Queues ex)
    (called : call ex op = some next) (settles : Settled ex op) :
    Queues next := by
  cases op with
  | spawn =>
      cases called
      exact queues_spawn queues settles
  | step turn => exact queues_apiStep queues settles.1 settles.2 called
  | yield turn =>
      obtain ⟨idle, free⟩ := settles
      obtain ⟨queued, requeued, stepped⟩ :=
        Option.bind_eq_some_iff.mp called
      have same : queued = ex := by
        unfold requeueReady at requeued
        cases current : ex.current with
        | none =>
            simp only [current] at requeued
            exact (Option.some.inj requeued).symm
        | some pid =>
            simp only [current] at requeued
            obtain ⟨co, found, rfl⟩ :=
              Option.map_eq_some_iff.mp requeued
            have finished : co.isDone = true := by
              simpa [liveCurrent, current, found] using idle
            exact if_pos finished
      subst same
      exact queues_apiStep queues (Or.inl idle) free stepped

theorem queues_new : Queues Executor.new where
  nodup := List.nodup_nil
  runnable := by
    intro pid queued
    cases queued
  unsignalled := by
    intro pid co found
    cases found

/--
In a run whose calls find the coroutine of the turn before done, or nobody to
resume, every live coroutine is queued at most once, and none while it waits.
-/
theorem one_turn_each
    {ops : List ApiOp} {final : Executor}
    (settles :
      Along call (fun ex op _ => Settled ex op) Executor.new ops)
    (reached : run call Executor.new ops = some final) :
    OneTurnEach final := by
  have queues : Queues final :=
    invariant_of_along
      (fun _ _ _ holds called settles => queues_call holds called settles)
      queues_new settles reached
  exact oneTurnEach_of_queues queues

/-- Three coroutines: the first spawns the third, and only the last yields. -/
theorem one_turn_each_three :
    ∃ final,
      run call Executor.new
          [.spawn, .spawn, .step ⟨1, .exit 0⟩, .yield ⟨0, .exit 7⟩,
            .step ⟨0, .doYield⟩] = some final ∧
        final.readyQueue = [3] ∧ OneTurnEach final :=
  have settles :
      Along call (fun ex op _ => Settled ex op) Executor.new
        [.spawn, .spawn, .step ⟨1, .exit 0⟩, .yield ⟨0, .exit 7⟩,
          .step ⟨0, .doYield⟩] := by
    decide
  ⟨_, rfl, rfl, one_turn_each settles rfl⟩

/-- A coroutine which yields twice is in the queue twice. -/
theorem queued_twice_after_two_yields :
    ¬∀ (ops : List ApiOp) (final : Executor),
      run call Executor.new ops = some final → OneTurnEach final := by
  intro each
  have twice :=
    (each [.spawn, .step ⟨0, .doYield⟩, .step ⟨0, .doYield⟩] _ rfl).once
      1 _ rfl rfl
  exact absurd twice (by decide)

end Vproc.Sched.StepApi
