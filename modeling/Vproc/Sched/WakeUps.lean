import Vproc.Lib.Blocks
import Vproc.Sched.ReadyQueue

/-!
# Who is woken

`collect_io_waits` puts the descriptors of all waiting coroutines into one
list, coroutine after coroutine, and their numbers into a second list of the
same length.  `wake_io_ready` gets back what the kernel has found for each
position, and wakes the coroutines at the positions where it has found
something, and those whose deadline has passed.

Each waiting coroutine is woken if one of its own descriptors is ready or its
own deadline has passed, and appended to the queue once.  A coroutine which
stands in the queue already is not appended; a waiting one stands there only
if a process number has been given twice.
-/

namespace Vproc.Sched.WakeUps

open Vproc.Lib.Blocks
open Vproc.Lib.Run
open Vproc.Lib.FiniteMap
open Vproc.Fd.Table
open Vproc.Fd.KernelTable
open Vproc.Fd.Runtime
open Vproc.Sched.Scheduler
open Vproc.Sched.DriverLoop
open Vproc.Sched.DriverSteps
open Vproc.Sched.ReadyQueue

/-! ## Positions -/

/-- The descriptors a coroutine waits for, with their events. -/
def waitFds (co : Coroutine) : List (CInt × Int) :=
  match co.ioWait with
  | some wait => wait.fds
  | none => []

/-- The list `pollfds` of `collect_io_waits`, without the `revents`. -/
def collectPollfds (ex : Executor) : List (CInt × Int) :=
  ex.vprocs.entries.flatMap fun entry => waitFds entry.2

/-- What each coroutine contributes to the two lists. -/
def waitBlocks (ex : Executor) : List (VPid × List (CInt × Int)) :=
  ex.vprocs.entries.map fun entry => (entry.1, waitFds entry.2)

/-- The position of the first descriptor of a coroutine. -/
def firstSlot (ex : Executor) (pid : VPid) : Nat :=
  offset (waitBlocks ex) pid

theorem items_waitBlocks (ex : Executor) :
    items (waitBlocks ex) = collectPollfds ex := by
  rw [items, waitBlocks, List.flatMap_map]
  rfl

theorem owners_waitBlocks (ex : Executor) :
    owners (waitBlocks ex) = ex.collectIoWaits := by
  rw [owners, waitBlocks, List.flatMap_map]
  unfold Executor.collectIoWaits waitFds
  congr 1
  funext entry
  cases entry.2.ioWait <;> rfl

theorem distinct_waitBlocks (ex : Executor) :
    Distinct (waitBlocks ex) := by
  rw [Distinct, waitBlocks, List.map_map]
  exact ex.vprocs.nodupKeys

theorem mem_waitBlocks
    {ex : Executor} {pid : VPid} {co : Coroutine}
    (found : ex.vprocs.lookup pid = some co) :
    (pid, waitFds co) ∈ waitBlocks ex :=
  List.mem_map.mpr ⟨⟨pid, co⟩, mem_entries_iff.mpr found, rfl⟩

/-! ## Waking -/

/-- `wake_io_ready` with what the kernel has found for each position. -/
def wake (ex : Executor) (revents : List Int) (now : Nat) : Executor :=
  ex.wakeIoReady
    ((revents.map fun found => decide (found ≠ 0)).zip ex.collectIoWaits)
    now

/-- The coroutine waits. -/
def Parked (ex : Executor) (pid : VPid) (wait : IoWait) : Prop :=
  ∃ co, ex.vprocs.lookup pid = some co ∧ co.ioWait = some wait

/-- One of its own descriptors is ready, or its own deadline has passed. -/
def IsDue (ex : Executor) (revents : List Int) (now : Nat) (pid : VPid)
    (wait : IoWait) : Prop :=
  (∃ j < wait.fds.length, ∃ found,
      revents[firstSlot ex pid + j]? = some found ∧ found ≠ 0) ∨
    ∃ deadline, wait.deadline = some deadline ∧ deadline ≤ now

/-- It waits, and has to be woken. -/
def ToWake (ex : Executor) (revents : List Int) (now : Nat) (pid : VPid) :
    Prop :=
  ∃ wait, Parked ex pid wait ∧ IsDue ex revents now pid wait

/-- It does not wait any longer, and is in the queue. -/
def IsAwake (ex : Executor) (pid : VPid) : Prop :=
  (∃ co, ex.vprocs.lookup pid = some co ∧ co.ioWait = none) ∧
    pid ∈ ex.readyQueue

/-- What `wake_io_ready` does, with the list which has just been collected. -/
structure WakesExactly (ex : Executor) (revents : List Int) (now : Nat) :
    Prop where
  ownSlots : ∀ pid wait, Parked ex pid wait → ∀ j < wait.fds.length,
    (collectPollfds ex)[firstSlot ex pid + j]? = wait.fds[j]?
  woken : ∀ pid wait, Parked ex pid wait →
    (IsAwake (wake ex revents now) pid ↔ IsDue ex revents now pid wait)
  appended : ∃ added,
    (wake ex revents now).readyQueue = ex.readyQueue ++ added ∧
      added.Nodup ∧ ∀ pid, pid ∈ added ↔ ToWake ex revents now pid
  others : ∀ pid, ¬ ToWake ex revents now pid →
    (wake ex revents now).vprocs.lookup pid = ex.vprocs.lookup pid

/-! ## The numbers which are found -/

theorem mem_foldl_addReady_iff
    {pids start : List VPid} {pid : VPid} :
    pid ∈ pids.foldl Executor.addReady start ↔
      pid ∈ start ∨ pid ∈ pids := by
  induction pids generalizing start with
  | nil => simp
  | cons first rest induction =>
      have added : pid ∈ Executor.addReady start first ↔
          pid ∈ start ∨ pid = first := by
        unfold Executor.addReady
        split
        · rename_i known
          constructor
          · exact Or.inl
          · rintro (before | rfl)
            · exact before
            · exact known
        · rw [List.mem_append, List.mem_singleton]
      rw [List.foldl_cons, induction, added, List.mem_cons, or_assoc]

theorem nodup_foldl_addReady
    {start : List VPid} (pids : List VPid) (nodup : start.Nodup) :
    (pids.foldl Executor.addReady start).Nodup := by
  induction pids generalizing start with
  | nil => exact nodup
  | cons first rest induction =>
      refine induction ?_
      unfold Executor.addReady
      split
      · exact nodup
      · rename_i fresh
        exact nodup.append (List.nodup_singleton first)
          (List.disjoint_singleton.mpr fresh)

theorem nodup_readyPids
    (ex : Executor) (polled : List (Bool × VPid)) (now : Nat) :
    (ex.readyPids polled now).Nodup :=
  nodup_foldl_addReady _ (nodup_foldl_addReady _ List.nodup_nil)

theorem mem_readyPids_iff
    {ex : Executor} {polled : List (Bool × VPid)} {now : Nat}
    {pid : VPid} :
    pid ∈ ex.readyPids polled now ↔
      (true, pid) ∈ polled ∨
        ∃ co, ex.vprocs.lookup pid = some co ∧
          Executor.hasExpired now co = true := by
  have byPoll :
      pid ∈ (polled.filter Prod.fst).map Prod.snd ↔
        (true, pid) ∈ polled := by
    rw [List.mem_map]
    constructor
    · rintro ⟨⟨ready, other⟩, kept, rfl⟩
      obtain ⟨member, isReady⟩ := List.mem_filter.mp kept
      cases isReady
      exact member
    · intro member
      exact ⟨(true, pid), List.mem_filter.mpr ⟨member, rfl⟩, rfl⟩
  have byDeadline :
      pid ∈ (ex.vprocs.entries.filter fun entry =>
          Executor.hasExpired now entry.2).map Sigma.fst ↔
        ∃ co, ex.vprocs.lookup pid = some co ∧
          Executor.hasExpired now co = true := by
    rw [List.mem_map]
    constructor
    · rintro ⟨⟨other, co⟩, kept, rfl⟩
      obtain ⟨member, expired⟩ := List.mem_filter.mp kept
      exact ⟨co, mem_entries_iff.mp member, expired⟩
    · rintro ⟨co, found, expired⟩
      exact
        ⟨⟨pid, co⟩,
          List.mem_filter.mpr ⟨mem_entries_iff.mpr found, expired⟩, rfl⟩
  unfold Executor.readyPids
  dsimp only
  rw [mem_foldl_addReady_iff, mem_foldl_addReady_iff, byPoll, byDeadline]
  simp only [List.not_mem_nil, false_or]

/-- A coroutine with descriptors in the list waits for them. -/
theorem parked_of_slot
    {ex : Executor} {pid : VPid} {co : Coroutine} {j : Nat}
    (found : ex.vprocs.lookup pid = some co)
    (below : j < (waitFds co).length) :
    ∃ wait, Parked ex pid wait ∧ wait.fds = waitFds co := by
  unfold waitFds at below ⊢
  cases waits : co.ioWait with
  | none =>
      rw [waits] at below
      cases below
  | some wait => exact ⟨wait, ⟨co, found, waits⟩, rfl⟩

/-- A position of a coroutine at which the kernel has found something. -/
theorem polled_iff
    {ex : Executor} {pid : VPid} {co : Coroutine}
    (found : ex.vprocs.lookup pid = some co) (revents : List Int) :
    (true, pid) ∈
        (revents.map fun found => decide (found ≠ 0)).zip
          ex.collectIoWaits ↔
      ∃ j < (waitFds co).length, ∃ answer,
        revents[firstSlot ex pid + j]? = some answer ∧ answer ≠ 0 := by
  have slots :=
    exists_mem_zip_owners_iff (distinct_waitBlocks ex)
      (mem_waitBlocks found) revents fun answer => answer ≠ 0
  rw [firstSlot, ← slots, owners_waitBlocks, List.zip_map_left,
    List.mem_map]
  constructor
  · rintro ⟨⟨answer, other⟩, member, same⟩
    obtain ⟨ready, rfl⟩ := Prod.mk.inj same
    exact ⟨answer, member, of_decide_eq_true ready⟩
  · rintro ⟨answer, member, ready⟩
    exact
      ⟨(answer, pid), member,
        Prod.ext (decide_eq_true ready) rfl⟩

/-- The numbers found are those of the coroutines which have to be woken. -/
theorem mem_readyPids_wake_iff
    (ex : Executor) (revents : List Int) (now : Nat) (pid : VPid) :
    pid ∈ ex.readyPids
        ((revents.map fun found => decide (found ≠ 0)).zip
          ex.collectIoWaits) now ↔
      ToWake ex revents now pid := by
  rw [mem_readyPids_iff]
  constructor
  · rintro (polled | ⟨co, found, expired⟩)
    · obtain ⟨co, found⟩ :=
        mem_iff_lookup.mp (mem_collectIoWaits (List.of_mem_zip polled).2)
      obtain ⟨j, below, ready⟩ := (polled_iff found revents).mp polled
      obtain ⟨wait, parked, fds⟩ := parked_of_slot found below
      exact ⟨wait, parked, Or.inl ⟨j, fds ▸ below, ready⟩⟩
    · unfold Executor.hasExpired at expired
      split at expired
      · rename_i fds deadline waits
        exact
          ⟨_, ⟨co, found, waits⟩,
            Or.inr ⟨deadline, rfl, of_decide_eq_true expired⟩⟩
      · cases expired
  · rintro ⟨wait, ⟨co, found, waits⟩, due⟩
    rcases due with ⟨j, below, ready⟩ | ⟨deadline, isDeadline, past⟩
    · refine Or.inl ((polled_iff found revents).mpr ⟨j, ?_, ready⟩)
      rw [waitFds, waits]
      exact below
    · refine Or.inr ⟨co, found, ?_⟩
      obtain ⟨fds, limit⟩ := wait
      cases isDeadline
      simp [Executor.hasExpired, waits, past]

/-! ## What is done with them -/

theorem lookup_wakes
    (ex : Executor) (pids : List VPid) (pid : VPid) :
    (pids.foldl Executor.wakeOne ex).vprocs.lookup pid =
      if pid ∈ pids then
        (ex.vprocs.lookup pid).map fun co => { co with ioWait := none }
      else ex.vprocs.lookup pid := by
  induction pids generalizing ex with
  | nil => simp
  | cons first rest induction =>
      have woken :
          (ex.wakeOne first).vprocs.lookup pid =
            if pid = first then
              (ex.vprocs.lookup pid).map fun co =>
                { co with ioWait := none }
            else ex.vprocs.lookup pid := by
        rw [wakeOne_eq]
        exact lookup_update ex first pid _
      rw [List.foldl_cons, induction, woken]
      by_cases same : pid = first
      · subst same
        cases ex.vprocs.lookup pid <;> simp
      · simp [same]

/-- Numbers which are not queued are appended. -/
theorem readyQueue_wakes
    {pids : List VPid} (nodup : pids.Nodup) {ex : Executor}
    (apart : ∀ pid ∈ pids, pid ∉ ex.readyQueue) :
    (pids.foldl Executor.wakeOne ex).readyQueue =
      ex.readyQueue ++ pids := by
  induction pids generalizing ex with
  | nil => simp
  | cons first rest induction =>
      obtain ⟨fresh, later⟩ := List.nodup_cons.mp nodup
      have pushed :
          (ex.wakeOne first).readyQueue = ex.readyQueue ++ [first] := by
        rw [wakeOne_eq]
        exact if_neg (apart first List.mem_cons_self)
      have stillApart :
          ∀ pid ∈ rest, pid ∉ (ex.wakeOne first).readyQueue := by
        intro pid member queued
        rw [pushed] at queued
        rcases List.mem_append.mp queued with before | now
        · exact apart pid (List.mem_cons_of_mem _ member) before
        · rw [List.mem_singleton.mp now] at member
          exact fresh member
      rw [List.foldl_cons, induction later stillApart, pushed,
        List.append_assoc]
      rfl

/-- Waking is exact where no waiting coroutine is queued. -/
theorem wakesExactly_of_apart
    {ex : Executor}
    (apart : ∀ pid wait, Parked ex pid wait → pid ∉ ex.readyQueue)
    (revents : List Int) (now : Nat) :
    WakesExactly ex revents now := by
  let pids :=
    ex.readyPids
      ((revents.map fun found => decide (found ≠ 0)).zip
        ex.collectIoWaits) now
  have isPid (pid : VPid) :
      pid ∈ pids ↔ ToWake ex revents now pid :=
    mem_readyPids_wake_iff ex revents now pid
  have queue : (wake ex revents now).readyQueue = ex.readyQueue ++ pids :=
    readyQueue_wakes (nodup_readyPids ex _ now) fun pid member => by
      obtain ⟨wait, parked, _⟩ := (isPid pid).mp member
      exact apart pid wait parked
  have lookups (pid : VPid) :
      (wake ex revents now).vprocs.lookup pid =
        if pid ∈ pids then
          (ex.vprocs.lookup pid).map fun co => { co with ioWait := none }
        else ex.vprocs.lookup pid :=
    lookup_wakes ex pids pid
  constructor
  case ownSlots =>
    rintro pid wait ⟨co, found, waits⟩ j below
    have own : waitFds co = wait.fds := by rw [waitFds, waits]
    rw [← items_waitBlocks, ← own]
    exact
      getElem?_items (distinct_waitBlocks ex) (mem_waitBlocks found)
        (own ▸ below)
  case woken =>
    rintro pid wait ⟨co, found, waits⟩
    constructor
    · rintro ⟨⟨after, isAfter, ready⟩, _⟩
      by_contra notDue
      have kept : pid ∉ pids := by
        rw [isPid]
        rintro ⟨other, ⟨same, isSame, alsoWaits⟩, due⟩
        rw [found] at isSame
        cases isSame
        rw [waits] at alsoWaits
        cases alsoWaits
        exact notDue due
      rw [lookups, if_neg kept, found] at isAfter
      cases isAfter
      rw [waits] at ready
      cases ready
    · intro due
      have member : pid ∈ pids :=
        (isPid pid).mpr ⟨wait, ⟨co, found, waits⟩, due⟩
      refine ⟨⟨{ co with ioWait := none }, ?_, rfl⟩, ?_⟩
      · rw [lookups, if_pos member, found, Option.map_some]
      · rw [queue]
        exact List.mem_append_right _ member
  case appended =>
    exact ⟨pids, queue, nodup_readyPids ex _ now, isPid⟩
  case others =>
    intro pid notWoken
    rw [lookups, if_neg fun member => notWoken ((isPid pid).mp member)]

/-! ## Runs -/

theorem apart_of_balanced
    {ex : Executor} (balanced : Balanced ex) {pid : VPid} {wait : IoWait}
    (parked : Parked ex pid wait) :
    pid ∉ ex.readyQueue := by
  obtain ⟨co, found, waits⟩ := parked
  by_cases running : ex.current = some pid
  · exact (balanced.running pid running).1
  · have queued := balanced.waiting pid co found running
    exact List.count_eq_zero.mp (queued.2 (by rw [waits]; rfl))

/--
In every state of a run in which each spawn finds its process number free, and
whatever the kernel has found for the list which `collect_io_waits` makes:
`wake_io_ready` wakes exactly the waiting coroutines one of whose own
descriptors is ready or whose own deadline has passed, appends each of them to
the queue once, and changes nothing else.
-/
theorem wake_up_exact
    (world : World) (ops : List DriverOp) (final : Machine)
    (reached : run Machine.step (Machine.init world) ops = some final)
    (fresh : Along Machine.step (fun machine op _ => SpawnsFresh machine op)
      (Machine.init world) ops)
    (revents : List Int) (now : Nat) :
    WakesExactly final.driver.executor revents now := by
  have invariant : DriverInvariant final.driver :=
    @invariant_of_along Machine DriverOp Machine.step
      (fun machine op _ => SpawnsFresh machine op)
      (fun machine => DriverInvariant machine.driver)
      driverInvariant_step ops _ _ driverInvariant_new fresh
      reached
  exact
    wakesExactly_of_apart
      (fun _ _ => apart_of_balanced invariant.balanced) revents now

/-- Process 1 waits for two descriptors, and process 2 for one. -/
def twoWait : List DriverOp :=
  [.spawn, .spawn, .stepFromDriver, .yieldForIo [(5, 1), (6, 1)] (-1) 10,
    .stepFromDriver, .yieldForIo [(7, 1)] 5 10]

theorem wake_up_exact_two :
    ∃ final,
      run Machine.step (Machine.init (World.init Kernel.standard)) twoWait =
        some final ∧
      final.driver.executor.readyQueue = [] ∧
      WakesExactly final.driver.executor [0, 1, 0] 12 := by
  have completes :
      (run Machine.step (Machine.init (World.init Kernel.standard))
          twoWait).any
        (fun final =>
          decide
            (final.driver.executor.readyQueue = [] ∧
              final.driver.spawned = 2)) = true := by
    decide
  obtain ⟨final, reached, holds⟩ := Option.any_eq_true _ _ |>.mp completes
  obtain ⟨queue, spawned⟩ := of_decide_eq_true holds
  refine ⟨final, reached, queue, ?_⟩
  apply wake_up_exact _ _ final reached
  apply spawnsFresh_of_few numbered_new reached
  rw [spawned]
  decide

/-! ## A process number which has been given twice -/

theorem readyQueue_wakes_of_queued
    {pids : List VPid} {ex : Executor}
    (queued : ∀ pid ∈ pids, pid ∈ ex.readyQueue) :
    (pids.foldl Executor.wakeOne ex).readyQueue = ex.readyQueue := by
  induction pids generalizing ex with
  | nil => rfl
  | cons first rest induction =>
      have same : (ex.wakeOne first).readyQueue = ex.readyQueue := by
        rw [wakeOne_eq]
        exact if_pos (queued first List.mem_cons_self)
      rw [List.foldl_cons, induction ?_, same]
      intro pid member
      rw [same]
      exact queued pid (List.mem_cons_of_mem _ member)

/-- A coroutine which is queued is not appended when it is woken. -/
theorem not_wakesExactly_of_queued
    {ex : Executor} {revents : List Int} {now : Nat} {pid : VPid}
    (due : ToWake ex revents now pid)
    (queued : ∀ other, ToWake ex revents now other →
      other ∈ ex.readyQueue) :
    ¬ WakesExactly ex revents now := by
  intro exactly
  have same : (wake ex revents now).readyQueue = ex.readyQueue :=
    readyQueue_wakes_of_queued fun other member =>
      queued other
        ((mem_readyPids_wake_iff ex revents now other).mp member)
  obtain ⟨added, appended, _, isAdded⟩ := exactly.appended
  have nothing : added = [] :=
    List.self_eq_append_right.mp (same.symm.trans appended)
  have member := (isAdded pid).mpr due
  rw [nothing] at member
  cases member

/-- The running process parks with a deadline. -/
theorem step_yieldForIo
    (world : World) {driver : Driver} {pid : VPid} {co : Coroutine}
    (turn : driver.turn = some { pid := pid, restore := none })
    (current : driver.executor.current = some pid)
    (found : driver.executor.vprocs.lookup pid = some co)
    (alive : co.isDone = false) :
    ∃ next,
      Machine.step { world := world, driver := driver }
          (.yieldForIo [] 5 0) =
        some { world := world, driver := next } ∧
      next.executor.readyQueue = driver.executor.readyQueue ∧
      Parked next.executor pid { fds := [], deadline := some 5 } ∧
      ∀ other, other ≠ pid → next.executor.vprocs.lookup other =
        driver.executor.vprocs.lookup other := by
  let parked := { co with ioWait := some { fds := [], deadline := some 5 } }
  have steps :
      Machine.step { world := world, driver := driver }
          (.yieldForIo [] 5 0) =
        some
          { world := world
            driver :=
              { driver with
                executor :=
                  (driver.executor.yieldForIo [] 5 0).resumeEnd pid false
                turn := none } } := by
    simp only [Machine.step, Driver.step, Driver.endTurn, turn,
      Option.bind_some, Driver.installFds?, Option.map_some]
  have waits (other : VPid) :
      (driver.executor.yieldForIo [] 5 0).vprocs.lookup other =
        if other = pid then some parked
        else driver.executor.vprocs.lookup other := by
    simp only [Executor.yieldForIo, current]
    rw [lookup_update]
    split
    · rename_i same
      rw [same, found]
      simp [alive, parked, Executor.deadlineOf]
    · rfl
  refine ⟨_, steps, ?_, ⟨settled false parked, ?_, ?_⟩, ?_⟩
  · simp only [Executor.resumeEnd, Executor.yieldForIo, current]
    rfl
  · rw [lookup_resumeEnd, if_pos rfl, waits, if_pos rfl, Option.map_some]
  · rw [ioWait_settled]
  · intro other different
    rw [lookup_resumeEnd, if_neg different, waits, if_neg different]

/--
After `2 ^ 32 - 1` short-lived processes the number of a process which is
queued is given again.  Its new process parks while the number stands in the
queue, and is not appended when it is woken.
-/
theorem wake_up_inexact_after_wrap :
    ¬ ∀ (world : World) (ops : List DriverOp) (final : Machine),
      run Machine.step (Machine.init world) ops = some final →
      ∀ revents now, WakesExactly final.driver.executor revents now := by
  intro every
  let world := World.init Kernel.standard
  let first : Machine :=
    { world := world
      driver := Driver.new.withSpawned Executor.new.spawn.1 }
  have only : OnlyFirst first.driver :=
    ⟨rfl, rfl, fun pid => lookup_insert_eq _ 1 pid _⟩
  obtain ⟨middle, lapped, still, number⟩ :=
    run_laps 4294967295 (by decide) only rfl
  let again := middle.driver.withSpawned middle.driver.executor.spawn.1
  have spawnedLookup (pid : VPid) :
      again.executor.vprocs.lookup pid =
        if pid = 1 then some (Coroutine.new 1) else none := by
    refine
      (lookup_insert_eq middle.driver.executor.vprocs _ pid _).trans ?_
    rw [number, still.lookup]
    by_cases isFirst : pid = 1
    · rw [isFirst]
      rfl
    · rw [if_neg isFirst, if_neg isFirst]
  have twice : again.executor.readyQueue = 1 :: [1] := by
    change middle.driver.executor.readyQueue ++
      [middle.driver.executor.nextPid] = [1, 1]
    rw [still.queue, number]
    rfl
  obtain ⟨begun, isBegun, turn, _, current, begunQueue, _, begunLookup⟩ :=
    beginTurn_front middle.world twice
      ((spawnedLookup 1).trans (if_pos rfl)) rfl rfl rfl
  have begins :
      Machine.step { world := middle.world, driver := again }
          .stepFromDriver =
        some { world := middle.world, driver := begun } := by
    have idle : again.turn.isNone = true := by
      rw [Option.isNone_iff_eq_none]
      exact still.idle
    simp only [Machine.step, Driver.step, Driver.whenIdle, idle, if_true,
      isBegun, Option.map_some]
  obtain ⟨last, parks, queue, parked, others⟩ :=
    step_yieldForIo middle.world turn current
      ((begunLookup 1).trans (if_pos rfl)) rfl
  have reached :
      run Machine.step (Machine.init world)
          (.spawn ::
            ((List.replicate 4294967295 lap).flatten ++
              [.spawn, .stepFromDriver, .yieldForIo [] 5 0])) =
        some { world := middle.world, driver := last } := by
    refine run_cons_iff.mpr ⟨first, rfl, run_trans lapped ?_⟩
    exact
      run_cons_iff.mpr
        ⟨{ world := middle.world, driver := again }, rfl,
          run_cons_iff.mpr
            ⟨_, begins, run_cons_iff.mpr ⟨_, parks, rfl⟩⟩⟩
  have due : ToWake last.executor [] 5 1 :=
    ⟨_, parked, Or.inr ⟨5, rfl, le_rfl⟩⟩
  refine not_wakesExactly_of_queued due ?_ (every world _ _ reached [] 5)
  rintro other ⟨wait, ⟨co, found, _⟩, _⟩
  have isFirst : other = 1 := by
    by_contra different
    rw [others other different, begunLookup, if_neg different,
      spawnedLookup, if_neg different] at found
    cases found
  rw [isFirst, queue, begunQueue]
  exact List.mem_singleton.mpr rfl

end Vproc.Sched.WakeUps
