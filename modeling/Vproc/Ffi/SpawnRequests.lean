import Vproc.Ffi.ThreadSteps
import Vproc.Fd.Effects

/-!
# Spawn requests

A client pushes its request to the spawn queue without the session mutex, and
the driver drains the queue under a lock of its own.  A request is in exactly
one place: in the queue, among the drained ones, or executed, and the three
together are the requests in the order in which they were pushed.  The answer
goes to the slot which the request carries, and this slot is read by the call
which has made it.

A client which gives up waiting for its answer does not take its request back.
-/

namespace Vproc.Ffi.SpawnRequests

open Vproc.Lib.Run
open Vproc.Lib.FiniteMap
open Vproc.Fd.Table
open Vproc.Fd.KernelTable
open Vproc.Fd.Runtime
open Vproc.Fd.Effects
open Vproc.Sched.Scheduler
open Vproc.Sched.DriverLoop
open Vproc.Sched.DriverSteps
open Vproc.Ffi.SessionThreads
open Vproc.Ffi.ThreadSteps

/-- The call has pushed its request. -/
def hasPushed : CreateCall → Bool
  | .notifying => true
  | .polling _ => true
  | .returned _ => true
  | _ => false

/-- The call and the answer which the driver is about to put in its slot. -/
def answer? : Place → Option (CallId × VPid)
  | .answering call vpid _ => some (call, vpid)
  | _ => none

/--
Where the requests are.  An executed request has its answer in its slot, or
the driver is about to put it there, and a slot has nothing else.
-/
structure Requests (state : Threads) : Prop where
  order : state.served.map Prod.fst ++ state.place.requests ++
    state.spawnQueue = state.pushed
  once : (state.pushed.map SpawnRequest.call).Nodup
  pushed : ∀ request ∈ state.pushed,
    hasPushed (state.creates request.call) = true
  answered : ∀ entry ∈ state.served,
    state.spawnResults entry.1.call = some entry.2 ∨
      answer? state.place = some (entry.1.call, entry.2)
  answering : ∀ call vpid, answer? state.place = some (call, vpid) →
    ∃ entry ∈ state.served, entry.1.call = call ∧ entry.2 = vpid
  slots : ∀ call vpid, state.spawnResults call = some vpid →
    ∃ entry ∈ state.served, entry.1.call = call ∧ entry.2 = vpid
  returned : ∀ call vpid, state.creates call = .returned vpid →
    vpid ≠ 0 → ∃ entry ∈ state.served, entry.1.call = call ∧ entry.2 = vpid

theorem requests_init (world : World) :
    Requests (Threads.init world) where
  order := rfl
  once := List.nodup_nil
  pushed := fun _ member => nomatch member
  answered := fun _ member => nomatch member
  answering := fun _ _ here => nomatch here
  slots := fun _ _ result => nomatch result
  returned := fun _ _ returned => nomatch returned

section Requests

variable {state next : Threads} {op : ThreadOp}

/-- No request is concerned. -/
structure SameRequests (state next : Threads) : Prop where
  served : next.served = state.served
  spawnQueue : next.spawnQueue = state.spawnQueue
  pushed : next.pushed = state.pushed
  creates : next.creates = state.creates
  spawnResults : next.spawnResults = state.spawnResults
  drained : next.place.requests = state.place.requests
  answer : answer? next.place = answer? state.place

theorem requests_of_same
    (requests : Requests state) (same : SameRequests state next) :
    Requests next := by
  obtain ⟨served, spawnQueue, pushed, creates, spawnResults, drained,
    answer⟩ := same
  constructor
  · rw [served, drained, spawnQueue, pushed]
    exact requests.order
  · rw [pushed]
    exact requests.once
  · rw [pushed, creates]
    exact requests.pushed
  · rw [served, spawnResults, answer]
    exact requests.answered
  · rw [served, answer]
    exact requests.answering
  · rw [served, spawnResults]
    exact requests.slots
  · rw [served, creates]
    exact requests.returned

theorem mem_pushed_of_served
    (requests : Requests state) {entry : SpawnRequest × VPid}
    (member : entry ∈ state.served) :
    entry.1 ∈ state.pushed := by
  rw [← requests.order]
  exact
    List.mem_append_left _
      (List.mem_append_left _ (List.mem_map_of_mem member))

theorem mem_pushed_of_waiting
    (requests : Requests state) {request : SpawnRequest}
    (member : request ∈ state.place.requests ++ state.spawnQueue) :
    request ∈ state.pushed := by
  rw [← requests.order, List.append_assoc]
  exact List.mem_append_right _ member

/-- An executed request is neither in the queue nor among the drained. -/
theorem apart_of_served
    (requests : Requests state) {entry : SpawnRequest × VPid}
    (executed : entry ∈ state.served) {request : SpawnRequest}
    (waiting : request ∈ state.place.requests ++ state.spawnQueue) :
    request.call ≠ entry.1.call := by
  have once := requests.once
  rw [← requests.order, List.append_assoc, List.map_append] at once
  intro same
  refine List.disjoint_of_nodup_append once ?_
    (List.mem_map_of_mem waiting)
  rw [same]
  exact List.mem_map_of_mem (List.mem_map_of_mem executed)

/-- A call is executed once. -/
theorem served_unique
    (requests : Requests state) {left right : SpawnRequest × VPid}
    (inLeft : left ∈ state.served) (inRight : right ∈ state.served)
    (same : left.1.call = right.1.call) :
    left = right := by
  have once := requests.once
  rw [← requests.order, List.append_assoc, List.map_append] at once
  have distinct :
      (state.served.map fun entry => entry.1.call).Nodup := by
    have first := once.of_append_left
    rwa [List.map_map] at first
  exact List.inj_on_of_nodup_map distinct inLeft inRight same

/-! ### Steps of the driver thread -/

theorem requests_drains
    (requests : Requests state) (here : state.place = .top) :
    Requests
      { state with
        spawnQueue := []
        place := .serving state.spawnQueue } := by
  refine
    ⟨?_, requests.once, requests.pushed, ?_, nofun, requests.slots,
      requests.returned⟩
  · have order := requests.order
    rw [here] at order
    simpa [Place.requests] using order
  · have answered := requests.answered
    rw [here] at answered
    exact answered

/-- The first of the drained requests is executed. -/
theorem requests_serve
    (requests : Requests state) {request : SpawnRequest}
    {left : List SpawnRequest}
    (here : state.place = .serving (request :: left)) (vpid : VPid)
    (machine : Machine) :
    Requests
      { state with
        machine := machine
        place := .answering request.call vpid left
        served := state.served ++ [(request, vpid)] } := by
  refine ⟨?_, requests.once, requests.pushed, ?_, ?_, ?_, ?_⟩
  · have order := requests.order
    rw [here] at order
    simpa [Place.requests] using order
  · intro entry member
    rcases List.mem_append.mp member with before | new
    · have answered := requests.answered entry before
      rw [here] at answered
      exact answered.imp id nofun
    · rw [List.mem_singleton.mp new]
      exact Or.inr rfl
  · intro call answer same
    cases same
    exact ⟨_, List.mem_append_right _ List.mem_cons_self, rfl, rfl⟩
  · intro call answer result
    obtain ⟨entry, member, isAnswer⟩ := requests.slots call answer result
    exact ⟨entry, List.mem_append_left _ member, isAnswer⟩
  · intro call answer returned nonzero
    obtain ⟨entry, member, isAnswer⟩ :=
      requests.returned call answer returned nonzero
    exact ⟨entry, List.mem_append_left _ member, isAnswer⟩

/-- The answer is put into the slot of the request. -/
theorem requests_answers
    (requests : Requests state) {call : CallId} {vpid : VPid}
    {left : List SpawnRequest}
    (here : state.place = .answering call vpid left) :
    Requests
      { state with
        spawnResults :=
          Function.update state.spawnResults call (some vpid)
        place := .serving left } := by
  obtain ⟨answered, executed, ofCall, isAnswer⟩ :=
    requests.answering call vpid (by rw [here]; rfl)
  refine
    ⟨?_, requests.once, requests.pushed, ?_, nofun, ?_,
      requests.returned⟩
  · have order := requests.order
    rw [here] at order
    exact order
  · intro entry member
    left
    dsimp only
    by_cases own : entry.1.call = call
    · have same :=
        served_unique requests member executed (own.trans ofCall.symm)
      rw [own, Function.update_self, same, isAnswer]
    · rw [Function.update_of_ne own]
      rcases requests.answered entry member with result | other
      · exact result
      · rw [here] at other
        cases other
        exact (own rfl).elim
  · intro other answer result
    dsimp only at result
    by_cases own : other = call
    · subst own
      rw [Function.update_self] at result
      cases result
      exact ⟨answered, executed, ofCall, isAnswer⟩
    · rw [Function.update_of_ne own] at result
      exact requests.slots other answer result

theorem requests_afterStep (waiters : List Waiter) (machine : Machine) :
    (Threads.afterStep waiters machine).requests = [] ∧
      answer? (Threads.afterStep waiters machine) = none := by
  unfold Threads.afterStep
  split
  · exact ⟨rfl, rfl⟩
  · exact ⟨rfl, rfl⟩

theorem requests_driver
    (requests : Requests state) (move : DriverMove state op next) :
    Requests next := by
  cases move with
  | drains here runs => exact requests_drains requests here
  | spawns here spawned => exact requests_serve requests here _ _
  | fails here => exact requests_serve requests here 0 state.machine
  | answers here => exact requests_answers requests here
  | begins here stepped =>
      obtain ⟨drained, answer⟩ := requests_afterStep state.waiters _
      apply requests_of_same requests
      refine ⟨rfl, rfl, rfl, rfl, rfl, ?_, ?_⟩
      · rw [here]
        exact drained
      · rw [here]
        exact answer
  | runs here allowed stepped =>
      obtain ⟨drained, answer⟩ := requests_afterStep state.waiters _
      apply requests_of_same requests
      refine ⟨rfl, rfl, rfl, rfl, rfl, ?_, ?_⟩
      · rw [here]
        exact drained
      · rw [here]
        exact answer
  | collects here stepped =>
      apply requests_of_same requests
      refine ⟨rfl, rfl, rfl, rfl, rfl, ?_, ?_⟩
      · rw [here]
        dsimp only
        split <;> rfl
      · rw [here]
        dsimp only
        split <;> rfl
  | _ =>
      apply requests_of_same requests
      refine ⟨rfl, rfl, rfl, rfl, rfl, ?_, ?_⟩
      · rw [‹state.place = _›]
        rfl
      · rw [‹state.place = _›]
        rfl

/-! ### Steps of the clients -/

theorem requests_setCreate
    (requests : Requests state) {call : CallId}
    {before after : CreateCall} (here : state.creates call = before)
    (progress : hasPushed before = true → hasPushed after = true)
    (truth : ∀ vpid, after = .returned vpid → vpid ≠ 0 →
      ∃ entry ∈ state.served, entry.1.call = call ∧ entry.2 = vpid) :
    Requests (state.setCreate call after) := by
  refine
    ⟨requests.order, requests.once, ?_, requests.answered,
      requests.answering, requests.slots, ?_⟩
  · intro request member
    have pushed := requests.pushed request member
    simp only [Threads.setCreate]
    by_cases own : request.call = call
    · rw [own, Function.update_self]
      rw [own, here] at pushed
      exact progress pushed
    · rw [Function.update_of_ne own]
      exact pushed
  · intro other vpid returned nonzero
    simp only [Threads.setCreate] at returned
    by_cases own : other = call
    · subst own
      rw [Function.update_self] at returned
      exact truth vpid returned nonzero
    · rw [Function.update_of_ne own] at returned
      exact requests.returned other vpid returned nonzero

theorem not_pushed
    (requests : Requests state) {call : CallId} {create : CreateCall}
    (here : state.creates call = create)
    (notYet : hasPushed create = false) {request : SpawnRequest}
    (member : request ∈ state.pushed) :
    request.call ≠ call := by
  intro own
  have pushed := requests.pushed request member
  rw [own, here, notYet] at pushed
  cases pushed

theorem requests_push
    (requests : Requests state) {call : CallId} {fds : StdFds}
    (here : state.creates call = .pushing fds) :
    Requests (state.push call fds) := by
  have set : Requests (state.setCreate call .notifying) :=
    requests_setCreate requests here (by simp [hasPushed]) nofun
  refine
    ⟨?_, ?_, ?_, set.answered, set.answering, set.slots, set.returned⟩
  · simp only [Threads.push]
    rw [← List.append_assoc]
    exact congrArg (· ++ [_]) requests.order
  · simp only [Threads.push, List.map_append, List.map_cons, List.map_nil]
    refine requests.once.append (List.nodup_singleton _) ?_
    intro other member new
    obtain ⟨request, isPushed, rfl⟩ := List.mem_map.mp member
    exact not_pushed requests here rfl isPushed (List.mem_singleton.mp new)
  · intro request member
    rcases List.mem_append.mp member with before | new
    · exact set.pushed request before
    · rw [List.mem_singleton.mp new]
      simp [Threads.push, Threads.setCreate, hasPushed]

theorem requests_notifyWake (requests : Requests state) :
    Requests state.notifyWake := by
  apply requests_of_same requests
  refine ⟨rfl, rfl, rfl, rfl, rfl, ?_, ?_⟩
  · rcases notifyWake_place state with ⟨woken, asleep⟩ | ⟨same, _⟩
    · rw [woken, asleep]
      rfl
    · rw [same]
  · rcases notifyWake_place state with ⟨woken, asleep⟩ | ⟨same, _⟩
    · rw [woken, asleep]
      rfl
    · rw [same]

theorem requests_client
    (requests : Requests state) (move : ClientMove state op next) :
    Requests next := by
  cases move with
  | creates fds here listed =>
      exact requests_setCreate requests here (by simp [hasPushed]) nofun
  | createsNowhere fds here unlisted =>
      refine requests_setCreate requests here (by simp [hasPushed]) ?_
      intro vpid same nonzero
      cases same
      exact (nonzero rfl).elim
  | obtainsLock here =>
      exact requests_setCreate requests here (by simp [hasPushed]) nofun
  | missesLock here =>
      refine requests_setCreate requests here (by simp [hasPushed]) ?_
      intro vpid same nonzero
      unfold Threads.tryAgain at same
      split at same
      · cases same
      · cases same
        exact (nonzero rfl).elim
  | pushes here => exact requests_push requests here
  | notifies here unlocked =>
      apply requests_notifyWake
      exact requests_setCreate requests here (by simp [hasPushed]) nofun
  | readsResult here =>
      refine requests_setCreate requests here ?_ ?_
      · intro _
        unfold Threads.pollResult
        split
        · rfl
        · split <;> rfl
      · intro vpid same nonzero
        unfold Threads.pollResult at same
        split at same
        · rename_i result
          cases same
          exact requests.slots _ _ result
        · split at same
          · cases same
            exact (nonzero rfl).elim
          · cases same
  | registers here unlocked lives =>
      apply requests_notifyWake
      exact requests_of_same requests ⟨rfl, rfl, rfl, rfl, rfl, rfl, rfl⟩
  | _ =>
      exact requests_of_same requests ⟨rfl, rfl, rfl, rfl, rfl, rfl, rfl⟩

theorem requests_step
    (state : Threads) (op : ThreadOp) (next : Threads)
    (requests : Requests state) (stepped : state.step op = some next) :
    Requests next := by
  cases move_of_step stepped with
  | driver move => exact requests_driver requests move
  | client move => exact requests_client requests move

end Requests

/-! ## Process numbers -/

/--
The answers are process numbers which have been taken, and no two of them are
the same, except for the 0 of a request which failed.
-/
structure Distinct (state : Threads) : Prop where
  taken : ∀ entry ∈ state.served,
    entry.2 ≤ state.machine.driver.spawned
  apart : state.served.Pairwise fun left right =>
    left.2 = right.2 → left.2 = 0

theorem distinct_init (world : World) : Distinct (Threads.init world) where
  taken := fun _ member => nomatch member
  apart := List.Pairwise.nil

/--
A request is executed: it fails, or there is one new process, under a number
which was free, with the descriptors of the request at 0, 1 and 2.
-/
def ServesOne (state : Threads) (op : ThreadOp) (next : Threads) : Prop :=
  ∀ loaded, op = .serve loaded →
    ∃ request requests,
      state.place = .serving (request :: requests) ∧
      (next.served = state.served ++ [(request, 0)] ∧
          next.machine = state.machine ∨
        ∃ vpid, vpid ≠ 0 ∧ vpid ∉ state.executor.vprocs ∧
          next.served = state.served ++ [(request, vpid)] ∧
          (∀ other, next.executor.vprocs.lookup other =
            if other = vpid then some (Coroutine.newElf vpid)
            else state.executor.vprocs.lookup other) ∧
          next.machine.world.entry vpid 0 = some (.real request.fds.1) ∧
          next.machine.world.entry vpid 1 =
            some (.real request.fds.2.1) ∧
          next.machine.world.entry vpid 2 =
            some (.real request.fds.2.2))

section Numbers

variable {state next : Threads} {op : ThreadOp}

/-- The number of a new process within the bound. -/
theorem nextPid_of_few
    {driver after : Driver} {driverOp : DriverOp}
    (change : Change driver driverOp after)
    (numbered : Numbered driver)
    (isSpawn : spawns driver driverOp = true)
    (few : after.spawned < 4294967296) :
    driver.executor.nextPid = driver.spawned + 1 ∧
      after.spawned = driver.spawned + 1 := by
  have grows := spawned_of_spawns change isSpawn
  refine ⟨?_, grows⟩
  rw [numbered.next, Nat.mod_eq_of_lt (by omega), Nat.add_comm]

theorem distinct_append
    (distinct : Distinct state) {entry : SpawnRequest × VPid}
    (grows : state.machine.driver.spawned ≤ next.machine.driver.spawned)
    (taken : entry.2 ≤ next.machine.driver.spawned)
    (fresh : entry.2 = 0 ∨ state.machine.driver.spawned < entry.2)
    (served : next.served = state.served ++ [entry]) :
    Distinct next := by
  constructor
  · rw [served]
    intro other member
    rcases List.mem_append.mp member with before | new
    · exact (distinct.taken other before).trans grows
    · rw [List.mem_singleton.mp new]
      exact taken
  · rw [served, List.pairwise_append]
    refine ⟨distinct.apart, List.pairwise_singleton _ _, ?_⟩
    intro other before last isLast same
    rw [List.mem_singleton.mp isLast] at same
    have below := distinct.taken other before
    rcases fresh with zero | above
    · exact same.trans zero
    · rw [same] at below
      exact absurd below (Nat.not_le_of_lt above)

theorem distinct_step
    (state : Threads) (op : ThreadOp) (next : Threads)
    (sound : Sound state) (stepped : state.step op = some next)
    (few : next.machine.driver.spawned < 4294967296)
    (distinct : Distinct state) :
    Distinct next := by
  have move := move_of_step stepped
  have grows := spawned_le_of_move sound move
  have same (served : next.served = state.served) : Distinct next := by
    constructor
    · rw [served]
      exact fun entry member => (distinct.taken entry member).trans grows
    · rw [served]
      exact distinct.apart
  cases move with
  | client move => exact same (sameDriver_client move).served
  | driver move =>
      cases move with
      | spawns here spawned =>
          obtain ⟨number, counted⟩ :=
            nextPid_of_few (change_of_machineStep spawned) sound.numbered
              rfl few
          refine distinct_append distinct grows ?_ (Or.inr ?_) rfl
          · exact (number.trans counted.symm).le
          · exact number ▸ Nat.lt_succ_self _
      | fails here =>
          exact
            distinct_append distinct grows (Nat.zero_le _) (Or.inl rfl)
              rfl
      | _ => exact same rfl

/-- The new process, and its descriptors. -/
theorem createProcess_spec
    {machine after : Machine} {fds : StdFds}
    (stepped : machine.step (.createProcess fds.1 fds.2.1 fds.2.2) =
      some after) :
    (∀ other, after.driver.executor.vprocs.lookup other =
        if other = machine.driver.executor.nextPid then
          some (Coroutine.newElf machine.driver.executor.nextPid)
        else machine.driver.executor.vprocs.lookup other) ∧
      after.world.getTable machine.driver.executor.nextPid =
        some (VfdTable.newWithFds fds.1 fds.2.1 fds.2.2) := by
  obtain ⟨result, isResult, rfl⟩ := Option.map_eq_some_iff.mp stepped
  obtain ⟨_, created⟩ := whenIdle_eq_some_iff.mp isResult
  cases created
  constructor
  · intro other
    exact lookup_insert_eq _ _ other _
  · exact (getTable_setTable _ _ _ _).trans (if_pos rfl)

theorem servesOne_step
    (state : Threads) (op : ThreadOp) (next : Threads)
    (sound : Sound state) (stepped : state.step op = some next)
    (few : next.machine.driver.spawned < 4294967296) :
    ServesOne state op next := by
  rintro loaded rfl
  cases move_of_step stepped with
  | client move => cases move
  | driver move =>
      cases move with
      | fails here => exact ⟨_, _, here, Or.inl ⟨rfl, rfl⟩⟩
      | @spawns request requests machine here spawned =>
          obtain ⟨number, counted⟩ :=
            nextPid_of_few (change_of_machineStep spawned) sound.numbered
              rfl few
          obtain ⟨lookups, table⟩ := createProcess_spec spawned
          have nonzero : state.executor.nextPid ≠ 0 := by
            rw [Threads.executor, number]
            exact Nat.succ_ne_zero _
          have free : FreshPid state.machine.driver.executor :=
            freshPid_of_numbered sound.numbered (counted ▸ few)
          have entries (fd : Nat) :=
            (entry_of_getTable table fd).trans
              (VfdTable.get_newWithFds _ _ _ fd)
          exact
            ⟨request, requests, here,
              Or.inr
                ⟨_, nonzero, free.1, rfl, lookups, entries 0, entries 1,
                  entries 2⟩⟩

end Numbers

/--
In a run with fewer than `2 ^ 32` process numbers taken: the requests which
were executed, the drained ones and those in the queue are, in this order, the
requests as they were pushed, each of them pushed by one call; the execution
of a request spawns at most one process, with the descriptors of the request;
a number other than 0 which a call returns is the one spawned for its own
request; and no two calls return the same number.
-/
theorem requests_served_once
    (world : World) (ops : List ThreadOp) (final : Threads)
    (reached : run Threads.step (Threads.init world) ops = some final)
    (few : final.machine.driver.spawned < 4294967296) :
    final.served.map Prod.fst ++ final.place.requests ++
        final.spawnQueue = final.pushed ∧
      (final.pushed.map SpawnRequest.call).Nodup ∧
      Along Threads.step ServesOne (Threads.init world) ops ∧
      (∀ call vpid, final.creates call = .returned vpid → vpid ≠ 0 →
        ∃ entry ∈ final.served,
          entry.1.call = call ∧ entry.2 = vpid) ∧
      ∀ left right vpid, left ≠ right →
        final.creates left = .returned vpid →
        final.creates right = .returned vpid → vpid = 0 := by
  have requests : Requests final :=
    invariant_of_run requests_step (requests_init world) reached
  have distinct : Distinct final :=
    invariant_of_bounded sound_step fewer_before distinct_step
      (sound_init world)
      (distinct_init world) reached few
  have serves :
      Along Threads.step ServesOne (Threads.init world) ops :=
    along_of_bounded sound_step fewer_before servesOne_step
      (sound_init world) reached few
  refine
    ⟨requests.order, requests.once, serves, requests.returned, ?_⟩
  intro left right vpid different fromLeft fromRight
  by_contra nonzero
  obtain ⟨first, inFirst, ofLeft, isFirst⟩ :=
    requests.returned left vpid fromLeft nonzero
  obtain ⟨second, inSecond, ofRight, isSecond⟩ :=
    requests.returned right vpid fromRight nonzero
  have apart : first ≠ second := by
    rintro rfl
    exact different (ofLeft.symm.trans ofRight)
  have symmetric :
      Std.Symm fun left right : SpawnRequest × VPid =>
        left.2 = right.2 → left.2 = 0 :=
    ⟨fun _ _ related same => same.trans (related same.symm)⟩
  have zero : first.2 = 0 :=
    distinct.apart.forall inFirst inSecond apart
      (isFirst.trans isSecond.symm)
  exact nonzero (isFirst.symm.trans zero)

/-- Two clients, one after the other. -/
theorem requests_served_once_two :
    ∃ final,
      run Threads.step (Threads.init (World.init Kernel.standard))
          [.start (3, 4, 5), .createProcess 7 (0, 1, 2),
            .createProcess 8 (0, 2, 1), .tryLock 8 true, .push 8,
            .tryLock 7 true, .push 7, .enter, .serve true, .answer,
            .serve true, .answer, .stepFromDriver, .coroutine .doYield,
            .checkWaiter, .reap, .collect, .notify 7, .notify 8,
            .pollResult 7, .pollResult 8] = some final ∧
      final.creates 7 = .returned 2 ∧ final.creates 8 = .returned 1 ∧
      final.served =
        [(⟨8, (0, 2, 1)⟩, 1), (⟨7, (0, 1, 2)⟩, 2)] ∧
      final.served.map Prod.fst ++ final.place.requests ++
        final.spawnQueue = final.pushed := by
  have completes :
      (run Threads.step (Threads.init (World.init Kernel.standard))
          [.start (3, 4, 5), .createProcess 7 (0, 1, 2),
            .createProcess 8 (0, 2, 1), .tryLock 8 true, .push 8,
            .tryLock 7 true, .push 7, .enter, .serve true, .answer,
            .serve true, .answer, .stepFromDriver, .coroutine .doYield,
            .checkWaiter, .reap, .collect, .notify 7, .notify 8,
            .pollResult 7, .pollResult 8]).any
        (fun final =>
          decide
            (final.machine.driver.spawned = 2 ∧
              final.creates 7 = .returned 2 ∧
              final.creates 8 = .returned 1 ∧
              final.served =
                [(⟨8, (0, 2, 1)⟩, 1), (⟨7, (0, 1, 2)⟩, 2)])) =
      true := by
    decide
  obtain ⟨final, reached, holds⟩ := Option.any_eq_true _ _ |>.mp completes
  obtain ⟨spawned, first, second, served⟩ := of_decide_eq_true holds
  obtain ⟨order, _⟩ :=
    requests_served_once _ _ final reached (by rw [spawned]; decide)
  exact ⟨final, reached, first, second, served, order⟩

/-! ## Calls which fail -/

/-- The driver thread spawns a process for the request of the call. -/
def SpawnsFor (call : CallId) (state : Threads) (op : ThreadOp)
    (_next : Threads) : Prop :=
  op = .serve true ∧
    ∃ request requests,
      state.place = .serving (request :: requests) ∧ request.call = call

/-- The request of the call is not executed from here on. -/
structure NotWaiting (state : Threads) (call : CallId) : Prop where
  drained : ∀ request ∈ state.place.requests, request.call ≠ call
  queued : state.shutdown = true ∨
    ∀ request ∈ state.spawnQueue, request.call ≠ call

/-- A client stops waiting for its answer in this step. -/
def GivesUp (state : Threads) (op : ThreadOp) (call : CallId) : Prop :=
  ∃ attempts, op = .pollResult call ∧
    state.creates call = .polling attempts ∧
    state.spawnResults call = none ∧ 1000 < attempts + 1

/--
A client gives up only when its request is not waiting, and is not answered
with a process number at this moment; and no process gets the number 0.
-/
structure FailsClean (state : Threads) (op : ThreadOp) : Prop where
  notWaiting : ∀ call, GivesUp state op call → NotWaiting state call
  notAnswering : ∀ call vpid, GivesUp state op call →
    answer? state.place = some (call, vpid) → vpid = 0
  numbered : op = .serve true → state.executor.nextPid ≠ 0

/-- What a call which has returned 0 leaves behind. -/
structure LeavesNothing (state : Threads) (call : CallId) : Prop where
  notWaiting : NotWaiting state call
  unserved : ∀ entry ∈ state.served, entry.1.call = call → entry.2 = 0

/-- The calls which have returned 0 leave nothing behind. -/
def Clean (state : Threads) : Prop :=
  ∀ call, state.creates call = .returned 0 → LeavesNothing state call

section Failures

variable {state next : Threads} {op : ThreadOp} {call : CallId}

theorem leavesNothing_of_same
    (leaves : LeavesNothing state call)
    (drained : next.place.requests = state.place.requests)
    (queue : next.spawnQueue = state.spawnQueue)
    (flag : state.shutdown = true → next.shutdown = true)
    (served : next.served = state.served) :
    LeavesNothing next call := by
  obtain ⟨⟨notDrained, notQueued⟩, unserved⟩ := leaves
  constructor
  · constructor
    · rw [drained]
      exact notDrained
    · rw [queue]
      exact notQueued.imp flag id
  · rw [served]
    exact unserved

/-- The first of the drained requests is of another call. -/
theorem leavesNothing_serve
    (leaves : LeavesNothing state call) {request : SpawnRequest}
    {left : List SpawnRequest}
    (here : state.place = .serving (request :: left)) (vpid : VPid)
    (machine : Machine) :
    LeavesNothing
      { state with
        machine := machine
        place := .answering request.call vpid left
        served := state.served ++ [(request, vpid)] }
      call := by
  obtain ⟨⟨notDrained, notQueued⟩, unserved⟩ := leaves
  rw [here] at notDrained
  constructor
  · constructor
    · exact fun other member =>
        notDrained other (List.mem_cons_of_mem _ member)
    · exact notQueued
  · intro entry member own
    rcases List.mem_append.mp member with before | new
    · exact unserved entry before own
    · rw [List.mem_singleton.mp new] at own
      exact (notDrained request List.mem_cons_self own).elim

theorem leavesNothing_driver
    (leaves : LeavesNothing state call) (move : DriverMove state op next) :
    LeavesNothing next call := by
  cases move with
  | drains here runs =>
      obtain ⟨⟨_, notQueued⟩, unserved⟩ := leaves
      constructor
      · constructor
        · rcases notQueued with flag | notQueued
          · rw [runs] at flag
            cases flag
          · exact notQueued
        · exact Or.inr fun _ member => nomatch member
      · exact unserved
  | spawns here spawned => exact leavesNothing_serve leaves here _ _
  | fails here => exact leavesNothing_serve leaves here 0 state.machine
  | begins here stepped =>
      refine leavesNothing_of_same leaves ?_ rfl id rfl
      rw [here]
      exact (requests_afterStep state.waiters _).1
  | runs here allowed stepped =>
      refine leavesNothing_of_same leaves ?_ rfl id rfl
      rw [here]
      exact (requests_afterStep state.waiters _).1
  | collects here stepped =>
      refine leavesNothing_of_same leaves ?_ rfl id rfl
      rw [here]
      dsimp only
      split <;> rfl
  | _ =>
      refine leavesNothing_of_same leaves ?_ rfl id rfl
      rw [‹state.place = _›]
      rfl

/-- A call which has not pushed its request leaves nothing behind. -/
theorem leavesNothing_of_notPushed
    (requests : Requests state) {create : CreateCall}
    (here : state.creates call = create)
    (notYet : hasPushed create = false) :
    LeavesNothing state call := by
  constructor
  · constructor
    · intro request member
      exact
        not_pushed requests here notYet
          (mem_pushed_of_waiting requests (List.mem_append_left _ member))
    · refine Or.inr fun request member => ?_
      exact
        not_pushed requests here notYet
          (mem_pushed_of_waiting requests (List.mem_append_right _ member))
  · intro entry member own
    exact
      (not_pushed requests here notYet
        (mem_pushed_of_served requests member) own).elim

/-- A request which was answered with 0 leaves nothing behind. -/
theorem leavesNothing_of_answer
    (requests : Requests state)
    (result : state.spawnResults call = some 0) :
    LeavesNothing state call := by
  obtain ⟨answered, executed, ofCall, isZero⟩ :=
    requests.slots call 0 result
  constructor
  · constructor
    · intro request member own
      exact
        apart_of_served requests executed
          (List.mem_append_left _ member) (own.trans ofCall.symm)
    · refine Or.inr fun request member own => ?_
      exact
        apart_of_served requests executed
          (List.mem_append_right _ member) (own.trans ofCall.symm)
  · intro entry member own
    rw [served_unique requests member executed (own.trans ofCall.symm)]
    exact isZero

theorem leavesNothing_of_givesUp
    (requests : Requests state) (clean : FailsClean state op)
    (givesUp : GivesUp state op call) :
    LeavesNothing state call := by
  refine ⟨clean.notWaiting call givesUp, ?_⟩
  intro entry member own
  obtain ⟨_, _, _, noResult, _⟩ := id givesUp
  rcases requests.answered entry member with result | answer
  · rw [own, noResult] at result
    cases result
  · rw [own] at answer
    exact clean.notAnswering call entry.2 givesUp answer

/-- A call goes on, and leaves nothing behind when it returns 0. -/
theorem clean_setCreate
    (clean : Clean state) {create : CreateCall}
    (leaves : create = .returned 0 → LeavesNothing state call) :
    Clean (state.setCreate call create) := by
  intro other returned
  simp only [Threads.setCreate] at returned
  have kept : LeavesNothing state other := by
    by_cases own : other = call
    · subst own
      rw [Function.update_self] at returned
      exact leaves returned
    · rw [Function.update_of_ne own] at returned
      exact clean other returned
  exact leavesNothing_of_same kept rfl rfl id rfl

theorem clean_notifyWake (clean : Clean state) :
    Clean state.notifyWake := by
  intro call returned
  refine leavesNothing_of_same (clean call returned) ?_ rfl id rfl
  rcases notifyWake_place state with ⟨woken, asleep⟩ | ⟨same, _⟩
  · rw [woken, asleep]
    rfl
  · rw [same]

theorem clean_push
    (clean : Clean state) {fds : StdFds} :
    Clean (state.push call fds) := by
  intro other returned
  have different : other ≠ call := by
    rintro rfl
    simp [Threads.push, Threads.setCreate] at returned
  have before : state.creates other = .returned 0 := by
    simpa [Threads.push, Threads.setCreate, different] using returned
  obtain ⟨⟨notDrained, notQueued⟩, unserved⟩ := clean other before
  refine ⟨⟨notDrained, notQueued.imp id ?_⟩, unserved⟩
  intro notQueued request member
  rcases List.mem_append.mp member with before | new
  · exact notQueued request before
  · rw [List.mem_singleton.mp new]
    exact different.symm

theorem clean_client
    (requests : Requests state) (clean : Clean state)
    (fails : FailsClean state op) (move : ClientMove state op next) :
    Clean next := by
  cases move with
  | creates fds here listed => exact clean_setCreate clean nofun
  | createsNowhere fds here unlisted =>
      apply clean_setCreate clean
      intro _
      exact leavesNothing_of_notPushed requests here rfl
  | obtainsLock here => exact clean_setCreate clean nofun
  | missesLock here =>
      apply clean_setCreate clean
      intro _
      exact leavesNothing_of_notPushed requests here rfl
  | pushes here => exact clean_push clean
  | notifies here unlocked =>
      exact clean_notifyWake (clean_setCreate clean nofun)
  | readsResult here =>
      apply clean_setCreate clean
      intro returned
      unfold Threads.pollResult at returned
      split at returned
      · rename_i result
        cases returned
        exact leavesNothing_of_answer requests result
      · rename_i noResult
        split at returned
        · rename_i last
          exact
            leavesNothing_of_givesUp requests fails
              ⟨_, rfl, here, noResult, last⟩
        · cases returned
  | registers here unlocked lives =>
      apply clean_notifyWake
      intro call returned
      exact leavesNothing_of_same (clean call returned) rfl rfl id rfl
  | shutsDown unlocked =>
      intro call returned
      exact
        leavesNothing_of_same (clean call returned) rfl rfl
          (fun _ => rfl) rfl
  | _ =>
      intro call returned
      exact leavesNothing_of_same (clean call returned) rfl rfl id rfl

theorem creates_driver (move : DriverMove state op next) :
    next.creates = state.creates := by
  cases move <;> rfl

theorem clean_step
    (state : Threads) (op : ThreadOp) (next : Threads)
    (holds : Requests state ∧ Clean state)
    (stepped : state.step op = some next)
    (fails : FailsClean state op) :
    Requests next ∧ Clean next := by
  obtain ⟨requests, clean⟩ := holds
  refine ⟨requests_step state op next requests stepped, ?_⟩
  cases move_of_step stepped with
  | client move => exact clean_client requests clean fails move
  | driver move =>
      intro call returned
      rw [creates_driver move] at returned
      exact leavesNothing_driver (clean call returned) move

theorem served_step
    (state : Threads) (op : ThreadOp) (next : Threads)
    (stepped : state.step op = some next) :
    state.served ⊆ next.served := by
  cases move_of_step stepped with
  | client move =>
      rw [(sameDriver_client move).served]
      exact List.Subset.refl _
  | driver move =>
      cases move with
      | spawns here spawned => exact List.subset_append_left _ _
      | fails here => exact List.subset_append_left _ _
      | _ => exact List.Subset.refl _

/-- A process which was spawned has left its number. -/
theorem served_of_spawnsFor
    (state : Threads) (op : ThreadOp) (next : Threads)
    (stepped : state.step op = some next) (fails : FailsClean state op)
    (spawns : SpawnsFor call state op next) :
    ∃ entry ∈ next.served, entry.1.call = call ∧ entry.2 ≠ 0 := by
  obtain ⟨rfl, request, requests, here, own⟩ := spawns
  cases move_of_step stepped with
  | client move => cases move
  | driver move =>
      cases move with
      | spawns there spawned =>
          rw [here] at there
          cases there
          exact
            ⟨_, List.mem_append_right _ List.mem_cons_self, own,
              fails.numbered rfl⟩

end Failures

/--
In a run in which no client gives up while its request is waiting or is being
answered, and no process gets the number 0: when a call has returned 0, no
process has been spawned for its request, neither before nor after.
-/
theorem failed_create_leaves_nothing
    (world : World) (ops : List ThreadOp) (final : Threads)
    (reached : run Threads.step (Threads.init world) ops = some final)
    (clean : Along Threads.step (fun state op _ => FailsClean state op)
      (Threads.init world) ops)
    (call : CallId) (returned : final.creates call = .returned 0) :
    ¬ Happens Threads.step (SpawnsFor call) (Threads.init world) ops := by
  intro spawned
  have kept : Requests final ∧ Clean final :=
    invariant_of_along clean_step ⟨requests_init world, nofun⟩ clean
      reached
  have marked :
      ∃ entry ∈ final.served, entry.1.call = call ∧ entry.2 ≠ 0 := by
    refine
      marked_of_happens served_of_spawnsFor ?_ clean reached spawned
    rintro state op next ⟨entry, member, isAnswer⟩ stepped
    exact ⟨entry, served_step state op next stepped member, isAnswer⟩
  obtain ⟨entry, member, own, nonzero⟩ := marked
  exact nonzero ((kept.2 call returned).unserved entry member own)

/-- The program of a request is not loaded, and its client is told so. -/
theorem failed_create_leaves_nothing_unloaded :
    ∃ final,
      run Threads.step (Threads.init (World.init Kernel.standard))
          [.start (3, 4, 5), .createProcess 0 (0, 1, 2),
            .tryLock 0 true, .push 0, .notify 0, .enter, .serve false,
            .answer, .pollResult 0] = some final ∧
      final.creates 0 = .returned 0 ∧
      ¬ Happens Threads.step (SpawnsFor 0)
        (Threads.init (World.init Kernel.standard))
        [.start (3, 4, 5), .createProcess 0 (0, 1, 2),
          .tryLock 0 true, .push 0, .notify 0, .enter, .serve false,
          .answer, .pollResult 0] := by
  refine
    ⟨_, rfl, rfl, failed_create_leaves_nothing _ _ _ rfl ?_ 0 rfl⟩
  have silent (state : Threads) {op : ThreadOp}
      (noLook : ∀ call, op ≠ .pollResult call)
      (noSpawn : op ≠ .serve true) : FailsClean state op := by
    constructor
    · rintro call ⟨_, same, _⟩
      exact (noLook call same).elim
    · rintro call vpid ⟨_, same, _⟩
      exact (noLook call same).elim
    · intro same
      exact (noSpawn same).elim
  rintro _ ⟨⟩
  refine ⟨silent _ nofun nofun, ?_⟩
  rintro _ ⟨⟩
  refine ⟨silent _ nofun nofun, ?_⟩
  rintro _ ⟨⟩
  refine ⟨silent _ nofun nofun, ?_⟩
  rintro _ ⟨⟩
  refine ⟨silent _ nofun nofun, ?_⟩
  rintro _ ⟨⟩
  refine ⟨silent _ nofun nofun, ?_⟩
  rintro _ ⟨⟩
  refine ⟨silent _ nofun nofun, ?_⟩
  rintro _ ⟨⟩
  refine ⟨silent _ nofun nofun, ?_⟩
  rintro _ ⟨⟩
  refine ⟨silent _ nofun nofun, ?_⟩
  intro _ _
  refine ⟨⟨?_, ?_, nofun⟩, True.intro⟩
  · rintro call ⟨_, same, _, noResult, _⟩
    cases same
    cases noResult
  · rintro call vpid ⟨_, same, _, noResult, _⟩
    cases same
    cases noResult

/-- A client looks at its slot again and again, and finds nothing. -/
theorem run_looks
    {state : Threads} {call : CallId}
    (noResult : state.spawnResults call = none) {attempts : Nat}
    (here : state.creates call = .polling attempts) (looks : Nat)
    (few : attempts + looks ≤ 1000) :
    run Threads.step state (List.replicate looks (.pollResult call)) =
      some (state.setCreate call (.polling (attempts + looks))) := by
  induction looks generalizing state attempts with
  | zero =>
      simp only [List.replicate_zero, run, Nat.add_zero]
      rw [← here, Threads.setCreate, Function.update_eq_self]
  | succ looks induction =>
      have again : ¬ 1000 < attempts + 1 := by omega
      have stepped :
          state.step (.pollResult call) =
            some (state.setCreate call (.polling (attempts + 1))) := by
        simp only [Threads.step, here, Threads.createStep,
          Threads.pollResult, noResult, if_neg again]
      refine run_cons_iff.mpr ⟨_, stepped, ?_⟩
      have continued :=
        @induction (state.setCreate call (.polling (attempts + 1)))
          noResult (attempts + 1) (Function.update_self ..) (by omega)
      rw [continued, Nat.add_right_comm, Nat.add_assoc]
      simp only [Threads.setCreate, Function.update_idem]

/--
The driver thread has drained a request, and loads its program; meanwhile the
client gives up.  The process is spawned, and nobody has its number.
-/
theorem failed_create_spawns :
    ¬ ∀ (world : World) (ops : List ThreadOp) (final : Threads)
        (call : CallId),
      run Threads.step (Threads.init world) ops = some final →
      final.creates call = .returned 0 →
      ¬ Happens Threads.step (SpawnsFor call) (Threads.init world)
        ops := by
  intro claimed
  have drains :
      (run Threads.step (Threads.init (World.init Kernel.standard))
          [.start (3, 4, 5), .createProcess 0 (0, 1, 2),
            .tryLock 0 true, .push 0, .notify 0, .enter]).any
        (fun state =>
          decide
            (state.creates 0 = .polling 0 ∧ state.spawnResults 0 = none ∧
              state.place = .serving [⟨0, (0, 1, 2)⟩] ∧
              (state.machine.step (.createProcess 0 1 2)).isSome =
                true)) =
      true := by
    decide
  obtain ⟨state, reached, holds⟩ := Option.any_eq_true _ _ |>.mp drains
  obtain ⟨here, noResult, place, loads⟩ := of_decide_eq_true holds
  obtain ⟨machine, loaded⟩ := Option.isSome_iff_exists.mp loads
  have looks := run_looks noResult here 1000 (by decide)
  have gaveUp :
      (state.setCreate 0 (.polling (0 + 1000))).step (.pollResult 0) =
        some (state.setCreate 0 (.returned 0)) := by
    simp [Threads.step, Threads.createStep, Threads.pollResult,
      Threads.setCreate, noResult]
  obtain ⟨final, spawned, returned⟩ :
      ∃ final, (state.setCreate 0 (.returned 0)).step (.serve true) =
        some final ∧ final.creates 0 = .returned 0 := by
    have spawned :
        ((state.setCreate 0 (.returned 0)).step (.serve true)).isSome =
          true := by
      simp [Threads.step, Threads.setCreate, place, Threads.driverStep,
        Threads.serve, Threads.drive, loaded]
    obtain ⟨final, stepped⟩ := Option.isSome_iff_exists.mp spawned
    refine ⟨final, stepped, ?_⟩
    cases move_of_step stepped with
    | client move => cases move
    | driver move =>
        rw [creates_driver move]
        exact Function.update_self 0 _ state.creates
  have continued :
      run Threads.step (state.setCreate 0 (.polling (0 + 1000)))
        [.pollResult 0, .serve true] = some final :=
    run_cons_iff.mpr ⟨_, gaveUp, run_cons_iff.mpr ⟨_, spawned, rfl⟩⟩
  have happens :
      Happens Threads.step (SpawnsFor 0)
        (state.setCreate 0 (.polling (0 + 1000)))
        [.pollResult 0, .serve true] :=
    ⟨_, gaveUp, Or.inr ⟨_, spawned, Or.inl ⟨rfl, _, _, place, rfl⟩⟩⟩
  have waits := run_trans reached looks
  exact
    claimed _ _ final 0 (run_trans waits continued) returned
      (happens_append waits happens)

end Vproc.Ffi.SpawnRequests
