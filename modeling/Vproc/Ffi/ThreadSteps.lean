import Vproc.Ffi.SessionThreads

/-!
# What a step of a thread does

`Move` lists what the driver thread and the clients of a session can do, with
the conditions under which they do it; `move_of_step` says that there is
nothing else.  The results about the threads are proved from this list.

The executor is changed by the driver thread alone, and only through the steps
of the driver.  So what is known of a driver from `Change` holds in every run
of the threads.
-/

namespace Vproc.Ffi.ThreadSteps

open Vproc.Lib.Run
open Vproc.Lib.FiniteMap
open Vproc.Fd.Table
open Vproc.Fd.Runtime
open Vproc.Sched.Scheduler
open Vproc.Sched.DriverLoop
open Vproc.Sched.DriverSteps
open Vproc.Sched.ReadyQueue
open Vproc.Ffi.SessionThreads

/-- A step of the driver thread, with the place it starts from. -/
inductive DriverMove (state : Threads) :
    ThreadOp → Threads → Prop where
  | starts (answers : StdFds) (here : state.place = .starting) :
      DriverMove state (.start answers) (state.start answers)
  | drains (here : state.place = .top) (runs : state.shutdown = false) :
      DriverMove state .enter
        { state with
          spawnQueue := []
          place := .serving state.spawnQueue }
  | ends (here : state.place = .top) (flag : state.shutdown = true) :
      DriverMove state .enter
        { state with
          machine :=
            { world :=
                (Driver.reapStep state.machine.world
                  state.machine.driver).1.cleanup
              driver :=
                (Driver.reapStep state.machine.world
                  state.machine.driver).2 }
          place := .ended }
  | spawns {request : SpawnRequest} {requests : List SpawnRequest}
      {machine : Machine}
      (here : state.place = .serving (request :: requests))
      (spawned : state.machine.step
        (.createProcess request.fds.1 request.fds.2.1 request.fds.2.2) =
          some machine) :
      DriverMove state (.serve true)
        { state with
          machine := machine
          place :=
            .answering request.call state.executor.nextPid requests
          served := state.served ++ [(request, state.executor.nextPid)] }
  | fails {request : SpawnRequest} {requests : List SpawnRequest}
      (here : state.place = .serving (request :: requests)) :
      DriverMove state (.serve false)
        { state with
          place := .answering request.call 0 requests
          served := state.served ++ [(request, 0)] }
  | answers {call : CallId} {vpid : VPid} {requests : List SpawnRequest}
      (here : state.place = .answering call vpid requests) :
      DriverMove state .answer
        { state with
          spawnResults := Function.update state.spawnResults call (some vpid)
          place := .serving requests }
  | begins {machine : Machine} (here : state.place = .serving [])
      (stepped : state.machine.step
        (.stepFromDriverWithFdSwap state.savedFds) = some machine) :
      DriverMove state .stepFromDriver
        { state with
          machine := machine
          place := Threads.afterStep state.waiters machine }
  | runs {op : DriverOp} {machine : Machine}
      (here : state.place = .running) (allowed : isCoroutineOp op = true)
      (stepped : state.machine.step op = some machine) :
      DriverMove state (.coroutine op)
        { state with
          machine := machine
          place := Threads.afterStep state.waiters machine }
  | tellsWaiter {kept left : List Waiter} {waiter : Waiter} {code : CInt}
      (here : state.place = .checking kept (waiter :: left))
      (ended : state.executor.getExitCode waiter.vpid = some code) :
      DriverMove state .checkWaiter
        { state with
          exitResults :=
            Function.update state.exitResults waiter.call (some code)
          place := .checking kept left }
  | keepsWaiter {kept left : List Waiter} {waiter : Waiter}
      (here : state.place = .checking kept (waiter :: left))
      (lives : state.executor.getExitCode waiter.vpid = none) :
      DriverMove state .checkWaiter
        { state with place := .checking (kept ++ [waiter]) left }
  | keepsWaiters {kept : List Waiter}
      (here : state.place = .checking kept []) :
      DriverMove state .checkWaiter
        { state with waiters := kept, place := .reaping }
  | reaps {machine : Machine} (here : state.place = .reaping)
      (stepped : state.machine.step .reapDoneCoroutines = some machine) :
      DriverMove state .reap
        { state with machine := machine, place := .collecting }
  | collects {machine : Machine} (here : state.place = .collecting)
      (stepped : state.machine.step .collectIoWaits = some machine) :
      DriverMove state .collect
        { state with
          machine := machine
          place :=
            if machine.driver.polled.isEmpty then .between else .polling }
  | wakes {revents : List Bool} {now : Nat} {machine : Machine}
      (here : state.place = .polling)
      (stepped : state.machine.step (.wakeIoReady revents now) =
        some machine) :
      DriverMove state (.poll (some (revents, now)))
        { state with machine := machine, place := .between }
  | pollFails (here : state.place = .polling) :
      DriverMove state (.poll none) { state with place := .between }
  | locks (here : state.place = .between) :
      DriverMove state .lockForWait { state with place := .testing }
  | reads (here : state.place = .testing) :
      DriverMove state .readQueue
        { state with place := .tested !state.spawnQueue.isEmpty }
  | goesOn {spawnHasWork : Bool}
      (here : state.place = .tested spawnHasWork)
      (work : state.staysAwake spawnHasWork = true) :
      DriverMove state .decideWait { state with place := .top }
  | sleeps {spawnHasWork : Bool}
      (here : state.place = .tested spawnHasWork)
      (noWork : state.staysAwake spawnHasWork = false) :
      DriverMove state .decideWait { state with place := .waiting }
  | wakesUp (here : state.place = .waiting) :
      DriverMove state .spuriousWake { state with place := .woken }
  | relocks (here : state.place = .woken) :
      DriverMove state .relock { state with place := .testing }

/-- A step of a client or of another session. -/
inductive ClientMove (state : Threads) :
    ThreadOp → Threads → Prop where
  | creates {call : CallId} (fds : StdFds)
      (here : state.creates call = .notMade)
      (listed : state.listed = true) :
      ClientMove state (.createProcess call fds)
        (state.setCreate call (.trying fds 0))
  | createsNowhere {call : CallId} (fds : StdFds)
      (here : state.creates call = .notMade)
      (unlisted : state.listed = false) :
      ClientMove state (.createProcess call fds)
        (state.setCreate call (.returned 0))
  | obtainsLock {call : CallId} {fds : StdFds} {tries : Nat}
      (here : state.creates call = .trying fds tries) :
      ClientMove state (.tryLock call true)
        (state.setCreate call (.pushing fds))
  | missesLock {call : CallId} {fds : StdFds} {tries : Nat}
      (here : state.creates call = .trying fds tries) :
      ClientMove state (.tryLock call false)
        (state.setCreate call (Threads.tryAgain fds tries))
  | pushes {call : CallId} {fds : StdFds}
      (here : state.creates call = .pushing fds) :
      ClientMove state (.push call) (state.push call fds)
  | notifies {call : CallId} (here : state.creates call = .notifying)
      (unlocked : state.place.holdsLock = false) :
      ClientMove state (.notify call)
        (state.setCreate call (.polling 0)).notifyWake
  | readsResult {call : CallId} {attempts : Nat}
      (here : state.creates call = .polling attempts) :
      ClientMove state (.pollResult call)
        (state.setCreate call (state.pollResult call attempts))
  | asks {call : CallId} (vpid : VPid)
      (here : state.exits call = .notMade)
      (listed : state.listed = true) :
      ClientMove state (.runUntilExit call vpid)
        (state.setExit call (.checking vpid))
  | asksNobody {call : CallId} (vpid : VPid)
      (here : state.exits call = .notMade)
      (unlisted : state.listed = false) :
      ClientMove state (.runUntilExit call vpid)
        (state.setExit call (.returned vpid .noSession))
  | checks {call : CallId} {vpid : VPid}
      (here : state.exits call = .checking vpid)
      (unlocked : state.place.holdsLock = false) :
      ClientMove state (.check call) (state.setExit call (state.check vpid))
  | finds {call : CallId} {vpid : VPid} {code : CInt}
      (here : state.exits call = .rechecking vpid)
      (unlocked : state.place.holdsLock = false)
      (ended : state.executor.getExitCode vpid = some code) :
      ClientMove state (.recheck call)
        (state.setExit call (.returned vpid (.code code)))
  | registers {call : CallId} {vpid : VPid}
      (here : state.exits call = .rechecking vpid)
      (unlocked : state.place.holdsLock = false)
      (lives : state.executor.getExitCode vpid = none) :
      ClientMove state (.recheck call)
        (Threads.notifyWake
          { state.setExit call (.polling vpid 0) with
            waiters := state.waiters ++ [⟨vpid, call⟩] })
  | looks {call : CallId} {vpid : VPid} {looks : Nat}
      (here : state.exits call = .polling vpid looks) :
      ClientMove state (.look call)
        (state.setExit call (state.look call vpid looks))
  | unlists :
      ClientMove state .destroySession
        { state with listed := false, destroying := state.listed }
  | shutsDown (unlocked : state.place.holdsLock = false) :
      ClientMove state .setShutdown
        { state with destroying := false, shutdown := true }
  | elsewhere {op : World.FdOp} {world : World}
      (stepped : state.machine.world.step op = some world) :
      ClientMove state (.elsewhere op)
        { state with
          machine := { world := world, driver := state.machine.driver } }

/-- What a step does. -/
inductive Move (state : Threads) (op : ThreadOp) (next : Threads) :
    Prop where
  | driver (move : DriverMove state op next)
  | client (move : ClientMove state op next)

theorem whenUnlocked_eq_some_iff
    {state result next : Threads} :
    state.whenUnlocked result = some next ↔
      state.place.holdsLock = false ∧ result = next := by
  unfold Threads.whenUnlocked
  cases state.place.holdsLock <;> simp

theorem drive_eq_some_iff
    {state next : Threads} {op : DriverOp} {after : Machine → Place} :
    state.drive op after = some next ↔
      ∃ machine, state.machine.step op = some machine ∧
        { state with machine := machine, place := after machine } =
          next :=
  Option.map_eq_some_iff

section Inversion

variable {state next : Threads} {op : ThreadOp}

theorem move_of_driverStep
    (stepped : state.driverStep op state.place = some next) :
    DriverMove state op next := by
  generalize here : state.place = place at stepped
  unfold Threads.driverStep at stepped
  split at stepped
  · cases stepped
    exact .starts _ here
  · unfold Threads.enter at stepped
    split at stepped
    · rename_i flag
      cases stepped
      exact .ends here flag
    · rename_i noFlag
      cases stepped
      exact .drains here (Bool.eq_false_of_not_eq_true noFlag)
  · rename_i loaded request requests
    cases loaded with
    | false =>
        cases stepped
        exact .fails here
    | true =>
        obtain ⟨machine, spawned, rfl⟩ := drive_eq_some_iff.mp stepped
        exact .spawns here spawned
  · cases stepped
    exact .answers here
  · obtain ⟨machine, begun, rfl⟩ := drive_eq_some_iff.mp stepped
    exact .begins here begun
  · split at stepped
    · rename_i allowed
      obtain ⟨machine, ran, rfl⟩ := drive_eq_some_iff.mp stepped
      exact .runs here allowed ran
    · cases stepped
  · unfold Threads.checkWaiter at stepped
    split at stepped
    · rename_i ended
      cases stepped
      exact .tellsWaiter here ended
    · rename_i lives
      cases stepped
      exact .keepsWaiter here lives
  · cases stepped
    exact .keepsWaiters here
  · obtain ⟨machine, reaped, rfl⟩ := drive_eq_some_iff.mp stepped
    exact .reaps here reaped
  · obtain ⟨machine, collected, rfl⟩ := drive_eq_some_iff.mp stepped
    exact .collects here collected
  · obtain ⟨machine, woken, rfl⟩ := drive_eq_some_iff.mp stepped
    exact .wakes here woken
  · cases stepped
    exact .pollFails here
  · cases stepped
    exact .locks here
  · cases stepped
    exact .reads here
  · split at stepped
    · rename_i work
      cases stepped
      exact .goesOn here work
    · rename_i noWork
      cases stepped
      exact .sleeps here (Bool.eq_false_of_not_eq_true noWork)
  · cases stepped
    exact .wakesUp here
  · cases stepped
    exact .relocks here
  · cases stepped

theorem move_of_createProcess
    {call : CallId} {fds : StdFds}
    (stepped : state.step (.createProcess call fds) = some next) :
    ClientMove state (.createProcess call fds) next := by
  simp only [Threads.step] at stepped
  generalize here : state.creates call = create at stepped
  cases create with
  | notMade =>
      simp only [Threads.createStep] at stepped
      split at stepped
      · cases stepped
      · split at stepped
        · rename_i listed
          cases stepped
          exact .creates fds here listed
        · rename_i unlisted
          cases stepped
          exact
            .createsNowhere fds here
              (Bool.eq_false_of_not_eq_true unlisted)
  | _ => cases stepped

theorem move_of_runUntilExit
    {call : CallId} {vpid : VPid}
    (stepped : state.step (.runUntilExit call vpid) = some next) :
    ClientMove state (.runUntilExit call vpid) next := by
  simp only [Threads.step] at stepped
  generalize here : state.exits call = exit at stepped
  cases exit with
  | notMade =>
      simp only [Threads.exitStep] at stepped
      split at stepped
      · cases stepped
      · split at stepped
        · rename_i listed
          cases stepped
          exact .asks vpid here listed
        · rename_i unlisted
          cases stepped
          exact
            .asksNobody vpid here (Bool.eq_false_of_not_eq_true unlisted)
  | _ => cases stepped

theorem move_of_tryLock
    {call : CallId} {obtained : Bool}
    (stepped : state.step (.tryLock call obtained) = some next) :
    ClientMove state (.tryLock call obtained) next := by
  simp only [Threads.step] at stepped
  generalize here : state.creates call = create at stepped
  cases create with
  | trying fds tries =>
      cases obtained with
      | true =>
          obtain ⟨_, rfl⟩ := whenUnlocked_eq_some_iff.mp stepped
          exact .obtainsLock here
      | false =>
          cases stepped
          exact .missesLock here
  | _ => cases obtained <;> cases stepped

theorem move_of_recheck
    {call : CallId}
    (stepped : state.step (.recheck call) = some next) :
    ClientMove state (.recheck call) next := by
  simp only [Threads.step] at stepped
  generalize here : state.exits call = exit at stepped
  cases exit with
  | rechecking vpid =>
      obtain ⟨unlocked, rfl⟩ := whenUnlocked_eq_some_iff.mp stepped
      unfold Threads.recheck
      split
      · rename_i ended
        exact .finds here unlocked ended
      · rename_i lives
        exact .registers here unlocked lives
  | _ => cases stepped

/-- A step does one of the listed things. -/
theorem move_of_step (stepped : state.step op = some next) :
    Move state op next := by
  cases op with
  | createProcess call fds => exact .client (move_of_createProcess stepped)
  | tryLock call obtained => exact .client (move_of_tryLock stepped)
  | push call =>
      simp only [Threads.step] at stepped
      generalize here : state.creates call = create at stepped
      cases create with
      | pushing fds =>
          cases stepped
          exact .client (.pushes here)
      | _ => cases stepped
  | notify call =>
      simp only [Threads.step] at stepped
      generalize here : state.creates call = create at stepped
      cases create with
      | notifying =>
          obtain ⟨unlocked, rfl⟩ := whenUnlocked_eq_some_iff.mp stepped
          exact .client (.notifies here unlocked)
      | _ => cases stepped
  | pollResult call =>
      simp only [Threads.step] at stepped
      generalize here : state.creates call = create at stepped
      cases create with
      | polling attempts =>
          cases stepped
          exact .client (.readsResult here)
      | _ => cases stepped
  | runUntilExit call vpid => exact .client (move_of_runUntilExit stepped)
  | check call =>
      simp only [Threads.step] at stepped
      generalize here : state.exits call = exit at stepped
      cases exit with
      | checking vpid =>
          obtain ⟨unlocked, rfl⟩ := whenUnlocked_eq_some_iff.mp stepped
          exact .client (.checks here unlocked)
      | _ => cases stepped
  | recheck call => exact .client (move_of_recheck stepped)
  | look call =>
      simp only [Threads.step] at stepped
      generalize here : state.exits call = exit at stepped
      cases exit with
      | polling vpid looks =>
          cases stepped
          exact .client (.looks here)
      | _ => cases stepped
  | destroySession =>
      simp only [Threads.step] at stepped
      split at stepped
      · cases stepped
      · cases stepped
        exact .client .unlists
  | setShutdown =>
      simp only [Threads.step] at stepped
      split at stepped
      · obtain ⟨unlocked, rfl⟩ := whenUnlocked_eq_some_iff.mp stepped
        exact .client (.shutsDown unlocked)
      · cases stepped
  | elsewhere op =>
      obtain ⟨world, moved, rfl⟩ := Option.map_eq_some_iff.mp stepped
      exact .client (.elsewhere moved)
  | _ => exact .driver (move_of_driverStep stepped)

end Inversion

/-! ## The executor -/

theorem not_hasReady
    {ex : Executor} (noneReady : Threads.hasReady ex = false)
    {pid : VPid} {co : Coroutine}
    (found : ex.vprocs.lookup pid = some co) :
    co.isDone = true ∨ co.ioWait.isSome = true := by
  simp only [Threads.hasReady, Bool.not_eq_false', List.all_eq_true,
    Bool.or_eq_true] at noneReady
  exact noneReady co (mem_values_iff.mpr ⟨pid, found⟩)

/-- Only the steps which begin a turn start one. -/
theorem turn_change
    {driver next : Driver} {op : DriverOp}
    (change : Change driver op next) (notBegins : beginsTurn op = false)
    (idle : driver.turn = none) :
    next.turn = none := by
  cases change with
  | resumes turn idle begins chosen isResumed =>
      rw [notBegins] at begins
      cases begins
  | ends turn running ending => rfl
  | _ => exact idle

/--
What holds of the executor in every state: a turn is on only while the driver
thread is running a coroutine, and the queue is in order until the process
numbers come round.
-/
structure Sound (state : Threads) : Prop where
  numbered : Numbered state.machine.driver
  idle : state.place ≠ .running → state.machine.driver.turn = none
  ordered : state.machine.driver.spawned < 4294967296 →
    DriverInvariant state.machine.driver

theorem sound_init (world : World) : Sound (Threads.init world) where
  numbered := numbered_new
  idle := fun _ => rfl
  ordered := fun _ => driverInvariant_new

section Executor

variable {state next : Threads} {op : ThreadOp}

theorem idle_of_place
    {place : Place} (sound : Sound state) (here : state.place = place)
    (notRunning : place ≠ .running) :
    state.machine.driver.turn = none :=
  sound.idle fun running => notRunning (here.symm.trans running)

/-- What the driver thread owns is not changed by a client. -/
structure SameDriver (state next : Threads) : Prop where
  driver : next.machine.driver = state.machine.driver
  served : next.served = state.served
  spawnResults : next.spawnResults = state.spawnResults
  exitResults : next.exitResults = state.exitResults

theorem sameDriver_client (move : ClientMove state op next) :
    SameDriver state next := by
  cases move with
  | _ => exact ⟨rfl, rfl, rfl, rfl⟩

/-- The step of the driver within a step of its thread, if there is one. -/
theorem change_of_driverMove
    (sound : Sound state) (move : DriverMove state op next) :
    next.machine.driver = state.machine.driver ∨
      ∃ driverOp, (∀ pid, driverOp ≠ .removeExitCode pid) ∧
        Change state.machine.driver driverOp next.machine.driver := by
  have driven {driverOp : DriverOp} {machine : Machine}
      (other : ∀ pid, driverOp ≠ .removeExitCode pid)
      (stepped : state.machine.step driverOp = some machine) :
      machine.driver = state.machine.driver ∨
        ∃ driverOp, (∀ pid, driverOp ≠ .removeExitCode pid) ∧
          Change state.machine.driver driverOp machine.driver :=
    Or.inr ⟨driverOp, other, change_of_machineStep stepped⟩
  cases move with
  | ends here flag =>
      have idle := idle_of_place sound here (by simp)
      exact Or.inr ⟨.reapDoneCoroutines, by simp, .reaps idle⟩
  | spawns here spawned => exact driven (by simp) spawned
  | begins here stepped => exact driven (by simp) stepped
  | runs here allowed stepped =>
      refine driven ?_ stepped
      rintro pid rfl
      cases allowed
  | reaps here stepped => exact driven (by simp) stepped
  | collects here stepped => exact driven (by simp) stepped
  | wakes here stepped => exact driven (by simp) stepped
  | _ => exact Or.inl rfl

theorem change_of_move (sound : Sound state) (move : Move state op next) :
    next.machine.driver = state.machine.driver ∨
      ∃ driverOp, (∀ pid, driverOp ≠ .removeExitCode pid) ∧
        Change state.machine.driver driverOp next.machine.driver := by
  cases move with
  | driver move => exact change_of_driverMove sound move
  | client move => exact Or.inl (sameDriver_client move).driver

theorem turn_of_afterStep
    {waiters : List Waiter} {machine : Machine}
    (left : Threads.afterStep waiters machine ≠ .running) :
    machine.driver.turn = none := by
  unfold Threads.afterStep at left
  split at left
  · rename_i idle
    exact Option.isNone_iff_eq_none.mp idle
  · exact (left rfl).elim

theorem notifyWake_place (state : Threads) :
    state.notifyWake.place = .woken ∧ state.place = .waiting ∨
      state.notifyWake.place = state.place ∧ state.place ≠ .waiting := by
  unfold Threads.notifyWake
  by_cases asleep : state.place = .waiting
  · exact Or.inl ⟨if_pos asleep, asleep⟩
  · exact Or.inr ⟨if_neg asleep, asleep⟩

/-- A client does not move the driver thread, except that it may wake it. -/
theorem place_client (move : ClientMove state op next) :
    next.place = .woken ∧ state.place = .waiting ∨
      next.place = state.place := by
  cases move with
  | notifies here unlocked =>
      exact (notifyWake_place _).imp id fun same => same.1
  | registers here unlocked lives =>
      exact (notifyWake_place _).imp id fun same => same.1
  | _ => exact Or.inr rfl

theorem idle_move
    (sound : Sound state) (move : Move state op next)
    (left : next.place ≠ .running) :
    next.machine.driver.turn = none := by
  have driven {driverOp : DriverOp} {place : Place} {machine : Machine}
      (here : state.place = place) (notRunning : place ≠ .running)
      (notBegins : beginsTurn driverOp = false)
      (stepped : state.machine.step driverOp = some machine) :
      machine.driver.turn = none :=
    turn_change (change_of_machineStep stepped) notBegins
      (idle_of_place sound here notRunning)
  have still {place : Place} (here : state.place = place)
      (notRunning : place ≠ .running) :
      state.machine.driver.turn = none :=
    idle_of_place sound here notRunning
  cases move with
  | client move =>
      rw [(sameDriver_client move).driver]
      rcases place_client move with ⟨_, asleep⟩ | same
      · exact still asleep (by simp)
      · exact sound.idle (same ▸ left)
  | driver move =>
      cases move with
      | spawns here spawned => exact driven here (by simp) rfl spawned
      | begins here stepped => exact turn_of_afterStep left
      | runs here allowed stepped => exact turn_of_afterStep left
      | reaps here stepped => exact driven here (by simp) rfl stepped
      | collects here stepped => exact driven here (by simp) rfl stepped
      | wakes here stepped => exact driven here (by simp) rfl stepped
      | _ => exact still ‹state.place = _› (by simp)

/-- A step of a thread keeps what is known of the executor. -/
theorem sound_move (sound : Sound state) (move : Move state op next) :
    Sound next := by
  rcases change_of_move sound move with same | ⟨driverOp, _, change⟩
  · refine ⟨?_, idle_move sound move, ?_⟩
    · rw [same]
      exact sound.numbered
    · rw [same]
      exact sound.ordered
  · refine
      ⟨numbered_change change sound.numbered, idle_move sound move, ?_⟩
    intro few
    have grows := (nextPid_change change sound.numbered.next).2
    refine driverInvariant_change (sound.ordered (by omega)) change ?_
    intro isSpawn
    have one := spawned_of_spawns change isSpawn
    exact freshPid_of_numbered sound.numbered (by omega)

theorem sound_step
    (state : Threads) (op : ThreadOp) (next : Threads)
    (sound : Sound state) (stepped : state.step op = some next) :
    Sound next :=
  sound_move sound (move_of_step stepped)

theorem sound_of_run
    {world : World} {ops : List ThreadOp} {final : Threads}
    (reached : run Threads.step (Threads.init world) ops = some final) :
    Sound final :=
  invariant_of_run sound_step (sound_init world) reached

/-- A step takes process numbers and gives none back. -/
theorem spawned_le_of_move
    (sound : Sound state) (move : Move state op next) :
    state.machine.driver.spawned ≤ next.machine.driver.spawned := by
  rcases change_of_move sound move with same | ⟨driverOp, _, change⟩
  · rw [same]
  · exact (nextPid_change change sound.numbered.next).2

theorem fewer_before
    (state : Threads) (op : ThreadOp) (next : Threads)
    (sound : Sound state) (stepped : state.step op = some next)
    (few : next.machine.driver.spawned < 4294967296) :
    state.machine.driver.spawned < 4294967296 :=
  lt_of_le_of_lt (spawned_le_of_move sound (move_of_step stepped)) few

end Executor

end Vproc.Ffi.ThreadSteps
