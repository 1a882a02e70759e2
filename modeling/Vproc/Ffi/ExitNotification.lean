import Vproc.Ffi.Rollover

/-!
# Waiting for an exit

A client which calls `vproc_ffi_run_until_exit` looks twice whether the process
is over, with the session mutex given up in between, and registers a waiter if
it is not.  After each turn the driver answers the waiters whose process is
over, before it reaps.  A stored exit code outlives the coroutine, so it does
not matter on which side of the exit or of the reaping a client comes.

A client which has received a code has received the code of its process:
either the one which is stored, or one which was read from the coroutine while
no code was stored.
-/

namespace Vproc.Ffi.ExitNotification

open Vproc.Lib.Run
open Vproc.Lib.FiniteMap
open Vproc.Fd.Table
open Vproc.Fd.KernelTable
open Vproc.Fd.Runtime
open Vproc.Sched.Scheduler
open Vproc.Sched.DriverLoop
open Vproc.Sched.DriverSteps
open Vproc.Sched.ReadyQueue
open Vproc.Sched.ExitDurability
open Vproc.Ffi.SessionThreads
open Vproc.Ffi.ThreadSteps
open Vproc.Ffi.Rollover

/-! ## Codes -/

/-- The process is over, and no other code is stored for it. -/
structure Settled (driver : Driver) (pid : VPid) (code : CInt) : Prop where
  ended : Ended driver pid
  stored : ∀ other, driver.executor.exitCodes.lookup pid = some other →
    other = code

/-- Exit codes are stored for processes which are over. -/
def StoredEnded (driver : Driver) : Prop :=
  ∀ pid code, driver.executor.exitCodes.lookup pid = some code →
    Ended driver pid

section Codes

variable {driver next : Driver} {op : DriverOp}

/-- A code which is new in a step is that of the process which exits. -/
theorem storedEnded_change
    (change : Change driver op next) (numbered : Numbered driver)
    (few : next.spawned < 4294967296) (stored : StoredEnded driver) :
    StoredEnded next := by
  intro pid code found
  by_cases bystander : next.turn = none → NotRunning driver pid
  · rw [exitCode_change change numbered.runs bystander] at found
    split at found
    · cases found
    · exact (ended_change change numbered few (stored pid code found)).1
  · simp only [NotRunning, Classical.not_imp, not_forall, not_not]
      at bystander
    obtain ⟨isOver, turn, running, rfl⟩ := bystander
    cases exits : exitCode? driver op with
    | some exitCode => exact (ended_of_exit change numbered running exits).1
    | none =>
        -- The running process has no code, and gets none in this step.
        rw [exitCodes_of_turn_over change running isOver exits] at found
        exact ((stored turn.pid code found).notRunning turn running rfl).elim

theorem settled_change
    {pid : VPid} {code : CInt} (change : Change driver op next)
    (numbered : Numbered driver) (few : next.spawned < 4294967296)
    (settled : Settled driver pid code) :
    Settled next pid code := by
  refine ⟨(ended_change change numbered few settled.ended).1, ?_⟩
  intro other found
  rw [exitCode_change change numbered.runs
    fun _ => settled.ended.notRunning] at found
  split at found
  · cases found
  · exact settled.stored other found

/-- A code which `get_exit_code` returns between turns. -/
theorem settled_of_getExitCode
    {pid : VPid} {code : CInt} (numbered : Numbered driver)
    (stored : StoredEnded driver) (idle : driver.turn = none)
    (found : driver.executor.getExitCode pid = some code) :
    Settled driver pid code := by
  unfold Executor.getExitCode at found
  split at found
  · rename_i exitCode isStored
    cases found
    refine ⟨stored pid code isStored, ?_⟩
    intro other same
    rw [isStored] at same
    exact (Option.some.inj same).symm
  · rename_i notStored
    obtain ⟨co, isThere, finished⟩ := Option.bind_eq_some_iff.mp found
    split at finished
    · rename_i done
      refine ⟨⟨?_, ?_, ?_⟩, ?_⟩
      · intro turn running
        rw [idle] at running
        cases running
      · intro other same
        rw [isThere] at same
        cases same
        exact done
      · exact
          numbered.taken pid
            (.coroutine (mem_iff_lookup.mpr ⟨co, isThere⟩))
      · intro other same
        rw [notStored] at same
        cases same
    · cases finished

/-- A process without a code gets one in a turn only. -/
theorem getExitCode_none_change
    {pid : VPid} (change : Change driver op next)
    (runs : TurnRuns driver) (idle : driver.turn = none)
    (lives : driver.executor.getExitCode pid = none) :
    next.executor.getExitCode pid = none := by
  have notRunning : NotRunning driver pid := by
    intro turn running
    rw [idle] at running
    cases running
  have notStored : driver.executor.exitCodes.lookup pid = none := by
    cases found : driver.executor.exitCodes.lookup pid with
    | none => rfl
    | some code => simp [Executor.getExitCode, found] at lives
  have notDone (co : Coroutine)
      (found : driver.executor.vprocs.lookup pid = some co) :
      co.isDone = false := by
    simp only [Executor.getExitCode, notStored, found,
      Option.bind_some] at lives
    by_contra finished
    simp [Bool.eq_true_of_not_eq_false finished] at lives
  have stillNotStored : next.executor.exitCodes.lookup pid = none := by
    rw [exitCode_change change runs fun _ => notRunning, notStored]
    split <;> rfl
  have stillNotDone (co : Coroutine)
      (found : next.executor.vprocs.lookup pid = some co) :
      co.isDone = false := by
    have ofLives (lives : Lives next.executor pid) : co.isDone = false := by
      obtain ⟨other, stored, live⟩ := lives
      cases stored.symm.trans found
      exact live
    by_cases new : spawns driver op = true ∧ pid = driver.executor.nextPid
    · obtain ⟨isSpawn, rfl⟩ := new
      exact ofLives (lives_of_spawns change isSpawn)
    · cases before : driver.executor.vprocs.lookup pid with
      | none =>
          have absent :=
            absent_change change (fun isSpawn same => new ⟨isSpawn, same⟩)
              before
          cases absent.symm.trans found
      | some old =>
          refine ofLives (lives_change change runs ?_ ?_)
          · exact fun turn running own =>
              (notRunning turn running own).elim
          · exact ⟨old, before, notDone old before⟩
  simp only [Executor.getExitCode, stillNotStored]
  cases found : next.executor.vprocs.lookup pid with
  | none => rfl
  | some co => simp [stillNotDone co found]

end Codes

/-! ## Answers -/

/-- The process a call has registered for, or has been answered about. -/
def registered? : ExitCall → Option VPid
  | .polling vpid _ => some vpid
  | .returned vpid _ => some vpid
  | _ => none

/-- The waiters in the list which the driver thread goes through. -/
def waitersAt : Place → List Waiter
  | .checking kept left => kept ++ left
  | _ => []

/--
What a client is told is the code of its process.  The waiters belong to
calls which have registered, and the result slots of other calls are empty.
-/
structure Truthful (state : Threads) : Prop where
  stored : StoredEnded state.machine.driver
  answered : ∀ call pid code,
    state.exits call = .returned pid (.code code) →
    Settled state.machine.driver pid code
  told : ∀ call pid code, registered? (state.exits call) = some pid →
    state.exitResults call = some code →
    Settled state.machine.driver pid code
  waiting : ∀ waiter, waiter ∈ state.waiters ∨
      waiter ∈ waitersAt state.place →
    registered? (state.exits waiter.call) = some waiter.vpid
  untold : ∀ call, registered? (state.exits call) = none →
    state.exitResults call = none

theorem truthful_init (world : World) :
    Truthful (Threads.init world) where
  stored := fun _ _ found => nomatch found
  answered := fun _ _ _ returned => nomatch returned
  told := fun _ _ _ registered => nomatch registered
  waiting := fun _ listed => listed.elim nofun nofun
  untold := fun _ _ => rfl

section Answers

variable {state next : Threads} {op : ThreadOp}

theorem settled_move
    {pid : VPid} {code : CInt} (sound : Sound state)
    (few : next.machine.driver.spawned < 4294967296)
    (move : Move state op next)
    (settled : Settled state.machine.driver pid code) :
    Settled next.machine.driver pid code := by
  rcases change_of_move sound move with same | ⟨driverOp, _, change⟩
  · rw [same]
    exact settled
  · exact settled_change change sound.numbered few settled

theorem storedEnded_move
    (sound : Sound state)
    (few : next.machine.driver.spawned < 4294967296)
    (move : Move state op next)
    (stored : StoredEnded state.machine.driver) :
    StoredEnded next.machine.driver := by
  rcases change_of_move sound move with same | ⟨driverOp, _, change⟩
  · rw [same]
    exact stored
  · exact storedEnded_change change sound.numbered few stored

/-- Between turns, what `get_exit_code` returns is the code of the process. -/
theorem settled_of_unlocked
    {pid : VPid} {code : CInt} (sound : Sound state)
    (truthful : Truthful state)
    (notRunning : state.place ≠ .running)
    (found : state.executor.getExitCode pid = some code) :
    Settled state.machine.driver pid code :=
  settled_of_getExitCode sound.numbered truthful.stored
    (sound.idle notRunning) found

theorem waiting_first
    (truthful : Truthful state) {kept left : List Waiter}
    {waiter : Waiter}
    (here : state.place = .checking kept (waiter :: left)) :
    registered? (state.exits waiter.call) = some waiter.vpid := by
  apply truthful.waiting
  rw [here]
  exact Or.inr (List.mem_append_right _ List.mem_cons_self)

/-- The driver thread answers a waiter. -/
theorem told_tellsWaiter
    (sound : Sound state) (truthful : Truthful state)
    {kept left : List Waiter} {waiter : Waiter} {value : CInt}
    (here : state.place = .checking kept (waiter :: left))
    (ended : state.executor.getExitCode waiter.vpid = some value)
    {call : CallId} {pid : VPid} {code : CInt}
    (registered : registered? (state.exits call) = some pid)
    (result : Function.update state.exitResults waiter.call (some value)
      call = some code) :
    Settled state.machine.driver pid code := by
  by_cases own : call = waiter.call
  · subst own
    rw [Function.update_self] at result
    cases result
    rw [waiting_first truthful here] at registered
    cases registered
    refine settled_of_unlocked sound truthful ?_ ended
    rw [here]
    exact fun impossible => nomatch impossible
  · rw [Function.update_of_ne own] at result
    exact truthful.told call pid code registered result

theorem waiting_afterStep
    {waiters : List Waiter} {machine : Machine} {waiter : Waiter}
    (listed : waiter ∈ waiters ∨
      waiter ∈ waitersAt (Threads.afterStep waiters machine)) :
    waiter ∈ waiters := by
  refine listed.elim id ?_
  intro member
  unfold Threads.afterStep at member
  split at member
  · exact member
  · cases member

theorem waiting_driver
    (truthful : Truthful state) (move : DriverMove state op next)
    (waiter : Waiter)
    (listed : waiter ∈ next.waiters ∨ waiter ∈ waitersAt next.place) :
    registered? (next.exits waiter.call) = some waiter.vpid := by
  have before (member : waiter ∈ state.waiters) :
      registered? (state.exits waiter.call) = some waiter.vpid :=
    truthful.waiting waiter (Or.inl member)
  have during {kept left : List Waiter}
      (here : state.place = .checking kept left)
      (member : waiter ∈ kept ++ left) :
      registered? (state.exits waiter.call) = some waiter.vpid := by
    apply truthful.waiting waiter
    rw [here]
    exact Or.inr member
  cases move with
  | begins here stepped => exact before (waiting_afterStep listed)
  | runs here allowed stepped => exact before (waiting_afterStep listed)
  | tellsWaiter here ended =>
      rcases listed with member | member
      · exact before member
      · refine during here ?_
        refine (List.mem_append.mp member).elim ?_ ?_
        · exact List.mem_append_left _
        · exact fun later =>
            List.mem_append_right _ (List.mem_cons_of_mem _ later)
  | keepsWaiter here lives =>
      rcases listed with member | member
      · exact before member
      · exact during here (by simpa [waitersAt] using member)
  | keepsWaiters here =>
      rcases listed with member | member
      · exact during here (List.mem_append_left _ member)
      · cases member
  | collects here stepped =>
      rcases listed with member | member
      · exact before member
      · dsimp only at member
        split at member <;> cases member
  | _ =>
      rcases listed with member | member
      · exact before member
      · cases member

theorem truthful_driver
    (sound : Sound state) (truthful : Truthful state)
    (few : next.machine.driver.spawned < 4294967296)
    (move : DriverMove state op next) :
    Truthful next := by
  have settles {pid : VPid} {code : CInt}
      (settled : Settled state.machine.driver pid code) :
      Settled next.machine.driver pid code :=
    settled_move sound few (.driver move) settled
  have sameExits : next.exits = state.exits := by
    cases move with
    | _ => rfl
  refine
    ⟨storedEnded_move sound few (.driver move) truthful.stored, ?_, ?_,
      waiting_driver truthful move, ?_⟩
  · intro call pid code returned
    rw [sameExits] at returned
    exact settles (truthful.answered call pid code returned)
  · intro call pid code registered result
    rw [sameExits] at registered
    apply settles
    cases move with
    | tellsWaiter here ended =>
        exact
          told_tellsWaiter sound truthful here ended registered result
    | _ => exact truthful.told call pid code registered result
  · intro call unregistered
    rw [sameExits] at unregistered
    cases move with
    | tellsWaiter here ended =>
        refine (Function.update_of_ne ?_ _ _).trans
          (truthful.untold call unregistered)
        rintro rfl
        rw [waiting_first truthful here] at unregistered
        cases unregistered
    | _ => exact truthful.untold call unregistered

/-- A call goes on, with no other process, and with the code of its own. -/
theorem truthful_setExit
    (truthful : Truthful state) {call : CallId} {before after : ExitCall}
    (here : state.exits call = before)
    (sameProcess : registered? before = none ∨
      registered? after = registered? before)
    (truth : ∀ pid code, after = .returned pid (.code code) →
      Settled state.machine.driver pid code) :
    Truthful (state.setExit call after) := by
  refine ⟨truthful.stored, ?_, ?_, ?_, ?_⟩
  · intro other pid code returned
    by_cases own : other = call
    · subst own
      exact
        truth pid code ((Function.update_self _ _ _).symm.trans returned)
    · refine truthful.answered other pid code ?_
      exact (Function.update_of_ne own _ _).symm.trans returned
  · intro other pid code registered result
    by_cases own : other = call
    · subst own
      simp only [Threads.setExit, Function.update_self] at registered
      rcases sameProcess with unregistered | same
      · have empty :=
          truthful.untold other (here ▸ unregistered)
        cases empty.symm.trans result
      · refine truthful.told other pid code ?_ result
        rw [here, ← same]
        exact registered
    · simp only [Threads.setExit, Function.update_of_ne own]
        at registered
      exact truthful.told other pid code registered result
  · intro waiter listed
    have registered := truthful.waiting waiter listed
    by_cases own : waiter.call = call
    · simp only [Threads.setExit, own, Function.update_self]
      rw [own, here] at registered
      rcases sameProcess with unregistered | same
      · cases unregistered.symm.trans registered
      · exact same.trans registered
    · simp only [Threads.setExit, Function.update_of_ne own]
      exact registered
  · intro other unregistered
    by_cases own : other = call
    · subst own
      simp only [Threads.setExit, Function.update_self] at unregistered
      apply truthful.untold other
      rw [here]
      rcases sameProcess with before | same
      · exact before
      · exact same.symm.trans unregistered
    · simp only [Threads.setExit, Function.update_of_ne own]
        at unregistered
      exact truthful.untold other unregistered

theorem truthful_notifyWake (truthful : Truthful state) :
    Truthful state.notifyWake := by
  have samePlace :
      waitersAt state.notifyWake.place = waitersAt state.place := by
    rcases notifyWake_place state with ⟨woken, asleep⟩ | ⟨same, _⟩
    · rw [woken, asleep]
      rfl
    · rw [same]
  refine
    ⟨truthful.stored, truthful.answered, truthful.told, ?_,
      truthful.untold⟩
  intro waiter listed
  rw [samePlace] at listed
  exact truthful.waiting waiter listed

/-- A call registers a waiter. -/
theorem truthful_register
    (truthful : Truthful state) {call : CallId} {vpid : VPid}
    (here : state.exits call = .rechecking vpid) :
    Truthful
      { state.setExit call (.polling vpid 0) with
        waiters := state.waiters ++ [⟨vpid, call⟩] } := by
  have set : Truthful (state.setExit call (.polling vpid 0)) :=
    truthful_setExit truthful here (Or.inl rfl) (by simp)
  refine ⟨set.stored, set.answered, set.told, ?_, set.untold⟩
  rintro waiter (listed | checked)
  · rcases List.mem_append.mp listed with before | new
    · exact set.waiting waiter (Or.inl before)
    · rw [List.mem_singleton.mp new]
      simp [Threads.setExit, registered?]
  · exact set.waiting waiter (Or.inr checked)

/-- A call looks at its result slot. -/
theorem truthful_look
    (truthful : Truthful state) {call : CallId} {vpid : VPid}
    {looks : Nat} (here : state.exits call = .polling vpid looks) :
    Truthful (state.setExit call (state.look call vpid looks)) := by
  refine truthful_setExit truthful here (Or.inr ?_) ?_
  · unfold Threads.look
    split
    · rfl
    · split <;> rfl
  · intro pid code returned
    unfold Threads.look at returned
    split at returned
    · rename_i result
      cases returned
      exact truthful.told call _ code (by rw [here]; rfl) result
    · split at returned <;> cases returned

theorem notRunning_of_unlocked
    (unlocked : state.place.holdsLock = false) :
    state.place ≠ .running := by
  intro running
  rw [running] at unlocked
  cases unlocked

theorem truthful_client
    (sound : Sound state) (truthful : Truthful state)
    (move : ClientMove state op next) :
    Truthful next := by
  cases move with
  | notifies here unlocked =>
      apply truthful_notifyWake
      exact
        ⟨truthful.stored, truthful.answered, truthful.told,
          truthful.waiting, truthful.untold⟩
  | asks vpid here listed =>
      exact truthful_setExit truthful here (Or.inl rfl) (by simp)
  | asksNobody vpid here unlisted =>
      exact truthful_setExit truthful here (Or.inl rfl) (by simp)
  | checks here unlocked =>
      refine truthful_setExit truthful here (Or.inl rfl) ?_
      intro pid code returned
      unfold Threads.check at returned
      split at returned
      · rename_i found
        cases returned
        exact
          settled_of_unlocked sound truthful
            (notRunning_of_unlocked unlocked) found
      · cases returned
  | finds here unlocked ended =>
      refine truthful_setExit truthful here (Or.inl rfl) ?_
      intro pid code returned
      cases returned
      exact
        settled_of_unlocked sound truthful
          (notRunning_of_unlocked unlocked) ended
  | registers here unlocked lives =>
      exact truthful_notifyWake (truthful_register truthful here)
  | looks here => exact truthful_look truthful here
  | _ =>
      exact
        ⟨truthful.stored, truthful.answered, truthful.told,
          truthful.waiting, truthful.untold⟩

/-- Until the process numbers come round, clients are told the truth. -/
theorem truthful_of_run
    {world : World} {ops : List ThreadOp} {final : Threads}
    (reached : run Threads.step (Threads.init world) ops = some final)
    (few : final.machine.driver.spawned < 4294967296) :
    Truthful final := by
  refine
    invariant_of_bounded sound_step fewer_before ?_ (sound_init world)
      (truthful_init world) reached few
  intro state op next sound stepped few truthful
  cases move_of_step stepped with
  | driver move => exact truthful_driver sound truthful few move
  | client move => exact truthful_client sound truthful move

end Answers

/-! ## Waiters -/

/-- The waiters which the driver thread has gone through and kept. -/
def keptAt : Place → List Waiter
  | .checking kept _ => kept
  | _ => []

/-- From the beginning of a turn until the waiters have been checked. -/
def settling : Place → Bool
  | .running => true
  | .checking _ _ => true
  | _ => false

/-- No waiter is left for a process which is over. -/
structure Attentive (state : Threads) : Prop where
  kept : ∀ waiter ∈ keptAt state.place,
    state.executor.getExitCode waiter.vpid = none
  listed : settling state.place = false → ∀ waiter ∈ state.waiters,
    state.executor.getExitCode waiter.vpid = none

theorem attentive_init (world : World) :
    Attentive (Threads.init world) where
  kept := fun _ member => nomatch member
  listed := fun _ _ member => nomatch member

section Waiters

variable {state next : Threads} {op : ThreadOp}

theorem notRunning_of_not_settling
    {place : Place} (quiet : settling place = false) :
    place ≠ .running := by
  rintro rfl
  cases quiet

theorem settling_afterStep (waiters : List Waiter) (machine : Machine) :
    settling (Threads.afterStep waiters machine) = true := by
  unfold Threads.afterStep
  split <;> rfl

theorem keptAt_afterStep (waiters : List Waiter) (machine : Machine) :
    keptAt (Threads.afterStep waiters machine) = [] := by
  unfold Threads.afterStep
  split <;> rfl

theorem getExitCode_none_move
    {pid : VPid} (sound : Sound state) (move : Move state op next)
    (notRunning : state.place ≠ .running)
    (lives : state.executor.getExitCode pid = none) :
    next.executor.getExitCode pid = none := by
  rcases change_of_move sound move with same | ⟨driverOp, _, change⟩
  · rw [Threads.executor, same]
    exact lives
  · exact
      getExitCode_none_change change sound.numbered.runs
        (sound.idle notRunning) lives

theorem attentive_driver
    (sound : Sound state) (attentive : Attentive state)
    (move : DriverMove state op next) :
    Attentive next := by
  constructor
  · intro waiter member
    cases move with
    | begins here stepped =>
        rw [keptAt_afterStep] at member
        cases member
    | runs here allowed stepped =>
        rw [keptAt_afterStep] at member
        cases member
    | tellsWaiter here ended =>
        apply attentive.kept
        rw [here]
        exact member
    | keepsWaiter here lives =>
        rcases List.mem_append.mp member with before | new
        · apply attentive.kept
          rw [here]
          exact before
        · rw [List.mem_singleton.mp new]
          exact lives
    | collects here stepped =>
        dsimp only at member
        split at member <;> cases member
    | _ => cases member
  · intro quiet waiter member
    have stays (settled : settling state.place = false)
        (before : waiter ∈ state.waiters) :
        next.executor.getExitCode waiter.vpid = none :=
      getExitCode_none_move sound (.driver move)
        (notRunning_of_not_settling settled)
        (attentive.listed settled waiter before)
    cases move with
    | begins here stepped =>
        cases (settling_afterStep _ _).symm.trans quiet
    | runs here allowed stepped =>
        cases (settling_afterStep _ _).symm.trans quiet
    | tellsWaiter here ended => cases quiet
    | keepsWaiter here lives => cases quiet
    | keepsWaiters here =>
        apply attentive.kept
        rw [here]
        exact member
    | _ => exact stays (by rw [‹state.place = _›]; rfl) member

theorem attentive_client
    (attentive : Attentive state) (move : ClientMove state op next) :
    Attentive next := by
  have sameExecutor : next.executor = state.executor :=
    congrArg Driver.executor (sameDriver_client move).driver
  have samePlace :
      keptAt next.place = keptAt state.place ∧
        settling next.place = settling state.place := by
    rcases place_client move with ⟨woken, asleep⟩ | same
    · rw [woken, asleep]
      exact ⟨rfl, rfl⟩
    · rw [same]
      exact ⟨rfl, rfl⟩
  constructor
  · rw [samePlace.1, sameExecutor]
    exact attentive.kept
  · intro quiet waiter member
    rw [samePlace.2] at quiet
    rw [sameExecutor]
    cases move with
    | registers here unlocked lives =>
        rcases List.mem_append.mp member with before | new
        · exact attentive.listed quiet waiter before
        · rw [List.mem_singleton.mp new]
          exact lives
    | _ => exact attentive.listed quiet waiter member

theorem attentive_of_run
    {world : World} {ops : List ThreadOp} {final : Threads}
    (reached : run Threads.step (Threads.init world) ops = some final) :
    Attentive final := by
  have invariant : Sound final ∧ Attentive final :=
    @invariant_of_run Threads ThreadOp Threads.step
      (fun state => Sound state ∧ Attentive state)
      (by
        rintro state op next ⟨sound, attentive⟩ stepped
        have move := move_of_step stepped
        refine ⟨sound_move sound move, ?_⟩
        cases move with
        | driver move => exact attentive_driver sound attentive move
        | client move => exact attentive_client attentive move)
      ops _ final ⟨sound_init world, attentive_init world⟩ reached
  exact invariant.2

end Waiters

/-! ## Returning -/

/-- A call finds no session only after the session has been destroyed. -/
def UnlistedOnly (state : Threads) : Prop :=
  ∀ call pid, state.exits call = .returned pid .noSession →
    state.listed = false

theorem unlistedOnly_init (world : World) :
    UnlistedOnly (Threads.init world) := by
  intro call pid returned
  cases returned

section Returning

variable {state next : Threads} {op : ThreadOp}

theorem unlistedOnly_setExit
    (before : UnlistedOnly state) {call : CallId} {after : ExitCall}
    (unlisted : ∀ pid, after = .returned pid .noSession →
      state.listed = false) :
    UnlistedOnly (state.setExit call after) := by
  intro other pid returned
  by_cases own : other = call
  · subst own
    exact unlisted pid ((Function.update_self _ _ _).symm.trans returned)
  · exact
      before other pid
        ((Function.update_of_ne own _ _).symm.trans returned)

theorem unlistedOnly_move
    (before : UnlistedOnly state) (move : Move state op next) :
    UnlistedOnly next := by
  cases move with
  | driver move =>
      cases move with
      | _ => exact before
  | client move =>
      cases move with
      | unlists => exact fun _ _ _ => rfl
      | asks vpid here listed =>
          exact unlistedOnly_setExit before (by simp)
      | asksNobody vpid here unlisted =>
          exact unlistedOnly_setExit before fun _ _ => unlisted
      | checks here unlocked =>
          refine unlistedOnly_setExit before ?_
          unfold Threads.check
          split <;> simp
      | finds here unlocked ended =>
          exact unlistedOnly_setExit before (by simp)
      | @registers call vpid here unlocked lives =>
          have set : UnlistedOnly (state.setExit call (.polling vpid 0)) :=
            unlistedOnly_setExit before (by simp)
          exact set
      | looks here =>
          refine unlistedOnly_setExit before ?_
          unfold Threads.look
          split
          · simp
          · split <;> simp
      | _ => exact before

theorem unlistedOnly_of_run
    {world : World} {ops : List ThreadOp} {final : Threads}
    (reached : run Threads.step (Threads.init world) ops = some final) :
    UnlistedOnly final :=
  invariant_of_run
    (fun _ _ _ before stepped =>
      unlistedOnly_move before (move_of_step stepped))
    (unlistedOnly_init world) reached

/-- A look brings the answer, or is one of many. -/
theorem look_cases (state : Threads) (call : CallId) (vpid : VPid)
    (looks : Nat) :
    (∃ answer, state.look call vpid looks = .returned vpid answer) ∨
      state.look call vpid looks = .polling vpid (looks + 1) ∧
        looks + 1 < 30000 := by
  unfold Threads.look
  split
  · exact Or.inl ⟨_, rfl⟩
  · split
    · rename_i more
      exact Or.inr ⟨rfl, more⟩
    · exact Or.inl ⟨_, rfl⟩

theorem step_look
    {call : CallId} {vpid : VPid} {looks : Nat}
    (here : state.exits call = .polling vpid looks) :
    state.step (.look call) =
      some (state.setExit call (state.look call vpid looks)) := by
  simp [Threads.step, Threads.exitStep, here]

/-- A call which polls returns by its own steps. -/
theorem returns_by_looking
    (left : Nat) {call : CallId} {vpid : VPid} {looks : Nat}
    (here : state.exits call = .polling vpid looks)
    (bound : 30000 ≤ looks + 1 + left) :
    ∃ count later answer,
      count ≤ left + 1 ∧
      run Threads.step state (List.replicate count (.look call)) =
        some later ∧
      later.exits call = .returned vpid answer := by
  induction left generalizing state looks with
  | zero =>
      rcases look_cases state call vpid looks with
        ⟨answer, returned⟩ | ⟨_, more⟩
      · refine
          ⟨1, _, answer, le_rfl,
            run_cons_iff.mpr ⟨_, step_look here, rfl⟩, ?_⟩
        exact (Function.update_self _ _ _).trans returned
      · omega
  | succ left induction =>
      rcases look_cases state call vpid looks with
        ⟨answer, returned⟩ | ⟨polls, _⟩
      · refine
          ⟨1, _, answer, Nat.le_add_left _ _,
            run_cons_iff.mpr ⟨_, step_look here, rfl⟩, ?_⟩
        exact (Function.update_self _ _ _).trans returned
      · have still :
            (state.setExit call (state.look call vpid looks)).exits call =
              .polling vpid (looks + 1) :=
          (Function.update_self _ _ _).trans polls
        obtain ⟨count, later, answer, few, reached, returned⟩ :=
          induction still (by omega)
        exact
          ⟨count + 1, later, answer, Nat.add_le_add_right few 1,
            run_cons_iff.mpr ⟨_, step_look here, reached⟩, returned⟩

/-- The process is over, and its code is stored. -/
structure Exited (driver : Driver) (pid : VPid) (code : CInt) : Prop where
  ended : Ended driver pid
  stored : driver.executor.exitCodes.lookup pid = some code

theorem exited_move
    {pid : VPid} {code : CInt} (sound : Sound state)
    (few : next.machine.driver.spawned < 4294967296)
    (move : Move state op next)
    (exited : Exited state.machine.driver pid code) :
    Exited next.machine.driver pid code := by
  rcases change_of_move sound move with same | ⟨driverOp, kept, change⟩
  · rw [same]
    exact exited
  · refine ⟨(ended_change change sound.numbered few exited.ended).1, ?_⟩
    rw [exitCode_change change sound.numbered.runs
      fun _ => exited.ended.notRunning, if_neg (kept pid)]
    exact exited.stored

theorem exited_of_run
    {ops : List ThreadOp} {final : Threads} {pid : VPid} {code : CInt}
    (sound : Sound state) (exited : Exited state.machine.driver pid code)
    (reached : run Threads.step state ops = some final)
    (few : final.machine.driver.spawned < 4294967296) :
    Exited final.machine.driver pid code := by
  refine
    @invariant_of_bounded Threads ThreadOp Threads.step Sound _
      (fun state => Exited state.machine.driver pid code) sound_step
      fewer_before ?_ ops state final sound exited reached few
  intro state op next sound stepped few exited
  exact exited_move sound few (move_of_step stepped) exited

/-- The step in which the running process exits. -/
theorem exited_of_exit
    {driverOp : DriverOp} {turn : Turn} {code : CInt}
    (sound : Sound state)
    (stepped : state.step (.coroutine driverOp) = some next)
    (running : state.machine.driver.turn = some turn)
    (exits : exitCode? state.machine.driver driverOp = some code) :
    Exited next.machine.driver turn.pid code := by
  cases move_of_step stepped with
  | client move => cases move
  | driver move =>
      cases move with
      | runs here allowed ran =>
          obtain ⟨ended, stored, _⟩ :=
            ended_of_exit (change_of_machineStep ran) sound.numbered
              running exits
          exact ⟨ended, stored⟩

end Returning

/--
A process exits with a code.  In every later state of the run, each call about
it which has returned was given that code, or has timed out, or was made when
the session was gone; a call which still polls returns after at most 30000
looks.  No call was given a code for a process which is not over, or a code
other than the one which is stored for it.  From the check after a turn to the
next turn no waiter is left for a process which is over.
-/
theorem exit_notified
    (world : World) (before after : List ThreadOp) (op : DriverOp)
    (start final : Threads) (turn : Turn) (code : CInt)
    (reached : run Threads.step (Threads.init world) before = some start)
    (running : start.machine.driver.turn = some turn)
    (exits : exitCode? start.machine.driver op = some code)
    (continues : run Threads.step start (.coroutine op :: after) =
      some final)
    (few : final.machine.driver.spawned < 4294967296) :
    (∀ call answer, final.exits call = .returned turn.pid answer →
        answer = .code code ∨ answer = .timedOut ∨
          answer = .noSession ∧ final.listed = false) ∧
      (∀ call looks, final.exits call = .polling turn.pid looks →
        ∃ count later answer, count ≤ 30000 ∧
          run Threads.step final (List.replicate count (.look call)) =
            some later ∧
          later.exits call = .returned turn.pid answer) ∧
      (∀ call pid value, final.exits call = .returned pid (.code value) →
        Ended final.machine.driver pid ∧
          ∀ other, final.executor.exitCodes.lookup pid = some other →
            other = value) ∧
      (settling final.place = false → ∀ waiter ∈ final.waiters,
        waiter.vpid ≠ turn.pid ∧
          final.executor.getExitCode waiter.vpid = none) := by
  have sound := sound_of_run reached
  obtain ⟨next, stepped, remaining⟩ := run_cons_iff.mp continues
  have exited :=
    exited_of_run (sound_step start _ next sound stepped)
      (exited_of_exit sound stepped running exits) remaining few
  have whole := run_trans reached continues
  have truthful := truthful_of_run whole few
  refine ⟨?_, ?_, ?_, ?_⟩
  · intro call answer returned
    cases answer with
    | code value =>
        have settled := truthful.answered call turn.pid value returned
        rw [settled.stored code exited.stored]
        exact Or.inl rfl
    | timedOut => exact Or.inr (Or.inl rfl)
    | noSession =>
        have unlisted := unlistedOnly_of_run whole call turn.pid returned
        exact Or.inr (Or.inr ⟨rfl, unlisted⟩)
  · intro call looks polls
    exact returns_by_looking 29999 polls (by omega)
  · intro call pid value returned
    have settled := truthful.answered call pid value returned
    exact ⟨settled.ended, settled.stored⟩
  · intro quiet waiter member
    have lives := (attentive_of_run whole).listed quiet waiter member
    refine ⟨?_, lives⟩
    intro same
    rw [same] at lives
    simp [Executor.getExitCode, Threads.executor, exited.stored] at lives

/-- One client registers before the exit, and one asks after the reaping. -/
theorem exit_notified_twice :
    ∃ final,
      run Threads.step (Threads.init (World.init Kernel.standard))
          [.start (3, 4, 5), .createProcess 0 (0, 1, 2),
            .tryLock 0 true, .push 0, .notify 0, .runUntilExit 1 1,
            .check 1, .recheck 1, .enter, .serve true, .answer,
            .stepFromDriver, .coroutine (.exit (.exit 7)), .checkWaiter,
            .checkWaiter, .reap, .collect, .look 1, .runUntilExit 2 1,
            .check 2] =
        some final ∧
      final.exits 1 = .returned 1 (.code 7) ∧
      final.exits 2 = .returned 1 (.code 7) ∧
      ∀ call answer, final.exits call = .returned 1 answer →
        answer = .code 7 ∨ answer = .timedOut ∨
          answer = .noSession ∧ final.listed = false := by
  have completes :
      (run Threads.step (Threads.init (World.init Kernel.standard))
          [.start (3, 4, 5), .createProcess 0 (0, 1, 2),
            .tryLock 0 true, .push 0, .notify 0, .runUntilExit 1 1,
            .check 1, .recheck 1, .enter, .serve true, .answer,
            .stepFromDriver]).any
        (fun start =>
          decide
            (start.machine.driver.turn =
              some { pid := 1, restore := some (3, 4, 5) }) &&
          (run Threads.step start
              [.coroutine (.exit (.exit 7)), .checkWaiter, .checkWaiter,
                .reap, .collect, .look 1, .runUntilExit 2 1,
                .check 2]).any
            fun final =>
              decide
                (final.machine.driver.spawned = 1 ∧
                  final.exits 1 = .returned 1 (.code 7) ∧
                  final.exits 2 = .returned 1 (.code 7))) =
      true := by
    decide
  obtain ⟨start, reached, holds⟩ := Option.any_eq_true _ _ |>.mp completes
  obtain ⟨started, ends⟩ := Bool.and_eq_true_iff.mp holds
  obtain ⟨final, continues, finished⟩ :=
    Option.any_eq_true _ _ |>.mp ends
  obtain ⟨spawned, first, second⟩ := of_decide_eq_true finished
  obtain ⟨answers, _⟩ :=
    exit_notified _ _ _ (.exit (.exit 7)) start final _ 7 reached
      (of_decide_eq_true started) rfl continues (by rw [spawned]; decide)
  exact ⟨final, run_trans reached continues, first, second, answers⟩

/-! ## When the process numbers come round -/

/-- The second process exits with code 7. -/
def secondExits : List ThreadOp :=
  opening ++ iteration [.spawnFront, .exit (.exit 7)]

theorem run_secondExits :
    ∃ state,
      run Threads.step (Threads.init (World.init Kernel.standard))
        secondExits = some state ∧
      Quiet state ∧ Passing (fun _ => none) [] 3 state.machine ∧
      state.listed = true ∧ state.destroying = false ∧
      state.exits 0 = .notMade ∧
      state.executor.exitCodes.lookup 2 = some 7 := by
  have exits :
      (run Threads.step (Threads.init (World.init Kernel.standard))
          secondExits).any
        (fun state =>
          decide
            (state.place = .top ∧ state.shutdown = false ∧
              state.spawnQueue = [] ∧ state.waiters = [] ∧
              state.machine.world.tables.entries = [] ∧
              state.machine.driver.turn = none ∧
              state.executor.readyQueue = [3] ∧
              state.executor.nextPid = 4 ∧
              state.executor.vprocs.entries = [⟨3, Coroutine.new 3⟩] ∧
              state.listed = true ∧ state.destroying = false ∧
              state.exits 0 = .notMade ∧
              state.executor.exitCodes.lookup 2 = some 7)) =
      true := by
    decide
  obtain ⟨state, reached, holds⟩ := Option.any_eq_true _ _ |>.mp exits
  obtain ⟨here, noShutdown, noRequests, noWaiters, noTables, idle, queue,
      next, entries, rest⟩ := of_decide_eq_true holds
  refine
    ⟨state, reached, ⟨here, noShutdown, noRequests, noWaiters⟩,
      ⟨AList.ext noTables, idle, queue, next, ?_⟩, rest⟩
  intro other
  refine Option.ext fun co => ?_
  refine mem_entries_iff.symm.trans ?_
  rw [show state.machine.driver.executor.vprocs.entries = _ from entries]
  by_cases third : other = 3
  · simp [third, eq_comm]
  · simp [third]

/-- A client asks about the second process, whose code is stored. -/
theorem run_ask
    {state : Threads} (quiet : Quiet state) (listed : state.listed = true)
    (free : state.destroying = false) (notMade : state.exits 0 = .notMade)
    {code : CInt} (stored : state.executor.exitCodes.lookup 2 = some code) :
    run Threads.step state [.runUntilExit 0 2, .check 0] =
      some (state.setExit 0 (.returned 2 (.code code))) := by
  have asked :
      state.step (.runUntilExit 0 2) =
        some (state.setExit 0 (.checking 2)) := by
    simp [Threads.step, Threads.exitStep, notMade, listed, free]
  have checked :
      (state.setExit 0 (.checking 2)).step (.check 0) =
        some (state.setExit 0 (.returned 2 (.code code))) := by
    have found : state.machine.driver.executor.getExitCode 2 = some code := by
      rw [Executor.getExitCode,
        show state.machine.driver.executor.exitCodes.lookup 2 = _ from
          stored]
    simp [Threads.step, Threads.exitStep, Threads.setExit,
      Threads.whenUnlocked, Threads.check, Threads.executor,
      Place.holdsLock, quiet.here, found]
  exact run_cons_iff.mpr ⟨_, asked, run_cons_iff.mpr ⟨_, checked, rfl⟩⟩

theorem run_exit
    {state : Threads} {pid : VPid} (here : state.place = .running)
    (turn : state.machine.driver.turn =
      some { pid := pid, restore := none })
    (code : CInt) :
    ∃ final,
      run Threads.step state [.coroutine (.exit (.exit code))] =
        some final ∧
      final.exits = state.exits := by
  have exits :=
    step_coroutine here rfl
      (step_exit state.machine.world turn (.exit code))
  exact ⟨_, run_cons_iff.mpr ⟨_, exits, rfl⟩, rfl⟩

/--
After `2 ^ 32` spawns number 2 is given to another process, and a client which
asks about it is given the code of the first.
-/
theorem exit_misreported_after_wrap :
    ¬ ∀ (world : World) (before after : List ThreadOp) (op : DriverOp)
        (start final : Threads) (turn : Turn) (code : CInt),
      run Threads.step (Threads.init world) before = some start →
      start.machine.driver.turn = some turn →
      exitCode? start.machine.driver op = some code →
      run Threads.step start (.coroutine op :: after) = some final →
      ∀ call answer, final.exits call = .returned turn.pid answer →
        answer = .code code ∨ answer = .timedOut ∨
          answer = .noSession ∧ final.listed = false := by
  intro notified
  obtain ⟨state, starts, quiet, passing, listed, free, notMade, seven⟩ :=
    run_secondExits
  obtain ⟨round, machine, goes, second, sameCode⟩ :=
    run_round (fun _ _ => rfl) (fun _ _ found => nomatch found) quiet
      passing
  rw [seven] at sameCode
  have againQuiet : Quiet { state with machine := machine } :=
    ⟨quiet.here, quiet.noShutdown, quiet.noRequests, quiet.noWaiters⟩
  have asks := run_ask againQuiet listed free notMade sameCode
  have askedQuiet :
      Quiet
        (Threads.setExit { state with machine := machine } 0
          (.returned 2 (.code 7))) :=
    ⟨quiet.here, quiet.noShutdown, quiet.noRequests, quiet.noWaiters⟩
  obtain ⟨begun, begins, running, _⟩ := step_begin second state.savedFds
  have busy : begun.turn ≠ none := by
    rw [running.turn]
    exact fun impossible => nomatch impossible
  have enters := run_enter askedQuiet begins busy
  have reached := run_trans starts (run_trans goes (run_trans asks enters))
  obtain ⟨start, starts, here, turn, asked⟩ :
      ∃ start,
        run Threads.step (Threads.init (World.init Kernel.standard)) _ =
          some start ∧
        start.place = .running ∧
        start.machine.driver.turn = some { pid := 2, restore := none } ∧
        start.exits 0 = .returned 2 (.code 7) :=
    ⟨_, reached, rfl, running.turn, by simp [Threads.setExit]⟩
  obtain ⟨final, exits, sameExits⟩ := run_exit here turn 9
  have wrong :=
    notified _ _ [] _ start final _ 9 starts turn rfl exits 0 _
      ((congrFun sameExits 0).trans asked)
  simp at wrong

end Vproc.Ffi.ExitNotification
