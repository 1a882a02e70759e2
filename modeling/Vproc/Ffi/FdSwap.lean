import Vproc.Ffi.StdDescriptors

/-!
# One descriptor swap

`step_from_driver_with_fd_swap` installs the three descriptors of a process at
0, 1 and 2 with three calls of `raw_dup3`, one after the other.  A later call
reads the kernel table which the earlier ones have left: a source 0 or 1 may
have been overwritten.  The swap is the parallel assignment if and only if
every source which is read late still has the file it had.

The undo copies from numbers which the swap does not write, the driver's own.
It is exact for every turn which leaves these alone.
-/

namespace Vproc.Ffi.FdSwap

open Vproc.Lib.Run
open Vproc.Fd.Table
open Vproc.Fd.KernelTable
open Vproc.Fd.Runtime
open Vproc.Sched.Scheduler
open Vproc.Sched.DriverLoop
open Vproc.Sched.DriverSteps
open Vproc.Sched.SwapBrackets
open Vproc.Ffi.StdDescriptors

/-- A number of the kernel table which is open. -/
def IsOpen (kernel : Kernel) (fd : CInt) : Prop :=
  0 ≤ fd ∧ (kernel.files fd).isSome = true

/--
Every source is read as it was before the swap: the first call writes 0 before
the second and the third read, the second writes 1 before the third reads.
-/
def ReadsUnwritten (kernel : Kernel) (fds : StdFds) : Prop :=
  (slotFd fds 1 = 0 →
      kernel.files (slotFd fds 0) = kernel.files 0) ∧
    (slotFd fds 2 = 0 →
      kernel.files (slotFd fds 0) = kernel.files 0) ∧
    (slotFd fds 2 = 1 →
      kernel.files
          (if slotFd fds 1 = 0 then slotFd fds 0 else slotFd fds 1) =
        kernel.files 1)

/-- A swapped turn and its undo, from the state in which it begins. -/
structure SwapsAndUndoes (before resumed : Machine) (saved fds : StdFds) :
    Prop where
  swapped :
    ∀ slot : Nat, slot < 3 →
      resumed.world.kernel.files slot =
        before.world.kernel.files (slotFd fds slot)
  undone :
    ∀ ops middle op final,
      Along Machine.step (fun _ _ next => next.driver.turn ≠ none)
        resumed ops →
      run Machine.step resumed ops = some middle →
      (∀ slot : Nat, slot < 3 →
        middle.world.kernel.files (slotFd saved slot) =
          resumed.world.kernel.files (slotFd saved slot)) →
      middle.step op = some final → final.driver.turn = none →
        ∀ slot : Nat, slot < 3 →
          final.world.kernel.files slot =
            before.world.kernel.files (slotFd saved slot)

/-! ## The three calls -/

theorem slot_cases {slot : Nat} (below : slot < 3) :
    slot = 0 ∨ slot = 1 ∨ slot = 2 := by
  omega

theorem isStd_slot {slot : Nat} (below : slot < 3) :
    IsStd (slot : CInt) := by
  rcases slot_cases below with rfl | rfl | rfl <;> decide

/-- What stands at 0, 1 and 2 after the three calls. -/
theorem files_installed
    {world next : World} {fds : StdFds}
    (installed : Driver.installFds world fds = some next)
    (nonneg : ∀ slot < 3, 0 ≤ slotFd fds slot) :
    next.kernel.files 0 = world.kernel.files (slotFd fds 0) ∧
      next.kernel.files 1 =
        world.kernel.files
          (if slotFd fds 1 = 0 then slotFd fds 0 else slotFd fds 1) ∧
      next.kernel.files 2 =
        world.kernel.files
          (if slotFd fds 2 = 1 then
            (if slotFd fds 1 = 0 then slotFd fds 0 else slotFd fds 1)
          else if slotFd fds 2 = 0 then slotFd fds 0
          else slotFd fds 2) := by
  unfold Driver.installFds at installed
  dsimp only at installed
  split at installed
  · cases installed
  · rename_i succeeds
    rw [not_or, not_or] at succeeds
    obtain ⟨first, second, third⟩ := succeeds
    obtain ⟨keepsZero, setsZero⟩ := files_rawDup3_world first
    obtain ⟨keepsOne, setsOne⟩ := files_rawDup3_world second
    obtain ⟨keepsTwo, setsTwo⟩ := files_rawDup3_world third
    cases installed
    have afterFirst (fd : CInt) :
        (world.rawDup3 fds.1 0).1.kernel.files fd =
          world.kernel.files (if fd = 0 then fds.1 else fd) := by
      by_cases same : fd = 0
      · rw [if_pos same, same]
        exact setsZero (nonneg 0 (by decide))
      · rw [if_neg same]
        exact keepsZero fd same
    have atOne := setsOne (nonneg 1 (by decide))
    have atTwo := setsTwo (nonneg 2 (by decide))
    rw [afterFirst] at atOne
    refine ⟨?_, ?_, ?_⟩
    · rw [keepsTwo 0 (by decide), keepsOne 0 (by decide), afterFirst,
        if_pos rfl]
      rfl
    · rw [keepsTwo 1 (by decide), atOne]
      rfl
    · rw [atTwo]
      by_cases fromOne : slotFd fds 2 = 1
      · have same : fds.2.2 = 1 := fromOne
        rw [if_pos fromOne, same, atOne]
        rfl
      · rw [if_neg fromOne]
        exact (keepsOne _ fromOne).trans (afterFirst _)

/-- The three calls are a parallel assignment, if no source is overwritten. -/
theorem parallel_iff
    {world next : World} {fds : StdFds}
    (installed : Driver.installFds world fds = some next)
    (nonneg : ∀ slot < 3, 0 ≤ slotFd fds slot) :
    (∀ slot : Nat, slot < 3 →
        next.kernel.files slot = world.kernel.files (slotFd fds slot)) ↔
      ReadsUnwritten world.kernel fds := by
  obtain ⟨atZero, atOne, atTwo⟩ := files_installed installed nonneg
  have three :
      (∀ slot : Nat, slot < 3 →
        next.kernel.files slot = world.kernel.files (slotFd fds slot)) ↔
      next.kernel.files 0 = world.kernel.files (slotFd fds 0) ∧
        next.kernel.files 1 = world.kernel.files (slotFd fds 1) ∧
        next.kernel.files 2 = world.kernel.files (slotFd fds 2) := by
    constructor
    · intro every
      exact
        ⟨every 0 (by decide), every 1 (by decide), every 2 (by decide)⟩
    · rintro ⟨zero, one, two⟩ slot below
      rcases slot_cases below with rfl | rfl | rfl
      · exact zero
      · exact one
      · exact two
  rw [three, atZero, atOne, atTwo]
  unfold ReadsUnwritten
  by_cases oneFromZero : slotFd fds 1 = 0
  · by_cases twoFromOne : slotFd fds 2 = 1
    · simp [oneFromZero, twoFromOne]
    · by_cases twoFromZero : slotFd fds 2 = 0
      · simp [oneFromZero, twoFromZero]
      · simp [oneFromZero, twoFromOne, twoFromZero]
  · by_cases twoFromOne : slotFd fds 2 = 1
    · simp [oneFromZero, twoFromOne]
    · by_cases twoFromZero : slotFd fds 2 = 0
      · simp [oneFromZero, twoFromZero]
      · simp [oneFromZero, twoFromOne, twoFromZero]

/-! ## The turn -/

section Turn

variable {before resumed : Machine} {saved fds : StdFds} {turn : Turn}

/-- A swapped turn begins with the three calls. -/
theorem installed_of_swap
    (stepped :
      before.step (.stepFromDriverWithFdSwap saved) = some resumed)
    (isTurn : resumed.driver.turn = some turn)
    (real : Driver.getRealFds before.world turn.pid = some fds) :
    Driver.installFds before.world fds = some resumed.world ∧
      turn.restore = some saved := by
  obtain ⟨result, moved, rfl⟩ := Option.map_eq_some_iff.mp stepped
  obtain ⟨idle, begun⟩ := whenIdle_eq_some_iff.mp moved
  unfold Driver.beginTurn at begun
  split at begun
  · cases begun
    simp only [Driver.withExecutor] at isTurn
    rw [isTurn] at idle
    cases idle
  · obtain ⟨swapped, installed, entered⟩ :=
      Option.bind_eq_some_iff.mp begun
    obtain ⟨_, _, rfl⟩ := Option.map_eq_some_iff.mp entered
    cases isTurn
    simp only [Option.bind_some, real] at installed ⊢
    exact ⟨installed, trivial⟩

/-- Within a turn, a step ends the turn or leaves it as it is. -/
theorem ends_or_continues
    {machine next : Machine} {op : DriverOp} {turn : Turn}
    (isTurn : machine.driver.turn = some turn)
    (moved : machine.step op = some next) :
    next.driver.turn = some turn ∨
      ∃ driver ex dead,
        driver.turn = some turn ∧
          Driver.endTurn machine.world driver ex dead =
            some (next.world, next.driver) := by
  obtain ⟨result, stepped, rfl⟩ := Option.map_eq_some_iff.mp moved
  have busy {outcome : Option (World × Driver)}
      (idle : machine.driver.whenIdle outcome = some result) : False := by
    have isNone := (whenIdle_eq_some_iff.mp idle).1
    rw [isTurn] at isNone
    cases isNone
  have ends {ex : Executor} {dead : Bool}
      (ended : Driver.endTurn machine.world machine.driver ex dead =
        some result) :
      ∃ driver ex dead,
        driver.turn = some turn ∧
          Driver.endTurn machine.world driver ex dead =
            some (result.1, result.2) :=
    ⟨machine.driver, ex, dead, isTurn, ended⟩
  cases op with
  | spawn =>
      cases stepped
      exact Or.inl isTurn
  | spawnFront =>
      cases stepped
      exact Or.inl isTurn
  | spawnElf =>
      cases stepped
      exact Or.inl isTurn
  | spawnForkChild parent =>
      simp only [Driver.step, Driver.forkStep] at stepped
      split at stepped
      · cases stepped
        exact Or.inl isTurn
      · obtain ⟨_, _, forked⟩ := Option.bind_eq_some_iff.mp stepped
        split at forked
        · split at forked
          · exact
              Or.inr
                ⟨machine.driver.withSpawned machine.driver.executor, _, _,
                  isTurn, forked⟩
          · cases forked
        · cases forked
  | virtualExecve =>
      cases stepped
      exact Or.inl isTurn
  | createProcess stdin stdout stderr => exact (busy stepped).elim
  | stepFromDriver => exact (busy stepped).elim
  | stepFromDriverWithFdSwap saved => exact (busy stepped).elim
  | doYield => exact Or.inr (ends stepped)
  | yieldForIo fds timeoutMs now => exact Or.inr (ends stepped)
  | exit cause => exact Or.inr (ends stepped)
  | raise sig =>
      obtain ⟨_, _, raised⟩ := Option.bind_eq_some_iff.mp stepped
      unfold Driver.raiseStep at raised
      split at raised
      · exact Or.inr (ends raised)
      · cases raised
        exact Or.inl isTurn
  | entryReturned => exact Or.inr (ends stepped)
  | sys call =>
      obtain ⟨_, _, called⟩ := Option.bind_eq_some_iff.mp stepped
      obtain ⟨_, _, rfl⟩ := Option.map_eq_some_iff.mp called
      exact Or.inl isTurn
  | kill target sig =>
      cases stepped
      exact Or.inl isTurn
  | removeExitCode target =>
      cases stepped
      exact Or.inl isTurn
  | collectIoWaits => exact (busy stepped).elim
  | wakeIoReady revents now => exact (busy stepped).elim
  | reapDoneCoroutines => exact (busy stepped).elim

/-- The turn is the same one in every state of it. -/
theorem same_turn
    {ops : List DriverOp} {machine middle : Machine}
    (isTurn : machine.driver.turn = some turn)
    (within : Along Machine.step (fun _ _ next => next.driver.turn ≠ none)
      machine ops)
    (reached : run Machine.step machine ops = some middle) :
    middle.driver.turn = some turn := by
  have kept (state : Machine) (op : DriverOp) (next : Machine)
      (isTurn : state.driver.turn = some turn)
      (moved : state.step op = some next)
      (goesOn : next.driver.turn ≠ none) :
      next.driver.turn = some turn := by
    rcases ends_or_continues isTurn moved with
      continues | ⟨driver, ex, dead, _, ended⟩
    · exact continues
    · obtain ⟨_, _, restored⟩ := Option.bind_eq_some_iff.mp ended
      obtain ⟨_, _, same⟩ := Option.map_eq_some_iff.mp restored
      have isOver : next.driver.turn = none :=
        (congrArg (fun result => result.2.turn) same).symm
      exact (goesOn isOver).elim
  exact
    @invariant_of_along _ _ _ _
      (fun state : Machine => state.driver.turn = some turn) kept _ _ _
      isTurn within reached

/-- Numbers from 3 on are the same after the three calls. -/
theorem files_saved_installed
    {world next : World} {fds saved : StdFds} {slot : Nat}
    (installed : Driver.installFds world fds = some next)
    (fromThree : 3 ≤ slotFd saved slot) :
    next.kernel.files (slotFd saved slot) =
      world.kernel.files (slotFd saved slot) :=
  (files_installFds installed).1 _ (not_isStd_of_fromThree fromThree)

/-- The end of a swapped turn puts the driver's files back. -/
theorem files_of_ended
    {machine final : Machine} {op : DriverOp}
    (isTurn : machine.driver.turn = some turn)
    (restores : turn.restore = some saved)
    (moved : machine.step op = some final)
    (isOver : final.driver.turn = none)
    (copies : ∀ slot < 3, 3 ≤ slotFd saved slot)
    {slot : Nat} (below : slot < 3) :
    final.world.kernel.files slot =
      machine.world.kernel.files (slotFd saved slot) := by
  rcases ends_or_continues isTurn moved with
    continues | ⟨driver, ex, dead, sameTurn, ended⟩
  · rw [isOver] at continues
    cases continues
  · have isRestore : driver.turn.bind Turn.restore = some saved := by
      rw [sameTurn]
      exact restores
    have safe : Safe driver (slot : CInt) := by
      intro other isOther _
      rw [isRestore] at isOther
      cases isOther
      exact copies slot below
    have held := (held_endTurn ended safe).2
    simp only [heldAt, isRestore, isStd_slot below, if_true] at held
    exact held

/--
A swapped turn shows the process its three files and gives the driver its own
back, if and only if no source of the swap is overwritten before it is read.
-/
theorem fd_swap_parallel_iff
    (stepped :
      before.step (.stepFromDriverWithFdSwap saved) = some resumed)
    (isTurn : resumed.driver.turn = some turn)
    (real : Driver.getRealFds before.world turn.pid = some fds)
    (opened : ∀ slot < 3, IsOpen before.world.kernel (slotFd fds slot))
    (copies : ∀ slot < 3,
      3 ≤ slotFd saved slot ∧
        IsOpen before.world.kernel (slotFd saved slot)) :
    SwapsAndUndoes before resumed saved fds ↔
      ReadsUnwritten before.world.kernel fds := by
  obtain ⟨installed, restores⟩ := installed_of_swap stepped isTurn real
  have parallel :=
    parallel_iff installed fun slot below => (opened slot below).1
  have fromThree (slot : Nat) (below : slot < 3) :
      3 ≤ slotFd saved slot :=
    (copies slot below).1
  constructor
  · intro both
    exact parallel.mp both.swapped
  · intro condition
    refine ⟨parallel.mpr condition, ?_⟩
    intro ops middle op final within reached alone moved isOver slot below
    have sameTurn := same_turn isTurn within reached
    calc
      final.world.kernel.files slot =
          middle.world.kernel.files (slotFd saved slot) :=
        files_of_ended sameTurn restores moved isOver fromThree below
      _ = resumed.world.kernel.files (slotFd saved slot) :=
        alone slot below
      _ = before.world.kernel.files (slotFd saved slot) :=
        files_saved_installed installed (fromThree slot below)

end Turn

/-- The step which resumes a process of a session with copies at 20. -/
def swap : DriverOp :=
  .stepFromDriverWithFdSwap (20, 21, 22)

/-- A session whose only process was created with three of the host's files. -/
def created (stdin stdout stderr : CInt) : Machine :=
  (run Machine.step (Machine.init (World.init savedAtTwenty))
    [.createProcess stdin stdout stderr]).get rfl

/-- The state in which the process runs. -/
def resumed (stdin stdout stderr : CInt)
    (runs : ((created stdin stdout stderr).step swap).isSome = true) :
    Machine :=
  ((created stdin stdout stderr).step swap).get runs

instance (kernel : Kernel) (fd : CInt) : Decidable (IsOpen kernel fd) :=
  inferInstanceAs (Decidable (_ ∧ _))

/-- Standard error for 0 and 2: read before it is written, and last. -/
theorem fd_swap_parallel_iff_stderr :
    SwapsAndUndoes (created 2 5 2) (resumed 2 5 2 (by decide))
        (20, 21, 22) (2, 5, 2) ↔
      ReadsUnwritten (created 2 5 2).world.kernel (2, 5, 2) := by
  have isTurn :
      (resumed 2 5 2 (by decide)).driver.turn =
        some { pid := 1, restore := some (20, 21, 22) } := by
    decide
  exact
    fd_swap_parallel_iff (Option.some_get _).symm isTurn (by decide)
      (by decide) (by decide)

/-- With standard input and output exchanged, both become the output. -/
theorem exchanged_fds_lost :
    ¬ ∀ (before resumed : Machine) (saved fds : StdFds) (turn : Turn),
      before.step (.stepFromDriverWithFdSwap saved) = some resumed →
      resumed.driver.turn = some turn →
      Driver.getRealFds before.world turn.pid = some fds →
      (∀ slot < 3, IsOpen before.world.kernel (slotFd fds slot)) →
      (∀ slot < 3,
        3 ≤ slotFd saved slot ∧
          IsOpen before.world.kernel (slotFd saved slot)) →
      SwapsAndUndoes before resumed saved fds := by
  intro always
  have both :=
    always (created 1 0 2) (resumed 1 0 2 (by decide)) (20, 21, 22)
      (1, 0, 2) { pid := 1, restore := some (20, 21, 22) }
      (Option.some_get _).symm (by decide) (by decide) (by decide)
      (by decide)
  have atOne := both.swapped 1 (by decide)
  revert atOne
  decide

end Vproc.Ffi.FdSwap
