import Vproc.Ffi.SessionIsolation
import Vproc.Fd.HandedFds
import Vproc.Sched.Lineage
import Vproc.Sched.SwapBrackets

/-!
# Standard descriptors across a switch

While a process does not run, its standard descriptors stand in its table with
the kernel numbers behind them, and the driver has its own descriptors at 0, 1
and 2.  What a descriptor leads to when the process is resumed is what it led
to when the process yielded, as long as these kernel numbers keep their files.

A number from 3 on keeps its file unless somebody closes or redirects it.  One
of 0, 1 and 2 has the file of the driver's copy after every bracket, and
`dup2` onto a standard descriptor records this very number; so a process loses
what it has put there as soon as it yields.

`parked` has no counterpart in the source.  It lists the open standard
descriptors of the processes which have yielded and not been resumed yet.
-/

namespace Vproc.Ffi.StdDescriptors

open Vproc.Lib.Run
open Vproc.Lib.FiniteMap
open Vproc.Fd.Table
open Vproc.Fd.KernelTable
open Vproc.Fd.Runtime
open Vproc.Fd.Runtime.World
open Vproc.Fd.Effects
open Vproc.Fd.HandedFds
open Vproc.Fd.DescriptorIsolation
open Vproc.Sched.Scheduler
open Vproc.Sched.DriverLoop
open Vproc.Sched.DriverSteps
open Vproc.Sched.ExitDurability
open Vproc.Sched.Lineage
open Vproc.Sched.SwapBrackets
open Vproc.Ffi.SessionIsolation

/-! ## Runs of a session -/

/-- A standard descriptor which was open when its process yielded. -/
structure Parked where
  pid : VPid
  slot : Nat
  target : Target
deriving DecidableEq, Repr

/-- A session, and the open standard descriptors of suspended processes. -/
structure Switching where
  machine : Machine
  parked : List Parked

/-- The open standard descriptors of a process. -/
def openSlots (world : World) (pid : VPid) : List Parked :=
  (List.range 3).filterMap fun slot =>
    (leadsTo world pid (.entry slot)).map fun target =>
      { pid, slot, target }

/-- The running coroutine yields. -/
def yields : DriverOp → Bool
  | .doYield => true
  | .yieldForIo _ _ _ => true
  | _ => false

/-- The calls between yields are the Rust interceptors. -/
def isCovered : DriverOp → Bool
  | .sys call => isInterceptor call
  | _ => true

namespace Switching

/-- A session in which nobody has yielded. -/
def init (world : World) : Switching where
  machine := Machine.init world
  parked := []

/-- Forget what was noted for a process. -/
def drop (state : Switching) (pid : VPid) : List Parked :=
  state.parked.filter fun parked => parked.pid ≠ pid

/-- What is parked after a step. -/
def parkedAfter (state : Switching) (op : DriverOp) (next : Machine) :
    List Parked :=
  if spawns state.machine.driver op then
    state.drop state.machine.driver.executor.nextPid
  else
    match state.machine.driver.turn, next.driver.turn with
    | none, some turn => state.drop turn.pid
    | some turn, none =>
        if yields op then
          state.parked ++ openSlots state.machine.world turn.pid
        else state.parked
    | _, _ => state.parked

/-- One step of the session. -/
def step (state : Switching) (op : DriverOp) : Option Switching :=
  if isCovered op then
    (state.machine.step op).map fun next =>
      { machine := next, parked := state.parkedAfter op next }
  else none

end Switching

/-! ## The condition -/

/-- One of the numbers 0, 1 and 2. -/
def IsStd (fd : CInt) : Prop :=
  0 ≤ fd ∧ fd < 3

instance (fd : CInt) : Decidable (IsStd fd) :=
  inferInstanceAs (Decidable (_ ∧ _))

/-- The driver has a copy of what stands at a number now. -/
def Copied (world : World) (saved : StdFds) (fd : CInt) : Prop :=
  3 ≤ slotFd saved fd.toNat ∧
    world.kernel.files (slotFd saved fd.toNat) = world.kernel.files fd

instance (world : World) (saved : StdFds) (fd : CInt) :
    Decidable (Copied world saved fd) :=
  inferInstanceAs (Decidable (_ ∧ _))

/-- The descriptor with this number is the kernel's one with this number. -/
def PassesThrough (world : World) (pid : VPid) (fd : CInt) : Prop :=
  backing world pid (.entry fd.toNat) = some fd

instance (world : World) (pid : VPid) (fd : CInt) :
    Decidable (PassesThrough world pid fd) :=
  inferInstanceAs (Decidable (_ = _))

/-- Where the file of a number is, while the driver may have swapped it. -/
def heldAt (driver : Driver) (fd : CInt) : CInt :=
  match driver.turn.bind Turn.restore with
  | some saved => if IsStd fd then slotFd saved fd.toNat else fd
  | none => fd

/-- The kernel numbers which an exec closes. -/
def execCloses (world : World) (driver : Driver) : List CInt :=
  match execHeir world driver.executor.current driver.executor.nextPid with
  | some table => table.closeCloexec.2.map FileRef.realFd
  | none => []

/-- The kernel numbers which reaping closes. -/
def reapCloses : World → List VPid → List CInt
  | _, [] => []
  | world, pid :: rest =>
      (world.removeTableAndGetFds pid).2.map Prod.fst ++
        reapCloses (world.reapTable pid) rest

/--
A step leaves the file of a kernel number alone, or where the driver has a
copy of it.
-/
def Spared (machine : Machine) (fd : CInt) : DriverOp → Prop
  | .stepFromDriverWithFdSwap saved =>
      ∀ pid ∈ machine.driver.executor.pickNext.2,
        (Driver.getRealFds machine.world pid).isSome = true →
          IsStd fd → Copied machine.world saved fd
  | .sys call =>
      ∀ turn ∈ machine.driver.turn,
        ∀ redirected ∈ redirects machine.world turn.pid call,
          redirected.1 = heldAt machine.driver fd →
            redirected.2 = machine.world.kernel.files redirected.1
  | .virtualExecve =>
      heldAt machine.driver fd ∉ execCloses machine.world machine.driver
  | .createProcess _ _ _ =>
      heldAt machine.driver fd ∉ execCloses machine.world machine.driver
  | .reapDoneCoroutines =>
      fd ∉ reapCloses machine.world machine.driver.executor.donePids
  | _ => True

instance (machine : Machine) (fd : CInt) (op : DriverOp) :
    Decidable (Spared machine fd op) :=
  match op with
  | .stepFromDriverWithFdSwap _ =>
      inferInstanceAs
        (Decidable (∀ pid ∈ machine.driver.executor.pickNext.2, _))
  | .sys _ =>
      inferInstanceAs (Decidable (∀ turn ∈ machine.driver.turn, _))
  | .virtualExecve => inferInstanceAs (Decidable (_ ∉ _))
  | .createProcess _ _ _ => inferInstanceAs (Decidable (_ ∉ _))
  | .reapDoneCoroutines => inferInstanceAs (Decidable (_ ∉ _))
  | .spawn => inferInstanceAs (Decidable True)
  | .spawnFront => inferInstanceAs (Decidable True)
  | .spawnElf => inferInstanceAs (Decidable True)
  | .spawnForkChild _ => inferInstanceAs (Decidable True)
  | .stepFromDriver => inferInstanceAs (Decidable True)
  | .doYield => inferInstanceAs (Decidable True)
  | .yieldForIo _ _ _ => inferInstanceAs (Decidable True)
  | .exit _ => inferInstanceAs (Decidable True)
  | .raise _ => inferInstanceAs (Decidable True)
  | .entryReturned => inferInstanceAs (Decidable True)
  | .kill _ _ => inferInstanceAs (Decidable True)
  | .removeExitCode _ => inferInstanceAs (Decidable True)
  | .collectIoWaits => inferInstanceAs (Decidable True)
  | .wakeIoReady _ _ => inferInstanceAs (Decidable True)

/-- All kernel numbers behind parked descriptors satisfy this. -/
def AllBehind (world : World) (parked : List Parked)
    (holds : Parked → CInt → Prop) : Prop :=
  ∀ entry ∈ parked, ∀ fd ∈ backing world entry.pid (.entry entry.slot),
    holds entry fd

instance (world : World) (parked : List Parked)
    (holds : Parked → CInt → Prop)
    [∀ entry fd, Decidable (holds entry fd)] :
    Decidable (AllBehind world parked holds) :=
  inferInstanceAs
    (Decidable
      (∀ entry ∈ parked,
        ∀ fd ∈ backing world entry.pid (.entry entry.slot), _))

/--
The running process has at the kernel's 0, 1 and 2, as far as its standard
descriptors are there, what the driver puts back.
-/
def YieldsInOrder (machine : Machine) : Prop :=
  ∀ turn ∈ machine.driver.turn,
    AllBehind machine.world (openSlots machine.world turn.pid) fun _ fd =>
      IsStd fd →
        PassesThrough machine.world turn.pid fd ∧
          ∀ saved ∈ turn.restore, Copied machine.world saved fd

instance (machine : Machine) : Decidable (YieldsInOrder machine) :=
  inferInstanceAs (Decidable (∀ turn ∈ machine.driver.turn, _))

/--
A process yields in order, and no step disturbs a kernel number behind the
parked descriptors of a process which it does not resume.
-/
def Undisturbed (state : Switching) (op : DriverOp) : Prop :=
  (yields op = true → YieldsInOrder state.machine) ∧
    AllBehind state.machine.world state.parked fun entry fd =>
      picks state.machine.driver op entry.pid = false →
        Spared state.machine fd op

instance (state : Switching) (op : DriverOp) :
    Decidable (Undisturbed state op) :=
  inferInstanceAs (Decidable (_ ∧ _))

/-- A resumed process finds its standard descriptors as it has left them. -/
def Survives (state : Switching) (next : Switching) : Prop :=
  state.machine.driver.turn = none →
    ∀ turn ∈ next.machine.driver.turn,
      ∀ entry ∈ state.parked, entry.pid = turn.pid →
        leadsTo next.machine.world turn.pid (.entry entry.slot) =
          some entry.target

instance (state next : Switching) : Decidable (Survives state next) :=
  inferInstanceAs
    (Decidable
      (_ → ∀ turn ∈ next.machine.driver.turn, ∀ entry ∈ state.parked, _))

/-! ## What the steps do to kernel numbers -/

section Kernel

variable {world : World}

theorem files_rawDup3_world
    {oldFd newFd : CInt}
    (succeeds : ¬ (world.rawDup3 oldFd newFd).2 < 0) :
    (∀ number, number ≠ newFd →
        (world.rawDup3 oldFd newFd).1.kernel.files number =
          world.kernel.files number) ∧
      (0 ≤ oldFd →
        (world.rawDup3 oldFd newFd).1.kernel.files newFd =
          world.kernel.files oldFd) := by
  have same := rawDup3_eq world oldFd newFd
  rw [if_neg succeeds] at same
  exact files_rawDup3 same

theorem std_cases {fd : CInt} (isStd : IsStd fd) :
    fd = 0 ∨ fd = 1 ∨ fd = 2 := by
  obtain ⟨nonneg, below⟩ := isStd
  have fromInt : ∀ number : Int, 0 ≤ number → number < 3 →
      number = 0 ∨ number = 1 ∨ number = 2 := by
    omega
  exact fromInt fd nonneg below

/-- The kernel numbers after the three calls of a swap. -/
theorem files_installFds
    {fds : StdFds} {next : World}
    (installed : Driver.installFds world fds = some next) :
    (∀ number, ¬ IsStd number →
        next.kernel.files number = world.kernel.files number) ∧
      ∀ number, IsStd number →
        (slotFd fds number.toNat = number →
            next.kernel.files number = world.kernel.files number) ∧
          (3 ≤ slotFd fds number.toNat →
            next.kernel.files number =
              world.kernel.files (slotFd fds number.toNat)) := by
  unfold Driver.installFds at installed
  dsimp only at installed
  split at installed
  · cases installed
  · rename_i succeeds
    rw [not_or, not_or] at succeeds
    obtain ⟨first, second, third⟩ := succeeds
    obtain ⟨keepsZero, setsZero⟩ := files_rawDup3_world first
    obtain ⟨keepsOne, setsOne⟩ := files_rawDup3_world second
    obtain ⟨keepsTwo, setsTwo⟩ := files_rawDup3_world third
    cases installed
    have apart {fd : CInt} (fromThree : 3 ≤ fd) :
        fd ≠ 0 ∧ fd ≠ 1 ∧ 0 ≤ fd := by
      refine ⟨?_, ?_, le_trans (by decide) fromThree⟩
      · rintro rfl
        exact absurd fromThree (by decide)
      · rintro rfl
        exact absurd fromThree (by decide)
    constructor
    · intro number notStd
      have notZero : number ≠ 0 := by
        rintro rfl
        exact notStd (by decide)
      have notOne : number ≠ 1 := by
        rintro rfl
        exact notStd (by decide)
      have notTwo : number ≠ 2 := by
        rintro rfl
        exact notStd (by decide)
      rw [keepsTwo number notTwo, keepsOne number notOne,
        keepsZero number notZero]
    · intro number isStd
      rcases std_cases isStd with rfl | rfl | rfl
      · rw [keepsTwo 0 (by decide), keepsOne 0 (by decide)]
        constructor
        · intro same
          rw [setsZero (le_of_eq same.symm)]
          exact congrArg world.kernel.files same
        · intro fromThree
          exact setsZero (apart fromThree).2.2
      · rw [keepsTwo 1 (by decide)]
        constructor
        · intro same
          rw [setsOne (le_trans (by decide) (le_of_eq same.symm))]
          exact (congrArg _ same).trans (keepsZero 1 (by decide))
        · intro fromThree
          obtain ⟨notZero, _, nonneg⟩ := apart fromThree
          rw [setsOne nonneg]
          exact keepsZero _ notZero
      · constructor
        · intro same
          rw [setsTwo (le_trans (by decide) (le_of_eq same.symm))]
          refine (congrArg _ same).trans ?_
          rw [keepsOne 2 (by decide), keepsZero 2 (by decide)]
        · intro fromThree
          obtain ⟨notZero, notOne, nonneg⟩ := apart fromThree
          rw [setsTwo nonneg]
          exact (keepsOne _ notOne).trans (keepsZero _ notZero)

theorem files_realCloseAll
    {fds : List (CInt × Origin)} {number : CInt}
    (spared : number ∉ fds.map Prod.fst) :
    (world.realCloseAll fds).kernel.files number =
      world.kernel.files number := by
  induction fds generalizing world with
  | nil => rfl
  | cons first rest induction =>
      rw [List.map_cons, List.mem_cons, not_or] at spared
      refine (@induction (world.realClose first.1 first.2).1 spared.2).trans ?_
      exact (Kernel.files_close _ _ _).trans (if_neg spared.1)

theorem files_closeCloexecOf
    {pid : VPid} {number : CInt}
    (spared : ∀ table, world.getTable pid = some table →
      number ∉ table.closeCloexec.2.map FileRef.realFd) :
    (world.closeCloexecOf pid).kernel.files number =
      world.kernel.files number := by
  unfold closeCloexecOf
  split
  · rename_i table isTable
    refine files_realCloseAll ?_
    simpa [ownedFds] using spared table isTable
  · rfl

theorem files_execTable
    {parent : Option VPid} {child : VPid} {number : CInt}
    (spared : ∀ table, execHeir world parent child = some table →
      number ∉ table.closeCloexec.2.map FileRef.realFd) :
    (world.execTable parent child).kernel.files number =
      world.kernel.files number := by
  unfold execTable
  cases parent with
  | none => exact files_closeCloexecOf spared
  | some caller =>
      refine files_closeCloexecOf ?_
      intro table isTable
      refine spared table ?_
      rw [← isTable]
      unfold execHeir forkFdTable
      rw [getTable_congr (replaceTable_tables world child _),
        getTable_setTable, if_pos rfl]

theorem files_reapTables
    {pids : List VPid} {number : CInt}
    (spared : number ∉ reapCloses world pids) :
    (pids.foldl reapTable world).kernel.files number =
      world.kernel.files number := by
  induction pids generalizing world with
  | nil => rfl
  | cons pid rest induction =>
      rw [reapCloses, List.mem_append, not_or] at spared
      refine (induction spared.2).trans ?_
      refine (files_realCloseAll spared.1).trans ?_
      unfold removeTableAndGetFds
      split
      · rfl
      · unfold removeTable
        split
        · rfl
        · rfl

end Kernel

/-! ## The file of a number, through the turns -/

/-- In a swapped turn the driver's copy of a number is not swapped itself. -/
def Safe (driver : Driver) (fd : CInt) : Prop :=
  ∀ saved, driver.turn.bind Turn.restore = some saved →
    IsStd fd → 3 ≤ slotFd saved fd.toNat

section Turns

variable {world : World} {driver : Driver} {fd : CInt}

theorem heldAt_of_idle
    (idle : driver.turn = none) : heldAt driver fd = fd := by
  simp only [heldAt, idle, Option.bind_none]

theorem not_isStd_of_fromThree (fromThree : 3 ≤ fd) : ¬ IsStd fd :=
  fun isStd => not_lt.mpr fromThree isStd.2

/-- The end of a turn puts the file back. -/
theorem held_endTurn
    {ex : Executor} {dead : Bool} {next : World × Driver}
    (ended : Driver.endTurn world driver ex dead = some next)
    (safe : Safe driver fd) :
    next.2.turn = none ∧
      next.1.kernel.files fd =
        world.kernel.files (heldAt driver fd) := by
  obtain ⟨turn, isTurn, restored⟩ := Option.bind_eq_some_iff.mp ended
  obtain ⟨left, installed, rfl⟩ := Option.map_eq_some_iff.mp restored
  refine ⟨rfl, ?_⟩
  unfold Safe at safe
  unfold heldAt
  rw [isTurn] at safe ⊢
  simp only [Option.bind_some] at safe ⊢
  cases restore : turn.restore with
  | none =>
      rw [restore] at installed
      cases installed
      rfl
  | some saved =>
      rw [restore] at installed
      obtain ⟨others, stds⟩ := files_installFds installed
      dsimp only
      split
      · rename_i isStd
        exact (stds fd isStd).2 (safe saved restore isStd)
      · rename_i notStd
        exact others fd notStd

/-- The beginning of a turn leaves it where the driver has its copy. -/
theorem held_beginTurn
    {saved : Option StdFds} {next : World × Driver}
    (begun : Driver.beginTurn world driver saved = some next)
    (idle : driver.turn = none)
    (copied : ∀ pid ∈ driver.executor.pickNext.2, ∀ fds ∈ saved,
      (Driver.getRealFds world pid).isSome = true →
        IsStd fd → Copied world fds fd) :
    Safe next.2 fd ∧
      next.1.kernel.files (heldAt next.2 fd) = world.kernel.files fd := by
  unfold Driver.beginTurn at begun
  split at begun
  · cases begun
    refine ⟨?_, ?_⟩
    · intro fds isSaved
      simp [Driver.withExecutor, idle] at isSaved
    · rw [heldAt_of_idle]
      exact idle
  · rename_i ex pid chosen
    obtain ⟨swapped, installed, entered⟩ :=
      Option.bind_eq_some_iff.mp begun
    obtain ⟨resumed, _, rfl⟩ := Option.map_eq_some_iff.mp entered
    cases saved with
    | none =>
        cases installed
        exact ⟨by rintro fds ⟨⟩, rfl⟩
    | some fds =>
        cases real : Driver.getRealFds world pid with
        | none =>
            simp only [Option.bind_some, real] at installed ⊢
            cases installed
            exact ⟨by rintro fds ⟨⟩, rfl⟩
        | some realFds =>
            simp only [Option.bind_some, real] at installed ⊢
            obtain ⟨others, _⟩ := files_installFds installed
            have copies : IsStd fd → Copied world fds fd :=
              copied pid (by rw [chosen]; rfl) fds rfl (by rw [real]; rfl)
            constructor
            · intro restore isRestore isStd
              cases isRestore
              exact (copies isStd).1
            · simp only [heldAt, Option.bind_some]
              split
              · rename_i isStd
                obtain ⟨fromThree, same⟩ := copies isStd
                rw [others _ (not_isStd_of_fromThree fromThree), same]
              · rename_i notStd
                exact others fd notStd

/-- The file of a number is where it can be found again. -/
structure Reachable (file : OpenFile) (fd : CInt) (machine : Machine) :
    Prop where
  safe : Safe machine.driver fd
  used : machine.world.kernel.files (heldAt machine.driver fd) = some file

section Steps

variable {machine : Machine} {file : OpenFile}

theorem reachable_of_same
    {next : Machine} (before : Reachable file fd machine)
    (sameTurn : next.driver.turn = machine.driver.turn)
    (sameFile : next.world.kernel.files (heldAt machine.driver fd) =
      machine.world.kernel.files (heldAt machine.driver fd)) :
    Reachable file fd next := by
  constructor
  · unfold Safe
    rw [sameTurn]
    exact before.safe
  · have sameHeld : heldAt next.driver fd = heldAt machine.driver fd := by
      unfold heldAt
      rw [sameTurn]
    rw [sameHeld, sameFile, before.used]

theorem reachable_endTurn
    {start : Driver} {ex : Executor} {dead : Bool} {next : World × Driver}
    (before : Reachable file fd machine)
    (ended : Driver.endTurn machine.world start ex dead = some next)
    (sameTurn : start.turn = machine.driver.turn) :
    Reachable file fd { world := next.1, driver := next.2 } := by
  have started : Reachable file fd
      { world := machine.world, driver := start } :=
    reachable_of_same before sameTurn rfl
  obtain ⟨idle, same⟩ := held_endTurn ended started.safe
  constructor
  · intro saved isSaved
    dsimp only at isSaved
    rw [idle] at isSaved
    cases isSaved
  · dsimp only
    rw [heldAt_of_idle idle, same, started.used]

theorem reachable_beginTurn
    {saved : Option StdFds} {next : World × Driver}
    (before : Reachable file fd machine)
    (begun : machine.driver.whenIdle
      (Driver.beginTurn machine.world machine.driver saved) = some next)
    (copied : ∀ pid ∈ machine.driver.executor.pickNext.2, ∀ fds ∈ saved,
      (Driver.getRealFds machine.world pid).isSome = true →
        IsStd fd → Copied machine.world fds fd) :
    Reachable file fd { world := next.1, driver := next.2 } := by
  obtain ⟨isIdle, begins⟩ := whenIdle_eq_some_iff.mp begun
  have idle := Option.isNone_iff_eq_none.mp isIdle
  obtain ⟨safe, same⟩ := held_beginTurn begins idle copied
  have used := before.used
  rw [heldAt_of_idle idle] at used
  exact ⟨safe, same.trans used⟩

theorem reachable_sys
    {call : SysCall} {next : World × Driver}
    (before : Reachable file fd machine)
    (interceptor : isInterceptor call = true)
    (spared : Spared machine fd (.sys call))
    (stepped : Driver.step machine.world machine.driver (.sys call) =
      some next) :
    Reachable file fd { world := next.1, driver := next.2 } := by
  obtain ⟨turn, running, called⟩ := Option.bind_eq_some_iff.mp stepped
  obtain ⟨after, isAfter, rfl⟩ := Option.map_eq_some_iff.mp called
  obtain ⟨_, rfl⟩ := step_eq_some_iff.mp isAfter
  refine reachable_of_same before rfl ?_
  rw [before.used]
  refine files_kept interceptor before.used ?_
  rintro number left isRedirected rfl
  exact (spared turn running (_, left) isRedirected rfl).trans before.used

theorem reachable_forkStep
    {parent : VPid} {next : World × Driver}
    (before : Reachable file fd machine)
    (stepped : Driver.forkStep machine.world machine.driver parent =
      some next) :
    Reachable file fd { world := next.1, driver := next.2 } := by
  unfold Driver.forkStep at stepped
  split at stepped
  · cases stepped
    exact reachable_of_same before rfl rfl
  · obtain ⟨turn, _, rest⟩ := Option.bind_eq_some_iff.mp stepped
    split at rest
    · split at rest
      · exact reachable_endTurn before rest rfl
      · cases rest
    · cases rest

/-- An exec which spares a number keeps its file. -/
theorem files_execStep
    {number : CInt}
    (spared : number ∉ execCloses machine.world machine.driver) :
    (Driver.execStep machine.world machine.driver).1.kernel.files number =
      machine.world.kernel.files number := by
  refine files_execTable ?_
  intro table isHeir
  unfold execCloses at spared
  have heir : execHeir machine.world machine.driver.executor.current
      machine.driver.executor.nextPid = some table :=
    isHeir
  rw [heir] at spared
  exact spared

/-- A step which spares a number leaves its file in reach. -/
theorem reachable_step
    {next : Machine} {op : DriverOp}
    (moved : machine.step op = some next) (covered : isCovered op = true)
    (spared : Spared machine fd op) (before : Reachable file fd machine) :
    Reachable file fd next := by
  obtain ⟨result, stepped, rfl⟩ := Option.map_eq_some_iff.mp moved
  cases op with
  | spawn =>
      cases stepped
      exact reachable_of_same before rfl rfl
  | spawnFront =>
      cases stepped
      exact reachable_of_same before rfl rfl
  | spawnElf =>
      cases stepped
      exact reachable_of_same before rfl rfl
  | spawnForkChild parent => exact reachable_forkStep before stepped
  | virtualExecve =>
      cases stepped
      exact reachable_of_same before rfl (files_execStep spared)
  | createProcess stdin stdout stderr =>
      obtain ⟨_, same⟩ := whenIdle_eq_some_iff.mp stepped
      cases same
      exact reachable_of_same before rfl (files_execStep spared)
  | stepFromDriver => exact reachable_beginTurn before stepped nofun
  | stepFromDriverWithFdSwap saved =>
      refine reachable_beginTurn before stepped ?_
      intro pid isNext fds isSaved
      cases isSaved
      exact spared pid isNext
  | doYield => exact reachable_endTurn before stepped rfl
  | yieldForIo fds timeoutMs now => exact reachable_endTurn before stepped rfl
  | exit cause => exact reachable_endTurn before stepped rfl
  | raise sig =>
      obtain ⟨turn, _, raised⟩ := Option.bind_eq_some_iff.mp stepped
      unfold Driver.raiseStep at raised
      split at raised
      · exact reachable_endTurn before raised rfl
      · cases raised
        exact reachable_of_same before rfl rfl
  | entryReturned => exact reachable_endTurn before stepped rfl
  | sys call => exact reachable_sys before covered spared stepped
  | kill target sig =>
      cases stepped
      exact reachable_of_same before rfl rfl
  | removeExitCode target =>
      cases stepped
      exact reachable_of_same before rfl rfl
  | collectIoWaits =>
      obtain ⟨_, same⟩ := whenIdle_eq_some_iff.mp stepped
      cases same
      exact reachable_of_same before rfl rfl
  | wakeIoReady revents now =>
      obtain ⟨_, same⟩ := whenIdle_eq_some_iff.mp stepped
      cases same
      exact reachable_of_same before rfl rfl
  | reapDoneCoroutines =>
      obtain ⟨isIdle, same⟩ := whenIdle_eq_some_iff.mp stepped
      cases same
      refine reachable_of_same before rfl (files_reapTables ?_)
      rw [heldAt_of_idle (Option.isNone_iff_eq_none.mp isIdle)]
      exact spared

end Steps

end Turns

/-! ## Parked descriptors -/

/-- What an entry of a suspended process leads to when it is resumed. -/
def Leads (machine : Machine) (pid : VPid) (vfd : Vfd)
    (target : Target) : Prop :=
  match vfd.kernelFd with
  | none => target = .pipe vfd
  | some fd =>
      ∃ file, target = .file file ∧ Reachable file fd machine ∧
        (IsStd fd → PassesThrough machine.world pid fd)

/-- A parked descriptor of a live process which does not run. -/
structure Rests (machine : Machine) (entry : Parked) : Prop where
  notRunning : NotRunning machine.driver entry.pid
  lives : Lives machine.driver.executor entry.pid
  stored : ∃ vfd,
    machine.world.entry entry.pid entry.slot = some vfd ∧
      Leads machine entry.pid vfd entry.target

section Parking

variable {machine next : Machine} {op : DriverOp}

theorem backing_congr
    {first second : World} {pid : VPid} {slot : Nat}
    (same : second.getTable pid = first.getTable pid) :
    backing second pid (.entry slot) = backing first pid (.entry slot) := by
  unfold backing World.entry
  rw [same]

/-- What an entry leads to stays in reach if the step spares its number. -/
theorem leads_step
    {pid : VPid} {vfd : Vfd} {target : Target}
    (moved : machine.step op = some next) (covered : isCovered op = true)
    (sameTable : next.world.getTable pid = machine.world.getTable pid)
    (spared : ∀ fd, vfd.kernelFd = some fd → Spared machine fd op)
    (leads : Leads machine pid vfd target) :
    Leads next pid vfd target := by
  unfold Leads at leads ⊢
  cases isKernel : vfd.kernelFd with
  | none =>
      simp only [isKernel] at leads ⊢
      exact leads
  | some fd =>
      simp only [isKernel] at leads ⊢
      obtain ⟨file, isFile, reachable, passes⟩ := leads
      have after :=
        reachable_step moved covered (spared fd isKernel) reachable
      refine ⟨file, isFile, after, ?_⟩
      exact fun isStd => (backing_congr sameTable).trans (passes isStd)

/-- A parked descriptor stays one. -/
theorem rests_step
    {entry : Parked} (rests : Rests machine entry)
    (moved : machine.step op = some next) (covered : isCovered op = true)
    (runs : TurnRuns machine.driver)
    (notSpawned : spawns machine.driver op = true →
      entry.pid ≠ machine.driver.executor.nextPid)
    (notPicked : picks machine.driver op entry.pid = false)
    (spared : ∀ fd ∈ backing machine.world entry.pid (.entry entry.slot),
      Spared machine fd op) :
    Rests next entry := by
  have change := change_of_machineStep moved
  have sameTable :=
    getTable_kept moved rests.notRunning rests.lives notSpawned
  obtain ⟨vfd, stored, leads⟩ := rests.stored
  refine ⟨(resumes_change change notPicked).1 rests.notRunning, ?_, vfd, ?_, ?_⟩
  · refine lives_change change runs ?_ rests.lives
    intro turn isTurn same
    exact (rests.notRunning turn isTurn same).elim
  · rw [World.entry, sameTable]
    exact stored
  · refine leads_step moved covered sameTable ?_ leads
    intro fd isKernel
    refine spared fd ?_
    rw [Option.mem_def, backing, stored, Option.bind_some, isKernel]

theorem mem_openSlots
    {world : World} {pid : VPid} {entry : Parked}
    (member : entry ∈ openSlots world pid) :
    entry.pid = pid ∧
      leadsTo world pid (.entry entry.slot) = some entry.target := by
  obtain ⟨slot, _, found⟩ := List.mem_filterMap.mp member
  obtain ⟨target, leads, rfl⟩ := Option.map_eq_some_iff.mp found
  exact ⟨rfl, leads⟩

/-- Where the files of a process are which yields in order. -/
theorem leads_of_yieldsInOrder
    {turn : Turn} {entry : Parked} {vfd : Vfd}
    (isTurn : machine.driver.turn = some turn)
    (inOrder : YieldsInOrder machine)
    (member : entry ∈ openSlots machine.world turn.pid)
    (stored : machine.world.entry turn.pid entry.slot = some vfd) :
    Leads machine turn.pid vfd entry.target := by
  obtain ⟨isPid, leads⟩ := mem_openSlots member
  simp only [leadsTo, stored, Option.bind_some, resolve] at leads
  unfold Leads
  cases isKernel : vfd.kernelFd with
  | none =>
      simp only [isKernel] at leads ⊢
      exact (Option.some.inj leads).symm
  | some fd =>
      simp only [isKernel] at leads ⊢
      obtain ⟨file, used, isFile⟩ := Option.map_eq_some_iff.mp leads
      have isBehind :
          fd ∈ backing machine.world entry.pid (.entry entry.slot) := by
        rw [Option.mem_def, isPid, backing, stored, Option.bind_some,
          isKernel]
      have inPlace := inOrder turn isTurn entry member fd isBehind
      refine ⟨file, isFile.symm, ⟨?_, ?_⟩, fun isStd => (inPlace isStd).1⟩
      · intro saved isSaved isStd
        rw [isTurn, Option.bind_some] at isSaved
        exact ((inPlace isStd).2 saved isSaved).1
      · unfold heldAt
        rw [isTurn, Option.bind_some]
        cases restore : turn.restore with
        | none => exact used
        | some saved =>
            dsimp only
            split
            · rename_i isStd
              rw [((inPlace isStd).2 saved restore).2, used]
            · exact used

/-- The open descriptors of a process which yields are parked. -/
theorem rests_of_yields
    {turn : Turn} {entry : Parked}
    (moved : machine.step op = some next) (covered : isCovered op = true)
    (isYield : yields op = true)
    (isTurn : machine.driver.turn = some turn)
    (ended : next.driver.turn = none)
    (runs : TurnRuns machine.driver) (live : RunsLive machine.driver)
    (inOrder : YieldsInOrder machine)
    (member : entry ∈ openSlots machine.world turn.pid) :
    Rests next entry := by
  obtain ⟨isPid, leads⟩ := mem_openSlots member
  obtain ⟨vfd, stored, _⟩ := Option.bind_eq_some_iff.mp leads
  have change := change_of_machineStep moved
  have goesOn : exitCode? machine.driver op = none ∧
      op ≠ .entryReturned := by
    cases op with
    | doYield => exact ⟨rfl, nofun⟩
    | yieldForIo fds timeoutMs now => exact ⟨rfl, nofun⟩
    | _ => cases isYield
  have spared (fd : CInt) : Spared machine fd op := by
    cases op with
    | doYield => exact True.intro
    | yieldForIo fds timeoutMs now => exact True.intro
    | _ => cases isYield
  have sameTable :
      next.world.getTable turn.pid = machine.world.getTable turn.pid := by
    obtain ⟨result, stepped, rfl⟩ := Option.map_eq_some_iff.mp moved
    refine getTable_driverStep ?_ stepped
    cases op with
    | doYield => rfl
    | yieldForIo fds timeoutMs now => rfl
    | _ => cases isYield
  have before := leads_of_yieldsInOrder isTurn inOrder member stored
  rw [← isPid] at sameTable stored before
  refine ⟨?_, ?_, vfd, ?_, ?_⟩
  · intro later isLater
    rw [ended] at isLater
    cases isLater
  · rw [isPid]
    exact lives_change change runs (fun _ _ _ => goesOn) (live turn isTurn)
  · rw [World.entry, sameTable]
    exact stored
  · exact leads_step moved covered sameTable (fun fd _ => spared fd) before

/-! ## Resuming -/

theorem slotFd_of_getRealFds
    {world : World} {pid : VPid} {fds : StdFds} {slot : Nat} {fd : CInt}
    (real : Driver.getRealFds world pid = some fds)
    (inRange : slot < 3)
    (isBehind : backing world pid (.entry slot) = some fd) :
    slotFd fds slot = fd := by
  obtain ⟨table, isTable, isReal⟩ := Option.bind_eq_some_iff.mp real
  have behind : (table.get slot).bind Vfd.kernelFd = some fd := by
    rw [backing, entry_of_getTable isTable] at isBehind
    exact isBehind
  simp only [VfdTable.getRealFds012, Option.bind_eq_bind,
    Option.bind_eq_some_iff] at isReal
  obtain ⟨vfd0, found0, fd0, isFd0, vfd1, found1, fd1, isFd1, vfd2, found2,
    fd2, isFd2, same⟩ := isReal
  cases same
  rcases slot with _ | _ | _ | slot
  · rw [found0, Option.bind_some, isFd0] at behind
    exact Option.some.inj behind
  · rw [found1, Option.bind_some, isFd1] at behind
    exact Option.some.inj behind
  · rw [found2, Option.bind_some, isFd2] at behind
    exact Option.some.inj behind
  · omega

/-- A process is resumed with the files at the numbers behind its entries. -/
theorem files_beginTurn
    {world : World} {driver : Driver} {saved : Option StdFds}
    {result : World × Driver} {turn : Turn} {fd : CInt}
    (begun : Driver.beginTurn world driver saved = some result)
    (isTurn : result.2.turn = some turn)
    (passes : IsStd fd → PassesThrough world turn.pid fd) :
    result.1.kernel.files fd = world.kernel.files fd := by
  unfold Driver.beginTurn at begun
  split at begun
  · cases begun
    rfl
  · obtain ⟨swapped, installed, entered⟩ :=
      Option.bind_eq_some_iff.mp begun
    obtain ⟨resumed, _, rfl⟩ := Option.map_eq_some_iff.mp entered
    cases isTurn
    cases saved with
    | none =>
        cases installed
        rfl
    | some copies =>
        simp only [Option.bind_some] at installed passes
        cases real : Driver.getRealFds world _ with
        | none =>
            rw [real] at installed
            cases installed
            rfl
        | some fds =>
            rw [real] at installed
            obtain ⟨others, stds⟩ := files_installFds installed
            by_cases isStd : IsStd fd
            · refine (stds fd isStd).1 ?_
              refine slotFd_of_getRealFds real ?_ (passes isStd)
              rcases std_cases isStd with rfl | rfl | rfl <;> decide
            · exact others fd isStd

theorem leadsTo_of_rests
    {entry : Parked} {turn : Turn} (rests : Rests machine entry)
    (moved : machine.step op = some next)
    (idle : machine.driver.turn = none)
    (isTurn : next.driver.turn = some turn)
    (isPid : entry.pid = turn.pid) :
    leadsTo next.world turn.pid (.entry entry.slot) =
      some entry.target := by
  obtain ⟨result, stepped, rfl⟩ := Option.map_eq_some_iff.mp moved
  have begun : ∃ saved,
      Driver.beginTurn machine.world machine.driver saved =
        some result := by
    rcases turn_cases (change_of_machineStep moved) isTurn with
      same | ⟨_, begins, _, _⟩
    · rw [idle] at same
      cases same
    · cases op with
      | stepFromDriver =>
          exact ⟨none, (whenIdle_eq_some_iff.mp stepped).2⟩
      | stepFromDriverWithFdSwap saved =>
          exact ⟨some saved, (whenIdle_eq_some_iff.mp stepped).2⟩
      | _ => cases begins
  obtain ⟨saved, begins⟩ := begun
  obtain ⟨vfd, stored, leads⟩ := rests.stored
  rw [isPid] at stored leads
  have found : result.1.entry turn.pid entry.slot = some vfd := by
    rw [World.entry, getTable_beginTurn begins]
    exact stored
  simp only [leadsTo, found, Option.bind_some, resolve]
  unfold Leads at leads
  cases isKernel : vfd.kernelFd with
  | none =>
      simp only [isKernel] at leads ⊢
      rw [leads]
  | some fd =>
      simp only [isKernel] at leads ⊢
      obtain ⟨file, isFile, reachable, passes⟩ := leads
      have used := reachable.used
      rw [heldAt_of_idle idle] at used
      rw [files_beginTurn begins isTurn passes, used, isFile]
      rfl

end Parking

/-! ## Runs -/

/-- All parked descriptors can be found again. -/
structure Kept (state : Switching) : Prop where
  runs : TurnRuns state.machine.driver
  live : RunsLive state.machine.driver
  rests : ∀ entry ∈ state.parked, Rests state.machine entry

section Runs

variable {state next : Switching} {op : DriverOp}

theorem mem_drop
    {pid : VPid} {entry : Parked} (member : entry ∈ state.drop pid) :
    entry ∈ state.parked ∧ entry.pid ≠ pid := by
  obtain ⟨isParked, different⟩ := List.mem_filter.mp member
  exact ⟨isParked, of_decide_eq_true different⟩

/-- What is parked after a step was parked before, or is parked by it. -/
theorem mem_parkedAfter
    {machine : Machine} {entry : Parked}
    (change : Change state.machine.driver op machine.driver)
    (member : entry ∈ state.parkedAfter op machine) :
    entry ∈ state.parked ∧
        (spawns state.machine.driver op = true →
          entry.pid ≠ state.machine.driver.executor.nextPid) ∧
        (∀ turn, state.machine.driver.turn = none →
          machine.driver.turn = some turn → turn.pid ≠ entry.pid) ∨
      ∃ turn, state.machine.driver.turn = some turn ∧
        machine.driver.turn = none ∧ yields op = true ∧
        entry ∈ openSlots state.machine.world turn.pid := by
  unfold Switching.parkedAfter at member
  split at member
  · rename_i spawned
    obtain ⟨isParked, different⟩ := mem_drop member
    refine Or.inl ⟨isParked, fun _ => different, ?_⟩
    intro turn idle isTurn
    rcases turn_cases change isTurn with same | ⟨notSpawned, _, _, _⟩
    · rw [idle] at same
      cases same
    · rw [spawned] at notSpawned
      cases notSpawned
  · rename_i notSpawned
    split at member
    · rename_i later idle isLater
      obtain ⟨isParked, different⟩ := mem_drop member
      refine Or.inl ⟨isParked, fun spawned => (notSpawned spawned).elim, ?_⟩
      intro turn _ isTurn
      rw [isLater] at isTurn
      cases isTurn
      exact different.symm
    · rename_i turn isTurn ended
      split at member
      · rename_i isYield
        rcases List.mem_append.mp member with isParked | new
        · refine
            Or.inl ⟨isParked, fun spawned => (notSpawned spawned).elim, ?_⟩
          intro later idle
          rw [isTurn] at idle
          cases idle
        · exact Or.inr ⟨turn, isTurn, ended, isYield, new⟩
      · refine Or.inl ⟨member, fun spawned => (notSpawned spawned).elim, ?_⟩
        intro later idle
        rw [isTurn] at idle
        cases idle
    · rename_i notResumed _
      refine Or.inl ⟨member, fun spawned => (notSpawned spawned).elim, ?_⟩
      intro later idle isLater
      exact (notResumed later idle isLater).elim

theorem kept_step
    (kept : Kept state) (stepped : state.step op = some next)
    (undisturbed : Undisturbed state op) :
    Kept next := by
  simp only [Switching.step] at stepped
  split at stepped
  · rename_i covered
    obtain ⟨machine, moved, rfl⟩ := Option.map_eq_some_iff.mp stepped
    have change := change_of_machineStep moved
    refine
      ⟨turnRuns_change change kept.runs, runsLive_change change kept.live,
        ?_⟩
    intro entry member
    rcases mem_parkedAfter change member with
      ⟨isParked, notSpawned, notResumed⟩ | ⟨turn, isTurn, ended, isYield, new⟩
    · have rests := kept.rests entry isParked
      have notPicked :
          picks state.machine.driver op entry.pid = false := by
        rw [Bool.eq_false_iff]
        intro picked
        obtain ⟨turn, isTurn, same⟩ := running_of_picks change picked
        rcases turn_cases change isTurn with before | ⟨_, _, idle, _⟩
        · exact rests.notRunning turn before same
        · exact notResumed turn idle isTurn same
      refine
        rests_step rests moved covered kept.runs notSpawned notPicked ?_
      exact fun fd isBehind =>
        undisturbed.2 entry isParked fd isBehind notPicked
    · exact
        rests_of_yields moved covered isYield isTurn ended kept.runs
          kept.live (undisturbed.1 isYield) new
  · cases stepped

theorem survives_step
    (kept : Kept state) (stepped : state.step op = some next) :
    Survives state next := by
  simp only [Switching.step] at stepped
  split at stepped
  · obtain ⟨machine, moved, rfl⟩ := Option.map_eq_some_iff.mp stepped
    intro idle turn isTurn entry isParked isPid
    exact
      leadsTo_of_rests (kept.rests entry isParked) moved idle isTurn isPid
  · cases stepped

end Runs

/--
In every run whose steps do not disturb the kernel numbers behind parked
descriptors, a process finds its standard descriptors at every resume as it
has left them at its last yield.
-/
theorem std_descriptors_survive
    (world : World) (ops : List DriverOp)
    (undisturbed : Along Switching.step
      (fun state op _ => Undisturbed state op) (Switching.init world) ops) :
    Along Switching.step (fun state _ next => Survives state next)
      (Switching.init world) ops := by
  have fresh : Kept (Switching.init world) :=
    { runs := nofun
      live := runsLive_new
      rests := nofun }
  exact
    along_mono
      (fun _ _ _ kept stepped undisturbed =>
        kept_step kept stepped undisturbed)
      (fun _ _ _ kept stepped _ => survives_step kept stepped)
      fresh undisturbed

/-- Twenty files, and the driver's copies of the first three. -/
def savedAtTwenty : Kernel where
  files := fun fd =>
    if 0 ≤ fd ∧ fd < 20 then some fd.toNat
    else if 20 ≤ fd ∧ fd < 23 then some (fd.toNat - 20)
    else none
  nextFile := 20
  openMax := 1024

/-- Open, duplicate, replace and close around a descriptor from 3 on. -/
theorem std_descriptors_survive_two :
    Along Switching.step (fun state _ next => Survives state next)
      (Switching.init (World.init savedAtTwenty))
      [.createProcess 5 6 7, .createProcess 8 9 10,
        .stepFromDriverWithFdSwap (20, 21, 22), .sys (.openPath 0 23),
        .sys (.dup 1 24), .sys (.dup2 3 16), .sys (.close 3), .doYield,
        .stepFromDriverWithFdSwap (20, 21, 22), .sys (.close 2), .doYield,
        .stepFromDriverWithFdSwap (20, 21, 22), .doYield,
        .stepFromDriverWithFdSwap (20, 21, 22)] :=
  std_descriptors_survive (World.init savedAtTwenty) _ (by decide)

/-- A process redirects its standard input and yields. -/
theorem redirected_stdin_lost :
    ¬ ∀ (world : World) (ops : List DriverOp),
      Along Switching.step (fun state _ next => Survives state next)
        (Switching.init world) ops := by
  intro always
  have holds :=
    always (World.init savedAtTwenty)
      [.createProcess 5 6 7, .stepFromDriverWithFdSwap (20, 21, 22),
        .sys (.dup2 1 0), .doYield,
        .stepFromDriverWithFdSwap (20, 21, 22)]
  revert holds
  decide

end Vproc.Ffi.StdDescriptors
