import Vproc.Exec.CoroutineMemory
import Vproc.Sched.Processes

/-!
# The memory of programs

A program is started with memory of its own: the strings of its arguments, its
image if it is static, a stack, the user data of its coroutine and the
coroutine itself.  The pointers to all this are raw; it is freed when the
coroutine is dropped, which is when the process is reaped, or when another
coroutine is entered under its number.  What a start has allocated before it
fails is in nobody's hands.

A forked child has a stack of its own, but it goes on in the image and with the
strings of its parent, which are freed with the parent's coroutine.
-/

namespace Vproc.Exec.ProgramMemory

open Vproc.Lib.FiniteMap
open Vproc.Lib.Run
open Vproc.Lib.Custody
open Vproc.Fd.Table (CInt)
open Vproc.Fd.KernelTable (Kernel)
open Vproc.Fd.Runtime
open Vproc.Sched.Scheduler
open Vproc.Sched.DriverLoop
open Vproc.Sched.DriverSteps
open Vproc.Sched.Processes
open Vproc.Exec.LoadPie (AddressRange)
open Vproc.Exec.CoroutineMemory

/-! ## Starting programs -/

/--
A session and its memory.  `lost` and `programs` have no counterpart in the
source: what failed starts have left, and the program of each process.
-/
structure State where
  machine : Machine
  memory : Memory
  lost : List Allocation
  programs : KeyMap VPid Program

/--
Where the user data of a new coroutine is, and the coroutine itself; and the
two boxes, if it has a closure to run.
-/
structure CoRanges where
  userData : AddressRange
  co : AddressRange
  inner : Option AddressRange
  outer : AddressRange
deriving DecidableEq, Repr

/--
What a start is given, and whether it fails before its stack is made.  A static
start which fails may have reserved the slot of its image by then.
-/
structure StartRequest where
  image : AddressRange
  strings : List AddressRange
  fails : Bool
  reserves : Bool
  stack : Memory.StackAnswer
  coRanges : CoRanges
deriving DecidableEq, Repr

/-- The program of a new coroutine: its own, or that of its parent. -/
def newProgram (state : State) (op : DriverOp) (owned : Owned) : Program :=
  match op with
  | .spawnForkChild parent =>
      (state.programs.lookup parent).getD owned.program
  | _ => owned.program

/-- The closure of a new coroutine: only `Coroutine::new` is given one. -/
def newClosure (memory : Memory) (op : DriverOp) (coRanges : CoRanges) :
    Memory × Option ClosureBoxes :=
  match op with
  | .spawn | .spawnFront =>
      let boxed := memory.boxClosure coRanges.inner coRanges.outer
      (boxed.1, some boxed.2)
  | _ => (memory, none)

/-- What is on the stack of a new coroutine: nothing, or a copy. -/
def newFrame (memory : Memory) : DriverOp → Option ClosureBoxes
  | .spawnForkChild parent => memory.frames parent
  | _ => none

/-- A coroutine is spawned, and what it is to free is registered. -/
def spawnWith (state : State) (op : DriverOp) (coRanges : CoRanges)
    (cStrings mappedRegions : List Allocation)
    (stackAlloc : Option Allocation) : Option State :=
  (state.machine.step op).bind fun machine =>
    let pid := state.machine.driver.executor.nextPid
    let closure := newClosure state.memory op coRanges
    let userData := closure.1.allocate coRanges.userData
    let co := userData.1.allocate coRanges.co
    let owned :=
      { cStrings, mappedRegions, stackAlloc
        closure := closure.2
        userData := userData.2
        co := co.2 }
    (co.1.enter pid owned (newFrame state.memory op)).map fun memory =>
      { state with
        machine := machine
        memory := memory
        programs := state.programs.insert pid (newProgram state op owned) }

/-- An early return: what has been allocated is not freed. -/
def fail (state : State) (memory : Memory) (lost : List Allocation) :
    State :=
  { state with memory := memory, lost := lost ++ state.lost }

/--
`virtual_execve_static`.  If `load_pie` fails after it has reserved the slot of
the image, the slot stays mapped.
-/
def virtualExecveStatic (pageSize : Nat) (state : State)
    (request : StartRequest) : Option State :=
  let image := state.memory.allocate request.image
  if request.fails then
    if request.reserves then some (fail state image.1 [image.2])
    else some state
  else
    let strings := image.1.buildCStrings request.strings
    (strings.1.allocElfStack pageSize request.stack).bind fun stack =>
      match stack.2 with
      | none => some (fail state stack.1 (strings.2 ++ [image.2]))
      | some stackAlloc =>
          spawnWith { state with memory := stack.1 } .spawnElf
            request.coRanges strings.2 [image.2] (some stackAlloc)

/-- `virtual_execve_via_entry`, on behalf of an operation. -/
def virtualExecveViaEntry (pageSize : Nat) (state : State) (op : DriverOp)
    (request : StartRequest) : Option State :=
  let strings := state.memory.buildCStrings request.strings
  if request.fails then some (fail state strings.1 strings.2)
  else
    (strings.1.allocElfStack pageSize request.stack).bind fun stack =>
      match stack.2 with
      | none => some (fail state stack.1 strings.2)
      | some stackAlloc =>
          spawnWith { state with memory := stack.1 } op request.coRanges
            strings.2 [] (some stackAlloc)

/-- `virtual_execve_dynamic`, which fails before it allocates anything. -/
def virtualExecveDynamic (state : State) (request : StartRequest) :
    Option State :=
  if request.fails then some state
  else
    let strings := state.memory.buildCStrings request.strings
    spawnWith { state with memory := strings.1 } .spawn request.coRanges
      strings.2 [] none

/-- The steps of a driver, and the functions which start programs. -/
inductive MemoryOp where
  | drive (op : DriverOp) (coRanges : CoRanges)
  | executeStatic (request : StartRequest)
  | executeViaEntry (request : StartRequest)
  | createProcess (stdin stdout stderr : CInt)
      (request : StartRequest)
  | executeDynamic (request : StartRequest)

/-- Does the operation of the driver start a program? -/
def startsProgram : DriverOp → Bool
  | .spawnElf => true
  | .virtualExecve => true
  | .createProcess _ _ _ => true
  | _ => false

/-- Does the closure of the running process return or panic? -/
def leavesClosure : DriverOp → Bool
  | .exit .returned => true
  | .exit .panicked => true
  -- a fork which spawns nothing is a panic, as the parent is missing
  | .spawnForkChild _ => true
  | _ => false

/-- What a step which spawns nothing does to the memory. -/
def memoryAfter (state : State) (op : DriverOp) (machine : Machine) :
    Option Memory :=
  if op = .reapDoneCoroutines then
    state.memory.reap state.machine.driver.executor.donePids
  else if leavesClosure op then
    match state.machine.driver.turn with
    | none => some state.memory
    | some turn => state.memory.leaveClosure turn.pid
  else
    match state.machine.driver.turn, machine.driver.turn with
    | none, some turn => some (state.memory.takeClosure turn.pid)
    | _, _ => some state.memory

/-- A step of the driver which starts no program. -/
def driveStep (state : State) (op : DriverOp) (coRanges : CoRanges) :
    Option State :=
  if spawns state.machine.driver op then
    spawnWith state op coRanges [] [] none
  else
    (state.machine.step op).bind fun machine =>
      (memoryAfter state op machine).map fun memory =>
        { state with machine := machine, memory := memory }

/-- One step. -/
def step (pageSize : Nat) (state : State) : MemoryOp → Option State
  | .drive op coRanges =>
      if startsProgram op then none else driveStep state op coRanges
  | .executeStatic request => virtualExecveStatic pageSize state request
  | .executeViaEntry request =>
      virtualExecveViaEntry pageSize state .virtualExecve request
  | .createProcess stdin stdout stderr request =>
      virtualExecveViaEntry pageSize state
        (.createProcess stdin stdout stderr) request
  | .executeDynamic request => virtualExecveDynamic state request

/-- A session without processes, and an empty memory. -/
def init (world : World) : State where
  machine := Machine.init world
  memory :=
    { next := 0
      heap := { live := [], freed := [] }
      owned := ∅
      frames := fun _ => none
      entered := [] }
  lost := []
  programs := ∅

/-! ## The accounts of a session -/

/-- The accounts of a session, with allocations in nobody's hands. -/
structure Accounted (state : State) (others : List Allocation) : Prop where
  books : Books state.memory others
  owners : ∀ pid, pid ∈ state.memory.owned ↔
    pid ∈ state.machine.driver.executor.vprocs
  programs : ∀ pid, pid ∈ state.machine.driver.executor.vprocs →
    pid ∈ state.programs
  kept : ∀ pid program, state.programs.lookup pid = some program →
    Kept state.memory program
  frames : FramesKnown state.memory

section Steps

variable {state : State} {others : List Allocation}

end Steps

section Starts

variable {pageSize : Nat} {state next : State} {request : StartRequest}

/-- What a start has done: no frame is new, and memory is lost if it fails. -/
structure Started (state next : State) (keeps : Prop) : Prop where
  accounted : Accounted next next.lost
  frames : FewerFrames state.memory next.memory
  lost : keeps → next.lost = state.lost

end Starts

/-! ## Whole runs -/

section Runs

variable {pageSize : Nat} {world : World} {ops : List MemoryOp}
  {final : State}

end Runs

/-- The coroutine of a process, 1 MiB from that of the process before. -/
def coRangesAt (base : Nat) : CoRanges where
  userData := ⟨base, 24⟩
  co := ⟨base + 4096, 66048⟩
  inner := some ⟨base + 64, 24⟩
  outer := ⟨base + 128, 16⟩

/-- A static program with one argument. -/
def staticStart : StartRequest where
  image := ⟨0x2000000000, 65536⟩
  strings := [⟨0x10000, 6⟩]
  fails := false
  reserves := true
  stack := .granted 0x7000000000
  coRanges := coRangesAt 0x100000

/-- The program forks, and exits before its child has run. -/
def parentExits : List MemoryOp :=
  [.executeStatic staticStart, .drive .stepFromDriver staticStart.coRanges,
    .drive (.spawnForkChild 1) (coRangesAt 0x200000),
    .drive (.exit (.exit 0)) staticStart.coRanges,
    .drive .reapDoneCoroutines staticStart.coRanges]

/-- The child exits as well. -/
def bothExit : List MemoryOp :=
  parentExits ++
    [.drive .stepFromDriver staticStart.coRanges,
      .drive (.exit (.exit 0)) staticStart.coRanges,
      .drive .reapDoneCoroutines staticStart.coRanges]

/-- A closure is forked, and returns in the parent and in the child. -/
def closureReturnsTwice : List MemoryOp :=
  [.drive .spawn (coRangesAt 0x300000),
    .drive .stepFromDriver staticStart.coRanges,
    .drive (.spawnForkChild 1) (coRangesAt 0x400000),
    .drive (.exit .returned) staticStart.coRanges,
    .drive .stepFromDriver staticStart.coRanges]

example :
    (run (step 4096) (init (World.init Kernel.standard))
        closureReturnsTwice).map
      (fun final =>
        ((final.machine.step (.exit .returned)).isSome,
          (step 4096 final
            (.drive (.exit .returned) staticStart.coRanges)).isSome)) =
      some (true, false) := by
  decide +kernel

section Runs

variable {pageSize : Nat} {world : World} {ops : List MemoryOp}
  {final : State}

end Runs

end Vproc.Exec.ProgramMemory
