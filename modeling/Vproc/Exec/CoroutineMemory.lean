import Vproc.Lib.Custody
import Vproc.Exec.LoadPie
import Vproc.Fd.Runtime

/-!
# The memory of coroutines

A coroutine has raw pointers to its user data, to its own block, and to what
was allocated for its program.  It is all freed when the coroutine is dropped.

The user data of a closure holds the closure, in two boxes, until the process
gets its first turn.  Then the trampoline takes them to its frame, which it
never leaves: the box of the closure is freed when the closure returns, and the
one around it is not freed at all.  The stack of a forked child is a copy, with
the frame of the trampoline and the same boxes on it.
-/

namespace Vproc.Exec.CoroutineMemory

open Vproc.Lib.FiniteMap
open Vproc.Lib.Run
open Vproc.Lib.Custody
open Vproc.Fd.Runtime (VPid)
open Vproc.Exec.LoadPie (AddressRange)

/-! ## Allocations -/

/--
Memory which is allocated and freed as one.  Allocations are numbered, as the
same addresses can be given out again.
-/
structure Allocation where
  serial : Nat
  range : AddressRange
deriving DecidableEq, Repr

/--
A closure in its box, which is not allocated if the closure captures nothing,
and the box around that one.
-/
structure ClosureBoxes where
  inner : Option Allocation
  outer : Allocation
deriving DecidableEq, Repr

/-- What dropping the boxes frees. -/
def ClosureBoxes.drops (boxes : ClosureBoxes) : List Allocation :=
  boxes.inner.toList ++ [boxes.outer]

/-- What a `Coroutine` has raw pointers to, and the closure in its user data. -/
structure Owned where
  cStrings : List Allocation
  mappedRegions : List Allocation
  stackAlloc : Option Allocation
  closure : Option ClosureBoxes
  userData : Allocation
  co : Allocation
deriving DecidableEq, Repr

/-- The boxes in the user data. -/
def Owned.boxes (owned : Owned) : List Allocation :=
  (owned.closure.map ClosureBoxes.drops).getD []

/-- What the `drop` of a `Coroutine` frees, in this order. -/
def Owned.drops (owned : Owned) : List Allocation :=
  owned.cStrings ++
    (owned.mappedRegions ++
      (owned.stackAlloc.toList ++
        (owned.boxes ++ [owned.userData, owned.co])))

/--
The heap and the mappings, what the coroutines own of them, and the boxes in
the frame of the trampoline on the stack of each process.  `entered` has no
counterpart in the source: the boxes which trampolines have taken, as long as
they are live.
-/
structure Memory where
  next : Nat
  heap : Heap Allocation
  owned : KeyMap VPid Owned
  frames : VPid → Option ClosureBoxes
  entered : List Allocation

namespace Memory

/-- A range which the allocator or the kernel has given. -/
def allocate (memory : Memory) (range : AddressRange) :
    Memory × Allocation :=
  let allocation := { serial := memory.next, range := range }
  ({ memory with
      next := memory.next + 1
      heap := { memory.heap with live := allocation :: memory.heap.live } },
    allocation)

/-- `build_c_strings`: every string is one allocation. -/
def buildCStrings (memory : Memory) :
    List AddressRange → Memory × List Allocation
  | [] => (memory, [])
  | range :: rest =>
      let made := memory.allocate range
      let others := made.1.buildCStrings rest
      (others.1, made.2 :: others.2)

/-- The answers of the kernel to the two calls of `alloc_elf_stack`. -/
inductive StackAnswer where
  | refused
  | notFixed (base : Nat)
  | granted (base : Nat)
deriving DecidableEq, Repr

/-- `ELF_STACK_SIZE`. -/
def ELF_STACK_SIZE : Nat := 8 * 1024 * 1024

/--
`alloc_elf_stack`: the stack with its guard page, or a null.  The pages are
unmapped again if the stack cannot be mapped over them.
-/
def allocElfStack (pageSize : Nat) (memory : Memory) :
    StackAnswer → Option (Memory × Option Allocation)
  | .refused => some (memory, none)
  | .notFixed base =>
      let made := memory.allocate ⟨base, pageSize + ELF_STACK_SIZE⟩
      (free made.1.heap made.2).map fun heap =>
        ({ made.1 with heap := heap }, none)
  | .granted base =>
      let made := memory.allocate ⟨base, pageSize + ELF_STACK_SIZE⟩
      some (made.1, some made.2)

/-- A closure comes in its box, and `Coroutine::new` puts it in another. -/
def boxClosure (memory : Memory) (inner : Option AddressRange)
    (outer : AddressRange) : Memory × ClosureBoxes :=
  match inner with
  | none =>
      let made := memory.allocate outer
      (made.1, { inner := none, outer := made.2 })
  | some range =>
      let first := memory.allocate range
      let made := first.1.allocate outer
      (made.1, { inner := some first.2, outer := made.2 })

/--
`vprocs.insert`, which drops the coroutine that was there with its stack; the
stack of the new one may have a frame of the trampoline on it.
-/
def enter (memory : Memory) (pid : VPid) (owned : Owned)
    (frame : Option ClosureBoxes) : Option Memory :=
  (dropOwner Owned.drops (memory.heap, memory.owned) pid).map fun left =>
    { memory with
      heap := left.1
      owned := left.2.insert pid owned
      frames := Function.update memory.frames pid frame }

/-- The coroutines which `reap_done_coroutines` drops, with their stacks. -/
def reap (memory : Memory) (pids : List VPid) : Option Memory :=
  (run (dropOwner Owned.drops) (memory.heap, memory.owned) pids).map
    fun left =>
      { memory with
        heap := left.1
        owned := left.2
        frames := fun pid => if pid ∈ pids then none else memory.frames pid }

/-- The trampoline begins: it takes the closure out of the user data. -/
def takeClosure (memory : Memory) (pid : VPid) : Memory :=
  match memory.owned.lookup pid with
  | none => memory
  | some owned =>
      match owned.closure with
      | none => memory
      | some boxes =>
          { memory with
            owned := memory.owned.insert pid { owned with closure := none }
            frames := Function.update memory.frames pid (some boxes)
            entered := boxes.drops ++ memory.entered }

/-- The box of the closure which a process is in. -/
def closureBox (memory : Memory) (pid : VPid) : Option Allocation :=
  (memory.frames pid).bind ClosureBoxes.inner

/-- The closure returns to the trampoline, or panics: its box is freed. -/
def leaveClosure (memory : Memory) (pid : VPid) : Option Memory :=
  match memory.closureBox pid with
  | none => some memory
  | some inner =>
      (free memory.heap inner).map fun heap =>
        { memory with
          heap := heap
          frames :=
            Function.update memory.frames pid
              ((memory.frames pid).map fun boxes =>
                { boxes with inner := none })
          entered := memory.entered.erase inner }

end Memory

/-! ## Programs -/

/-- Where a program goes on: the coroutine it was started in, and its memory. -/
structure Program where
  starter : Allocation
  memory : List Allocation
deriving DecidableEq, Repr

/-- The program which is started in a coroutine. -/
def Owned.program (owned : Owned) : Program where
  starter := owned.userData
  memory := owned.cStrings ++ owned.mappedRegions

/-! ## Accounts -/

/--
Every allocation was made once and is freed once; a live one is held by one
coroutine, or was taken by a trampoline, or is among the others.
-/
structure Books (memory : Memory) (others : List Allocation) : Prop where
  live : memory.heap.live.Perm
    (heldBy Owned.drops memory.owned ++ (memory.entered ++ others))
  once : (memory.heap.freed ++ memory.heap.live).Nodup
  numbered : ∀ made ∈ memory.heap.freed ++ memory.heap.live,
    made.serial < memory.next

/-- No coroutine is entered or dropped. -/
structure Grows (before after : Memory) : Prop where
  freed : ∀ made ∈ before.heap.freed, made ∈ after.heap.freed
  owned : after.owned = before.owned
  entered : after.entered = before.entered
  frames : after.frames = before.frames

theorem Grows.trans
    {first second third : Memory} (earlier : Grows first second)
    (later : Grows second third) :
    Grows first third where
  freed := fun made isFreed => later.freed made (earlier.freed made isFreed)
  owned := later.owned.trans earlier.owned
  entered := later.entered.trans earlier.entered
  frames := later.frames.trans earlier.frames

theorem Grows.closureBox
    {before after : Memory} (grows : Grows before after) (pid : VPid) :
    after.closureBox pid = before.closureBox pid := by
  rw [Memory.closureBox, grows.frames, Memory.closureBox]

section Memory

variable {memory : Memory} {others : List Allocation}

theorem Books.disjoint (books : Books memory others) :
    List.Disjoint memory.heap.freed memory.heap.live :=
  List.disjoint_of_nodup_append books.once

/-- The other allocations can be counted in any order. -/
theorem Books.perm
    {same : List Allocation} (books : Books memory others)
    (perm : others.Perm same) :
    Books memory same :=
  ⟨books.live.trans ((perm.append_left _).append_left _), books.once,
    books.numbered⟩

end Memory

/-! ## Programs which are kept -/

/--
The memory of a program is held by the coroutine it was started in, or has been
freed with it.
-/
def Kept (memory : Memory) (program : Program) : Prop :=
  (∃ pid owned, memory.owned.lookup pid = some owned ∧
    owned.program = program) ∨
  (program.starter ∈ memory.heap.freed ∧
    ∀ made ∈ program.memory, made ∈ memory.heap.freed)

/-- The box of the closure of each frame is live, or has been freed. -/
def FramesKnown (memory : Memory) : Prop :=
  ∀ pid inner, memory.closureBox pid = some inner →
    inner ∈ memory.entered ∨ inner ∈ memory.heap.freed

/-- No trampoline begins, and none is left; frames may be gone. -/
structure FewerFrames (before after : Memory) : Prop where
  entered : after.entered = before.entered
  frames : ∀ pid inner, after.closureBox pid = some inner →
    before.closureBox pid = some inner

theorem FewerFrames.trans
    {first second third : Memory} (earlier : FewerFrames first second)
    (later : FewerFrames second third) :
    FewerFrames first third :=
  ⟨later.entered.trans earlier.entered, fun pid inner holds =>
    earlier.frames pid inner (later.frames pid inner holds)⟩

section Unshared

variable {memory : Memory} {others : List Allocation}

end Unshared

end Vproc.Exec.CoroutineMemory
