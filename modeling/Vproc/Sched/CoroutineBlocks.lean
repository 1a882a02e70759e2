import Vproc.Sched.ForkContext

/-!
# The block of a coroutine

One block is allocated for a coroutine: its record, its context, its storage
and its stack are parts of it.  `mco_create` and `mco_fork_from` lay them out
in the same way.  The stack of a loaded program is elsewhere; its block has
room for one nevertheless.
-/

namespace Vproc.Sched.CoroutineBlocks

open Vproc.Lib.Memory
open Vproc.Lib.Alignment
open Vproc.Exec.Elf
open Vproc.Exec.Words
open Vproc.Sched.ForkContext

/-! ## The functions of the source -/

/-- `MCO_MIN_STACK_SIZE`. -/
def MCO_MIN_STACK_SIZE : Usize := 32768

/-- `MCO_DEFAULT_STACK_SIZE` with `MCO_USE_VMEM_ALLOCATOR`. -/
def MCO_DEFAULT_STACK_SIZE : Usize := 2040 * 1024

/-- `MCO_DEFAULT_STORAGE_SIZE`. -/
def MCO_DEFAULT_STORAGE_SIZE : Usize := 1024

/-- The failures among `mco_result` which are reported here. -/
inductive McoError where
  | invalidPointer
  | invalidCoroutine
  | notSuspended
  | notRunning
  | outOfMemory
  | invalidArguments
  | invalidOperation
  | stackOverflow
deriving DecidableEq, Repr

/-- The addresses of code which a context is made of. -/
structure Symbols where
  mcoMain : Usize
  mcoWrapMain : Usize
  mcoElfEntry : Usize
  mcoElfDummyFunc : Usize

/-- `mco_desc`, with the default allocator. -/
structure McoDesc where
  func : Usize
  userData : Usize
  allocatorData : Usize
  storageSize : Usize
  coroSize : Usize
  stackSize : Usize
deriving DecidableEq

/-- `mco_coro`: with the coroutine which has resumed it, or null. -/
structure Coro extends McoCoro where
  prevCo : Usize
deriving DecidableEq

/-- `mco_desc_init`. -/
def mcoDescInit (func stackSize : Usize) : McoDesc :=
  let stackSize :=
    if stackSize ≠ 0 then
      if stackSize < MCO_MIN_STACK_SIZE then MCO_MIN_STACK_SIZE else stackSize
    else MCO_DEFAULT_STACK_SIZE
  let stackSize := alignForward stackSize
  { func := func
    userData := 0
    allocatorData := 0
    storageSize := MCO_DEFAULT_STORAGE_SIZE
    coroSize := coroSizeOf MCO_DEFAULT_STORAGE_SIZE stackSize
    stackSize := stackSize }

/-- `_mco_validate_desc`. -/
def mcoValidateDesc (desc : McoDesc) : Except McoError Unit :=
  if desc.func = 0 then .error .invalidArguments
  else if desc.stackSize < MCO_MIN_STACK_SIZE then .error .invalidArguments
  else if desc.coroSize < sizeofMcoCoro then .error .invalidArguments
  else .ok ()

/-- A context after `memset`. -/
def Ctxbuf.zero : Ctxbuf where
  x := fun _ => 0
  sp := 0
  lr := 0
  d := fun _ => 0

/-- The dummy return address of a new context. -/
def dummyReturn : Usize := 0xdeaddeaddeaddead

/-- `_mco_makectx`, on a context of zeros. -/
def mcoMakectx (symbols : Symbols) (co stackBase stackSize : Usize) :
    Ctxbuf :=
  { Ctxbuf.zero with
    x := fun i =>
      match i with
      | 0 => co
      | 1 => symbols.mcoMain
      | 2 => dummyReturn
      | _ => 0
    sp := stackBase + stackSize
    lr := symbols.mcoWrapMain }

/-- `_mco_makectx_elf`, on a context of zeros. -/
def mcoMakectxElf (symbols : Symbols)
    (entry elfSp stackBase stackSize : Usize) : Ctxbuf :=
  { Ctxbuf.zero with
    x := fun i =>
      match i with
      | 0 => entry
      | 1 => symbols.mcoElfEntry
      | 2 => dummyReturn
      | 3 => elfSp
      | _ => 0
    sp := stackBase + stackSize
    lr := symbols.mcoWrapMain }

/-- The record which `mco_init` makes at an address. -/
def initialCoro (symbols : Symbols) (desc : McoDesc) (co : Usize) : Coro :=
  let stackBase := stackAddr co desc.storageSize
  { context :=
      { ctx := mcoMakectx symbols co stackBase desc.stackSize
        backCtx := Ctxbuf.zero }
    state := .suspended
    func := desc.func
    userData := desc.userData
    coroSize := desc.coroSize
    allocatorData := desc.allocatorData
    stackBase := stackBase
    stackSize := desc.stackSize
    storage := storageAddr co
    bytesStored := 0
    storageSize := desc.storageSize
    magicNumber := MCO_MAGIC_NUMBER
    prevCo := 0 }

/-- `mco_create`; the allocator gives `co`, or 0. -/
def mcoCreate (symbols : Symbols) (desc : McoDesc) (co : Usize) :
    Except McoError Coro :=
  if co = 0 then .error .outOfMemory
  else
    match mcoValidateDesc desc with
    | .error failure => .error failure
    | .ok () => .ok (initialCoro symbols desc co)

/-- The stack in the block of a loaded program. -/
def actualStackSize (desc : McoDesc) (co : Usize) : Usize :=
  let actualStackAddr := stackAddr co desc.storageSize
  let actualStackSize :=
    desc.coroSize + desc.stackSize - (actualStackAddr - co)
  if co + desc.coroSize < actualStackAddr + actualStackSize then
    co + desc.coroSize - actualStackAddr
  else actualStackSize

/-- `mco_create_with_elf_entry`; the allocator gives `co`, or 0. -/
def mcoCreateWithElfEntry (symbols : Symbols)
    (entry elfSp stackBase stackSize co : Usize) : Except McoError Coro :=
  let stackSize :=
    if stackSize < MCO_MIN_STACK_SIZE then MCO_MIN_STACK_SIZE else stackSize
  let stackSize := alignForward stackSize
  let desc := mcoDescInit symbols.mcoElfDummyFunc stackSize
  if co = 0 then .error .outOfMemory
  else
    let useStackBase :=
      if stackBase ≠ 0 then stackBase else stackAddr co desc.storageSize
    let useStackSize :=
      if stackBase ≠ 0 then stackSize else actualStackSize desc co
    .ok
      { context :=
          { ctx :=
              mcoMakectxElf symbols entry elfSp useStackBase useStackSize
            backCtx := Ctxbuf.zero }
        state := .suspended
        func := symbols.mcoElfDummyFunc
        userData := 0
        coroSize := desc.coroSize
        allocatorData := desc.allocatorData
        stackBase := useStackBase
        stackSize := useStackSize
        storage := storageAddr co
        bytesStored := 0
        storageSize := desc.storageSize
        magicNumber := MCO_MAGIC_NUMBER
        prevCo := 0 }

/-- The record of a forked coroutine; nobody has resumed it. -/
def forkedCoro (parent : Coro) (child : Usize) : Coro :=
  { childCoro parent.toMcoCoro child with prevCo := 0 }

/-! ## The parts of a block -/

theorem toNat_alignForward
    {address : Usize} (fits : address.toNat + 15 < 2 ^ 64) :
    (alignForward address).toNat = (address.toNat + 15) / 16 * 16 := by
  have mask : (15 : Usize) = BitVec.ofNat 64 (2 ^ 4 - 1) := rfl
  have sum : (address + 15).toNat = address.toNat + 15 := by
    rw [BitVec.toNat_add]
    exact Nat.mod_eq_of_lt fits
  rw [alignForward, mask, toNat_clearLow _ (by decide), ← mask, sum]
  rfl

/-- The bytes a block needs for a storage and a stack. -/
def blockBytes (storageSize stackSize : Usize) : Nat :=
  144 + 352 + (storageSize.toNat + 15) / 16 * 16 + stackSize.toNat + 16

/-- A block of these bytes is at an address, and does not reach around. -/
def BlockAt (co storageSize stackSize : Usize) : Prop :=
  co.toNat + blockBytes storageSize stackSize ≤ 2 ^ 64

/-- The record, the context, the storage and the stack, one after the other. -/
structure LaidOut (co storageSize stackSize : Usize) : Prop where
  context : co.toNat + 136 ≤ (alignForward (co + sizeofMcoCoro)).toNat
  storage : (alignForward (co + sizeofMcoCoro)).toNat + 352 ≤
    (storageAddr co).toNat
  stack : (storageAddr co).toNat + storageSize.toNat ≤
    (stackAddr co storageSize).toNat
  ends : (stackAddr co storageSize).toNat + stackSize.toNat ≤
    co.toNat + blockBytes storageSize stackSize
  size : (coroSizeOf storageSize stackSize).toNat =
    blockBytes storageSize stackSize

theorem toNat_coroSizeOf
    {storageSize stackSize : Usize}
    (fits : blockBytes storageSize stackSize < 2 ^ 64) :
    (coroSizeOf storageSize stackSize).toNat =
      blockBytes storageSize stackSize := by
  unfold blockBytes at fits ⊢
  have storage := @toNat_alignForward storageSize (by omega)
  have record : (alignForward sizeofMcoCoro).toNat = 144 := by decide
  have context : (alignForward sizeofContext).toNat = 352 := by decide
  have slack : (16 : Usize).toNat = 16 := rfl
  simp only [coroSizeOf, BitVec.toNat_add, storage, record, context, slack]
  omega

theorem laidOut_of_blockAt
    {co storageSize stackSize : Usize}
    (block : BlockAt co storageSize stackSize) (given : co ≠ 0) :
    LaidOut co storageSize stackSize := by
  have positive : 0 < co.toNat :=
    Nat.pos_of_ne_zero fun zero => given (BitVec.eq_of_toNat_eq zero)
  have fits := block
  unfold BlockAt blockBytes at fits
  have record :
      (co + sizeofMcoCoro).toNat = co.toNat + 136 := by
    have size : sizeofMcoCoro.toNat = 136 := rfl
    rw [BitVec.toNat_add, size]
    omega
  have contextAddr := @toNat_alignForward (co + sizeofMcoCoro) (by omega)
  have context :
      (alignForward (co + sizeofMcoCoro) + sizeofContext).toNat =
        (alignForward (co + sizeofMcoCoro)).toNat + 352 := by
    have size : sizeofContext.toNat = 352 := rfl
    rw [BitVec.toNat_add, size]
    omega
  have storage :
      (storageAddr co).toNat =
        ((alignForward (co + sizeofMcoCoro)).toNat + 352 + 15) / 16 * 16 := by
    rw [storageAddr, toNat_alignForward (by omega), context]
  have behind :
      (storageAddr co + storageSize).toNat =
        (storageAddr co).toNat + storageSize.toNat := by
    rw [BitVec.toNat_add]
    omega
  have stack :
      (stackAddr co storageSize).toNat =
        ((storageAddr co).toNat + storageSize.toNat + 15) / 16 * 16 := by
    rw [stackAddr, toNat_alignForward (by omega), behind]
  refine ⟨by omega, by omega, by omega, ?_, toNat_coroSizeOf ?_⟩
  · unfold blockBytes
    omega
  · have bound : co.toNat + blockBytes storageSize stackSize ≤ 2 ^ 64 := block
    omega

/-- The default sizes, at an address which is aligned to nothing. -/
theorem laidOut_of_blockAt_unaligned :
    LaidOut 0x10001 MCO_DEFAULT_STORAGE_SIZE MCO_DEFAULT_STACK_SIZE :=
  laidOut_of_blockAt (by unfold BlockAt; decide) (by decide)

end Vproc.Sched.CoroutineBlocks
