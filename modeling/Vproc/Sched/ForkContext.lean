import Vproc.Lib.Alignment
import Vproc.Exec.Words

/-!
# Forking a coroutine

`mco_fork_from` gives the child a stack of its own and copies the parent's into
it.  What points into the parent's stack is moved by the distance of the two:
the saved stack pointer, the saved registers, and the words of the stack from
the stack pointer up.  The words are rewritten in place, in one scan.

The records of the coroutines are kept apart from the memory, which holds the
stacks.  The context is the one of `aarch64`, the only one which can be forked.
-/

namespace Vproc.Sched.ForkContext

open Vproc.Lib.Memory
open Vproc.Lib.Alignment
open Vproc.Exec.Elf
open Vproc.Exec.Words

/-! ## Records -/

/-- `mco_state`. -/
inductive McoState where
  | dead
  | normal
  | running
  | suspended
deriving DecidableEq, Repr

/-- The failures of `mco_fork_from`. -/
inductive McoResult where
  | invalidPointer
  | outOfMemory
deriving DecidableEq, Repr

/-- `_mco_ctxbuf`: the registers `x19` to `x30`, `sp`, `lr`, `d8` to `d15`. -/
structure Ctxbuf where
  x : Fin 12 → Usize
  sp : Usize
  lr : Usize
  d : Fin 8 → Usize
deriving DecidableEq

/-- `_mco_context`. -/
structure Context where
  ctx : Ctxbuf
  backCtx : Ctxbuf
deriving DecidableEq

/-- `mco_coro`, as far as a fork reads and writes it. -/
structure McoCoro where
  context : Context
  state : McoState
  func : Usize
  userData : Usize
  coroSize : Usize
  allocatorData : Usize
  stackBase : Usize
  stackSize : Usize
  storage : Usize
  bytesStored : Usize
  storageSize : Usize
  magicNumber : Usize
deriving DecidableEq

/-! ## The functions of the source -/

/-- `MCO_MAGIC_NUMBER`. -/
def MCO_MAGIC_NUMBER : Usize := 0x7E3CB1A9

/-- `sizeof(mco_coro)`. -/
def sizeofMcoCoro : Usize := 136

/-- `sizeof(_mco_context)`. -/
def sizeofContext : Usize := 352

/-- `_mco_align_forward` to 16. -/
def alignForward (addr : Usize) : Usize :=
  (addr + 15) &&& ~~~(15 : Usize)

/-- The `coro_size` of `_mco_init_desc_sizes`. -/
def coroSizeOf (storageSize stackSize : Usize) : Usize :=
  alignForward sizeofMcoCoro + alignForward sizeofContext +
    alignForward storageSize + stackSize + 16

/-- `storage_addr`, from the address which was allocated. -/
def storageAddr (child : Usize) : Usize :=
  alignForward (alignForward (child + sizeofMcoCoro) + sizeofContext)

/-- `stack_addr`. -/
def stackAddr (child storageSize : Usize) : Usize :=
  alignForward (storageAddr child + storageSize)

/-- A value moved by `delta` if it is from `base` on and below `stop`. -/
def remap (base stop delta value : Usize) : Usize :=
  if base ≤ value ∧ value < stop then value + delta else value

/-- The scan, from `p` on; at most `limit` words. -/
def scan (base stop delta last : Usize) : Nat → Usize → Bytes → Bytes
  | 0, _, bytes => bytes
  | limit + 1, p, bytes =>
      if p + 8 ≤ last then
        let val := wordAt bytes p
        let next :=
          if base ≤ val ∧ val < stop then putWord bytes p (val + delta)
          else bytes
        scan base stop delta last limit (p + 8) next
      else bytes

/-- The context of the child. -/
def remapContext (base stop delta : Usize) (context : Context) : Context where
  ctx :=
    { context.ctx with
      sp := remap base stop delta context.ctx.sp
      x := fun i => remap base stop delta (context.ctx.x i) }
  backCtx :=
    { context.backCtx with
      sp := remap base stop delta context.backCtx.sp }

/--
The storage is copied if it fits in the child's, the size of which is not set
yet.
-/
def copyStorage (bytes : Bytes) (parent : McoCoro) (storage : Usize)
    (childStorageSize : Usize) : Bytes :=
  if parent.storage ≠ 0 ∧ 0 < parent.bytesStored ∧
      parent.bytesStored ≤ childStorageSize then
    write bytes storage (read bytes parent.storage parent.bytesStored.toNat)
  else bytes

/-- The child's record, at the end of `mco_fork_from`. -/
def childCoro (parent : McoCoro) (child : Usize) : McoCoro :=
  let childStackBase := stackAddr child parent.storageSize
  let parentBase := parent.stackBase
  let parentEnd := parentBase + parent.stackSize
  let delta := childStackBase - parentBase
  { context := remapContext parentBase parentEnd delta parent.context
    state := .suspended
    func := parent.func
    userData := parent.userData
    coroSize := coroSizeOf parent.storageSize parent.stackSize
    allocatorData := parent.allocatorData
    stackBase := childStackBase
    stackSize := parent.stackSize
    storage := storageAddr child
    bytesStored := parent.bytesStored
    storageSize := parent.storageSize
    magicNumber := MCO_MAGIC_NUMBER }

/-- The memory: the copied stack after the scan, and the storage. -/
def childMemory (bytes : Bytes) (parent : McoCoro) (child : Usize) : Bytes :=
  let childStackBase := stackAddr child parent.storageSize
  let childStackSize := parent.stackSize
  let copied :=
    if 0 < childStackSize then
      write bytes childStackBase
        (read bytes parent.stackBase childStackSize.toNat)
    else bytes
  let parentBase := parent.stackBase
  let parentEnd := parentBase + parent.stackSize
  let delta := childStackBase - parentBase
  let activeStart := (childCoro parent child).context.ctx.sp
  let activeEnd := childStackBase + childStackSize
  let p := activeStart &&& ~~~(7 : Usize)
  let scanned :=
    scan parentBase parentEnd delta activeEnd (2 ^ 61) p copied
  copyStorage scanned parent (storageAddr child) 0

/-- `mco_fork_from`; the allocator gives `child`, or 0. -/
def mcoForkFrom (bytes : Bytes) (parent : Option McoCoro) (child : Usize) :
    Except McoResult (McoCoro × Bytes) :=
  match parent with
  | none => .error .invalidPointer
  | some parent =>
      if child = 0 then .error .outOfMemory
      else .ok (childCoro parent child, childMemory bytes parent child)

/-! ## Values which are moved -/

/-- How a value of the parent is found again in the child. -/
structure Moved (parentBase childBase : Usize) (size : Nat)
    (value found : Usize) : Prop where
  inside : InRange parentBase size value →
    found = value + (childBase - parentBase)
  outside : ¬ InRange parentBase size value → found = value
  leaves : ¬ InRange parentBase size found

/-- A range of addresses, in numbers. -/
theorem inRange_iff_bounds
    {base value : Usize} {size : Usize}
    (fits : base.toNat + size.toNat < 2 ^ 64) :
    InRange base size.toNat value ↔ base ≤ value ∧ value < base + size := by
  have stop : (base + size).toNat = base.toNat + size.toNat := by
    rw [BitVec.toNat_add, Nat.mod_eq_of_lt fits]
  have bound := value.isLt
  have least := base.isLt
  rw [InRange, BitVec.toNat_sub, BitVec.le_def, BitVec.lt_def, stop]
  omega

section Moving

variable {parentBase childBase size : Usize}

theorem moved_remap
    (fits : parentBase.toNat + size.toNat < 2 ^ 64)
    (apart : ∀ address, InRange childBase size.toNat address →
      ¬ InRange parentBase size.toNat address)
    (value : Usize) :
    Moved parentBase childBase size.toNat value
      (remap parentBase (parentBase + size) (childBase - parentBase)
        value) := by
  by_cases inside : InRange parentBase size.toNat value
  · have shifted :
        remap parentBase (parentBase + size) (childBase - parentBase)
            value = value + (childBase - parentBase) :=
      if_pos ((inRange_iff_bounds fits).mp inside)
    have same :
        value + (childBase - parentBase) - childBase =
          value - parentBase := by
      ring
    rw [shifted]
    refine ⟨fun _ => rfl, fun outside => (outside inside).elim, ?_⟩
    apply apart
    rw [InRange, same]
    exact inside
  · have kept :
        remap parentBase (parentBase + size) (childBase - parentBase)
            value = value :=
      if_neg (mt (inRange_iff_bounds fits).mpr inside)
    rw [kept]
    exact ⟨fun absurd => (inside absurd).elim, fun _ => rfl, inside⟩

end Moving

/-! ## The scan -/

section Scan

variable {base stop delta last : Usize}

/-- One word of the scan, and everything beside it. -/
theorem scanned_word (bytes : Bytes) (p : Usize) :
    let next :=
      if base ≤ wordAt bytes p ∧ wordAt bytes p < stop then
        putWord bytes p (wordAt bytes p + delta)
      else bytes
    wordAt next p = remap base stop delta (wordAt bytes p) ∧
      ∀ address, ¬ InRange p 8 address → next address = bytes address := by
  intro next
  by_cases inside : base ≤ wordAt bytes p ∧ wordAt bytes p < stop
  · have changed : next = putWord bytes p (wordAt bytes p + delta) :=
      if_pos inside
    rw [changed, remap, if_pos inside]
    exact ⟨wordAt_putWord bytes p _, fun _ => putWord_outside⟩
  · have same : next = bytes := if_neg inside
    rw [same, remap, if_neg inside]
    exact ⟨rfl, fun _ _ => rfl⟩

/-- The scan rewrites all words up to its end, and leaves the rest. -/
theorem scan_spec
    (below : last.toNat + 8 < 2 ^ 64) {count limit : Nat} {p : Usize}
    (enough : count ≤ limit) (ends : p.toNat + 8 * count = last.toNat)
    (bytes : Bytes) :
    (∀ i < count,
        wordAt (scan base stop delta last limit p bytes)
            (p + BitVec.ofNat 64 (8 * i)) =
          remap base stop delta
            (wordAt bytes (p + BitVec.ofNat 64 (8 * i)))) ∧
      ∀ address, ¬ InRange p (8 * count) address →
        scan base stop delta last limit p bytes address =
          bytes address := by
  have next8 (q : Usize) : (q + 8).toNat = (q.toNat + 8) % 2 ^ 64 :=
    BitVec.toNat_add q 8
  induction count generalizing limit p bytes with
  | zero =>
      have finished : scan base stop delta last limit p bytes = bytes := by
        cases limit with
        | zero => rfl
        | succ limit =>
            rw [scan, if_neg]
            rw [BitVec.le_def, next8]
            omega
      rw [finished]
      exact ⟨fun i small => (Nat.not_lt_zero i small).elim, fun _ _ => rfl⟩
  | succ count induction =>
      obtain ⟨limit, rfl⟩ :=
        Nat.exists_eq_succ_of_ne_zero (by omega : limit ≠ 0)
      have goesOn : p + 8 ≤ last := by
        rw [BitVec.le_def, next8]
        omega
      have behind : (p + 8).toNat + 8 * count = last.toNat := by
        rw [next8]
        omega
      obtain ⟨first, beside⟩ :=
        @scanned_word base stop delta bytes p
      rw [scan, if_pos goesOn]
      dsimp only at first beside ⊢
      generalize
        (if base ≤ wordAt bytes p ∧ wordAt bytes p < stop then
            putWord bytes p (wordAt bytes p + delta)
          else bytes) = next at first beside ⊢
      obtain ⟨later, outside⟩ :=
        @induction limit (p + 8) (by omega) behind next
      have apart (address : Usize) (inFirst : InRange p 8 address) :
          ¬ InRange (p + 8) (8 * count) address := by
        intro inLater
        have bounds :=
          (@inRange_offset_iff 64 p address 8 (8 * count) (by omega)).mp
            inLater
        exact absurd inFirst (Nat.not_lt.mpr bounds.1)
      constructor
      · intro i small
        cases i with
        | zero =>
            rw [Nat.mul_zero, BitVec.add_zero, ← first]
            exact
              wordAt_congr fun x inWord => outside x (apart x inWord)
        | succ i =>
            rw [ofNat_mul_succ, ← add_assoc, later i (by omega)]
            refine congrArg _ (wordAt_congr fun x inWord => beside x ?_)
            intro inFirst
            refine apart x inFirst (inRange_of_offset inWord ?_)
            omega
      · intro address farther
        rw [outside address, beside address]
        · exact fun inFirst => farther (inRange_mono inFirst (by omega))
        · exact fun inLater =>
            farther
              (@inRange_of_offset 64 p address 8 (8 * count) _ inLater
                (by omega))

end Scan

/-! ## The child -/

theorem toNat_clearLow
    (address : Usize) {bits : Nat} (few : bits ≤ 64) :
    (address &&& ~~~BitVec.ofNat 64 (2 ^ bits - 1)).toNat =
      roundDown (2 ^ bits) address.toNat := by
  rw [← clearLow_eq few address.isLt, clearLow, BitVec.ofNat_toNat,
    BitVec.setWidth_eq]

/-- The stack of the child is aligned, wherever the child is. -/
theorem stackAddr_aligned (child storageSize : Usize) :
    (stackAddr child storageSize).toNat % 16 = 0 := by
  have mask : (15 : Usize) = BitVec.ofNat 64 (2 ^ 4 - 1) := rfl
  rw [stackAddr, alignForward, mask, toNat_clearLow _ (by decide)]
  exact Nat.mod_eq_zero_of_dvd (dvd_roundDown _ _)

/-- The storage is never copied. -/
theorem copyStorage_zero
    (bytes : Bytes) (parent : McoCoro) (storage : Usize) :
    copyStorage bytes parent storage 0 = bytes := by
  rw [copyStorage, if_neg]
  rintro ⟨_, some, fits⟩
  exact absurd some (BitVec.not_lt.mpr fits)

/-- The words of the copied stack are the parent's. -/
theorem wordAt_copied
    (bytes : Bytes) (source target : Usize) {size offset : Nat}
    (inside : offset + 8 ≤ size) (fits : size ≤ 2 ^ 64) :
    wordAt (write bytes target (read bytes source size))
        (target + BitVec.ofNat 64 offset) =
      wordAt bytes (source + BitVec.ofNat 64 offset) := by
  refine congrArg (fun cells => BitVec.ofNat 64 (littleEndian cells)) ?_
  refine List.map_congr_left fun i member => ?_
  have small : i < 8 := List.mem_range.mp member
  rw [add_assoc, add_assoc, ← BitVec.ofNat_add]
  exact write_read_moved bytes bytes target source (by omega) fits

/-- Where the scan begins: at the word which the stack pointer is in. -/
theorem scan_start
    {childBase : Usize} (aligned : childBase.toNat % 16 = 0)
    (offset : Nat) :
    ((childBase + BitVec.ofNat 64 offset) &&& ~~~(7 : Usize)) =
      childBase + BitVec.ofNat 64 (offset / 8 * 8) := by
  have mask : (7 : Usize) = BitVec.ofNat 64 (2 ^ 3 - 1) := rfl
  apply BitVec.eq_of_toNat_eq
  rw [mask, toNat_clearLow _ (by decide), roundDown, BitVec.toNat_add,
    BitVec.toNat_add, BitVec.toNat_ofNat, BitVec.toNat_ofNat]
  omega

/-- The copied stack after the scan, from an offset on. -/
theorem forked_stack
    {parentBase childBase size : Usize} (bytes : Bytes) {offset : Nat}
    (aligned : childBase.toNat % 16 = 0) (words : size.toNat % 8 = 0)
    (ends : childBase.toNat + size.toNat + 8 < 2 ^ 64)
    (inside : offset < size.toNat) :
    let stop := parentBase + size
    let delta := childBase - parentBase
    let after :=
      scan parentBase stop delta (childBase + size) (2 ^ 61)
        ((childBase + BitVec.ofNat 64 offset) &&& ~~~(7 : Usize))
        (write bytes childBase (read bytes parentBase size.toNat))
    (∀ address, ¬ InRange childBase size.toNat address →
        after address = bytes address) ∧
      ∀ k, k % 8 = 0 → offset ≤ k → k + 8 ≤ size.toNat →
        wordAt after (childBase + BitVec.ofNat 64 k) =
          remap parentBase stop delta
            (wordAt bytes (parentBase + BitVec.ofNat 64 k)) := by
  intro stop delta after
  have bound := size.isLt
  have top : (childBase + size).toNat = childBase.toNat + size.toNat := by
    rw [BitVec.toNat_add, Nat.mod_eq_of_lt (by omega)]
  have start :
      (childBase + BitVec.ofNat 64 (offset / 8 * 8)).toNat =
        childBase.toNat + offset / 8 * 8 := by
    rw [BitVec.toNat_add, BitVec.toNat_ofNat]
    omega
  have isAfter :
      after =
        scan parentBase stop delta (childBase + size) (2 ^ 61)
          (childBase + BitVec.ofNat 64 (offset / 8 * 8))
          (write bytes childBase (read bytes parentBase size.toNat)) := by
    rw [← scan_start aligned offset]
  obtain ⟨rewritten, beside⟩ :=
    @scan_spec parentBase stop delta (childBase + size)
      (by rw [top]; exact ends) ((size.toNat - offset / 8 * 8) / 8)
      (2 ^ 61) (childBase + BitVec.ofNat 64 (offset / 8 * 8)) (by omega)
      (by rw [start, top]; omega)
      (write bytes childBase (read bytes parentBase size.toNat))
  rw [← isAfter] at rewritten beside
  constructor
  · intro address outside
    rw [beside]
    · apply write_outside
      rw [length_read]
      exact outside
    · intro scanned
      exact outside (inRange_of_offset scanned (by omega))
  · intro k isWord above below
    have index :
        childBase + BitVec.ofNat 64 (offset / 8 * 8) +
            BitVec.ofNat 64 (8 * ((k - offset / 8 * 8) / 8)) =
          childBase + BitVec.ofNat 64 k := by
      have whole : offset / 8 * 8 + 8 * ((k - offset / 8 * 8) / 8) = k := by
        omega
      rw [add_assoc, ← BitVec.ofNat_add, whole]
    have word :=
      rewritten ((k - offset / 8 * 8) / 8) (by omega)
    rw [index] at word
    rw [word, wordAt_copied bytes parentBase childBase below bound.le]

/--
A suspended coroutine is forked: everything outside the new stack stays, and
what was saved of the parent is found again in the child, moved if it points
into the parent's stack.
-/
theorem mcoForkFrom_moves
    (bytes : Bytes) (parent : McoCoro) (child : Usize)
    (given : child ≠ 0)
    (words : parent.stackSize.toNat % 8 = 0)
    (parentEnds :
      parent.stackBase.toNat + parent.stackSize.toNat < 2 ^ 64)
    (childEnds :
      (stackAddr child parent.storageSize).toNat +
        parent.stackSize.toNat + 8 < 2 ^ 64)
    (apart : ∀ address,
      InRange (stackAddr child parent.storageSize)
          parent.stackSize.toNat address →
        ¬ InRange parent.stackBase parent.stackSize.toNat address)
    (spInside :
      InRange parent.stackBase parent.stackSize.toNat
        parent.context.ctx.sp) :
    let childBase := stackAddr child parent.storageSize
    let size := parent.stackSize.toNat
    ∃ co after, mcoForkFrom bytes (some parent) child = .ok (co, after) ∧
      co.stackBase = childBase ∧ co.stackSize = parent.stackSize ∧
      (∀ address, ¬ InRange childBase size address →
        after address = bytes address) ∧
      Moved parent.stackBase childBase size
        parent.context.ctx.sp co.context.ctx.sp ∧
      (∀ i, Moved parent.stackBase childBase size
        (parent.context.ctx.x i) (co.context.ctx.x i)) ∧
      ∀ address : Usize, address.toNat % 8 = 0 →
        co.context.ctx.sp ≤ address →
        address.toNat + 8 ≤ childBase.toNat + size →
          Moved parent.stackBase childBase size
            (wordAt bytes (parent.stackBase + (address - childBase)))
            (wordAt after address) := by
  intro childBase size
  have aligned : childBase.toNat % 16 = 0 := stackAddr_aligned _ _
  have bound := parent.stackSize.isLt
  have notEmpty : 0 < parent.stackSize := Nat.zero_lt_of_lt spInside
  have moved (value : Usize) := moved_remap parentEnds apart value
  have isSp :
      remap parent.stackBase (parent.stackBase + parent.stackSize)
          (childBase - parent.stackBase) parent.context.ctx.sp =
        childBase +
          BitVec.ofNat 64
            (parent.context.ctx.sp - parent.stackBase).toNat := by
    refine ((moved parent.context.ctx.sp).inside spInside).trans ?_
    rw [BitVec.ofNat_toNat, BitVec.setWidth_eq]
    ring
  obtain ⟨beside, rewritten⟩ :=
    @forked_stack parent.stackBase childBase parent.stackSize bytes
      (parent.context.ctx.sp - parent.stackBase).toNat aligned words
      childEnds spInside
  have isMemory :
      childMemory bytes parent child =
        scan parent.stackBase (parent.stackBase + parent.stackSize)
          (childBase - parent.stackBase) (childBase + parent.stackSize)
          (2 ^ 61)
          ((childBase +
              BitVec.ofNat 64
                (parent.context.ctx.sp - parent.stackBase).toNat) &&&
            ~~~(7 : Usize))
          (write bytes childBase
            (read bytes parent.stackBase parent.stackSize.toNat)) := by
    rw [← isSp]
    simp only [childMemory, copyStorage_zero, if_pos notEmpty]
    rfl
  rw [← isMemory] at beside rewritten
  refine
    ⟨childCoro parent child, childMemory bytes parent child,
      if_neg given, rfl, rfl, beside, moved _, fun i => moved _, ?_⟩
  intro address isWord above below
  have childSp :
      (childCoro parent child).context.ctx.sp =
        childBase +
          BitVec.ofNat 64
            (parent.context.ctx.sp - parent.stackBase).toNat :=
    isSp
  have small :
      (parent.context.ctx.sp - parent.stackBase).toNat <
        parent.stackSize.toNat :=
    spInside
  have spAt :
      (childCoro parent child).context.ctx.sp.toNat =
        childBase.toNat +
          (parent.context.ctx.sp - parent.stackBase).toNat := by
    have childFits :
        childBase.toNat + parent.stackSize.toNat + 8 < 2 ^ 64 :=
      childEnds
    rw [childSp, BitVec.toNat_add, BitVec.toNat_ofNat]
    omega
  rw [BitVec.le_def, spAt] at above
  have distance :
      (address - childBase).toNat = address.toNat - childBase.toNat := by
    rw [BitVec.toNat_sub]
    omega
  have found :=
    rewritten (address - childBase).toNat (by omega) (by omega) (by omega)
  rw [add_ofNat_toNat_sub, BitVec.ofNat_toNat, BitVec.setWidth_eq] at found
  rw [found]
  exact moved _

/-- A coroutine which is suspended in the middle of a stack of 64 bytes. -/
def waiting : McoCoro where
  context :=
    { ctx :=
        { x := fun i => if i = 0 then 0x10030 else 0x77
          sp := 0x10020
          lr := 0x400000
          d := fun _ => 0 }
      backCtx :=
        { x := fun _ => 0
          sp := 0x7000
          lr := 0x400100
          d := fun _ => 0 } }
  state := .suspended
  func := 0x400200
  userData := 0
  coroSize := 0x230
  allocatorData := 0
  stackBase := 0x10000
  stackSize := 64
  storage := 0
  bytesStored := 0
  storageSize := 0
  magicNumber := MCO_MAGIC_NUMBER

/-- Its child has the stack pointer at the same distance from the base. -/
theorem mcoForkFrom_moves_waiting :
    ∃ co after,
      mcoForkFrom (putWord (fun _ => 0) 0x10028 0x10038) (some waiting)
          0x20000 = .ok (co, after) ∧
        Moved 0x10000 0x201f0 64 0x10020 co.context.ctx.sp ∧
        Moved 0x10000 0x201f0 64 0x10030 (co.context.ctx.x 0) := by
  have apart (address : Usize)
      (inChild : InRange (0x201f0 : Usize) 64 address) :
      ¬ InRange (0x10000 : Usize) 64 address := by
    unfold InRange at *
    bv_omega
  have holds :=
    mcoForkFrom_moves (putWord (fun _ => 0) 0x10028 0x10038) waiting
      0x20000 (by decide) rfl (by decide) (by decide) apart (by decide)
  obtain ⟨co, after, forked, _, _, _, sp, x, _⟩ := holds
  exact ⟨co, after, forked, sp, x 0⟩

end Vproc.Sched.ForkContext
