import Vproc.Lib.Run
import Vproc.Lib.Alignment
import Vproc.Exec.RunningImages
import Vproc.Exec.Instructions

/-!
# Hooks in the code of libc

The first 16 bytes of `exit` and of `execve` are overwritten by a branch to the
interceptor: `ldr` loads the address behind the two instructions, and `br` goes
there.  The address is written first, so no `ldr` reads what is not the
address, whenever the processor looks.
-/

namespace Vproc.Exec.InlineHook

open Vproc.Lib.Run
open Vproc.Lib.Memory
open Vproc.Lib.Alignment
open Vproc.Exec.Elf
open Vproc.Exec.ElfTables
open Vproc.Exec.Image
open Vproc.Exec.CachedStart (Succeeds plainPlatform)
open Vproc.Exec.RunningImages (hookLibc_outside)
open Vproc.Exec.Words
open Vproc.Exec.Instructions

/-! ## Instructions in memory -/

/-- `ldr x16, [pc, #8]`. -/
def LDR_X16 : BitVec 32 := 0x58000050

/-- `br x16`. -/
def BR_X16 : BitVec 32 := 0xD61F0200

/-- What `write_inline_hook` writes, in this order. -/
def hookWrites (funcAddr target : Usize) : List (Usize × List UInt8) :=
  [(funcAddr + 8, numberBytes 8 target.toNat),
    (funcAddr, numberBytes 4 LDR_X16.toNat),
    (funcAddr + 4, numberBytes 4 BR_X16.toNat)]

/-- The register of a field of five bits; 31 is none of them. -/
def registerOf (field : BitVec 32) : Option (Fin 31) :=
  if small : (field &&& 0x1F).toNat < 31 then some ⟨_, small⟩ else none

/-- The instructions which are written: `ldr` from ahead, and `br`. -/
def decode (word : BitVec 32) : Option Insn :=
  if word &&& 0xFF800000 = 0x58000000 then
    (registerOf word).map fun rt =>
      .ldrLiteral rt (4 * ((word >>> 5) &&& 0x7FFFF).toNat)
  else if word &&& 0xFFFFFC1F = 0xD61F0000 then
    (registerOf (word >>> 5)).map .br
  else none

/-- The word of an instruction. -/
def insnAt (bytes : Bytes) (address : Usize) : BitVec 32 :=
  BitVec.ofNat 32 (readUnaligned bytes address 4)

/-- Instructions are read from the memory. -/
def fetchBytes : Fetch :=
  fun bytes pc => decode (insnAt bytes pc)

/-- A call of the function goes on at the target; only `x16` is not kept. -/
def Redirects (bytes : Bytes) (funcAddr target : Usize) : Prop :=
  ∀ (xpaci : Usize → Usize) (cpu : Processor),
    cpu.bytes = bytes → cpu.pc = funcAddr →
      runs fetchBytes xpaci 2 cpu =
        some
          { cpu with
            x := Function.update cpu.x 16 target
            pc := target }

/-- The two instructions, and the address behind them. -/
structure Trampoline (bytes : Bytes) (funcAddr target : Usize) : Prop where
  ldr : insnAt bytes funcAddr = LDR_X16
  br : insnAt bytes (funcAddr + 4) = BR_X16
  payload : wordAt bytes (funcAddr + 8) = target

theorem redirects_of_trampoline
    {bytes : Bytes} {funcAddr target : Usize}
    (trampoline : Trampoline bytes funcAddr target) :
    Redirects bytes funcAddr target := by
  rintro xpaci cpu rfl rfl
  have first :
      fetchBytes cpu.bytes cpu.pc = some (.ldrLiteral 16 8) := by
    show decode (insnAt cpu.bytes cpu.pc) = _
    rw [trampoline.ldr]
    decide
  have second : fetchBytes cpu.bytes (cpu.pc + 4) = some (.br 16) := by
    show decode (insnAt cpu.bytes (cpu.pc + 4)) = _
    rw [trampoline.br]
    decide
  have loaded :
      wordAt cpu.bytes (cpu.pc + BitVec.ofNat 64 8) = target :=
    trampoline.payload
  rw [runs, first, Option.bind_some, runs]
  show (fetchBytes cpu.bytes (cpu.pc + 4)).bind _ = _
  rw [second, Option.bind_some, runs]
  simp only [Processor.execute, Processor.advance, Processor.setX, loaded,
    Function.update_self]

/-! ## What is written -/

section Written

variable {bytes : Bytes} {funcAddr target : Usize}

theorem insnAt_congr
    {other : Bytes} {address : Usize}
    (agree : ∀ x, InRange address 4 x → bytes x = other x) :
    insnAt bytes address = insnAt other address :=
  congrArg (fun cells => BitVec.ofNat 32 (littleEndian cells))
    (read_congr agree)

theorem insnAt_write (bytes : Bytes) (address : Usize) (word : BitVec 32) :
    insnAt (write bytes address (numberBytes 4 word.toNat)) address = word := by
  have back :=
    read_write bytes address (numberBytes 4 word.toNat)
      (by rw [length_numberBytes]; decide)
  rw [length_numberBytes] at back
  have bound : word.toNat < 256 ^ 4 := word.isLt
  rw [insnAt, readUnaligned, back, littleEndian_numberBytes,
    Nat.mod_eq_of_lt bound, BitVec.ofNat_toNat, BitVec.setWidth_eq]

/-- The bytes of a part of the trampoline, by the distance to its start. -/
theorem inPart_iff
    {offset length : Nat} {x : Usize} (fits : offset + length ≤ 16) :
    InRange (funcAddr + BitVec.ofNat 64 offset) length x ↔
      offset ≤ (x - funcAddr).toNat ∧
        (x - funcAddr).toNat < offset + length :=
  inRange_offset_iff (by omega)

/-- The three writes, the last one outside. -/
def withPayload (bytes : Bytes) (funcAddr target : Usize) : Bytes :=
  putWord bytes (funcAddr + 8) target

def withLdr (bytes : Bytes) (funcAddr target : Usize) : Bytes :=
  write (withPayload bytes funcAddr target) funcAddr
    (numberBytes 4 LDR_X16.toNat)

theorem withPayload_outside
    {x : Usize} (outside : ¬ InRange (funcAddr + 8) 8 x) :
    withPayload bytes funcAddr target x = bytes x :=
  putWord_outside outside

theorem withLdr_outside {x : Usize} (outside : ¬ InRange funcAddr 4 x) :
    withLdr bytes funcAddr target x = withPayload bytes funcAddr target x := by
  apply write_outside
  rw [length_numberBytes]
  exact outside

theorem insnAt_withPayload :
    insnAt (withPayload bytes funcAddr target) funcAddr =
        insnAt bytes funcAddr ∧
      insnAt (withPayload bytes funcAddr target) (funcAddr + 4) =
        insnAt bytes (funcAddr + 4) := by
  constructor
  · apply insnAt_congr
    intro x inside
    apply withPayload_outside
    intro inPayload
    have bounds := (inPart_iff (by decide : 8 + 8 ≤ 16)).mp inPayload
    have small : (x - funcAddr).toNat < 4 := inside
    omega
  · apply insnAt_congr
    intro x inside
    apply withPayload_outside
    intro inPayload
    have bounds := (inPart_iff (by decide : 8 + 8 ≤ 16)).mp inPayload
    have small := (inPart_iff (by decide : 4 + 4 ≤ 16)).mp inside
    omega

theorem insnAt_withLdr :
    insnAt (withLdr bytes funcAddr target) funcAddr = LDR_X16 ∧
      insnAt (withLdr bytes funcAddr target) (funcAddr + 4) =
        insnAt bytes (funcAddr + 4) ∧
      wordAt (withLdr bytes funcAddr target) (funcAddr + 8) = target := by
  refine ⟨insnAt_write _ funcAddr LDR_X16, ?_, ?_⟩
  · refine
      (insnAt_congr ?_).trans (@insnAt_withPayload bytes funcAddr target).2
    intro x inside
    apply withLdr_outside
    intro inLdr
    have small : (x - funcAddr).toNat < 4 := inLdr
    have bounds := (inPart_iff (by decide : 4 + 4 ≤ 16)).mp inside
    omega
  · refine
      (wordAt_congr ?_).trans (wordAt_putWord bytes (funcAddr + 8) target)
    intro x inside
    apply withLdr_outside
    intro inLdr
    have small : (x - funcAddr).toNat < 4 := inLdr
    have bounds := (inPart_iff (by decide : 8 + 8 ≤ 16)).mp inside
    omega

theorem trampoline_hookWrites :
    Trampoline (writes bytes (hookWrites funcAddr target)) funcAddr target := by
  have outside (x : Usize) (isOutside : ¬ InRange (funcAddr + 4) 4 x) :
      writes bytes (hookWrites funcAddr target) x =
        withLdr bytes funcAddr target x := by
    show write (withLdr bytes funcAddr target) (funcAddr + 4) _ x = _
    apply write_outside
    rw [length_numberBytes]
    exact isOutside
  rcases @insnAt_withLdr bytes funcAddr target with ⟨ldr, _, payload⟩
  constructor
  · refine (insnAt_congr fun x inside => outside x fun inBr => ?_).trans ldr
    have small : (x - funcAddr).toNat < 4 := inside
    have bounds := (inPart_iff (by decide : 4 + 4 ≤ 16)).mp inBr
    omega
  · exact insnAt_write (withLdr bytes funcAddr target) (funcAddr + 4) BR_X16
  · refine (wordAt_congr fun x inside => outside x fun inBr => ?_).trans payload
    have small := (inPart_iff (by decide : 8 + 8 ≤ 16)).mp inside
    have bounds := (inPart_iff (by decide : 4 + 4 ≤ 16)).mp inBr
    omega

/--
Whenever the processor looks between the writes: there is no `ldr` which was
not there, unless the address which it reads is the target; and no `br`, unless
the `ldr` stands before it.
-/
theorem payload_first (bytes : Bytes) (funcAddr target : Usize) (count : Nat) :
    let after := writes bytes ((hookWrites funcAddr target).take count)
    (insnAt after funcAddr = insnAt bytes funcAddr ∨
        insnAt after funcAddr = LDR_X16 ∧
          wordAt after (funcAddr + 8) = target) ∧
      (insnAt after (funcAddr + 4) = insnAt bytes (funcAddr + 4) ∨
        Trampoline after funcAddr target) := by
  rcases @insnAt_withLdr bytes funcAddr target with ⟨ldr, second, payload⟩
  rcases count with _ | _ | _ | count
  · exact ⟨.inl rfl, .inl rfl⟩
  · exact ⟨.inl insnAt_withPayload.1, .inl insnAt_withPayload.2⟩
  · exact ⟨.inr ⟨ldr, payload⟩, .inl second⟩
  · have whole :
        (hookWrites funcAddr target).take (count + 1 + 1 + 1) =
          hookWrites funcAddr target :=
      List.take_of_length_le (by simp [hookWrites])
    rw [whole]
    have trampoline := @trampoline_hookWrites bytes funcAddr target
    exact ⟨.inr ⟨trampoline.ldr, trampoline.payload⟩, .inr trampoline⟩

/-- A trampoline stays where none of its bytes is changed. -/
theorem trampoline_congr
    {other : Bytes}
    (agree : ∀ x, InRange funcAddr 16 x → other x = bytes x)
    (trampoline : Trampoline bytes funcAddr target) :
    Trampoline other funcAddr target := by
  constructor
  · refine (insnAt_congr fun x inside => ?_).trans trampoline.ldr
    exact agree x (inRange_mono inside (by decide))
  · refine (insnAt_congr fun x inside => ?_).trans trampoline.br
    exact agree x (inRange_of_offset inside (by decide))
  · refine (wordAt_congr fun x inside => ?_).trans trampoline.payload
    exact agree x (inRange_of_offset inside (by decide))

end Written

/-! ## Hooks over a run -/

/-- The functions of libc which are hooked. -/
inductive Hooked where
  | exit
  | execve
deriving DecidableEq, Repr

def Hooked.interceptor : Hooked → Interceptor
  | exit => .exit
  | execve => .execve

/-- The address space, and the `DONE` of each function. -/
structure Hooks where
  space : Space
  done : Hooked → Bool

/-- A hook is written, or the program stores a byte. -/
inductive Op where
  | hook (function : Hooked)
  | store (address : Usize) (byte : UInt8)

/-- One step; a store to a page which is not writable ends the run. -/
def step (platform : Platform) (original : Hooked → Option Usize)
    (hooks : Hooks) : Op → Option Hooks
  | .hook function =>
      some
        { space :=
            hookLibc platform hooks.space (hooks.done function)
              (original function) function.interceptor
          done := Function.update hooks.done function true }
  | .store address byte =>
      if (hooks.space.prot address).write then
        some { hooks with space := hooks.space.store address [byte] }
      else none

/-- Nothing has been hooked. -/
def Hooks.init (space : Space) : Hooks where
  space := space
  done := fun _ => false

/-- The hook of a function, on a page which is not writable. -/
structure IsHooked (space : Space) (funcAddr target : Usize) : Prop where
  trampoline : Trampoline space.bytes funcAddr target
  prot : ∀ x, InRange funcAddr 16 x → space.prot x = .rx

section Hooks

variable {platform : Platform} {space : Space} {funcAddr target : Usize}

/-- The 16 bytes from an address on are in its page and the one behind. -/
theorem inPages_of_inRange {x : Usize} (inside : InRange funcAddr 16 x) :
    InRange (pageOf funcAddr) 0x2000 x := by
  have page :
      (pageOf funcAddr).toNat = roundDown (2 ^ 12) funcAddr.toNat := by
    rw [← clearLow_eq (by decide : 12 ≤ 64) funcAddr.isLt, clearLow,
      BitVec.ofNat_toNat, BitVec.setWidth_eq]
    rfl
  have bound := funcAddr.isLt
  have other := x.isLt
  unfold InRange roundDown at *
  rw [BitVec.toNat_sub] at *
  omega

theorem writeInlineHook_of_succeeds (succeeds : Succeeds platform) :
    writeInlineHook platform space funcAddr target =
      { bytes := writes space.bytes (hookWrites funcAddr target)
        prot := fun x =>
          if InRange (pageOf funcAddr) 0x2000 x then .rx
          else space.prot x } := by
  have size : (0x2000 : Usize).toNat = 0x2000 := rfl
  unfold writeInlineHook mprotectMteAware
  simp only [succeeds _ _ _ _, if_true, size]
  rw [Space.mk.injEq]
  refine ⟨rfl, funext fun x => ?_⟩
  by_cases inside : InRange (pageOf funcAddr) 0x2000 x
  · rw [if_pos inside, if_pos inside]
  · rw [if_neg inside, if_neg inside]
    exact if_neg inside

/-- What is hooked is hooked as it should be. -/
def HooksHold (platform : Platform) (original : Hooked → Option Usize)
    (hooks : Hooks) : Prop :=
  ∀ function funcAddr, hooks.done function = true →
    original function = some funcAddr →
    IsHooked hooks.space funcAddr (platform.address function.interceptor)

/-- The first 16 bytes of the two functions do not overlap. -/
def Apart (original : Hooked → Option Usize) : Prop :=
  ∀ first second function other, first ≠ second →
    original first = some function → original second = some other →
    ∀ x, InRange function 16 x → ¬ InRange other 16 x

theorem hooksHold_hook
    {original : Hooked → Option Usize} {hooks : Hooks} {function : Hooked}
    (succeeds : Succeeds platform) (apart : Apart original)
    (hold : HooksHold platform original hooks) :
    HooksHold platform original
      { space :=
          hookLibc platform hooks.space (hooks.done function)
            (original function) function.interceptor
        done := Function.update hooks.done function true } := by
  intro other otherAddr done found
  by_cases same : other = function
  · subst same
    cases before : hooks.done other with
    | true => exact hold other otherAddr before found
    | false =>
        rw [found]
        show
          IsHooked
            (writeInlineHook platform hooks.space otherAddr
              (platform.address other.interceptor))
            otherAddr _
        rw [writeInlineHook_of_succeeds succeeds]
        exact
          ⟨trampoline_hookWrites,
            fun x inside => if_pos (inPages_of_inRange inside)⟩
  · have before : hooks.done other = true :=
      (Function.update_of_ne same ..).symm.trans done
    rcases hold other otherAddr before found with ⟨trampoline, prot⟩
    constructor
    · refine trampoline_congr (fun x inside => ?_) trampoline
      refine hookLibc_outside fun funcAddr isFound => ?_
      exact apart other function otherAddr funcAddr same found isFound x inside
    · intro x inside
      dsimp only
      unfold hookLibc
      split
      · rw [writeInlineHook_of_succeeds succeeds]
        dsimp only
        split
        · rfl
        · exact prot x inside
      · exact prot x inside

theorem hooksHold_step
    {original : Hooked → Option Usize}
    (succeeds : Succeeds platform) (apart : Apart original)
    (hooks : Hooks) (op : Op) (next : Hooks)
    (hold : HooksHold platform original hooks)
    (stepped : step platform original hooks op = some next) :
    HooksHold platform original next := by
  cases op with
  | hook function =>
      cases stepped
      exact hooksHold_hook succeeds apart hold
  | store address byte =>
      simp only [step] at stepped
      split at stepped
      · rename_i writable
        cases stepped
        intro function funcAddr done found
        rcases hold function funcAddr done found with ⟨trampoline, prot⟩
        refine ⟨trampoline_congr (fun x inside => ?_) trampoline, prot⟩
        apply write_outside
        intro stored
        have isStored : x = address := by
          have zero : (x - address).toNat = 0 := Nat.lt_one_iff.mp stored
          exact sub_eq_zero.mp (BitVec.eq_of_toNat_eq zero)
        rw [← isStored, prot x inside] at writable
        cases writable
      · cases stepped

theorem done_of_called
    {original : Hooked → Option Usize} {ops : List Op} {hooks final : Hooks}
    {function : Hooked}
    (reached : run (step platform original) hooks ops = some final)
    (called : .hook function ∈ ops ∨ hooks.done function = true) :
    final.done function = true := by
  induction ops generalizing hooks with
  | nil =>
      cases reached
      rcases called with called | done
      · cases called
      · exact done
  | cons op rest induction =>
      rcases run_cons_iff.mp reached with ⟨next, stepped, continued⟩
      refine induction continued ?_
      cases op with
      | hook other =>
          cases stepped
          by_cases same : function = other
          · exact .inr (same ▸ Function.update_self ..)
          · rcases called with called | done
            · refine .inl ((List.mem_cons.mp called).resolve_left ?_)
              rintro ⟨⟩
              exact same rfl
            · exact .inr ((Function.update_of_ne same ..).trans done)
      | store address byte =>
          simp only [step] at stepped
          split at stepped
          · cases stepped
            rcases called with called | done
            · refine .inl ((List.mem_cons.mp called).resolve_left ?_)
              rintro ⟨⟩
            · exact .inr done
          · cases stepped

end Hooks

/--
A function which has been hooked is hooked for good: whatever the program
stores, and whatever else is hooked, every call of it goes on at the
interceptor, with all registers but `x16` as they were.
-/
theorem hooked_for_good
    (platform : Platform) (succeeds : Succeeds platform)
    (original : Hooked → Option Usize) (apart : Apart original)
    (space : Space) (ops : List Op) (final : Hooks) (function : Hooked)
    (funcAddr : Usize)
    (reached :
      run (step platform original) (Hooks.init space) ops = some final)
    (called : .hook function ∈ ops)
    (found : original function = some funcAddr) :
    Redirects final.space.bytes funcAddr
      (platform.address function.interceptor) := by
  have hold : HooksHold platform original final := by
    refine
      invariant_of_run (hooksHold_step succeeds apart) ?_ reached
    rintro other otherAddr ⟨⟩
  have done := done_of_called reached (.inl called)
  exact redirects_of_trampoline (hold function funcAddr done found).trampoline

/-- Where `exit` and `execve` are found. -/
def someOriginal : Hooked → Option Usize
  | .exit => some 0x5000
  | .execve => some 0x6000

/-- The second hook does not undo the first one, and neither does a store. -/
theorem hooked_for_good_exit :
    ∃ final,
      run (step plainPlatform someOriginal)
          (Hooks.init ⟨fun _ => 0, fun _ => .rw⟩)
          [.hook .exit, .hook .execve, .store 0x9000 1, .hook .exit] =
        some final ∧
        Redirects final.space.bytes 0x5000 (plainPlatform.address .exit) := by
  have apart : Apart someOriginal := by
    rintro (_ | _) (_ | _) function other differs ⟨⟩ ⟨⟩ x inside
    · exact (differs rfl).elim
    · unfold InRange at *
      bv_omega
    · unfold InRange at *
      bv_omega
    · exact (differs rfl).elim
  refine ⟨_, rfl, ?_⟩
  exact
    hooked_for_good plainPlatform (fun _ _ _ _ => rfl) someOriginal apart
      ⟨fun _ => 0, fun _ => .rw⟩
      [.hook .exit, .hook .execve, .store 0x9000 1, .hook .exit] _ .exit
      0x5000 rfl List.mem_cons_self rfl

end Vproc.Exec.InlineHook
