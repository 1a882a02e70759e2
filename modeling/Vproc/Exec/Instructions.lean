import Vproc.Exec.Words

/-!
# A processor of `aarch64`

The instructions which the routines in assembly and the written code are made
of.  Those of one routine are executed one after the other up to a branch, so a
run of it is a fold.

Where the instructions are read from is a parameter: a routine is at a fixed
place, and what is written at run time is in the memory.
-/

namespace Vproc.Exec.Instructions

open Vproc.Lib.Memory
open Vproc.Exec.Elf
open Vproc.Exec.Words

/-! ## Instructions -/

/-- There are registers of both kinds. -/
instance neZeroRegistersX : NeZero 31 := ⟨by decide⟩

instance neZeroRegistersD : NeZero 32 := ⟨by decide⟩

/-- The registers, the address of the next instruction, and the memory. -/
structure Processor where
  x : Fin 31 → Usize
  sp : Usize
  d : Fin 32 → Usize
  pc : Usize
  bytes : Bytes

/-- An instruction; a `slot` is an offset of 16 bytes. -/
inductive Insn where
  | btiC
  | movFromSp (rd : Fin 31)
  | movToSp (rn : Fin 31)
  | mov (rd rm : Fin 31)
  | xpaci (rd : Fin 31)
  | stp (rt rt2 rn : Fin 31) (slot : Nat)
  | stpD (rt rt2 : Fin 32) (rn : Fin 31) (slot : Nat)
  | ldp (rt rt2 rn : Fin 31) (slot : Nat)
  | ldpD (rt rt2 : Fin 32) (rn : Fin 31) (slot : Nat)
  | ldrLiteral (rt : Fin 31) (offset : Nat)
  | br (rn : Fin 31)
  | ret
deriving DecidableEq, Repr

namespace Processor

variable (cpu : Processor)

/-- The next instruction is the one behind. -/
def advance : Processor :=
  { cpu with pc := cpu.pc + 4 }

def setX (rd : Fin 31) (value : Usize) : Processor :=
  { cpu with x := Function.update cpu.x rd value }

def setD (rd : Fin 32) (value : Usize) : Processor :=
  { cpu with d := Function.update cpu.d rd value }

/-- The address of a word in a slot. -/
def slotAddr (rn : Fin 31) (slot word : Nat) : Usize :=
  cpu.x rn + BitVec.ofNat 64 (8 * (2 * slot + word))

/-- Two words in a slot. -/
def storePair (rn : Fin 31) (slot : Nat) (first second : Usize) : Processor :=
  { cpu with
    bytes :=
      putWord (putWord cpu.bytes (cpu.slotAddr rn slot 0) first)
        (cpu.slotAddr rn slot 1) second }

/-- The word in a slot. -/
def slotWord (rn : Fin 31) (slot word : Nat) : Usize :=
  wordAt cpu.bytes (cpu.slotAddr rn slot word)

/-- One instruction; `xpaci` takes the authentication code off an address. -/
def execute (xpaci : Usize → Usize) : Insn → Processor
  | .btiC => cpu.advance
  | .movFromSp rd => (cpu.setX rd cpu.sp).advance
  | .movToSp rn => { cpu with sp := cpu.x rn }.advance
  | .mov rd rm => (cpu.setX rd (cpu.x rm)).advance
  | .xpaci rd => (cpu.setX rd (xpaci (cpu.x rd))).advance
  | .stp rt rt2 rn slot =>
      (cpu.storePair rn slot (cpu.x rt) (cpu.x rt2)).advance
  | .stpD rt rt2 rn slot =>
      (cpu.storePair rn slot (cpu.d rt) (cpu.d rt2)).advance
  | .ldp rt rt2 rn slot =>
      ((cpu.setX rt (cpu.slotWord rn slot 0)).setX rt2
        (cpu.slotWord rn slot 1)).advance
  | .ldpD rt rt2 rn slot =>
      ((cpu.setD rt (cpu.slotWord rn slot 0)).setD rt2
        (cpu.slotWord rn slot 1)).advance
  | .ldrLiteral rt offset =>
      (cpu.setX rt
        (wordAt cpu.bytes (cpu.pc + BitVec.ofNat 64 offset))).advance
  | .br rn => { cpu with pc := cpu.x rn }
  | .ret => { cpu with pc := cpu.x 30 }

/-- Instructions, one after the other. -/
def executeAll (xpaci : Usize → Usize) (insns : List Insn) : Processor :=
  insns.foldl (fun cpu insn => cpu.execute xpaci insn) cpu

end Processor

/-! ## Runs -/

/-- Where instructions are read from. -/
abbrev Fetch := Bytes → Usize → Option Insn

/-- A number of steps; none if there is no instruction. -/
def runs (fetch : Fetch) (xpaci : Usize → Usize) :
    Nat → Processor → Option Processor
  | 0, cpu => some cpu
  | count + 1, cpu =>
      (fetch cpu.bytes cpu.pc).bind fun insn =>
        runs fetch xpaci count (cpu.execute xpaci insn)

/-- The instructions are there, one after the other, whatever is stored. -/
def Installed (fetch : Fetch) : Usize → List Insn → Prop
  | _, [] => True
  | pc, insn :: rest =>
      (∀ bytes, fetch bytes pc = some insn) ∧ Installed fetch (pc + 4) rest

/-- Instructions at a fixed place. -/
def codeFrom (start : Usize) (insns : List Insn) : Fetch :=
  fun _ pc => insns[(pc - start).toNat / 4]?

/-- The next instruction is the one behind. -/
def Insn.isStraight : Insn → Bool
  | .br _ | .ret => false
  | _ => true

variable {fetch : Fetch} {xpaci : Usize → Usize}

theorem pc_execute
    {insn : Insn} (cpu : Processor) (straight : insn.isStraight = true) :
    (cpu.execute xpaci insn).pc = cpu.pc + 4 := by
  cases insn <;> first | rfl | cases straight

theorem runs_add (first second : Nat) (cpu : Processor) :
    runs fetch xpaci (first + second) cpu =
      (runs fetch xpaci first cpu).bind (runs fetch xpaci second) := by
  induction first generalizing cpu with
  | zero =>
      rw [Nat.zero_add]
      rfl
  | succ first induction =>
      rw [Nat.succ_add, runs, runs]
      cases fetch cpu.bytes cpu.pc with
      | none => rfl
      | some insn => exact induction _

theorem installed_codeFrom
    (start : Usize) {before insns : List Insn}
    (fits : 4 * (before ++ insns).length ≤ 2 ^ 64) :
    Installed (codeFrom start (before ++ insns))
      (start + BitVec.ofNat 64 (4 * before.length)) insns := by
  induction insns generalizing before with
  | nil => exact True.intro
  | cons insn rest induction =>
      rw [List.length_append, List.length_cons] at fits
      constructor
      · intro bytes
        show (before ++ insn :: rest)[_]? = some insn
        have index :
            (start + BitVec.ofNat 64 (4 * before.length) - start).toNat / 4 =
              before.length := by
          rw [add_sub_cancel_left, BitVec.toNat_ofNat,
            Nat.mod_eq_of_lt (by omega)]
          omega
        rw [index, List.getElem?_append_right le_rfl, Nat.sub_self]
        rfl
      · have behind :
            start + BitVec.ofNat 64 (4 * before.length) + 4 =
              start + BitVec.ofNat 64 (4 * (before ++ [insn]).length) := by
          rw [List.length_append, List.length_singleton, Nat.mul_succ,
            BitVec.ofNat_add, ← add_assoc]
          rfl
        have later := @induction (before ++ [insn])
        rw [List.append_assoc, List.singleton_append, ← behind] at later
        refine later ?_
        rw [List.length_append, List.length_cons]
        exact fits

/-- A routine is executed one instruction after the other, up to its last. -/
theorem runs_of_installed
    {insns : List Insn} {cpu : Processor}
    (installed : Installed fetch cpu.pc insns)
    (straight : ∀ insn ∈ insns.dropLast, insn.isStraight = true) :
    runs fetch xpaci insns.length cpu = some (cpu.executeAll xpaci insns) := by
  induction insns generalizing cpu with
  | nil => rfl
  | cons insn rest induction =>
      obtain ⟨here, later⟩ := installed
      rw [List.length_cons, runs, here]
      cases rest with
      | nil => rfl
      | cons next rest =>
          rw [List.dropLast_cons_cons] at straight
          have goesOn :=
            @pc_execute xpaci insn cpu
              (straight insn List.mem_cons_self)
          refine induction ?_ ?_
          · rw [goesOn]
            exact later
          · exact fun other member =>
              straight other (List.mem_cons_of_mem insn member)

end Vproc.Exec.Instructions
