import Vproc.Exec.LoadPie
import Vproc.Exec.Words

/-!
# The stack of a new program

`new_elf` puts what a program is started with at the top of its stack: the
number of arguments, the arguments and the environment with a null behind each,
and the auxiliary vector.  It computes the size of all this first and rounds it
up, so that the stack pointer is aligned, and then writes one word after the
other.

The program reads the words from its stack pointer on, and knows only from the
nulls and from `AT_NULL` where something ends.
-/

namespace Vproc.Exec.ElfStack

open Vproc.Lib.Memory
open Vproc.Lib.Alignment
open Vproc.Exec.Elf
open Vproc.Exec.ElfTables
open Vproc.Exec.LoadPie
open Vproc.Exec.Words

/-! ## The functions of the source -/

/-- `AT_NULL`. -/
def AT_NULL : Usize := 0

/-- `AT_PHDR`. -/
def AT_PHDR : Usize := 3

/-- `AT_PHENT`. -/
def AT_PHENT : Usize := 4

/-- `AT_PHNUM`. -/
def AT_PHNUM : Usize := 5

/-- `AT_PAGESZ`. -/
def AT_PAGESZ : Usize := 6

/-- `AT_BASE`. -/
def AT_BASE : Usize := 7

/-- `AT_ENTRY`. -/
def AT_ENTRY : Usize := 9

/-- `AT_HWCAP`. -/
def AT_HWCAP : Usize := 16

/-- `AT_RANDOM`. -/
def AT_RANDOM : Usize := 25

/-- A kind of the auxiliary vector with its value. -/
abbrev AuxPair := Usize × Usize

/-- `build_auxv`; the host gives the capabilities and the random bytes. -/
def buildAuxv (image : LoadedImage) (interpBase : Usize)
    (hwcap : Option Usize) (random : Usize) : List AuxPair :=
  [(AT_PHDR, .ofNat 64 image.phdrAddr),
    (AT_PHENT, image.phentsize.setWidth 64),
    (AT_PHNUM, image.phnum.setWidth 64),
    (AT_PAGESZ, .ofNat 64 PAGE_SIZE),
    (AT_ENTRY, .ofNat 64 image.entry),
    (AT_BASE, interpBase)] ++
  (hwcap.map fun value => (AT_HWCAP, value)).toList ++
  [(AT_RANDOM, random), (AT_NULL, 0)]

/-- The pointer `sp` of `new_elf`, with the writes so far. -/
structure StackWriter where
  sp : Usize
  written : List (Usize × List UInt8)

namespace StackWriter

/-- `write_unaligned(sp.add(i), value)`. -/
def write (writer : StackWriter) (i : Nat) (value : Usize) : StackWriter :=
  { writer with
    written :=
      writer.written ++
        [(writer.sp + BitVec.ofNat 64 (8 * i),
          numberBytes 8 value.toNat)] }

/-- `sp = sp.add(count)`. -/
def advance (writer : StackWriter) (count : Nat) : StackWriter :=
  { writer with sp := writer.sp + BitVec.ofNat 64 (8 * count) }

/-- A word, and on to the next. -/
def push (writer : StackWriter) (value : Usize) : StackWriter :=
  (writer.write 0 value).advance 1

/-- A pair of the auxiliary vector. -/
def pushPair (writer : StackWriter) (pair : AuxPair) : StackWriter :=
  ((writer.write 0 pair.1).write 1 pair.2).advance 2

end StackWriter

/-- The bytes which the data takes, before rounding. -/
def neededBytes (argv envp : List Usize) (auxv : List AuxPair) : Nat :=
  let argvSize := (argv.length + 1) * 8
  let envpSize := (envp.length + 1) * 8
  let auxvSize := auxv.length * 16
  8 + argvSize + envpSize + auxvSize

/-- `elf_data_size`. -/
def elfDataSize (argv envp : List Usize) (auxv : List AuxPair) : Nat :=
  clearLow 64 4 (neededBytes argv envp auxv + 15)

/-- The stack pointer which `new_elf` passes on, and what it writes. -/
structure ElfStart where
  sp : Usize
  written : List (Usize × List UInt8)

/-- `Coroutine::new_elf`, as to the stack. -/
def newElf (stackBase stackSize argc : Usize) (argv envp : List Usize)
    (auxv : List AuxPair) : ElfStart :=
  let stackTop := stackBase + stackSize
  let elfDataBottom :=
    stackTop - BitVec.ofNat 64 (elfDataSize argv envp auxv)
  let writer : StackWriter := { sp := elfDataBottom, written := [] }
  let writer := writer.push argc
  let writer := argv.foldl StackWriter.push writer
  let writer := writer.push 0
  let writer := envp.foldl StackWriter.push writer
  let writer := writer.push 0
  let writer := auxv.foldl StackWriter.pushPair writer
  { sp := elfDataBottom, written := writer.written }

/-! ## The program -/

/-- The pairs up to `AT_NULL`, at most `limit`. -/
def pairsFrom (bytes : Bytes) : Nat → Usize → Option (List AuxPair)
  | 0, _ => none
  | limit + 1, address =>
      let pair := (wordAt bytes address, wordAt bytes (address + 8))
      if pair.1 = AT_NULL then some [pair]
      else
        (pairsFrom bytes limit (address + 16)).map fun found =>
          pair :: found

/-- What a program is started with. -/
structure StartUp where
  argc : Usize
  argv : List Usize
  envp : List Usize
  auxv : List AuxPair
deriving DecidableEq, Repr

/-- The convention of the start-up code; no list is longer than the memory. -/
def decodeStack (bytes : Bytes) (sp : Usize) : Option StartUp := do
  let (argv, envStart) ← pointersFrom bytes (2 ^ 61) (sp + 8)
  let (envp, auxStart) ← pointersFrom bytes (2 ^ 61) envStart
  let auxv ← pairsFrom bytes (2 ^ 61) auxStart
  pure { argc := wordAt bytes sp, argv, envp, auxv }

/-- `AT_NULL` ends the vector, and stands nowhere else. -/
structure EndsAtNull (auxv : List AuxPair) : Prop where
  ends : auxv.getLast?.map Prod.fst = some AT_NULL
  others : ∀ pair ∈ auxv.dropLast, pair.1 ≠ AT_NULL

theorem split_of_endsAtNull
    {auxv : List AuxPair} (ends : EndsAtNull auxv) :
    ∃ value, auxv = auxv.dropLast ++ [(AT_NULL, value)] := by
  obtain ⟨⟨kind, value⟩, isLast, isNull⟩ :=
    Option.map_eq_some_iff.mp ends.ends
  have split := List.dropLast_append_getLast? _ isLast
  dsimp only at isNull
  subst isNull
  exact ⟨value, split.symm⟩

/-! ## One list of words -/

namespace StackWriter

/-- The writer after some words. -/
def extended (writer : StackWriter) (words : List Usize) : StackWriter where
  sp := writer.sp + BitVec.ofNat 64 (8 * words.length)
  written := writer.written ++ consecutive writer.sp words

theorem extended_extended
    (writer : StackWriter) (first second : List Usize) :
    (writer.extended first).extended second =
      writer.extended (first ++ second) := by
  simp only [extended, consecutive_append, List.length_append, Nat.mul_add,
    BitVec.ofNat_add, add_assoc, List.append_assoc]

theorem push_eq (writer : StackWriter) (value : Usize) :
    writer.push value = writer.extended [value] := by
  simp [push, write, advance, extended, consecutive]

theorem pushPair_eq (writer : StackWriter) (pair : AuxPair) :
    writer.pushPair pair = writer.extended [pair.1, pair.2] := by
  simp [pushPair, write, advance, extended, consecutive]

theorem foldl_push (writer : StackWriter) (words : List Usize) :
    words.foldl push writer = writer.extended words := by
  induction words generalizing writer with
  | nil => simp [extended, consecutive]
  | cons word rest induction =>
      rw [List.foldl_cons, induction, push_eq, extended_extended]
      rfl

/-- The words of an auxiliary vector. -/
def auxWords (auxv : List AuxPair) : List Usize :=
  auxv.flatMap fun pair => [pair.1, pair.2]

theorem foldl_pushPair (writer : StackWriter) (auxv : List AuxPair) :
    auxv.foldl pushPair writer = writer.extended (auxWords auxv) := by
  induction auxv generalizing writer with
  | nil => simp [extended, consecutive, auxWords]
  | cons pair rest induction =>
      rw [List.foldl_cons, induction, pushPair_eq, extended_extended]
      rfl

end StackWriter

open StackWriter

theorem length_auxWords (auxv : List AuxPair) :
    (auxWords auxv).length = 2 * auxv.length := by
  simp [auxWords, Nat.mul_comm]

/-- All words which `new_elf` writes. -/
def stackWords (argc : Usize) (argv envp : List Usize)
    (auxv : List AuxPair) : List Usize :=
  argc :: (argv ++ 0 :: (envp ++ 0 :: auxWords auxv))

theorem length_stackWords
    (argc : Usize) (argv envp : List Usize) (auxv : List AuxPair) :
    8 * (stackWords argc argv envp auxv).length =
      neededBytes argv envp auxv := by
  simp only [stackWords, neededBytes, List.length_cons, List.length_append,
    length_auxWords]
  omega

/-- The four loops write one list of words. -/
theorem written_newElf
    (stackBase stackSize argc : Usize) (argv envp : List Usize)
    (auxv : List AuxPair) :
    (newElf stackBase stackSize argc argv envp auxv).written =
      consecutive (newElf stackBase stackSize argc argv envp auxv).sp
        (stackWords argc argv envp auxv) := by
  simp only [newElf, foldl_push, foldl_pushPair, push_eq,
    extended_extended]
  simp [extended, stackWords]

/-! ## Reading up to the ends -/

/-- Pairs are read up to `AT_NULL`. -/
theorem pairsFrom_of_holds
    {bytes : Bytes} {start value : Usize} {front : List AuxPair}
    {limit : Nat}
    (holds : Holds bytes start (auxWords (front ++ [(AT_NULL, value)])))
    (others : ∀ pair ∈ front, pair.1 ≠ AT_NULL)
    (enough : front.length < limit) :
    pairsFrom bytes limit start = some (front ++ [(AT_NULL, value)]) := by
  induction front generalizing start limit with
  | nil =>
      obtain ⟨limit, rfl⟩ := Nat.exists_eq_add_of_lt enough
      obtain ⟨isNull, isValue, _⟩ := holds
      simp only [pairsFrom]
      rw [isNull, isValue, if_pos rfl]
      rfl
  | cons pair rest induction =>
      rw [List.length_cons] at enough
      cases limit with
      | zero => omega
      | succ limit =>
          obtain ⟨isKind, isValue, later⟩ := holds
          have next : start + 8 + 8 = start + 16 := add_assoc start 8 8
          rw [next] at later
          have found :=
            @induction (start + 16) limit later
              (fun other member =>
                others other (List.mem_cons_of_mem pair member))
              (by omega)
          simp only [pairsFrom]
          rw [isKind, isValue,
            if_neg (others pair List.mem_cons_self), found]
          rfl

/-! ## The start of a program -/

section Start

variable {stackBase stackSize argc : Usize} {argv envp : List Usize}
  {auxv : List AuxPair}

/-- The data is in the stack, and so is the rounding. -/
theorem elfDataSize_spec
    (size : stackSize.toNat % 16 = 0)
    (roomy : neededBytes argv envp auxv ≤ stackSize.toNat) :
    neededBytes argv envp auxv ≤ elfDataSize argv envp auxv ∧
      elfDataSize argv envp auxv ≤ stackSize.toNat ∧
      elfDataSize argv envp auxv % 16 = 0 := by
  have bound := stackSize.isLt
  have rounded :
      elfDataSize argv envp auxv =
        (neededBytes argv envp auxv + 15) / 16 * 16 :=
    clearLow_eq (by decide) (by omega)
  rw [rounded]
  omega

/-- The stack pointer and the top of the stack. -/
theorem sp_spec
    (base : stackBase.toNat % 16 = 0) (size : stackSize.toNat % 16 = 0)
    (roomy : neededBytes argv envp auxv ≤ stackSize.toNat) :
    (newElf stackBase stackSize argc argv envp auxv).sp.toNat % 16 = 0 ∧
      (stackBase + stackSize -
          (newElf stackBase stackSize argc argv envp auxv).sp).toNat =
        elfDataSize argv envp auxv := by
  obtain ⟨_, fits, aligned⟩ := elfDataSize_spec size roomy
  have bound := stackSize.isLt
  constructor
  · simp only [newElf, BitVec.toNat_sub, BitVec.toNat_add,
      BitVec.toNat_ofNat]
    omega
  · simp only [newElf]
    rw [sub_sub_cancel, BitVec.toNat_ofNat, Nat.mod_eq_of_lt (by omega)]

/--
What `new_elf` writes is read as what it was given, from an aligned stack
pointer in the stack; every write is between this pointer and the top.
-/
theorem decodeStack_newElf
    (bytes : Bytes) (stackBase stackSize argc : Usize)
    (argv envp : List Usize) (auxv : List AuxPair)
    (argvNotNull : ∀ arg ∈ argv, arg ≠ 0)
    (count : argc.toNat = argv.length)
    (envpNotNull : ∀ env ∈ envp, env ≠ 0)
    (ends : EndsAtNull auxv)
    (base : stackBase.toNat % 16 = 0) (size : stackSize.toNat % 16 = 0)
    (roomy : neededBytes argv envp auxv ≤ stackSize.toNat) :
    let start := newElf stackBase stackSize argc argv envp auxv
    let stackTop := stackBase + stackSize
    decodeStack (writes bytes start.written) start.sp =
        some { argc, argv, envp, auxv } ∧
      start.sp.toNat % 16 = 0 ∧
      (stackTop - start.sp).toNat ≤ stackSize.toNat ∧
      ∀ address, Written start.written address →
        InRange start.sp (stackTop - start.sp).toNat address := by
  intro start stackTop
  have bound := stackSize.isLt
  obtain ⟨needed, fits, _⟩ := elfDataSize_spec size roomy
  obtain ⟨aligned, distance⟩ :=
    @sp_spec stackBase stackSize argc argv envp auxv base size roomy
  have whole := length_stackWords argc argv envp auxv
  have lengths :
      argv.length < 2 ^ 61 ∧ envp.length < 2 ^ 61 ∧
        auxv.length < 2 ^ 61 := by
    simp only [neededBytes] at roomy
    omega
  have written :
      start.written =
        consecutive start.sp (stackWords argc argv envp auxv) :=
    written_newElf stackBase stackSize argc argv envp auxv
  refine ⟨?_, aligned, ?_, ?_⟩
  · have holds :
        Holds (writes bytes start.written) start.sp
          (stackWords argc argv envp auxv) := by
      rw [written]
      exact holds_consecutive bytes start.sp (by omega)
    obtain ⟨isArgc, behindArgc⟩ := holds
    obtain ⟨foundArgv, behindArgv⟩ :=
      pointersFrom_of_holds behindArgc argvNotNull lengths.1
    obtain ⟨foundEnvp, behindEnvp⟩ :=
      pointersFrom_of_holds behindArgv envpNotNull lengths.2.1
    obtain ⟨value, split⟩ := split_of_endsAtNull ends
    rw [split] at behindEnvp
    have few : auxv.dropLast.length < 2 ^ 61 := by
      rw [List.length_dropLast]
      omega
    have foundAuxv := pairsFrom_of_holds behindEnvp ends.others few
    rw [← split] at foundAuxv
    rw [decodeStack, foundArgv]
    simp only [Option.bind_eq_bind, Option.bind_some]
    rw [foundEnvp]
    simp only [Option.bind_some]
    rw [foundAuxv, isArgc]
    rfl
  · rw [distance]
    exact fits
  · intro address inside
    rw [written] at inside
    rw [distance]
    refine inRange_mono (inRange_of_consecutive inside) ?_
    omega

end Start

/-- Two arguments and one variable, on a stack of 4096 bytes. -/
theorem decodeStack_newElf_two :
    decodeStack
        (writes (fun _ => 0)
          (newElf 0x10000 4096 2 [0x500, 0x510] [0x520]
            [(AT_PAGESZ, 4096), (AT_NULL, 0)]).written)
        0x10fb0 =
      some
        { argc := 2
          argv := [0x500, 0x510]
          envp := [0x520]
          auxv := [(AT_PAGESZ, 4096), (AT_NULL, 0)] } := by
  have holds :=
    decodeStack_newElf (fun _ => 0) 0x10000 4096 2 [0x500, 0x510] [0x520]
      [(AT_PAGESZ, 4096), (AT_NULL, 0)] (by simp) rfl (by simp)
      ⟨rfl, by simp [AT_PAGESZ, AT_NULL]⟩ rfl rfl (by simp [neededBytes])
  exact holds.1

end Vproc.Exec.ElfStack
