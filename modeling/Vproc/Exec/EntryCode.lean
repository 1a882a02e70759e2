import Vproc.Exec.Elf

/-!
# The address of `main` in the entry code

`_start` loads the address of `main` from the global offset table: `adrp` gives
the page, an optional `add` goes on inside it, and `ldr` reads from behind it.
`extract_main_addr` looks for these instructions and computes where they read.

The immediate of `adrp` counts pages and has 21 bits, two of them apart from the
others.  `decode_adrp` puts them together and extends the sign of 20 bits, so it
is right for half of the immediates: those within 2 GiB.
-/

namespace Vproc.Exec.EntryCode

open Vproc.Exec.Elf

/-! ## The functions of the source -/

/-- `decode_adrp`. -/
def decodeAdrp (pc : Usize) (insn : BitVec 32) : Usize :=
  let immlo := (insn >>> 29) &&& 0x3
  let immhi := (insn >>> 5) &&& 0x7FFFF
  let imm := (immhi <<< 2) ||| immlo
  let imm := (imm <<< 12).sshiftRight 12
  (pc &&& ~~~(0xFFF : Usize)) + (imm.signExtend 64 <<< 12)

/-- `ldr x2, [xN, #imm12]`. -/
def isLdrX2 (insn : BitVec 32) : Bool :=
  insn &&& 0xFFC0001F == 0xF9400002

/-- The register at bits 5 to 9. -/
def baseOf (insn : BitVec 32) : BitVec 32 :=
  (insn >>> 5) &&& 0x1F

/-- The immediate at bits 10 to 21. -/
def imm12 (insn : BitVec 32) : BitVec 32 :=
  (insn >>> 10) &&& 0xFFF

/-- `adrp xN`. -/
def isAdrpTo (rn insn : BitVec 32) : Bool :=
  insn &&& 0x9F000000 == 0x90000000 && insn &&& 0x1F == rn

/-- `add xN, xN, #imm12`. -/
def isAddTo (rn insn : BitVec 32) : Bool :=
  insn &&& 0xFFC00000 == 0x91000000 && insn &&& 0x1F == rn &&
    baseOf insn == rn

/-- The addend after one more instruction. -/
def addendStep (rn : BitVec 32) (addend : Usize) (mid : BitVec 32) : Usize :=
  if isAddTo rn mid then (imm12 mid).setWidth 64 else addend

/-- The immediate of the last `add` among some instructions. -/
def addendOf (rn : BitVec 32) (insns : List (BitVec 32)) : Usize :=
  insns.foldl (addendStep rn) 0

/-- The `got_addr` of the `adrp` at index `j` and the `ldr` at index `i`. -/
def gotAddr (code : Nat → BitVec 32) (entry : Usize) (j i : Nat) : Usize :=
  let adrpPage := decodeAdrp (entry + BitVec.ofNat 64 (j * 4)) (code j)
  let between := (List.range' (j + 1) (i - (j + 1))).map code
  adrpPage + addendOf (baseOf (code i)) between +
    (imm12 (code i)).setWidth 64 * 8

/-- The instruction with an index. -/
def codeAt (bytes : Bytes) (entry : Usize) (i : Nat) : BitVec 32 :=
  BitVec.ofNat 32
    (readUnaligned bytes (entry + BitVec.ofNat 64 (i * 4)) 4)

/-- An address which `extract_main_addr` takes for `main`. -/
def acceptMain (mainAddr : Usize) : Option Usize :=
  if mainAddr ≠ 0 ∧ mainAddr.toNat % 4 = 0 then some mainAddr else none

/-- `extract_main_addr`. -/
def extractMainAddr (bytes : Bytes) (entry : Usize) : Option Usize :=
  let code := codeAt bytes entry
  (List.range 48).findSome? fun i =>
    if isLdrX2 (code i) then
      (List.range i).reverse.findSome? fun j =>
        if isAdrpTo (baseOf (code i)) (code j) then
          acceptMain
            (BitVec.ofNat 64
              (readUnaligned bytes (gotAddr code entry j i) 8))
        else none
    else none

/-! ## The processor -/

/-- The number of a register. -/
abbrev Reg := BitVec 5

/-- The word of `adrp`. -/
def encodeAdrp (rd : Reg) (offset : Int) : BitVec 32 :=
  let imm := BitVec.ofInt 21 offset
  1#1 ++ imm.extractLsb' 0 2 ++ 0b10000#5 ++ imm.extractLsb' 2 19 ++ rd

/-- The word of `add xN, xN, #imm`. -/
def encodeAdd (rn : Reg) (imm : BitVec 12) : BitVec 32 :=
  0b1001000100#10 ++ imm ++ rn ++ rn

/-- The word of `ldr x2, [xN, #imm]`. -/
def encodeLdrX2 (rn : Reg) (imm : BitVec 12) : BitVec 32 :=
  0b1111100101#10 ++ imm ++ rn ++ 2#5

/-- An instruction, as to the register `xN`; any other one leaves it alone. -/
inductive Insn where
  | adrp (offset : Int)
  | add (imm : BitVec 12)
  | other (word : BitVec 32)
deriving DecidableEq, Repr

namespace Insn

/-- The word of an instruction. -/
def encode (rn : Reg) : Insn → BitVec 32
  | adrp offset => encodeAdrp rn offset
  | add imm => encodeAdd rn imm
  | other word => word

/-- The register after an instruction. -/
def execute (pc base : Usize) : Insn → Usize
  | adrp offset =>
      (pc &&& ~~~(0xFFF : Usize)) + BitVec.ofInt 64 (4096 * offset)
  | add imm => base + imm.setWidth 64
  | other _ => base

/-- The register after several instructions. -/
def executeAll (pc base : Usize) : List Insn → Usize
  | [] => base
  | insn :: rest => executeAll (pc + 4) (insn.execute pc base) rest

end Insn

/--
The instructions from the `adrp` to the `ldr`.  Those between them leave the
register alone, except for an `add` if there is one.
-/
structure EntrySequence (rn : Reg) (offset : Int) where
  before : List (BitVec 32)
  add : Option (BitVec 12)
  after : List (BitVec 32)
  imm : BitVec 12
  quiet : ∀ word ∈ before ++ after,
    isAddTo (rn.setWidth 32) word = false

namespace EntrySequence

variable {rn : Reg} {offset : Int} (sequence : EntrySequence rn offset)

/-- What stands between the `adrp` and the `ldr`. -/
def between : List Insn :=
  sequence.before.map Insn.other ++
    ((sequence.add.map Insn.add).toList ++
      sequence.after.map Insn.other)

/-- The words of the sequence. -/
def words : List (BitVec 32) :=
  encodeAdrp rn offset ::
    (sequence.between.map (Insn.encode rn) ++
      [encodeLdrX2 rn sequence.imm])

/-- The address from which the processor loads. -/
def loadedFrom (pc : Usize) : Usize :=
  Insn.executeAll pc 0 (.adrp offset :: sequence.between) +
    sequence.imm.setWidth 64 * 8

/-- The sequence stands in the code from an index on. -/
def LiesAt (code : Nat → BitVec 32) (j : Nat) : Prop :=
  (List.range' j sequence.words.length).map code = sequence.words

end EntrySequence

/-! ## Fields of a word -/

theorem toNat_append
    {m n : Nat} (high : BitVec m) (low : BitVec n) :
    (high ++ low).toNat = 2 ^ n * high.toNat + low.toNat := by
  rw [BitVec.toNat_append, Nat.shiftLeft_eq, Nat.mul_comm,
    Nat.two_pow_add_eq_or_of_lt low.isLt]

/-- The field of a word at a bit, cut out with a mask. -/
theorem toNat_field (insn : BitVec 32) (bit : Nat) {bits : Nat}
    (fits : bits < 32) :
    ((insn >>> bit) &&& BitVec.ofNat 32 (2 ^ bits - 1)).toNat =
      insn.toNat / 2 ^ bit % 2 ^ bits := by
  have mask : 2 ^ bits - 1 < 2 ^ 32 :=
    (Nat.sub_lt (Nat.two_pow_pos bits) Nat.one_pos).trans
      (Nat.pow_lt_pow_right (by decide) fits)
  rw [BitVec.toNat_and, BitVec.toNat_ushiftRight,
    Nat.shiftRight_eq_div_pow, BitVec.toNat_ofNat, Nat.mod_eq_of_lt mask,
    Nat.and_two_pow_sub_one_eq_mod]

/-- An immediate is widened twice. -/
theorem setWidth_immediate (imm : BitVec 12) :
    (imm.setWidth 32).setWidth 64 = imm.setWidth 64 := by
  have bound := imm.isLt
  apply BitVec.eq_of_toNat_eq
  rw [BitVec.toNat_setWidth, BitVec.toNat_setWidth, BitVec.toNat_setWidth]
  omega

theorem toNat_lowest (insn : BitVec 32) :
    (insn &&& 0x1F).toNat = insn.toNat % 2 ^ 5 := by
  rw [BitVec.toNat_and]
  exact Nat.and_two_pow_sub_one_eq_mod _ 5

/-- The fields of a word which ends in a field of 12 and two of 5 bits. -/
theorem fields_of_append
    (opcode : BitVec 10) (imm : BitVec 12) (rn rd : Reg) :
    baseOf (opcode ++ imm ++ rn ++ rd) = rn.setWidth 32 ∧
      imm12 (opcode ++ imm ++ rn ++ rd) = imm.setWidth 32 ∧
      (opcode ++ imm ++ rn ++ rd) &&& 0x1F = rd.setWidth 32 := by
  have whole :
      (opcode ++ imm ++ rn ++ rd).toNat =
        2 ^ 5 * (2 ^ 5 * (2 ^ 12 * opcode.toNat + imm.toNat) + rn.toNat) +
          rd.toNat := by
    rw [toNat_append, toNat_append, toNat_append]
  have immBound := imm.isLt
  have rnBound := rn.isLt
  have rdBound := rd.isLt
  refine ⟨?_, ?_, ?_⟩ <;> apply BitVec.eq_of_toNat_eq
  · refine (toNat_field _ 5 (by decide : 5 < 32)).trans ?_
    rw [whole, BitVec.toNat_setWidth]
    omega
  · refine (toNat_field _ 10 (by decide : 12 < 32)).trans ?_
    rw [whole, BitVec.toNat_setWidth]
    omega
  · rw [toNat_lowest, whole, BitVec.toNat_setWidth]
    omega

theorem isLdrX2_encode (rn : Reg) (imm : BitVec 12) :
    isLdrX2 (encodeLdrX2 rn imm) = true := by
  have mask :
      (0xFFC0001F : BitVec 32) = 0x3FF#10 ++ 0#12 ++ 0#5 ++ 0x1F#5 := by
    decide
  rw [isLdrX2, beq_iff_eq, encodeLdrX2, mask, BitVec.and_append,
    BitVec.and_append, BitVec.and_append, BitVec.and_zero, BitVec.and_zero]
  decide

theorem isAddTo_encode (rn : Reg) (imm : BitVec 12) :
    isAddTo (rn.setWidth 32) (encodeAdd rn imm) = true := by
  have mask :
      (0xFFC00000 : BitVec 32) = 0x3FF#10 ++ 0#12 ++ 0#5 ++ 0#5 := by
    decide
  have opcode : encodeAdd rn imm &&& 0xFFC00000 = 0x91000000 := by
    rw [encodeAdd, mask, BitVec.and_append, BitVec.and_append,
      BitVec.and_append, BitVec.and_zero, BitVec.and_zero]
    decide
  obtain ⟨base, _, target⟩ := fields_of_append 0b1001000100#10 imm rn rn
  rw [isAddTo, opcode, encodeAdd, base, target]
  simp

theorem isAdrpTo_encode (rn : Reg) (offset : Int) :
    isAdrpTo (rn.setWidth 32) (encodeAdrp rn offset) = true := by
  have mask :
      (0x9F000000 : BitVec 32) =
        1#1 ++ 0#2 ++ 0x1F#5 ++ 0#19 ++ 0#5 := by
    decide
  have opcode : encodeAdrp rn offset &&& 0x9F000000 = 0x90000000 := by
    rw [encodeAdrp, mask, BitVec.and_append, BitVec.and_append,
      BitVec.and_append, BitVec.and_append, BitVec.and_zero,
      BitVec.and_zero, BitVec.and_zero]
    decide
  have target : encodeAdrp rn offset &&& 0x1F = rn.setWidth 32 := by
    apply BitVec.eq_of_toNat_eq
    have bound := rn.isLt
    rw [toNat_lowest, encodeAdrp, toNat_append, BitVec.toNat_setWidth]
    omega
  rw [isAdrpTo, opcode, target]
  simp

/-! ## The immediate of `adrp` -/

/-- The two parts of the immediate, put together. -/
theorem toNat_immediate (rd : Reg) (offset : Int) :
    (((encodeAdrp rd offset >>> 5) &&& 0x7FFFF) <<< 2 |||
        (encodeAdrp rd offset >>> 29) &&& 0x3).toNat =
      (BitVec.ofInt 21 offset).toNat := by
  have whole :
      (encodeAdrp rd offset).toNat =
        2 ^ 5 *
          (2 ^ 19 *
              (2 ^ 5 * (4 + (BitVec.ofInt 21 offset).toNat % 4) + 16) +
            (BitVec.ofInt 21 offset).toNat / 4) + rd.toNat := by
    simp only [encodeAdrp, toNat_append, BitVec.extractLsb'_toNat,
      Nat.shiftRight_eq_div_pow, BitVec.toNat_ofNat]
    omega
  have small := (BitVec.ofInt 21 offset).isLt
  have bound := rd.isLt
  generalize encodeAdrp rd offset = insn at *
  generalize (BitVec.ofInt 21 offset).toNat = imm at *
  have immlo : ((insn >>> 29) &&& 0x3).toNat = imm % 4 := by
    have quotient : insn.toNat / 2 ^ 29 = 4 + imm % 4 := by omega
    refine (toNat_field insn 29 (by decide : 2 < 32)).trans ?_
    rw [quotient]
    omega
  have immhi : ((insn >>> 5) &&& 0x7FFFF).toNat = imm / 4 := by
    have quotient :
        insn.toNat / 2 ^ 5 =
          2 ^ 19 * (2 ^ 5 * (4 + imm % 4) + 16) + imm / 4 := by
      omega
    refine (toNat_field insn 5 (by decide : 19 < 32)).trans ?_
    rw [quotient, Nat.mul_add_mod, Nat.mod_eq_of_lt (by omega)]
  have shifted :
      (((insn >>> 5) &&& 0x7FFFF) <<< 2).toNat = 2 ^ 2 * (imm / 4) := by
    rw [BitVec.toNat_shiftLeft, immhi, Nat.shiftLeft_eq]
    omega
  rw [BitVec.toNat_or, shifted, immlo,
    ← Nat.two_pow_add_eq_or_of_lt (by omega)]
  exact Nat.div_add_mod imm 4

/-- `decode_adrp` reads back an `adrp`, with 20 bits of its immediate. -/
theorem decodeAdrp_encodeAdrp (pc : Usize) (rd : Reg) (offset : Int) :
    decodeAdrp pc (encodeAdrp rd offset) =
      (pc &&& ~~~(0xFFF : Usize)) +
        BitVec.ofInt 64 (4096 * offset.bmod (2 ^ 20)) := by
  have imm := toNat_immediate rd offset
  simp only [decodeAdrp]
  generalize
    ((encodeAdrp rd offset >>> 5 &&& 0x7FFFF#32) <<< 2 |||
      encodeAdrp rd offset >>> 29 &&& 0x3#32) = word at imm ⊢
  have signed :
      ((word <<< 12).sshiftRight 12).toInt = offset.bmod (2 ^ 20) := by
    rw [BitVec.toInt_sshiftRight, BitVec.toInt_shiftLeft, imm,
      BitVec.toNat_ofInt, Int.shiftRight_eq_div_pow]
    simp only [Nat.shiftLeft_eq, Int.bmod]
    push_cast
    omega
  have extended :
      ((word <<< 12).sshiftRight 12).signExtend 64 =
        BitVec.ofInt 64 (offset.bmod (2 ^ 20)) :=
    congrArg (BitVec.ofInt 64) signed
  have scale : BitVec.twoPow 64 12 = BitVec.ofInt 64 4096 := by decide
  rw [extended, BitVec.shiftLeft_eq_mul_twoPow, scale, ← BitVec.ofInt_mul,
    Int.mul_comm]

/-- The 20 bits are enough for an offset within 2 GiB, and for no other. -/
theorem page_eq_iff
    (page : Usize) {offset : Int}
    (low : -2 ^ 20 ≤ offset) (high : offset < 2 ^ 20) :
    page + BitVec.ofInt 64 (4096 * offset.bmod (2 ^ 20)) =
        page + BitVec.ofInt 64 (4096 * offset) ↔
      -2 ^ 19 ≤ offset ∧ offset < 2 ^ 19 := by
  have reduced :
      offset.bmod (2 ^ 20) = offset ↔
        -2 ^ 19 ≤ offset ∧ offset < 2 ^ 19 := by
    simp only [Int.bmod]
    push_cast
    omega
  rw [← reduced]
  constructor
  · intro same
    have sameInt := congrArg BitVec.toInt (add_left_cancel same)
    have least := @Int.le_bmod offset (2 ^ 20) (by decide)
    have most := @Int.bmod_lt offset (2 ^ 20) (by decide)
    rw [BitVec.toInt_ofInt_eq_self (by decide) (by omega) (by omega),
      BitVec.toInt_ofInt_eq_self (by decide) (by omega) (by omega)]
      at sameInt
    omega
  · intro same
    rw [same]

/-! ## The address of the load -/

/-- Instructions which are no such `add` do not change the addend. -/
theorem foldl_addendStep_of_quiet
    {rn : BitVec 32} {insns : List (BitVec 32)}
    (quiet : ∀ word ∈ insns, isAddTo rn word = false) (addend : Usize) :
    insns.foldl (addendStep rn) addend = addend := by
  induction insns with
  | nil => rfl
  | cons word rest induction =>
      have first : addendStep rn addend word = addend := by
        rw [addendStep, quiet word List.mem_cons_self,
          if_neg Bool.false_ne_true]
      rw [List.foldl_cons, first]
      exact
        induction fun other member =>
          quiet other (List.mem_cons_of_mem word member)

theorem executeAll_append
    (first second : List Insn) (pc base : Usize) :
    ∃ later,
      Insn.executeAll pc base (first ++ second) =
        Insn.executeAll later (Insn.executeAll pc base first) second := by
  induction first generalizing pc base with
  | nil => exact ⟨pc, rfl⟩
  | cons insn rest induction =>
      exact induction (pc + 4) (insn.execute pc base)

theorem executeAll_others
    (words : List (BitVec 32)) (pc base : Usize) :
    Insn.executeAll pc base (words.map Insn.other) = base := by
  induction words generalizing pc with
  | nil => rfl
  | cons word rest induction => exact induction (pc + 4)

namespace EntrySequence

variable {rn : Reg} {offset : Int} (sequence : EntrySequence rn offset)

/-- What the `add` adds, if there is one. -/
def added : Usize :=
  (sequence.add.map (BitVec.setWidth 64)).getD 0

theorem executeAll_between (pc base : Usize) :
    Insn.executeAll pc base sequence.between = base + sequence.added := by
  obtain ⟨afterBefore, splitBefore⟩ :=
    executeAll_append (sequence.before.map Insn.other)
      ((sequence.add.map Insn.add).toList ++
        sequence.after.map Insn.other) pc base
  obtain ⟨afterAdd, splitAdd⟩ :=
    executeAll_append (sequence.add.map Insn.add).toList
      (sequence.after.map Insn.other) afterBefore base
  rw [between, splitBefore, executeAll_others, splitAdd,
    executeAll_others, added]
  cases sequence.add with
  | none => exact (BitVec.add_zero base).symm
  | some imm => rfl

theorem loadedFrom_eq (pc : Usize) :
    sequence.loadedFrom pc =
      (pc &&& ~~~(0xFFF : Usize)) + BitVec.ofInt 64 (4096 * offset) +
        sequence.added + sequence.imm.setWidth 64 * 8 := by
  rw [loadedFrom, Insn.executeAll, executeAll_between, Insn.execute]

theorem encode_others (words : List (BitVec 32)) :
    (words.map Insn.other).map (Insn.encode rn) = words := by
  rw [List.map_map]
  exact List.map_id words

theorem addendOf_between :
    addendOf (rn.setWidth 32) (sequence.between.map (Insn.encode rn)) =
      sequence.added := by
  have quiet := sequence.quiet
  have quietBefore (word : BitVec 32) (member : word ∈ sequence.before) :=
    quiet word (List.mem_append_left _ member)
  have quietAfter (word : BitVec 32) (member : word ∈ sequence.after) :=
    quiet word (List.mem_append_right _ member)
  rw [addendOf, between, List.map_append, List.map_append, encode_others,
    encode_others, List.foldl_append, List.foldl_append,
    foldl_addendStep_of_quiet quietBefore,
    foldl_addendStep_of_quiet quietAfter, added]
  cases sequence.add with
  | none => rfl
  | some imm =>
      have immediate : imm12 (encodeAdd rn imm) = imm.setWidth 32 :=
        (fields_of_append 0b1001000100#10 imm rn rn).2.1
      have step :
          addendStep (rn.setWidth 32) 0 (encodeAdd rn imm) =
            imm.setWidth 64 := by
        rw [addendStep, isAddTo_encode, if_pos rfl, immediate,
          setWidth_immediate]
      exact step

/-- The index of the `ldr`. -/
def ldrIndex (j : Nat) : Nat :=
  j + 1 + sequence.between.length

/-- The parts of the sequence, where it stands in the code. -/
theorem parts_of_liesAt
    {code : Nat → BitVec 32} {j : Nat} (lies : sequence.LiesAt code j) :
    code j = encodeAdrp rn offset ∧
      (List.range' (j + 1) sequence.between.length).map code =
        sequence.between.map (Insn.encode rn) ∧
      code (sequence.ldrIndex j) = encodeLdrX2 rn sequence.imm := by
  have count :
      sequence.words.length = sequence.between.length + 1 + 1 := by
    simp [words]
  rw [LiesAt, count, words, List.range'_succ, List.range'_1_concat,
    List.map_cons, List.map_append, List.cons.injEq] at lies
  obtain ⟨same, ldr⟩ :=
    List.append_inj lies.2 (by rw [List.length_map, List.length_map,
      List.length_range'])
  exact ⟨lies.1, same, (List.cons.inj ldr).1⟩

/-- Where `extract_main_addr` reads for a sequence in the code. -/
theorem gotAddr_of_liesAt
    {code : Nat → BitVec 32} {entry : Usize} {j : Nat}
    (lies : sequence.LiesAt code j) :
    gotAddr code entry j (sequence.ldrIndex j) =
      decodeAdrp (entry + BitVec.ofNat 64 (j * 4)) (encodeAdrp rn offset) +
        sequence.added + sequence.imm.setWidth 64 * 8 := by
  obtain ⟨adrp, between, ldr⟩ := sequence.parts_of_liesAt lies
  obtain ⟨base, immediate, _⟩ :=
    fields_of_append 0b1111100101#10 sequence.imm rn 2#5
  have isBase : baseOf (encodeLdrX2 rn sequence.imm) = rn.setWidth 32 := base
  have isImm :
      imm12 (encodeLdrX2 rn sequence.imm) = sequence.imm.setWidth 32 :=
    immediate
  have count : sequence.ldrIndex j - (j + 1) = sequence.between.length :=
    Nat.add_sub_cancel_left (j + 1) _
  simp only [gotAddr]
  rw [adrp, ldr, count, between, isBase, isImm, addendOf_between,
    setWidth_immediate]

end EntrySequence

/-! ## The search -/

/-- A search upwards ends at the first number which gives something. -/
theorem findSome?_range
    {Value : Type} {f : Nat → Option Value} {count i : Nat} {value : Value}
    (inside : i < count) (found : f i = some value)
    (before : ∀ k < i, f k = none) :
    (List.range count).findSome? f = some value := by
  induction count with
  | zero => exact (Nat.not_lt_zero i inside).elim
  | succ count induction =>
      rw [List.range_succ, List.findSome?_append]
      rcases Nat.lt_succ_iff_lt_or_eq.mp inside with earlier | rfl
      · rw [induction earlier, Option.some_or]
      · have nothing : (List.range i).findSome? f = none := by
          rw [List.findSome?_eq_none_iff]
          exact fun k member => before k (List.mem_range.mp member)
        rw [nothing, Option.none_or, List.findSome?_singleton, found]

/-- A search downwards ends at the last one. -/
theorem findSome?_reverse_range
    {Value : Type} {f : Nat → Option Value} {count j : Nat} {value : Value}
    (inside : j < count) (found : f j = some value)
    (after : ∀ k, j < k → k < count → f k = none) :
    (List.range count).reverse.findSome? f = some value := by
  induction count with
  | zero => exact (Nat.not_lt_zero j inside).elim
  | succ count induction =>
      rw [List.range_succ, List.reverse_append, List.reverse_singleton,
        List.singleton_append, List.findSome?_cons]
      rcases Nat.lt_succ_iff_lt_or_eq.mp inside with earlier | rfl
      · rw [after count earlier count.lt_succ_self]
        exact
          induction earlier fun k above below =>
            after k above (below.trans count.lt_succ_self)
      · rw [found]

theorem isAdrpTo_add (base : BitVec 32) (rn : Reg) (imm : BitVec 12) :
    isAdrpTo base (encodeAdd rn imm) = false := by
  have mask :
      (0x9F000000 : BitVec 32) = 0x27C#10 ++ 0#12 ++ 0#5 ++ 0#5 := by
    decide
  have opcode : encodeAdd rn imm &&& 0x9F000000 = 0x91000000 := by
    rw [encodeAdd, mask, BitVec.and_append, BitVec.and_append,
      BitVec.and_append, BitVec.and_zero, BitVec.and_zero]
    decide
  rw [isAdrpTo, opcode]
  rfl

/-- No instruction between the `adrp` and the `ldr` is taken for the `adrp`. -/
theorem isAdrpTo_between
    {rn : Reg} {offset : Int} (sequence : EntrySequence rn offset)
    {code : Nat → BitVec 32} {j : Nat} (lies : sequence.LiesAt code j)
    (others : ∀ word ∈ sequence.before ++ sequence.after,
      isAdrpTo (rn.setWidth 32) word = false)
    {k : Nat} (above : j < k) (below : k < sequence.ldrIndex j) :
    isAdrpTo (rn.setWidth 32) (code k) = false := by
  have member :
      code k ∈ sequence.between.map (Insn.encode rn) := by
    rw [← (sequence.parts_of_liesAt lies).2.1]
    refine List.mem_map_of_mem (List.mem_range'_1.mpr ⟨above, ?_⟩)
    exact below
  rw [EntrySequence.between, List.map_append, List.map_append,
    EntrySequence.encode_others, EntrySequence.encode_others] at member
  rcases List.mem_append.mp member with before | member
  · exact others (code k) (List.mem_append_left _ before)
  rcases List.mem_append.mp member with add | after
  · obtain ⟨insn, isInsn, isWord⟩ := List.mem_map.mp add
    obtain ⟨imm, _, rfl⟩ :=
      Option.map_eq_some_iff.mp (Option.mem_toList.mp isInsn)
    rw [← isWord]
    exact isAdrpTo_add _ rn imm
  · exact others (code k) (List.mem_append_right _ after)

/--
The first `ldr` into `x2` belongs to a sequence whose `adrp` is the nearest one.
If its page is within 2 GiB, `extract_main_addr` gives what the processor loads.
-/
theorem extractMainAddr_of_liesAt
    {bytes : Bytes} {entry mainAddr : Usize} {rn : Reg} {offset : Int}
    (sequence : EntrySequence rn offset) {j : Nat}
    (lies : sequence.LiesAt (codeAt bytes entry) j)
    (within : sequence.ldrIndex j < 48)
    (first : ∀ i < sequence.ldrIndex j,
      isLdrX2 (codeAt bytes entry i) = false)
    (nearest : ∀ word ∈ sequence.before ++ sequence.after,
      isAdrpTo (rn.setWidth 32) word = false)
    (low : -2 ^ 19 ≤ offset) (high : offset < 2 ^ 19)
    (accepted :
      acceptMain
          (BitVec.ofNat 64
            (readUnaligned bytes
              (sequence.loadedFrom (entry + BitVec.ofNat 64 (j * 4))) 8)) =
        some mainAddr) :
    extractMainAddr bytes entry = some mainAddr := by
  obtain ⟨adrp, _, ldr⟩ := sequence.parts_of_liesAt lies
  have base :
      baseOf (codeAt bytes entry (sequence.ldrIndex j)) =
        rn.setWidth 32 := by
    rw [ldr]
    exact (fields_of_append 0b1111100101#10 sequence.imm rn 2#5).1
  have page :=
    (page_eq_iff
      ((entry + BitVec.ofNat 64 (j * 4)) &&& ~~~(0xFFF : Usize))
      (by omega) (by omega)).mpr ⟨low, high⟩
  have got :
      gotAddr (codeAt bytes entry) entry j (sequence.ldrIndex j) =
        sequence.loadedFrom (entry + BitVec.ofNat 64 (j * 4)) := by
    rw [sequence.gotAddr_of_liesAt lies, decodeAdrp_encodeAdrp, page,
      sequence.loadedFrom_eq]
  have below : j < sequence.ldrIndex j :=
    Nat.lt_of_lt_of_le j.lt_succ_self (Nat.le_add_right _ _)
  refine findSome?_range within ?_ ?_
  · rw [ldr, isLdrX2_encode, if_pos rfl, ← ldr, base]
    refine findSome?_reverse_range below ?_ ?_
    · rw [adrp, isAdrpTo_encode, if_pos rfl, got]
      exact accepted
    · intro k above under
      rw [isAdrpTo_between sequence lies nearest above under,
        if_neg Bool.false_ne_true]
  · intro k earlier
    rw [first k earlier, if_neg Bool.false_ne_true]

/-! ## Where it is right -/

/--
`decode_adrp` finds the page which an `adrp` names, and `extract_main_addr`
reads where the processor does, if and only if the page is within 2 GiB.
-/
theorem decodeAdrp_iff
    (pc : Usize) (rd : Reg) (offset : Int)
    (low : -2 ^ 20 ≤ offset) (high : offset < 2 ^ 20) :
    (decodeAdrp pc (encodeAdrp rd offset) =
          (pc &&& ~~~(0xFFF : Usize)) + BitVec.ofInt 64 (4096 * offset) ∧
        ∀ (sequence : EntrySequence rd offset) (code : Nat → BitVec 32)
          (entry : Usize) (j : Nat),
          entry + BitVec.ofNat 64 (j * 4) = pc → sequence.LiesAt code j →
            gotAddr code entry j (sequence.ldrIndex j) =
              sequence.loadedFrom pc) ↔
      -2 ^ 19 ≤ offset ∧ offset < 2 ^ 19 := by
  have samePage :=
    page_eq_iff (pc &&& ~~~(0xFFF : Usize)) low high
  rw [← decodeAdrp_encodeAdrp pc rd offset] at samePage
  constructor
  · exact fun holds => samePage.mp holds.1
  · intro reach
    refine ⟨samePage.mpr reach, ?_⟩
    rintro sequence code entry j rfl lies
    rw [sequence.gotAddr_of_liesAt lies, samePage.mpr reach,
      sequence.loadedFrom_eq]

/-- The page before that of the instruction. -/
theorem decodeAdrp_iff_back :
    decodeAdrp 0x400010 (encodeAdrp 3 (-1)) = 0x3FF000 :=
  ((decodeAdrp_iff 0x400010 3 (-1) (by decide) (by decide)).mpr
    ⟨by decide, by decide⟩).1

/-- A page 2 GiB ahead is looked for 2 GiB behind. -/
theorem decodeAdrp_beyond :
    ¬ ∀ (pc : Usize) (rd : Reg) (offset : Int),
      -2 ^ 20 ≤ offset → offset < 2 ^ 20 →
        decodeAdrp pc (encodeAdrp rd offset) =
            (pc &&& ~~~(0xFFF : Usize)) + BitVec.ofInt 64 (4096 * offset) ∧
          ∀ (sequence : EntrySequence rd offset) (code : Nat → BitVec 32)
            (entry : Usize) (j : Nat),
            entry + BitVec.ofNat 64 (j * 4) = pc → sequence.LiesAt code j →
              gotAddr code entry j (sequence.ldrIndex j) =
                sequence.loadedFrom pc := by
  intro always
  have holds :=
    (always 0x7000000000 3 (2 ^ 19) (by decide) (by decide)).1
  revert holds
  decide

end Vproc.Exec.EntryCode
