import Vproc.Exec.LoadSteps

/-!
# Where the relocations are read

The dynamic section gives the address of the relocation table in the image,
and the segment which holds this address says where the table is in the file.
The loader does not look for the segment: it reads the file at the address
itself.  These are the same bytes if the segment has the same offset as
address, and otherwise only by chance.
-/

namespace Vproc.Exec.RelocationTable

open Vproc.Lib.Procedure
open Vproc.Lib.Procedure.Traced
open Vproc.Exec.Elf hiding programHeaders
open Vproc.Exec.Image
open Vproc.Exec.ElfTables
open Vproc.Exec.LoadPie
open Vproc.Exec.LoadSteps

/-! ## Records and their bytes -/

theorem bytesAt_add (data : List UInt8) (offset first second : Nat) :
    bytesAt data offset (first + second) =
      bytesAt data offset first ++ bytesAt data (offset + first) second := by
  rw [bytesAt, bytesAt, bytesAt, List.take_add, List.drop_drop]

theorem length_bytesAt
    {data : List UInt8} {offset size : Nat}
    (inFile : InFile data offset size) :
    (bytesAt data offset size).length = size := by
  unfold InFile at inFile
  rw [bytesAt, List.length_take, List.length_drop]
  omega

/-- Numbers of equal width have equal bytes. -/
theorem littleEndian_injective
    {bytes others : List UInt8} (width : bytes.length = others.length)
    (same : littleEndian bytes = littleEndian others) :
    bytes = others := by
  induction bytes generalizing others with
  | nil => exact (List.length_eq_zero_iff.mp width.symm).symm
  | cons byte rest induction =>
      cases others with
      | nil => cases width
      | cons other others =>
          have low := byte.toNat_lt
          have otherLow := other.toNat_lt
          simp only [littleEndian, List.foldr_cons] at same
          have sameByte : byte.toNat = other.toNat := by omega
          have sameRest : littleEndian rest = littleEndian others := by
            unfold littleEndian
            omega
          rw [UInt8.toNat_inj.mp sameByte,
            induction (Nat.succ.inj width) sameRest]

/-- A relocation has no other bytes. -/
theorem decode_injective
    {bytes others : List UInt8} (width : bytes.length = 24)
    (otherWidth : others.length = 24)
    (same : RelaEntry.decode bytes = RelaEntry.decode others) :
    bytes = others := by
  have sameField (start : Nat)
      (equal :
        BitVec.ofNat 64 (field bytes start 8) =
          BitVec.ofNat 64 (field others start 8)) :
      (bytes.drop start).take 8 = (others.drop start).take 8 := by
    have bound (list : List UInt8) : field list start 8 < 2 ^ 64 :=
      numberAt_lt list start 8
    have number := congrArg BitVec.toNat equal
    rw [BitVec.toNat_ofNat, BitVec.toNat_ofNat,
      Nat.mod_eq_of_lt (bound bytes), Nat.mod_eq_of_lt (bound others)]
      at number
    refine littleEndian_injective ?_ number
    rw [List.length_take, List.length_take, List.length_drop,
      List.length_drop, width, otherWidth]
  have whole (list : List UInt8) (length : list.length = 24) :
      list =
        (list.drop 0).take 8 ++ ((list.drop 8).take 8 ++
          (list.drop 16).take 8) := by
    have parts := bytesAt_add list 0 8 16
    rw [bytesAt_add list 8 8 8] at parts
    have all : bytesAt list 0 (8 + 16) = list := by
      rw [bytesAt, List.drop_zero, List.take_of_length_le length.le]
    exact all.symm.trans parts
  simp only [RelaEntry.decode, RelaEntry.mk.injEq, Rela.mk.injEq] at same
  obtain ⟨⟨offset, info⟩, addend⟩ := same
  rw [whole bytes width, whole others otherWidth, sameField 0 offset,
    sameField 8 info, sameField 16 addend]

/-- Records without gaps are in the file if they are there as a whole. -/
theorem recordsInFile_iff
    (data : FileBytes) (start size count : Nat) :
    RecordsInFile data start size size 0 count ↔
      count = 0 ∨ InFile data.bytes start (count * size) := by
  unfold RecordsInFile InFile
  constructor
  · intro each
    rcases Nat.eq_zero_or_pos count with none | some
    · exact Or.inl none
    · have last := each (count - 1) (Nat.zero_le _) (by omega)
      rw [Nat.add_assoc, ← Nat.succ_mul, Nat.succ_eq_add_one,
        Nat.sub_add_cancel some] at last
      exact Or.inr last
  · rintro (rfl | whole) i _ below
    · omega
    · have before : (i + 1) * size ≤ count * size :=
        Nat.mul_le_mul_right size (by omega)
      rw [Nat.succ_mul] at before
      omega

/-- Two tables agree if their bytes do. -/
theorem relocations_eq_iff
    {data : List UInt8} {start other count : Nat}
    (inFile : InFile data start (count * 24))
    (otherInFile : InFile data other (count * 24)) :
    records data start 24 24 RelaEntry.decode 0 count =
        records data other 24 24 RelaEntry.decode 0 count ↔
      bytesAt data start (count * 24) = bytesAt data other (count * 24) := by
  induction count with
  | zero => simp [records, bytesAt]
  | succ count induction =>
      unfold InFile at inFile otherInFile
      have before (offset : Nat)
          (whole : offset + (count + 1) * 24 ≤ data.length) :
          InFile data offset (count * 24) ∧
            InFile data (offset + count * 24) 24 := by
        unfold InFile
        omega
      obtain ⟨first, last⟩ := before start inFile
      obtain ⟨otherFirst, otherLast⟩ := before other otherInFile
      have lastLength := length_bytesAt last
      have otherLength := length_bytesAt otherLast
      have lastSame :
          RelaEntry.decode (bytesAt data (start + count * 24) 24) =
              RelaEntry.decode (bytesAt data (other + count * 24) 24) ↔
            bytesAt data (start + count * 24) 24 =
              bytesAt data (other + count * 24) 24 :=
        ⟨decode_injective lastLength otherLength, congrArg _⟩
      have snoc (offset : Nat) :
          records data offset 24 24 RelaEntry.decode 0 (count + 1) =
            records data offset 24 24 RelaEntry.decode 0 count ++
              [RelaEntry.decode (bytesAt data (offset + count * 24) 24)] := by
        simp [records, List.range'_concat]
      rw [snoc, snoc, Nat.succ_mul, bytesAt_add, bytesAt_add,
        List.append_eq_append_iff_of_size_eq_left (by simp [records]),
        List.append_eq_append_iff_of_size_eq_left
          ((length_bytesAt first).trans (length_bytesAt otherFirst).symm),
        List.singleton_inj, lastSame, induction first otherFirst]

/-! ## The table of an image -/

/-- The entries of the dynamic section, if there is one. -/
def dynamics (data : List UInt8) (phdrs : List Phdr) : List Dyn :=
  match firstOf PT_DYNAMIC phdrs with
  | none => []
  | some phdr => dynamicTable data phdr

/-- A PIE whose tables and segments are in the file. -/
structure WellFormedPie where
  data : FileBytes
  hdr : Ehdr
  parsed : parseHeader data.bytes = .ok hdr
  isPie : hdr.eType = ET_DYN
  inTable : TableInFile data.bytes hdr
  segments : ∀ phdr ∈ loadSegments (table data.bytes hdr),
    SegmentInFile data phdr ∧ phdr.pFilesz.toNat ≤ phdr.pMemsz.toNat ∧
      memEnd phdr < 2 ^ 64
  dynamic : ∀ phdr ∈ firstOf PT_DYNAMIC (table data.bytes hdr),
    SegmentInFile data phdr

namespace WellFormedPie

variable (pie : WellFormedPie)

def phdrs : List Phdr := table pie.data.bytes pie.hdr

def dyns : List Dyn := dynamics pie.data.bytes pie.phdrs

/-- `DT_RELA`. -/
def rela : Nat := lastValue DT_RELA pie.dyns

/-- `DT_RELASZ`. -/
def relasz : Nat := lastValue DT_RELASZ pie.dyns

/-- The relocations, as `load_pie` asks for them. -/
def relocations : Loading (List RelaEntry) := do
  let phdrs ← programHeaders pie.data pie.hdr
  let dyns ← dynamicEntries pie.data phdrs
  relaEntriesFromDynamic pie.data dyns

end WellFormedPie

/-- The addresses are in the part of a segment which the file has. -/
structure FileBacked (segment : Phdr) (vaddr size : Nat) : Prop where
  start : segment.pVaddr.toNat ≤ vaddr
  stop : vaddr + size ≤ segment.pVaddr.toNat + segment.pFilesz.toNat

/-- Where an address of a segment is in the file. -/
def fileOffset (segment : Phdr) (vaddr : Nat) : Nat :=
  segment.pOffset.toNat + (vaddr - segment.pVaddr.toNat)

/-- The records returned are those which are stored in the image. -/
def RelocatesWithOwnTable (pie : WellFormedPie) (segment : Phdr) : Prop :=
  Returns pie.relocations
    (records pie.data.bytes (fileOffset segment pie.rela) 24 24
      RelaEntry.decode 0 (pie.relasz / 24))

/--
The table is where its address is taken for an offset: the segment is not
shifted, or there is no record, or the file has the same bytes there.
-/
def SameBytesAtAddress (pie : WellFormedPie) (segment : Phdr) : Prop :=
  segment.pOffset = segment.pVaddr ∨ pie.relasz < 24 ∨
    InFile pie.data.bytes pie.rela (pie.relasz / 24 * 24) ∧
      bytesAt pie.data.bytes pie.rela (pie.relasz / 24 * 24) =
        bytesAt pie.data.bytes (fileOffset segment pie.rela)
          (pie.relasz / 24 * 24)

section Table

variable (pie : WellFormedPie)

theorem meets_relocations
    (post : List RelaEntry → Prop)
    (few : pie.relasz / 24 * 24 < 2 ^ 63) :
    Meets .noFault post pie.relocations ↔
      (RelaInFile pie.data pie.dyns →
        post (relaTable pie.data.bytes pie.dyns)) := by
  have short := pie.data.short
  have allocates : RelaAllocates .noFault pie.dyns :=
    fun _ => ⟨fun _ => True.intro, fun large => (large few).elim⟩
  simp only [WellFormedPie.relocations, meets_bind, meets_programHeaders,
    meets_dynamicEntries, meets_relaEntriesFromDynamic, implies_true,
    true_and, pie.inTable, forall_true_left, Allowed.event_noFault]
  unfold WellFormedPie.dyns WellFormedPie.phdrs dynamics at allocates ⊢
  unfold OnFirst
  cases found : firstOf PT_DYNAMIC (table pie.data.bytes pie.hdr) with
  | none =>
      rw [found] at allocates
      simp only [allocates, true_and]
  | some phdr =>
      rw [found] at allocates
      have inFile := pie.dynamic phdr found
      have fits : FileEndFits phdr := by
        unfold SegmentInFile InFile at inFile
        unfold FileEndFits
        omega
      simp only [fits, inFile, allocates, true_and, forall_true_left]

/-- The records come from the file at the address of the table. -/
theorem returns_relocations_iff
    (few : pie.relasz / 24 * 24 < 2 ^ 63) (result : List RelaEntry) :
    Returns pie.relocations result ↔
      (pie.relasz / 24 = 0 ∨
          InFile pie.data.bytes pie.rela (pie.relasz / 24 * 24)) ∧
        result =
          records pie.data.bytes pie.rela 24 24 RelaEntry.decode 0
            (pie.relasz / 24) := by
  rw [returns_iff (fun post => meets_relocations pie post few) result,
    RelaInFile, recordsInFile_iff]
  rfl

end Table

/-- The bytes of the table are in the file, at its own offset. -/
theorem ownTable_inFile
    {pie : WellFormedPie} {segment : Phdr}
    (isLoad : segment ∈ loadSegments pie.phdrs)
    (backed : FileBacked segment pie.rela pie.relasz) :
    InFile pie.data.bytes (fileOffset segment pie.rela)
      (pie.relasz / 24 * 24) := by
  have inFile : SegmentInFile pie.data segment :=
    (pie.segments segment isLoad).1
  have records : pie.relasz / 24 * 24 ≤ pie.relasz :=
    Nat.div_mul_le_self _ _
  obtain ⟨start, stop⟩ := backed
  unfold SegmentInFile InFile at inFile
  unfold InFile fileOffset
  omega

/--
The loader relocates with the image's own table if and only if the table is
also where its address is taken for an offset.
-/
theorem own_table_iff
    {pie : WellFormedPie} {segment : Phdr}
    (isLoad : segment ∈ loadSegments pie.phdrs)
    (backed : FileBacked segment pie.rela pie.relasz) :
    RelocatesWithOwnTable pie segment ↔ SameBytesAtAddress pie segment := by
  have short := pie.data.short
  have ownInFile := ownTable_inFile isLoad backed
  have few : pie.relasz / 24 * 24 < 2 ^ 63 := by
    unfold InFile at ownInFile
    omega
  unfold RelocatesWithOwnTable SameBytesAtAddress
  rw [returns_relocations_iff pie few]
  rcases Nat.eq_zero_or_pos (pie.relasz / 24) with none | some
  · have small : pie.relasz < 24 := by omega
    simp [none, small, records]
  · have isSome : ¬ pie.relasz / 24 = 0 := by omega
    have large : ¬ pie.relasz < 24 := by omega
    simp only [isSome, large, false_or]
    constructor
    · rintro ⟨inFile, same⟩
      refine Or.inr ⟨inFile, ?_⟩
      exact ((relocations_eq_iff ownInFile inFile).mp same).symm
    · rintro (unshifted | ⟨inFile, same⟩)
      · have here : fileOffset segment pie.rela = pie.rela := by
          have start := backed.start
          rw [fileOffset, unshifted]
          omega
        rw [here] at ownInFile ⊢
        exact ⟨ownInFile, rfl⟩
      · exact
          ⟨inFile, (relocations_eq_iff ownInFile inFile).mpr same.symm⟩

/-- The whole of a file as a segment at an address. -/
def wholeFile (vaddr : Nat) : Phdr where
  pType := PT_LOAD
  pFlags := 6
  pOffset := 0
  pVaddr := .ofNat 64 vaddr
  pPaddr := 0
  pFilesz := 248
  pMemsz := 256
  pAlign := 4096

/-- Its dynamic section, of three entries. -/
def dynamicSection (vaddr : Nat) : Phdr where
  pType := PT_DYNAMIC
  pFlags := 6
  pOffset := 176
  pVaddr := .ofNat 64 (vaddr + 176)
  pPaddr := 0
  pFilesz := 48
  pMemsz := 48
  pAlign := 8

/-- A file with one relocation, which is loaded to an address. -/
def relocatableFile (vaddr : Nat) : List UInt8 :=
  pieFile [wholeFile vaddr, dynamicSection vaddr]
    (([7, vaddr + 224, 8, 24, 0, 0] ++
        [vaddr + 248, 0x403, vaddr]).flatMap (numberBytes 8))

/-- The file at address 0. -/
def plainPie : WellFormedPie where
  data := ⟨relocatableFile 0, by decide +kernel⟩
  hdr := pieHeader 2
  parsed := by decide +kernel
  isPie := rfl
  inTable := by
    unfold TableInFile
    decide +kernel
  segments := by
    unfold SegmentInFile
    decide +kernel
  dynamic := by
    unfold SegmentInFile
    decide +kernel

theorem own_table_of_plain :
    RelocatesWithOwnTable plainPie (wholeFile 0) := by
  have isLoad : wholeFile 0 ∈ loadSegments plainPie.phdrs := by
    decide +kernel
  have backed : FileBacked (wholeFile 0) plainPie.rela plainPie.relasz :=
    ⟨by decide +kernel, by decide +kernel⟩
  exact (own_table_iff isLoad backed).mpr (Or.inl (by decide +kernel))

/-- The same file at address 4096. -/
def shiftedPie : WellFormedPie where
  data := ⟨relocatableFile 4096, by decide +kernel⟩
  hdr := pieHeader 2
  parsed := by decide +kernel
  isPie := rfl
  inTable := by
    unfold TableInFile
    decide +kernel
  segments := by
    unfold SegmentInFile
    decide +kernel
  dynamic := by
    unfold SegmentInFile
    decide +kernel

/-- The file has no bytes at 4320, where the table is in the image. -/
theorem table_not_translated :
    ¬ ∀ (pie : WellFormedPie), ∀ segment ∈ loadSegments pie.phdrs,
      FileBacked segment pie.rela pie.relasz →
        RelocatesWithOwnTable pie segment := by
  intro every
  have isLoad : wholeFile 4096 ∈ loadSegments shiftedPie.phdrs := by
    decide +kernel
  have backed :
      FileBacked (wholeFile 4096) shiftedPie.rela shiftedPie.relasz :=
    ⟨by decide +kernel, by decide +kernel⟩
  have own := every shiftedPie (wholeFile 4096) isLoad backed
  have refused :
      shiftedPie.relocations.outcome =
        .err "read at 4320+24 exceeds data len 248" := by
    decide +kernel
  rw [RelocatesWithOwnTable, Returns, refused] at own
  cases own

end Vproc.Exec.RelocationTable
