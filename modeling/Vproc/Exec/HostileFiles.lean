import Vproc.Exec.FailedLoads
import Vproc.Exec.HarmlessLoads

/-!
# Files which are not what they seem

A file may have any number in any field.  The loader refuses offsets and
sizes which lead out of the file, but some of its sums are taken before
anything is tested, and two vectors are allocated for as many entries as the
file claims to have.  What leads out of the image is not tested at all: pages
outside of the slot, a segment with more bytes in the file than in memory, a
relocation of a word which is not there or not writable.

The exact condition under which nothing goes wrong follows the loader through
the file: what it does has to be right if it gets that far.
-/

namespace Vproc.Exec.HostileFiles

open Vproc.Lib.Alignment
open Vproc.Lib.Procedure
open Vproc.Lib.Procedure.Traced
open Vproc.Lib.Acting
open Vproc.Lib.Run
open Vproc.Exec.Elf hiding programHeaders
open Vproc.Exec.ElfTables
open Vproc.Exec.LoadPie
open Vproc.Exec.LoadSteps
open Vproc.Exec.AddressSpace (perform Memory)
open Vproc.Exec.LoadedImage
open Vproc.Exec.LoadedRanges
open Vproc.Exec.HarmlessLoads

/-! ## What is to hold -/

/-- The word of a relocation is in the image, and can be written. -/
def TargetPlaced (loads : List Phdr) (rela : RelaEntry) : Prop :=
  rela.rOffset.toNat + 8 ≤ totalSize loads ∧
    WordWritable loads rela.rOffset.toNat

/-- The relocations are in the file, and what they relocate in the image. -/
def RelocationsPlaced (data : FileBytes) (phdrs : List Phdr) : Prop :=
  OnFirst PT_DYNAMIC phdrs True fun phdr =>
    SegmentInFile data phdr ∧
      RelaInFile data (dynamicTable data.bytes phdr) ∧
      ∀ rela ∈ relaTable data.bytes (dynamicTable data.bytes phdr),
        relaType rela.rInfo = R_AARCH64_RELATIVE →
          TargetPlaced (loadSegments phdrs) rela

/-- The segments in turn, as long as the loop goes on. -/
def SegmentsFit (data : FileBytes) (base : Nat) (loads : List Phdr)
    (answers : KernelAnswers) : List (Phdr × Nat) → Prop
  | [] => True
  | segment :: rest =>
      SegmentFits base segment.1 ∧
        (answers.map segment.2 = none →
          SegmentInside data (totalSize loads) segment.1 ∧
            (0 < segment.1.pFilesz.toNat →
              FileEndFits segment.1 ∧
                (SegmentInFile data segment.1 →
                  RoomFor data loads segment.1.pVaddr.toNat
                    (copiedBytes data.bytes segment.1)))) ∧
        (Mapped data answers segment →
          SegmentsFit data base loads answers rest)

/-- The relocations, and what comes after them. -/
def RelocationsFit (data : FileBytes) (base : Nat) (phdrs : List Phdr)
    (rest : Prop) : Prop :=
  OnFirst PT_DYNAMIC phdrs rest fun phdr =>
    FileEndFits phdr ∧
      (SegmentInFile data phdr →
        relaCount (dynamicTable data.bytes phdr) * 24 ≤
            data.bytes.length ∧
          (RelaInFile data (dynamicTable data.bytes phdr) →
            (∀ rela ∈ relaTable data.bytes (dynamicTable data.bytes phdr),
                relaType rela.rInfo = R_AARCH64_RELATIVE →
                  base + rela.rOffset.toNat < 2 ^ 64 ∧
                    TargetPlaced (loadSegments phdrs) rela) ∧
              rest))

section Proper

variable {data : FileBytes} {base : Nat} {loads : List Phdr}

@[simp]
theorem proper_allocate_iff (count size : Nat) :
    Proper data base loads (.allocate count size) ↔
      count * size ≤ data.bytes.length :=
  and_iff_right (within_of_untouched rfl _)

theorem proper_relocate_iff (rela : RelaEntry) (value : Nat) :
    Proper data base loads (.relocate (base + rela.rOffset.toNat) value) ↔
      TargetPlaced loads rela := by
  unfold Proper TargetPlaced
  dsimp only
  rw [within_relocate_iff, addresses_subset_iff, Nat.add_sub_cancel_left,
    and_iff_right (Nat.le_add_right _ _)]
  exact and_congr_left fun _ => forall_prop_of_true (by decide)

/-- One segment is mapped, copied and protected as it should be. -/
theorem segmentProper_iff (phdr : Phdr) :
    SegmentDoes (Proper data base loads) data base phdr ↔
      SegmentInside data (totalSize loads) phdr ∧
        (0 < phdr.pFilesz.toNat → SegmentInFile data phdr →
          RoomFor data loads phdr.pVaddr.toNat
            (copiedBytes data.bytes phdr)) := by
  rw [← segmentDoes_within_iff data base]
  have room :
      (base ≤ base + phdr.pVaddr.toNat ∧
          RoomFor data loads (base + phdr.pVaddr.toNat - base)
            (copiedBytes data.bytes phdr)) ↔
        RoomFor data loads phdr.pVaddr.toNat
          (copiedBytes data.bytes phdr) := by
    rw [Nat.add_sub_cancel_left]
    exact and_iff_right (Nat.le_add_right _ _)
  constructor
  · rintro ⟨maps, copies, protects⟩
    refine ⟨⟨maps.1, fun some inFile => (copies some inFile).1, ?_⟩, ?_⟩
    · exact fun copied => (protects copied).1
    · exact fun some inFile => room.mp (copies some inFile).2
  · rintro ⟨⟨maps, copies, protects⟩, fits⟩
    refine
      ⟨⟨maps, True.intro⟩, fun some inFile =>
        ⟨copies some inFile, room.mpr (fits some inFile)⟩, ?_⟩
    exact fun copied =>
      ⟨protects copied, (within_map_iff _ _).mp maps⟩

end Proper

theorem segmentsNeed_iff
    (data : FileBytes) (base : Nat) (loads : List Phdr)
    (answers : KernelAnswers) (segments : List (Phdr × Nat)) :
    SegmentsNeed (.only (Proper data base loads)) data base answers
        segments ↔
      SegmentsFit data base loads answers segments := by
  induction segments with
  | nil => exact Iff.rfl
  | cons segment rest induction =>
      rw [SegmentsNeed, SegmentsFit, induction, ← and_assoc]
      refine and_congr_left fun _ => and_congr_right fun _ => ?_
      refine imp_congr_right fun _ => ?_
      have does := @segmentProper_iff data base loads segment.1
      constructor
      · rintro ⟨maps, copies, protects⟩
        have inside := does.mp
          ⟨maps, fun some => (copies some).2, fun copied =>
            ⟨within_of_untouched rfl _, (within_map_iff _ _).mp maps.1⟩⟩
        exact
          ⟨inside.1, fun some => ⟨(copies some).1, inside.2 some⟩⟩
      · rintro ⟨inside, fits⟩
        obtain ⟨maps, copies, protects⟩ :=
          does.mpr ⟨inside, fun some => (fits some).2⟩
        exact
          ⟨maps, fun some => ⟨(fits some).1, copies some⟩,
            fun copied _ => protects copied⟩

section Fits

variable {data : FileBytes} {base : Nat} {loads : List Phdr}

theorem relaAllocates_iff (dyns : List Dyn) :
    RelaAllocates (.only (Proper data base loads)) dyns ↔
      relaCount dyns * 24 ≤ data.bytes.length := by
  have short := data.short
  unfold RelaAllocates
  simp only [Allowed.event_only, proper_allocate_iff]
  constructor
  · intro allocates
    by_cases none : lastValue DT_RELASZ dyns = 0
    · rw [relaCount, none]
      exact Nat.zero_le _
    · obtain ⟨fits, large⟩ := allocates none
      exact fits (not_not.mp large)
  · exact fun fits _ => ⟨fun _ => fits, fun large => large (by omega)⟩

/-- The vector for the dynamic section is never too long. -/
theorem dynamic_allocates
    {phdr : Phdr} (inFile : SegmentInFile data phdr) :
    Proper data base loads (.allocate (phdr.pFilesz.toNat / 16) 16) := by
  rw [proper_allocate_iff]
  unfold SegmentInFile InFile at inFile
  omega

theorem relocationsNeed_iff
    {phdrs : List Phdr} {rest rest' : Prop}
    (same : RelocationsPlaced data phdrs → (rest ↔ rest')) :
    RelocationsNeed (.only (Proper data base (loadSegments phdrs))) data base
        phdrs rest ↔
      RelocationsFit data base phdrs rest' := by
  refine onFirst_congr ?_ fun phdr found => ?_
  · exact fun none => same ((onFirst_of_none none).mpr True.intro)
  · apply and_congr_right
    intro _
    apply imp_congr_right
    intro inFile
    rw [Allowed.event_only, and_iff_right (dynamic_allocates inFile),
      relaAllocates_iff]
    apply and_congr_right
    intro _
    apply imp_congr_right
    intro relaInFile
    simp only [RelocationNeeds, Allowed.event_only, proper_relocate_iff]
    apply and_congr_right
    intro targets
    refine same ((onFirst_of_some found).mpr ⟨inFile, relaInFile, ?_⟩)
    exact fun rela member relative => (targets rela member relative).2

end Fits

/-- A segment with 120 bytes in the file and one in memory, at a page's end. -/
def overlongSegment : Phdr where
  pType := PT_LOAD
  pFlags := 4
  pOffset := 0
  pVaddr := 4080
  pPaddr := 0
  pFilesz := 120
  pMemsz := 1
  pAlign := 4096

/-- A PIE of 120 bytes with this segment, whose bytes leave its page. -/
def overlongFile : FileBytes where
  bytes := pieFile [overlongSegment] []
  short := by decide +kernel

example :
    run perform FailedLoads.emptyMemory
        (loadPie overlongFile .granted .initial).events = none := by
  decide +kernel

/-- A relocation of a word which is not in the image, 1 MiB from its base. -/
def strayFile : FileBytes where
  bytes :=
    pieFile [RelocationTable.wholeFile 0, RelocationTable.dynamicSection 0]
      ([7, 224, 8, 24, 0, 0, 0x100000, 0x403, 0].flatMap (numberBytes 8))
  short := by decide +kernel

example :
    run perform FailedLoads.emptyMemory
        (loadPie strayFile .granted .initial).events = none := by
  decide +kernel

/-- A header alone, which claims 65535 program headers. -/
def manyHeadersFile : FileBytes where
  bytes := encodeEhdr (pieHeader 65535)
  short := by decide +kernel

example :
    (loadPie manyHeadersFile .granted .initial).events =
      [.allocate 65535 56] := by
  decide +kernel

end Vproc.Exec.HostileFiles
