import Vproc.Exec.AddressSpace
import Vproc.Exec.RelocationTable

/-!
# The loaded image is the program

A segment is mapped as zeros, the bytes of the file are copied to its
beginning, and its protection is set; a relocation puts one word.  Each of
them is a patch of the memory.  If the pages of the segments do not overlap,
and neither do the words, then all of the patches can be seen afterwards, and
it does not matter in which order they were made.
-/

namespace Vproc.Exec.LoadedImage

open Vproc.Lib.Alignment
open Vproc.Lib.Patches
open Vproc.Lib.Procedure
open Vproc.Lib.Procedure.Traced
open Vproc.Lib.Run
open Vproc.Exec.Elf hiding programHeaders
open Vproc.Exec.Image
open Vproc.Exec.ElfTables
open Vproc.Exec.LoadPie
open Vproc.Exec.LoadSteps
open Vproc.Exec.LoadEvents
open Vproc.Exec.RelocationTable
open Vproc.Exec.AddressSpace

/-! ## The files -/

/-- The pages of two segments do not overlap. -/
def PagesApart (first second : Phdr) : Prop :=
  ∀ address, ¬ Holds (mappedRange 0 first) address ∨
    ¬ Holds (mappedRange 0 second) address

/-- The words of two relocations do not overlap. -/
def WordsApart (first second : RelaEntry) : Prop :=
  first.rOffset.toNat + 8 ≤ second.rOffset.toNat ∨
    second.rOffset.toNat + 8 ≤ first.rOffset.toNat

/-- The word of a relocation is in a segment which is writable. -/
structure InWritable (loads : List Phdr) (rela : RelaEntry) : Prop where
  aligned : 8 ∣ rela.rOffset.toNat
  segment : ∃ phdr ∈ loads, hasFlag phdr.pFlags PF_W = true ∧
    phdr.pVaddr.toNat ≤ rela.rOffset.toNat ∧
      rela.rOffset.toNat + 8 ≤ memEnd phdr

/--
A PIE which `load_pie` has loaded, with the tables it has read from it.  No
segment has more bytes in the file than in memory, no two of them have a page
in common, and no two relocated words a byte; and each of these words is
aligned and in a segment which is writable.
-/
structure LoadedPie where
  data : FileBytes
  answers : KernelAnswers
  nextBase : NextBase
  hdr : Ehdr
  phdrs : List Phdr
  dyns : List Dyn
  relas : List RelaEntry
  image : LoadedImage
  parsed : parseHeader data.bytes = .ok hdr
  headers : Returns (programHeaders data hdr) phdrs
  dynamic : Returns (dynamicEntries data phdrs) dyns
  relocations : Returns (relaEntriesFromDynamic data dyns) relas
  loaded : Returns (loadPie data answers nextBase) image
  sizes : ∀ phdr ∈ loadSegments phdrs,
    phdr.pFilesz.toNat ≤ phdr.pMemsz.toNat
  pages : (loadSegments phdrs).Pairwise PagesApart
  words : (relas.filter isRelative).Pairwise WordsApart
  targets : ∀ rela ∈ relas, isRelative rela = true →
    InWritable (loadSegments phdrs) rela

/-- The two loops of `load_pie`, over any lists. -/
def place (data : FileBytes) (base : Nat) (loads : List Phdr)
    (relas : List RelaEntry) : Loading Unit := do
  forEach (mapLoadSegment data base .granted) loads.zipIdx
  forEach (applyRelocation base) relas

/-- The word of eight bytes at an address. -/
def wordAt (memory : Memory) (address : Nat) : Nat :=
  littleEndian
    ((List.range 8).map fun i => memory.bytes (address + i))

/-- The offset is in the word of a relocation. -/
def Relocated (relas : List RelaEntry) (offset : Nat) : Prop :=
  ∃ rela ∈ relas, isRelative rela = true ∧
    Holds ⟨rela.rOffset.toNat, 8⟩ offset

/-- The memory at the base is what the file says. -/
structure IsProgram (data : FileBytes) (base : Nat) (loads : List Phdr)
    (relas : List RelaEntry) (memory : Memory) : Prop where
  copied : ∀ phdr ∈ loads, ∀ k < phdr.pMemsz.toNat,
    ¬ Relocated relas (phdr.pVaddr.toNat + k) → k < phdr.pFilesz.toNat →
      data.bytes[phdr.pOffset.toNat + k]? =
        some (memory.bytes (base + phdr.pVaddr.toNat + k))
  zero : ∀ phdr ∈ loads, ∀ k < phdr.pMemsz.toNat,
    ¬ Relocated relas (phdr.pVaddr.toNat + k) → phdr.pFilesz.toNat ≤ k →
      memory.bytes (base + phdr.pVaddr.toNat + k) = 0
  relocated : ∀ rela ∈ relas, isRelative rela = true →
    (wordAt memory (base + rela.rOffset.toNat) : Int) =
      (base + rela.rAddend.toInt) % 2 ^ 64

/-! ## Patches -/

/-- The bytes of a segment in memory. -/
def segmentBytes (data : FileBytes) (base : Nat) (phdr : Phdr) :
    Patch Nat UInt8 :=
  onTop (onRange (mappedRange base phdr) 0)
    (bytesFrom (base + phdr.pVaddr.toNat) (copiedBytes data.bytes phdr))

/-- The protection of a segment. -/
def segmentProt (base : Nat) (phdr : Phdr) : Patch Nat (Option Prot) :=
  onRange (mappedRange base phdr) (some (protFromFlags phdr.pFlags))

/-- The bytes of a relocated word. -/
def relocatedBytes (base : Nat) (rela : RelaEntry) : Patch Nat UInt8 :=
  bytesFrom (base + rela.rOffset.toNat)
    (numberBytes 8 (BitVec.ofNat 64 base + rela.rAddend).toNat)

/-- The memory after the segments. -/
def withSegments (data : FileBytes) (base : Nat) (memory : Memory)
    (loads : List Phdr) : Memory where
  bytes := putAll memory.bytes (loads.map (segmentBytes data base))
  prot := putAll memory.prot (loads.map (segmentProt base))

/-- The memory after the relocations. -/
def withRelocations (base : Nat) (memory : Memory)
    (relas : List RelaEntry) : Memory :=
  { memory with
    bytes := putAll memory.bytes (relas.map (relocatedBytes base)) }

section Segment

variable {data : FileBytes} {base : Nat} {phdr : Phdr}

/-- The segment itself is in its pages. -/
theorem holds_of_lt
    {k : Nat} (small : k < phdr.pMemsz.toNat) :
    Holds (mappedRange base phdr) (base + phdr.pVaddr.toNat + k) := by
  have below := roundDown_le PAGE_SIZE phdr.pVaddr.toNat
  have above := le_roundUp (memEnd phdr) (by decide : 0 < PAGE_SIZE)
  unfold memEnd at above
  unfold Holds mappedRange memEnd
  dsimp only
  omega

/-- Copying to the segment, once its pages are there. -/
theorem run_copy
    (copies : Copies data phdr)
    (sizes : phdr.pFilesz.toNat ≤ phdr.pMemsz.toNat) (memory : Memory) :
    run perform (memory.mapZeros (mappedRange base phdr) .rw)
        (if 0 < phdr.pFilesz.toNat then
          [.copy (base + phdr.pVaddr.toNat) (copiedBytes data.bytes phdr)]
        else []) =
      some
        { memory.mapZeros (mappedRange base phdr) .rw with
          bytes := put memory.bytes (segmentBytes data base phdr) } := by
  rw [segmentBytes, put_onTop]
  split
  · rename_i isSome
    have length := length_bytesAt (copies isSome)
    have writable : ∀ i < (copiedBytes data.bytes phdr).length,
        (memory.mapZeros (mappedRange base phdr) .rw).isWritable
          (base + phdr.pVaddr.toNat + i) = true := by
      intro i small
      refine isWritable_mapZeros (holds_of_lt ?_)
      exact (small.trans_eq length).trans_le sizes
    rw [run, perform, store_of_writable writable]
    rfl
  · rename_i isNone
    have nothing : copiedBytes data.bytes phdr = [] := by
      rw [copiedBytes, bytesAt, Nat.eq_zero_of_not_pos isNone]
      rfl
    rw [nothing, put_bytesFrom_nil]
    rfl

/-- Mapping, copying and protecting, as one patch. -/
theorem run_segmentEvents
    (copies : Copies data phdr)
    (sizes : phdr.pFilesz.toNat ≤ phdr.pMemsz.toNat) (memory : Memory) :
    run perform memory (segmentEvents data base phdr) =
      some
        { bytes := put memory.bytes (segmentBytes data base phdr)
          prot := put memory.prot (segmentProt base phdr) } := by
  rw [segmentEvents, run_cons_iff]
  refine ⟨_, rfl, run_trans (run_copy copies sizes memory) ?_⟩
  rw [run, perform, protect_mapZeros]
  rfl

end Segment

/-- The loop over the segments, on any memory. -/
theorem run_segments
    {data : FileBytes} {base : Nat} {loads : List Phdr}
    (copies : ∀ phdr ∈ loads, Copies data phdr)
    (sizes : ∀ phdr ∈ loads, phdr.pFilesz.toNat ≤ phdr.pMemsz.toNat)
    (memory : Memory) :
    run perform memory (loads.flatMap (segmentEvents data base)) =
      some (withSegments data base memory loads) := by
  induction loads generalizing memory with
  | nil => rfl
  | cons phdr rest induction =>
      obtain ⟨copiesHere, copiesLater⟩ := List.forall_mem_cons.mp copies
      obtain ⟨sizeHere, sizesLater⟩ := List.forall_mem_cons.mp sizes
      have here :=
        @run_segmentEvents data base phdr copiesHere sizeHere memory
      exact run_trans here (induction copiesLater sizesLater _)

/-- The loop over the relocations, if their words are writable. -/
theorem run_relocations
    {base : Nat} {relas : List RelaEntry} {memory : Memory}
    (aligned : ∀ rela ∈ relas, 8 ∣ base + rela.rOffset.toNat)
    (writable : ∀ rela ∈ relas, ∀ i < 8,
      memory.isWritable (base + rela.rOffset.toNat + i) = true) :
    run perform memory (relas.map (relocationEvent base)) =
      some (withRelocations base memory relas) := by
  induction relas generalizing memory with
  | nil => rfl
  | cons rela rest induction =>
      obtain ⟨alignedHere, alignedLater⟩ := List.forall_mem_cons.mp aligned
      obtain ⟨here, later⟩ := List.forall_mem_cons.mp writable
      have stored :
          perform memory (relocationEvent base rela) =
            some
              { memory with
                bytes := put memory.bytes (relocatedBytes base rela) } := by
        rw [relocationEvent, perform, if_pos alignedHere]
        refine store_of_writable ?_
        rw [length_numberBytes]
        exact here
      rw [List.map_cons, run_cons_iff]
      exact ⟨_, stored, induction alignedLater later⟩

/-! ## Patches which do not meet -/

section Apart

variable {data : FileBytes} {base : Nat} {phdr : Phdr}

theorem holds_mappedRange_iff (address : Nat) :
    Holds (mappedRange base phdr) address ↔
      base ≤ address ∧ Holds (mappedRange 0 phdr) (address - base) := by
  unfold Holds mappedRange
  dsimp only
  omega

theorem segmentBytes_of_not_holds
    (sizes : phdr.pFilesz.toNat ≤ phdr.pMemsz.toNat) {address : Nat}
    (outside : ¬ Holds (mappedRange base phdr) address) :
    segmentBytes data base phdr address = none := by
  have notCopied :
      ¬ Holds
        ⟨base + phdr.pVaddr.toNat, (copiedBytes data.bytes phdr).length⟩
        address := by
    rintro ⟨above, below⟩
    dsimp only at above below
    have length : (copiedBytes data.bytes phdr).length ≤ phdr.pFilesz.toNat :=
      List.length_take_le _ _
    have inPages :=
      @holds_of_lt base phdr (address - (base + phdr.pVaddr.toNat))
        (by omega)
    rw [Nat.add_sub_cancel' above] at inPages
    exact outside inPages
  rw [segmentBytes, onTop, bytesFrom_of_not_holds notCopied,
    onRange_of_not_holds 0 outside, Option.or_none]

theorem segmentBytes_apart
    {other : Phdr} (apart : PagesApart phdr other)
    (size : phdr.pFilesz.toNat ≤ phdr.pMemsz.toNat)
    (otherSize : other.pFilesz.toNat ≤ other.pMemsz.toNat) :
    Apart (segmentBytes data base phdr) (segmentBytes data base other) := by
  intro address
  refine (apart (address - base)).imp ?_ ?_
  · exact fun outside =>
      segmentBytes_of_not_holds size fun holds =>
        outside ((holds_mappedRange_iff address).mp holds).2
  · exact fun outside =>
      segmentBytes_of_not_holds otherSize fun holds =>
        outside ((holds_mappedRange_iff address).mp holds).2

theorem segmentProt_apart
    {other : Phdr} (apart : PagesApart phdr other) :
    Apart (segmentProt base phdr) (segmentProt base other) := by
  intro address
  refine (apart (address - base)).imp ?_ ?_
  · exact fun outside =>
      onRange_of_not_holds _ fun holds =>
        outside ((holds_mappedRange_iff address).mp holds).2
  · exact fun outside =>
      onRange_of_not_holds _ fun holds =>
        outside ((holds_mappedRange_iff address).mp holds).2

theorem relocatedBytes_apart
    {first second : RelaEntry} (apart : WordsApart first second) :
    Apart (relocatedBytes base first) (relocatedBytes base second) := by
  intro address
  unfold WordsApart at apart
  by_cases inFirst :
      Holds ⟨base + first.rOffset.toNat, 8⟩ address
  · refine Or.inr (bytesFrom_of_not_holds ?_)
    rw [length_numberBytes]
    unfold Holds at inFirst ⊢
    dsimp only at inFirst ⊢
    omega
  · refine Or.inl (bytesFrom_of_not_holds ?_)
    rw [length_numberBytes]
    exact inFirst

end Apart

/-! ## The memory of a loaded file -/

section Loaded

variable {data : FileBytes} {base : Nat} {loads : List Phdr}
variable {relas : List RelaEntry}

theorem bytes_pairwise_apart
    (sizes : ∀ phdr ∈ loads, phdr.pFilesz.toNat ≤ phdr.pMemsz.toNat)
    (pages : loads.Pairwise PagesApart) :
    (loads.map (segmentBytes data base)).Pairwise Apart := by
  rw [List.pairwise_map]
  refine pages.imp_of_mem fun first second apart => ?_
  exact segmentBytes_apart apart (sizes _ first) (sizes _ second)

theorem prots_pairwise_apart (pages : loads.Pairwise PagesApart) :
    (loads.map (segmentProt base)).Pairwise Apart := by
  rw [List.pairwise_map]
  exact pages.imp segmentProt_apart

theorem words_pairwise_apart (words : relas.Pairwise WordsApart) :
    (relas.map (relocatedBytes base)).Pairwise Apart := by
  rw [List.pairwise_map]
  exact words.imp relocatedBytes_apart

/-- The segments can be mapped in any order. -/
theorem withSegments_perm
    {others : List Phdr}
    (sizes : ∀ phdr ∈ loads, phdr.pFilesz.toNat ≤ phdr.pMemsz.toNat)
    (pages : loads.Pairwise PagesApart) (perm : loads.Perm others)
    (memory : Memory) :
    withSegments data base memory loads =
      withSegments data base memory others := by
  unfold withSegments
  rw [putAll_perm (bytes_pairwise_apart sizes pages) (perm.map _),
    putAll_perm (prots_pairwise_apart pages) (perm.map _)]

/-- The relocations can be applied in any order. -/
theorem withRelocations_perm
    {others : List RelaEntry} (words : relas.Pairwise WordsApart)
    (perm : relas.Perm others) (memory : Memory) :
    withRelocations base memory relas =
      withRelocations base memory others := by
  unfold withRelocations
  rw [putAll_perm (words_pairwise_apart words) (perm.map _)]

/-- The words of a writable segment are writable once it is mapped. -/
theorem isWritable_withSegments
    (pages : loads.Pairwise PagesApart) {rela : RelaEntry}
    (target : InWritable loads rela) {i : Nat} (small : i < 8)
    (memory : Memory) :
    (withSegments data base memory loads).isWritable
      (base + rela.rOffset.toNat + i) = true := by
  obtain ⟨phdr, member, writable, above, below⟩ := target.segment
  have inSegment :
      base + rela.rOffset.toNat + i =
        base + phdr.pVaddr.toNat +
          (rela.rOffset.toNat + i - phdr.pVaddr.toNat) := by
    omega
  have holds :
      Holds (mappedRange base phdr) (base + rela.rOffset.toNat + i) := by
    rw [inSegment]
    refine holds_of_lt ?_
    unfold memEnd at below
    omega
  have mapped :
      (withSegments data base memory loads).prot
          (base + rela.rOffset.toNat + i) =
        some (protFromFlags phdr.pFlags) :=
    putAll_of_mem (prots_pairwise_apart pages)
      (List.mem_map_of_mem member) (onRange_of_holds _ holds)
  rw [Memory.isWritable, mapped]
  exact writable

/-- What is in a segment apart from the relocated words. -/
theorem bytes_withSegments
    (sizes : ∀ phdr ∈ loads, phdr.pFilesz.toNat ≤ phdr.pMemsz.toNat)
    (pages : loads.Pairwise PagesApart) {phdr : Phdr}
    (member : phdr ∈ loads) {k : Nat} (small : k < phdr.pMemsz.toNat)
    (memory : Memory) :
    (withSegments data base memory loads).bytes
        (base + phdr.pVaddr.toNat + k) =
      ((copiedBytes data.bytes phdr)[k]?).getD 0 := by
  refine
    putAll_of_mem (bytes_pairwise_apart sizes pages)
      (List.mem_map_of_mem member) ?_
  rw [segmentBytes, onTop, onRange_of_holds 0 (holds_of_lt small),
    bytesFrom, if_pos (Nat.le_add_right _ _), Nat.add_sub_cancel_left]
  cases (copiedBytes data.bytes phdr)[k]? with
  | none => rfl
  | some byte => rfl

theorem bytes_withRelocations
    {offset : Nat} (memory : Memory)
    (notRelocated : ¬ Relocated relas offset) :
    (withRelocations base memory (relas.filter isRelative)).bytes
        (base + offset) =
      memory.bytes (base + offset) := by
  refine putAll_of_none (List.forall_mem_map.mpr fun rela member => ?_)
  obtain ⟨inRelas, relative⟩ := List.mem_filter.mp member
  refine bytesFrom_of_not_holds ?_
  rw [length_numberBytes]
  rintro ⟨above, below⟩
  dsimp only at above below
  refine notRelocated ⟨rela, inRelas, relative, ?_, ?_⟩
  · dsimp only
    omega
  · dsimp only
    omega

/-- Base and addend are added modulo 2^64. -/
theorem relocated_value (base : Nat) (addend : BitVec 64) :
    ((BitVec.ofNat 64 base + addend).toNat : Int) =
      (base + addend.toInt) % 2 ^ 64 := by
  have bound := addend.isLt
  rw [BitVec.toNat_add, BitVec.toNat_ofNat, BitVec.toInt_eq_toNat_cond]
  split <;> omega

theorem wordAt_withRelocations
    (words : (relas.filter isRelative).Pairwise WordsApart)
    {rela : RelaEntry} (member : rela ∈ relas)
    (relative : isRelative rela = true) (memory : Memory) :
    wordAt (withRelocations base memory (relas.filter isRelative))
        (base + rela.rOffset.toNat) =
      (BitVec.ofNat 64 base + rela.rAddend).toNat := by
  have bound : (BitVec.ofNat 64 base + rela.rAddend).toNat < 256 ^ 8 :=
    (BitVec.ofNat 64 base + rela.rAddend).isLt
  have bytes :
      (List.range 8).map (fun i =>
          (withRelocations base memory (relas.filter isRelative)).bytes
            (base + rela.rOffset.toNat + i)) =
        numberBytes 8 (BitVec.ofNat 64 base + rela.rAddend).toNat := by
    apply List.ext_getElem
    · rw [List.length_map, List.length_range, length_numberBytes]
    · intro i _ small
      rw [List.getElem_map, List.getElem_range]
      exact
        putAll_of_mem (words_pairwise_apart words)
          (List.mem_map_of_mem
            (List.mem_filter.mpr ⟨member, relative⟩))
          (bytesFrom_of_lt small)
  rw [wordAt, bytes, littleEndian_numberBytes, Nat.mod_eq_of_lt bound]

end Loaded

namespace LoadedPie

variable (pie : LoadedPie)

/-- The segments. -/
def loads : List Phdr := loadSegments pie.phdrs

/-- The memory once the slot is reserved. -/
def reservedMemory (memory : Memory) : Memory :=
  memory.mapZeros ⟨pie.image.base, pie.image.totalSize⟩ PROT_NONE

/-- The memory after the two loops. -/
def finalMemory (memory : Memory) : Memory :=
  withRelocations pie.image.base
    (withSegments pie.data pie.image.base (pie.reservedMemory memory)
      pie.loads)
    (pie.relas.filter isRelative)

theorem done :
    LoadDone pie.data pie.nextBase pie.phdrs pie.relas
      (loadPie pie.data pie.answers pie.nextBase).events pie.image :=
  loadDone_of_returns pie.parsed pie.headers pie.dynamic pie.relocations
    pie.loaded

/-- The two loops in any order, from the reserved slot on. -/
theorem run_loops
    {loads : List Phdr} {relas : List RelaEntry}
    (samePhdrs : loads.Perm pie.loads)
    (sameRelas :
      (relas.filter isRelative).Perm (pie.relas.filter isRelative))
    {between : List Event} (quiet : ∀ event ∈ between, Quiet event)
    (memory : Memory) :
    run perform (pie.reservedMemory memory)
        (loads.flatMap (segmentEvents pie.data pie.image.base) ++
          (between ++
            (relas.filter isRelative).map
              (relocationEvent pie.image.base))) =
      some (pie.finalMemory memory) := by
  have copies : ∀ phdr ∈ loads, Copies pie.data phdr := fun phdr member =>
    (pie.done.segments phdr (samePhdrs.mem_iff.mp member)).2
  have sizes : ∀ phdr ∈ loads, phdr.pFilesz.toNat ≤ phdr.pMemsz.toNat :=
    fun phdr member => pie.sizes phdr (samePhdrs.mem_iff.mp member)
  have segments :
      withSegments pie.data pie.image.base (pie.reservedMemory memory)
          loads =
        withSegments pie.data pie.image.base (pie.reservedMemory memory)
          pie.loads :=
    (withSegments_perm pie.sizes pie.pages samePhdrs.symm _).symm
  have relocations (before : Memory) :
      withRelocations pie.image.base before (relas.filter isRelative) =
        withRelocations pie.image.base before
          (pie.relas.filter isRelative) :=
    (withRelocations_perm pie.words sameRelas.symm before).symm
  have target : ∀ rela ∈ relas.filter isRelative,
      InWritable pie.loads rela := by
    intro rela member
    obtain ⟨inRelas, relative⟩ :=
      List.mem_filter.mp (sameRelas.mem_iff.mp member)
    exact pie.targets rela inRelas relative
  have aligned : ∀ rela ∈ relas.filter isRelative,
      8 ∣ pie.image.base + rela.rOffset.toNat := by
    intro rela member
    have paged : 8 ∣ pie.image.base := by
      rw [pie.done.base]
      exact (by decide : 8 ∣ PAGE_SIZE).trans pie.nextBase.paged
    exact Nat.dvd_add paged (target rela member).aligned
  refine run_trans (run_segments copies sizes _) ?_
  rw [segments]
  refine run_trans (run_quiet quiet) ?_
  rw [run_relocations aligned, relocations]
  · rfl
  · exact fun rela member i small =>
      isWritable_withSegments pie.pages (target rela member) small _

/-- Apart from the relocated words a segment holds the copied bytes. -/
theorem bytes_finalMemory
    {phdr : Phdr} (member : phdr ∈ pie.loads) {k : Nat}
    (small : k < phdr.pMemsz.toNat)
    (notRelocated : ¬ Relocated pie.relas (phdr.pVaddr.toNat + k))
    (memory : Memory) :
    (pie.finalMemory memory).bytes
        (pie.image.base + phdr.pVaddr.toNat + k) =
      ((copiedBytes pie.data.bytes phdr)[k]?).getD 0 := by
  rw [← bytes_withSegments pie.sizes pie.pages member small
    (pie.reservedMemory memory), Nat.add_assoc]
  exact bytes_withRelocations _ notRelocated

theorem isProgram (memory : Memory) :
    IsProgram pie.data pie.image.base pie.loads pie.relas
      (pie.finalMemory memory) := by
  constructor
  · intro phdr member k small notRelocated inFile
    have copies : SegmentInFile pie.data phdr :=
      (pie.done.segments phdr member).2 (Nat.zero_lt_of_lt inFile)
    unfold SegmentInFile InFile at copies
    rw [pie.bytes_finalMemory member small notRelocated, copiedBytes,
      bytesAt, List.getElem?_take_of_lt inFile, List.getElem?_drop,
      List.getElem?_eq_getElem (by omega), Option.getD_some]
  · intro phdr member k small notRelocated notInFile
    have length :
        (copiedBytes pie.data.bytes phdr).length ≤ phdr.pFilesz.toNat :=
      List.length_take_le _ _
    rw [pie.bytes_finalMemory member small notRelocated,
      List.getElem?_eq_none (length.trans notInFile), Option.getD_none]
  · intro rela member relative
    rw [finalMemory, wordAt_withRelocations pie.words member relative]
    exact relocated_value pie.image.base rela.rAddend

/-- What the two loops do. -/
theorem completes_place
    {loads : List Phdr} {relas : List RelaEntry}
    (samePhdrs : loads.Perm pie.loads)
    (sameRelas :
      (relas.filter isRelative).Perm (pie.relas.filter isRelative)) :
    Completes (place pie.data pie.image.base loads relas)
      (loads.flatMap (segmentEvents pie.data pie.image.base) ++
        (relas.filter isRelative).map (relocationEvent pie.image.base))
      () := by
  have mapped : ∀ segment ∈ loads.zipIdx,
      SegmentFits pie.nextBase.value segment.1 ∧
        Mapped pie.data .granted segment := by
    intro segment member
    have isLoad := samePhdrs.mem_iff.mp (List.fst_mem_of_mem_zipIdx member)
    obtain ⟨fits, copies⟩ := pie.done.segments _ isLoad
    rw [pie.done.base] at fits
    exact ⟨fits, rfl, copies, rfl⟩
  have fits : ∀ rela ∈ relas, isRelative rela = true →
      pie.image.base + rela.rOffset.toNat < 2 ^ 64 := by
    intro rela member relative
    have inFilter :=
      sameRelas.mem_iff.mp (List.mem_filter.mpr ⟨member, relative⟩)
    exact
      pie.done.relocations rela (List.mem_filter.mp inFilter).1 relative
  have maps :
      Completes
        (forEach (mapLoadSegment pie.data pie.image.base .granted)
          loads.zipIdx)
        (loads.flatMap (segmentEvents pie.data pie.image.base)) () := by
    rw [pie.done.base]
    refine (completes_mapSegments _ _ _ _).mpr ⟨mapped, ?_⟩
    rw [List.zipIdx_map_fst]
  have applies :=
    (completes_applyRelocations pie.image.base relas).mpr ⟨fits, rfl⟩
  exact (completes_bind _ _).mpr ⟨_, (), _, maps, applies, rfl⟩

end LoadedPie

/--
A loaded PIE is in memory as its segments and its relocations say, and their
order does not matter; relocations of other types can be left out as well.
-/
theorem loaded_image_is_program (pie : LoadedPie) (memory : Memory) :
    ∃ after,
      run perform memory
          (loadPie pie.data pie.answers pie.nextBase).events =
        some after ∧
      IsProgram pie.data pie.image.base (loadSegments pie.phdrs) pie.relas
        after ∧
      ∀ loads relas, loads.Perm (loadSegments pie.phdrs) →
        (relas.filter isRelative).Perm (pie.relas.filter isRelative) →
          ∃ events,
            Completes (place pie.data pie.image.base loads relas) events
                () ∧
              run perform
                  (memory.mapZeros ⟨pie.image.base, pie.image.totalSize⟩
                    PROT_NONE)
                  events =
                some after := by
  refine ⟨pie.finalMemory memory, ?_, pie.isProgram memory, ?_⟩
  · obtain ⟨before, between, last, beforeQuiet, betweenQuiet, lastQuiet,
      order⟩ := pie.done.order
    rw [order]
    refine run_trans (run_quiet beforeQuiet) ?_
    rw [run_cons_iff]
    refine ⟨pie.reservedMemory memory, rfl, ?_⟩
    have loops := pie.run_loops (.refl _) (.refl _) betweenQuiet memory
    have whole := run_trans loops (run_quiet lastQuiet)
    rw [List.append_assoc, List.append_assoc] at whole
    exact whole
  · intro loads relas samePhdrs sameRelas
    refine ⟨_, pie.completes_place samePhdrs sameRelas, ?_⟩
    exact pie.run_loops samePhdrs sameRelas (List.forall_mem_nil _) memory

/-- The text of a program, which is the whole of its file. -/
def textSegment : Phdr where
  pType := PT_LOAD
  pFlags := 5
  pOffset := 0
  pVaddr := 0
  pPaddr := 0
  pFilesz := 368
  pMemsz := 368
  pAlign := 4096

/-- Its data: 16 bytes of the file, and then zeros. -/
def dataSegment : Phdr where
  pType := PT_LOAD
  pFlags := 6
  pOffset := 352
  pVaddr := 4448
  pPaddr := 0
  pFilesz := 16
  pMemsz := 64
  pAlign := 4096

/-- Its dynamic section. -/
def textDynamic : Phdr where
  pType := PT_DYNAMIC
  pFlags := 4
  pOffset := 232
  pVaddr := 232
  pPaddr := 0
  pFilesz := 48
  pMemsz := 48
  pAlign := 8

/-- Two words are relocated; the third record is of another type. -/
def twoRelocations : List RelaEntry :=
  [⟨⟨4464, 0x403⟩, 16⟩, ⟨⟨4472, 0x403⟩, 4096⟩, ⟨⟨4480, 0x401⟩, 32⟩]

/-- The file of the program. -/
def twoSegmentFile : FileBytes where
  bytes :=
    pieFile [textSegment, dataSegment, textDynamic]
      ([7, 280, 8, 72, 0, 0, 4464, 0x403, 16, 4472, 0x403, 4096, 4480, 0x401,
          32, 0x1122, 0x3344].flatMap
        (numberBytes 8))
  short := by decide +kernel

/-- The program as it is loaded first. -/
def loadedTwo : LoadedPie where
  data := twoSegmentFile
  answers := .granted
  nextBase := .initial
  hdr := pieHeader 3
  phdrs := [textSegment, dataSegment, textDynamic]
  dyns := [⟨7, 280⟩, ⟨8, 72⟩]
  relas := twoRelocations
  image :=
    { base := 0x2000000000
      totalSize := 8192
      entry := 0x2000000000
      phdrAddr := 0x2000000040
      phnum := 3
      phentsize := 56
      interpPath := none }
  parsed := by decide +kernel
  headers := by
    unfold Returns
    decide +kernel
  dynamic := by
    unfold Returns
    decide +kernel
  relocations := by
    unfold Returns
    decide +kernel
  loaded := by
    unfold Returns
    decide +kernel
  sizes := by decide +kernel
  pages := by
    have text : mappedRange 0 textSegment = ⟨0, 4096⟩ := by decide +kernel
    have data : mappedRange 0 dataSegment = ⟨4096, 4096⟩ := by
      decide +kernel
    refine List.pairwise_pair.mpr fun address => ?_
    rw [text, data]
    unfold Holds
    dsimp only
    omega
  words := by
    unfold WordsApart
    decide +kernel
  targets := by
    intro rela member relative
    have placed : ∀ rela ∈ twoRelocations,
        8 ∣ rela.rOffset.toNat ∧ 4448 ≤ rela.rOffset.toNat ∧
          rela.rOffset.toNat + 8 ≤ 4512 := by
      decide +kernel
    obtain ⟨aligned, above, below⟩ := placed rela member
    exact
      ⟨aligned, dataSegment, by decide +kernel, by decide +kernel, above,
        below⟩

/--
The relocated words, a byte which is copied and one which is zero; the segments
and the relocations can be taken in the other order.
-/
theorem loaded_words_of_two (memory : Memory) :
    ∃ after,
      run perform memory
          (loadPie twoSegmentFile .granted .initial).events =
        some after ∧
      (wordAt after 0x2000001170 : Int) = 0x2000000010 ∧
      (wordAt after 0x2000001178 : Int) = 0x2000001000 ∧
      after.bytes 0x2000001160 = 0x22 ∧ after.bytes 0x2000001180 = 0 ∧
      ∃ events,
        Completes
            (place twoSegmentFile 0x2000000000 [dataSegment, textSegment]
              twoRelocations.reverse)
            events () ∧
          run perform
              (memory.mapZeros ⟨0x2000000000, 8192⟩ PROT_NONE) events =
            some after := by
  obtain ⟨after, reached, isProgram, order⟩ :=
    loaded_image_is_program loadedTwo memory
  have isData : dataSegment ∈ loadSegments loadedTwo.phdrs := by
    decide +kernel
  have plain (k : Nat) (outside : k < 16 ∨ 32 ≤ k) :
      ¬ Relocated loadedTwo.relas (dataSegment.pVaddr.toNat + k) := by
    have words : ∀ rela ∈ twoRelocations, isRelative rela = true →
        4464 ≤ rela.rOffset.toNat ∧ rela.rOffset.toNat + 8 ≤ 4480 := by
      decide +kernel
    rintro ⟨rela, member, relative, above, below⟩
    obtain ⟨first, last⟩ := words rela member relative
    have start : dataSegment.pVaddr.toNat = 4448 := by decide
    dsimp only at above below
    omega
  refine ⟨after, reached, ?_, ?_, ?_, ?_, ?_⟩
  · exact
      isProgram.relocated ⟨⟨4464, 0x403⟩, 16⟩ (by decide +kernel)
        (by decide +kernel)
  · exact
      isProgram.relocated ⟨⟨4472, 0x403⟩, 4096⟩ (by decide +kernel)
        (by decide +kernel)
  · have copied :=
      isProgram.copied dataSegment isData 0 (by decide +kernel)
        (plain 0 (by decide)) (by decide +kernel)
    have inFile : twoSegmentFile.bytes[352]? = some 0x22 := by
      decide +kernel
    exact (Option.some.inj (inFile.symm.trans copied)).symm
  · exact
      isProgram.zero dataSegment isData 32 (by decide +kernel)
        (plain 32 (by decide)) (by decide +kernel)
  · exact
      order [dataSegment, textSegment] twoRelocations.reverse
        (.swap _ _ _) ((List.reverse_perm _).filter _)

end Vproc.Exec.LoadedImage
