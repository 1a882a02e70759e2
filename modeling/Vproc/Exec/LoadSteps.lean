import Vproc.Exec.LoadPie

/-!
# What each step of the loader needs

For each procedure of the loader one equivalence says when it meets a
specification: which of its sums have to fit into 64 bits, and what it hands
on if the file has the bytes it reads.
-/

namespace Vproc.Exec.LoadSteps

open Vproc.Lib.Alignment
open Vproc.Lib.Procedure
open Vproc.Lib.Procedure.Traced
open Vproc.Exec.Elf hiding programHeaders
open Vproc.Exec.Image
open Vproc.Exec.ElfTables
open Vproc.Exec.LoadPie

variable {allowed : Allowed Event}

/-! ## Reading -/

@[simp]
theorem meets_kernelCall
    {post : Unit → Prop} (answer : Option Nat) (message : Nat → String) :
    Meets allowed post (kernelCall answer message) ↔
      (answer = none → post ()) := by
  cases answer with
  | none =>
      refine (meets_pure ()).trans ?_
      simp
  | some errno => simp [kernelCall]

theorem meets_withCapacity {post : Unit → Prop} (count size : Nat) :
    Meets allowed post (withCapacity count size) ↔
      (count * size < 2 ^ 63 →
          allowed.event (.allocate count size) ∧ post ()) ∧
        (¬ count * size < 2 ^ 63 → allowed.otherFaults) := by
  simp only [withCapacity, meets_ite, meets_emit, meets_stop,
    Allowed.fault]

/-- A vector which is not too long is allocated. -/
theorem meets_withCapacity_of_few
    {post : Unit → Prop} {count size : Nat}
    (few : count * size < 2 ^ 63) :
    Meets allowed post (withCapacity count size) ↔
      allowed.event (.allocate count size) ∧ post () := by
  simp only [meets_withCapacity, few, forall_true_left, not_true_eq_false,
    false_implies, and_true]

/-- Some records which are stored at equal distances. -/
def records {Record : Type} (data : List UInt8)
    (start stride size : Nat) (decode : List UInt8 → Record)
    (first count : Nat) : List Record :=
  (List.range' first count).map fun i =>
    decode (bytesAt data (start + i * stride) size)

/-- A record which is read is the one at its offset. -/
theorem meets_readAt
    {post : List UInt8 → Prop} (data : FileBytes) {offset : Nat}
    (fits : offset < 2 ^ 64) (size : Nat) :
    Meets allowed post
        (lift (readAt data.bytes (BitVec.ofNat 64 offset) size)) ↔
      (InFile data.bytes offset size →
        post (bytesAt data.bytes offset size)) := by
  have same : (BitVec.ofNat 64 offset).toNat = offset :=
    Nat.mod_eq_of_lt fits
  have read := readAt_eq_ok_iff data (BitVec.ofNat 64 offset) size
  simp only [same] at read
  simp only [meets_lift, read]
  constructor
  · intro every inFile
    exact every _ ⟨inFile, rfl⟩
  · rintro holds _ ⟨inFile, rfl⟩
    exact holds inFile

section Records

variable {Record : Type} (data : FileBytes) (start stride size : Nat)
variable (decode : List UInt8 → Record)

/-- The offset of a record fits if the records before it are in the file. -/
def Reaches (first count : Nat) : Prop :=
  ∀ k, first ≤ k → k < first + count →
    (∀ j, first ≤ j → j < k →
      InFile data.bytes (start + j * stride) size) →
    start + k * stride < 2 ^ 64

/-- The records are in the file, from the `first` on. -/
def RecordsInFile (first count : Nat) : Prop :=
  ∀ k, first ≤ k → k < first + count →
    InFile data.bytes (start + k * stride) size

theorem recordsInFile_succ_iff (first count : Nat) :
    RecordsInFile data start stride size first (count + 1) ↔
      InFile data.bytes (start + first * stride) size ∧
        RecordsInFile data start stride size (first + 1) count := by
  constructor
  · intro inFile
    refine ⟨inFile first le_rfl (by omega), ?_⟩
    exact fun k above below => inFile k (by omega) (by omega)
  · rintro ⟨here, later⟩ k above below
    rcases above.eq_or_lt with rfl | above
    · exact here
    · exact later k above (by omega)

theorem meets_readRecords
    {post : List Record → Prop} {first count : Nat}
    (reaches : Reaches data start stride size first count) :
    Meets allowed post
        (readRecords data start stride size decode first count) ↔
      (RecordsInFile data start stride size first count →
        post
          (records data.bytes start stride size decode first count)) := by
  induction count generalizing first post with
  | zero =>
      have nothing : RecordsInFile data start stride size first 0 := by
        unfold RecordsInFile
        omega
      exact (meets_pure []).trans (imp_iff_right nothing).symm
  | succ count induction =>
      have fits : start + first * stride < 2 ^ 64 :=
        reaches first le_rfl (by omega) (by omega)
      have small : first * stride < 2 ^ 64 :=
        (Nat.le_add_left _ _).trans_lt fits
      simp only [readRecords, meets_bind, meets_mul, meets_add, meets_pure,
        meets_readAt data fits, small, fits, true_and,
        recordsInFile_succ_iff, and_imp]
      apply imp_congr_right
      intro here
      refine induction ?_
      intro k above below before
      refine reaches k (by omega) (by omega) ?_
      intro j aboveFirst belowLast
      rcases aboveFirst.eq_or_lt with rfl | aboveFirst
      · exact here
      · exact before j aboveFirst belowLast

end Records

/-- The program headers are those of the table. -/
theorem meets_programHeaders
    {post : List Phdr → Prop} (data : FileBytes) (hdr : Ehdr) :
    Meets allowed post (programHeaders data hdr) ↔
      (hdr.ePhnum.toNat ≠ 0 →
          allowed.event (.allocate hdr.ePhnum.toNat 56)) ∧
        (TableInFile data.bytes hdr → post (table data.bytes hdr)) := by
  have reaches :
      Reaches data hdr.ePhoff.toNat hdr.ePhentsize.toNat 56 0
        hdr.ePhnum.toNat := by
    intro k _ below before
    exact
      position_lt data hdr (by omega) fun j earlier =>
        before j (Nat.zero_le j) earlier
  have inFile :
      RecordsInFile data hdr.ePhoff.toNat hdr.ePhentsize.toNat 56 0
          hdr.ePhnum.toNat ↔
        TableInFile data.bytes hdr := by
    simp [RecordsInFile, TableInFile, position]
  have same :
      records data.bytes hdr.ePhoff.toNat hdr.ePhentsize.toNat 56
          Phdr.decode 0 hdr.ePhnum.toNat =
        table data.bytes hdr := by
    simp [records, table, position, List.range_eq_range']
  have few : hdr.ePhnum.toNat * 56 < 2 ^ 63 := by
    have := hdr.ePhnum.isLt
    omega
  unfold programHeaders
  by_cases none : hdr.ePhnum.toNat = 0
  · have noTable : TableInFile data.bytes hdr := by
      unfold TableInFile
      omega
    simp [none, noTable, table]
  · simp only [none, if_false, ne_eq, not_false_eq_true, forall_true_left,
      meets_bind, meets_withCapacity_of_few few,
      meets_readRecords data _ _ _ _ reaches, inFile, same]

/-! ## Tables which the program headers point to -/

/-- The path in a `PT_INTERP` segment. -/
def pathAt (data : List UInt8) (phdr : Phdr) : List UInt8 :=
  (bytesAt data phdr.pOffset.toNat phdr.pFilesz.toNat).takeWhile
    fun byte => byte != 0

/-- The end of the bytes of a segment in the file fits into 64 bits. -/
def FileEndFits (phdr : Phdr) : Prop :=
  phdr.pOffset.toNat + phdr.pFilesz.toNat < 2 ^ 64

/-- The bytes of a segment are in the file. -/
def SegmentInFile (data : FileBytes) (phdr : Phdr) : Prop :=
  InFile data.bytes phdr.pOffset.toNat phdr.pFilesz.toNat

/-- What is to hold of the first segment of a type, or without one. -/
def OnFirst (type : BitVec 32) (phdrs : List Phdr)
    (absent : Prop) (present : Phdr → Prop) : Prop :=
  match firstOf type phdrs with
  | none => absent
  | some phdr => present phdr

section OnFirst

variable {type : BitVec 32} {phdrs : List Phdr}
variable {absent absent' : Prop} {present present' : Phdr → Prop}

theorem onFirst_of_none (none : firstOf type phdrs = none) :
    OnFirst type phdrs absent present ↔ absent := by
  rw [OnFirst, none]

theorem onFirst_of_some
    {phdr : Phdr} (found : firstOf type phdrs = some phdr) :
    OnFirst type phdrs absent present ↔ present phdr := by
  rw [OnFirst, found]

/-- What is to hold can be replaced in both cases, with what is found. -/
theorem onFirst_congr
    (same : firstOf type phdrs = none → (absent ↔ absent'))
    (sameWith : ∀ phdr, firstOf type phdrs = some phdr →
      (present phdr ↔ present' phdr)) :
    OnFirst type phdrs absent present ↔
      OnFirst type phdrs absent' present' := by
  cases found : firstOf type phdrs with
  | none =>
      rw [onFirst_of_none found, onFirst_of_none found]
      exact same found
  | some phdr =>
      rw [onFirst_of_some found, onFirst_of_some found]
      exact sameWith phdr found

end OnFirst

theorem meets_interpreterPath
    {post : Option (List UInt8) → Prop} (data : FileBytes)
    (phdrs : List Phdr) :
    Meets allowed post (interpreterPath data phdrs) ↔
      OnFirst PT_INTERP phdrs (post none) fun phdr =>
        FileEndFits phdr ∧
          (SegmentInFile data phdr →
            post (some (pathAt data.bytes phdr))) := by
  unfold interpreterPath OnFirst
  cases firstOf PT_INTERP phdrs with
  | none => exact meets_pure _
  | some phdr =>
      simp only [meets_bind, meets_add, meets_ite, meets_fail, meets_slice,
        meets_pure, implies_true, true_and, FileEndFits, SegmentInFile,
        InFile, not_lt]
      apply and_congr_right
      intro _
      apply imp_congr_right
      intro inFile
      simp [inFile, pathAt, bytesAt]

/-- The entries of a dynamic section, before the first `DT_NULL`. -/
def dynamicTable (data : List UInt8) (phdr : Phdr) : List Dyn :=
  (records data phdr.pOffset.toNat 16 16 decodeDyn 0
    (phdr.pFilesz.toNat / 16)).takeWhile fun entry =>
      entry.dTag != DT_NULL

theorem meets_readDynamic
    {post : List Dyn → Prop} (data : FileBytes) (start : Nat)
    {first count : Nat}
    (inFile : start + (first + count) * 16 ≤ data.bytes.length) :
    Meets allowed post (readDynamic data start first count) ↔
      post
        ((records data.bytes start 16 16 decodeDyn first count).takeWhile
          fun entry => entry.dTag != DT_NULL) := by
  have short := data.short
  induction count generalizing first post with
  | zero => exact meets_pure []
  | succ count induction =>
      have small : first * 16 < 2 ^ 64 := by omega
      have fits : start + first * 16 < 2 ^ 64 := by omega
      have here : InFile data.bytes (start + first * 16) 16 := by
        unfold InFile
        omega
      have later : start + (first + 1 + count) * 16 ≤ data.bytes.length := by
        omega
      simp only [readDynamic, meets_bind, meets_mul, meets_add, meets_ite,
        meets_pure, meets_readAt data fits, small, fits, true_and, here,
        forall_true_left, induction later, records, List.range'_succ,
        List.map_cons, List.takeWhile_cons]
      by_cases last :
          (decodeDyn (bytesAt data.bytes (start + first * 16) 16)).dTag =
            DT_NULL
      · simp [last]
      · simp [last]

theorem meets_dynamicEntries
    {post : List Dyn → Prop} (data : FileBytes) (phdrs : List Phdr) :
    Meets allowed post (dynamicEntries data phdrs) ↔
      OnFirst PT_DYNAMIC phdrs (post []) fun phdr =>
        FileEndFits phdr ∧
          (SegmentInFile data phdr →
            allowed.event (.allocate (phdr.pFilesz.toNat / 16) 16) ∧
              post (dynamicTable data.bytes phdr)) := by
  have short := data.short
  unfold dynamicEntries OnFirst
  cases firstOf PT_DYNAMIC phdrs with
  | none => exact meets_pure _
  | some phdr =>
      simp only [meets_bind, meets_add, meets_ite, meets_fail,
        implies_true, true_and, FileEndFits, SegmentInFile, InFile, not_lt]
      apply and_congr_right
      intro _
      apply imp_congr_right
      intro inFile
      have entries :
          phdr.pOffset.toNat + (0 + phdr.pFilesz.toNat / 16) * 16 ≤
            data.bytes.length := by
        omega
      have few : phdr.pFilesz.toNat / 16 * 16 < 2 ^ 63 := by omega
      rw [meets_withCapacity_of_few few, meets_readDynamic data _ entries]
      rfl

theorem lastValue_lt (tag : BitVec 64) (dyns : List Dyn) :
    lastValue tag dyns < 2 ^ 64 := by
  have kept (start : Nat) (bound : start < 2 ^ 64) :
      dyns.foldl
          (fun value entry =>
            if entry.dTag = tag then entry.dVal.toNat else value)
          start <
        2 ^ 64 := by
    induction dyns generalizing start with
    | nil => exact bound
    | cons entry rest induction =>
        apply induction
        dsimp only
        split
        · exact entry.dVal.isLt
        · exact bound
  exact kept 0 (by decide)

/-- The number of relocations a dynamic section speaks of. -/
def relaCount (dyns : List Dyn) : Nat :=
  lastValue DT_RELASZ dyns / 24

/-- The relocations which are read for a dynamic section. -/
def relaTable (data : List UInt8) (dyns : List Dyn) : List RelaEntry :=
  records data (lastValue DT_RELA dyns) 24 24 RelaEntry.decode 0
    (relaCount dyns)

/-- All of them are in the file. -/
def RelaInFile (data : FileBytes) (dyns : List Dyn) : Prop :=
  RecordsInFile data (lastValue DT_RELA dyns) 24 24 0 (relaCount dyns)

/-- The vector for the relocations may be allocated, or may be too long. -/
def RelaAllocates (allowed : Allowed Event) (dyns : List Dyn) : Prop :=
  lastValue DT_RELASZ dyns ≠ 0 →
    (relaCount dyns * 24 < 2 ^ 63 →
        allowed.event (.allocate (relaCount dyns) 24)) ∧
      (¬ relaCount dyns * 24 < 2 ^ 63 → allowed.otherFaults)

/-- If all of them are in the file, the vector is not too long. -/
theorem few_of_relaInFile
    {data : FileBytes} {dyns : List Dyn} (inFile : RelaInFile data dyns) :
    relaCount dyns * 24 < 2 ^ 63 := by
  have short := data.short
  rcases Nat.eq_zero_or_pos (relaCount dyns) with none | some
  · rw [none]
    decide
  · have last := inFile (relaCount dyns - 1) (Nat.zero_le _) (by omega)
    unfold InFile at last
    omega

theorem meets_relaEntriesFromDynamic
    {post : List RelaEntry → Prop} (data : FileBytes) (dyns : List Dyn) :
    Meets allowed post (relaEntriesFromDynamic data dyns) ↔
      RelaAllocates allowed dyns ∧
        (RelaInFile data dyns → post (relaTable data.bytes dyns)) := by
  have short := data.short
  have reaches :
      Reaches data (lastValue DT_RELA dyns) 24 24 0 (relaCount dyns) := by
    intro k _ below before
    have start := lastValue_lt DT_RELA dyns
    rcases Nat.eq_zero_or_pos k with rfl | later
    · omega
    · have last := before (k - 1) (Nat.zero_le _) (by omega)
      unfold InFile at last
      omega
  unfold relaEntriesFromDynamic RelaAllocates
  by_cases empty : lastValue DT_RELASZ dyns = 0
  · have none : relaCount dyns = 0 := by
      rw [relaCount, empty]
    have inFile : RelaInFile data dyns := by
      unfold RelaInFile RecordsInFile
      omega
    simp [empty, relaTable, none, records, inFile]
  · simp only [empty, if_false, ne_eq, not_false_eq_true, forall_true_left,
      meets_bind, meets_withCapacity]
    rw [← relaCount, meets_readRecords data _ _ _ _ reaches]
    constructor
    · rintro ⟨fits, large⟩
      refine ⟨⟨fun few => (fits few).1, large⟩, fun inFile => ?_⟩
      exact (fits (few_of_relaInFile inFile)).2 inFile
    · rintro ⟨⟨allocates, large⟩, ends⟩
      exact ⟨fun few => ⟨allocates few, ends⟩, large⟩

/-! ## The slot -/

/-- The least address of some segments. -/
def minVaddr (loads : List Phdr) : Nat :=
  ((loads.map fun phdr => phdr.pVaddr.toNat).min?).getD 0

/-- The end of a segment in memory. -/
def memEnd (phdr : Phdr) : Nat :=
  phdr.pVaddr.toNat + phdr.pMemsz.toNat

/-- The greatest end of some segments. -/
def maxVaddr (loads : List Phdr) : Nat :=
  ((loads.map memEnd).max?).getD 0

/-- The size of the range which holds all segments. -/
def spanOf (loads : List Phdr) : Nat :=
  maxVaddr loads - minVaddr loads

/-- The number of bytes which are reserved for an image. -/
def totalSize (loads : List Phdr) : Nat :=
  roundUp PAGE_SIZE (spanOf loads)

/-- The number of bytes by which the next slot is moved. -/
def slotSize (loads : List Phdr) : Nat :=
  roundUp SLOT_ALIGN (totalSize loads) + PAGE_SIZE

theorem minVaddr_le_maxVaddr (loads : List Phdr) :
    minVaddr loads ≤ maxVaddr loads := by
  cases loads with
  | nil => exact le_rfl
  | cons phdr rest =>
      have below :
          minVaddr (phdr :: rest) ≤ phdr.pVaddr.toNat :=
        List.min?_getD_le_of_mem (List.mem_cons_self)
      have above : memEnd phdr ≤ maxVaddr (phdr :: rest) :=
        List.le_max?_getD_of_mem (List.mem_cons_self)
      unfold memEnd at above
      omega

theorem meets_segmentEnds
    {post : List Nat → Prop} (loads : List Phdr) :
    Meets allowed post (segmentEnds loads) ↔
      (∀ phdr ∈ loads, memEnd phdr < 2 ^ 64) ∧ post (loads.map memEnd) := by
  induction loads generalizing post with
  | nil =>
      refine (meets_pure []).trans ?_
      simp
  | cons phdr rest induction =>
      simp only [segmentEnds, meets_bind, meets_add, meets_pure, induction,
        List.forall_mem_cons, List.map_cons, and_assoc]
      rfl

theorem meets_loadSpan
    {post : Nat × Nat → Prop} {phdrs : List Phdr}
    (some : loadSegments phdrs ≠ []) :
    Meets allowed post (loadSpan phdrs) ↔
      (∀ phdr ∈ loadSegments phdrs, memEnd phdr < 2 ^ 64) ∧
        post
          (minVaddr (loadSegments phdrs), spanOf (loadSegments phdrs)) := by
  have ordered := minVaddr_le_maxVaddr (loadSegments phdrs)
  unfold loadSpan
  simp only [some, if_false, meets_bind, meets_segmentEnds, meets_sub,
    meets_pure]
  apply and_congr_right
  intro _
  exact and_iff_right ordered

/-- Adding one less than a unit and clearing the rest rounds up. -/
theorem clearLow_add_sub_one
    {bits size : Nat} (few : bits ≤ 64)
    (fits : size + 2 ^ bits < 2 ^ 64) :
    clearLow 64 bits (size + 2 ^ bits - 1) = roundUp (2 ^ bits) size := by
  rw [clearLow_eq few (by omega), roundUp,
    Nat.add_sub_assoc Nat.one_le_two_pow]

theorem one_le_add_of_positive
    {unit : Nat} (size : Nat) (positive : 0 < unit) : 1 ≤ size + unit :=
  positive.trans_le (Nat.le_add_left _ _)

@[simp]
theorem meets_pageAlignUp {post : Nat → Prop} (addr : Nat) :
    Meets allowed post (pageAlignUp addr) ↔
      addr + PAGE_SIZE < 2 ^ 64 ∧ post (roundUp PAGE_SIZE addr) := by
  have positive := one_le_add_of_positive addr (by decide : 0 < PAGE_SIZE)
  simp only [pageAlignUp, meets_bind, meets_add, meets_sub, meets_pure,
    positive, true_and]
  apply and_congr_right
  intro fits
  have rounded : clearLow 64 12 (addr + PAGE_SIZE - 1) = _ :=
    clearLow_add_sub_one (by decide) fits
  rw [rounded]
  rfl

@[simp]
theorem completes_pageAlignUp
    {events : List Event} {addr last : Nat} :
    Completes (pageAlignUp addr) events last ↔
      addr + PAGE_SIZE < 2 ^ 64 ∧ events = [] ∧
        last = roundUp PAGE_SIZE addr := by
  have positive := one_le_add_of_positive addr (by decide : 0 < PAGE_SIZE)
  have rounded (fits : addr + PAGE_SIZE < 2 ^ 64) :
      clearLow 64 12 (addr + PAGE_SIZE - 1) = roundUp PAGE_SIZE addr :=
    clearLow_add_sub_one (by decide) fits
  simp only [pageAlignUp, completes_add_bind, completes_sub_bind,
    completes_pure, positive, true_and]
  apply and_congr_right
  intro fits
  rw [rounded fits]

@[simp]
theorem completes_pageAlignUp_bind
    {events : List Event} {Result : Type} {last : Result} {addr : Nat}
    {next : Nat → Loading Result} :
    Completes (pageAlignUp addr >>= next) events last ↔
      addr + PAGE_SIZE < 2 ^ 64 ∧
        Completes (next (roundUp PAGE_SIZE addr)) events last :=
  completes_bind_of_quiet fun _ _ => completes_pageAlignUp

theorem meets_allocSlot
    {post : Nat → Prop} (nextBase : NextBase) (size : Nat) :
    Meets allowed post (allocSlot nextBase size) ↔
      nextBase.value + (roundUp SLOT_ALIGN size + PAGE_SIZE) < 2 ^ 64 ∧
        allowed.event
          (.takeSlot
            (nextBase.value + (roundUp SLOT_ALIGN size + PAGE_SIZE))) ∧
        post nextBase.value := by
  have low := nextBase.low
  have above : size ≤ roundUp SLOT_ALIGN size :=
    le_roundUp size (by decide)
  have positive := one_le_add_of_positive size (by decide : 0 < SLOT_ALIGN)
  have rounded (fits : size + SLOT_ALIGN < 2 ^ 64) :
      clearLow 64 16 (size + SLOT_ALIGN - 1) = roundUp SLOT_ALIGN size :=
    clearLow_add_sub_one (by decide) fits
  simp only [allocSlot, meets_bind, meets_add, meets_sub, meets_emit,
    meets_pure, positive, true_and]
  constructor
  · rintro ⟨fits, _, moved, event, holds⟩
    rw [rounded fits] at moved event
    exact ⟨moved, event, holds⟩
  · rintro ⟨moved, event, holds⟩
    have fits : size + SLOT_ALIGN < 2 ^ 64 := by
      have align : SLOT_ALIGN = 65536 := rfl
      omega
    rw [rounded fits]
    exact ⟨fits, by omega, moved, event, holds⟩

/-- What `alloc_slot` does and returns. -/
theorem of_completes_allocSlot
    {nextBase : NextBase} {size base : Nat} {events : List Event}
    (completes : Completes (allocSlot nextBase size) events base) :
    nextBase.value + (roundUp SLOT_ALIGN size + PAGE_SIZE) < 2 ^ 64 ∧
      events =
        [.takeSlot
          (nextBase.value + (roundUp SLOT_ALIGN size + PAGE_SIZE))] ∧
      base = nextBase.value := by
  simp only [allocSlot, completes_add_bind, completes_sub_bind,
    completes_emit_bind, completes_pure] at completes
  obtain ⟨fits, _, _, moved, _, ⟨rfl, rfl⟩, rfl⟩ := completes
  have rounded :
      clearLow 64 16 (size + SLOT_ALIGN - 1) = roundUp SLOT_ALIGN size :=
    clearLow_add_sub_one (by decide) fits
  rw [rounded] at moved ⊢
  exact ⟨moved, rfl, rfl⟩

/-! ## Segments -/

/-- The pages of a segment have addresses of 64 bits. -/
def SegmentFits (base : Nat) (phdr : Phdr) : Prop :=
  memEnd phdr + PAGE_SIZE < 2 ^ 64 ∧
    base + roundDown PAGE_SIZE phdr.pVaddr.toNat < 2 ^ 64

/-- The pages which are mapped for a segment. -/
def mappedRange (base : Nat) (phdr : Phdr) : AddressRange where
  start := base + roundDown PAGE_SIZE phdr.pVaddr.toNat
  size :=
    roundUp PAGE_SIZE (memEnd phdr) -
      roundDown PAGE_SIZE phdr.pVaddr.toNat

/-- The bytes which are copied for a segment. -/
def copiedBytes (data : List UInt8) (phdr : Phdr) : List UInt8 :=
  bytesAt data phdr.pOffset.toNat phdr.pFilesz.toNat

/-- The bytes of the segment are in the file, if it has any. -/
def Copies (data : FileBytes) (phdr : Phdr) : Prop :=
  0 < phdr.pFilesz.toNat → SegmentInFile data phdr

/-- The loop goes on after a segment. -/
def Mapped (data : FileBytes) (answers : KernelAnswers)
    (segment : Phdr × Nat) : Prop :=
  answers.map segment.2 = none ∧ Copies data segment.1 ∧
    answers.protect segment.2 = none

/-- What one segment needs. -/
def SegmentNeeds (allowed : Allowed Event) (data : FileBytes) (base : Nat)
    (answers : KernelAnswers) (segment : Phdr × Nat) : Prop :=
  SegmentFits base segment.1 ∧
    (answers.map segment.2 = none →
      allowed.event (.map (mappedRange base segment.1)) ∧
        (0 < segment.1.pFilesz.toNat →
          FileEndFits segment.1 ∧
            (SegmentInFile data segment.1 →
              allowed.event
                (.copy (base + segment.1.pVaddr.toNat)
                  (copiedBytes data.bytes segment.1)))) ∧
        (Copies data segment.1 → answers.protect segment.2 = none →
          allowed.event
            (.protect (mappedRange base segment.1)
              (protFromFlags segment.1.pFlags))))

/-- The copied bytes begin within the first page which is mapped. -/
theorem copy_fits
    {nextBase : NextBase} {vaddr : Nat}
    (fits : nextBase.value + roundDown PAGE_SIZE vaddr < 2 ^ 64) :
    nextBase.value + roundDown PAGE_SIZE vaddr +
          (vaddr - roundDown PAGE_SIZE vaddr) <
        2 ^ 64 ∧
      nextBase.value + roundDown PAGE_SIZE vaddr +
          (vaddr - roundDown PAGE_SIZE vaddr) =
        nextBase.value + vaddr := by
  have page : PAGE_SIZE = 4096 := rfl
  have below := roundDown_le PAGE_SIZE vaddr
  have above := lt_roundDown_add vaddr (by decide : 0 < PAGE_SIZE)
  have paged :
      4096 ∣ nextBase.value + roundDown PAGE_SIZE vaddr :=
    Nat.dvd_add nextBase.paged (dvd_roundDown PAGE_SIZE vaddr)
  refine ⟨?_, by omega⟩
  omega

theorem meets_copySegment
    {post : Unit → Prop} (data : FileBytes) (nextBase : NextBase)
    (phdr : Phdr)
    (fits :
      nextBase.value + roundDown PAGE_SIZE phdr.pVaddr.toNat < 2 ^ 64) :
    Meets allowed post
        (copySegment data
          (nextBase.value + roundDown PAGE_SIZE phdr.pVaddr.toNat)
          (phdr.pVaddr.toNat - roundDown PAGE_SIZE phdr.pVaddr.toNat)
          phdr) ↔
      (0 < phdr.pFilesz.toNat →
          FileEndFits phdr ∧
            (SegmentInFile data phdr →
              allowed.event
                (.copy (nextBase.value + phdr.pVaddr.toNat)
                  (copiedBytes data.bytes phdr)))) ∧
        (Copies data phdr → post ()) := by
  obtain ⟨targetFits, target⟩ := copy_fits fits
  rw [target] at targetFits
  unfold copySegment Copies
  by_cases some : 0 < phdr.pFilesz.toNat
  · simp only [some, if_true, forall_true_left, meets_bind, meets_add,
      meets_ite, meets_fail, meets_slice, meets_emit, implies_true,
      true_and, not_lt, targetFits, target]
    unfold FileEndFits SegmentInFile InFile
    by_cases inFile :
        phdr.pOffset.toNat + phdr.pFilesz.toNat ≤ data.bytes.length
    · simp [inFile, copiedBytes, bytesAt, and_assoc]
    · simp [inFile]
  · simp [some]

theorem meets_mapLoadSegment
    {post : Unit → Prop} (data : FileBytes) (nextBase : NextBase)
    (answers : KernelAnswers) (segment : Phdr × Nat) :
    Meets allowed post
        (mapLoadSegment data nextBase.value answers segment) ↔
      SegmentNeeds allowed data nextBase.value answers segment ∧
        (Mapped data answers segment → post ()) := by
  obtain ⟨phdr, i⟩ := segment
  have small : phdr.pVaddr.toNat < 2 ^ 64 := phdr.pVaddr.isLt
  have down :
      pageAlignDown phdr.pVaddr.toNat =
        roundDown PAGE_SIZE phdr.pVaddr.toNat :=
    clearLow_eq (by decide) small
  have below := roundDown_le PAGE_SIZE phdr.pVaddr.toNat
  have above :
      roundDown PAGE_SIZE phdr.pVaddr.toNat ≤
        roundUp PAGE_SIZE (memEnd phdr) := by
    have up := le_roundUp (memEnd phdr) (by decide : 0 < PAGE_SIZE)
    unfold memEnd at up ⊢
    omega
  unfold mapLoadSegment SegmentNeeds SegmentFits Mapped
  dsimp only
  simp only [down, meets_bind, meets_add, meets_sub, meets_pageAlignUp,
    meets_kernelCall, meets_emit]
  have same :
      phdr.pVaddr.toNat + phdr.pMemsz.toNat = memEnd phdr := rfl
  rw [same]
  by_cases fits :
      memEnd phdr + PAGE_SIZE < 2 ^ 64 ∧
        nextBase.value + roundDown PAGE_SIZE phdr.pVaddr.toNat < 2 ^ 64
  · obtain ⟨memFits, baseFits⟩ := fits
    have first : memEnd phdr < 2 ^ 64 := by omega
    have range :
        mappedRange nextBase.value phdr =
          ⟨nextBase.value + roundDown PAGE_SIZE phdr.pVaddr.toNat,
            roundUp PAGE_SIZE (memEnd phdr) -
              roundDown PAGE_SIZE phdr.pVaddr.toNat⟩ := rfl
    rw [meets_copySegment data nextBase phdr baseFits, ← range]
    simp only [first, memFits, above, baseFits, below, true_and]
    constructor
    · intro steps
      refine ⟨fun granted => ?_, ?_⟩
      · obtain ⟨mapped, copied, ends⟩ := steps granted
        exact
          ⟨mapped, copied, fun copies isSet => (ends copies isSet).1⟩
      · rintro ⟨granted, copies, isSet⟩
        exact ((steps granted).2.2 copies isSet).2
    · rintro ⟨steps, ends⟩ granted
      obtain ⟨mapped, copied, protects⟩ := steps granted
      refine ⟨mapped, copied, fun copies isSet => ?_⟩
      exact ⟨protects copies isSet, ends ⟨granted, copies, isSet⟩⟩
  · refine iff_of_false ?_ fun both => fits both.1.1
    rintro ⟨_, memFits, _, baseFits, _⟩
    exact fits ⟨memFits, baseFits⟩

/-- What the segments need, one after the other. -/
def SegmentsNeed (allowed : Allowed Event) (data : FileBytes) (base : Nat)
    (answers : KernelAnswers) : List (Phdr × Nat) → Prop
  | [] => True
  | segment :: rest =>
      SegmentNeeds allowed data base answers segment ∧
        (Mapped data answers segment →
          SegmentsNeed allowed data base answers rest)

theorem meets_mapSegments
    {post : Unit → Prop} (data : FileBytes) (nextBase : NextBase)
    (answers : KernelAnswers) (segments : List (Phdr × Nat)) :
    Meets allowed post
        (forEach (mapLoadSegment data nextBase.value answers) segments) ↔
      SegmentsNeed allowed data nextBase.value answers segments ∧
        ((∀ segment ∈ segments, Mapped data answers segment) →
          post ()) := by
  induction segments with
  | nil => simp [SegmentsNeed]
  | cons segment rest induction =>
      rw [meets_forEach_cons, meets_mapLoadSegment, SegmentsNeed, and_assoc]
      apply and_congr_right
      intro _
      rw [induction, imp_and, List.forall_mem_cons, and_imp]

/-! ## Relocations -/

/-- What one relocation needs. -/
def RelocationNeeds (allowed : Allowed Event) (base : Nat)
    (rela : RelaEntry) : Prop :=
  relaType rela.rInfo = R_AARCH64_RELATIVE →
    base + rela.rOffset.toNat < 2 ^ 64 ∧
      allowed.event
        (.relocate (base + rela.rOffset.toNat)
          (BitVec.ofNat 64 base + rela.rAddend).toNat)

theorem meets_applyRelocations
    {post : Unit → Prop} (base : Nat) (relas : List RelaEntry) :
    Meets allowed post (forEach (applyRelocation base) relas) ↔
      (∀ rela ∈ relas, RelocationNeeds allowed base rela) ∧ post () := by
  induction relas with
  | nil => simp
  | cons rela rest induction =>
      rw [meets_forEach_cons, List.forall_mem_cons, and_assoc, ← induction]
      unfold applyRelocation RelocationNeeds
      by_cases isRelative : relaType rela.rInfo = R_AARCH64_RELATIVE
      · simp only [isRelative, ne_eq, not_true_eq_false, if_false,
          meets_bind, meets_add, meets_emit, forall_true_left, and_assoc]
      · simp only [isRelative, ne_eq, not_false_eq_true, if_true,
          meets_pure, false_implies, true_and]

/-- What the relocations of an image need, and what comes after them. -/
def RelocationsNeed (allowed : Allowed Event) (data : FileBytes)
    (base : Nat) (phdrs : List Phdr) (rest : Prop) : Prop :=
  OnFirst PT_DYNAMIC phdrs rest fun phdr =>
    FileEndFits phdr ∧
      (SegmentInFile data phdr →
        allowed.event (.allocate (phdr.pFilesz.toNat / 16) 16) ∧
          RelaAllocates allowed (dynamicTable data.bytes phdr) ∧
          (RelaInFile data (dynamicTable data.bytes phdr) →
            (∀ rela ∈ relaTable data.bytes (dynamicTable data.bytes phdr),
                RelocationNeeds allowed base rela) ∧
              rest))

/-- Without a dynamic section there is nothing to allocate or to read. -/
theorem rela_of_nil (allowed : Allowed Event) (data : FileBytes) :
    RelaAllocates allowed [] ∧ RelaInFile data [] ∧
      relaTable data.bytes [] = [] := by
  refine ⟨fun some => (some rfl).elim, ?_, rfl⟩
  intro k above below
  have none : relaCount [] = 0 := rfl
  omega

theorem meets_relocateImage
    {post : Unit → Prop} (data : FileBytes) (base : Nat)
    (phdrs : List Phdr) :
    Meets allowed post (relocateImage data base phdrs) ↔
      RelocationsNeed allowed data base phdrs (post ()) := by
  have onEntries (dyns : List Dyn) :
      Meets allowed post
          (if dyns = [] then pure ()
          else do
            let relas ← relaEntriesFromDynamic data dyns
            let _ ← applyRelativeRelocations base relas
            pure ()) ↔
        RelaAllocates allowed dyns ∧
          (RelaInFile data dyns →
            (∀ rela ∈ relaTable data.bytes dyns,
                RelocationNeeds allowed base rela) ∧
              post ()) := by
    by_cases empty : dyns = []
    · subst empty
      obtain ⟨allocates, inFile, nothing⟩ :=
        rela_of_nil allowed data
      simp [allocates, inFile, nothing]
    · simp only [empty, if_false, meets_bind,
        meets_relaEntriesFromDynamic, applyRelativeRelocations,
        meets_applyRelocations, meets_pure]
  unfold relocateImage RelocationsNeed
  rw [meets_bind, meets_dynamicEntries]
  unfold OnFirst
  cases firstOf PT_DYNAMIC phdrs with
  | none => simp
  | some phdr => simp only [onEntries]

/-! ## Whole files -/

/-- What the interpreter's path needs, and what comes after it. -/
def InterpNeeds (data : FileBytes) (phdrs : List Phdr) (rest : Prop) :
    Prop :=
  OnFirst PT_INTERP phdrs rest fun phdr =>
    FileEndFits phdr ∧ (SegmentInFile data phdr → rest)

/-- The two addresses of an image fit into 64 bits. -/
def AddressesFit (base : Nat) (hdr : Ehdr) : Prop :=
  base + hdr.eEntry.toNat < 2 ^ 64 ∧ base + hdr.ePhoff.toNat < 2 ^ 64

/-- What an image needs, once its program headers are there. -/
def ImageNeeds (allowed : Allowed Event) (data : FileBytes)
    (answers : KernelAnswers) (nextBase : NextBase) (hdr : Ehdr)
    (phdrs : List Phdr) (rest : Prop) : Prop :=
  let loads := loadSegments phdrs
  (∀ phdr ∈ loads, memEnd phdr < 2 ^ 64) ∧
    nextBase.value + slotSize loads < 2 ^ 64 ∧
    allowed.event (.takeSlot (nextBase.value + slotSize loads)) ∧
    (answers.reserve = none →
      allowed.event (.reserve ⟨nextBase.value, totalSize loads⟩) ∧
        SegmentsNeed allowed data nextBase.value answers loads.zipIdx ∧
        ((∀ segment ∈ loads.zipIdx, Mapped data answers segment) →
          RelocationsNeed allowed data nextBase.value phdrs
            (InterpNeeds data phdrs
              (AddressesFit nextBase.value hdr ∧ rest))))

/-- What a file needs. -/
def LoadNeeds (allowed : Allowed Event) (data : FileBytes)
    (answers : KernelAnswers) (nextBase : NextBase) (rest : Prop) : Prop :=
  ∀ hdr, parseHeader data.bytes = .ok hdr → hdr.eType = ET_DYN →
    (hdr.ePhnum.toNat ≠ 0 → allowed.event (.allocate hdr.ePhnum.toNat 56)) ∧
      (TableInFile data.bytes hdr →
        loadSegments (table data.bytes hdr) ≠ [] →
          ImageNeeds allowed data answers nextBase hdr
            (table data.bytes hdr) rest)

theorem meets_validatePie {post : Unit → Prop} (hdr : Ehdr) :
    Meets allowed post (lift (validatePie hdr)) ↔
      (hdr.eType = ET_DYN → post ()) := by
  unfold validatePie
  by_cases isPie : hdr.eType = ET_DYN
  · simp only [isPie, ne_eq, not_true_eq_false, if_false,
      forall_true_left]
    exact meets_pure ()
  · simp [isPie, lift]

/-- What is left once the program headers are there. -/
theorem meets_image
    {rest : Prop} (data : FileBytes) (answers : KernelAnswers)
    (nextBase : NextBase) (hdr : Ehdr) (phdrs : List Phdr) :
    Meets allowed (fun _ => rest) (loadImage data answers nextBase hdr phdrs) ↔
      (loadSegments phdrs ≠ [] →
        ImageNeeds allowed data answers nextBase hdr phdrs rest) := by
  by_cases empty : loadSegments phdrs = []
  · simp [loadImage, empty]
  · have above : spanOf (loadSegments phdrs) ≤
        roundUp SLOT_ALIGN (totalSize (loadSegments phdrs)) :=
      (le_roundUp _ (by decide)).trans (le_roundUp _ (by decide))
    have low := nextBase.low
    unfold loadImage ImageNeeds
    simp only [empty, if_false, ne_eq, not_false_eq_true, forall_true_left,
      meets_bind, meets_loadSpan empty, meets_pageAlignUp,
      meets_allocSlot, meets_kernelCall, meets_emit, meets_mapSegments,
      meets_relocateImage, meets_interpreterPath, meets_add, meets_pure]
    apply and_congr_right
    intro _
    simp only [InterpNeeds, AddressesFit, and_assoc]
    -- the slot is longer than the span, so that the first sum fits as well
    refine and_iff_right_of_imp fun slot => ?_
    have fits : nextBase.value + slotSize (loadSegments phdrs) < 2 ^ 64 :=
      slot.1
    unfold slotSize at fits
    omega

theorem meets_loadPie
    {rest : Prop} (data : FileBytes) (answers : KernelAnswers)
    (nextBase : NextBase) :
    Meets allowed (fun _ => rest) (loadPie data answers nextBase) ↔
      LoadNeeds allowed data answers nextBase rest := by
  simp only [loadPie, LoadNeeds, meets_bind, meets_lift (parseHeader _),
    meets_validatePie, meets_programHeaders, meets_image]

end Vproc.Exec.LoadSteps
