import Vproc.Exec.RelocationTable
import Vproc.Lib.Run

/-!
# Images in the slots reserved for them

Each call of `load_pie` reserves a slot at `NEXT_BASE`, which it has moved
beyond the slot before.  The reserved ranges never overlap.  What is mapped,
copied and relocated is another matter: the slot is as long as the span of the
segments, from the least address to the greatest, but addresses are counted
from the start of the slot, and the sizes in the file and the offsets of the
relocations are not compared with it.
-/

namespace Vproc.Exec.LoadedRanges

open Vproc.Lib.Alignment
open Vproc.Lib.Procedure
open Vproc.Lib.Procedure.Traced
open Vproc.Lib.Run
open Vproc.Exec.Elf hiding programHeaders
open Vproc.Exec.ElfTables
open Vproc.Exec.LoadPie
open Vproc.Exec.LoadSteps
open Vproc.Exec.RelocationTable

/-! ## Ranges -/

/-- The addresses of a range. -/
def addresses (range : AddressRange) : Set Nat :=
  Set.Ico range.start (range.start + range.size)

/-- The memory which an event maps or writes to. -/
def touched : Event → Option AddressRange
  | .map range => some range
  | .copy start bytes => some ⟨start, bytes.length⟩
  | .relocate target _ => some ⟨target, 8⟩
  | _ => none

/-- The range which an event reserves. -/
def reserved : Event → Option AddressRange
  | .reserve range => some range
  | _ => none

/-- The next base which an event sets. -/
def slotEnd : Event → Option Nat
  | .takeSlot next => some next
  | _ => none

/-- A part of the slot is in it, if it is empty or ends before the slot. -/
theorem addresses_subset_iff (base start size total : Nat) :
    addresses ⟨base + start, size⟩ ⊆ addresses ⟨base, total⟩ ↔
      (0 < size → start + size ≤ total) := by
  unfold addresses
  dsimp only
  rcases Nat.eq_zero_or_pos size with rfl | some
  · simp
  · rw [Set.Ico_subset_Ico_iff (by omega)]
    omega

/-! ## Calls one after the other -/

/-- Everything a call touches is in a range which it has reserved. -/
def Contained (events : List Event) : Prop :=
  ∀ event ∈ events, ∀ range ∈ touched event,
    ∃ slot ∈ events.filterMap reserved, addresses range ⊆ addresses slot

/-- `NEXT_BASE`, and what the calls have done so far. -/
structure State where
  nextBase : NextBase
  calls : List (List Event)

def State.initial : State where
  nextBase := .initial
  calls := []

/-- `NEXT_BASE` after a call. -/
def nextBaseAfter (nextBase : NextBase) (events : List Event) : NextBase :=
  match events.findSome? slotEnd with
  | none => nextBase
  | some next =>
      if moves :
          nextBase.value ≤ next ∧ PAGE_SIZE ∣ next ∧ next < 2 ^ 64 then
        { value := next
          low := nextBase.low.trans moves.1
          paged := moves.2.1
          bound := moves.2.2 }
      else nextBase

/-- `load_pie` with a kernel which grants all calls; none on overflow. -/
def step (state : State) (data : FileBytes) : Option State :=
  let call := loadPie data .granted state.nextBase
  if call.outcome = .fault .overflow then none
  else
    some
      { nextBase := nextBaseAfter state.nextBase call.events
        calls := state.calls ++ [call.events] }

/-- No image reaches out of its slot, and no two slots overlap. -/
structure ImagesApart (state : State) : Prop where
  contained : ∀ events ∈ state.calls, Contained events
  disjoint : state.calls.Pairwise fun earlier later =>
    ∀ slot ∈ earlier.filterMap reserved,
      ∀ other ∈ later.filterMap reserved,
        Disjoint (addresses slot) (addresses other)

/-! ## The condition -/

/-- A segment is within a slot of this size. -/
structure SegmentInside (data : FileBytes) (total : Nat) (phdr : Phdr) :
    Prop where
  pages :
    roundDown PAGE_SIZE phdr.pVaddr.toNat <
        roundUp PAGE_SIZE (memEnd phdr) →
      roundUp PAGE_SIZE (memEnd phdr) ≤ total
  bytes : 0 < phdr.pFilesz.toNat → SegmentInFile data phdr →
    phdr.pVaddr.toNat + phdr.pFilesz.toNat ≤ total

/-- The segments in turn, up to the first whose bytes are missing. -/
def SegmentsInside (data : FileBytes) (total : Nat) : List Phdr → Prop
  | [] => True
  | phdr :: rest =>
      SegmentInside data total phdr ∧
        (Copies data phdr → SegmentsInside data total rest)

/-- The words which are relocated are within a slot of this size. -/
def RelocationsInside (data : FileBytes) (total : Nat)
    (phdrs : List Phdr) : Prop :=
  OnFirst PT_DYNAMIC phdrs True fun phdr =>
    SegmentInFile data phdr →
      RelaInFile data (dynamicTable data.bytes phdr) →
        ∀ rela ∈ relaTable data.bytes (dynamicTable data.bytes phdr),
          relaType rela.rInfo = R_AARCH64_RELATIVE →
            rela.rOffset.toNat + 8 ≤ total

/-- The header of a file for which a slot is reserved. -/
structure Opens (data : FileBytes) (hdr : Ehdr) : Prop where
  parsed : parseHeader data.bytes = .ok hdr
  isPie : hdr.eType = ET_DYN
  inTable : TableInFile data.bytes hdr
  loads : loadSegments (table data.bytes hdr) ≠ []

/-- A file all of whose addresses lie within the span of its segments. -/
def StaysInside (data : FileBytes) : Prop :=
  ∀ hdr, Opens data hdr →
    let phdrs := table data.bytes hdr
    let loads := loadSegments phdrs
    SegmentsInside data (totalSize loads) loads ∧
      ((∀ phdr ∈ loads, Copies data phdr) →
        RelocationsInside data (totalSize loads) phdrs)

/-! ## What a call does -/

/-- The range which is reserved for an image. -/
def slotOf (nextBase : NextBase) (phdrs : List Phdr) : AddressRange where
  start := nextBase.value
  size := totalSize (loadSegments phdrs)

section Does

variable (does : Event → Prop) (data : FileBytes) (base : Nat)

/-- What is done for a segment. -/
structure SegmentDoes (phdr : Phdr) : Prop where
  maps : does (.map (mappedRange base phdr))
  copies : 0 < phdr.pFilesz.toNat → SegmentInFile data phdr →
    does
      (.copy (base + phdr.pVaddr.toNat) (copiedBytes data.bytes phdr))
  protects : Copies data phdr →
    does (.protect (mappedRange base phdr) (protFromFlags phdr.pFlags))

/-- What is done for the segments. -/
def SegmentsDo : List Phdr → Prop
  | [] => True
  | phdr :: rest =>
      SegmentDoes does data base phdr ∧
        (Copies data phdr → SegmentsDo rest)

/-- What is done for the relocations. -/
def RelocationsDo (phdrs : List Phdr) : Prop :=
  OnFirst PT_DYNAMIC phdrs True fun phdr =>
    SegmentInFile data phdr →
      does (.allocate (phdr.pFilesz.toNat / 16) 16) ∧
        (lastValue DT_RELASZ (dynamicTable data.bytes phdr) ≠ 0 →
          relaCount (dynamicTable data.bytes phdr) * 24 < 2 ^ 63 →
            does
              (.allocate (relaCount (dynamicTable data.bytes phdr)) 24)) ∧
        (RelaInFile data (dynamicTable data.bytes phdr) →
          ∀ rela ∈ relaTable data.bytes (dynamicTable data.bytes phdr),
            relaType rela.rInfo = R_AARCH64_RELATIVE →
              does
                (.relocate (base + rela.rOffset.toNat)
                  (BitVec.ofNat 64 base + rela.rAddend).toNat))

/-- What is done for an image. -/
structure ImageDoes (nextBase : NextBase) (phdrs : List Phdr) : Prop where
  moves :
    does (.takeSlot (nextBase.value + slotSize (loadSegments phdrs)))
  reserves : does (.reserve (slotOf nextBase phdrs))
  segments :
    SegmentsDo does data nextBase.value (loadSegments phdrs)
  relocations : (∀ phdr ∈ loadSegments phdrs, Copies data phdr) →
    RelocationsDo does data nextBase.value phdrs

/-- Everything is done for which the sums fit. -/
abbrev sumsFit : Allowed Event := .unlessOverflow fun _ => True

@[simp]
theorem mapped_granted (segment : Phdr × Nat) :
    Mapped data .granted segment ↔ Copies data segment.1 := by
  simp [Mapped, KernelAnswers.granted]

theorem segmentsNeed_iff
    {segments : List (Phdr × Nat)}
    (fits : SegmentsNeed sumsFit data base .granted segments) :
    SegmentsNeed (.unlessOverflow does) data base .granted segments ↔
      SegmentsDo does data base (segments.map Prod.fst) := by
  induction segments with
  | nil => exact Iff.rfl
  | cons segment rest induction =>
      obtain ⟨⟨here, copies⟩, later⟩ := fits
      have restIff (copied : Copies data segment.1) :=
        induction (later ((mapped_granted data segment).mpr copied))
      obtain ⟨_, copies, _⟩ := copies rfl
      simp only [SegmentsNeed, SegmentsDo, SegmentNeeds, List.map_cons,
        mapped_granted, Allowed.event_unlessOverflow, here, true_and]
      constructor
      · rintro ⟨steps, others⟩
        obtain ⟨maps, copying, protects⟩ := steps rfl
        refine ⟨⟨maps, fun some inFile => (copying some).2 inFile, ?_⟩, ?_⟩
        · exact fun copied => protects copied rfl
        · exact fun copied => (restIff copied).mp (others copied)
      · rintro ⟨⟨maps, copying, protects⟩, others⟩
        refine ⟨fun _ => ⟨maps, ?_, fun copied _ => protects copied⟩, ?_⟩
        · exact fun some => ⟨(copies some).1, copying some⟩
        · exact fun copied => (restIff copied).mpr (others copied)

theorem relocationsNeed_iff
    {phdrs : List Phdr} {rest : Prop}
    (fits : RelocationsNeed sumsFit data base phdrs rest) :
    RelocationsNeed (.unlessOverflow does) data base phdrs rest ↔
      RelocationsDo does data base phdrs := by
  refine onFirst_congr (fun none => ?_) fun phdr found => ?_
  · exact iff_of_true ((onFirst_of_none none).mp fits) True.intro
  · obtain ⟨here, later⟩ := (onFirst_of_some found).mp fits
    rw [and_iff_right here]
    apply imp_congr_right
    intro inFile
    obtain ⟨_, _, relocates⟩ := later inFile
    apply and_congr_right
    intro _
    apply and_congr
    · simp [RelaAllocates, Allowed.unlessOverflow]
    · apply imp_congr_right
      intro relaInFile
      obtain ⟨targets, ends⟩ := relocates relaInFile
      rw [and_iff_left ends]
      constructor
      · exact fun every rela member isRelative =>
          (every rela member isRelative).2
      · exact fun every rela member isRelative =>
          ⟨(targets rela member isRelative).1, every rela member isRelative⟩

theorem imageNeeds_iff
    {nextBase : NextBase} {hdr : Ehdr} {phdrs : List Phdr} {rest : Prop}
    (fits :
      ImageNeeds sumsFit data .granted nextBase hdr phdrs rest) :
    ImageNeeds (.unlessOverflow does) data .granted nextBase hdr phdrs
        rest ↔
      ImageDoes does data nextBase phdrs := by
  obtain ⟨ends, slot, _, image⟩ := fits
  obtain ⟨_, segments, relocations⟩ := image rfl
  have allCopied :
      (∀ segment ∈ (loadSegments phdrs).zipIdx,
          Mapped data .granted segment) ↔
        ∀ phdr ∈ loadSegments phdrs, Copies data phdr := by
    simp only [mapped_granted]
    constructor
    · intro every phdr member
      obtain ⟨i, found⟩ := List.mem_iff_getElem?.mp member
      exact every (phdr, i) (List.mem_zipIdx_iff_getElem?.mpr found)
    · intro every segment member
      exact every segment.1 (List.fst_mem_of_mem_zipIdx member)
  have segmentsIff := segmentsNeed_iff does data nextBase.value segments
  rw [List.zipIdx_map_fst] at segmentsIff
  have relocationsIff
      (copied : ∀ phdr ∈ loadSegments phdrs, Copies data phdr) :=
    relocationsNeed_iff does data nextBase.value
      (relocations (allCopied.mpr copied))
  unfold ImageNeeds
  simp only [Allowed.event_unlessOverflow, segmentsIff, allCopied]
  constructor
  · rintro ⟨_, _, moves, steps⟩
    obtain ⟨reserves, maps, relocates⟩ := steps rfl
    exact
      ⟨moves, reserves, maps, fun copied =>
        (relocationsIff copied).mp (relocates copied)⟩
  · rintro ⟨moves, reserves, maps, relocates⟩
    refine ⟨ends, slot, moves, fun _ => ⟨reserves, maps, ?_⟩⟩
    exact fun copied => (relocationsIff copied).mpr (relocates copied)

/-- What holds of all other events is for the slot to decide. -/
theorem imageDoes_of_slot
    {nextBase : NextBase} {phdrs : List Phdr}
    (others : ∀ event, reserved event = none → slotEnd event = none →
      does event)
    (moves :
      does (.takeSlot (nextBase.value + slotSize (loadSegments phdrs))))
    (reserves : does (.reserve (slotOf nextBase phdrs))) :
    ImageDoes does data nextBase phdrs := by
  have segments (loads : List Phdr) :
      SegmentsDo does data nextBase.value loads := by
    induction loads with
    | nil => exact True.intro
    | cons phdr rest induction =>
        refine ⟨⟨others _ rfl rfl, ?_, ?_⟩, fun _ => induction⟩
        · exact fun _ _ => others _ rfl rfl
        · exact fun _ => others _ rfl rfl
  refine ⟨moves, reserves, segments _, fun _ => ?_⟩
  unfold RelocationsDo OnFirst
  cases firstOf PT_DYNAMIC phdrs with
  | none => exact True.intro
  | some phdr =>
      refine fun _ => ⟨others _ rfl rfl, ?_, ?_⟩
      · exact fun _ _ => others _ rfl rfl
      · exact fun _ _ _ _ => others _ rfl rfl

end Does

section Call

variable {data : FileBytes} {nextBase : NextBase}
variable
  (fits : (loadPie data .granted nextBase).outcome ≠ .fault .overflow)
  (does : Event → Prop)

include fits

theorem events_iff :
    (∀ event ∈ (loadPie data .granted nextBase).events, does event) ↔
      LoadNeeds (.unlessOverflow does) data .granted nextBase True := by
  have excused (fault : Fault)
      (isFault : (loadPie data .granted nextBase).outcome = .fault fault) :
      (Allowed.unlessOverflow does).fault fault := by
    cases fault with
    | overflow => exact (fits isFault).elim
    | slice => exact True.intro
    | capacity => exact True.intro
  rw [← meets_loadPie, meets_iff_events excused]
  rfl

/-- The events of a call which gets as far as its slot. -/
theorem opened_events_iff {hdr : Ehdr} (opens : Opens data hdr) :
    (∀ event ∈ (loadPie data .granted nextBase).events, does event) ↔
      (hdr.ePhnum.toNat ≠ 0 → does (.allocate hdr.ePhnum.toNat 56)) ∧
        ImageDoes does data nextBase (table data.bytes hdr) := by
  have sums :=
    (events_iff fits fun _ => True).mp fun _ _ => True.intro
  obtain ⟨_, image⟩ := sums hdr opens.parsed opens.isPie
  have imageIff :=
    imageNeeds_iff does data (image opens.inTable opens.loads)
  rw [events_iff fits, ← imageIff]
  constructor
  · intro needs
    obtain ⟨allocates, image⟩ := needs hdr opens.parsed opens.isPie
    exact ⟨allocates, image opens.inTable opens.loads⟩
  · rintro ⟨allocates, image⟩ other parsed _
    cases opens.parsed.symm.trans parsed
    exact ⟨allocates, fun _ _ => image⟩

/-- The events of a call which does not. -/
theorem allocate_of_not_opens
    (closed : ∀ hdr, ¬ Opens data hdr) :
    ∀ event ∈ (loadPie data .granted nextBase).events,
      ∃ count size, event = .allocate count size := by
  rw [events_iff fits]
  intro hdr parsed isPie
  refine ⟨fun _ => ⟨_, _, rfl⟩, fun inTable loads => ?_⟩
  exact (closed hdr ⟨parsed, isPie, inTable, loads⟩).elim

/-- A call which gets as far as its slot reserves it, and nothing else. -/
theorem mem_reserved_iff
    {hdr : Ehdr} (opens : Opens data hdr) (slot : AddressRange) :
    slot ∈ (loadPie data .granted nextBase).events.filterMap reserved ↔
      slot = slotOf nextBase (table data.bytes hdr) := by
  rw [List.mem_filterMap]
  constructor
  · rintro ⟨event, member, isReserved⟩
    have only :=
      (opened_events_iff fits
        (fun event => ∀ range, reserved event = some range →
          range = slotOf nextBase (table data.bytes hdr))
        opens).mpr
        ⟨fun _ => nofun,
          imageDoes_of_slot _ _
            (fun event none _ range some => nomatch none.symm.trans some)
            nofun (fun _ same => (Option.some.inj same).symm)⟩
    exact only event member slot isReserved
  · rintro rfl
    by_contra absent
    have image :=
      ((opened_events_iff fits
        (fun event =>
          event ≠ .reserve (slotOf nextBase (table data.bytes hdr)))
        opens).mp fun event member same =>
          absent ⟨event, member, same ▸ rfl⟩).2
    exact image.reserves rfl

/-- A call which gets as far as its slot moves the next base behind it. -/
theorem value_nextBaseAfter
    {hdr : Ehdr} (opens : Opens data hdr) :
    (nextBaseAfter nextBase
        (loadPie data .granted nextBase).events).value =
      nextBase.value + slotSize (loadSegments (table data.bytes hdr)) := by
  have only :=
    (opened_events_iff fits
      (fun event => ∀ next, slotEnd event = some next →
        next =
          nextBase.value + slotSize (loadSegments (table data.bytes hdr)))
      opens).mpr
      ⟨fun _ => nofun,
        imageDoes_of_slot _ _
          (fun event _ none next some => nomatch none.symm.trans some)
          (fun _ same => (Option.some.inj same).symm) nofun⟩
  have sums :=
    (events_iff fits fun _ => True).mp fun _ _ => True.intro
  obtain ⟨_, image⟩ := sums hdr opens.parsed opens.isPie
  obtain ⟨_, bound, _⟩ := image opens.inTable opens.loads
  have paged :
      PAGE_SIZE ∣
        nextBase.value +
          slotSize (loadSegments (table data.bytes hdr)) := by
    have slot : PAGE_SIZE ∣ SLOT_ALIGN := by decide
    exact
      Nat.dvd_add nextBase.paged
        (Nat.dvd_add (slot.trans (dvd_roundUp _ _)) (dvd_refl _))
  cases found :
      (loadPie data .granted nextBase).events.findSome? slotEnd with
  | none =>
      have never := List.findSome?_eq_none_iff.mp found
      have image :=
        ((opened_events_iff fits (fun event => slotEnd event = none)
          opens).mp never).2
      cases image.moves
  | some next =>
      obtain ⟨event, member, isEnd⟩ :=
        List.exists_of_findSome?_eq_some found
      obtain rfl := only event member next isEnd
      simp only [nextBaseAfter, found]
      rw [dif_pos ⟨Nat.le_add_right _ _, paged, bound⟩]

end Call

/-! ## Within the slot -/

/-- What an event touches is within a range. -/
def Within (slot : AddressRange) (event : Event) : Prop :=
  ∀ range ∈ touched event, addresses range ⊆ addresses slot

@[simp]
theorem within_map_iff (slot range : AddressRange) :
    Within slot (.map range) ↔ addresses range ⊆ addresses slot := by
  simp [Within, touched]

@[simp]
theorem within_copy_iff
    (slot : AddressRange) (start : Nat) (bytes : List UInt8) :
    Within slot (.copy start bytes) ↔
      addresses ⟨start, bytes.length⟩ ⊆ addresses slot := by
  simp [Within, touched]

@[simp]
theorem within_relocate_iff (slot : AddressRange) (target value : Nat) :
    Within slot (.relocate target value) ↔
      addresses ⟨target, 8⟩ ⊆ addresses slot := by
  simp [Within, touched]

theorem within_of_untouched
    {event : Event} (untouched : touched event = none)
    (slot : AddressRange) : Within slot event := by
  simp [Within, untouched]

section Within

variable (data : FileBytes) (base total : Nat)

theorem segmentDoes_within_iff (phdr : Phdr) :
    SegmentDoes (Within ⟨base, total⟩) data base phdr ↔
      SegmentInside data total phdr := by
  have pages :
      Within ⟨base, total⟩ (.map (mappedRange base phdr)) ↔
        (roundDown PAGE_SIZE phdr.pVaddr.toNat <
            roundUp PAGE_SIZE (memEnd phdr) →
          roundUp PAGE_SIZE (memEnd phdr) ≤ total) := by
    rw [within_map_iff, mappedRange, addresses_subset_iff]
    omega
  have bytes (some : 0 < phdr.pFilesz.toNat)
      (inFile : SegmentInFile data phdr) :
      Within ⟨base, total⟩
          (.copy (base + phdr.pVaddr.toNat)
            (copiedBytes data.bytes phdr)) ↔
        phdr.pVaddr.toNat + phdr.pFilesz.toNat ≤ total := by
    rw [within_copy_iff, copiedBytes, length_bytesAt inFile,
      addresses_subset_iff]
    exact forall_prop_of_true some
  constructor
  · rintro ⟨maps, copies, _⟩
    exact
      ⟨pages.mp maps, fun some inFile =>
        (bytes some inFile).mp (copies some inFile)⟩
  · rintro ⟨inside, copied⟩
    exact
      ⟨pages.mpr inside,
        fun some inFile => (bytes some inFile).mpr (copied some inFile),
        fun _ => within_of_untouched rfl _⟩

theorem segmentsDo_within_iff (loads : List Phdr) :
    SegmentsDo (Within ⟨base, total⟩) data base loads ↔
      SegmentsInside data total loads := by
  induction loads with
  | nil => exact Iff.rfl
  | cons phdr rest induction =>
      rw [SegmentsDo, SegmentsInside, segmentDoes_within_iff, induction]

theorem relocationsDo_within_iff (phdrs : List Phdr) :
    RelocationsDo (Within ⟨base, total⟩) data base phdrs ↔
      RelocationsInside data total phdrs := by
  refine onFirst_congr (fun _ => Iff.rfl) fun phdr _ => ?_
  have untouched (count size : Nat) :
      Within ⟨base, total⟩ (.allocate count size) :=
    within_of_untouched rfl _
  simp only [untouched, implies_true, true_and, within_relocate_iff,
    addresses_subset_iff, Nat.zero_lt_succ, forall_true_left]

/-- An image is within its slot if its segments and relocations are. -/
theorem imageDoes_within_iff (nextBase : NextBase) (phdrs : List Phdr) :
    ImageDoes (Within (slotOf nextBase phdrs)) data nextBase phdrs ↔
      SegmentsInside data (totalSize (loadSegments phdrs))
          (loadSegments phdrs) ∧
        ((∀ phdr ∈ loadSegments phdrs, Copies data phdr) →
          RelocationsInside data (totalSize (loadSegments phdrs))
            phdrs) := by
  rw [← segmentsDo_within_iff data nextBase.value,
    ← relocationsDo_within_iff data nextBase.value]
  constructor
  · exact fun image => ⟨image.segments, image.relocations⟩
  · rintro ⟨segments, relocations⟩
    exact
      ⟨within_of_untouched rfl _, within_of_untouched rfl _, segments,
        relocations⟩

end Within

/-- A call stays in its slot if and only if the addresses of the file do. -/
theorem contained_iff
    {data : FileBytes} {nextBase : NextBase}
    (fits :
      (loadPie data .granted nextBase).outcome ≠ .fault .overflow) :
    Contained (loadPie data .granted nextBase).events ↔
      StaysInside data := by
  by_cases some : ∃ hdr, Opens data hdr
  · obtain ⟨hdr, opens⟩ := some
    have onlyHeader :
        StaysInside data ↔
          ImageDoes (Within (slotOf nextBase (table data.bytes hdr))) data
            nextBase (table data.bytes hdr) := by
      rw [imageDoes_within_iff]
      constructor
      · exact fun stays => stays hdr opens
      · intro inside other otherOpens
        cases opens.parsed.symm.trans otherOpens.parsed
        exact inside
    have inSlot :=
      opened_events_iff fits
        (Within (slotOf nextBase (table data.bytes hdr))) opens
    rw [and_iff_right fun _ => within_of_untouched rfl _] at inSlot
    rw [onlyHeader, ← inSlot]
    unfold Contained Within
    simp only [mem_reserved_iff fits opens, exists_eq_left]
  · have closed := not_exists.mp some
    refine iff_of_true ?_ fun hdr opens => (closed hdr opens).elim
    intro event member range isTouched
    obtain ⟨count, size, rfl⟩ :=
      allocate_of_not_opens fits closed event member
    cases isTouched

/-! ## Runs -/

theorem step_eq_some_iff
    {state next : State} {data : FileBytes} :
    step state data = some next ↔
      (loadPie data .granted state.nextBase).outcome ≠ .fault .overflow ∧
        next =
          { nextBase :=
              nextBaseAfter state.nextBase
                (loadPie data .granted state.nextBase).events
            calls :=
              state.calls ++
                [(loadPie data .granted state.nextBase).events] } := by
  simp only [step, ne_eq]
  split
  · simp [*]
  · simp [*, eq_comm]

/-- What a call reserves is between the next base before it and after. -/
theorem slot_between
    {data : FileBytes} {nextBase : NextBase}
    (fits :
      (loadPie data .granted nextBase).outcome ≠ .fault .overflow) :
    ∀ slot ∈ (loadPie data .granted nextBase).events.filterMap reserved,
      slot.start = nextBase.value ∧
        slot.start + slot.size ≤
          (nextBaseAfter nextBase
            (loadPie data .granted nextBase).events).value := by
  intro slot isReserved
  by_cases some : ∃ hdr, Opens data hdr
  · obtain ⟨hdr, opens⟩ := some
    obtain rfl := (mem_reserved_iff fits opens slot).mp isReserved
    have long :=
      le_roundUp (totalSize (loadSegments (table data.bytes hdr)))
        (by decide : 0 < SLOT_ALIGN)
    refine ⟨rfl, ?_⟩
    rw [value_nextBaseAfter fits opens]
    unfold slotOf slotSize
    dsimp only
    omega
  · obtain ⟨event, member, isSlot⟩ := List.mem_filterMap.mp isReserved
    obtain ⟨count, size, rfl⟩ :=
      allocate_of_not_opens fits (not_exists.mp some) event member
    cases isSlot

/-- The next base never moves back. -/
theorem value_le_nextBaseAfter (nextBase : NextBase) (events : List Event) :
    nextBase.value ≤ (nextBaseAfter nextBase events).value := by
  unfold nextBaseAfter
  cases events.findSome? slotEnd with
  | none => exact le_rfl
  | some next =>
      dsimp only
      split
      · rename_i moves
        exact moves.1
      · exact le_rfl

/-- The slots do not overlap, and the next one begins behind them. -/
structure SlotsBehind (state : State) : Prop where
  behind : ∀ events ∈ state.calls, ∀ slot ∈ events.filterMap reserved,
    slot.start + slot.size ≤ state.nextBase.value
  disjoint : state.calls.Pairwise fun earlier later =>
    ∀ slot ∈ earlier.filterMap reserved,
      ∀ other ∈ later.filterMap reserved,
        Disjoint (addresses slot) (addresses other)

theorem slotsBehind_step
    {state next : State} {data : FileBytes}
    (before : SlotsBehind state)
    (stepped : step state data = some next) :
    SlotsBehind next := by
  obtain ⟨fits, rfl⟩ := step_eq_some_iff.mp stepped
  have between := slot_between fits
  have forward :=
    value_le_nextBaseAfter state.nextBase
      (loadPie data .granted state.nextBase).events
  constructor
  · intro events member slot isReserved
    rcases List.mem_append.mp member with earlier | now
    · exact (before.behind events earlier slot isReserved).trans forward
    · obtain rfl := List.mem_singleton.mp now
      exact (between slot isReserved).2
  · refine List.pairwise_append.mpr
      ⟨before.disjoint, List.pairwise_singleton _ _, ?_⟩
    intro earlier member later now slot isReserved other otherReserved
    obtain rfl := List.mem_singleton.mp now
    have ends := before.behind earlier member slot isReserved
    have starts := (between other otherReserved).1
    unfold addresses
    rw [Set.Ico_disjoint_Ico]
    omega

/-- The calls which stay in their slots are those of the right files. -/
theorem contained_run_iff
    {files : List FileBytes} {state final : State}
    (reached : run step state files = some final) :
    (∀ events ∈ final.calls, Contained events) ↔
      (∀ events ∈ state.calls, Contained events) ∧
        ∀ data ∈ files, StaysInside data := by
  induction files generalizing state with
  | nil =>
      cases reached
      simp
  | cons data rest induction =>
      obtain ⟨next, stepped, continued⟩ := run_cons_iff.mp reached
      obtain ⟨fits, rfl⟩ := step_eq_some_iff.mp stepped
      rw [induction continued, List.forall_mem_append,
        List.forall_mem_singleton, contained_iff fits,
        List.forall_mem_cons, and_assoc]

/--
The loaded images stay apart if and only if all addresses of every file lie
within the span of its segments.
-/
theorem loaded_images_apart_iff
    {files : List FileBytes} {final : State}
    (reached : run step .initial files = some final) :
    ImagesApart final ↔ ∀ data ∈ files, StaysInside data := by
  have start : SlotsBehind .initial := ⟨nofun, List.Pairwise.nil⟩
  have slots : SlotsBehind final :=
    invariant_of_run (fun _ _ _ before => slotsBehind_step before) start
      reached
  have contained := contained_run_iff reached
  rw [and_iff_right (nofun : ∀ events ∈ State.initial.calls, _)]
    at contained
  rw [← contained]
  exact ⟨ImagesApart.contained, fun all => ⟨all, slots.disjoint⟩⟩

/-- The file at address 0 needs no more than the span of its segment. -/
theorem staysInside_plain : StaysInside plainPie.data := by
  intro hdr opens
  obtain rfl : hdr = plainPie.hdr :=
    Except.ok.inj (opens.parsed.symm.trans plainPie.parsed)
  have loads :
      loadSegments (table plainPie.data.bytes plainPie.hdr) =
        [wholeFile 0] := by
    decide +kernel
  have dynamic :
      firstOf PT_DYNAMIC (table plainPie.data.bytes plainPie.hdr) =
        some (dynamicSection 0) := by
    decide +kernel
  have total : totalSize [wholeFile 0] = 4096 := by
    decide +kernel
  dsimp only
  rw [loads, total]
  refine ⟨⟨⟨?_, ?_⟩, fun _ => True.intro⟩, fun _ => ?_⟩
  · decide +kernel
  · exact fun _ _ => by decide +kernel
  · refine (onFirst_of_some dynamic).mpr ?_
    exact fun _ _ => by decide +kernel

/-- Two images of the file are loaded, and are apart. -/
theorem loaded_images_apart_of_plain :
    ∃ final,
      run step .initial [plainPie.data, plainPie.data] = some final ∧
        ImagesApart final := by
  have completes :
      (run step .initial [plainPie.data, plainPie.data]).isSome := by
    decide +kernel
  obtain ⟨final, reached⟩ := Option.isSome_iff_exists.mp completes
  refine ⟨final, reached, (loaded_images_apart_iff reached).mpr ?_⟩
  intro data member
  obtain rfl : data = plainPie.data := by simpa using member
  exact staysInside_plain

/-- At address 4096 it is mapped behind its slot of 4096 bytes. -/
theorem mapped_behind_slot :
    ¬ ∀ (files : List FileBytes) (final : State),
      run step .initial files = some final → ImagesApart final := by
  intro every
  have completes : (run step .initial [shiftedPie.data]).isSome := by
    decide +kernel
  obtain ⟨final, reached⟩ := Option.isSome_iff_exists.mp completes
  have calls :
      final.calls =
        [(loadPie shiftedPie.data .granted .initial).events] := by
    obtain ⟨next, stepped, continued⟩ := run_cons_iff.mp reached
    obtain ⟨_, rfl⟩ := step_eq_some_iff.mp stepped
    obtain rfl := Option.some.inj continued
    exact List.nil_append _
  have slots :
      (loadPie shiftedPie.data .granted .initial).events.filterMap
          reserved =
        [⟨0x2000000000, 4096⟩] := by
    decide +kernel
  have mapped :
      .map ⟨0x2000001000, 4096⟩ ∈
        (loadPie shiftedPie.data .granted .initial).events := by
    decide +kernel
  have contained :=
    (every _ final reached).contained _ (calls ▸ List.mem_singleton_self _)
  obtain ⟨slot, isReserved, inside⟩ := contained _ mapped _ rfl
  rw [slots] at isReserved
  obtain rfl := List.mem_singleton.mp isReserved
  have first : (0x2000001000 : Nat) ∈ addresses ⟨0x2000000000, 4096⟩ :=
    inside ⟨le_rfl, by decide⟩
  exact absurd first.2 (by decide)

end Vproc.Exec.LoadedRanges
