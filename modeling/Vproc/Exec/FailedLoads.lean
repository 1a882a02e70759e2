import Vproc.Exec.AddressSpace
import Vproc.Exec.LoadedRanges

/-!
# What a failed load leaves behind

`load_pie` reserves the slot of an image before it looks at the segments, and
no error afterwards gives it back.  So a failed load has mapped nothing if and
only if it has failed before the reservation, or with it.
-/

namespace Vproc.Exec.FailedLoads

open Vproc.Lib.Procedure
open Vproc.Lib.Procedure.Traced
open Vproc.Lib.Patches
open Vproc.Lib.Run
open Vproc.Exec.Elf hiding programHeaders
open Vproc.Exec.ElfTables
open Vproc.Exec.LoadPie
open Vproc.Exec.LoadSteps
open Vproc.Exec.LoadEvents
open Vproc.Exec.LoadedRanges
open Vproc.Exec.RelocationTable
open Vproc.Exec.AddressSpace

/-- The addresses where something is mapped. -/
def mappedAddresses (memory : Memory) : Set Nat :=
  { address | (memory.prot address).isSome }

/--
`MAP_FIXED_NOREPLACE` succeeds only with a length which is not 0 and at
addresses where nothing is mapped.
-/
def ReservesFree (memory : Memory) (events : List Event) : Prop :=
  ∀ range, .reserve range ∈ events →
    0 < range.size ∧
      ∀ address, Holds range address → address ∉ mappedAddresses memory

/-- The file gets as far as the reservation, and the kernel grants it. -/
def Reserves (data : FileBytes) (answers : KernelAnswers) : Prop :=
  answers.reserve = none ∧ ∃ hdr, Opens data hdr

/-! ## Nothing is unmapped -/

section Mapped

variable {memory after : Memory} {address : Nat}

theorem mem_mapZeros_iff (range : AddressRange) (prot : Image.Prot) :
    address ∈ mappedAddresses (memory.mapZeros range prot) ↔
      Holds range address ∨ address ∈ mappedAddresses memory := by
  change (put memory.prot (onRange range (some prot)) address).isSome ↔
    Holds range address ∨ (memory.prot address).isSome
  by_cases holds : Holds range address
  · rw [put_of_some (onRange_of_holds (some prot) holds)]
    exact iff_of_true rfl (Or.inl holds)
  · rw [put_of_none (onRange_of_not_holds (some prot) holds)]
    exact (or_iff_right holds).symm

theorem mem_of_store
    {start : Nat} {bytes : List UInt8}
    (stored : memory.store start bytes = some after) :
    address ∈ mappedAddresses after ↔ address ∈ mappedAddresses memory := by
  obtain ⟨_, same⟩ := Option.ite_none_right_eq_some.mp stored
  cases same
  exact Iff.rfl

/-- One event: what is mapped stays mapped. -/
theorem mem_of_perform
    {event : Event} (performed : perform memory event = some after)
    (before : address ∈ mappedAddresses memory) :
    address ∈ mappedAddresses after := by
  cases event with
  | allocate count size =>
      cases performed
      exact before
  | takeSlot next =>
      cases performed
      exact before
  | reserve range =>
      cases performed
      exact (mem_mapZeros_iff range _).mpr (Or.inr before)
  | map range =>
      cases performed
      exact (mem_mapZeros_iff range _).mpr (Or.inr before)
  | copy start bytes => exact (mem_of_store performed).mpr before
  | protect range prot =>
      cases performed
      change ((memory.protect range prot).prot address).isSome
      unfold Memory.protect
      dsimp only
      split
      · exact Option.isSome_map.trans before
      · exact before
  | relocate target value =>
      obtain ⟨_, stored⟩ := Option.ite_none_right_eq_some.mp performed
      exact (mem_of_store stored).mpr before

theorem mem_of_run
    {events : List Event} (performed : run perform memory events = some after)
    (before : address ∈ mappedAddresses memory) :
    address ∈ mappedAddresses after := by
  have kept (memory : Memory) (event : Event) (next : Memory)
      (held : address ∈ mappedAddresses memory)
      (stepped : perform memory event = some next) :
      address ∈ mappedAddresses next :=
    mem_of_perform stepped held
  exact
    @invariant_of_run _ _ _ (fun memory => address ∈ mappedAddresses memory)
      kept _ _ _ before performed

/-- What has been reserved is mapped at the end. -/
theorem mem_of_reserve
    {events : List Event} {range : AddressRange}
    (performed : run perform memory events = some after)
    (reserves : .reserve range ∈ events) (holds : Holds range address) :
    address ∈ mappedAddresses after := by
  obtain ⟨first, last, rfl⟩ := List.append_of_mem reserves
  rw [run_append, Option.bind_eq_some_iff] at performed
  obtain ⟨middle, _, fromReserve⟩ := performed
  obtain ⟨reserved, stepped, rest⟩ := run_cons_iff.mp fromReserve
  cases stepped
  exact mem_of_run rest ((mem_mapZeros_iff range _).mpr (Or.inl holds))

end Mapped

/-! ## When a slot is reserved -/

section Failed

variable {data : FileBytes} {answers : KernelAnswers} {nextBase : NextBase}
variable {message : String}
variable (failed : (loadPie data answers nextBase).outcome = .err message)

include failed

theorem events_iff_of_failed (does : Event → Prop) :
    (∀ event ∈ (loadPie data answers nextBase).events, does event) ↔
      LoadNeeds (.unlessOverflow does) data answers nextBase True := by
  rw [← meets_loadPie, meets_iff_events fun fault isFault =>
    nomatch failed.symm.trans isFault]
  rfl

theorem mem_reserve_of_opens
    {hdr : Ehdr} (granted : answers.reserve = none)
    (opens : Opens data hdr) :
    .reserve (slotOf nextBase (table data.bytes hdr)) ∈
      (loadPie data answers nextBase).events := by
  by_contra never
  have needs :=
    (events_iff_of_failed failed
      (· ≠ .reserve (slotOf nextBase (table data.bytes hdr)))).mp
      fun event member same => never (same ▸ member)
  obtain ⟨_, image⟩ := needs hdr opens.parsed opens.isPie
  obtain ⟨_, _, _, reserves⟩ := image opens.inTable opens.loads
  exact (reserves granted).1 rfl

/-- Without a reservation nothing at all is done to the memory. -/
theorem quiet_of_not_reserves (never : ¬ Reserves data answers) :
    ∀ event ∈ (loadPie data answers nextBase).events, Quiet event := by
  have sums :=
    (events_iff_of_failed failed fun _ => True).mp fun _ _ => True.intro
  rw [events_iff_of_failed failed]
  intro hdr parsed isPie
  refine ⟨fun _ => True.intro, fun inTable loads => ?_⟩
  obtain ⟨ends, bound, _⟩ := (sums hdr parsed isPie).2 inTable loads
  refine ⟨ends, bound, True.intro, fun granted => ?_⟩
  exact (never ⟨granted, hdr, parsed, isPie, inTable, loads⟩).elim

end Failed

/--
A failed load leaves the mapped addresses as they were if and only if it has
not reserved a slot.
-/
theorem failed_load_keeps_mappings_iff
    (data : FileBytes) (answers : KernelAnswers) (nextBase : NextBase)
    (message : String)
    (failed : (loadPie data answers nextBase).outcome = .err message)
    (memory after : Memory)
    (performed :
      run perform memory (loadPie data answers nextBase).events =
        some after)
    (free : ReservesFree memory (loadPie data answers nextBase).events) :
    mappedAddresses after = mappedAddresses memory ↔
      ¬ Reserves data answers := by
  constructor
  · rintro same ⟨granted, hdr, opens⟩
    have reserves := mem_reserve_of_opens failed granted opens
    obtain ⟨positive, unmapped⟩ := free _ reserves
    have first :
        Holds (slotOf nextBase (table data.bytes hdr)) nextBase.value :=
      ⟨le_rfl, Nat.lt_add_of_pos_right positive⟩
    have mapped := mem_of_reserve performed reserves first
    rw [same] at mapped
    exact unmapped _ first mapped
  · intro never
    have stays :=
      @run_quiet memory _ (quiet_of_not_reserves failed never)
    obtain rfl := Option.some.inj (stays.symm.trans performed)
    rfl

/-- Memory in which nothing is mapped. -/
def emptyMemory : Memory where
  bytes := fun _ => 0
  prot := fun _ => none

theorem not_mem_emptyMemory (address : Nat) :
    address ∉ mappedAddresses emptyMemory :=
  nofun

/-- Memory in which the first page of the first slot is in use. -/
def pageInUse : Memory where
  bytes := fun _ => 0
  prot := fun address =>
    if Holds ⟨0x2000000000, 4096⟩ address then some .rw else none

/-- The kernel refuses to reserve a slot, as a part of it is in use. -/
def slotRefused : KernelAnswers :=
  { KernelAnswers.granted with reserve := some 17 }

/-- The file is well formed, and what was mapped is still mapped. -/
theorem refused_slot_keeps_mappings :
    ∃ after,
      run perform pageInUse
          (loadPie plainPie.data slotRefused .initial).events =
        some after ∧
      mappedAddresses after = mappedAddresses pageInUse ∧
      0x2000000000 ∈ mappedAddresses after := by
  obtain ⟨after, performed⟩ :
      ∃ after, run perform pageInUse
        (loadPie plainPie.data slotRefused .initial).events = some after :=
    Option.isSome_iff_exists.mp (by decide +kernel)
  have noSlots :
      (loadPie plainPie.data slotRefused .initial).events.filterMap
        reserved = [] := by
    decide +kernel
  have free :
      ReservesFree pageInUse
        (loadPie plainPie.data slotRefused .initial).events := by
    intro range member
    have isSlot :
        range ∈
          (loadPie plainPie.data slotRefused .initial).events.filterMap
            reserved :=
      List.mem_filterMap.mpr ⟨_, member, rfl⟩
    rw [noSlots] at isSlot
    cases isSlot
  have notReserved : ¬ Reserves plainPie.data slotRefused := by
    rintro ⟨⟨⟩, _⟩
  have same :=
    (failed_load_keeps_mappings_iff plainPie.data slotRefused .initial
        "mmap reserve failed at 0x2000000000: errno 17" (by decide +kernel)
        pageInUse after performed free).mpr
      notReserved
  refine ⟨after, performed, same, ?_⟩
  rw [same]
  exact (by decide : (pageInUse.prot 0x2000000000).isSome = true)

/-- The relocations of the shifted file are not found, and its slot stays. -/
theorem failed_load_leaves_slot :
    ¬ ∀ (data : FileBytes) (answers : KernelAnswers) (nextBase : NextBase)
        (message : String) (memory after : Memory),
      (loadPie data answers nextBase).outcome = .err message →
        run perform memory (loadPie data answers nextBase).events =
            some after →
          ReservesFree memory (loadPie data answers nextBase).events →
            mappedAddresses after = mappedAddresses memory := by
  intro every
  obtain ⟨after, performed⟩ :
      ∃ after, run perform emptyMemory
        (loadPie shiftedPie.data .granted .initial).events = some after :=
    Option.isSome_iff_exists.mp (by decide +kernel)
  have slots :
      (loadPie shiftedPie.data .granted .initial).events.filterMap reserved =
        [⟨0x2000000000, 4096⟩] := by
    decide +kernel
  have free :
      ReservesFree emptyMemory
        (loadPie shiftedPie.data .granted .initial).events := by
    intro range member
    have isSlot :
        range ∈
          (loadPie shiftedPie.data .granted .initial).events.filterMap
            reserved :=
      List.mem_filterMap.mpr ⟨_, member, rfl⟩
    rw [slots] at isSlot
    obtain rfl := List.mem_singleton.mp isSlot
    exact ⟨by decide, fun address _ => not_mem_emptyMemory address⟩
  have same :=
    every shiftedPie.data .granted .initial
      "read at 4320+24 exceeds data len 248" emptyMemory after
      (by decide +kernel) performed free
  have stays : 0x2000000000 ∈ mappedAddresses after := by
    refine
      @mem_of_reserve _ _ _ _ ⟨0x2000000000, 4096⟩ performed ?_
        ⟨by decide, by decide⟩
    decide +kernel
  rw [same] at stays
  exact not_mem_emptyMemory _ stays

end Vproc.Exec.FailedLoads
