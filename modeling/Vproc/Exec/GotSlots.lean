import Vproc.Exec.CachedStart
import Vproc.Exec.ElfTables
import Vproc.Lib.Patches

/-!
# The slots which are redirected

The redirection first collects its slots and addresses from the tables in
memory, and only then writes.  So it writes what the tables said before, even
where a slot is a part of a table.  If no two slots overlap, every intercepted
slot has its own address afterwards, and no other byte is changed.
-/

namespace Vproc.Exec.GotSlots

open Vproc.Lib.Memory
open Vproc.Lib.Patches
open Vproc.Exec.Elf
open Vproc.Exec.Image
open Vproc.Exec.ElfTables
open Vproc.Exec.CachedStart

/-- The slot of a relocation. -/
def slotAt (bytes : Bytes) (base : Usize) (tables : PltTables)
    (i : Nat) : Usize :=
  base + (readRela bytes (tables.jmprel + base) i).rOffset

/-- The interceptor for the symbol of a relocation for the PLT. -/
def intercepted (bytes : Bytes) (base : Usize) (tables : PltTables)
    (i : Nat) : Option Interceptor :=
  let rela := readRela bytes (tables.jmprel + base) i
  if relaType rela.rInfo = R_AARCH64_JUMP_SLOT then
    interceptor? (text (cString bytes (nameAddress bytes base tables rela)))
  else none

/-- No two relocations have a byte of their slots in common. -/
def RelocationsApart (bytes : Bytes) (base : Usize)
    (tables : PltTables) : Prop :=
  ∀ i < tables.relaCount, ∀ j < tables.relaCount, i ≠ j →
    ∀ address, InRange (slotAt bytes base tables i) 8 address →
      ¬ InRange (slotAt bytes base tables j) 8 address

/-! ## Writes as patches -/

/-- A write, as what it puts at each address. -/
def writtenPatch (entry : Usize × List UInt8) : Patch Usize UInt8 :=
  fun address => entry.2[(address - entry.1).toNat]?

theorem writes_eq_putAll
    (bytes : Bytes) (list : List (Usize × List UInt8)) :
    writes bytes list = putAll bytes (list.map writtenPatch) := by
  rw [putAll, List.foldl_map]
  rfl

/-- The write of one word. -/
def wordPatch (patch : Usize × Usize) : Patch Usize UInt8 :=
  writtenPatch (patch.1, numberBytes 8 patch.2.toNat)

theorem bytes_patchGot_eq_putAll
    (platform : Platform) (space : Space) (base : Usize)
    (phdrs : List Phdr) :
    (patchGotForLoadedBinary platform space base phdrs).bytes =
      putAll space.bytes
        ((gotPatches platform space.bytes base phdrs).map wordPatch) := by
  rw [bytes_patchGot, writes_eq_putAll, slotWrites, List.map_map]
  rfl

section Word

variable {patch : Usize × Usize}

theorem wordPatch_of_outside
    {address : Usize} (outside : ¬ InRange patch.1 8 address) :
    wordPatch patch address = none := by
  refine List.getElem?_eq_none ?_
  rw [ElfTables.length_numberBytes]
  exact Nat.le_of_not_lt outside

theorem wordPatch_of_offset
    {i : Nat} (small : i < (numberBytes 8 patch.2.toNat).length) :
    wordPatch patch (patch.1 + BitVec.ofNat 64 i) =
      some (numberBytes 8 patch.2.toNat)[i] := by
  have eight := small.trans_eq (ElfTables.length_numberBytes 8 _)
  have distance :
      (patch.1 + BitVec.ofNat 64 i - patch.1).toNat = i := by
    rw [add_comm, add_sub_cancel_right, BitVec.toNat_ofNat]
    omega
  rw [wordPatch, writtenPatch]
  dsimp only
  rw [distance, List.getElem?_eq_getElem small]

/-- A word which can be seen in all its bytes is read as it was written. -/
theorem readUnaligned_of_seen
    {bytes : Bytes}
    (seen : ∀ address value, wordPatch patch address = some value →
      bytes address = value) :
    readUnaligned bytes patch.1 8 = patch.2.toNat := by
  have word :
      (List.range 8).map (fun i => bytes (patch.1 + BitVec.ofNat 64 i)) =
        numberBytes 8 patch.2.toNat := by
    apply List.ext_getElem
    · rw [List.length_map, List.length_range, ElfTables.length_numberBytes]
    · intro i _ small
      rw [List.getElem_map, List.getElem_range]
      exact seen _ _ (wordPatch_of_offset small)
  have bound : patch.2.toNat < 256 ^ 8 := patch.2.isLt
  rw [readUnaligned, Lib.Memory.read, word, littleEndian_numberBytes,
    Nat.mod_eq_of_lt bound]

end Word

/-! ## The slots of an image -/

section Slots

variable {platform : Platform} {bytes : Bytes} {base : Usize}
variable {phdrs : List Phdr} {dynAddr : Usize} {dynCount : Nat}
variable {tables : PltTables}

/-- A relocation gives a patch if and only if it is intercepted. -/
theorem gotPatch_eq (i : Nat) :
    gotPatch platform bytes base tables i =
      (intercepted bytes base tables i).map fun interceptor =>
        (slotAt bytes base tables i, platform.address interceptor) := by
  unfold gotPatch intercepted
  dsimp only
  split <;> rfl

theorem gotPatches_eq
    (found : dynamicSection base phdrs = some (dynAddr, dynCount))
    (isTables : tables = pltTables bytes dynAddr dynCount)
    (complete : tables.isIncomplete = false) :
    gotPatches platform bytes base phdrs =
      (List.range tables.relaCount).filterMap
        (gotPatch platform bytes base tables) := by
  subst isTables
  unfold gotPatches
  rw [found]
  dsimp only
  rw [complete]
  rfl

theorem gotPatch_pairwise_apart
    (apart : RelocationsApart bytes base tables) :
    (((List.range tables.relaCount).filterMap
        (gotPatch platform bytes base tables)).map wordPatch).Pairwise
      Apart := by
  rw [List.pairwise_map, List.pairwise_filterMap]
  refine List.pairwise_lt_range.imp_of_mem ?_
  intro i j isFirst isSecond before first isPatch second isOther address
  rw [gotPatch_eq] at isPatch isOther
  obtain ⟨_, _, rfl⟩ := Option.map_eq_some_iff.mp isPatch
  obtain ⟨_, _, rfl⟩ := Option.map_eq_some_iff.mp isOther
  by_cases inFirst : InRange (slotAt bytes base tables i) 8 address
  · refine Or.inr (wordPatch_of_outside ?_)
    exact
      apart i (List.mem_range.mp isFirst) j (List.mem_range.mp isSecond)
        before.ne address inFirst
  · exact Or.inl (wordPatch_of_outside inFirst)

end Slots

/--
Redirecting the calls gives each intercepted slot its interceptor, changes no
other byte, and changes nothing when it is done again, if the slots are apart
from the tables.
-/
theorem patched_slots_exact
    (platform : Platform) (space : Space) (base : Usize)
    (phdrs : List Phdr) (dynAddr : Usize) (dynCount : Nat)
    (tables : PltTables)
    (found : dynamicSection base phdrs = some (dynAddr, dynCount))
    (isTables : tables = pltTables space.bytes dynAddr dynCount)
    (complete : tables.isIncomplete = false)
    (apart : RelocationsApart space.bytes base tables)
    (after : Space)
    (isAfter : after = patchGotForLoadedBinary platform space base phdrs) :
    (∀ i < tables.relaCount, ∀ interceptor,
        intercepted space.bytes base tables i = some interceptor →
          readUnaligned after.bytes (slotAt space.bytes base tables i) 8 =
            (platform.address interceptor).toNat) ∧
      (∀ address,
        (∀ i < tables.relaCount,
            (intercepted space.bytes base tables i).isSome →
              ¬ InRange (slotAt space.bytes base tables i) 8 address) →
          after.bytes address = space.bytes address) ∧
      (SlotsApart platform space.bytes base phdrs →
        (patchGotForLoadedBinary platform after base phdrs).bytes =
          after.bytes) := by
  subst isAfter
  have bytes :=
    bytes_patchGot_eq_putAll platform space base phdrs
  rw [gotPatches_eq found isTables complete] at bytes
  refine ⟨?_, ?_, fun away => bytes_patchGot_again away rfl⟩
  · intro i small interceptor isIntercepted
    have isPatch :
        gotPatch platform space.bytes base tables i =
          some
            (slotAt space.bytes base tables i,
              platform.address interceptor) := by
      rw [gotPatch_eq, isIntercepted]
      rfl
    have member :=
      List.mem_filterMap.mpr ⟨i, List.mem_range.mpr small, isPatch⟩
    refine
      @readUnaligned_of_seen (_, platform.address interceptor) _ ?_
    intro address value isByte
    rw [bytes]
    exact
      putAll_of_mem (gotPatch_pairwise_apart apart)
        (List.mem_map_of_mem member) isByte
  · intro address outside
    rw [bytes]
    refine putAll_of_none (List.forall_mem_map.mpr fun patch member => ?_)
    obtain ⟨i, inRange, isPatch⟩ := List.mem_filterMap.mp member
    rw [gotPatch_eq] at isPatch
    obtain ⟨interceptor, isIntercepted, rfl⟩ :=
      Option.map_eq_some_iff.mp isPatch
    refine wordPatch_of_outside (outside i (List.mem_range.mp inRange) ?_)
    rw [isIntercepted]
    rfl

/-- The interceptors of `fork` and of `wait4` have addresses of their own. -/
def namedPlatform : Platform where
  mprotect := fun _ _ _ _ => true
  address := fun
    | .fork => 0x7000
    | .wait4 => 0x7100
    | _ => 0x7200

/--
A program which calls `fork`, `puts` and `wait4`, and has the address of `fork`
in a fourth slot, whose relocation is of another type.
-/
def callingProgram : Bytes :=
  writes (fun _ => 0)
    [(0x1100, numberBytes 8 0x280), (0x1108, numberBytes 8 0x100000402),
      (0x1118, numberBytes 8 0x288), (0x1120, numberBytes 8 0x200000402),
      (0x1130, numberBytes 8 0x290), (0x1138, numberBytes 8 0x300000402),
      (0x1148, numberBytes 8 0x298), (0x1150, numberBytes 8 0x100000401),
      (0x1178, numberBytes 4 1), (0x1190, numberBytes 4 6),
      (0x11a8, numberBytes 4 11), (0x11c1, [0x66, 0x6f, 0x72, 0x6b]),
      (0x11c6, [0x70, 0x75, 0x74, 0x73]),
      (0x11cb, [0x77, 0x61, 0x69, 0x74, 0x34]),
      (0x1200, numberBytes 8 23), (0x1208, numberBytes 8 0x100),
      (0x1210, numberBytes 8 2), (0x1218, numberBytes 8 96),
      (0x1220, numberBytes 8 6), (0x1228, numberBytes 8 0x160),
      (0x1230, numberBytes 8 5), (0x1238, numberBytes 8 0x1c0),
      (0x1280, numberBytes 8 0x5000), (0x1288, numberBytes 8 0x5100),
      (0x1290, numberBytes 8 0x5200), (0x1298, numberBytes 8 0x5000)]

/-- The memory in which it is loaded. -/
def callingSpace : Space where
  bytes := callingProgram
  prot := fun _ => .rw

/--
The slots of `fork` and of `wait4` are redirected, each to its interceptor; the
slot of `puts` and the one of the other type are what they were.
-/
theorem patched_slots_of_calling :
    ∃ after,
      after =
          patchGotForLoadedBinary namedPlatform callingSpace 0x1000
            forkingHeaders ∧
        readUnaligned after.bytes 0x1280#64 8 = 0x7000 ∧
        readUnaligned after.bytes 0x1290#64 8 = 0x7100 ∧
        ∀ address, InRange 0x1288#64 8 address ∨
            InRange 0x1298#64 8 address →
          after.bytes address = callingSpace.bytes address := by
  have slots : ∀ i < 4,
      slotAt callingSpace.bytes 0x1000 ⟨0x100, 96, 0x160, 0x1c0⟩ i =
        BitVec.ofNat 64 (0x1280 + 8 * i) := by
    decide +kernel
  have calls : ∀ i < 4,
      (intercepted callingSpace.bytes 0x1000
            ⟨0x100, 96, 0x160, 0x1c0⟩ i).isSome →
        i = 0 ∨ i = 2 := by
    decide +kernel
  have apart :
      RelocationsApart callingSpace.bytes 0x1000
        ⟨0x100, 96, 0x160, 0x1c0⟩ := by
    intro i isFirst j isSecond different address inFirst inSecond
    rw [slots i isFirst] at inFirst
    rw [slots j isSecond] at inSecond
    unfold InRange at inFirst inSecond
    have first : i < 4 := isFirst
    have second : j < 4 := isSecond
    bv_omega
  obtain ⟨words, elsewhere, _⟩ :=
    patched_slots_exact namedPlatform callingSpace 0x1000 forkingHeaders
      0x1200 4 ⟨0x100, 96, 0x160, 0x1c0⟩ (by decide) (by decide +kernel)
      (by decide) apart _ rfl
  refine
    ⟨_, rfl, words 0 (by decide) .fork (by decide +kernel),
      words 2 (by decide) .wait4 (by decide +kernel), ?_⟩
  intro address inOthers
  refine elsewhere address fun i small isSome inSlot => ?_
  rw [slots i small] at inSlot
  unfold InRange at inSlot inOthers
  rcases calls i small isSome with rfl | rfl
  · bv_omega
  · bv_omega

end Vproc.Exec.GotSlots
