import Vproc.Exec.CachedStart
import Vproc.Exec.RelocationTable

/-!
# The readers of the dynamic section

`dynamic_entries` reads the section from the file and stops at the first
`DT_NULL`.  `clear_init_arrays` and the redirection of calls read it from
memory, count its entries by the size in memory, and do not stop.  The spare
entries between the one end and the other make no difference if and only if
those for initialisers hold 0 already, and the last one for each table repeats
what the entries before have said.
-/

namespace Vproc.Exec.DynamicTables

open Vproc.Lib.Memory
open Vproc.Lib.Procedure
open Vproc.Lib.Procedure.Traced
open Vproc.Exec.Elf hiding programHeaders
open Vproc.Exec.Image
open Vproc.Exec.ElfTables
open Vproc.Exec.LoadPie
open Vproc.Exec.LoadSteps
open Vproc.Exec.RelocationTable (littleEndian_injective)

/-! ## Entries -/

/-- The entries of a dynamic section in memory. -/
def tableAt (bytes : Bytes) (dynAddr : Usize) (count : Nat) : List Dyn :=
  (List.range count).map (readDyn bytes dynAddr)

/-- `DT_INIT_ARRAY | DT_INIT`. -/
def isInit (entry : Dyn) : Bool :=
  entry.dTag == DT_INIT_ARRAY || entry.dTag == DT_INIT

/-- The tags which the redirection of calls looks for. -/
def pltTags : List (BitVec 64) :=
  [DT_JMPREL, DT_PLTRELSZ, DT_SYMTAB, DT_STRTAB]

/-- The value of the last entry with a tag. -/
def lastOf (tag : BitVec 64) (entries : List Dyn) : Option (BitVec 64) :=
  ((entries.filter fun entry => entry.dTag == tag).getLast?).map Dyn.dVal

/-- Where the value of an entry is. -/
def valueAddress (dynAddr : Usize) (i : Nat) : Usize :=
  dynAddr + BitVec.ofNat 64 (16 * i) + BitVec.ofNat 64 8

/-- Both readers of the memory act on these entries, and on no others. -/
structure ActsOn (space : Space) (base : Usize) (phdrs : List Phdr)
    (dynAddr : Usize) (dynCount : Nat) (entries : List Dyn) : Prop where
  cleared : ∀ i entry, entries[i]? = some entry → isInit entry = true →
    ∀ address, InRange (valueAddress dynAddr i) 8 address →
      (clearInitArrays space base phdrs).bytes address = 0
  kept : ∀ address,
    (∀ i entry, entries[i]? = some entry → isInit entry = true →
      ¬ InRange (valueAddress dynAddr i) 8 address) →
      (clearInitArrays space base phdrs).bytes address =
        space.bytes address
  tables : pltTables space.bytes dynAddr dynCount =
    entries.foldl PltTables.note ⟨0, 0, 0, 0⟩

/-- Spare entries which say nothing beyond the common ones. -/
structure Harmless (common spare : List Dyn) : Prop where
  init : ∀ entry ∈ spare, isInit entry = true → entry.dVal = 0
  plt : ∀ tag ∈ pltTags, ∀ value, lastOf tag spare = some value →
    value = (lastOf tag common).getD 0

/-! ## What the entries say about the tables -/

section Tables

theorem lastOf_append
    (tag : BitVec 64) (first second : List Dyn) :
    lastOf tag (first ++ second) =
      (lastOf tag second).or (lastOf tag first) := by
  rw [lastOf, List.filter_append, List.getLast?_append, Option.map_or]
  rfl

theorem lastOf_singleton (tag : BitVec 64) (entry : Dyn) :
    lastOf tag [entry] =
      if entry.dTag = tag then some entry.dVal else none := by
  unfold lastOf
  by_cases same : entry.dTag = tag
  · simp [same]
  · simp [same]

/-- Each tag has its own field. -/
theorem note_eq (tables : PltTables) (entry : Dyn) :
    tables.note entry =
      { jmprel := (lastOf DT_JMPREL [entry]).getD tables.jmprel
        pltrelsz := (lastOf DT_PLTRELSZ [entry]).getD tables.pltrelsz
        symtab := (lastOf DT_SYMTAB [entry]).getD tables.symtab
        strtab := (lastOf DT_STRTAB [entry]).getD tables.strtab } := by
  unfold PltTables.note
  simp only [lastOf_singleton]
  by_cases jmprel : entry.dTag = DT_JMPREL
  · simp [jmprel, DT_JMPREL, DT_PLTRELSZ, DT_SYMTAB, DT_STRTAB]
  · by_cases pltrelsz : entry.dTag = DT_PLTRELSZ
    · simp [pltrelsz, DT_JMPREL, DT_PLTRELSZ, DT_SYMTAB, DT_STRTAB]
    · by_cases symtab : entry.dTag = DT_SYMTAB
      · simp [symtab, DT_JMPREL, DT_PLTRELSZ, DT_SYMTAB, DT_STRTAB]
      · by_cases strtab : entry.dTag = DT_STRTAB
        · simp [strtab, DT_JMPREL, DT_PLTRELSZ, DT_SYMTAB, DT_STRTAB]
        · simp [jmprel, pltrelsz, symtab, strtab]

/-- The last entry of a tag is the one which counts. -/
theorem foldl_note_eq (tables : PltTables) (entries : List Dyn) :
    entries.foldl PltTables.note tables =
      { jmprel := (lastOf DT_JMPREL entries).getD tables.jmprel
        pltrelsz := (lastOf DT_PLTRELSZ entries).getD tables.pltrelsz
        symtab := (lastOf DT_SYMTAB entries).getD tables.symtab
        strtab := (lastOf DT_STRTAB entries).getD tables.strtab } := by
  induction entries using List.reverseRecOn with
  | nil => rfl
  | append_singleton entries entry induction =>
      rw [List.foldl_append, List.foldl_cons, List.foldl_nil, note_eq,
        induction]
      simp only [lastOf_append, Option.getD_or]

/-- A value which replaces another one is the same. -/
theorem getD_or_eq_iff (first second : Option (BitVec 64)) :
    (second.or first).getD 0 = first.getD 0 ↔
      ∀ value, second = some value → value = first.getD 0 := by
  cases second with
  | none => simp
  | some value => simp

theorem foldl_note_append_iff (common spare : List Dyn) :
    (common ++ spare).foldl PltTables.note ⟨0, 0, 0, 0⟩ =
        common.foldl PltTables.note ⟨0, 0, 0, 0⟩ ↔
      ∀ tag ∈ pltTags, ∀ value, lastOf tag spare = some value →
        value = (lastOf tag common).getD 0 := by
  rw [foldl_note_eq, foldl_note_eq]
  simp only [PltTables.mk.injEq, lastOf_append, getD_or_eq_iff, pltTags,
    List.forall_mem_cons, List.not_mem_nil, false_implies, implies_true,
    and_true]

end Tables

/-! ## What is cleared -/

section Clear

variable {dynAddr : Usize} {space : Space} {address : Usize}

/-- The bytes of the value of an entry, by their distance. -/
theorem inValue_iff
    {i : Nat} (fits : 16 * (i + 1) ≤ 2 ^ 64) :
    InRange (valueAddress dynAddr i) 8 address ↔
      16 * i + 8 ≤ (address - dynAddr).toNat ∧
        (address - dynAddr).toNat < 16 * i + 16 := by
  have sum :
      valueAddress dynAddr i = dynAddr + BitVec.ofNat 64 (16 * i + 8) := by
    rw [valueAddress, add_assoc, BitVec.ofNat_add]
  rw [sum, inRange_offset_iff (by omega)]

/-- What the loop leaves at an address after some entries. -/
def clearedAt (bytes : Bytes) (dynAddr : Usize) (count : Nat)
    (address : Usize) : UInt8 :=
  if ∃ i < count, isInit (readDyn bytes dynAddr i) = true ∧
      InRange (valueAddress dynAddr i) 8 address then 0
  else bytes address

theorem write_zeros (bytes : Bytes) (start : Usize) :
    write bytes start (numberBytes 8 0) address =
      if InRange start 8 address then 0 else bytes address := by
  have zeros : numberBytes 8 0 = List.replicate 8 0 := by decide
  by_cases inside : InRange start 8 address
  · have small : (address - start).toNat < 8 := inside
    rw [if_pos inside, write, zeros, List.getElem?_replicate, if_pos small]
    rfl
  · rw [if_neg inside]
    exact write_outside inside

theorem bytes_clearInitEntry (i : Nat) :
    (clearInitEntry dynAddr space i).bytes address =
      if isInit (readDyn space.bytes dynAddr i) = true ∧
          InRange (valueAddress dynAddr i) 8 address then 0
      else space.bytes address := by
  have same :
      isInit (readDyn space.bytes dynAddr i) = true ↔
        (readDyn space.bytes dynAddr i).dTag = DT_INIT_ARRAY ∨
          (readDyn space.bytes dynAddr i).dTag = DT_INIT := by
    simp [isInit]
  unfold clearInitEntry
  dsimp only
  by_cases init : isInit (readDyn space.bytes dynAddr i) = true
  · rw [if_pos (same.mp init), CachedStart.bytes_store, write_zeros]
    simp only [init, true_and]
    rfl
  · rw [if_neg (same.not.mp init)]
    simp [init]

/-- The tag of an entry is not changed by clearing those before. -/
theorem isInit_clearedAt
    {i : Nat} (fits : 16 * (i + 1) ≤ 2 ^ 64) (bytes : Bytes) :
    isInit (readDyn (clearedAt bytes dynAddr i) dynAddr i) =
      isInit (readDyn bytes dynAddr i) := by
  have tag :
      readUnaligned (clearedAt bytes dynAddr i)
          (dynAddr + BitVec.ofNat 64 (16 * i)) 8 =
        readUnaligned bytes (dynAddr + BitVec.ofNat 64 (16 * i)) 8 := by
    refine CachedStart.readUnaligned_congr fun address inTag => if_neg ?_
    rw [inRange_offset_iff (by omega)] at inTag
    rintro ⟨j, earlier, _, inValue⟩
    rw [inValue_iff (by omega)] at inValue
    omega
  unfold isInit readDyn
  dsimp only
  rw [tag]

/-- The loop over some entries. -/
theorem bytes_clearEntries
    {count : Nat} (fits : 16 * count ≤ 2 ^ 64) :
    ((List.range count).foldl (clearInitEntry dynAddr) space).bytes =
      clearedAt space.bytes dynAddr count := by
  induction count with
  | zero =>
      funext address
      exact (if_neg (by simp)).symm
  | succ count induction =>
      funext address
      rw [List.range_succ, List.foldl_append, List.foldl_cons,
        List.foldl_nil, bytes_clearInitEntry, induction (by omega),
        isInit_clearedAt (by omega)]
      unfold clearedAt
      by_cases last :
          isInit (readDyn space.bytes dynAddr count) = true ∧
            InRange (valueAddress dynAddr count) 8 address
      · rw [if_pos last, if_pos ⟨count, Nat.lt_succ_self _, last⟩]
      · rw [if_neg last]
        refine if_congr ?_ rfl rfl
        constructor
        · exact fun ⟨i, small, holds⟩ => ⟨i, by omega, holds⟩
        · rintro ⟨i, small, holds⟩
          rcases Nat.lt_succ_iff_lt_or_eq.mp small with before | rfl
          · exact ⟨i, before, holds⟩
          · exact (last holds).elim

/-- A value is 0 if all its bytes are. -/
theorem value_eq_zero_iff (bytes : Bytes) (i : Nat) :
    (readDyn bytes dynAddr i).dVal = 0 ↔
      ∀ address, InRange (valueAddress dynAddr i) 8 address →
        bytes address = 0 := by
  have zeros :
      readUnaligned (fun _ => 0) (valueAddress dynAddr i) 8 = 0 := by
    have cells :
        read (fun _ => 0) (valueAddress dynAddr i) 8 =
          List.replicate 8 (0 : UInt8) :=
      List.map_const
    rw [readUnaligned, cells]
    decide
  constructor
  · intro isZero address inRange
    have bound := littleEndian_lt (read bytes (valueAddress dynAddr i) 8)
    rw [length_read] at bound
    have number := congrArg BitVec.toNat isZero
    have value :
        (readDyn bytes dynAddr i).dVal.toNat =
          readUnaligned bytes (valueAddress dynAddr i) 8 :=
      Nat.mod_eq_of_lt bound
    have same :=
      littleEndian_injective (by rw [length_read, length_read])
        ((value.symm.trans number).trans zeros.symm)
    exact eq_of_read_eq same inRange
  · intro every
    have same :=
      CachedStart.readUnaligned_congr fun address inRange =>
        (every address inRange).symm
    exact congrArg (BitVec.ofNat 64) (same.symm.trans zeros)

/-- Clearing more entries makes no difference if those hold 0 already. -/
theorem clearedAt_eq_iff
    {first last : Nat} (order : first ≤ last)
    (fits : 16 * last ≤ 2 ^ 64) (bytes : Bytes) :
    (∀ address,
        clearedAt bytes dynAddr first address =
          clearedAt bytes dynAddr last address) ↔
      ∀ i, first ≤ i → i < last →
        isInit (readDyn bytes dynAddr i) = true →
          (readDyn bytes dynAddr i).dVal = 0 := by
  constructor
  · intro same i above below init
    rw [value_eq_zero_iff]
    intro address inValue
    have cleared : clearedAt bytes dynAddr last address = 0 :=
      if_pos ⟨i, below, init, inValue⟩
    have notBefore : clearedAt bytes dynAddr first address = bytes address := by
      refine if_neg ?_
      rintro ⟨j, earlier, _, inOther⟩
      rw [inValue_iff (by omega)] at inValue inOther
      omega
    rw [← notBefore, same address, cleared]
  · intro zeros address
    unfold clearedAt
    by_cases before : ∃ i < first, isInit (readDyn bytes dynAddr i) = true ∧
        InRange (valueAddress dynAddr i) 8 address
    · obtain ⟨i, small, holds⟩ := before
      rw [if_pos ⟨i, small, holds⟩,
        if_pos ⟨i, small.trans_le order, holds⟩]
    · rw [if_neg before]
      split
      · rename_i later
        obtain ⟨i, small, init, inValue⟩ := later
        have above : first ≤ i := by
          by_contra below
          exact before ⟨i, by omega, init, inValue⟩
        exact
          (value_eq_zero_iff bytes i).mp (zeros i above small init) address
            inValue
      · rfl

end Clear

/-! ## Two numbers of entries -/

section Agree

variable {bytes : Bytes} {dynAddr : Usize}

theorem getElem?_tableAt
    {count i : Nat} {entry : Dyn} :
    (tableAt bytes dynAddr count)[i]? = some entry ↔
      i < count ∧ entry = readDyn bytes dynAddr i := by
  unfold tableAt
  rw [List.getElem?_eq_some_iff]
  constructor
  · rintro ⟨small, rfl⟩
    rw [List.length_map, List.length_range] at small
    refine ⟨small, ?_⟩
    rw [List.getElem_map, List.getElem_range]
  · rintro ⟨small, rfl⟩
    refine ⟨?_, ?_⟩
    · rw [List.length_map, List.length_range]
      exact small
    · rw [List.getElem_map, List.getElem_range]

@[simp]
theorem length_tableAt (count : Nat) :
    (tableAt bytes dynAddr count).length = count := by
  rw [tableAt, List.length_map, List.length_range]

theorem take_tableAt {first last : Nat} (order : first ≤ last) :
    (tableAt bytes dynAddr last).take first =
      tableAt bytes dynAddr first := by
  rw [tableAt, ← List.map_take, List.take_range, Nat.min_eq_left order]
  rfl

/-- The readers of two parts of a table agree if the rest is harmless. -/
theorem agree_iff
    {first last : Nat} (order : first ≤ last) (fits : 16 * last ≤ 2 ^ 64) :
    ((∀ address,
          clearedAt bytes dynAddr first address =
            clearedAt bytes dynAddr last address) ∧
        (tableAt bytes dynAddr last).foldl PltTables.note ⟨0, 0, 0, 0⟩ =
          (tableAt bytes dynAddr first).foldl PltTables.note
            ⟨0, 0, 0, 0⟩) ↔
      Harmless (tableAt bytes dynAddr first)
        ((tableAt bytes dynAddr last).drop first) := by
  have split :
      tableAt bytes dynAddr last =
        tableAt bytes dynAddr first ++
          (tableAt bytes dynAddr last).drop first := by
    rw [← take_tableAt order, List.take_append_drop]
  have plt :=
    foldl_note_append_iff (tableAt bytes dynAddr first)
      ((tableAt bytes dynAddr last).drop first)
  rw [← split] at plt
  rw [plt, clearedAt_eq_iff order fits]
  constructor
  · rintro ⟨zeros, same⟩
    refine ⟨fun entry member init => ?_, same⟩
    obtain ⟨i, found⟩ := List.mem_iff_getElem?.mp member
    rw [List.getElem?_drop] at found
    obtain ⟨small, rfl⟩ := getElem?_tableAt.mp found
    exact zeros _ (Nat.le_add_right _ _) small init
  · rintro ⟨zeros, same⟩
    refine ⟨fun i above below init => zeros _ ?_ init, same⟩
    refine List.mem_iff_getElem?.mpr ⟨i - first, ?_⟩
    rw [List.getElem?_drop, Nat.add_sub_cancel' above]
    exact getElem?_tableAt.mpr ⟨below, rfl⟩

end Agree

/-! ## The section in the file and in memory -/

section Image

variable {data : FileBytes} {phdrs : List Phdr} {phdr : Phdr}
variable {bytes : Bytes} {dynAddr : Usize}

/-- The section has the same bytes in memory as in the file. -/
def SameBytes (data : FileBytes) (phdr : Phdr) (bytes : Bytes)
    (dynAddr : Usize) : Prop :=
  ∀ i < phdr.pFilesz.toNat,
    data.bytes[phdr.pOffset.toNat + i]? =
      some (bytes (dynAddr + BitVec.ofNat 64 i))

theorem bytesAt_eq_read
    (same : SameBytes data phdr bytes dynAddr) {start size : Nat}
    (fits : start + size ≤ phdr.pFilesz.toNat) :
    bytesAt data.bytes (phdr.pOffset.toNat + start) size =
      read bytes (dynAddr + BitVec.ofNat 64 start) size := by
  apply List.ext_getElem?
  intro i
  rcases Nat.lt_or_ge i size with small | large
  · rw [bytesAt, List.getElem?_take_of_lt small, List.getElem?_drop,
      Nat.add_assoc, same (start + i) (by omega), Lib.Memory.read,
      List.getElem?_map, List.getElem?_range small, BitVec.ofNat_add,
      ← add_assoc]
    rfl
  · rw [List.getElem?_eq_none, List.getElem?_eq_none]
    · rw [length_read]
      exact large
    · exact (List.length_take_le _ _).trans large

/-- An entry in the file is the one in memory. -/
theorem decodeDyn_eq_readDyn
    (same : SameBytes data phdr bytes dynAddr) {i : Nat}
    (small : i < phdr.pFilesz.toNat / 16) :
    decodeDyn (bytesAt data.bytes (phdr.pOffset.toNat + i * 16) 16) =
      readDyn bytes dynAddr i := by
  have tag :=
    @bytesAt_eq_read _ _ _ _ same (16 * i) 8 (by omega)
  have value :=
    @bytesAt_eq_read _ _ _ _ same (16 * i + 8) 8 (by omega)
  unfold decodeDyn readDyn readUnaligned
  dsimp only
  rw [field_bytesAt _ _ (by decide), field_bytesAt _ _ (by decide),
    numberAt, numberAt, Nat.mul_comm i 16, Nat.add_zero, tag, Nat.add_assoc,
    value, BitVec.ofNat_add, ← add_assoc]

/-- The entries which are returned are the first ones in memory. -/
theorem entries_eq_tableAt
    {entries : List Dyn} (found : firstOf PT_DYNAMIC phdrs = some phdr)
    (returned : Returns (dynamicEntries data phdrs) entries)
    (same : SameBytes data phdr bytes dynAddr) :
    entries.length ≤ phdr.pFilesz.toNat / 16 ∧
      entries = tableAt bytes dynAddr entries.length := by
  have spec
      (meets : Meets (.unlessOverflow fun _ => True) (fun _ => True)
        (dynamicEntries data phdrs)) :
      Meets (.unlessOverflow fun _ => True)
        (fun value => value = dynamicTable data.bytes phdr)
        (dynamicEntries data phdrs) := by
    rw [meets_dynamicEntries, onFirst_of_some found] at meets ⊢
    exact ⟨meets.1, fun _ => ⟨True.intro, rfl⟩⟩
  have isTable := post_of_returns returned spec
  have all :
      records data.bytes phdr.pOffset.toNat 16 16 decodeDyn 0
          (phdr.pFilesz.toNat / 16) =
        tableAt bytes dynAddr (phdr.pFilesz.toNat / 16) := by
    rw [records, tableAt, ← List.range_eq_range']
    exact
      List.map_congr_left fun i member =>
        decodeDyn_eq_readDyn same (List.mem_range.mp member)
  have isPrefix :
      entries <+: tableAt bytes dynAddr (phdr.pFilesz.toNat / 16) := by
    rw [isTable, dynamicTable, all]
    exact List.takeWhile_prefix _
  have few : entries.length ≤ phdr.pFilesz.toNat / 16 := by
    have length := isPrefix.length_le
    rw [length_tableAt] at length
    exact length
  refine ⟨few, ?_⟩
  rw [← take_tableAt few]
  exact List.prefix_iff_eq_take.mp isPrefix

end Image

theorem bytes_clearInitArrays
    {space : Space} {base : Usize} {phdrs : List Phdr} {dynAddr : Usize}
    {dynCount : Nat}
    (found : dynamicSection base phdrs = some (dynAddr, dynCount))
    (fits : 16 * dynCount ≤ 2 ^ 64) :
    (clearInitArrays space base phdrs).bytes =
      clearedAt space.bytes dynAddr dynCount := by
  unfold clearInitArrays
  rw [found]
  exact bytes_clearEntries fits

/-- What the two loops do, from the entries they go through. -/
theorem actsOn_tableAt_iff
    {space : Space} {base : Usize} {phdrs : List Phdr} {dynAddr : Usize}
    {dynCount count : Nat}
    (found : dynamicSection base phdrs = some (dynAddr, dynCount))
    (fits : 16 * dynCount ≤ 2 ^ 64) :
    ActsOn space base phdrs dynAddr dynCount
        (tableAt space.bytes dynAddr count) ↔
      (∀ address,
          clearedAt space.bytes dynAddr dynCount address =
            clearedAt space.bytes dynAddr count address) ∧
        (tableAt space.bytes dynAddr dynCount).foldl PltTables.note
            ⟨0, 0, 0, 0⟩ =
          (tableAt space.bytes dynAddr count).foldl PltTables.note
            ⟨0, 0, 0, 0⟩ := by
  have cleared := @bytes_clearInitArrays space _ _ _ _ found fits
  constructor
  · rintro ⟨zeros, others, tables⟩
    refine ⟨fun address => ?_, tables⟩
    rw [← cleared]
    unfold clearedAt
    split
    · rename_i inside
      obtain ⟨i, small, init, inValue⟩ := inside
      exact
        zeros i _ (getElem?_tableAt.mpr ⟨small, rfl⟩) init address inValue
    · rename_i outside
      refine others address fun i entry at_i init inValue => outside ?_
      obtain ⟨small, rfl⟩ := getElem?_tableAt.mp at_i
      exact ⟨i, small, init, inValue⟩
  · rintro ⟨same, tables⟩
    refine ⟨?_, ?_, tables⟩
    · intro i entry at_i init address inValue
      obtain ⟨small, rfl⟩ := getElem?_tableAt.mp at_i
      rw [cleared, same]
      exact if_pos ⟨i, small, init, inValue⟩
    · intro address outside
      rw [cleared, same]
      refine if_neg ?_
      rintro ⟨i, small, init, inValue⟩
      exact
        outside i _ (getElem?_tableAt.mpr ⟨small, rfl⟩) init inValue

/--
All readers act on the same entries if and only if the spare ones, between the
end in the file and the end in memory, are harmless.
-/
theorem same_table_iff
    (data : FileBytes) (phdrs : List Phdr) (phdr : Phdr)
    (found : firstOf PT_DYNAMIC phdrs = some phdr)
    (entries : List Dyn)
    (returned : Returns (dynamicEntries data phdrs) entries)
    (space : Space) (base dynAddr : Usize) (dynCount : Nat)
    (isSection : dynamicSection base phdrs = some (dynAddr, dynCount))
    (same : SameBytes data phdr space.bytes dynAddr)
    (inMemory : List Dyn)
    (isMemory : inMemory = tableAt space.bytes dynAddr dynCount) :
    ActsOn space base phdrs dynAddr dynCount entries ↔
      Harmless (inMemory.take entries.length)
        (inMemory.drop entries.length ++ entries.drop inMemory.length) := by
  subst isMemory
  obtain ⟨few, isTable⟩ := entries_eq_tableAt found returned same
  have memorySize : 16 * dynCount ≤ 2 ^ 64 := by
    unfold firstOf at found
    rw [dynamicSection, found] at isSection
    obtain ⟨_, rfl⟩ := Prod.mk.inj (Option.some.inj isSection)
    have bound := phdr.pMemsz.isLt
    omega
  have fileSize : 16 * entries.length ≤ 2 ^ 64 := by
    have bound := phdr.pFilesz.isLt
    omega
  generalize entries.length = count at fileSize isTable
  subst isTable
  rw [actsOn_tableAt_iff isSection memorySize, length_tableAt]
  rcases Nat.le_total count dynCount with fewer | more
  · have none : (tableAt space.bytes dynAddr count).drop dynCount = [] :=
      List.drop_eq_nil_of_le (by rw [length_tableAt]; exact fewer)
    rw [take_tableAt fewer, none, List.append_nil, ← agree_iff fewer memorySize]
    exact and_congr_left' (forall_congr' fun _ => eq_comm)
  · have none : (tableAt space.bytes dynAddr dynCount).drop count = [] :=
      List.drop_eq_nil_of_le (by rw [length_tableAt]; exact more)
    have all :
        (tableAt space.bytes dynAddr dynCount).take count =
          tableAt space.bytes dynAddr dynCount :=
      List.take_of_length_le (by rw [length_tableAt]; exact more)
    rw [all, none, List.nil_append, ← agree_iff more fileSize]
    exact and_congr_right' eq_comm

/-- A dynamic section of three entries, of which the second is the end. -/
def sectionHeader : Phdr where
  pType := PT_DYNAMIC
  pFlags := 6
  pOffset := 0
  pVaddr := 0
  pPaddr := 0
  pFilesz := 48
  pMemsz := 48
  pAlign := 8

/-- Its bytes, with a spare `DT_INIT` of some value. -/
def sectionBytes (spare : Nat) : List UInt8 :=
  [12, 0x10, 0, 0, 12, spare].flatMap (numberBytes 8)

theorem short_sectionBytes (spare : Nat) :
    (sectionBytes spare).length < 2 ^ 63 := by
  simp [sectionBytes, numberBytes]

/-- The section in memory. -/
def sectionSpace (spare : Nat) : Space where
  bytes := write (fun _ => 0) 0x1000 (sectionBytes spare)
  prot := fun _ => .rw

/-- A spare entry which holds 0 makes no difference. -/
theorem same_table_without_value :
    ActsOn (sectionSpace 0) 0x1000 [sectionHeader] 0x1000 3
      [⟨12, 0x10⟩] := by
  have returned :
      Returns
        (dynamicEntries ⟨sectionBytes 0, short_sectionBytes 0⟩
          [sectionHeader])
        [⟨12, 0x10⟩] := by
    unfold Returns
    decide +kernel
  have same :
      SameBytes ⟨sectionBytes 0, short_sectionBytes 0⟩ sectionHeader
        (sectionSpace 0).bytes 0x1000 := by
    unfold SameBytes
    decide +kernel
  have inMemory :
      [⟨12, 0x10⟩, ⟨0, 0⟩, ⟨12, 0⟩] =
        tableAt (sectionSpace 0).bytes 0x1000 3 := by
    decide +kernel
  have absent (tag : BitVec 64) (member : tag ∈ pltTags) :
      lastOf tag [⟨0, 0⟩, ⟨12, 0⟩] = none := by
    simp only [pltTags, List.mem_cons, List.not_mem_nil, or_false]
      at member
    rcases member with rfl | rfl | rfl | rfl <;> rfl
  have harmless : Harmless [⟨12, 0x10⟩] [⟨0, 0⟩, ⟨12, 0⟩] := by
    refine ⟨by decide +kernel, fun tag member value found => ?_⟩
    cases (absent tag member).symm.trans found
  exact
    (same_table_iff _ [sectionHeader] sectionHeader rfl _ returned
      (sectionSpace 0) 0x1000 0x1000 3 (by decide) same _ inMemory).mpr
      harmless

/-- The spare entry is not returned, and its value is cleared. -/
theorem spare_entry_cleared :
    ¬ ∀ (data : FileBytes) (phdrs : List Phdr) (phdr : Phdr)
        (entries : List Dyn) (space : Space) (base dynAddr : Usize)
        (dynCount : Nat),
      firstOf PT_DYNAMIC phdrs = some phdr →
        Returns (dynamicEntries data phdrs) entries →
          dynamicSection base phdrs = some (dynAddr, dynCount) →
            SameBytes data phdr space.bytes dynAddr →
              ActsOn space base phdrs dynAddr dynCount entries := by
  intro every
  have acts :
      ActsOn (sectionSpace 5) 0x1000 [sectionHeader] 0x1000 3
        [⟨12, 0x10⟩] := by
    refine
      every ⟨sectionBytes 5, short_sectionBytes 5⟩ [sectionHeader]
        sectionHeader [⟨12, 0x10⟩] (sectionSpace 5) 0x1000 0x1000 3 rfl ?_
        (by decide) ?_
    · unfold Returns
      decide +kernel
    · unfold SameBytes
      decide +kernel
  have kept := acts.kept 0x1028#64 fun i entry found _ => by
    obtain ⟨small, _⟩ := List.getElem?_eq_some_iff.mp found
    obtain rfl : i = 0 := Nat.lt_one_iff.mp small
    decide +kernel
  have cleared :
      clearedAt (sectionSpace 5).bytes 0x1000 3 0x1028#64 = 0 :=
    if_pos ⟨2, by decide, by decide +kernel, by decide +kernel⟩
  have same :=
    @bytes_clearInitArrays (sectionSpace 5) 0x1000 [sectionHeader] 0x1000 3
      (by decide) (by decide)
  rw [same, cleared] at kept
  exact absurd kept (by decide +kernel)

end Vproc.Exec.DynamicTables
