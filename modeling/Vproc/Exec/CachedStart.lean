import Vproc.Exec.Image

/-!
# Every start finds the same image

The saved segments are read from one memory, so that they agree where they
overlap, and putting them back gives this memory again on all of them.  The
redirection which follows reads its tables from this memory.  It has been done
there before, and as it does not write to its own tables, doing it once more
changes nothing.
-/

namespace Vproc.Exec.CachedStart

open Vproc.Lib.Memory
open Vproc.Exec.Elf
open Vproc.Exec.Image

/-- `mprotect` does not fail. -/
def Succeeds (platform : Platform) : Prop :=
  ∀ space address size prot,
    platform.mprotect space address size prot = true

/-- The writable segments of a binary, as ranges. -/
def writableRanges (base : Usize) (phdrs : List Phdr) :
    List (Usize × Nat) :=
  (phdrs.filter isWritable).map fun phdr =>
    (base + phdr.pVaddr, phdr.pMemsz.toNat)

/-- The address belongs to a writable segment. -/
def Writable (base : Usize) (phdrs : List Phdr) (address : Usize) : Prop :=
  InRanges (writableRanges base phdrs) address

instance (base : Usize) (phdrs : List Phdr) (address : Usize) :
    Decidable (Writable base phdrs address) :=
  inferInstanceAs (Decidable (InRanges _ _))

/--
The address belongs to the dynamic section or to the relocation table, to the
entry of a symbol which a relocation names, or to its name in the string table
with the 0 at its end.
-/
inductive InTables (bytes : Bytes) (base : Usize) (phdrs : List Phdr)
    (address : Usize) : Prop where
  | dynamic {dynAddr : Usize} {dynCount : Nat}
      (found : dynamicSection base phdrs = some (dynAddr, dynCount))
      (inRange : InRange dynAddr (16 * dynCount) address)
  | relocation {dynAddr : Usize} {dynCount : Nat} {tables : PltTables}
      (found : dynamicSection base phdrs = some (dynAddr, dynCount))
      (isTables : tables = pltTables bytes dynAddr dynCount)
      (inRange :
        InRange (tables.jmprel + base) (24 * tables.relaCount) address)
  | symbol {dynAddr : Usize} {dynCount i : Nat} {tables : PltTables}
      (found : dynamicSection base phdrs = some (dynAddr, dynCount))
      (isTables : tables = pltTables bytes dynAddr dynCount)
      (small : i < tables.relaCount)
      (inRange :
        InRange
          (tables.symtab + base +
            BitVec.ofNat 64
              (24 *
                (relaSym
                  (readRela bytes (tables.jmprel + base) i).rInfo).toNat))
          24 address)
  | name {dynAddr : Usize} {dynCount i : Nat} {tables : PltTables}
      {start : Usize}
      (found : dynamicSection base phdrs = some (dynAddr, dynCount))
      (isTables : tables = pltTables bytes dynAddr dynCount)
      (small : i < tables.relaCount)
      (isStart :
        start =
          nameAddress bytes base tables
            (readRela bytes (tables.jmprel + base) i))
      (inRange :
        InRange start ((cString bytes start).length + 1) address)

section Bytes

variable {platform : Platform}

@[simp] theorem bytes_mprotect
    (space : Space) (address size : Usize) (prot : Prot) :
    (mprotectMteAware platform space address size prot).1.bytes =
      space.bytes := by
  unfold mprotectMteAware
  split <;> rfl

@[simp] theorem bytes_store
    (space : Space) (address : Usize) (data : List UInt8) :
    (space.store address data).bytes = write space.bytes address data :=
  rfl

theorem bytes_protectPages
    (prot : Prot) (space : Space) (pages : List Usize) :
    (protectPages platform prot space pages).bytes = space.bytes := by
  induction pages generalizing space with
  | nil => rfl
  | cons page rest induction =>
      exact (induction _).trans (bytes_mprotect space page 0x2000 prot)

/-- What the redirection of calls writes. -/
def slotWrites (patches : List (Usize × Usize)) :
    List (Usize × List UInt8) :=
  patches.map fun patch => (patch.1, numberBytes 8 patch.2.toNat)

theorem bytes_stores (space : Space) (patches : List (Usize × Usize)) :
    (patches.foldl
        (fun space patch =>
          space.store patch.1 (numberBytes 8 patch.2.toNat))
        space).bytes =
      writes space.bytes (slotWrites patches) := by
  induction patches generalizing space with
  | nil => rfl
  | cons patch rest induction => exact induction _

theorem bytes_patchGot
    (space : Space) (base : Usize) (phdrs : List Phdr) :
    (patchGotForLoadedBinary platform space base phdrs).bytes =
      writes space.bytes
        (slotWrites (gotPatches platform space.bytes base phdrs)) := by
  unfold patchGotForLoadedBinary
  dsimp only
  split
  · rename_i empty
    rw [List.isEmpty_iff.mp empty]
    rfl
  · rw [bytes_protectPages, bytes_stores, bytes_protectPages]

/-- What restoring writes if `mprotect` does not fail. -/
def segmentWrites (segments : List WritableSegment) :
    List (Usize × List UInt8) :=
  segments.map fun segment => (segment.addr, segment.data)

theorem bytes_restoreSegment
    (succeeds : Succeeds platform) (space : Space)
    (segment : WritableSegment) :
    (restoreSegment platform space segment).bytes =
      write space.bytes segment.addr segment.data := by
  unfold restoreSegment
  dsimp only
  split
  · rename_i empty
    funext address
    rw [write_outside]
    unfold InRange
    omega
  · have opens (space : Space) (address size : Usize) (prot : Prot) :
        (mprotectMteAware platform space address size prot).2 = true := by
      unfold mprotectMteAware
      rw [succeeds space address size prot]
      rfl
    rw [if_pos (opens space _ _ _)]
    simp only [bytes_mprotect, bytes_store]

theorem bytes_restore
    (succeeds : Succeeds platform) (space : Space)
    (segments : List WritableSegment) :
    (restoreWritableSegments platform space segments).bytes =
      writes space.bytes (segmentWrites segments) := by
  induction segments generalizing space with
  | nil => rfl
  | cons segment rest induction =>
      refine (induction _).trans ?_
      rw [bytes_restoreSegment succeeds]
      rfl

/-- Putting back what was saved. -/
theorem bytes_restore_save
    (succeeds : Succeeds platform) (space : Space) (bytes : Bytes)
    (base : Usize) (phdrs : List Phdr) (address : Usize) :
    (restoreWritableSegments platform space
        (saveWritableSegments bytes base phdrs)).bytes address =
      if InRanges (writableRanges base phdrs) address then bytes address
      else space.bytes address := by
  rw [bytes_restore succeeds, ← writes_read]
  unfold segmentWrites saveWritableSegments writableRanges
  rw [List.map_map, List.map_map]
  rfl

end Bytes

/-! ## The tables are read as they were -/

section Tables

variable {platform : Platform} {bytes other : Bytes} {base : Usize}
  {phdrs : List Phdr}

theorem readUnaligned_congr
    {address : Usize} {size : Nat}
    (agree : ∀ x, InRange address size x → other x = bytes x) :
    readUnaligned other address size = readUnaligned bytes address size :=
  congrArg littleEndian (read_congr agree)

/-- Two numbers of eight bytes at the beginning of an entry. -/
theorem readPair_congr
    {start : Usize} {entry i count : Nat} (two : 16 ≤ entry)
    (small : i < count)
    (agree : ∀ x, InRange start (entry * count) x → other x = bytes x) :
    readUnaligned other (start + BitVec.ofNat 64 (entry * i)) 8 =
        readUnaligned bytes (start + BitVec.ofNat 64 (entry * i)) 8 ∧
      readUnaligned other
          (start + BitVec.ofNat 64 (entry * i) + BitVec.ofNat 64 8) 8 =
        readUnaligned bytes
          (start + BitVec.ofNat 64 (entry * i) + BitVec.ofNat 64 8) 8 := by
  have fits : entry * i + entry ≤ entry * count := by
    rw [← Nat.mul_succ]
    exact Nat.mul_le_mul_left entry small
  constructor
  · apply readUnaligned_congr
    intro x inRange
    exact agree x (inRange_of_offset inRange (by omega))
  · apply readUnaligned_congr
    intro x inRange
    have inEntry := inRange_of_offset inRange two
    exact agree x (inRange_of_offset inEntry fits)

theorem pltTables_congr
    {dynAddr : Usize} {dynCount : Nat}
    (agree : ∀ x, InRange dynAddr (16 * dynCount) x → other x = bytes x) :
    pltTables other dynAddr dynCount =
      pltTables bytes dynAddr dynCount := by
  have entries :
      (List.range dynCount).map (readDyn other dynAddr) =
        (List.range dynCount).map (readDyn bytes dynAddr) := by
    apply List.map_congr_left
    intro i member
    obtain ⟨tag, value⟩ :=
      readPair_congr (by decide) (List.mem_range.mp member) agree
    unfold readDyn
    dsimp only
    rw [tag, value]
  unfold pltTables
  rw [entries]

theorem cStringFrom_congr
    (limit : Nat) {address : Usize}
    (agree : ∀ x,
      InRange address ((cStringFrom bytes limit address).length + 1) x →
        other x = bytes x) :
    cStringFrom other limit address = cStringFrom bytes limit address := by
  induction limit generalizing address with
  | zero => rfl
  | succ limit induction =>
      have here : other address = bytes address := by
        apply agree
        unfold InRange
        rw [BitVec.sub_self]
        exact Nat.succ_pos _
      unfold cStringFrom at agree ⊢
      rw [here]
      split
      · rfl
      · rename_i more
        rw [if_neg more] at agree
        rw [induction]
        intro x inRange
        exact
          agree x
            (@inRange_of_offset 64 address x 1 _ _ inRange (by simp; omega))

theorem gotPatch_congr
    {dynAddr : Usize} {dynCount i : Nat} {tables : PltTables}
    (found : dynamicSection base phdrs = some (dynAddr, dynCount))
    (isTables : tables = pltTables bytes dynAddr dynCount)
    (small : i < tables.relaCount)
    (agree : ∀ x, InTables bytes base phdrs x → other x = bytes x) :
    gotPatch platform other base tables i =
      gotPatch platform bytes base tables i := by
  have rela :
      readRela other (tables.jmprel + base) i =
        readRela bytes (tables.jmprel + base) i := by
    obtain ⟨offset, info⟩ :=
      readPair_congr (by decide) small
        fun x inRange => agree x (.relocation found isTables inRange)
    unfold readRela
    dsimp only
    rw [offset, info]
  have name :
      nameAddress other base tables
          (readRela bytes (tables.jmprel + base) i) =
        nameAddress bytes base tables
          (readRela bytes (tables.jmprel + base) i) := by
    unfold nameAddress readStName
    rw [readUnaligned_congr]
    intro x inRange
    exact
      agree x
        (.symbol found isTables small (inRange_mono inRange (by decide)))
  have letters :=
    cStringFrom_congr (2 ^ 64)
      fun x inRange => agree x (.name found isTables small rfl inRange)
  unfold gotPatch cString
  dsimp only
  rw [rela, name, letters]

/-- The slots depend on the tables only. -/
theorem gotPatches_congr
    (agree : ∀ x, InTables bytes base phdrs x → other x = bytes x) :
    gotPatches platform other base phdrs =
      gotPatches platform bytes base phdrs := by
  unfold gotPatches
  cases found : dynamicSection base phdrs with
  | none => rfl
  | some dynamic =>
      obtain ⟨dynAddr, dynCount⟩ := dynamic
      dsimp only
      rw [pltTables_congr fun x inRange => agree x (.dynamic found inRange)]
      split
      · rfl
      · apply List.filterMap_congr
        intro i member
        exact
          gotPatch_congr found rfl (List.mem_range.mp member) agree

end Tables

/-! ## Starting again and again -/

/-- The slots which are patched have no byte in common with the tables. -/
def SlotsApart (platform : Platform) (bytes : Bytes) (base : Usize)
    (phdrs : List Phdr) : Prop :=
  ∀ patch ∈ gotPatches platform bytes base phdrs, ∀ address,
    InRange patch.1 8 address → ¬ InTables bytes base phdrs address

section Starts

variable {platform : Platform} {base : Usize} {phdrs : List Phdr}

theorem length_numberBytes (size value : Nat) :
    (numberBytes size value).length = size := by
  simp [numberBytes]

theorem written_slotWrites
    {patches : List (Usize × Usize)} {address : Usize}
    (written : Written (slotWrites patches) address) :
    ∃ patch ∈ patches, InRange patch.1 8 address := by
  obtain ⟨range, member, inRange⟩ := written
  obtain ⟨entry, inWrites, rfl⟩ := List.mem_map.mp member
  obtain ⟨patch, inPatches, rfl⟩ := List.mem_map.mp inWrites
  rw [length_numberBytes] at inRange
  exact ⟨patch, inPatches, inRange⟩

/-- Redirecting the calls a second time changes nothing. -/
theorem bytes_patchGot_again
    {space again : Space} (apart : SlotsApart platform space.bytes base phdrs)
    (same : again.bytes =
      (patchGotForLoadedBinary platform space base phdrs).bytes) :
    (patchGotForLoadedBinary platform again base phdrs).bytes =
      again.bytes := by
  have patches :
      gotPatches platform again.bytes base phdrs =
        gotPatches platform space.bytes base phdrs := by
    apply gotPatches_congr
    intro x inTables
    rw [same, bytes_patchGot]
    apply writes_outside
    intro written
    obtain ⟨patch, member, inRange⟩ := written_slotWrites written
    exact apart patch member x inRange inTables
  rw [bytes_patchGot, patches, same, bytes_patchGot, writes_writes]

/--
The memories a binary is started in: the first one, and those in which it is
started again after any change to its writable segments.
-/
inductive Started (platform : Platform) (saved : List WritableSegment)
    (base : Usize) (phdrs : List Phdr) (first : Space) :
    Space → Prop where
  | first : Started platform saved base phdrs first first
  | again {before changed : Space}
      (started : Started platform saved base phdrs first before)
      (elsewhere : ∀ address, ¬ Writable base phdrs address →
        changed.bytes address = before.bytes address) :
      Started platform saved base phdrs first
        (cachedImage platform saved changed base phdrs)

/-- Starting again after a change to the writable segments. -/
theorem bytes_cachedImage
    (succeeds : Succeeds platform) {space first changed : Space}
    (apart : SlotsApart platform space.bytes base phdrs)
    (isFirst : first = patchGotForLoadedBinary platform space base phdrs)
    (elsewhere : ∀ address, ¬ Writable base phdrs address →
      changed.bytes address = first.bytes address) :
    (cachedImage platform (saveWritableSegments first.bytes base phdrs)
      changed base phdrs).bytes = first.bytes := by
  have restored :
      (restoreWritableSegments platform changed
        (saveWritableSegments first.bytes base phdrs)).bytes =
      first.bytes := by
    funext address
    rw [bytes_restore_save succeeds]
    split
    · rfl
    · rename_i outside
      exact elsewhere address outside
  unfold cachedImage
  rw [bytes_patchGot_again apart (restored.trans (by rw [isFirst]))]
  exact restored

theorem bytes_of_started
    (succeeds : Succeeds platform) {space first started : Space}
    (apart : SlotsApart platform space.bytes base phdrs)
    (isFirst : first = patchGotForLoadedBinary platform space base phdrs)
    (start : Started platform
      (saveWritableSegments first.bytes base phdrs) base phdrs first
      started) :
    started.bytes = first.bytes := by
  induction start with
  | first => rfl
  | again _ elsewhere induction =>
      apply bytes_cachedImage succeeds apart isFirst
      rw [← induction]
      exact elsewhere

end Starts

/--
A binary is loaded at any address into any memory and started; later, any
number of times, its writable segments are changed and it is started again.
If `mprotect` succeeds, and the slots which are patched have no byte in common
with the tables they are found by, then each time the writable segments are as
at the first start, and no other byte is changed.
-/
theorem cached_start_restores
    (platform : Platform) (succeeds : Succeeds platform)
    (libc : LibcHooks) (loaded : Space) (base : Usize)
    (phdrs : List Phdr) (first : Space) (saved : List WritableSegment)
    (isFirst : first = firstImage platform libc loaded base phdrs)
    (isSaved : saved = saveWritableSegments first.bytes base phdrs)
    (apart : SlotsApart platform
      (preparedImage platform libc loaded base phdrs).bytes base phdrs)
    (before changed : Space)
    (started : Started platform saved base phdrs first before)
    (elsewhere : ∀ address, ¬ Writable base phdrs address →
      changed.bytes address = before.bytes address) :
    (∀ address, Writable base phdrs address →
        (cachedImage platform saved changed base phdrs).bytes address =
          first.bytes address) ∧
      ∀ address, ¬ Writable base phdrs address →
        (cachedImage platform saved changed base phdrs).bytes address =
          changed.bytes address := by
  subst isSaved
  have same := bytes_of_started succeeds apart isFirst started
  rw [same] at elsewhere
  rw [bytes_cachedImage succeeds apart isFirst elsewhere]
  exact ⟨fun _ _ => rfl, fun address outside => (elsewhere address outside).symm⟩

/-- A program which calls `fork`, with its tables in the text segment. -/
def forkingHeaders : List Phdr :=
  [⟨PT_LOAD, PF_R ||| PF_X, 0, 0, 0, 0x200, 0x200, 0x1000⟩,
    ⟨PT_LOAD, PF_R ||| PF_W, 0x200, 0x200, 0, 0x100, 0x100, 0x1000⟩,
    ⟨PT_DYNAMIC, PF_R ||| PF_W, 0x200, 0x200, 0, 0x40, 0x40, 8⟩]

/-- Its memory, loaded at `0x1000`, with `fork` of libc at `0x5000`. -/
def forkingProgram : Bytes :=
  writes (fun _ => 0)
    [(0x1100, numberBytes 8 0x280), (0x1108, numberBytes 8 0x100000402),
      (0x1158, numberBytes 4 1), (0x1181, [0x66, 0x6f, 0x72, 0x6b]),
      (0x1200, numberBytes 8 23), (0x1208, numberBytes 8 0x100),
      (0x1210, numberBytes 8 2), (0x1218, numberBytes 8 24),
      (0x1220, numberBytes 8 6), (0x1228, numberBytes 8 0x140),
      (0x1230, numberBytes 8 5), (0x1238, numberBytes 8 0x180),
      (0x1280, numberBytes 8 0x5000)]

/-- The interceptors are at `0x7000`, and `mprotect` succeeds. -/
def plainPlatform : Platform where
  mprotect := fun _ _ _ _ => true
  address := fun _ => 0x7000

/-- The hooks are written at `0x9000` and `0x9100`. -/
def libcAt9000 : LibcHooks where
  exitDone := false
  exit := some 0x9000
  execveDone := false
  execve := some 0x9100

/-- The memory in which the program is loaded. -/
def forkingSpace : Space where
  bytes := forkingProgram
  prot := fun _ => .rw

theorem slotsApart_forking :
    SlotsApart plainPlatform
      (preparedImage plainPlatform libcAt9000 forkingSpace 0x1000
        forkingHeaders).bytes
      0x1000 forkingHeaders := by
  have patches :
      gotPatches plainPlatform
          (preparedImage plainPlatform libcAt9000 forkingSpace 0x1000
            forkingHeaders).bytes
          0x1000 forkingHeaders = [(0x1280, 0x7000)] := by
    decide +kernel
  have dynamic :
      dynamicSection 0x1000 forkingHeaders = some (0x1200, 4) := by
    decide
  have tables :
      pltTables
          (preparedImage plainPlatform libcAt9000 forkingSpace 0x1000
            forkingHeaders).bytes
          0x1200 4 = ⟨0x100, 24, 0x140, 0x180⟩ := by
    decide +kernel
  have rela :
      readRela
          (preparedImage plainPlatform libcAt9000 forkingSpace 0x1000
            forkingHeaders).bytes
          (0x100 + 0x1000) 0 = ⟨0x280, 0x100000402⟩ := by
    decide +kernel
  have start :
      nameAddress
          (preparedImage plainPlatform libcAt9000 forkingSpace 0x1000
            forkingHeaders).bytes
          0x1000 ⟨0x100, 24, 0x140, 0x180⟩ ⟨0x280, 0x100000402⟩ =
        0x1181 := by
    decide +kernel
  have name :
      (cString
          (preparedImage plainPlatform libcAt9000 forkingSpace 0x1000
            forkingHeaders).bytes 0x1181).length = 4 := by
    decide +kernel
  intro patch member address inSlot inTables
  rw [patches, List.mem_singleton] at member
  subst member
  unfold InRange at inSlot
  dsimp only at inSlot
  cases inTables with
  | dynamic found inRange =>
      rw [dynamic] at found
      cases found
      unfold InRange at inRange
      bv_omega
  | relocation found isTables inRange =>
      rw [dynamic] at found
      cases found
      rw [tables] at isTables
      subst isTables
      unfold InRange PltTables.relaCount at inRange
      dsimp only at inRange
      bv_omega
  | @symbol _ _ i _ found isTables small inRange =>
      rw [dynamic] at found
      cases found
      rw [tables] at isTables
      subst isTables
      obtain rfl : i = 0 := Nat.lt_one_iff.mp small
      rw [rela] at inRange
      unfold InRange relaSym at inRange
      simp at inRange
      bv_omega
  | @name _ _ i _ _ found isTables small isStart inRange =>
      rw [dynamic] at found
      cases found
      rw [tables] at isTables
      subst isTables
      obtain rfl : i = 0 := Nat.lt_one_iff.mp small
      rw [rela, start] at isStart
      subst isStart
      rw [name] at inRange
      unfold InRange at inRange
      bv_omega

/-- The program overwrites its slot, and is started again. -/
theorem cached_start_restores_forking :
    ∃ first changed : Space,
      first = firstImage plainPlatform libcAt9000 forkingSpace 0x1000
        forkingHeaders ∧
      changed.bytes 0x1281#64 = 0 ∧ first.bytes 0x1281#64 = 0x70 ∧
      (cachedImage plainPlatform
        (saveWritableSegments first.bytes 0x1000 forkingHeaders) changed
        0x1000 forkingHeaders).bytes 0x1281#64 = 0x70 := by
  obtain ⟨first, isFirst⟩ :
      ∃ first, first = firstImage plainPlatform libcAt9000 forkingSpace
        0x1000 forkingHeaders :=
    ⟨_, rfl⟩
  have patched : first.bytes 0x1281#64 = 0x70 := by
    rw [isFirst]
    decide +kernel
  have inside : Writable 0x1000 forkingHeaders 0x1281#64 := by
    decide +kernel
  have elsewhere (address : Usize)
      (outside : ¬ Writable 0x1000 forkingHeaders address) :
      (first.store 0x1281#64 [0]).bytes address = first.bytes address := by
    apply write_outside
    intro inRange
    have same : address = 0x1281#64 := by
      unfold InRange at inRange
      simp only [List.length_singleton] at inRange
      bv_omega
    exact outside (same ▸ inside)
  obtain ⟨restored, _⟩ :=
    cached_start_restores plainPlatform (fun _ _ _ _ => rfl) libcAt9000
      forkingSpace 0x1000 forkingHeaders first _ isFirst rfl
      slotsApart_forking first (first.store 0x1281#64 [0]) .first elsewhere
  refine ⟨first, first.store 0x1281#64 [0], isFirst, rfl, patched, ?_⟩
  rw [← patched]
  exact restored 0x1281#64 inside

end Vproc.Exec.CachedStart
