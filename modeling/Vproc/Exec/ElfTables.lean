import Vproc.Exec.Elf

/-!
# Program headers, exactly

The table of program headers has its first offset, its number of entries and
the distance between them from the file, and the offset of an entry is
computed without a check.  No sum or product wraps all the same: the first
entry is read first, so that the table starts within the file when the second
offset is computed, and 65535 entries of 65535 bytes reach no further than
2^32 from there.
-/

namespace Vproc.Exec.ElfTables

open Vproc.Exec.Elf

/-- A slice has at most `isize::MAX` bytes. -/
structure FileBytes where
  bytes : List UInt8
  short : bytes.length < 2 ^ 63

/-! ## Bytes of a file -/

/-- Some bytes of a file. -/
def bytesAt (data : List UInt8) (offset size : Nat) : List UInt8 :=
  (data.drop offset).take size

/-- The little-endian number which is stored at an offset. -/
def numberAt (data : List UInt8) (offset size : Nat) : Nat :=
  littleEndian (bytesAt data offset size)

/-- The bytes are there, in exact integers. -/
def InFile (data : List UInt8) (offset size : Nat) : Prop :=
  offset + size ≤ data.length

instance (data : List UInt8) (offset size : Nat) :
    Decidable (InFile data offset size) :=
  inferInstanceAs (Decidable (_ ≤ _))

theorem littleEndian_lt (bytes : List UInt8) :
    littleEndian bytes < 256 ^ bytes.length := by
  unfold littleEndian
  induction bytes with
  | nil => simp
  | cons byte rest induction =>
      have low : byte.toNat < 256 := byte.toNat_lt
      rw [List.foldr_cons, List.length_cons, pow_succ]
      omega

theorem numberAt_lt (data : List UInt8) (offset size : Nat) :
    numberAt data offset size < 256 ^ size := by
  refine (littleEndian_lt _).trans_le ?_
  exact Nat.pow_le_pow_right (by decide) (List.length_take_le _ _)

/-- A field of a record is a number of the file. -/
theorem field_bytesAt
    (data : List UInt8) (offset : Nat) {whole start size : Nat}
    (fits : start + size ≤ whole) :
    field (bytesAt data offset whole) start size =
      numberAt data (offset + start) size := by
  have inside : min size (whole - start) = size :=
    Nat.min_eq_left (by omega)
  rw [field, numberAt, bytesAt, bytesAt, List.drop_take, List.take_take,
    inside, List.drop_drop]

/-- `read_at` tests the exact sum. -/
theorem readAt_eq_ok_iff
    (data : FileBytes) (offset : Usize) (size : Nat)
    (bytes : List UInt8) :
    readAt data.bytes offset size = .ok bytes ↔
      InFile data.bytes offset.toNat size ∧
        bytes = bytesAt data.bytes offset.toNat size := by
  have short := data.short
  unfold readAt InFile bytesAt
  dsimp only
  split
  · simp
    omega
  · split
    · simp
      omega
    · simp [eq_comm]
      omega

/-! ## The table -/

/-- The offset of an entry, in exact integers. -/
def position (hdr : Ehdr) (i : Nat) : Nat :=
  hdr.ePhoff.toNat + i * hdr.ePhentsize.toNat

/-- The offset of an entry, as it is computed. -/
def entryOffset (hdr : Ehdr) (i : Nat) : Usize :=
  hdr.ePhoff + BitVec.ofNat 64 i * hdr.ePhentsize.setWidth 64

/-- All of the table is in the file. -/
def TableInFile (data : List UInt8) (hdr : Ehdr) : Prop :=
  ∀ i < hdr.ePhnum.toNat, InFile data (position hdr i) 56

/-- The eight fields of a program header are those at an offset. -/
structure StoredAt (data : List UInt8) (offset : Nat) (phdr : Phdr) :
    Prop where
  pType : phdr.pType.toNat = numberAt data offset 4
  pFlags : phdr.pFlags.toNat = numberAt data (offset + 4) 4
  pOffset : phdr.pOffset.toNat = numberAt data (offset + 8) 8
  pVaddr : phdr.pVaddr.toNat = numberAt data (offset + 16) 8
  pPaddr : phdr.pPaddr.toNat = numberAt data (offset + 24) 8
  pFilesz : phdr.pFilesz.toNat = numberAt data (offset + 32) 8
  pMemsz : phdr.pMemsz.toNat = numberAt data (offset + 40) 8
  pAlign : phdr.pAlign.toNat = numberAt data (offset + 48) 8

/-- What decoding the table exactly means. -/
structure DecodesExactly (data : List UInt8) (hdr : Ehdr) : Prop where
  accepts :
    (∃ phdrs, programHeaders data hdr = .ok phdrs) ↔ TableInFile data hdr
  rejects :
    ¬ TableInFile data hdr →
      ∃ message, programHeaders data hdr = .error message
  entries : ∀ phdrs, programHeaders data hdr = .ok phdrs →
    phdrs.length = hdr.ePhnum.toNat ∧
      ∀ i phdr, phdrs[i]? = some phdr → StoredAt data (position hdr i) phdr
  noOverflow : ∀ i < hdr.ePhnum.toNat,
    (∀ j < i, InFile data (position hdr j) 56) →
      position hdr i < 2 ^ 64

theorem storedAt_decode (data : List UInt8) (offset : Nat) :
    StoredAt data offset (Phdr.decode (bytesAt data offset 56)) := by
  have word (start : Nat) (fits : start + 4 ≤ 56) :
      (BitVec.ofNat 32
          (field (bytesAt data offset 56) start 4)).toNat =
        numberAt data (offset + start) 4 := by
    rw [field_bytesAt data offset fits, BitVec.toNat_ofNat]
    exact Nat.mod_eq_of_lt (numberAt_lt data (offset + start) 4)
  have doubleWord (start : Nat) (fits : start + 8 ≤ 56) :
      (BitVec.ofNat 64
          (field (bytesAt data offset 56) start 8)).toNat =
        numberAt data (offset + start) 8 := by
    rw [field_bytesAt data offset fits, BitVec.toNat_ofNat]
    exact Nat.mod_eq_of_lt (numberAt_lt data (offset + start) 8)
  exact
    ⟨word 0 (by decide), word 4 (by decide), doubleWord 8 (by decide),
      doubleWord 16 (by decide), doubleWord 24 (by decide),
      doubleWord 32 (by decide), doubleWord 40 (by decide),
      doubleWord 48 (by decide)⟩

/-- No offset wraps before an entry has been found out of range. -/
theorem position_lt
    (data : FileBytes) (hdr : Ehdr) {i : Nat}
    (numbered : i < hdr.ePhnum.toNat)
    (before : ∀ j < i, InFile data.bytes (position hdr j) 56) :
    position hdr i < 2 ^ 64 := by
  have short := data.short
  have count := hdr.ePhnum.isLt
  have start := hdr.ePhoff.isLt
  unfold position
  rcases Nat.eq_zero_or_pos i with rfl | later
  · omega
  · have first := before 0 later
    have distance :
        i * hdr.ePhentsize.toNat ≤ 65535 * 65535 :=
      Nat.mul_le_mul (by omega) (by have := hdr.ePhentsize.isLt; omega)
    unfold InFile position at first
    omega

/-- An offset which does not wrap is computed exactly. -/
theorem toNat_entryOffset
    {hdr : Ehdr} {i : Nat} (numbered : i < hdr.ePhnum.toNat)
    (bound : position hdr i < 2 ^ 64) :
    (entryOffset hdr i).toNat = position hdr i := by
  have count := hdr.ePhnum.isLt
  have size := hdr.ePhentsize.isLt
  unfold position at bound ⊢
  have index : i % 2 ^ 64 = i := Nat.mod_eq_of_lt (by omega)
  have width :
      hdr.ePhentsize.toNat % 2 ^ 64 = hdr.ePhentsize.toNat :=
    Nat.mod_eq_of_lt (by omega)
  have product :
      i * hdr.ePhentsize.toNat % 2 ^ 64 = i * hdr.ePhentsize.toNat :=
    Nat.mod_eq_of_lt (by omega)
  rw [entryOffset, BitVec.toNat_add, BitVec.toNat_mul, BitVec.toNat_ofNat,
    BitVec.toNat_setWidth, index, width, product]
  exact Nat.mod_eq_of_lt bound

/-- An entry which can be read is the one at its exact offset. -/
theorem entry_eq_ok_iff
    (data : FileBytes) (hdr : Ehdr) {i : Nat}
    (numbered : i < hdr.ePhnum.toNat)
    (before : ∀ j < i, InFile data.bytes (position hdr j) 56)
    (phdr : Phdr) :
    (readAt data.bytes (entryOffset hdr i) 56).map Phdr.decode = .ok phdr ↔
      InFile data.bytes (position hdr i) 56 ∧
        phdr = Phdr.decode (bytesAt data.bytes (position hdr i) 56) := by
  have isExact :=
    toNat_entryOffset numbered (position_lt data hdr numbered before)
  have read := readAt_eq_ok_iff data (entryOffset hdr i) 56
  simp only [isExact] at read
  cases found : readAt data.bytes (entryOffset hdr i) 56 with
  | error message =>
      have absent : ¬ InFile data.bytes (position hdr i) 56 := by
        intro inFile
        have present := (read _).mpr ⟨inFile, rfl⟩
        rw [found] at present
        cases present
      exact iff_of_false nofun (fun present => absent present.1)
  | ok bytes =>
      obtain ⟨inFile, rfl⟩ := (read bytes).mp found
      rw [and_iff_right inFile]
      exact ⟨fun same => (Except.ok.inj same).symm, congrArg _ ∘ Eq.symm⟩

theorem bind_eq_ok_iff
    {First Second : Type} {first : Except String First}
    {next : First → Except String Second} {result : Second} :
    (first >>= next) = .ok result ↔
      ∃ value, first = .ok value ∧ next value = .ok result := by
  cases first with
  | error message => exact iff_of_false nofun nofun
  | ok value =>
      constructor
      · exact fun same => ⟨value, rfl, same⟩
      · rintro ⟨_, isValue, same⟩
        cases isValue
        exact same

/-- A loop which may fail succeeds with a result for each item. -/
theorem mapM_eq_ok_iff
    {Item Result : Type} {body : Item → Except String Result}
    {items : List Item} {results : List Result} :
    items.mapM body = .ok results ↔
      List.Forall₂ (fun item result => body item = .ok result) items
        results := by
  induction items generalizing results with
  | nil =>
      rw [List.mapM_nil, List.forall₂_nil_left_iff]
      exact ⟨fun same => (Except.ok.inj same).symm, congrArg _ ∘ Eq.symm⟩
  | cons item rest induction =>
      rw [List.mapM_cons, List.forall₂_cons_left_iff]
      simp only [bind_eq_ok_iff, induction]
      constructor
      · rintro ⟨result, first, others, all, same⟩
        exact ⟨result, others, first, all, (Except.ok.inj same).symm⟩
      · rintro ⟨result, others, first, all, rfl⟩
        exact ⟨result, first, others, all, rfl⟩

/-- All entries can be read if and only if all are in the file. -/
theorem entries_iff_tableInFile (data : FileBytes) (hdr : Ehdr) :
    (∀ i < hdr.ePhnum.toNat, ∃ phdr,
        (readAt data.bytes (entryOffset hdr i) 56).map Phdr.decode =
          .ok phdr) ↔
      TableInFile data.bytes hdr := by
  constructor
  · intro readable i
    induction i using Nat.strong_induction_on with
    | _ i induction =>
        intro numbered
        obtain ⟨phdr, found⟩ := readable i numbered
        have before : ∀ j < i, InFile data.bytes (position hdr j) 56 :=
          fun j below => induction j below (below.trans numbered)
        exact
          ((entry_eq_ok_iff data hdr numbered before phdr).mp found).1
  · intro inFile i numbered
    have before : ∀ j < i, InFile data.bytes (position hdr j) 56 :=
      fun j below => inFile j (below.trans numbered)
    exact
      ⟨_, (entry_eq_ok_iff data hdr numbered before _).mpr
        ⟨inFile i numbered, rfl⟩⟩

/-- The table which is decoded, if all of it is in the file. -/
def table (data : List UInt8) (hdr : Ehdr) : List Phdr :=
  (List.range hdr.ePhnum.toNat).map fun i =>
    Phdr.decode (bytesAt data (position hdr i) 56)

theorem programHeaders_eq_ok_iff
    (data : FileBytes) (hdr : Ehdr) (phdrs : List Phdr) :
    programHeaders data.bytes hdr = .ok phdrs ↔
      TableInFile data.bytes hdr ∧ phdrs = table data.bytes hdr := by
  have entries :
      programHeaders data.bytes hdr = .ok phdrs ↔
        List.Forall₂
          (fun i phdr =>
            (readAt data.bytes (entryOffset hdr i) 56).map Phdr.decode =
              .ok phdr)
          (List.range hdr.ePhnum.toNat) phdrs :=
    mapM_eq_ok_iff
  rw [entries, List.forall₂_iff_get]
  constructor
  · rintro ⟨same, all⟩
    have count : hdr.ePhnum.toNat = phdrs.length := by
      rwa [List.length_range] at same
    have found (i : Nat) (numbered : i < hdr.ePhnum.toNat) :
        (readAt data.bytes (entryOffset hdr i) 56).map Phdr.decode =
          .ok (phdrs.get ⟨i, count ▸ numbered⟩) := by
      have one :=
        all i (by rwa [List.length_range]) (count ▸ numbered)
      rwa [List.get_eq_getElem, List.getElem_range] at one
    have inFile : TableInFile data.bytes hdr :=
      (entries_iff_tableInFile data hdr).mp
        fun i numbered => ⟨_, found i numbered⟩
    refine ⟨inFile, List.ext_getElem ?_ ?_⟩
    · simp [table, ← count]
    · intro i numbered _
      have numbered : i < hdr.ePhnum.toNat := count ▸ numbered
      have decoded :=
        (entry_eq_ok_iff data hdr numbered
          (fun j below => inFile j (below.trans numbered)) _).mp
          (found i numbered)
      simpa [table] using decoded.2
  · rintro ⟨inFile, rfl⟩
    refine ⟨by simp [table], ?_⟩
    intro i numbered _
    rw [List.length_range] at numbered
    have decoded :=
      (entry_eq_ok_iff data hdr numbered
        (fun j below => inFile j (below.trans numbered)) _).mpr
        ⟨inFile i numbered, rfl⟩
    simpa [table] using decoded

/--
Program headers are decoded exactly: the result is there if and only if all
entries lie in the file, it has the fields which are stored at their
positions, and no offset wraps before the first entry out of range.
-/
theorem program_headers_exact (data : FileBytes) (hdr : Ehdr) :
    DecodesExactly data.bytes hdr where
  accepts := by
    constructor
    · rintro ⟨phdrs, decoded⟩
      exact ((programHeaders_eq_ok_iff data hdr phdrs).mp decoded).1
    · intro inFile
      exact ⟨_, (programHeaders_eq_ok_iff data hdr _).mpr ⟨inFile, rfl⟩⟩
  rejects := by
    intro outside
    cases result : programHeaders data.bytes hdr with
    | error message => exact ⟨message, rfl⟩
    | ok phdrs =>
        have inFile :=
          ((programHeaders_eq_ok_iff data hdr phdrs).mp result).1
        exact (outside inFile).elim
  entries := by
    intro phdrs decoded
    obtain ⟨_, rfl⟩ := (programHeaders_eq_ok_iff data hdr phdrs).mp decoded
    refine ⟨by simp [table], ?_⟩
    intro i phdr found
    rw [table, List.getElem?_map] at found
    obtain ⟨index, listed, rfl⟩ := Option.map_eq_some_iff.mp found
    obtain ⟨_, rfl⟩ := List.getElem?_eq_some_iff.mp listed
    rw [List.getElem_range]
    exact storedAt_decode _ _
  noOverflow := fun _ numbered before =>
    position_lt data hdr numbered before

/-! ## Files from headers -/

/-- A file header for a table behind it, with the first bytes as they are. -/
def encodeEhdr (hdr : Ehdr) : List UInt8 :=
  hdr.eIdent ++ numberBytes 2 hdr.eType.toNat ++
    numberBytes 2 hdr.eMachine.toNat ++ numberBytes 4 1 ++
    numberBytes 8 hdr.eEntry.toNat ++ numberBytes 8 hdr.ePhoff.toNat ++
    numberBytes 8 0 ++ numberBytes 4 0 ++ numberBytes 2 64 ++
    numberBytes 2 hdr.ePhentsize.toNat ++ numberBytes 2 hdr.ePhnum.toNat ++
    numberBytes 6 0

/-- A program header as it is stored. -/
def encodePhdr (phdr : Phdr) : List UInt8 :=
  numberBytes 4 phdr.pType.toNat ++ numberBytes 4 phdr.pFlags.toNat ++
    numberBytes 8 phdr.pOffset.toNat ++ numberBytes 8 phdr.pVaddr.toNat ++
    numberBytes 8 phdr.pPaddr.toNat ++ numberBytes 8 phdr.pFilesz.toNat ++
    numberBytes 8 phdr.pMemsz.toNat ++ numberBytes 8 phdr.pAlign.toNat

/-- The header of a PIE whose table follows at once. -/
def pieHeader (count : Nat) : Ehdr where
  eIdent := ELFMAG ++ [2, 1, 1] ++ List.replicate 9 0
  eType := 3
  eMachine := EM_AARCH64
  eEntry := 0
  ePhoff := 64
  ePhentsize := 56
  ePhnum := .ofNat 16 count

/-- A PIE with these program headers, and other bytes behind them. -/
def pieFile (phdrs : List Phdr) (rest : List UInt8) : List UInt8 :=
  encodeEhdr (pieHeader phdrs.length) ++ phdrs.flatMap encodePhdr ++ rest

@[simp]
theorem length_numberBytes (size value : Nat) :
    (numberBytes size value).length = size := by
  simp [numberBytes]

/-- A number comes back, as far as it fits. -/
theorem littleEndian_numberBytes (size value : Nat) :
    littleEndian (numberBytes size value) = value % 256 ^ size := by
  induction size generalizing value with
  | zero => simp [numberBytes, littleEndian, Nat.mod_one]
  | succ size induction =>
      have tail :
          numberBytes (size + 1) value =
            UInt8.ofNat value :: numberBytes size (value / 256) := by
        simp only [numberBytes, List.range_succ_eq_map, List.map_cons,
          List.map_map, Nat.mul_zero, Nat.shiftRight_zero]
        congr 1
        apply List.map_congr_left
        intro i _
        rw [Function.comp_apply, Nat.mul_succ, Nat.add_comm,
          Nat.shiftRight_add, Nat.shiftRight_eq_div_pow value 8]
      have low : (UInt8.ofNat value).toNat = value % 256 := rfl
      rw [tail, littleEndian, List.foldr_cons, ← littleEndian, induction,
        low, pow_succ, Nat.mul_comm (256 ^ size), Nat.mod_mul]

/-- A program header comes back from its bytes. -/
theorem decode_encodePhdr (phdr : Phdr) :
    Phdr.decode (encodePhdr phdr) = phdr := by
  have word (number : BitVec 32) :
      BitVec.ofNat 32 (littleEndian (numberBytes 4 number.toNat)) =
        number := by
    have bound : number.toNat < 256 ^ 4 := number.isLt
    rw [littleEndian_numberBytes, Nat.mod_eq_of_lt bound,
      BitVec.ofNat_toNat, BitVec.setWidth_eq]
  have doubleWord (number : BitVec 64) :
      BitVec.ofNat 64 (littleEndian (numberBytes 8 number.toNat)) =
        number := by
    have bound : number.toNat < 256 ^ 8 := number.isLt
    rw [littleEndian_numberBytes, Nat.mod_eq_of_lt bound,
      BitVec.ofNat_toNat, BitVec.setWidth_eq]
  simp [Phdr.decode, encodePhdr, field, List.drop_append,
    List.drop_of_length_le, List.take_of_length_le, word, doubleWord]

end Vproc.Exec.ElfTables
