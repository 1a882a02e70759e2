import Vproc.Exec.ElfTables

/-!
# Words in memory

A word is a number of eight bytes.  Words which are written one after the other
stand one after the other, as long as they do not reach around the memory.  An
array of pointers ends at a null.
-/

namespace Vproc.Exec.Words

open Vproc.Lib.Memory
open Vproc.Exec.Elf
open Vproc.Exec.ElfTables

/-! ## One word -/

/-- The word at an address. -/
def wordAt (bytes : Bytes) (address : Usize) : Usize :=
  BitVec.ofNat 64 (readUnaligned bytes address 8)

/-- A word put at an address. -/
def putWord (bytes : Bytes) (address word : Usize) : Bytes :=
  write bytes address (numberBytes 8 word.toNat)

theorem wordAt_congr
    {bytes other : Bytes} {address : Usize}
    (agree : ∀ x, InRange address 8 x → bytes x = other x) :
    wordAt bytes address = wordAt other address :=
  congrArg (fun cells => BitVec.ofNat 64 (littleEndian cells))
    (read_congr agree)

theorem putWord_outside
    {bytes : Bytes} {address word x : Usize}
    (outside : ¬ InRange address 8 x) :
    putWord bytes address word x = bytes x := by
  apply write_outside
  rw [length_numberBytes]
  exact outside

theorem wordAt_putWord (bytes : Bytes) (start word : Usize) :
    wordAt (putWord bytes start word) start = word := by
  have cells :
      read (write bytes start (numberBytes 8 word.toNat)) start 8 =
        numberBytes 8 word.toNat := by
    have back :=
      read_write bytes start (numberBytes 8 word.toNat)
        (by rw [length_numberBytes]; decide)
    rw [length_numberBytes] at back
    exact back
  have bound : word.toNat < 256 ^ 8 := word.isLt
  rw [wordAt, readUnaligned, putWord, cells, littleEndian_numberBytes,
    Nat.mod_eq_of_lt bound, BitVec.ofNat_toNat, BitVec.setWidth_eq]

/-! ## One word after the other -/

/-- Words written one after the other. -/
def consecutive : Usize → List Usize → List (Usize × List UInt8)
  | _, [] => []
  | start, word :: rest =>
      (start, numberBytes 8 word.toNat) :: consecutive (start + 8) rest

/-- Words which stand one after the other. -/
def Holds (bytes : Bytes) : Usize → List Usize → Prop
  | _, [] => True
  | start, word :: rest =>
      wordAt bytes start = word ∧ Holds bytes (start + 8) rest

theorem ofNat_mul_succ (count : Nat) :
    BitVec.ofNat 64 (8 * (count + 1)) = 8 + BitVec.ofNat 64 (8 * count) := by
  rw [Nat.mul_succ, Nat.add_comm, BitVec.ofNat_add]
  rfl

theorem consecutive_append (start : Usize) (first second : List Usize) :
    consecutive start (first ++ second) =
      consecutive start first ++
        consecutive (start + BitVec.ofNat 64 (8 * first.length)) second := by
  induction first generalizing start with
  | nil => simp [consecutive]
  | cons word rest induction =>
      rw [List.cons_append, consecutive, induction, consecutive,
        List.length_cons, ofNat_mul_succ, add_assoc, List.cons_append]

/-- Words are written in the range which they take, and nowhere else. -/
theorem inRange_of_consecutive
    {start address : Usize} {words : List Usize}
    (written : Written (consecutive start words) address) :
    InRange start (8 * words.length) address := by
  induction words generalizing start with
  | nil =>
      obtain ⟨_, member, _⟩ := written
      cases member
  | cons word rest induction =>
      rw [List.length_cons]
      rcases written_cons.mp written with first | later
      · refine inRange_mono first ?_
        rw [length_numberBytes]
        omega
      · exact
          @inRange_of_offset 64 start address 8 (8 * rest.length) _
            (induction later) (by omega)

/-- The words stand where they were written, if they do not overlap. -/
theorem holds_consecutive
    (bytes : Bytes) (start : Usize) {words : List Usize}
    (fits : 8 * words.length ≤ 2 ^ 64) :
    Holds (writes bytes (consecutive start words)) start words := by
  induction words generalizing bytes start with
  | nil => exact True.intro
  | cons word rest induction =>
      rw [List.length_cons] at fits
      refine ⟨?_, induction _ _ (by omega)⟩
      have untouched (address : Usize) (inFirst : InRange start 8 address) :
          writes (putWord bytes start word)
              (consecutive (start + 8) rest) address =
            putWord bytes start word address := by
        apply writes_outside
        intro written
        have later :=
          (inRange_offset_iff
            (by omega : 8 + 8 * rest.length ≤ 2 ^ 64)).mp
            (inRange_of_consecutive written)
        exact absurd inFirst (Nat.not_lt.mpr later.1)
      exact (wordAt_congr untouched).trans (wordAt_putWord bytes start word)

/-! ## Up to a null -/

/-- The pointers up to a null, at most `limit`, and what is behind it. -/
def pointersFrom (bytes : Bytes) :
    Nat → Usize → Option (List Usize × Usize)
  | 0, _ => none
  | limit + 1, address =>
      if wordAt bytes address = 0 then some ([], address + 8)
      else
        (pointersFrom bytes limit (address + 8)).map fun found =>
          (wordAt bytes address :: found.1, found.2)

/-- Pointers are read up to the null behind them. -/
theorem pointersFrom_of_holds
    {bytes : Bytes} {start : Usize} {pointers rest : List Usize}
    {limit : Nat} (holds : Holds bytes start (pointers ++ 0 :: rest))
    (notNull : ∀ pointer ∈ pointers, pointer ≠ 0)
    (enough : pointers.length < limit) :
    pointersFrom bytes limit start =
        some
          (pointers, start + BitVec.ofNat 64 (8 * (pointers.length + 1))) ∧
      Holds bytes (start + BitVec.ofNat 64 (8 * (pointers.length + 1)))
        rest := by
  induction pointers generalizing start limit with
  | nil =>
      obtain ⟨limit, rfl⟩ := Nat.exists_eq_add_of_lt enough
      obtain ⟨isNull, later⟩ := holds
      refine ⟨?_, later⟩
      rw [pointersFrom, if_pos isNull]
      rfl
  | cons pointer others induction =>
      rw [List.length_cons] at enough
      cases limit with
      | zero => omega
      | succ limit =>
          obtain ⟨isPointer, later⟩ := holds
          have some := notNull pointer List.mem_cons_self
          obtain ⟨found, behind⟩ :=
            @induction (start + 8) limit later
              (fun other member =>
                notNull other (List.mem_cons_of_mem pointer member))
              (by omega)
          rw [List.length_cons, ofNat_mul_succ (others.length + 1),
            ← add_assoc]
          refine ⟨?_, behind⟩
          rw [pointersFrom, isPointer, if_neg some, found]
          rfl

end Vproc.Exec.Words
