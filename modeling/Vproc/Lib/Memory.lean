import Mathlib

/-!
# Memory with wrapping addresses

A memory has one cell for each address of a fixed width.  A range is a first
address with a number of cells, and goes on at 0 after the last address.  What
is written at a range is a list of cells, and several writes are done one
after the other, so that a later one wins where they overlap.

Two facts are used throughout.  Cells which were read from one memory and are
written into another carry over exactly the ranges they were read from, also
where these overlap.  And writes which are done a second time change nothing.
-/

namespace Vproc.Lib.Memory

universe u

variable {width : Nat} {Cell : Type u}

/-- One cell for each address. -/
abbrev Cells (width : Nat) (Cell : Type u) := BitVec width → Cell

/-- The address is one of the `length` addresses from `start` on. -/
def InRange (start : BitVec width) (length : Nat)
    (address : BitVec width) : Prop :=
  (address - start).toNat < length

instance (start : BitVec width) (length : Nat) (address : BitVec width) :
    Decidable (InRange start length address) :=
  inferInstanceAs (Decidable (_ < _))

/-- The cells of a range. -/
def read (memory : Cells width Cell) (start : BitVec width)
    (length : Nat) : List Cell :=
  (List.range length).map fun i => memory (start + BitVec.ofNat width i)

/-- Cells put at a range. -/
def write (memory : Cells width Cell) (start : BitVec width)
    (cells : List Cell) : Cells width Cell :=
  fun address => (cells[(address - start).toNat]?).getD (memory address)

/-- Writes, one after the other. -/
def writes (memory : Cells width Cell)
    (list : List (BitVec width × List Cell)) : Cells width Cell :=
  list.foldl (fun memory entry => write memory entry.1 entry.2) memory

/-- The address is in one of the ranges. -/
def InRanges (ranges : List (BitVec width × Nat))
    (address : BitVec width) : Prop :=
  ∃ range ∈ ranges, InRange range.1 range.2 address

instance (ranges : List (BitVec width × Nat)) (address : BitVec width) :
    Decidable (InRanges ranges address) :=
  inferInstanceAs (Decidable (∃ range ∈ ranges, _))

/-- The address is written. -/
def Written (list : List (BitVec width × List Cell))
    (address : BitVec width) : Prop :=
  InRanges (list.map fun entry => (entry.1, entry.2.length)) address

/-! ## Ranges -/

theorem inRange_add_ofNat
    (start : BitVec width) {i length : Nat} (small : i < length) :
    InRange start length (start + BitVec.ofNat width i) := by
  unfold InRange
  rw [add_comm, add_sub_cancel_right, BitVec.toNat_ofNat]
  exact (Nat.mod_le _ _).trans_lt small

theorem inRange_mono
    {start address : BitVec width} {length longer : Nat}
    (inRange : InRange start length address) (le : length ≤ longer) :
    InRange start longer address :=
  inRange.trans_le le

/-- The range of a field within the range of a record. -/
theorem inRange_of_offset
    {start address : BitVec width} {offset length whole : Nat}
    (inRange :
      InRange (start + BitVec.ofNat width offset) length address)
    (fits : offset + length ≤ whole) :
    InRange start whole address := by
  have split :
      address - start =
        BitVec.ofNat width offset +
          (address - (start + BitVec.ofNat width offset)) := by
    ring
  unfold InRange at *
  rw [split, BitVec.toNat_add, BitVec.toNat_ofNat]
  calc (offset % 2 ^ width +
          (address - (start + BitVec.ofNat width offset)).toNat) %
            2 ^ width
      ≤ offset % 2 ^ width +
          (address - (start + BitVec.ofNat width offset)).toNat :=
        Nat.mod_le _ _
    _ ≤ offset +
          (address - (start + BitVec.ofNat width offset)).toNat :=
        Nat.add_le_add_right (Nat.mod_le _ _) _
    _ < whole := by omega

/-- The range of a field, by the distance to the start of its record. -/
theorem inRange_offset_iff
    {start address : BitVec width} {offset length : Nat}
    (fits : offset + length ≤ 2 ^ width) :
    InRange (start + BitVec.ofNat width offset) length address ↔
      offset ≤ (address - start).toNat ∧
        (address - start).toNat < offset + length := by
  have bound := (address - start).isLt
  have split :
      address - (start + BitVec.ofNat width offset) =
        (address - start) - BitVec.ofNat width offset := by
    ring
  unfold InRange
  rw [split, BitVec.toNat_sub, BitVec.toNat_ofNat]
  rcases Nat.eq_zero_or_pos length with rfl | positive
  · omega
  · rw [Nat.mod_eq_of_lt (by omega : offset < 2 ^ width)]
    rcases Nat.lt_or_ge (address - start).toNat offset with below | above
    · rw [Nat.mod_eq_of_lt (by omega)]
      omega
    · have wraps :
          2 ^ width - offset + (address - start).toNat =
            (address - start).toNat - offset + 2 ^ width := by
        omega
      rw [wraps, Nat.add_mod_right, Nat.mod_eq_of_lt (by omega)]
      omega

/-- An address from its distance to the start of a range. -/
theorem add_ofNat_toNat_sub (start address : BitVec width) :
    start + BitVec.ofNat width (address - start).toNat = address := by
  rw [BitVec.ofNat_toNat, BitVec.setWidth_eq, add_comm, sub_add_cancel]

/-! ## Reading -/

@[simp] theorem length_read
    (memory : Cells width Cell) (start : BitVec width) (length : Nat) :
    (read memory start length).length = length := by
  simp [read]

/-- A range reads the same in memories which agree on it. -/
theorem read_congr
    {memory other : Cells width Cell} {start : BitVec width}
    {length : Nat}
    (agree : ∀ address, InRange start length address →
      memory address = other address) :
    read memory start length = read other start length := by
  apply List.map_congr_left
  intro i member
  exact agree _ (inRange_add_ofNat start (List.mem_range.mp member))

/-- Memories in which a range reads the same agree on it. -/
theorem eq_of_read_eq
    {memory other : Cells width Cell} {start address : BitVec width}
    {length : Nat}
    (same : read memory start length = read other start length)
    (inRange : InRange start length address) :
    memory address = other address := by
  have cells :=
    List.map_inj_left.mp same _ (List.mem_range.mpr inRange)
  rw [add_ofNat_toNat_sub] at cells
  exact cells

/-! ## Writing -/

theorem write_outside
    {memory : Cells width Cell} {start address : BitVec width}
    {cells : List Cell} (outside : ¬ InRange start cells.length address) :
    write memory start cells address = memory address := by
  unfold write
  rw [List.getElem?_eq_none (Nat.le_of_not_lt outside)]
  rfl

/-- What is written does not depend on what was there. -/
theorem write_inside
    {memory : Cells width Cell} (other : Cells width Cell)
    {start address : BitVec width} {cells : List Cell}
    (inside : InRange start cells.length address) :
    write memory start cells address =
      write other start cells address := by
  unfold write
  rw [List.getElem?_eq_getElem inside]
  rfl

theorem write_congr
    {memory other : Cells width Cell} {start address : BitVec width}
    {cells : List Cell} (same : memory address = other address) :
    write memory start cells address =
      write other start cells address := by
  unfold write
  rw [same]

/-- What was written is read. -/
theorem read_write
    (memory : Cells width Cell) (start : BitVec width) (cells : List Cell)
    (fits : cells.length ≤ 2 ^ width) :
    read (write memory start cells) start cells.length = cells := by
  apply List.ext_getElem
  · rw [length_read]
  · intro i _ small
    have distance :
        (start + BitVec.ofNat width i - start).toNat = i := by
      rw [add_comm, add_sub_cancel_right, BitVec.toNat_ofNat,
        Nat.mod_eq_of_lt (small.trans_le fits)]
    simp only [read, write, List.getElem_map, List.getElem_range]
    rw [distance, List.getElem?_eq_getElem small, Option.getD_some]

/-- Cells of another memory, put at the range they were read from. -/
theorem write_read
    (memory other : Cells width Cell) (start address : BitVec width)
    (length : Nat) :
    write memory start (read other start length) address =
      if InRange start length address then other address
      else memory address := by
  split
  · rename_i inside
    have small : (address - start).toNat < length := inside
    unfold write read
    rw [List.getElem?_map, List.getElem?_range small]
    simp only [Option.map_some, Option.getD_some]
    rw [add_ofNat_toNat_sub]
  · rename_i outside
    apply write_outside
    rw [length_read]
    exact outside

/-- Cells of another memory, put at another range. -/
theorem write_read_moved
    (memory other : Cells width Cell) (start source : BitVec width)
    {length i : Nat} (small : i < length) (fits : length ≤ 2 ^ width) :
    write memory start (read other source length)
        (start + BitVec.ofNat width i) =
      other (source + BitVec.ofNat width i) := by
  have distance : (start + BitVec.ofNat width i - start).toNat = i := by
    rw [add_comm, add_sub_cancel_right, BitVec.toNat_ofNat,
      Nat.mod_eq_of_lt (small.trans_le fits)]
  unfold write read
  rw [distance, List.getElem?_map, List.getElem?_range small]
  rfl

/-! ## Several writes -/

@[simp] theorem writes_nil (memory : Cells width Cell) :
    writes memory [] = memory :=
  rfl

@[simp] theorem writes_cons
    (memory : Cells width Cell) (entry : BitVec width × List Cell)
    (rest : List (BitVec width × List Cell)) :
    writes memory (entry :: rest) =
      writes (write memory entry.1 entry.2) rest :=
  rfl

theorem written_cons
    {entry : BitVec width × List Cell}
    {rest : List (BitVec width × List Cell)} {address : BitVec width} :
    Written (entry :: rest) address ↔
      InRange entry.1 entry.2.length address ∨ Written rest address := by
  simp [Written, InRanges]

theorem writes_congr
    {memory other : Cells width Cell}
    {list : List (BitVec width × List Cell)} {address : BitVec width}
    (same : memory address = other address) :
    writes memory list address = writes other list address := by
  induction list generalizing memory other with
  | nil => exact same
  | cons entry rest induction => exact induction (write_congr same)

theorem writes_outside
    {memory : Cells width Cell}
    {list : List (BitVec width × List Cell)} {address : BitVec width}
    (outside : ¬ Written list address) :
    writes memory list address = memory address := by
  induction list generalizing memory with
  | nil => rfl
  | cons entry rest induction =>
      rw [written_cons, not_or] at outside
      rw [writes_cons, induction outside.2, write_outside outside.1]

theorem writes_inside
    {memory : Cells width Cell} (other : Cells width Cell)
    {list : List (BitVec width × List Cell)} {address : BitVec width}
    (inside : Written list address) :
    writes memory list address = writes other list address := by
  induction list generalizing memory other with
  | nil =>
      obtain ⟨_, member, _⟩ := inside
      cases member
  | cons entry rest induction =>
      rcases written_cons.mp inside with first | later
      · rw [writes_cons, writes_cons]
        exact writes_congr (write_inside other first)
      · exact induction (write other entry.1 entry.2) later

/-- The same writes a second time. -/
theorem writes_writes
    (memory : Cells width Cell)
    (list : List (BitVec width × List Cell)) :
    writes (writes memory list) list = writes memory list := by
  funext address
  by_cases inside : Written list address
  · exact writes_inside memory inside
  · exact writes_outside inside

/-- Ranges of another memory, put where they were read from. -/
theorem writes_read
    (memory other : Cells width Cell)
    (ranges : List (BitVec width × Nat)) (address : BitVec width) :
    writes memory
        (ranges.map fun range =>
          (range.1, read other range.1 range.2)) address =
      if InRanges ranges address then other address
      else memory address := by
  induction ranges generalizing memory with
  | nil => simp [InRanges]
  | cons range rest induction =>
      rw [List.map_cons, writes_cons, induction, write_read]
      by_cases later : InRanges rest address
      · have whole : InRanges (range :: rest) address := by
          obtain ⟨found, member, inRange⟩ := later
          exact ⟨found, List.mem_cons_of_mem _ member, inRange⟩
        rw [if_pos later, if_pos whole]
      · rw [if_neg later]
        by_cases first : InRange range.1 range.2 address
        · rw [if_pos first, if_pos ⟨range, List.mem_cons_self, first⟩]
        · have none : ¬ InRanges (range :: rest) address := by
            rintro ⟨found, member, inRange⟩
            rcases List.mem_cons.mp member with rfl | inRest
            · exact first inRange
            · exact later ⟨found, inRest, inRange⟩
          rw [if_neg first, if_neg none]

end Vproc.Lib.Memory
