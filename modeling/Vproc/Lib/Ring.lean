import Mathlib

/-!
# Circular slices of a fixed array

The cells of a ring buffer of capacity `cap` are addressed by `Fin cap`, and
`advance` moves to the next cell, from the last one back to the first.  The
`count` cells from a position on form a `slice`.

The lemmas say how slices split, and that a write at the cell which follows a
slice extends it while a write further along leaves it alone, as long as the
slice does not wrap onto itself.
-/

namespace Vproc.Lib.Ring

universe u

variable {Item : Type u} {cap : Nat}

/-- The cell after `pos`, which is the first one after the last. -/
def advance (pos : Fin cap) : Fin cap :=
  ⟨(pos.val + 1) % cap, Nat.mod_lt _ (Nat.zero_lt_of_lt pos.isLt)⟩

/-- The items in `count` successive cells, starting at `pos`. -/
def slice (cells : Vector Item cap) : Fin cap → Nat → List Item
  | _, 0 => []
  | pos, count + 1 => cells[pos] :: slice cells (advance pos) count

@[simp]
theorem slice_zero (cells : Vector Item cap) (pos : Fin cap) :
    slice cells pos 0 = [] :=
  rfl

@[simp]
theorem length_slice
    (cells : Vector Item cap) (pos : Fin cap) (count : Nat) :
    (slice cells pos count).length = count := by
  induction count generalizing pos with
  | zero => rfl
  | succ count induction => simp [slice, induction]

theorem iterate_advance_val (pos : Fin cap) (count : Nat) :
    (advance^[count] pos).val = (pos.val + count) % cap := by
  induction count with
  | zero => simp [Nat.mod_eq_of_lt pos.isLt]
  | succ count induction =>
      rw [Function.iterate_succ_apply']
      simp only [advance, induction, Nat.mod_add_mod]
      congr 1

theorem iterate_advance_add
    (pos : Fin cap) (first second : Nat) :
    advance^[second] (advance^[first] pos) =
      advance^[first + second] pos := by
  rw [Nat.add_comm, Function.iterate_add_apply]

/-- Two different cells within one lap are really different. -/
theorem iterate_advance_ne
    (pos : Fin cap) {near far : Nat}
    (before : near < far) (lap : far < cap) :
    advance^[far] pos ≠ advance^[near] pos := by
  intro equal
  have values := congrArg Fin.val equal
  rw [iterate_advance_val, iterate_advance_val] at values
  have posLt : pos.val < cap := pos.isLt
  have nearCases : pos.val + near < cap ∨ cap ≤ pos.val + near :=
    Nat.lt_or_ge _ _
  have farCases : pos.val + far < cap ∨ cap ≤ pos.val + far :=
    Nat.lt_or_ge _ _
  rcases farCases with farLow | farHigh
  · rw [Nat.mod_eq_of_lt farLow,
      Nat.mod_eq_of_lt (by omega)] at values
    omega
  · rw [Nat.mod_eq_sub_mod farHigh,
      Nat.mod_eq_of_lt (by omega : pos.val + far - cap < cap)] at values
    rcases nearCases with nearLow | nearHigh
    · rw [Nat.mod_eq_of_lt nearLow] at values
      omega
    · rw [Nat.mod_eq_sub_mod nearHigh,
        Nat.mod_eq_of_lt (by omega)] at values
      omega

theorem slice_add
    (cells : Vector Item cap) (pos : Fin cap) (first second : Nat) :
    slice cells pos (first + second) =
      slice cells pos first ++
        slice cells (advance^[first] pos) second := by
  induction first generalizing pos with
  | zero => simp
  | succ first induction =>
      rw [Nat.succ_add, slice, induction, slice, List.cons_append]
      rfl

theorem slice_succ
    (cells : Vector Item cap) (pos : Fin cap) (count : Nat) :
    slice cells pos (count + 1) =
      slice cells pos count ++ [cells[advance^[count] pos]] := by
  rw [slice_add]
  rfl

/-- Dropping the first items of a slice leaves the slice further along. -/
theorem drop_slice
    (cells : Vector Item cap) (pos : Fin cap)
    {taken count : Nat} (within : taken ≤ count) :
    (slice cells pos count).drop taken =
      slice cells (advance^[taken] pos) (count - taken) := by
  obtain ⟨rest, rfl⟩ := Nat.exists_eq_add_of_le within
  rw [slice_add, Nat.add_sub_cancel_left]
  exact List.drop_left' (length_slice cells pos taken)

theorem take_slice
    (cells : Vector Item cap) (pos : Fin cap)
    {taken count : Nat} (within : taken ≤ count) :
    (slice cells pos count).take taken = slice cells pos taken := by
  obtain ⟨rest, rfl⟩ := Nat.exists_eq_add_of_le within
  rw [slice_add]
  exact List.take_left' (length_slice cells pos taken)

/-- A write past the end of a slice, within one lap, leaves it as it was. -/
theorem slice_set_of_le
    (cells : Vector Item cap) (pos : Fin cap) (item : Item)
    {count far : Nat} (past : count ≤ far) (lap : far < cap) :
    slice (cells.set (advance^[far] pos) item) pos count =
      slice cells pos count := by
  induction count with
  | zero => rfl
  | succ count induction =>
      have different :
          advance^[far] pos ≠ advance^[count] pos :=
        iterate_advance_ne pos past lap
      have untouched :
          (cells.set (advance^[far] pos) item)[advance^[count] pos] =
            cells[advance^[count] pos] :=
        Vector.getElem_set_ne _ _
          (fun equal => different (Fin.ext equal))
      rw [slice_succ, slice_succ, induction (by omega), untouched]

/-- A write at the cell after a slice which leaves room extends it. -/
theorem slice_set_succ
    (cells : Vector Item cap) (pos : Fin cap) (item : Item)
    {count : Nat} (room : count < cap) :
    slice (cells.set (advance^[count] pos) item) pos (count + 1) =
      slice cells pos count ++ [item] := by
  have written :
      (cells.set (advance^[count] pos) item)[advance^[count] pos] =
        item :=
    Vector.getElem_set_self _
  rw [slice_succ, slice_set_of_le cells pos item (Nat.le_refl _) room, written]

end Vproc.Lib.Ring
