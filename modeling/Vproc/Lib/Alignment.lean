import Mathlib

/-!
# Rounding to a power of two

Machine code rounds an address down by clearing its lowest bits, and up by
adding one less than the unit before.  In exact integers these are the
greatest multiple of the unit which is not above the address, and the least
which is not below it.
-/

namespace Vproc.Lib.Alignment

/-- `address & !(2^bits - 1)` in words of the given width. -/
def clearLow (width bits address : Nat) : Nat :=
  (BitVec.ofNat width address &&&
    ~~~ BitVec.ofNat width (2 ^ bits - 1)).toNat

/-- The greatest multiple which is not above the address. -/
def roundDown (unit address : Nat) : Nat :=
  address / unit * unit

/-- The least multiple which is not below the address. -/
def roundUp (unit address : Nat) : Nat :=
  roundDown unit (address + (unit - 1))

/-- Clearing the lowest bits rounds down. -/
theorem clearLow_eq
    {width bits address : Nat} (fits : bits ≤ width)
    (bound : address < 2 ^ width) :
    clearLow width bits address = roundDown (2 ^ bits) address := by
  have mask : 2 ^ bits - 1 < 2 ^ width :=
    (Nat.sub_lt (Nat.two_pow_pos bits) Nat.one_pos).trans_le
      (Nat.pow_le_pow_right (by decide) fits)
  have whole :
      2 ^ width - 1 - (2 ^ bits - 1) = 2 ^ width - (2 ^ bits - 1 + 1) := by
    omega
  rw [clearLow, BitVec.toNat_and, BitVec.toNat_not, BitVec.toNat_ofNat,
    BitVec.toNat_ofNat, Nat.mod_eq_of_lt bound, Nat.mod_eq_of_lt mask,
    whole, roundDown]
  apply Nat.eq_of_testBit_eq
  intro i
  rw [Nat.testBit_and, Nat.testBit_two_pow_sub_succ mask,
    Nat.testBit_two_pow_sub_one, Nat.testBit_mul_two_pow,
    Nat.testBit_div_two_pow]
  by_cases low : i < bits
  · simp [low]
  · have high : bits ≤ i := not_lt.mp low
    rw [Nat.sub_add_cancel high]
    by_cases inside : i < width
    · simp [low, high, inside]
    · have outside : address.testBit i = false :=
        Nat.testBit_lt_two_pow
          (bound.trans_le
            (Nat.pow_le_pow_right (by decide) (not_lt.mp inside)))
      simp [outside]

section Rounding

variable (unit address : Nat)

theorem roundDown_le : roundDown unit address ≤ address :=
  Nat.div_mul_le_self address unit

theorem dvd_roundDown : unit ∣ roundDown unit address :=
  Nat.dvd_mul_left unit _

theorem dvd_roundUp : unit ∣ roundUp unit address :=
  dvd_roundDown unit _

variable {unit}

theorem lt_roundDown_add (positive : 0 < unit) :
    address < roundDown unit address + unit :=
  Nat.lt_div_mul_add positive

theorem le_roundUp (positive : 0 < unit) :
    address ≤ roundUp unit address := by
  have above := lt_roundDown_add (address + (unit - 1)) positive
  unfold roundUp
  omega

end Rounding

end Vproc.Lib.Alignment
