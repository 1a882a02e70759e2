import Vproc.Exec.Words

/-!
# Arguments

`execve` and the functions of the library are given arrays of C strings.
`c_array_to_vec` makes strings in UTF-8 of them, and `build_c_strings` makes C
strings of these for the new process.  What is not in UTF-8 is replaced on the
way: every longest piece of a sequence which does not go on becomes one U+FFFD.
So exactly the strings in UTF-8 arrive as they were.
-/

namespace Vproc.Exec.Arguments

open Vproc.Exec.Elf
open Vproc.Exec.Words

/-! ## The functions of the source -/

/-- The character at the beginning of some bytes. -/
def decodeFirst (bytes : List UInt8) : Option Char :=
  bytes.toByteArray.utf8DecodeChar? 0

/-- U+FFFD. -/
def replacement : Char :=
  Char.ofNat 0xFFFD

/-- A continuation byte. -/
def isContinuation (byte : UInt8) : Bool :=
  byte &&& 192 == 128

/-- Can the second byte of a sequence of three or four follow the first? -/
def follows (first second : UInt8) : Bool :=
  if first = 0xE0 then 0xA0 ≤ second && second ≤ 0xBF
  else if first = 0xED then 0x80 ≤ second && second ≤ 0x9F
  else if first = 0xF0 then 0x90 ≤ second && second ≤ 0xBF
  else if first = 0xF4 then 0x80 ≤ second && second ≤ 0x8F
  else isContinuation second

/-- What one U+FFFD stands for, at bytes which no character begins. -/
def invalidLength : List UInt8 → Nat
  | [] => 0
  | first :: rest =>
      let second := rest.getD 0 0
      let third := rest.getD 1 0
      if 0xE0 ≤ first ∧ first ≤ 0xEF then
        if follows first second then 2 else 1
      else if 0xF0 ≤ first ∧ first ≤ 0xF4 then
        if follows first second then
          if isContinuation third then 3 else 2
        else 1
      else 1

/-- `to_string_lossy`, for at most `limit` characters. -/
def lossyFrom : Nat → List UInt8 → List Char
  | 0, _ => []
  | limit + 1, bytes =>
      if bytes = [] then []
      else
        match decodeFirst bytes with
        | some char => char :: lossyFrom limit (bytes.drop char.utf8Size)
        | none =>
            replacement :: lossyFrom limit (bytes.drop (invalidLength bytes))

/-- `to_string_lossy`. -/
def toStringLossy (bytes : List UInt8) : String :=
  String.ofList (lossyFrom bytes.length bytes)

/-- `c_array_to_vec`; none if no null ends the array. -/
def cArrayToVec (memory : Bytes) (arr : Usize) : Option (List String) :=
  if arr = 0 then some []
  else
    (pointersFrom memory (2 ^ 61) arr).map fun found =>
      found.1.map fun ptr => toStringLossy (cString memory ptr)

/-- The bytes of a string. -/
def utf8Bytes (string : String) : List UInt8 :=
  string.toList.flatMap String.utf8EncodeChar

/-- `CString::new(..).unwrap()`; none if this panics. -/
def cStringNew (string : String) : Option (List UInt8) :=
  if 0 ∈ utf8Bytes string then none else some (utf8Bytes string ++ [0])

/-- `build_c_strings`. -/
def buildCStrings (strings : List String) : Option (List (List UInt8)) :=
  strings.mapM cStringNew

/-! ## Strings in UTF-8 -/

/-- The bytes are in UTF-8. -/
def Utf8 (bytes : List UInt8) : Prop :=
  ∃ chars : List Char, bytes = chars.flatMap String.utf8EncodeChar

theorem decodeFirst_encode (char : Char) (rest : List UInt8) :
    decodeFirst (String.utf8EncodeChar char ++ rest) = some char := by
  rw [decodeFirst, List.toByteArray_append]
  exact ByteArray.utf8DecodeChar?_utf8EncodeChar_append

theorem prefix_of_decodeFirst
    {bytes : List UInt8} {char : Char}
    (decoded : decodeFirst bytes = some char) :
    String.utf8EncodeChar char <+: bytes := by
  obtain ⟨rest, split⟩ :=
    ByteArray.exists_of_utf8DecodeChar?_eq_some decoded
  have whole := congrArg (fun array => array.data.toList) split
  refine ⟨rest.data.toList, ?_⟩
  simpa using whole.symm

/-- Characters come back from their bytes. -/
theorem lossyFrom_flatMap
    {chars : List Char} {limit : Nat}
    (enough : (chars.flatMap String.utf8EncodeChar).length ≤ limit) :
    lossyFrom limit (chars.flatMap String.utf8EncodeChar) = chars := by
  induction chars generalizing limit with
  | nil => cases limit <;> rfl
  | cons char rest induction =>
      have positive := char.utf8Size_pos
      rw [List.flatMap_cons] at enough ⊢
      rw [List.length_append, String.length_utf8EncodeChar] at enough
      have notEmpty :
          String.utf8EncodeChar char ++
              rest.flatMap String.utf8EncodeChar ≠ [] := by
        intro empty
        have lengths := congrArg List.length empty
        rw [List.length_append, String.length_utf8EncodeChar,
          List.length_nil] at lengths
        omega
      cases limit with
      | zero => omega
      | succ limit =>
          rw [lossyFrom, if_neg notEmpty, decodeFirst_encode]
          dsimp only
          rw [List.drop_left' (String.length_utf8EncodeChar char),
            induction (by omega)]

/-- Exactly the strings in UTF-8 are kept. -/
theorem utf8Bytes_toStringLossy_iff (bytes : List UInt8) :
    utf8Bytes (toStringLossy bytes) = bytes ↔ Utf8 bytes := by
  rw [utf8Bytes, toStringLossy, String.toList_ofList]
  constructor
  · exact fun same => ⟨_, same.symm⟩
  · rintro ⟨chars, rfl⟩
    rw [lossyFrom_flatMap (le_refl _)]

/-! ## No zero bytes -/

theorem not_zero_of_lossyFrom
    {bytes : List UInt8} (noZero : 0 ∉ bytes) (limit : Nat) :
    0 ∉ (lossyFrom limit bytes).flatMap String.utf8EncodeChar := by
  induction limit generalizing bytes with
  | zero => exact List.not_mem_nil
  | succ limit induction =>
      have later (count : Nat) :
          0 ∉ (lossyFrom limit (bytes.drop count)).flatMap
            String.utf8EncodeChar :=
        induction fun member => noZero (List.mem_of_mem_drop member)
      rw [lossyFrom]
      split
      · exact List.not_mem_nil
      · cases decoded : decodeFirst bytes with
        | none =>
            dsimp only
            rw [List.flatMap_cons, List.mem_append]
            rintro (first | inRest)
            · revert first
              decide
            · exact later _ inRest
        | some char =>
            dsimp only
            rw [List.flatMap_cons, List.mem_append]
            rintro (first | inRest)
            · exact noZero ((prefix_of_decodeFirst decoded).subset first)
            · exact later _ inRest

theorem not_zero_of_cStringFrom
    (memory : Bytes) (limit : Nat) (address : Usize) :
    0 ∉ cStringFrom memory limit address := by
  induction limit generalizing address with
  | zero => exact List.not_mem_nil
  | succ limit induction =>
      rw [cStringFrom]
      split
      · exact List.not_mem_nil
      · rename_i notZero
        rw [List.mem_cons, not_or]
        exact ⟨fun isZero => notZero isZero.symm, induction (address + 1)⟩

/-- `build_c_strings` does not panic, and ends every string with a zero. -/
theorem buildCStrings_lossy
    {strings : List (List UInt8)}
    (noZero : ∀ string ∈ strings, 0 ∉ string) :
    buildCStrings (strings.map toStringLossy) =
      some
        (strings.map fun string =>
          utf8Bytes (toStringLossy string) ++ [0]) := by
  induction strings with
  | nil => rfl
  | cons string rest induction =>
      have first :
          cStringNew (toStringLossy string) =
            some (utf8Bytes (toStringLossy string) ++ [0]) := by
        have kept :=
          not_zero_of_lossyFrom (noZero string List.mem_cons_self)
            string.length
        rw [cStringNew, if_neg]
        rw [utf8Bytes, toStringLossy, String.toList_ofList]
        exact kept
      have others :=
        induction fun other member =>
          noZero other (List.mem_cons_of_mem string member)
      rw [buildCStrings] at others ⊢
      rw [List.map_cons, List.mapM_cons, first, others]
      rfl

/--
The C strings of an array arrive byte for byte in the new process, if and only
if all of them are in UTF-8.
-/
theorem arguments_arrive_iff
    (memory : Bytes) (arr next : Usize) (pointers : List Usize)
    (given : arr ≠ 0)
    (array : pointersFrom memory (2 ^ 61) arr = some (pointers, next)) :
    (cArrayToVec memory arr).bind buildCStrings =
        some (pointers.map fun ptr => cString memory ptr ++ [0]) ↔
      ∀ ptr ∈ pointers, Utf8 (cString memory ptr) := by
  have built :
      (cArrayToVec memory arr).bind buildCStrings =
        some
          (pointers.map fun ptr =>
            utf8Bytes (toStringLossy (cString memory ptr)) ++ [0]) := by
    have noZero :
        ∀ string ∈ pointers.map (cString memory), 0 ∉ string := by
      intro string member
      obtain ⟨ptr, _, rfl⟩ := List.mem_map.mp member
      exact not_zero_of_cStringFrom memory _ ptr
    have strings := buildCStrings_lossy noZero
    rw [List.map_map, List.map_map] at strings
    rw [cArrayToVec, if_neg given, array, Option.map_some,
      Option.bind_some]
    exact strings
  rw [built, Option.some.injEq, List.map_inj_left]
  refine forall₂_congr fun ptr _ => ?_
  rw [List.append_left_inj]
  exact utf8Bytes_toStringLossy_iff _

/-- An array at 0x100 with one string at 0x200, which has one byte. -/
def oneString (byte : UInt8) : Bytes := fun address =>
  if address = 0x101 then 2 else if address = 0x200 then byte else 0

/-- An ASCII letter arrives. -/
theorem arguments_arrive_letter :
    (cArrayToVec (oneString 0x41) 0x100).bind buildCStrings =
      some [[0x41, 0]] := by
  have string : cString (oneString 0x41) 0x200 = [0x41] := rfl
  have holds :=
    arguments_arrive_iff (oneString 0x41) 0x100 0x110 [0x200] (by decide)
      rfl
  rw [List.map_singleton, string] at holds
  refine holds.mpr fun ptr member => ?_
  rw [List.mem_singleton.mp member, string]
  exact ⟨['A'], rfl⟩

/-- The byte 0xFF arrives as the three bytes of U+FFFD. -/
theorem arguments_replaced :
    ¬ ∀ (memory : Bytes) (arr next : Usize) (pointers : List Usize),
      arr ≠ 0 →
        pointersFrom memory (2 ^ 61) arr = some (pointers, next) →
          (cArrayToVec memory arr).bind buildCStrings =
            some (pointers.map fun ptr => cString memory ptr ++ [0]) := by
  intro always
  have holds :=
    always (oneString 0xFF) 0x100 0x110 [0x200] (by decide) rfl
  revert holds
  decide +kernel

end Vproc.Exec.Arguments
