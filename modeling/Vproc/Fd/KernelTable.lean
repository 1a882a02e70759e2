import Vproc.Fd.Table

/-!
# The kernel descriptor table of the host process

The kernel maps descriptor numbers to open files.  `open`, `dup` and `pipe`
return a number which is not in use; which one is the kernel's choice, so the
model takes it as an argument and fails the call if it cannot be meant.
-/

namespace Vproc.Fd.KernelTable

open Vproc.Fd.Table

/-- An open file of the kernel. -/
abbrev OpenFile := Nat

/-- The descriptor table, with the next open file and the number limit. -/
structure Kernel where
  files : CInt → Option OpenFile
  nextFile : OpenFile
  openMax : CInt

namespace Kernel

/-- A process with its three standard descriptors and no others. -/
def standard : Kernel where
  files := fun fd => if 0 ≤ fd ∧ fd < 3 then some fd.toNat else none
  nextFile := 3
  openMax := 1024

/-- A number within the limit of the process. -/
def inRange (kernel : Kernel) (fd : CInt) : Bool :=
  decide (0 ≤ fd) && decide (fd < kernel.openMax)

/-- A number the kernel may hand out. -/
def usable (kernel : Kernel) (fd : CInt) : Bool :=
  kernel.inRange fd && (kernel.files fd).isNone

/-- Make a number refer to a file. -/
def assign (kernel : Kernel) (fd : CInt) (file : OpenFile) : Kernel :=
  { kernel with files := Function.update kernel.files fd (some file) }

/-- `open`, which makes a new open file. -/
def openFile (kernel : Kernel) (answer : CInt) : Kernel × CInt :=
  if kernel.usable answer then
    ({ kernel.assign answer kernel.nextFile with
        nextFile := kernel.nextFile + 1 },
      answer)
  else (kernel, -1)

/-- `dup`. -/
def dup (kernel : Kernel) (oldFd answer : CInt) : Kernel × CInt :=
  match kernel.files oldFd with
  | some file =>
      if kernel.usable answer then (kernel.assign answer file, answer)
      else (kernel, -1)
  | none => (kernel, -1)

/-- `dup2`: the target is closed and taken over, unless it is the source. -/
def dup2 (kernel : Kernel) (oldFd newFd : CInt) : Kernel × CInt :=
  match kernel.files oldFd with
  | some file =>
      if kernel.inRange newFd then (kernel.assign newFd file, newFd)
      else (kernel, -1)
  | none => (kernel, -1)

/-- `close`. -/
def close (kernel : Kernel) (fd : CInt) : Kernel × CInt :=
  match kernel.files fd with
  | some _ =>
      ({ kernel with files := Function.update kernel.files fd none }, 0)
  | none => (kernel, -1)

/-- `pipe`: two new numbers, for two new open files. -/
def pipe (kernel : Kernel) (readFd writeFd : CInt) : Kernel × CInt :=
  if kernel.usable readFd && kernel.usable writeFd &&
      decide (readFd ≠ writeFd) then
    ({ (kernel.assign readFd kernel.nextFile).assign writeFd
          (kernel.nextFile + 1) with
        nextFile := kernel.nextFile + 2 },
      0)
  else (kernel, -1)

/-! ## What the calls do to numbers -/

theorem files_assign
    (kernel : Kernel) (fd : CInt) (file : OpenFile) (number : CInt) :
    (kernel.assign fd file).files number =
      if number = fd then some file else kernel.files number :=
  Function.update_apply _ _ _ _

theorem files_close (kernel : Kernel) (fd number : CInt) :
    (kernel.close fd).1.files number =
      if number = fd then none else kernel.files number := by
  unfold close
  split
  · exact Function.update_apply _ _ _ _
  · rename_i missing
    by_cases same : number = fd
    · simp [same, missing]
    · simp [same]

theorem usable_iff (kernel : Kernel) (fd : CInt) :
    kernel.usable fd = true ↔
      (0 ≤ fd ∧ fd < kernel.openMax) ∧ kernel.files fd = none := by
  simp [usable, inRange]

theorem inRange_iff (kernel : Kernel) (fd : CInt) :
    kernel.inRange fd = true ↔ 0 ≤ fd ∧ fd < kernel.openMax := by
  simp [inRange]

/-- `open` fails exactly if the kernel cannot use the answer. -/
theorem openFile_neg_iff (kernel : Kernel) (answer : CInt) :
    (kernel.openFile answer).2 < 0 ↔ ¬ kernel.usable answer = true := by
  unfold openFile
  by_cases usable : kernel.usable answer = true
  · have bounds := (usable_iff kernel answer).mp usable
    simp only [usable, if_true, not_true_eq_false, iff_false, not_lt]
    exact bounds.1.1
  · simp [usable]

theorem openFile_reply
    (kernel : Kernel) {answer : CInt}
    (usable : kernel.usable answer = true) :
    (kernel.openFile answer).2 = answer := by
  rw [openFile, if_pos usable]

theorem openFile_refused
    (kernel : Kernel) {answer : CInt}
    (unusable : ¬ kernel.usable answer = true) :
    kernel.openFile answer = (kernel, -1) := by
  rw [openFile, if_neg unusable]

/-- `dup` fails exactly if its source is not open or no number is left. -/
theorem dup_neg_iff (kernel : Kernel) (oldFd answer : CInt) :
    (kernel.dup oldFd answer).2 < 0 ↔
      ¬ ((kernel.files oldFd).isSome = true ∧
        kernel.usable answer = true) := by
  unfold dup
  cases kernel.files oldFd with
  | none => simp
  | some file =>
      by_cases usable : kernel.usable answer = true
      · have bounds := (usable_iff kernel answer).mp usable
        simp only [usable, if_true, Option.isSome_some, and_self,
          not_true_eq_false, iff_false, not_lt]
        exact bounds.1.1
      · simp [usable]

theorem dup_reply
    (kernel : Kernel) {oldFd answer : CInt}
    (possible : (kernel.files oldFd).isSome = true ∧
      kernel.usable answer = true) :
    (kernel.dup oldFd answer).2 = answer := by
  obtain ⟨file, found⟩ := Option.isSome_iff_exists.mp possible.1
  simp [dup, found, possible.2]

theorem dup_refused
    (kernel : Kernel) {oldFd answer : CInt}
    (impossible : ¬ ((kernel.files oldFd).isSome = true ∧
      kernel.usable answer = true)) :
    kernel.dup oldFd answer = (kernel, -1) := by
  unfold dup
  cases found : kernel.files oldFd with
  | none => rfl
  | some file =>
      have unusable : ¬ kernel.usable answer = true := by
        intro usable
        exact impossible ⟨by simp [found], usable⟩
      simp [unusable]

/-- `dup2` fails exactly if its source is not open or its target no number. -/
theorem dup2_neg_iff (kernel : Kernel) (oldFd newFd : CInt) :
    (kernel.dup2 oldFd newFd).2 < 0 ↔
      ¬ ((kernel.files oldFd).isSome = true ∧
        kernel.inRange newFd = true) := by
  unfold dup2
  cases kernel.files oldFd with
  | none => simp
  | some file =>
      by_cases inRange : kernel.inRange newFd = true
      · have bounds := (inRange_iff kernel newFd).mp inRange
        simp only [inRange, if_true, Option.isSome_some, and_self,
          not_true_eq_false, iff_false, not_lt]
        exact bounds.1
      · simp [inRange]

theorem dup2_refused
    (kernel : Kernel) {oldFd newFd : CInt}
    (impossible : ¬ ((kernel.files oldFd).isSome = true ∧
      kernel.inRange newFd = true)) :
    kernel.dup2 oldFd newFd = (kernel, -1) := by
  unfold dup2
  cases found : kernel.files oldFd with
  | none => rfl
  | some file =>
      have outside : ¬ kernel.inRange newFd = true := by
        intro inRange
        exact impossible ⟨by simp [found], inRange⟩
      simp [outside]

/-- `open` leaves every number in use as it was. -/
theorem openFile_keeps
    (kernel : Kernel) (answer : CInt) {number : CInt} {file : OpenFile}
    (used : kernel.files number = some file) :
    (kernel.openFile answer).1.files number = some file := by
  unfold openFile
  split
  · rename_i usable
    have different : number ≠ answer := by
      rintro rfl
      rw [((usable_iff kernel number).mp usable).2] at used
      cases used
    change (kernel.assign answer _).files number = some file
    rw [files_assign, if_neg different, used]
  · exact used

/-- `dup` leaves every number in use as it was. -/
theorem dup_keeps
    (kernel : Kernel) (oldFd answer : CInt)
    {number : CInt} {file : OpenFile}
    (used : kernel.files number = some file) :
    (kernel.dup oldFd answer).1.files number = some file := by
  unfold dup
  split
  · split
    · rename_i usable
      have different : number ≠ answer := by
        rintro rfl
        rw [((usable_iff kernel number).mp usable).2] at used
        cases used
      rw [files_assign, if_neg different, used]
    · exact used
  · exact used

/-- `pipe` leaves every number in use as it was. -/
theorem pipe_keeps
    (kernel : Kernel) (readFd writeFd : CInt)
    {number : CInt} {file : OpenFile}
    (used : kernel.files number = some file) :
    (kernel.pipe readFd writeFd).1.files number = some file := by
  unfold pipe
  split
  · rename_i usable
    simp only [Bool.and_eq_true] at usable
    have notRead : number ≠ readFd := by
      rintro rfl
      rw [((usable_iff kernel number).mp usable.1.1).2] at used
      cases used
    have notWrite : number ≠ writeFd := by
      rintro rfl
      rw [((usable_iff kernel number).mp usable.1.2).2] at used
      cases used
    change ((kernel.assign readFd _).assign writeFd _).files number =
      some file
    rw [files_assign, if_neg notWrite, files_assign, if_neg notRead, used]
  · exact used

end Kernel

end Vproc.Fd.KernelTable
