import Vproc.Lib.Retry
import Vproc.Sched.WaitPid

/-!
# Waiting for a real child

For a number which is not one of a virtual process `waitpid` asks the kernel,
with `WNOHANG` and again after each yield, where the kernel's own call would
block.  Both end with the first answer which is not "not yet".

The two ends are the same but for two things.  The error number is lost: the
answer of `syscall` is -1, and its negation is stored in `errno` over the one
which `syscall` has stored there.  And the loop passes `WNOHANG` alone, so
that the other bits of the caller's options do not reach the kernel.
-/

namespace Vproc.Sched.RealChildren

open Vproc.Lib.Retry
open Vproc.Fd.Table
open Vproc.Sched.Scheduler
open Vproc.Sched.WaitPid

/-- The kernel's answers, one for each moment at which it may be asked. -/
structure KernelAnswers where
  answer : Nat → Wait4Answer
  positive : ∀ n pid status, answer n = .child pid status → 0 < pid

/-- `WNOHANG`. -/
def WNOHANG : CInt := 1

/-- The options of the kernel calls which `waitpid` makes. -/
def passedOptions (call : WaitCall) : CInt :=
  if isNoHang call.options then call.options else WNOHANG

/-- All bits but that of `WNOHANG`. -/
def otherBits (options : CInt) : CInt :=
  options / 2

/-- One kernel call of `waitpid`: its reply, or none if the caller yields. -/
def waitpidAttempt (call : WaitCall) (answer : Wait4Answer) :
    Option WaitReply :=
  let reply := rawWait4 call answer
  if isNoHang call.options then some reply
  else if 0 < reply.ret then some reply
  else if reply.ret < 0 then some { reply with ret := -1 }
  else none

/-- The kernel's own `wait4` at a moment: its reply, or none if it blocks. -/
def wait4Attempt (call : WaitCall) : Wait4Answer → Option WaitReply
  | .notYet =>
      if isNoHang call.options then
        some { ret := 0, status := none, errno := none }
      else none
  | .child pid status =>
      some
        { ret := pid
          status := if call.wantsStatus then some status else none
          errno := none }
  | .error errno => some { ret := -1, status := none, errno := some errno }

/-- In a session, this is what a call about a real child does in its turn. -/
theorem look_real
    (ex : Executor) {call : WaitCall} (hangs : isNoHang call.options = false)
    (answer : Wait4Answer) :
    look ex { call := call, isVirtual := false } answer =
      waitpidAttempt call answer := by
  simp [look, waitpidAttempt, hangs]

/-- With `WNOHANG` the first kernel call is the last. -/
def AsksOnce (call : WaitCall) (kernel : KernelAnswers) : Prop :=
  isNoHang call.options = true →
    ∀ n, Reaches (waitpidAttempt call) kernel.answer n → n = 0

/--
`waitpid` ends as `wait4` would, passes its options on, and asks once if it
must not block.
-/
def EndsLikeWait4 (call : WaitCall) (kernel : KernelAnswers) : Prop :=
  AsksOnce call kernel ∧
    otherBits (passedOptions call) = otherBits call.options ∧
    SameEnd (waitpidAttempt call) (wait4Attempt call) kernel.answer

/-- The call ends with this answer, if it is one. -/
def DecidedAt (call : WaitCall) (kernel : KernelAnswers) (n : Nat) : Prop :=
  if isNoHang call.options then n = 0
  else ∀ k < n, kernel.answer k = .notYet

/-! ## One answer -/

/-- The attempts differ in the number of an error only. -/
theorem attempts_eq_iff
    (call : WaitCall) {answer : Wait4Answer}
    (positive : ∀ pid status, answer = .child pid status → 0 < pid) :
    waitpidAttempt call answer = wait4Attempt call answer ↔
      ∀ errno, answer = .error errno → errno = 1 := by
  cases answer with
  | notYet => simp [waitpidAttempt, wait4Attempt, rawWait4]
  | child pid status =>
      have isPid : 0 < pid := positive pid status rfl
      simp [waitpidAttempt, wait4Attempt, rawWait4, isPid]
  | error errno =>
      have reply :
          waitpidAttempt call (.error errno) =
            some { ret := -1, status := none, errno := some 1 } := by
        simp [waitpidAttempt, rawWait4]
      rw [reply]
      simp [wait4Attempt, eq_comm]

/-- An answer keeps `waitpid` waiting if it is "not yet". -/
theorem waitpidAttempt_eq_none_iff
    (call : WaitCall) {answer : Wait4Answer}
    (positive : ∀ pid status, answer = .child pid status → 0 < pid) :
    waitpidAttempt call answer = none ↔
      isNoHang call.options = false ∧ answer = .notYet := by
  cases answer with
  | notYet => simp [waitpidAttempt, rawWait4]
  | child pid status =>
      have isPid : 0 < pid := positive pid status rfl
      simp [waitpidAttempt, rawWait4, isPid]
  | error errno => simp [waitpidAttempt, rawWait4]

/-! ## Whole calls -/

theorem reaches_iff_decidedAt
    (call : WaitCall) (kernel : KernelAnswers) (n : Nat) :
    Reaches (waitpidAttempt call) kernel.answer n ↔
      DecidedAt call kernel n := by
  have inVain (k : Nat) :
      waitpidAttempt call (kernel.answer k) = none ↔
        isNoHang call.options = false ∧ kernel.answer k = .notYet :=
    waitpidAttempt_eq_none_iff call (kernel.positive k)
  unfold Reaches DecidedAt
  simp only [inVain]
  cases isNoHang call.options with
  | false => simp
  | true =>
      simp only [Bool.true_eq_false, false_and, if_true, imp_false, not_lt]
      constructor
      · intro every
        exact Nat.le_zero.mp (every 0)
      · rintro rfl k
        exact k.zero_le

theorem asksOnce (call : WaitCall) (kernel : KernelAnswers) :
    AsksOnce call kernel := by
  intro noHang n reached
  have decided := (reaches_iff_decidedAt call kernel n).mp reached
  rwa [DecidedAt, if_pos noHang] at decided

theorem otherBits_passedOptions_iff (call : WaitCall) :
    otherBits (passedOptions call) = otherBits call.options ↔
      isNoHang call.options = true ∨ otherBits call.options = 0 := by
  unfold passedOptions
  cases isNoHang call.options with
  | true => simp
  | false =>
      simp only [Bool.false_eq_true, if_false, false_or]
      exact eq_comm

/--
`waitpid` ends with the return value, the status and the error number of the
kernel's `wait4` and passes all options on, if and only if there are no
options but `WNOHANG` to pass on, or `WNOHANG` is among them, and the answer
which decides is not an error whose number is not 1.
-/
theorem waitpid_ends_like_wait4_iff
    (call : WaitCall) (kernel : KernelAnswers) :
    EndsLikeWait4 call kernel ↔
      (isNoHang call.options = true ∨ otherBits call.options = 0) ∧
        ∀ n errno, DecidedAt call kernel n →
          kernel.answer n = .error errno → errno = 1 := by
  unfold EndsLikeWait4
  rw [and_iff_right (asksOnce call kernel), otherBits_passedOptions_iff,
    sameEnd_iff]
  apply and_congr_right
  intro _
  apply forall_congr'
  intro n
  rw [reaches_iff_decidedAt, attempts_eq_iff call (kernel.positive n),
    forall_comm]

/-- There is no such child. -/
def noChild : KernelAnswers where
  answer := fun _ => .error 10
  positive := nofun

/-- `ECHILD` becomes `EPERM`. -/
theorem error_number_lost :
    ¬ ∀ (call : WaitCall) (kernel : KernelAnswers),
      EndsLikeWait4 call kernel := by
  intro every
  obtain ⟨_, _, same⟩ :=
    every { pid := 4711, wantsStatus := true, options := 0 } noChild
  have ends :=
    (same 0 { ret := -1, status := none, errno := some 1 }).mp
      ⟨nofun, rfl⟩
  exact absurd ends.2 (by decide)

end Vproc.Sched.RealChildren
