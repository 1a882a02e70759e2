import Vproc.Ffi.PreloadLayers

/-!
# `poll` against `read` and `write`

`poll` tells from the flags of a pipe whether it is ready, `read` and `write`
find out by trying.  For every state of the pipe the two answers agree: a read
end is ready if and only if a read finds data or the end of file, a write end
if and only if a write transfers bytes or runs into the closed pipe.

They disagree about negative numbers, which `read` and `write` refuse while
`poll` looks them up in the table.  And the count of ready descriptors has 32
bits, so that it is not their number from 2147483648 on.
-/

namespace Vproc.Ffi.PollReadiness

open Vproc.Fd.PipeRing
open Vproc.Fd.Table
open Vproc.Fd.Runtime
open Vproc.Fd.Poll
open Vproc.Ffi.PreloadLayers

/-! ## Agreement -/

/-- `read` delivers data, or the end of file. -/
def Delivers : Ending → Prop
  | .returns ret errno _ _ => 0 ≤ ret ∧ errno = none
  | .exits _ => False

/-- `write` transfers bytes, or ends the process at a closed pipe. -/
def Transfers : Ending → Prop
  | .returns ret errno _ _ => 0 < ret ∧ errno = none
  | .exits code => code = 128 + 13

/-- The first attempt of a call ends it, in a certain way. -/
def AtOnce (ends : Ending → Prop) (moment : Moment) (vpid : VPid)
    (fd : CInt) (call : IoCall) : Prop :=
  ∃ ending,
    rustAttempt (moment.world.entry vpid (asU32 fd)) vpid fd call moment =
        some ending ∧
      ends ending

/-- What one turn of `poll` tells is what `read` and `write` would find. -/
structure Agrees (moment : Moment) (vpid : VPid) (kernel : KernelPoll)
    (fds : List PollFd) (timeout : CInt) : Prop where
  counts : ∀ count,
    pollRound moment.world vpid kernel fds timeout = .returns count →
      count = readyCount moment.world vpid kernel fds
  readEnds : ∀ pfd ∈ fds, ∀ buf,
    moment.world.entry vpid (asU32 pfd.fd) = some (.pipeRead buf) →
      has pfd.events pollIn = true →
        ∀ dst ≠ [],
          has (revents moment.world vpid kernel pfd) pollIn = true ↔
            AtOnce Delivers moment vpid pfd.fd (.read dst)
  writeEnds : ∀ pfd ∈ fds, ∀ buf,
    moment.world.entry vpid (asU32 pfd.fd) = some (.pipeWrite buf) →
      has pfd.events pollOut = true →
        ∀ src ≠ [],
          revents moment.world vpid kernel pfd ≠ 0 ↔
            AtOnce Transfers moment vpid pfd.fd (.write src)

/-! ## The condition -/

/-- Something which is asked of the descriptor is the case. -/
def isReady (world : World) (vpid : VPid) (kernel : KernelPoll)
    (pfd : PollFd) : Bool :=
  match world.entry vpid (asU32 pfd.fd) with
  | some (.pipeRead buf) =>
      has pfd.events pollIn &&
        (!(world.pipes buf).isEmpty || (world.pipes buf).isClosed)
  | some (.pipeWrite buf) =>
      has pfd.events pollOut &&
        (!(world.pipes buf).isFull || (world.pipes buf).isClosed)
  | some (.real realFd) => kernel.answer realFd pfd.events != 0
  | some (.file ref) => kernel.answer ref.realFd pfd.events != 0
  | none => kernel.answer pfd.fd pfd.events != 0

/-- The ready descriptors can be counted, or so many that the call parks. -/
def Countable (ready : Nat) (timeout : CInt) : Prop :=
  ready < 2147483648 ∨
    timeout ≠ 0 ∧
      (ready % 4294967296 = 0 ∨ 2147483648 ≤ ready % 4294967296)

/-- No ready end of a pipe has a negative number. -/
def PipesNonneg (world : World) (vpid : VPid) (kernel : KernelPoll)
    (fds : List PollFd) : Prop :=
  ∀ pfd ∈ fds, isPipe (world.entry vpid (asU32 pfd.fd)) = true →
    isReady world vpid kernel pfd = true → 0 ≤ pfd.fd

/-! ## One descriptor -/

/-- A read end reports nothing, or `POLLIN`. -/
theorem readEnd_cases (pipe : PipeBuffer) (events : Events) :
    if has events pollIn && (!pipe.isEmpty || pipe.isClosed) then
      has (readEnd pipe events) pollIn = true ∧ readEnd pipe events ≠ 0
    else readEnd pipe events = 0 := by
  unfold readEnd
  split
  · split <;> decide
  · rfl

/-- A write end reports something if it has room or is closed. -/
theorem writeEnd_ne_zero_iff (pipe : PipeBuffer) (events : Events) :
    writeEnd pipe events ≠ 0 ↔
      (has events pollOut && (!pipe.isFull || pipe.isClosed)) = true := by
  unfold writeEnd
  cases asked : has events pollOut with
  | false => simp
  | true =>
      cases pipe.isFull <;> cases pipe.isClosed <;> decide

theorem revents_ne_zero_iff
    (world : World) (vpid : VPid) (kernel : KernelPoll) (pfd : PollFd) :
    revents world vpid kernel pfd ≠ 0 ↔
      isReady world vpid kernel pfd = true := by
  unfold revents look isReady askKernel
  cases world.entry vpid (asU32 pfd.fd) with
  | none => exact bne_iff_ne.symm
  | some vfd =>
      cases vfd with
      | real realFd => exact bne_iff_ne.symm
      | file ref => exact bne_iff_ne.symm
      | pipeRead buf =>
          have reported := readEnd_cases (world.pipes buf) pfd.events
          dsimp only
          split at reported
          · rename_i ready
            exact iff_of_true reported.2 ready
          · rename_i unready
            exact iff_of_false (not_not.mpr reported) unready
      | pipeWrite buf => exact writeEnd_ne_zero_iff _ _

theorem readyCount_eq
    (world : World) (vpid : VPid) (kernel : KernelPoll)
    (fds : List PollFd) :
    readyCount world vpid kernel fds =
      fds.countP (isReady world vpid kernel) := by
  apply List.countP_congr
  intro pfd _
  exact bne_iff_ne.trans (revents_ne_zero_iff world vpid kernel pfd)

/-! ## One attempt -/

/-- A read does not have to wait if there is data, or nobody writes. -/
theorem readFrom_nonneg_iff (pipe : PipeBuffer) (dst : List UInt8) :
    0 ≤ (pipe.readFrom dst).2.result ↔
      (!pipe.isEmpty || pipe.isClosed) = true := by
  unfold PipeBuffer.isEmpty PipeBuffer.isClosed
  by_cases empty : pipe.len = 0
  · rw [pipe.readFrom_result_of_empty dst empty]
    cases pipe.closed <;> simp [empty]
  · have result :
        (pipe.readFrom dst).2.result = (min dst.length pipe.len : Nat) := by
      simp [PipeBuffer.readFrom, empty]
    rw [result]
    simp [empty]

/-- A write transfers bytes if the pipe is open and has room. -/
theorem writeTo_pos_iff
    (pipe : PipeBuffer) {src : List UInt8} (nonempty : src ≠ []) :
    0 < (pipe.writeTo src).2.result ↔
      pipe.isClosed = false ∧ pipe.isFull = false := by
  have stored := pipe.len_le
  have some : 0 < src.length := List.length_pos_iff.mpr nonempty
  unfold PipeBuffer.writeTo PipeBuffer.isFull PipeBuffer.isClosed
  cases pipe.closed with
  | true => simp
  | false =>
      by_cases full : pipe.len = pipeCapacity
      · simp [full]
      · have room : pipeCapacity - pipe.len ≠ 0 := by
          omega
        simp [room, full, some]
        omega

/-- Without room a write answers -1. -/
theorem writeTo_neg_of_not_pos
    (pipe : PipeBuffer) {src : List UInt8} (nonempty : src ≠ [])
    (none : ¬ 0 < (pipe.writeTo src).2.result) :
    ¬ 0 ≤ (pipe.writeTo src).2.result := by
  have blocked := (writeTo_pos_iff pipe nonempty).not.mp none
  have stored := pipe.len_le
  unfold PipeBuffer.writeTo PipeBuffer.isFull PipeBuffer.isClosed at *
  cases closed : pipe.closed with
  | true => simp
  | false =>
      have full : pipe.len = pipeCapacity := by
        simpa [closed] using blocked
      simp [full]

section Attempts

variable {moment : Moment} {vpid : VPid} {fd : CInt} {buf : ArcId}

/-- The first attempt to read, for the whole state of the pipe. -/
theorem delivers_iff
    (held : moment.world.entry vpid (asU32 fd) = some (.pipeRead buf))
    (dst : List UInt8) :
    AtOnce Delivers moment vpid fd (.read dst) ↔
      0 ≤ fd ∧
        (!(moment.world.pipes buf).isEmpty ||
          (moment.world.pipes buf).isClosed) = true := by
  rw [← readFrom_nonneg_iff _ dst]
  unfold AtOnce rustAttempt
  by_cases negative : fd < 0
  · simp [negative, fails, Delivers, not_le.mpr negative]
  · have nonneg : 0 ≤ fd := not_lt.mp negative
    simp only [negative, if_false, held, isPipe, if_true,
      Option.bind_some, IoCall.endOf, pipeTransfer, IoCall.transfer,
      IoCall.isWrite, Bool.false_and, Bool.false_eq_true, nonneg,
      true_and]
    by_cases delivered :
        0 ≤ ((moment.world.pipes buf).readFrom dst).2.result
    · simp [delivered, Delivers]
    · simp [delivered]

/-- The first attempt to write, for the whole state of the pipe. -/
theorem transfers_iff
    (held : moment.world.entry vpid (asU32 fd) = some (.pipeWrite buf))
    {src : List UInt8} (nonempty : src ≠ []) :
    AtOnce Transfers moment vpid fd (.write src) ↔
      0 ≤ fd ∧
        (!(moment.world.pipes buf).isFull ||
          (moment.world.pipes buf).isClosed) = true := by
  have positive := writeTo_pos_iff (moment.world.pipes buf) nonempty
  unfold AtOnce rustAttempt
  by_cases negative : fd < 0
  · simp [negative, fails, Transfers, not_le.mpr negative]
  · have nonneg : 0 ≤ fd := not_lt.mp negative
    simp only [negative, if_false, held, isPipe, if_true,
      Option.bind_some, IoCall.endOf, pipeTransfer, IoCall.transfer,
      IoCall.isWrite, Bool.true_and, nonneg, true_and]
    by_cases moved :
        0 < ((moment.world.pipes buf).writeTo src).2.result
    · have unclosed := positive.mp moved
      simp [moved, moved.le, Transfers, unclosed]
    · have refused := writeTo_neg_of_not_pos _ nonempty moved
      have blocked := positive.not.mp moved
      cases closed : (moment.world.pipes buf).isClosed with
      | true => simp [refused, Transfers]
      | false =>
          have full : (moment.world.pipes buf).isFull = true := by
            simpa [closed] using blocked
          simp [refused, full]

end Attempts

/-! ## One turn -/

/-- The count which is returned is right unless it has wrapped around. -/
theorem counts_iff
    (world : World) (vpid : VPid) (kernel : KernelPoll)
    (fds : List PollFd) (timeout : CInt) :
    (∀ count,
        pollRound world vpid kernel fds timeout = .returns count →
          count = readyCount world vpid kernel fds) ↔
      Countable (readyCount world vpid kernel fds) timeout := by
  have counted := toInt_countReady world vpid kernel fds
  rw [Int.bmod_def] at counted
  have isExact :
      (countReady world vpid kernel fds).toInt =
          readyCount world vpid kernel fds ↔
        readyCount world vpid kernel fds < 2147483648 := by
    split at counted <;> omega
  have unpositive :
      ¬ 0 < countReady world vpid kernel fds ↔
        readyCount world vpid kernel fds % 4294967296 = 0 ∨
          2147483648 ≤
            readyCount world vpid kernel fds % 4294967296 := by
    rw [Int32.lt_iff_toInt_lt, Int32.toInt_zero]
    split at counted <;> omega
  unfold pollRound Countable
  dsimp only
  by_cases empty : fds = []
  · subst empty
    simp [readyCount]
  · rw [if_neg empty]
    by_cases some : 0 < countReady world vpid kernel fds
    · have unwrapped := unpositive.not.mp (not_not.mpr some)
      simp only [some, if_true, Round.returns.injEq, forall_eq', isExact,
        unwrapped, and_false, or_false]
    · have wrapped := unpositive.mp some
      by_cases zero : timeout = 0
      · have none :
            0 = readyCount world vpid kernel fds ↔
              readyCount world vpid kernel fds < 2147483648 := by
          omega
        simp only [some, zero, if_true, if_false, Round.returns.injEq,
          forall_eq', ne_eq, not_true_eq_false, false_and, or_false,
          ← none]
        exact_mod_cast Iff.rfl
      · simp [some, zero, wrapped]

section Descriptors

variable {moment : Moment} {vpid : VPid} {kernel : KernelPoll}
variable {pfd : PollFd} {buf : ArcId}

theorem readEnd_agrees_iff
    (held :
      moment.world.entry vpid (asU32 pfd.fd) = some (.pipeRead buf))
    (asked : has pfd.events pollIn = true) :
    (∀ dst ≠ [],
        has (revents moment.world vpid kernel pfd) pollIn = true ↔
          AtOnce Delivers moment vpid pfd.fd (.read dst)) ↔
      (isReady moment.world vpid kernel pfd = true → 0 ≤ pfd.fd) := by
  have ready :
      isReady moment.world vpid kernel pfd =
        (!(moment.world.pipes buf).isEmpty ||
          (moment.world.pipes buf).isClosed) := by
    simp only [isReady, held, asked, Bool.true_and]
  have reported :
      has (revents moment.world vpid kernel pfd) pollIn = true ↔
        isReady moment.world vpid kernel pfd = true := by
    have cases := readEnd_cases (moment.world.pipes buf) pfd.events
    have same :
        revents moment.world vpid kernel pfd =
          readEnd (moment.world.pipes buf) pfd.events := by
      simp only [revents, look, held]
    rw [same, ready]
    rw [asked, Bool.true_and] at cases
    split at cases
    · rename_i now
      exact iff_of_true cases.1 now
    · rename_i later
      rw [cases]
      exact iff_of_false (by decide) later
  simp only [delivers_iff held, reported, ready]
  constructor
  · intro agrees isReady
    exact ((agrees [0] (List.cons_ne_nil _ _)).mp isReady).1
  · intro nonneg dst _
    exact ⟨fun isReady => ⟨nonneg isReady, isReady⟩, And.right⟩

theorem writeEnd_agrees_iff
    (held :
      moment.world.entry vpid (asU32 pfd.fd) = some (.pipeWrite buf))
    (asked : has pfd.events pollOut = true) :
    (∀ src ≠ [],
        revents moment.world vpid kernel pfd ≠ 0 ↔
          AtOnce Transfers moment vpid pfd.fd (.write src)) ↔
      (isReady moment.world vpid kernel pfd = true → 0 ≤ pfd.fd) := by
  have ready :
      isReady moment.world vpid kernel pfd =
        (!(moment.world.pipes buf).isFull ||
          (moment.world.pipes buf).isClosed) := by
    simp only [isReady, held, asked, Bool.true_and]
  simp only [revents_ne_zero_iff, ready]
  constructor
  · intro agrees isReady
    have transfers := agrees [0] (List.cons_ne_nil _ _)
    rw [transfers_iff held (List.cons_ne_nil _ _)] at transfers
    exact (transfers.mp isReady).1
  · intro nonneg src nonempty
    rw [transfers_iff held nonempty]
    exact ⟨fun isReady => ⟨nonneg isReady, isReady⟩, And.right⟩

end Descriptors

/--
`poll` counts the ready descriptors, and its conditions for the ends of pipes
are those under which `read` and `write` do not wait, if and only if fewer
than 2147483648 descriptors are ready, or so many that the call parks, and no
ready end of a pipe has a negative number.
-/
theorem poll_agrees_iff
    (moment : Moment) (vpid : VPid) (kernel : KernelPoll)
    (fds : List PollFd) (timeout : CInt) :
    Agrees moment vpid kernel fds timeout ↔
      Countable (fds.countP (isReady moment.world vpid kernel)) timeout ∧
        PipesNonneg moment.world vpid kernel fds := by
  rw [← readyCount_eq, ← counts_iff]
  constructor
  · intro agrees
    refine ⟨agrees.counts, ?_⟩
    intro pfd listed pipe ready
    have shape := ready
    unfold isReady at shape
    cases held : moment.world.entry vpid (asU32 pfd.fd) with
    | none =>
        rw [held] at pipe
        cases pipe
    | some vfd =>
        rw [held] at pipe shape
        cases vfd with
        | real realFd => cases pipe
        | file ref => cases pipe
        | pipeRead buf =>
            have asked := (Bool.and_eq_true_iff.mp shape).1
            exact
              (readEnd_agrees_iff held asked).mp
                (agrees.readEnds pfd listed buf held asked) ready
        | pipeWrite buf =>
            have asked := (Bool.and_eq_true_iff.mp shape).1
            exact
              (writeEnd_agrees_iff held asked).mp
                (agrees.writeEnds pfd listed buf held asked) ready
  · rintro ⟨counts, nonneg⟩
    refine ⟨counts, ?_, ?_⟩
    · intro pfd listed buf held asked
      refine (readEnd_agrees_iff held asked).mpr (nonneg pfd listed ?_)
      rw [held]
      rfl
    · intro pfd listed buf held asked
      refine (writeEnd_agrees_iff held asked).mpr (nonneg pfd listed ?_)
      rw [held]
      rfl

/-- The read end at 3 is copied to -1, and a byte written to 4. -/
def copiedToMinusOne : World :=
  ((withPipe.dup2 1 3 (-1)).1.writePipe 1 4 [7]).1

/-- `poll` reports the byte, `read` refuses the number. -/
theorem negative_number_is_ready :
    ¬ ∀ (moment : Moment) (vpid : VPid) (kernel : KernelPoll)
      (fds : List PollFd) (timeout : CInt),
      Agrees moment vpid kernel fds timeout := by
  intro every
  have agrees :=
    every { world := copiedToMinusOne, kernel := quiet } 1 .silent
      [{ fd := -1, events := pollIn }] 0
  have held :
      copiedToMinusOne.entry 1 (asU32 (-1)) = some (.pipeRead 0) := by
    decide
  have nonneg :=
    (readEnd_agrees_iff held rfl).mp
      (agrees.readEnds _ List.mem_cons_self 0 held rfl)
  exact absurd (nonneg (by decide)) (by decide)

end Vproc.Ffi.PollReadiness
