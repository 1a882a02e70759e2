import Vproc.Fd.PipeLifetime
import Vproc.Fd.Poll
import Vproc.Lib.Retry

/-!
# The two preload layers

`read` and `write` of a process are intercepted by the Rust runtime, or by a C
library which goes through the runtime's interface.  Both try until they have
a result and let other coroutines run in between.

The interface answers `-1` whatever keeps it from a transfer: a pipe without
data or room, the other end of a pipe, a file.  The C loops take every `-1`
for a pipe which is not ready yet, and go on for ever where the Rust loops
report an error or use the kernel.  They differ as well at a closed pipe,
where the Rust `write` ends the process, and at negative numbers, which only
the Rust functions refuse.
-/

namespace Vproc.Ffi.PreloadLayers

open Vproc.Lib.Retry
open Vproc.Fd.PipeRing
open Vproc.Fd.Table
open Vproc.Fd.Runtime
open Vproc.Fd.Runtime.World
open Vproc.Fd.Effects
open Vproc.Fd.Poll
open Vproc.Fd.PipeLifetime

/-! ## The calls -/

/-- `read` into a buffer of the caller's, or `write` of one. -/
inductive IoCall where
  | read (dst : List UInt8)
  | write (src : List UInt8)

namespace IoCall

/-- The caller's buffer. -/
def buffer : IoCall → List UInt8
  | .read dst => dst
  | .write src => src

def isWrite : IoCall → Bool
  | .read _ => false
  | .write _ => true

/-- The condition the call waits for. -/
def mask : IoCall → Events
  | .read _ => pollIn
  | .write _ => pollOut

/-- The pipe buffer of an entry, if it is the end the call works on. -/
def endOf : IoCall → Vfd → Option ArcId
  | .read _, .pipeRead buf => some buf
  | .write _, .pipeWrite buf => some buf
  | _, _ => none

/-- `read_from` or `write_to`: buffer, result, and the caller's buffer. -/
def transfer : IoCall → PipeBuffer → PipeBuffer × CInt × List UInt8
  | .read dst, pipe =>
      let read := pipe.readFrom dst
      (read.1, read.2.result, read.2.dest)
  | .write src, pipe =>
      let written := pipe.writeTo src
      (written.1, written.2.result, src)

end IoCall

/-- The kernel's `poll` without waiting, and its `read` and `write`. -/
structure KernelIo where
  poll : CInt → Events → CInt × Events
  transfer : CInt → IoCall → CInt × List UInt8

/-- What an attempt finds. -/
structure Moment where
  world : World
  kernel : KernelIo

/-- How a call ends: it returns, or it ends its process. -/
inductive Ending where
  | returns (ret : CInt) (errno : Option CInt) (buffer : List UInt8)
      (world : World)
  | exits (code : CInt)

/-- `errno` is set and `-1` returned. -/
def fails (call : IoCall) (moment : Moment) (errno : CInt) : Ending :=
  .returns (-1) (some errno) call.buffer moment.world

/-- The kernel's own call, which sets `errno` itself. -/
def callKernel (call : IoCall) (moment : Moment) (fd : CInt) : Ending :=
  let done := moment.kernel.transfer fd call
  .returns done.1 none done.2 moment.world

/-- A transfer with a pipe: the world after it, the result, the buffer. -/
def pipeTransfer (call : IoCall) (world : World) (buf : ArcId) :
    World × CInt × List UInt8 :=
  let moved := call.transfer (world.pipes buf)
  ({ world with pipes := Function.update world.pipes buf moved.1 },
    moved.2.1, moved.2.2)

/-! ## The Rust interceptors -/

/-- Is the entry an end of a pipe? -/
def isPipe : Option Vfd → Bool
  | some (.pipeRead _) => true
  | some (.pipeWrite _) => true
  | _ => false

/-- The kernel's number for a descriptor which is not a pipe. -/
def realFdOf (entry : Option Vfd) (fd : CInt) : CInt :=
  (entry.bind Vfd.kernelFd).getD fd

/--
An attempt of the Rust `read` or `write`, with the entry found when the call
began; none if the coroutine yields.
-/
def rustAttempt (found : Option Vfd) (vpid : VPid) (fd : CInt)
    (call : IoCall) (moment : Moment) : Option Ending :=
  if fd < 0 then some (fails call moment 9)
  else if isPipe found then
    match (moment.world.entry vpid (asU32 fd)).bind call.endOf with
    | some buf =>
        let moved := pipeTransfer call moment.world buf
        if 0 ≤ moved.2.1 then
          some (.returns moved.2.1 none moved.2.2 moved.1)
        else if call.isWrite && (moment.world.pipes buf).isClosed then
          some (.exits (128 + 13))
        else none
    | none => some (fails call moment 9)
  else
    let ready := (moment.kernel.poll (realFdOf found fd) call.mask).1
    if 0 < ready then some (callKernel call moment (realFdOf found fd))
    else if ready < 0 then
      some (.returns (-1) none call.buffer moment.world)
    else none

/-! ## The C interceptors and the interface they use -/

/-- `vproc_ffi_is_virtual_fd`. -/
def ffiIsVirtualFd : Option Vfd → Bool
  | none => false
  | some (.real _) => false
  | some _ => true

/-- `vproc_ffi_read` and `vproc_ffi_write`. -/
def ffiTransfer (world : World) (vpid : VPid) (fd : CInt)
    (call : IoCall) : World × CInt × List UInt8 :=
  match (world.entry vpid (asU32 fd)).bind call.endOf with
  | some buf => pipeTransfer call world buf
  | none => (world, -1, call.buffer)

/-- `vproc_ffi_pipe_is_closed`. -/
def ffiPipeIsClosed (world : World) (vpid : VPid) (fd : CInt) : Bool :=
  match world.entry vpid (asU32 fd) with
  | some (.pipeWrite buf) => (world.pipes buf).isClosed
  | _ => false

/-- An attempt of the C `read` or `write`, as above. -/
def cAttempt (found : Option Vfd) (vpid : VPid) (fd : CInt)
    (call : IoCall) (moment : Moment) : Option Ending :=
  if ffiIsVirtualFd found then
    let moved := ffiTransfer moment.world vpid fd call
    if 0 ≤ moved.2.1 then
      some (.returns moved.2.1 none moved.2.2 moved.1)
    else if call.isWrite && ffiPipeIsClosed moment.world vpid fd then
      some (fails call moment 32)
    else none
  else if call.isWrite then some (callKernel call moment fd)
  else
    let polled := moment.kernel.poll fd pollIn
    if polled.1 < 0 || has polled.2 (pollErr ||| pollNval) then
      some (callKernel call moment fd)
    else if has polled.2 pollIn then some (callKernel call moment fd)
    else none

/-! ## Schedules -/

/--
What the attempts of a call find, one after the other.  Other coroutines may
do anything in between, but only the process itself changes its numbers.
-/
structure Schedule (vpid : VPid) (fd : CInt) (vfd : Vfd) where
  moment : Nat → Moment
  own : ∀ n, (moment n).world.entry vpid (asU32 fd) = some vfd

/-- The worlds which come about when others take their turns. -/
def worldAfter (start : World) (turns : Nat → List World.FdOp) :
    Nat → World
  | 0 => start
  | n + 1 => (turns n).foldl World.apply (worldAfter start turns n)

/-- Operations of other processes leave the entry of a process. -/
theorem entry_foldl_others
    {vpid : VPid} {number : Nat} (ops : List World.FdOp)
    (others : ∀ op ∈ ops, ∃ other, owner op = some other ∧ vpid ≠ other)
    (world : World) :
    (ops.foldl World.apply world).entry vpid number =
      world.entry vpid number := by
  induction ops generalizing world with
  | nil => rfl
  | cons op rest induction =>
      obtain ⟨other, owned, different⟩ := others op List.mem_cons_self
      rw [List.foldl_cons,
        induction fun later member =>
          others later (List.mem_cons_of_mem _ member),
        entry_apply, effect_of_ne_owner world owned different,
        Option.getD_none]

/-- A schedule from the turns of other processes. -/
def Schedule.ofTurns {vpid : VPid} {fd : CInt} {vfd : Vfd}
    (start : World) (held : start.entry vpid (asU32 fd) = some vfd)
    (kernel : Nat → KernelIo) (turns : Nat → List World.FdOp)
    (others : ∀ n, ∀ op ∈ turns n,
      ∃ other, owner op = some other ∧ vpid ≠ other) :
    Schedule vpid fd vfd where
  moment := fun n =>
    { world := worldAfter start turns n, kernel := kernel n }
  own := by
    intro n
    induction n with
    | zero => exact held
    | succ n induction =>
        exact (entry_foldl_others (turns n) (others n) _).trans induction

/-- The two calls end together and alike, or both never. -/
def LayersAgree {vpid : VPid} {fd : CInt} {vfd : Vfd}
    (schedule : Schedule vpid fd vfd) (call : IoCall) : Prop :=
  SameEnd (rustAttempt (some vfd) vpid fd call)
    (cAttempt (some vfd) vpid fd call) schedule.moment

/--
The descriptor is not negative, and it is a read end which is read, a write
end which is written and not found closed before the transfer, or a file which
the kernel never reports.
-/
def Agreeable {vpid : VPid} {fd : CInt} {vfd : Vfd}
    (schedule : Schedule vpid fd vfd) (call : IoCall) : Prop :=
  0 ≤ fd ∧
    match call, vfd with
    | .read _, .pipeRead _ => True
    | .write src, .pipeWrite buf =>
        ∀ n, ((schedule.moment n).world.pipes buf).isClosed = true →
          ∃ k < n,
            0 ≤ (((schedule.moment k).world.pipes buf).writeTo
              src).2.result
    | call, .file ref =>
        ∀ n, ((schedule.moment n).kernel.poll ref.realFd call.mask).1 = 0
    | _, _ => False

/-! ## One attempt -/

/-- The same for one moment. -/
def Matches (fd : CInt) (call : IoCall) (vfd : Vfd) (moment : Moment) :
    Prop :=
  0 ≤ fd ∧
    match call, vfd with
    | .read _, .pipeRead _ => True
    | .write _, .pipeWrite buf =>
        (moment.world.pipes buf).isClosed = false
    | call, .file ref => (moment.kernel.poll ref.realFd call.mask).1 = 0
    | _, _ => False

section Attempts

variable {vpid : VPid} {fd : CInt} {vfd : Vfd} {moment : Moment}
variable (own : moment.world.entry vpid (asU32 fd) = some vfd)
variable (isVirtual : ffiIsVirtualFd (some vfd) = true) (call : IoCall)

include isVirtual in
/-- The C functions never refuse a virtual descriptor. -/
theorem cAttempt_ne_fails :
    cAttempt (some vfd) vpid fd call moment ≠
      some (fails call moment 9) := by
  unfold cAttempt
  rw [if_pos isVirtual]
  dsimp only
  split
  · rename_i transferred
    intro same
    simp only [fails, Option.some.injEq, Ending.returns.injEq] at same
    rw [same.1] at transferred
    exact absurd transferred (by decide)
  · split
    · simp [fails]
    · exact nofun

include own isVirtual

/-- They try for ever what is not a transfer with a pipe. -/
theorem cAttempt_of_wrong_end (wrong : call.endOf vfd = none) :
    cAttempt (some vfd) vpid fd call moment = none := by
  have answer :
      ffiTransfer moment.world vpid fd call =
        (moment.world, -1, call.buffer) := by
    simp [ffiTransfer, own, wrong]
  have notClosed :
      (call.isWrite && ffiPipeIsClosed moment.world vpid fd) = false := by
    unfold ffiPipeIsClosed
    rw [own]
    cases call with
    | read dst => rfl
    | write src =>
        cases vfd with
        | pipeWrite buf => cases wrong
        | _ => rfl
  unfold cAttempt
  simp only [isVirtual, if_true, answer, notClosed]
  rfl

/-- At the right end of a pipe the layers differ once it is closed. -/
theorem attempts_eq_of_end
    {buf : ArcId} (rightEnd : call.endOf vfd = some buf) (nonneg : 0 ≤ fd) :
    rustAttempt (some vfd) vpid fd call moment =
        cAttempt (some vfd) vpid fd call moment ↔
      ¬ (call.isWrite = true ∧
        (moment.world.pipes buf).isClosed = true) := by
  have pipe : isPipe (some vfd) = true := by
    cases vfd with
    | pipeRead other => rfl
    | pipeWrite other => rfl
    | real other => cases isVirtual
    | file ref => cases call <;> cases rightEnd
  have answer :
      ffiTransfer moment.world vpid fd call =
        pipeTransfer call moment.world buf := by
    simp [ffiTransfer, own, rightEnd]
  have closedTest :
      (call.isWrite && ffiPipeIsClosed moment.world vpid fd) =
        (call.isWrite && (moment.world.pipes buf).isClosed) := by
    unfold ffiPipeIsClosed
    rw [own]
    cases call with
    | read dst => rfl
    | write src =>
        cases vfd with
        | pipeWrite other =>
            cases rightEnd
            rfl
        | _ => cases rightEnd
  unfold rustAttempt cAttempt
  simp only [not_lt.mpr nonneg, if_false, pipe, if_true, own,
    Option.bind_some, rightEnd, isVirtual, answer, closedTest]
  by_cases closed :
      call.isWrite = true ∧ (moment.world.pipes buf).isClosed = true
  · -- a closed pipe accepts nothing
    have refused : (pipeTransfer call moment.world buf).2.1 = -1 := by
      cases call with
      | read dst => cases closed.1
      | write src => exact PipeBuffer.writeTo_result_of_closed _ src closed.2
    simp [refused, closed, fails]
  · have stillOpen :
        (call.isWrite && (moment.world.pipes buf).isClosed) = false := by
      rw [Bool.eq_false_iff]
      intro both
      exact closed (Bool.and_eq_true_iff.mp both)
    simp [stillOpen, closed]

/-- The layers treat a virtual descriptor alike at a moment. -/
theorem attempts_eq_iff :
    rustAttempt (some vfd) vpid fd call moment =
        cAttempt (some vfd) vpid fd call moment ↔
      Matches fd call vfd moment := by
  by_cases negative : fd < 0
  · have refused :
        rustAttempt (some vfd) vpid fd call moment =
          some (fails call moment 9) :=
      if_pos negative
    rw [refused]
    constructor
    · intro same
      exact (cAttempt_ne_fails isVirtual call same.symm).elim
    · rintro ⟨nonneg, _⟩
      exact (not_lt.mpr nonneg negative).elim
  · have nonneg : 0 ≤ fd := not_lt.mp negative
    have refused (wrong : call.endOf vfd = none)
        (pipe : isPipe (some vfd) = true) :
        rustAttempt (some vfd) vpid fd call moment =
          some (fails call moment 9) := by
      unfold rustAttempt
      simp only [negative, if_false, pipe, if_true, own,
        Option.bind_some, wrong]
    have wrongEnd (wrong : call.endOf vfd = none)
        (pipe : isPipe (some vfd) = true) :
        rustAttempt (some vfd) vpid fd call moment ≠
          cAttempt (some vfd) vpid fd call moment := by
      rw [refused wrong pipe]
      exact (cAttempt_ne_fails isVirtual call).symm
    cases vfd with
    | real other => cases isVirtual
    | file ref =>
        have wrong : call.endOf (.file ref) = none := by
          cases call <;> rfl
        have condition :
            Matches fd call (.file ref) moment ↔
              (moment.kernel.poll ref.realFd call.mask).1 = 0 := by
          cases call <;> exact and_iff_right nonneg
        rw [cAttempt_of_wrong_end own isVirtual call wrong, condition]
        unfold rustAttempt
        simp only [negative, if_false, isPipe, Bool.false_eq_true]
        have number : realFdOf (some (.file ref)) fd = ref.realFd := rfl
        rw [number]
        rcases lt_trichotomy
            (moment.kernel.poll ref.realFd call.mask).1 0 with
          failed | silent | ready
        · simp [failed, not_lt.mpr failed.le, failed.ne]
        · simp [silent]
        · simp [ready, ready.ne']
    | pipeRead buf =>
        cases call with
        | read dst =>
            rw [attempts_eq_of_end own isVirtual (.read dst) rfl nonneg]
            simp [IoCall.isWrite, Matches, nonneg]
        | write src =>
            simp [wrongEnd rfl rfl, Matches]
    | pipeWrite buf =>
        cases call with
        | read dst => simp [wrongEnd rfl rfl, Matches]
        | write src =>
            rw [attempts_eq_of_end own isVirtual (.write src) rfl nonneg]
            simp [IoCall.isWrite, Matches, nonneg]

omit isVirtual in
/-- The Rust `write` yields at a full pipe which is not closed. -/
theorem rustAttempt_write_eq_none_iff
    {buf : ArcId} (writeEnd : vfd = .pipeWrite buf) (nonneg : 0 ≤ fd)
    (src : List UInt8) :
    rustAttempt (some vfd) vpid fd (.write src) moment = none ↔
      ¬ 0 ≤ ((moment.world.pipes buf).writeTo src).2.result ∧
        (moment.world.pipes buf).isClosed = false := by
  subst writeEnd
  unfold rustAttempt
  simp only [not_lt.mpr nonneg, if_false, isPipe, if_true, own,
    Option.bind_some, IoCall.endOf, pipeTransfer, IoCall.transfer,
    IoCall.isWrite, Bool.true_and]
  by_cases transferred :
      0 ≤ ((moment.world.pipes buf).writeTo src).2.result
  · simp [transferred]
  · simp [transferred]

end Attempts

theorem rustAttempt_file_of_silent
    {vpid : VPid} {fd : CInt} {ref : FileRef} {moment : Moment}
    (call : IoCall) (nonneg : 0 ≤ fd)
    (silent : (moment.kernel.poll ref.realFd call.mask).1 = 0) :
    rustAttempt (some (.file ref)) vpid fd call moment = none := by
  have number : realFdOf (some (.file ref)) fd = ref.realFd := rfl
  unfold rustAttempt
  simp [not_lt.mpr nonneg, isPipe, number, silent]

/-! ## Whole calls -/

section Calls

variable {vpid : VPid} {fd : CInt} {vfd : Vfd}

/-- A file is left alone for ever if the kernel never reports it. -/
theorem matches_file_iff
    {ref : FileRef} (schedule : Schedule vpid fd (.file ref))
    (call : IoCall) :
    (∀ n,
        Reaches (rustAttempt (some (.file ref)) vpid fd call)
            schedule.moment n →
          Matches fd call (.file ref) (schedule.moment n)) ↔
      0 ≤ fd ∧
        ∀ n,
          ((schedule.moment n).kernel.poll ref.realFd call.mask).1 =
            0 := by
  have condition (moment : Moment) :
      Matches fd call (.file ref) moment ↔
        0 ≤ fd ∧ (moment.kernel.poll ref.realFd call.mask).1 = 0 := by
    cases call <;> exact Iff.rfl
  simp only [condition]
  constructor
  · intro every
    have nonneg : 0 ≤ fd := (every 0 nofun).1
    refine ⟨nonneg, ?_⟩
    intro n
    induction n using Nat.strong_induction_on with
    | _ n induction =>
        refine (every n fun k below => ?_).2
        exact rustAttempt_file_of_silent call nonneg (induction k below)
  · rintro ⟨nonneg, silent⟩ n _
    exact ⟨nonneg, silent n⟩

/-- A pipe is found closed only after the bytes have been written. -/
theorem matches_write_iff
    {buf : ArcId} (schedule : Schedule vpid fd (.pipeWrite buf))
    (src : List UInt8) :
    (∀ n,
        Reaches (rustAttempt (some (.pipeWrite buf)) vpid fd (.write src))
            schedule.moment n →
          Matches fd (.write src) (.pipeWrite buf)
            (schedule.moment n)) ↔
      0 ≤ fd ∧
        ∀ n, ((schedule.moment n).world.pipes buf).isClosed = true →
          ∃ k < n,
            0 ≤ (((schedule.moment k).world.pipes buf).writeTo
              src).2.result := by
  constructor
  · intro every
    have nonneg : 0 ≤ fd := (every 0 nofun).1
    refine ⟨nonneg, ?_⟩
    intro n
    induction n using Nat.strong_induction_on with
    | _ n induction =>
        intro closed
        by_contra unwritten
        push Not at unwritten
        -- no earlier attempt has found it closed or written to it
        have reaches :
            Reaches
              (rustAttempt (some (.pipeWrite buf)) vpid fd (.write src))
              schedule.moment n := by
          intro k below
          refine
            (rustAttempt_write_eq_none_iff (schedule.own k) rfl nonneg
              src).mpr
              ⟨not_le.mpr (unwritten k below), ?_⟩
          rw [Bool.eq_false_iff]
          intro closedThen
          obtain ⟨j, before, written⟩ := induction k below closedThen
          exact absurd written
            (not_le.mpr (unwritten j (before.trans below)))
        have notClosed :
            ((schedule.moment n).world.pipes buf).isClosed = false :=
          (every n reaches).2
        rw [closed] at notClosed
        cases notClosed
  · rintro ⟨nonneg, written⟩ n reaches
    refine ⟨nonneg, ?_⟩
    change ((schedule.moment n).world.pipes buf).isClosed = false
    rw [Bool.eq_false_iff]
    intro closed
    obtain ⟨k, below, transferred⟩ := written n closed
    have blocked :=
      (rustAttempt_write_eq_none_iff (schedule.own k) rfl nonneg
        src).mp (reaches k below)
    exact blocked.1 transferred

/--
The two layers agree on a call with a virtual descriptor if and only if it
reads a read end, writes a write end which stays open until then, or waits for
a file which is never ready, with a number which is not negative.
-/
theorem layers_agree_iff
    (schedule : Schedule vpid fd vfd) (call : IoCall)
    (isVirtual : ∀ realFd, vfd ≠ .real realFd) :
    LayersAgree schedule call ↔ Agreeable schedule call := by
  have virtual : ffiIsVirtualFd (some vfd) = true := by
    cases vfd with
    | real realFd => exact (isVirtual realFd rfl).elim
    | _ => rfl
  have everyMoment :
      LayersAgree schedule call ↔
        ∀ n,
          Reaches (rustAttempt (some vfd) vpid fd call)
              schedule.moment n →
            Matches fd call vfd (schedule.moment n) := by
    refine sameEnd_iff.trans ?_
    apply forall_congr'
    intro n
    apply imp_congr_right
    intro _
    exact attempts_eq_iff (schedule.own n) virtual call
  rw [everyMoment]
  have never (impossible : ∀ moment, ¬ Matches fd call vfd moment) :
      ¬ ∀ n,
        Reaches (rustAttempt (some vfd) vpid fd call)
            schedule.moment n →
          Matches fd call vfd (schedule.moment n) :=
    fun every => impossible _ (every 0 nofun)
  cases vfd with
  | real realFd => exact (isVirtual realFd rfl).elim
  | file ref =>
      refine (matches_file_iff schedule call).trans ?_
      cases call <;> exact Iff.rfl
  | pipeRead buf =>
      cases call with
      | read dst =>
          constructor
          · intro every
            exact ⟨(every 0 nofun).1, True.intro⟩
          · intro condition n _
            exact condition
      | write src =>
          have wrong := never fun moment => And.right
          simp [wrong, Agreeable]
  | pipeWrite buf =>
      cases call with
      | read dst =>
          have wrong := never fun moment => And.right
          simp [wrong, Agreeable]
      | write src => exact matches_write_iff schedule src

end Calls

/-! ## One process -/

/-- A process with a pipe at 3 and 4. -/
def withPipe : World :=
  (((World.init .standard).createTableWithFds 1 0 1 2).ffiPipe 1).1

/-- A kernel in which nothing is ever ready. -/
def quiet : KernelIo where
  poll := fun _ _ => (0, 0)
  transfer := fun _ call => (-1, call.buffer)

/-- Nobody else runs. -/
def alone (fd : CInt) (vfd : Vfd)
    (held : withPipe.entry 1 (asU32 fd) = some vfd) :
    Schedule 1 fd vfd :=
  .ofTurns withPipe held (fun _ => quiet) (fun _ => []) nofun

theorem layers_agree_iff_readEnd :
    LayersAgree (alone 3 (.pipeRead 0) (by decide)) (.read [0, 0]) ↔
      Agreeable (alone 3 (.pipeRead 0) (by decide)) (.read [0, 0]) :=
  layers_agree_iff _ _ nofun

/-- Reading the write end: an error from one layer, no end in the other. -/
theorem wrong_end_read_for_ever :
    ∃ schedule : Schedule 1 4 (.pipeWrite 0),
      (∃ ending,
        EndsAt (rustAttempt (some (.pipeWrite 0)) 1 4 (.read [0]))
          schedule.moment 0 ending) ∧
      (∀ n ending,
        ¬ EndsAt (cAttempt (some (.pipeWrite 0)) 1 4 (.read [0]))
          schedule.moment n ending) ∧
      ¬ LayersAgree schedule (.read [0]) := by
  have held : withPipe.entry 1 (asU32 4) = some (.pipeWrite 0) := by decide
  have refused :
      EndsAt (rustAttempt (some (.pipeWrite 0)) 1 4 (.read [0]))
        (alone 4 (.pipeWrite 0) held).moment 0
        (fails (.read [0]) ((alone 4 (.pipeWrite 0) held).moment 0) 9) :=
    ⟨nofun, rfl⟩
  have forEver (n : Nat) (ending : Ending) :
      ¬ EndsAt (cAttempt (some (.pipeWrite 0)) 1 4 (.read [0]))
        (alone 4 (.pipeWrite 0) held).moment n ending := by
    rintro ⟨_, ends⟩
    rw [cAttempt_of_wrong_end
      ((alone 4 (.pipeWrite 0) held).own n) rfl (.read [0]) rfl] at ends
    cases ends
  refine ⟨alone 4 (.pipeWrite 0) held, ⟨_, refused⟩, forEver, ?_⟩
  intro agree
  exact forEver 0 _ ((agree 0 _).mp refused)

end Vproc.Ffi.PreloadLayers
