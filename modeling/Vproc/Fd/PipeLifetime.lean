import Vproc.Fd.Effects
import Vproc.Lib.Run

/-!
# When a virtual pipe is closed

A pipe buffer has one flag for both directions, and the flag is set by looking
at one table only: the last number of that table for the buffer goes, or the
table is dropped.  The entries for a buffer are spread over all tables.  So a
pipe can be closed while another process holds its writing end, and it can
stay open when no process holds one of its ends any more.

This module says which steps are harmless and proves that runs made of such
steps keep the promise of a pipe: no end of file while there is a writer, and
an end of file, or a broken pipe, once the other side is gone.
-/

namespace Vproc.Fd.PipeLifetime

open Vproc.Lib.Run
open Vproc.Fd.PipeRing
open Vproc.Fd.Table
open Vproc.Fd.KernelTable
open Vproc.Fd.Runtime
open Vproc.Fd.Runtime.World
open Vproc.Fd.Effects

/-- Some table holds a writing end of the buffer. -/
def HasWriter (world : World) (buf : ArcId) : Prop :=
  ∃ vpid number, world.entry vpid number = some (.pipeWrite buf)

/-- Some table holds a reading end of the buffer. -/
def HasReader (world : World) (buf : ArcId) : Prop :=
  ∃ vpid number, world.entry vpid number = some (.pipeRead buf)

/-! ## No end of file while there is a writer -/

/--
A pipe with a writer never reports the end of file, and one with a writer and
a reader takes no write for a broken pipe.
-/
def NotClosedEarly (world : World) : Prop :=
  ∀ buf, HasWriter world buf →
    (∀ dst, dst ≠ [] → ((world.pipes buf).readFrom dst).2.result ≠ 0) ∧
      (HasReader world buf → ∀ src, src ≠ [] →
        ¬ (((world.pipes buf).writeTo src).2.result = -1 ∧
          (world.pipes buf).isClosed = true))

/-- The process in whose table a step closes numbers. -/
def owner : FdOp → Option VPid
  | .createTable vpid _ _ _ => some vpid
  | .sys vpid _ => some vpid
  | .fork _ child => some child
  | .exec _ child => some child
  | .removeTable vpid => some vpid
  | .reap vpid => some vpid
  | .cleanup => none
  | .rawDup3 _ _ => none

/-- The step puts a writing end back which it has just taken away. -/
def PutsBack (world : World) (buf : ArcId) : FdOp → Prop
  | .sys _ (.insertAt _ vfd) => vfd = .pipeWrite buf
  | .fork parent child =>
      parent = child ∧
        ∃ number, world.entry child number = some (.pipeWrite buf)
  | .exec (some parent) child =>
      parent = child ∧
        ∃ number, world.entry child number = some (.pipeWrite buf)
  | _ => False

/--
A table gives up its last number for a buffer, or is dropped with one, only
when no other table holds a writing end.
-/
def ReleasesAlone (world : World) (op : FdOp) : Prop :=
  ∀ buf, Releases world buf op →
    (∀ vpid, owner op = some vpid → ∀ other number,
        world.entry other number = some (.pipeWrite buf) →
          other = vpid) ∧
      ¬ PutsBack world buf op

/-- No writing end belongs to a closed buffer. -/
def WritersOpen (world : World) : Prop :=
  ∀ buf, (world.pipes buf).closed = true → ¬ HasWriter world buf

theorem notClosedEarly_of_writersOpen
    {world : World} (invariant : WritersOpen world) :
    NotClosedEarly world := by
  intro buf writer
  have isOpen : ¬ (world.pipes buf).closed = true := by
    intro closed
    exact invariant buf closed writer
  constructor
  · intro dst nonempty ended
    rw [PipeBuffer.readFrom_result_eq_zero_iff _ nonempty] at ended
    exact isOpen ended.2
  · rintro _ src _ ⟨_, closed⟩
    exact isOpen closed

/-- What a closing call leaves at the number it closes. -/
inductive LeavesAt (table : VfdTable) (closed : Nat) :
    SysCall → Option Vfd → Prop
  | nothing {call : SysCall} : LeavesAt table closed call none
  | copies {call : SysCall} (source : Nat) :
      LeavesAt table closed call
        (if source = closed then none else table.get source)
  | opens {call : SysCall} (ref : FileRef) :
      LeavesAt table closed call (some (.file ref))
  | given (vfd : Vfd) :
      LeavesAt table closed (.insertAt closed vfd) (some vfd)

/-- A call which closes a number of a table changes that number only. -/
theorem callChange_of_closes
    {world : World} {vpid : VPid} {table : VfdTable}
    (found : world.getTable vpid = some table)
    {call : SysCall} {closed : Nat}
    (closes : closedNumber world vpid call = some closed) :
    ∃ left, LeavesAt table closed call left ∧
      ∀ number, callChange world vpid call number =
        changeAt closed left number := by
  cases call with
  | dup oldFd answer =>
      simp only [closedNumber, found] at closes
      cases source : underlyingReal table oldFd with
      | none =>
          rw [source] at closes
          cases closes
          refine ⟨_, .copies (asU32 oldFd), fun number => ?_⟩
          simp only [callChange, found, source, copiedChange]
      | some realFd => simp [source] at closes
  | dup2 oldFd newFd =>
      simp only [closedNumber, found] at closes
      cases source : underlyingReal table oldFd with
      | none =>
          rw [source] at closes
          cases closes
          refine ⟨_, .copies (asU32 oldFd), fun number => ?_⟩
          simp only [callChange, found, source, copiedChange]
      | some realFd =>
          simp only [source] at closes
          split at closes
          · rename_i possible
            cases closes
            let opened : FileRef :=
              { arc := world.nextArc, realFd := newFd, cloexec := false }
            refine ⟨some (.file opened), .opens opened, fun number => ?_⟩
            simp only [callChange, found, source, if_pos possible, opened]
          · cases closes
  | close fd =>
      simp only [closedNumber] at closes
      split at closes
      · cases closes
      · rename_i nonnegative
        cases closes
        refine ⟨none, .nothing, fun number => ?_⟩
        simp only [callChange, nonnegative, if_false]
  | ffiDup oldFd =>
      simp only [closedNumber, found] at closes
      cases closes
      refine ⟨_, .copies (asU32 oldFd), fun number => ?_⟩
      simp only [callChange, found, copiedChange]
  | ffiDup2 oldFd newFd =>
      cases closes
      refine ⟨_, .copies (asU32 oldFd), fun number => ?_⟩
      simp only [callChange, found, copiedChange]
  | ffiClose fd =>
      cases closes
      exact ⟨none, .nothing, fun _ => rfl⟩
  | insertAt fd vfd =>
      cases closes
      refine ⟨_, .given vfd, fun number => ?_⟩
      simp only [callChange, found]
  | openPath flags answer => cases closes
  | openatPath flags answer => cases closes
  | creat answer => cases closes
  | pipe readFd writeFd => cases closes
  | ffiPipe => cases closes
  | readPipe fd dst => cases closes
  | writePipe fd src => cases closes

/-- A call which releases a buffer leaves no writing end in its own table. -/
theorem not_pipeWrite_of_call
    {world : World} {vpid : VPid} {call : SysCall} {buf : ArcId}
    (released : Releases world buf (.sys vpid call))
    (notBack : ¬ PutsBack world buf (.sys vpid call)) (number : Nat) :
    (world.apply (.sys vpid call)).entry vpid number ≠
      some (.pipeWrite buf) := by
  intro held
  obtain ⟨closed, closes, ⟨vfd, taken, _⟩, last⟩ := released
  cases found : world.getTable vpid with
  | none =>
      rw [entry_of_getTable_none found] at taken
      cases taken
  | some table =>
      obtain ⟨left, leaves, changes⟩ := callChange_of_closes found closes
      rw [entry_apply] at held
      simp only [effect, if_true, changes, getD_changeAt] at held
      split at held
      · cases leaves with
        | nothing => cases held
        | copies source =>
            split at held
            · cases held
            · rename_i different
              have copied := (entry_of_getTable found source).trans held
              exact last source _ different copied rfl
        | opens ref => cases held
        | given given => exact notBack (Option.some.inj held)
      · rename_i different
        exact last number _ different held rfl

/-- A step leaves the tables alone which are not its owner's. -/
theorem effect_of_ne_owner
    (world : World) {op : FdOp} {vpid other : VPid}
    (owned : owner op = some vpid) (different : other ≠ vpid)
    (number : Nat) :
    effect world op other number = none := by
  cases op with
  | createTable target stdin stdout stderr =>
      cases owned
      exact if_neg different
  | sys target call =>
      cases owned
      exact if_neg different
  | fork parent child =>
      cases owned
      exact if_neg different
  | exec parent child =>
      cases owned
      cases parent with
      | none => exact if_neg fun same => different same.1
      | some caller => exact if_neg different
  | removeTable target =>
      cases owned
      exact if_neg different
  | reap target =>
      cases owned
      exact if_neg different
  | cleanup => cases owned
  | rawDup3 oldFd newFd => cases owned

/-- A table forked from itself is the only one with its writing ends. -/
theorem putsBack_of_forkedTable
    {world : World} {parent child : VPid} {buf : ArcId}
    (alone : ∀ other number,
      world.entry other number = some (.pipeWrite buf) → other = child)
    {number : Nat}
    (held : (world.forkedTable parent).get number =
      some (.pipeWrite buf)) :
    parent = child ∧
      ∃ number, world.entry child number = some (.pipeWrite buf) := by
  rcases origin_of_forkedTable held with copied | ⟨fd, borrowed⟩
  · have ofChild := alone parent number copied
    subst parent
    exact ⟨rfl, number, copied⟩
  · cases borrowed

/-- A step which releases a buffer alone leaves no writing end of it. -/
theorem not_hasWriter_of_releases
    {world : World} {op : FdOp} {buf : ArcId}
    (released : Releases world buf op)
    (alone : ∀ vpid, owner op = some vpid → ∀ other number,
      world.entry other number = some (.pipeWrite buf) → other = vpid)
    (notBack : ¬ PutsBack world buf op) :
    ¬ HasWriter (world.apply op) buf := by
  rintro ⟨other, number, held⟩
  have inOwn (vpid : VPid) (owned : owner op = some vpid) :
      other = vpid := by
    by_contra different
    rw [entry_apply, effect_of_ne_owner world owned different] at held
    exact different (alone vpid owned other number held)
  cases op with
  | createTable vpid stdin stdout stderr =>
      cases inOwn vpid rfl
      rw [entry_apply] at held
      simp only [effect, if_true, Option.getD_some] at held
      obtain ⟨fd, borrowed⟩ := real_of_get_newWithFds held
      cases borrowed
  | sys vpid call =>
      cases inOwn vpid rfl
      exact not_pipeWrite_of_call released notBack number held
  | fork parent child =>
      cases inOwn child rfl
      rw [entry_apply] at held
      simp only [effect, if_true, Option.getD_some] at held
      exact notBack (putsBack_of_forkedTable (alone _ rfl) held)
  | exec parent child =>
      cases parent with
      | none => exact released.elim
      | some caller =>
          cases inOwn child rfl
          rw [entry_apply] at held
          simp only [effect, if_true, Option.getD_some] at held
          obtain ⟨inherited, _⟩ := Option.filter_eq_some_iff.mp held
          exact notBack (putsBack_of_forkedTable (alone _ rfl) inherited)
  | removeTable vpid =>
      cases inOwn vpid rfl
      rw [entry_apply] at held
      simp [effect] at held
  | reap vpid =>
      cases inOwn vpid rfl
      rw [entry_apply] at held
      simp [effect] at held
  | cleanup =>
      rw [entry_apply] at held
      cases held
  | rawDup3 oldFd newFd => exact released.elim

/-- Writing ends of a buffer which was not just made were there before. -/
theorem hasWriter_of_apply
    {world : World} {op : FdOp} (admitted : world.admits op = true)
    {buf : ArcId} (old : ¬ Creates world buf op)
    (writer : HasWriter (world.apply op) buf) :
    HasWriter world buf := by
  obtain ⟨vpid, number, held⟩ := writer
  rcases origin_of_entry admitted held with before | isNew
  · exact before
  · rcases isNew with ⟨fd, borrowed⟩ | ⟨ref, file, _⟩ | ⟨made, ofMade, isMade⟩
    · cases borrowed
    · cases file
    · cases ofMade
      exact (old isMade).elim

/-- Steps which release buffers alone keep writers and closed buffers apart. -/
theorem writersOpen_step
    (world : World) (op : FdOp) (next : World)
    (invariant : WritersOpen world)
    (stepped : world.step op = some next)
    (good : ReleasesAlone world op) :
    WritersOpen next := by
  obtain ⟨admitted, rfl⟩ := step_eq_some_iff.mp stepped
  intro buf closed
  by_cases created : Creates world buf op
  · rw [closed_of_creates created] at closed
    cases closed
  · rcases (closed_apply world op buf created).mp closed
      with already | released
    · intro writer
      exact invariant buf already
        (hasWriter_of_apply admitted created writer)
    · obtain ⟨alone, notBack⟩ := good buf released
      exact not_hasWriter_of_releases released alone notBack

theorem writersOpen_init (kernel : Kernel) :
    WritersOpen (World.init kernel) := by
  rintro buf _ ⟨vpid, number, held⟩
  cases held

/--
In a run whose steps release buffers alone, no pipe is closed while a process
can still write to it.
-/
theorem pipe_not_closed_early
    (kernel : Kernel) (ops : List FdOp) (final : World)
    (reached : run World.step (World.init kernel) ops = some final)
    (good : Along World.step (fun world op _ => ReleasesAlone world op)
      (World.init kernel) ops) :
    NotClosedEarly final := by
  apply notClosedEarly_of_writersOpen
  exact
    invariant_of_along writersOpen_step (writersOpen_init kernel) good
      reached

/-- A process makes a pipe, forks, and closes the end it does not use. -/
def forkAndCloseOne : List FdOp :=
  [.sys 1 .ffiPipe, .fork 1 2, .sys 1 (.close 3)]

/-- The same, and then it closes its other end as well. -/
def forkAndCloseBoth : List FdOp :=
  forkAndCloseOne ++ [.sys 1 (.close 4)]

/--
The parent closes both its ends, and the child, which holds both, reads the
end of file.
-/
theorem pipe_closed_early_after_fork :
    ¬ ∀ (kernel : Kernel) (ops : List FdOp) (final : World),
        run World.step (World.init kernel) ops = some final →
          NotClosedEarly final := by
  intro always
  have kept := always Kernel.standard forkAndCloseBoth _ rfl
  have reads := (kept 0 ⟨2, 4, rfl⟩).1 [0] (by simp)
  apply reads
  rw [PipeBuffer.readFrom_result_eq_zero_iff _ (by simp)]
  exact ⟨rfl, rfl⟩

theorem not_releases_of_holdsBoth
    {world : World} {vpid : VPid} {first second : Nat} {left right : Vfd}
    (different : first ≠ second)
    (held : world.entry vpid first = some left)
    (also : world.entry vpid second = some right)
    (same : left.buffer = right.buffer)
    {call : SysCall} (closes : closedNumber world vpid call = some first)
    (buf : ArcId) :
    ¬ Releases world buf (.sys vpid call) := by
  rintro ⟨number, isClosed, ⟨vfd, stored, ofBuf⟩, last⟩
  rw [closes] at isClosed
  cases isClosed
  rw [held] at stored
  cases stored
  exact last second right different.symm also (same ▸ ofBuf)

theorem pipe_not_closed_early_forkAndCloseOne :
    ∃ final,
      run World.step (World.init Kernel.standard) forkAndCloseOne =
          some final ∧
        HasWriter final 0 ∧ NotClosedEarly final := by
  refine ⟨_, rfl, ⟨1, 4, rfl⟩, ?_⟩
  apply pipe_not_closed_early Kernel.standard forkAndCloseOne _ rfl
  intro first made
  obtain ⟨_, rfl⟩ := step_eq_some_iff.mp made
  refine ⟨?_, ?_⟩
  · rintro buf ⟨number, closes, _⟩
    cases closes
  · intro second forked
    obtain ⟨_, rfl⟩ := step_eq_some_iff.mp forked
    refine ⟨?_, ?_⟩
    · intro buf holds
      exact (not_holdsBuffer_of_getTable_none rfl buf holds).elim
    · intro third closed
      refine ⟨?_, True.intro⟩
      intro buf released
      have read :
          (((World.init Kernel.standard).apply (.sys 1 .ffiPipe)).apply
            (.fork 1 2)).entry 1 3 = some (.pipeRead 0) :=
        rfl
      have write :
          (((World.init Kernel.standard).apply (.sys 1 .ffiPipe)).apply
            (.fork 1 2)).entry 1 4 = some (.pipeWrite 0) :=
        rfl
      exact
        (not_releases_of_holdsBoth (by decide) read write rfl rfl buf
          released).elim

/-! ## The end of file, once the other side is gone -/

/--
A pipe without a writer reports the end of file when it is empty, and one
without a reader refuses every write as a broken pipe.
-/
def EndsReported (world : World) : Prop :=
  ∀ buf ∈ world.buffers,
    (¬ HasWriter world buf → (world.pipes buf).isEmpty = true →
      ∀ dst, ((world.pipes buf).readFrom dst).2.result = 0) ∧
      (¬ HasReader world buf → ∀ src, src ≠ [] →
        ((world.pipes buf).writeTo src).2.result = -1 ∧
          (world.pipes buf).isClosed = true)

/-- Every number which holds this entry is changed, and none gets it. -/
def TakesLast (world : World) (op : FdOp) (vfd : Vfd) : Prop :=
  (∃ vpid number, world.entry vpid number = some vfd) ∧
    ∀ vpid number,
      (world.entry vpid number = some vfd →
          (effect world op vpid number).isSome = true) ∧
        effect world op vpid number ≠ some (some vfd)

/--
A step which takes the last writing end, or the last reading end, of an open
buffer takes with it the last number of its table for that buffer, or drops
the table; and the two numbers of a new pipe differ.
-/
def ReleasesWithLast (world : World) (op : FdOp) : Prop :=
  (∀ buf ∈ world.buffers,
      TakesLast world op (.pipeWrite buf) ∨
          TakesLast world op (.pipeRead buf) →
        (world.pipes buf).closed = true ∨ Releases world buf op) ∧
    ∀ vpid, op = .sys vpid .ffiPipe →
      (world.tableOrNew vpid).allocFd.1.nextFd ≠
        (world.tableOrNew vpid).nextFd

/-- An open buffer has a writing end and a reading end. -/
def OpenHaveBoth (world : World) : Prop :=
  ∀ buf ∈ world.buffers, (world.pipes buf).closed = false →
    HasWriter world buf ∧ HasReader world buf

theorem endsReported_of_openHaveBoth
    {world : World} (invariant : OpenHaveBoth world) :
    EndsReported world := by
  intro buf made
  have closedIf (missing : ¬ HasWriter world buf ∨ ¬ HasReader world buf) :
      (world.pipes buf).closed = true := by
    by_contra isOpen
    have both := invariant buf made (by simpa using isOpen)
    rcases missing with noWriter | noReader
    · exact noWriter both.1
    · exact noReader both.2
  constructor
  · intro noWriter empty dst
    have length : (world.pipes buf).len = 0 := by
      simpa [PipeBuffer.isEmpty] using empty
    rw [PipeBuffer.readFrom_result_of_empty _ dst length,
      closedIf (Or.inl noWriter)]
    rfl
  · intro noReader src _
    have closed := closedIf (Or.inr noReader)
    exact ⟨PipeBuffer.writeTo_result_of_closed _ src closed, closed⟩

/-- An entry of which a step takes not every copy is there afterwards. -/
theorem holds_of_not_takesLast
    {world : World} {op : FdOp} {vfd : Vfd}
    (held : ∃ vpid number, world.entry vpid number = some vfd)
    (kept : ¬ TakesLast world op vfd) :
    ∃ vpid number, (world.apply op).entry vpid number = some vfd := by
  by_contra gone
  apply kept
  refine ⟨held, ?_⟩
  intro vpid number
  constructor
  · intro stored
    by_contra untouched
    have unchanged : effect world op vpid number = none := by
      simpa using untouched
    apply gone
    refine ⟨vpid, number, ?_⟩
    rw [entry_apply, unchanged]
    exact stored
  · intro put
    apply gone
    refine ⟨vpid, number, ?_⟩
    rw [entry_apply, put]
    rfl

theorem not_takesLast_of_unchanged
    {world : World} {op : FdOp} {vfd : Vfd} {vpid : VPid} {number : Nat}
    (held : world.entry vpid number = some vfd)
    (unchanged : effect world op vpid number = none) :
    ¬ TakesLast world op vfd := by
  rintro ⟨_, taken⟩
  have changed := (taken vpid number).1 held
  rw [unchanged] at changed
  cases changed

/-- A new pipe has both ends, if its two numbers differ. -/
theorem both_of_creates
    {world : World} {op : FdOp} {buf : ArcId}
    (created : Creates world buf op)
    (distinct : ∀ vpid, op = .sys vpid .ffiPipe →
      (world.tableOrNew vpid).allocFd.1.nextFd ≠
        (world.tableOrNew vpid).nextFd) :
    HasWriter (world.apply op) buf ∧ HasReader (world.apply op) buf := by
  unfold Creates at created
  split at created
  · rename_i vpid
    subst buf
    have different := distinct vpid rfl
    constructor
    · refine ⟨vpid, (world.tableOrNew vpid).allocFd.1.nextFd, ?_⟩
      rw [entry_apply]
      simp [effect, callChange, changeAt]
    · refine ⟨vpid, (world.tableOrNew vpid).nextFd, ?_⟩
      rw [entry_apply]
      simp [effect, callChange, changeAt, different.symm]
  · exact created.elim

theorem openHaveBoth_step
    (world : World) (op : FdOp) (next : World)
    (invariant : OpenHaveBoth world)
    (stepped : world.step op = some next)
    (good : ReleasesWithLast world op) :
    OpenHaveBoth next := by
  obtain ⟨_, rfl⟩ := step_eq_some_iff.mp stepped
  intro buf made isOpen
  by_cases created : Creates world buf op
  · exact both_of_creates created good.2
  · have before : buf ∈ world.buffers :=
      (mem_buffers_apply.mp made).resolve_right created
    have notClosed :
        ¬ ((world.pipes buf).closed = true ∨ Releases world buf op) := by
      intro closes
      rw [(closed_apply world op buf created).mpr closes] at isOpen
      cases isOpen
    have wasOpen : (world.pipes buf).closed = false := by
      by_contra closed
      exact notClosed (Or.inl (by simpa using closed))
    obtain ⟨writer, reader⟩ := invariant buf before wasOpen
    constructor
    · apply holds_of_not_takesLast writer
      intro taken
      exact notClosed (good.1 buf before (Or.inl taken))
    · apply holds_of_not_takesLast reader
      intro taken
      exact notClosed (good.1 buf before (Or.inr taken))

theorem openHaveBoth_init (kernel : Kernel) :
    OpenHaveBoth (World.init kernel) := by
  intro buf made
  cases made

/--
In a run whose steps release a buffer with the last of its ends, every pipe
reports that its other side is gone.
-/
theorem pipe_ends_reported
    (kernel : Kernel) (ops : List FdOp) (final : World)
    (reached : run World.step (World.init kernel) ops = some final)
    (good : Along World.step (fun world op _ => ReleasesWithLast world op)
      (World.init kernel) ops) :
    EndsReported final := by
  apply endsReported_of_openHaveBoth
  exact
    invariant_of_along openHaveBoth_step (openHaveBoth_init kernel) good
      reached

/-- The reading process keeps one end, and the writing process goes away. -/
def writerRemoved : List FdOp :=
  [.sys 1 .ffiPipe, .fork 1 2, .sys 2 (.close 4), .removeTable 1]

theorem pipe_ends_reported_writerRemoved :
    ∃ final,
      run World.step (World.init Kernel.standard) writerRemoved =
          some final ∧
        ¬ HasWriter final 0 ∧ EndsReported final := by
  refine ⟨_, rfl, ?_, ?_⟩
  · intro writer
    have found := (holds_iff _ (.pipeWrite 0)).mpr writer
    cases found
  · apply pipe_ends_reported Kernel.standard writerRemoved _ rfl
    intro first made
    obtain ⟨_, rfl⟩ := step_eq_some_iff.mp made
    refine ⟨⟨?_, ?_⟩, ?_⟩
    · intro buf listed
      cases listed
    · rintro vpid same
      cases same
      decide
    · intro second forked
      obtain ⟨_, rfl⟩ := step_eq_some_iff.mp forked
      have ofPair (op : FdOp) (world : World)
          (write : world.entry 1 4 = some (.pipeWrite 0))
          (read : world.entry 1 3 = some (.pipeRead 0))
          (writeKept : effect world op 1 4 = none)
          (readKept : effect world op 1 3 = none) :
          ¬ (TakesLast world op (.pipeWrite 0) ∨
            TakesLast world op (.pipeRead 0)) := by
        rintro (takesWrite | takesRead)
        · exact not_takesLast_of_unchanged write writeKept takesWrite
        · exact not_takesLast_of_unchanged read readKept takesRead
      refine ⟨⟨?_, ?_⟩, ?_⟩
      · intro buf listed taken
        cases List.mem_singleton.mp listed
        exact (ofPair _ _ rfl rfl rfl rfl taken).elim
      · intro vpid same
        cases same
      · intro third closed
        obtain ⟨_, rfl⟩ := step_eq_some_iff.mp closed
        refine ⟨⟨?_, ?_⟩, ?_⟩
        · intro buf listed taken
          cases List.mem_singleton.mp listed
          exact (ofPair _ _ rfl rfl rfl rfl taken).elim
        · intro vpid same
          cases same
        · intro fourth removed
          refine ⟨⟨?_, ?_⟩, True.intro⟩
          · intro buf listed _
            cases List.mem_singleton.mp listed
            exact Or.inr ⟨4, .pipeWrite 0, rfl, rfl⟩
          · intro vpid same
            cases same

/--
A process closes the writing end and keeps the reading end of its pipe; no
writer is left, and reading the empty pipe asks to try again.
-/
theorem end_of_file_missed_after_close :
    ¬ ∀ (kernel : Kernel) (ops : List FdOp) (final : World),
        run World.step (World.init kernel) ops = some final →
          EndsReported final := by
  intro always
  have reported :=
    always Kernel.standard [.sys 1 .ffiPipe, .sys 1 (.close 4)] _ rfl
  have ends := (reported 0 (List.mem_singleton.mpr rfl)).1
  have noWriter :
      ¬ HasWriter
        (((World.init Kernel.standard).apply (.sys 1 .ffiPipe)).apply
          (.sys 1 (.close 4))) 0 := by
    intro writer
    have found := (holds_iff _ (.pipeWrite 0)).mpr writer
    cases found
  have eof := ends noWriter rfl []
  cases eof

end Vproc.Fd.PipeLifetime
