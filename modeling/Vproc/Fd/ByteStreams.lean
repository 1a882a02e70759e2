import Vproc.Fd.Effects

/-!
# The bytes which go through a virtual pipe

A pipe may have many ends: several numbers of one process, and those of the
processes which were forked from it.  Whoever writes and whoever reads, and
whatever is duplicated, closed, inherited and reaped in between, the bytes
which all reads together have got are the first of those which all writes
together have put in, in the same order, and the rest is in the buffer.

A read which returns 0 is the end of it.
-/

namespace Vproc.Fd.ByteStreams

open Vproc.Lib.Run
open Vproc.Lib.ByteQueue
open Vproc.Fd.PipeRing
open Vproc.Fd.Table
open Vproc.Fd.KernelTable
open Vproc.Fd.Runtime
open Vproc.Fd.Runtime.World
open Vproc.Fd.Effects

/-! ## Streams -/

/-- The bytes an operation puts into a buffer: as many as `write` returns. -/
def bytesIn (buf : ArcId) (world : World) : FdOp → List UInt8
  | .sys vpid (.writePipe fd src) =>
      if world.entry vpid (asU32 fd) = some (.pipeWrite buf) then
        src.take (world.writePipe vpid fd src).2.toNat
      else []
  | _ => []

/-- The bytes an operation takes out of it: as many as `read` returns. -/
def bytesOut (buf : ArcId) (world : World) : FdOp → List UInt8
  | .sys vpid (.readPipe fd dst) =>
      if world.entry vpid (asU32 fd) = some (.pipeRead buf) then
        ((world.pipes buf).readFrom dst).2.dest.take
          (world.readPipe vpid fd dst).2.toNat
      else []
  | _ => []

/-- What the operations of a run put together. -/
def stream (bytes : World → FdOp → List UInt8) :
    World → List FdOp → List UInt8
  | _, [] => []
  | world, op :: rest =>
      match world.step op with
      | none => []
      | some next => bytes world op ++ stream bytes next rest

/-- Everything which has been written to a pipe. -/
def streamIn (buf : ArcId) : World → List FdOp → List UInt8 :=
  stream (bytesIn buf)

/-- Everything which has been read from it. -/
def streamOut (buf : ArcId) : World → List FdOp → List UInt8 :=
  stream (bytesOut buf)

/-! ## What an operation does to the contents -/

section Contents

variable {world next : World} {buf : ArcId}

/-- The buffers have the same bytes, some may have been closed. -/
def SameContents (world next : World) : Prop :=
  ∀ buf, (next.pipes buf).contents = (world.pipes buf).contents

theorem sameContents_of_pipes (same : next.pipes = world.pipes) :
    SameContents world next := by
  intro buf
  rw [same]

theorem sameContents_closeBuffers
    (bufs : List ArcId) (same : next.pipes = world.pipes) :
    SameContents world (next.closeBuffers bufs) := by
  intro buf
  rw [closeBuffers]
  dsimp only
  rw [same]
  split <;> rfl

/-- The calls which move bytes, and the one which makes a buffer. -/
def MovesBytes : SysCall → Bool
  | .readPipe _ _ | .writePipe _ _ | .ffiPipe => true
  | _ => false

theorem sameContents_sys
    (vpid : VPid) (call : SysCall) (still : MovesBytes call = false) :
    SameContents world (world.sys vpid call).1 := by
  cases call with
  | openPath flags answer =>
      exact sameContents_of_pipes (closed_insertOpened world vpid _ answer)
  | openatPath flags answer =>
      exact sameContents_of_pipes (closed_insertOpened world vpid _ answer)
  | creat answer =>
      exact sameContents_of_pipes (closed_insertOpened world vpid _ answer)
  | dup oldFd answer =>
      simp only [sys, dup]
      split
      · exact sameContents_of_pipes rfl
      · split
        · split <;> exact sameContents_of_pipes rfl
        · exact sameContents_closeBuffers _ rfl
  | dup2 oldFd newFd =>
      simp only [sys, dup2]
      split
      · split <;> exact sameContents_of_pipes rfl
      · split
        · split
          · exact sameContents_of_pipes rfl
          · exact sameContents_closeBuffers _ rfl
        · exact sameContents_closeBuffers _ rfl
  | close fd =>
      simp only [sys, close]
      split
      · exact sameContents_of_pipes rfl
      · split
        · exact sameContents_of_pipes rfl
        · split
          · exact sameContents_closeBuffers _ rfl
          · exact sameContents_of_pipes (realCloseAll_pipes _ _)
          · exact sameContents_closeBuffers _ rfl
          · exact sameContents_of_pipes rfl
  | pipe readFd writeFd =>
      simp only [sys, pipe]
      split <;> exact sameContents_of_pipes rfl
  | ffiPipe => cases still
  | ffiDup oldFd =>
      simp only [sys, ffiDup]
      split
      · exact sameContents_of_pipes rfl
      · exact sameContents_closeBuffers _ rfl
  | ffiDup2 oldFd newFd =>
      simp only [sys, ffiDup2]
      split
      · exact sameContents_of_pipes rfl
      · exact sameContents_closeBuffers _ rfl
  | ffiClose fd =>
      simp only [sys, ffiClose]
      split
      · exact sameContents_of_pipes rfl
      · split
        · exact sameContents_of_pipes (realCloseAll_pipes _ _)
        · exact sameContents_closeBuffers _ rfl
  | insertAt fd vfd =>
      simp only [sys, insertAt]
      split
      · exact sameContents_of_pipes rfl
      · exact sameContents_closeBuffers _ rfl
  | readPipe fd dst => cases still
  | writePipe fd src => cases still

theorem sameContents_replaceTable (vpid : VPid) (table : VfdTable) :
    SameContents world (world.replaceTable vpid table) :=
  sameContents_closeBuffers _ rfl

theorem sameContents_removeTable (vpid : VPid) :
    SameContents world (world.removeTable vpid) := by
  unfold removeTable
  split
  · exact sameContents_closeBuffers _ rfl
  · exact sameContents_of_pipes rfl

/-- All operations but these calls leave the bytes alone. -/
theorem sameContents_apply
    (op : FdOp) (still : ∀ vpid call, op = .sys vpid call →
      MovesBytes call = false) :
    SameContents world (world.apply op) := by
  cases op with
  | createTable vpid stdin stdout stderr =>
      exact sameContents_replaceTable vpid _
  | sys vpid call => exact sameContents_sys vpid call (still vpid call rfl)
  | fork parent child => exact sameContents_replaceTable child _
  | exec parent child =>
      simp only [apply]
      unfold execTable
      dsimp only
      cases parent with
      | none => exact sameContents_of_pipes (closeCloexecOf_pipes world child)
      | some owner =>
          intro buf
          rw [closeCloexecOf_pipes]
          exact sameContents_replaceTable child _ buf
  | removeTable vpid => exact sameContents_removeTable vpid
  | reap vpid =>
      intro buf
      simp only [apply]
      rw [reapTable_pipes]
      exact sameContents_removeTable vpid buf
  | cleanup => exact sameContents_closeBuffers _ rfl
  | rawDup3 oldFd newFd =>
      simp only [apply, rawDup3]
      split <;> exact sameContents_of_pipes rfl

/-- One read or write of a pipe moves bytes and loses none. -/
theorem contents_step (pipe : PipeBuffer) (call : Call UInt8) :
    pipe.contents ++ call.accepted (pipe.step call).2 =
      call.delivered (pipe.step call).2 ++ (pipe.step call).1.contents := by
  have conserved :=
    Queue.step_conserves pipeCapacity pipe.toQueue call
  rw [PipeBuffer.toQueue_step] at conserved
  exact conserved

theorem contents_readPipe
    (vpid : VPid) (fd : CInt) (dst : List UInt8) (buf : ArcId) :
    (world.pipes buf).contents =
      bytesOut buf world (.sys vpid (.readPipe fd dst)) ++
        ((world.readPipe vpid fd dst).1.pipes buf).contents := by
  by_cases held : world.entry vpid (asU32 fd) = some (.pipeRead buf)
  · have moved := contents_step (world.pipes buf) (.read dst)
    rw [Call.accepted, List.append_nil] at moved
    · simp only [bytesOut, readPipe, held, if_true, Function.update_self]
      exact moved
    · rintro _ ⟨⟩
  · simp only [bytesOut, if_neg held, List.nil_append]
    unfold readPipe
    split
    · rename_i target other
      have differs : buf ≠ target := by
        rintro rfl
        exact held other
      simp only [Function.update_of_ne differs]
    · rfl

theorem contents_writePipe
    (vpid : VPid) (fd : CInt) (src : List UInt8) (buf : ArcId) :
    (world.pipes buf).contents ++
        bytesIn buf world (.sys vpid (.writePipe fd src)) =
      ((world.writePipe vpid fd src).1.pipes buf).contents := by
  by_cases held : world.entry vpid (asU32 fd) = some (.pipeWrite buf)
  · have moved := contents_step (world.pipes buf) (.write src)
    rw [Call.delivered, List.nil_append] at moved
    · simp only [bytesIn, writePipe, held, if_true, Function.update_self]
      exact moved
    · rintro _ ⟨⟩
  · simp only [bytesIn, if_neg held, List.append_nil]
    unfold writePipe
    split
    · rename_i target other
      have differs : buf ≠ target := by
        rintro rfl
        exact held other
      simp only [Function.update_of_ne differs]
    · rfl

/-- One operation moves bytes through the buffer and loses none. -/
theorem contents_apply
    (op : FdOp) (buf : ArcId)
    (fresh : Creates world buf op → (world.pipes buf).contents = []) :
    (world.pipes buf).contents ++ bytesIn buf world op =
      bytesOut buf world op ++ ((world.apply op).pipes buf).contents := by
  by_cases still : ∀ vpid call, op = .sys vpid call → MovesBytes call = false
  · have nothingIn : bytesIn buf world op = [] := by
      unfold bytesIn
      split
      · cases still _ _ rfl
      · rfl
    have nothingOut : bytesOut buf world op = [] := by
      unfold bytesOut
      split
      · cases still _ _ rfl
      · rfl
    rw [nothingIn, nothingOut, List.append_nil, List.nil_append]
    exact (sameContents_apply op still buf).symm
  · simp only [not_forall, Bool.not_eq_false] at still
    rcases still with ⟨vpid, call, rfl, moves⟩
    cases call with
    | readPipe fd dst =>
        refine Eq.trans (List.append_nil _) ?_
        exact contents_readPipe vpid fd dst buf
    | writePipe fd src => exact contents_writePipe vpid fd src buf
    | ffiPipe =>
        by_cases created : buf = world.nextArc
        · have empty := fresh created
          subst created
          show (world.pipes _).contents ++ [] = [] ++ _
          rw [empty]
          simp only [apply, sys, ffiPipe, Function.update_self]
          rfl
        · show (world.pipes _).contents ++ [] = [] ++ _
          simp only [apply, sys, ffiPipe, Function.update_of_ne created,
            List.append_nil, List.nil_append]
    | _ => cases moves

end Contents

/-! ## Fresh buffers -/

/-- Entries refer to buffers which have been made, and the others are empty. -/
structure Fresh (world : World) : Prop where
  made : ∀ vpid number vfd buf, world.entry vpid number = some vfd →
    vfd.buffer = some buf → buf < world.nextArc
  empty : ∀ buf, world.nextArc ≤ buf → (world.pipes buf).contents = []

theorem fresh_init (kernel : Kernel) : Fresh (World.init kernel) where
  made := by
    rintro vpid number vfd buf ⟨⟩
  empty := fun _ _ => rfl

/-- Bytes are only put into buffers which an entry refers to. -/
theorem bytesIn_eq_nil
    {world : World} {buf : ArcId} (fresh : Fresh world)
    (unmade : world.nextArc ≤ buf) (op : FdOp) :
    bytesIn buf world op = [] := by
  unfold bytesIn
  split
  · refine if_neg fun held => ?_
    exact Nat.not_lt.mpr unmade (fresh.made _ _ _ buf held rfl)
  · rfl

theorem fresh_step
    (world : World) (op : FdOp) (next : World) (fresh : Fresh world)
    (stepped : world.step op = some next) : Fresh next := by
  rcases step_eq_some_iff.mp stepped with ⟨admitted, rfl⟩
  have grows := nextArc_apply world op
  constructor
  · intro vpid number vfd buf held ofBuf
    rcases origin_of_entry admitted held with ⟨owner, source, before⟩ | isNew
    · exact (fresh.made owner source vfd buf before ofBuf).trans_le grows
    · rcases isNew with ⟨fd, rfl⟩ | ⟨ref, rfl, _⟩ | ⟨made, ofMade, created⟩
      · cases ofBuf
      · cases ofBuf
      · cases ofMade.symm.trans ofBuf
        unfold Creates at created
        split at created
        · subst created
          exact Nat.lt_succ_self _
        · exact created.elim
  · intro buf unmade
    have before := fresh.empty buf (grows.trans unmade)
    have moved := contents_apply op buf fun _ => before
    rw [before, bytesIn_eq_nil fresh (grows.trans unmade)] at moved
    exact (List.append_eq_nil_iff.mp moved.symm).2

/-! ## Whole runs -/

/-- What was in the buffer, and what a run writes, is read or still there. -/
theorem stream_conserved
    {world final : World} {ops : List FdOp} (buf : ArcId)
    (fresh : Fresh world) (reached : run World.step world ops = some final) :
    (world.pipes buf).contents ++ streamIn buf world ops =
      streamOut buf world ops ++ (final.pipes buf).contents := by
  induction ops generalizing world with
  | nil =>
      cases reached
      exact List.append_nil _
  | cons op rest induction =>
      rcases run_cons_iff.mp reached with ⟨next, stepped, continued⟩
      have first :
          (world.pipes buf).contents ++ bytesIn buf world op =
            bytesOut buf world op ++ (next.pipes buf).contents := by
        rcases step_eq_some_iff.mp stepped with ⟨_, rfl⟩
        refine contents_apply op buf fun created => fresh.empty buf ?_
        unfold Creates at created
        split at created
        · exact created.ge
        · exact created.elim
      have later := induction (fresh_step world op next fresh stepped) continued
      simp only [streamIn, streamOut, stream, stepped] at later ⊢
      calc (world.pipes buf).contents ++ (bytesIn buf world op ++ _)
          = bytesOut buf world op ++
              ((next.pipes buf).contents ++ stream (bytesIn buf) next rest) := by
            rw [← List.append_assoc, first, List.append_assoc]
        _ = _ := by rw [later, List.append_assoc]

/-- A pipe, a fork, and a write by each of the two processes; one reads. -/
def twoWriters : List FdOp :=
  [.sys 1 .ffiPipe, .fork 1 2, .sys 2 (.writePipe 4 [7, 8]),
    .sys 1 (.writePipe 4 [9]), .sys 2 (.readPipe 3 [0, 0])]

/--
A virtual pipe is one stream of bytes, whatever is done with its ends in any
number of processes: what has been read from it, followed by what it still
holds, is what has been written to it.
-/
theorem pipe_is_one_stream
    (kernel : Kernel) (ops : List FdOp) (final : World) (buf : ArcId)
    (reached : run World.step (World.init kernel) ops = some final) :
    streamIn buf (World.init kernel) ops =
        streamOut buf (World.init kernel) ops ++
          (final.pipes buf).contents ∧
      (final.pipes buf).contents.length ≤ pipeCapacity := by
  refine ⟨stream_conserved buf (fresh_init kernel) reached, ?_⟩
  rw [PipeBuffer.length_contents]
  exact (final.pipes buf).len_le

theorem pipe_is_one_stream_forked :
    ∃ final,
      run World.step (World.init Kernel.standard) twoWriters = some final ∧
        streamIn 0 (World.init Kernel.standard) twoWriters =
          streamOut 0 (World.init Kernel.standard) twoWriters ++
            (final.pipes 0).contents :=
  ⟨_, rfl,
    (pipe_is_one_stream Kernel.standard twoWriters _ 0 rfl).1⟩

/-! ## The end of a stream -/

/-- A buffer at its end: closed, and nothing is left in it. -/
structure AtEnd (buf : ArcId) (world : World) : Prop where
  made : buf < world.nextArc
  closed : (world.pipes buf).closed = true
  empty : (world.pipes buf).contents = []

section AtEnd

variable {world : World} {buf : ArcId}

theorem writePipe_of_closed
    (vpid : VPid) (fd : CInt) (src : List UInt8)
    (closed : (world.pipes buf).closed = true)
    (held : world.entry vpid (asU32 fd) = some (.pipeWrite buf)) :
    (world.writePipe vpid fd src).2 = -1 := by
  unfold writePipe
  rw [held]
  exact PipeBuffer.writeTo_result_of_closed _ src closed

theorem readPipe_eq_zero_iff
    (vpid : VPid) (fd : CInt) {dst : List UInt8} (given : dst ≠ [])
    (held : world.entry vpid (asU32 fd) = some (.pipeRead buf)) :
    (world.readPipe vpid fd dst).2 = 0 ↔
      (world.pipes buf).contents = [] ∧
        (world.pipes buf).closed = true := by
  rw [PipeBuffer.contents_eq_nil_iff,
    ← PipeBuffer.readFrom_result_eq_zero_iff _ given]
  unfold readPipe
  rw [held]

theorem bytesIn_of_closed
    (closed : (world.pipes buf).closed = true) (op : FdOp) :
    bytesIn buf world op = [] := by
  unfold bytesIn
  split
  · split
    · rename_i vpid fd src held
      rw [writePipe_of_closed vpid fd src closed held]
      rfl
    · rfl
  · rfl

theorem atEnd_step
    (op : FdOp) (next : World) (ends : AtEnd buf world)
    (stepped : world.step op = some next) :
    AtEnd buf next ∧ bytesIn buf world op = [] ∧
      bytesOut buf world op = [] := by
  rcases step_eq_some_iff.mp stepped with ⟨_, rfl⟩
  have old : ¬ Creates world buf op := by
    intro created
    unfold Creates at created
    split at created
    · exact Nat.ne_of_lt ends.made created
    · exact created
  have nothing := bytesIn_of_closed ends.closed op
  have moved := contents_apply op buf fun created => (old created).elim
  rw [ends.empty, nothing] at moved
  rcases List.append_eq_nil_iff.mp moved.symm with ⟨noneOut, empty⟩
  refine ⟨⟨?_, ?_, empty⟩, nothing, noneOut⟩
  · exact ends.made.trans_le (nextArc_apply world op)
  · exact (closed_apply world op buf old).mpr (.inl ends.closed)

theorem atEnd_run
    {final : World} {ops : List FdOp} (ends : AtEnd buf world)
    (reached : run World.step world ops = some final) :
    AtEnd buf final ∧ streamIn buf world ops = [] ∧
      streamOut buf world ops = [] := by
  induction ops generalizing world with
  | nil =>
      cases reached
      exact ⟨ends, rfl, rfl⟩
  | cons op rest induction =>
      rcases run_cons_iff.mp reached with ⟨next, stepped, continued⟩
      rcases atEnd_step op next ends stepped with ⟨later, isIn, isOut⟩
      rcases induction later continued with ⟨last, restIn, restOut⟩
      simp only [streamIn, streamOut] at restIn restOut
      refine ⟨last, ?_, ?_⟩
      · rw [streamIn, stream, stepped]
        exact List.append_eq_nil_iff.mpr ⟨isIn, restIn⟩
      · rw [streamOut, stream, stepped]
        exact List.append_eq_nil_iff.mpr ⟨isOut, restOut⟩

end AtEnd

/--
The end of file is the end.  When some process has read it, everything which
was written to the pipe has been read; whatever happens afterwards, no byte
goes through it any more, every read returns 0 again, and every write fails.
-/
theorem end_of_file_is_final
    (kernel : Kernel) (before after : List FdOp) (middle final : World)
    (vpid : VPid) (fd : CInt) (dst : List UInt8) (buf : ArcId)
    (reached : run World.step (World.init kernel) before = some middle)
    (held : middle.entry vpid (asU32 fd) = some (.pipeRead buf))
    (given : dst ≠ []) (isEnd : (middle.readPipe vpid fd dst).2 = 0)
    (continued : run World.step middle after = some final) :
    streamIn buf (World.init kernel) before =
        streamOut buf (World.init kernel) before ∧
      streamIn buf middle after = [] ∧
      streamOut buf middle after = [] ∧
      (∀ other number dst, dst ≠ [] →
        final.entry other (asU32 number) = some (.pipeRead buf) →
          (final.readPipe other number dst).2 = 0) ∧
      ∀ other number src,
        final.entry other (asU32 number) = some (.pipeWrite buf) →
          (final.writePipe other number src).2 = -1 := by
  have fresh : Fresh middle :=
    invariant_of_run fresh_step (fresh_init kernel) reached
  rcases (readPipe_eq_zero_iff vpid fd given held).mp isEnd with
    ⟨empty, closed⟩
  have ends : AtEnd buf middle :=
    ⟨fresh.made _ _ _ buf held rfl, closed, empty⟩
  rcases atEnd_run ends continued with ⟨last, restIn, restOut⟩
  have conserved := stream_conserved buf (fresh_init kernel) reached
  rw [empty, List.append_nil] at conserved
  refine ⟨conserved, restIn, restOut, ?_, ?_⟩
  · intro other number dst given held
    exact
      (readPipe_eq_zero_iff other number given held).mpr
        ⟨last.empty, last.closed⟩
  · intro other number src held
    exact writePipe_of_closed other number src last.closed held

/-- A child closes its ends, and the parent reads what it has written. -/
def drained : List FdOp :=
  [.sys 1 .ffiPipe, .sys 1 (.writePipe 4 [7]), .fork 1 2, .sys 2 (.close 3),
    .sys 2 (.close 4), .sys 1 (.readPipe 3 [0])]

theorem end_of_file_is_final_drained :
    ∃ middle final,
      run World.step (World.init Kernel.standard) drained = some middle ∧
        run World.step middle [.sys 1 (.writePipe 4 [9])] = some final ∧
        streamIn 0 (World.init Kernel.standard) drained =
          streamOut 0 (World.init Kernel.standard) drained ∧
        streamIn 0 middle [.sys 1 (.writePipe 4 [9])] = [] := by
  have final :=
    end_of_file_is_final Kernel.standard drained
      [.sys 1 (.writePipe 4 [9])] _ _ 1 3 [0] 0 rfl rfl (by simp) rfl rfl
  exact ⟨_, _, rfl, rfl, final.1, final.2.1⟩

end Vproc.Fd.ByteStreams
