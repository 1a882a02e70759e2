import Vproc.Lib.Ring
import Vproc.Lib.ByteQueue

/-!
# The ring buffer behind a virtual pipe

A pipe of the runtime is a 64 KiB ring buffer shared by its two ends.  The
model keeps the fields of the source: the cells, both positions, the number of
stored bytes and one closed flag for both directions.

The two representation facts of the ring, that at most `pipeCapacity` bytes
are stored and that the write position lies `len` cells after the read
position, are fields of the structure.  Every operation below rebuilds them,
so that no ill-formed buffer can be reached at all.
-/

namespace Vproc.Fd.PipeRing

open Vproc.Lib.Ring
open Vproc.Lib.ByteQueue

/-- `PIPE_CAPACITY`, 64 KiB. -/
def pipeCapacity : Nat := 65536

/-- The interior of a `PipeBuffer`. -/
structure PipeBuffer where
  buf : Vector UInt8 pipeCapacity
  readPos : Fin pipeCapacity
  writePos : Fin pipeCapacity
  len : Nat
  closed : Bool
  len_le : len ≤ pipeCapacity
  writePos_eq : writePos = advance^[len] readPos

namespace PipeBuffer

/-- `PipeBuffer::new`: all cells zero, both positions at the first cell. -/
def new : PipeBuffer where
  buf := Vector.replicate pipeCapacity 0
  readPos := ⟨0, by decide⟩
  writePos := ⟨0, by decide⟩
  len := 0
  closed := false
  len_le := Nat.zero_le _
  writePos_eq := rfl

/-! ## Reading -/

/-- The copy loop of `read_from` over the first `count` slots of `dst`. -/
def readLoop (buf : Vector UInt8 pipeCapacity) :
    Nat → Fin pipeCapacity → List UInt8 →
      Fin pipeCapacity × List UInt8
  | 0, readPos, dst => (readPos, dst)
  | _ + 1, readPos, [] => (readPos, [])
  | count + 1, readPos, _ :: dst =>
      let rest := readLoop buf count (advance readPos) dst
      (rest.1, buf[readPos] :: rest.2)

theorem readLoop_eq
    (buf : Vector UInt8 pipeCapacity) (readPos : Fin pipeCapacity)
    {count : Nat} {dst : List UInt8} (fits : count ≤ dst.length) :
    readLoop buf count readPos dst =
      (advance^[count] readPos,
        slice buf readPos count ++ dst.drop count) := by
  induction count generalizing readPos dst with
  | zero => simp [readLoop]
  | succ count induction =>
      cases dst with
      | nil => simp at fits
      | cons slot dst =>
          have fits : count ≤ dst.length := by
            simpa using fits
          simp only [readLoop, induction (advance readPos) fits, slice,
            List.drop_succ_cons, List.cons_append,
            Function.iterate_succ_apply]

/-- `read_from`: `0` is end of file, `-1` means try again. -/
def readFrom (pipe : PipeBuffer) (dst : List UInt8) :
    PipeBuffer × Output UInt8 :=
  if pipe.len = 0 then
    (pipe, { result := if pipe.closed then 0 else -1, dest := dst })
  else
    let n := min dst.length pipe.len
    let copied := readLoop pipe.buf n pipe.readPos dst
    ({ pipe with
        readPos := copied.1
        len := pipe.len - n
        len_le := Nat.le_trans (Nat.sub_le _ _) pipe.len_le
        writePos_eq := by
          have within : n ≤ pipe.len := Nat.min_le_right _ _
          have moved : copied.1 = advance^[n] pipe.readPos := by
            simp only [copied, readLoop_eq pipe.buf pipe.readPos
              (Nat.min_le_left dst.length pipe.len), n]
          rw [pipe.writePos_eq, moved, iterate_advance_add,
            Nat.add_sub_cancel' within] },
      { result := n, dest := copied.2 })

/-! ## Writing -/

/-- The copy loop of `write_to` over the accepted bytes. -/
def writeLoop :
    List UInt8 → Vector UInt8 pipeCapacity → Fin pipeCapacity →
      Vector UInt8 pipeCapacity × Fin pipeCapacity
  | [], buf, writePos => (buf, writePos)
  | byte :: rest, buf, writePos =>
      writeLoop rest (buf.set writePos byte) (advance writePos)

theorem writeLoop_position
    (bytes : List UInt8) (buf : Vector UInt8 pipeCapacity)
    (writePos : Fin pipeCapacity) :
    (writeLoop bytes buf writePos).2 =
      advance^[bytes.length] writePos := by
  induction bytes generalizing buf writePos with
  | nil => rfl
  | cons byte rest induction =>
      simp only [writeLoop, induction, List.length_cons,
        Function.iterate_succ_apply]

/-- The loop appends its bytes to the slice which ends at its position. -/
theorem slice_writeLoop
    (bytes : List UInt8) (buf : Vector UInt8 pipeCapacity)
    (readPos : Fin pipeCapacity) {len : Nat}
    (room : len + bytes.length ≤ pipeCapacity) :
    slice (writeLoop bytes buf (advance^[len] readPos)).1 readPos
        (len + bytes.length) =
      slice buf readPos len ++ bytes := by
  induction bytes generalizing buf len with
  | nil => simp [writeLoop]
  | cons byte rest induction =>
      have roomTail : len + 1 + rest.length ≤ pipeCapacity := by
        simp only [List.length_cons] at room
        omega
      have position :
          advance (advance^[len] readPos) = advance^[len + 1] readPos :=
        (Function.iterate_succ_apply' advance len readPos).symm
      have count : len + (byte :: rest).length = len + 1 + rest.length := by
        simp only [List.length_cons]
        omega
      rw [count, writeLoop, position, induction _ roomTail,
        slice_set_succ buf readPos byte (by omega), List.append_assoc]
      rfl

/-- `write_to`: `-1` both when closed and when full. -/
def writeTo (pipe : PipeBuffer) (src : List UInt8) :
    PipeBuffer × Output UInt8 :=
  if pipe.closed then
    (pipe, { result := -1, dest := [] })
  else
    let available := pipeCapacity - pipe.len
    if available = 0 then
      (pipe, { result := -1, dest := [] })
    else
      let n := min src.length available
      let copied := writeLoop (src.take n) pipe.buf pipe.writePos
      ({ pipe with
          buf := copied.1
          writePos := copied.2
          len := pipe.len + n
          len_le := by
            have bounded : n ≤ available := Nat.min_le_right _ _
            have stored := pipe.len_le
            simp only [available] at bounded
            omega
          writePos_eq := by
            have taken : (src.take n).length = n := by
              simp [n]
            simp only [copied, writeLoop_position, taken,
              pipe.writePos_eq, iterate_advance_add] },
        { result := n, dest := [] })

/-- `close`: the one flag for both directions. -/
def close (pipe : PipeBuffer) : PipeBuffer :=
  { pipe with closed := true }

/-- `is_closed`. -/
def isClosed (pipe : PipeBuffer) : Bool :=
  pipe.closed

/-- `is_empty`. -/
def isEmpty (pipe : PipeBuffer) : Bool :=
  pipe.len == 0

/-- `is_full`. -/
def isFull (pipe : PipeBuffer) : Bool :=
  pipe.len == pipeCapacity

@[simp]
theorem close_closed (pipe : PipeBuffer) :
    pipe.close.closed = true :=
  rfl

@[simp]
theorem new_closed : new.closed = false :=
  rfl

@[simp]
theorem readFrom_closed (pipe : PipeBuffer) (dst : List UInt8) :
    (pipe.readFrom dst).1.closed = pipe.closed := by
  unfold readFrom
  split <;> rfl

@[simp]
theorem writeTo_closed (pipe : PipeBuffer) (src : List UInt8) :
    (pipe.writeTo src).1.closed = pipe.closed := by
  unfold writeTo
  split
  · rfl
  · dsimp only
    split <;> rfl

/-- A read reports end of file exactly on an empty, closed buffer. -/
theorem readFrom_result_eq_zero_iff
    (pipe : PipeBuffer) {dst : List UInt8} (nonempty : dst ≠ []) :
    (pipe.readFrom dst).2.result = 0 ↔
      pipe.len = 0 ∧ pipe.closed = true := by
  have positive : 0 < dst.length := List.length_pos_iff.mpr nonempty
  unfold readFrom
  split
  · rename_i empty
    cases closed : pipe.closed <;> simp [empty]
  · rename_i stored
    dsimp only
    constructor
    · intro zero
      have : min dst.length pipe.len = 0 := by
        exact_mod_cast zero
      omega
    · rintro ⟨empty, _⟩
      exact (stored empty).elim

/-- The result of a read from an empty buffer is decided by the flag. -/
theorem readFrom_result_of_empty
    (pipe : PipeBuffer) (dst : List UInt8) (empty : pipe.len = 0) :
    (pipe.readFrom dst).2.result = if pipe.closed then 0 else -1 := by
  simp [readFrom, empty]

theorem writeTo_result_of_closed
    (pipe : PipeBuffer) (src : List UInt8) (closed : pipe.closed = true) :
    (pipe.writeTo src).2.result = -1 := by
  simp [writeTo, closed]

/-! ## The buffer as a first-in first-out queue -/

/-- The stored bytes, oldest first. -/
def contents (pipe : PipeBuffer) : List UInt8 :=
  slice pipe.buf pipe.readPos pipe.len

/-- The queue a buffer stands for. -/
def toQueue (pipe : PipeBuffer) : Queue UInt8 where
  items := pipe.contents
  closed := pipe.closed

/-- One call of a client of the pipe. -/
def step (pipe : PipeBuffer) :
    Call UInt8 → PipeBuffer × Output UInt8
  | .read dst => pipe.readFrom dst
  | .write src => pipe.writeTo src
  | .close => (pipe.close, { result := 0, dest := [] })

@[simp]
theorem length_contents (pipe : PipeBuffer) :
    pipe.contents.length = pipe.len :=
  length_slice _ _ _

theorem contents_eq_nil_iff (pipe : PipeBuffer) :
    pipe.contents = [] ↔ pipe.len = 0 := by
  rw [← List.length_eq_zero_iff, length_contents]

/-- Reading from the ring is reading from the queue it stands for. -/
theorem toQueue_readFrom (pipe : PipeBuffer) (dst : List UInt8) :
    pipe.toQueue.read dst =
      ((pipe.readFrom dst).1.toQueue, (pipe.readFrom dst).2) := by
  by_cases empty : pipe.len = 0
  · have nothing : pipe.contents = [] :=
      (contents_eq_nil_iff pipe).mpr empty
    simp [Queue.read, readFrom, toQueue, nothing, empty]
  · have something : pipe.contents ≠ [] :=
      fun nothing => empty ((contents_eq_nil_iff pipe).mp nothing)
    have fits : min dst.length pipe.len ≤ dst.length :=
      Nat.min_le_left _ _
    have within : min dst.length pipe.len ≤ pipe.len :=
      Nat.min_le_right _ _
    simp only [Queue.read, toQueue, something, if_false, readFrom, empty,
      length_contents, readLoop_eq pipe.buf pipe.readPos fits]
    simp only [contents, drop_slice pipe.buf pipe.readPos within,
      take_slice pipe.buf pipe.readPos within]

/-- Writing into the ring is writing into the queue it stands for. -/
theorem toQueue_writeTo (pipe : PipeBuffer) (src : List UInt8) :
    pipe.toQueue.write pipeCapacity src =
      ((pipe.writeTo src).1.toQueue, (pipe.writeTo src).2) := by
  have stored := pipe.len_le
  by_cases closed : pipe.closed = true
  · simp [Queue.write, writeTo, toQueue, closed]
  by_cases full : pipe.len = pipeCapacity
  · simp [Queue.write, writeTo, toQueue, full]
  have room : pipeCapacity - pipe.len ≠ 0 := by
    omega
  let n := min src.length (pipeCapacity - pipe.len)
  have taken : (src.take n).length = n := by
    simp [n]
  have bounded : n ≤ pipeCapacity - pipe.len := Nat.min_le_right _ _
  have appended :
      slice (writeLoop (src.take n) pipe.buf pipe.writePos).1
          pipe.readPos (pipe.len + n) =
        pipe.contents ++ src.take n := by
    have written :=
      slice_writeLoop (src.take n) pipe.buf pipe.readPos
        (show pipe.len + (src.take n).length ≤ pipeCapacity by omega)
    rwa [taken, ← pipe.writePos_eq] at written
  simp only [Queue.write, toQueue, length_contents, closed, full,
    or_self, if_false, writeTo, room, Bool.false_eq_true]
  simp only [contents] at appended ⊢
  rw [appended]

/-- The abstraction commutes with every call. -/
theorem toQueue_step (pipe : PipeBuffer) (call : Call UInt8) :
    pipe.toQueue.step pipeCapacity call =
      ((pipe.step call).1.toQueue, (pipe.step call).2) := by
  cases call with
  | read dst => exact toQueue_readFrom pipe dst
  | write src => exact toQueue_writeTo pipe src
  | close => rfl

@[simp]
theorem toQueue_new : new.toQueue = Queue.empty :=
  rfl

/-- A call which transfers nothing leaves the ring itself as it was. -/
theorem step_unchanged_of_no_transfer
    (pipe : PipeBuffer) (call : Call UInt8)
    (transfer : call ≠ .close)
    (failed : (pipe.step call).2.result = -1 ∨
      ((∃ dst, call = .read dst) ∧ pipe.len = 0)) :
    (pipe.step call).1 = pipe := by
  cases call with
  | close => exact (transfer rfl).elim
  | read dst =>
      have empty : pipe.len = 0 := by
        rcases failed with minusOne | ⟨_, empty⟩
        · by_contra stored
          simp only [step, readFrom, stored, if_false] at minusOne
          omega
        · exact empty
      simp [step, readFrom, empty]
  | write src =>
      have minusOne : (pipe.writeTo src).2.result = -1 := by
        rcases failed with minusOne | ⟨⟨dst, isRead⟩, _⟩
        · exact minusOne
        · cases isRead
      simp only [step]
      unfold writeTo at minusOne ⊢
      split at minusOne
      · rename_i closed
        simp [closed]
      · rename_i isOpen
        dsimp only at minusOne
        split at minusOne
        · rename_i full
          simp [isOpen, full]
        · dsimp only at minusOne
          omega

/--
The ring buffer refines the first-in first-out queue of capacity 65536: over
every sequence of calls it returns what the queue returns, delivers what the
queue delivers and ends with the queue's items and flag; a call which
transfers nothing changes nothing; and what has been delivered, followed by
what is still stored, is what has been accepted.
-/
theorem pipeBuffer_refines_queue (calls : List (Call UInt8)) :
    let ring := trace PipeBuffer.step PipeBuffer.new calls
    let queue := trace (Queue.step pipeCapacity) Queue.empty calls
    ring.2 = queue.2 ∧
      ring.1.toQueue = queue.1 ∧
      (∀ call, call ≠ .close →
        ((ring.1.step call).2.result = -1 ∨
          ((∃ dst, call = .read dst) ∧ ring.1.len = 0)) →
        (ring.1.step call).1 = ring.1) ∧
      accepted calls ring.2 =
        delivered calls ring.2 ++ ring.1.contents ∧
      delivered calls ring.2 <+: accepted calls ring.2 := by
  have simulated :=
    trace_simulation PipeBuffer.toQueue toQueue_step calls new
  have conserved :=
    Queue.trace_conserves pipeCapacity calls (Queue.empty : Queue UInt8)
  rw [toQueue_new] at simulated
  simp only [simulated] at conserved ⊢
  have conserved :
      accepted calls (trace PipeBuffer.step PipeBuffer.new calls).2 =
        delivered calls (trace PipeBuffer.step PipeBuffer.new calls).2 ++
          (trace PipeBuffer.step PipeBuffer.new calls).1.contents := by
    simpa [Queue.empty, toQueue] using conserved
  refine ⟨trivial, trivial, ?_, conserved, ?_⟩
  · intro call transfer failed
    exact step_unchanged_of_no_transfer _ call transfer failed
  · rw [conserved]
    exact List.prefix_append _ _

end PipeBuffer

end Vproc.Fd.PipeRing
