import Vproc.Fd.Effects

/-!
# What a number stands for

Eight interceptors look a descriptor number up in the table of the process,
each with its own copy of the lookup.  For an entry they agree.  For a number
which is not in the table, `read`, `write`, `poll` and `close` go to the
kernel with it, and `fstat`, `lseek`, `dup` and `dup2` say that it is not
open.  Without a table all of them go to the kernel.

`dup` and `dup2` of a pipe end close their target first.  If this is the pipe
end itself, they do not find it any more.
-/

namespace Vproc.Fd.Resolution

open Vproc.Lib.Run
open Vproc.Lib.FiniteMap
open Vproc.Fd.Table
open Vproc.Fd.KernelTable
open Vproc.Fd.Runtime
open Vproc.Fd.Effects

/-- The object behind a number. -/
inductive Object where
  | pipeRead (buf : ArcId)
  | pipeWrite (buf : ArcId)
  | kernel (fd : CInt)
deriving DecidableEq, Repr

/--
What an interceptor takes a number for, and the error with which it refuses
the call by itself.
-/
structure Access where
  object : Option Object
  errno : Option CInt
deriving DecidableEq, Repr

/-- `EBADF`. -/
def ebadf : CInt :=
  9

/-- `ESPIPE`. -/
def espipe : CInt :=
  29

/-- The object behind an entry. -/
def objectOf : Vfd → Object
  | .real fd => .kernel fd
  | .file ref => .kernel ref.realFd
  | .pipeRead buf => .pipeRead buf
  | .pipeWrite buf => .pipeWrite buf

/-- A call which reaches its object. -/
def reaches (object : Object) : Access where
  object := some object
  errno := none

/-- A call which finds nothing. -/
def notOpen : Access where
  object := none
  errno := some ebadf

def isPipeRead : Vfd → Bool
  | .pipeRead _ => true
  | _ => false

def isPipeWrite : Vfd → Bool
  | .pipeWrite _ => true
  | _ => false

/-- The lookup of `read` and `write`, with the end of a pipe they work on. -/
def transferAccess (isEnd : Vfd → Bool) (table : Option VfdTable)
    (fd : CInt) : Access :=
  if fd < 0 then notOpen
  else
    match table.bind fun table => table.get (asU32 fd) with
    | some (.real realFd) => reaches (.kernel realFd)
    | some (.file ref) => reaches (.kernel ref.realFd)
    | some vfd =>
        { object := some (objectOf vfd)
          errno := if isEnd vfd then none else some ebadf }
    | none => reaches (.kernel fd)

/-- `read`. -/
def readAccess (table : Option VfdTable) (fd : CInt) : Access :=
  transferAccess isPipeRead table fd

/-- `write`. -/
def writeAccess (table : Option VfdTable) (fd : CInt) : Access :=
  transferAccess isPipeWrite table fd

/-- `poll`, for one number of its list. -/
def pollAccess (table : Option VfdTable) (fd : CInt) : Access :=
  match table.bind fun table => table.get (asU32 fd) with
  | some (.pipeRead buf) => reaches (.pipeRead buf)
  | some (.pipeWrite buf) => reaches (.pipeWrite buf)
  | some (.real realFd) => reaches (.kernel realFd)
  | some (.file ref) => reaches (.kernel ref.realFd)
  | none => reaches (.kernel fd)

/-- The lookup of `fstat` and `lseek`. -/
def statusAccess (table : Option VfdTable) (fd : CInt) : Access :=
  match table with
  | none => reaches (.kernel fd)
  | some table =>
      match table.get (asU32 fd) with
      | some (.real realFd) => reaches (.kernel realFd)
      | some (.file ref) => reaches (.kernel ref.realFd)
      | some vfd =>
          { object := some (objectOf vfd), errno := some espipe }
      | none => notOpen

/-- `fstat`. -/
def fstatAccess (table : Option VfdTable) (fd : CInt) : Access :=
  statusAccess table fd

/-- `lseek`. -/
def lseekAccess (table : Option VfdTable) (fd : CInt) : Access :=
  statusAccess table fd

/-- `close`. -/
def closeAccess (table : Option VfdTable) (fd : CInt) : Access :=
  if fd < 0 then notOpen
  else
    match table with
    | none => reaches (.kernel fd)
    | some table =>
        match table.get (asU32 fd) with
        | some vfd => reaches (objectOf vfd)
        | none => reaches (.kernel fd)

/-- The object which a copied entry has. -/
def copyAccess (copied : Outcome (Except CInt Nat)) : Access :=
  match copied.result with
  | .ok number =>
      { object := (copied.table.get number).map objectOf, errno := none }
  | .error _ => notOpen

/-- `dup`. -/
def dupAccess (table : Option VfdTable) (oldFd : CInt) : Access :=
  match table with
  | none => reaches (.kernel oldFd)
  | some table =>
      match World.underlyingReal table oldFd with
      | some realFd => reaches (.kernel realFd)
      | none => copyAccess (table.dup (asU32 oldFd))

/-- `dup2`, with the number given as its source. -/
def dup2Access (table : Option VfdTable) (oldFd newFd : CInt) : Access :=
  match table with
  | none => reaches (.kernel oldFd)
  | some table =>
      match World.underlyingReal table oldFd with
      | some realFd => reaches (.kernel realFd)
      | none => copyAccess (table.dup2 (asU32 oldFd) (asU32 newFd))

/-- All eight, with the target of `dup2`. -/
def accesses (table : Option VfdTable) (fd newFd : CInt) : List Access :=
  [readAccess table fd, writeAccess table fd, pollAccess table fd,
    fstatAccess table fd, lseekAccess table fd, closeAccess table fd,
    dupAccess table fd, dup2Access table fd newFd]

/-- A number which the kernel does not know is no object. -/
def live (kernel : Kernel) : Option Object → Option Object
  | some (.kernel fd) =>
      if (kernel.files fd).isSome then some (.kernel fd) else none
  | object => object

/-- All interceptors take the number for the same object, or for none. -/
def OneMeaning (world : World) (vpid : VPid) (fd newFd : CInt) : Prop :=
  ∃ object, ∀ access ∈ accesses (world.getTable vpid) fd newFd,
    live world.kernel access.object = object

/--
An entry which is no pipe end, or one which `dup` and `dup2` do not close
themselves; no entry, and a number which the kernel does not know or a process
without a table.
-/
def Unambiguous (world : World) (vpid : VPid) (fd newFd : CInt) : Prop :=
  match world.getTable vpid with
  | none => True
  | some table =>
      match table.get (asU32 fd) with
      | some (.real _) => True
      | some (.file _) => True
      | some _ => table.nextFd ≠ asU32 fd ∧ asU32 newFd ≠ asU32 fd
      | none => world.kernel.files fd = none

/-! ## The accesses and the calls -/

section Calls

variable {world : World} {vpid : VPid} {fd : CInt}

/-- One attempt of `read` takes its bytes from the object of the access. -/
theorem readPipe_of_access
    {buf : ArcId}
    (access : readAccess (world.getTable vpid) fd =
      reaches (.pipeRead buf))
    (dst : List UInt8) :
    world.readPipe vpid fd dst =
      ({ world with
          pipes :=
            Function.update world.pipes buf
              ((world.pipes buf).readFrom dst).1 },
        ((world.pipes buf).readFrom dst).2.result) := by
  unfold readAccess transferAccess at access
  split at access
  · cases access
  · unfold World.readPipe World.entry
    split at access
    · cases access
    · cases access
    · rename_i vfd _ _ found
      rw [found]
      cases vfd with
      | pipeRead other =>
          cases access
          rfl
      | pipeWrite other => cases access
      | real realFd => cases access
      | file ref => cases access
    · cases access

theorem writePipe_of_access
    {buf : ArcId}
    (access : writeAccess (world.getTable vpid) fd =
      reaches (.pipeWrite buf))
    (src : List UInt8) :
    world.writePipe vpid fd src =
      ({ world with
          pipes :=
            Function.update world.pipes buf
              ((world.pipes buf).writeTo src).1 },
        ((world.pipes buf).writeTo src).2.result) := by
  unfold writeAccess transferAccess at access
  split at access
  · cases access
  · unfold World.writePipe World.entry
    split at access
    · cases access
    · cases access
    · rename_i vfd _ _ found
      rw [found]
      cases vfd with
      | pipeWrite other =>
          cases access
          rfl
      | pipeRead other => cases access
      | real realFd => cases access
      | file ref => cases access
    · cases access

/-- What `dup2` of a table entry finds. -/
theorem copyAccess_dup2 (table : VfdTable) (oldFd newFd : Nat) :
    copyAccess (table.dup2 oldFd newFd) =
      if oldFd = newFd then notOpen
      else
        match table.get oldFd with
        | some vfd => reaches (objectOf vfd)
        | none => notOpen := by
  rw [copyAccess, VfdTable.dup2_result]
  by_cases same : oldFd = newFd
  · rw [if_pos (Or.inl same), if_pos same]
  · rw [if_neg same]
    cases found : table.get oldFd with
    | none => rw [if_pos (Or.inr rfl)]
    | some vfd =>
        have both : ¬ (oldFd = newFd ∨ some vfd = none) := by simp [same]
        rw [if_neg both]
        dsimp only
        rw [VfdTable.get_dup2, if_pos rfl, if_neg same, found]
        rfl

theorem copyAccess_dup (table : VfdTable) (oldFd : Nat) :
    copyAccess (table.dup oldFd) =
      if oldFd = table.nextFd then notOpen
      else
        match table.get oldFd with
        | some vfd => reaches (objectOf vfd)
        | none => notOpen :=
  copyAccess_dup2 table.allocFd.1 oldFd table.nextFd

/-- A refused `dup` or `dup2` of an entry answers with an error. -/
theorem replyOf_copyAccess
    {copied : Outcome (Except CInt Nat)}
    (refused : copyAccess copied = notOpen) :
    World.replyOf copied.result = -1 := by
  unfold copyAccess at refused
  split at refused
  · cases congrArg Access.errno refused
  · rename_i error
    rw [error]
    rfl

theorem dup_of_access
    {answer : CInt}
    (refused : dupAccess (world.getTable vpid) fd = notOpen) :
    (world.dup vpid fd answer).2 = -1 := by
  unfold dupAccess at refused
  unfold World.dup
  cases isTable : world.getTable vpid with
  | none =>
      rw [isTable] at refused
      cases refused
  | some table =>
      simp only [isTable] at refused
      cases source : World.underlyingReal table fd with
      | some realFd =>
          rw [source] at refused
          cases refused
      | none =>
          simp only [source] at refused ⊢
          exact replyOf_copyAccess refused

theorem dup2_of_access
    {newFd : CInt}
    (refused : dup2Access (world.getTable vpid) fd newFd = notOpen) :
    (world.dup2 vpid fd newFd).2 = -1 := by
  unfold dup2Access at refused
  unfold World.dup2
  cases isTable : world.getTable vpid with
  | none =>
      rw [isTable] at refused
      cases refused
  | some table =>
      simp only [isTable] at refused
      cases source : World.underlyingReal table fd with
      | some realFd =>
          rw [source] at refused
          cases refused
      | none =>
          simp only [source] at refused ⊢
          exact replyOf_copyAccess refused

end Calls

/-! ## Agreement -/

section Agreement

variable {world : World} {vpid : VPid} {fd newFd : CInt}

/-- The objects of the interceptors, without a table. -/
theorem accesses_without_table
    (nonneg : 0 ≤ fd) (access : Access)
    (member : access ∈ accesses none fd newFd) :
    access.object = some (.kernel fd) := by
  simp only [accesses, readAccess, writeAccess, transferAccess, pollAccess,
    fstatAccess, lseekAccess, statusAccess, closeAccess, dupAccess,
    dup2Access, Option.bind_none, not_lt.mpr nonneg, if_false,
    List.mem_cons, List.not_mem_nil, or_false, or_self] at member
  rw [member]
  rfl

/-- With an entry, apart from `dup` and `dup2` of a pipe end. -/
theorem accesses_of_entry
    {table : VfdTable} {vfd : Vfd} (nonneg : 0 ≤ fd)
    (found : table.get (asU32 fd) = some vfd)
    (copied : vfd.kernelFd = none →
      table.nextFd ≠ asU32 fd ∧ asU32 newFd ≠ asU32 fd)
    (access : Access) (member : access ∈ accesses (some table) fd newFd) :
    access.object = some (objectOf vfd) := by
  simp only [accesses, readAccess, writeAccess, transferAccess, pollAccess,
    fstatAccess, lseekAccess, statusAccess, closeAccess, dupAccess,
    dup2Access, Option.bind_some, not_lt.mpr nonneg, if_false,
    World.underlyingReal, copyAccess_dup, copyAccess_dup2, found,
    List.mem_cons, List.not_mem_nil, or_false] at member
  cases vfd with
  | real realFd =>
      simp only [Vfd.kernelFd, objectOf, or_self] at member
      rw [member]
      rfl
  | file ref =>
      simp only [Vfd.kernelFd, objectOf, or_self] at member
      rw [member]
      rfl
  | pipeRead buf =>
      obtain ⟨notNext, notTarget⟩ := copied rfl
      simp only [Vfd.kernelFd, objectOf, notNext.symm, notTarget.symm,
        if_false] at member
      rcases member with rfl | rfl | rfl | rfl | rfl | rfl | rfl | rfl <;>
        rfl
  | pipeWrite buf =>
      obtain ⟨notNext, notTarget⟩ := copied rfl
      simp only [Vfd.kernelFd, objectOf, notNext.symm, notTarget.symm,
        if_false] at member
      rcases member with rfl | rfl | rfl | rfl | rfl | rfl | rfl | rfl <;>
        rfl

/-- Without an entry: nothing, or the number in the kernel. -/
theorem accesses_of_missing
    {table : VfdTable} (nonneg : 0 ≤ fd)
    (missing : table.get (asU32 fd) = none) (access : Access)
    (member : access ∈ accesses (some table) fd newFd) :
    access.object = none ∨ access.object = some (.kernel fd) := by
  simp only [accesses, readAccess, writeAccess, transferAccess, pollAccess,
    fstatAccess, lseekAccess, statusAccess, closeAccess, dupAccess,
    dup2Access, Option.bind_some, not_lt.mpr nonneg, if_false,
    World.underlyingReal, copyAccess_dup, copyAccess_dup2, missing,
    List.mem_cons, List.not_mem_nil, or_false, Option.bind_none,
    ite_self] at member
  rcases member with rfl | rfl | rfl | rfl | rfl | rfl | rfl | rfl <;>
    simp [reaches, notOpen]

/-- `fstat`, `dup` and `dup2` have to find what `poll` finds. -/
theorem polled_of_oneMeaning
    (agree : OneMeaning world vpid fd newFd) :
    let table := world.getTable vpid
    let polled := live world.kernel (pollAccess table fd).object
    live world.kernel (fstatAccess table fd).object = polled ∧
      live world.kernel (dupAccess table fd).object = polled ∧
      live world.kernel (dup2Access table fd newFd).object = polled := by
  obtain ⟨object, same⟩ := agree
  have polled := same (pollAccess (world.getTable vpid) fd) (by simp [accesses])
  refine ⟨?_, ?_, ?_⟩
  · exact (same _ (by simp [accesses])).trans polled.symm
  · exact (same _ (by simp [accesses])).trans polled.symm
  · exact (same _ (by simp [accesses])).trans polled.symm

theorem oneMeaning_of_unambiguous
    (nonneg : 0 ≤ fd) (clear : Unambiguous world vpid fd newFd) :
    OneMeaning world vpid fd newFd := by
  unfold Unambiguous at clear
  unfold OneMeaning
  cases isTable : world.getTable vpid with
  | none =>
      refine ⟨live world.kernel (some (.kernel fd)), ?_⟩
      intro access member
      rw [accesses_without_table nonneg access member]
  | some table =>
      rw [isTable] at clear
      cases found : table.get (asU32 fd) with
      | none =>
          simp only [found] at clear
          refine ⟨none, ?_⟩
          intro access member
          rcases accesses_of_missing nonneg found access member with
            nothing | raw
          · rw [nothing]
            rfl
          · simp [raw, live, clear]
      | some vfd =>
          refine ⟨live world.kernel (some (objectOf vfd)), ?_⟩
          intro access member
          rw [accesses_of_entry nonneg found ?_ access member]
          intro isPipe
          simp only [found] at clear
          cases vfd with
          | real realFd => cases isPipe
          | file ref => cases isPipe
          | pipeRead buf => exact clear
          | pipeWrite buf => exact clear

/-- `dup` and `dup2` have to find a pipe end which `poll` finds. -/
theorem targets_of_oneMeaning
    {table : VfdTable} {vfd : Vfd}
    (isTable : world.getTable vpid = some table)
    (found : table.get (asU32 fd) = some vfd)
    (isPipe : vfd.kernelFd = none)
    (agree : OneMeaning world vpid fd newFd) :
    table.nextFd ≠ asU32 fd ∧ asU32 newFd ≠ asU32 fd := by
  have polled : live world.kernel
      (pollAccess (some table) fd).object = some (objectOf vfd) := by
    simp only [pollAccess, Option.bind_some, found]
    cases vfd with
    | real realFd => cases isPipe
    | file ref => cases isPipe
    | pipeRead buf => rfl
    | pipeWrite buf => rfl
  have noKernel : World.underlyingReal table fd = none := by
    rw [World.underlyingReal, found, Option.bind_some, isPipe]
  obtain ⟨_, ofDup, ofDup2⟩ := polled_of_oneMeaning agree
  rw [isTable, polled] at ofDup ofDup2
  constructor
  · intro same
    simp only [dupAccess, noKernel, copyAccess_dup, if_pos same.symm]
      at ofDup
    cases ofDup
  · intro same
    simp only [dup2Access, noKernel, copyAccess_dup2, if_pos same.symm]
      at ofDup2
    cases ofDup2

theorem unambiguous_of_oneMeaning
    (agree : OneMeaning world vpid fd newFd) :
    Unambiguous world vpid fd newFd := by
  unfold Unambiguous
  split
  · exact True.intro
  · rename_i table isTable
    split
    · exact True.intro
    · exact True.intro
    · rename_i vfd notReal notFile found
      refine targets_of_oneMeaning isTable found ?_ agree
      cases vfd with
      | real realFd => exact (notReal realFd rfl).elim
      | file ref => exact (notFile ref rfl).elim
      | pipeRead buf => rfl
      | pipeWrite buf => rfl
    · rename_i missing
      have ofFstat := (polled_of_oneMeaning agree).1
      simpa [isTable, pollAccess, fstatAccess, statusAccess, missing,
        reaches, notOpen, live] using ofFstat

end Agreement

/--
All eight interceptors take a number for the same object, if and only if its
entry is unambiguous.
-/
theorem one_meaning_iff
    (world : World) (vpid : VPid) (fd : Nat) (newFd : CInt) :
    OneMeaning world vpid fd newFd ↔ Unambiguous world vpid fd newFd := by
  constructor
  · exact unambiguous_of_oneMeaning
  · exact oneMeaning_of_unambiguous (Int.natCast_nonneg fd)

/-- A process opens a file and makes a pipe with the numbers 4 and 5. -/
def openAndPipe : List World.FdOp :=
  [.sys 1 (.openPath 0 3), .sys 1 (.pipe 4 5)]

/-- `poll` takes 4 for the pipe, and for `fstat` it is not open. -/
theorem pipe_end_not_found :
    ∃ world,
      run World.step (World.init Kernel.standard) openAndPipe =
          some world ∧
        ¬ OneMeaning world 1 4 6 := by
  refine ⟨_, rfl, ?_⟩
  intro agree
  have ofFstat := (polled_of_oneMeaning agree).1
  revert ofFstat
  decide

end Vproc.Fd.Resolution
