import Vproc.Fd.KernelTable
import Vproc.Lib.Run

/-!
# The descriptor world of the runtime

All virtual processes share one global map of descriptor tables, the pipe
buffers their entries refer to, and the kernel descriptor table of the host
process.  This module has the functions of the source on that state: creating,
forking and removing tables, the Rust interceptors and the descriptor calls of
the C interface, and the steps they form.

Three fields have no counterpart in the source.  `buffers` lists the pipe
buffers made so far, `pipeEnds` the kernel numbers a process got from `pipe`
and has not closed, and `handed` every number given to `real_close`, with the
entry it came from and whether an entry still referred to it at that moment.

The interceptors are modelled on their way through the runtime: enabled, on a
driver thread, with a current process.
-/

namespace Vproc.Fd.Runtime

open Vproc.Lib.FiniteMap
open Vproc.Lib.ByteQueue
open Vproc.Fd.PipeRing
open Vproc.Fd.Table
open Vproc.Fd.KernelTable

/-- `VPid`. -/
abbrev VPid := Nat

/-- Where a number given to `real_close` came from. -/
inductive Origin where
  | borrowed
  | owned (arc : ArcId)
  | raw
deriving DecidableEq, Repr

/-- One call of `real_close`. -/
structure Handed where
  fd : CInt
  origin : Origin
  referred : Bool
deriving DecidableEq, Repr

/-- Tables, buffers and kernel descriptors, with the history fields. -/
structure World where
  tables : KeyMap VPid VfdTable
  pipes : ArcId → PipeBuffer
  buffers : List ArcId
  nextArc : ArcId
  kernel : Kernel
  pipeEnds : VPid → List CInt
  handed : List Handed

namespace World

/-- A world without tables over a given kernel. -/
def init (kernel : Kernel) : World where
  tables := ∅
  pipes := fun _ => PipeBuffer.new
  buffers := []
  nextArc := 0
  kernel := kernel
  pipeEnds := fun _ => []
  handed := []

/-- `get_table`. -/
def getTable (world : World) (vpid : VPid) : Option VfdTable :=
  world.tables.lookup vpid

/-- The entry of one number in the table of one process. -/
def entry (world : World) (vpid : VPid) (fd : Nat) : Option Vfd :=
  (world.getTable vpid).bind fun table => table.get fd

/-- The table `get_or_create_table` returns. -/
def tableOrNew (world : World) (vpid : VPid) : VfdTable :=
  (world.getTable vpid).getD VfdTable.new

/-- Store a changed table under its process. -/
def setTable (world : World) (vpid : VPid) (table : VfdTable) : World :=
  { world with tables := world.tables.insert vpid table }

/-- Call `close` on some pipe buffers. -/
def closeBuffers (world : World) (bufs : List ArcId) : World :=
  { world with
    pipes := fun buf =>
      if buf ∈ bufs then (world.pipes buf).close else world.pipes buf }

/-- Does an entry of some table refer to this owned descriptor? -/
def refersTo (world : World) (arc : ArcId) : Bool :=
  (values world.tables).any fun table =>
    (values table.fds).any fun vfd => vfd.fileArc == some arc

/-- `Arc::strong_count`: all references are held by table entries. -/
def strongCount (world : World) (arc : ArcId) : Nat :=
  ((values world.tables).map fun table =>
    (values table.fds).countP fun vfd => vfd.fileArc == some arc).sum

/-- `real_close`. -/
def realClose (world : World) (fd : CInt) (origin : Origin) :
    World × CInt :=
  let closed := world.kernel.close fd
  let referred :=
    match origin with
    | .owned arc => world.refersTo arc
    | _ => false
  ({ world with
      kernel := closed.1
      handed := world.handed ++ [{ fd, origin, referred }] },
    closed.2)

/-- Hand a list of descriptors to `real_close`, one after the other. -/
def realCloseAll (world : World) : List (CInt × Origin) → World
  | [] => world
  | (fd, origin) :: rest => (world.realClose fd origin).1.realCloseAll rest

/-- What a list of owned references gives to `real_close`. -/
def ownedFds (refs : List FileRef) : List (CInt × Origin) :=
  refs.map fun ref => (ref.realFd, .owned ref.arc)

/-! ## Tables of processes -/

/-- Put a table into the global map; a table already there is dropped. -/
def replaceTable (world : World) (vpid : VPid) (table : VfdTable) :
    World :=
  let dropped :=
    match world.getTable vpid with
    | some old => old.dropCloses
    | none => []
  (world.setTable vpid table).closeBuffers dropped

/-- `create_table_with_fds`. -/
def createTableWithFds (world : World) (vpid : VPid)
    (stdin stdout stderr : CInt) : World :=
  world.replaceTable vpid (VfdTable.newWithFds stdin stdout stderr)

/-- The table a child of this process gets. -/
def forkedTable (world : World) (parent : VPid) : VfdTable :=
  match world.getTable parent with
  | some table => table.cloneForFork
  | none => VfdTable.new

/-- `fork_fd_table`. -/
def forkFdTable (world : World) (parent child : VPid) : World :=
  world.replaceTable child (world.forkedTable parent)

/-- `remove_table`. -/
def removeTable (world : World) (vpid : VPid) : World :=
  match world.getTable vpid with
  | some table =>
      ({ world with tables := world.tables.erase vpid }).closeBuffers
        table.dropCloses
  | none => world

/--
The loop of `remove_table_and_get_fds`, with the numbers and references seen
so far.  Borrowed entries are collected as well.
-/
def collectFds (strongCount : ArcId → Nat) :
    List CInt → List ArcId → List Vfd → List (CInt × Origin)
  | _, _, [] => []
  | seenReal, seenFile, .real fd :: rest =>
      if fd ∈ seenReal then collectFds strongCount seenReal seenFile rest
      else
        (fd, .borrowed) ::
          collectFds strongCount (fd :: seenReal) seenFile rest
  | seenReal, seenFile, .file ref :: rest =>
      if ref.arc ∈ seenFile then
        collectFds strongCount seenReal seenFile rest
      else if strongCount ref.arc = 1 then
        (ref.realFd, .owned ref.arc) ::
          collectFds strongCount seenReal (ref.arc :: seenFile) rest
      else collectFds strongCount seenReal (ref.arc :: seenFile) rest
  | seenReal, seenFile, _ :: rest =>
      collectFds strongCount seenReal seenFile rest

/-- `remove_table_and_get_fds`. -/
def removeTableAndGetFds (world : World) (vpid : VPid) :
    World × List (CInt × Origin) :=
  match world.getTable vpid with
  | none => (world, [])
  | some table =>
      (world.removeTable vpid,
        collectFds world.strongCount [] [] (values table.fds))

/-- What reaping does for one finished process. -/
def reapTable (world : World) (vpid : VPid) : World :=
  let removed := world.removeTableAndGetFds vpid
  ({ removed.1 with
      pipeEnds := Function.update removed.1.pipeEnds vpid [] }).realCloseAll
    removed.2

/-- `cleanup`: the whole map is dropped. -/
def cleanup (world : World) : World :=
  ({ world with tables := ∅ }).closeBuffers
    ((values world.tables).flatMap VfdTable.dropCloses)

/-- `close_cloexec` on a process's table, with the closes of its caller. -/
def closeCloexecOf (world : World) (vpid : VPid) : World :=
  match world.getTable vpid with
  | some table =>
      (world.setTable vpid table.closeCloexec.1).realCloseAll
        (ownedFds table.closeCloexec.2)
  | none => world

/--
The descriptor inheritance of `virtual_execve_via_entry`: the new process gets
a copy of the caller's table, if there is a caller, without its close-on-exec
numbers.
-/
def execTable (world : World) (parent : Option VPid) (child : VPid) :
    World :=
  let inherited :=
    match parent with
    | some pid => world.forkFdTable pid child
    | none => world
  inherited.closeCloexecOf child

/-! ## The Rust interceptors -/

/-- The common part of `open`, `openat` and `creat`. -/
def insertOpened (world : World) (vpid : VPid) (cloexec : Bool)
    (answer : CInt) : World × CInt :=
  let opened := world.kernel.openFile answer
  if opened.2 < 0 then ({ world with kernel := opened.1 }, opened.2)
  else
    let inserted :=
      (world.tableOrNew vpid).insertFile world.nextArc opened.2 cloexec
    ({ world.setTable vpid inserted.1 with
        nextArc := world.nextArc + 1
        kernel := opened.1 },
      asCInt inserted.2)

/-- `flags & O_CLOEXEC != 0`. -/
def hasCloexec (flags : Nat) : Bool :=
  flags.testBit 19

/-- `open`; the kernel answers with a number or refuses. -/
def openPath (world : World) (vpid : VPid) (flags : Nat)
    (answer : CInt) : World × CInt :=
  world.insertOpened vpid (hasCloexec flags) answer

/-- `openat`. -/
def openatPath (world : World) (vpid : VPid) (flags : Nat)
    (answer : CInt) : World × CInt :=
  world.insertOpened vpid (hasCloexec flags) answer

/-- `creat`. -/
def creat (world : World) (vpid : VPid) (answer : CInt) : World × CInt :=
  world.insertOpened vpid false answer

/-- The source of `dup` and `dup2`, if it has a kernel descriptor. -/
def underlyingReal (table : VfdTable) (oldFd : CInt) : Option CInt :=
  (table.get (asU32 oldFd)).bind Vfd.kernelFd

/-- A `Result` as a C return value. -/
def replyOf : Except CInt Nat → CInt
  | .ok fd => asCInt fd
  | .error _ => -1

/-- `dup`. -/
def dup (world : World) (vpid : VPid) (oldFd answer : CInt) :
    World × CInt :=
  match world.getTable vpid with
  | none =>
      let dupped := world.kernel.dup oldFd answer
      ({ world with kernel := dupped.1 }, dupped.2)
  | some table =>
      match underlyingReal table oldFd with
      | some realFd =>
          let dupped := world.kernel.dup realFd answer
          if dupped.2 < 0 then ({ world with kernel := dupped.1 }, -1)
          else
            let inserted :=
              table.insertFile world.nextArc dupped.2 false
            ({ world.setTable vpid inserted.1 with
                nextArc := world.nextArc + 1
                kernel := dupped.1 },
              asCInt inserted.2)
      | none =>
          let dupped := table.dup (asU32 oldFd)
          ((world.setTable vpid dupped.table).closeBuffers dupped.closes,
            replyOf dupped.result)

/-- A process gives up a kernel number it got from `pipe`. -/
def forgetPipeEnd (world : World) (vpid : VPid) (fd : CInt) : World :=
  { world with
    pipeEnds :=
      Function.update world.pipeEnds vpid
        ((world.pipeEnds vpid).filter (· ≠ fd)) }

/-- `dup2`: a kernel source is duplicated onto the kernel number `new_fd`. -/
def dup2 (world : World) (vpid : VPid) (oldFd newFd : CInt) :
    World × CInt :=
  match world.getTable vpid with
  | none =>
      let dupped := world.kernel.dup2 oldFd newFd
      if dupped.2 < 0 then ({ world with kernel := dupped.1 }, dupped.2)
      else
        ({ world with kernel := dupped.1 }.forgetPipeEnd vpid newFd,
          dupped.2)
  | some table =>
      match underlyingReal table oldFd with
      | some realFd =>
          let dupped := world.kernel.dup2 realFd newFd
          if dupped.2 < 0 then ({ world with kernel := dupped.1 }, -1)
          else
            let placed :=
              table.insertAt (asU32 newFd)
                (.file
                  { arc := world.nextArc
                    realFd := newFd
                    cloexec := false })
            (({ world.setTable vpid placed.table with
                  nextArc := world.nextArc + 1
                  kernel := dupped.1 }.closeBuffers
                placed.closes).forgetPipeEnd vpid newFd,
              newFd)
      | none =>
          let dupped := table.dup2 (asU32 oldFd) (asU32 newFd)
          ((world.setTable vpid dupped.table).closeBuffers dupped.closes,
            replyOf dupped.result)

/-- `close`: a number which is not in the table is closed in the kernel. -/
def close (world : World) (vpid : VPid) (fd : CInt) : World × CInt :=
  if fd < 0 then (world, -1)
  else
    match world.getTable vpid with
    | none => (world.forgetPipeEnd vpid fd).realClose fd .raw
    | some table =>
        match table.get (asU32 fd) with
        | some (.real _) =>
            let closed := table.close (asU32 fd)
            ((world.setTable vpid closed.table).closeBuffers
                closed.closes,
              0)
        | some (.file _) =>
            let closed := table.closeFileFd (asU32 fd)
            ((world.setTable vpid closed.1).realCloseAll
                (ownedFds closed.2.toList),
              0)
        | some _ =>
            let closed := table.close (asU32 fd)
            ((world.setTable vpid closed.table).closeBuffers
                closed.closes,
              match closed.result with
              | .ok _ => 0
              | .error _ => -1)
        | none => (world.forgetPipeEnd vpid fd).realClose fd .raw

/-- `pipe`: two kernel numbers which enter no table. -/
def pipe (world : World) (vpid : VPid) (readFd writeFd : CInt) :
    World × CInt :=
  let made := world.kernel.pipe readFd writeFd
  if made.2 < 0 then ({ world with kernel := made.1 }, made.2)
  else
    ({ world with
        kernel := made.1
        pipeEnds :=
          Function.update world.pipeEnds vpid
            (readFd :: writeFd :: world.pipeEnds vpid) },
      made.2)

/-! ## The descriptor calls of the C interface -/

/-- `vproc_ffi_pipe`, a virtual pipe. -/
def ffiPipe (world : World) (vpid : VPid) : World × CInt :=
  let created := (world.tableOrNew vpid).createPipe world.nextArc
  ({ world.setTable vpid created.1 with
      pipes := Function.update world.pipes world.nextArc PipeBuffer.new
      buffers := world.nextArc :: world.buffers
      nextArc := world.nextArc + 1 },
    0)

/-- `vproc_ffi_dup`. -/
def ffiDup (world : World) (vpid : VPid) (oldFd : CInt) : World × CInt :=
  match world.getTable vpid with
  | none => (world, -1)
  | some table =>
      let dupped := table.dup (asU32 oldFd)
      ((world.setTable vpid dupped.table).closeBuffers dupped.closes,
        replyOf dupped.result)

/-- `vproc_ffi_dup2`. -/
def ffiDup2 (world : World) (vpid : VPid) (oldFd newFd : CInt) :
    World × CInt :=
  match world.getTable vpid with
  | none => (world, -1)
  | some table =>
      let dupped := table.dup2 (asU32 oldFd) (asU32 newFd)
      ((world.setTable vpid dupped.table).closeBuffers dupped.closes,
        replyOf dupped.result)

/-- `vproc_ffi_close`. -/
def ffiClose (world : World) (vpid : VPid) (fd : CInt) : World × CInt :=
  match world.getTable vpid with
  | none => (world, -1)
  | some table =>
      match table.get (asU32 fd) with
      | some (.file _) =>
          let closed := table.closeFileFd (asU32 fd)
          ((world.setTable vpid closed.1).realCloseAll
              (ownedFds closed.2.toList),
            0)
      | _ =>
          let closed := table.close (asU32 fd)
          ((world.setTable vpid closed.table).closeBuffers closed.closes,
            match closed.result with
            | .ok _ => 0
            | .error _ => -1)

/--
`insert_at` on a process's table.  A reference its caller has made for the
entry takes the next identity.
-/
def insertAt (world : World) (vpid : VPid) (fd : Nat) (vfd : Vfd) :
    World × CInt :=
  match world.getTable vpid with
  | none => (world, -1)
  | some table =>
      let placed := table.insertAt fd vfd
      ({ world.setTable vpid placed.table with
          nextArc := world.nextArc + 1 }.closeBuffers placed.closes,
        0)

/-- One attempt of `read` on a virtual pipe. -/
def readPipe (world : World) (vpid : VPid) (fd : CInt)
    (dst : List UInt8) : World × CInt :=
  match world.entry vpid (asU32 fd) with
  | some (.pipeRead buf) =>
      let read := (world.pipes buf).readFrom dst
      ({ world with pipes := Function.update world.pipes buf read.1 },
        read.2.result)
  | _ => (world, -1)

/-- One attempt of `write` on a virtual pipe. -/
def writePipe (world : World) (vpid : VPid) (fd : CInt)
    (src : List UInt8) : World × CInt :=
  match world.entry vpid (asU32 fd) with
  | some (.pipeWrite buf) =>
      let written := (world.pipes buf).writeTo src
      ({ world with pipes := Function.update world.pipes buf written.1 },
        written.2.result)
  | _ => (world, -1)

/-! ## Steps -/

/-- A descriptor call of a process, with the kernel's answers. -/
inductive SysCall where
  | openPath (flags : Nat) (answer : CInt)
  | openatPath (flags : Nat) (answer : CInt)
  | creat (answer : CInt)
  | dup (oldFd answer : CInt)
  | dup2 (oldFd newFd : CInt)
  | close (fd : CInt)
  | pipe (readFd writeFd : CInt)
  | ffiPipe
  | ffiDup (oldFd : CInt)
  | ffiDup2 (oldFd newFd : CInt)
  | ffiClose (fd : CInt)
  | insertAt (fd : Nat) (vfd : Vfd)
  | readPipe (fd : CInt) (dst : List UInt8)
  | writePipe (fd : CInt) (src : List UInt8)
deriving DecidableEq, Repr

/-- The effect and the return value of a call. -/
def sys (world : World) (vpid : VPid) : SysCall → World × CInt
  | .openPath flags answer => world.openPath vpid flags answer
  | .openatPath flags answer => world.openatPath vpid flags answer
  | .creat answer => world.creat vpid answer
  | .dup oldFd answer => world.dup vpid oldFd answer
  | .dup2 oldFd newFd => world.dup2 vpid oldFd newFd
  | .close fd => world.close vpid fd
  | .pipe readFd writeFd => world.pipe vpid readFd writeFd
  | .ffiPipe => world.ffiPipe vpid
  | .ffiDup oldFd => world.ffiDup vpid oldFd
  | .ffiDup2 oldFd newFd => world.ffiDup2 vpid oldFd newFd
  | .ffiClose fd => world.ffiClose vpid fd
  | .insertAt fd vfd => world.insertAt vpid fd vfd
  | .readPipe fd dst => world.readPipe vpid fd dst
  | .writePipe fd src => world.writePipe vpid fd src

/-- `raw_dup3`, the kernel call of the driver's descriptor swap. -/
def rawDup3 (world : World) (oldFd newFd : CInt) : World × CInt :=
  if oldFd < 0 ∨ oldFd = newFd then (world, 0)
  else
    let dupped := world.kernel.dup2 oldFd newFd
    ({ world with kernel := dupped.1 }, dupped.2)

/-- One operation on the descriptor world. -/
inductive FdOp where
  | createTable (vpid : VPid) (stdin stdout stderr : CInt)
  | sys (vpid : VPid) (call : SysCall)
  | fork (parent child : VPid)
  | exec (parent : Option VPid) (child : VPid)
  | removeTable (vpid : VPid)
  | reap (vpid : VPid)
  | cleanup
  | rawDup3 (oldFd newFd : CInt)
deriving DecidableEq, Repr

/-- The state after an operation. -/
def apply (world : World) : FdOp → World
  | .createTable vpid stdin stdout stderr =>
      world.createTableWithFds vpid stdin stdout stderr
  | .sys vpid call => (world.sys vpid call).1
  | .fork parent child => world.forkFdTable parent child
  | .exec parent child => world.execTable parent child
  | .removeTable vpid => world.removeTable vpid
  | .reap vpid => world.reapTable vpid
  | .cleanup => world.cleanup
  | .rawDup3 oldFd newFd => (world.rawDup3 oldFd newFd).1

/-- Does some table hold this entry? -/
def holds (world : World) (vfd : Vfd) : Bool :=
  (values world.tables).any fun table =>
    (values table.fds).any fun other => other == vfd

/--
The entries a caller of `insert_at` can have: a clone of one in some table, a
borrowed number, or a new reference.
-/
def available (world : World) : Vfd → Bool
  | .real _ => true
  | .file ref => ref.arc == world.nextArc || world.holds (.file ref)
  | vfd => world.holds vfd

/-- The operations a caller can perform; only `insert_at` takes an entry. -/
def admits (world : World) : FdOp → Bool
  | .sys _ (.insertAt _ vfd) => world.available vfd
  | _ => true

/-- One step of the descriptor world. -/
def step (world : World) (op : FdOp) : Option World :=
  if world.admits op then some (world.apply op) else none

end World

end Vproc.Fd.Runtime
