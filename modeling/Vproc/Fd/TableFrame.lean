import Vproc.Fd.Effects

/-!
# Which tables an operation touches

The tables of all processes stand in one map.  An operation on the descriptor
world inserts, changes or removes the table of one process, except for
`cleanup`, which drops the whole map.  The tables of other processes are the
same afterwards.
-/

namespace Vproc.Fd.TableFrame

open Vproc.Lib.FiniteMap
open Vproc.Fd.Table
open Vproc.Fd.Runtime
open Vproc.Fd.Runtime.World
open Vproc.Fd.Effects

/-- The map is the same, or differs in the table of one process. -/
def ChangesOnly (vpid : VPid) (before after : World) : Prop :=
  ∀ other, other ≠ vpid → after.getTable other = before.getTable other

theorem changesOnly_refl (vpid : VPid) (world : World) :
    ChangesOnly vpid world world :=
  fun _ _ => rfl

theorem changesOnly_trans
    {vpid : VPid} {first second third : World}
    (left : ChangesOnly vpid first second)
    (right : ChangesOnly vpid second third) :
    ChangesOnly vpid first third :=
  fun other different =>
    (right other different).trans (left other different)

theorem changesOnly_of_same
    {vpid : VPid} {before after : World}
    (same : after.tables = before.tables) :
    ChangesOnly vpid before after :=
  fun other _ => getTable_congr same other

theorem changesOnly_of_setTable
    {vpid : VPid} {before after : World} {table : VfdTable}
    (same : after.tables = (before.setTable vpid table).tables) :
    ChangesOnly vpid before after := by
  intro other different
  rw [getTable_congr same, getTable_setTable, if_neg different]

theorem changesOnly_of_erase
    {vpid : VPid} {before after : World}
    (same : after.tables = before.tables.erase vpid) :
    ChangesOnly vpid before after := by
  intro other different
  rw [getTable, same]
  exact (lookup_erase_eq before.tables vpid other).trans (if_neg different)

section Calls

variable (world : World) (vpid : VPid)

theorem changesOnly_insertOpened (cloexec : Bool) (answer : CInt) :
    ChangesOnly vpid world (world.insertOpened vpid cloexec answer).1 := by
  unfold insertOpened
  dsimp only
  split
  · exact changesOnly_of_same rfl
  · exact changesOnly_of_setTable rfl

theorem changesOnly_dup (oldFd answer : CInt) :
    ChangesOnly vpid world (world.dup vpid oldFd answer).1 := by
  unfold dup
  split
  · exact changesOnly_of_same rfl
  · split
    · dsimp only
      split
      · exact changesOnly_of_same rfl
      · exact changesOnly_of_setTable rfl
    · exact changesOnly_of_setTable rfl

theorem changesOnly_dup2 (oldFd newFd : CInt) :
    ChangesOnly vpid world (world.dup2 vpid oldFd newFd).1 := by
  unfold dup2
  split
  · dsimp only
    split
    · exact changesOnly_of_same rfl
    · exact changesOnly_of_same rfl
  · split
    · dsimp only
      split
      · exact changesOnly_of_same rfl
      · exact changesOnly_of_setTable rfl
    · exact changesOnly_of_setTable rfl

theorem changesOnly_close (fd : CInt) :
    ChangesOnly vpid world (world.close vpid fd).1 := by
  unfold close
  split
  · exact changesOnly_refl vpid world
  · split
    · exact changesOnly_of_same rfl
    · split
      · exact changesOnly_of_setTable rfl
      · exact changesOnly_of_setTable (realCloseAll_tables _ _)
      · exact changesOnly_of_setTable rfl
      · exact changesOnly_of_same rfl

theorem changesOnly_ffiDup (oldFd : CInt) :
    ChangesOnly vpid world (world.ffiDup vpid oldFd).1 := by
  unfold ffiDup
  split
  · exact changesOnly_refl vpid world
  · exact changesOnly_of_setTable rfl

theorem changesOnly_ffiDup2 (oldFd newFd : CInt) :
    ChangesOnly vpid world (world.ffiDup2 vpid oldFd newFd).1 := by
  unfold ffiDup2
  split
  · exact changesOnly_refl vpid world
  · exact changesOnly_of_setTable rfl

theorem changesOnly_ffiClose (fd : CInt) :
    ChangesOnly vpid world (world.ffiClose vpid fd).1 := by
  unfold ffiClose
  split
  · exact changesOnly_refl vpid world
  · split
    · exact changesOnly_of_setTable (realCloseAll_tables _ _)
    · exact changesOnly_of_setTable rfl

theorem changesOnly_insertAt (fd : Nat) (vfd : Vfd) :
    ChangesOnly vpid world (world.insertAt vpid fd vfd).1 := by
  unfold insertAt
  split
  · exact changesOnly_refl vpid world
  · exact changesOnly_of_setTable rfl

/-- A descriptor call touches the table of its process. -/
theorem changesOnly_sys (call : SysCall) :
    ChangesOnly vpid world (world.sys vpid call).1 := by
  cases call with
  | openPath flags answer => exact changesOnly_insertOpened _ _ _ _
  | openatPath flags answer => exact changesOnly_insertOpened _ _ _ _
  | creat answer => exact changesOnly_insertOpened _ _ _ _
  | dup oldFd answer => exact changesOnly_dup _ _ _ _
  | dup2 oldFd newFd => exact changesOnly_dup2 _ _ _ _
  | close fd => exact changesOnly_close _ _ _
  | pipe readFd writeFd =>
      exact changesOnly_of_same (pipe_tables world vpid readFd writeFd)
  | ffiPipe => exact changesOnly_of_setTable rfl
  | ffiDup oldFd => exact changesOnly_ffiDup _ _ _
  | ffiDup2 oldFd newFd => exact changesOnly_ffiDup2 _ _ _ _
  | ffiClose fd => exact changesOnly_ffiClose _ _ _
  | insertAt fd vfd => exact changesOnly_insertAt _ _ _ _
  | readPipe fd dst =>
      exact changesOnly_of_same (readPipe_tables world vpid fd dst)
  | writePipe fd src =>
      exact changesOnly_of_same (writePipe_tables world vpid fd src)

theorem changesOnly_createTableWithFds (stdin stdout stderr : CInt) :
    ChangesOnly vpid world
      (world.createTableWithFds vpid stdin stdout stderr) :=
  changesOnly_of_setTable rfl

theorem changesOnly_forkFdTable (parent : VPid) :
    ChangesOnly vpid world (world.forkFdTable parent vpid) :=
  changesOnly_of_setTable rfl

theorem changesOnly_closeCloexecOf :
    ChangesOnly vpid world (world.closeCloexecOf vpid) := by
  unfold closeCloexecOf
  split
  · exact changesOnly_of_setTable (realCloseAll_tables _ _)
  · exact changesOnly_refl vpid world

/-- A new process: the table under its number is the only one touched. -/
theorem changesOnly_execTable (parent : Option VPid) :
    ChangesOnly vpid world (world.execTable parent vpid) := by
  cases parent with
  | none => exact changesOnly_closeCloexecOf world vpid
  | some parent =>
      exact
        changesOnly_trans (changesOnly_forkFdTable world vpid parent)
          (changesOnly_closeCloexecOf _ vpid)

theorem changesOnly_reapTable :
    ChangesOnly vpid world (world.reapTable vpid) :=
  changesOnly_of_erase (reapTable_tables world vpid)

end Calls

/-- Reaping touches the tables of the reaped processes. -/
theorem getTable_reapTables
    (pids : List VPid) (world : World) {other : VPid}
    (spared : other ∉ pids) :
    (pids.foldl reapTable world).getTable other =
      world.getTable other := by
  induction pids generalizing world with
  | nil => rfl
  | cons pid rest induction =>
      have different := List.ne_of_not_mem_cons spared
      have later := List.not_mem_of_not_mem_cons spared
      exact
        (induction (world.reapTable pid) later).trans
          (changesOnly_reapTable world pid other different)

theorem rawDup3_tables (world : World) (oldFd newFd : CInt) :
    (world.rawDup3 oldFd newFd).1.tables = world.tables := by
  unfold rawDup3
  split
  · rfl
  · rfl

end Vproc.Fd.TableFrame
