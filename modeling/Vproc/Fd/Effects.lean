import Vproc.Fd.Runtime

/-!
# What an operation does to entries and buffers

Every operation on the descriptor world is summed up here in terms of the
state it starts in: the numbers it changes, with what it leaves there
(`effect`), and the pipe buffers it closes (`Releases`).  The properties of
whole runs are proved from these summaries and not from the functions.
-/

namespace Vproc.Fd.Effects

open Vproc.Lib.FiniteMap
open Vproc.Fd.PipeRing
open Vproc.Fd.Table
open Vproc.Fd.KernelTable
open Vproc.Fd.Runtime
open Vproc.Fd.Runtime.World

/-! ## The parts of the state which an auxiliary function touches -/

@[simp]
theorem realClose_tables (world : World) (fd : CInt) (origin : Origin) :
    (world.realClose fd origin).1.tables = world.tables :=
  rfl

@[simp]
theorem realCloseAll_tables
    (fds : List (CInt × Origin)) (world : World) :
    (world.realCloseAll fds).tables = world.tables := by
  induction fds generalizing world with
  | nil => rfl
  | cons first rest induction =>
      exact induction (world.realClose first.1 first.2).1

@[simp]
theorem realCloseAll_pipes
    (fds : List (CInt × Origin)) (world : World) :
    (world.realCloseAll fds).pipes = world.pipes := by
  induction fds generalizing world with
  | nil => rfl
  | cons first rest induction =>
      exact induction (world.realClose first.1 first.2).1

/-- A table lookup depends on the map of tables only. -/
theorem getTable_congr
    {left right : World} (same : left.tables = right.tables)
    (vpid : VPid) :
    left.getTable vpid = right.getTable vpid := by
  rw [getTable, getTable, same]

theorem entry_congr
    {left right : World} (same : left.tables = right.tables)
    (vpid : VPid) (number : Nat) :
    left.entry vpid number = right.entry vpid number := by
  rw [entry, entry, getTable_congr same]

theorem getTable_setTable
    (world : World) (vpid other : VPid) (table : VfdTable) :
    (world.setTable vpid table).getTable other =
      if other = vpid then some table else world.getTable other :=
  lookup_insert_eq world.tables vpid other table

theorem entry_setTable
    (world : World) (vpid other : VPid) (table : VfdTable)
    (number : Nat) :
    (world.setTable vpid table).entry other number =
      if other = vpid then table.get number
      else world.entry other number := by
  rw [entry, getTable_setTable]
  by_cases same : other = vpid
  · simp [same]
  · simp [same, entry]

theorem entry_of_getTable
    {world : World} {vpid : VPid} {table : VfdTable}
    (found : world.getTable vpid = some table) (number : Nat) :
    world.entry vpid number = table.get number := by
  rw [entry, found, Option.bind_some]

theorem entry_of_getTable_none
    {world : World} {vpid : VPid}
    (missing : world.getTable vpid = none) (number : Nat) :
    world.entry vpid number = none := by
  rw [entry, missing, Option.bind_none]

@[simp]
theorem replaceTable_tables
    (world : World) (vpid : VPid) (table : VfdTable) :
    (world.replaceTable vpid table).tables =
      (world.setTable vpid table).tables :=
  rfl

theorem removeTable_tables (world : World) (vpid : VPid) :
    (world.removeTable vpid).tables = world.tables.erase vpid := by
  unfold removeTable
  cases found : world.getTable vpid with
  | none =>
      have absent : vpid ∉ world.tables := AList.lookup_eq_none.mp found
      exact (AList.ext (List.kerase_of_notMem_keys absent)).symm
  | some table => rfl

theorem removeTableAndGetFds_tables (world : World) (vpid : VPid) :
    (world.removeTableAndGetFds vpid).1.tables =
      (world.removeTable vpid).tables := by
  unfold removeTableAndGetFds
  cases found : world.getTable vpid with
  | none => simp [removeTable, found]
  | some table => rfl

theorem reapTable_tables (world : World) (vpid : VPid) :
    (world.reapTable vpid).tables = world.tables.erase vpid := by
  rw [reapTable, realCloseAll_tables, ← removeTable_tables,
    ← removeTableAndGetFds_tables]

/-! ## The calls which ask the kernel, by the kernel's answer -/

theorem insertOpened_granted
    (world : World) (vpid : VPid) (cloexec : Bool) {answer : CInt}
    (usable : world.kernel.usable answer = true) :
    world.insertOpened vpid cloexec answer =
      ({ world.setTable vpid
            ((world.tableOrNew vpid).insertFile world.nextArc answer
              cloexec).1 with
          nextArc := world.nextArc + 1
          kernel := (world.kernel.openFile answer).1 },
        asCInt (world.tableOrNew vpid).nextFd) := by
  have succeeds : ¬ (world.kernel.openFile answer).2 < 0 := by
    rw [Kernel.openFile_neg_iff]
    exact not_not_intro usable
  rw [insertOpened]
  dsimp only
  rw [if_neg succeeds, Kernel.openFile_reply _ usable]
  rfl

theorem insertOpened_refused
    (world : World) (vpid : VPid) (cloexec : Bool) {answer : CInt}
    (unusable : ¬ world.kernel.usable answer = true) :
    world.insertOpened vpid cloexec answer = (world, -1) := by
  rw [insertOpened, Kernel.openFile_refused _ unusable]
  rfl

section Sources

variable {world : World} {vpid : VPid} {table : VfdTable}
variable (found : world.getTable vpid = some table)

include found

theorem dup_granted
    {oldFd realFd answer : CInt}
    (source : underlyingReal table oldFd = some realFd)
    (possible : (world.kernel.files realFd).isSome = true ∧
      world.kernel.usable answer = true) :
    world.dup vpid oldFd answer =
      ({ world.setTable vpid
            (table.insertFile world.nextArc answer false).1 with
          nextArc := world.nextArc + 1
          kernel := (world.kernel.dup realFd answer).1 },
        asCInt table.nextFd) := by
  have succeeds : ¬ (world.kernel.dup realFd answer).2 < 0 := by
    rw [Kernel.dup_neg_iff]
    exact not_not_intro possible
  simp only [dup, found, source]
  rw [if_neg succeeds, Kernel.dup_reply _ possible]
  rfl

theorem dup_refused
    {oldFd realFd answer : CInt}
    (source : underlyingReal table oldFd = some realFd)
    (impossible : ¬ ((world.kernel.files realFd).isSome = true ∧
      world.kernel.usable answer = true)) :
    world.dup vpid oldFd answer = (world, -1) := by
  simp only [dup, found, source, Kernel.dup_refused _ impossible]
  rfl

theorem dup_virtual
    {oldFd : CInt} (answer : CInt)
    (source : underlyingReal table oldFd = none) :
    world.dup vpid oldFd answer =
      ((world.setTable vpid (table.dup (asU32 oldFd)).table).closeBuffers
          (table.dup (asU32 oldFd)).closes,
        replyOf (table.dup (asU32 oldFd)).result) := by
  simp only [dup, found, source]

theorem dup2_granted
    {oldFd realFd newFd : CInt}
    (source : underlyingReal table oldFd = some realFd)
    (possible : (world.kernel.files realFd).isSome = true ∧
      world.kernel.inRange newFd = true) :
    world.dup2 vpid oldFd newFd =
      (({ world.setTable vpid
              (table.insertAt (asU32 newFd)
                (.file
                  { arc := world.nextArc
                    realFd := newFd
                    cloexec := false })).table with
            nextArc := world.nextArc + 1
            kernel := (world.kernel.dup2 realFd newFd).1 }.closeBuffers
          (table.close (asU32 newFd)).closes).forgetPipeEnd vpid newFd,
        newFd) := by
  have succeeds : ¬ (world.kernel.dup2 realFd newFd).2 < 0 := by
    rw [Kernel.dup2_neg_iff]
    exact not_not_intro possible
  simp only [dup2, found, source]
  rw [if_neg succeeds, VfdTable.insertAt_closes]

theorem dup2_refused
    {oldFd realFd newFd : CInt}
    (source : underlyingReal table oldFd = some realFd)
    (impossible : ¬ ((world.kernel.files realFd).isSome = true ∧
      world.kernel.inRange newFd = true)) :
    world.dup2 vpid oldFd newFd = (world, -1) := by
  simp only [dup2, found, source, Kernel.dup2_refused _ impossible]
  rfl

theorem dup2_virtual
    {oldFd : CInt} (newFd : CInt)
    (source : underlyingReal table oldFd = none) :
    world.dup2 vpid oldFd newFd =
      ((world.setTable vpid
            (table.dup2 (asU32 oldFd) (asU32 newFd)).table).closeBuffers
          (table.dup2 (asU32 oldFd) (asU32 newFd)).closes,
        replyOf (table.dup2 (asU32 oldFd) (asU32 newFd)).result) := by
  simp only [dup2, found, source]

end Sources

/-! ## The change an operation makes at a number -/

/-- No change, or the entry which is left at the number. -/
abbrev Change := Option (Option Vfd)

/-- The change of an operation which touches one number. -/
def changeAt (fd : Nat) (left : Option Vfd) (number : Nat) : Change :=
  if number = fd then some left else none

/-- A missing table is made with the default entries. -/
def defaultChange (world : World) (vpid : VPid) (number : Nat) : Change :=
  match world.getTable vpid with
  | none => some (VfdTable.new.get number)
  | some _ => none

/-- The change of `open`, `openat` and `creat`. -/
def openedChange (world : World) (vpid : VPid) (cloexec : Bool)
    (answer : CInt) (number : Nat) : Change :=
  if world.kernel.usable answer then
    (changeAt (world.tableOrNew vpid).nextFd
        (some (.file { arc := world.nextArc, realFd := answer, cloexec }))
        number).or
      (defaultChange world vpid number)
  else none

/-- The change of the `dup` and `dup2` of a table, from one number to another. -/
def copiedChange (table : VfdTable) (oldFd newFd : Nat)
    (number : Nat) : Change :=
  changeAt newFd (if oldFd = newFd then none else table.get oldFd) number

/-- The change a call makes at a number of its process. -/
def callChange (world : World) (vpid : VPid) :
    SysCall → Nat → Change
  | .openPath flags answer, number =>
      openedChange world vpid (hasCloexec flags) answer number
  | .openatPath flags answer, number =>
      openedChange world vpid (hasCloexec flags) answer number
  | .creat answer, number => openedChange world vpid false answer number
  | .dup oldFd answer, number =>
      match world.getTable vpid with
      | none => none
      | some table =>
          match underlyingReal table oldFd with
          | some realFd =>
              if (world.kernel.files realFd).isSome ∧
                  world.kernel.usable answer then
                changeAt table.nextFd
                  (some
                    (.file
                      { arc := world.nextArc
                        realFd := answer
                        cloexec := false }))
                  number
              else none
          | none => copiedChange table (asU32 oldFd) table.nextFd number
  | .dup2 oldFd newFd, number =>
      match world.getTable vpid with
      | none => none
      | some table =>
          match underlyingReal table oldFd with
          | some realFd =>
              if (world.kernel.files realFd).isSome ∧
                  world.kernel.inRange newFd then
                changeAt (asU32 newFd)
                  (some
                    (.file
                      { arc := world.nextArc
                        realFd := newFd
                        cloexec := false }))
                  number
              else none
          | none => copiedChange table (asU32 oldFd) (asU32 newFd) number
  | .close fd, number =>
      if fd < 0 then none else changeAt (asU32 fd) none number
  | .ffiPipe, number =>
      ((changeAt (world.tableOrNew vpid).allocFd.1.nextFd
            (some (.pipeWrite world.nextArc)) number).or
          (changeAt (world.tableOrNew vpid).nextFd
            (some (.pipeRead world.nextArc)) number)).or
        (defaultChange world vpid number)
  | .ffiDup oldFd, number =>
      match world.getTable vpid with
      | none => none
      | some table => copiedChange table (asU32 oldFd) table.nextFd number
  | .ffiDup2 oldFd newFd, number =>
      match world.getTable vpid with
      | none => none
      | some table =>
          copiedChange table (asU32 oldFd) (asU32 newFd) number
  | .ffiClose fd, number => changeAt (asU32 fd) none number
  | .insertAt fd vfd, number =>
      match world.getTable vpid with
      | none => none
      | some _ => changeAt fd (some vfd) number
  | .pipe _ _, _ => none
  | .readPipe _ _, _ => none
  | .writePipe _ _, _ => none

/-- The change an operation makes at a number of a process. -/
def effect (world : World) : FdOp → VPid → Nat → Change
  | .createTable vpid stdin stdout stderr, other, number =>
      if other = vpid then
        some ((VfdTable.newWithFds stdin stdout stderr).get number)
      else none
  | .sys vpid call, other, number =>
      if other = vpid then callChange world vpid call number else none
  | .fork parent child, other, number =>
      if other = child then some ((world.forkedTable parent).get number)
      else none
  | .exec (some parent) child, other, number =>
      if other = child then
        some (((world.forkedTable parent).get number).filter
          fun vfd => !VfdTable.isCloexec vfd)
      else none
  | .exec none child, other, number =>
      if other = child ∧
          (world.entry other number).any VfdTable.isCloexec then
        some none
      else none
  | .removeTable vpid, other, _ => if other = vpid then some none else none
  | .reap vpid, other, _ => if other = vpid then some none else none
  | .cleanup, _, _ => some none
  | .rawDup3 _ _, _, _ => none

theorem getD_changeAt
    (fd number : Nat) (left before : Option Vfd) :
    (changeAt fd left number).getD before =
      if number = fd then left else before := by
  unfold changeAt
  split <;> rfl

/-- A table with one number put in it, in terms of the world before. -/
theorem getD_changeAt_or_defaultChange
    (world : World) (vpid : VPid) (change : Change) (number : Nat) :
    ((change.or (defaultChange world vpid number)).getD
        (world.entry vpid number)) =
      change.getD ((world.tableOrNew vpid).get number) := by
  unfold defaultChange tableOrNew
  cases found : world.getTable vpid with
  | none => cases change <;> simp
  | some table =>
      cases change with
      | none => simp [entry_of_getTable found]
      | some left => simp

/-- The entries after a step which leaves all tables as they are. -/
theorem entry_of_same
    {world next : World} (tables : next.tables = world.tables)
    (vpid other : VPid) (number : Nat) :
    next.entry other number =
      if other = vpid then
        (none : Change).getD (world.entry vpid number)
      else world.entry other number := by
  rw [entry_congr tables]
  by_cases same : other = vpid
  · simp [same]
  · simp [same]

/-- The entries after a step which stores one table. -/
theorem entry_of_setTable
    {world next : World} {vpid : VPid} {table : VfdTable}
    (tables : next.tables = (world.setTable vpid table).tables)
    {number : Nat} {change : Change}
    (agree : table.get number =
      change.getD (world.entry vpid number))
    (other : VPid) :
    next.entry other number =
      if other = vpid then change.getD (world.entry vpid number)
      else world.entry other number := by
  rw [entry_congr tables, entry_setTable, agree]

theorem entry_insertOpened
    (world : World) (vpid : VPid) (cloexec : Bool) (answer : CInt)
    (other : VPid) (number : Nat) :
    (world.insertOpened vpid cloexec answer).1.entry other number =
      if other = vpid then
        (openedChange world vpid cloexec answer number).getD
          (world.entry vpid number)
      else world.entry other number := by
  by_cases usable : world.kernel.usable answer = true
  · rw [insertOpened_granted world vpid cloexec usable]
    apply entry_of_setTable rfl
    rw [openedChange, if_pos usable, getD_changeAt_or_defaultChange,
      getD_changeAt]
    exact VfdTable.get_insertFile _ _ _ _ _
  · rw [insertOpened_refused world vpid cloexec usable, openedChange,
      if_neg usable]
    exact entry_of_same rfl vpid other number

theorem get_dup2_eq_copiedChange
    {world : World} {vpid : VPid} {table : VfdTable}
    (found : world.getTable vpid = some table)
    (oldFd newFd number : Nat) :
    (table.dup2 oldFd newFd).table.get number =
      (copiedChange table oldFd newFd number).getD
        (world.entry vpid number) := by
  rw [copiedChange, getD_changeAt, VfdTable.get_dup2,
    entry_of_getTable found]

theorem get_dup_eq_copiedChange
    {world : World} {vpid : VPid} {table : VfdTable}
    (found : world.getTable vpid = some table)
    (oldFd number : Nat) :
    (table.dup oldFd).table.get number =
      (copiedChange table oldFd table.nextFd number).getD
        (world.entry vpid number) := by
  rw [copiedChange, getD_changeAt, VfdTable.get_dup,
    entry_of_getTable found]

theorem entry_dup
    (world : World) (vpid : VPid) (oldFd answer : CInt)
    (other : VPid) (number : Nat) :
    (world.dup vpid oldFd answer).1.entry other number =
      if other = vpid then
        (callChange world vpid (.dup oldFd answer) number).getD
          (world.entry vpid number)
      else world.entry other number := by
  cases found : world.getTable vpid with
  | none =>
      simp only [dup, callChange, found]
      exact entry_of_same rfl vpid other number
  | some table =>
      cases source : underlyingReal table oldFd with
      | none =>
          rw [dup_virtual found answer source]
          simp only [callChange, found, source]
          exact
            entry_of_setTable rfl
              (get_dup_eq_copiedChange found (asU32 oldFd) number) other
      | some realFd =>
          simp only [callChange, found, source]
          by_cases possible :
              (world.kernel.files realFd).isSome = true ∧
                world.kernel.usable answer = true
          · rw [dup_granted found source possible, if_pos possible]
            apply entry_of_setTable rfl
            rw [getD_changeAt, entry_of_getTable found]
            exact VfdTable.get_insertFile _ _ _ _ _
          · rw [dup_refused found source possible, if_neg possible]
            exact entry_of_same rfl vpid other number

theorem entry_dup2
    (world : World) (vpid : VPid) (oldFd newFd : CInt)
    (other : VPid) (number : Nat) :
    (world.dup2 vpid oldFd newFd).1.entry other number =
      if other = vpid then
        (callChange world vpid (.dup2 oldFd newFd) number).getD
          (world.entry vpid number)
      else world.entry other number := by
  cases found : world.getTable vpid with
  | none =>
      simp only [dup2, callChange, found]
      split
      · exact entry_of_same rfl vpid other number
      · exact entry_of_same rfl vpid other number
  | some table =>
      cases source : underlyingReal table oldFd with
      | none =>
          rw [dup2_virtual found newFd source]
          simp only [callChange, found, source]
          exact
            entry_of_setTable rfl
              (get_dup2_eq_copiedChange found (asU32 oldFd) (asU32 newFd)
                number)
              other
      | some realFd =>
          simp only [callChange, found, source]
          by_cases possible :
              (world.kernel.files realFd).isSome = true ∧
                world.kernel.inRange newFd = true
          · rw [dup2_granted found source possible, if_pos possible]
            apply entry_of_setTable rfl
            rw [getD_changeAt, entry_of_getTable found]
            exact VfdTable.get_insertAt _ _ _ _
          · rw [dup2_refused found source possible, if_neg possible]
            exact entry_of_same rfl vpid other number

/-- Both ways of removing an entry leave the same numbers. -/
theorem get_closeFileFd_of_file
    {table : VfdTable} {fd : Nat} {ref : FileRef}
    (found : table.get fd = some (.file ref)) (number : Nat) :
    (table.closeFileFd fd).1.get number =
      if number = fd then none else table.get number := by
  rw [VfdTable.get_closeFileFd]
  by_cases same : number = fd
  · subst number
    simp [found, Vfd.fileArc]
  · simp [same]

theorem entry_close
    (world : World) (vpid : VPid) (fd : CInt)
    (other : VPid) (number : Nat) :
    (world.close vpid fd).1.entry other number =
      if other = vpid then
        (callChange world vpid (.close fd) number).getD
          (world.entry vpid number)
      else world.entry other number := by
  unfold close
  simp only [callChange]
  by_cases negative : fd < 0
  · simp only [negative, if_true]
    exact entry_of_same rfl vpid other number
  · simp only [negative, if_false]
    cases found : world.getTable vpid with
    | none =>
        have unchanged :=
          @entry_of_same world
            ((world.forgetPipeEnd vpid fd).realClose fd .raw).1
            rfl vpid other number
        rw [unchanged, getD_changeAt, entry_of_getTable_none found]
        simp
    | some table =>
        have agree (closed : VfdTable)
            (removed : closed.get number =
              if number = asU32 fd then none else table.get number) :
            closed.get number =
              (changeAt (asU32 fd) none number).getD
                (world.entry vpid number) := by
          rw [removed, getD_changeAt, entry_of_getTable found]
        dsimp only
        split
        · exact
            entry_of_setTable rfl
              (agree _ (VfdTable.get_close table (asU32 fd) number)) other
        · rename_i ref stored
          exact
            entry_of_setTable (realCloseAll_tables _ _)
              (agree _ (get_closeFileFd_of_file stored number)) other
        · exact
            entry_of_setTable rfl
              (agree _ (VfdTable.get_close table (asU32 fd) number)) other
        · rename_i missing
          have unchanged :=
            @entry_of_same world
              ((world.forgetPipeEnd vpid fd).realClose fd .raw).1
              rfl vpid other number
          rw [unchanged, getD_changeAt, entry_of_getTable found]
          by_cases same : number = asU32 fd
          · simp [same, missing]
          · simp [same]

theorem entry_ffiPipe
    (world : World) (vpid : VPid) (other : VPid) (number : Nat) :
    (world.ffiPipe vpid).1.entry other number =
      if other = vpid then
        (callChange world vpid .ffiPipe number).getD
          (world.entry vpid number)
      else world.entry other number := by
  unfold ffiPipe
  simp only [callChange]
  apply entry_of_setTable rfl
  rw [getD_changeAt_or_defaultChange, VfdTable.get_createPipe]
  unfold changeAt
  split
  · rfl
  · split
    · rfl
    · rfl

theorem entry_ffiDup
    (world : World) (vpid : VPid) (oldFd : CInt)
    (other : VPid) (number : Nat) :
    (world.ffiDup vpid oldFd).1.entry other number =
      if other = vpid then
        (callChange world vpid (.ffiDup oldFd) number).getD
          (world.entry vpid number)
      else world.entry other number := by
  unfold ffiDup
  cases found : world.getTable vpid with
  | none =>
      simp only [callChange, found]
      exact entry_of_same rfl vpid other number
  | some table =>
      simp only [callChange, found]
      exact
        entry_of_setTable rfl
          (get_dup_eq_copiedChange found (asU32 oldFd) number) other

theorem entry_ffiDup2
    (world : World) (vpid : VPid) (oldFd newFd : CInt)
    (other : VPid) (number : Nat) :
    (world.ffiDup2 vpid oldFd newFd).1.entry other number =
      if other = vpid then
        (callChange world vpid (.ffiDup2 oldFd newFd) number).getD
          (world.entry vpid number)
      else world.entry other number := by
  unfold ffiDup2
  cases found : world.getTable vpid with
  | none =>
      simp only [callChange, found]
      exact entry_of_same rfl vpid other number
  | some table =>
      simp only [callChange, found]
      exact
        entry_of_setTable rfl
          (get_dup2_eq_copiedChange found (asU32 oldFd) (asU32 newFd)
            number)
          other

theorem entry_ffiClose
    (world : World) (vpid : VPid) (fd : CInt)
    (other : VPid) (number : Nat) :
    (world.ffiClose vpid fd).1.entry other number =
      if other = vpid then
        (callChange world vpid (.ffiClose fd) number).getD
          (world.entry vpid number)
      else world.entry other number := by
  unfold ffiClose
  simp only [callChange]
  cases found : world.getTable vpid with
  | none =>
      rw [getD_changeAt, entry_of_getTable_none found, ite_self]
      by_cases same : other = vpid
      · simp [same, entry_of_getTable_none found]
      · simp [same]
  | some table =>
      dsimp only
      split
      · rename_i ref stored
        apply entry_of_setTable (realCloseAll_tables _ _)
        rw [get_closeFileFd_of_file stored, getD_changeAt,
          entry_of_getTable found]
      · apply entry_of_setTable rfl
        rw [VfdTable.get_close, getD_changeAt, entry_of_getTable found]

theorem entry_insertAt
    (world : World) (vpid : VPid) (fd : Nat) (vfd : Vfd)
    (other : VPid) (number : Nat) :
    (world.insertAt vpid fd vfd).1.entry other number =
      if other = vpid then
        (callChange world vpid (.insertAt fd vfd) number).getD
          (world.entry vpid number)
      else world.entry other number := by
  unfold insertAt
  cases found : world.getTable vpid with
  | none =>
      simp only [callChange, found]
      exact entry_of_same rfl vpid other number
  | some table =>
      simp only [callChange, found]
      apply entry_of_setTable rfl
      rw [VfdTable.get_insertAt, getD_changeAt, entry_of_getTable found]

theorem pipe_tables
    (world : World) (vpid : VPid) (readFd writeFd : CInt) :
    (world.pipe vpid readFd writeFd).1.tables = world.tables := by
  unfold pipe
  dsimp only
  split <;> rfl

theorem readPipe_tables
    (world : World) (vpid : VPid) (fd : CInt) (dst : List UInt8) :
    (world.readPipe vpid fd dst).1.tables = world.tables := by
  unfold readPipe
  split <;> rfl

theorem writePipe_tables
    (world : World) (vpid : VPid) (fd : CInt) (src : List UInt8) :
    (world.writePipe vpid fd src).1.tables = world.tables := by
  unfold writePipe
  split <;> rfl

/-- The entries after a descriptor call. -/
theorem entry_sys
    (world : World) (vpid : VPid) (call : SysCall)
    (other : VPid) (number : Nat) :
    (world.sys vpid call).1.entry other number =
      if other = vpid then
        (callChange world vpid call number).getD
          (world.entry vpid number)
      else world.entry other number := by
  cases call with
  | openPath flags answer =>
      exact entry_insertOpened world vpid _ answer other number
  | openatPath flags answer =>
      exact entry_insertOpened world vpid _ answer other number
  | creat answer =>
      exact entry_insertOpened world vpid _ answer other number
  | dup oldFd answer =>
      exact entry_dup world vpid oldFd answer other number
  | dup2 oldFd newFd =>
      exact entry_dup2 world vpid oldFd newFd other number
  | close fd => exact entry_close world vpid fd other number
  | pipe readFd writeFd =>
      exact
        entry_of_same (pipe_tables world vpid readFd writeFd) vpid other
          number
  | ffiPipe => exact entry_ffiPipe world vpid other number
  | ffiDup oldFd => exact entry_ffiDup world vpid oldFd other number
  | ffiDup2 oldFd newFd =>
      exact entry_ffiDup2 world vpid oldFd newFd other number
  | ffiClose fd => exact entry_ffiClose world vpid fd other number
  | insertAt fd vfd =>
      exact entry_insertAt world vpid fd vfd other number
  | readPipe fd dst =>
      exact
        entry_of_same (readPipe_tables world vpid fd dst) vpid other
          number
  | writePipe fd src =>
      exact
        entry_of_same (writePipe_tables world vpid fd src) vpid other
          number

theorem entry_erase
    {world next : World} {vpid : VPid}
    (tables : next.tables = world.tables.erase vpid)
    (other : VPid) (number : Nat) :
    next.entry other number =
      if other = vpid then none else world.entry other number := by
  rw [entry, getTable, tables, lookup_erase_eq]
  by_cases same : other = vpid
  · simp [same]
  · simp [same, entry, getTable]

theorem entry_closeCloexecOf
    (world : World) (vpid other : VPid) (number : Nat) :
    (world.closeCloexecOf vpid).entry other number =
      if other = vpid then
        (world.entry other number).filter
          fun vfd => !VfdTable.isCloexec vfd
      else world.entry other number := by
  unfold closeCloexecOf
  cases found : world.getTable vpid with
  | none =>
      by_cases same : other = vpid
      · subst other
        simp [entry_of_getTable_none found]
      · simp [same]
  | some table =>
      dsimp only
      rw [entry_congr (realCloseAll_tables _ _), entry_setTable]
      by_cases same : other = vpid
      · subst other
        simp only [if_true]
        rw [VfdTable.get_closeCloexec, entry_of_getTable found]
      · simp [same]

/-- The entries after an operation. -/
theorem entry_apply
    (world : World) (op : FdOp) (vpid : VPid) (number : Nat) :
    (world.apply op).entry vpid number =
      (effect world op vpid number).getD (world.entry vpid number) := by
  cases op with
  | createTable owner stdin stdout stderr =>
      simp only [apply, effect]
      rw [createTableWithFds,
        entry_congr (replaceTable_tables world owner _), entry_setTable]
      split <;> rfl
  | sys owner call =>
      simp only [apply, effect]
      rw [entry_sys]
      by_cases same : vpid = owner
      · simp [same]
      · simp [same]
  | fork parent child =>
      simp only [apply, effect]
      rw [forkFdTable, entry_congr (replaceTable_tables world child _),
        entry_setTable]
      split <;> rfl
  | exec parent child =>
      simp only [apply]
      unfold execTable
      dsimp only
      rw [entry_closeCloexecOf]
      cases parent with
      | none =>
          simp only [effect]
          by_cases same : vpid = child
          · cases held : world.entry vpid number with
            | none => simp [same]
            | some vfd =>
                cases marked : VfdTable.isCloexec vfd with
                | false => simp [same, marked]
                | true => simp [same, marked]
          · simp [same]
      | some owner =>
          simp only [effect]
          rw [forkFdTable,
            entry_congr (replaceTable_tables world child _),
            entry_setTable]
          by_cases same : vpid = child
          · simp [same]
          · simp [same]
  | removeTable owner =>
      simp only [apply, effect]
      rw [entry_erase (removeTable_tables world owner)]
      split <;> rfl
  | reap owner =>
      simp only [apply, effect]
      rw [entry_erase (reapTable_tables world owner)]
      split <;> rfl
  | cleanup => rfl
  | rawDup3 oldFd newFd =>
      have tables :
          (world.rawDup3 oldFd newFd).1.tables = world.tables := by
        unfold rawDup3
        split <;> rfl
      exact entry_congr tables vpid number

/-! ## The buffers an operation closes -/

/-- A number refers to a buffer, and no other number of the process does. -/
def LastEntry (world : World) (vpid : VPid) (number : Nat)
    (buf : ArcId) : Prop :=
  (∃ vfd, world.entry vpid number = some vfd ∧ vfd.buffer = some buf) ∧
    ∀ other vfd, other ≠ number → world.entry vpid other = some vfd →
      vfd.buffer ≠ some buf

/-- Some number of the process refers to a buffer. -/
def HoldsBuffer (world : World) (vpid : VPid) (buf : ArcId) : Prop :=
  ∃ number vfd, world.entry vpid number = some vfd ∧
    vfd.buffer = some buf

/-- The number a call closes in its process's table. -/
def closedNumber (world : World) (vpid : VPid) : SysCall → Option Nat
  | .dup oldFd _ =>
      match world.getTable vpid with
      | none => none
      | some table =>
          match underlyingReal table oldFd with
          | some _ => none
          | none => some table.nextFd
  | .dup2 oldFd newFd =>
      match world.getTable vpid with
      | none => none
      | some table =>
          match underlyingReal table oldFd with
          | some realFd =>
              if (world.kernel.files realFd).isSome ∧
                  world.kernel.inRange newFd then
                some (asU32 newFd)
              else none
          | none => some (asU32 newFd)
  | .close fd => if fd < 0 then none else some (asU32 fd)
  | .ffiDup _ =>
      match world.getTable vpid with
      | none => none
      | some table => some table.nextFd
  | .ffiDup2 _ newFd => some (asU32 newFd)
  | .ffiClose fd => some (asU32 fd)
  | .insertAt fd _ => some fd
  | _ => none

/--
A buffer is closed by a step which takes a table's last number for it, or
which drops a table that refers to it.
-/
def Releases (world : World) (buf : ArcId) : FdOp → Prop
  | .sys vpid call =>
      ∃ number, closedNumber world vpid call = some number ∧
        LastEntry world vpid number buf
  | .createTable vpid _ _ _ => HoldsBuffer world vpid buf
  | .fork _ child => HoldsBuffer world child buf
  | .exec (some _) child => HoldsBuffer world child buf
  | .exec none _ => False
  | .removeTable vpid => HoldsBuffer world vpid buf
  | .reap vpid => HoldsBuffer world vpid buf
  | .cleanup => ∃ vpid, HoldsBuffer world vpid buf
  | .rawDup3 _ _ => False

/-- The step makes this buffer. -/
def Creates (world : World) (buf : ArcId) : FdOp → Prop
  | .sys _ .ffiPipe => buf = world.nextArc
  | _ => False

theorem closed_closeBuffers
    (world : World) (bufs : List ArcId) (buf : ArcId) :
    ((world.closeBuffers bufs).pipes buf).closed = true ↔
      (world.pipes buf).closed = true ∨ buf ∈ bufs := by
  unfold closeBuffers
  by_cases member : buf ∈ bufs
  · simp [member]
  · simp [member]

theorem mem_close_closes_iff_lastEntry
    {world : World} {vpid : VPid} {table : VfdTable}
    (found : world.getTable vpid = some table)
    (number : Nat) (buf : ArcId) :
    buf ∈ (table.close number).closes ↔
      LastEntry world vpid number buf := by
  rw [VfdTable.mem_close_closes_iff]
  simp only [LastEntry, entry_of_getTable found]

theorem mem_dropCloses_iff_holdsBuffer
    {world : World} {vpid : VPid} {table : VfdTable}
    (found : world.getTable vpid = some table) (buf : ArcId) :
    buf ∈ table.dropCloses ↔ HoldsBuffer world vpid buf := by
  rw [VfdTable.mem_dropCloses_iff]
  simp only [HoldsBuffer, entry_of_getTable found]

theorem not_lastEntry_of_getTable_none
    {world : World} {vpid : VPid}
    (missing : world.getTable vpid = none) (number : Nat)
    (buf : ArcId) :
    ¬ LastEntry world vpid number buf := by
  rintro ⟨⟨vfd, held, _⟩, _⟩
  rw [entry_of_getTable_none missing] at held
  cases held

theorem not_holdsBuffer_of_getTable_none
    {world : World} {vpid : VPid}
    (missing : world.getTable vpid = none) (buf : ArcId) :
    ¬ HoldsBuffer world vpid buf := by
  rintro ⟨number, vfd, held, _⟩
  rw [entry_of_getTable_none missing] at held
  cases held

theorem not_lastEntry_of_file
    {world : World} {vpid : VPid} {number : Nat} {ref : FileRef}
    (stored : world.entry vpid number = some (.file ref))
    (buf : ArcId) :
    ¬ LastEntry world vpid number buf := by
  rintro ⟨⟨vfd, held, same⟩, _⟩
  rw [stored] at held
  cases held
  cases same

theorem not_lastEntry_of_missing
    {world : World} {vpid : VPid} {number : Nat}
    (missing : world.entry vpid number = none) (buf : ArcId) :
    ¬ LastEntry world vpid number buf := by
  rintro ⟨⟨vfd, held, _⟩, _⟩
  rw [missing] at held
  cases held

/-- A step which closes nothing. -/
theorem closed_iff_of_same
    {world next : World} (pipes : next.pipes = world.pipes)
    {buf : ArcId} {released : Prop} (unreleased : ¬ released) :
    (next.pipes buf).closed = true ↔
      (world.pipes buf).closed = true ∨ released := by
  rw [pipes]
  simp [unreleased]

/-- A step which closes what one `close` of a table closes. -/
theorem closed_iff_of_close
    {world next : World} {vpid : VPid} {table : VfdTable}
    (found : world.getTable vpid = some table) {number : Nat}
    (pipes : ∀ buf, (next.pipes buf).closed = true ↔
      (world.pipes buf).closed = true ∨
        buf ∈ (table.close number).closes)
    (buf : ArcId) :
    (next.pipes buf).closed = true ↔
      (world.pipes buf).closed = true ∨
        ∃ other, some number = some other ∧
          LastEntry world vpid other buf := by
  rw [pipes, mem_close_closes_iff_lastEntry found]
  simp

theorem closed_insertOpened
    (world : World) (vpid : VPid) (cloexec : Bool) (answer : CInt) :
    (world.insertOpened vpid cloexec answer).1.pipes = world.pipes := by
  unfold insertOpened
  dsimp only
  split <;> rfl

section Calls

variable (world : World) (vpid : VPid) (buf : ArcId)

theorem closed_dup (oldFd answer : CInt) :
    ((world.dup vpid oldFd answer).1.pipes buf).closed = true ↔
      (world.pipes buf).closed = true ∨
        Releases world buf (.sys vpid (.dup oldFd answer)) := by
  rw [Releases]
  cases found : world.getTable vpid with
  | none =>
      apply closed_iff_of_same
      · simp only [dup, found]
      · simp [closedNumber, found]
  | some table =>
      cases source : underlyingReal table oldFd with
      | none =>
          simp only [closedNumber, found, source]
          apply closed_iff_of_close found
          intro other
          rw [dup_virtual found answer source, closed_closeBuffers,
            VfdTable.dup_closes]
          rfl
      | some realFd =>
          apply closed_iff_of_same
          · simp only [dup, found, source]
            split <;> rfl
          · simp [closedNumber, found, source]

theorem closed_dup2 (oldFd newFd : CInt) :
    ((world.dup2 vpid oldFd newFd).1.pipes buf).closed = true ↔
      (world.pipes buf).closed = true ∨
        Releases world buf (.sys vpid (.dup2 oldFd newFd)) := by
  rw [Releases]
  cases found : world.getTable vpid with
  | none =>
      apply closed_iff_of_same
      · simp only [dup2, found]
        split <;> rfl
      · simp [closedNumber, found]
  | some table =>
      cases source : underlyingReal table oldFd with
      | none =>
          simp only [closedNumber, found, source]
          apply closed_iff_of_close found
          intro other
          rw [dup2_virtual found newFd source, closed_closeBuffers,
            VfdTable.dup2_closes]
          rfl
      | some realFd =>
          simp only [closedNumber, found, source]
          by_cases possible :
              (world.kernel.files realFd).isSome = true ∧
                world.kernel.inRange newFd = true
          · rw [if_pos possible]
            apply closed_iff_of_close found
            intro other
            rw [dup2_granted found source possible]
            exact closed_closeBuffers _ _ other
          · rw [dup2_refused found source possible]
            exact closed_iff_of_same rfl (by simp [possible])

theorem closed_close (fd : CInt) :
    ((world.close vpid fd).1.pipes buf).closed = true ↔
      (world.pipes buf).closed = true ∨
        Releases world buf (.sys vpid (.close fd)) := by
  simp only [Releases, closedNumber, close]
  by_cases negative : fd < 0
  · simp only [negative, if_true]
    exact closed_iff_of_same rfl (by simp)
  · simp only [negative, if_false]
    cases found : world.getTable vpid with
    | none =>
        exact
          closed_iff_of_same rfl
            (by simp [not_lastEntry_of_getTable_none found])
    | some table =>
        dsimp only
        split
        · apply closed_iff_of_close found
          intro other
          exact closed_closeBuffers _ _ other
        · rename_i ref stored
          rw [← entry_of_getTable found] at stored
          exact
            closed_iff_of_same (realCloseAll_pipes _ _)
              (by simp [not_lastEntry_of_file stored])
        · apply closed_iff_of_close found
          intro other
          exact closed_closeBuffers _ _ other
        · rename_i missing
          rw [← entry_of_getTable found] at missing
          exact
            closed_iff_of_same rfl
              (by simp [not_lastEntry_of_missing missing])

theorem closed_ffiClose (fd : CInt) :
    ((world.ffiClose vpid fd).1.pipes buf).closed = true ↔
      (world.pipes buf).closed = true ∨
        Releases world buf (.sys vpid (.ffiClose fd)) := by
  simp only [Releases, closedNumber, ffiClose]
  cases found : world.getTable vpid with
  | none =>
      exact
        closed_iff_of_same rfl
          (by simp [not_lastEntry_of_getTable_none found])
  | some table =>
      dsimp only
      split
      · rename_i ref stored
        rw [← entry_of_getTable found] at stored
        exact
          closed_iff_of_same (realCloseAll_pipes _ _)
            (by simp [not_lastEntry_of_file stored])
      · apply closed_iff_of_close found
        intro other
        exact closed_closeBuffers _ _ other

end Calls

/-- The buffers closed after a descriptor call. -/
theorem closed_sys
    (world : World) (vpid : VPid) (call : SysCall) (buf : ArcId)
    (old : ¬ Creates world buf (.sys vpid call)) :
    ((world.sys vpid call).1.pipes buf).closed = true ↔
      (world.pipes buf).closed = true ∨
        Releases world buf (.sys vpid call) := by
  cases call with
  | openPath flags answer =>
      exact
        closed_iff_of_same (closed_insertOpened world vpid _ answer)
          (by simp [Releases, closedNumber])
  | openatPath flags answer =>
      exact
        closed_iff_of_same (closed_insertOpened world vpid _ answer)
          (by simp [Releases, closedNumber])
  | creat answer =>
      exact
        closed_iff_of_same (closed_insertOpened world vpid _ answer)
          (by simp [Releases, closedNumber])
  | dup oldFd answer => exact closed_dup world vpid buf oldFd answer
  | dup2 oldFd newFd => exact closed_dup2 world vpid buf oldFd newFd
  | close fd => exact closed_close world vpid buf fd
  | pipe readFd writeFd =>
      apply closed_iff_of_same
      · simp only [sys, pipe]
        split <;> rfl
      · simp [Releases, closedNumber]
  | ffiPipe =>
      have different : buf ≠ world.nextArc := old
      simp [sys, ffiPipe, Releases, closedNumber, different, setTable]
  | ffiDup oldFd =>
      simp only [sys, Releases, closedNumber, ffiDup]
      cases found : world.getTable vpid with
      | none => exact closed_iff_of_same rfl (by simp)
      | some table =>
          apply closed_iff_of_close found
          intro other
          rw [closed_closeBuffers, VfdTable.dup_closes]
          rfl
  | ffiDup2 oldFd newFd =>
      simp only [sys, Releases, closedNumber, ffiDup2]
      cases found : world.getTable vpid with
      | none =>
          exact
            closed_iff_of_same rfl
              (by simp [not_lastEntry_of_getTable_none found])
      | some table =>
          apply closed_iff_of_close found
          intro other
          rw [closed_closeBuffers, VfdTable.dup2_closes]
          rfl
  | ffiClose fd => exact closed_ffiClose world vpid buf fd
  | insertAt fd vfd =>
      simp only [sys, Releases, closedNumber, insertAt]
      cases found : world.getTable vpid with
      | none =>
          exact
            closed_iff_of_same rfl
              (by simp [not_lastEntry_of_getTable_none found])
      | some table =>
          apply closed_iff_of_close found
          intro other
          rw [closed_closeBuffers, VfdTable.insertAt_closes]
          rfl
  | readPipe fd dst =>
      simp only [sys, Releases, closedNumber, readPipe]
      split
      · rename_i target held
        by_cases same : buf = target
        · simp [same]
        · simp [same]
      · simp
  | writePipe fd src =>
      simp only [sys, Releases, closedNumber, writePipe]
      split
      · rename_i target held
        by_cases same : buf = target
        · simp [same]
        · simp [same]
      · simp

/-- What dropping the old table of a process closes. -/
theorem closed_replaceTable
    (world : World) (vpid : VPid) (table : VfdTable) (buf : ArcId) :
    ((world.replaceTable vpid table).pipes buf).closed = true ↔
      (world.pipes buf).closed = true ∨ HoldsBuffer world vpid buf := by
  rw [replaceTable, closed_closeBuffers]
  cases found : world.getTable vpid with
  | none => simp [setTable, not_holdsBuffer_of_getTable_none found]
  | some old =>
      simp [setTable, mem_dropCloses_iff_holdsBuffer found]

theorem closed_removeTable
    (world : World) (vpid : VPid) (buf : ArcId) :
    ((world.removeTable vpid).pipes buf).closed = true ↔
      (world.pipes buf).closed = true ∨ HoldsBuffer world vpid buf := by
  unfold removeTable
  cases found : world.getTable vpid with
  | none => simp [not_holdsBuffer_of_getTable_none found]
  | some old =>
      dsimp only
      rw [closed_closeBuffers, mem_dropCloses_iff_holdsBuffer found]

theorem closeCloexecOf_pipes (world : World) (vpid : VPid) :
    (world.closeCloexecOf vpid).pipes = world.pipes := by
  unfold closeCloexecOf
  cases world.getTable vpid with
  | none => rfl
  | some table => exact realCloseAll_pipes _ _

theorem reapTable_pipes (world : World) (vpid : VPid) :
    (world.reapTable vpid).pipes = (world.removeTable vpid).pipes := by
  rw [reapTable, realCloseAll_pipes]
  unfold removeTableAndGetFds
  cases found : world.getTable vpid with
  | none => simp [removeTable, found]
  | some table => rfl

theorem closed_cleanup (world : World) (buf : ArcId) :
    (world.cleanup.pipes buf).closed = true ↔
      (world.pipes buf).closed = true ∨
        ∃ vpid, HoldsBuffer world vpid buf := by
  have listed :
      buf ∈ (values world.tables).flatMap VfdTable.dropCloses ↔
        ∃ vpid, HoldsBuffer world vpid buf := by
    rw [List.mem_flatMap]
    constructor
    · rintro ⟨table, member, closes⟩
      obtain ⟨vpid, found⟩ := mem_values_iff.mp member
      exact ⟨vpid, (mem_dropCloses_iff_holdsBuffer found buf).mp closes⟩
    · rintro ⟨vpid, holds⟩
      cases found : world.getTable vpid with
      | none =>
          exact (not_holdsBuffer_of_getTable_none found buf holds).elim
      | some table =>
          exact
            ⟨table, mem_values_iff.mpr ⟨vpid, found⟩,
              (mem_dropCloses_iff_holdsBuffer found buf).mpr holds⟩
  rw [cleanup, closed_closeBuffers, listed]

/-- The buffers closed after an operation. -/
theorem closed_apply
    (world : World) (op : FdOp) (buf : ArcId)
    (old : ¬ Creates world buf op) :
    ((world.apply op).pipes buf).closed = true ↔
      (world.pipes buf).closed = true ∨ Releases world buf op := by
  cases op with
  | createTable vpid stdin stdout stderr =>
      exact closed_replaceTable world vpid _ buf
  | sys vpid call => exact closed_sys world vpid call buf old
  | fork parent child => exact closed_replaceTable world child _ buf
  | exec parent child =>
      simp only [apply]
      unfold execTable
      dsimp only
      rw [closeCloexecOf_pipes]
      cases parent with
      | none => simp [Releases]
      | some owner => exact closed_replaceTable world child _ buf
  | removeTable vpid => exact closed_removeTable world vpid buf
  | reap vpid =>
      simp only [apply]
      rw [reapTable_pipes]
      exact closed_removeTable world vpid buf
  | cleanup => exact closed_cleanup world buf
  | rawDup3 oldFd newFd =>
      apply closed_iff_of_same
      · simp only [apply, rawDup3]
        split <;> rfl
      · exact id

/-- A buffer is open when it is made. -/
theorem closed_of_creates
    {world : World} {op : FdOp} {buf : ArcId}
    (created : Creates world buf op) :
    ((world.apply op).pipes buf).closed = false := by
  unfold Creates at created
  split at created
  · subst buf
    simp [apply, sys, ffiPipe]
  · exact created.elim

/-! ## The buffers made so far -/

@[simp]
theorem realCloseAll_buffers
    (fds : List (CInt × Origin)) (world : World) :
    (world.realCloseAll fds).buffers = world.buffers := by
  induction fds generalizing world with
  | nil => rfl
  | cons first rest induction =>
      exact induction (world.realClose first.1 first.2).1

theorem buffers_dup
    (world : World) (vpid : VPid) (oldFd answer : CInt) :
    (world.dup vpid oldFd answer).1.buffers = world.buffers := by
  unfold dup
  split
  · rfl
  · split
    · dsimp only
      split <;> rfl
    · rfl

theorem buffers_dup2
    (world : World) (vpid : VPid) (oldFd newFd : CInt) :
    (world.dup2 vpid oldFd newFd).1.buffers = world.buffers := by
  unfold dup2
  split
  · dsimp only
    split <;> rfl
  · split
    · dsimp only
      split <;> rfl
    · rfl

theorem buffers_close (world : World) (vpid : VPid) (fd : CInt) :
    (world.close vpid fd).1.buffers = world.buffers := by
  unfold close
  split
  · rfl
  · split
    · rfl
    · dsimp only
      split
      · rfl
      · exact realCloseAll_buffers _ _
      · rfl
      · rfl

theorem buffers_ffiClose (world : World) (vpid : VPid) (fd : CInt) :
    (world.ffiClose vpid fd).1.buffers = world.buffers := by
  unfold ffiClose
  split
  · rfl
  · split
    · exact realCloseAll_buffers _ _
    · rfl

/-- A call makes a buffer only if it creates a pipe. -/
theorem mem_buffers_sys
    {world : World} {vpid : VPid} {call : SysCall} {buf : ArcId} :
    buf ∈ (world.sys vpid call).1.buffers ↔
      buf ∈ world.buffers ∨ Creates world buf (.sys vpid call) := by
  have same (kept : (world.sys vpid call).1.buffers = world.buffers)
      (old : ¬ Creates world buf (.sys vpid call)) :
      buf ∈ (world.sys vpid call).1.buffers ↔
        buf ∈ world.buffers ∨ Creates world buf (.sys vpid call) := by
    rw [kept]
    simp [old]
  cases call with
  | ffiPipe => simp [sys, ffiPipe, Creates, or_comm]
  | openPath flags answer =>
      apply same _ id
      simp only [sys, openPath, insertOpened]
      split <;> rfl
  | openatPath flags answer =>
      apply same _ id
      simp only [sys, openatPath, insertOpened]
      split <;> rfl
  | creat answer =>
      apply same _ id
      simp only [sys, creat, insertOpened]
      split <;> rfl
  | dup oldFd answer => exact same (buffers_dup world vpid _ _) id
  | dup2 oldFd newFd => exact same (buffers_dup2 world vpid _ _) id
  | close fd => exact same (buffers_close world vpid fd) id
  | pipe readFd writeFd =>
      apply same _ id
      simp only [sys, pipe]
      split <;> rfl
  | ffiDup oldFd =>
      apply same _ id
      simp only [sys, ffiDup]
      split <;> rfl
  | ffiDup2 oldFd newFd =>
      apply same _ id
      simp only [sys, ffiDup2]
      split <;> rfl
  | ffiClose fd => exact same (buffers_ffiClose world vpid fd) id
  | insertAt fd vfd =>
      apply same _ id
      simp only [sys, insertAt]
      split <;> rfl
  | readPipe fd dst =>
      apply same _ id
      simp only [sys, readPipe]
      split <;> rfl
  | writePipe fd src =>
      apply same _ id
      simp only [sys, writePipe]
      split <;> rfl

theorem buffers_closeCloexecOf (world : World) (vpid : VPid) :
    (world.closeCloexecOf vpid).buffers = world.buffers := by
  unfold closeCloexecOf
  split
  · exact realCloseAll_buffers _ _
  · rfl

theorem buffers_removeTable (world : World) (vpid : VPid) :
    (world.removeTable vpid).buffers = world.buffers := by
  unfold removeTable
  split <;> rfl

theorem buffers_reapTable (world : World) (vpid : VPid) :
    (world.reapTable vpid).buffers = world.buffers := by
  rw [reapTable, realCloseAll_buffers]
  unfold removeTableAndGetFds
  split
  · rfl
  · exact buffers_removeTable world vpid

/-- The buffers after an operation. -/
theorem mem_buffers_apply
    {world : World} {op : FdOp} {buf : ArcId} :
    buf ∈ (world.apply op).buffers ↔
      buf ∈ world.buffers ∨ Creates world buf op := by
  cases op with
  | createTable vpid stdin stdout stderr => exact (or_false _).symm.to_iff
  | sys vpid call => exact mem_buffers_sys
  | fork parent child => exact (or_false _).symm.to_iff
  | exec parent child =>
      simp only [apply, execTable, buffers_closeCloexecOf]
      cases parent with
      | none => exact (or_false _).symm.to_iff
      | some caller => exact (or_false _).symm.to_iff
  | removeTable vpid =>
      simp only [apply, buffers_removeTable, Creates, or_false]
  | reap vpid => simp only [apply, buffers_reapTable, Creates, or_false]
  | cleanup => exact (or_false _).symm.to_iff
  | rawDup3 oldFd newFd =>
      simp only [apply, rawDup3, Creates, or_false]
      split <;> rfl

/-! ## The identities given out -/

@[simp]
theorem realCloseAll_nextArc
    (fds : List (CInt × Origin)) (world : World) :
    (world.realCloseAll fds).nextArc = world.nextArc := by
  induction fds generalizing world with
  | nil => rfl
  | cons first rest induction =>
      exact induction (world.realClose first.1 first.2).1

theorem nextArc_insertOpened
    (world : World) (vpid : VPid) (cloexec : Bool) (answer : CInt) :
    world.nextArc ≤ (world.insertOpened vpid cloexec answer).1.nextArc := by
  unfold insertOpened
  dsimp only
  split
  · exact Nat.le_refl _
  · exact Nat.le_succ _

/-- Identities are never given out twice. -/
theorem nextArc_sys (world : World) (vpid : VPid) (call : SysCall) :
    world.nextArc ≤ (world.sys vpid call).1.nextArc := by
  cases call with
  | openPath flags answer => exact nextArc_insertOpened world vpid _ answer
  | openatPath flags answer =>
      exact nextArc_insertOpened world vpid _ answer
  | creat answer => exact nextArc_insertOpened world vpid _ answer
  | dup oldFd answer =>
      simp only [sys, dup]
      split
      · exact Nat.le_refl _
      · split
        · split
          · exact Nat.le_refl _
          · exact Nat.le_succ _
        · exact Nat.le_refl _
  | dup2 oldFd newFd =>
      simp only [sys, dup2]
      split
      · split
        · exact Nat.le_refl _
        · exact Nat.le_refl _
      · split
        · split
          · exact Nat.le_refl _
          · exact Nat.le_succ _
        · exact Nat.le_refl _
  | close fd =>
      simp only [sys, close]
      split
      · exact Nat.le_refl _
      · split
        · exact Nat.le_refl _
        · split
          · exact Nat.le_refl _
          · rw [realCloseAll_nextArc]
            exact Nat.le_refl _
          · exact Nat.le_refl _
          · exact Nat.le_refl _
  | pipe readFd writeFd =>
      simp only [sys, pipe]
      split
      · exact Nat.le_refl _
      · exact Nat.le_refl _
  | ffiPipe => exact Nat.le_succ _
  | ffiDup oldFd =>
      simp only [sys, ffiDup]
      split
      · exact Nat.le_refl _
      · exact Nat.le_refl _
  | ffiDup2 oldFd newFd =>
      simp only [sys, ffiDup2]
      split
      · exact Nat.le_refl _
      · exact Nat.le_refl _
  | ffiClose fd =>
      simp only [sys, ffiClose]
      split
      · exact Nat.le_refl _
      · split
        · rw [realCloseAll_nextArc]
          exact Nat.le_refl _
        · exact Nat.le_refl _
  | insertAt fd vfd =>
      simp only [sys, insertAt]
      split
      · exact Nat.le_refl _
      · exact Nat.le_succ _
  | readPipe fd dst =>
      simp only [sys, readPipe]
      split
      · exact Nat.le_refl _
      · exact Nat.le_refl _
  | writePipe fd src =>
      simp only [sys, writePipe]
      split
      · exact Nat.le_refl _
      · exact Nat.le_refl _

theorem nextArc_apply (world : World) (op : FdOp) :
    world.nextArc ≤ (world.apply op).nextArc := by
  have ofRemove (vpid : VPid) :
      (world.removeTable vpid).nextArc = world.nextArc := by
    unfold removeTable
    split <;> rfl
  have ofCloexec (other : World) (vpid : VPid) :
      (other.closeCloexecOf vpid).nextArc = other.nextArc := by
    unfold closeCloexecOf
    split
    · exact realCloseAll_nextArc _ _
    · rfl
  cases op with
  | createTable vpid stdin stdout stderr => exact Nat.le_refl _
  | sys vpid call => exact nextArc_sys world vpid call
  | fork parent child => exact Nat.le_refl _
  | exec parent child =>
      simp only [apply, execTable, ofCloexec]
      cases parent with
      | none => exact Nat.le_refl _
      | some caller => exact Nat.le_refl _
  | removeTable vpid => exact (ofRemove vpid).ge
  | reap vpid =>
      simp only [apply, reapTable, realCloseAll_nextArc]
      unfold removeTableAndGetFds
      split
      · exact Nat.le_refl _
      · exact (ofRemove vpid).ge
  | cleanup => exact Nat.le_refl _
  | rawDup3 oldFd newFd =>
      simp only [apply, rawDup3]
      split
      · exact Nat.le_refl _
      · exact Nat.le_refl _

/-! ## Where entries come from -/

/-- An entry which did not exist before: borrowed, or a new allocation. -/
def IsNew (world : World) (op : FdOp) (vfd : Vfd) : Prop :=
  (∃ fd, vfd = .real fd) ∨
    (∃ ref, vfd = .file ref ∧ ref.arc = world.nextArc ∧
      (world.apply op).nextArc = world.nextArc + 1) ∨
    ∃ buf, vfd.buffer = some buf ∧ Creates world buf op

theorem changeAt_eq_some_iff
    {fd number : Nat} {left change : Option Vfd} :
    changeAt fd left number = some change ↔
      number = fd ∧ left = change := by
  unfold changeAt
  by_cases same : number = fd
  · simp [same]
  · simp [same]

/-- A fresh table holds borrowed numbers only. -/
theorem real_of_get_newWithFds
    {stdin stdout stderr : CInt} {number : Nat} {vfd : Vfd}
    (held :
      (VfdTable.newWithFds stdin stdout stderr).get number = some vfd) :
    ∃ fd, vfd = .real fd := by
  rw [VfdTable.get_newWithFds] at held
  split at held
  · exact ⟨stderr, by simpa using held.symm⟩
  · split at held
    · exact ⟨stdout, by simpa using held.symm⟩
    · split at held
      · exact ⟨stdin, by simpa using held.symm⟩
      · cases held

theorem isNew_of_defaultChange
    {world : World} {op : FdOp} {vpid : VPid} {number : Nat} {vfd : Vfd}
    (put : defaultChange world vpid number = some (some vfd)) :
    IsNew world op vfd := by
  unfold defaultChange at put
  split at put
  · exact Or.inl (real_of_get_newWithFds (Option.some.inj put))
  · cases put

/-- What a table holds which was copied for a child. -/
theorem origin_of_forkedTable
    {world : World} {parent : VPid} {number : Nat} {vfd : Vfd}
    (held : (world.forkedTable parent).get number = some vfd) :
    world.entry parent number = some vfd ∨ ∃ fd, vfd = .real fd := by
  unfold forkedTable at held
  cases found : world.getTable parent with
  | none =>
      simp only [found] at held
      exact Or.inr (real_of_get_newWithFds held)
  | some table =>
      simp only [found] at held
      exact Or.inl ((entry_of_getTable found number).trans held)

theorem entry_of_copiedChange
    {world : World} {vpid : VPid} {table : VfdTable}
    (found : world.getTable vpid = some table)
    {oldFd newFd number : Nat} {vfd : Vfd}
    (put : copiedChange table oldFd newFd number = some (some vfd)) :
    oldFd ≠ newFd ∧ world.entry vpid oldFd = some vfd := by
  unfold copiedChange at put
  obtain ⟨_, left⟩ := changeAt_eq_some_iff.mp put
  by_cases same : oldFd = newFd
  · simp [same] at left
  · simp only [same, if_false] at left
    exact ⟨same, (entry_of_getTable found oldFd).trans left⟩

theorem holds_iff (world : World) (vfd : Vfd) :
    world.holds vfd = true ↔
      ∃ vpid number, world.entry vpid number = some vfd := by
  unfold World.holds
  rw [any_values_iff]
  constructor
  · rintro ⟨vpid, table, found, inside⟩
    obtain ⟨number, other, stored, same⟩ := any_values_iff.mp inside
    have equal : other = vfd := by simpa using same
    subst other
    exact ⟨vpid, number, (entry_of_getTable found number).trans stored⟩
  · rintro ⟨vpid, number, held⟩
    cases found : world.getTable vpid with
    | none =>
        rw [entry_of_getTable_none found] at held
        cases held
    | some table =>
        rw [entry_of_getTable found] at held
        exact
          ⟨vpid, table, found,
            any_values_iff.mpr ⟨number, vfd, held, by simp⟩⟩

theorem isNew_of_opened
    {world : World} {op : FdOp} {vpid : VPid} {cloexec : Bool}
    {answer : CInt} {number : Nat} {vfd : Vfd}
    (counted : world.kernel.usable answer = true →
      (world.apply op).nextArc = world.nextArc + 1)
    (put : openedChange world vpid cloexec answer number =
      some (some vfd)) :
    IsNew world op vfd := by
  unfold openedChange at put
  split at put
  · rename_i usable
    rcases Option.or_eq_some_iff.mp put with first | ⟨_, second⟩
    · obtain ⟨_, left⟩ := changeAt_eq_some_iff.mp first
      cases left
      exact Or.inr (Or.inl ⟨_, rfl, rfl, counted usable⟩)
    · exact isNew_of_defaultChange second
  · cases put

section Origins

variable {world : World} {vpid : VPid} {number : Nat} {vfd : Vfd}

theorem origin_of_dup
    {oldFd answer : CInt}
    (put : callChange world vpid (.dup oldFd answer) number =
      some (some vfd)) :
    (∃ owner source, world.entry owner source = some vfd) ∨
      IsNew world (.sys vpid (.dup oldFd answer)) vfd := by
  simp only [callChange] at put
  cases found : world.getTable vpid with
  | none => simp [found] at put
  | some table =>
      simp only [found] at put
      cases source : underlyingReal table oldFd with
      | none =>
          simp only [source] at put
          exact
            Or.inl
              ⟨vpid, asU32 oldFd, (entry_of_copiedChange found put).2⟩
      | some realFd =>
          simp only [source] at put
          split at put
          · rename_i possible
            obtain ⟨_, left⟩ := changeAt_eq_some_iff.mp put
            cases left
            refine Or.inr (Or.inr (Or.inl ⟨_, rfl, rfl, ?_⟩))
            simp only [apply, sys]
            rw [dup_granted found source possible]
          · cases put

theorem origin_of_dup2
    {oldFd newFd : CInt}
    (put : callChange world vpid (.dup2 oldFd newFd) number =
      some (some vfd)) :
    (∃ owner source, world.entry owner source = some vfd) ∨
      IsNew world (.sys vpid (.dup2 oldFd newFd)) vfd := by
  simp only [callChange] at put
  cases found : world.getTable vpid with
  | none => simp [found] at put
  | some table =>
      simp only [found] at put
      cases source : underlyingReal table oldFd with
      | none =>
          simp only [source] at put
          exact
            Or.inl
              ⟨vpid, asU32 oldFd, (entry_of_copiedChange found put).2⟩
      | some realFd =>
          simp only [source] at put
          split at put
          · rename_i possible
            obtain ⟨_, left⟩ := changeAt_eq_some_iff.mp put
            cases left
            refine Or.inr (Or.inr (Or.inl ⟨_, rfl, rfl, ?_⟩))
            simp only [apply, sys]
            rw [dup2_granted found source possible]
            rfl
          · cases put

theorem origin_of_insertAt
    {fd : Nat} {given : Vfd}
    (admitted : world.admits (.sys vpid (.insertAt fd given)) = true)
    (put : callChange world vpid (.insertAt fd given) number =
      some (some vfd)) :
    (∃ owner source, world.entry owner source = some vfd) ∨
      IsNew world (.sys vpid (.insertAt fd given)) vfd := by
  simp only [callChange] at put
  cases found : world.getTable vpid with
  | none => simp [found] at put
  | some table =>
      simp only [found] at put
      obtain ⟨_, left⟩ := changeAt_eq_some_iff.mp put
      cases left
      have offered : world.available vfd = true := admitted
      cases vfd with
      | real fd => exact Or.inr (Or.inl ⟨fd, rfl⟩)
      | file ref =>
          simp only [available, Bool.or_eq_true, beq_iff_eq]
            at offered
          rcases offered with fresh | held
          · refine
              Or.inr (Or.inr (Or.inl ⟨ref, rfl, fresh, ?_⟩))
            simp only [apply, sys, insertAt, found]
            rfl
          · exact Or.inl ((holds_iff world _).mp held)
      | pipeRead buf => exact Or.inl ((holds_iff world _).mp offered)
      | pipeWrite buf => exact Or.inl ((holds_iff world _).mp offered)

end Origins

/-- An entry a call puts into a table existed before, or is new. -/
theorem origin_of_callChange
    {world : World} {vpid : VPid} {call : SysCall}
    (admitted : world.admits (.sys vpid call) = true)
    {number : Nat} {vfd : Vfd}
    (put : callChange world vpid call number = some (some vfd)) :
    (∃ owner source, world.entry owner source = some vfd) ∨
      IsNew world (.sys vpid call) vfd := by
  cases call with
  | openPath flags answer =>
      refine Or.inr (isNew_of_opened ?_ put)
      intro usable
      simp only [apply, sys, openPath]
      rw [insertOpened_granted world vpid _ usable]
  | openatPath flags answer =>
      refine Or.inr (isNew_of_opened ?_ put)
      intro usable
      simp only [apply, sys, openatPath]
      rw [insertOpened_granted world vpid _ usable]
  | creat answer =>
      refine Or.inr (isNew_of_opened ?_ put)
      intro usable
      simp only [apply, sys, creat]
      rw [insertOpened_granted world vpid _ usable]
  | dup oldFd answer => exact origin_of_dup put
  | dup2 oldFd newFd => exact origin_of_dup2 put
  | close fd =>
      simp only [callChange] at put
      split at put
      · cases put
      · obtain ⟨_, left⟩ := changeAt_eq_some_iff.mp put
        cases left
  | pipe readFd writeFd => cases put
  | ffiPipe =>
      simp only [callChange] at put
      rcases Option.or_eq_some_iff.mp put with ends | ⟨_, default⟩
      · rcases Option.or_eq_some_iff.mp ends with write | ⟨_, read⟩
        · obtain ⟨_, left⟩ := changeAt_eq_some_iff.mp write
          cases left
          exact Or.inr (Or.inr (Or.inr ⟨_, rfl, rfl⟩))
        · obtain ⟨_, left⟩ := changeAt_eq_some_iff.mp read
          cases left
          exact Or.inr (Or.inr (Or.inr ⟨_, rfl, rfl⟩))
      · exact Or.inr (isNew_of_defaultChange default)
  | ffiDup oldFd =>
      simp only [callChange] at put
      cases found : world.getTable vpid with
      | none => simp [found] at put
      | some table =>
          simp only [found] at put
          exact
            Or.inl
              ⟨vpid, asU32 oldFd, (entry_of_copiedChange found put).2⟩
  | ffiDup2 oldFd newFd =>
      simp only [callChange] at put
      cases found : world.getTable vpid with
      | none => simp [found] at put
      | some table =>
          simp only [found] at put
          exact
            Or.inl
              ⟨vpid, asU32 oldFd, (entry_of_copiedChange found put).2⟩
  | ffiClose fd =>
      obtain ⟨_, left⟩ := changeAt_eq_some_iff.mp put
      cases left
  | insertAt fd given => exact origin_of_insertAt admitted put
  | readPipe fd dst => cases put
  | writePipe fd src => cases put

/-- An entry an operation puts into a table existed before, or is new. -/
theorem origin_of_effect
    {world : World} {op : FdOp} (admitted : world.admits op = true)
    {vpid : VPid} {number : Nat} {vfd : Vfd}
    (put : effect world op vpid number = some (some vfd)) :
    (∃ owner source, world.entry owner source = some vfd) ∨
      IsNew world op vfd := by
  cases op with
  | createTable owner stdin stdout stderr =>
      simp only [effect] at put
      split at put
      · exact
          Or.inr (Or.inl (real_of_get_newWithFds (Option.some.inj put)))
      · cases put
  | sys owner call =>
      simp only [effect] at put
      split at put
      · exact origin_of_callChange admitted put
      · cases put
  | fork parent child =>
      simp only [effect] at put
      split at put
      · rcases origin_of_forkedTable (Option.some.inj put)
          with held | borrowed
        · exact Or.inl ⟨parent, number, held⟩
        · exact Or.inr (Or.inl borrowed)
      · cases put
  | exec parent child =>
      cases parent with
      | none =>
          simp only [effect] at put
          split at put <;> cases put
      | some owner =>
          simp only [effect] at put
          split at put
          · obtain ⟨copied, _⟩ :=
              Option.filter_eq_some_iff.mp (Option.some.inj put)
            rcases origin_of_forkedTable copied with held | borrowed
            · exact Or.inl ⟨owner, number, held⟩
            · exact Or.inr (Or.inl borrowed)
          · cases put
  | removeTable owner =>
      simp only [effect] at put
      split at put <;> cases put
  | reap owner =>
      simp only [effect] at put
      split at put <;> cases put
  | cleanup => cases put
  | rawDup3 oldFd newFd => cases put

/-- Every entry after a step existed before it, or is new. -/
theorem origin_of_entry
    {world : World} {op : FdOp} (admitted : world.admits op = true)
    {vpid : VPid} {number : Nat} {vfd : Vfd}
    (held : (world.apply op).entry vpid number = some vfd) :
    (∃ owner source, world.entry owner source = some vfd) ∨
      IsNew world op vfd := by
  rw [entry_apply] at held
  cases change : effect world op vpid number with
  | none =>
      rw [change] at held
      exact Or.inl ⟨vpid, number, held⟩
  | some left =>
      rw [change] at held
      have put : effect world op vpid number = some (some vfd) :=
        change.trans (congrArg some held)
      exact origin_of_effect admitted put

/-- A step is an admitted operation. -/
theorem step_eq_some_iff
    {world next : World} {op : FdOp} :
    world.step op = some next ↔
      world.admits op = true ∧ world.apply op = next := by
  unfold World.step
  split
  · rename_i admitted
    simp [admitted]
  · rename_i refused
    simp [refused]

end Vproc.Fd.Effects
