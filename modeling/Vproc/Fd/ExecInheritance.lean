import Vproc.Fd.FileLeaks

/-!
# Which descriptors an executed program inherits

`exec` gives the new process a copy of its caller's table and calls
`close_cloexec` on the copy.  The loop removes the close-on-exec numbers one
by one, in the order of the hash map, and reports a kernel descriptor with the
last number which refers to it.  Whatever the order, each close-on-exec
reference is reported once.

Which numbers are close-on-exec depends on who made them.  The flag stands in
the shared `FileRef`.  The Rust interceptors make a new reference without the
flag for every copy of a kernel descriptor, so there the flag stays with the
number which `open` returned.  The copies of `vproc_ffi_dup` and
`vproc_ffi_dup2` share the reference, and the flag with it.
-/

namespace Vproc.Fd.ExecInheritance

open Vproc.Lib.Run
open Vproc.Lib.FiniteMap
open Vproc.Fd.Table
open Vproc.Fd.Table.VfdTable
open Vproc.Fd.KernelTable
open Vproc.Fd.Runtime
open Vproc.Fd.Runtime.World
open Vproc.Fd.Effects
open Vproc.Fd.FileLeaks (coherent_init coherent_step)

/-! ## The loop of `close_cloexec` -/

/-- An allocation has one content: its identity determines the reference. -/
def OneContent (table : VfdTable) (ref : FileRef) : Prop :=
  ∀ number other, table.get number = some (.file other) →
    other.arc = ref.arc → other = ref

theorem oneContent_closeFileFd
    {table : VfdTable} {ref : FileRef} (content : OneContent table ref)
    (fd : Nat) :
    OneContent (table.closeFileFd fd).1 ref := by
  intro number other kept same
  exact content number other (get_of_get_closeFileFd table fd kept).1 same

theorem file_of_fileArc
    {vfd : Vfd} {arc : ArcId} (same : vfd.fileArc = some arc) :
    ∃ ref, vfd = .file ref ∧ ref.arc = arc := by
  cases vfd with
  | file ref => exact ⟨ref, rfl, Option.some.inj same⟩
  | _ => cases same

/--
A reference whose numbers are all listed is handed out: each number but the
last leaves another one in the table.
-/
theorem mem_closeFileFds_of_listed
    {ref : FileRef} (fds : List Nat) (table : VfdTable)
    (content : OneContent table ref)
    (listed : ∀ number, table.get number = some (.file ref) → number ∈ fds)
    (held : ∃ number, table.get number = some (.file ref)) :
    ref ∈ (table.closeFileFds fds).2 := by
  induction fds generalizing table with
  | nil =>
      obtain ⟨number, stored⟩ := held
      cases listed number stored
  | cons fd rest induction =>
      refine List.mem_append.mpr ?_
      by_cases last : (table.closeFileFd fd).2 = some ref
      · exact Or.inl (Option.mem_toList.mpr last)
      · right
        apply induction _ (oneContent_closeFileFd content fd)
        · intro number kept
          obtain ⟨stored, atFd⟩ := get_of_get_closeFileFd table fd kept
          rcases List.mem_cons.mp (listed number stored) with here | later
          · cases atFd here
          · exact later
        · -- a number other than `fd` refers to it
          have another :
              ∃ number, number ≠ fd ∧
                table.get number = some (.file ref) := by
            obtain ⟨number, stored⟩ := held
            by_cases here : number = fd
            · subst here
              by_contra alone
              apply last
              refine (closeFileFd_eq_some_iff _ _ _).mpr ⟨stored, ?_⟩
              intro other vfd different found same
              obtain ⟨copy, rfl, sameArc⟩ := file_of_fileArc same
              cases content other copy found sameArc
              exact alone ⟨other, different, found⟩
            · exact ⟨number, here, stored⟩
          obtain ⟨number, different, stored⟩ := another
          refine ⟨number, ?_⟩
          rw [get_closeFileFd, if_neg different]
          exact stored

/-- `close_cloexec` hands out the close-on-exec references of its table. -/
theorem mem_closeCloexec_iff
    (table : VfdTable) {ref : FileRef}
    (content : ∀ number, table.get number = some (.file ref) →
      OneContent table ref) :
    ref ∈ table.closeCloexec.2 ↔
      ref.cloexec = true ∧
        ∃ number, table.get number = some (.file ref) := by
  constructor
  · intro handed
    obtain ⟨number, stored, marked⟩ :=
      exists_of_mem_closeCloexec table handed
    exact ⟨marked, number, stored⟩
  · rintro ⟨marked, held⟩
    obtain ⟨first, storedFirst⟩ := held
    apply mem_closeFileFds_of_listed _ table (content first storedFirst) _
      ⟨first, storedFirst⟩
    intro number stored
    refine List.mem_map.mpr ⟨⟨number, .file ref⟩, ?_, rfl⟩
    refine List.mem_filter.mpr ⟨?_, marked⟩
    exact AList.mem_lookup_iff.mp stored

/-! ## Inheritance -/

/-- A table as the program can build it: references are allocations. -/
structure SharingTable where
  table : VfdTable
  content :
    ∀ number ref, table.get number = some (.file ref) →
      OneContent table ref

/-- The tables of a run are such tables: a new reference has a new identity. -/
def tableOfRun
    {kernel : Kernel} {ops : List FdOp} {world : World}
    (reached : run World.step (World.init kernel) ops = some world)
    {vpid : VPid} {table : VfdTable}
    (found : world.getTable vpid = some table) :
    SharingTable where
  table := table
  content := by
    intro number ref stored other copy storedCopy sameArc
    have coherent :=
      invariant_of_run coherent_step (coherent_init kernel) reached
    have held (fd : Nat) : world.entry vpid fd = table.get fd :=
      entry_of_getTable found fd
    exact
      coherent.same copy ref ⟨vpid, other, (held other).trans storedCopy⟩
        ⟨vpid, number, (held number).trans stored⟩ sameArc

/-- The same map, whatever order it is iterated in. -/
def SameMap (left right : VfdTable) : Prop :=
  ∀ number, left.get number = right.get number

/-- The kernel descriptors `close_cloexec` returns. -/
def reportedFds (table : VfdTable) : List CInt :=
  table.closeCloexec.2.map FileRef.realFd

/-- What an executed program inherits from a table through its own copy. -/
structure Inherits (parent copy : VfdTable) : Prop where
  keeps :
    ∀ number vfd,
      copy.closeCloexec.1.get number = some vfd ↔
        parent.get number = some vfd ∧ isCloexec vfd = false
  reports :
    ∃ refs : List FileRef,
      reportedFds copy = refs.map FileRef.realFd ∧ refs.Nodup ∧
        ∀ ref, ref ∈ refs ↔
          ref.cloexec = true ∧
            ∃ number, parent.get number = some (.file ref)

/-- `close_cloexec` on a copy of a table, in any order. -/
theorem inherits_of_sameMap
    (parent : SharingTable) {copy : VfdTable}
    (same : SameMap copy parent.table) :
    Inherits parent.table copy := by
  have content (ref : FileRef) (number : Nat)
      (stored : copy.get number = some (.file ref)) :
      OneContent copy ref := by
    intro other copied storedOther sameArc
    rw [same] at stored storedOther
    exact
      parent.content number ref stored other copied storedOther sameArc
  constructor
  · intro number vfd
    rw [get_closeCloexec, same, Option.filter_eq_some_iff,
      Bool.not_eq_true_eq_eq_false]
  · refine ⟨copy.closeCloexec.2, rfl, ?_, ?_⟩
    · exact List.Nodup.of_map _ (closeFileFds_nodup _ copy)
    · intro ref
      rw [mem_closeCloexec_iff copy (content ref)]
      simp only [same _]

/-- Whatever a process did before, its copy inherits what `exec` promises. -/
theorem inherits_of_run
    {kernel : Kernel} {ops : List FdOp} {world : World}
    (reached : run World.step (World.init kernel) ops = some world)
    {vpid : VPid} {table copy : VfdTable}
    (found : world.getTable vpid = some table)
    (same : SameMap copy table.cloneForFork) :
    Inherits table copy :=
  inherits_of_sameMap (tableOfRun reached found) same

theorem getTable_forkFdTable
    (world : World) {parent child : VPid} {table : VfdTable}
    (found : world.getTable parent = some table) :
    (world.forkFdTable parent child).getTable child =
      some table.cloneForFork := by
  have forked : world.forkedTable parent = table.cloneForFork := by
    rw [forkedTable, found]
  rw [forkFdTable, getTable_congr (replaceTable_tables _ _ _),
    getTable_setTable, if_pos rfl, forked]

/--
After `fork_fd_table` and `close_cloexec`, the child has the parent's numbers
but those of close-on-exec files, each of which is reported once; the parent
has the table it had.
-/
theorem exec_inherits_descriptors
    (world : World) (parent child : VPid) (different : child ≠ parent)
    (table : SharingTable)
    (found : world.getTable parent = some table.table)
    (forked copy : VfdTable)
    (isForked :
      (world.forkFdTable parent child).getTable child = some forked)
    (same : SameMap copy forked) :
    Inherits table.table copy ∧
      ((world.forkFdTable parent child).setTable child
          copy.closeCloexec.1).getTable parent =
        some table.table := by
  rw [getTable_forkFdTable world found] at isForked
  cases isForked
  refine ⟨inherits_of_sameMap table same, ?_⟩
  rw [getTable_setTable, if_neg different.symm, forkFdTable,
    getTable_congr (replaceTable_tables _ _ _), getTable_setTable,
    if_neg different.symm]
  exact found

/-- The content of references, checked on the entries of a table. -/
theorem oneContent_of_values
    {table : VfdTable}
    (check : ∀ left ∈ values table.fds, ∀ right ∈ values table.fds,
      left.fileArc ≠ none → right.fileArc = left.fileArc → right = left)
    (number : Nat) (ref : FileRef)
    (stored : table.get number = some (.file ref)) :
    OneContent table ref := by
  intro other copied storedOther same
  have equal :=
    check (.file ref) (mem_values_iff.mpr ⟨number, stored⟩)
      (.file copied) (mem_values_iff.mpr ⟨other, storedOther⟩)
      nofun (congrArg some same)
  exact Vfd.file.inj equal

/-- Two numbers for a close-on-exec file and two for another, one of them 0. -/
def aliased : VfdTable :=
  let first := ((VfdTable.new.insertFile 0 10 true).1.dup2 3 7).table
  ((first.insertFile 1 11 false).1.dup2 4 0).table

def aliasedTable : SharingTable where
  table := aliased
  content := oneContent_of_values (by decide)

/-- The same map with its entries in the opposite order. -/
def aliasedReversed : VfdTable where
  fds :=
    { entries := aliased.fds.entries.reverse
      nodupKeys :=
        List.nodupKeys_iff_pairwise.mpr (by decide) }
  nextFd := aliased.nextFd
  nextFd_lt := aliased.nextFd_lt

theorem sameMap_aliasedReversed : SameMap aliasedReversed aliased := by
  intro number
  exact
    List.perm_dlookup number aliasedReversed.fds.nodupKeys
      (List.reverse_perm _)

/-- The process with that table. -/
def aliasedWorld : World :=
  (World.init Kernel.standard).setTable 1 aliased

theorem exec_inherits_descriptors_aliased :
    reportedFds aliasedReversed = [10] ∧
      Inherits aliased aliasedReversed ∧
      ((aliasedWorld.forkFdTable 1 2).setTable 2
          aliasedReversed.closeCloexec.1).getTable 1 = some aliased :=
  ⟨rfl,
    exec_inherits_descriptors aliasedWorld 1 2 (by decide) aliasedTable
      rfl aliased.cloneForFork aliasedReversed rfl
      sameMap_aliasedReversed⟩

/-! ## Numbers and their flags -/

/-- The calls which give a number an entry. -/
inductive Call where
  | openPath (flags : Nat) (answer : CInt)
  | dup (oldFd answer : CInt)
  | dup2 (oldFd newFd : CInt)
  | ffiDup (oldFd : CInt)
  | ffiDup2 (oldFd newFd : CInt)
deriving DecidableEq

def Call.toSys : Call → SysCall
  | .openPath flags answer => .openPath flags answer
  | .dup oldFd answer => .dup oldFd answer
  | .dup2 oldFd newFd => .dup2 oldFd newFd
  | .ffiDup oldFd => .ffiDup oldFd
  | .ffiDup2 oldFd newFd => .ffiDup2 oldFd newFd

/-- `open` with `O_CLOEXEC`. -/
def Call.opensCloexec : Call → Bool
  | .openPath flags _ => hasCloexec flags
  | _ => false

/--
The number a call assigns, if it gets that far.  A copy whose source is missing
leaves the number without an entry.
-/
def assigned (world : World) (vpid : VPid) : Call → Option Nat
  | .openPath _ answer =>
      if world.kernel.usable answer then
        some (world.tableOrNew vpid).nextFd
      else none
  | .dup oldFd answer => do
      let table ← world.getTable vpid
      match underlyingReal table oldFd with
      | some realFd =>
          if (world.kernel.files realFd).isSome ∧
              world.kernel.usable answer then
            some table.nextFd
          else none
      | none => some table.nextFd
  | .dup2 oldFd newFd => do
      let table ← world.getTable vpid
      match underlyingReal table oldFd with
      | some realFd =>
          if (world.kernel.files realFd).isSome ∧
              world.kernel.inRange newFd then
            some (asU32 newFd)
          else none
      | none => some (asU32 newFd)
  | .ffiDup _ => (world.getTable vpid).map VfdTable.nextFd
  | .ffiDup2 _ newFd => (world.getTable vpid).map fun _ => asU32 newFd

/--
A process's descriptors, with the numbers which `open` returned for
`O_CLOEXEC` and which have not been assigned since.
-/
structure Marked where
  world : World
  vpid : VPid
  marks : Nat → Bool

/-- At the start the marks are those of the entries found. -/
def start (world : World) (vpid : VPid) : Marked where
  world := world
  vpid := vpid
  marks := fun number => (world.entry vpid number).any isCloexec

/-- A call, and the mark of the number it assigns. -/
def step (state : Marked) (call : Call) : Option Marked :=
  some
    { world := (state.world.sys state.vpid call.toSys).1
      vpid := state.vpid
      marks :=
        match assigned state.world state.vpid call with
        | some number =>
            Function.update state.marks number call.opensCloexec
        | none => state.marks }

/-- `close_cloexec` removes the number from the process's table. -/
def Removes (state : Marked) (number : Nat) : Prop :=
  ∃ table, state.world.getTable state.vpid = some table ∧
    table.get number ≠ none ∧ table.closeCloexec.1.get number = none

/-- The numbers removed are the marked ones. -/
def RemovesMarked (state : Marked) : Prop :=
  ∀ number, Removes state number ↔ state.marks number = true

/--
A copy which shares a close-on-exec reference: `vproc_ffi_dup` or
`vproc_ffi_dup2` of such a number, to another number.
-/
def SharesFlag (state : Marked) : Call → Prop
  | .ffiDup oldFd =>
      ∃ table, state.world.getTable state.vpid = some table ∧
        asU32 oldFd ≠ table.nextFd ∧
        (table.get (asU32 oldFd)).any isCloexec = true
  | .ffiDup2 oldFd newFd =>
      asU32 oldFd ≠ asU32 newFd ∧
        (state.world.entry state.vpid (asU32 oldFd)).any isCloexec = true
  | _ => False

/-- What `close_cloexec` removes, by the entry of the number. -/
theorem removes_iff (state : Marked) (number : Nat) :
    Removes state number ↔
      (state.world.entry state.vpid number).any isCloexec = true := by
  unfold Removes
  cases found : state.world.getTable state.vpid with
  | none => simp [entry_of_getTable_none found]
  | some table =>
      rw [entry_of_getTable found]
      simp only [Option.some.injEq, exists_eq_left', get_closeCloexec]
      cases table.get number with
      | none => simp
      | some vfd => simp [Option.filter]

theorem removesMarked_iff (state : Marked) :
    RemovesMarked state ↔
      ∀ number,
        (state.world.entry state.vpid number).any isCloexec =
          state.marks number := by
  apply forall_congr'
  intro number
  rw [removes_iff]
  exact Bool.eq_iff_iff.symm

/-- The flag of the entry a call leaves at the number it assigns. -/
def flagLeft (world : World) (vpid : VPid) : Call → Bool
  | .openPath flags _ => hasCloexec flags
  | .dup _ _ | .dup2 _ _ => false
  | .ffiDup oldFd =>
      (world.getTable vpid).any fun table =>
        asU32 oldFd != table.nextFd &&
          (table.get (asU32 oldFd)).any isCloexec
  | .ffiDup2 oldFd newFd =>
      asU32 oldFd != asU32 newFd &&
        (world.entry vpid (asU32 oldFd)).any isCloexec

/-- A source without a kernel descriptor has no flag. -/
theorem any_isCloexec_of_underlyingReal
    {table : VfdTable} {oldFd : CInt}
    (source : underlyingReal table oldFd = none) :
    (table.get (asU32 oldFd)).any isCloexec = false := by
  unfold underlyingReal at source
  cases stored : table.get (asU32 oldFd) with
  | none => rfl
  | some vfd =>
      rw [stored] at source
      cases vfd with
      | file ref => cases source
      | _ => rfl

/-- The flags after an assignment of one number. -/
theorem any_isCloexec_changeAt
    (fd : Nat) (left before : Option Vfd) (number : Nat) :
    ((changeAt fd left number).getD before).any isCloexec =
      if number = fd then left.any isCloexec
      else before.any isCloexec := by
  rw [getD_changeAt]
  split <;> rfl

theorem any_isCloexec_tableOrNew
    (world : World) (vpid : VPid) (number : Nat) :
    ((world.tableOrNew vpid).get number).any isCloexec =
      (world.entry vpid number).any isCloexec := by
  unfold tableOrNew
  cases found : world.getTable vpid with
  | some table => rw [entry_of_getTable found, Option.getD_some]
  | none =>
      rw [entry_of_getTable_none found, Option.getD_none]
      cases held : VfdTable.new.get number with
      | none => rfl
      | some vfd =>
          obtain ⟨fd, rfl⟩ := real_of_get_newWithFds held
          rfl

theorem any_isCloexec_copied
    (oldFd newFd : Nat) (source : Option Vfd) :
    ((if oldFd = newFd then none else source).any isCloexec) =
      (oldFd != newFd && source.any isCloexec) := by
  by_cases same : oldFd = newFd
  · simp [same]
  · simp [same]

/-- The flags of a process after one of its calls. -/
theorem any_isCloexec_sys
    (world : World) (vpid : VPid) (call : Call) (number : Nat) :
    ((world.sys vpid call.toSys).1.entry vpid number).any isCloexec =
      match assigned world vpid call with
      | some target =>
          if number = target then flagLeft world vpid call
          else (world.entry vpid number).any isCloexec
      | none => (world.entry vpid number).any isCloexec := by
  rw [entry_sys, if_pos rfl]
  cases call with
  | openPath flags answer =>
      simp only [Call.toSys, callChange, openedChange, assigned]
      by_cases granted : world.kernel.usable answer = true
      · simp only [granted, if_true, getD_changeAt_or_defaultChange,
          any_isCloexec_changeAt, any_isCloexec_tableOrNew]
        rfl
      · simp [granted]
  | dup oldFd answer =>
      cases found : world.getTable vpid with
      | none => simp [Call.toSys, callChange, assigned, found]
      | some table =>
          cases source : underlyingReal table oldFd with
          | some realFd =>
              simp only [Call.toSys, callChange, assigned, found, source,
                Option.bind_eq_bind, Option.bind_some]
              split
              · rw [any_isCloexec_changeAt]
                rfl
              · rfl
          | none =>
              simp only [Call.toSys, callChange, assigned, found, source,
                Option.bind_eq_bind, Option.bind_some, copiedChange,
                any_isCloexec_changeAt, any_isCloexec_copied,
                any_isCloexec_of_underlyingReal source, Bool.and_false]
              rfl
  | dup2 oldFd newFd =>
      cases found : world.getTable vpid with
      | none => simp [Call.toSys, callChange, assigned, found]
      | some table =>
          cases source : underlyingReal table oldFd with
          | some realFd =>
              simp only [Call.toSys, callChange, assigned, found, source,
                Option.bind_eq_bind, Option.bind_some]
              split
              · rw [any_isCloexec_changeAt]
                rfl
              · rfl
          | none =>
              simp only [Call.toSys, callChange, assigned, found, source,
                Option.bind_eq_bind, Option.bind_some, copiedChange,
                any_isCloexec_changeAt, any_isCloexec_copied,
                any_isCloexec_of_underlyingReal source, Bool.and_false]
              rfl
  | ffiDup oldFd =>
      cases found : world.getTable vpid with
      | none => simp [Call.toSys, callChange, assigned, found]
      | some table =>
          simp only [Call.toSys, callChange, assigned, found,
            Option.map_some, copiedChange, any_isCloexec_changeAt,
            any_isCloexec_copied, flagLeft, Option.any_some]
  | ffiDup2 oldFd newFd =>
      cases found : world.getTable vpid with
      | none => simp [Call.toSys, callChange, assigned, found]
      | some table =>
          simp only [Call.toSys, callChange, assigned, found,
            Option.map_some, copiedChange, any_isCloexec_changeAt,
            any_isCloexec_copied, flagLeft, entry_of_getTable found]

/-- A number is assigned with the flag its call asked for, unless shared. -/
theorem flagLeft_eq_iff (state : Marked) (call : Call) :
    flagLeft state.world state.vpid call = call.opensCloexec ↔
      ¬ SharesFlag state call := by
  cases call with
  | openPath flags answer => simp [flagLeft, Call.opensCloexec, SharesFlag]
  | dup oldFd answer => simp [flagLeft, Call.opensCloexec, SharesFlag]
  | dup2 oldFd newFd => simp [flagLeft, Call.opensCloexec, SharesFlag]
  | ffiDup oldFd =>
      simp only [flagLeft, Call.opensCloexec, SharesFlag]
      cases state.world.getTable state.vpid with
      | none => simp
      | some table => simp
  | ffiDup2 oldFd newFd =>
      simp [flagLeft, Call.opensCloexec, SharesFlag]

/-- A call which assigns nothing shares nothing. -/
theorem not_sharesFlag_of_assigned
    {state : Marked} {call : Call}
    (nothing : assigned state.world state.vpid call = none) :
    ¬ SharesFlag state call := by
  cases call with
  | ffiDup oldFd =>
      rintro ⟨table, found, _⟩
      simp [assigned, found] at nothing
  | ffiDup2 oldFd newFd =>
      rintro ⟨_, held⟩
      have missing : state.world.getTable state.vpid = none := by
        simpa [assigned] using nothing
      rw [entry_of_getTable_none missing] at held
      cases held
  | _ => exact False.elim

/-- One call keeps flags and marks together, unless it shares a flag. -/
theorem removesMarked_step_iff
    {state next : Marked} {call : Call}
    (good : RemovesMarked state) (stepped : step state call = some next) :
    RemovesMarked next ↔ ¬ SharesFlag state call := by
  rw [removesMarked_iff] at good ⊢
  cases stepped
  simp only [any_isCloexec_sys]
  cases target : assigned state.world state.vpid call with
  | none =>
      have nothing := not_sharesFlag_of_assigned target
      simp only [nothing, not_false_eq_true, iff_true]
      exact good
  | some fd =>
      rw [← flagLeft_eq_iff]
      simp only [Function.update_apply, good]
      constructor
      · intro every
        simpa using every fd
      · intro same number
        rw [same]

theorem removesMarked_start (world : World) (vpid : VPid) :
    RemovesMarked (start world vpid) :=
  (removesMarked_iff _).mpr fun _ => rfl

theorem along_removesMarked_iff
    {state : Marked} (good : RemovesMarked state) (calls : List Call) :
    Along step (fun _ _ next => RemovesMarked next) state calls ↔
      Along step (fun state call _ => ¬ SharesFlag state call)
        state calls := by
  refine along_good_iff ?_ ?_ good
  · intro state call next good stepped condition
    exact (removesMarked_step_iff good stepped).mpr condition
  · intro state call next good stepped after
    exact (removesMarked_step_iff good stepped).mp after

/--
Along a run of opens and copies through both layers, `close_cloexec` removes
the numbers which `open` returned for `O_CLOEXEC` and no others, if and only
if no `vproc_ffi_dup` or `vproc_ffi_dup2` copies a close-on-exec number.
-/
theorem cloexec_stays_with_number_iff
    (world : World) (vpid : VPid) (calls : List Call) :
    RemovesMarked (start world vpid) ∧
      (Along step (fun _ _ next => RemovesMarked next)
          (start world vpid) calls ↔
        Along step (fun state call _ => ¬ SharesFlag state call)
          (start world vpid) calls) :=
  ⟨removesMarked_start world vpid,
    along_removesMarked_iff (removesMarked_start world vpid) calls⟩

/-- A process which has opened nothing yet. -/
def standardWorld : World :=
  (World.init Kernel.standard).createTableWithFds 1 0 1 2

/-- `open` with `O_CLOEXEC`. -/
def openCloexec : Call :=
  .openPath 524288 10

/--
The number 3 is close-on-exec.  The Rust interceptor's copy of it survives
`close_cloexec`, the copy of `vproc_ffi_dup` does not.
-/
theorem ffi_copy_closed_on_exec :
    Along step (fun _ _ next => RemovesMarked next)
        (start standardWorld 1) [openCloexec, .dup 3 11] ∧
      ¬ Along step (fun _ _ next => RemovesMarked next)
        (start standardWorld 1) [openCloexec, .ffiDup 3] := by
  constructor
  · apply (along_removesMarked_iff (removesMarked_start _ _) _).mpr
    exact fun _ _ => ⟨id, fun _ _ => ⟨id, True.intro⟩⟩
  · intro along
    obtain ⟨_, later⟩ := along _ rfl
    obtain ⟨after, _⟩ := later _ rfl
    have flags := (removesMarked_iff _).mp after 4
    revert flags
    decide

end Vproc.Fd.ExecInheritance
