import Vproc.Fd.HandedFds
import Vproc.Lib.Run

/-!
# Owned descriptors are closed once, and last

Reaping counts the references to an owned descriptor in all tables before it
closes it.  `close` looks at its own table only, and an exec closes the
close-on-exec entries which it has just copied, so neither sees the references
which a fork or an exec has put into other tables.  Runs in which such a step
meets no other reference close every descriptor at most once, when nothing
refers to it any more.
-/

namespace Vproc.Fd.FileOwnership

open Vproc.Lib.Run
open Vproc.Lib.FiniteMap
open Vproc.Fd.Table
open Vproc.Fd.KernelTable
open Vproc.Fd.Runtime
open Vproc.Fd.Runtime.World
open Vproc.Fd.Effects
open Vproc.Fd.HandedFds

/-! ## References between tables -/

theorem refersTo_iff (world : World) (arc : ArcId) :
    world.refersTo arc = true ↔
      ∃ vpid number, RefersAt world vpid number arc := by
  unfold refersTo
  rw [any_values_iff]
  constructor
  · rintro ⟨vpid, table, found, inside⟩
    obtain ⟨number, vfd, stored, same⟩ := any_values_iff.mp inside
    exact
      ⟨vpid, number, vfd, (entry_of_getTable found number).trans stored,
        by simpa using same⟩
  · rintro ⟨vpid, number, vfd, held, same⟩
    cases found : world.getTable vpid with
    | none =>
        rw [entry_of_getTable_none found] at held
        cases held
    | some table =>
        rw [entry_of_getTable found] at held
        exact
          ⟨vpid, table, found,
            any_values_iff.mpr ⟨number, vfd, held, by simp [same]⟩⟩

/-- A reference counted once is held by one table only. -/
theorem eq_of_strongCount_eq_one
    {world : World} {arc : ArcId} (once : world.strongCount arc = 1)
    {first second : VPid} {left right : Nat}
    (hasFirst : RefersAt world first left arc)
    (hasSecond : RefersAt world second right arc) :
    first = second := by
  by_contra different
  have listed {vpid : VPid} {number : Nat}
      (refers : RefersAt world vpid number arc) :
      ∃ table, world.tables.lookup vpid = some table ∧
        1 ≤ (values table.fds).countP
          fun vfd => vfd.fileArc == some arc := by
    obtain ⟨vfd, held, same⟩ := refers
    cases found : world.getTable vpid with
    | none =>
        rw [entry_of_getTable_none found] at held
        cases held
    | some table =>
        rw [entry_of_getTable found] at held
        refine ⟨table, found, ?_⟩
        apply List.countP_pos_iff.mpr
        exact ⟨vfd, mem_values_iff.mpr ⟨number, held⟩, by simp [same]⟩
  obtain ⟨leftTable, leftIn, leftCount⟩ := listed hasFirst
  obtain ⟨rightTable, rightIn, rightCount⟩ := listed hasSecond
  have total : _ ≤ world.strongCount arc :=
    add_le_sum_values _ different leftIn rightIn
  omega

/-! ## Owned descriptors -/

/--
No reference is handed to `real_close` twice, and none at a moment when an
entry of some table still refers to it.
-/
def ClosedSafely (world : World) : Prop :=
  (world.handed.filterMap fun handed => ownedArc handed.origin).Nodup ∧
    ∀ handed ∈ world.handed, handed.referred = false

/--
The step closes a reference without counting: with its table's last number
for it, or as a close-on-exec entry of the table an exec starts from.
Reaping counts the references in all tables.
-/
def ClosesUncounted (world : World) (ref : FileRef) : FdOp → Prop
  | .sys vpid (.close fd) =>
      0 ≤ fd ∧ LastFile world vpid (asU32 fd) ref
  | .sys vpid (.ffiClose fd) => LastFile world vpid (asU32 fd) ref
  | .exec (some caller) _ =>
      ref.cloexec = true ∧
        ∃ number, world.entry caller number = some (.file ref)
  | .exec none child =>
      ref.cloexec = true ∧
        ∃ number, world.entry child number = some (.file ref)
  | _ => False

/-- The process in whose table a step closes owned descriptors. -/
def closer : FdOp → Option VPid
  | .sys vpid _ => some vpid
  | .exec _ child => some child
  | _ => none

/-- No other table refers to what a step closes without counting. -/
def ClosesAlone (world : World) (op : FdOp) : Prop :=
  ∀ ref, ClosesUncounted world ref op →
    ∀ vpid number, RefersAt world vpid number ref.arc →
      closer op = some vpid

/-- The new process's entries are what `close_cloexec` leaves. -/
theorem entry_exec_child
    {world : World} {parent : Option VPid} {child : VPid}
    {table : VfdTable} (heir : execHeir world parent child = some table)
    (number : Nat) :
    (world.apply (.exec parent child)).entry child number =
      table.closeCloexec.1.get number := by
  rw [entry_apply, VfdTable.get_closeCloexec]
  cases parent with
  | none =>
      rw [← entry_of_getTable heir]
      simp only [effect, true_and]
      cases held : world.entry child number with
      | none => simp
      | some vfd =>
          cases marked : VfdTable.isCloexec vfd with
          | false => simp [marked, Option.filter]
          | true => simp [marked, Option.filter]
  | some caller =>
      cases heir
      simp [effect]

/-- After a `close` of the last number, only other tables can refer. -/
theorem vpid_ne_of_refersAt_closed
    {world : World} {vpid : VPid} {call : SysCall} {number : Nat}
    {ref : FileRef} (last : LastFile world vpid number ref)
    (changes : ∀ other, callChange world vpid call other =
      changeAt number none other)
    {owner : VPid} {other : Nat}
    (refers :
      RefersAt (world.apply (.sys vpid call)) owner other ref.arc) :
    owner ≠ vpid ∧ RefersAt world owner other ref.arc := by
  obtain ⟨vfd, held, same⟩ := refers
  rw [entry_apply] at held
  by_cases own : owner = vpid
  · subst owner
    simp only [effect, if_true, changes, getD_changeAt] at held
    split at held
    · cases held
    · rename_i different
      exact (last.2 other different ⟨vfd, held, same⟩).elim
  · simp only [effect, own, if_false, Option.getD_none] at held
    exact ⟨own, vfd, held, same⟩

/-- An exec leaves the other tables' references as they are. -/
theorem refersAt_of_exec
    {world : World} {parent : Option VPid} {child owner : VPid}
    (other : owner ≠ child) {number : Nat} {arc : ArcId}
    (refers :
      RefersAt (world.apply (.exec parent child)) owner number arc) :
    RefersAt world owner number arc := by
  obtain ⟨vfd, after, same⟩ := refers
  rw [entry_apply] at after
  refine ⟨vfd, ?_, same⟩
  cases parent with
  | none => simpa [effect, other] using after
  | some caller => simpa [effect, other] using after

/-- The new process does not refer to what its exec has closed. -/
theorem not_refersAt_exec_child
    {world : World} {parent : Option VPid} {child : VPid}
    {table : VfdTable} (heir : execHeir world parent child = some table)
    {ref : FileRef} (closed : ref ∈ table.closeCloexec.2) {number : Nat} :
    ¬ RefersAt (world.apply (.exec parent child)) child number ref.arc := by
  rintro ⟨vfd, after, same⟩
  rw [entry_exec_child heir] at after
  exact VfdTable.closeFileFds_unreferenced _ table closed after same

/-- The last reference goes away with the table which held it. -/
theorem not_refersAt_reap
    {world : World} {vpid : VPid} {number : Nat} {ref : FileRef}
    (held : world.entry vpid number = some (.file ref))
    (once : world.strongCount ref.arc = 1) {owner : VPid} {other : Nat} :
    ¬ RefersAt (world.apply (.reap vpid)) owner other ref.arc := by
  rintro ⟨vfd, after, same⟩
  rw [entry_apply] at after
  by_cases own : owner = vpid
  · simp [effect, own] at after
  · simp only [effect, own, if_false, Option.getD_none] at after
    have mine : RefersAt world vpid number ref.arc :=
      ⟨.file ref, held, rfl⟩
    exact own (eq_of_strongCount_eq_one once ⟨vfd, after, same⟩ mine)

/-- Nothing refers to what a step has closed, if it closes alone. -/
theorem not_refersTo_of_mem_handsOver
    {world : World} {op : FdOp} (good : ClosesAlone world op)
    {fd : CInt} {arc : ArcId}
    (member : (fd, .owned arc) ∈ handsOver world op) :
    ¬ (world.apply op).refersTo arc = true := by
  rw [refersTo_iff]
  rintro ⟨owner, other, refers⟩
  obtain ⟨ref, hands, _, rfl⟩ := handsOwned_of_mem member
  cases hands with
  | close nonnegative last =>
      obtain ⟨different, before⟩ :=
        vpid_ne_of_refersAt_closed last
          (fun _ => by
            simp only [callChange, not_lt.mpr nonnegative, if_false])
          refers
      have own := good ref ⟨nonnegative, last⟩ owner other before
      exact different (Option.some.inj own).symm
  | ffiClose last =>
      obtain ⟨different, before⟩ :=
        vpid_ne_of_refersAt_closed last (fun _ => rfl) refers
      have own := good ref last owner other before
      exact different (Option.some.inj own).symm
  | @exec parent child table _ heir closed =>
      have uncounted : ClosesUncounted world ref (.exec parent child) := by
        have marked := cloexec_of_mem_closeCloexec heir closed
        cases parent with
        | none => exact marked
        | some caller => exact marked
      by_cases own : owner = child
      · subst owner
        exact not_refersAt_exec_child heir closed refers
      · have before := refersAt_of_exec own refers
        have isChild := good ref uncounted owner other before
        exact own (Option.some.inj isChild).symm
  | reap held once => exact not_refersAt_reap held once refers

/-- What holds of owned references in a run which closes them alone. -/
structure OwnedInvariant (world : World) : Prop where
  fresh : ∀ vpid number arc, RefersAt world vpid number arc →
    arc < world.nextArc
  used : ∀ handed ∈ world.handed, ∀ arc,
    ownedArc handed.origin = some arc → arc < world.nextArc
  gone : ∀ handed ∈ world.handed, ∀ arc,
    ownedArc handed.origin = some arc →
      ¬ world.refersTo arc = true
  once : (world.handed.filterMap
    fun handed => ownedArc handed.origin).Nodup
  unreferred : ∀ handed ∈ world.handed, handed.referred = false

theorem ownedInvariant_init (kernel : Kernel) :
    OwnedInvariant (World.init kernel) where
  fresh := by
    rintro vpid number arc ⟨vfd, held, _⟩
    cases held
  used := by
    intro handed member
    cases member
  gone := by
    intro handed member
    cases member
  once := List.nodup_nil
  unreferred := by
    intro handed member
    cases member

/-- An entry after a step refers to an old reference, or to the next one. -/
theorem refersAt_of_apply
    {world : World} {op : FdOp} (admitted : world.admits op = true)
    {vpid : VPid} {number : Nat} {arc : ArcId}
    (refers : RefersAt (world.apply op) vpid number arc) :
    (∃ owner source, RefersAt world owner source arc) ∨
      arc = world.nextArc ∧
        (world.apply op).nextArc = world.nextArc + 1 := by
  obtain ⟨vfd, held, same⟩ := refers
  rcases origin_of_entry admitted held
    with ⟨owner, source, before⟩ | ⟨fd, rfl⟩ | ⟨ref, rfl, fresh, counted⟩ |
      ⟨buf, ofBuf, _⟩
  · exact Or.inl ⟨owner, source, vfd, before, same⟩
  · cases same
  · cases same
    exact Or.inr ⟨fresh, counted⟩
  · cases vfd with
    | real fd => cases same
    | file ref => cases ofBuf
    | pipeRead other => cases same
    | pipeWrite other => cases same

/-- The owned numbers among what a step has recorded are those it hands over. -/
theorem mem_handsOver_of_recorded
    {world after : World} {op : FdOp} {item : Handed}
    (member : item ∈ (handsOver world op).map (record after))
    {arc : ArcId} (owned : ownedArc item.origin = some arc) :
    ∃ fd, (fd, .owned arc) ∈ handsOver world op := by
  obtain ⟨⟨fd, origin⟩, listed, rfl⟩ := List.mem_map.mp member
  cases origin with
  | borrowed => cases owned
  | raw => cases owned
  | owned other =>
      cases owned
      exact ⟨fd, listed⟩

/-- What a step hands over was referred to before. -/
theorem refersAt_of_mem_handsOver
    {world : World} {op : FdOp} {fd : CInt} {arc : ArcId}
    (listed : (fd, .owned arc) ∈ handsOver world op) :
    ∃ vpid number, RefersAt world vpid number arc := by
  obtain ⟨vpid, number, ref, held, _, same⟩ :=
    file_of_mem_handsOver listed
  exact ⟨vpid, number, .file ref, held, congrArg some same⟩

/-- A reference closed before a step is not referred to after it. -/
theorem OwnedInvariant.still_gone
    {world : World} {op : FdOp} (invariant : OwnedInvariant world)
    (admitted : world.admits op = true)
    {item : Handed} (member : item ∈ world.handed)
    {arc : ArcId} (owned : ownedArc item.origin = some arc) :
    ¬ (world.apply op).refersTo arc = true := by
  intro after
  obtain ⟨vpid, number, refers⟩ :=
    (refersTo_iff (world.apply op) arc).mp after
  rcases refersAt_of_apply admitted refers with before | ⟨rfl, _⟩
  · exact invariant.gone item member arc owned
      ((refersTo_iff world arc).mpr before)
  · exact lt_irrefl _ (invariant.used item member _ owned)

/-- What a step hands over has not been handed over before. -/
theorem OwnedInvariant.once_append
    {world : World} (invariant : OwnedInvariant world) (op : FdOp)
    (after : World) :
    ((world.handed ++ (handsOver world op).map (record after)).filterMap
      fun handed => ownedArc handed.origin).Nodup := by
  have recorded :
      ((handsOver world op).map (record after)).filterMap
          (fun item => ownedArc item.origin) =
        (handsOver world op).filterMap fun item => ownedArc item.2 := by
    rw [List.filterMap_map]
    rfl
  rw [List.filterMap_append, recorded]
  refine List.Nodup.append invariant.once (handsOver_nodup world op) ?_
  intro arc old new
  obtain ⟨item, member, owned⟩ := List.mem_filterMap.mp old
  rw [← recorded] at new
  obtain ⟨again, listed, same⟩ := List.mem_filterMap.mp new
  obtain ⟨fd, handed⟩ := mem_handsOver_of_recorded listed same
  have refers := refersAt_of_mem_handsOver handed
  exact invariant.gone item member arc owned
    ((refersTo_iff world arc).mpr refers)

theorem ownedInvariant_step
    (world : World) (op : FdOp) (next : World)
    (invariant : OwnedInvariant world)
    (stepped : world.step op = some next)
    (good : ClosesAlone world op) :
    OwnedInvariant next := by
  obtain ⟨admitted, rfl⟩ := step_eq_some_iff.mp stepped
  have handed := handed_apply world op
  have grows := nextArc_apply world op
  constructor
  case fresh =>
    intro vpid number arc refers
    rcases refersAt_of_apply admitted refers
      with ⟨owner, source, before⟩ | ⟨rfl, counted⟩
    · exact (invariant.fresh owner source arc before).trans_le grows
    · rw [counted]
      exact Nat.lt_succ_self _
  case used =>
    intro item member arc owned
    rw [handed] at member
    rcases List.mem_append.mp member with old | new
    · exact (invariant.used item old arc owned).trans_le grows
    · obtain ⟨fd, listed⟩ := mem_handsOver_of_recorded new owned
      obtain ⟨vpid, number, refers⟩ := refersAt_of_mem_handsOver listed
      exact (invariant.fresh vpid number arc refers).trans_le grows
  case gone =>
    intro item member arc owned
    rw [handed] at member
    rcases List.mem_append.mp member with old | new
    · exact invariant.still_gone admitted old owned
    · obtain ⟨fd, listed⟩ := mem_handsOver_of_recorded new owned
      exact not_refersTo_of_mem_handsOver good listed
  case once =>
    rw [handed]
    exact invariant.once_append op (world.apply op)
  case unreferred =>
    intro item member
    rw [handed] at member
    rcases List.mem_append.mp member with old | new
    · exact invariant.unreferred item old
    · obtain ⟨⟨fd, origin⟩, listed, rfl⟩ := List.mem_map.mp new
      cases origin with
      | borrowed => rfl
      | raw => rfl
      | owned arc =>
          have gone := not_refersTo_of_mem_handsOver good listed
          simpa [record] using gone

/--
In a run whose steps close owned descriptors alone, every reference is handed
to `real_close` at most once, and only when no entry refers to it.
-/
theorem owned_fds_closed_safely
    (kernel : Kernel) (ops : List FdOp) (final : World)
    (reached : run World.step (World.init kernel) ops = some final)
    (good : Along World.step (fun world op _ => ClosesAlone world op)
      (World.init kernel) ops) :
    ClosedSafely final := by
  have invariant :=
    invariant_of_along ownedInvariant_step (ownedInvariant_init kernel)
      good reached
  exact ⟨invariant.once, invariant.unreferred⟩

/-- A file is shared by a fork, and the parent goes away before the child. -/
def sharedThenClosed : List FdOp :=
  [.sys 1 (.creat 3), .fork 1 2, .reap 1, .sys 2 (.close 3)]

theorem owned_fds_closed_safely_sharedThenClosed :
    ∃ final,
      run World.step (World.init Kernel.standard) sharedThenClosed =
          some final ∧
        { fd := 3, origin := .owned 0, referred := false } ∈
            final.handed ∧
          ClosedSafely final := by
  refine ⟨_, rfl, by decide, ?_⟩
  apply owned_fds_closed_safely Kernel.standard sharedThenClosed _ rfl
  intro first opened
  obtain ⟨_, rfl⟩ := step_eq_some_iff.mp opened
  refine ⟨fun _ closes => closes.elim, ?_⟩
  intro second forked
  obtain ⟨_, rfl⟩ := step_eq_some_iff.mp forked
  refine ⟨fun _ closes => closes.elim, ?_⟩
  intro third reaped
  obtain ⟨_, rfl⟩ := step_eq_some_iff.mp reaped
  refine ⟨fun _ closes => closes.elim, ?_⟩
  intro fourth closed
  refine ⟨?_, True.intro⟩
  rintro ref _ vpid number ⟨vfd, held, _⟩
  rw [entry_apply, entry_apply, entry_apply] at held
  by_cases reader : vpid = 2
  · rw [reader]
    rfl
  · by_cases writer : vpid = 1
    · simp [effect, writer] at held
    · simp [effect, writer, reader] at held
      cases held

/--
The parent closes a file it shares with its child; the kernel descriptor is
closed although the child's entry refers to it.
-/
theorem owned_fd_closed_while_shared :
    ¬ ∀ (kernel : Kernel) (ops : List FdOp) (final : World),
        run World.step (World.init kernel) ops = some final →
          ClosedSafely final := by
  intro always
  have safe :=
    always Kernel.standard
      [.sys 1 (.creat 3), .fork 1 2, .sys 1 (.close 3)] _ rfl
  have unreferred :=
    safe.2 { fd := 3, origin := .owned 0, referred := true } (by decide)
  cases unreferred

end Vproc.Fd.FileOwnership
