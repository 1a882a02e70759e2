import Vproc.Fd.FileOwnership

/-!
# Owned descriptors are closed in the end

An owned descriptor should be given to `real_close` when the last entry for it
goes away.  `close`, `vproc_ffi_close` and the close-on-exec pass do so, and
reaping does so for a descriptor with a single entry.  The other ways in which
an entry goes away drop it without a close: a `dup2`, an `insert_at` or a new
number which takes the place of an entry, a table put in the place of another,
and the reaping of a table with two entries for one descriptor.
-/

namespace Vproc.Fd.FileLeaks

open Vproc.Lib.Run
open Vproc.Lib.FiniteMap
open Vproc.Fd.Table
open Vproc.Fd.KernelTable
open Vproc.Fd.Runtime
open Vproc.Fd.Runtime.World
open Vproc.Fd.Effects
open Vproc.Fd.HandedFds
open Vproc.Fd.FileOwnership

/-- Some table has an entry for this reference. -/
def Held (world : World) (ref : FileRef) : Prop :=
  ∃ vpid number, world.entry vpid number = some (.file ref)

/-- The kernel descriptor which the `dup2` of a process duplicates. -/
def dup2Source (world : World) (vpid : VPid) (oldFd : CInt) :
    Option CInt :=
  match world.getTable vpid with
  | none => some oldFd
  | some table => underlyingReal table oldFd

/-- The step makes the kernel replace a number by a `dup2` onto it. -/
def Replaces (world : World) (fd : CInt) : FdOp → Prop
  | .sys vpid (.dup2 oldFd newFd) =>
      newFd = fd ∧
        ∃ source, dup2Source world vpid oldFd = some source ∧
          0 ≤ (world.kernel.dup2 source newFd).2
  | .rawDup3 oldFd newFd =>
      newFd = fd ∧ ¬ (oldFd < 0 ∨ oldFd = newFd) ∧
        0 ≤ (world.kernel.dup2 oldFd newFd).2
  | _ => False

/-- A number is given to `real_close` in the step, or replaced by it. -/
def Freed (fd : CInt) (world : World) (op : FdOp) (next : World) : Prop :=
  (∃ new, next.handed = world.handed ++ new ∧
    ∃ item ∈ new, item.fd = fd) ∨
  Replaces world fd op

/-- The step overwrites or drops every entry for a reference. -/
def Drops (world : World) (ref : FileRef) (op : FdOp) : Prop :=
  Held world ref ∧
    (∀ vpid number, world.entry vpid number = some (.file ref) →
      (effect world op vpid number).isSome = true) ∧
    ∀ vpid number, effect world op vpid number ≠ some (some (.file ref))

/-- The ways of dropping the last entry which also free the descriptor. -/
def Closes (world : World) (ref : FileRef) : FdOp → Prop
  | .sys _ (.close _) => True
  | .sys _ (.ffiClose _) => True
  | .sys vpid (.dup2 oldFd newFd) =>
      newFd = ref.realFd ∧ (dup2Source world vpid oldFd).isSome = true
  | .exec parent child => parent.getD child = child
  | .reap _ => world.strongCount ref.arc = 1
  | _ => False

/-- The step drops no reference but in one of these ways. -/
def ClosesWhatItDrops (world : World) (op : FdOp) : Prop :=
  ∀ ref, Drops world ref op → Closes world ref op

/-! ## One reference for each identity -/

/-- The reference a step makes. -/
def newRef (world : World) : FdOp → Option FileRef
  | .sys _ (.openPath flags answer) =>
      some
        { arc := world.nextArc
          realFd := answer
          cloexec := hasCloexec flags }
  | .sys _ (.openatPath flags answer) =>
      some
        { arc := world.nextArc
          realFd := answer
          cloexec := hasCloexec flags }
  | .sys _ (.creat answer) =>
      some { arc := world.nextArc, realFd := answer, cloexec := false }
  | .sys _ (.dup _ answer) =>
      some { arc := world.nextArc, realFd := answer, cloexec := false }
  | .sys _ (.dup2 _ newFd) =>
      some { arc := world.nextArc, realFd := newFd, cloexec := false }
  | .sys _ (.insertAt _ (.file ref)) => some ref
  | _ => none

section NewReferences

variable {world : World} {vpid : VPid} {number : Nat} {ref : FileRef}

theorem not_file_of_defaultChange :
    defaultChange world vpid number ≠ some (some (.file ref)) := by
  intro put
  unfold defaultChange at put
  split at put
  · obtain ⟨fd, borrowed⟩ := real_of_get_newWithFds (Option.some.inj put)
    cases borrowed
  · cases put

theorem newRef_of_openedChange
    {cloexec : Bool} {answer : CInt}
    (put : openedChange world vpid cloexec answer number =
      some (some (.file ref))) :
    ref =
      { arc := world.nextArc, realFd := answer, cloexec := cloexec } := by
  unfold openedChange at put
  split at put
  · rcases Option.or_eq_some_iff.mp put with first | ⟨_, second⟩
    · obtain ⟨_, left⟩ := changeAt_eq_some_iff.mp first
      cases left
      rfl
    · exact (not_file_of_defaultChange second).elim
  · cases put

theorem held_of_copiedChange
    {table : VfdTable} (found : world.getTable vpid = some table)
    {oldFd newFd : Nat}
    (put : copiedChange table oldFd newFd number =
      some (some (.file ref))) :
    Held world ref :=
  ⟨vpid, oldFd, (entry_of_copiedChange found put).2⟩

/-- A reference a call puts into its table was in one, or is the new one. -/
theorem file_of_callChange
    {call : SysCall}
    (put : callChange world vpid call number = some (some (.file ref))) :
    Held world ref ∨ newRef world (.sys vpid call) = some ref := by
  cases call with
  | openPath flags answer =>
      exact Or.inr (congrArg some (newRef_of_openedChange put).symm)
  | openatPath flags answer =>
      exact Or.inr (congrArg some (newRef_of_openedChange put).symm)
  | creat answer =>
      exact Or.inr (congrArg some (newRef_of_openedChange put).symm)
  | dup oldFd answer =>
      simp only [callChange] at put
      split at put
      · cases put
      · rename_i table found
        split at put
        · split at put
          · exact Or.inr
              (congrArg some (Vfd.file.inj (Option.some.inj
                (changeAt_eq_some_iff.mp put).2)))
          · cases put
        · exact Or.inl (held_of_copiedChange found put)
  | dup2 oldFd newFd =>
      simp only [callChange] at put
      split at put
      · cases put
      · rename_i table found
        split at put
        · split at put
          · exact Or.inr
              (congrArg some (Vfd.file.inj (Option.some.inj
                (changeAt_eq_some_iff.mp put).2)))
          · cases put
        · exact Or.inl (held_of_copiedChange found put)
  | close fd =>
      simp only [callChange] at put
      split at put
      · cases put
      · cases (changeAt_eq_some_iff.mp put).2
  | ffiPipe =>
      simp only [callChange] at put
      rcases Option.or_eq_some_iff.mp put with ends | ⟨_, default⟩
      · rcases Option.or_eq_some_iff.mp ends with write | ⟨_, read⟩
        · cases (changeAt_eq_some_iff.mp write).2
        · cases (changeAt_eq_some_iff.mp read).2
      · exact (not_file_of_defaultChange default).elim
  | ffiDup oldFd =>
      simp only [callChange] at put
      split at put
      · cases put
      · rename_i table found
        exact Or.inl (held_of_copiedChange found put)
  | ffiDup2 oldFd newFd =>
      simp only [callChange] at put
      split at put
      · cases put
      · rename_i table found
        exact Or.inl (held_of_copiedChange found put)
  | ffiClose fd => cases (changeAt_eq_some_iff.mp put).2
  | insertAt fd given =>
      simp only [callChange] at put
      split at put
      · cases put
      · obtain ⟨_, left⟩ := changeAt_eq_some_iff.mp put
        cases left
        exact Or.inr rfl
  | pipe readFd writeFd => cases put
  | readPipe fd dst => cases put
  | writePipe fd src => cases put

/-- A reference in a table after a step was in one before, or is new. -/
theorem file_of_entry
    {op : FdOp}
    (held : (world.apply op).entry vpid number = some (.file ref)) :
    Held world ref ∨ newRef world op = some ref := by
  rw [entry_apply] at held
  cases change : effect world op vpid number with
  | none =>
      rw [change] at held
      exact Or.inl ⟨vpid, number, held⟩
  | some left =>
      rw [change, Option.getD_some] at held
      subst left
      have forked {parent : VPid}
          (copied : (world.forkedTable parent).get number =
            some (.file ref)) :
          Held world ref := by
        rcases origin_of_forkedTable copied with inherited | ⟨fd, real⟩
        · exact ⟨parent, number, inherited⟩
        · cases real
      cases op with
      | createTable owner stdin stdout stderr =>
          simp only [effect] at change
          split at change
          · obtain ⟨fd, borrowed⟩ :=
              real_of_get_newWithFds (Option.some.inj change)
            cases borrowed
          · cases change
      | sys owner call =>
          simp only [effect] at change
          split at change
          · exact file_of_callChange change
          · cases change
      | fork parent child =>
          simp only [effect] at change
          split at change
          · exact Or.inl (forked (Option.some.inj change))
          · cases change
      | exec parent child =>
          cases parent with
          | none =>
              simp only [effect] at change
              split at change <;> cases change
          | some owner =>
              simp only [effect] at change
              split at change
              · obtain ⟨copied, _⟩ :=
                  Option.filter_eq_some_iff.mp (Option.some.inj change)
                exact Or.inl (forked copied)
              · cases change
      | removeTable owner =>
          simp only [effect] at change
          split at change <;> cases change
      | reap owner =>
          simp only [effect] at change
          split at change <;> cases change
      | cleanup => cases change
      | rawDup3 oldFd newFd => cases change

end NewReferences

/-- Entries for one identity are entries for one reference. -/
structure Coherent (world : World) : Prop where
  fresh : ∀ ref, Held world ref → ref.arc < world.nextArc
  same : ∀ first second, Held world first → Held world second →
    first.arc = second.arc → first = second

theorem coherent_init (kernel : Kernel) :
    Coherent (World.init kernel) where
  fresh := by
    rintro ref ⟨vpid, number, held⟩
    cases held
  same := by
    rintro first second ⟨vpid, number, held⟩
    cases held

theorem coherent_step
    (world : World) (op : FdOp) (next : World)
    (coherent : Coherent world) (stepped : world.step op = some next) :
    Coherent next := by
  obtain ⟨admitted, rfl⟩ := step_eq_some_iff.mp stepped
  have grows := nextArc_apply world op
  -- A reference which was in no table has the next identity.
  have fresh {ref : FileRef} (held : Held (world.apply op) ref)
      (before : ¬ Held world ref) :
      ref.arc = world.nextArc ∧
        (world.apply op).nextArc = world.nextArc + 1 := by
    obtain ⟨vpid, number, stored⟩ := held
    rcases origin_of_entry admitted stored
      with old | ⟨fd, real⟩ | ⟨other, same, fresh, counted⟩ |
        ⟨buf, ofBuf, _⟩
    · exact (before old).elim
    · cases real
    · cases same
      exact ⟨fresh, counted⟩
    · cases ofBuf
  have isNew {ref : FileRef} (held : Held (world.apply op) ref)
      (before : ¬ Held world ref) : newRef world op = some ref := by
    obtain ⟨vpid, number, stored⟩ := held
    exact (file_of_entry stored).resolve_left before
  constructor
  case fresh =>
    intro ref held
    by_cases before : Held world ref
    · exact (coherent.fresh ref before).trans_le grows
    · obtain ⟨isNext, counted⟩ := fresh held before
      rw [isNext, counted]
      exact Nat.lt_succ_self _
  case same =>
    intro first second hasFirst hasSecond sameArc
    by_cases old : Held world first
    · by_cases alsoOld : Held world second
      · exact coherent.same first second old alsoOld sameArc
      · have below := coherent.fresh first old
        have isNext := (fresh hasSecond alsoOld).1
        exact absurd (sameArc.trans isNext) below.ne
    · by_cases alsoOld : Held world second
      · have below := coherent.fresh second alsoOld
        have isNext := (fresh hasFirst old).1
        exact absurd (sameArc.symm.trans isNext) below.ne
      · exact
          Option.some.inj
            ((isNew hasFirst old).symm.trans (isNew hasSecond alsoOld))

/-! ## The ways which free the descriptor -/

section Ways

variable {world : World} {ref : FileRef}

theorem mem_closeHands
    {vpid : VPid} {table : VfdTable}
    (found : world.getTable vpid = some table) {fd : CInt}
    (last : LastFile world vpid (asU32 fd) ref) :
    (ref.realFd, .owned ref.arc) ∈ closeHands table fd := by
  have closed : (table.closeFileFd (asU32 fd)).2 = some ref := by
    apply (VfdTable.closeFileFd_eq_some_iff table (asU32 fd) ref).mpr
    refine ⟨(entry_of_getTable found _).symm.trans last.1, ?_⟩
    intro number vfd different stored same
    exact last.2 number different
      ⟨vfd, (entry_of_getTable found number).trans stored, same⟩
  rw [closeHands, closed]
  exact mem_ownedFds_iff.mpr ⟨ref, List.mem_singleton_self _, rfl, rfl⟩

/-- Reaping collects a reference with a single entry. -/
theorem mem_collectFds
    {strongCount : ArcId → Nat} (vfds : List Vfd)
    (seenReal : List CInt) (seenFile : List ArcId)
    (member : .file ref ∈ vfds) (unseen : ref.arc ∉ seenFile)
    (once : strongCount ref.arc = 1)
    (same : ∀ other, .file other ∈ vfds → other.arc = ref.arc →
      other = ref) :
    (ref.realFd, .owned ref.arc) ∈
      collectFds strongCount seenReal seenFile vfds := by
  induction vfds generalizing seenReal seenFile with
  | nil => cases member
  | cons vfd rest induction =>
      have sameRest : ∀ other, .file other ∈ rest →
          other.arc = ref.arc → other = ref :=
        fun other inside => same other (List.mem_cons_of_mem _ inside)
      cases vfd with
      | real fd =>
          have inRest :=
            (List.mem_cons.mp member).resolve_left (by rintro ⟨⟩)
          simp only [collectFds]
          split
          · exact induction _ _ inRest unseen sameRest
          · exact List.mem_cons_of_mem _
              (induction _ _ inRest unseen sameRest)
      | pipeRead buf =>
          have inRest :=
            (List.mem_cons.mp member).resolve_left (by rintro ⟨⟩)
          exact induction _ _ inRest unseen sameRest
      | pipeWrite buf =>
          have inRest :=
            (List.mem_cons.mp member).resolve_left (by rintro ⟨⟩)
          exact induction _ _ inRest unseen sameRest
      | file first =>
          by_cases sameArc : first.arc = ref.arc
          · have isFirst := same first List.mem_cons_self sameArc
            subst first
            simp only [collectFds, unseen, once, if_false, if_true]
            exact List.mem_cons_self
          · have inRest :=
              (List.mem_cons.mp member).resolve_left fun equal =>
                sameArc (congrArg FileRef.arc (Vfd.file.inj equal)).symm
            have stillUnseen : ref.arc ∉ first.arc :: seenFile := by
              intro listed
              rcases List.mem_cons.mp listed with equal | before
              · exact sameArc equal.symm
              · exact unseen before
            simp only [collectFds]
            split
            · exact induction _ _ inRest unseen sameRest
            · split
              · exact List.mem_cons_of_mem _
                  (induction _ _ inRest stillUnseen sameRest)
              · exact induction _ _ inRest stillUnseen sameRest

/-- The close-on-exec pass hands out a reference whose numbers it closes. -/
theorem mem_closeFileFds
    (fds : List Nat) (table : VfdTable)
    (held : ∃ number, table.get number = some (.file ref))
    (listed : ∀ number, table.get number = some (.file ref) →
      number ∈ fds)
    (same : ∀ number vfd, table.get number = some vfd →
      vfd.fileArc = some ref.arc → vfd = .file ref) :
    ref ∈ (table.closeFileFds fds).2 := by
  induction fds generalizing table with
  | nil =>
      obtain ⟨number, stored⟩ := held
      cases listed number stored
  | cons fd rest induction =>
      simp only [VfdTable.closeFileFds]
      have keeps {number : Nat} (stored : table.get number =
            some (.file ref)) (other : number ≠ fd) :
          (table.closeFileFd fd).1.get number = some (.file ref) := by
        rw [VfdTable.get_closeFileFd, if_neg other, stored]
      have continues
          (other : ∃ number, number ≠ fd ∧
            table.get number = some (.file ref)) :
          ref ∈ ((table.closeFileFd fd).1.closeFileFds rest).2 := by
        obtain ⟨number, different, stored⟩ := other
        apply induction
        · exact ⟨number, keeps stored different⟩
        · intro number stored
          obtain ⟨before, atFd⟩ :=
            VfdTable.get_of_get_closeFileFd table fd stored
          rcases List.mem_cons.mp (listed number before) with here | later
          · cases atFd here
          · exact later
        · intro number vfd stored refers
          exact same number vfd
            (VfdTable.get_of_get_closeFileFd table fd stored).1 refers
      by_cases elsewhere : ∃ number, number ≠ fd ∧
          table.get number = some (.file ref)
      · exact List.mem_append_right _ (continues elsewhere)
      · -- The number of `fd` is the only one left, so it is handed out here.
        obtain ⟨number, stored⟩ := held
        have here : number = fd := by
          by_contra different
          exact elsewhere ⟨number, different, stored⟩
        subst number
        have closed : (table.closeFileFd fd).2 = some ref := by
          apply (VfdTable.closeFileFd_eq_some_iff table fd ref).mpr
          refine ⟨stored, ?_⟩
          intro number vfd different found refers
          exact elsewhere
            ⟨number, different, (same number vfd found refers) ▸ found⟩
        rw [closed]
        exact List.mem_append_left _ List.mem_cons_self

theorem freed_of_mem_handsOver
    {op : FdOp} {fd : CInt} {origin : Origin}
    (member : (fd, origin) ∈ handsOver world op) :
    Freed fd world op (world.apply op) :=
  Or.inl
    ⟨_, handed_apply world op, record (world.apply op) (fd, origin),
      List.mem_map_of_mem member, rfl⟩

end Ways

/-! ## Steps and runs -/

section Steps

variable {world : World} {ref : FileRef}

theorem eq_file_of_coherent
    (coherent : Coherent world) (held : Held world ref)
    {vpid : VPid} {number : Nat} {vfd : Vfd}
    (stored : world.entry vpid number = some vfd)
    (refers : vfd.fileArc = some ref.arc) :
    vfd = .file ref := by
  cases vfd with
  | file other =>
      have sameArc : other.arc = ref.arc := Option.some.inj refers
      rw [coherent.same other ref ⟨vpid, number, stored⟩ held sameArc]
  | real fd => cases refers
  | pipeRead buf => cases refers
  | pipeWrite buf => cases refers

/-- A call drops entries of its own process only. -/
theorem owner_of_drops_sys
    {vpid : VPid} {call : SysCall}
    (drops : Drops world ref (.sys vpid call))
    {owner : VPid} {number : Nat}
    (stored : world.entry owner number = some (.file ref)) :
    owner = vpid ∧ (callChange world vpid call number).isSome = true := by
  have changed := drops.2.1 owner number stored
  simp only [effect] at changed
  split at changed
  · rename_i same
    exact ⟨same, changed⟩
  · cases changed

/-- A call which closes one number drops its last entry. -/
theorem lastFile_of_drops
    {vpid : VPid} {call : SysCall} {closed : Nat}
    (coherent : Coherent world) (drops : Drops world ref (.sys vpid call))
    (changes : ∀ number,
      (callChange world vpid call number).isSome = true →
        number = closed) :
    LastFile world vpid closed ref := by
  obtain ⟨owner, number, stored⟩ := drops.1
  obtain ⟨rfl, changed⟩ := owner_of_drops_sys drops stored
  cases changes number changed
  refine ⟨stored, ?_⟩
  rintro other different ⟨vfd, found, refers⟩
  have same := eq_file_of_coherent coherent drops.1 found refers
  subst vfd
  exact different (changes other (owner_of_drops_sys drops found).2)

theorem freed_of_close
    {vpid : VPid} {fd : CInt} (coherent : Coherent world)
    (drops : Drops world ref (.sys vpid (.close fd))) :
    Freed ref.realFd world (.sys vpid (.close fd))
      (world.apply (.sys vpid (.close fd))) := by
  obtain ⟨owner, number, stored⟩ := drops.1
  obtain ⟨rfl, changed⟩ := owner_of_drops_sys drops stored
  have nonnegative : ¬ fd < 0 := by
    intro negative
    simp [callChange, negative] at changed
  have last : LastFile world owner (asU32 fd) ref := by
    apply lastFile_of_drops coherent drops
    intro other isChanged
    simp only [callChange, nonnegative, if_false, changeAt] at isChanged
    by_contra different
    simp [different] at isChanged
  apply freed_of_mem_handsOver
  cases found : world.getTable owner with
  | none =>
      rw [entry_of_getTable_none found] at stored
      cases stored
  | some table =>
      have present : table.get (asU32 fd) = some (.file ref) :=
        (entry_of_getTable found _).symm.trans last.1
      simp only [handsOver, nonnegative, if_false, found, present]
      exact mem_closeHands found last

theorem freed_of_ffiClose
    {vpid : VPid} {fd : CInt} (coherent : Coherent world)
    (drops : Drops world ref (.sys vpid (.ffiClose fd))) :
    Freed ref.realFd world (.sys vpid (.ffiClose fd))
      (world.apply (.sys vpid (.ffiClose fd))) := by
  have last : LastFile world vpid (asU32 fd) ref := by
    apply lastFile_of_drops coherent drops
    intro other isChanged
    simp only [callChange, changeAt] at isChanged
    by_contra different
    simp [different] at isChanged
  apply freed_of_mem_handsOver
  cases found : world.getTable vpid with
  | none =>
      have stored := last.1
      rw [entry_of_getTable_none found] at stored
      cases stored
  | some table =>
      simp only [handsOver, found]
      exact mem_closeHands found last

theorem freed_of_dup2
    {vpid : VPid} {oldFd newFd : CInt}
    (drops : Drops world ref (.sys vpid (.dup2 oldFd newFd)))
    (onto : newFd = ref.realFd)
    (hasSource : (dup2Source world vpid oldFd).isSome = true) :
    Freed ref.realFd world (.sys vpid (.dup2 oldFd newFd))
      (world.apply (.sys vpid (.dup2 oldFd newFd))) := by
  obtain ⟨owner, number, stored⟩ := drops.1
  obtain ⟨rfl, changed⟩ := owner_of_drops_sys drops stored
  obtain ⟨source, isSource⟩ := Option.isSome_iff_exists.mp hasSource
  refine Or.inr ⟨onto, source, isSource, ?_⟩
  cases found : world.getTable owner with
  | none =>
      rw [entry_of_getTable_none found] at stored
      cases stored
  | some table =>
      have underlying : underlyingReal table oldFd = some source := by
        simpa only [dup2Source, found] using isSource
      simp only [callChange, found, underlying] at changed
      split at changed
      · rename_i possible
        by_contra negative
        exact (Kernel.dup2_neg_iff _ _ _).mp (not_le.mp negative) possible
      · cases changed

theorem freed_of_reap
    {vpid : VPid} (coherent : Coherent world)
    (drops : Drops world ref (.reap vpid))
    (once : world.strongCount ref.arc = 1) :
    Freed ref.realFd world (.reap vpid) (world.apply (.reap vpid)) := by
  obtain ⟨owner, number, stored⟩ := drops.1
  have own : owner = vpid := by
    by_contra different
    have changed := drops.2.1 owner number stored
    simp [effect, different] at changed
  subst owner
  apply freed_of_mem_handsOver
  cases found : world.getTable vpid with
  | none =>
      rw [entry_of_getTable_none found] at stored
      cases stored
  | some table =>
      simp only [handsOver, removeTableAndGetFds, found]
      apply mem_collectFds
      · apply mem_values_iff.mpr
        exact ⟨number, (entry_of_getTable found number).symm.trans stored⟩
      · exact List.not_mem_nil
      · exact once
      · intro other member sameArc
        obtain ⟨place, inTable⟩ := mem_values_iff.mp member
        exact coherent.same other ref
          ⟨vpid, place, (entry_of_getTable found place).trans inTable⟩
          drops.1 sameArc

/-- The table which an exec closes is the process's own. -/
theorem execHeir_of_own
    {parent : Option VPid} {child : VPid}
    (own : parent.getD child = child) {table : VfdTable}
    (found : world.getTable child = some table) :
    ∃ heir, execHeir world parent child = some heir ∧
      heir.get = table.get := by
  cases parent with
  | none => exact ⟨table, found, rfl⟩
  | some caller =>
      have same : caller = child := own
      subst caller
      refine ⟨world.forkedTable child, rfl, ?_⟩
      simp only [forkedTable, found]
      rfl

/-- An exec drops what is marked close-on-exec. -/
theorem cloexec_of_drops
    {parent : Option VPid} {child : VPid}
    (drops : Drops world ref (.exec parent child))
    (own : parent.getD child = child) {owner : VPid} {number : Nat}
    (stored : world.entry owner number = some (.file ref)) :
    owner = child ∧ ref.cloexec = true := by
  have changed := drops.2.1 owner number stored
  cases parent with
  | none =>
      simp only [effect] at changed
      split at changed
      · rename_i marked
        rw [stored] at marked
        exact ⟨marked.1, marked.2⟩
      · cases changed
  | some caller =>
      have same : caller = child := own
      subst caller
      have isChild : owner = child := by
        by_contra different
        simp [effect, different] at changed
      subst owner
      refine ⟨rfl, ?_⟩
      by_contra unmarked
      apply drops.2.2 child number
      obtain ⟨table, found⟩ :
          ∃ table, world.getTable child = some table := by
        cases found : world.getTable child with
        | none =>
            rw [entry_of_getTable_none found] at stored
            cases stored
        | some table => exact ⟨table, rfl⟩
      have copied : (world.forkedTable child).get number =
          some (.file ref) := by
        simp only [forkedTable, found]
        exact (entry_of_getTable found number).symm.trans stored
      have notMarked : ref.cloexec = false := by simpa using unmarked
      simp [effect, copied, VfdTable.isCloexec, notMarked]

theorem freed_of_exec
    {parent : Option VPid} {child : VPid} (coherent : Coherent world)
    (drops : Drops world ref (.exec parent child))
    (own : parent.getD child = child) :
    Freed ref.realFd world (.exec parent child)
      (world.apply (.exec parent child)) := by
  obtain ⟨owner, number, stored⟩ := drops.1
  obtain ⟨rfl, marked⟩ := cloexec_of_drops drops own stored
  apply freed_of_mem_handsOver
  cases found : world.getTable owner with
  | none =>
      rw [entry_of_getTable_none found] at stored
      cases stored
  | some table =>
      obtain ⟨heir, isHeir, sameEntries⟩ := execHeir_of_own own found
      have inWorld {place : Nat} {vfd : Vfd}
          (inHeir : heir.get place = some vfd) :
          world.entry owner place = some vfd := by
        rw [entry_of_getTable found, ← sameEntries]
        exact inHeir
      simp only [handsOver, isHeir]
      apply mem_ownedFds_iff.mpr
      refine ⟨ref, mem_closeFileFds _ heir ?_ ?_ ?_, rfl, rfl⟩
      · refine ⟨number, ?_⟩
        rw [sameEntries]
        exact (entry_of_getTable found number).symm.trans stored
      · intro place inHeir
        apply List.mem_map.mpr
        exact
          ⟨⟨place, .file ref⟩,
            List.mem_filter.mpr ⟨mem_entries_iff.mpr inHeir, marked⟩, rfl⟩
      · intro place vfd inHeir refers
        exact eq_file_of_coherent coherent drops.1 (inWorld inHeir) refers

/-- A held reference stays held, unless the step frees its descriptor. -/
theorem held_or_freed
    (world : World) (op : FdOp) (next : World)
    (coherent : Coherent world) (held : Held world ref)
    (stepped : world.step op = some next)
    (good : ClosesWhatItDrops world op) :
    Held next ref ∨ Freed ref.realFd world op next := by
  obtain ⟨_, rfl⟩ := step_eq_some_iff.mp stepped
  by_cases kept : Held (world.apply op) ref
  · exact Or.inl kept
  · have drops : Drops world ref op := by
      refine ⟨held, ?_, ?_⟩
      · intro vpid number stored
        by_contra unchanged
        apply kept
        refine ⟨vpid, number, ?_⟩
        rw [entry_apply, Option.not_isSome_iff_eq_none.mp unchanged]
        exact stored
      · intro vpid number put
        apply kept
        refine ⟨vpid, number, ?_⟩
        rw [entry_apply, put]
        rfl
    have closes := good ref drops
    refine Or.inr ?_
    cases op with
    | sys vpid call =>
        cases call with
        | close fd => exact freed_of_close coherent drops
        | ffiClose fd => exact freed_of_ffiClose coherent drops
        | dup2 oldFd newFd => exact freed_of_dup2 drops closes.1 closes.2
        | _ => exact closes.elim
    | exec parent child => exact freed_of_exec coherent drops closes
    | reap vpid => exact freed_of_reap coherent drops closes
    | _ => exact closes.elim

end Steps

/--
A reference which has been in a table and is in none any more has been given
to `real_close` since, or the kernel has replaced its number, in every run
whose steps drop last entries in the closing ways only.
-/
theorem owned_fds_not_leaked
    (kernel : Kernel) (before after : List FdOp) (middle final : World)
    (ref : FileRef)
    (opened : run World.step (World.init kernel) before = some middle)
    (held : Held middle ref)
    (continued : run World.step middle after = some final)
    (good : Along World.step (fun world op _ => ClosesWhatItDrops world op)
      middle after)
    (gone : ¬ final.refersTo ref.arc = true) :
    Happens World.step (Freed ref.realFd) middle after := by
  have coherent : Coherent middle :=
    invariant_of_run coherent_step (coherent_init kernel) opened
  have kept :=
    @kept_or_happens World FdOp World.step _ (Freed ref.realFd) Coherent
      (fun world => Held world ref) coherent_step held_or_freed after
      middle final coherent held good continued
  rcases kept with ⟨vpid, number, stored⟩ | freed
  · have refers : final.refersTo ref.arc = true :=
      (refersTo_iff final ref.arc).mpr
        ⟨vpid, number, .file ref, stored, rfl⟩
    exact (gone refers).elim
  · exact freed

/-- A file with two numbers: the reference which process 1 has made. -/
def firstFile : FileRef where
  arc := 0
  realFd := 3
  cloexec := false

theorem owned_fds_not_leaked_closedTwice :
    ∃ middle final,
      run World.step (World.init Kernel.standard)
          [.sys 1 (.creat 3), .sys 1 (.ffiDup 3)] = some middle ∧
        run World.step middle [.sys 1 (.close 3), .sys 1 (.close 4)] =
          some final ∧
        ¬ final.refersTo 0 = true ∧
        Happens World.step (Freed 3) middle
          [.sys 1 (.close 3), .sys 1 (.close 4)] := by
  refine ⟨_, _, rfl, rfl, by decide, ?_⟩
  refine
    owned_fds_not_leaked Kernel.standard
      [.sys 1 (.creat 3), .sys 1 (.ffiDup 3)] _ _ _ firstFile rfl
      ⟨1, 3, by decide⟩ rfl ?_ (by decide)
  refine fun _ _ => ⟨fun _ _ => True.intro, ?_⟩
  exact fun _ _ => ⟨fun _ _ => True.intro, True.intro⟩

/--
A process has two numbers for a file when it is reaped.  Neither is the only
reference, so the kernel descriptor is not closed, and nothing refers to it.
-/
theorem owned_fd_leaked_by_reaping :
    ¬ ∀ (kernel : Kernel) (before after : List FdOp)
        (middle final : World) (ref : FileRef),
        run World.step (World.init kernel) before = some middle →
        Held middle ref →
        run World.step middle after = some final →
        ¬ final.refersTo ref.arc = true →
        Happens World.step (Freed ref.realFd) middle after := by
  intro always
  obtain ⟨next, stepped, freed | later⟩ :=
    always Kernel.standard [.sys 1 (.creat 3), .sys 1 (.ffiDup 3)]
      [.reap 1] _ _ firstFile rfl ⟨1, 3, by decide⟩ rfl (by decide)
  · obtain ⟨_, rfl⟩ := step_eq_some_iff.mp stepped
    rcases freed with ⟨new, handed, item, member, same⟩ | replaced
    · have inHanded := handed ▸ List.mem_append_right _ member
      have others : ∀ item ∈
          ((((World.init Kernel.standard).apply
              (.sys 1 (.creat 3))).apply (.sys 1 (.ffiDup 3))).apply
            (.reap 1)).handed, item.fd ≠ 3 := by
        decide
      exact others item inHanded same
    · exact replaced
  · exact later

end Vproc.Fd.FileLeaks
