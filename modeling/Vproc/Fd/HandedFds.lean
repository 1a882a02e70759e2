import Vproc.Fd.Effects

/-!
# What is handed to `real_close`

Three functions decide when an owned descriptor is closed: `close_file_fd`
looks at the other numbers of its own table, `close_cloexec` is built on it,
and `remove_table_and_get_fds` counts the references in all tables.  This
module sums up which numbers a step gives to `real_close` and where they come
from: an owned reference, a borrowed entry of a reaped table, or a number
which `close` has not found in the table.
-/

namespace Vproc.Fd.HandedFds

open Vproc.Lib.FiniteMap
open Vproc.Fd.Table
open Vproc.Fd.Runtime
open Vproc.Fd.Runtime.World
open Vproc.Fd.Effects

/-! ## What a step hands over -/

/-- The record of one number given to `real_close` in a state. -/
def record (world : World) (handed : CInt × Origin) : Handed where
  fd := handed.1
  origin := handed.2
  referred :=
    match handed.2 with
    | .owned arc => world.refersTo arc
    | _ => false

theorem record_congr
    {left right : World} (same : left.tables = right.tables) :
    record left = record right := by
  funext handed
  unfold record refersTo
  rw [same]

theorem handed_realCloseAll
    (fds : List (CInt × Origin)) (world : World) :
    (world.realCloseAll fds).handed =
      world.handed ++ fds.map (record world) := by
  induction fds generalizing world with
  | nil => exact (List.append_nil _).symm
  | cons first rest induction =>
      rw [realCloseAll, induction,
        record_congr (realClose_tables world first.1 first.2)]
      exact
        List.append_assoc world.handed [record world first]
          (rest.map (record world))

/-- The numbers which `close` and `vproc_ffi_close` hand over. -/
def closeHands (table : VfdTable) (fd : CInt) : List (CInt × Origin) :=
  ownedFds (table.closeFileFd (asU32 fd)).2.toList

/-- The table on which an exec closes the close-on-exec numbers. -/
def execHeir (world : World) (parent : Option VPid) (child : VPid) :
    Option VfdTable :=
  match parent with
  | some caller => some (world.forkedTable caller)
  | none => world.getTable child

/-- The numbers a step gives to `real_close`. -/
def handsOver (world : World) : FdOp → List (CInt × Origin)
  | .sys vpid (.close fd) =>
      if fd < 0 then []
      else
        match world.getTable vpid with
        | none => [(fd, .raw)]
        | some table =>
            match table.get (asU32 fd) with
            | none => [(fd, .raw)]
            | some _ => closeHands table fd
  | .sys vpid (.ffiClose fd) =>
      match world.getTable vpid with
      | none => []
      | some table => closeHands table fd
  | .exec parent child =>
      match execHeir world parent child with
      | none => []
      | some table => ownedFds table.closeCloexec.2
  | .reap vpid => (world.removeTableAndGetFds vpid).2
  | _ => []

theorem closeHands_of_not_file
    {table : VfdTable} {fd : CInt}
    (notFile : ∀ ref, table.get (asU32 fd) ≠ some (.file ref)) :
    closeHands table fd = [] := by
  rw [closeHands, VfdTable.closeFileFd_of_not_file notFile]
  rfl

theorem handed_close (world : World) (vpid : VPid) (fd : CInt) :
    (world.close vpid fd).1.handed =
      world.handed ++
        (handsOver world (.sys vpid (.close fd))).map
          (record (world.close vpid fd).1) := by
  simp only [close, handsOver]
  by_cases negative : fd < 0
  · simp [negative]
  · simp only [negative, if_false]
    cases found : world.getTable vpid with
    | none => rfl
    | some table =>
        dsimp only
        split
        · rename_i real stored
          have nothing : closeHands table fd = [] :=
            closeHands_of_not_file (by simp [stored])
          simp only [stored, nothing]
          exact (List.append_nil _).symm
        · rename_i ref stored
          simp only [stored]
          rw [handed_realCloseAll,
            ← record_congr (realCloseAll_tables _ _)]
          rfl
        · rename_i vfd notReal notFile stored
          have nothing : closeHands table fd = [] := by
            apply closeHands_of_not_file
            intro ref isFile
            rw [stored] at isFile
            exact notFile ref (Option.some.inj isFile)
          simp only [stored, nothing]
          exact (List.append_nil _).symm
        · rename_i missing
          simp only [missing]
          rfl

theorem handed_ffiClose (world : World) (vpid : VPid) (fd : CInt) :
    (world.ffiClose vpid fd).1.handed =
      world.handed ++
        (handsOver world (.sys vpid (.ffiClose fd))).map
          (record (world.ffiClose vpid fd).1) := by
  simp only [ffiClose, handsOver]
  cases found : world.getTable vpid with
  | none => exact (List.append_nil _).symm
  | some table =>
      dsimp only
      split
      · rw [handed_realCloseAll,
          ← record_congr (realCloseAll_tables _ _)]
        rfl
      · rename_i notFile
        have nothing : closeHands table fd = [] :=
          closeHands_of_not_file notFile
        rw [nothing]
        exact (List.append_nil _).symm

theorem handed_closeCloexecOf (world : World) (vpid : VPid) :
    (world.closeCloexecOf vpid).handed =
      world.handed ++
        ((world.getTable vpid).elim []
          fun table => ownedFds table.closeCloexec.2).map
            (record (world.closeCloexecOf vpid)) := by
  unfold closeCloexecOf
  cases world.getTable vpid with
  | none => exact (List.append_nil _).symm
  | some table =>
      dsimp only
      rw [handed_realCloseAll,
        ← record_congr (realCloseAll_tables _ _)]
      rfl

theorem handed_removeTable (world : World) (vpid : VPid) :
    (world.removeTable vpid).handed = world.handed := by
  unfold removeTable
  split <;> rfl

theorem handed_reapTable (world : World) (vpid : VPid) :
    (world.reapTable vpid).handed =
      world.handed ++
        (world.removeTableAndGetFds vpid).2.map
          (record (world.reapTable vpid)) := by
  have kept :
      (world.removeTableAndGetFds vpid).1.handed = world.handed := by
    unfold removeTableAndGetFds
    split
    · rfl
    · exact handed_removeTable world vpid
  rw [reapTable, handed_realCloseAll,
    ← record_congr (realCloseAll_tables _ _)]
  dsimp only
  rw [kept]

theorem handed_execTable
    (world : World) (parent : Option VPid) (child : VPid) :
    (world.execTable parent child).handed =
      world.handed ++
        (handsOver world (.exec parent child)).map
          (record (world.execTable parent child)) := by
  unfold execTable
  dsimp only
  rw [handed_closeCloexecOf]
  cases parent with
  | none =>
      simp only [handsOver, execHeir]
      cases world.getTable child with
      | none => rfl
      | some table => rfl
  | some caller =>
      have inherited :
          (world.forkFdTable caller child).getTable child =
            some (world.forkedTable caller) := by
        rw [forkFdTable, getTable_congr (replaceTable_tables _ _ _),
          getTable_setTable, if_pos rfl]
      simp only [handsOver, execHeir, inherited]
      rfl

/-- A step which gives nothing to `real_close` keeps the record. -/
theorem handed_of_kept
    {world : World} {op : FdOp}
    (kept : (world.apply op).handed = world.handed)
    (empty : handsOver world op = []) :
    (world.apply op).handed =
      world.handed ++
        (handsOver world op).map (record (world.apply op)) := by
  rw [kept, empty]
  exact (List.append_nil _).symm

theorem handed_sys (world : World) (vpid : VPid) (call : SysCall) :
    (world.apply (.sys vpid call)).handed =
      world.handed ++
        (handsOver world (.sys vpid call)).map
          (record (world.apply (.sys vpid call))) := by
  cases call with
  | close fd => exact handed_close world vpid fd
  | ffiClose fd => exact handed_ffiClose world vpid fd
  | openPath flags answer =>
      apply handed_of_kept _ rfl
      simp only [apply, sys, openPath, insertOpened]
      split <;> rfl
  | openatPath flags answer =>
      apply handed_of_kept _ rfl
      simp only [apply, sys, openatPath, insertOpened]
      split <;> rfl
  | creat answer =>
      apply handed_of_kept _ rfl
      simp only [apply, sys, creat, insertOpened]
      split <;> rfl
  | dup oldFd answer =>
      apply handed_of_kept _ rfl
      simp only [apply, sys, dup]
      split
      · rfl
      · split
        · split <;> rfl
        · rfl
  | dup2 oldFd newFd =>
      apply handed_of_kept _ rfl
      simp only [apply, sys, dup2]
      split
      · split <;> rfl
      · split
        · split <;> rfl
        · rfl
  | pipe readFd writeFd =>
      apply handed_of_kept _ rfl
      simp only [apply, sys, pipe]
      split <;> rfl
  | ffiPipe => exact handed_of_kept rfl rfl
  | ffiDup oldFd =>
      apply handed_of_kept _ rfl
      simp only [apply, sys, ffiDup]
      split <;> rfl
  | ffiDup2 oldFd newFd =>
      apply handed_of_kept _ rfl
      simp only [apply, sys, ffiDup2]
      split <;> rfl
  | insertAt fd vfd =>
      apply handed_of_kept _ rfl
      simp only [apply, sys, insertAt]
      split <;> rfl
  | readPipe fd dst =>
      apply handed_of_kept _ rfl
      simp only [apply, sys, readPipe]
      split <;> rfl
  | writePipe fd src =>
      apply handed_of_kept _ rfl
      simp only [apply, sys, writePipe]
      split <;> rfl

/-- The history of closes grows by what the step hands over. -/
theorem handed_apply (world : World) (op : FdOp) :
    (world.apply op).handed =
      world.handed ++
        (handsOver world op).map (record (world.apply op)) := by
  cases op with
  | createTable vpid stdin stdout stderr => exact handed_of_kept rfl rfl
  | fork parent child => exact handed_of_kept rfl rfl
  | exec parent child => exact handed_execTable world parent child
  | removeTable vpid =>
      exact handed_of_kept (handed_removeTable world vpid) rfl
  | reap vpid => exact handed_reapTable world vpid
  | cleanup => exact handed_of_kept rfl rfl
  | rawDup3 oldFd newFd =>
      apply handed_of_kept _ rfl
      simp only [apply, rawDup3]
      split <;> rfl
  | sys vpid call => exact handed_sys world vpid call

/-! ## Collecting the numbers of a removed table -/

theorem owned_of_mem_collectFds
    {strongCount : ArcId → Nat} {fd : CInt} {arc : ArcId}
    (vfds : List Vfd) (seenReal : List CInt) (seenFile : List ArcId)
    (member :
      (fd, .owned arc) ∈ collectFds strongCount seenReal seenFile vfds) :
    (∃ ref, .file ref ∈ vfds ∧ ref.arc = arc ∧ ref.realFd = fd) ∧
      strongCount arc = 1 ∧ arc ∉ seenFile := by
  induction vfds generalizing seenReal seenFile with
  | nil => cases member
  | cons vfd rest induction =>
      have later (seenReal : List CInt) (seen : List ArcId)
          (grown : ∀ other, other ∈ seenFile → other ∈ seen)
          (member :
            (fd, .owned arc) ∈ collectFds strongCount seenReal seen rest) :
          (∃ ref, .file ref ∈ vfd :: rest ∧ ref.arc = arc ∧
              ref.realFd = fd) ∧
            strongCount arc = 1 ∧ arc ∉ seenFile := by
        obtain ⟨⟨ref, inside, same⟩, alone, unseen⟩ :=
          induction seenReal seen member
        exact
          ⟨⟨ref, List.mem_cons_of_mem _ inside, same⟩, alone,
            fun old => unseen (grown arc old)⟩
      cases vfd with
      | real number =>
          simp only [collectFds] at member
          split at member
          · exact later _ _ (fun _ old => old) member
          · rcases List.mem_cons.mp member with same | member
            · cases same
            · exact later _ _ (fun _ old => old) member
      | file ref =>
          have grown : ∀ other, other ∈ seenFile →
              other ∈ ref.arc :: seenFile :=
            fun _ old => List.mem_cons_of_mem _ old
          simp only [collectFds] at member
          split at member
          · exact later _ _ (fun _ old => old) member
          · rename_i unseen
            split at member
            · rename_i alone
              rcases List.mem_cons.mp member with same | member
              · cases same
                exact
                  ⟨⟨ref, List.mem_cons_self, rfl, rfl⟩, alone, unseen⟩
              · exact later _ _ grown member
            · exact later _ _ grown member
      | pipeRead buf => exact later _ _ (fun _ old => old) member
      | pipeWrite buf => exact later _ _ (fun _ old => old) member

/-- The owned reference a number given to `real_close` came from. -/
def ownedArc : Origin → Option ArcId
  | .owned arc => some arc
  | _ => none

/-- Reaping hands over a reference at most once. -/
theorem collectFds_nodup
    (strongCount : ArcId → Nat) (vfds : List Vfd)
    (seenReal : List CInt) (seenFile : List ArcId) :
    ((collectFds strongCount seenReal seenFile vfds).filterMap
      fun handed => ownedArc handed.2).Nodup := by
  induction vfds generalizing seenReal seenFile with
  | nil => exact List.nodup_nil
  | cons vfd rest induction =>
      cases vfd with
      | real number =>
          simp only [collectFds]
          split
          · exact induction _ _
          · exact induction _ _
      | file ref =>
          simp only [collectFds]
          split
          · exact induction _ _
          · split
            · simp only [List.filterMap_cons, ownedArc]
              refine List.nodup_cons.mpr ⟨?_, induction _ _⟩
              intro again
              obtain ⟨⟨fd, origin⟩, member, same⟩ :=
                List.mem_filterMap.mp again
              cases origin with
              | borrowed => cases same
              | raw => cases same
              | owned arc =>
                  cases same
                  have unseen :=
                    (owned_of_mem_collectFds _ _ _ member).2.2
                  exact unseen List.mem_cons_self
            · exact induction _ _
      | pipeRead buf => exact induction _ _
      | pipeWrite buf => exact induction _ _

theorem raw_not_mem_collectFds
    {strongCount : ArcId → Nat} {fd : CInt}
    (vfds : List Vfd) (seenReal : List CInt) (seenFile : List ArcId) :
    (fd, .raw) ∉ collectFds strongCount seenReal seenFile vfds := by
  induction vfds generalizing seenReal seenFile with
  | nil => exact List.not_mem_nil
  | cons vfd rest induction =>
      cases vfd with
      | real number =>
          simp only [collectFds]
          split
          · exact induction _ _
          · simp [induction]
      | file ref =>
          simp only [collectFds]
          split
          · exact induction _ _
          · split
            · simp [induction]
            · exact induction _ _
      | pipeRead buf => exact induction _ _
      | pipeWrite buf => exact induction _ _

/-- Reaping collects every borrowed number of the table. -/
theorem borrowed_mem_collectFds_iff
    {strongCount : ArcId → Nat} {fd : CInt}
    (vfds : List Vfd) (seenReal : List CInt) (seenFile : List ArcId) :
    (fd, .borrowed) ∈ collectFds strongCount seenReal seenFile vfds ↔
      .real fd ∈ vfds ∧ fd ∉ seenReal := by
  induction vfds generalizing seenReal seenFile with
  | nil => simp [collectFds]
  | cons vfd rest induction =>
      cases vfd with
      | real number =>
          simp only [collectFds]
          by_cases same : fd = number
          · subst number
            split
            · rename_i seen
              simp [induction, seen]
            · rename_i unseen
              simp [unseen]
          · split
            · simp [induction, same]
            · simp [induction, same]
      | file ref =>
          simp only [collectFds]
          split
          · simp [induction]
          · split
            · simp [induction]
            · simp [induction]
      | pipeRead buf => simp [collectFds, induction]
      | pipeWrite buf => simp [collectFds, induction]

/-! ## Where the numbers come from -/

/-- A number of a process refers to an owned descriptor. -/
def RefersAt (world : World) (vpid : VPid) (number : Nat)
    (arc : ArcId) : Prop :=
  ∃ vfd, world.entry vpid number = some vfd ∧ vfd.fileArc = some arc

/-- A number refers to a reference, and no other of the process does. -/
def LastFile (world : World) (vpid : VPid) (number : Nat)
    (ref : FileRef) : Prop :=
  world.entry vpid number = some (.file ref) ∧
    ∀ other, other ≠ number → ¬ RefersAt world vpid other ref.arc

theorem mem_ownedFds_iff {refs : List FileRef} {fd : CInt} {arc : ArcId} :
    (fd, .owned arc) ∈ ownedFds refs ↔
      ∃ ref ∈ refs, ref.realFd = fd ∧ ref.arc = arc := by
  simp [ownedFds]

theorem lastFile_of_mem_closeHands
    {world : World} {vpid : VPid} {table : VfdTable}
    (found : world.getTable vpid = some table)
    {fd number : CInt} {arc : ArcId}
    (member : (fd, .owned arc) ∈ closeHands table number) :
    ∃ ref, ref.realFd = fd ∧ ref.arc = arc ∧
      LastFile world vpid (asU32 number) ref := by
  obtain ⟨ref, closed, ofFd, same⟩ := mem_ownedFds_iff.mp member
  obtain ⟨stored, alone⟩ :=
    (VfdTable.closeFileFd_eq_some_iff table (asU32 number) ref).mp
      (Option.mem_toList.mp closed)
  refine
    ⟨ref, ofFd, same, (entry_of_getTable found _).trans stored, ?_⟩
  rintro other different ⟨vfd, held, refers⟩
  rw [entry_of_getTable found] at held
  exact alone other vfd different held refers

theorem entry_of_heir
    {world : World} {parent : Option VPid} {child : VPid}
    {table : VfdTable} (heir : execHeir world parent child = some table)
    {number : Nat} {ref : FileRef}
    (held : table.get number = some (.file ref)) :
    world.entry (parent.getD child) number = some (.file ref) := by
  cases parent with
  | none => exact (entry_of_getTable heir number).trans held
  | some caller =>
      cases heir
      rcases origin_of_forkedTable held with copied | ⟨fd, borrowed⟩
      · exact copied
      · cases borrowed

/-- How a step comes to hand over an owned reference. -/
inductive HandsOwned (world : World) : FdOp → FileRef → Prop
  | close {vpid : VPid} {fd : CInt} {ref : FileRef}
      (nonnegative : 0 ≤ fd) (last : LastFile world vpid (asU32 fd) ref) :
      HandsOwned world (.sys vpid (.close fd)) ref
  | ffiClose {vpid : VPid} {fd : CInt} {ref : FileRef}
      (last : LastFile world vpid (asU32 fd) ref) :
      HandsOwned world (.sys vpid (.ffiClose fd)) ref
  | exec {parent : Option VPid} {child : VPid} {table : VfdTable}
      {ref : FileRef} (heir : execHeir world parent child = some table)
      (closed : ref ∈ table.closeCloexec.2) :
      HandsOwned world (.exec parent child) ref
  | reap {vpid : VPid} {number : Nat} {ref : FileRef}
      (held : world.entry vpid number = some (.file ref))
      (once : world.strongCount ref.arc = 1) :
      HandsOwned world (.reap vpid) ref

theorem handsOwned_of_mem
    {world : World} {op : FdOp} {fd : CInt} {arc : ArcId}
    (member : (fd, .owned arc) ∈ handsOver world op) :
    ∃ ref, HandsOwned world op ref ∧ ref.realFd = fd ∧ ref.arc = arc := by
  unfold handsOver at member
  split at member
  · split at member
    · cases member
    · rename_i nonnegative
      split at member
      · simp at member
      · rename_i table found
        split at member
        · simp at member
        · obtain ⟨ref, ofFd, same, last⟩ :=
            lastFile_of_mem_closeHands found member
          exact ⟨ref, .close (not_lt.mp nonnegative) last, ofFd, same⟩
  · split at member
    · cases member
    · rename_i table found
      obtain ⟨ref, ofFd, same, last⟩ :=
        lastFile_of_mem_closeHands found member
      exact ⟨ref, .ffiClose last, ofFd, same⟩
  · split at member
    · cases member
    · rename_i table heir
      obtain ⟨ref, closed, ofFd, same⟩ := mem_ownedFds_iff.mp member
      exact ⟨ref, .exec heir closed, ofFd, same⟩
  · unfold removeTableAndGetFds at member
    split at member
    · cases member
    · rename_i table found
      obtain ⟨⟨ref, inside, same, ofFd⟩, once, _⟩ :=
        owned_of_mem_collectFds _ _ _ member
      obtain ⟨number, held⟩ := mem_values_iff.mp inside
      have stored := (entry_of_getTable found number).trans held
      exact ⟨ref, .reap stored (same ▸ once), ofFd, same⟩
  · cases member

/-- A close-on-exec entry of the table an exec starts from. -/
theorem cloexec_of_mem_closeCloexec
    {world : World} {parent : Option VPid} {child : VPid}
    {table : VfdTable} (heir : execHeir world parent child = some table)
    {ref : FileRef} (closed : ref ∈ table.closeCloexec.2) :
    ref.cloexec = true ∧
      ∃ number,
        world.entry (parent.getD child) number = some (.file ref) := by
  obtain ⟨number, held, marked⟩ :=
    VfdTable.exists_of_mem_closeCloexec table closed
  exact ⟨marked, number, entry_of_heir heir held⟩

/-- An owned descriptor which a step closes was in a table before. -/
theorem file_of_mem_handsOver
    {world : World} {op : FdOp} {fd : CInt} {arc : ArcId}
    (member : (fd, .owned arc) ∈ handsOver world op) :
    ∃ vpid number ref, world.entry vpid number = some (.file ref) ∧
      ref.realFd = fd ∧ ref.arc = arc := by
  obtain ⟨ref, hands, ofFd, same⟩ := handsOwned_of_mem member
  cases hands with
  | close nonnegative last => exact ⟨_, _, ref, last.1, ofFd, same⟩
  | ffiClose last => exact ⟨_, _, ref, last.1, ofFd, same⟩
  | exec heir closed =>
      obtain ⟨_, number, held⟩ := cloexec_of_mem_closeCloexec heir closed
      exact ⟨_, number, ref, held, ofFd, same⟩
  | reap held once => exact ⟨_, _, ref, held, ofFd, same⟩

/-- Raw numbers come from `close` of a number which is not in the table. -/
theorem raw_mem_handsOver_iff
    {world : World} {op : FdOp} {fd : CInt} :
    (fd, .raw) ∈ handsOver world op ↔
      ∃ vpid, op = .sys vpid (.close fd) ∧ 0 ≤ fd ∧
        world.entry vpid (asU32 fd) = none := by
  have notOwned (refs : List FileRef) :
      ¬ (fd, .raw) ∈ ownedFds refs := by
    simp [ownedFds]
  constructor
  · intro member
    unfold handsOver at member
    split at member
    · rename_i vpid number
      split at member
      · cases member
      · rename_i nonnegative
        split at member
        · rename_i missing
          cases List.mem_singleton.mp member
          exact
            ⟨vpid, rfl, not_lt.mp nonnegative,
              entry_of_getTable_none missing _⟩
        · rename_i table found
          split at member
          · rename_i missing
            cases List.mem_singleton.mp member
            exact
              ⟨vpid, rfl, not_lt.mp nonnegative,
                (entry_of_getTable found _).trans missing⟩
          · exact (notOwned _ member).elim
    · split at member
      · cases member
      · exact (notOwned _ member).elim
    · split at member
      · cases member
      · exact (notOwned _ member).elim
    · unfold removeTableAndGetFds at member
      split at member
      · cases member
      · exact (raw_not_mem_collectFds _ _ _ member).elim
    · cases member
  · rintro ⟨vpid, rfl, nonnegative, missing⟩
    simp only [handsOver, not_lt.mpr nonnegative, if_false]
    cases found : world.getTable vpid with
    | none => exact List.mem_singleton_self _
    | some table =>
        rw [entry_of_getTable found] at missing
        simp only [missing]
        exact List.mem_singleton_self _

/-- Borrowed numbers come from a reaped table. -/
theorem borrowed_mem_handsOver_iff
    {world : World} {op : FdOp} {fd : CInt} :
    (fd, .borrowed) ∈ handsOver world op ↔
      ∃ vpid number, op = .reap vpid ∧
        world.entry vpid number = some (.real fd) := by
  have notOwned (refs : List FileRef) :
      ¬ (fd, .borrowed) ∈ ownedFds refs := by
    simp [ownedFds]
  constructor
  · intro member
    unfold handsOver at member
    split at member
    · split at member
      · cases member
      · split at member
        · simp at member
        · split at member
          · simp at member
          · exact (notOwned _ member).elim
    · split at member
      · cases member
      · exact (notOwned _ member).elim
    · split at member
      · cases member
      · exact (notOwned _ member).elim
    · rename_i vpid
      unfold removeTableAndGetFds at member
      split at member
      · cases member
      · rename_i table found
        have listed := (borrowed_mem_collectFds_iff _ _ _).mp member
        obtain ⟨number, held⟩ := mem_values_iff.mp listed.1
        exact
          ⟨vpid, number, rfl, (entry_of_getTable found number).trans held⟩
    · cases member
  · rintro ⟨vpid, number, rfl, held⟩
    simp only [handsOver, removeTableAndGetFds]
    cases found : world.getTable vpid with
    | none =>
        rw [entry_of_getTable_none found] at held
        cases held
    | some table =>
        rw [entry_of_getTable found] at held
        refine (borrowed_mem_collectFds_iff _ _ _).mpr ⟨?_, ?_⟩
        · exact mem_values_iff.mpr ⟨number, held⟩
        · exact List.not_mem_nil

theorem ownedArcs_ownedFds (refs : List FileRef) :
    ((ownedFds refs).filterMap fun handed => ownedArc handed.2) =
      refs.map FileRef.arc := by
  induction refs with
  | nil => rfl
  | cons ref rest induction =>
      simp only [ownedFds, List.map_cons] at induction ⊢
      rw [List.filterMap_cons, induction]
      rfl

/-- A step hands over a reference at most once. -/
theorem handsOver_nodup (world : World) (op : FdOp) :
    ((handsOver world op).filterMap
      fun handed => ownedArc handed.2).Nodup := by
  have ofClose (table : VfdTable) (number : CInt) :
      ((closeHands table number).filterMap
        fun handed => ownedArc handed.2).Nodup := by
    rw [closeHands, ownedArcs_ownedFds]
    cases (table.closeFileFd (asU32 number)).2 with
    | none => exact List.nodup_nil
    | some ref => exact List.nodup_singleton _
  unfold handsOver
  split
  · split
    · exact List.nodup_nil
    · split
      · exact List.nodup_nil
      · split
        · exact List.nodup_nil
        · exact ofClose _ _
  · split
    · exact List.nodup_nil
    · exact ofClose _ _
  · split
    · exact List.nodup_nil
    · rw [ownedArcs_ownedFds]
      exact VfdTable.closeFileFds_nodup _ _
  · unfold removeTableAndGetFds
    split
    · exact List.nodup_nil
    · exact collectFds_nodup _ _ _ _
  · exact List.nodup_nil

end Vproc.Fd.HandedFds
