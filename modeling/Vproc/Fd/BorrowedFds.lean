import Vproc.Fd.HandedFds
import Vproc.Lib.Run

/-!
# Borrowed descriptors stay open

A borrowed entry stands for a number which belongs to the host or to the
caller.  `close` removes such an entry without closing the number.  But `close`
passes a number which is not in the table to the kernel, and reaping collects
the borrowed numbers of the removed table.
-/

namespace Vproc.Fd.BorrowedFds

open Vproc.Lib.Run
open Vproc.Lib.FiniteMap
open Vproc.Fd.Table
open Vproc.Fd.KernelTable
open Vproc.Fd.Runtime
open Vproc.Fd.Runtime.World
open Vproc.Fd.Effects
open Vproc.Fd.HandedFds

/-- The kernel numbers which some table holds as borrowed ones. -/
def realNumbers (world : World) : List CInt :=
  (values world.tables).flatMap fun table =>
    (values table.fds).filterMap fun vfd =>
      match vfd with
      | .real fd => some fd
      | _ => none

/-- The kernel numbers which some table holds as owned ones. -/
def fileNumbers (world : World) : List CInt :=
  (values world.tables).flatMap fun table =>
    (values table.fds).filterMap fun vfd =>
      match vfd with
      | .file ref => some ref.realFd
      | _ => none

/-- A world, with the kernel numbers which have been in its tables so far. -/
structure Recorded where
  world : World
  asReal : List CInt
  asFile : List CInt

/-- No number has entered a table yet. -/
def Recorded.init (kernel : Kernel) : Recorded where
  world := World.init kernel
  asReal := []
  asFile := []

/-- A step of the world, after which the numbers in its tables are noted. -/
def Recorded.step (state : Recorded) (op : FdOp) : Option Recorded :=
  (state.world.step op).map fun next =>
    { world := next
      asReal := realNumbers next ++ state.asReal
      asFile := fileNumbers next ++ state.asFile }

/-- A number which has entered the tables as a borrowed one only. -/
def Borrowed (state : Recorded) (fd : CInt) : Prop :=
  fd ∈ state.asReal ∧ fd ∉ state.asFile

/-- The step hands no borrowed number to `real_close`. -/
def BorrowedKept (state : Recorded) (_ : FdOp) (next : Recorded) : Prop :=
  ∀ handed ∈ next.world.handed.drop state.world.handed.length,
    ¬ Borrowed state handed.fd

/--
No process closes a borrowed number which is not in its table, and no process
is reaped with a borrowed number in its table.
-/
def KeepsBorrowed (state : Recorded) : FdOp → Prop
  | .sys vpid (.close fd) =>
      0 ≤ fd → state.world.entry vpid (asU32 fd) = none →
        ¬ Borrowed state fd
  | .reap vpid =>
      ∀ number fd, state.world.entry vpid number = some (.real fd) →
        ¬ Borrowed state fd
  | _ => True

/-- A collection over all entries of all tables. -/
theorem mem_flatMap_entries_iff
    {world : World} {pick : Vfd → Option CInt} {fd : CInt} :
    (fd ∈ (values world.tables).flatMap fun table =>
        (values table.fds).filterMap pick) ↔
      ∃ vpid number vfd, world.entry vpid number = some vfd ∧
        pick vfd = some fd := by
  rw [List.mem_flatMap]
  constructor
  · rintro ⟨table, member, listed⟩
    obtain ⟨vpid, found⟩ := mem_values_iff.mp member
    obtain ⟨vfd, inside, same⟩ := List.mem_filterMap.mp listed
    obtain ⟨number, stored⟩ := mem_values_iff.mp inside
    exact
      ⟨vpid, number, vfd, (entry_of_getTable found number).trans stored,
        same⟩
  · rintro ⟨vpid, number, vfd, held, same⟩
    cases found : world.getTable vpid with
    | none =>
        rw [entry_of_getTable_none found] at held
        cases held
    | some table =>
        rw [entry_of_getTable found] at held
        exact
          ⟨table, mem_values_iff.mpr ⟨vpid, found⟩,
            List.mem_filterMap.mpr
              ⟨vfd, mem_values_iff.mpr ⟨number, held⟩, same⟩⟩

/-- The owned numbers in the tables have been noted. -/
def Noted (state : Recorded) : Prop :=
  ∀ vpid number ref,
    state.world.entry vpid number = some (.file ref) →
      ref.realFd ∈ state.asFile

theorem noted_init (kernel : Kernel) :
    Noted (Recorded.init kernel) := by
  intro vpid number ref held
  cases held

theorem recorded_step_eq_some_iff
    {state next : Recorded} {op : FdOp} :
    state.step op = some next ↔
      state.world.admits op = true ∧
        next =
          { world := state.world.apply op
            asReal :=
              realNumbers (state.world.apply op) ++ state.asReal
            asFile :=
              fileNumbers (state.world.apply op) ++ state.asFile } := by
  unfold Recorded.step
  simp only [Option.map_eq_some_iff, step_eq_some_iff]
  constructor
  · rintro ⟨world, ⟨admitted, rfl⟩, rfl⟩
    exact ⟨admitted, rfl⟩
  · rintro ⟨admitted, rfl⟩
    exact ⟨_, ⟨admitted, rfl⟩, rfl⟩

theorem noted_step
    (state : Recorded) (op : FdOp) (next : Recorded)
    (_ : Noted state) (stepped : state.step op = some next) :
    Noted next := by
  obtain ⟨_, rfl⟩ := recorded_step_eq_some_iff.mp stepped
  intro vpid number ref held
  apply List.mem_append_left
  exact mem_flatMap_entries_iff.mpr ⟨vpid, number, .file ref, held, rfl⟩

/-- A step hands over no borrowed number exactly if it keeps them. -/
theorem borrowedKept_iff
    (state : Recorded) (op : FdOp) (next : Recorded)
    (noted : Noted state) (stepped : state.step op = some next) :
    BorrowedKept state op next ↔ KeepsBorrowed state op := by
  obtain ⟨-, rfl⟩ := recorded_step_eq_some_iff.mp stepped
  have handed :
      BorrowedKept state op
          { world := state.world.apply op
            asReal :=
              realNumbers (state.world.apply op) ++ state.asReal
            asFile :=
              fileNumbers (state.world.apply op) ++ state.asFile } ↔
        ∀ item ∈ handsOver state.world op, ¬ Borrowed state item.1 := by
    unfold BorrowedKept
    rw [handed_apply, List.drop_left, List.forall_mem_map]
    rfl
  rw [handed]
  constructor
  · intro kept
    unfold KeepsBorrowed
    split
    · rename_i vpid fd
      intro nonnegative missing
      exact
        kept (fd, .raw)
          (raw_mem_handsOver_iff.mpr ⟨vpid, rfl, nonnegative, missing⟩)
    · rename_i vpid
      intro number fd held
      exact
        kept (fd, .borrowed)
          (borrowed_mem_handsOver_iff.mpr ⟨vpid, number, rfl, held⟩)
    · exact True.intro
  · rintro keeps ⟨fd, origin⟩ member
    cases origin with
    | raw =>
        obtain ⟨vpid, rfl, nonnegative, missing⟩ :=
          raw_mem_handsOver_iff.mp member
        exact keeps nonnegative missing
    | borrowed =>
        obtain ⟨vpid, number, rfl, held⟩ :=
          borrowed_mem_handsOver_iff.mp member
        exact keeps number fd held
    | owned arc =>
        obtain ⟨vpid, number, ref, held, rfl, _⟩ :=
          file_of_mem_handsOver member
        rintro ⟨_, neverOwned⟩
        exact neverOwned (noted vpid number ref held)

/--
A run never hands a borrowed number to `real_close` exactly if none of its
steps closes one past the table or reaps a table which holds one.
-/
theorem borrowed_fds_stay_open_iff
    (kernel : Kernel) (ops : List FdOp) :
    Along Recorded.step BorrowedKept (Recorded.init kernel) ops ↔
      Along Recorded.step (fun state op _ => KeepsBorrowed state op)
        (Recorded.init kernel) ops :=
  along_congr noted_step borrowedKept_iff (noted_init kernel)

/-- Reaping a process closes the standard descriptors it was given. -/
theorem borrowed_fds_closed_by_reaping :
    ¬ ∀ (kernel : Kernel) (ops : List FdOp),
        Along Recorded.step BorrowedKept (Recorded.init kernel) ops := by
  intro always
  have along :=
    always Kernel.standard [.createTable 1 0 1 2, .reap 1]
  have created := along _ rfl
  have reaped := created.2 _ rfl
  have kept :=
    reaped.1 { fd := 0, origin := .borrowed, referred := false }
      (by decide)
  exact kept ⟨by decide, by decide⟩

end Vproc.Fd.BorrowedFds
