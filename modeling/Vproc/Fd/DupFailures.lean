import Vproc.Fd.Effects

/-!
# What `dup` and `dup2` promise, and what their failures leave

`VfdTable::dup2` closes its target before it looks for its source.  A source
which is the target is gone by then, so the copy of a number onto itself
closes it and fails.  The same order makes a failure visible: a target which
was open is not open afterwards.

`dup` is the same operation with `next_fd` for its target.  The two interfaces
of the runtime convert C numbers to `u32` and back, and the greatest `u32`
comes back as `-1`: a copy to that number has been made although the call
reports a failure.
-/

namespace Vproc.Fd.DupFailures

open Vproc.Fd.Table
open Vproc.Fd.Table.VfdTable
open Vproc.Fd.KernelTable
open Vproc.Fd.Runtime
open Vproc.Fd.Runtime.World
open Vproc.Fd.Effects

/-! ## `dup2` of an open number -/

/-- What `dup2` of an open number is to do. -/
structure Copies (table : VfdTable) (oldFd newFd : Nat) : Prop where
  result : (table.dup2 oldFd newFd).result.toOption = some newFd
  source : (table.dup2 oldFd newFd).table.get oldFd = table.get oldFd
  target : (table.dup2 oldFd newFd).table.get newFd = table.get oldFd
  others :
    ∀ number, number ≠ oldFd → number ≠ newFd →
      (table.dup2 oldFd newFd).table.get number = table.get number
  closes :
    ∀ buf ∈ (table.dup2 oldFd newFd).closes,
      (∃ vfd, table.get newFd = some vfd ∧ vfd.buffer = some buf) ∧
        ∀ number vfd, number ≠ newFd → table.get number = some vfd →
          vfd.buffer ≠ some buf

/-- An open number is copied as it should be, except onto itself. -/
theorem dup2_copies_iff
    (table : VfdTable) (oldFd newFd : Nat)
    (isOpen : (table.get oldFd).isSome = true) :
    Copies table oldFd newFd ↔ oldFd ≠ newFd := by
  obtain ⟨vfd, stored⟩ := Option.isSome_iff_exists.mp isOpen
  constructor
  · intro copies
    rintro rfl
    have result := copies.result
    rw [dup2_result] at result
    simp [Except.toOption] at result
  · intro different
    refine ⟨?_, ?_, ?_, ?_, ?_⟩
    · rw [dup2_result, if_neg (by simp [different, stored])]
      rfl
    · rw [get_dup2, if_neg different]
    · rw [get_dup2, if_pos rfl, if_neg different]
    · intro number _ notTarget
      rw [get_dup2, if_neg notTarget]
    · intro buf closed
      rw [dup2_closes] at closed
      exact (mem_close_closes_iff table newFd buf).mp closed

/-- A table with both ends of one pipe, at 3 and 4. -/
def withPipe : VfdTable :=
  (VfdTable.new.createPipe 0).1

theorem dup2_copies_iff_withPipe :
    (withPipe.get 3).isSome = true ∧
      (Copies withPipe 3 4 ↔ (3 : Nat) ≠ 4) := by
  have isOpen : (withPipe.get 3).isSome = true := by decide
  exact ⟨isOpen, dup2_copies_iff withPipe 3 4 isOpen⟩

/-- Standard output copied onto itself is closed, and the call fails. -/
theorem dup2_onto_itself_closes :
    (VfdTable.new.get 1).isSome = true ∧
      (VfdTable.new.dup2 1 1).result.toOption = none ∧
      (VfdTable.new.dup2 1 1).table.get 1 = none ∧
      ¬ Copies VfdTable.new 1 1 := by
  refine ⟨by decide, by decide, by decide, ?_⟩
  intro copies
  have result := copies.result
  revert result
  decide

/-! ## Failures -/

/-- The calls which duplicate a number, in the three layers. -/
inductive DupCall where
  | tableDup (oldFd : CInt)
  | tableDup2 (oldFd newFd : CInt)
  | ffiDup (oldFd : CInt)
  | ffiDup2 (oldFd newFd : CInt)
  | preloadDup (oldFd answer : CInt)
  | preloadDup2 (oldFd newFd : CInt)

/-- The numbers a call copies from and to, in the table of its process. -/
def endpoints (table : VfdTable) : DupCall → Nat × Nat
  | .tableDup oldFd | .ffiDup oldFd | .preloadDup oldFd _ =>
      (asU32 oldFd, table.nextFd)
  | .tableDup2 oldFd newFd | .ffiDup2 oldFd newFd
  | .preloadDup2 oldFd newFd =>
      (asU32 oldFd, asU32 newFd)

/-- The outcome of a table operation, in the world of its process. -/
def settle (world : World) (vpid : VPid)
    (outcome : Outcome (Except CInt Nat)) : World :=
  (world.setTable vpid outcome.table).closeBuffers outcome.closes

/--
The state after a call of a process and whether it reports a failure: `Err`
from a table, `-1` from the interfaces.  A process without a table cannot make
the calls of the table.
-/
def perform (world : World) (vpid : VPid) : DupCall → World × Bool
  | .tableDup oldFd =>
      match world.getTable vpid with
      | none => (world, false)
      | some table =>
          let dupped := table.dup (asU32 oldFd)
          (settle world vpid dupped, dupped.result.toOption.isNone)
  | .tableDup2 oldFd newFd =>
      match world.getTable vpid with
      | none => (world, false)
      | some table =>
          let dupped := table.dup2 (asU32 oldFd) (asU32 newFd)
          (settle world vpid dupped, dupped.result.toOption.isNone)
  | .ffiDup oldFd =>
      let called := world.ffiDup vpid oldFd
      (called.1, called.2 == -1)
  | .ffiDup2 oldFd newFd =>
      let called := world.ffiDup2 vpid oldFd newFd
      (called.1, called.2 == -1)
  | .preloadDup oldFd answer =>
      let called := world.dup vpid oldFd answer
      (called.1, called.2 == -1)
  | .preloadDup2 oldFd newFd =>
      let called := world.dup2 vpid oldFd newFd
      (called.1, called.2 == -1)

/-- The table of the process and all closed flags are as before. -/
def Unchanged (world : World) (vpid : VPid) (next : World) : Prop :=
  (∀ number, next.entry vpid number = world.entry vpid number) ∧
    ∀ buf, (next.pipes buf).closed = (world.pipes buf).closed

/-- If the call reports a failure, it has changed nothing. -/
def FailsClean (world : World) (vpid : VPid) (call : DupCall) : Prop :=
  (perform world vpid call).2 = true →
    Unchanged world vpid (perform world vpid call).1

/-- The target is open, and there is no source once it has been closed. -/
def LosesTarget (table : VfdTable) (oldFd newFd : Nat) : Prop :=
  (oldFd = newFd ∨ table.get oldFd = none) ∧ table.get newFd ≠ none

/-- Another entry is copied to the number which comes back as `-1`. -/
def CopiesToLast (table : VfdTable) (oldFd newFd : Nat) : Prop :=
  newFd = 4294967295 ∧ oldFd ≠ newFd ∧
    table.get oldFd ≠ none ∧ table.get newFd ≠ table.get oldFd

/--
The calls whose failure is not clean, by the state they start from.  The Rust
interceptors copy a kernel descriptor through the kernel, where a target of
`dup2` is a C number which cannot be negative; a `dup` is granted before it
takes its number, and the reference it puts there is a new one.
-/
def Spoils (world : World) (vpid : VPid) (call : DupCall) : Prop :=
  match world.getTable vpid with
  | none => False
  | some table =>
      let ends := endpoints table call
      match call with
      | .tableDup _ | .tableDup2 _ _ => LosesTarget table ends.1 ends.2
      | .ffiDup _ | .ffiDup2 _ _ =>
          LosesTarget table ends.1 ends.2 ∨
            CopiesToLast table ends.1 ends.2
      | .preloadDup oldFd answer =>
          match underlyingReal table oldFd with
          | none =>
              LosesTarget table ends.1 ends.2 ∨
                CopiesToLast table ends.1 ends.2
          | some realFd =>
              ((world.kernel.files realFd).isSome = true ∧
                  world.kernel.usable answer = true) ∧
                ends.2 = 4294967295 ∧
                table.get ends.2 ≠
                  some
                    (.file
                      { arc := world.nextArc
                        realFd := answer
                        cloexec := false })
      | .preloadDup2 oldFd _ =>
          match underlyingReal table oldFd with
          | none =>
              LosesTarget table ends.1 ends.2 ∨
                CopiesToLast table ends.1 ends.2
          | some _ => False

/-! ## The operation of the table -/

theorem asU32_lt (fd : CInt) : asU32 fd < 4294967296 := by
  have below : fd % 4294967296 < 4294967296 :=
    Int.emod_lt_of_pos fd (by decide)
  exact (Int.toNat_lt' (by decide)).mpr below

/-- Only the greatest `u32` comes back as `-1`. -/
theorem asCInt_eq_neg_one_iff {number : Nat} (bound : number < 4294967296) :
    asCInt number = -1 ↔ number = 4294967295 := by
  have converted :
      (if number < 2147483648 then (number : Int)
          else (number : Int) - 4294967296) = -1 ↔
        number = 4294967295 := by
    split <;> omega
  exact converted

section Table

variable {world : World} {vpid : VPid} {table : VfdTable}
variable (found : world.getTable vpid = some table)
variable {outcome : Outcome (Except CInt Nat)} {oldFd newFd : Nat}

include found

/--
A `dup2` leaves everything as it was if and only if its target has the entry
it would be left with.
-/
theorem unchanged_settle_iff
    (entries : ∀ number, outcome.table.get number =
      if number = newFd then
        (if oldFd = newFd then none else table.get oldFd)
      else table.get number)
    (closes : outcome.closes = (table.close newFd).closes) :
    Unchanged world vpid (settle world vpid outcome) ↔
      table.get newFd = if oldFd = newFd then none else table.get oldFd := by
  have after (number : Nat) :
      (settle world vpid outcome).entry vpid number =
        outcome.table.get number := by
    have stored :
        (settle world vpid outcome).entry vpid number =
          (world.setTable vpid outcome.table).entry vpid number :=
      entry_congr rfl vpid number
    rw [stored, entry_setTable, if_pos rfl]
  have before (number : Nat) :
      world.entry vpid number = table.get number :=
    entry_of_getTable found number
  constructor
  · rintro ⟨same, _⟩
    have atTarget := same newFd
    rw [after, before, entries, if_pos rfl] at atTarget
    exact atTarget.symm
  · intro already
    constructor
    · intro number
      rw [after, before, entries]
      split
      · rename_i atTarget
        rw [atTarget, already]
      · rfl
    · -- the target's buffer, if it has one, is also that of the source
      intro buf
      have kept : buf ∉ outcome.closes := by
        rw [closes, mem_close_closes_iff]
        rintro ⟨⟨vfd, stored, same⟩, alone⟩
        by_cases onto : oldFd = newFd
        · rw [if_pos onto, stored] at already
          cases already
        · rw [if_neg onto] at already
          exact alone oldFd vfd onto (already.symm.trans stored) same
      have iff :=
        closed_closeBuffers (world.setTable vpid outcome.table)
          outcome.closes buf
      rw [Bool.eq_iff_iff]
      exact iff.trans (or_iff_left kept)

omit found in
theorem unspoilt_of_missing
    (missing : oldFd = newFd ∨ table.get oldFd = none) :
    (table.get newFd = if oldFd = newFd then none else table.get oldFd) ↔
      ¬ LosesTarget table oldFd newFd := by
  have left :
      (if oldFd = newFd then none else table.get oldFd) = none := by
    split
    · rfl
    · rename_i different
      exact missing.resolve_left different
  rw [left, LosesTarget]
  simp [missing]

/-- `Err` from the table: clean unless the target was lost. -/
theorem failsClean_table_iff
    (entries : ∀ number, outcome.table.get number =
      if number = newFd then
        (if oldFd = newFd then none else table.get oldFd)
      else table.get number)
    (closes : outcome.closes = (table.close newFd).closes)
    (result : outcome.result =
      if oldFd = newFd ∨ table.get oldFd = none then .error 9
      else .ok newFd) :
    (outcome.result.toOption.isNone = true →
        Unchanged world vpid (settle world vpid outcome)) ↔
      ¬ LosesTarget table oldFd newFd := by
  rw [unchanged_settle_iff found entries closes, result]
  by_cases missing : oldFd = newFd ∨ table.get oldFd = none
  · rw [if_pos missing, unspoilt_of_missing missing]
    simp [Except.toOption]
  · rw [if_neg missing]
    simp [Except.toOption, LosesTarget, missing]

/-- `-1` from an interface: the copy may have been made as well. -/
theorem failsClean_reply_iff
    (bound : newFd < 4294967296)
    (entries : ∀ number, outcome.table.get number =
      if number = newFd then
        (if oldFd = newFd then none else table.get oldFd)
      else table.get number)
    (closes : outcome.closes = (table.close newFd).closes)
    (result : outcome.result =
      if oldFd = newFd ∨ table.get oldFd = none then .error 9
      else .ok newFd) :
    ((replyOf outcome.result == -1) = true →
        Unchanged world vpid (settle world vpid outcome)) ↔
      ¬ (LosesTarget table oldFd newFd ∨
        CopiesToLast table oldFd newFd) := by
  rw [unchanged_settle_iff found entries closes, result]
  by_cases missing : oldFd = newFd ∨ table.get oldFd = none
  · have notCopied : ¬ CopiesToLast table oldFd newFd := by
      rintro ⟨_, different, present, _⟩
      exact missing.elim different present
    rw [if_pos missing, unspoilt_of_missing missing]
    simp [replyOf, notCopied]
  · have notLost : ¬ LosesTarget table oldFd newFd :=
      fun lost => missing lost.1
    obtain ⟨different, present⟩ := not_or.mp missing
    rw [if_neg missing, if_neg different]
    simp only [replyOf, beq_iff_eq, asCInt_eq_neg_one_iff bound,
      CopiesToLast, notLost, false_or]
    tauto

end Table

/-! ## The calls -/

theorem failsClean_of_no_table
    {world : World} {vpid : VPid} (missing : world.getTable vpid = none)
    (call : DupCall) :
    FailsClean world vpid call := by
  have noEntries {next : World} (same : next.tables = world.tables)
      (pipes : next.pipes = world.pipes) :
      Unchanged world vpid next := by
    refine ⟨fun number => entry_congr same vpid number, fun buf => ?_⟩
    rw [pipes]
  intro _
  cases call with
  | tableDup oldFd => apply noEntries <;> simp only [perform, missing]
  | tableDup2 oldFd newFd => apply noEntries <;> simp only [perform, missing]
  | ffiDup oldFd =>
      apply noEntries <;> simp only [perform, World.ffiDup, missing]
  | ffiDup2 oldFd newFd =>
      apply noEntries <;> simp only [perform, World.ffiDup2, missing]
  | preloadDup oldFd answer =>
      apply noEntries <;> simp only [perform, World.dup, missing]
  | preloadDup2 oldFd newFd =>
      apply noEntries
      · simp only [perform, World.dup2, missing]
        split <;> rfl
      · simp only [perform, World.dup2, missing]
        split <;> rfl

section Calls

variable {world : World} {vpid : VPid} {table : VfdTable}
variable (found : world.getTable vpid = some table)

include found

/-- A copy through the kernel takes its number last. -/
theorem failsClean_preloadDup_kernel_iff
    {oldFd realFd : CInt} (answer : CInt)
    (source : underlyingReal table oldFd = some realFd) :
    FailsClean world vpid (.preloadDup oldFd answer) ↔
      ¬ (((world.kernel.files realFd).isSome = true ∧
            world.kernel.usable answer = true) ∧
          table.nextFd = 4294967295 ∧
          table.get table.nextFd ≠
            some
              (.file
                { arc := world.nextArc
                  realFd := answer
                  cloexec := false })) := by
  by_cases possible :
      (world.kernel.files realFd).isSome = true ∧
        world.kernel.usable answer = true
  · simp only [FailsClean, perform, dup_granted found source possible,
      beq_iff_eq, asCInt_eq_neg_one_iff table.nextFd_lt, possible,
      and_self, true_and, not_and, not_not]
    apply imp_congr_right
    intro _
    have after (number : Nat) :
        ({ world.setTable vpid
              (table.insertFile world.nextArc answer false).1 with
            nextArc := world.nextArc + 1
            kernel := (world.kernel.dup realFd answer).1 } :
          World).entry vpid number =
          if number = table.nextFd then
            some
              (.file
                { arc := world.nextArc
                  realFd := answer
                  cloexec := false })
          else table.get number := by
      have stored :=
        entry_setTable world vpid vpid
          (table.insertFile world.nextArc answer false).1 number
      rw [if_pos rfl] at stored
      exact stored.trans (get_insertFile table _ _ _ number)
    constructor
    · rintro ⟨same, _⟩
      have atNext := same table.nextFd
      rw [after, if_pos rfl, entry_of_getTable found] at atNext
      exact atNext.symm
    · intro already
      refine ⟨fun number => ?_, fun _ => rfl⟩
      rw [after, entry_of_getTable found]
      split
      · rename_i atNext
        rw [atNext, already]
      · rfl
  · simp only [FailsClean, perform, dup_refused found source possible]
    simp [possible, Unchanged]

/-- A copy onto a kernel number fails before it changes anything. -/
theorem failsClean_preloadDup2_kernel
    {oldFd realFd : CInt} (newFd : CInt)
    (source : underlyingReal table oldFd = some realFd) :
    FailsClean world vpid (.preloadDup2 oldFd newFd) := by
  by_cases possible :
      (world.kernel.files realFd).isSome = true ∧
        world.kernel.inRange newFd = true
  · -- a number in the kernel's range is not -1
    intro failed
    simp only [perform, dup2_granted found source possible,
      beq_iff_eq] at failed
    have inRange := possible.2
    rw [failed] at inRange
    simp [Kernel.inRange] at inRange
  · intro _
    simp only [perform, dup2_refused found source possible]
    exact ⟨fun _ => rfl, fun _ => rfl⟩

end Calls

/--
A failing call changes nothing, if and only if the call is not one which loses
its target or copies to the number that reads as a failure.
-/
theorem failed_dup_changes_nothing_iff
    (world : World) (vpid : VPid) (call : DupCall) :
    FailsClean world vpid call ↔ ¬ Spoils world vpid call := by
  cases found : world.getTable vpid with
  | none =>
      simp [failsClean_of_no_table found call, Spoils, found]
  | some table =>
      cases call with
      | tableDup oldFd =>
          simp only [Spoils, found, endpoints, FailsClean, perform]
          exact
            failsClean_table_iff found (get_dup table _)
              (dup_closes table _) (dup_result table _)
      | tableDup2 oldFd newFd =>
          simp only [Spoils, found, endpoints, FailsClean, perform]
          exact
            failsClean_table_iff found (get_dup2 table _ _)
              (dup2_closes table _ _) (dup2_result table _ _)
      | ffiDup oldFd =>
          simp only [Spoils, found, endpoints, FailsClean, perform,
            World.ffiDup]
          exact
            failsClean_reply_iff found table.nextFd_lt (get_dup table _)
              (dup_closes table _) (dup_result table _)
      | ffiDup2 oldFd newFd =>
          simp only [Spoils, found, endpoints, FailsClean, perform,
            World.ffiDup2]
          exact
            failsClean_reply_iff found (asU32_lt newFd)
              (get_dup2 table _ _) (dup2_closes table _ _)
              (dup2_result table _ _)
      | preloadDup oldFd answer =>
          cases source : underlyingReal table oldFd with
          | some realFd =>
              rw [failsClean_preloadDup_kernel_iff found answer source]
              simp only [Spoils, found, source, endpoints]
          | none =>
              simp only [Spoils, found, source, endpoints, FailsClean,
                perform, dup_virtual found answer source]
              exact
                failsClean_reply_iff found table.nextFd_lt
                  (get_dup table _) (dup_closes table _)
                  (dup_result table _)
      | preloadDup2 oldFd newFd =>
          cases source : underlyingReal table oldFd with
          | some realFd =>
              have clean :=
                failsClean_preloadDup2_kernel found newFd source
              simp [clean, Spoils, found, source]
          | none =>
              simp only [Spoils, found, source, endpoints, FailsClean,
                perform, dup2_virtual found newFd source]
              exact
                failsClean_reply_iff found (asU32_lt newFd)
                  (get_dup2 table _ _) (dup2_closes table _ _)
                  (dup2_result table _ _)

/-- A process with the default table. -/
def withTable : World :=
  (World.init Kernel.standard).createTableWithFds 1 0 1 2

/-- A copy of 7, which is not open, onto standard output: that is closed. -/
theorem failed_dup2_closes_target :
    (withTable.ffiDup2 1 7 1).2 = -1 ∧
      ¬ FailsClean withTable 1 (.ffiDup2 7 1) := by
  refine ⟨by decide, ?_⟩
  intro clean
  obtain ⟨same, _⟩ := clean (by decide)
  have atTarget := same 1
  revert atTarget
  decide

end Vproc.Fd.DupFailures
