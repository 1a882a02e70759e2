import Vproc.Ffi.Sessions
import Vproc.Sched.WaitPid

/-!
# Exit statuses through the C layer

The C `waitpid` asks `vproc_ffi_get_exit_code`, which answers -1 for a process
which is not over, and takes every negative answer for that.  So it finds the
exit of a child whose code is not negative at its first look, and never that
of one whose code is negative.

`vproc_ffi_vpid_exists` expects a session and a process.  The C layer passes
the process alone, so that its number is taken for that of a session, and for
the process stands whatever the register holds.  The session is locked to look
into it; the lock of the caller's own session is held by the driver which runs
the caller.
-/

namespace Vproc.Ffi.ExitStatuses

open Vproc.Lib.Run
open Vproc.Lib.FiniteMap
open Vproc.Fd.Table
open Vproc.Fd.KernelTable
open Vproc.Fd.Runtime
open Vproc.Sched.Scheduler
open Vproc.Sched.DriverLoop
open Vproc.Sched.DriverSteps
open Vproc.Sched.ExitDurability
open Vproc.Sched.WaitPid
open Vproc.Ffi.Sessions

/-- What the C layer can see: the sessions, and which one the caller is in. -/
structure Surroundings where
  own : SessionId
  executor : Executor
  others : SessionId → Option Executor
  register : VPid

/-- How one round of the C loop ends. -/
inductive Round where
  | returns (reply : WaitReply)
  | yields
  | blocks
deriving DecidableEq

/-- `vproc_ffi_get_exit_code`. -/
def ffiGetExitCode (ex : Executor) (vpid : VPid) : CInt :=
  (ex.getExitCode vpid).getD (-1)

/-- `vproc_ffi_vpid_exists`; none if the session cannot be locked. -/
def ffiVpidExists (around : Surroundings) (session vpid : Nat) :
    Option Bool :=
  if session = around.own then none
  else
    match around.others session with
    | some ex => some (vpid ∈ ex.vprocs || vpid ∈ ex.exitCodes)
    | none => some false

/-- One round of the loop of the C `waitpid`. -/
def cRound (around : Surroundings) (call : WaitCall) : Round :=
  let vpid := asU32 call.pid
  let code := ffiGetExitCode around.executor vpid
  if 0 ≤ code then
    .returns
      { ret := call.pid
        status := if call.wantsStatus then some (statusOf code) else none
        errno := none }
  else
    match ffiVpidExists around vpid around.register with
    | none => .blocks
    | some false => .returns { ret := -1, status := none, errno := some 10 }
    | some true => .yields

/-- The child is over, and `vproc_exit_with_code` has stored its code. -/
def ExitedWith (ex : Executor) (child : VPid) (code : CInt) : Prop :=
  ex.exitCodes.lookup child = some code

/-- What both layers have to answer. -/
def exitReply (call : WaitCall) (code : CInt) : WaitReply where
  ret := call.pid
  status := if call.wantsStatus then some (statusOf code) else none
  errno := none

/-- The C layer answers at once, as the virtual branch of the Rust one. -/
def Delivers (around : Surroundings) (call : WaitCall) (code : CInt) :
    Prop :=
  cRound around call = .returns (exitReply call code) ∧
    ∀ answer,
      look around.executor { call := call, isVirtual := true } answer =
        some (exitReply call code)

/-- An exit of a run leaves its code behind, until it is removed. -/
theorem exitedWith_of_exit
    {world : World} {before after : List DriverOp} {op : DriverOp}
    {start final : Machine} {turn : Turn} {code : CInt}
    (reached : run Machine.step (Machine.init world) before = some start)
    (running : start.driver.turn = some turn)
    (exits : exitCode? start.driver op = some code)
    (continues : run Machine.step start (op :: after) = some final)
    (kept : DriverOp.removeExitCode turn.pid ∉ after)
    (few : final.driver.spawned < 4294967296) :
    ExitedWith final.driver.executor turn.pid code := by
  have numbered : Numbered start.driver :=
    @invariant_of_run Machine DriverOp Machine.step
      (fun machine => Numbered machine.driver) numbered_step before
      _ _ numbered_new reached
  obtain ⟨next, stepped, remaining⟩ := run_cons_iff.mp continues
  have change := change_of_machineStep stepped
  obtain ⟨ended, stored, _⟩ := ended_of_exit change numbered running exits
  exact
    (ended_run (numbered_change change numbered) ended stored remaining
      kept few).1

section Exited

variable {around : Surroundings} {call : WaitCall} {code : CInt}
variable (exited : ExitedWith around.executor (asU32 call.pid) code)

include exited

theorem getExitCode_of_exited :
    around.executor.getExitCode (asU32 call.pid) = some code := by
  have stored :
      around.executor.exitCodes.lookup (asU32 call.pid) = some code :=
    exited
  simp only [Executor.getExitCode, stored]

/-- The Rust layer answers, whatever the code is. -/
theorem look_of_exited (answer : Wait4Answer) :
    look around.executor { call := call, isVirtual := true } answer =
      some (exitReply call code) := by
  simp [look, getExitCode_of_exited exited, exitReply]

theorem cRound_of_exited :
    cRound around call = .returns (exitReply call code) ↔ 0 ≤ code := by
  have answered :
      ffiGetExitCode around.executor (asU32 call.pid) = code := by
    rw [ffiGetExitCode, getExitCode_of_exited exited, Option.getD_some]
  unfold cRound
  dsimp only
  rw [answered]
  by_cases nonneg : 0 ≤ code
  · rw [if_pos nonneg]
    exact iff_of_true rfl nonneg
  · rw [if_neg nonneg]
    -- whatever the other call finds, it is not an exit without an error
    refine iff_of_false ?_ nonneg
    split
    · exact nofun
    · intro same
      cases congrArg WaitReply.errno (Round.returns.inj same)
    · exact nofun

end Exited

/--
For a child which has ended through `vproc_exit_with_code` the C `waitpid`
returns at once, with the status which the Rust `waitpid` returns, if and only
if the exit code is not negative.
-/
theorem c_waitpid_delivers_iff
    (around : Surroundings) (call : WaitCall) (code : CInt)
    (exited : ExitedWith around.executor (asU32 call.pid) code) :
    Delivers around call code ↔ 0 ≤ code := by
  unfold Delivers
  rw [cRound_of_exited exited]
  exact and_iff_left (look_of_exited exited)

/-- A child of session 1 which has exited with the given code. -/
def afterExit (code : CInt) : Option Surroundings :=
  (run Machine.step (Machine.init (World.init Kernel.standard))
      [.spawn, .spawn, .stepFromDriver, .exit (.exit code)]).map
    fun machine =>
      { own := 1
        executor := machine.driver.executor
        others := fun _ => none
        register := 0 }

/-- The parent waits for process 1. -/
def waitForFirst : WaitCall where
  pid := 1
  wantsStatus := true
  options := 0

theorem c_waitpid_delivers_iff_seven :
    ∃ around, afterExit 7 = some around ∧
      Delivers around waitForFirst 7 := by
  have exits :
      (afterExit 7).any
        (fun around =>
          decide (around.executor.exitCodes.lookup 1 = some 7)) =
      true := by
    decide
  obtain ⟨around, isAround, exited⟩ := Option.any_eq_true _ _ |>.mp exits
  have stored : around.executor.exitCodes.lookup 1 = some 7 :=
    of_decide_eq_true exited
  refine ⟨around, isAround, ?_⟩
  exact
    (c_waitpid_delivers_iff around waitForFirst 7 stored).mpr (by decide)

/-- A child which has called `exit(-1)` is waited for in vain. -/
theorem negative_exit_not_delivered :
    ¬ ∀ (around : Surroundings) (call : WaitCall) (code : CInt),
      ExitedWith around.executor (asU32 call.pid) code →
      Delivers around call code := by
  intro every
  have exits :
      (afterExit (-1)).any
        (fun around =>
          decide (around.executor.exitCodes.lookup 1 = some (-1)) &&
          decide (cRound around waitForFirst = .blocks)) = true := by
    decide
  obtain ⟨around, _, holds⟩ := Option.any_eq_true _ _ |>.mp exits
  obtain ⟨exited, blocked⟩ := Bool.and_eq_true_iff.mp holds
  have stored : around.executor.exitCodes.lookup 1 = some (-1) :=
    of_decide_eq_true exited
  have blocks : cRound around waitForFirst = .blocks :=
    of_decide_eq_true blocked
  have delivered := (every around waitForFirst (-1) stored).1
  rw [blocks] at delivered
  cases delivered

end Vproc.Ffi.ExitStatuses
