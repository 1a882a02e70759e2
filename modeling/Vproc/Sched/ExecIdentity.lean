import Vproc.Sched.WaitPid
import Vproc.Sched.WorkingDir

/-!
# Who a program is after `execve`

`execve` has two ways to run a program.  If `virtual_execve` succeeds, the
program is a new coroutine under a number of its own, and the caller exits
with 0 at once.  If it fails, the program runs in a real child of the host
process; the caller polls for the end of the child, yields as long as it
runs, and then exits with the code of the child.

So a third party which waits for the caller gets the code of the program in
the second case only.  There the program has the host process for its parent,
and starts in the kernel's working directory.

`calls` has no counterpart in the source: it lists the calls which have begun
a program, with what the caller was at that time.  `programs` lists the
programs of the real children in the order of their forks, since the kernel
may give a number again once its child has been waited for.
-/

namespace Vproc.Sched.ExecIdentity

open Vproc.Lib.Run
open Vproc.Lib.FiniteMap
open Vproc.Fd.Table
open Vproc.Fd.KernelTable
open Vproc.Fd.Runtime
open Vproc.Sched.Scheduler
open Vproc.Sched.DriverLoop
open Vproc.Sched.DriverSteps
open Vproc.Sched.ExitDurability
open Vproc.Sched.Lineage
open Vproc.Sched.WorkingDir
open Vproc.Sched.WaitPid

/-! ## The end of a real process -/

/-- A signal of the kernel. -/
def KernelSignal := { sig : CInt // 1 ≤ sig ∧ sig ≤ 64 }

instance : DecidableEq KernelSignal :=
  inferInstanceAs (DecidableEq { sig : CInt // 1 ≤ sig ∧ sig ≤ 64 })

/-- How a program in a real process ends. -/
inductive ProgramEnd where
  | exited (code : CInt)
  | killed (sig : KernelSignal) (core : Bool)
deriving DecidableEq

namespace ProgramEnd

/-- The status which the kernel keeps of it. -/
def status : ProgramEnd → CInt
  | exited code => code % 256 * 256
  | killed sig core => sig.1 + if core then 128 else 0

/-- The exit code of the program; for a signal, that of `set_done` and shells. -/
def code : ProgramEnd → CInt
  | exited code => code % 256
  | killed sig _ => 128 + sig.1

end ProgramEnd

/-- `WTERMSIG`. -/
def wtermsig (status : CInt) : CInt :=
  status % 128

/-- `WIFEXITED`. -/
def wifexited (status : CInt) : Bool :=
  wtermsig status == 0

/-- `WEXITSTATUS`. -/
def wexitstatus (status : CInt) : CInt :=
  status / 256 % 256

/-- `WIFSIGNALED`. -/
def wifsignaled (status : CInt) : Bool :=
  decide (1 ≤ wtermsig status ∧ wtermsig status ≤ 126)

/-- The exit code which `execve` takes from a status. -/
def exitCodeOf (status : CInt) : CInt :=
  if wifexited status then wexitstatus status
  else if wifsignaled status then 128 + wtermsig status
  else 1

/-- The parts of the status of a program which exits. -/
theorem exited_parts (code : Int) :
    code % 256 * 256 % 128 = 0 ∧
      code % 256 * 256 / 256 % 256 = code % 256 := by
  omega

/-- The part of the status which holds a signal. -/
theorem killed_part (sig : Int) (core : Bool) (low : 1 ≤ sig)
    (high : sig ≤ 64) :
    (sig + if core then 128 else 0) % 128 = sig := by
  split <;> omega

theorem exitCodeOf_status (how : ProgramEnd) :
    exitCodeOf how.status = how.code := by
  cases how with
  | exited code =>
      obtain ⟨low, high⟩ := exited_parts code
      rw [exitCodeOf, if_pos]
      · exact high
      · exact beq_iff_eq.mpr low
  | killed sig core =>
      have taken : wtermsig (ProgramEnd.killed sig core).status = sig.1 :=
        killed_part sig.1 core sig.2.1 sig.2.2
      have notExited : sig.1 ≠ 0 := by
        intro none
        have low := sig.2.1
        rw [none] at low
        exact absurd low (by decide)
      have signaled : sig.1 ≤ 126 := sig.2.2.trans (by decide)
      have exits : wifexited (ProgramEnd.killed sig core).status = false := by
        rw [wifexited, taken]
        exact beq_eq_false_iff_ne.mpr notExited
      have isSignal :
          wifsignaled (ProgramEnd.killed sig core).status = true := by
        rw [wifsignaled, taken]
        exact decide_eq_true ⟨sig.2.1, signaled⟩
      rw [exitCodeOf, exits, isSignal, taken]
      rfl

/-- What `waitpid` makes of an exit code. -/
theorem wexitstatus_statusOf (code : CInt) :
    wexitstatus (statusOf code) = code % 256 :=
  (exited_parts code).2

/-- The exit code of a real program is one byte. -/
theorem code_mod (how : ProgramEnd) : how.code % 256 = how.code := by
  cases how with
  | exited code => exact Int.emod_emod code 256
  | killed sig core =>
      have small : ∀ sig : Int, 1 ≤ sig → sig ≤ 64 →
          (128 + sig) % 256 = 128 + sig := by
        intro sig low high
        omega
      exact small sig.1 sig.2.1 sig.2.2

/-! ## Calls in a session -/

/-- A program in a real child: where it has started, and how it has ended. -/
structure RealProgram where
  dir : KernelDir
  ended : Option ProgramEnd
deriving DecidableEq

/-- A program which `execve` has begun. -/
inductive Program where
  | coroutine (pid : VPid)
  | real (index : Nat)
deriving DecidableEq, Repr

/-- A call: its program, and the parent and the directory of its caller. -/
structure ExecCall where
  program : Program
  ppid : CInt
  cwd : Option String
deriving DecidableEq, Repr

/-- A call which has returned, with its value and `errno`. -/
structure ExecReply where
  caller : VPid
  ret : CInt
  errno : CInt
deriving DecidableEq, Repr

/-- The three functions `virtual_execve` chooses from. -/
inductive VirtualStart where
  | viaEntry
  | dynamicMain
  | static
deriving DecidableEq, Repr

/-- How they spawn the coroutine of the program. -/
def VirtualStart.op : VirtualStart → DriverOp
  | .viaEntry => .virtualExecve
  | .dynamicMain => .spawn
  | .static => .spawnElf

/-- `virtual_execve` succeeds, or fails and `fork` answers. -/
inductive Attempt where
  | succeeds (start : VirtualStart)
  | fails (forked : CInt)
deriving DecidableEq, Repr

/-- A session, the real children of its process, and its calls. -/
structure Execs where
  dirs : Directories
  hostPid : CInt
  children : CInt → Option Nat
  programs : List RealProgram
  waiting : VPid → Option CInt
  calls : VPid → Option ExecCall
  replies : List ExecReply

/--
The running coroutine calls `execve`, or goes on with its loop; a real child
ends; someone else has waited for it; anything else is a step of the driver or
a call about directories.
-/
inductive ExecOp where
  | driver (op : DriverOp)
  | directory (pid : VPid) (call : DirCall)
  | execve (attempt : Attempt)
  | again
  | ends (child : CInt) (how : ProgramEnd)
  | waitedFor (child : CInt)
deriving DecidableEq

namespace Execs

/-- A session in which nothing has happened. -/
def init (world : World) (dir : KernelDir) (hostPid : CInt) : Execs where
  dirs := Directories.init world dir
  hostPid := hostPid
  children := fun _ => none
  programs := []
  waiting := fun _ => none
  calls := fun _ => none
  replies := []

/-- The machine of the session. -/
def machine (state : Execs) : Machine :=
  state.dirs.machine

/-- The executor of the session. -/
def executor (state : Execs) : Executor :=
  state.machine.driver.executor

/-- Replace the machine. -/
def withMachine (state : Execs) (machine : Machine) : Execs :=
  { state with dirs := { state.dirs with machine := machine } }

/-- The running coroutine is in the loop of `execve`. -/
def blocked (state : Execs) : Bool :=
  state.machine.driver.turn.any fun turn =>
    (state.waiting turn.pid).isSome

/-- The loops after a step: a fork child is in the same loop as its parent. -/
def waitingAfter (state : Execs) (op : DriverOp) : VPid → Option CInt :=
  if spawns state.machine.driver op then
    Function.update state.waiting state.executor.nextPid
      (match op with
      | .spawnForkChild parent => state.waiting parent
      | _ => none)
  else state.waiting

/-- The calls after a step: a new process has made none. -/
def callsAfter (state : Execs) (op : DriverOp) : VPid → Option ExecCall :=
  if spawns state.machine.driver op then
    Function.update state.calls state.executor.nextPid none
  else state.calls

/-- `getppid` of a process. -/
def getppid (state : Execs) (pid : VPid) : CInt :=
  ((state.executor.vprocs.lookup pid).map fun co =>
    asCInt co.ppid).getD 0

/-- A call which begins a program. -/
def callOf (state : Execs) (caller : VPid) (program : Program) :
    ExecCall where
  program := program
  ppid := state.getppid caller
  cwd := state.dirs.cwdOf caller

/-- How the program of a real child has ended. -/
def endOf (state : Execs) (index : Nat) : Option ProgramEnd :=
  (state.programs[index]?).bind RealProgram.ended

/-- What the kernel answers to `wait4` with `WNOHANG`. -/
def wait4Answer (state : Execs) (child : CInt) : Wait4Answer :=
  match state.children child with
  | none => .error 10
  | some index =>
      match state.endOf index with
      | none => .notYet
      | some how => .child child how.status

/-- A child has been waited for. -/
def waitedFor (state : Execs) (child : CInt) : Execs :=
  { state with children := Function.update state.children child none }

/-- One turn of the loop: the exit code, or none if the caller yields. -/
def loopCode (state : Execs) (child : CInt) : Option CInt :=
  let reply :=
    rawWait4 { pid := child, wantsStatus := true, options := 1 }
      (state.wait4Answer child)
  if 0 < reply.ret then some (exitCodeOf (reply.status.getD 0))
  else if reply.ret < 0 then some (exitCodeOf 0)
  else none

/-- `execve`. -/
def execve (state : Execs) (caller : VPid) : Attempt → Option Execs
  | .succeeds start =>
      (state.machine.step start.op).bind fun spawned =>
        (spawned.step (.exit (.exit 0))).map fun left =>
          { state.withMachine left with
            waiting := state.waitingAfter start.op
            calls :=
              Function.update (state.callsAfter start.op) caller
                (some
                  (state.callOf caller
                    (.coroutine state.executor.nextPid))) }
  | .fails forked =>
      if forked < 0 then
        some
          { state with
            replies :=
              state.replies ++
                [{ caller := caller, ret := -1, errno := 8 }] }
      else if forked = 0 ∨ (state.children forked).isSome then none
      else
        some
          { state with
            children :=
              Function.update state.children forked
                (some state.programs.length)
            programs :=
              state.programs ++
                [{ dir := state.dirs.kernelCwd, ended := none }]
            waiting := Function.update state.waiting caller (some forked)
            calls :=
              Function.update state.calls caller
                (some
                  (state.callOf caller
                    (.real state.programs.length))) }

/-- The running coroutine looks for the child it waits for. -/
def again (state : Execs) (caller : VPid) (child : CInt) : Option Execs :=
  match state.loopCode child with
  | none => (state.machine.step .doYield).map state.withMachine
  | some code =>
      (state.machine.step (.exit (.exit code))).map fun next =>
        { (state.waitedFor child).withMachine next with
          waiting := Function.update state.waiting caller none }

/-- One step of a session with its calls. -/
def step (state : Execs) : ExecOp → Option Execs
  | .driver op =>
      if state.blocked then none
      else
        (state.machine.step op).map fun next =>
          { state.withMachine next with
            waiting := state.waitingAfter op
            calls := state.callsAfter op }
  | .directory pid call =>
      if state.blocked then none
      else
        (state.dirs.step (.call pid call)).map fun next =>
          { state with dirs := next }
  | .execve attempt =>
      if state.blocked then none
      else
        state.machine.driver.turn.bind fun turn =>
          state.execve turn.pid attempt
  | .again =>
      state.machine.driver.turn.bind fun turn =>
        (state.waiting turn.pid).bind fun child =>
          state.again turn.pid child
  | .ends child how =>
      (state.children child).bind fun index =>
        if (state.endOf index).isSome then none
        else
          some
            { state with
              programs :=
                state.programs.modify index fun program =>
                  { program with ended := some how } }
  | .waitedFor child =>
      (state.children child).bind fun index =>
        if (state.endOf index).isSome then some (state.waitedFor child)
        else none

end Execs

/-! ## The identity of a program -/

/--
The exit codes which others see of a process.  `run_until_exit` looks where
`get_exit_code` does.
-/
inductive Observed (ex : Executor) (pid : VPid) : CInt → Prop where
  | getExitCode {code : CInt} (found : ex.getExitCode pid = some code) :
      Observed ex pid code
  | waitpid {call : WaitCall} {answer : Wait4Answer} {reply : WaitReply}
      {status : CInt} (about : asU32 call.pid = pid)
      (replies : look ex { call := call, isVirtual := true } answer =
        some reply)
      (isStatus : reply.status = some status) :
      Observed ex pid (wexitstatus status)

namespace Execs

/-- The exit code of a program which has ended. -/
def exitOf (state : Execs) : Program → Option CInt
  | .coroutine pid =>
      match state.executor.vprocs.lookup pid with
      | some co =>
          if co.isDone then state.executor.getExitCode pid else none
      | none => state.executor.exitCodes.lookup pid
  | .real index => (state.endOf index).map ProgramEnd.code

/-- What `getppid` answers to a program. -/
def parentOf (state : Execs) : Program → CInt
  | .coroutine pid => state.getppid pid
  | .real _ => state.hostPid

/-- The program has this directory, or has started in it. -/
def InDir (state : Execs) (cwd : Option String) : Program → Prop
  | .coroutine pid => state.dirs.cwdOf pid = cwd
  | .real index =>
      ∀ program ∈ state.programs[index]?, ∀ path ∈ cwd,
        program.dir.1 = placeOf path

end Execs

/-- A program stands for the process which has called `execve`. -/
structure KeepsIdentity (state : Execs) (pid : VPid) (call : ExecCall) :
    Prop where
  exitCode : ∀ code, Observed state.executor pid code →
    state.exitOf call.program = some code
  observable : pid ∈ state.executor.vprocs → state.waiting pid = none →
    ∃ code, Observed state.executor pid code
  parent : state.exitOf call.program = none →
    state.parentOf call.program = call.ppid
  dir : state.exitOf call.program = none →
    state.InDir call.cwd call.program
  caller : state.exitOf call.program = none →
    state.getppid pid = call.ppid ∧ state.dirs.cwdOf pid = call.cwd

/-- Every program which `execve` has begun stands for its caller. -/
def Identities (state : Execs) : Prop :=
  ∀ pid call, state.calls pid = some call → KeepsIdentity state pid call

/--
`virtual_execve` fails, and the caller has the host process for its parent,
is in the kernel's directory, and has no exit code from an earlier process
with its number.  Nobody else has waited for the child when the caller looks.
-/
def FallsBack (state : Execs) : ExecOp → Prop
  | .execve (.succeeds _) => False
  | .execve (.fails forked) =>
      0 < forked →
        ∀ turn ∈ state.machine.driver.turn,
          turn.pid ∉ state.executor.exitCodes ∧
            state.getppid turn.pid = state.hostPid ∧
              ∀ path ∈ state.dirs.cwdOf turn.pid,
                state.dirs.kernelCwd.1 = placeOf path
  | .again =>
      ∀ turn ∈ state.machine.driver.turn,
        ∀ child ∈ state.waiting turn.pid,
          ∀ call ∈ state.calls turn.pid,
            (state.children child).map Program.real = some call.program
  | _ => True

instance (state : Execs) (op : ExecOp) : Decidable (FallsBack state op) :=
  match op with
  | .execve (.succeeds _) => inferInstanceAs (Decidable False)
  | .execve (.fails forked) =>
      inferInstanceAs
        (Decidable
          (0 < forked →
            ∀ turn ∈ state.machine.driver.turn,
              turn.pid ∉ state.executor.exitCodes ∧
                state.getppid turn.pid = state.hostPid ∧
                  ∀ path ∈ state.dirs.cwdOf turn.pid,
                    state.dirs.kernelCwd.1 = placeOf path))
  | .again =>
      inferInstanceAs
        (Decidable
          (∀ turn ∈ state.machine.driver.turn,
            ∀ child ∈ state.waiting turn.pid,
              ∀ call ∈ state.calls turn.pid,
                (state.children child).map Program.real =
                  some call.program))
  | .driver _ => inferInstanceAs (Decidable True)
  | .directory _ _ => inferInstanceAs (Decidable True)
  | .ends _ _ => inferInstanceAs (Decidable True)
  | .waitedFor _ => inferInstanceAs (Decidable True)

/-! ## The steps -/

/-- What a step can do. -/
inductive Moved (state : Execs) : ExecOp → Execs → Prop where
  | driver {op : DriverOp} {next : Machine}
      (unblocked : state.blocked = false)
      (stepped : state.machine.step op = some next) :
      Moved state (.driver op)
        { state.withMachine next with
          waiting := state.waitingAfter op
          calls := state.callsAfter op }
  | directory {pid : VPid} {call : DirCall} {next : Directories}
      (unblocked : state.blocked = false)
      (stepped : state.dirs.step (.call pid call) = some next) :
      Moved state (.directory pid call) { state with dirs := next }
  | succeeds {start : VirtualStart} {turn : Turn} {next : Execs}
      (running : state.machine.driver.turn = some turn)
      (called : state.execve turn.pid (.succeeds start) = some next) :
      Moved state (.execve (.succeeds start)) next
  | forkFails {forked : CInt} {replies : List ExecReply} :
      Moved state (.execve (.fails forked))
        { state with replies := replies }
  | forks {forked : CInt} {turn : Turn}
      (running : state.machine.driver.turn = some turn)
      (positive : 0 < forked) :
      Moved state (.execve (.fails forked))
        { state with
          children :=
            Function.update state.children forked
              (some state.programs.length)
          programs :=
            state.programs ++
              [{ dir := state.dirs.kernelCwd, ended := none }]
          waiting := Function.update state.waiting turn.pid (some forked)
          calls :=
            Function.update state.calls turn.pid
              (some
                (state.callOf turn.pid
                  (.real state.programs.length))) }
  | yields {turn : Turn} {child : CInt} {next : Machine}
      (running : state.machine.driver.turn = some turn)
      (waits : state.waiting turn.pid = some child)
      (silent : state.loopCode child = none)
      (stepped : state.machine.step .doYield = some next) :
      Moved state .again (state.withMachine next)
  | exits {turn : Turn} {child code : CInt} {next : Machine}
      (running : state.machine.driver.turn = some turn)
      (waits : state.waiting turn.pid = some child)
      (isCode : state.loopCode child = some code)
      (stepped : state.machine.step (.exit (.exit code)) = some next) :
      Moved state .again
        { (state.waitedFor child).withMachine next with
          waiting := Function.update state.waiting turn.pid none }
  | ends {child : CInt} {how : ProgramEnd} {index : Nat}
      (runs : state.endOf index = none) :
      Moved state (.ends child how)
        { state with
          programs :=
            state.programs.modify index fun program =>
              { program with ended := some how } }
  | waitedFor {child : CInt} :
      Moved state (.waitedFor child) (state.waitedFor child)

theorem moved_of_step
    {state next : Execs} {op : ExecOp}
    (stepped : state.step op = some next) : Moved state op next := by
  cases op with
  | driver op =>
      simp only [Execs.step] at stepped
      split at stepped
      · cases stepped
      · rename_i unblocked
        obtain ⟨machine, moved, rfl⟩ := Option.map_eq_some_iff.mp stepped
        exact .driver (Bool.eq_false_iff.mpr unblocked) moved
  | directory pid call =>
      simp only [Execs.step] at stepped
      split at stepped
      · cases stepped
      · rename_i unblocked
        obtain ⟨dirs, called, rfl⟩ := Option.map_eq_some_iff.mp stepped
        exact .directory (Bool.eq_false_iff.mpr unblocked) called
  | execve attempt =>
      simp only [Execs.step] at stepped
      split at stepped
      · cases stepped
      · obtain ⟨turn, running, called⟩ :=
          Option.bind_eq_some_iff.mp stepped
        cases attempt with
        | succeeds start => exact .succeeds running called
        | fails forked =>
            simp only [Execs.execve] at called
            split at called
            · cases called
              exact .forkFails
            · rename_i notFailed
              split at called
              · cases called
              · rename_i notChild
                cases called
                have notZero := (not_or.mp notChild).1
                exact
                  .forks running
                    (lt_of_le_of_ne (not_lt.mp notFailed)
                      (Ne.symm notZero))
  | again =>
      obtain ⟨turn, running, found⟩ := Option.bind_eq_some_iff.mp stepped
      obtain ⟨child, waits, looked⟩ := Option.bind_eq_some_iff.mp found
      unfold Execs.again at looked
      split at looked
      · rename_i silent
        obtain ⟨machine, moved, rfl⟩ := Option.map_eq_some_iff.mp looked
        exact .yields running waits silent moved
      · rename_i code isCode
        obtain ⟨machine, moved, rfl⟩ := Option.map_eq_some_iff.mp looked
        exact .exits running waits isCode moved
  | ends child how =>
      obtain ⟨index, _, ended⟩ := Option.bind_eq_some_iff.mp stepped
      split at ended
      · cases ended
      · rename_i runs
        cases ended
        exact .ends (Option.not_isSome_iff_eq_none.mp runs)
  | waitedFor child =>
      obtain ⟨index, _, ended⟩ := Option.bind_eq_some_iff.mp stepped
      split at ended
      · cases ended
        exact .waitedFor
      · cases ended

/-! ## The caller in the executor -/

/-- A process which has no exit code yet. -/
structure Waits (ex : Executor) (pid : VPid) : Prop where
  lives : Lives ex pid
  unstored : ex.exitCodes.lookup pid = none

/-- A process which is over, all of whose exit codes are the same. -/
structure Left (ex : Executor) (pid : VPid) (code : CInt) : Prop where
  stored : ∀ other, ex.exitCodes.lookup pid = some other → other = code
  finished : ∀ co, ex.vprocs.lookup pid = some co →
    co.isDone = true ∧ co.exitCode = code

theorem getExitCode_of_waits
    {ex : Executor} {pid : VPid} (waits : Waits ex pid) :
    ex.getExitCode pid = none := by
  obtain ⟨co, found, alive⟩ := waits.lives
  simp only [Executor.getExitCode, waits.unstored, found, Option.bind_some,
    alive, Bool.false_eq_true, if_false]

theorem getExitCode_of_left
    {ex : Executor} {pid : VPid} {code other : CInt}
    (left : Left ex pid code) (found : ex.getExitCode pid = some other) :
    other = code := by
  unfold Executor.getExitCode at found
  split at found
  · rename_i stored
    cases found
    exact left.stored _ stored
  · obtain ⟨co, isStored, isCode⟩ := Option.bind_eq_some_iff.mp found
    obtain ⟨finished, same⟩ := left.finished co isStored
    rw [if_pos finished] at isCode
    cases isCode
    exact same

/-- What others see is what `get_exit_code` returns, or its lowest byte. -/
theorem getExitCode_of_observed
    {ex : Executor} {pid : VPid} {code : CInt}
    (observed : Observed ex pid code) :
    ∃ stored, ex.getExitCode pid = some stored ∧
      (code = stored ∨ code = stored % 256) := by
  cases observed with
  | getExitCode found => exact ⟨code, found, Or.inl rfl⟩
  | @waitpid call answer reply status about replies isStatus =>
      subst about
      simp only [look, if_true] at replies
      split at replies
      · rename_i stored found
        cases replies
        refine ⟨stored, found, Or.inr ?_⟩
        dsimp only at isStatus
        split at isStatus
        · cases isStatus
          exact wexitstatus_statusOf stored
        · cases isStatus
      · split at replies
        · cases replies
        · cases replies
          cases isStatus

section Changes

variable {driver next : Driver} {op : DriverOp} {pid : VPid}

/-- A process waits on unless it ends its turn by exiting or returning. -/
theorem waits_change
    (change : Change driver op next) (runs : TurnRuns driver)
    (goesOn : ∀ turn, driver.turn = some turn → turn.pid = pid →
      exitCode? driver op = none ∧ op ≠ .entryReturned)
    (waits : Waits driver.executor pid) :
    Waits next.executor pid where
  lives := lives_change change runs goesOn waits.lives
  unstored := by
    by_cases bystander : next.turn = none → NotRunning driver pid
    · rw [exitCode_change change runs bystander, waits.unstored, ite_self]
    · simp only [NotRunning, Classical.not_imp, not_forall, not_not]
        at bystander
      obtain ⟨isOver, turn, running, own⟩ := bystander
      rw [exitCodes_of_turn_over change running isOver
        (goesOn turn running own).1]
      exact waits.unstored

/-- A process which is over stays so. -/
theorem left_change
    {code : CInt} (change : Change driver op next) (runs : TurnRuns driver)
    (live : RunsLive driver)
    (notSpawned : spawns driver op = true →
      pid ≠ driver.executor.nextPid)
    (left : Left driver.executor pid code) :
    Left next.executor pid code := by
  have notRunning : NotRunning driver pid := by
    rintro turn running rfl
    obtain ⟨co, found, alive⟩ := live turn running
    rw [(left.finished co found).1] at alive
    cases alive
  have notPicked : picks driver op pid = false :=
    not_picks_of_finished (fun co found => (left.finished co found).1) op
  have follows :=
    follows_change change runs (fun _ => notRunning) notPicked notSpawned
  constructor
  case stored =>
    intro other stored
    rw [exitCode_change change runs fun _ => notRunning] at stored
    split at stored
    · cases stored
    · exact left.stored other stored
  case finished =>
    have before := left.finished
    intro co found
    rw [found] at follows
    generalize driver.executor.vprocs.lookup pid = stored
      at follows before
    cases follows with
    | persists same =>
        obtain ⟨finished, isCode⟩ := before _ rfl
        exact
          ⟨(isDone_of_persists same).trans finished,
            same.exitCode.trans isCode⟩

/-- The running process exits. -/
theorem left_exit
    {cause : ExitCause} {turn : Turn}
    (change : Change driver (.exit cause) next) (runs : TurnRuns driver)
    (running : driver.turn = some turn) :
    Left next.executor turn.pid cause.code := by
  cases change with
  | ends ended isTurn ending =>
      cases running.symm.trans isTurn
      have current := runs turn running
      cases ending with
      | exits =>
          constructor
          case stored =>
            intro other stored
            have isCode := exitCodes_exited current cause.code turn.pid
            rw [if_pos rfl] at isCode
            exact Option.some.inj (stored.symm.trans isCode)
          case finished =>
            intro co found
            rw [lookup_exited current, if_pos rfl] at found
            obtain ⟨before, _, rfl⟩ := Option.map_eq_some_iff.mp found
            exact ⟨rfl, rfl⟩
  | spawned isSpawn child => cases isSpawn
  | idles idle begins nothing => cases begins
  | resumes started idle begins chosen isResumed => cases begins
  | signals target sig isSignal =>
      rcases isSignal with impossible | ⟨impossible, _⟩
      · cases impossible
      · cases impossible

end Changes

/-! ## Calls whose programs are real -/

/-- A caller is in its loop, or has left it with the code of the program. -/
def InPhase (state : Execs) (pid : VPid) (program : RealProgram) : Prop :=
  match state.waiting pid with
  | some _ => Waits state.executor pid
  | none =>
      ∃ how, program.ended = some how ∧ Left state.executor pid how.code

/-- What holds of a call whose program is a real one. -/
structure Tracked (state : Execs) (pid : VPid) (call : ExecCall)
    (index : Nat) (program : RealProgram) : Prop where
  isReal : call.program = .real index
  found : state.programs[index]? = some program
  parent : state.hostPid = call.ppid
  dir : ∀ path ∈ call.cwd, program.dir.1 = placeOf path
  caller : ∀ co, state.executor.vprocs.lookup pid = some co →
    asCInt co.ppid = call.ppid ∧ co.cwd = call.cwd
  phase : InPhase state pid program

/-- What holds while every call falls back to a real child. -/
structure Followed (state : Execs) : Prop where
  runs : TurnRuns state.machine.driver
  live : RunsLive state.machine.driver
  tracked : ∀ pid call, state.calls pid = some call →
    ∃ index program, Tracked state pid call index program

section Steps

variable {state after : Execs} {pid : VPid} {call : ExecCall}
  {index : Nat} {program : RealProgram}

/-- A step which leaves the programs and the caller. -/
theorem tracked_of_continues
    (tracked : Tracked state pid call index program)
    (continues : Continues state.executor after.executor pid)
    (hostPid : after.hostPid = state.hostPid)
    (programs : after.programs[index]? = state.programs[index]?)
    (phase : InPhase after pid program) :
    Tracked after pid call index program where
  isReal := tracked.isReal
  found := programs.trans tracked.found
  parent := hostPid.trans tracked.parent
  dir := tracked.dir
  caller := by
    intro co stored
    obtain ⟨before, isBefore, same⟩ := continues co stored
    rw [same.ppid, same.cwd]
    exact tracked.caller before isBefore
  phase := phase

/-- A caller which has left its loop is not running. -/
theorem notRunning_of_unblocked
    (followed : Followed state) (unblocked : state.blocked = false)
    (tracked : Tracked state pid call index program) :
    NotRunning state.machine.driver pid := by
  rintro turn running rfl
  have outside : state.waiting turn.pid = none := by
    simpa [Execs.blocked, running] using unblocked
  have phase := tracked.phase
  simp only [InPhase, outside] at phase
  obtain ⟨how, _, left⟩ := phase
  obtain ⟨co, found, alive⟩ := followed.live turn running
  rw [(left.finished co found).1] at alive
  cases alive

theorem phase_machine
    {op : DriverOp} {next : Machine}
    (followed : Followed state)
    (stepped : state.machine.step op = some next)
    (notSpawned : spawns state.machine.driver op = true →
      pid ≠ state.machine.driver.executor.nextPid)
    (goesOn : ∀ turn, state.machine.driver.turn = some turn →
      turn.pid = pid →
        exitCode? state.machine.driver op = none ∧ op ≠ .entryReturned)
    (phase : InPhase state pid program)
    (machine : after.machine = next)
    (waiting : after.waiting pid = state.waiting pid) :
    InPhase after pid program := by
  have change := change_of_machineStep stepped
  rw [← machine] at change
  unfold InPhase at phase ⊢
  rw [waiting]
  cases isWaiting : state.waiting pid with
  | some child =>
      rw [isWaiting] at phase
      exact waits_change change followed.runs goesOn phase
  | none =>
      rw [isWaiting] at phase
      obtain ⟨how, ended, left⟩ := phase
      exact
        ⟨how, ended,
          left_change change followed.runs followed.live notSpawned left⟩

/-- A step of the machine, seen from a caller which does not end by it. -/
theorem tracked_machine
    {op : DriverOp} {next : Machine}
    (followed : Followed state)
    (stepped : state.machine.step op = some next)
    (notSpawned : spawns state.machine.driver op = true →
      pid ≠ state.machine.driver.executor.nextPid)
    (goesOn : ∀ turn, state.machine.driver.turn = some turn →
      turn.pid = pid →
        exitCode? state.machine.driver op = none ∧ op ≠ .entryReturned)
    (tracked : Tracked state pid call index program)
    (machine : after.machine = next)
    (waiting : after.waiting pid = state.waiting pid)
    (hostPid : after.hostPid = state.hostPid)
    (programs : after.programs = state.programs) :
    Tracked after pid call index program := by
  refine tracked_of_continues tracked ?_ hostPid (by rw [programs]) ?_
  · have change := change_of_machineStep stepped
    rw [← machine] at change
    exact continues_change change notSpawned
  · exact
      phase_machine followed stepped notSpawned goesOn tracked.phase
        machine waiting

/-- The calls and the loops which a step of the driver leaves. -/
theorem callsAfter_some
    {op : DriverOp} (found : state.callsAfter op pid = some call) :
    state.calls pid = some call ∧
      state.waitingAfter op pid = state.waiting pid ∧
        (spawns state.machine.driver op = true →
          pid ≠ state.machine.driver.executor.nextPid) := by
  unfold Execs.callsAfter at found
  unfold Execs.waitingAfter
  cases isSpawn : spawns state.machine.driver op with
  | false =>
      rw [isSpawn] at found
      exact ⟨found, rfl, nofun⟩
  | true =>
      simp only [isSpawn, if_true, Function.update_apply] at found ⊢
      split at found
      · cases found
      · rename_i other
        exact ⟨found, if_neg other, fun _ => other⟩

theorem turns_machine
    {op : DriverOp} {next : Machine} (followed : Followed state)
    (stepped : state.machine.step op = some next)
    (machine : after.machine = next) :
    TurnRuns after.machine.driver ∧ RunsLive after.machine.driver := by
  have change := change_of_machineStep stepped
  rw [machine]
  exact
    ⟨turnRuns_change change followed.runs,
      runsLive_change change followed.live⟩

theorem followed_driver
    {op : DriverOp} {next : Machine} (followed : Followed state)
    (unblocked : state.blocked = false)
    (stepped : state.machine.step op = some next)
    (machine : after.machine = next)
    (waiting : after.waiting = state.waitingAfter op)
    (calls : after.calls = state.callsAfter op)
    (hostPid : after.hostPid = state.hostPid)
    (programs : after.programs = state.programs) :
    Followed after := by
  obtain ⟨runs, live⟩ := turns_machine followed stepped machine
  refine ⟨runs, live, ?_⟩
  intro pid call isCall
  rw [calls] at isCall
  obtain ⟨before, loops, notSpawned⟩ := callsAfter_some isCall
  obtain ⟨index, program, tracked⟩ := followed.tracked pid call before
  have notRunning := notRunning_of_unblocked followed unblocked tracked
  refine
    ⟨index, program,
      tracked_machine followed stepped notSpawned ?_ tracked machine ?_
        hostPid programs⟩
  · exact fun turn running own => (notRunning turn running own).elim
  · rw [waiting, loops]

/-- What is stored of the caller decides its phase. -/
theorem phase_of_same
    (lookup : after.executor.vprocs.lookup pid =
      state.executor.vprocs.lookup pid)
    (codes : after.executor.exitCodes = state.executor.exitCodes)
    (waiting : after.waiting pid = state.waiting pid)
    (phase : InPhase state pid program) :
    InPhase after pid program := by
  unfold InPhase at phase ⊢
  rw [waiting]
  cases isWaiting : state.waiting pid with
  | some child =>
      rw [isWaiting] at phase
      obtain ⟨co, found, alive⟩ := phase.lives
      exact
        ⟨⟨co, lookup.trans found, alive⟩, by rw [codes, phase.unstored]⟩
  | none =>
      rw [isWaiting] at phase
      obtain ⟨how, ended, left⟩ := phase
      refine ⟨how, ended, ?_, ?_⟩
      · rw [codes]
        exact left.stored
      · rw [lookup]
        exact left.finished

theorem tracked_of_same
    (tracked : Tracked state pid call index program)
    (lookup : after.executor.vprocs.lookup pid =
      state.executor.vprocs.lookup pid)
    (codes : after.executor.exitCodes = state.executor.exitCodes)
    (waiting : after.waiting pid = state.waiting pid)
    (hostPid : after.hostPid = state.hostPid)
    (programs : after.programs[index]? = state.programs[index]?) :
    Tracked after pid call index program :=
  tracked_of_continues tracked
    (continues_of_stays (stays_of_lookup lookup)) hostPid programs
    (phase_of_same lookup codes waiting tracked.phase)

/-- The scheduler, the loops and the calls are as they were. -/
theorem followed_of_same
    (followed : Followed state)
    (driver : after.machine.driver = state.machine.driver)
    (waiting : after.waiting = state.waiting)
    (calls : after.calls = state.calls)
    (hostPid : after.hostPid = state.hostPid)
    (programs : after.programs = state.programs) :
    Followed after where
  runs := by
    rw [driver]
    exact followed.runs
  live := by
    rw [driver]
    exact followed.live
  tracked := by
    intro pid call isCall
    rw [calls] at isCall
    obtain ⟨index, program, tracked⟩ := followed.tracked pid call isCall
    have same : after.executor = state.executor :=
      congrArg Driver.executor driver
    exact
      ⟨index, program,
        tracked_of_same tracked (by rw [same]) (by rw [same])
          (by rw [waiting]) hostPid (by rw [programs])⟩

/-- `chdir` changes the record of the running process only. -/
theorem followed_setCwd
    {caller : VPid} {path : String}
    (followed : Followed state) (unblocked : state.blocked = false)
    (running : state.machine.driver.turn.map Turn.pid = some caller)
    (machine : after.machine = state.dirs.setCwd caller path)
    (waiting : after.waiting = state.waiting)
    (calls : after.calls = state.calls)
    (hostPid : after.hostPid = state.hostPid)
    (programs : after.programs = state.programs) :
    Followed after := by
  have lookup (pid : VPid) :
      after.executor.vprocs.lookup pid =
        if pid = caller then
          (state.executor.vprocs.lookup pid).map fun co =>
            { co with cwd := some path }
        else state.executor.vprocs.lookup pid := by
    rw [Execs.executor, machine]
    exact lookup_update state.executor caller pid _
  constructor
  case runs =>
    rw [machine]
    exact followed.runs
  case live =>
    intro turn isTurn
    rw [machine] at isTurn
    obtain ⟨co, found, alive⟩ := followed.live turn isTurn
    change ∃ co, after.executor.vprocs.lookup turn.pid = some co ∧ _
    have stored : state.executor.vprocs.lookup turn.pid = some co := found
    rw [lookup, stored]
    split
    · exact ⟨_, rfl, alive⟩
    · exact ⟨co, rfl, alive⟩
  case tracked =>
    intro pid call isCall
    rw [calls] at isCall
    obtain ⟨index, program, tracked⟩ := followed.tracked pid call isCall
    have notRunning := notRunning_of_unblocked followed unblocked tracked
    have different : pid ≠ caller := by
      obtain ⟨turn, isTurn, own⟩ := Option.map_eq_some_iff.mp running
      rw [← own]
      exact (notRunning turn isTurn).symm
    refine
      ⟨index, program,
        tracked_of_same tracked ?_ ?_ (by rw [waiting]) hostPid
          (by rw [programs])⟩
    · rw [lookup, if_neg different]
    · rw [Execs.executor, machine]
      rfl

/-- A call about directories, of a process which is in no loop. -/
theorem followed_directory
    {caller : VPid} {dirCall : DirCall} {next : Directories}
    (followed : Followed state) (unblocked : state.blocked = false)
    (stepped : state.dirs.step (.call caller dirCall) = some next) :
    Followed { state with dirs := next } := by
  simp only [Directories.step] at stepped
  split at stepped
  · rename_i isRunning
    obtain ⟨effect, happens, rfl⟩ := Option.map_eq_some_iff.mp stepped
    rcases effect_cases happens with
      ⟨sameDriver, _⟩ | ⟨path, rfl, rfl⟩
    · exact followed_of_same followed sameDriver rfl rfl rfl rfl
    · exact
        followed_setCwd followed unblocked isRunning rfl rfl rfl rfl rfl
  · cases stepped

/-- The caller falls back to a real child. -/
theorem followed_forks
    {turn : Turn} {forked : CInt}
    (followed : Followed state)
    (running : state.machine.driver.turn = some turn)
    (fresh : turn.pid ∉ state.executor.exitCodes)
    (parent : state.getppid turn.pid = state.hostPid)
    (inPlace : ∀ path ∈ state.dirs.cwdOf turn.pid,
      state.dirs.kernelCwd.1 = placeOf path)
    (driver : after.machine.driver = state.machine.driver)
    (waiting : after.waiting =
      Function.update state.waiting turn.pid (some forked))
    (calls : after.calls =
      Function.update state.calls turn.pid
        (some (state.callOf turn.pid (.real state.programs.length))))
    (hostPid : after.hostPid = state.hostPid)
    (programs : after.programs =
      state.programs ++ [{ dir := state.dirs.kernelCwd, ended := none }]) :
    Followed after := by
  have same : after.executor = state.executor :=
    congrArg Driver.executor driver
  obtain ⟨co, found, alive⟩ := followed.live turn running
  have stored : state.executor.vprocs.lookup turn.pid = some co := found
  constructor
  case runs =>
    rw [driver]
    exact followed.runs
  case live =>
    rw [driver]
    exact followed.live
  case tracked =>
    intro pid call isCall
    rw [calls, Function.update_apply] at isCall
    split at isCall
    · rename_i own
      cases isCall
      rw [own]
      refine
        ⟨state.programs.length,
          { dir := state.dirs.kernelCwd, ended := none }, rfl, ?_, ?_,
          inPlace, ?_, ?_⟩
      · rw [programs, List.getElem?_concat_length]
      · exact hostPid.trans parent.symm
      · intro other isOther
        rw [same, stored] at isOther
        cases isOther
        constructor
        · simp [Execs.callOf, Execs.getppid, stored]
        · exact
            (congrArg (fun stored => Option.bind stored Coroutine.cwd)
              stored).symm
      · rw [InPhase, waiting, Function.update_self, same]
        exact ⟨⟨co, found, alive⟩, AList.lookup_eq_none.mpr fresh⟩
    · rename_i other
      obtain ⟨index, program, tracked⟩ := followed.tracked pid call isCall
      have within : index < state.programs.length :=
        (List.getElem?_eq_some_iff.mp tracked.found).1
      refine
        ⟨index, program,
          tracked_of_same tracked (by rw [same]) (by rw [same]) ?_
            hostPid ?_⟩
      · rw [waiting, Function.update_of_ne other]
      · rw [programs, List.getElem?_append_left within]

/-- The caller looks, and the child is still running. -/
theorem followed_yields
    {next : Machine} (followed : Followed state)
    (stepped : state.machine.step .doYield = some next) :
    Followed (state.withMachine next) := by
  obtain ⟨runs, live⟩ :=
    @turns_machine state (state.withMachine next) _ _ followed stepped rfl
  refine ⟨runs, live, ?_⟩
  intro pid call isCall
  obtain ⟨index, program, tracked⟩ := followed.tracked pid call isCall
  exact
    ⟨index, program,
      tracked_machine followed stepped nofun
        (fun _ _ _ => ⟨rfl, nofun⟩) tracked rfl rfl rfl rfl⟩

/-- The answer of the kernel, as the loop takes it. -/
theorem loopCode_of_child
    {child : CInt} (isChild : state.children child = some index)
    (positive : 0 < child) :
    state.loopCode child = (state.endOf index).map ProgramEnd.code := by
  unfold Execs.loopCode Execs.wait4Answer
  simp only [isChild]
  cases state.endOf index with
  | none => rfl
  | some how =>
      simp only [rawWait4, if_true, positive, Option.getD_some,
        exitCodeOf_status, Option.map_some]

/-- The caller has found the end of its own program, and exits. -/
theorem followed_exits
    {turn : Turn} {code : CInt} {next : Machine}
    (followed : Followed state)
    (running : state.machine.driver.turn = some turn)
    (ended : ∀ call, state.calls turn.pid = some call →
      ∃ index how, call.program = .real index ∧
        state.endOf index = some how ∧ how.code = code)
    (stepped : state.machine.step (.exit (.exit code)) = some next)
    (machine : after.machine = next)
    (waiting : after.waiting =
      Function.update state.waiting turn.pid none)
    (calls : after.calls = state.calls)
    (hostPid : after.hostPid = state.hostPid)
    (programs : after.programs = state.programs) :
    Followed after := by
  have change := change_of_machineStep stepped
  rw [← machine] at change
  obtain ⟨runs, live⟩ := turns_machine followed stepped machine
  refine ⟨runs, live, ?_⟩
  intro pid call isCall
  rw [calls] at isCall
  obtain ⟨index, program, tracked⟩ := followed.tracked pid call isCall
  by_cases own : pid = turn.pid
  · subst own
    obtain ⟨_, how, isReal, isEnd, rfl⟩ := ended call isCall
    cases tracked.isReal.symm.trans isReal
    refine
      ⟨index, program,
        tracked_of_continues tracked (continues_change change nofun)
          hostPid (by rw [programs]) ?_⟩
    rw [InPhase, waiting, Function.update_self]
    refine ⟨how, ?_, left_exit change followed.runs running⟩
    rw [Execs.endOf, tracked.found] at isEnd
    exact isEnd
  · refine
      ⟨index, program,
        tracked_machine followed stepped nofun ?_ tracked machine ?_
          hostPid programs⟩
    · intro other isTurn same
      cases running.symm.trans isTurn
      exact (own same.symm).elim
    · rw [waiting, Function.update_of_ne own]

/-- The program of a real child ends. -/
theorem followed_ends
    {target : Nat} {how : ProgramEnd}
    (followed : Followed state) (runs : state.endOf target = none)
    (machine : after.machine = state.machine)
    (waiting : after.waiting = state.waiting)
    (calls : after.calls = state.calls)
    (hostPid : after.hostPid = state.hostPid)
    (programs : after.programs =
      state.programs.modify target fun program =>
        { program with ended := some how }) :
    Followed after := by
  have same : after.executor = state.executor := by
    rw [Execs.executor, machine]
    rfl
  refine
    ⟨by rw [machine]; exact followed.runs,
      by rw [machine]; exact followed.live, ?_⟩
  intro pid call isCall
  rw [calls] at isCall
  obtain ⟨index, program, tracked⟩ := followed.tracked pid call isCall
  by_cases own : index = target
  · subst own
    have isRunning : program.ended = none := by
      rw [Execs.endOf, tracked.found] at runs
      exact runs
    refine
      ⟨index, { program with ended := some how }, tracked.isReal, ?_,
        hostPid.trans tracked.parent, tracked.dir, ?_, ?_⟩
    · rw [programs, List.getElem?_modify_eq, tracked.found]
      rfl
    · rw [same]
      exact tracked.caller
    · have phase := tracked.phase
      unfold InPhase at phase ⊢
      rw [waiting, same]
      cases isWaiting : state.waiting pid with
      | some child =>
          rw [isWaiting] at phase
          exact phase
      | none =>
          rw [isWaiting] at phase
          obtain ⟨other, ended, _⟩ := phase
          rw [isRunning] at ended
          cases ended
  · refine
      ⟨index, program,
        tracked_of_same tracked (by rw [same]) (by rw [same])
          (by rw [waiting]) hostPid ?_⟩
    rw [programs]
    exact List.getElem?_modify_ne _ _ (Ne.symm own)

/-- The kernel's numbers are positive. -/
def Positive (state : Execs) : Prop :=
  ∀ child index, state.children child = some index → 0 < child

theorem positive_waitedFor (positive : Positive state) (child : CInt) :
    Positive (state.waitedFor child) := by
  intro other index found
  simp only [Execs.waitedFor, Function.update_apply] at found
  split at found
  · cases found
  · exact positive other index found

theorem positive_step
    (op : ExecOp) (next : Execs) (positive : Positive state)
    (stepped : state.step op = some next) : Positive next := by
  cases moved_of_step stepped with
  | driver unblocked moved => exact positive
  | directory unblocked moved => exact positive
  | succeeds running called =>
      obtain ⟨spawned, _, exits⟩ := Option.bind_eq_some_iff.mp called
      obtain ⟨left, _, rfl⟩ := Option.map_eq_some_iff.mp exits
      exact positive
  | forkFails => exact positive
  | forks running isPositive =>
      intro child index found
      simp only [Function.update_apply] at found
      split at found
      · rename_i own
        rw [own]
        exact isPositive
      · exact positive child index found
  | yields running waits silent moved => exact positive
  | exits running waits isCode moved =>
      exact positive_waitedFor positive _
  | ends runs => exact positive
  | waitedFor => exact positive_waitedFor positive _

theorem followed_step
    (op : ExecOp) (next : Execs) (followed : Followed state)
    (positive : Positive state) (stepped : state.step op = some next)
    (fallsBack : FallsBack state op) : Followed next := by
  cases moved_of_step stepped with
  | driver unblocked moved =>
      exact followed_driver followed unblocked moved rfl rfl rfl rfl rfl
  | directory unblocked moved =>
      exact followed_directory followed unblocked moved
  | succeeds running called => exact fallsBack.elim
  | forkFails => exact followed_of_same followed rfl rfl rfl rfl rfl
  | forks running isPositive =>
      obtain ⟨fresh, parent, inPlace⟩ := fallsBack isPositive _ running
      exact
        followed_forks followed running fresh parent inPlace rfl rfl rfl rfl
          rfl
  | yields running waits silent moved =>
      exact followed_yields followed moved
  | exits running waits isCode moved =>
      refine followed_exits followed running ?_ moved rfl rfl rfl rfl rfl
      intro call isCall
      obtain ⟨index, isChild, isReal⟩ :=
        Option.map_eq_some_iff.mp
          (fallsBack _ running _ waits call isCall)
      rw [loopCode_of_child isChild (positive _ index isChild)] at isCode
      obtain ⟨how, isEnd, same⟩ := Option.map_eq_some_iff.mp isCode
      exact ⟨index, how, isReal.symm, isEnd, same⟩
  | ends runs => exact followed_ends followed runs rfl rfl rfl rfl rfl
  | waitedFor => exact followed_of_same followed rfl rfl rfl rfl rfl

/-- A real program stands for its caller. -/
theorem keepsIdentity_of_tracked
    (tracked : Tracked state pid call index program) :
    KeepsIdentity state pid call := by
  have isEnd :
      state.exitOf call.program =
        program.ended.map ProgramEnd.code := by
    rw [tracked.isReal]
    simp only [Execs.exitOf, Execs.endOf, tracked.found, Option.bind_some]
  have phase := tracked.phase
  unfold InPhase at phase
  constructor
  case exitCode =>
    intro code observed
    obtain ⟨stored, found, same⟩ := getExitCode_of_observed observed
    split at phase
    · rw [getExitCode_of_waits phase] at found
      cases found
    · obtain ⟨how, ended, left⟩ := phase
      have isStored := getExitCode_of_left left found
      rw [isEnd, ended, Option.map_some]
      rcases same with same | same
      · rw [same, isStored]
      · rw [same, isStored, code_mod]
  case observable =>
    intro present outside
    rw [outside] at phase
    obtain ⟨how, ended, left⟩ := phase
    obtain ⟨co, found⟩ := mem_iff_lookup.mp present
    have finished := (left.finished co found).1
    cases stored : state.executor.exitCodes.lookup pid with
    | some code =>
        refine ⟨code, .getExitCode ?_⟩
        simp only [Executor.getExitCode, stored]
    | none =>
        refine ⟨co.exitCode, .getExitCode ?_⟩
        simp only [Executor.getExitCode, stored, found, Option.bind_some,
          finished, if_true]
  case parent =>
    intro _
    rw [tracked.isReal]
    exact tracked.parent
  case dir =>
    intro _
    rw [tracked.isReal]
    intro other isOther
    cases tracked.found.symm.trans isOther
    exact tracked.dir
  case caller =>
    intro running
    rw [isEnd, Option.map_eq_none_iff] at running
    split at phase
    · obtain ⟨co, found, _⟩ := phase.lives
      obtain ⟨ppid, cwd⟩ := tracked.caller co found
      constructor
      · simp only [Execs.getppid, found, Option.map_some, Option.getD_some,
          ppid]
      · rw [← cwd]
        exact
          congrArg (fun stored => Option.bind stored Coroutine.cwd) found
    · obtain ⟨how, ended, _⟩ := phase
      rw [running] at ended
      cases ended

end Steps

theorem followed_init (world : World) (dir : KernelDir) (hostPid : CInt) :
    Followed (Execs.init world dir hostPid) where
  runs := nofun
  live := runsLive_new
  tracked := nofun

/--
In every run in which each `execve` falls back to a real child, and the caller
has the parent and the directory which the child gets, each program stands
for its caller in every state.
-/
theorem execve_keeps_identity
    (world : World) (dir : KernelDir) (hostPid : CInt) (ops : List ExecOp)
    (fallsBack : Along Execs.step (fun state op _ => FallsBack state op)
      (Execs.init world dir hostPid) ops) :
    Along Execs.step (fun _ _ next => Identities next)
      (Execs.init world dir hostPid) ops := by
  refine
    @along_mono Execs ExecOp Execs.step
      (fun state op _ => FallsBack state op)
      (fun _ _ next => Identities next)
      (fun state => Followed state ∧ Positive state) ?_ ?_ ops _
      ⟨followed_init world dir hostPid, nofun⟩ fallsBack
  · intro state op next ⟨followed, positive⟩ stepped good
    exact
      ⟨followed_step op next followed positive stepped good,
        positive_step op next positive stepped⟩
  · intro state op next ⟨followed, positive⟩ stepped good pid call isCall
    obtain ⟨index, program, tracked⟩ :=
      (followed_step op next followed positive stepped good).tracked pid
        call isCall
    exact keepsIdentity_of_tracked tracked

/--
The process 1 of a host with the number 1 forks process 2, whose `execve`
falls back; the program ends with 7 while process 2 is not running.
-/
def secondFallsBack : List ExecOp :=
  [.driver .spawn, .driver .stepFromDriver, .directory 1 (.chdir "/a" 0),
    .driver (.spawnForkChild 1), .driver .doYield,
    .driver .stepFromDriver, .execve (.fails 100), .again,
    .driver .stepFromDriver, .ends 100 (.exited 7), .driver .doYield,
    .driver .stepFromDriver, .again]

theorem execve_keeps_identity_hostOne :
    (run Execs.step
        (Execs.init (World.init Kernel.standard) KernelDir.root 1)
        secondFallsBack).map
      (fun final => final.executor.getExitCode 2) = some (some 7) ∧
      Along Execs.step (fun _ _ next => Identities next)
        (Execs.init (World.init Kernel.standard) KernelDir.root 1)
        secondFallsBack :=
  ⟨by decide,
    execve_keeps_identity (World.init Kernel.standard) KernelDir.root 1
      secondFallsBack (by decide)⟩

/-! ## Calls whose programs are coroutines -/

theorem spawns_of_start (driver : Driver) (start : VirtualStart) :
    spawns driver start.op = true := by
  cases start <;> rfl

/-- The caller is seen to exit with 0 while the program has not run yet. -/
theorem not_identities_of_succeeds
    {state next : Execs} {start : VirtualStart} {turn : Turn}
    (runs : TurnRuns state.machine.driver)
    (running : state.machine.driver.turn = some turn)
    (other : turn.pid ≠ state.executor.nextPid)
    (called : state.execve turn.pid (.succeeds start) = some next) :
    ¬ Identities next := by
  intro identities
  obtain ⟨spawned, isSpawned, exits⟩ := Option.bind_eq_some_iff.mp called
  obtain ⟨left, isLeft, rfl⟩ := Option.map_eq_some_iff.mp exits
  have spawning := change_of_machineStep isSpawned
  have exiting := change_of_machineStep isLeft
  have isSpawn := spawns_of_start state.machine.driver start
  have sameTurn : spawned.driver.turn = some turn :=
    (turn_of_spawns spawning isSpawn).trans running
  have spawnedRuns := turnRuns_change spawning runs
  have lives : Lives left.driver.executor state.executor.nextPid := by
    refine
      lives_change exiting spawnedRuns ?_
        (lives_of_spawns spawning isSpawn)
    intro exited isTurn own
    cases sameTurn.symm.trans isTurn
    exact (other own).elim
  have stored : left.driver.executor.exitCodes.lookup turn.pid = some 0 := by
    rw [exitCodes_change exiting spawnedRuns nofun, sameTurn]
    exact if_pos rfl
  have observed : Observed left.driver.executor turn.pid 0 := by
    refine .getExitCode ?_
    simp only [Executor.getExitCode, stored]
  have ended :=
    (identities turn.pid _ (Function.update_self _ _ _)).exitCode 0 observed
  obtain ⟨co, found, alive⟩ := lives
  have running :
      Execs.exitOf
          { state.withMachine left with
            waiting := state.waitingAfter start.op
            calls :=
              Function.update (state.callsAfter start.op) turn.pid
                (some
                  (state.callOf turn.pid
                    (.coroutine state.executor.nextPid))) }
          (.coroutine state.executor.nextPid) = none := by
    have same :
        (state.withMachine left).executor.vprocs.lookup
          state.executor.nextPid = some co := found
    simp only [Execs.exitOf, Execs.executor, Execs.machine,
      Execs.withMachine] at same ⊢
    simp only [same, alive, Bool.false_eq_true, if_false]
  cases running.symm.trans ended

/--
A process whose `virtual_execve` succeeds exits with 0 at once: its code is
there before the program has ended.
-/
theorem virtual_execve_exits_early :
    ¬ ∀ (world : World) (dir : KernelDir) (hostPid : CInt)
        (ops : List ExecOp),
      Along Execs.step (fun _ _ next => Identities next)
        (Execs.init world dir hostPid) ops := by
  intro always
  have completes :
      (run Execs.step
          (Execs.init (World.init Kernel.standard) KernelDir.root 1)
          [.driver .spawn, .driver .stepFromDriver]).any
        (fun start =>
          decide
            (start.machine.driver.turn = some { pid := 1, restore := none } ∧
              start.executor.current = some 1 ∧
              start.executor.nextPid = 2 ∧
              (start.step (.execve (.succeeds .viaEntry))).isSome =
                true)) =
        true := by
    decide
  obtain ⟨start, reached, holds⟩ := Option.any_eq_true _ _ |>.mp completes
  obtain ⟨running, current, second, steps⟩ := of_decide_eq_true holds
  obtain ⟨next, stepped⟩ := Option.isSome_iff_exists.mp steps
  have runs : TurnRuns start.machine.driver := by
    intro turn isTurn
    cases running.symm.trans isTurn
    exact current
  have along :=
    always (World.init Kernel.standard) KernelDir.root 1
      ([.driver .spawn, .driver .stepFromDriver] ++
        [.execve (.succeeds .viaEntry)])
  have identities := (along_append along reached next stepped).1
  cases moved_of_step stepped with
  | succeeds isTurn called =>
      cases running.symm.trans isTurn
      refine not_identities_of_succeeds runs running ?_ called identities
      rw [second]
      decide

end Vproc.Sched.ExecIdentity
