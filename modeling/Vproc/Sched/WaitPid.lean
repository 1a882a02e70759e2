import Vproc.Sched.ExitDurability

/-!
# Waiting for a child

`waitpid` decides at its beginning whether the number is one of a virtual
process, by looking for it among the coroutines.  If it is, the call looks for
an exit code, and yields until there is one; if it is not, it polls the kernel
and yields.  So a call spreads over several turns of its caller, and the child
may exit and be reaped between any two of them.

A reaped child is no longer among the coroutines, though its exit code is
kept.  A call made before the reaping finds the code; one made after it goes
to the kernel, which knows nothing about the number.

`exited` and `replies` have no counterpart in the source: the code with which
each process has exited, and the calls which have returned.
-/

namespace Vproc.Sched.WaitPid

open Vproc.Lib.Run
open Vproc.Lib.FiniteMap
open Vproc.Fd.Table
open Vproc.Fd.KernelTable
open Vproc.Fd.Runtime
open Vproc.Sched.Scheduler
open Vproc.Sched.DriverLoop
open Vproc.Sched.DriverSteps
open Vproc.Sched.ExitDurability

/-! ## One call -/

/-- What the kernel answers to `wait4`. -/
inductive Wait4Answer where
  | notYet
  | child (pid status : CInt)
  | error (errno : CInt)
deriving DecidableEq, Repr

/-- The arguments of `waitpid`; `status` may be a null pointer. -/
structure WaitCall where
  pid : CInt
  wantsStatus : Bool
  options : CInt
deriving DecidableEq, Repr

/-- The return value, what is stored at `status`, and what `errno` is set to. -/
structure WaitReply where
  ret : CInt
  status : Option CInt
  errno : Option CInt
deriving DecidableEq, Repr

/-- `raw_wait4`: `syscall` returns -1 for an error, and `errno` is set to 1. -/
def rawWait4 (call : WaitCall) : Wait4Answer → WaitReply
  | .notYet => { ret := 0, status := none, errno := none }
  | .child pid status =>
      { ret := pid
        status := if call.wantsStatus then some status else none
        errno := none }
  | .error _ => { ret := -1, status := none, errno := some 1 }

/-- `options & WNOHANG != 0`. -/
def isNoHang (options : CInt) : Bool :=
  options % 2 == 1

/-- `(code & 0xff) << 8`. -/
def statusOf (code : CInt) : CInt :=
  code % 256 * 256

/-- A call in one of its loops. -/
structure Pending where
  call : WaitCall
  isVirtual : Bool
deriving DecidableEq, Repr

/-- One turn of the loops: a reply, or none if the caller yields. -/
def look (ex : Executor) (pending : Pending) (answer : Wait4Answer) :
    Option WaitReply :=
  let vpid := asU32 pending.call.pid
  if pending.isVirtual then
    match ex.getExitCode vpid with
    | some code =>
        some
          { ret := pending.call.pid
            status :=
              if pending.call.wantsStatus then some (statusOf code)
              else none
            errno := none }
    | none =>
        if vpid ∈ ex.vprocs then none
        else some { ret := -1, status := none, errno := none }
  else
    let reply := rawWait4 pending.call answer
    if 0 < reply.ret then some reply
    else if reply.ret < 0 then some { reply with ret := -1 }
    else none

/-! ## Calls in a session -/

/-- A call which has returned. -/
structure Returned where
  caller : VPid
  pending : Pending
  reply : WaitReply
deriving DecidableEq, Repr

/-- A session, with the calls its coroutines are in. -/
structure Waiting where
  machine : Machine
  pending : VPid → Option Pending
  exited : VPid → Option CInt
  replies : List Returned

/--
The running coroutine calls `waitpid`, or goes on with its call; anything else
is a step of the driver.
-/
inductive WaitOp where
  | driver (op : DriverOp)
  | waitpid (call : WaitCall) (answer : Wait4Answer)
  | again (answer : Wait4Answer)
deriving DecidableEq, Repr

namespace Waiting

/-- A session in which nothing has happened. -/
def init (world : World) : Waiting where
  machine := Machine.init world
  pending := fun _ => none
  exited := fun _ => none
  replies := []

/-- The running coroutine is inside of a call. -/
def blocked (state : Waiting) : Bool :=
  state.machine.driver.turn.any fun turn =>
    (state.pending turn.pid).isSome

/-- The calls after a step: a fork child is in the same call as its parent. -/
def pendingAfter (state : Waiting) (op : DriverOp) :
    VPid → Option Pending :=
  if spawns state.machine.driver op then
    Function.update state.pending state.machine.driver.executor.nextPid
      (match op with
      | .spawnForkChild parent => state.pending parent
      | _ => none)
  else state.pending

/-- The codes after a step. -/
def exitedAfter (state : Waiting) (op : DriverOp) : VPid → Option CInt :=
  let driver := state.machine.driver
  if spawns driver op then
    Function.update state.exited driver.executor.nextPid none
  else
    match driver.turn, exitCode? driver op with
    | some turn, some code =>
        Function.update state.exited turn.pid (some code)
    | _, _ => state.exited

/-- The call returns. -/
def returns (state : Waiting) (caller : VPid) (pending : Pending)
    (reply : WaitReply) : Waiting :=
  { state with
    pending := Function.update state.pending caller none
    replies := state.replies ++ [{ caller, pending, reply }] }

/-- One turn of the loop, and `do_yield` if it does not end. -/
def lookStep (state : Waiting) (caller : VPid) (pending : Pending)
    (answer : Wait4Answer) : Option Waiting :=
  match look state.machine.driver.executor pending answer with
  | some reply => some (state.returns caller pending reply)
  | none =>
      (state.machine.step .doYield).map fun next =>
        { state with
          machine := next
          pending := Function.update state.pending caller (some pending) }

/-- The test at the beginning of `waitpid`. -/
def isVirtual (state : Waiting) (call : WaitCall) : Bool :=
  decide (asU32 call.pid ∈ state.machine.driver.executor.vprocs)

/-- `waitpid`. -/
def waitpid (state : Waiting) (caller : VPid) (call : WaitCall)
    (answer : Wait4Answer) : Option Waiting :=
  let pending := { call := call, isVirtual := state.isVirtual call }
  if !pending.isVirtual && isNoHang call.options then
    some (state.returns caller pending (rawWait4 call answer))
  else state.lookStep caller pending answer

/-- One step of a session with its calls. -/
def step (state : Waiting) : WaitOp → Option Waiting
  | .driver op =>
      if state.blocked then none
      else
        (state.machine.step op).map fun next =>
          { state with
            machine := next
            pending := state.pendingAfter op
            exited := state.exitedAfter op }
  | .waitpid call answer =>
      if state.blocked then none
      else
        state.machine.driver.turn.bind fun turn =>
          state.waitpid turn.pid call answer
  | .again answer =>
      state.machine.driver.turn.bind fun turn =>
        (state.pending turn.pid).bind fun pending =>
          state.lookStep turn.pid pending answer

/-- The caller and its call, in a step in which a call looks. -/
def asking (state : Waiting) : WaitOp → Option (VPid × WaitCall)
  | .driver _ => none
  | .waitpid call _ =>
      state.machine.driver.turn.map fun turn => (turn.pid, call)
  | .again _ =>
      state.machine.driver.turn.bind fun turn =>
        (state.pending turn.pid).map fun pending =>
          (turn.pid, pending.call)

end Waiting

/-! ## What a call about a child gets -/

/--
A look returns the status of a child which has exited, and goes on waiting for
a virtual process if it has not.
-/
def Answered (exited : Option CInt) (caller : VPid) (call : WaitCall)
    (state next : Waiting) : Prop :=
  match exited with
  | some code =>
      next.replies =
        state.replies ++
          [{ caller := caller
             pending := { call := call, isVirtual := true }
             reply :=
              { ret := call.pid
                status := some (statusOf code)
                errno := none } }]
  | none =>
      next.pending caller = some { call := call, isVirtual := true } ∧
        next.replies = state.replies

instance (exited : Option CInt) (caller : VPid) (call : WaitCall)
    (state next : Waiting) :
    Decidable (Answered exited caller call state next) :=
  match exited with
  | some _ => inferInstanceAs (Decidable (_ = _))
  | none => inferInstanceAs (Decidable (_ ∧ _))

/-- A call for the status of the child which looks is answered rightly. -/
def GetsStatus (child : VPid) (state : Waiting) (op : WaitOp)
    (next : Waiting) : Prop :=
  ∀ asked ∈ state.asking op,
    asU32 asked.2.pid = child ∧ asked.2.wantsStatus = true ∧
        asked.2.options = 0 →
      Answered (state.exited child) asked.1 asked.2 state next

instance (child : VPid) (state : Waiting) (op : WaitOp) (next : Waiting) :
    Decidable (GetsStatus child state op next) :=
  inferInstanceAs (Decidable (∀ asked ∈ state.asking op, _ → _))

/-- The child ends by `vproc_exit_with_code`, and its code is not removed. -/
def EndsByExit (child : VPid) (state : Waiting) (op : WaitOp) : Prop :=
  op ≠ .driver (.removeExitCode child) ∧
    (op = .driver .entryReturned →
      state.machine.driver.turn.map Turn.pid ≠ some child)

instance (child : VPid) (state : Waiting) (op : WaitOp) :
    Decidable (EndsByExit child state op) :=
  inferInstanceAs (Decidable (_ ∧ (_ → _)))

/--
The call is made before the child is reaped, and its number is not given again
while its exit code is stored.
-/
def InTime (child : VPid) (state : Waiting) : WaitOp → Prop
  | .waitpid call _ =>
      asU32 call.pid = child →
        child ∈ state.machine.driver.executor.vprocs
  | .driver op =>
      spawns state.machine.driver op = true →
        state.machine.driver.executor.nextPid = child →
          child ∉ state.machine.driver.executor.exitCodes
  | .again _ => True

instance (child : VPid) (state : Waiting) (op : WaitOp) :
    Decidable (InTime child state op) :=
  match op with
  | .waitpid _ _ => inferInstanceAs (Decidable (_ → _))
  | .driver _ => inferInstanceAs (Decidable (_ → _ → _))
  | .again _ => inferInstanceAs (Decidable True)

/-- The child can still exit, or has exited. -/
def Answerable (state : Waiting) (child : VPid) : Prop :=
  Lives state.machine.driver.executor child ∨
    (state.exited child).isSome = true

/-- What holds of the child while calls about it are made in time. -/
structure Kept (state : Waiting) (child : VPid) : Prop where
  runs : TurnRuns state.machine.driver
  stored : state.machine.driver.executor.exitCodes.lookup child =
    state.exited child
  present : child ∈ state.machine.driver.executor.vprocs →
    Answerable state child
  waited : ∀ caller pending, state.pending caller = some pending →
    asU32 pending.call.pid = child →
      pending.isVirtual = true ∧ Answerable state child

section Steps

variable {state : Waiting} {child : VPid}

/-- The state after a step of the driver, with the calls as given. -/
def afterDriver (state : Waiting) (op : DriverOp) (next : Machine)
    (pending : VPid → Option Pending) : Waiting :=
  { state with
    machine := next
    pending := pending
    exited := state.exitedAfter op }

theorem exitedAfter_of_not_spawned
    {op : DriverOp}
    (notSpawned : spawns state.machine.driver op = true →
      child ≠ state.machine.driver.executor.nextPid) :
    state.exitedAfter op child =
      match state.machine.driver.turn,
        exitCode? state.machine.driver op with
      | some turn, some code =>
          if child = turn.pid then some code else state.exited child
      | _, _ => state.exited child := by
  unfold Waiting.exitedAfter
  split
  · rename_i isSpawn
    rw [Function.update_of_ne (notSpawned isSpawn),
      exitCode?_of_spawns isSpawn]
    cases state.machine.driver.turn <;> rfl
  · cases state.machine.driver.turn with
    | none => rfl
    | some turn =>
        cases exitCode? state.machine.driver op with
        | none => rfl
        | some code => exact Function.update_apply _ _ _ _

theorem answerable_step
    {op : DriverOp} {next : Machine}
    (stepped : state.machine.step op = some next)
    (runs : TurnRuns state.machine.driver)
    (goesOn : ∀ turn, state.machine.driver.turn = some turn →
      turn.pid = child → op ≠ .entryReturned)
    (pending : VPid → Option Pending)
    (answerable : Answerable state child) :
    Answerable (afterDriver state op next pending) child := by
  have change := change_of_machineStep stepped
  by_cases new : spawns state.machine.driver op = true ∧
      child = state.machine.driver.executor.nextPid
  · obtain ⟨isSpawn, rfl⟩ := new
    exact Or.inl (lives_of_spawns change isSpawn)
  have exited : (afterDriver state op next pending).exited child = _ :=
    exitedAfter_of_not_spawned fun isSpawn same => new ⟨isSpawn, same⟩
  by_cases exits : ∃ turn code,
      state.machine.driver.turn = some turn ∧ turn.pid = child ∧
        exitCode? state.machine.driver op = some code
  · obtain ⟨turn, code, running, rfl, isCode⟩ := exits
    right
    rw [exited, running, isCode]
    simp
  · rcases answerable with lives | known
    · refine Or.inl (lives_change change runs ?_ lives)
      intro turn running own
      refine ⟨?_, goesOn turn running own⟩
      cases isCode : exitCode? state.machine.driver op with
      | none => rfl
      | some code => exact (exits ⟨turn, code, running, own, isCode⟩).elim
    · right
      rw [exited]
      split
      · split
        · rfl
        · exact known
      · exact known

theorem stored_step
    {op : DriverOp} {next : Machine}
    (stepped : state.machine.step op = some next)
    (kept : Kept state child) (notRemoved : op ≠ .removeExitCode child)
    (number : spawns state.machine.driver op = true →
      state.machine.driver.executor.nextPid = child →
        child ∉ state.machine.driver.executor.exitCodes) :
    next.driver.executor.exitCodes.lookup child =
      state.exitedAfter op child := by
  have change := change_of_machineStep stepped
  rw [exitCodes_change change kept.runs notRemoved, kept.stored]
  by_cases new : spawns state.machine.driver op = true ∧
      child = state.machine.driver.executor.nextPid
  · obtain ⟨isSpawn, rfl⟩ := new
    have free : state.exited state.machine.driver.executor.nextPid =
        none := by
      rw [← kept.stored]
      exact AList.lookup_eq_none.mpr (number isSpawn rfl)
    rw [exitCode?_of_spawns isSpawn, Waiting.exitedAfter, if_pos isSpawn,
      Function.update_self, free]
    cases state.machine.driver.turn <;> rfl
  · exact
      (exitedAfter_of_not_spawned
        fun isSpawn same => new ⟨isSpawn, same⟩).symm

theorem kept_driver
    {op : DriverOp} {next : Machine}
    (stepped : state.machine.step op = some next)
    (kept : Kept state child) (ends : EndsByExit child state (.driver op))
    (inTime : InTime child state (.driver op))
    {pending : VPid → Option Pending}
    (waited : ∀ caller call, pending caller = some call →
      asU32 call.call.pid = child →
        call.isVirtual = true ∧ Answerable state child) :
    Kept (afterDriver state op next pending) child := by
  have change := change_of_machineStep stepped
  have goesOn (turn : Turn)
      (running : state.machine.driver.turn = some turn)
      (own : turn.pid = child) : op ≠ .entryReturned := by
    rintro rfl
    apply ends.2 rfl
    rw [running, Option.map_some, own]
  have still := answerable_step stepped kept.runs goesOn pending
  constructor
  case runs => exact turnRuns_change change kept.runs
  case stored =>
    refine stored_step stepped kept ?_ inTime
    rintro rfl
    exact ends.1 rfl
  case present =>
    intro member
    by_cases before : child ∈ state.machine.driver.executor.vprocs
    · exact still (kept.present before)
    · by_cases new : spawns state.machine.driver op = true ∧
          child = state.machine.driver.executor.nextPid
      · obtain ⟨isSpawn, rfl⟩ := new
        exact Or.inl (lives_of_spawns change isSpawn)
      · have absent :=
          absent_change change (fun isSpawn same => new ⟨isSpawn, same⟩)
            (AList.lookup_eq_none.mpr before)
        exact (AList.lookup_eq_none.mp absent member).elim
  case waited =>
    intro caller call isPending about
    obtain ⟨isVirtual, answerable⟩ := waited caller call isPending about
    exact ⟨isVirtual, still answerable⟩

/-- The calls after a step were there before. -/
theorem pendingAfter_cases
    {op : DriverOp} {caller : VPid} {pending : Pending}
    (found : state.pendingAfter op caller = some pending) :
    ∃ origin, state.pending origin = some pending := by
  unfold Waiting.pendingAfter at found
  split at found
  · rw [Function.update_apply] at found
    split at found
    · split at found
      · exact ⟨_, found⟩
      · cases found
    · exact ⟨caller, found⟩
  · exact ⟨caller, found⟩

/-- A look of a call about a child which is there or has exited. -/
theorem look_virtual
    (kept : Kept state child) (answerable : Answerable state child)
    {call : WaitCall} (about : asU32 call.pid = child)
    (answer : Wait4Answer) :
    look state.machine.driver.executor
        { call := call, isVirtual := true } answer =
      (state.exited child).map fun code =>
        { ret := call.pid
          status :=
            if call.wantsStatus then some (statusOf code) else none
          errno := none } := by
  subst about
  cases exited : state.exited (asU32 call.pid) with
  | some code =>
      have stored := kept.stored.trans exited
      simp [look, Executor.getExitCode, stored]
  | none =>
      have notStored := kept.stored.trans exited
      rcases answerable with ⟨co, found, alive⟩ | known
      · have present : asU32 call.pid ∈
            state.machine.driver.executor.vprocs :=
          mem_iff_lookup.mpr ⟨co, found⟩
        simp [look, Executor.getExitCode, notStored, found, alive,
          present]
      · rw [exited] at known
        cases known

theorem kept_returns
    (kept : Kept state child) (caller : VPid) (pending : Pending)
    (reply : WaitReply) :
    Kept (state.returns caller pending reply) child := by
  refine ⟨kept.runs, kept.stored, kept.present, ?_⟩
  intro other waits isPending about
  change Function.update state.pending caller none other = some waits
    at isPending
  rw [Function.update_apply] at isPending
  split at isPending
  · cases isPending
  · exact kept.waited other waits isPending about

theorem kept_lookStep
    {next : Waiting} {caller : VPid} {pending : Pending}
    {answer : Wait4Answer}
    (stepped : state.lookStep caller pending answer = some next)
    (kept : Kept state child)
    (mine : asU32 pending.call.pid = child →
      pending.isVirtual = true ∧ Answerable state child) :
    Kept next child := by
  unfold Waiting.lookStep at stepped
  split at stepped
  · cases stepped
    exact kept_returns kept caller pending _
  · obtain ⟨yielded, isYielded, rfl⟩ := Option.map_eq_some_iff.mp stepped
    have same : state.exitedAfter .doYield = state.exited := by
      funext pid
      rw [@exitedAfter_of_not_spawned state pid .doYield nofun]
      cases state.machine.driver.turn <;> rfl
    have after :=
      @kept_driver state child .doYield yielded isYielded kept
        ⟨nofun, nofun⟩ nofun
        (Function.update state.pending caller (some pending))
        (by
          intro other waits isPending about
          rw [Function.update_apply] at isPending
          split at isPending
          · cases isPending
            exact mine about
          · exact kept.waited other waits isPending about)
    rw [afterDriver, same] at after
    exact after

/-- What `asking` says about a step which is taken. -/
theorem lookStep_of_asking
    {op : WaitOp} {next : Waiting} {caller : VPid} {call : WaitCall}
    (kept : Kept state child) (inTime : InTime child state op)
    (stepped : state.step op = some next)
    (asks : state.asking op = some (caller, call))
    (about : asU32 call.pid = child) :
    Answerable state child ∧
      ∃ answer,
        state.lookStep caller { call := call, isVirtual := true } answer =
          some next := by
  cases op with
  | driver op => cases asks
  | waitpid asked answer =>
      obtain ⟨turn, running, same⟩ := Option.map_eq_some_iff.mp asks
      cases same
      have present := inTime about
      have isVirtual : state.isVirtual call = true := by
        simpa [Waiting.isVirtual, about] using present
      simp only [Waiting.step, running, Option.bind_some,
        Waiting.waitpid, isVirtual] at stepped
      split at stepped
      · cases stepped
      · exact ⟨kept.present present, answer, by simpa using stepped⟩
  | again answer =>
      obtain ⟨turn, running, found⟩ := Option.bind_eq_some_iff.mp asks
      obtain ⟨pending, isPending, same⟩ := Option.map_eq_some_iff.mp found
      cases same
      obtain ⟨isVirtual, answerable⟩ :=
        kept.waited turn.pid pending isPending about
      refine ⟨answerable, answer, ?_⟩
      simp only [Waiting.step, running, Option.bind_some, isPending]
        at stepped
      rw [← isVirtual]
      exact stepped

theorem kept_step
    (op : WaitOp) (next : Waiting) (kept : Kept state child)
    (stepped : state.step op = some next)
    (ends : EndsByExit child state op) (inTime : InTime child state op) :
    Kept next child := by
  cases op with
  | driver op =>
      simp only [Waiting.step] at stepped
      split at stepped
      · cases stepped
      · obtain ⟨machine, moved, rfl⟩ := Option.map_eq_some_iff.mp stepped
        refine kept_driver moved kept ends inTime ?_
        intro caller pending isPending about
        obtain ⟨origin, before⟩ := pendingAfter_cases isPending
        exact kept.waited origin pending before about
  | waitpid call answer =>
      simp only [Waiting.step] at stepped
      split at stepped
      · cases stepped
      · obtain ⟨turn, running, called⟩ :=
          Option.bind_eq_some_iff.mp stepped
        simp only [Waiting.waitpid] at called
        split at called
        · cases called
          exact kept_returns kept turn.pid _ _
        · refine kept_lookStep called kept ?_
          intro about
          have present := inTime about
          refine ⟨?_, kept.present present⟩
          simpa [Waiting.isVirtual, about] using present
  | again answer =>
      obtain ⟨turn, running, found⟩ := Option.bind_eq_some_iff.mp stepped
      obtain ⟨pending, isPending, looked⟩ :=
        Option.bind_eq_some_iff.mp found
      exact
        kept_lookStep looked kept
          (kept.waited turn.pid pending isPending)

theorem getsStatus_step
    (op : WaitOp) (next : Waiting) (kept : Kept state child)
    (stepped : state.step op = some next)
    (inTime : InTime child state op) :
    GetsStatus child state op next := by
  rintro ⟨caller, call⟩ asks ⟨about, wants, _⟩
  obtain ⟨answerable, answer, looked⟩ :=
    lookStep_of_asking kept inTime stepped asks about
  rw [Waiting.lookStep, look_virtual kept answerable about answer]
    at looked
  cases exited : state.exited child with
  | some code =>
      simp only [exited, Option.map_some] at looked
      cases looked
      dsimp only at wants
      simp only [Answered, Waiting.returns, wants, if_true]
  | none =>
      simp only [exited, Option.map_none] at looked
      obtain ⟨machine, _, rfl⟩ := Option.map_eq_some_iff.mp looked
      exact ⟨Function.update_self _ _ _, rfl⟩

end Steps

theorem kept_init (world : World) (child : VPid) :
    Kept (Waiting.init world) child where
  runs := by
    intro turn impossible
    cases impossible
  stored := rfl
  present := by
    intro impossible
    cases impossible
  waited := by
    intro caller pending impossible
    cases impossible

/--
In every run in which `waitpid` is called for a child before the child is
reaped, every call returns the child's status at its first look after the
exit, and asks the kernel in none of its looks.
-/
theorem waitpid_gets_status
    (world : World) (child : VPid) (ops : List WaitOp)
    (ends : Along Waiting.step
      (fun state op _ => EndsByExit child state op)
      (Waiting.init world) ops)
    (inTime : Along Waiting.step
      (fun state op _ => InTime child state op)
      (Waiting.init world) ops) :
    Along Waiting.step (GetsStatus child) (Waiting.init world) ops := by
  refine
    @along_mono Waiting WaitOp Waiting.step
      (fun state op _ =>
        EndsByExit child state op ∧ InTime child state op)
      (GetsStatus child) (fun state => Kept state child) ?_ ?_ ops _
      (kept_init world child) (along_and ends inTime)
  · intro state op next kept stepped good
    exact kept_step op next kept stepped good.1 good.2
  · intro state op next kept stepped good
    exact getsStatus_step op next kept stepped good.2

/-- Process 1 waits for process 2, which exits and is reaped in between. -/
def reapedWhileWaiting : List WaitOp :=
  [.driver .spawn, .driver .spawn, .driver .stepFromDriver,
    .waitpid { pid := 2, wantsStatus := true, options := 0 } .notYet,
    .driver .stepFromDriver, .driver (.exit (.exit 7)),
    .driver .reapDoneCoroutines, .driver .stepFromDriver,
    .again .notYet]

theorem waitpid_gets_status_reaped :
    (∃ final,
      run Waiting.step (Waiting.init (World.init Kernel.standard))
          reapedWhileWaiting = some final ∧
      2 ∉ final.machine.driver.executor.vprocs ∧
      (final.replies.map Returned.reply) =
        [{ ret := 2, status := some 1792, errno := none }]) ∧
      Along Waiting.step (GetsStatus 2)
        (Waiting.init (World.init Kernel.standard)) reapedWhileWaiting := by
  constructor
  · have completes :
        (run Waiting.step (Waiting.init (World.init Kernel.standard))
            reapedWhileWaiting).any
          (fun final =>
            decide
              (2 ∉ final.machine.driver.executor.vprocs ∧
                (final.replies.map Returned.reply) =
                  [{ ret := 2, status := some 1792, errno := none }])) =
        true := by
      decide
    obtain ⟨final, reached, holds⟩ :=
      Option.any_eq_true _ _ |>.mp completes
    exact ⟨final, reached, of_decide_eq_true holds⟩
  · apply waitpid_gets_status
    · decide
    · decide

/--
Process 1 calls `waitpid` for process 2 after process 2 has exited with 7 and
has been reaped: the kernel is asked, and the call returns -1.
-/
theorem waitpid_loses_reaped_child :
    ¬ ∀ (world : World) (child : VPid) (ops : List WaitOp),
      Along Waiting.step (fun state op _ => EndsByExit child state op)
        (Waiting.init world) ops →
      Along Waiting.step (GetsStatus child) (Waiting.init world) ops := by
  intro always
  have gets :=
    always (World.init Kernel.standard) 2
      [.driver .spawn, .driver .spawn, .driver .stepFromDriver,
        .driver .doYield, .driver .stepFromDriver,
        .driver (.exit (.exit 7)), .driver .reapDoneCoroutines,
        .driver .stepFromDriver,
        .waitpid { pid := 2, wantsStatus := true, options := 0 }
          (.error 10)]
      (by decide)
  revert gets
  decide

end Vproc.Sched.WaitPid
