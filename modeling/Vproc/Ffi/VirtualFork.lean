import Vproc.Sched.WorkingDir

/-!
# Virtual fork

`vproc_ffi_fork` works in three coroutines.  The caller stores its return
address in the executor, puts a helper at the front of the queue and yields;
the helper calls `spawn_fork_child` and exits; the caller and the child, whose
stack is a copy of the caller's, both go on behind the yield.  There each of
them takes the stored address, and looks at its mark to see which one it is.

The executor has one place for the return address.  A second caller stores its
own there, and a child takes what is there; either may happen while the first
caller is still waiting.

`places`, `used`, `calls` and `returned` have no counterpart in the source.
They say where in the call a coroutine stands, which process numbers were
given out, and which calls there were and what they returned.  The helper is
the only caller of `spawn_fork_child`.
-/

namespace Vproc.Ffi.VirtualFork

open Vproc.Lib.Run
open Vproc.Lib.FiniteMap
open Vproc.Fd.Table
open Vproc.Fd.KernelTable
open Vproc.Fd.Runtime
open Vproc.Sched.Scheduler
open Vproc.Sched.DriverLoop
open Vproc.Sched.DriverSteps
open Vproc.Sched.WorkingDir

/-! ## Calls -/

/--
A call which got to its second phase, with the descriptor table of the caller
and the numbers given out until then.
-/
structure ForkCall where
  id : Nat
  caller : VPid
  lr : UInt64
  table : Option VfdTable
  used : List VPid

/-- Where a coroutine stands. -/
inductive Place where
  | elsewhere
  | helper (call : ForkCall)
  | inFork (call : ForkCall)
  | copied (call : ForkCall)

namespace Place

/-- The call which a coroutine is concerned with. -/
def call? : Place → Option ForkCall
  | .elsewhere => none
  | .helper call => some call
  | .inFork call => some call
  | .copied call => some call

/-- The call which a coroutine goes on with when it is resumed. -/
def resumed? : Place → Option ForkCall
  | .elsewhere => none
  | .helper _ => none
  | .inFork call => some call
  | .copied call => some call

/-- The call whose caller this is. -/
def stored? : Place → Option ForkCall
  | .inFork call => some call
  | _ => none

/-- `mco_fork_from`: the copy stands where the original does. -/
def copy : Place → Place
  | .inFork call => .copied call
  | place => place

end Place

/-- A coroutine returns from a call. -/
structure Returned where
  call : ForkCall
  pid : VPid
  value : VPid

/-- A session whose coroutines fork. -/
structure Forking where
  dirs : Directories
  savedForkLr : Option UInt64
  places : VPid → Place
  used : List VPid
  calls : List ForkCall
  returned : List Returned

/-- A step of a coroutine in a fork, or any other one. -/
inductive ForkOp where
  | other (op : DirOp)
  | vprocFfiFork (lr : UInt64)
  | forkHelper
  | forkReturns
deriving DecidableEq

namespace Forking

/-- A session in which nobody has forked. -/
def init (world : World) (dir : KernelDir) : Forking where
  dirs := Directories.init world dir
  savedForkLr := none
  places := fun _ => .elsewhere
  used := []
  calls := []
  returned := []

def machine (state : Forking) : Machine :=
  state.dirs.machine

def driver (state : Forking) : Driver :=
  state.machine.driver

def nextPid (state : Forking) : VPid :=
  state.driver.executor.nextPid

/-- The process whose turn it is. -/
def running (state : Forking) : Option VPid :=
  state.driver.turn.map Turn.pid

def setMachine (state : Forking) (machine : Machine) : Forking :=
  { state with dirs := { state.dirs with machine := machine } }

/-- The running coroutine, if there is one, is not in a fork. -/
def free (state : Forking) : Bool :=
  match state.running with
  | none => true
  | some pid => (state.places pid).call?.isNone

/-- The step forks without `vproc_ffi_fork`. -/
def isFork : DirOp → Bool
  | .driver (.spawnForkChild _) => true
  | _ => false

/-- The step takes a process number. -/
def takes (state : Forking) : DirOp → Bool
  | .driver op => spawns state.driver op
  | .call _ _ => false

/-- What else happens in the session. -/
def otherStep (state : Forking) (op : DirOp) : Option Forking :=
  if isFork op || !state.free then none
  else
    (state.dirs.step op).map fun next =>
      if state.takes op then
        { state with
          dirs := next
          places :=
            Function.update state.places state.nextPid .elsewhere
          used := state.used ++ [state.nextPid] }
      else { state with dirs := next }

/-- `is_fork_child = false`. -/
def clearMark (machine : Machine) (pid : VPid) : Machine :=
  { machine with
    driver :=
      machine.driver.withExecutor
        (machine.driver.executor.update pid fun co =>
          { co with isForkChild := false }) }

/-- The call which a process makes now. -/
def callOf (state : Forking) (pid : VPid) (lr : UInt64) : ForkCall where
  id := state.calls.length
  caller := pid
  lr := lr
  table := state.machine.world.getTable pid
  used := state.used

/-- The second phase: store the address, spawn the helper and yield. -/
def phaseTwo (state : Forking) (pid : VPid) (lr : UInt64) :
    Option Forking :=
  let call := state.callOf pid lr
  (state.machine.step .spawnFront).bind fun spawned =>
    (spawned.step .doYield).map fun next =>
      { state.setMachine next with
        savedForkLr := some lr
        places :=
          Function.update
            (Function.update state.places state.nextPid (.helper call))
            pid (.inFork call)
        used := state.used ++ [state.nextPid]
        calls := state.calls ++ [call] }

/--
`vproc_ffi_fork` until it yields.  A marked coroutine returns 0 in the first
phase.
-/
def vprocFfiFork (state : Forking) (lr : UInt64) : Option Forking :=
  state.running.bind fun pid =>
    if (state.places pid).call?.isNone then
      (state.driver.executor.vprocs.lookup pid).bind fun co =>
        if co.isForkChild then
          some (state.setMachine (clearMark state.machine pid))
        else state.phaseTwo pid lr
    else none

/--
The closure of the helper.  If the caller is gone, `spawn_fork_child` panics,
and the trampoline exits for the helper.
-/
def forkHelper (state : Forking) : Option Forking :=
  state.running.bind fun pid =>
    match state.places pid with
    | .helper call =>
        (state.machine.step (.spawnForkChild call.caller)).bind
          fun forked =>
            if call.caller ∈ state.driver.executor.vprocs then
              (forked.step (.exit .returned)).map fun next =>
                { state.setMachine next with
                  places :=
                    Function.update
                      (Function.update state.places state.nextPid
                        (state.places call.caller).copy)
                      pid .elsewhere
                  used := state.used ++ [state.nextPid] }
            else
              some
                { state.setMachine forked with
                  places :=
                    Function.update state.places pid .elsewhere }
    | _ => none

/-- The rest of `vproc_ffi_fork`, in the caller and in the child. -/
def forkReturns (state : Forking) : Option Forking :=
  state.running.bind fun pid =>
    (state.places pid).resumed?.bind fun call =>
      (state.driver.executor.vprocs.lookup pid).map fun co =>
        let left :=
          if co.isForkChild then
            state.setMachine (clearMark state.machine pid)
          else state
        { left with
          savedForkLr := none
          places := Function.update state.places pid .elsewhere
          returned :=
            state.returned ++
              [{ call := call
                 pid := pid
                 value := if co.isForkChild then 0 else co.forkChildPid }] }

/-- One step of a session whose coroutines fork. -/
def step (state : Forking) : ForkOp → Option Forking
  | .other op => state.otherStep op
  | .vprocFfiFork lr => state.vprocFfiFork lr
  | .forkHelper => state.forkHelper
  | .forkReturns => state.forkReturns

end Forking

/-! ## The return address -/

/-- The caller has stored its address and not taken it back. -/
def awaits (state : Forking) (call : ForkCall) : Bool :=
  match state.places call.caller with
  | .inFork other => other.id == call.id
  | _ => false

/-- No caller is between storing its address and taking it. -/
def Quiet (state : Forking) : Prop :=
  ∀ call ∈ state.calls, awaits state call = false

instance (state : Forking) : Decidable (Quiet state) :=
  inferInstanceAs (Decidable (∀ call ∈ state.calls, _))

/-- The running coroutine is not marked as a fork child. -/
def storesLr (state : Forking) : Bool :=
  match state.running.bind state.driver.executor.vprocs.lookup with
  | some co => !co.isForkChild
  | none => false

/-- The running coroutine is the copy which a fork has made. -/
def runsCopy (state : Forking) : Bool :=
  match state.running.map state.places with
  | some (.copied _) => true
  | _ => false

/-- An address is stored, or taken by a child, while no caller waits. -/
def Alone (state : Forking) : ForkOp → Prop
  | .vprocFfiFork _ => storesLr state = true → Quiet state
  | .forkReturns => runsCopy state = true → Quiet state
  | _ => True

instance (state : Forking) (op : ForkOp) : Decidable (Alone state op) :=
  match op with
  | .other _ => inferInstanceAs (Decidable True)
  | .vprocFfiFork _ => inferInstanceAs (Decidable (_ → _))
  | .forkHelper => inferInstanceAs (Decidable True)
  | .forkReturns => inferInstanceAs (Decidable (_ → _))

/-- What a caller takes is what it has stored. -/
def TakesOwn (state : Forking) : ForkOp → Prop
  | .forkReturns =>
      ∀ pid ∈ state.running, ∀ call ∈ (state.places pid).stored?,
        state.savedForkLr = some call.lr
  | _ => True

instance (state : Forking) (op : ForkOp) :
    Decidable (TakesOwn state op) :=
  match op with
  | .other _ => inferInstanceAs (Decidable True)
  | .vprocFfiFork _ => inferInstanceAs (Decidable True)
  | .forkHelper => inferInstanceAs (Decidable True)
  | .forkReturns =>
      inferInstanceAs
        (Decidable
          (∀ pid ∈ state.running, ∀ call ∈ (state.places pid).stored?, _))

/-! ## The steps -/

section Steps

variable {state next : Forking}

/-- What else happens moves nobody into or out of a call. -/
theorem otherStep_cases
    {op : DirOp} (stepped : state.otherStep op = some next) :
    Forking.isFork op = false ∧ state.free = true ∧
      ∃ dirs, state.dirs.step op = some dirs ∧
        (state.takes op = true ∧
            next =
              { state with
                dirs := dirs
                places :=
                  Function.update state.places state.nextPid .elsewhere
                used := state.used ++ [state.nextPid] } ∨
          state.takes op = false ∧ next = { state with dirs := dirs }) := by
  unfold Forking.otherStep at stepped
  split at stepped
  · cases stepped
  · rename_i allowed
    rw [Bool.not_eq_true, Bool.or_eq_false_iff, Bool.not_eq_false']
      at allowed
    obtain ⟨dirs, isDirs, rfl⟩ := Option.map_eq_some_iff.mp stepped
    refine ⟨allowed.1, allowed.2, dirs, isDirs, ?_⟩
    split
    · rename_i takes
      exact Or.inl ⟨takes, rfl⟩
    · rename_i takes
      exact Or.inr ⟨Bool.eq_false_of_not_eq_true takes, rfl⟩

/-- A call returns at once, or the caller waits for its child. -/
theorem vprocFfiFork_cases
    {lr : UInt64} (stepped : state.vprocFfiFork lr = some next) :
    ∃ pid co, state.running = some pid ∧
      (state.places pid).call? = none ∧
      state.driver.executor.vprocs.lookup pid = some co ∧
      (co.isForkChild = true ∧
          next = state.setMachine (Forking.clearMark state.machine pid) ∨
        co.isForkChild = false ∧
          ∃ spawned after,
            state.machine.step .spawnFront = some spawned ∧
              spawned.step .doYield = some after ∧
              next =
                { state.setMachine after with
                  savedForkLr := some lr
                  places :=
                    Function.update
                      (Function.update state.places state.nextPid
                        (.helper (state.callOf pid lr)))
                      pid (.inFork (state.callOf pid lr))
                  used := state.used ++ [state.nextPid]
                  calls := state.calls ++ [state.callOf pid lr] }) := by
  obtain ⟨pid, isRunning, called⟩ := Option.bind_eq_some_iff.mp stepped
  split at called
  · rename_i isFree
    obtain ⟨co, found, goesOn⟩ := Option.bind_eq_some_iff.mp called
    refine
      ⟨pid, co, isRunning, Option.isNone_iff_eq_none.mp isFree, found, ?_⟩
    split at goesOn
    · rename_i marked
      cases goesOn
      exact Or.inl ⟨marked, rfl⟩
    · rename_i unmarked
      unfold Forking.phaseTwo at goesOn
      obtain ⟨spawned, isSpawned, yields⟩ :=
        Option.bind_eq_some_iff.mp goesOn
      obtain ⟨after, isAfter, rfl⟩ := Option.map_eq_some_iff.mp yields
      exact
        Or.inr
          ⟨Bool.eq_false_of_not_eq_true unmarked, spawned, after,
            isSpawned, isAfter, rfl⟩
  · cases called

/-- The helper adds the child and exits, or the caller was gone. -/
theorem forkHelper_cases
    (stepped : state.forkHelper = some next) :
    ∃ pid call forked, state.running = some pid ∧
      state.places pid = .helper call ∧
      state.machine.step (.spawnForkChild call.caller) = some forked ∧
      (call.caller ∈ state.driver.executor.vprocs ∧
          (∃ after, forked.step (.exit .returned) = some after ∧
            next =
              { state.setMachine after with
                places :=
                  Function.update
                    (Function.update state.places state.nextPid
                      (state.places call.caller).copy)
                    pid .elsewhere
                used := state.used ++ [state.nextPid] }) ∨
        call.caller ∉ state.driver.executor.vprocs ∧
          next =
            { state.setMachine forked with
              places := Function.update state.places pid .elsewhere }) := by
  obtain ⟨pid, isRunning, helps⟩ := Option.bind_eq_some_iff.mp stepped
  split at helps
  · rename_i call isHelper
    obtain ⟨forked, isForked, goesOn⟩ := Option.bind_eq_some_iff.mp helps
    refine ⟨pid, call, forked, isRunning, isHelper, isForked, ?_⟩
    split at goesOn
    · rename_i present
      obtain ⟨after, isAfter, rfl⟩ := Option.map_eq_some_iff.mp goesOn
      exact Or.inl ⟨present, after, isAfter, rfl⟩
    · rename_i missing
      cases goesOn
      exact Or.inr ⟨missing, rfl⟩
  · cases helps

/-- A coroutine takes the address and returns. -/
theorem forkReturns_cases
    (stepped : state.forkReturns = some next) :
    ∃ pid call co, state.running = some pid ∧
      (state.places pid).resumed? = some call ∧
      state.driver.executor.vprocs.lookup pid = some co ∧
      next.savedForkLr = none ∧
      next.places = Function.update state.places pid .elsewhere ∧
      next.used = state.used ∧ next.calls = state.calls ∧
      next.returned =
        state.returned ++
          [{ call := call
             pid := pid
             value := if co.isForkChild then 0 else co.forkChildPid }] ∧
      next.dirs =
        (if co.isForkChild then
          state.setMachine (Forking.clearMark state.machine pid)
        else state).dirs := by
  obtain ⟨pid, isRunning, goesOn⟩ := Option.bind_eq_some_iff.mp stepped
  obtain ⟨call, isCall, returns⟩ := Option.bind_eq_some_iff.mp goesOn
  obtain ⟨co, found, rfl⟩ := Option.map_eq_some_iff.mp returns
  refine ⟨pid, call, co, isRunning, isCall, found, rfl, rfl, ?_, ?_, rfl, rfl⟩
  · dsimp only
    split <;> rfl
  · dsimp only
    split <;> rfl

end Steps

/-! ## Runs -/

/-- The address in the executor belongs to the one caller which waits. -/
structure Owned (state : Forking) : Prop where
  one : ∀ first second call other,
    state.places first = .inFork call →
      state.places second = .inFork other → first = second
  caller : ∀ pid call, state.places pid = .inFork call →
    call ∈ state.calls ∧ call.caller = pid
  own : ∀ pid call, state.places pid = .inFork call →
    state.savedForkLr = some call.lr

section Runs

variable {state next : Forking} {op : ForkOp}

theorem not_inFork_of_quiet
    (owned : Owned state) (quiet : Quiet state)
    {pid : VPid} {call : ForkCall} :
    state.places pid ≠ .inFork call := by
  intro isIn
  obtain ⟨made, rfl⟩ := owned.caller pid call isIn
  have waits := quiet call made
  simp [awaits, isIn] at waits

/-- A coroutine which a step puts elsewhere is not one of the waiting ones. -/
theorem owned_of_places
    (owned : Owned state)
    (places : ∀ pid call, next.places pid = .inFork call →
      state.places pid = .inFork call)
    (sameCalls : next.calls = state.calls)
    (sameLr : next.savedForkLr = state.savedForkLr) :
    Owned next where
  one first second call other isFirst isSecond :=
    owned.one first second call other (places first call isFirst)
      (places second other isSecond)
  caller pid call isIn := by
    rw [sameCalls]
    exact owned.caller pid call (places pid call isIn)
  own pid call isIn := by
    rw [sameLr]
    exact owned.own pid call (places pid call isIn)

theorem copy_ne_inFork (place : Place) (call : ForkCall) :
    place.copy ≠ .inFork call := by
  cases place <;> nofun

/-- An address which is stored while nobody waits is the only one. -/
theorem owned_store
    (owned : Owned state) (quiet : Quiet state) {lr : UInt64} {pid : VPid}
    (lrs : next.savedForkLr = some lr)
    (places : next.places =
      Function.update
        (Function.update state.places state.nextPid
          (.helper (state.callOf pid lr)))
        pid (.inFork (state.callOf pid lr)))
    (calls : next.calls = state.calls ++ [state.callOf pid lr]) :
    Owned next := by
  have only (other : VPid) (call : ForkCall)
      (isIn : next.places other = .inFork call) :
      other = pid ∧ call = state.callOf pid lr := by
    rw [places, Function.update_apply] at isIn
    split at isIn
    · rename_i same
      cases isIn
      exact ⟨same, rfl⟩
    · rw [Function.update_apply] at isIn
      split at isIn
      · cases isIn
      · exact (not_inFork_of_quiet owned quiet isIn).elim
  refine ⟨?_, ?_, ?_⟩
  · intro first second call other isFirst isSecond
    exact (only first call isFirst).1.trans (only second other isSecond).1.symm
  · intro other call isIn
    obtain ⟨rfl, rfl⟩ := only other call isIn
    exact ⟨by rw [calls]; exact List.mem_append_right _ (.head _), rfl⟩
  · intro other call isIn
    obtain ⟨rfl, rfl⟩ := only other call isIn
    exact lrs

theorem owned_step
    (owned : Owned state) (stepped : state.step op = some next)
    (alone : Alone state op) :
    Owned next := by
  have elsewhere (pid other : VPid) (call : ForkCall)
      (isIn : Function.update state.places pid .elsewhere other =
        .inFork call) :
      other ≠ pid ∧ state.places other = .inFork call := by
    rw [Function.update_apply] at isIn
    split at isIn
    · cases isIn
    · rename_i different
      exact ⟨different, isIn⟩
  cases op with
  | other op =>
      obtain ⟨_, _, dirs, _, taken | kept⟩ := otherStep_cases stepped
      · obtain ⟨_, rfl⟩ := taken
        exact
          owned_of_places owned (fun pid call isIn =>
            (elsewhere _ pid call isIn).2) rfl rfl
      · obtain ⟨_, rfl⟩ := kept
        exact owned_of_places owned (fun _ _ isIn => isIn) rfl rfl
  | vprocFfiFork lr =>
      obtain ⟨pid, co, isRunning, _, found, marked | unmarked⟩ :=
        vprocFfiFork_cases stepped
      · obtain ⟨_, rfl⟩ := marked
        exact owned_of_places owned (fun _ _ isIn => isIn) rfl rfl
      · obtain ⟨notMarked, _, _, _, _, rfl⟩ := unmarked
        have quiet : Quiet state := by
          refine alone ?_
          simp only [storesLr, isRunning, Option.bind_some, found,
            notMarked, Bool.not_false]
        exact owned_store owned quiet rfl rfl rfl
  | forkHelper =>
      obtain ⟨pid, call, _, _, _, _, forked | missing⟩ :=
        forkHelper_cases stepped
      · obtain ⟨_, _, _, rfl⟩ := forked
        refine owned_of_places owned ?_ rfl rfl
        intro other waiting isIn
        dsimp only at isIn
        rw [Function.update_apply] at isIn
        split at isIn
        · cases isIn
        · rw [Function.update_apply] at isIn
          split at isIn
          · exact (copy_ne_inFork _ _ isIn).elim
          · exact isIn
      · obtain ⟨_, rfl⟩ := missing
        exact
          owned_of_places owned (fun other waiting isIn =>
            (elsewhere pid other waiting isIn).2) rfl rfl
  | forkReturns =>
      obtain ⟨pid, call, co, isRunning, isCall, _, _, places, _⟩ :=
        forkReturns_cases stepped
      have nobody (other : VPid) (waiting : ForkCall) :
          next.places other ≠ .inFork waiting := by
        intro isIn
        rw [places] at isIn
        obtain ⟨different, before⟩ := elsewhere pid other waiting isIn
        cases isPlace : state.places pid with
        | inFork own =>
            exact different (owned.one other pid _ _ before isPlace)
        | copied own =>
            refine not_inFork_of_quiet owned (alone ?_) before
            simp only [runsCopy, isRunning, Option.map_some, isPlace]
        | elsewhere =>
            rw [isPlace] at isCall
            cases isCall
        | helper own =>
            rw [isPlace] at isCall
            cases isCall
      exact
        { one := fun first _ waiting _ isIn =>
            (nobody first waiting isIn).elim
          caller := fun pid waiting isIn => (nobody pid waiting isIn).elim
          own := fun pid waiting isIn => (nobody pid waiting isIn).elim }

theorem takesOwn_of_owned
    (owned : Owned state) (op : ForkOp) : TakesOwn state op := by
  cases op with
  | forkReturns =>
      intro pid _ call isStored
      refine owned.own pid call ?_
      cases isPlace : state.places pid with
      | inFork own =>
          rw [isPlace] at isStored
          cases isStored
          rfl
      | _ =>
          rw [isPlace] at isStored
          cases isStored
  | _ => exact True.intro

end Runs

/--
In every run in which addresses are stored, and taken by children, only while
no caller waits, each caller takes back the address it has stored.
-/
theorem fork_takes_own_lr
    (world : World) (dir : KernelDir) (ops : List ForkOp)
    (alone : Along Forking.step (fun state op _ => Alone state op)
      (Forking.init world dir) ops) :
    Along Forking.step (fun state op _ => TakesOwn state op)
      (Forking.init world dir) ops := by
  have fresh : Owned (Forking.init world dir) :=
    { one := nofun
      caller := nofun
      own := nofun }
  exact
    along_mono
      (fun _ _ _ owned stepped alone => owned_step owned stepped alone)
      (fun _ op _ owned _ _ => takesOwn_of_owned owned op)
      fresh alone

/-- The driver resumes the next coroutine. -/
def resume : ForkOp :=
  .other (.driver .stepFromDriver)

/-- The first of two coroutines calls fork, and its helper runs. -/
def firstForks : List ForkOp :=
  [.other (.driver .spawn), .other (.driver .spawn), resume,
    .vprocFfiFork 100, resume, .forkHelper]

/-- The other one waits until the first one and its child have returned. -/
theorem fork_takes_own_lr_in_turn :
    Along Forking.step (fun state op _ => TakesOwn state op)
      (Forking.init (World.init Kernel.standard) KernelDir.root)
      (firstForks ++
        [resume, .other (.driver .doYield), resume, .forkReturns,
          .other (.driver .doYield), resume, .forkReturns,
          .other (.driver .doYield), resume, .vprocFfiFork 200, resume,
          .forkHelper, resume, .other (.driver .doYield), resume,
          .other (.driver .doYield), resume, .forkReturns]) :=
  fork_takes_own_lr _ _ _ (by decide)

/-- The other one calls fork while the first one waits. -/
theorem fork_takes_other_lr :
    ¬ ∀ (world : World) (dir : KernelDir) (ops : List ForkOp),
      Along Forking.step (fun state op _ => TakesOwn state op)
        (Forking.init world dir) ops := by
  intro always
  have holds :=
    always (World.init Kernel.standard) KernelDir.root
      (firstForks ++
        [resume, .vprocFfiFork 200, resume, .forkHelper, resume,
          .forkReturns])
  revert holds
  decide

end Vproc.Ffi.VirtualFork
