import Vproc.Sched.ContextSwitch

/-!
# The turns of coroutines

What the switches of a thread come to, whatever runs between them.  Whoever
resumes a coroutine gets its registers back when the turn of the coroutine has
ended.  A coroutine which yields gets its own back when it is resumed, and a
forked one those of its parent, with what pointed into the stack moved.

A coroutine which has never run is entered at the address in its `x30`, and
that is null: `_mco_makectx` puts the entry point into `lr`, which
`_mco_switch` does not use.
-/

namespace Vproc.Sched.CoroutineTurns

open Vproc.Lib.Run
open Vproc.Lib.Simulation
open Vproc.Lib.Coroutines (Machine Place WellFormed)
open Vproc.Exec.Elf
open Vproc.Sched.ForkContext
open Vproc.Sched.CoroutineBlocks
open Vproc.Sched.ContextSwitch

variable {xpaci : Usize → Usize} {symbols : Symbols}

/-- The machine of a thread without coroutines. -/
def idle (cpu : Registers) : Machine Usize Registers where
  now := cpu
  place := fun _ => none
  chain := []

theorem represents_init (cpu : Registers) (bytes : Bytes) :
    Represents (Thread.init cpu bytes) (idle cpu) where
  now := rfl
  place := fun _ => rfl
  linked := .nil
  null := rfl
  running_iff := by
    rintro co coro ⟨⟩
  unlinked := by
    rintro co coro ⟨⟩
  wellFormed := by
    constructor
    · intro co
      exact iff_of_false (by simp [idle]) List.not_mem_nil
    · exact List.nodup_nil

/-! ### A thread to try this with -/

/-- Registers which all hold the same. -/
def registersAt (value : Usize) : Registers where
  x := fun _ => value
  sp := value
  d := fun _ => value
  pc := value

def someSymbols : Symbols where
  mcoMain := 0x400000
  mcoWrapMain := 0x400100
  mcoElfEntry := 0x400200
  mcoElfDummyFunc := 0x400300

def someRun (ops : List Op) : Option Thread :=
  run (step id someSymbols) (Thread.init (registersAt 5) fun _ => 0) ops

/-- Where a run ends which is possible. -/
def someThread (ops : List Op) : Thread :=
  (someRun ops).getD (Thread.init (registersAt 5) fun _ => 0)

theorem someRun_eq {ops : List Op} (possible : (someRun ops).isSome = true) :
    someRun ops = some (someThread ops) := by
  obtain ⟨final, reached⟩ := Option.isSome_iff_exists.mp possible
  rw [someThread, reached]
  rfl

theorem run_someThread
    {ops more : List Op}
    (possible : (someRun (ops ++ more)).isSome = true) :
    run (step id someSymbols) (someThread ops) more =
      some (someThread (ops ++ more)) := by
  have whole := someRun_eq possible
  rw [someRun, run_append] at whole
  cases first : someRun ops with
  | none =>
      rw [someRun] at first
      rw [first] at whole
      cases whole
  | some middle =>
      have there : someThread ops = middle := by
        rw [someThread, first]
        rfl
      rw [someRun] at first
      rw [first] at whole
      rw [there]
      exact whole

theorem step_someThread
    {ops : List Op} {op : Op}
    (possible : (someRun (ops ++ [op])).isSome = true) :
    step id someSymbols (someThread ops) op =
      some (someThread (ops ++ [op])) := by
  obtain ⟨next, stepped, same⟩ := run_cons_iff.mp (run_someThread possible)
  cases same
  exact stepped

/-- Two coroutines are made, and the first one is resumed. -/
def resumed : List Op :=
  [.create 0x400400 0 0 0x10000, .createElf 0x400500 0 0 0 0x800000,
    .resume 0x10000]

/-- The first one resumes the other, which yields. -/
def yielding : List Op :=
  resumed ++
    [.execute (registersAt 0x10800), .resume 0x800000,
      .yield 0x800000 0x800800]

/-- The first one yields too. -/
def yielded : List Op :=
  yielding ++ [.yield 0x10000 0x10800]

/-! ## Refinement -/

/--
A thread is a machine of coroutines which resume each other: every run of its
calls is one of the machine, and the states of the coroutines, the running one
and the links between them are those of the machine.
-/
theorem thread_refines_machine
    (cpu : Registers) (bytes : Bytes) (ops : List Op) (final : Thread)
    (reached :
      run (step xpaci symbols) (Thread.init cpu bytes) ops = some final) :
    ∃ machine,
      run (Lib.Coroutines.step (leave xpaci)) (idle cpu)
          (views (step xpaci symbols) (view xpaci symbols)
            (Thread.init cpu bytes) ops) =
        some machine ∧
      Represents final machine := by
  obtain ⟨machine, ran, represents, _⟩ :=
    @simulated_run _ _ _ _ (step xpaci symbols)
      (Lib.Coroutines.step (leave xpaci)) (view xpaci symbols) Represents
      (fun _ => True) (fun _ => True) represents_step
      (fun _ _ _ _ => True.intro) ops _ final _
      (represents_init cpu bytes) reached
      (along_of_forall (fun _ _ _ _ => True.intro) ops _)
  exact ⟨machine, ran, represents⟩

theorem thread_refines_machine_yielded :
    ∃ final machine, someRun yielded = some final ∧
      Represents final machine := by
  have reached := someRun_eq (by decide +kernel : (someRun yielded).isSome)
  obtain ⟨machine, _, represents⟩ :=
    thread_refines_machine (registersAt 5) (fun _ => 0) yielded
      (someThread yielded) reached
  exact ⟨_, machine, reached, represents⟩

/-! ## The assertions of the source -/

/-- Unless the address is null, a coroutine in this state is there. -/
def StateAt (thread : Thread) (co : Usize) (state : McoState) : Prop :=
  co ≠ 0 → ∃ coro, thread.coros co = some coro ∧ coro.state = state

/--
What `_mco_prepare_jumpin` asserts before a switch, and `_mco_prepare_jumpout`
in its comments.
-/
def Asserted (xpaci : Usize → Usize) (thread : Thread) : Op → Prop
  | .resume co =>
      ∀ coro next, thread.coros co = some coro →
        thread.mcoResume xpaci co coro = .ok next →
        coro.prevCo = 0 ∧ StateAt thread thread.mcoRunning .running
  | .yield co stackAddr =>
      ∀ coro next, thread.coros co = some coro →
        thread.mcoYield xpaci co stackAddr coro = .ok next →
        thread.mcoRunning = co ∧ StateAt thread coro.prevCo .normal
  | .ends co =>
      ∀ coro, thread.coros co = some coro → co = thread.mcoRunning →
        StateAt thread coro.prevCo .normal
  | _ => True

section Represents

variable {thread next : Thread} {machine : Machine Usize Registers}
  {co : Usize} {coro : Coro}

/-- The coroutine which runs is there. -/
theorem stateAt_running
    (represents : Represents thread machine) :
    StateAt thread thread.mcoRunning .running := by
  intro given
  rcases linked_iff.mp represents.linked with
    ⟨isNull, _⟩ | ⟨coro, _, found, _⟩
  · exact (given isNull).elim
  · exact
      ⟨coro, found,
        (represents.running_iff _ coro found).mpr rfl⟩

/-- The one which has resumed it waits for it. -/
theorem stateAt_normal
    (represents : Represents thread machine)
    (found : thread.coros co = some coro) (running : coro.state = .running) :
    StateAt thread coro.prevCo .normal := by
  have isCurrent := (represents.running_iff co coro found).mp running
  have apart := represents.ne_prevCo found running
  obtain ⟨rest, isChain, linked⟩ :=
    represents.chain_of_found (isCurrent ▸ found)
  intro given
  rcases linked_iff.mp linked with
    ⟨isNull, _⟩ | ⟨prev, _, isPrev, isRest, _⟩
  · exact (given isNull).elim
  · have member : coro.prevCo ∈ machine.chain.map Prod.fst := by
      rw [isChain, isRest]
      simp
    refine ⟨prev, isPrev, ?_⟩
    refine ((represents.mem_chain_iff isPrev).mp member).resolve_left ?_
    rw [represents.running_iff _ prev isPrev, ← isCurrent]
    exact apart.symm

theorem asserted_of_represents
    (represents : Represents thread machine) (op : Op) :
    Asserted xpaci thread op := by
  cases op with
  | resume co =>
      intro coro next found call
      have resumed := represents.resumed_of_call found call
      exact
        ⟨represents.unlinked co coro found (.inl resumed.suspended),
          stateAt_running represents⟩
  | yield co stackAddr =>
      intro coro next found call
      obtain ⟨running, -⟩ := represents.left_of_call found call
      exact
        ⟨((represents.running_iff co coro found).mp running).symm,
          stateAt_normal represents found running⟩
  | ends co =>
      intro coro found isCurrent
      exact
        stateAt_normal represents found
          ((represents.running_iff co coro found).mpr isCurrent)
  | execute cpu => exact True.intro
  | store address byte => exact True.intro
  | create func userData stackSize co => exact True.intro
  | createElf entry elfSp stackBase stackSize co => exact True.intro
  | fork parent child => exact True.intro
  | destroy co => exact True.intro

end Represents

/--
The assertions of the switches hold in every run, those included which are only
comments: whoever is resumed has no resumer yet, the caller is the running
coroutine if it is one, and `mco_yield` lets no other coroutine yield.
-/
theorem asserts_hold (cpu : Registers) (bytes : Bytes) (ops : List Op) :
    Along (step xpaci symbols) (fun thread op _ => Asserted xpaci thread op)
      (Thread.init cpu bytes) ops := by
  refine
    @along_mono _ _ (step xpaci symbols) (fun _ _ _ => True) _
      (fun thread => ∃ machine, Represents thread machine) ?_ ?_ ops _
      ⟨idle cpu, represents_init cpu bytes⟩
      (along_of_forall (fun _ _ _ _ => True.intro) ops _)
  · rintro thread op next ⟨machine, represents⟩ stepped _
    obtain ⟨after, _, represents⟩ :=
      represents_step thread op next machine represents stepped
    exact ⟨after, represents⟩
  · rintro thread op next ⟨machine, represents⟩ _ _
    exact asserted_of_represents represents op

/-! ## What a call returns to -/

/-- Back where a call was made: what it must keep, and its return address. -/
structure ReturnedTo (xpaci : Usize → Usize) (before after : Registers) :
    Prop where
  x : ∀ i, i ≠ 11 → after.x i = before.x i
  sp : after.sp = before.sp
  d : after.d = before.d
  pc : after.pc = xpaci (before.x 11)

theorem returnedTo_leave (cpu : Registers) :
    ReturnedTo xpaci cpu (leave xpaci cpu) where
  x := fun _ differs => Function.update_of_ne differs ..
  sp := rfl
  d := rfl
  pc := by simp [leave, loaded, saved]

/-- It has been resumed and has not come back. -/
def IsActive (co : Usize) (thread : Thread) : Prop :=
  ∃ coro, thread.coros co = some coro ∧
    (coro.state = .running ∨ coro.state = .normal)

def IsSuspended (co : Usize) (thread : Thread) : Prop :=
  ∃ coro, thread.coros co = some coro ∧ coro.state = .suspended

instance (co : Usize) (thread : Thread) : Decidable (IsActive co thread) :=
  decidable_of_iff
    (((thread.coros co).map fun coro => coro.state) = some .running ∨
      ((thread.coros co).map fun coro => coro.state) = some .normal)
    (by simp only [IsActive, Option.map_eq_some_iff, and_or_left, exists_or])

instance (co : Usize) (thread : Thread) : Decidable (IsSuspended co thread) :=
  decidable_of_iff
    (((thread.coros co).map fun coro => coro.state) = some .suspended)
    Option.map_eq_some_iff

section Represents

variable {thread next : Thread} {machine : Machine Usize Registers}
  {co : Usize} {coro : Coro}

theorem isActive_iff (represents : Represents thread machine) :
    IsActive co thread ↔ machine.place co = some .active := by
  rw [represents.place co, Option.map_eq_some_iff]
  exact
    exists_congr fun _ =>
      and_congr_right fun _ => placeOf_eq_active_iff.symm

theorem placeOf_eq_suspended_iff {cont : Registers} :
    placeOf coro = .suspended cont ↔
      coro.state = .suspended ∧ loaded coro.context.ctx = cont := by
  unfold placeOf
  cases coro.state <;> simp

theorem isSuspended_iff (represents : Represents thread machine) :
    IsSuspended co thread ↔
      ∃ cont, machine.place co = some (.suspended cont) := by
  rw [represents.place co]
  constructor
  · rintro ⟨coro, found, suspended⟩
    rw [found]
    exact
      ⟨_, congrArg some (placeOf_eq_suspended_iff.mpr ⟨suspended, rfl⟩)⟩
  · rintro ⟨cont, isPlace⟩
    obtain ⟨coro, found, isPlace⟩ := Option.map_eq_some_iff.mp isPlace
    exact ⟨coro, found, (placeOf_eq_suspended_iff.mp isPlace).1⟩

theorem view_resume
    (found : thread.coros co = some coro)
    (suspended : coro.state = .suspended) :
    view xpaci symbols thread (.resume co) = .resume co := by
  simp [view, viewCalls, found, Thread.mcoResume, suspended]

/-- The running coroutine is the innermost one of the chain. -/
theorem currentCo_of_linked
    {coros : Usize → Option Coro} {chain : List (Usize × Registers)}
    (linked : Linked coros co chain) :
    co = (chain.head?.map Prod.fst).getD 0 := by
  cases linked with
  | nil => rfl
  | cons found linked => rfl

/-- A suspended coroutine which is resumed goes on from its context. -/
theorem resume_represented
    {cont : Registers} (represents : Represents thread machine)
    (suspended : machine.place co = some (.suspended cont))
    (resumes : step xpaci symbols thread (.resume co) = some next) :
    ∃ after, Represents next after ∧
      Lib.Coroutines.step (leave xpaci) machine (.resume co) = some after ∧
      next.cpu = cont ∧ next.currentCo = co := by
  obtain ⟨coro, found, isSuspended⟩ :=
    (isSuspended_iff represents).mpr ⟨cont, suspended⟩
  obtain ⟨after, stepped, related⟩ :=
    represents_step thread (.resume co) next machine represents resumes
  rw [view_resume found isSuspended] at stepped
  refine ⟨after, related, stepped, ?_⟩
  simp only [Lib.Coroutines.step, suspended, Option.some.injEq] at stepped
  subst stepped
  exact ⟨related.now.symm, currentCo_of_linked related.linked⟩

end Represents

/-- Every state which a thread reaches is a machine. -/
theorem represents_of_reached
    {cpu : Registers} {bytes : Bytes} {ops : List Op} {final : Thread}
    (reached :
      run (step xpaci symbols) (Thread.init cpu bytes) ops = some final) :
    ∃ machine, Represents final machine := by
  refine
    @invariant_of_run _ _ (step xpaci symbols)
      (fun thread => ∃ machine, Represents thread machine) ?_ ops _ final
      ⟨idle cpu, represents_init cpu bytes⟩ reached
  rintro thread op next ⟨machine, represents⟩ stepped
  rcases represents_step thread op next machine represents stepped with
    ⟨after, _, represents⟩
  exact ⟨after, represents⟩

/--
Whoever resumes a coroutine gets its registers back.  Whatever the coroutine
does, and whomever it resumes, creates, forks or destroys: when it has yielded
or ended, its resumer is again the running coroutine, behind its call.
-/
theorem resumer_gets_registers_back
    (cpu : Registers) (bytes : Bytes) (before : List Op)
    (start resumed last final : Thread) (co : Usize) (during : List Op)
    (op : Op)
    (reached :
      run (step xpaci symbols) (Thread.init cpu bytes) before = some start)
    (suspended : IsSuspended co start)
    (resumes : step xpaci symbols start (.resume co) = some resumed)
    (ran : run (step xpaci symbols) resumed during = some last)
    (active : Along (step xpaci symbols) (fun _ _ next => IsActive co next)
      resumed during)
    (ends : step xpaci symbols last op = some final)
    (left : ¬ IsActive co final) :
    ReturnedTo xpaci start.cpu final.cpu ∧
      final.currentCo = start.currentCo := by
  obtain ⟨machine, represents⟩ := represents_of_reached reached
  obtain ⟨cont, isPlace⟩ := (isSuspended_iff represents).mp suspended
  obtain ⟨first, represented, stepped, _⟩ :=
    resume_represented represents isPlace resumes
  obtain ⟨middle, run, represented, along⟩ :=
    @simulated_run _ _ _ _ (step xpaci symbols)
      (Lib.Coroutines.step (leave xpaci)) (view xpaci symbols) Represents
      (IsActive co) (fun machine => machine.place co = some .active)
      represents_step (fun _ _ related => (isActive_iff related).mp)
      during _ last _ represented ran active
  obtain ⟨after, ended, represented⟩ :=
    represents_step last op final middle represented ends
  obtain ⟨now, chain⟩ :=
    Lib.Coroutines.resumer_goes_on represents.wellFormed stepped run along
      ended (mt (isActive_iff represented).mpr left)
  constructor
  · rw [← represented.now, now, represents.now]
    exact returnedTo_leave start.cpu
  · rw [currentCo_of_linked represented.linked, chain,
      ← currentCo_of_linked represents.linked]

theorem resumer_gets_registers_back_yielded :
    ReturnedTo id (registersAt 5) (someThread yielded).cpu ∧
      (someThread yielded).currentCo = 0 := by
  let before : List Op :=
    [.create 0x400400 0 0 0x10000, .createElf 0x400500 0 0 0 0x800000]
  let during : List Op :=
    [.execute (registersAt 0x10800), .resume 0x800000,
      .yield 0x800000 0x800800]
  exact
    resumer_gets_registers_back (registersAt 5) (fun _ => 0) before
      (someThread before) (someThread resumed) (someThread (resumed ++ during))
      (someThread yielded) 0x10000 during (.yield 0x10000 0x10800)
      (someRun_eq (by decide +kernel)) (by decide +kernel)
      (step_someThread (by decide +kernel))
      (run_someThread (by decide +kernel)) (by decide +kernel)
      (step_someThread (by decide +kernel)) (by decide +kernel)

/--
A suspended coroutine keeps its registers until it is resumed, whatever the
others do, and goes on with them.
-/
theorem context_kept
    {cpu : Registers} {bytes : Bytes} {before during : List Op}
    {start last : Thread} {co : Usize} {coro : Coro}
    (reached :
      run (step xpaci symbols) (Thread.init cpu bytes) before = some start)
    (found : start.coros co = some coro)
    (suspended : coro.state = .suspended)
    (ran : run (step xpaci symbols) start during = some last)
    (stays : Along (step xpaci symbols) (fun _ _ next => IsSuspended co next)
      start during) :
    (∃ after, last.coros co = some after ∧ after.state = .suspended ∧
      loaded after.context.ctx = loaded coro.context.ctx) ∧
      ∀ final, step xpaci symbols last (.resume co) = some final →
        final.cpu = loaded coro.context.ctx ∧ final.currentCo = co := by
  obtain ⟨machine, represents⟩ := represents_of_reached reached
  have isPlace :
      machine.place co = some (.suspended (loaded coro.context.ctx)) := by
    rw [represents.place_eq found]
    exact congrArg some (placeOf_eq_suspended_iff.mpr ⟨suspended, rfl⟩)
  obtain ⟨middle, run, represented, along⟩ :=
    @simulated_run _ _ _ _ (step xpaci symbols)
      (Lib.Coroutines.step (leave xpaci)) (view xpaci symbols) Represents
      (IsSuspended co)
      (fun machine => ∃ cont, machine.place co = some (.suspended cont))
      represents_step (fun _ _ related => (isSuspended_iff related).mp)
      during _ last _ represents ran stays
  have still :=
    Lib.Coroutines.keeps_continuation represents.wellFormed isPlace run along
  constructor
  · have isPlace := (represented.place co).symm.trans still
    obtain ⟨after, there, isPlace⟩ := Option.map_eq_some_iff.mp isPlace
    exact ⟨after, there, placeOf_eq_suspended_iff.mp isPlace⟩
  · intro final resumes
    obtain ⟨_, _, _, goesOn⟩ := resume_represented represented still resumes
    exact goesOn

/-! ## Yielding -/

/-- A call which ends the turn of a running coroutine has been successful. -/
theorem yielded_context
    {thread next : Thread} {machine : Machine Usize Registers}
    {co stackAddr : Usize} (represents : Represents thread machine)
    (active : IsActive co thread)
    (yields : step xpaci symbols thread (.yield co stackAddr) = some next)
    (suspended : IsSuspended co next) :
    ∃ coro, next.coros co = some coro ∧ coro.state = .suspended ∧
      coro.context.ctx = saved xpaci thread.cpu := by
  obtain ⟨coro, found, isActive⟩ := active
  have unchanged : next ≠ thread := by
    rintro rfl
    obtain ⟨same, isFound, isSuspended⟩ := suspended
    cases found.symm.trans isFound
    rw [isSuspended] at isActive
    simp at isActive
  simp only [step, Thread.calls, found] at yields
  rw [if_neg (represents.ne_null found)] at yields
  cases call : thread.mcoYield xpaci co stackAddr coro with
  | error failure =>
      simp only [call, Option.some.injEq] at yields
      exact (unchanged yields.symm).elim
  | ok after =>
      simp only [call, Option.some.injEq] at yields
      subst yields
      obtain ⟨-, left⟩ := represents.left_of_call found call
      exact ⟨_, left.self, rfl, rfl⟩

/--
A coroutine which yields gets its registers back when it is next resumed,
behind its call, whoever resumes it and whatever has run in between.
-/
theorem yielder_gets_registers_back
    (cpu : Registers) (bytes : Bytes) (before : List Op)
    (start yielded last final : Thread) (co stackAddr : Usize)
    (during : List Op)
    (reached :
      run (step xpaci symbols) (Thread.init cpu bytes) before = some start)
    (active : IsActive co start)
    (yields : step xpaci symbols start (.yield co stackAddr) = some yielded)
    (suspended : IsSuspended co yielded)
    (ran : run (step xpaci symbols) yielded during = some last)
    (stays : Along (step xpaci symbols) (fun _ _ next => IsSuspended co next)
      yielded during)
    (resumes : step xpaci symbols last (.resume co) = some final) :
    ReturnedTo xpaci start.cpu final.cpu ∧ final.currentCo = co := by
  obtain ⟨machine, represents⟩ := represents_of_reached reached
  obtain ⟨coro, found, isSuspended, context⟩ :=
    yielded_context represents active yields suspended
  obtain ⟨-, goesOn⟩ :=
    context_kept (run_snoc reached yields) found isSuspended ran stays
  obtain ⟨isCpu, isCurrent⟩ := goesOn final resumes
  rw [context] at isCpu
  rw [isCpu]
  exact ⟨returnedTo_leave start.cpu, isCurrent⟩

/-- The other one has ended in between. -/
theorem yielder_gets_registers_back_resumed :
    ReturnedTo id (someThread yielding).cpu
      (someThread
          (yielded ++
            [.resume 0x800000, .ends 0x800000, .resume 0x10000])).cpu := by
  let during : List Op := [.resume 0x800000, .ends 0x800000]
  have goesOn :=
    yielder_gets_registers_back (registersAt 5) (fun _ => 0) yielding
      (someThread yielding) (someThread yielded)
      (someThread (yielded ++ during))
      (someThread (yielded ++ during ++ [.resume 0x10000]))
      0x10000 0x10800 during (someRun_eq (by decide +kernel))
      (by decide +kernel) (step_someThread (by decide +kernel))
      (by decide +kernel) (run_someThread (by decide +kernel))
      (by decide +kernel) (step_someThread (by decide +kernel))
  exact goesOn.1

/-! ## Forking -/

/-- What points into the stack of the parent is moved to that of the child. -/
def moved (parent : Coro) (child : Usize) : Usize → Usize :=
  remap parent.stackBase (parent.stackBase + parent.stackSize)
    (stackAddr child parent.storageSize - parent.stackBase)

/-- Back where the parent of a coroutine was, on the stack of the child. -/
structure MovedTo (xpaci : Usize → Usize) (parent : Coro) (child : Usize)
    (before after : Registers) : Prop where
  x : ∀ i, i ≠ 11 → after.x i = moved parent child (before.x i)
  sp : after.sp = moved parent child before.sp
  d : after.d = before.d
  pc : after.pc = moved parent child (xpaci (before.x 11))

theorem movedTo_forked
    {parent : Coro} {child : Usize} {cpu : Registers}
    (back : ReturnedTo xpaci cpu (loaded parent.context.ctx)) :
    MovedTo xpaci parent child cpu
      (loaded (forkedCoro parent child).context.ctx) where
  x := fun i differs => by
    rw [← back.x i differs]
    rfl
  sp := by
    rw [← back.sp]
    rfl
  d := by
    rw [← back.d]
    rfl
  pc := by
    rw [← back.pc]
    rfl

theorem forked_context
    {thread next : Thread} {parent child : Usize} {coro : Coro}
    (found : thread.coros parent = some coro) (given : child ≠ 0)
    (forks : step xpaci symbols thread (.fork parent child) = some next) :
    next.coros child = some (forkedCoro coro child) := by
  simp only [step, found, if_neg given, Thread.adds] at forks
  split at forks
  · cases forks
    exact Function.update_self ..
  · cases forks

/--
A coroutine yields, is forked, and the child is resumed: the child goes on
behind the `mco_yield` of its parent, with its registers, those apart which
point into the stack; they point into its own.
-/
theorem forked_child_goes_on
    (cpu : Registers) (bytes : Bytes) (before : List Op)
    (start yielded forking forked last final : Thread)
    (parent child stackAddr : Usize) (waiting after : List Op) (coro : Coro)
    (reached :
      run (step xpaci symbols) (Thread.init cpu bytes) before = some start)
    (active : IsActive parent start)
    (yields :
      step xpaci symbols start (.yield parent stackAddr) = some yielded)
    (suspended : IsSuspended parent yielded)
    (ran : run (step xpaci symbols) yielded waiting = some forking)
    (waits : Along (step xpaci symbols)
      (fun _ _ next => IsSuspended parent next) yielded waiting)
    (found : forking.coros parent = some coro) (given : child ≠ 0)
    (forks :
      step xpaci symbols forking (.fork parent child) = some forked)
    (ranOn : run (step xpaci symbols) forked after = some last)
    (stays : Along (step xpaci symbols)
      (fun _ _ next => IsSuspended child next) forked after)
    (resumes : step xpaci symbols last (.resume child) = some final) :
    MovedTo xpaci coro child start.cpu final.cpu ∧
      final.currentCo = child := by
  obtain ⟨machine, represents⟩ := represents_of_reached reached
  obtain ⟨first, isFirst, isSuspended, context⟩ :=
    yielded_context represents active yields suspended
  have untilYield := run_snoc reached yields
  obtain ⟨⟨same, isSame, -, kept⟩, -⟩ :=
    context_kept untilYield isFirst isSuspended ran waits
  cases found.symm.trans isSame
  rw [context] at kept
  have untilFork := run_snoc (run_trans untilYield ran) forks
  obtain ⟨-, goesOn⟩ :=
    context_kept untilFork (forked_context found given forks) rfl ranOn stays
  obtain ⟨isCpu, isCurrent⟩ := goesOn final resumes
  have back : ReturnedTo xpaci start.cpu (loaded coro.context.ctx) := by
    rw [kept]
    exact returnedTo_leave start.cpu
  rw [isCpu]
  exact ⟨movedTo_forked back, isCurrent⟩

theorem forked_child_goes_on_resumed :
    ∃ parent, (someThread yielded).coros 0x10000 = some parent ∧
      (someThread
          (yielded ++ [.fork 0x10000 0x900000, .resume 0x900000])).cpu.sp =
        moved parent 0x900000 (someThread yielding).cpu.sp := by
  obtain ⟨parent, found, _⟩ :
      IsSuspended 0x10000 (someThread yielded) := by decide +kernel
  have goesOn :=
    forked_child_goes_on (registersAt 5) (fun _ => 0) yielding
      (someThread yielding) (someThread yielded) (someThread yielded)
      (someThread (yielded ++ [.fork 0x10000 0x900000]))
      (someThread (yielded ++ [.fork 0x10000 0x900000]))
      (someThread
        (yielded ++ [.fork 0x10000 0x900000] ++ [.resume 0x900000]))
      0x10000 0x900000 0x10800 [] [] parent (someRun_eq (by decide +kernel))
      (by decide +kernel) (step_someThread (by decide +kernel))
      (by decide +kernel) rfl True.intro found (by decide)
      (step_someThread (by decide +kernel)) rfl True.intro
      (step_someThread (by decide +kernel))
  exact ⟨parent, found, goesOn.1.sp⟩

/-! ## The first entry -/

/-- The calls which make a coroutine at an address. -/
inductive Makes (co : Usize) : Op → Prop where
  | create (func userData stackSize : Usize) :
      Makes co (.create func userData stackSize co)
  | createElf (entry elfSp stackBase stackSize : Usize) :
      Makes co (.createElf entry elfSp stackBase stackSize co)

theorem made_of_adds
    {thread next : Thread} {co : Usize} {made : Except McoError Coro}
    {coro : Coro} (absent : thread.coros co = none)
    (adds : thread.adds co made = some next)
    (there : next.coros co = some coro) : made = .ok coro := by
  cases made with
  | error failure =>
      cases adds
      cases absent.symm.trans there
  | ok made =>
      simp only [Thread.adds, if_pos absent, Option.some.injEq] at adds
      subst adds
      have self :
          (thread.setCoro co (some made)).coros co = some made :=
        Function.update_self ..
      cases self.symm.trans there
      rfl

/-- Neither `_mco_makectx` nor `_mco_makectx_elf` writes an `x30`. -/
theorem created_context
    {thread next : Thread} {co : Usize} {op : Op} {coro : Coro}
    (makes : Makes co op) (absent : thread.coros co = none)
    (stepped : step xpaci symbols thread op = some next)
    (there : next.coros co = some coro) :
    coro.state = .suspended ∧ coro.context.ctx.x 11 = 0 ∧
      coro.context.ctx.sp = coro.stackBase + coro.stackSize ∧
      coro.context.ctx.lr = symbols.mcoWrapMain := by
  cases makes with
  | create func userData stackSize =>
      have made := made_of_adds absent stepped there
      unfold mcoCreate at made
      split at made
      · cases made
      · split at made
        · cases made
        · cases made
          exact ⟨rfl, rfl, rfl, rfl⟩
  | createElf entry elfSp stackBase stackSize =>
      have made := made_of_adds absent stepped there
      unfold mcoCreateWithElfEntry at made
      dsimp only at made
      split at made
      · cases made
      · cases made
        exact ⟨rfl, rfl, rfl, rfl⟩

/--
A coroutine which `mco_create` or `mco_create_with_elf_entry` has made is
entered at null, at the top of its stack: the `ret` of `_mco_switch` goes to
`x30`, and `_mco_wrap_main` is only in `lr`.
-/
theorem first_resume_enters_null
    (cpu : Registers) (bytes : Bytes) (before : List Op)
    (start made last final : Thread) (op : Op) (co : Usize) (coro : Coro)
    (during : List Op)
    (reached :
      run (step xpaci symbols) (Thread.init cpu bytes) before = some start)
    (makes : Makes co op) (absent : start.coros co = none)
    (stepped : step xpaci symbols start op = some made)
    (there : made.coros co = some coro)
    (ran : run (step xpaci symbols) made during = some last)
    (stays : Along (step xpaci symbols) (fun _ _ next => IsSuspended co next)
      made during)
    (resumes : step xpaci symbols last (.resume co) = some final) :
    final.cpu.pc = 0 ∧ final.cpu.sp = coro.stackBase + coro.stackSize ∧
      final.currentCo = co := by
  obtain ⟨suspended, isNull, isTop, -⟩ :=
    created_context makes absent stepped there
  obtain ⟨-, goesOn⟩ :=
    context_kept (run_snoc reached stepped) there suspended ran stays
  obtain ⟨isCpu, isCurrent⟩ := goesOn final resumes
  rw [isCpu]
  exact ⟨isNull, isTop, isCurrent⟩

theorem first_resume_enters_null_second :
    (someThread resumed).cpu.pc = 0 := by
  let during : List Op := [.createElf 0x400500 0 0 0 0x800000]
  have enters :=
    first_resume_enters_null (registersAt 5) (fun _ => 0) []
      (someThread []) (someThread [.create 0x400400 0 0 0x10000])
      (someThread ([.create 0x400400 0 0 0x10000] ++ during))
      (someThread resumed) (.create 0x400400 0 0 0x10000) 0x10000
      (initialCoro someSymbols (descOf 0x400400 0 0) 0x10000) during
      (someRun_eq (by decide +kernel)) (.create 0x400400 0 0)
      rfl (step_someThread (by decide +kernel)) rfl
      (run_someThread (by decide +kernel)) (by decide +kernel)
      (step_someThread (by decide +kernel))
  exact enters.1

end Vproc.Sched.CoroutineTurns
