import Vproc.Sched.CoroutineTurns

/-!
# Calls of minicoro which succeed

A thread whose coroutines are resumed from outside only, one at a time: no
coroutine has been resumed by another one.  For each call there is a lemma
which says when it succeeds, and what it changes: the state of one coroutine,
and which one is running.
-/

namespace Vproc.Sched.CoroutineCalls

open Vproc.Lib.Run
open Vproc.Lib.Simulation
open Vproc.Exec.Elf
open Vproc.Sched.ForkContext
open Vproc.Sched.CoroutineBlocks
open Vproc.Sched.ContextSwitch
  (Thread Op Registers Represents Resumed Left descOf represents_step)

/-- `DEFAULT_STACK_SIZE`. -/
def DEFAULT_STACK_SIZE : Usize := 2 * 1024 * 1024

/-- The call is on a coroutine which is there, and returns `MCO_SUCCESS`. -/
def succeeds (xpaci : Usize → Usize) (symbols : Symbols) (thread : Thread) :
    Op → Bool
  | .execute _ | .store _ _ => true
  | .create func userData stackSize co =>
      (mcoCreate symbols (descOf func userData stackSize) co).isOk
  | .createElf entry elfSp stackBase stackSize co =>
      (mcoCreateWithElfEntry symbols entry elfSp stackBase stackSize co).isOk
  | .fork parent child => (thread.coros parent).isSome && child != 0
  | .resume co =>
      (thread.coros co).any fun coro => (thread.mcoResume xpaci co coro).isOk
  | .yield co stackAddr =>
      (thread.coros co).any fun coro =>
        (thread.mcoYield xpaci co stackAddr coro).isOk
  | .ends co => (thread.coros co).isSome && co == thread.mcoRunning
  | .destroy co =>
      (thread.coros co).any fun coro => (thread.mcoDestroy co coro).isOk

/-- The states of the coroutines which are there. -/
def states (thread : Thread) (co : Usize) : Option McoState :=
  (thread.coros co).map fun coro => coro.state

/-- A record which is not linked to another one. -/
structure Unlinked (coro : Coro) : Prop where
  prevCo : coro.prevCo = 0
  notNormal : coro.state ≠ .normal
  magicNumber : coro.magicNumber = MCO_MAGIC_NUMBER

/-- A thread whose coroutines are resumed from outside only. -/
structure Flat (thread : Thread) : Prop where
  represents : ∃ machine, Represents thread machine
  unlinked : ∀ co coro, thread.coros co = some coro → Unlinked coro

/-- A call succeeds, and changes the state of one coroutine only. -/
structure Turns (xpaci : Usize → Usize) (symbols : Symbols) (thread : Thread)
    (op : Op) (co : Usize) (state : Option McoState) (current : Usize)
    (next : Thread) : Prop where
  succeeds : succeeds xpaci symbols thread op = true
  stepped : ContextSwitch.step xpaci symbols thread op = some next
  flat : Flat next
  states : states next = Function.update (states thread) co state
  others : ∀ other, other ≠ co → next.coros other = thread.coros other
  current : next.currentCo = current

section Calls

variable {xpaci : Usize → Usize} {symbols : Symbols} {thread : Thread}
  {co : Usize} {coro : Coro} {next : Thread}

theorem states_of_found (found : thread.coros co = some coro) :
    states thread co = some coro.state := by
  rw [states, found]
  rfl

/-- The running coroutine is the current one. -/
theorem Flat.running_iff (flat : Flat thread) :
    states thread co = some .running ↔ co = thread.currentCo ∧ co ≠ 0 := by
  rcases flat.represents with ⟨machine, represents⟩
  constructor
  · intro running
    rcases Option.map_eq_some_iff.mp running with ⟨coro, found, isRunning⟩
    exact
      ⟨(represents.running_iff co coro found).mp isRunning,
        represents.ne_null found⟩
  · rintro ⟨rfl, given⟩
    rcases CoroutineTurns.stateAt_running represents given with
      ⟨coro, found, running⟩
    exact (states_of_found found).trans (congrArg some running)

/-- A call changes one record, and links it to none. -/
theorem turns_record
    {op : Op} (made : Option Coro) (flat : Flat thread)
    (isOk : succeeds xpaci symbols thread op = true)
    (stepped : ContextSwitch.step xpaci symbols thread op = some next)
    (coros : ∀ other,
      next.coros other = if other = co then made else thread.coros other)
    (unlinked : ∀ record, made = some record → Unlinked record) :
    Turns xpaci symbols thread op co (made.map fun coro => coro.state)
      next.currentCo next := by
  rcases flat.represents with ⟨machine, represents⟩
  rcases represents_step thread op next machine represents stepped with
    ⟨after, _, represents⟩
  refine ⟨isOk, stepped, ⟨⟨after, represents⟩, ?_⟩, ?_, ?_, rfl⟩
  · intro other record found
    rw [coros other] at found
    split at found
    · exact unlinked record found
    · exact flat.unlinked other record found
  · ext1 other
    rw [states, coros other, Function.update_apply]
    split
    · rfl
    · rfl
  · intro other differs
    rw [coros other, if_neg differs]

theorem coros_of_others
    (others : ∀ other, other ≠ co → next.coros other = thread.coros other)
    (other : Usize) :
    next.coros other =
      if other = co then next.coros co else thread.coros other := by
  split
  · rename_i same
    rw [same]
  · rename_i differs
    exact others other differs

/-- A change of the record at null is none. -/
theorem unless_null
    (null : thread.coros 0 = none) (change : Coro → Coro) (other : Usize) :
    (if other = 0 then (thread.coros other).map change
      else thread.coros other) = thread.coros other := by
  split
  · rename_i isNull
    rw [isNull, null]
    rfl
  · rfl

/-! ### Making a coroutine -/

/-- A record is put in place of none, and maybe its stack is written. -/
theorem turns_adds
    {op : Op} (coro : Coro) (bytes : Bytes) (flat : Flat thread)
    (absent : thread.coros co = none)
    (suspended : coro.state = .suspended) (prevCo : coro.prevCo = 0)
    (magicNumber : coro.magicNumber = MCO_MAGIC_NUMBER)
    (isOk : succeeds xpaci symbols thread op = true)
    (adds : ContextSwitch.step xpaci symbols thread op =
      { thread with bytes := bytes }.adds co (.ok coro)) :
    ∃ next, Turns xpaci symbols thread op co (some .suspended)
      thread.currentCo next := by
  have stepped :
      ContextSwitch.step xpaci symbols thread op =
        some ({ thread with bytes := bytes }.setCoro co (some coro)) := by
    simp only [adds, Thread.adds, if_pos absent]
  have unlinked : ∀ record, some coro = some record → Unlinked record := by
    rintro record ⟨⟩
    exact ⟨prevCo, by simp [suspended], magicNumber⟩
  have turns :=
    turns_record (some coro) flat isOk stepped
      (Function.update_apply thread.coros co (some coro)) unlinked
  rw [Option.map_some, suspended] at turns
  exact ⟨_, turns⟩

/-- A closure gets a coroutine, unless the allocation fails. -/
theorem turns_create
    {trampoline userData : Usize} (flat : Flat thread)
    (absent : thread.coros co = none) (given : co ≠ 0)
    (isCode : trampoline ≠ 0) :
    ∃ next, Turns xpaci symbols thread
      (.create trampoline userData DEFAULT_STACK_SIZE co) co
      (some .suspended) thread.currentCo next := by
  let desc := descOf trampoline userData DEFAULT_STACK_SIZE
  have valid : mcoValidateDesc desc = .ok () := by
    have isFunc : desc.func ≠ 0 := isCode
    have large :
        ¬ (mcoDescInit 0 DEFAULT_STACK_SIZE).stackSize <
          MCO_MIN_STACK_SIZE := by decide
    have room :
        ¬ (mcoDescInit 0 DEFAULT_STACK_SIZE).coroSize <
          sizeofMcoCoro := by decide
    exact (if_neg isFunc).trans ((if_neg large).trans (if_neg room))
  have created :
      mcoCreate symbols desc co = .ok (initialCoro symbols desc co) := by
    simp only [mcoCreate, if_neg given, valid]
  refine
    turns_adds (initialCoro symbols desc co) thread.bytes flat absent rfl rfl
      rfl ?_ ?_
  · rw [succeeds, created]
    rfl
  · rw [ContextSwitch.step, created]

/-- So does a loaded program. -/
theorem turns_createElf
    {entry elfSp stackBase stackSize : Usize} (flat : Flat thread)
    (absent : thread.coros co = none) (given : co ≠ 0) :
    ∃ next, Turns xpaci symbols thread
      (.createElf entry elfSp stackBase stackSize co) co
      (some .suspended) thread.currentCo next := by
  cases created :
    mcoCreateWithElfEntry symbols entry elfSp stackBase stackSize co with
  | error failure =>
      simp only [mcoCreateWithElfEntry, if_neg given] at created
      cases created
  | ok coro =>
      rcases ContextSwitch.createdElf_fresh created with
        ⟨_, suspended, prevCo⟩
      have magicNumber : coro.magicNumber = MCO_MAGIC_NUMBER := by
        simp only [mcoCreateWithElfEntry, if_neg given] at created
        cases created
        rfl
      refine
        turns_adds coro thread.bytes flat absent suspended prevCo magicNumber
          ?_ ?_
      · rw [succeeds, created]
        rfl
      · rw [ContextSwitch.step, created]

/-- A coroutine which is there is forked. -/
theorem turns_fork
    {parent : Usize} (flat : Flat thread)
    (present : states thread parent ≠ none)
    (absent : thread.coros co = none) (given : co ≠ 0) :
    ∃ next, Turns xpaci symbols thread (.fork parent co) co
      (some .suspended) thread.currentCo next := by
  cases found : thread.coros parent with
  | none => simp [states, found] at present
  | some coro =>
      refine
        turns_adds (forkedCoro coro co)
          (childMemory thread.bytes coro.toMcoCoro co) flat absent rfl rfl
          rfl ?_ ?_
      · rw [succeeds, found]
        exact bne_iff_ne.mpr given
      · simp only [ContextSwitch.step, found, if_neg given]

/-! ### Switching -/

/-- A coroutine which is there is found by its calls. -/
theorem calls_of_ok
    {call : Coro → Except McoError Thread} (flat : Flat thread)
    (found : thread.coros co = some coro) (isOk : call coro = .ok next) :
    thread.calls co call = some next := by
  rcases flat.represents with ⟨machine, represents⟩
  simp only [Thread.calls, if_neg (represents.ne_null found), found, isOk]

/-- The driver resumes a suspended coroutine. -/
theorem turns_resume
    (flat : Flat thread) (outside : thread.currentCo = 0)
    (suspended : states thread co = some .suspended) :
    ∃ next, Turns xpaci symbols thread (.resume co) co (some .running) co
        next ∧
      ∃ coro, thread.coros co = some coro ∧
        Resumed xpaci thread co coro next := by
  rcases Option.map_eq_some_iff.mp suspended with ⟨coro, found, isState⟩
  rcases flat.represents with ⟨machine, represents⟩
  cases call : thread.mcoResume xpaci co coro with
  | error failure =>
      simp [Thread.mcoResume, isState] at call
  | ok next =>
      have resumed := represents.resumed_of_call found call
      have isOk : succeeds xpaci symbols thread (.resume co) = true := by
        simp only [succeeds, found, Option.any_some, call]
        rfl
      have others (other : Usize) (differs : other ≠ co) :
          next.coros other = thread.coros other := by
        rw [resumed.others other differs, outside]
        exact unless_null represents.null _ other
      have unlinked (record : Coro) (isRecord : next.coros co = some record) :
          Unlinked record := by
        cases resumed.self.symm.trans isRecord
        exact ⟨outside, by simp, (flat.unlinked co coro found).magicNumber⟩
      have turns :=
        turns_record (next.coros co) flat isOk (calls_of_ok flat found call)
          (coros_of_others others) unlinked
      rw [resumed.self, resumed.current] at turns
      exact ⟨next, turns, coro, found, resumed⟩

/-- The running coroutine goes back to the driver. -/
theorem turns_left
    {op : Op} {state : McoState} (flat : Flat thread)
    (found : thread.coros co = some coro) (inactive : state ≠ .normal)
    (isOk : succeeds xpaci symbols thread op = true)
    (stepped : ContextSwitch.step xpaci symbols thread op = some next)
    (left : Left xpaci thread co coro state next) :
    Turns xpaci symbols thread op co (some state) 0 next := by
  rcases flat.represents with ⟨machine, represents⟩
  have record := flat.unlinked co coro found
  have others (other : Usize) (differs : other ≠ co) :
      next.coros other = thread.coros other := by
    rw [left.others other differs, record.prevCo]
    exact unless_null represents.null _ other
  have unlinked (changed : Coro) (isChanged : next.coros co = some changed) :
      Unlinked changed := by
    cases left.self.symm.trans isChanged
    exact ⟨rfl, inactive, record.magicNumber⟩
  have turns :=
    turns_record (next.coros co) flat isOk stepped (coros_of_others others)
      unlinked
  rw [left.self, left.current, record.prevCo] at turns
  exact turns

/-- An address on the stack of the running coroutine, if one is running. -/
def OnStack (thread : Thread) (stackAddr : Usize) : Prop :=
  ∀ coro, thread.coros thread.mcoRunning = some coro →
    coro.stackBase ≤ stackAddr ∧ stackAddr ≤ coro.stackBase + coro.stackSize

/-- `mco_yield` is called on the stack of the running coroutine. -/
theorem turns_yield
    {stackAddr : Usize} (flat : Flat thread)
    (running : states thread thread.mcoRunning = some .running)
    (onStack : OnStack thread stackAddr) :
    ∃ next, Turns xpaci symbols thread (.yield thread.mcoRunning stackAddr)
        thread.mcoRunning (some .suspended) 0 next ∧
      ∃ coro, thread.coros thread.mcoRunning = some coro ∧
        Left xpaci thread thread.mcoRunning coro .suspended next := by
  rcases Option.map_eq_some_iff.mp running with ⟨coro, found, isRunning⟩
  rcases flat.represents with ⟨machine, represents⟩
  have magicNumber := (flat.unlinked _ coro found).magicNumber
  rcases onStack coro found with ⟨aboveBase, belowTop⟩
  cases call : thread.mcoYield xpaci thread.mcoRunning stackAddr coro with
  | error failure =>
      have inside :
          ¬ (coro.magicNumber ≠ MCO_MAGIC_NUMBER ∨
            stackAddr < coro.stackBase ∨
            coro.stackBase + coro.stackSize < stackAddr) := by
        rintro (other | below | above)
        · exact other magicNumber
        · exact absurd aboveBase (BitVec.not_le.mpr below)
        · exact absurd belowTop (BitVec.not_le.mpr above)
      simp [Thread.mcoYield, if_neg inside, isRunning] at call
  | ok next =>
      rcases represents.left_of_call found call with ⟨_, left⟩
      refine
        ⟨next, turns_left flat found (by decide) ?_
          (calls_of_ok flat found call) left, coro, found, left⟩
      simp only [succeeds, found, Option.any_some, call]
      rfl

/-- The function of the running coroutine has returned. -/
theorem turns_ends
    (flat : Flat thread)
    (running : states thread thread.mcoRunning = some .running) :
    ∃ next, Turns xpaci symbols thread (.ends thread.mcoRunning)
        thread.mcoRunning (some .dead) 0 next ∧
      ∃ coro, thread.coros thread.mcoRunning = some coro ∧
        Left xpaci thread thread.mcoRunning coro .dead next := by
  rcases Option.map_eq_some_iff.mp running with ⟨coro, found, isRunning⟩
  rcases flat.represents with ⟨machine, represents⟩
  have stepped :
      ContextSwitch.step xpaci symbols thread (.ends thread.mcoRunning) =
        some (thread.mcoMainEnds xpaci thread.mcoRunning coro) := by
    rw [ContextSwitch.step, if_pos rfl]
    exact calls_of_ok flat found rfl
  have left :
      Left xpaci thread thread.mcoRunning coro .dead
        (thread.mcoMainEnds xpaci thread.mcoRunning coro) :=
    ContextSwitch.left_of_jumpout found represents.null
      (represents.ne_prevCo found isRunning) .dead
  refine
    ⟨_, turns_left flat found (by decide) ?_ stepped left, coro, found, left⟩
  simp [succeeds, found]

/-- Either of these ends the turn of the running coroutine. -/
theorem turns_ending
    {stackAddr : Usize} (flat : Flat thread)
    (running : states thread thread.mcoRunning = some .running)
    (onStack : OnStack thread stackAddr) (dead : Bool) :
    ∃ state next,
      Turns xpaci symbols thread
          (if dead then .ends thread.mcoRunning
            else .yield thread.mcoRunning stackAddr)
          thread.mcoRunning (some state) 0 next ∧
        (∃ coro, thread.coros thread.mcoRunning = some coro ∧
          Left xpaci thread thread.mcoRunning coro state next) ∧
        (state = .dead ↔ dead = true) := by
  cases dead with
  | false =>
      rcases @turns_yield xpaci symbols thread _ flat running onStack with
        ⟨next, turns, left⟩
      exact ⟨.suspended, next, turns, left, by simp⟩
  | true =>
      rcases @turns_ends xpaci symbols thread flat running with
        ⟨next, turns, left⟩
      exact ⟨.dead, next, turns, left, by simp⟩

/-- A coroutine which does not run is destroyed. -/
theorem turns_destroy
    (flat : Flat thread) (present : states thread co ≠ none)
    (waits : states thread co ≠ some .running) :
    ∃ next, Turns xpaci symbols thread (.destroy co) co none
      thread.currentCo next := by
  cases found : thread.coros co with
  | none => simp [states, found] at present
  | some coro =>
      have inactive : coro.state = .suspended ∨ coro.state = .dead := by
        have notRunning : coro.state ≠ .running := by
          rintro running
          exact waits ((states_of_found found).trans (congrArg some running))
        have notNormal := (flat.unlinked co coro found).notNormal
        cases isState : coro.state with
        | suspended => exact .inl rfl
        | dead => exact .inr rfl
        | running => exact (notRunning isState).elim
        | normal => exact (notNormal isState).elim
      have call :
          thread.mcoDestroy co coro = .ok (thread.setCoro co none) :=
        if_pos inactive
      have stepped :
          ContextSwitch.step xpaci symbols thread (.destroy co) =
            some (thread.setCoro co none) :=
        calls_of_ok flat found call
      refine
        ⟨thread.setCoro co none,
          turns_record none flat ?_ stepped
            (Function.update_apply thread.coros co none) ?_⟩
      · simp only [succeeds, found, Option.any_some, call]
        rfl
      · rintro record ⟨⟩

/-! ### Several calls -/

/-- Calls one after the other, all of which succeed. -/
structure Runs (xpaci : Usize → Usize) (symbols : Symbols) (thread : Thread)
    (calls : List Op) (next : Thread) : Prop where
  reached : run (ContextSwitch.step xpaci symbols) thread calls = some next
  succeed : Along (ContextSwitch.step xpaci symbols)
    (fun before op _ => succeeds xpaci symbols before op = true) thread calls

theorem runs_nil : Runs xpaci symbols thread [] thread :=
  ⟨rfl, True.intro⟩

theorem runs_cons
    {op : Op} {state : Option McoState} {current : Usize} {rest : List Op}
    {final : Thread}
    (turns : Turns xpaci symbols thread op co state current next)
    (runs : Runs xpaci symbols next rest final) :
    Runs xpaci symbols thread (op :: rest) final := by
  refine ⟨run_cons_iff.mpr ⟨next, turns.stepped, runs.reached⟩, ?_⟩
  intro after stepped
  cases turns.stepped.symm.trans stepped
  exact ⟨turns.succeeds, runs.succeed⟩

theorem runs_single
    {op : Op} {state : Option McoState} {current : Usize}
    (turns : Turns xpaci symbols thread op co state current next) :
    Runs xpaci symbols thread [op] next :=
  runs_cons turns runs_nil

/-- Coroutines which do not run are destroyed one after the other. -/
theorem runs_destroys
    {cos : List Usize} (flat : Flat thread) (nodup : cos.Nodup)
    (waits : ∀ co ∈ cos,
      states thread co ≠ none ∧ states thread co ≠ some .running) :
    ∃ next, Runs xpaci symbols thread (cos.map .destroy) next ∧ Flat next ∧
      next.currentCo = thread.currentCo ∧
      (∀ co ∈ cos, next.coros co = none) ∧
      ∀ co, co ∉ cos → next.coros co = thread.coros co := by
  induction cos generalizing thread with
  | nil =>
      refine ⟨thread, runs_nil, flat, rfl, ?_, fun _ _ => rfl⟩
      exact fun co member => (List.not_mem_nil member).elim
  | cons co rest induction =>
      rcases List.nodup_cons.mp nodup with ⟨outside, nodup⟩
      rcases waits co List.mem_cons_self with ⟨present, notRunning⟩
      rcases @turns_destroy xpaci symbols thread co flat present notRunning
        with ⟨middle, turns⟩
      have still (other : Usize) (member : other ∈ rest) :
          states middle other ≠ none ∧
            states middle other ≠ some .running := by
        have differs := ne_of_mem_of_not_mem member outside
        rw [states, turns.others other differs]
        exact waits other (List.mem_cons_of_mem co member)
      rcases induction turns.flat nodup still with
        ⟨next, runs, flat, current, gone, others⟩
      refine
        ⟨next, runs_cons turns runs, flat, current.trans turns.current, ?_,
          ?_⟩
      · intro other member
        rcases List.mem_cons.mp member with rfl | member
        · have destroyed : states middle other = none := by
            rw [turns.states, Function.update_self]
          rw [others other outside]
          exact Option.map_eq_none_iff.mp destroyed
        · exact gone other member
      · intro other absent
        rcases not_or.mp (mt List.mem_cons.mpr absent) with
          ⟨differs, absent⟩
        rw [others other absent, turns.others other differs]

end Calls

end Vproc.Sched.CoroutineCalls
