import Mathlib

/-!
# Runs of a partial step function

A system is given by a step function which may refuse an operation: `none`
stands for a run that ends there (an abort, a guard that does not hold).  A
run is the step function iterated over a list of operations.

`Along` speaks about every completed step of a run, with the state it starts
in and the state it leads to, and `Happens` about some step.  The rules below
turn a statement about one step into one about all steps of a run, and carry
an invariant from the first state to the last, possibly under a condition
which every step of the run meets.
-/

namespace Vproc.Lib.Run

universe u v

variable {State : Type u} {Op : Type v}

/-- The state a list of operations leads to, if no operation ends the run. -/
def run (step : State → Op → Option State) :
    State → List Op → Option State
  | state, [] => some state
  | state, op :: rest =>
      (step state op).bind fun next => run step next rest

/-- Every completed step of the run satisfies `good`. -/
def Along (step : State → Op → Option State)
    (good : State → Op → State → Prop) :
    State → List Op → Prop
  | _, [] => True
  | state, op :: rest =>
      ∀ next, step state op = some next →
        good state op next ∧ Along step good next rest

/-- Some completed step of the run satisfies `event`. -/
def Happens (step : State → Op → Option State)
    (event : State → Op → State → Prop) :
    State → List Op → Prop
  | _, [] => False
  | state, op :: rest =>
      ∃ next, step state op = some next ∧
        (event state op next ∨ Happens step event next rest)

variable {step : State → Op → Option State}

/-- A decidable property of steps is decidable along a run. -/
instance decidableAlong
    (good : State → Op → State → Prop)
    [∀ state op next, Decidable (good state op next)] :
    ∀ (state : State) (ops : List Op),
      Decidable (Along step good state ops)
  | _, [] => isTrue True.intro
  | state, op :: rest =>
      match stepped : step state op with
      | none =>
          isTrue fun _ impossible => nomatch stepped.symm.trans impossible
      | some next =>
          match decidableAlong good next rest with
          | isFalse later =>
              isFalse fun along => later (along next stepped).2
          | isTrue later =>
              if now : good state op next then
                isTrue fun _ same =>
                  Option.some.inj (stepped.symm.trans same) ▸ ⟨now, later⟩
              else isFalse fun along => now (along next stepped).1

theorem run_cons_iff
    {state final : State} {op : Op} {rest : List Op} :
    run step state (op :: rest) = some final ↔
      ∃ next, step state op = some next ∧
        run step next rest = some final := by
  simp only [run, Option.bind_eq_some_iff]

theorem run_append
    (first second : List Op) (state : State) :
    run step state (first ++ second) =
      (run step state first).bind fun middle =>
        run step middle second := by
  induction first generalizing state with
  | nil => rfl
  | cons op rest induction =>
      simp only [List.cons_append, run]
      cases step state op with
      | none => rfl
      | some next => exact induction next

theorem run_trans
    {first second : List Op} {state middle final : State}
    (reached : run step state first = some middle)
    (continued : run step middle second = some final) :
    run step state (first ++ second) = some final := by
  rw [run_append, reached]
  exact continued

theorem along_append
    {good : State → Op → State → Prop}
    {first second : List Op} {state middle : State}
    (along : Along step good state (first ++ second))
    (reached : run step state first = some middle) :
    Along step good middle second := by
  induction first generalizing state with
  | nil =>
      cases reached
      exact along
  | cons op rest induction =>
      obtain ⟨next, stepped, continued⟩ := run_cons_iff.mp reached
      exact induction (along next stepped).2 continued

theorem along_left
    {good : State → Op → State → Prop}
    {first second : List Op} {state : State}
    (along : Along step good state (first ++ second)) :
    Along step good state first := by
  induction first generalizing state with
  | nil => exact True.intro
  | cons op rest induction =>
      intro next stepped
      obtain ⟨holds, along⟩ := along next stepped
      exact ⟨holds, induction along⟩

/-- What holds of every step from every state holds along every run. -/
theorem along_of_forall
    {good : State → Op → State → Prop}
    (every : ∀ state op next,
      step state op = some next → good state op next)
    (ops : List Op) (state : State) :
    Along step good state ops := by
  induction ops generalizing state with
  | nil => exact True.intro
  | cons op rest induction =>
      intro next stepped
      exact ⟨every state op next stepped, induction next⟩

theorem along_and
    {left right : State → Op → State → Prop}
    {ops : List Op} {state : State}
    (first : Along step left state ops)
    (second : Along step right state ops) :
    Along step
      (fun state op next => left state op next ∧ right state op next)
      state ops := by
  induction ops generalizing state with
  | nil => exact True.intro
  | cons op rest induction =>
      intro next stepped
      obtain ⟨isLeft, first⟩ := first next stepped
      obtain ⟨isRight, second⟩ := second next stepped
      exact ⟨⟨isLeft, isRight⟩, induction first second⟩

/--
The invariant rule: an invariant which every step meeting `good` preserves
holds in the last state of a run whose steps all meet `good`.
-/
theorem invariant_of_along
    {good : State → Op → State → Prop} {inv : State → Prop}
    (preserved : ∀ state op next,
      inv state → step state op = some next →
        good state op next → inv next)
    {ops : List Op} {state final : State}
    (start : inv state)
    (along : Along step good state ops)
    (reached : run step state ops = some final) :
    inv final := by
  induction ops generalizing state with
  | nil =>
      cases reached
      exact start
  | cons op rest induction =>
      obtain ⟨next, stepped, continued⟩ := run_cons_iff.mp reached
      obtain ⟨good, along⟩ := along next stepped
      exact induction (preserved state op next start stepped good)
        along continued

/-- The invariant rule for a system whose steps all preserve the invariant. -/
theorem invariant_of_run
    {inv : State → Prop}
    (preserved : ∀ state op next,
      inv state → step state op = some next → inv next)
    {ops : List Op} {state final : State}
    (start : inv state)
    (reached : run step state ops = some final) :
    inv final := by
  have along : Along step (fun _ _ _ => True) state ops :=
    along_of_forall (fun _ _ _ _ => True.intro) ops state
  exact
    invariant_of_along
      (fun state op next holds stepped _ =>
        preserved state op next holds stepped)
      start along reached

/-- What a step cannot bring about held at the start if it holds at the end. -/
theorem held_of_run
    {inv held : State → Prop}
    (preserved : ∀ state op next,
      inv state → step state op = some next → inv next)
    (before : ∀ state op next,
      inv state → step state op = some next → held next → held state)
    {ops : List Op} {state final : State}
    (start : inv state)
    (reached : run step state ops = some final)
    (last : held final) :
    held state := by
  induction ops generalizing state with
  | nil =>
      cases reached
      exact last
  | cons op rest induction =>
      obtain ⟨next, stepped, continued⟩ := run_cons_iff.mp reached
      exact
        before state op next start stepped
          (induction (preserved state op next start stepped) continued)

/--
The rule for a bound which no step restores: what the steps within the bound
satisfy holds along every run which ends within it.
-/
theorem along_of_bounded
    {good : State → Op → State → Prop} {inv bounded : State → Prop}
    (preserved : ∀ state op next,
      inv state → step state op = some next → inv next)
    (before : ∀ state op next,
      inv state → step state op = some next →
        bounded next → bounded state)
    (every : ∀ state op next,
      inv state → step state op = some next →
        bounded next → good state op next)
    {ops : List Op} {state final : State}
    (start : inv state)
    (reached : run step state ops = some final)
    (last : bounded final) :
    Along step good state ops := by
  induction ops generalizing state with
  | nil => exact True.intro
  | cons op rest induction =>
      intro next stepped
      obtain ⟨_, same, continued⟩ := run_cons_iff.mp reached
      cases stepped.symm.trans same
      have holds := preserved state op next start stepped
      have within := held_of_run preserved before holds continued last
      exact
        ⟨every state op next start stepped within,
          induction holds continued⟩

/-- The same for an invariant which holds within the bound. -/
theorem invariant_of_bounded
    {inv bounded holds : State → Prop}
    (preserved : ∀ state op next,
      inv state → step state op = some next → inv next)
    (before : ∀ state op next,
      inv state → step state op = some next →
        bounded next → bounded state)
    (kept : ∀ state op next,
      inv state → step state op = some next →
        bounded next → holds state → holds next)
    {ops : List Op} {state final : State}
    (start : inv state) (first : holds state)
    (reached : run step state ops = some final)
    (last : bounded final) :
    holds final := by
  have along :
      Along step (fun state _ next => holds state → holds next)
        state ops :=
    along_of_bounded preserved before kept start reached last
  exact
    invariant_of_along (fun _ _ _ held _ step => step held) first along
      reached

/--
Strengthening along a run: under an invariant which the steps meeting `good`
preserve, every step which meets `good` meets `better`.
-/
theorem along_mono
    {good better : State → Op → State → Prop} {inv : State → Prop}
    (preserved : ∀ state op next,
      inv state → step state op = some next →
        good state op next → inv next)
    (implied : ∀ state op next,
      inv state → step state op = some next →
        good state op next → better state op next)
    {ops : List Op} {state : State}
    (start : inv state)
    (along : Along step good state ops) :
    Along step better state ops := by
  induction ops generalizing state with
  | nil => exact True.intro
  | cons op rest induction =>
      intro next stepped
      obtain ⟨holds, along⟩ := along next stepped
      exact
        ⟨implied state op next start stepped holds,
          induction (preserved state op next start stepped holds) along⟩

/--
Two properties of a step which agree under an invariant of the system agree
along every run.
-/
theorem along_congr
    {left right : State → Op → State → Prop} {inv : State → Prop}
    (preserved : ∀ state op next,
      inv state → step state op = some next → inv next)
    (agree : ∀ state op next,
      inv state → step state op = some next →
        (left state op next ↔ right state op next))
    {ops : List Op} {state : State}
    (start : inv state) :
    Along step left state ops ↔ Along step right state ops := by
  constructor
  · exact along_mono
      (fun state op next holds stepped _ =>
        preserved state op next holds stepped)
      (fun state op next holds stepped =>
        (agree state op next holds stepped).mp)
      start
  · exact along_mono
      (fun state op next holds stepped _ =>
        preserved state op next holds stepped)
      (fun state op next holds stepped =>
        (agree state op next holds stepped).mpr)
      start

/--
Every state of a run is good, if and only if every step meets the condition
under which it leads from a good state to a good one.
-/
theorem along_good_iff
    {good : State → Prop} {condition : State → Op → State → Prop}
    (sufficient : ∀ state op next,
      good state → step state op = some next →
        condition state op next → good next)
    (necessary : ∀ state op next,
      good state → step state op = some next →
        good next → condition state op next)
    {ops : List Op} {state : State} (start : good state) :
    Along step (fun _ _ next => good next) state ops ↔
      Along step condition state ops := by
  constructor
  · intro along
    refine @along_mono State Op step _ _ good ?_ necessary _ _ start along
    exact fun _ _ _ _ _ after => after
  · exact along_mono sufficient sufficient start

/--
What holds at the start of a run holds at its end, or the event which alone
can end it has happened.
-/
theorem kept_or_happens
    {good event : State → Op → State → Prop} {inv kept : State → Prop}
    (preserved : ∀ state op next,
      inv state → step state op = some next → inv next)
    (steps : ∀ state op next,
      inv state → kept state → step state op = some next →
        good state op next → kept next ∨ event state op next)
    {ops : List Op} {state final : State}
    (start : inv state) (holds : kept state)
    (along : Along step good state ops)
    (reached : run step state ops = some final) :
    kept final ∨ Happens step event state ops := by
  induction ops generalizing state with
  | nil =>
      cases reached
      exact Or.inl holds
  | cons op rest induction =>
      obtain ⟨next, stepped, continued⟩ := run_cons_iff.mp reached
      obtain ⟨good, along⟩ := along next stepped
      rcases steps state op next start holds stepped good
        with still | now
      · rcases induction (preserved state op next start stepped) still
          along continued with last | later
        · exact Or.inl last
        · exact Or.inr ⟨next, stepped, Or.inr later⟩
      · exact Or.inr ⟨next, stepped, Or.inl now⟩

theorem happens_append
    {event : State → Op → State → Prop}
    {first second : List Op} {state middle : State}
    (reached : run step state first = some middle)
    (happens : Happens step event middle second) :
    Happens step event state (first ++ second) := by
  induction first generalizing state with
  | nil =>
      cases reached
      exact happens
  | cons op rest induction =>
      obtain ⟨next, stepped, continued⟩ := run_cons_iff.mp reached
      exact ⟨next, stepped, Or.inr (induction continued)⟩

/-- A mark which an event leaves, and which no step takes away. -/
theorem marked_of_happens
    {good event : State → Op → State → Prop} {mark : State → Prop}
    (caused : ∀ state op next,
      step state op = some next → good state op next →
        event state op next → mark next)
    (kept : ∀ state op next,
      mark state → step state op = some next → mark next)
    {ops : List Op} {state final : State}
    (along : Along step good state ops)
    (reached : run step state ops = some final)
    (happens : Happens step event state ops) :
    mark final := by
  induction ops generalizing state with
  | nil => exact happens.elim
  | cons op rest induction =>
      obtain ⟨next, stepped, nowOrLater⟩ := happens
      obtain ⟨_, same, continued⟩ := run_cons_iff.mp reached
      cases stepped.symm.trans same
      obtain ⟨good, along⟩ := along next stepped
      rcases nowOrLater with now | later
      · exact
          invariant_of_run kept (caused state op next stepped good now)
            continued
      · exact induction along continued later

end Vproc.Lib.Run
