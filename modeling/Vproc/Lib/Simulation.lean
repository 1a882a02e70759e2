import Vproc.Lib.Run

/-!
# Forward simulation

A system simulates another one if each step of the first has a counterpart in
the second.  The counterpart of an operation may depend on the state in which
it is done, so that an operation which fails can correspond to one which does
nothing.
-/

namespace Vproc.Lib.Simulation

open Vproc.Lib.Run

universe u v u' v'

variable {State : Type u} {Op : Type v} {State' : Type u'} {Op' : Type v'}
  {step : State → Op → Option State} {step' : State' → Op' → Option State'}
  {view : State → Op → Op'}

/-- A run which goes on for one step. -/
theorem run_snoc
    {ops : List Op} {op : Op} {state middle final : State}
    (reached : run step state ops = some middle)
    (stepped : step middle op = some final) :
    run step state (ops ++ [op]) = some final :=
  run_trans reached (run_cons_iff.mpr ⟨final, stepped, rfl⟩)

/-- The operations of another system which correspond to those of a run. -/
def views (step : State → Op → Option State) (view : State → Op → Op') :
    State → List Op → List Op'
  | _, [] => []
  | state, op :: rest =>
      view state op ::
        match step state op with
        | none => []
        | some next => views step view next rest

/--
Forward simulation: if every step has a counterpart, every run has one, and
what holds in its states holds in those of the counterpart.
-/
theorem simulated_run
    {relates : State → State' → Prop}
    {good : State → Prop} {good' : State' → Prop}
    (simulates : ∀ state op next state',
      relates state state' → step state op = some next →
        ∃ next', step' state' (view state op) = some next' ∧
          relates next next')
    (carries : ∀ state state',
      relates state state' → good state → good' state')
    {ops : List Op} {state final : State} {state' : State'}
    (start : relates state state')
    (reached : run step state ops = some final)
    (along : Along step (fun _ _ next => good next) state ops) :
    ∃ final',
      run step' state' (views step view state ops) = some final' ∧
        relates final final' ∧
        Along step' (fun _ _ next' => good' next') state'
          (views step view state ops) := by
  induction ops generalizing state state' with
  | nil =>
      cases reached
      exact ⟨state', rfl, start, True.intro⟩
  | cons op rest induction =>
      obtain ⟨next, stepped, continued⟩ := run_cons_iff.mp reached
      obtain ⟨isGood, along⟩ := along next stepped
      obtain ⟨next', stepped', related⟩ :=
        simulates state op next state' start stepped
      obtain ⟨final', reached', last, along'⟩ :=
        induction related continued along
      have same :
          views step view state (op :: rest) =
            view state op :: views step view next rest := by
        rw [views, stepped]
      rw [same]
      refine ⟨final', run_cons_iff.mpr ⟨next', stepped', reached'⟩, last, ?_⟩
      intro other isOther
      cases stepped'.symm.trans isOther
      exact ⟨carries next next' related isGood, along'⟩

end Vproc.Lib.Simulation
