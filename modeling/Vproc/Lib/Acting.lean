import Vproc.Lib.Procedure
import Vproc.Lib.Run

/-!
# Procedures which act on a state

The events of a procedure are done to a state, one after the other, by a step
function which may refuse one.  A procedure acts if none of its events is
refused, however it ends; what it leaves matters only if it returns.

Most procedures do nothing to the state.  After such a procedure the state is
what it was, and a specification which it meets says what it returns.
-/

namespace Vproc.Lib.Acting

open Vproc.Lib.Procedure
open Vproc.Lib.Procedure.Traced
open Vproc.Lib.Run

variable {Event State First Second Result Item : Type}

/-- No event is refused, and what is left is right if the procedure returns. -/
def Acts (step : State → Event → Option State)
    (post : Result → State → Prop) (state : State)
    (procedure : Traced Event Result) : Prop :=
  ∃ after, run step state procedure.events = some after ∧
    ∀ result, procedure.outcome = .ok result → post result after

variable {step : State → Event → Option State} {state : State}

/-! ## Acting -/

section Acts

variable {post : Result → State → Prop}

@[simp]
theorem acts_stop (reason : Fault) :
    Acts step post state (stop reason) := by
  simp [Acts, stop, run]

end Acts

/-! ## Doing nothing -/

section Idle

end Idle

end Vproc.Lib.Acting
