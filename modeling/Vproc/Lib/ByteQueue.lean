import Mathlib

/-!
# A bounded first-in first-out queue, and simulation of its clients

The abstract side of a pipe: a list of items in the order they were accepted,
a capacity, and a flag which stops further writing.  Reads deliver into a
caller's list and leave the rest of it alone, so every call has an output: the
number it returns and the caller's list afterwards.

`trace` runs any machine with outputs over a list of calls.  A map between two
machines which commutes with every single call carries whole traces over, and
the bytes accepted by a trace from the empty queue are the bytes delivered
followed by the bytes still queued.
-/

namespace Vproc.Lib.ByteQueue

universe u v

/-! ## Machines with outputs -/

section Trace

variable {State : Type u} {Spec : Type v} {Call Output : Type}

/-- The last state and all outputs of a list of calls. -/
def trace (step : State → Call → State × Output) :
    State → List Call → State × List Output
  | state, [] => (state, [])
  | state, call :: rest =>
      let stepped := step state call
      let continued := trace step stepped.1 rest
      (continued.1, stepped.2 :: continued.2)

/-- A map which commutes with every call commutes with every trace. -/
theorem trace_simulation
    {step : State → Call → State × Output}
    {specStep : Spec → Call → Spec × Output}
    (abstraction : State → Spec)
    (commutes : ∀ state call,
      specStep (abstraction state) call =
        (abstraction (step state call).1, (step state call).2))
    (calls : List Call) (state : State) :
    trace specStep (abstraction state) calls =
      (abstraction (trace step state calls).1,
        (trace step state calls).2) := by
  induction calls generalizing state with
  | nil => rfl
  | cons call rest induction =>
      simp only [trace, commutes, induction]

end Trace

/-! ## The queue -/

variable {Item : Type}

/-- Accepted but not yet delivered items, oldest first. -/
structure Queue (Item : Type) where
  items : List Item
  closed : Bool
deriving DecidableEq, Repr

/-- A queue into which nothing has been written. -/
def Queue.empty : Queue Item :=
  { items := [], closed := false }

/-- One call of a client. -/
inductive Call (Item : Type) where
  | read (dest : List Item)
  | write (source : List Item)
  | close
deriving DecidableEq, Repr

/-- What a call returns, and the caller's list after it. -/
structure Output (Item : Type) where
  result : Int
  dest : List Item
deriving DecidableEq, Repr

/-- Deliver the oldest items, as many as there are and as `dest` holds. -/
def Queue.read (queue : Queue Item) (dest : List Item) :
    Queue Item × Output Item :=
  if queue.items = [] then
    (queue, { result := if queue.closed then 0 else -1, dest := dest })
  else
    let count := min dest.length queue.items.length
    ({ queue with items := queue.items.drop count },
      { result := count
        dest := queue.items.take count ++ dest.drop count })

/-- Accept items from the front of `source` until the capacity is reached. -/
def Queue.write (cap : Nat) (queue : Queue Item) (source : List Item) :
    Queue Item × Output Item :=
  if queue.closed = true ∨ queue.items.length = cap then
    (queue, { result := -1, dest := [] })
  else
    let count := min source.length (cap - queue.items.length)
    ({ queue with items := queue.items ++ source.take count },
      { result := count, dest := [] })

/-- One call against a queue of the given capacity. -/
def Queue.step (cap : Nat) (queue : Queue Item) :
    Call Item → Queue Item × Output Item
  | .read dest => queue.read dest
  | .write source => queue.write cap source
  | .close =>
      ({ queue with closed := true }, { result := 0, dest := [] })

/-! ## What was accepted and what was delivered -/

/-- The items a call has put into the queue, by its returned count. -/
def Call.accepted : Call Item → Output Item → List Item
  | .write source, output => source.take output.result.toNat
  | _, _ => []

/-- The items a call has handed to its caller, by its returned count. -/
def Call.delivered : Call Item → Output Item → List Item
  | .read _, output => output.dest.take output.result.toNat
  | _, _ => []

/-- All items accepted over a list of calls, in order. -/
def accepted : List (Call Item) → List (Output Item) → List Item
  | call :: calls, output :: outputs =>
      call.accepted output ++ accepted calls outputs
  | _, _ => []

/-- All items delivered over a list of calls, in order. -/
def delivered : List (Call Item) → List (Output Item) → List Item
  | call :: calls, output :: outputs =>
      call.delivered output ++ delivered calls outputs
  | _, _ => []

/-- One call moves items through the queue without losing any. -/
theorem Queue.step_conserves
    (cap : Nat) (queue : Queue Item) (call : Call Item) :
    queue.items ++ call.accepted (queue.step cap call).2 =
      call.delivered (queue.step cap call).2 ++
        (queue.step cap call).1.items := by
  cases call with
  | close => simp [Queue.step, Call.accepted, Call.delivered]
  | write source =>
      simp only [Queue.step, Queue.write, Call.accepted, Call.delivered]
      split
      · simp
      · simp only [Int.toNat_natCast, List.nil_append]
  | read dest =>
      simp only [Queue.step, Queue.read, Call.accepted, Call.delivered,
        List.append_nil]
      split
      · rename_i empty
        split <;> simp [empty]
      · have enough :
            ((queue.items.take
                (min dest.length queue.items.length)).length) =
              min dest.length queue.items.length := by
          simp
        simp only [Int.toNat_natCast]
        rw [List.take_left' enough]
        exact (List.take_append_drop _ _).symm

/--
Conservation: what was queued before a trace and what the trace accepts is,
in this order, what it delivers and what is queued after it.
-/
theorem Queue.trace_conserves
    (cap : Nat) (calls : List (Call Item)) (queue : Queue Item) :
    queue.items ++
        accepted calls (trace (Queue.step cap) queue calls).2 =
      delivered calls (trace (Queue.step cap) queue calls).2 ++
        (trace (Queue.step cap) queue calls).1.items := by
  induction calls generalizing queue with
  | nil => simp [trace, accepted, delivered]
  | cons call rest induction =>
      simp only [trace, accepted, delivered]
      rw [← List.append_assoc, Queue.step_conserves, List.append_assoc,
        induction, List.append_assoc]

end Vproc.Lib.ByteQueue
