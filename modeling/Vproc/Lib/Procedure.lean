import Mathlib

/-!
# Procedures which leave a trace

A procedure does things which can be seen from outside, one after the other,
and then returns, fails with a message, or comes to a fault: a sum which does
not fit into a machine word, or a slice which is not there.  What it has done
before it fails stays done.

A procedure meets a specification if everything it does is allowed, its result
is as wanted, and it comes to no fault, apart from those other than an overflow
where they are allowed.  For each of the ways to put procedures together there
is an equivalence, so that the exact condition under which a procedure meets a
specification is found by rewriting.
-/

namespace Vproc.Lib.Procedure

/-- What must not happen in exact arithmetic on machine words. -/
inductive Fault where
  | overflow
  | slice
  | capacity
deriving DecidableEq, Repr

/-- How a procedure ends. -/
inductive Outcome (Result : Type) where
  | ok (result : Result)
  | err (message : String)
  | fault (fault : Fault)
deriving DecidableEq, Repr

/-- What a procedure has done, and how it has ended. -/
structure Traced (Event Result : Type) where
  events : List Event
  outcome : Outcome Result
deriving Repr

namespace Traced

variable {Event First Second Result Item : Type}

/-! ## Building procedures -/

protected def pure (result : Result) : Traced Event Result where
  events := []
  outcome := .ok result

/-- One procedure after the other. -/
protected def bind (first : Traced Event First)
    (next : First → Traced Event Second) : Traced Event Second :=
  match first.outcome with
  | .ok result =>
      { events := first.events ++ (next result).events
        outcome := (next result).outcome }
  | .err message => { events := first.events, outcome := .err message }
  | .fault fault => { events := first.events, outcome := .fault fault }

instance : Monad (Traced Event) where
  pure := Traced.pure
  bind := Traced.bind

/-- Do one thing. -/
def emit (event : Event) : Traced Event Unit where
  events := [event]
  outcome := .ok ()

def fail (message : String) : Traced Event Result where
  events := []
  outcome := .err message

def stop (fault : Fault) : Traced Event Result where
  events := []
  outcome := .fault fault

/-- A computation which does nothing that can be seen. -/
def lift : Except String Result → Traced Event Result
  | .ok result => pure result
  | .error message => fail message

/-- The loop over a list. -/
def forEach (body : Item → Traced Event Unit) :
    List Item → Traced Event Unit
  | [] => pure ()
  | item :: rest => do
      body item
      forEach body rest

/-! ## Machine words -/

/-- A sum which has to fit into 64 bits. -/
def add (left right : Nat) : Traced Event Nat :=
  if left + right < 2 ^ 64 then pure (left + right) else stop .overflow

/-- A product which has to fit into 64 bits. -/
def mul (left right : Nat) : Traced Event Nat :=
  if left * right < 2 ^ 64 then pure (left * right) else stop .overflow

/-- A difference which must not be negative. -/
def sub (left right : Nat) : Traced Event Nat :=
  if right ≤ left then pure (left - right) else stop .overflow

/-- The items from `first` on and before `last`. -/
def slice (items : List Item) (first last : Nat) :
    Traced Event (List Item) :=
  if first ≤ last ∧ last ≤ items.length then
    pure ((items.drop first).take (last - first))
  else stop .slice

/-! ## Meeting a specification -/

/-- What a procedure may do, and if it may come to a fault but an overflow. -/
structure Allowed (Event : Type) where
  event : Event → Prop
  otherFaults : Prop

/-- Only these events, and no fault. -/
def Allowed.only (event : Event → Prop) : Allowed Event where
  event := event
  otherFaults := False

/-- Only these events, and no overflow. -/
def Allowed.unlessOverflow (event : Event → Prop) : Allowed Event where
  event := event
  otherFaults := True

/-- Every event, and no fault. -/
def Allowed.noFault : Allowed Event :=
  .only fun _ => True

@[simp]
theorem Allowed.event_only (event : Event → Prop) :
    (Allowed.only event).event = event := rfl

@[simp]
theorem Allowed.event_noFault (event : Event) :
    Allowed.noFault.event event := True.intro

@[simp]
theorem Allowed.event_unlessOverflow (event : Event → Prop) :
    (Allowed.unlessOverflow event).event = event := rfl

/-- The faults which are allowed. -/
def Allowed.fault (allowed : Allowed Event) : Fault → Prop
  | .overflow => False
  | _ => allowed.otherFaults

/-- Everything that is done is allowed, and the result is right. -/
def Meets (allowed : Allowed Event) (post : Result → Prop)
    (procedure : Traced Event Result) : Prop :=
  (∀ event ∈ procedure.events, allowed.event event) ∧
    match procedure.outcome with
    | .ok result => post result
    | .err _ => True
    | .fault fault => allowed.fault fault

/-- The procedure comes to its end with a result. -/
def Returns (procedure : Traced Event Result) (result : Result) : Prop :=
  procedure.outcome = .ok result

variable {allowed : Allowed Event}

@[simp]
theorem meets_pure {post : Result → Prop} (result : Result) :
    Meets allowed post (pure result : Traced Event Result) ↔
      post result := by
  change (∀ event ∈ [], allowed.event event) ∧ post result ↔ post result
  simp

@[simp]
theorem meets_emit {post : Unit → Prop} (event : Event) :
    Meets allowed post (emit event) ↔ allowed.event event ∧ post () := by
  simp [Meets, emit]

@[simp]
theorem meets_fail {post : Result → Prop} (message : String) :
    Meets allowed post (fail message) := by
  simp [Meets, fail]

@[simp]
theorem meets_stop {post : Result → Prop} (reason : Fault) :
    Meets allowed post (stop reason) ↔ allowed.fault reason := by
  simp [Meets, stop]

/-- What the second procedure has to meet is for the first to bring about. -/
@[simp]
theorem meets_bind
    {post : Second → Prop} (first : Traced Event First)
    (next : First → Traced Event Second) :
    Meets allowed post (first >>= next) ↔
      Meets allowed (fun result => Meets allowed post (next result))
        first := by
  change Meets allowed post (first.bind next) ↔ _
  obtain ⟨events, outcome⟩ := first
  cases outcome with
  | ok result =>
      simp only [Meets, Traced.bind, List.forall_mem_append, and_assoc]
  | err message => exact Iff.rfl
  | fault reason => exact Iff.rfl

@[simp]
theorem meets_ite
    {post : Result → Prop} {condition : Prop} [Decidable condition]
    (yes no : Traced Event Result) :
    Meets allowed post (if condition then yes else no) ↔
      (condition → Meets allowed post yes) ∧
        (¬ condition → Meets allowed post no) := by
  by_cases holds : condition <;> simp [holds]

@[simp]
theorem meets_lift {post : Result → Prop} (result : Except String Result) :
    Meets allowed post (lift result) ↔
      ∀ value, result = .ok value → post value := by
  cases result with
  | ok value =>
      refine (meets_pure value).trans ?_
      simp
  | error message => simp [lift]

/-- A procedure with one result returns it if and only if it has to be right. -/
theorem returns_iff
    {procedure : Traced Event Result} {condition : Prop} {value : Result}
    (spec : ∀ post : Result → Prop,
      Meets .noFault post procedure ↔ (condition → post value))
    (result : Result) :
    Returns procedure result ↔ condition ∧ result = value := by
  have noFault := (spec fun _ => True).mpr fun _ => True.intro
  have isValue := (spec (· = value)).mpr fun _ => rfl
  have never := spec fun _ => False
  obtain ⟨events, outcome⟩ := procedure
  cases outcome with
  | ok returned =>
      obtain rfl : returned = value := isValue.2
      have holds : condition := by
        by_contra fails
        exact (never.mpr fun holds => fails holds).2
      simp [Returns, holds, eq_comm]
  | err message =>
      have fails : ¬ condition := never.mp ⟨fun _ _ => True.intro, True.intro⟩
      simp [Returns, fails]
  | fault reason => cases reason <;> exact noFault.2.elim

/-- If the procedure comes to no other fault, its events are what counts. -/
theorem meets_iff_events
    {procedure : Traced Event Result}
    (excused : ∀ fault, procedure.outcome = .fault fault →
      allowed.fault fault) :
    Meets allowed (fun _ => True) procedure ↔
      ∀ event ∈ procedure.events, allowed.event event := by
  obtain ⟨events, outcome⟩ := procedure
  refine and_iff_left ?_
  cases outcome with
  | ok result => exact True.intro
  | err message => exact True.intro
  | fault reason => exact excused reason rfl

@[simp]
theorem meets_forEach_nil
    {post : Unit → Prop} (body : Item → Traced Event Unit) :
    Meets allowed post (forEach body []) ↔ post () :=
  meets_pure ()

/-- The first round has to bring about what the others have to meet. -/
@[simp]
theorem meets_forEach_cons
    {post : Unit → Prop} (body : Item → Traced Event Unit) (item : Item)
    (rest : List Item) :
    Meets allowed post (forEach body (item :: rest)) ↔
      Meets allowed (fun _ => Meets allowed post (forEach body rest))
        (body item) :=
  meets_bind _ _

/-! ## Coming to the end -/

/-- The procedure does these things, and ends with this result. -/
def Completes (procedure : Traced Event Result) (events : List Event)
    (result : Result) : Prop :=
  procedure = { events := events, outcome := .ok result }

theorem completes_of_returns
    {procedure : Traced Event Result} {result : Result}
    (returns : Returns procedure result) :
    Completes procedure procedure.events result := by
  obtain ⟨events, outcome⟩ := procedure
  cases returns
  rfl

section Completes

variable {events : List Event} {result : Result}

@[simp]
theorem completes_pure (value : Result) :
    Completes (pure value : Traced Event Result) events result ↔
      events = [] ∧ result = value := by
  change Traced.pure value = _ ↔ _
  simp [Traced.pure, eq_comm]

@[simp]
theorem completes_emit (event : Event) (done : Unit) :
    Completes (emit event) events done ↔ events = [event] := by
  simp [Completes, emit, eq_comm]

@[simp]
theorem completes_fail (message : String) :
    ¬ Completes (fail message) events result := by
  simp [Completes, fail]

@[simp]
theorem completes_stop (reason : Fault) :
    ¬ Completes (stop reason) events result := by
  simp [Completes, stop]

/-- There is one way to come to the end. -/
theorem completes_unique
    {procedure : Traced Event Result} {other : List Event} {last : Result}
    (completes : Completes procedure events result)
    (again : Completes procedure other last) :
    events = other ∧ result = last := by
  obtain ⟨rfl, same⟩ := Traced.mk.inj (completes.symm.trans again)
  exact ⟨rfl, Outcome.ok.inj same⟩

/-- What has been done, if nothing stands in the way of meeting this. -/
theorem forall_events_of_completes
    {procedure : Traced Event Result} {event : Event → Prop}
    (completes : Completes procedure events result)
    (meets :
      Meets (.unlessOverflow fun _ => True) (fun _ => True) procedure →
        Meets (.unlessOverflow event) (fun _ => True) procedure) :
    ∀ done ∈ events, event done := by
  rw [completes] at meets
  exact (meets ⟨fun _ _ => True.intro, True.intro⟩).1

/-- What holds of the result, if nothing stands in the way of meeting this. -/
theorem post_of_returns
    {procedure : Traced Event Result} {post : Result → Prop}
    (returns : Returns procedure result)
    (meets :
      Meets (.unlessOverflow fun _ => True) (fun _ => True) procedure →
        Meets (.unlessOverflow fun _ => True) post procedure) :
    post result := by
  rw [completes_of_returns returns] at meets
  exact (meets ⟨fun _ _ => True.intro, True.intro⟩).2

/-- Both procedures come to their ends, with what they do in turn. -/
theorem completes_bind
    {last : Second} (first : Traced Event First)
    (next : First → Traced Event Second) :
    Completes (first >>= next) events last ↔
      ∃ before middle after, Completes first before middle ∧
        Completes (next middle) after last ∧ events = before ++ after := by
  change first.bind next = _ ↔ _
  obtain ⟨done, outcome⟩ := first
  constructor
  · intro completes
    cases outcome with
    | ok middle =>
        obtain ⟨rfl, ended⟩ := Traced.mk.inj completes
        refine ⟨done, middle, (next middle).events, rfl, ?_, rfl⟩
        exact completes_of_returns ended
    | err message => cases (Traced.mk.inj completes).2
    | fault reason => cases (Traced.mk.inj completes).2
  · rintro ⟨before, middle, after, isFirst, isNext, rfl⟩
    obtain ⟨rfl, rfl⟩ := Traced.mk.inj isFirst
    dsimp only [Traced.bind]
    rw [isNext]

/-- A first procedure with one result, which does nothing. -/
theorem completes_bind_of_quiet
    {last : Second} {first : Traced Event First}
    {next : First → Traced Event Second} {condition : Prop} {value : First}
    (quiet : ∀ before middle, Completes first before middle ↔
      condition ∧ before = [] ∧ middle = value) :
    Completes (first >>= next) events last ↔
      condition ∧ Completes (next value) events last := by
  rw [completes_bind]
  simp only [quiet]
  constructor
  · rintro ⟨_, _, _, ⟨holds, rfl, rfl⟩, isNext, rfl⟩
    exact ⟨holds, isNext⟩
  · rintro ⟨holds, isNext⟩
    exact ⟨[], value, events, ⟨holds, rfl, rfl⟩, isNext, rfl⟩

@[simp]
theorem completes_emit_bind
    {last : Second} (event : Event) (next : Unit → Traced Event Second) :
    Completes (emit event >>= next) events last ↔
      ∃ after, Completes (next ()) after last ∧ events = event :: after := by
  simp only [completes_bind, completes_emit]
  constructor
  · rintro ⟨_, _, after, rfl, isNext, rfl⟩
    exact ⟨after, isNext, rfl⟩
  · rintro ⟨after, isNext, rfl⟩
    exact ⟨[event], (), after, rfl, isNext, rfl⟩

@[simp]
theorem completes_ite
    {condition : Prop} [Decidable condition]
    (yes no : Traced Event Result) :
    Completes (if condition then yes else no) events result ↔
      condition ∧ Completes yes events result ∨
        ¬ condition ∧ Completes no events result := by
  by_cases holds : condition <;> simp [holds]

@[simp]
theorem completes_lift (value : Except String Result) :
    Completes (lift value : Traced Event Result) events result ↔
      events = [] ∧ value = .ok result := by
  cases value with
  | ok value =>
      refine (completes_pure value).trans ?_
      simp [eq_comm]
  | error message => simp [lift]

@[simp]
theorem completes_lift_bind
    {last : Second} {value : Except String First}
    {next : First → Traced Event Second} :
    Completes (lift value >>= next) events last ↔
      ∃ middle, value = .ok middle ∧ Completes (next middle) events last := by
  simp only [completes_bind, completes_lift]
  constructor
  · rintro ⟨_, middle, _, ⟨rfl, isOk⟩, isNext, rfl⟩
    exact ⟨middle, isOk, isNext⟩
  · rintro ⟨middle, isOk, isNext⟩
    exact ⟨[], middle, events, ⟨rfl, isOk⟩, isNext, rfl⟩

/-- A loop of which each round is known. -/
theorem completes_forEach
    {body : Item → Traced Event Unit} {needs : Item → Prop}
    {does : Item → List Event}
    (round : ∀ item events,
      Completes (body item) events () ↔ needs item ∧ events = does item)
    {items : List Item} :
    Completes (forEach body items) events () ↔
      (∀ item ∈ items, needs item) ∧ events = items.flatMap does := by
  induction items generalizing events with
  | nil => simp [forEach]
  | cons item rest induction =>
      simp only [forEach, completes_bind, round, induction,
        List.forall_mem_cons, List.flatMap_cons]
      constructor
      · rintro ⟨_, _, _, ⟨here, rfl⟩, ⟨later, rfl⟩, rfl⟩
        exact ⟨⟨here, later⟩, rfl⟩
      · rintro ⟨⟨here, later⟩, rfl⟩
        exact ⟨_, (), _, ⟨here, rfl⟩, ⟨later, rfl⟩, rfl⟩

end Completes

/-! ## Arithmetic which meets a specification -/

section Arithmetic

variable (left right : Nat)

@[simp]
theorem meets_add {post : Nat → Prop} :
    Meets allowed post (add left right : Traced Event Nat) ↔
      left + right < 2 ^ 64 ∧ post (left + right) := by
  unfold add
  split
  · rename_i fits
    exact (meets_pure _).trans (and_iff_right fits).symm
  · rename_i large
    exact iff_of_false (meets_stop _).mp fun both => large both.1

@[simp]
theorem meets_mul {post : Nat → Prop} :
    Meets allowed post (mul left right : Traced Event Nat) ↔
      left * right < 2 ^ 64 ∧ post (left * right) := by
  unfold mul
  split
  · rename_i fits
    exact (meets_pure _).trans (and_iff_right fits).symm
  · rename_i large
    exact iff_of_false (meets_stop _).mp fun both => large both.1

@[simp]
theorem meets_sub {post : Nat → Prop} :
    Meets allowed post (sub left right : Traced Event Nat) ↔
      right ≤ left ∧ post (left - right) := by
  unfold sub
  split
  · rename_i fits
    exact (meets_pure _).trans (and_iff_right fits).symm
  · rename_i negative
    exact iff_of_false (meets_stop _).mp fun both => negative both.1

section Completes

variable {left right} {events : List Event}

@[simp]
theorem completes_add {result : Nat} :
    Completes (add left right : Traced Event Nat) events result ↔
      left + right < 2 ^ 64 ∧ events = [] ∧ result = left + right := by
  simp [add]

@[simp]
theorem completes_add_bind
    {last : Result} {next : Nat → Traced Event Result} :
    Completes (add left right >>= next) events last ↔
      left + right < 2 ^ 64 ∧
        Completes (next (left + right)) events last :=
  completes_bind_of_quiet fun _ _ => completes_add

@[simp]
theorem completes_sub {result : Nat} :
    Completes (sub left right : Traced Event Nat) events result ↔
      right ≤ left ∧ events = [] ∧ result = left - right := by
  simp [sub]

@[simp]
theorem completes_sub_bind
    {last : Result} {next : Nat → Traced Event Result} :
    Completes (sub left right >>= next) events last ↔
      right ≤ left ∧ Completes (next (left - right)) events last :=
  completes_bind_of_quiet fun _ _ => completes_sub

end Completes

end Arithmetic

@[simp]
theorem meets_slice
    {post : List Item → Prop} (items : List Item) (first last : Nat) :
    Meets allowed post
        (slice items first last : Traced Event (List Item)) ↔
      (first ≤ last ∧ last ≤ items.length →
          post ((items.drop first).take (last - first))) ∧
        (¬ (first ≤ last ∧ last ≤ items.length) →
          allowed.otherFaults) := by
  simp only [slice, meets_ite, meets_pure, meets_stop, Allowed.fault]

@[simp]
theorem completes_slice_bind
    {events : List Event} {last : Result} {items : List Item}
    {first stop : Nat} {next : List Item → Traced Event Result} :
    Completes (slice items first stop >>= next) events last ↔
      (first ≤ stop ∧ stop ≤ items.length) ∧
        Completes (next ((items.drop first).take (stop - first)))
          events last := by
  refine completes_bind_of_quiet fun before middle => ?_
  simp [slice]

end Traced

end Vproc.Lib.Procedure
