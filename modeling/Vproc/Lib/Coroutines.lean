import Vproc.Lib.Run

/-!
# Coroutines which resume each other

A machine with one processor and any number of coroutines.  A coroutine which
is resumed runs until it yields or ends, and whoever resumed it goes on then.
So the active coroutines form a chain, the innermost one first, each with the
continuation of its resumer.  A suspended coroutine has a continuation of its
own.

Continuations are values of any type; `leave` is what becomes of the one the
processor works on when it is left.
-/

namespace Vproc.Lib.Coroutines

open Vproc.Lib.Run

universe u v

/-- Where a coroutine is. -/
inductive Place (Cont : Type v) where
  | suspended (cont : Cont)
  | active
  | dead
deriving DecidableEq

/-- What the processor works on, and what is left for later. -/
structure Machine (Id : Type u) (Cont : Type v) where
  now : Cont
  place : Id → Option (Place Cont)
  chain : List (Id × Cont)

inductive Op (Id : Type u) (Cont : Type v) where
  | execute (cont : Cont)
  | add (id : Id) (cont : Cont)
  | resume (id : Id)
  | yield
  | finish
  | remove (id : Id)

section Steps

variable {Id : Type u} {Cont : Type v} [DecidableEq Id]

def Machine.setPlace (machine : Machine Id Cont) (id : Id)
    (place : Option (Place Cont)) : Machine Id Cont :=
  { machine with place := Function.update machine.place id place }

@[simp]
theorem place_setPlace_self
    (machine : Machine Id Cont) (id : Id) (place : Option (Place Cont)) :
    (machine.setPlace id place).place id = place :=
  Function.update_self ..

theorem place_setPlace_of_ne
    {id other : Id} (differs : other ≠ id)
    (machine : Machine Id Cont) (place : Option (Place Cont)) :
    (machine.setPlace id place).place other = machine.place other :=
  Function.update_of_ne differs ..

@[simp]
theorem chain_setPlace
    (machine : Machine Id Cont) (id : Id) (place : Option (Place Cont)) :
    (machine.setPlace id place).chain = machine.chain :=
  rfl

/-- The innermost coroutine is left for its resumer. -/
def jumpOut (machine : Machine Id Cont) (place : Place Cont) :
    Option (Machine Id Cont) :=
  match machine.chain with
  | [] => none
  | (id, back) :: rest =>
      some { machine.setPlace id (some place) with now := back, chain := rest }

/-- One step; none if it is not possible. -/
def step (leave : Cont → Cont) (machine : Machine Id Cont) :
    Op Id Cont → Option (Machine Id Cont)
  | .execute cont => some { machine with now := cont }
  | .add id cont =>
      match machine.place id with
      | none => some (machine.setPlace id (some (.suspended cont)))
      | some _ => none
  | .resume id =>
      match machine.place id with
      | some (.suspended cont) =>
          some
            { machine.setPlace id (some .active) with
              now := cont
              chain := (id, leave machine.now) :: machine.chain }
      | _ => none
  | .yield => jumpOut machine (.suspended (leave machine.now))
  | .finish => jumpOut machine .dead
  | .remove id =>
      match machine.place id with
      | some (.suspended _) | some .dead => some (machine.setPlace id none)
      | _ => none

/-! ## What a step can do -/

variable {leave : Cont → Cont} {machine next : Machine Id Cont}

theorem jumpOut_eq_some_iff {place : Place Cont} :
    jumpOut machine place = some next ↔
      ∃ id back rest, machine.chain = (id, back) :: rest ∧
        next =
          { machine.setPlace id (some place) with
            now := back, chain := rest } := by
  unfold jumpOut
  split
  · rename_i empty
    simp [empty]
  · rename_i id back rest isChain
    rw [Option.some.injEq, isChain]
    constructor
    · rintro rfl
      exact ⟨id, back, rest, rfl, rfl⟩
    · rintro ⟨_, _, _, same, rfl⟩
      cases same
      rfl

/-- How a step changes the places and the chain. -/
inductive Change (leave : Cont → Cont) (machine next : Machine Id Cont) :
    Prop where
  | stays (place : next.place = machine.place)
      (chain : next.chain = machine.chain)
  | adds (id : Id) (cont : Cont) (absent : machine.place id = none)
      (next_eq : next = machine.setPlace id (some (.suspended cont)))
  | resumes (id : Id) (cont : Cont)
      (suspended : machine.place id = some (.suspended cont))
      (next_eq : next =
        { machine.setPlace id (some .active) with
          now := cont, chain := (id, leave machine.now) :: machine.chain })
  | leaves (id : Id) (back : Cont) (rest : List (Id × Cont))
      (place : Place Cont) (inactive : place ≠ .active)
      (chain : machine.chain = (id, back) :: rest)
      (next_eq : next =
        { machine.setPlace id (some place) with now := back, chain := rest })
  | removes (id : Id) (inactive : machine.place id ≠ some .active)
      (present : machine.place id ≠ none)
      (next_eq : next = machine.setPlace id none)

theorem change_of_step
    {op : Op Id Cont} (stepped : step leave machine op = some next) :
    Change leave machine next := by
  cases op with
  | execute cont =>
      cases stepped
      exact .stays rfl rfl
  | add id cont =>
      cases isPlace : machine.place id with
      | none =>
          simp only [step, isPlace, Option.some.injEq] at stepped
          exact .adds id cont isPlace stepped.symm
      | some place => simp [step, isPlace] at stepped
  | resume id =>
      cases isPlace : machine.place id with
      | none => simp [step, isPlace] at stepped
      | some place =>
          cases place with
          | suspended cont =>
              simp only [step, isPlace, Option.some.injEq] at stepped
              exact .resumes id cont isPlace stepped.symm
          | active => simp [step, isPlace] at stepped
          | dead => simp [step, isPlace] at stepped
  | yield =>
      obtain ⟨id, back, rest, chain, rfl⟩ := jumpOut_eq_some_iff.mp stepped
      exact .leaves id back rest _ (by simp) chain rfl
  | finish =>
      obtain ⟨id, back, rest, chain, rfl⟩ := jumpOut_eq_some_iff.mp stepped
      exact .leaves id back rest _ (by simp) chain rfl
  | remove id =>
      cases isPlace : machine.place id with
      | none => simp [step, isPlace] at stepped
      | some place =>
          cases place with
          | active => simp [step, isPlace] at stepped
          | suspended cont =>
              simp only [step, isPlace, Option.some.injEq] at stepped
              exact
                .removes id (by simp [isPlace]) (by simp [isPlace])
                  stepped.symm
          | dead =>
              simp only [step, isPlace, Option.some.injEq] at stepped
              exact
                .removes id (by simp [isPlace]) (by simp [isPlace])
                  stepped.symm

/-! ## The chain -/

/-- The active coroutines are those of the chain, and each is there once. -/
structure WellFormed (machine : Machine Id Cont) : Prop where
  active_iff : ∀ id, machine.place id = some .active ↔
    id ∈ machine.chain.map Prod.fst
  nodup : (machine.chain.map Prod.fst).Nodup

theorem wellFormed_change
    (wellFormed : WellFormed machine) (change : Change leave machine next) :
    WellFormed next := by
  cases change with
  | stays place chain =>
      constructor
      · rw [place, chain]
        exact wellFormed.active_iff
      · rw [chain]
        exact wellFormed.nodup
  | adds id cont absent next_eq =>
      subst next_eq
      refine ⟨fun other => ?_, wellFormed.nodup⟩
      have outside : id ∉ machine.chain.map Prod.fst := by
        rw [← wellFormed.active_iff, absent]
        simp
      by_cases same : other = id
      · subst same
        simpa using outside
      · rw [place_setPlace_of_ne same]
        exact wellFormed.active_iff other
  | resumes id cont suspended next_eq =>
      subst next_eq
      have outside : id ∉ machine.chain.map Prod.fst := by
        rw [← wellFormed.active_iff, suspended]
        simp
      refine ⟨fun other => ?_, List.nodup_cons.mpr ⟨outside, wellFormed.nodup⟩⟩
      rw [List.map_cons, List.mem_cons]
      by_cases same : other = id
      · subst same
        simp
      · rw [← wellFormed.active_iff other]
        exact
          ⟨fun active =>
              .inr ((place_setPlace_of_ne same machine _).symm.trans active),
            fun either =>
              (place_setPlace_of_ne same machine _).trans
                (either.resolve_left same)⟩
  | leaves id back rest place inactive chain next_eq =>
      subst next_eq
      have nodup := wellFormed.nodup
      rw [chain, List.map_cons, List.nodup_cons] at nodup
      refine ⟨fun other => ?_, nodup.2⟩
      by_cases same : other = id
      · subst same
        have placed :
            (machine.setPlace other (some place)).place other ≠
              some .active := by
          simpa using inactive
        exact iff_of_false placed nodup.1
      · have before := wellFormed.active_iff other
        rw [chain, List.map_cons, List.mem_cons, or_iff_right same] at before
        rw [← before]
        exact
          iff_of_eq
            (congrArg (· = some .active)
              (place_setPlace_of_ne same machine _))
  | removes id inactive present next_eq =>
      subst next_eq
      refine ⟨fun other => ?_, wellFormed.nodup⟩
      by_cases same : other = id
      · subst same
        have outside := mt (wellFormed.active_iff other).mpr inactive
        simpa using outside
      · rw [place_setPlace_of_ne same]
        exact wellFormed.active_iff other

theorem wellFormed_step
    (machine : Machine Id Cont) (op : Op Id Cont) (next : Machine Id Cont)
    (wellFormed : WellFormed machine)
    (stepped : step leave machine op = some next) : WellFormed next :=
  wellFormed_change wellFormed (change_of_step stepped)

/-! ## A resumed coroutine returns to its resumer -/

/-- The coroutine was resumed above a chain, by who goes on with `back`. -/
def Above (id : Id) (back : Cont) (rest : List (Id × Cont))
    (machine : Machine Id Cont) : Prop :=
  ∃ others, machine.chain = others ++ (id, back) :: rest

theorem above_step
    {id : Id} {back : Cont} {rest : List (Id × Cont)}
    (above : Above id back rest machine)
    (change : Change leave machine next)
    (active : next.place id = some .active) : Above id back rest next := by
  obtain ⟨others, isChain⟩ := above
  cases change with
  | stays place chain => exact ⟨others, chain.trans isChain⟩
  | adds other cont absent next_eq =>
      subst next_eq
      exact ⟨others, isChain⟩
  | resumes other cont suspended next_eq =>
      subst next_eq
      refine ⟨(other, leave machine.now) :: others, ?_⟩
      rw [List.cons_append, ← isChain]
  | leaves other otherBack otherRest place inactive chain next_eq =>
      subst next_eq
      rw [isChain] at chain
      cases others with
      | nil =>
          cases chain
          simp [inactive] at active
      | cons first others =>
          rw [List.cons_append] at chain
          exact ⟨others, (List.cons.inj chain).2.symm⟩
  | removes other inactive present next_eq =>
      subst next_eq
      exact ⟨others, isChain⟩

/-- The step which ends a resumed coroutine's turn goes back to its resumer. -/
theorem returns_of_change
    {id : Id} {back : Cont} {rest : List (Id × Cont)}
    (wellFormed : WellFormed machine) (above : Above id back rest machine)
    (change : Change leave machine next)
    (left : next.place id ≠ some .active) :
    next.now = back ∧ next.chain = rest := by
  obtain ⟨others, isChain⟩ := above
  have member : id ∈ machine.chain.map Prod.fst := by
    rw [isChain]
    simp
  have active := (wellFormed.active_iff id).mpr member
  cases change with
  | stays place chain =>
      rw [place] at left
      exact (left active).elim
  | adds other cont absent next_eq =>
      subst next_eq
      have differs : id ≠ other := by
        rintro rfl
        simp [active] at absent
      rw [place_setPlace_of_ne differs] at left
      exact (left active).elim
  | resumes other cont suspended next_eq =>
      subst next_eq
      have differs : id ≠ other := by
        rintro rfl
        simp [active] at suspended
      exact
        (left ((place_setPlace_of_ne differs machine _).trans active)).elim
  | leaves other otherBack otherRest place inactive chain next_eq =>
      subst next_eq
      have same : id = other := by
        by_contra differs
        exact
          left ((place_setPlace_of_ne differs machine _).trans active)
      subst same
      cases others with
      | nil =>
          rw [List.nil_append] at isChain
          cases isChain.symm.trans chain
          exact ⟨rfl, rfl⟩
      | cons first others =>
          -- The coroutine would be in the chain twice.
          have nodup := wellFormed.nodup
          rw [isChain, List.cons_append] at chain
          obtain ⟨rfl, rfl⟩ := List.cons.inj chain
          simp [isChain] at nodup
  | removes other inactive present next_eq =>
      subst next_eq
      have differs : id ≠ other := by
        rintro rfl
        exact inactive active
      rw [place_setPlace_of_ne differs] at left
      exact (left active).elim

/--
Whatever a resumed coroutine does, and whomever it resumes: when its turn ends,
its resumer goes on with what it left, and with its own chain.
-/
theorem resumer_goes_on
    {start resumed last final : Machine Id Cont} {id : Id}
    {during : List (Op Id Cont)} {op : Op Id Cont}
    (wellFormed : WellFormed start)
    (resumes : step leave start (.resume id) = some resumed)
    (reached : run (step leave) resumed during = some last)
    (active : Along (step leave)
      (fun _ _ next => next.place id = some .active) resumed during)
    (ends : step leave last op = some final)
    (left : final.place id ≠ some .active) :
    final.now = leave start.now ∧ final.chain = start.chain := by
  have first :
      WellFormed resumed ∧ Above id (leave start.now) start.chain resumed := by
    refine ⟨wellFormed_step _ _ _ wellFormed resumes, ?_⟩
    simp only [step] at resumes
    split at resumes
    · cases resumes
      exact ⟨[], rfl⟩
    · cases resumes
  have after :
      WellFormed last ∧ Above id (leave start.now) start.chain last := by
    refine
      @invariant_of_along (Machine Id Cont) (Op Id Cont) (step leave)
        (fun _ _ next => next.place id = some .active)
        (fun machine =>
          WellFormed machine ∧ Above id (leave start.now) start.chain machine)
        ?_ during resumed last first active reached
    intro state op next holds stepped stays
    have change := change_of_step stepped
    exact
      ⟨wellFormed_change holds.1 change, above_step holds.2 change stays⟩
  exact returns_of_change after.1 after.2 (change_of_step ends) left

/-! ## A suspended coroutine keeps its continuation -/

theorem suspended_step
    {id : Id} {cont other : Cont} (wellFormed : WellFormed machine)
    (suspended : machine.place id = some (.suspended cont))
    (change : Change leave machine next)
    (stays : next.place id = some (.suspended other)) :
    next.place id = some (.suspended cont) := by
  cases change with
  | stays place chain => exact place ▸ suspended
  | adds added _ absent next_eq =>
      subst next_eq
      have differs : id ≠ added := by
        rintro rfl
        simp [suspended] at absent
      exact (place_setPlace_of_ne differs ..).trans suspended
  | resumes resumed _ wasSuspended next_eq =>
      subst next_eq
      by_cases same : id = resumed
      · subst same
        simp at stays
      · exact (place_setPlace_of_ne same machine _).trans suspended
  | leaves innermost back rest place inactive chain next_eq =>
      subst next_eq
      have differs : id ≠ innermost := by
        rintro rfl
        have member : id ∈ machine.chain.map Prod.fst := by
          rw [chain]
          simp
        have active := (wellFormed.active_iff id).mpr member
        simp [suspended] at active
      exact (place_setPlace_of_ne differs machine _).trans suspended
  | removes removed inactive present next_eq =>
      subst next_eq
      by_cases same : id = removed
      · subst same
        simp at stays
      · exact (place_setPlace_of_ne same ..).trans suspended

/-- While it is neither resumed nor removed, its continuation is the same. -/
theorem keeps_continuation
    {start last : Machine Id Cont} {id : Id} {cont : Cont}
    {during : List (Op Id Cont)}
    (wellFormed : WellFormed start)
    (suspended : start.place id = some (.suspended cont))
    (reached : run (step leave) start during = some last)
    (stays : Along (step leave)
      (fun _ _ next => ∃ other, next.place id = some (.suspended other))
      start during) :
    last.place id = some (.suspended cont) := by
  have after :
      WellFormed last ∧ last.place id = some (.suspended cont) := by
    refine
      @invariant_of_along (Machine Id Cont) (Op Id Cont) (step leave)
        (fun _ _ next => ∃ other, next.place id = some (.suspended other))
        (fun machine =>
          WellFormed machine ∧ machine.place id = some (.suspended cont))
        ?_ during start last ⟨wellFormed, suspended⟩ stays reached
    rintro state op next ⟨wellFormed, suspended⟩ stepped ⟨other, still⟩
    have change := change_of_step stepped
    exact
      ⟨wellFormed_change wellFormed change,
        suspended_step wellFormed suspended change still⟩
  exact after.2

end Steps

end Vproc.Lib.Coroutines
