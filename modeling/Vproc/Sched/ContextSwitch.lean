import Vproc.Lib.Coroutines
import Vproc.Lib.Simulation
import Vproc.Sched.CoroutineBlocks

/-!
# Switching between coroutines

`mco_resume` stores the registers of its caller in the `back_ctx` of the
coroutine and loads those in its `ctx`; `mco_yield`, and the end of a
coroutine, do the reverse.  `prev_co` links a coroutine to the one which has
resumed it, and `mco_current_co` is the innermost of them.

A thread has a processor, its memory, the records of its coroutines, and
`mco_current_co`.  Code which runs between two calls does what it likes with
the registers and the memory.

`_mco_switch` keeps the registers which a call must keep.  The return address
is stored twice, as `x30` and as `lr`, without its authentication code, and it
is the first of them to which the routine returns.
-/

namespace Vproc.Sched.ContextSwitch

open Vproc.Lib.Run
open Vproc.Lib.Coroutines
  (Machine Place WellFormed place_setPlace_self place_setPlace_of_ne)
open Vproc.Lib.Simulation
open Vproc.Exec.Elf
open Vproc.Sched.ForkContext
open Vproc.Sched.CoroutineBlocks

/-! ## The functions of the source -/

/-- `x19` to `x30`, `sp`, `d8` to `d15`, and where the processor goes on. -/
structure Registers where
  x : Fin 12 → Usize
  sp : Usize
  d : Fin 8 → Usize
  pc : Usize
deriving DecidableEq

/-- There are saved registers of both kinds. -/
instance neZeroSavedX : NeZero 12 := ⟨by decide⟩

instance neZeroSavedD : NeZero 8 := ⟨by decide⟩

/-- What `_mco_switch` stores; `xpaci` takes the authentication code off. -/
def saved (xpaci : Usize → Usize) (cpu : Registers) : Ctxbuf where
  x := Function.update cpu.x 11 (xpaci (cpu.x 11))
  sp := cpu.sp
  lr := xpaci (cpu.x 11)
  d := cpu.d

/-- What `_mco_switch` loads; `ret` goes to `x30`. -/
def loaded (buf : Ctxbuf) : Registers where
  x := buf.x
  sp := buf.sp
  d := buf.d
  pc := buf.x 11

/-- A thread. -/
structure Thread where
  cpu : Registers
  bytes : Bytes
  coros : Usize → Option Coro
  currentCo : Usize

namespace Thread

/-- A thread without coroutines. -/
def init (cpu : Registers) (bytes : Bytes) : Thread where
  cpu := cpu
  bytes := bytes
  coros := fun _ => none
  currentCo := 0

def setCoro (thread : Thread) (co : Usize) (coro : Option Coro) : Thread :=
  { thread with coros := Function.update thread.coros co coro }

def modify (thread : Thread) (co : Usize) (change : Coro → Coro) : Thread :=
  thread.setCoro co ((thread.coros co).map change)

/-- `mco_running`. -/
def mcoRunning (thread : Thread) : Usize :=
  thread.currentCo

/-- `_mco_prepare_jumpin`. -/
def prepareJumpin (thread : Thread) (co : Usize) : Thread :=
  let prevCo := thread.mcoRunning
  let thread := thread.modify co fun coro => { coro with prevCo := prevCo }
  let thread :=
    if prevCo ≠ 0 then
      thread.modify prevCo fun prev => { prev with state := .normal }
    else thread
  { thread with currentCo := co }

/-- `_mco_prepare_jumpout`. -/
def prepareJumpout (thread : Thread) (co : Usize) (coro : Coro) : Thread :=
  let prevCo := coro.prevCo
  let thread := thread.modify co fun coro => { coro with prevCo := 0 }
  let thread :=
    if prevCo ≠ 0 then
      thread.modify prevCo fun prev => { prev with state := .running }
    else thread
  { thread with currentCo := prevCo }

/-- `_mco_jumpin`. -/
def jumpin (xpaci : Usize → Usize) (thread : Thread) (co : Usize)
    (coro : Coro) : Thread :=
  let prepared := thread.prepareJumpin co
  let switched := prepared.modify co fun coro =>
    { coro with
      context := { coro.context with backCtx := saved xpaci thread.cpu } }
  { switched with cpu := loaded coro.context.ctx }

/-- `_mco_jumpout`. -/
def jumpout (xpaci : Usize → Usize) (thread : Thread) (co : Usize)
    (coro : Coro) : Thread :=
  let prepared := thread.prepareJumpout co coro
  let switched := prepared.modify co fun coro =>
    { coro with
      context := { coro.context with ctx := saved xpaci thread.cpu } }
  { switched with cpu := loaded coro.context.backCtx }

/-- `mco_resume`, on an address where a coroutine is. -/
def mcoResume (xpaci : Usize → Usize) (thread : Thread) (co : Usize)
    (coro : Coro) : Except McoError Thread :=
  if coro.state ≠ .suspended then .error .notSuspended
  else
    .ok
      ((thread.modify co fun coro => { coro with state := .running }).jumpin
        xpaci co coro)

/-- `mco_yield`; `stackAddr` is the address of its local variable. -/
def mcoYield (xpaci : Usize → Usize) (thread : Thread)
    (co stackAddr : Usize) (coro : Coro) : Except McoError Thread :=
  let stackMin := coro.stackBase
  let stackMax := stackMin + coro.stackSize
  if coro.magicNumber ≠ MCO_MAGIC_NUMBER ∨ stackAddr < stackMin ∨
      stackMax < stackAddr then
    .error .stackOverflow
  else if coro.state ≠ .running then .error .notRunning
  else
    .ok
      ((thread.modify co fun coro => { coro with state := .suspended }).jumpout
        xpaci co coro)

/-- `_mco_main`, when the function of the coroutine has returned. -/
def mcoMainEnds (xpaci : Usize → Usize) (thread : Thread) (co : Usize)
    (coro : Coro) : Thread :=
  (thread.modify co fun coro => { coro with state := .dead }).jumpout
    xpaci co coro

/-- `mco_destroy`, with `mco_uninit`. -/
def mcoDestroy (thread : Thread) (co : Usize) (coro : Coro) :
    Except McoError Thread :=
  if coro.state = .suspended ∨ coro.state = .dead then
    .ok (thread.setCoro co none)
  else .error .invalidOperation

end Thread

/-! ## Steps -/

/-- A call, or what the code between two calls does. -/
inductive Op where
  | execute (cpu : Registers)
  | store (address : Usize) (byte : UInt8)
  | create (func userData stackSize co : Usize)
  | createElf (entry elfSp stackBase stackSize co : Usize)
  | fork (parent child : Usize)
  | resume (co : Usize)
  | yield (co stackAddr : Usize)
  | ends (co : Usize)
  | destroy (co : Usize)

/-- A thread with one more coroutine, if one could be made. -/
def Thread.adds (thread : Thread) (co : Usize) (made : Except McoError Coro) :
    Option Thread :=
  match made with
  | .error _ => some thread
  | .ok coro =>
      if thread.coros co = none then some (thread.setCoro co (some coro))
      else none

/-- A call on a coroutine: null is refused, and nothing else is no pointer. -/
def Thread.calls (thread : Thread) (co : Usize)
    (call : Coro → Except McoError Thread) : Option Thread :=
  if co = 0 then some thread
  else
    match thread.coros co with
    | none => none
    | some coro =>
        match call coro with
        | .error _ => some thread
        | .ok next => some next

/-- `mco_desc_init` with a `user_data`, as `Coroutine::new` makes it. -/
def descOf (func userData stackSize : Usize) : McoDesc :=
  { mcoDescInit func stackSize with userData := userData }

/--
One step.  A call which fails changes nothing.  The coroutine which `_mco_main`
ends is the running one, on whose stack it is.
-/
def step (xpaci : Usize → Usize) (symbols : Symbols) (thread : Thread) :
    Op → Option Thread
  | .execute cpu => some { thread with cpu := cpu }
  | .store address byte =>
      some
        { thread with bytes := Function.update thread.bytes address byte }
  | .create func userData stackSize co =>
      thread.adds co (mcoCreate symbols (descOf func userData stackSize) co)
  | .createElf entry elfSp stackBase stackSize co =>
      thread.adds co
        (mcoCreateWithElfEntry symbols entry elfSp stackBase stackSize co)
  | .fork parent child =>
      match thread.coros parent with
      | none => none
      | some coro =>
          if child = 0 then some thread
          else
            { thread with
                bytes := childMemory thread.bytes coro.toMcoCoro child }.adds
              child (.ok (forkedCoro coro child))
  | .resume co => thread.calls co (thread.mcoResume xpaci co)
  | .yield co stackAddr => thread.calls co (thread.mcoYield xpaci co stackAddr)
  | .ends co =>
      if co = thread.mcoRunning then
        thread.calls co fun coro => .ok (thread.mcoMainEnds xpaci co coro)
      else none
  | .destroy co => thread.calls co (thread.mcoDestroy co)

/-! ## The machine which a thread is -/

/-- How a running continuation is left. -/
def leave (xpaci : Usize → Usize) (cpu : Registers) : Registers :=
  loaded (saved xpaci cpu)

def placeOf (coro : Coro) : Place Registers :=
  match coro.state with
  | .suspended => .suspended (loaded coro.context.ctx)
  | .dead => .dead
  | _ => .active

/-- A chain of coroutines is linked by `prev_co`, up to null. -/
inductive Linked (coros : Usize → Option Coro) :
    Usize → List (Usize × Registers) → Prop where
  | nil : Linked coros 0 []
  | cons {co : Usize} {coro : Coro} {rest : List (Usize × Registers)}
      (found : coros co = some coro) (linked : Linked coros coro.prevCo rest) :
      Linked coros co ((co, loaded coro.context.backCtx) :: rest)

/-- The thread is this machine. -/
structure Represents (thread : Thread) (machine : Machine Usize Registers) :
    Prop where
  now : machine.now = thread.cpu
  place : ∀ co, machine.place co = (thread.coros co).map placeOf
  linked : Linked thread.coros thread.currentCo machine.chain
  null : thread.coros 0 = none
  running_iff : ∀ co coro, thread.coros co = some coro →
    (coro.state = .running ↔ co = thread.currentCo)
  unlinked : ∀ co coro, thread.coros co = some coro →
    coro.state = .suspended ∨ coro.state = .dead → coro.prevCo = 0
  wellFormed : WellFormed machine

/-- What corresponds to a call which makes a coroutine. -/
def viewAdds (thread : Thread) (co : Usize) (made : Except McoError Coro) :
    Lib.Coroutines.Op Usize Registers :=
  match made with
  | .error _ => .execute thread.cpu
  | .ok coro => .add co (loaded coro.context.ctx)

/-- What corresponds to a call on a coroutine: nothing, if it fails. -/
def viewCalls (thread : Thread) (co : Usize)
    (call : Coro → Except McoError Thread)
    (op : Lib.Coroutines.Op Usize Registers) :
    Lib.Coroutines.Op Usize Registers :=
  match (thread.coros co).map call with
  | some (.ok _) => op
  | _ => .execute thread.cpu

/-- The step of the machine which corresponds to a step of the thread. -/
def view (xpaci : Usize → Usize) (symbols : Symbols) (thread : Thread) :
    Op → Lib.Coroutines.Op Usize Registers
  | .execute cpu => .execute cpu
  | .store _ _ => .execute thread.cpu
  | .create func userData stackSize co =>
      viewAdds thread co
        (mcoCreate symbols (descOf func userData stackSize) co)
  | .createElf entry elfSp stackBase stackSize co =>
      viewAdds thread co
        (mcoCreateWithElfEntry symbols entry elfSp stackBase stackSize co)
  | .fork parent child =>
      match thread.coros parent with
      | none => .execute thread.cpu
      | some coro =>
          if child = 0 then .execute thread.cpu
          else viewAdds thread child (.ok (forkedCoro coro child))
  | .resume co => viewCalls thread co (thread.mcoResume xpaci co) (.resume co)
  | .yield co stackAddr =>
      viewCalls thread co (thread.mcoYield xpaci co stackAddr) .yield
  | .ends co =>
      viewCalls thread co
        (fun coro => .ok (thread.mcoMainEnds xpaci co coro)) .finish
  | .destroy co => viewCalls thread co (thread.mcoDestroy co) (.remove co)

/-! ## Records after a switch -/

section Records

variable {thread : Thread} {co other : Usize}

@[simp]
theorem coros_modify_self (change : Coro → Coro) :
    (thread.modify co change).coros co = (thread.coros co).map change :=
  Function.update_self ..

theorem coros_modify_of_ne (differs : other ≠ co) (change : Coro → Coro) :
    (thread.modify co change).coros other = thread.coros other :=
  Function.update_of_ne differs ..

/-- The records after a change of one which may be null. -/
theorem coros_modify_unless_null
    (null : thread.coros 0 = none) (change : Coro → Coro) :
    (if co ≠ 0 then thread.modify co change else thread).coros other =
      if other = co then (thread.coros other).map change
      else thread.coros other := by
  by_cases isNull : co = 0
  · rw [if_neg (not_not.mpr isNull)]
    split
    · rename_i same
      rw [same, isNull, null]
      rfl
    · rfl
  · rw [if_pos isNull]
    split
    · rename_i same
      subst same
      exact coros_modify_self change
    · rename_i differs
      exact coros_modify_of_ne differs change

/-- Two changes of one coroutine, then one of another, then one of the first. -/
theorem coros_switched
    {prev : Usize} (null : thread.coros 0 = none)
    (present : thread.coros co ≠ none) (apart : co ≠ prev)
    (first second third last : Coro → Coro) :
    let changed := (thread.modify co first).modify co second
    let both := if prev ≠ 0 then changed.modify prev third else changed
    (both.modify co last).coros co =
        (thread.coros co).map (last ∘ second ∘ first) ∧
      ∀ other, other ≠ co →
        (both.modify co last).coros other =
          if other = prev then (thread.coros other).map third
          else thread.coros other := by
  intro changed both
  have notNull : 0 ≠ co := fun isNull => present (isNull ▸ null)
  have beside (other : Usize) (differs : other ≠ co) :
      changed.coros other = thread.coros other := by
    rw [coros_modify_of_ne differs, coros_modify_of_ne differs]
  have stillNull : changed.coros 0 = none := (beside 0 notNull).trans null
  constructor
  · rw [coros_modify_self, coros_modify_unless_null stillNull,
      if_neg apart, coros_modify_self, coros_modify_self, Option.map_map,
      Option.map_map]
    rfl
  · intro other differs
    rw [coros_modify_of_ne differs, coros_modify_unless_null stillNull,
      beside other differs]

end Records

/-! ### Resuming -/

section Resume

variable {xpaci : Usize → Usize} {thread next : Thread} {co : Usize}
  {coro : Coro}

/-- What `mco_resume` does to the records. -/
structure Resumed (xpaci : Usize → Usize) (thread : Thread) (co : Usize)
    (coro : Coro) (next : Thread) : Prop where
  suspended : coro.state = .suspended
  cpu : next.cpu = loaded coro.context.ctx
  current : next.currentCo = co
  self : next.coros co =
    some
      { coro with
        state := .running
        prevCo := thread.currentCo
        context := { coro.context with backCtx := saved xpaci thread.cpu } }
  others : ∀ other, other ≠ co →
    next.coros other =
      if other = thread.currentCo then
        (thread.coros other).map fun prev => { prev with state := .normal }
      else thread.coros other

theorem resumed_of_ok
    (found : thread.coros co = some coro) (null : thread.coros 0 = none)
    (notCurrent : co ≠ thread.currentCo)
    (call : thread.mcoResume xpaci co coro = .ok next) :
    Resumed xpaci thread co coro next := by
  have present : thread.coros co ≠ none := by
    rw [found]
    exact Option.some_ne_none coro
  unfold Thread.mcoResume at call
  split at call
  · cases call
  · rename_i suspended
    cases call
    obtain ⟨self, others⟩ :=
      coros_switched null present notCurrent
        (fun coro => { coro with state := .running })
        (fun coro => { coro with prevCo := thread.currentCo })
        (fun prev => { prev with state := .normal })
        (fun coro =>
          { coro with
            context :=
              { coro.context with backCtx := saved xpaci thread.cpu } })
    rw [found] at self
    exact ⟨not_not.mp suspended, rfl, rfl, self, others⟩

end Resume

/-! ### Leaving -/

section Leave

variable {xpaci : Usize → Usize} {thread next : Thread} {co : Usize}
  {coro : Coro}

/-- What `mco_yield`, or the end of a coroutine, does to the records. -/
structure Left (xpaci : Usize → Usize) (thread : Thread) (co : Usize)
    (coro : Coro) (state : McoState) (next : Thread) : Prop where
  cpu : next.cpu = loaded coro.context.backCtx
  current : next.currentCo = coro.prevCo
  self : next.coros co =
    some
      { coro with
        state := state
        prevCo := 0
        context := { coro.context with ctx := saved xpaci thread.cpu } }
  others : ∀ other, other ≠ co →
    next.coros other =
      if other = coro.prevCo then
        (thread.coros other).map fun prev => { prev with state := .running }
      else thread.coros other

theorem left_of_jumpout
    (found : thread.coros co = some coro) (null : thread.coros 0 = none)
    (apart : co ≠ coro.prevCo) (state : McoState) :
    Left xpaci thread co coro state
      ((thread.modify co fun coro => { coro with state := state }).jumpout
        xpaci co coro) := by
  have present : thread.coros co ≠ none := by
    rw [found]
    exact Option.some_ne_none coro
  obtain ⟨self, others⟩ :=
    coros_switched null present apart
      (fun coro => { coro with state := state })
      (fun coro => { coro with prevCo := 0 })
      (fun prev => { prev with state := .running })
      (fun coro =>
        { coro with
          context := { coro.context with ctx := saved xpaci thread.cpu } })
  rw [found] at self
  exact ⟨rfl, rfl, self, others⟩

end Leave

/-! ## A thread steps as the machine does -/

section Represents

variable {xpaci : Usize → Usize} {symbols : Symbols}
  {thread next : Thread} {machine : Machine Usize Registers}
  {co : Usize} {coro : Coro}

/-- Links stay where neither `prev_co` nor `back_ctx` is changed. -/
theorem linked_congr
    {coros after : Usize → Option Coro} {chain : List (Usize × Registers)}
    (linked : Linked coros co chain)
    (same : ∀ other ∈ chain.map Prod.fst, ∀ coro,
      coros other = some coro →
        ∃ changed, after other = some changed ∧
          changed.prevCo = coro.prevCo ∧
          changed.context.backCtx = coro.context.backCtx) :
    Linked after co chain := by
  induction linked with
  | nil => exact .nil
  | @cons co coro rest found _ induction =>
      obtain ⟨changed, isChanged, prev, back⟩ :=
        same co List.mem_cons_self coro found
      rw [← back]
      refine .cons isChanged ?_
      rw [prev]
      exact
        induction fun other member =>
          same other (List.mem_cons_of_mem co member)

theorem linked_iff
    {coros : Usize → Option Coro} {chain : List (Usize × Registers)} :
    Linked coros co chain ↔
      co = 0 ∧ chain = [] ∨
        ∃ coro rest, coros co = some coro ∧
          chain = (co, loaded coro.context.backCtx) :: rest ∧
          Linked coros coro.prevCo rest := by
  constructor
  · rintro (_ | ⟨found, linked⟩)
    · exact .inl ⟨rfl, rfl⟩
    · exact .inr ⟨_, _, found, rfl, linked⟩
  · rintro (⟨rfl, rfl⟩ | ⟨_, _, found, rfl, linked⟩)
    · exact .nil
    · exact .cons found linked

theorem Represents.place_eq
    (represents : Represents thread machine)
    (found : thread.coros co = some coro) :
    machine.place co = some (placeOf coro) := by
  rw [represents.place co, found]
  rfl

theorem placeOf_eq_active_iff :
    placeOf coro = .active ↔
      coro.state = .running ∨ coro.state = .normal := by
  unfold placeOf
  cases coro.state <;> simp

/-- The active coroutines are the running and the normal ones. -/
theorem Represents.mem_chain_iff
    (represents : Represents thread machine)
    (found : thread.coros co = some coro) :
    co ∈ machine.chain.map Prod.fst ↔
      coro.state = .running ∨ coro.state = .normal := by
  rw [← represents.wellFormed.active_iff co, represents.place_eq found,
    Option.some.injEq, placeOf_eq_active_iff]

/-- The chain begins with the running coroutine. -/
theorem Represents.chain_of_found
    (represents : Represents thread machine)
    (found : thread.coros thread.currentCo = some coro) :
    ∃ rest, machine.chain =
        (thread.currentCo, loaded coro.context.backCtx) :: rest ∧
      Linked thread.coros coro.prevCo rest := by
  rcases linked_iff.mp represents.linked with
    ⟨isNull, _⟩ | ⟨_, rest, isThere, isChain, linked⟩
  · rw [isNull, represents.null] at found
    cases found
  · cases found.symm.trans isThere
    exact ⟨rest, isChain, linked⟩

/-- A coroutine which is there has not the address null. -/
theorem Represents.ne_null
    (represents : Represents thread machine)
    (found : thread.coros co = some coro) : co ≠ 0 := by
  rintro rfl
  cases represents.null.symm.trans found

theorem represents_execute
    (represents : Represents thread machine) (cpu : Registers) :
    Represents { thread with cpu := cpu } { machine with now := cpu } where
  now := rfl
  place := represents.place
  linked := represents.linked
  null := represents.null
  running_iff := represents.running_iff
  unlinked := represents.unlinked
  wellFormed :=
    ⟨represents.wellFormed.active_iff, represents.wellFormed.nodup⟩

theorem represents_store
    (represents : Represents thread machine) (bytes : Bytes) :
    Represents { thread with bytes := bytes } machine where
  now := represents.now
  place := represents.place
  linked := represents.linked
  null := represents.null
  running_iff := represents.running_iff
  unlinked := represents.unlinked
  wellFormed := represents.wellFormed

/-- A step of the machine keeps its chain well formed. -/
theorem wellFormed_next
    {op : Lib.Coroutines.Op Usize Registers}
    {after : Machine Usize Registers}
    (represents : Represents thread machine)
    (stepped :
      Lib.Coroutines.step (leave xpaci) machine op = some after) :
    WellFormed after :=
  Lib.Coroutines.wellFormed_step machine op after represents.wellFormed stepped

/-- A new coroutine, which nobody has resumed. -/
theorem represents_setCoro
    (represents : Represents thread machine)
    (absent : thread.coros co = none) (given : co ≠ 0)
    (suspended : coro.state = .suspended) (fresh : coro.prevCo = 0) :
    ∃ after,
      Lib.Coroutines.step (leave xpaci) machine
          (.add co (loaded coro.context.ctx)) = some after ∧
        Represents (thread.setCoro co (some coro)) after := by
  have free : machine.place co = none := by
    rw [represents.place, absent]
    rfl
  have stepped :
      Lib.Coroutines.step (leave xpaci) machine
          (.add co (loaded coro.context.ctx)) =
        some
          (machine.setPlace co
            (some (.suspended (loaded coro.context.ctx)))) := by
    simp only [Lib.Coroutines.step, free]
  have self : (thread.setCoro co (some coro)).coros co = some coro :=
    Function.update_self ..
  have others (other : Usize) (differs : other ≠ co) :
      (thread.setCoro co (some coro)).coros other = thread.coros other :=
    Function.update_of_ne differs ..
  refine ⟨_, stepped, ?_⟩
  constructor
  · exact represents.now
  · intro other
    by_cases same : other = co
    · subst same
      rw [place_setPlace_self, self, Option.map_some, placeOf, suspended]
    · rw [place_setPlace_of_ne same, others other same, represents.place]
  · refine linked_congr represents.linked fun other _ coro found => ?_
    have differs : other ≠ co := by
      rintro rfl
      cases absent.symm.trans found
    exact ⟨coro, (others other differs).trans found, rfl, rfl⟩
  · rw [others 0 given.symm]
    exact represents.null
  · intro other record found
    by_cases same : other = co
    · subst same
      rw [self, Option.some.injEq] at found
      subst found
      rw [suspended]
      refine iff_of_false (by decide) ?_
      intro (isCurrent : other = thread.currentCo)
      rcases linked_iff.mp represents.linked with
        ⟨isNull, _⟩ | ⟨_, _, isThere, _⟩
      · exact given (isCurrent.trans isNull)
      · rw [← isCurrent, absent] at isThere
        cases isThere
    · exact
        represents.running_iff other record
          ((others other same).symm.trans found)
  · intro other record found inactive
    by_cases same : other = co
    · subst same
      rw [self, Option.some.injEq] at found
      rw [← found]
      exact fresh
    · exact
        represents.unlinked other record
          ((others other same).symm.trans found) inactive
  · exact wellFormed_next represents stepped

/-- A coroutine which is not active is removed. -/
theorem represents_remove
    (represents : Represents thread machine)
    (found : thread.coros co = some coro)
    (inactive : coro.state = .suspended ∨ coro.state = .dead) :
    ∃ after,
      Lib.Coroutines.step (leave xpaci) machine (.remove co) = some after ∧
        Represents (thread.setCoro co none) after := by
  have notNull := represents.ne_null found
  have outside : co ∉ machine.chain.map Prod.fst := by
    rw [represents.mem_chain_iff found]
    rcases inactive with is | is <;> simp [is]
  have stepped :
      Lib.Coroutines.step (leave xpaci) machine (.remove co) =
        some (machine.setPlace co none) := by
    have isPlace := represents.place_eq found
    rcases inactive with is | is <;>
      simp [Lib.Coroutines.step, isPlace, placeOf, is]
  have self : (thread.setCoro co none).coros co = none :=
    Function.update_self ..
  have others (other : Usize) (differs : other ≠ co) :
      (thread.setCoro co none).coros other = thread.coros other :=
    Function.update_of_ne differs ..
  have kept (other : Usize) (record : Coro)
      (there : (thread.setCoro co none).coros other = some record) :
      thread.coros other = some record := by
    refine (others other ?_).symm.trans there
    rintro rfl
    cases self.symm.trans there
  refine ⟨_, stepped, ?_⟩
  constructor
  · exact represents.now
  · intro other
    by_cases same : other = co
    · subst same
      rw [place_setPlace_self, self, Option.map_none]
    · rw [place_setPlace_of_ne same, others other same, represents.place]
  · refine linked_congr represents.linked fun other member coro there => ?_
    have differs : other ≠ co := by
      rintro rfl
      exact outside member
    exact ⟨coro, (others other differs).trans there, rfl, rfl⟩
  · rw [others 0 notNull.symm]
    exact represents.null
  · exact fun other record there =>
      represents.running_iff other record (kept other record there)
  · exact fun other record there =>
      represents.unlinked other record (kept other record there)
  · exact wellFormed_next represents stepped

/-- A suspended coroutine is resumed. -/
theorem represents_resumed
    (represents : Represents thread machine)
    (found : thread.coros co = some coro)
    (resumed : Resumed xpaci thread co coro next) :
    ∃ after,
      Lib.Coroutines.step (leave xpaci) machine (.resume co) = some after ∧
        Represents next after := by
  have notNull := represents.ne_null found
  have outside : co ∉ machine.chain.map Prod.fst := by
    rw [represents.mem_chain_iff found]
    simp [resumed.suspended]
  have wasPlace :
      machine.place co = some (.suspended (loaded coro.context.ctx)) := by
    rw [represents.place_eq found, placeOf, resumed.suspended]
  have stepped :
      Lib.Coroutines.step (leave xpaci) machine (.resume co) =
        some
          { machine.setPlace co (some .active) with
            now := loaded coro.context.ctx
            chain := (co, leave xpaci machine.now) :: machine.chain } := by
    simp only [Lib.Coroutines.step, wasPlace]
  -- The resumer was running, and is the only other one whose record changes.
  have others (other : Usize) (record : Coro) (differs : other ≠ co)
      (there : next.coros other = some record) :
      ∃ before, thread.coros other = some before ∧
        record.prevCo = before.prevCo ∧
        record.context = before.context ∧
        (other = thread.currentCo → record.state = .normal) ∧
        (other ≠ thread.currentCo → record.state = before.state) := by
    rw [resumed.others other differs] at there
    split at there
    · rename_i isCurrent
      obtain ⟨before, isBefore, rfl⟩ := Option.map_eq_some_iff.mp there
      exact
        ⟨before, isBefore, rfl, rfl, fun _ => rfl,
          fun notCurrent => (notCurrent isCurrent).elim⟩
    · rename_i notCurrent
      exact
        ⟨record, there, rfl, rfl,
          fun isCurrent => (notCurrent isCurrent).elim, fun _ => rfl⟩
  refine ⟨_, stepped, ?_⟩
  constructor
  · exact resumed.cpu.symm
  · intro other
    by_cases same : other = co
    · subst same
      rw [resumed.self]
      exact Function.update_self ..
    · refine (place_setPlace_of_ne same machine _).trans ?_
      rw [represents.place other, resumed.others other same]
      split
      · rename_i isCurrent
        cases there : thread.coros other with
        | none => rfl
        | some record =>
            have running : record.state = .running :=
              (represents.running_iff other record there).mpr isCurrent
            simp [placeOf, running]
      · rfl
  · rw [resumed.current]
    have back :
        leave xpaci machine.now =
          loaded (saved xpaci thread.cpu) := by
      rw [leave, represents.now]
    rw [back]
    refine .cons resumed.self ?_
    refine linked_congr represents.linked fun other member before there => ?_
    have differs : other ≠ co := by
      rintro rfl
      exact outside member
    rw [resumed.others other differs, there]
    split
    · exact ⟨_, rfl, rfl, rfl⟩
    · exact ⟨_, rfl, rfl, rfl⟩
  · rw [resumed.others 0 notNull.symm, represents.null]
    split <;> rfl
  · intro other record there
    rw [resumed.current]
    by_cases same : other = co
    · subst same
      rw [resumed.self, Option.some.injEq] at there
      subst there
      exact iff_of_true rfl rfl
    · obtain ⟨before, isBefore, -, -, isNormal, still⟩ :=
        others other record same there
      refine iff_of_false ?_ same
      by_cases isCurrent : other = thread.currentCo
      · rw [isNormal isCurrent]
        decide
      · rw [still isCurrent]
        exact mt (represents.running_iff other before isBefore).mp isCurrent
  · intro other record there inactive
    by_cases same : other = co
    · subst same
      rw [resumed.self, Option.some.injEq] at there
      subst there
      simp at inactive
    · obtain ⟨before, isBefore, samePrev, -, isNormal, still⟩ :=
        others other record same there
      by_cases isCurrent : other = thread.currentCo
      · simp [isNormal isCurrent] at inactive
      · rw [samePrev]
        rw [still isCurrent] at inactive
        exact represents.unlinked other before isBefore inactive
  · exact wellFormed_next represents stepped

/-- The place of a coroutine which is left. -/
def leftPlace (xpaci : Usize → Usize) (cpu : Registers) (state : McoState) :
    Place Registers :=
  if state = .dead then .dead else .suspended (leave xpaci cpu)

/-- The running coroutine is left for the one which has resumed it. -/
theorem represents_left
    {state : McoState}
    (represents : Represents thread machine)
    (found : thread.coros co = some coro) (running : coro.state = .running)
    (inactive : state = .suspended ∨ state = .dead)
    (left : Left xpaci thread co coro state next)
    {op : Lib.Coroutines.Op Usize Registers}
    (isOp :
      Lib.Coroutines.step (leave xpaci) machine op =
        Lib.Coroutines.jumpOut machine
          (leftPlace xpaci machine.now state)) :
    ∃ after,
      Lib.Coroutines.step (leave xpaci) machine op = some after ∧
        Represents next after := by
  have isCurrent := (represents.running_iff co coro found).mp running
  have notNull := represents.ne_null found
  obtain ⟨rest, isChain, linked⟩ :=
    represents.chain_of_found (isCurrent ▸ found)
  rw [← isCurrent] at isChain
  have nodup := represents.wellFormed.nodup
  rw [isChain, List.map_cons, List.nodup_cons] at nodup
  have stepped :
      Lib.Coroutines.step (leave xpaci) machine op =
        some
          { machine.setPlace co
              (some (leftPlace xpaci machine.now state)) with
            now := loaded coro.context.backCtx
            chain := rest } := by
    rw [isOp]
    simp only [Lib.Coroutines.jumpOut, isChain]
  -- The resumer is the next one of the chain, so it was a normal one.
  have resumer (other : Usize) (before : Coro)
      (isBefore : thread.coros other = some before)
      (isPrev : other = coro.prevCo) :
      other ≠ co ∧ before.state = .normal := by
    rcases linked_iff.mp linked with ⟨isNull, _⟩ | ⟨_, _, _, isRest, _⟩
    · rw [isPrev, isNull, represents.null] at isBefore
      cases isBefore
    · have inRest : other ∈ rest.map Prod.fst := by
        rw [isRest, isPrev]
        exact List.mem_cons_self
      have differs : other ≠ co := by
        rintro rfl
        exact nodup.1 inRest
      have active : other ∈ machine.chain.map Prod.fst := by
        rw [isChain]
        exact List.mem_cons_of_mem co inRest
      refine ⟨differs, ?_⟩
      refine
        ((represents.mem_chain_iff isBefore).mp active).resolve_left ?_
      rw [represents.running_iff other before isBefore, ← isCurrent]
      exact differs
  have others (other : Usize) (record : Coro) (differs : other ≠ co)
      (there : next.coros other = some record) :
      ∃ before, thread.coros other = some before ∧
        record.prevCo = before.prevCo ∧
        (other = coro.prevCo → record.state = .running) ∧
        (other ≠ coro.prevCo → record.state = before.state) := by
    rw [left.others other differs] at there
    split at there
    · rename_i isPrev
      obtain ⟨before, isBefore, rfl⟩ := Option.map_eq_some_iff.mp there
      exact
        ⟨before, isBefore, rfl, fun _ => rfl,
          fun notPrev => (notPrev isPrev).elim⟩
    · rename_i notPrev
      exact
        ⟨record, there, rfl, fun isPrev => (notPrev isPrev).elim,
          fun _ => rfl⟩
  refine ⟨_, stepped, ?_⟩
  constructor
  · exact left.cpu.symm
  · intro other
    by_cases same : other = co
    · subst same
      rw [left.self, Option.map_some]
      refine (place_setPlace_self ..).trans (congrArg some ?_)
      rw [represents.now]
      rcases inactive with rfl | rfl <;> rfl
    · refine (place_setPlace_of_ne same machine _).trans ?_
      rw [represents.place other, left.others other same]
      split
      · rename_i isPrev
        cases there : thread.coros other with
        | none => rfl
        | some before =>
            have normal := (resumer other before there isPrev).2
            simp [placeOf, normal]
      · rfl
  · rw [left.current]
    refine linked_congr linked fun other member before there => ?_
    have differs : other ≠ co := by
      rintro rfl
      exact nodup.1 member
    rw [left.others other differs, there]
    split
    · exact ⟨_, rfl, rfl, rfl⟩
    · exact ⟨_, rfl, rfl, rfl⟩
  · rw [left.others 0 notNull.symm, represents.null]
    split <;> rfl
  · intro other record there
    rw [left.current]
    by_cases same : other = co
    · subst same
      rw [left.self, Option.some.injEq] at there
      subst there
      refine iff_of_false ?_ ?_
      · rcases inactive with rfl | rfl <;> simp
      · exact fun isPrev => (resumer other coro found isPrev).1 rfl
    · obtain ⟨before, isBefore, -, isRunning, still⟩ :=
        others other record same there
      by_cases isPrev : other = coro.prevCo
      · exact iff_of_true (isRunning isPrev) isPrev
      · refine iff_of_false ?_ isPrev
        rw [still isPrev, represents.running_iff other before isBefore,
          ← isCurrent]
        exact same
  · intro other record there wasInactive
    by_cases same : other = co
    · subst same
      rw [left.self, Option.some.injEq] at there
      rw [← there]
    · obtain ⟨before, isBefore, samePrev, isRunning, still⟩ :=
        others other record same there
      by_cases isPrev : other = coro.prevCo
      · simp [isRunning isPrev] at wasInactive
      · rw [samePrev]
        rw [still isPrev] at wasInactive
        exact represents.unlinked other before isBefore wasInactive
  · exact wellFormed_next represents stepped

/-- What the running coroutine is linked to is not itself. -/
theorem Represents.ne_prevCo
    (represents : Represents thread machine)
    (found : thread.coros co = some coro) (running : coro.state = .running) :
    co ≠ coro.prevCo := by
  have isCurrent := (represents.running_iff co coro found).mp running
  obtain ⟨rest, isChain, linked⟩ :=
    represents.chain_of_found (isCurrent ▸ found)
  rw [← isCurrent] at isChain
  have nodup := represents.wellFormed.nodup
  rw [isChain, List.map_cons, List.nodup_cons] at nodup
  rcases linked_iff.mp linked with ⟨isNull, _⟩ | ⟨_, _, _, isRest, _⟩
  · rw [isNull]
    exact represents.ne_null found
  · intro isPrev
    refine nodup.1 ?_
    rw [isRest, ← isPrev]
    exact List.mem_cons_self

/-- A call which succeeds has been made on a suspended coroutine. -/
theorem Represents.resumed_of_call
    (represents : Represents thread machine)
    (found : thread.coros co = some coro)
    (call : thread.mcoResume xpaci co coro = .ok next) :
    Resumed xpaci thread co coro next := by
  have suspended : coro.state = .suspended := by
    unfold Thread.mcoResume at call
    split at call
    · cases call
    · rename_i suspended
      exact not_not.mp suspended
  have notCurrent : co ≠ thread.currentCo := by
    intro isCurrent
    have running := (represents.running_iff co coro found).mpr isCurrent
    rw [suspended] at running
    cases running
  exact resumed_of_ok found represents.null notCurrent call

/-- The coroutine which yields is the running one. -/
theorem Represents.left_of_call
    {stackAddr : Usize} (represents : Represents thread machine)
    (found : thread.coros co = some coro)
    (call : thread.mcoYield xpaci co stackAddr coro = .ok next) :
    coro.state = .running ∧ Left xpaci thread co coro .suspended next := by
  unfold Thread.mcoYield at call
  dsimp only at call
  split at call
  · cases call
  · split at call
    · cases call
    · rename_i isRunning
      cases call
      have running := not_not.mp isRunning
      exact
        ⟨running,
          left_of_jumpout found represents.null
            (represents.ne_prevCo found running) .suspended⟩

/-! ### Every step -/

/-- What corresponds to a call which makes a coroutine is done as well. -/
theorem represents_adds
    {made : Except McoError Coro} (represents : Represents thread machine)
    (fresh : ∀ coro, made = .ok coro →
      co ≠ 0 ∧ coro.state = .suspended ∧ coro.prevCo = 0)
    (stepped : thread.adds co made = some next) :
    ∃ after,
      Lib.Coroutines.step (leave xpaci) machine (viewAdds thread co made) =
          some after ∧
        Represents next after := by
  cases made with
  | error failure =>
      cases stepped
      exact ⟨_, rfl, represents_execute represents thread.cpu⟩
  | ok coro =>
      obtain ⟨given, suspended, unlinked⟩ := fresh coro rfl
      simp only [Thread.adds] at stepped
      split at stepped
      · rename_i absent
        cases stepped
        exact represents_setCoro represents absent given suspended unlinked
      · cases stepped

/-- So is what corresponds to a call on a coroutine. -/
theorem represents_calls
    {call : Coro → Except McoError Thread}
    {op : Lib.Coroutines.Op Usize Registers}
    (represents : Represents thread machine)
    (simulates : ∀ coro next, thread.coros co = some coro →
      call coro = .ok next →
        ∃ after, Lib.Coroutines.step (leave xpaci) machine op = some after ∧
          Represents next after)
    (stepped : thread.calls co call = some next) :
    ∃ after,
      Lib.Coroutines.step (leave xpaci) machine
          (viewCalls thread co call op) = some after ∧
        Represents next after := by
  unfold Thread.calls at stepped
  split at stepped
  · rename_i isNull
    cases stepped
    have nothing : viewCalls thread co call op = .execute thread.cpu := by
      rw [viewCalls, isNull, represents.null]
      rfl
    rw [nothing]
    exact ⟨_, rfl, represents_execute represents thread.cpu⟩
  · split at stepped
    · cases stepped
    · rename_i coro found
      cases result : call coro with
      | error failure =>
          simp only [result, Option.some.injEq] at stepped
          subst stepped
          have nothing :
              viewCalls thread co call op = .execute thread.cpu := by
            simp [viewCalls, found, result]
          rw [nothing]
          exact ⟨_, rfl, represents_execute represents thread.cpu⟩
      | ok after =>
          simp only [result, Option.some.injEq] at stepped
          subst stepped
          have done : viewCalls thread co call op = op := by
            simp [viewCalls, found, result]
          rw [done]
          exact simulates coro after found result

theorem created_fresh
    {desc : McoDesc} (created : mcoCreate symbols desc co = .ok coro) :
    co ≠ 0 ∧ coro.state = .suspended ∧ coro.prevCo = 0 := by
  unfold mcoCreate at created
  split at created
  · cases created
  · rename_i given
    split at created
    · cases created
    · cases created
      exact ⟨given, rfl, rfl⟩

theorem createdElf_fresh
    {entry elfSp stackBase stackSize : Usize}
    (created :
      mcoCreateWithElfEntry symbols entry elfSp stackBase stackSize co =
        .ok coro) :
    co ≠ 0 ∧ coro.state = .suspended ∧ coro.prevCo = 0 := by
  unfold mcoCreateWithElfEntry at created
  dsimp only at created
  split at created
  · cases created
  · rename_i given
    cases created
    exact ⟨given, rfl, rfl⟩

theorem represents_step
    (thread : Thread) (op : Op) (next : Thread)
    (machine : Machine Usize Registers)
    (represents : Represents thread machine)
    (stepped : step xpaci symbols thread op = some next) :
    ∃ after,
      Lib.Coroutines.step (leave xpaci) machine
          (view xpaci symbols thread op) = some after ∧
        Represents next after := by
  cases op with
  | execute cpu =>
      cases stepped
      exact ⟨_, rfl, represents_execute represents cpu⟩
  | store address byte =>
      cases stepped
      exact
        ⟨_, rfl,
          represents_store (represents_execute represents thread.cpu) _⟩
  | create func userData stackSize co =>
      exact
        represents_adds represents (fun _ made => created_fresh made) stepped
  | createElf entry elfSp stackBase stackSize co =>
      exact
        represents_adds represents (fun _ made => createdElf_fresh made)
          stepped
  | fork parent child =>
      simp only [step] at stepped
      split at stepped
      · cases stepped
      · rename_i coro found
        by_cases isNull : child = 0
        · rw [if_pos isNull] at stepped
          cases stepped
          simp only [view, found, if_pos isNull]
          exact ⟨_, rfl, represents_execute represents thread.cpu⟩
        · rw [if_neg isNull] at stepped
          simp only [view, found, if_neg isNull]
          have copied :=
            represents_store represents
              (childMemory thread.bytes coro.toMcoCoro child)
          have fresh (made : Coro)
              (isMade :
                (.ok (forkedCoro coro child) : Except McoError Coro) =
                  .ok made) :
              child ≠ 0 ∧ made.state = .suspended ∧ made.prevCo = 0 := by
            cases isMade
            exact ⟨isNull, rfl, rfl⟩
          have simulated :=
            @represents_adds xpaci _ next machine child _ copied fresh stepped
          exact simulated
  | resume co =>
      refine represents_calls represents ?_ stepped
      intro coro next found result
      exact
        represents_resumed represents found
          (represents.resumed_of_call found result)
  | yield co stackAddr =>
      refine represents_calls represents ?_ stepped
      intro coro next found result
      obtain ⟨running, left⟩ := represents.left_of_call found result
      exact
        represents_left represents found running (.inl rfl) left rfl
  | ends co =>
      simp only [step] at stepped
      split at stepped
      · rename_i isCurrent
        refine represents_calls represents ?_ stepped
        rintro coro next found ⟨⟩
        have running := (represents.running_iff co coro found).mpr isCurrent
        exact
          represents_left represents found running (.inr rfl)
            (left_of_jumpout found represents.null
              (represents.ne_prevCo found running) .dead)
            rfl
      · cases stepped
  | destroy co =>
      refine represents_calls represents ?_ stepped
      intro coro next found result
      unfold Thread.mcoDestroy at result
      split at result
      · rename_i inactive
        cases result
        exact represents_remove represents found inactive
      · cases result

end Represents

end Vproc.Sched.ContextSwitch
