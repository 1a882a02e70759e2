import Vproc.Exec.Instructions
import Vproc.Sched.CoroutineTurns

/-!
# The routine which switches

`_mco_switch` stores registers in one buffer and loads them from another.  Its
instructions are executed one by one, on the bytes of the buffers, and come to
what a switch is for the records: `saved` in the first buffer, and `loaded`
from the second.  They store nothing else.

A coroutine which is entered for the first time is to go through
`_mco_wrap_main`, and a program through `__mco_elf_entry` after that.
-/

namespace Vproc.Sched.SwitchCode

open Vproc.Lib.Memory
open Vproc.Exec.Elf
open Vproc.Exec.Words
open Vproc.Exec.Instructions
open Vproc.Sched.ForkContext
open Vproc.Sched.CoroutineBlocks
open Vproc.Sched.ContextSwitch
open Vproc.Sched.CoroutineTurns

/-! ## The routines of the source -/

/-- `_mco_switch`, up to the last `stp`. -/
def saveCode : List Insn :=
  [.btiC,
    .movFromSp 10,
    .mov 11 30,
    .xpaci 11,
    .stp 19 20 0 0,
    .stp 21 22 0 1,
    .stpD 8 9 0 7,
    .stp 23 24 0 2,
    .stpD 10 11 0 8,
    .stp 25 26 0 3,
    .stpD 12 13 0 9,
    .stp 27 28 0 4,
    .stpD 14 15 0 10,
    .stp 29 11 0 5,
    .stp 10 11 0 6]

/-- `_mco_switch`, from the first `ldp` on. -/
def loadCode : List Insn :=
  [.ldp 19 20 1 0,
    .ldp 21 22 1 1,
    .ldpD 8 9 1 7,
    .ldp 23 24 1 2,
    .ldpD 10 11 1 8,
    .ldp 25 26 1 3,
    .ldpD 12 13 1 9,
    .ldp 27 28 1 4,
    .ldpD 14 15 1 10,
    .ldp 29 30 1 5,
    .ldp 10 11 1 6,
    .movToSp 10,
    .ret]

/-- `_mco_switch`. -/
def mcoSwitch : List Insn :=
  saveCode ++ loadCode

/-- `_mco_wrap_main`. -/
def mcoWrapMain : List Insn :=
  [.btiC, .mov 0 19, .mov 30 21, .br 20]

/-- `__mco_elf_entry`. -/
def mcoElfEntry : List Insn :=
  [.movToSp 22, .br 0]

/-! ## Buffers in memory -/

/-- `sizeof(_mco_ctxbuf)`. -/
def sizeofCtxbuf : Nat := 176

/-- The word with an index in a buffer. -/
def fieldAt (bytes : Bytes) (address : Usize) (index : Nat) : Usize :=
  wordAt bytes (address + BitVec.ofNat 64 (8 * index))

/-- The buffer at an address. -/
def ctxbufAt (bytes : Bytes) (address : Usize) : Ctxbuf where
  x := fun i => fieldAt bytes address i
  sp := fieldAt bytes address 12
  lr := fieldAt bytes address 13
  d := fun i => fieldAt bytes address (14 + i)

/-- The two buffers of a context. -/
def contextAt (bytes : Bytes) (address : Usize) : Context where
  ctx := ctxbufAt bytes address
  backCtx := ctxbufAt bytes (address + BitVec.ofNat 64 sizeofCtxbuf)

/-- The registers of a thread. -/
def registersOf (cpu : Processor) : Registers where
  x := fun i => cpu.x ⟨19 + i, by omega⟩
  sp := cpu.sp
  d := fun i => cpu.d ⟨8 + i, by omega⟩
  pc := cpu.pc

/-- Words put into a buffer, each with its index. -/
def putFields (bytes : Bytes) (address : Usize)
    (fields : List (Nat × Usize)) : Bytes :=
  fields.foldl
    (fun bytes field =>
      putWord bytes (address + BitVec.ofNat 64 (8 * field.1)) field.2)
    bytes

/-- The words of a buffer, in the order in which they are stored. -/
def stored (buf : Ctxbuf) : List (Nat × Usize) :=
  [(0, buf.x 0), (1, buf.x 1), (2, buf.x 2), (3, buf.x 3),
    (14, buf.d 0), (15, buf.d 1), (4, buf.x 4), (5, buf.x 5),
    (16, buf.d 2), (17, buf.d 3), (6, buf.x 6), (7, buf.x 7),
    (18, buf.d 4), (19, buf.d 5), (8, buf.x 8), (9, buf.x 9),
    (20, buf.d 6), (21, buf.d 7), (10, buf.x 10), (11, buf.x 11),
    (12, buf.sp), (13, buf.lr)]

/-! ## Fields of a buffer -/

section Fields

variable {bytes : Bytes} {address : Usize} {fields : List (Nat × Usize)}

/-- Words with different indices do not overlap. -/
theorem words_apart
    {first second : Nat} (differs : first ≠ second)
    (isSmall : first < 2 ^ 60) (small : second < 2 ^ 60) {x : Usize}
    (inFirst : InRange (address + BitVec.ofNat 64 (8 * first)) 8 x) :
    ¬ InRange (address + BitVec.ofNat 64 (8 * second)) 8 x := by
  rw [inRange_offset_iff (by omega)] at inFirst ⊢
  omega

theorem fieldAt_putFields_of_notMem
    {index : Nat} (isSmall : index < 2 ^ 60)
    (small : ∀ field ∈ fields, field.1 < 2 ^ 60)
    (absent : index ∉ fields.map Prod.fst) :
    fieldAt (putFields bytes address fields) address index =
      fieldAt bytes address index := by
  induction fields generalizing bytes with
  | nil => rfl
  | cons field rest induction =>
      rw [List.map_cons, List.mem_cons, not_or] at absent
      refine
        (induction (fun other member => small other (.tail field member))
          absent.2).trans ?_
      apply wordAt_congr
      intro x inField
      exact
        putWord_outside
          (words_apart absent.1 isSmall (small field List.mem_cons_self)
            inField)

theorem fieldAt_putFields
    {index : Nat} {word : Usize} (member : (index, word) ∈ fields)
    (nodup : (fields.map Prod.fst).Nodup)
    (small : ∀ field ∈ fields, field.1 < 2 ^ 60) :
    fieldAt (putFields bytes address fields) address index = word := by
  induction fields generalizing bytes with
  | nil => cases member
  | cons field rest induction =>
      rw [List.map_cons, List.nodup_cons] at nodup
      have smaller (other : Nat × Usize) (inRest : other ∈ rest) :
          other.1 < 2 ^ 60 :=
        small other (.tail field inRest)
      rcases List.mem_cons.mp member with rfl | later
      · refine
          (fieldAt_putFields_of_notMem (small _ List.mem_cons_self) smaller
            nodup.1).trans ?_
        exact wordAt_putWord bytes _ word
      · exact induction later nodup.2 smaller

theorem putFields_outside
    {count : Nat} (small : ∀ field ∈ fields, field.1 < count) {x : Usize}
    (outside : ¬ InRange address (8 * count) x) :
    putFields bytes address fields x = bytes x := by
  induction fields generalizing bytes with
  | nil => rfl
  | cons field rest induction =>
      have here := small field List.mem_cons_self
      refine
        (induction fun other member => small other (.tail field member)).trans
          ?_
      apply putWord_outside
      intro inField
      exact outside (inRange_of_offset inField (by omega))

theorem ctxbufAt_congr
    {other : Bytes}
    (agree : ∀ x, InRange address sizeofCtxbuf x → bytes x = other x) :
    ctxbufAt bytes address = ctxbufAt other address := by
  have field (index : Nat) (small : index < 22) :
      fieldAt bytes address index = fieldAt other address index := by
    apply wordAt_congr
    intro x inField
    exact agree x (inRange_of_offset inField (by unfold sizeofCtxbuf; omega))
  rw [ctxbufAt, ctxbufAt, Ctxbuf.mk.injEq]
  exact
    ⟨funext fun i => field i (by omega), field 12 (by decide),
      field 13 (by decide), funext fun i => field (14 + i) (by omega)⟩

theorem stored_small (buf : Ctxbuf) :
    ∀ field ∈ stored buf, field.1 < 22 := by
  simp [stored]

theorem ctxbufAt_putFields (buf : Ctxbuf) :
    ctxbufAt (putFields bytes address (stored buf)) address = buf := by
  have field (index : Nat) (word : Usize)
      (member : (index, word) ∈ stored buf) :
      fieldAt (putFields bytes address (stored buf)) address index = word := by
    refine fieldAt_putFields member ?_ fun other inside => ?_
    · simp [stored]
    · exact (stored_small buf other inside).trans (by decide)
  obtain ⟨x, sp, lr, d⟩ := buf
  rw [ctxbufAt, Ctxbuf.mk.injEq]
  refine
    ⟨funext fun i => field i (x i) ?_, field 12 sp (by simp [stored]),
      field 13 lr (by simp [stored]),
      funext fun i => field (14 + i) (d i) ?_⟩
  · fin_cases i <;> simp [stored]
  · fin_cases i <;> simp [stored]

/-- The two buffers of a context do not overlap. -/
theorem buffers_apart {x : Usize}
    (inBack :
      InRange (address + BitVec.ofNat 64 sizeofCtxbuf) sizeofCtxbuf x) :
    ¬ InRange address sizeofCtxbuf x := by
  rw [inRange_offset_iff (by decide)] at inBack
  exact Nat.not_lt.mpr inBack.1

/-- A context put into memory, in the order of its buffers. -/
def putContext (bytes : Bytes) (address : Usize) (context : Context) : Bytes :=
  putFields (putFields bytes address (stored context.ctx))
    (address + BitVec.ofNat 64 sizeofCtxbuf) (stored context.backCtx)

theorem contextAt_putContext (context : Context) :
    contextAt (putContext bytes address context) address = context := by
  have first :
      ctxbufAt (putContext bytes address context) address = context.ctx := by
    refine
      (ctxbufAt_congr fun x inside => ?_).trans
        (@ctxbufAt_putFields bytes address context.ctx)
    refine putFields_outside (stored_small _) fun inBack => ?_
    exact buffers_apart inBack inside
  rw [contextAt, first, putContext, ctxbufAt_putFields]

end Fields

/-! ## The switch -/

section Switch

variable {xpaci : Usize → Usize} {fetch : Fetch}

/-- The registers are stored in the first buffer, and `x1` is kept. -/
theorem executeAll_saveCode (cpu : Processor) :
    (cpu.executeAll xpaci saveCode).bytes =
        putFields cpu.bytes (cpu.x 0)
          (stored (saved xpaci (registersOf cpu))) ∧
      ∀ i : Fin 31, i.val ≠ 10 → i.val ≠ 11 →
        (cpu.executeAll xpaci saveCode).x i = cpu.x i := by
  refine ⟨rfl, fun i notTen notEleven => ?_⟩
  fin_cases i <;> first | rfl | contradiction

/-- The registers are loaded from the second buffer. -/
theorem executeAll_loadCode (cpu : Processor) :
    registersOf (cpu.executeAll xpaci loadCode) =
        loaded (ctxbufAt cpu.bytes (cpu.x 1)) ∧
      (cpu.executeAll xpaci loadCode).bytes = cpu.bytes := by
  refine ⟨?_, rfl⟩
  rw [registersOf, loaded, Registers.mk.injEq]
  refine ⟨funext fun i => ?_, rfl, funext fun i => ?_, rfl⟩
  · fin_cases i <;> rfl
  · fin_cases i <;> rfl

/--
`_mco_switch`, on two buffers which do not overlap: its caller's registers are
stored in the first, those in the second are loaded, and execution goes on at
the `x30` among them.  No other byte is stored to.
-/
theorem switch_executes
    (cpu : Processor) (installed : Installed fetch cpu.pc mcoSwitch)
    (apart : ∀ address, InRange (cpu.x 0) sizeofCtxbuf address →
      ¬ InRange (cpu.x 1) sizeofCtxbuf address) :
    ∃ after,
      runs fetch xpaci mcoSwitch.length cpu = some after ∧
        registersOf after = loaded (ctxbufAt cpu.bytes (cpu.x 1)) ∧
        ctxbufAt after.bytes (cpu.x 0) = saved xpaci (registersOf cpu) ∧
        ctxbufAt after.bytes (cpu.x 1) = ctxbufAt cpu.bytes (cpu.x 1) ∧
        ∀ address, ¬ InRange (cpu.x 0) sizeofCtxbuf address →
          after.bytes address = cpu.bytes address := by
  have ran :=
    @runs_of_installed fetch xpaci mcoSwitch cpu installed (by decide)
  have split :
      cpu.executeAll xpaci mcoSwitch =
        (cpu.executeAll xpaci saveCode).executeAll xpaci loadCode :=
    List.foldl_append
  obtain ⟨bytes, kept⟩ := @executeAll_saveCode xpaci cpu
  obtain ⟨registers, unchanged⟩ :=
    @executeAll_loadCode xpaci (cpu.executeAll xpaci saveCode)
  have second : (cpu.executeAll xpaci saveCode).x 1 = cpu.x 1 :=
    kept 1 (by decide) (by decide)
  have outside (address : Usize)
      (isOutside : ¬ InRange (cpu.x 0) sizeofCtxbuf address) :
      (cpu.executeAll xpaci saveCode).bytes address = cpu.bytes address := by
    rw [bytes]
    exact putFields_outside (stored_small _) isOutside
  have other :
      ctxbufAt (cpu.executeAll xpaci saveCode).bytes (cpu.x 1) =
        ctxbufAt cpu.bytes (cpu.x 1) :=
    ctxbufAt_congr fun address inside =>
      outside address fun inFirst => apart address inFirst inside
  rw [← split] at registers unchanged
  rw [second, other] at registers
  refine ⟨_, ran, registers, ?_, ?_, ?_⟩
  · rw [unchanged, bytes]
    exact ctxbufAt_putFields _
  · rw [unchanged]
    exact other
  · intro address isOutside
    rw [unchanged]
    exact outside address isOutside

/-- A processor at the routine, with the addresses of two buffers. -/
def atSwitch (first second : Usize) (bytes : Bytes) : Processor where
  x := fun i => if i = 0 then first else if i = 1 then second else 0x1000
  sp := 0x1000
  d := fun _ => 0x1000
  pc := 0x1000
  bytes := bytes

theorem registersOf_atSwitch (first second : Usize) (bytes : Bytes) :
    registersOf (atSwitch first second bytes) = registersAt 0x1000 := by
  rw [registersOf, registersAt, Registers.mk.injEq]
  refine ⟨funext fun i => ?_, rfl, rfl, rfl⟩
  fin_cases i <;> rfl

theorem installed_mcoSwitch :
    Installed (codeFrom 0x1000 mcoSwitch) 0x1000 mcoSwitch :=
  @installed_codeFrom 0x1000 [] mcoSwitch (by decide)

end Switch

/-! ## The calls -/

section Calls

variable {xpaci : Usize → Usize} {fetch : Fetch} {cpu : Processor}
  {context : Usize}

/-- A buffer is a part of its context. -/
theorem inRange_context {offset : Nat} {address : Usize}
    (isPart : offset ≤ sizeofCtxbuf)
    (inside : InRange (context + BitVec.ofNat 64 offset) sizeofCtxbuf address) :
    InRange context sizeofContext.toNat address := by
  have size : sizeofContext.toNat = 352 := rfl
  have half : sizeofCtxbuf = 176 := rfl
  exact inRange_of_offset inside (by omega)

/-- The routine on the buffers of a context, `back_ctx` first. -/
theorem jumpin_executes
    (installed : Installed fetch cpu.pc mcoSwitch)
    (first : cpu.x 0 = context + BitVec.ofNat 64 sizeofCtxbuf)
    (second : cpu.x 1 = context) :
    ∃ after,
      runs fetch xpaci mcoSwitch.length cpu = some after ∧
        registersOf after = loaded (contextAt cpu.bytes context).ctx ∧
        contextAt after.bytes context =
          { contextAt cpu.bytes context with
            backCtx := saved xpaci (registersOf cpu) } ∧
        ∀ address, ¬ InRange context sizeofContext.toNat address →
          after.bytes address = cpu.bytes address := by
  have apart (address : Usize)
      (inFirst : InRange (cpu.x 0) sizeofCtxbuf address) :
      ¬ InRange (cpu.x 1) sizeofCtxbuf address := by
    rw [first] at inFirst
    rw [second]
    exact buffers_apart inFirst
  rcases @switch_executes xpaci fetch cpu installed apart with
    ⟨after, ran, registers, stores, keeps, outside⟩
  rw [first] at stores outside
  rw [second] at registers keeps
  refine ⟨after, ran, registers, ?_, ?_⟩
  · rw [contextAt, stores, keeps]
    rfl
  · intro address isOutside
    exact
      outside address fun inBack =>
        isOutside (inRange_context le_rfl inBack)

/-- The same with `ctx` first. -/
theorem jumpout_executes
    (installed : Installed fetch cpu.pc mcoSwitch)
    (first : cpu.x 0 = context)
    (second : cpu.x 1 = context + BitVec.ofNat 64 sizeofCtxbuf) :
    ∃ after,
      runs fetch xpaci mcoSwitch.length cpu = some after ∧
        registersOf after = loaded (contextAt cpu.bytes context).backCtx ∧
        contextAt after.bytes context =
          { contextAt cpu.bytes context with
            ctx := saved xpaci (registersOf cpu) } ∧
        ∀ address, ¬ InRange context sizeofContext.toNat address →
          after.bytes address = cpu.bytes address := by
  have apart (address : Usize)
      (inFirst : InRange (cpu.x 0) sizeofCtxbuf address) :
      ¬ InRange (cpu.x 1) sizeofCtxbuf address := by
    rw [first] at inFirst
    rw [second]
    exact fun inBack => buffers_apart inBack inFirst
  rcases @switch_executes xpaci fetch cpu installed apart with
    ⟨after, ran, registers, stores, keeps, outside⟩
  rw [first] at stores outside
  rw [second] at registers keeps
  refine ⟨after, ran, registers, ?_, ?_⟩
  · rw [contextAt, stores, keeps]
    rfl
  · intro address isOutside
    refine outside address fun inFirst => isOutside ?_
    exact inRange_mono inFirst (by decide)

/-- The routine leaves what a call is to leave. -/
structure Executes (fetch : Fetch) (xpaci : Usize → Usize) (cpu : Processor)
    (context co : Usize) (next : Thread) (after : Processor) : Prop where
  runs : runs fetch xpaci mcoSwitch.length cpu = some after
  registers : registersOf after = next.cpu
  record : ∃ coro, next.coros co = some coro ∧
    contextAt after.bytes context = coro.context
  outside : ∀ address, ¬ InRange context sizeofContext.toNat address →
    after.bytes address = cpu.bytes address

/--
`_mco_switch` does in memory what `mco_resume` does to the record of a
coroutine, if it is called on the buffers of its context with `back_ctx` first;
and what `mco_yield` does, with `ctx` first.
-/
theorem switch_is_resume_and_yield
    (bytes : Bytes) (start : Registers) (ops : List Op) (symbols : Symbols)
    (thread next : Thread) (co stackAddr : Usize) (coro : Coro)
    (cpu : Processor) (context : Usize)
    (reached :
      Lib.Run.run (step xpaci symbols) (Thread.init start bytes) ops =
        some thread)
    (found : thread.coros co = some coro)
    (installed : Installed fetch cpu.pc mcoSwitch)
    (isCpu : { registersOf cpu with pc := thread.cpu.pc } = thread.cpu)
    (isContext : contextAt cpu.bytes context = coro.context) :
    (thread.mcoResume xpaci co coro = .ok next →
        cpu.x 0 = context + BitVec.ofNat 64 sizeofCtxbuf →
        cpu.x 1 = context →
        ∃ after, Executes fetch xpaci cpu context co next after) ∧
      (thread.mcoYield xpaci co stackAddr coro = .ok next →
        cpu.x 0 = context →
        cpu.x 1 = context + BitVec.ofNat 64 sizeofCtxbuf →
        ∃ after, Executes fetch xpaci cpu context co next after) := by
  rcases represents_of_reached reached with ⟨machine, represents⟩
  have isSaved : saved xpaci (registersOf cpu) = saved xpaci thread.cpu := by
    rw [← isCpu]
    rfl
  constructor
  · intro call first second
    have resumed := represents.resumed_of_call found call
    rcases @jumpin_executes xpaci fetch cpu context installed first second
      with ⟨after, ran, registers, stores, outside⟩
    rw [isContext] at registers stores
    rw [isSaved] at stores
    exact
      ⟨after, ran, registers.trans resumed.cpu.symm,
        ⟨_, resumed.self, stores⟩, outside⟩
  · intro call first second
    rcases represents.left_of_call found call with ⟨_, left⟩
    rcases @jumpout_executes xpaci fetch cpu context installed first second
      with ⟨after, ran, registers, stores, outside⟩
    rw [isContext] at registers stores
    rw [isSaved] at stores
    exact
      ⟨after, ran, registers.trans left.cpu.symm,
        ⟨_, left.self, stores⟩, outside⟩

theorem switch_is_resume_and_yield_resumed :
    ∃ coro next after,
      (someThread [.create 0x400400 0 0 0x10000]).coros 0x10000 = some coro ∧
        Executes (codeFrom 0x1000 mcoSwitch) id
          (atSwitch 0x200b0 0x20000
            (putContext (fun _ => 0) 0x20000 coro.context))
          0x20000 0x10000 next after := by
  let before : List Op :=
    [.create 0x400400 0 0 0x10000, .execute (registersAt 0x1000)]
  let coro := initialCoro someSymbols (descOf 0x400400 0 0) 0x10000
  let next :=
    ((someThread before).modify 0x10000 fun coro =>
      { coro with state := .running }).jumpin id 0x10000 coro
  have turns :=
    @switch_is_resume_and_yield id (codeFrom 0x1000 mcoSwitch) (fun _ => 0)
      (registersAt 5) before someSymbols (someThread before) next 0x10000 0
      coro
      (atSwitch 0x200b0 0x20000
        (putContext (fun _ => 0) 0x20000 coro.context))
      0x20000 (someRun_eq (by decide +kernel)) rfl installed_mcoSwitch
      (by rw [registersOf_atSwitch]; rfl)
      (contextAt_putContext coro.context)
  rcases turns.1 rfl rfl rfl with ⟨after, executes⟩
  exact ⟨coro, _, after, rfl, executes⟩

end Calls

/-! ## Entering -/

section Enter

variable {xpaci : Usize → Usize} {fetch : Fetch} {symbols : Symbols}

/--
From a context of `_mco_makectx`, `_mco_wrap_main` calls `_mco_main` with the
coroutine, at the top of its stack.
-/
theorem enters_function
    (cpu : Processor) (co stackBase stackSize : Usize)
    (installed : Installed fetch symbols.mcoWrapMain mcoWrapMain)
    (isCpu :
      registersOf cpu =
        { loaded (mcoMakectx symbols co stackBase stackSize) with
          pc := symbols.mcoWrapMain }) :
    ∃ after,
      runs fetch xpaci mcoWrapMain.length cpu = some after ∧
        after.pc = symbols.mcoMain ∧ after.x 0 = co ∧
        after.x 30 = dummyReturn ∧ after.sp = stackBase + stackSize := by
  have isPc : cpu.pc = symbols.mcoWrapMain := congrArg Registers.pc isCpu
  have isX :
      (registersOf cpu).x = (mcoMakectx symbols co stackBase stackSize).x :=
    congrArg Registers.x isCpu
  rw [← isPc] at installed
  refine
    ⟨_, @runs_of_installed fetch xpaci _ cpu installed (by decide), ?_, ?_, ?_,
      ?_⟩
  · exact congrFun isX 1
  · exact congrFun isX 0
  · exact congrFun isX 2
  · exact congrArg Registers.sp isCpu

/--
From a context of `_mco_makectx_elf`, the two routines enter the program with
the stack pointer at its arguments.
-/
theorem enters_program
    (cpu : Processor) (entry elfSp stackBase stackSize : Usize)
    (wraps : Installed fetch symbols.mcoWrapMain mcoWrapMain)
    (enters : Installed fetch symbols.mcoElfEntry mcoElfEntry)
    (isCpu :
      registersOf cpu =
        { loaded (mcoMakectxElf symbols entry elfSp stackBase stackSize) with
          pc := symbols.mcoWrapMain }) :
    ∃ after,
      runs fetch xpaci (mcoWrapMain.length + mcoElfEntry.length) cpu =
          some after ∧
        after.pc = entry ∧ after.sp = elfSp ∧ after.x 30 = dummyReturn := by
  have isPc : cpu.pc = symbols.mcoWrapMain := congrArg Registers.pc isCpu
  have isX :
      (registersOf cpu).x =
        (mcoMakectxElf symbols entry elfSp stackBase stackSize).x :=
    congrArg Registers.x isCpu
  rw [← isPc] at wraps
  have wrapped := @runs_of_installed fetch xpaci _ cpu wraps (by decide)
  have isEntry :
      (cpu.executeAll xpaci mcoWrapMain).pc = symbols.mcoElfEntry :=
    congrFun isX 1
  rw [← isEntry] at enters
  have entered :=
    @runs_of_installed fetch xpaci _ (cpu.executeAll xpaci mcoWrapMain) enters
      (by decide)
  rw [runs_add, wrapped]
  refine ⟨_, entered, ?_, ?_, ?_⟩
  · exact congrFun isX 0
  · exact congrFun isX 3
  · exact congrFun isX 2

end Enter

end Vproc.Sched.SwitchCode
