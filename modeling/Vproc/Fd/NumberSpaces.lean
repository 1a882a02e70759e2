import Vproc.Fd.DescriptorIsolation
import Vproc.Fd.Resolution

/-!
# Pipe numbers and table numbers

`pipe` returns kernel numbers, which enter no table; `open`, `openat`, `creat`
and `dup` return numbers which the table counts up from 3.  Nobody compares
the two, so the table may hand out a number under which the process holds a
pipe end, and the kernel one which is an entry of the table.  Then the number
stands for the entry only.

A process holds a number from the call which returns it to the `close` which
names it.  As long as the two kinds of numbers keep apart, and nobody closes
the kernel number behind a number which is held, every number stands for what
it was returned for.  `held` has no counterpart in the source.
-/

namespace Vproc.Fd.NumberSpaces

open Vproc.Lib.Run
open Vproc.Lib.FiniteMap
open Vproc.Fd.Table
open Vproc.Fd.KernelTable
open Vproc.Fd.Runtime
open Vproc.Fd.Runtime.World
open Vproc.Fd.Effects
open Vproc.Fd.DescriptorIsolation
open Vproc.Fd.Resolution

/-! ## What a number stands for -/

/-- The kernel number behind a number of a process. -/
def behind (world : World) (vpid : VPid) (fd : CInt) : Option CInt :=
  match world.entry vpid (asU32 fd) with
  | some vfd => vfd.kernelFd
  | none => some fd

/-- What `read`, `write` and `close` of a process act on. -/
def actsOn (world : World) (vpid : VPid) (fd : CInt) : Option Target :=
  match world.entry vpid (asU32 fd) with
  | some vfd => resolve world.kernel vfd
  | none => (world.kernel.files fd).map .file

/-- What an object leads to. -/
def targetOf (kernel : Kernel) : Object → Option Target
  | .kernel fd => (kernel.files fd).map .file
  | .pipeRead buf => some (.pipe (.pipeRead buf))
  | .pipeWrite buf => some (.pipe (.pipeWrite buf))

/-- `read`, `write` and `close` take the number for this target. -/
def Acts (world : World) (vpid : VPid) (fd : CInt)
    (target : Target) : Prop :=
  ∀ access ∈
      [readAccess (world.getTable vpid) fd,
        writeAccess (world.getTable vpid) fd,
        closeAccess (world.getTable vpid) fd],
    access.object.bind (targetOf world.kernel) = some target

theorem targetOf_objectOf (kernel : Kernel) (vfd : Vfd) :
    targetOf kernel (objectOf vfd) = resolve kernel vfd := by
  cases vfd with
  | real fd => rfl
  | file ref => rfl
  | pipeRead buf => rfl
  | pipeWrite buf => rfl

theorem acts_of_actsOn
    {world : World} {vpid : VPid} {fd : CInt} {target : Target}
    (nonneg : 0 ≤ fd) (acts : actsOn world vpid fd = some target) :
    Acts world vpid fd target := by
  have objects (access : Access)
      (member : access ∈
        [readAccess (world.getTable vpid) fd,
          writeAccess (world.getTable vpid) fd,
          closeAccess (world.getTable vpid) fd]) :
      access.object =
        match world.entry vpid (asU32 fd) with
        | some vfd => some (objectOf vfd)
        | none => some (.kernel fd) := by
    simp only [World.entry, readAccess, writeAccess, transferAccess,
      closeAccess, not_lt.mpr nonneg, if_false, List.mem_cons,
      List.not_mem_nil, or_false] at member ⊢
    cases isTable : world.getTable vpid with
    | none =>
        simp only [isTable, Option.bind_none] at member ⊢
        rcases member with rfl | rfl | rfl <;> rfl
    | some table =>
        simp only [isTable, Option.bind_some] at member ⊢
        cases found : table.get (asU32 fd) with
        | none =>
            simp only [found] at member ⊢
            rcases member with rfl | rfl | rfl <;> rfl
        | some vfd =>
            simp only [found] at member ⊢
            cases vfd with
            | _ => rcases member with rfl | rfl | rfl <;> rfl
  intro access member
  rw [objects access member]
  unfold actsOn at acts
  cases found : world.entry vpid (asU32 fd) with
  | none =>
      rw [found] at acts
      exact acts
  | some vfd =>
      rw [found] at acts
      exact (targetOf_objectOf world.kernel vfd).trans acts

/-! ## Runs of a process among others -/

/-- The world, and the numbers which a process holds. -/
structure Numbers where
  world : World
  held : List (CInt × Target)

/-- A call of the process, or of another one. -/
inductive NumberOp where
  | own (call : SysCall)
  | other (vpid : VPid) (call : SysCall)
deriving DecidableEq, Repr

/-- The calls of the process; the kernel answers with numbers of a C `int`. -/
def isNumberCall : SysCall → Bool
  | .openPath _ _ => true
  | .openatPath _ _ => true
  | .creat _ => true
  | .dup _ answer => decide (answer < 2147483648)
  | .close _ => true
  | .pipe readFd writeFd =>
      decide (readFd < 2147483648) && decide (writeFd < 2147483648)
  | _ => false

/-- The calls which return one number. -/
def isOpening : SysCall → Bool
  | .openPath _ _ => true
  | .openatPath _ _ => true
  | .creat _ => true
  | .dup _ _ => true
  | _ => false

/-- The numbers a call returns, with what they are returned for. -/
def returned (world : World) (vpid : VPid) (call : SysCall) :
    List (CInt × Target) :=
  let reply := (world.sys vpid call).2
  if reply < 0 then []
  else
    match call with
    | .dup oldFd _ =>
        ((actsOn world vpid oldFd).map fun target =>
          (reply, target)).toList
    | .pipe readFd writeFd =>
        [(readFd, .file world.kernel.nextFile),
          (writeFd, .file (world.kernel.nextFile + 1))]
    | .close _ => []
    | _ => [(reply, .file world.kernel.nextFile)]

/-- The numbers which a call does not close. -/
def stillHeld (held : List (CInt × Target)) :
    SysCall → List (CInt × Target)
  | .close fd => held.filter fun holding => asU32 holding.1 ≠ asU32 fd
  | _ => held

/-- One step of the process or of another one. -/
def Numbers.step (vpid : VPid) (state : Numbers) :
    NumberOp → Option Numbers
  | .own call =>
      if isNumberCall call then
        some
          { world := (state.world.sys vpid call).1
            held :=
              stillHeld state.held call ++
                returned state.world vpid call }
      else none
  | .other caller call =>
      if caller ≠ vpid ∧ isInterceptor call then
        some { state with world := (state.world.sys caller call).1 }
      else none

/-! ## Keeping apart -/

/-- The number which a call takes from the table. -/
def taken (world : World) (vpid : VPid) : SysCall → Option Nat
  | .openPath _ answer =>
      if world.kernel.usable answer then
        some (world.tableOrNew vpid).nextFd
      else none
  | .openatPath _ answer =>
      if world.kernel.usable answer then
        some (world.tableOrNew vpid).nextFd
      else none
  | .creat answer =>
      if world.kernel.usable answer then
        some (world.tableOrNew vpid).nextFd
      else none
  | .dup oldFd answer =>
      match world.getTable vpid with
      | none => none
      | some table =>
          match underlyingReal table oldFd with
          | some realFd =>
              if (world.kernel.files realFd).isSome ∧
                  world.kernel.usable answer then
                some table.nextFd
              else none
          | none => some table.nextFd
  | _ => none

/-- The two numbers of a `pipe` which the kernel grants. -/
def pipeNumbers (world : World) : SysCall → Option (CInt × CInt)
  | .pipe readFd writeFd =>
      if (world.kernel.pipe readFd writeFd).2 = 0 then
        some (readFd, writeFd)
      else none
  | _ => none

/-- The call gives no number of the table. -/
def NoEntries (world after : World) (vpid : VPid)
    (call : SysCall) : Prop :=
  ∀ fds ∈ pipeNumbers world call,
    after.entry vpid (asU32 fds.1) = none ∧
      after.entry vpid (asU32 fds.2) = none

/-- A call leaves the kernel numbers behind these numbers alone. -/
def Spares (vpid : VPid) (world : World) (caller : VPid) (call : SysCall)
    (held : List (CInt × Target)) : Prop :=
  ∀ redirected ∈ redirects world caller call,
    ∀ holding ∈ held, behind world vpid holding.1 = some redirected.1 →
      redirected.2 = world.kernel.files redirected.1

instance (vpid : VPid) (world : World) (caller : VPid) (call : SysCall)
    (held : List (CInt × Target)) :
    Decidable (Spares vpid world caller call held) :=
  inferInstanceAs
    (Decidable (∀ redirected ∈ redirects world caller call, _))

/--
The table takes no number which the process holds, the kernel gives none to
`pipe` which is an entry, and no kernel number behind a number which is held
and not closed now is closed or redirected.
-/
def KeepsApart (vpid : VPid) (state : Numbers) : NumberOp → Prop
  | .own call =>
      (∀ number ∈ taken state.world vpid call,
          ∀ holding ∈ state.held, asU32 holding.1 ≠ number) ∧
        NoEntries state.world state.world vpid call ∧
        Spares vpid state.world vpid call (stillHeld state.held call)
  | .other caller call =>
      Spares vpid state.world caller call state.held

instance (world after : World) (vpid : VPid) (call : SysCall) :
    Decidable (NoEntries world after vpid call) :=
  inferInstanceAs (Decidable (∀ fds ∈ pipeNumbers world call, _ ∧ _))

instance (vpid : VPid) (state : Numbers) (op : NumberOp) :
    Decidable (KeepsApart vpid state op) :=
  match op with
  | .own call =>
      inferInstanceAs
        (Decidable
          ((∀ number ∈ taken state.world vpid call, _) ∧ _ ∧ _))
  | .other _ _ => inferInstanceAs (Decidable (Spares _ _ _ _ _))

/--
A number returned by `open`, `openat`, `creat` or `dup` is not held, and
`pipe` returns no entry of the table.
-/
def ReturnsNew (vpid : VPid) (state : Numbers) (next : Numbers) :
    NumberOp → Prop
  | .own call =>
      (isOpening call = true → 0 ≤ (state.world.sys vpid call).2 →
          ∀ holding ∈ state.held,
            holding.1 ≠ (state.world.sys vpid call).2) ∧
        NoEntries state.world next.world vpid call
  | .other _ _ => True

/-- And every number which is held stands for what it was returned for. -/
def Distinct (vpid : VPid) (state : Numbers) (op : NumberOp)
    (next : Numbers) : Prop :=
  ReturnsNew vpid state next op ∧
    ∀ holding ∈ next.held, Acts next.world vpid holding.1 holding.2

instance (vpid : VPid) (state next : Numbers) (op : NumberOp) :
    Decidable (ReturnsNew vpid state next op) :=
  match op with
  | .own _ => inferInstanceAs (Decidable ((_ → _ → _) ∧ _))
  | .other _ _ => inferInstanceAs (Decidable True)

instance (world : World) (vpid : VPid) (fd : CInt) (target : Target) :
    Decidable (Acts world vpid fd target) :=
  inferInstanceAs (Decidable (∀ access ∈ [_, _, _], _))

instance (vpid : VPid) (state : Numbers) (op : NumberOp)
    (next : Numbers) : Decidable (Distinct vpid state op next) :=
  inferInstanceAs (Decidable (_ ∧ _))

/-- The numbers held are numbers, and stand for what they should. -/
def Kept (vpid : VPid) (state : Numbers) : Prop :=
  ∀ holding ∈ state.held,
    (0 ≤ holding.1 ∧ holding.1 < 2147483648) ∧
      actsOn state.world vpid holding.1 = some holding.2

section Frame

variable {world : World} {vpid : VPid}

/-- The number has the same entry, or has got the one of its own kernel number. -/
def SameEntry (world next : World) (vpid : VPid) (fd : CInt) : Prop :=
  next.entry vpid (asU32 fd) = world.entry vpid (asU32 fd) ∨
    world.entry vpid (asU32 fd) = none ∧
      next.entry vpid (asU32 fd) = some (.real fd)

/-- A number with the same entry and an untouched kernel number is the same. -/
theorem actsOn_kept
    {caller : VPid} {call : SysCall} {fd : CInt} {target : Target}
    (interceptor : isInterceptor call = true)
    (acts : actsOn world vpid fd = some target)
    (entries : SameEntry world (world.sys caller call).1 vpid fd)
    (spared : ∀ number file, redirects world caller call =
        some (number, file) →
      behind world vpid fd = some number →
        file = world.kernel.files number) :
    actsOn (world.sys caller call).1 vpid fd = some target := by
  have files {number : CInt} {file : OpenFile}
      (isBehind : behind world vpid fd = some number)
      (used : world.kernel.files number = some file) :
      (world.sys caller call).1.kernel.files number = some file := by
    refine files_kept interceptor used ?_
    rintro redirected left isRedirected rfl
    rw [spared number left isRedirected isBehind, used]
  have raw (missing : world.entry vpid (asU32 fd) = none) :
      ((world.sys caller call).1.kernel.files fd).map Target.file =
        some target := by
    simp only [actsOn, missing] at acts
    obtain ⟨file, used, rfl⟩ := Option.map_eq_some_iff.mp acts
    rw [files (by simp only [behind, missing]) used]
    rfl
  rcases entries with same | ⟨missing, default⟩
  · cases found : world.entry vpid (asU32 fd) with
    | none =>
        rw [found] at same
        simp only [actsOn, same]
        exact raw found
    | some vfd =>
        rw [found] at same
        simp only [actsOn, same]
        simp only [actsOn, found, resolve] at acts
        unfold resolve
        cases isKernel : vfd.kernelFd with
        | none =>
            rw [isKernel] at acts
            exact acts
        | some number =>
            simp only [isKernel] at acts
            obtain ⟨file, used, rfl⟩ := Option.map_eq_some_iff.mp acts
            have isBehind : behind world vpid fd = some number := by
              simp only [behind, found, isKernel]
            dsimp only
            rw [files isBehind used]
            rfl
  · simp only [actsOn, default]
    exact raw missing

theorem asU32_of_small
    {fd : CInt} (nonneg : 0 ≤ fd) (small : fd < 2147483648) :
    (asU32 fd : CInt) = fd := by
  have inRange : fd % 4294967296 = fd :=
    Int.emod_eq_of_lt nonneg (lt_trans small (by decide))
  rw [asU32, inRange, Int.toNat_of_nonneg nonneg]

/-- A new table has each of its numbers for the kernel number itself. -/
theorem sameEntry_new
    {next : World} {fd : CInt} (nonneg : 0 ≤ fd)
    (small : fd < 2147483648)
    (noTable : world.getTable vpid = none)
    (new : next.entry vpid (asU32 fd) = VfdTable.new.get (asU32 fd)) :
    SameEntry world next vpid fd := by
  have missing : world.entry vpid (asU32 fd) = none :=
    entry_of_getTable_none noTable _
  have number := asU32_of_small nonneg small
  unfold SameEntry
  rw [new, missing, VfdTable.new, VfdTable.get_newWithFds]
  split
  · rename_i isTwo
    rw [isTwo] at number
    exact Or.inr ⟨rfl, by rw [← number]; rfl⟩
  · split
    · rename_i isOne
      rw [isOne] at number
      exact Or.inr ⟨rfl, by rw [← number]; rfl⟩
    · split
      · rename_i isZero
        rw [isZero] at number
        exact Or.inr ⟨rfl, by rw [← number]; rfl⟩
      · exact Or.inl rfl

/-- A call changes the entries of the numbers which it takes or closes. -/
theorem sameEntry_own
    {call : SysCall} {fd : CInt} (nonneg : 0 ≤ fd)
    (small : fd < 2147483648) (isCall : isNumberCall call = true)
    (notTaken : ∀ number, taken world vpid call = some number →
      asU32 fd ≠ number)
    (notClosed : ∀ closed, call = .close closed →
      asU32 fd ≠ asU32 closed) :
    SameEntry world (world.sys vpid call).1 vpid fd := by
  have entries := entry_sys world vpid call vpid (asU32 fd)
  rw [if_pos rfl] at entries
  have kept (unchanged : callChange world vpid call (asU32 fd) = none) :
      SameEntry world (world.sys vpid call).1 vpid fd := by
    rw [unchanged] at entries
    exact Or.inl entries
  have opened {cloexec : Bool} {answer : CInt}
      (isTaken : ∀ number, (if world.kernel.usable answer then
          some (world.tableOrNew vpid).nextFd else none) = some number →
        asU32 fd ≠ number)
      (change : callChange world vpid call (asU32 fd) =
        openedChange world vpid cloexec answer (asU32 fd)) :
      SameEntry world (world.sys vpid call).1 vpid fd := by
    rw [openedChange] at change
    split at change
    · rename_i usable
      rw [if_pos usable] at isTaken
      rw [changeAt, if_neg (isTaken _ rfl), Option.none_or,
        defaultChange] at change
      split at change
      · rename_i noTable
        rw [change] at entries
        exact sameEntry_new nonneg small noTable entries
      · exact kept change
    · exact kept change
  cases call with
  | openPath flags answer => exact opened notTaken rfl
  | openatPath flags answer => exact opened notTaken rfl
  | creat answer => exact opened notTaken rfl
  | dup oldFd answer =>
      refine kept ?_
      simp only [taken] at notTaken
      simp only [callChange]
      split
      · rfl
      · rename_i table isTable
        simp only [isTable] at notTaken
        split
        · rename_i realFd isReal
          simp only [isReal] at notTaken
          split
          · rename_i granted
            rw [if_pos granted] at notTaken
            exact if_neg (notTaken _ rfl)
          · rfl
        · rename_i notReal
          simp only [notReal] at notTaken
          exact if_neg (notTaken _ rfl)
  | close closed =>
      refine kept ?_
      simp only [callChange]
      split
      · rfl
      · exact if_neg (notClosed closed rfl)
  | pipe readFd writeFd => exact kept rfl
  | dup2 oldFd newFd => cases isCall
  | ffiPipe => cases isCall
  | ffiDup oldFd => cases isCall
  | ffiDup2 oldFd newFd => cases isCall
  | ffiClose closed => cases isCall
  | insertAt number vfd => cases isCall
  | readPipe number dst => cases isCall
  | writePipe number src => cases isCall

theorem sameEntry_other
    {caller : VPid} (different : caller ≠ vpid) (call : SysCall)
    (fd : CInt) :
    SameEntry world (world.sys caller call).1 vpid fd := by
  refine Or.inl ?_
  rw [entry_sys, if_neg different.symm]

theorem interceptor_of_numberCall
    {call : SysCall} (isCall : isNumberCall call = true) :
    isInterceptor call = true := by
  cases call with
  | openPath flags answer => rfl
  | openatPath flags answer => rfl
  | creat answer => rfl
  | dup oldFd answer => rfl
  | close closed => rfl
  | pipe readFd writeFd => rfl
  | _ => cases isCall

end Frame

/-! ## The numbers which a call returns -/

section Returned

variable {world : World} {vpid : VPid}

/-- A number of a table which comes out as a C `int`. -/
theorem asU32_of_reply
    {table : VfdTable} (nonneg : ¬ asCInt table.nextFd < 0) :
    asU32 (asCInt table.nextFd) = table.nextFd ∧
      asCInt table.nextFd < 2147483648 := by
  have bound := table.nextFd_lt
  refine ⟨asU32_asCInt bound, ?_⟩
  unfold asCInt at nonneg ⊢
  split
  · exact_mod_cast ‹_›
  · rename_i large
    rw [if_neg large] at nonneg
    refine (nonneg ?_).elim
    have small : (table.nextFd : Int) < 4294967296 := by exact_mod_cast bound
    exact sub_neg_of_lt small

/-- A reply stands for the file of the entry under this number. -/
theorem actsOn_of_file
    {next : World} {table : VfdTable} {reply : CInt} {ref : FileRef}
    {file : OpenFile} (isReply : reply = asCInt table.nextFd)
    (nonneg : ¬ reply < 0)
    (entry : next.entry vpid table.nextFd = some (.file ref))
    (used : next.kernel.files ref.realFd = some file) :
    reply < 2147483648 ∧ actsOn next vpid reply = some (.file file) := by
  subst isReply
  obtain ⟨number, small⟩ := asU32_of_reply nonneg
  refine ⟨small, ?_⟩
  simp only [actsOn, number, entry, resolve, Vfd.kernelFd, used,
    Option.map_some]

/-- What `open`, `openat` and `creat` return. -/
theorem opened_spec
    (cloexec : Bool) (answer : CInt)
    (succeeds : ¬ (world.insertOpened vpid cloexec answer).2 < 0) :
    let result := world.insertOpened vpid cloexec answer
    result.2 < 2147483648 ∧
      actsOn result.1 vpid result.2 =
        some (.file world.kernel.nextFile) := by
  by_cases usable : world.kernel.usable answer = true
  · have granted := insertOpened_granted world vpid cloexec usable
    have entry :=
      entry_insertOpened world vpid cloexec answer vpid
        (world.tableOrNew vpid).nextFd
    have placed :
        (openedChange world vpid cloexec answer
            (world.tableOrNew vpid).nextFd) =
          some
            (some
              (.file
                { arc := world.nextArc, realFd := answer, cloexec })) := by
      simp only [openedChange, usable, if_true, changeAt, Option.some_or]
    rw [if_pos rfl, placed, Option.getD_some] at entry
    refine actsOn_of_file (by rw [granted]) succeeds entry ?_
    rw [granted]
    simp [Kernel.openFile, usable, Kernel.assign]
  · rw [insertOpened_refused world vpid cloexec usable] at succeeds
    exact (succeeds (show (-1 : Int) < 0 by decide)).elim

section Dup

variable {oldFd answer : CInt} {target : Target}
variable (succeeds : ¬ (world.dup vpid oldFd answer).2 < 0)
variable (acts : actsOn world vpid oldFd = some target)

include succeeds acts

theorem dup_spec_without_table
    (noTable : world.getTable vpid = none)
    (small : answer < 2147483648) :
    (world.dup vpid oldFd answer).2 < 2147483648 ∧
      actsOn (world.dup vpid oldFd answer).1 vpid
          (world.dup vpid oldFd answer).2 = some target := by
  have missing (number : Nat) : world.entry vpid number = none :=
    entry_of_getTable_none noTable number
  by_cases possible :
      (world.kernel.files oldFd).isSome = true ∧
        world.kernel.usable answer = true
  · obtain ⟨file, used⟩ := Option.isSome_iff_exists.mp possible.1
    have dupped : world.kernel.dup oldFd answer =
        (world.kernel.assign answer file, answer) := by
      simp [Kernel.dup, used, possible.2]
    have result : world.dup vpid oldFd answer =
        ({ world with kernel := world.kernel.assign answer file },
          answer) := by
      simp only [World.dup, noTable, dupped]
    have entry : ({ world with
          kernel := world.kernel.assign answer file } : World).entry vpid
          (asU32 answer) = none :=
      missing _
    simp only [actsOn, missing, used] at acts
    rw [result]
    refine ⟨small, ?_⟩
    simp only [actsOn, entry]
    rw [Kernel.files_assign, if_pos rfl, acts]
  · refine (succeeds ?_).elim
    simp only [World.dup, noTable, Kernel.dup_refused _ possible]
    exact (show (-1 : Int) < 0 by decide)

variable {table : VfdTable} (isTable : world.getTable vpid = some table)

include isTable

theorem dup_spec_kernel
    {realFd : CInt} (isReal : underlyingReal table oldFd = some realFd) :
    (world.dup vpid oldFd answer).2 < 2147483648 ∧
      actsOn (world.dup vpid oldFd answer).1 vpid
          (world.dup vpid oldFd answer).2 = some target := by
  obtain ⟨vfd, found, isKernel⟩ := Option.bind_eq_some_iff.mp isReal
  have source : world.entry vpid (asU32 oldFd) = some vfd :=
    (entry_of_getTable isTable _).trans found
  by_cases possible :
      (world.kernel.files realFd).isSome = true ∧
        world.kernel.usable answer = true
  · have granted := dup_granted isTable isReal possible
    obtain ⟨file, used⟩ := Option.isSome_iff_exists.mp possible.1
    have entry := entry_dup world vpid oldFd answer vpid table.nextFd
    simp only [callChange, isTable, isReal, possible, and_self, if_true,
      changeAt, Option.getD_some] at entry
    simp only [actsOn, source, resolve, isKernel, used,
      Option.map_some] at acts
    cases acts
    refine actsOn_of_file (by rw [granted]) succeeds entry ?_
    rw [granted]
    simp [Kernel.dup, used, possible.2, Kernel.assign]
  · rw [dup_refused isTable isReal possible] at succeeds
    exact (succeeds (show (-1 : Int) < 0 by decide)).elim

theorem dup_spec_virtual
    (notReal : underlyingReal table oldFd = none) :
    (world.dup vpid oldFd answer).2 < 2147483648 ∧
      actsOn (world.dup vpid oldFd answer).1 vpid
          (world.dup vpid oldFd answer).2 = some target := by
  have source : world.entry vpid (asU32 oldFd) =
      table.get (asU32 oldFd) :=
    entry_of_getTable isTable _
  have reply := congrArg Prod.snd (dup_virtual isTable answer notReal)
  rw [VfdTable.dup_result] at reply
  split at reply
  · rw [reply] at succeeds
    exact (succeeds (show (-1 : Int) < 0 by decide)).elim
  · rename_i present
    rw [not_or] at present
    obtain ⟨vfd, found⟩ := Option.ne_none_iff_exists'.mp present.2
    have notKernel : vfd.kernelFd = none := by
      simpa [underlyingReal, found] using notReal
    have copied := entry_dup world vpid oldFd answer vpid table.nextFd
    simp only [callChange, isTable, notReal, copiedChange, changeAt,
      if_true, if_neg present.1, Option.getD_some, found] at copied
    have isReply : (world.dup vpid oldFd answer).2 =
        asCInt table.nextFd :=
      reply
    rw [isReply] at succeeds
    obtain ⟨number, small⟩ := asU32_of_reply succeeds
    simp only [actsOn, source, found, resolve, notKernel] at acts
    rw [isReply]
    refine ⟨small, ?_⟩
    simp only [actsOn, number, copied, resolve, notKernel]
    exact acts

end Dup

/-- What `dup` returns: another number for the same. -/
theorem dup_spec
    {oldFd answer : CInt} {target : Target}
    (succeeds : ¬ (world.dup vpid oldFd answer).2 < 0)
    (acts : actsOn world vpid oldFd = some target)
    (small : answer < 2147483648) :
    (world.dup vpid oldFd answer).2 < 2147483648 ∧
      actsOn (world.dup vpid oldFd answer).1 vpid
          (world.dup vpid oldFd answer).2 = some target := by
  cases isTable : world.getTable vpid with
  | none => exact dup_spec_without_table succeeds acts isTable small
  | some table =>
      cases isReal : underlyingReal table oldFd with
      | none => exact dup_spec_virtual succeeds acts isTable isReal
      | some realFd => exact dup_spec_kernel succeeds acts isTable isReal

/-- What `pipe` returns, if it returns no entries. -/
theorem pipe_spec
    {readFd writeFd : CInt}
    (succeeds : (world.kernel.pipe readFd writeFd).2 = 0)
    (noRead : world.entry vpid (asU32 readFd) = none)
    (noWrite : world.entry vpid (asU32 writeFd) = none) :
    (0 ≤ readFd ∧ 0 ≤ writeFd) ∧
      actsOn (world.pipe vpid readFd writeFd).1 vpid readFd =
        some (.file world.kernel.nextFile) ∧
      actsOn (world.pipe vpid readFd writeFd).1 vpid writeFd =
        some (.file (world.kernel.nextFile + 1)) := by
  have entries (number : Nat) :
      (world.pipe vpid readFd writeFd).1.entry vpid number =
        world.entry vpid number :=
    entry_congr (pipe_tables world vpid readFd writeFd) vpid number
  unfold Kernel.pipe at succeeds
  split at succeeds
  · rename_i granted
    have made : world.kernel.pipe readFd writeFd = _ := if_pos granted
    simp only [Bool.and_eq_true, decide_eq_true_eq] at granted
    have readBounds := (Kernel.usable_iff _ _).mp granted.1.1
    have writeBounds := (Kernel.usable_iff _ _).mp granted.1.2
    refine ⟨⟨readBounds.1.1, writeBounds.1.1⟩, ?_, ?_⟩
    · simp only [actsOn, entries, noRead]
      simp [World.pipe, made, Kernel.assign, granted.2]
    · simp only [actsOn, entries, noWrite]
      simp [World.pipe, made, Kernel.assign]
  · cases succeeds

theorem pipe_reply (readFd writeFd : CInt) :
    (world.sys vpid (.pipe readFd writeFd)).2 =
      (world.kernel.pipe readFd writeFd).2 := by
  simp only [sys, pipe]
  split <;> rfl

/-- What a call returns stands for what it is returned for. -/
theorem returned_spec
    {call : SysCall} {fd : CInt} {target : Target}
    (isCall : isNumberCall call = true)
    (noEntries : NoEntries world world vpid call)
    (member : (fd, target) ∈ returned world vpid call) :
    (0 ≤ fd ∧ fd < 2147483648) ∧
      actsOn (world.sys vpid call).1 vpid fd = some target := by
  simp only [returned] at member
  split at member
  · cases member
  · rename_i succeeds
    have opened {cloexec : Bool} {answer : CInt}
        (isOpen : world.sys vpid call =
          world.insertOpened vpid cloexec answer)
        (isReply : (fd, target) =
          ((world.sys vpid call).2, .file world.kernel.nextFile)) :
        (0 ≤ fd ∧ fd < 2147483648) ∧
          actsOn (world.sys vpid call).1 vpid fd = some target := by
      cases isReply
      rw [isOpen] at succeeds ⊢
      obtain ⟨small, acts⟩ := opened_spec cloexec answer succeeds
      exact ⟨⟨not_lt.mp succeeds, small⟩, acts⟩
    cases call with
    | openPath flags answer => exact opened rfl (List.mem_singleton.mp member)
    | openatPath flags answer =>
        exact opened rfl (List.mem_singleton.mp member)
    | creat answer => exact opened rfl (List.mem_singleton.mp member)
    | dup oldFd answer =>
        rw [Option.mem_toList] at member
        obtain ⟨source, acts, isReply⟩ :=
          Option.map_eq_some_iff.mp member
        cases isReply
        obtain ⟨small, same⟩ :=
          dup_spec succeeds acts (of_decide_eq_true isCall)
        exact ⟨⟨not_lt.mp succeeds, small⟩, same⟩
    | close closed => cases member
    | pipe readFd writeFd =>
        obtain ⟨readSmall, writeSmall⟩ := Bool.and_eq_true_iff.mp isCall
        rw [pipe_reply] at succeeds
        have granted : (world.kernel.pipe readFd writeFd).2 = 0 := by
          unfold Kernel.pipe at succeeds ⊢
          split
          · rfl
          · rename_i refused
            rw [if_neg refused] at succeeds
            exact (succeeds (show (-1 : Int) < 0 by decide)).elim
        obtain ⟨noRead, noWrite⟩ :=
          noEntries (readFd, writeFd) (if_pos granted)
        obtain ⟨⟨readNonneg, writeNonneg⟩, readActs, writeActs⟩ :=
          pipe_spec granted noRead noWrite
        simp only [List.mem_cons, List.not_mem_nil, or_false] at member
        rcases member with isRead | isWrite
        · cases isRead
          exact ⟨⟨readNonneg, of_decide_eq_true readSmall⟩, readActs⟩
        · cases isWrite
          exact ⟨⟨writeNonneg, of_decide_eq_true writeSmall⟩, writeActs⟩
    | _ => cases isCall

end Returned

/-! ## Runs -/

section Steps

variable {vpid : VPid} {state next : Numbers}

theorem mem_stillHeld
    {held : List (CInt × Target)} {call : SysCall}
    {holding : CInt × Target} (member : holding ∈ stillHeld held call) :
    holding ∈ held ∧
      ∀ closed, call = .close closed →
        asU32 holding.1 ≠ asU32 closed := by
  unfold stillHeld at member
  split at member
  · rename_i fd
    obtain ⟨isHeld, other⟩ := List.mem_filter.mp member
    refine ⟨isHeld, ?_⟩
    rintro closed same
    cases same
    exact of_decide_eq_true other
  · rename_i notClose
    exact ⟨member, fun closed same => (notClose closed same).elim⟩

theorem kept_step
    (op : NumberOp) (kept : Kept vpid state)
    (stepped : state.step vpid op = some next)
    (apart : KeepsApart vpid state op) :
    Kept vpid next := by
  cases op with
  | own call =>
      simp only [Numbers.step] at stepped
      split at stepped
      · rename_i isCall
        cases stepped
        obtain ⟨notTaken, noEntries, spares⟩ := apart
        intro holding member
        rcases List.mem_append.mp member with still | new
        · obtain ⟨isHeld, notClosed⟩ := mem_stillHeld still
          obtain ⟨⟨nonneg, small⟩, acts⟩ := kept holding isHeld
          refine ⟨⟨nonneg, small⟩, ?_⟩
          refine
            actsOn_kept (interceptor_of_numberCall isCall) acts ?_ ?_
          · refine sameEntry_own nonneg small isCall ?_ notClosed
            exact fun number isTaken =>
              notTaken number isTaken holding isHeld
          · exact fun number file redirected =>
              spares (number, file) redirected holding still
        · exact returned_spec isCall noEntries new
      · cases stepped
  | other caller call =>
      simp only [Numbers.step] at stepped
      split at stepped
      · rename_i allowed
        cases stepped
        intro holding member
        obtain ⟨bounds, acts⟩ := kept holding member
        refine ⟨bounds, actsOn_kept allowed.2 acts ?_ ?_⟩
        · exact sameEntry_other allowed.1 call holding.1
        · exact fun number file redirected =>
            apart (number, file) redirected holding member
      · cases stepped

/-- The number of a table which a call takes is the one it returns. -/
theorem taken_of_reply
    {world : World} {call : SysCall} (isOpen : isOpening call = true)
    (succeeds : 0 ≤ (world.sys vpid call).2) :
    taken world vpid call = some (asU32 (world.sys vpid call).2) ∨
      world.getTable vpid = none ∧
        world.kernel.files (world.sys vpid call).2 = none := by
  have minusOne : ¬ (0 : Int) ≤ -1 := by decide
  have opened {cloexec : Bool} {answer : CInt}
      (isReply : (world.sys vpid call).2 =
        (world.insertOpened vpid cloexec answer).2)
      (isTaken : taken world vpid call =
        if world.kernel.usable answer then
          some (world.tableOrNew vpid).nextFd
        else none) :
      taken world vpid call = some (asU32 (world.sys vpid call).2) := by
    rw [isReply] at succeeds ⊢
    by_cases usable : world.kernel.usable answer = true
    · rw [isTaken, if_pos usable,
        insertOpened_granted world vpid cloexec usable]
      exact congrArg some (asU32_asCInt (VfdTable.nextFd_lt _)).symm
    · rw [insertOpened_refused world vpid cloexec usable] at succeeds
      exact (minusOne succeeds).elim
  cases call with
  | openPath flags answer => exact Or.inl (opened rfl rfl)
  | openatPath flags answer => exact Or.inl (opened rfl rfl)
  | creat answer => exact Or.inl (opened rfl rfl)
  | dup oldFd answer =>
      cases isTable : world.getTable vpid with
      | none =>
          refine Or.inr ⟨rfl, ?_⟩
          by_cases possible :
              (world.kernel.files oldFd).isSome = true ∧
                world.kernel.usable answer = true
          · have reply : (world.sys vpid (.dup oldFd answer)).2 =
                answer := by
              simp only [sys, World.dup, isTable]
              exact Kernel.dup_reply _ possible
            rw [reply]
            exact ((Kernel.usable_iff _ _).mp possible.2).2
          · simp only [sys, World.dup, isTable,
              Kernel.dup_refused _ possible] at succeeds
            exact (minusOne succeeds).elim
      | some table =>
          refine Or.inl ?_
          have number : some table.nextFd =
              some (asU32 (asCInt table.nextFd)) :=
            congrArg some (asU32_asCInt table.nextFd_lt).symm
          simp only [taken, isTable]
          simp only [sys] at succeeds ⊢
          cases isReal : underlyingReal table oldFd with
          | some realFd =>
              by_cases possible :
                  (world.kernel.files realFd).isSome = true ∧
                    world.kernel.usable answer = true
              · dsimp only
                rw [if_pos possible, dup_granted isTable isReal possible,
                  number]
              · rw [dup_refused isTable isReal possible] at succeeds
                exact (minusOne succeeds).elim
          | none =>
              rw [dup_virtual isTable answer isReal,
                VfdTable.dup_result] at succeeds ⊢
              split at succeeds
              · exact (minusOne succeeds).elim
              · rename_i present
                rw [if_neg present]
                exact number
  | _ => cases isOpen

theorem returnsNew_step
    (op : NumberOp) (kept : Kept vpid state)
    (stepped : state.step vpid op = some next)
    (apart : KeepsApart vpid state op) :
    ReturnsNew vpid state next op := by
  cases op with
  | other caller call => exact True.intro
  | own call =>
      obtain ⟨notTaken, noEntries, _⟩ := apart
      constructor
      · intro isOpen succeeds holding isHeld same
        rcases taken_of_reply isOpen succeeds with
          isTaken | ⟨noTable, free⟩
        · exact notTaken _ isTaken holding isHeld (by rw [same])
        · have acts := (kept holding isHeld).2
          simp only [actsOn, entry_of_getTable_none noTable, same, free]
            at acts
          cases acts
      · intro fds granted
        cases call with
        | pipe readFd writeFd =>
            simp only [Numbers.step] at stepped
            split at stepped
            · cases stepped
              have entries (number : Nat) :=
                entry_congr (pipe_tables state.world vpid readFd writeFd)
                  vpid number
              obtain ⟨noRead, noWrite⟩ := noEntries fds granted
              exact ⟨(entries _).trans noRead, (entries _).trans noWrite⟩
            · cases stepped
        | _ => cases granted

theorem distinct_step
    (op : NumberOp) (kept : Kept vpid state)
    (stepped : state.step vpid op = some next)
    (apart : KeepsApart vpid state op) :
    Distinct vpid state op next := by
  refine ⟨returnsNew_step op kept stepped apart, ?_⟩
  intro holding member
  obtain ⟨bounds, acts⟩ := kept_step op kept stepped apart holding member
  exact acts_of_actsOn bounds.1 acts

end Steps

/--
In every run of a process among others in which the two kinds of numbers keep
apart, no number is given twice, and every number which the process holds
stands for what it was returned for.
-/
theorem numbers_distinct
    (vpid : VPid) (world : World) (ops : List NumberOp)
    (apart : Along (Numbers.step vpid)
      (fun state op _ => KeepsApart vpid state op)
      { world := world, held := [] } ops) :
    Along (Numbers.step vpid) (Distinct vpid)
      { world := world, held := [] } ops := by
  have fresh : Kept vpid { world := world, held := [] } := nofun
  exact
    along_mono
      (fun _ op _ kept stepped apart => kept_step op kept stepped apart)
      (fun _ op _ kept stepped apart =>
        distinct_step op kept stepped apart)
      fresh apart

/-- A file, a pipe, and a file again when the pipe is closed. -/
def pipeBetween : List NumberOp :=
  [.own (.openPath 0 3), .own (.pipe 4 5), .own (.close 4),
    .own (.close 5), .own (.openPath 0 4)]

/-- The table gives the number 4 of the kernel's pipe once more. -/
theorem numbers_distinct_pipeBetween :
    Along (Numbers.step 1) (Distinct 1)
        { world := World.init Kernel.standard, held := [] } pipeBetween ∧
      (run (Numbers.step 1)
          { world := World.init Kernel.standard, held := [] }
          pipeBetween).map Numbers.held =
        some [(3, .file 3), (4, .file 6)] := by
  refine ⟨numbers_distinct 1 _ pipeBetween ?_, by decide⟩
  decide

/-- With the pipe still open, the second file gets the number of its end. -/
theorem open_returns_pipe_end :
    ¬ ∀ (vpid : VPid) (world : World) (ops : List NumberOp),
      Along (Numbers.step vpid) (Distinct vpid)
        { world := world, held := [] } ops := by
  intro always
  have holds :=
    always 1 (World.init Kernel.standard)
      [.own (.openPath 0 3), .own (.pipe 4 5), .own (.openPath 0 6)]
  revert holds
  decide

end Vproc.Fd.NumberSpaces
