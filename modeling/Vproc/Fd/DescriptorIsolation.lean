import Vproc.Fd.Effects
import Vproc.Lib.Run

/-!
# Which calls leave the descriptors of others alone

Virtual numbers and kernel numbers are both small integers, and the
interceptors mix them: `dup2` of a kernel source duplicates onto the kernel
number `new_fd`, and `close` of a number which is not in the table closes the
kernel number.  Either may hit the kernel number behind another descriptor.
A failing `dup` of a table clears the number it has taken.

The calls which redirect no descriptor but the ones they name are
characterised here, for one call and along whole runs.
-/

namespace Vproc.Fd.DescriptorIsolation

open Vproc.Lib.Run
open Vproc.Lib.FiniteMap
open Vproc.Fd.Table
open Vproc.Fd.KernelTable
open Vproc.Fd.Runtime
open Vproc.Fd.Runtime.World
open Vproc.Fd.Effects

/-- What a process can hold: a table entry, or a raw end from `pipe`. -/
inductive Descriptor where
  | entry (number : Nat)
  | raw (fd : CInt)
deriving DecidableEq, Repr

/-- What a descriptor leads to: an open file, or an end of a virtual pipe. -/
inductive Target where
  | file (file : OpenFile)
  | pipe (pipeEnd : Vfd)
deriving DecidableEq, Repr

/-- The descriptor has the number a call was given or returned. -/
def Descriptor.hasNumber (descriptor : Descriptor) (fd : CInt) : Prop :=
  match descriptor with
  | .entry number => number = asU32 fd
  | .raw number => number = fd

/-- What an entry leads to. -/
def resolve (kernel : Kernel) (vfd : Vfd) : Option Target :=
  match vfd.kernelFd with
  | some fd => (kernel.files fd).map .file
  | none => some (.pipe vfd)

/-- What a descriptor of a process leads to, if it is held and open. -/
def leadsTo (world : World) (vpid : VPid) : Descriptor → Option Target
  | .entry number => (world.entry vpid number).bind (resolve world.kernel)
  | .raw fd =>
      if fd ∈ world.pipeEnds vpid then (world.kernel.files fd).map .file
      else none

/-- The kernel number behind a descriptor which a process holds. -/
def backing (world : World) (vpid : VPid) : Descriptor → Option CInt
  | .entry number => (world.entry vpid number).bind Vfd.kernelFd
  | .raw fd => if fd ∈ world.pipeEnds vpid then some fd else none

/-- The Rust interceptors among the calls. -/
def isInterceptor : SysCall → Bool
  | .openPath _ _ => true
  | .openatPath _ _ => true
  | .creat _ => true
  | .dup _ _ => true
  | .dup2 _ _ => true
  | .close _ => true
  | .pipe _ _ => true
  | _ => false

/-- The number is passed to `close` or as the target of `dup2`, or returned. -/
def Named (reply : CInt) (descriptor : Descriptor) : SysCall → Prop
  | .close fd => descriptor.hasNumber fd
  | .dup2 _ newFd => descriptor.hasNumber newFd
  | .pipe readFd writeFd =>
      descriptor.hasNumber readFd ∨ descriptor.hasNumber writeFd
  | _ => descriptor.hasNumber reply

/--
Every descriptor which leads to a file leads to the same one after the call,
but for those of the caller which the call names.
-/
def Isolated (world : World) (vpid : VPid) (call : SysCall)
    (next : World) : Prop :=
  ∀ other descriptor target,
    ¬ (other = vpid ∧
        Named (world.sys vpid call).2 descriptor call) →
      leadsTo world other descriptor = some target →
        leadsTo next other descriptor = some target

/--
The kernel number a call closes or redirects, with what it leads to
afterwards.
-/
def redirects (world : World) (vpid : VPid) :
    SysCall → Option (CInt × Option OpenFile)
  | .close fd =>
      if fd < 0 then none
      else
        match world.getTable vpid with
        | none => some (fd, none)
        | some table =>
            match table.get (asU32 fd) with
            | none => some (fd, none)
            | some _ =>
                (table.closeFileFd (asU32 fd)).2.map
                  fun ref => (ref.realFd, none)
  | .dup2 oldFd newFd =>
      let source :=
        match world.getTable vpid with
        | none => some oldFd
        | some table => underlyingReal table oldFd
      match source with
      | none => none
      | some realFd =>
          if (world.kernel.files realFd).isSome ∧
              world.kernel.inRange newFd then
            some (newFd, world.kernel.files realFd)
          else none
  | _ => none

/-- The number which a `dup` without a source clears and does not return. -/
def clearedByDup (world : World) (vpid : VPid) : SysCall → Option Nat
  | .dup oldFd _ =>
      match world.getTable vpid with
      | none => none
      | some table =>
          if underlyingReal table oldFd = none ∧
              (asU32 oldFd = table.nextFd ∨
                table.get (asU32 oldFd) = none) then
            some table.nextFd
          else none
  | _ => none

/--
The kernel number which the call closes or redirects is behind no other open
descriptor, or leads to the same file as before; and a failing `dup` clears
no open descriptor, unless its number is the -1 which it returns.
-/
def TouchesOwnOnly (world : World) (vpid : VPid)
    (call : SysCall) : Prop :=
  (∀ fd file, redirects world vpid call = some (fd, file) →
      ∀ other descriptor,
        ¬ (other = vpid ∧ Named 0 descriptor call) →
          backing world other descriptor = some fd →
            (world.kernel.files fd).isSome = true →
              world.kernel.files fd = file) ∧
    ∀ number, clearedByDup world vpid call = some number →
      number ≠ asU32 (-1) → leadsTo world vpid (.entry number) = none

/-! ## What a call does to the kernel numbers -/

theorem kernel_insertOpened
    (world : World) (vpid : VPid) (cloexec : Bool) (answer : CInt)
    {fd : CInt} {file : OpenFile}
    (used : world.kernel.files fd = some file) :
    (world.insertOpened vpid cloexec answer).1.kernel.files fd =
      some file := by
  by_cases usable : world.kernel.usable answer = true
  · rw [insertOpened_granted world vpid cloexec usable]
    exact Kernel.openFile_keeps _ answer used
  · rw [insertOpened_refused world vpid cloexec usable]
    exact used

theorem kernel_dup
    (world : World) (vpid : VPid) (oldFd answer : CInt)
    {fd : CInt} {file : OpenFile}
    (used : world.kernel.files fd = some file) :
    (world.dup vpid oldFd answer).1.kernel.files fd = some file := by
  unfold dup
  split
  · exact Kernel.dup_keeps _ oldFd answer used
  · split
    · rename_i realFd _
      dsimp only
      split
      · exact Kernel.dup_keeps _ realFd answer used
      · exact Kernel.dup_keeps _ realFd answer used
    · exact used

theorem kernel_pipe
    (world : World) (vpid : VPid) (readFd writeFd : CInt)
    {fd : CInt} {file : OpenFile}
    (used : world.kernel.files fd = some file) :
    (world.pipe vpid readFd writeFd).1.kernel.files fd = some file := by
  unfold pipe
  dsimp only
  split
  · exact Kernel.pipe_keeps _ readFd writeFd used
  · exact Kernel.pipe_keeps _ readFd writeFd used

theorem kernel_realCloseAll_toList
    (world : World) (closed : Option FileRef) (number : CInt) :
    (world.realCloseAll (ownedFds closed.toList)).kernel.files number =
      match closed with
      | some ref =>
          if number = ref.realFd then none else world.kernel.files number
      | none => world.kernel.files number := by
  cases closed with
  | none => rfl
  | some ref => exact Kernel.files_close world.kernel ref.realFd number

/-- The kernel numbers after a `close`. -/
theorem kernel_close
    (world : World) (vpid : VPid) (fd number : CInt) :
    (world.close vpid fd).1.kernel.files number =
      match redirects world vpid (.close fd) with
      | some (target, file) =>
          if number = target then file else world.kernel.files number
      | none => world.kernel.files number := by
  unfold close
  simp only [redirects]
  by_cases negative : fd < 0
  · simp only [negative, if_true]
  · simp only [negative, if_false]
    cases found : world.getTable vpid with
    | none => exact Kernel.files_close world.kernel fd number
    | some table =>
        dsimp only
        split
        · rename_i real stored
          rw [VfdTable.closeFileFd_of_not_file (by simp [stored])]
          simp only [stored]
          rfl
        · rename_i ref stored
          rw [kernel_realCloseAll_toList]
          simp only [stored]
          cases (table.closeFileFd (asU32 fd)).2 with
          | none => rfl
          | some closed => rfl
        · rename_i vfd notReal notFile stored
          have notOwned :
              ∀ ref, table.get (asU32 fd) ≠ some (.file ref) := by
            intro ref isFile
            rw [stored] at isFile
            exact notFile ref (Option.some.inj isFile)
          rw [VfdTable.closeFileFd_of_not_file notOwned]
          simp only [stored]
          rfl
        · rename_i missing
          simp only [missing]
          exact Kernel.files_close world.kernel fd number

theorem files_dup2_granted
    {kernel : Kernel} {oldFd newFd : CInt}
    (possible : (kernel.files oldFd).isSome = true ∧
      kernel.inRange newFd = true)
    (number : CInt) :
    (kernel.dup2 oldFd newFd).1.files number =
      if number = newFd then kernel.files oldFd
      else kernel.files number := by
  obtain ⟨file, found⟩ := Option.isSome_iff_exists.mp possible.1
  simp only [Kernel.dup2, found, possible.2, if_true]
  exact Kernel.files_assign kernel newFd file number

/-- The kernel numbers after a `dup2`. -/
theorem kernel_dup2
    (world : World) (vpid : VPid) (oldFd newFd number : CInt) :
    (world.dup2 vpid oldFd newFd).1.kernel.files number =
      match redirects world vpid (.dup2 oldFd newFd) with
      | some (target, file) =>
          if number = target then file else world.kernel.files number
      | none => world.kernel.files number := by
  cases found : world.getTable vpid with
  | none =>
      simp only [dup2, redirects, found]
      by_cases possible :
          (world.kernel.files oldFd).isSome = true ∧
            world.kernel.inRange newFd = true
      · have succeeds : ¬ (world.kernel.dup2 oldFd newFd).2 < 0 := by
          rw [Kernel.dup2_neg_iff]
          exact not_not_intro possible
        rw [if_neg succeeds, if_pos possible]
        exact files_dup2_granted possible number
      · rw [Kernel.dup2_refused _ possible, if_neg possible]
        rfl
  | some table =>
      simp only [redirects, found]
      cases source : underlyingReal table oldFd with
      | none =>
          rw [dup2_virtual found newFd source]
          rfl
      | some realFd =>
          by_cases possible :
              (world.kernel.files realFd).isSome = true ∧
                world.kernel.inRange newFd = true
          · rw [dup2_granted found source possible]
            simp only [possible, and_self, if_true]
            exact files_dup2_granted possible number
          · rw [dup2_refused found source possible]
            simp only [possible, if_false]

/-- A number in use keeps its file, unless the call redirects it. -/
theorem files_kept
    {world : World} {vpid : VPid} {call : SysCall}
    (interceptor : isInterceptor call = true)
    {number : CInt} {file : OpenFile}
    (used : world.kernel.files number = some file)
    (kept : ∀ target left, redirects world vpid call =
      some (target, left) → number = target → left = some file) :
    (world.sys vpid call).1.kernel.files number = some file := by
  have redirected
      (files : (world.sys vpid call).1.kernel.files number =
        match redirects world vpid call with
        | some (target, file) =>
            if number = target then file
            else world.kernel.files number
        | none => world.kernel.files number) :
      (world.sys vpid call).1.kernel.files number = some file := by
    rw [files]
    split
    · rename_i target left isTarget
      split
      · rename_i same
        exact kept target left isTarget same
      · exact used
    · exact used
  cases call with
  | openPath flags answer =>
      exact kernel_insertOpened world vpid _ answer used
  | openatPath flags answer =>
      exact kernel_insertOpened world vpid _ answer used
  | creat answer => exact kernel_insertOpened world vpid _ answer used
  | dup oldFd answer => exact kernel_dup world vpid oldFd answer used
  | dup2 oldFd newFd =>
      exact redirected (kernel_dup2 world vpid oldFd newFd number)
  | close fd => exact redirected (kernel_close world vpid fd number)
  | pipe readFd writeFd =>
      exact kernel_pipe world vpid readFd writeFd used
  | ffiPipe => cases interceptor
  | ffiDup oldFd => cases interceptor
  | ffiDup2 oldFd newFd => cases interceptor
  | ffiClose fd => cases interceptor
  | insertAt fd vfd => cases interceptor
  | readPipe fd dst => cases interceptor
  | writePipe fd src => cases interceptor

/-- Only `dup2` and `close` redirect a kernel number. -/
theorem call_of_redirects
    {world : World} {vpid : VPid} {call : SysCall}
    {redirected : CInt × Option OpenFile}
    (isTarget : redirects world vpid call = some redirected) :
    (∃ oldFd newFd, call = .dup2 oldFd newFd) ∨ ∃ fd, call = .close fd := by
  unfold redirects at isTarget
  split at isTarget
  · exact Or.inr ⟨_, rfl⟩
  · exact Or.inl ⟨_, _, rfl⟩
  · cases isTarget

/-- What such a call names does not depend on its reply. -/
theorem named_of_redirects
    {world : World} {vpid : VPid} {call : SysCall}
    {redirected : CInt × Option OpenFile}
    (isTarget : redirects world vpid call = some redirected)
    {descriptor : Descriptor} {first second : CInt}
    (named : Named first descriptor call) :
    Named second descriptor call := by
  rcases call_of_redirects isTarget with ⟨_, _, rfl⟩ | ⟨_, rfl⟩
  · exact named
  · exact named

theorem files_redirected
    {world : World} {vpid : VPid} {call : SysCall}
    {target : CInt} {left : Option OpenFile}
    (isTarget : redirects world vpid call = some (target, left)) :
    (world.sys vpid call).1.kernel.files target = left := by
  rcases call_of_redirects isTarget with
    ⟨oldFd, newFd, rfl⟩ | ⟨fd, rfl⟩
  · have files := kernel_dup2 world vpid oldFd newFd target
    rw [isTarget] at files
    simpa [sys] using files
  · have files := kernel_close world vpid fd target
    rw [isTarget] at files
    simpa [sys] using files

/-! ## What a call does to held descriptors -/

theorem mem_forgetPipeEnd_iff
    {world : World} {vpid other : VPid} {fd number : CInt} :
    number ∈ (world.forgetPipeEnd vpid fd).pipeEnds other ↔
      number ∈ world.pipeEnds other ∧
        ¬ (other = vpid ∧ number = fd) := by
  unfold forgetPipeEnd
  by_cases same : other = vpid
  · subst other
    simp
  · simp [same]

@[simp]
theorem realCloseAll_pipeEnds
    (fds : List (CInt × Origin)) (world : World) :
    (world.realCloseAll fds).pipeEnds = world.pipeEnds := by
  induction fds generalizing world with
  | nil => rfl
  | cons first rest induction =>
      exact induction (world.realClose first.1 first.2).1

theorem pipeEnds_close
    {world : World} {vpid other : VPid} {fd number : CInt}
    (held : number ∈ world.pipeEnds other)
    (unnamed : ¬ (other = vpid ∧ number = fd)) :
    number ∈ (world.close vpid fd).1.pipeEnds other := by
  have forgotten :
      number ∈ ((world.forgetPipeEnd vpid fd).realClose fd
        .raw).1.pipeEnds other :=
    mem_forgetPipeEnd_iff.mpr ⟨held, unnamed⟩
  unfold close
  split
  · exact held
  · split
    · exact forgotten
    · dsimp only
      split
      · exact held
      · rw [realCloseAll_pipeEnds]
        exact held
      · exact held
      · exact forgotten

theorem pipeEnds_dup2
    {world : World} {vpid other : VPid} {oldFd newFd number : CInt}
    (held : number ∈ world.pipeEnds other)
    (unnamed : ¬ (other = vpid ∧ number = newFd)) :
    number ∈ (world.dup2 vpid oldFd newFd).1.pipeEnds other := by
  unfold dup2
  split
  · dsimp only
    split
    · exact held
    · exact mem_forgetPipeEnd_iff.mpr ⟨held, unnamed⟩
  · split
    · dsimp only
      split
      · exact held
      · exact mem_forgetPipeEnd_iff.mpr ⟨held, unnamed⟩
    · exact held

/-- A raw end stays held, unless the call names it. -/
theorem pipeEnds_kept
    {world : World} {vpid other : VPid} {call : SysCall}
    (interceptor : isInterceptor call = true) {number : CInt}
    (held : number ∈ world.pipeEnds other)
    (unnamed : ¬ (other = vpid ∧
      Named (world.sys vpid call).2 (.raw number) call)) :
    number ∈ (world.sys vpid call).1.pipeEnds other := by
  have opened (cloexec : Bool) (answer : CInt) :
      (world.insertOpened vpid cloexec answer).1.pipeEnds =
        world.pipeEnds := by
    unfold insertOpened
    dsimp only
    split <;> rfl
  cases call with
  | openPath flags answer =>
      simp only [sys, openPath, opened]
      exact held
  | openatPath flags answer =>
      simp only [sys, openatPath, opened]
      exact held
  | creat answer =>
      simp only [sys, creat, opened]
      exact held
  | dup oldFd answer =>
      simp only [sys, dup]
      split
      · exact held
      · split
        · split
          · exact held
          · exact held
        · exact held
  | dup2 oldFd newFd => exact pipeEnds_dup2 held unnamed
  | close fd => exact pipeEnds_close held unnamed
  | pipe readFd writeFd =>
      simp only [sys, pipe]
      split
      · exact held
      · by_cases same : other = vpid
        · subst other
          simp [held]
        · simp [same, held]
  | ffiPipe => cases interceptor
  | ffiDup oldFd => cases interceptor
  | ffiDup2 oldFd newFd => cases interceptor
  | ffiClose fd => cases interceptor
  | insertAt fd vfd => cases interceptor
  | readPipe fd dst => cases interceptor
  | writePipe fd src => cases interceptor

/-- An entry put by `open`, `openat` or `creat` has the returned number. -/
theorem openedChange_eq_none
    {world : World} {vpid : VPid} {cloexec : Bool} {answer : CInt}
    {number : Nat} {vfd : Vfd}
    (held : world.entry vpid number = some vfd)
    (unnamed :
      number ≠ asU32 (world.insertOpened vpid cloexec answer).2) :
    openedChange world vpid cloexec answer number = none := by
  unfold openedChange
  split
  · rename_i usable
    rw [insertOpened_granted world vpid cloexec usable] at unnamed
    have different : number ≠ (world.tableOrNew vpid).nextFd := by
      intro same
      apply unnamed
      rw [asU32_asCInt (world.tableOrNew vpid).nextFd_lt]
      exact same
    have tableExists : defaultChange world vpid number = none := by
      unfold defaultChange
      split
      · rename_i missing
        rw [entry_of_getTable_none missing] at held
        cases held
      · rfl
    rw [changeAt, if_neg different, Option.none_or, tableExists]
  · rfl

/-- `dup` changes the returned number, or the one it clears. -/
theorem dupChange_eq_none
    {world : World} {vpid : VPid} {oldFd answer : CInt} {number : Nat}
    (unnamed : number ≠ asU32 (world.dup vpid oldFd answer).2)
    (uncleared :
      clearedByDup world vpid (.dup oldFd answer) ≠ some number) :
    callChange world vpid (.dup oldFd answer) number = none := by
  cases found : world.getTable vpid with
  | none => simp only [callChange, found]
  | some table =>
      have returned (reply : (world.dup vpid oldFd answer).2 =
          asCInt table.nextFd) :
          number ≠ table.nextFd := by
        intro same
        apply unnamed
        rw [reply, asU32_asCInt table.nextFd_lt]
        exact same
      simp only [callChange, found]
      cases source : underlyingReal table oldFd with
      | none =>
          simp only [clearedByDup, found, source, true_and] at uncleared
          rw [dup_virtual found answer source] at returned
          have different : number ≠ table.nextFd := by
            by_cases missing :
                asU32 oldFd = table.nextFd ∨
                  table.get (asU32 oldFd) = none
            · rw [if_pos missing] at uncleared
              intro same
              exact uncleared (congrArg some same.symm)
            · apply returned
              rw [VfdTable.dup_result, if_neg missing]
              rfl
          simp only [copiedChange, changeAt, different, if_false]
      | some realFd =>
          by_cases possible :
              (world.kernel.files realFd).isSome = true ∧
                world.kernel.usable answer = true
          · rw [dup_granted found source possible] at returned
            simp only [possible, and_self, if_true]
            rw [changeAt, if_neg (returned rfl)]
          · simp only [possible, if_false]

/-- An entry stays, unless the call names its number or clears it. -/
theorem entry_kept
    {world : World} {vpid other : VPid} {call : SysCall}
    (interceptor : isInterceptor call = true) {number : Nat} {vfd : Vfd}
    (held : world.entry other number = some vfd)
    (unnamed : ¬ (other = vpid ∧
      Named (world.sys vpid call).2 (.entry number) call))
    (uncleared : other = vpid →
      clearedByDup world vpid call ≠ some number) :
    (world.sys vpid call).1.entry other number = some vfd := by
  rw [entry_sys]
  by_cases same : other = vpid
  · subst other
    have notNamed :
        ¬ Named (world.sys vpid call).2 (.entry number) call := by
      intro named
      exact unnamed ⟨rfl, named⟩
    have unchanged : callChange world vpid call number = none := by
      cases call with
      | openPath flags answer => exact openedChange_eq_none held notNamed
      | openatPath flags answer =>
          exact openedChange_eq_none held notNamed
      | creat answer => exact openedChange_eq_none held notNamed
      | dup oldFd answer =>
          exact dupChange_eq_none notNamed (uncleared rfl)
      | dup2 oldFd newFd =>
          have different : number ≠ asU32 newFd := notNamed
          simp only [callChange]
          split
          · rfl
          · split
            · split
              · rw [changeAt, if_neg different]
              · rfl
            · rw [copiedChange, changeAt, if_neg different]
      | close fd =>
          have different : number ≠ asU32 fd := notNamed
          simp only [callChange]
          split
          · rfl
          · rw [changeAt, if_neg different]
      | pipe readFd writeFd => rfl
      | ffiPipe => cases interceptor
      | ffiDup oldFd => cases interceptor
      | ffiDup2 oldFd newFd => cases interceptor
      | ffiClose fd => cases interceptor
      | insertAt fd vfd => cases interceptor
      | readPipe fd dst => cases interceptor
      | writePipe fd src => cases interceptor
    simp [unchanged, held]
  · simp [same, held]

/-! ## Isolation -/

/-- An open descriptor has a kernel number with a file, or is a pipe end. -/
theorem resolve_kept
    {world next : World} {vfd : Vfd} {target : Target}
    (leads : resolve world.kernel vfd = some target)
    (files : ∀ fd file, vfd.kernelFd = some fd →
      world.kernel.files fd = some file →
        next.kernel.files fd = some file) :
    resolve next.kernel vfd = some target := by
  cases behind : vfd.kernelFd with
  | none =>
      simp only [resolve, behind] at leads ⊢
      exact leads
  | some fd =>
      simp only [resolve, behind] at leads ⊢
      obtain ⟨file, used, same⟩ := Option.map_eq_some_iff.mp leads
      rw [files fd file behind used]
      exact congrArg some same

theorem reply_of_clearedByDup
    {world : World} {vpid : VPid} {oldFd answer : CInt} {number : Nat}
    (cleared :
      clearedByDup world vpid (.dup oldFd answer) = some number) :
    (world.dup vpid oldFd answer).2 = -1 ∧
      (world.dup vpid oldFd answer).1.entry vpid number = none := by
  rw [entry_dup, if_pos rfl]
  simp only [clearedByDup] at cleared
  split at cleared
  · cases cleared
  · rename_i table found
    split at cleared
    · rename_i failing
      cases cleared
      obtain ⟨source, missing⟩ := failing
      simp only [callChange, found, source, copiedChange]
      rw [dup_virtual found answer source, VfdTable.dup_result,
        if_pos missing, getD_changeAt, if_pos rfl]
      refine ⟨rfl, ?_⟩
      by_cases same : asU32 oldFd = table.nextFd
      · rw [if_pos same]
      · rw [if_neg same]
        exact missing.resolve_left same
    · cases cleared

/-- Only `dup` clears the number it has taken. -/
theorem call_of_clearedByDup
    {world : World} {vpid : VPid} {call : SysCall} {number : Nat}
    (cleared : clearedByDup world vpid call = some number) :
    ∃ oldFd answer, call = .dup oldFd answer := by
  unfold clearedByDup at cleared
  split at cleared
  · exact ⟨_, _, rfl⟩
  · cases cleared

theorem named_of_clearedByDup
    {world : World} {vpid : VPid} {call : SysCall}
    (cleared : clearedByDup world vpid call = some (asU32 (-1))) :
    Named (world.sys vpid call).2 (.entry (asU32 (-1))) call := by
  obtain ⟨oldFd, answer, rfl⟩ := call_of_clearedByDup cleared
  have failed := reply_of_clearedByDup cleared
  simp only [Named, sys, failed.1]
  rfl

theorem isolated_of_touchesOwnOnly
    {world : World} {vpid : VPid} {call : SysCall}
    (interceptor : isInterceptor call = true)
    (own : TouchesOwnOnly world vpid call) :
    Isolated world vpid call (world.sys vpid call).1 := by
  intro other descriptor target unnamed leads
  have unnamedBefore (redirected : ∃ found,
      redirects world vpid call = some found) :
      ¬ (other = vpid ∧ Named 0 descriptor call) := by
    obtain ⟨found, isFound⟩ := redirected
    rintro ⟨same, named⟩
    exact unnamed ⟨same, named_of_redirects isFound named⟩
  have files (fd : CInt) (file : OpenFile)
      (behind : backing world other descriptor = some fd)
      (used : world.kernel.files fd = some file) :
      (world.sys vpid call).1.kernel.files fd = some file := by
    apply files_kept interceptor used
    intro redirected left isTarget same
    subst redirected
    have unchanged :=
      own.1 fd left isTarget other descriptor
        (unnamedBefore ⟨_, isTarget⟩) behind (by simp [used])
    rw [← unchanged, used]
  cases descriptor with
  | entry number =>
      obtain ⟨vfd, held, resolved⟩ := Option.bind_eq_some_iff.mp leads
      have uncleared : other = vpid →
          clearedByDup world vpid call ≠ some number := by
        rintro rfl cleared
        have notReply : number ≠ asU32 (-1) := by
          rintro rfl
          apply unnamed
          refine ⟨rfl, ?_⟩
          exact named_of_clearedByDup cleared
        rw [own.2 number cleared notReply] at leads
        cases leads
      have stays := entry_kept interceptor held unnamed uncleared
      apply Option.bind_eq_some_iff.mpr
      refine ⟨vfd, stays, resolve_kept resolved ?_⟩
      intro fd file kernelFd used
      refine files fd file ?_ used
      exact Option.bind_eq_some_iff.mpr ⟨vfd, held, kernelFd⟩
  | raw number =>
      simp only [leadsTo] at leads ⊢
      split at leads
      · rename_i held
        obtain ⟨file, used, same⟩ := Option.map_eq_some_iff.mp leads
        have stays := pipeEnds_kept interceptor held unnamed
        have behind : backing world other (.raw number) = some number := by
          simp [backing, held]
        rw [if_pos stays, files number file behind used]
        exact congrArg some same
      · cases leads

/-- A descriptor with a kernel number in use leads to that file. -/
theorem leadsTo_of_backing
    {world : World} {vpid : VPid} {descriptor : Descriptor} {fd : CInt}
    (behind : backing world vpid descriptor = some fd) :
    leadsTo world vpid descriptor =
      (world.kernel.files fd).map .file := by
  cases descriptor with
  | entry number =>
      obtain ⟨vfd, held, kernelFd⟩ := Option.bind_eq_some_iff.mp behind
      simp [leadsTo, held, resolve, kernelFd]
  | raw number =>
      simp only [backing] at behind
      split at behind
      · rename_i held
        cases behind
        simp [leadsTo, held]
      · cases behind

/-- A call which redirects a number keeps the descriptors it does not name. -/
theorem backing_kept
    {world : World} {vpid other : VPid} {call : SysCall}
    (interceptor : isInterceptor call = true)
    {redirected : CInt × Option OpenFile}
    (isTarget : redirects world vpid call = some redirected)
    {descriptor : Descriptor} {fd : CInt}
    (behind : backing world other descriptor = some fd)
    (unnamed : ¬ (other = vpid ∧
      Named (world.sys vpid call).2 descriptor call)) :
    backing (world.sys vpid call).1 other descriptor = some fd := by
  have uncleared (number : Nat) :
      clearedByDup world vpid call ≠ some number := by
    intro cleared
    obtain ⟨_, _, rfl⟩ := call_of_clearedByDup cleared
    cases isTarget
  cases descriptor with
  | entry number =>
      obtain ⟨vfd, held, kernelFd⟩ := Option.bind_eq_some_iff.mp behind
      have stays :=
        entry_kept interceptor held unnamed fun _ => uncleared number
      exact Option.bind_eq_some_iff.mpr ⟨vfd, stays, kernelFd⟩
  | raw number =>
      simp only [backing] at behind ⊢
      split at behind
      · rename_i held
        rw [if_pos (pipeEnds_kept interceptor held unnamed)]
        exact behind
      · cases behind

theorem touchesOwnOnly_of_isolated
    {world : World} {vpid : VPid} {call : SysCall}
    (interceptor : isInterceptor call = true)
    (isolated : Isolated world vpid call (world.sys vpid call).1) :
    TouchesOwnOnly world vpid call := by
  constructor
  · intro fd left isTarget other descriptor unnamed behind inUse
    obtain ⟨file, used⟩ := Option.isSome_iff_exists.mp inUse
    have leads :
        leadsTo world other descriptor = some (.file file) := by
      rw [leadsTo_of_backing behind, used]
      rfl
    have stillUnnamed :
        ¬ (other = vpid ∧
          Named (world.sys vpid call).2 descriptor call) := by
      rintro ⟨same, named⟩
      exact unnamed ⟨same, named_of_redirects isTarget named⟩
    have after :=
      isolated other descriptor (.file file) stillUnnamed leads
    have stays :
        backing (world.sys vpid call).1 other descriptor = some fd :=
      backing_kept interceptor isTarget behind stillUnnamed
    rw [leadsTo_of_backing stays, files_redirected isTarget] at after
    obtain ⟨same, isSame, equal⟩ := Option.map_eq_some_iff.mp after
    cases equal
    rw [used, isSame]
  · intro number cleared notReply
    obtain ⟨oldFd, answer, rfl⟩ := call_of_clearedByDup cleared
    obtain ⟨reply, gone⟩ := reply_of_clearedByDup cleared
    cases before : leadsTo world vpid (.entry number) with
    | none => rfl
    | some target =>
        have unnamed :
            ¬ (vpid = vpid ∧
              Named (world.sys vpid (.dup oldFd answer)).2
                (.entry number) (.dup oldFd answer)) := by
          rintro ⟨_, named⟩
          apply notReply
          have isReply :
              number = asU32 (world.dup vpid oldFd answer).2 :=
            named
          rw [isReply, reply]
        have after :=
          isolated vpid (.entry number) target unnamed before
        simp only [leadsTo, sys, gone] at after
        cases after

/-- The interceptor calls among the steps leave other descriptors alone. -/
def IsolatedStep (world : World) (op : FdOp) (next : World) : Prop :=
  ∀ vpid call, op = .sys vpid call → isInterceptor call = true →
    Isolated world vpid call next

/-- The interceptor calls among the steps touch own numbers only. -/
def TouchesOwnOnlyStep (world : World) (op : FdOp) : Prop :=
  ∀ vpid call, op = .sys vpid call → isInterceptor call = true →
    TouchesOwnOnly world vpid call

theorem isolatedStep_iff
    (world : World) (op : FdOp) (next : World)
    (stepped : world.step op = some next) :
    IsolatedStep world op next ↔ TouchesOwnOnlyStep world op := by
  obtain ⟨-, rfl⟩ := step_eq_some_iff.mp stepped
  constructor
  · rintro isolated vpid call rfl interceptor
    exact
      touchesOwnOnly_of_isolated interceptor
        (isolated vpid call rfl interceptor)
  · rintro own vpid call rfl interceptor
    exact
      isolated_of_touchesOwnOnly interceptor
        (own vpid call rfl interceptor)

/--
Every interceptor call of a run leaves the descriptors it does not name alone
exactly if every one touches own numbers only.
-/
theorem descriptor_isolation_iff
    (kernel : Kernel) (ops : List FdOp) :
    Along World.step IsolatedStep (World.init kernel) ops ↔
      Along World.step
        (fun world op _ => TouchesOwnOnlyStep world op)
        (World.init kernel) ops :=
  along_congr (fun _ _ _ _ _ => True.intro)
    (fun world op next _ stepped =>
      isolatedStep_iff world op next stepped)
    True.intro

/--
A process has a file open at the kernel number 3; another process calls
`dup2(0, 3)`, and the file behind the first one's descriptor is replaced.
-/
theorem descriptor_redirected_by_dup2 :
    ¬ ∀ (kernel : Kernel) (ops : List FdOp),
        Along World.step IsolatedStep (World.init kernel) ops := by
  intro always
  have along :=
    always Kernel.standard
      [.sys 2 (.creat 3), .createTable 1 0 1 2, .sys 1 (.dup2 0 3)]
  have opened := along _ rfl
  have created := opened.2 _ rfl
  have dupped := created.2 _ rfl
  have kept :=
    dupped.1 1 (.dup2 0 3) rfl rfl 2 (.entry 3) (.file 3)
      (by rintro ⟨same, _⟩; cases same) rfl
  cases kept

end Vproc.Fd.DescriptorIsolation
