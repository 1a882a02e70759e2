import Vproc.Exec.BinaryCache
import Vproc.Exec.CachedStart

/-!
# Starting a binary which is running

All processes of one program share a single image.  The cached path puts the
writable segments of the image back without looking whether another process is
still running in it; `active_users` is counted and never read.

A start writes to the segments of its own binary only, as far as the dynamic
linker keeps the binaries apart (`Linked`).  So a running process of another
binary is not touched, and a running process of the same binary is touched
unless there is none.
-/

namespace Vproc.Exec.RunningImages

open Vproc.Lib.Run
open Vproc.Lib.Memory
open Vproc.Lib.FiniteMap
open Vproc.Fd.Table
open Vproc.Fd.KernelTable
open Vproc.Fd.Runtime
open Vproc.Sched.Scheduler
open Vproc.Sched.DriverLoop
open Vproc.Ffi.Sessions
open Vproc.Exec.Elf
open Vproc.Exec.Image
open Vproc.Exec.CachedStart
open Vproc.Exec.BinaryCache

/-- A call of `virtual_execve_via_entry`: by whom, and with what. -/
structure Start where
  id : SessionId
  path : String
  answers : LoadAnswers

/-- The call which is made in a step, if there is one. -/
def start? : ProcessOp → Option Start
  | .execve id path answers => some ⟨id, path, answers⟩
  | .drainRequest id path answers => some ⟨id, path, answers⟩
  | _ => none

/-- The process which makes a call in a session, if it is one. -/
def caller (process : Process) (id : SessionId) : Option VPid :=
  (process.executor? id).bind Executor.current

/-- A live process other than the caller runs the binary of a path. -/
def OtherUser (process : Process) (id : SessionId) (path : String) :
    Prop :=
  ∃ other ex pid co,
    process.executor? other = some ex ∧ ex.vprocs.lookup pid = some co ∧
      co.isDone = false ∧ co.binaryPath = some path ∧
      ¬ (other = id ∧ caller process id = some pid)

/-- The address belongs to a writable segment of a cached binary. -/
def InSegments (entry : BinaryCacheEntry) (address : Usize) : Prop :=
  Written (segmentWrites entry.savedWritable) address

/--
A call leaves the writable segments of every cached binary as they are which
a live process other than the caller is running.
-/
def KeepsRunning (process : Process) (op : ProcessOp) (next : Process) :
    Prop :=
  ∀ start, start? op = some start → ∀ path entry,
    process.loader.cache.lookup path = some entry →
    OtherUser process start.id path → ∀ address,
      InSegments entry address →
      next.loader.space.bytes address = process.loader.space.bytes address

/--
If the binary is cached, then no live process other than the caller runs it.
-/
def StartsAlone (process : Process) (op : ProcessOp) : Prop :=
  ∀ start realPath, start? op = some start →
    start.answers.canonical = .ok (some realPath) →
    realPath ∈ process.loader.cache →
    ¬ OtherUser process start.id realPath

/-- The address belongs to a segment of a binary. -/
def InImage (base : Usize) (phdrs : List Phdr) (address : Usize) : Prop :=
  ∃ phdr ∈ phdrs, phdr.pType = PT_LOAD ∧
    InRange (base + phdr.pVaddr) phdr.pMemsz.toNat address

/--
What the dynamic linker and the link editor see to.  The segments of a binary
have no address in common with those of another one; its dynamic section and
the slots of its relocations are in its segments; libc is not in the segments
of a cached binary; and loading or closing a binary leaves the bytes of the
others alone.
-/
structure Linked (platform : Platform) (loader : Loader)
    (realPath : String) (answers : LoadAnswers) (base : Usize)
    (phdrs : List Phdr) : Prop where
  placed : ∀ path entry, path ≠ realPath →
    loader.cache.lookup path = some entry → ∀ address,
      InSegments entry address → ¬ InImage base phdrs address
  dynamic : ∀ dynAddr dynCount,
    dynamicSection base phdrs = some (dynAddr, dynCount) → ∀ address,
      InRange dynAddr (16 * dynCount) address →
      InImage base phdrs address
  firstSlots : ∀ dlopened, answers.dlopened = .ok dlopened →
    ∀ patch ∈ gotPatches platform
        (preparedImage platform (loader.libcHooks answers) dlopened base
          phdrs).bytes base phdrs,
      ∀ address, InRange patch.1 8 address → InImage base phdrs address
  cachedSlots : ∀ entry, loader.cache.lookup realPath = some entry →
    ∀ patch ∈ gotPatches platform
        (restoreWritableSegments platform loader.space
          entry.savedWritable).bytes base phdrs,
      ∀ address, InRange patch.1 8 address → InImage base phdrs address
  libc : ∀ path entry, loader.cache.lookup path = some entry →
    ∀ function, answers.libcExit = some function ∨
      answers.libcExecve = some function → ∀ address,
        InSegments entry address → ¬ InRange function 16 address
  loads : ∀ dlopened, answers.dlopened = .ok dlopened →
    ∀ path entry, loader.cache.lookup path = some entry → ∀ address,
      InSegments entry address →
      dlopened.bytes address = loader.space.bytes address

/-- What the dynamic linker sees to during a call. -/
def LinkedCall (platform : Platform) (loader : Loader) (path : String)
    (answers : LoadAnswers) : Prop :=
  ∀ realPath phdrs, answers.canonical = .ok (some realPath) →
    readHeaders path answers = .ok phdrs →
    (∀ path entry, loader.cache.lookup path = some entry →
      ∀ address, InSegments entry address →
      answers.dlclosed.bytes address = loader.space.bytes address) ∧
    ∀ base, answers.loadedBase = some base →
      Linked platform loader realPath answers base phdrs

/-- The same for the call of a step. -/
def LinkedStep (platform : Platform) (process : Process)
    (op : ProcessOp) : Prop :=
  ∀ start, start? op = some start →
    LinkedCall platform process.loader start.path start.answers

/-! ## What the functions leave alone -/

section Outside

variable {platform : Platform} {base : Usize} {phdrs : List Phdr}
  {address : Usize}

theorem restoreSegment_outside
    {space : Space} {segment : WritableSegment}
    (outside : ¬ InRange segment.addr segment.data.length address) :
    (restoreSegment platform space segment).bytes address =
      space.bytes address := by
  unfold restoreSegment
  dsimp only
  split
  · rfl
  · split
    · rw [bytes_mprotect, bytes_store, bytes_mprotect]
      exact write_outside outside
    · rw [bytes_mprotect]

theorem restore_outside
    {space : Space} {segments : List WritableSegment}
    (outside : ¬ Written (segmentWrites segments) address) :
    (restoreWritableSegments platform space segments).bytes address =
      space.bytes address := by
  induction segments generalizing space with
  | nil => rfl
  | cons segment rest induction =>
      unfold segmentWrites at outside
      rw [List.map_cons, written_cons, not_or] at outside
      exact
        (induction outside.2).trans (restoreSegment_outside outside.1)

theorem patchGot_outside
    {space : Space}
    (outside : ∀ patch ∈ gotPatches platform space.bytes base phdrs,
      ¬ InRange patch.1 8 address) :
    (patchGotForLoadedBinary platform space base phdrs).bytes address =
      space.bytes address := by
  rw [bytes_patchGot]
  apply writes_outside
  intro written
  obtain ⟨patch, member, inRange⟩ := written_slotWrites written
  exact outside patch member inRange

theorem clearInitEntry_outside
    {space : Space} {dynAddr : Usize} {i dynCount : Nat}
    (small : i < dynCount)
    (outside : ¬ InRange dynAddr (16 * dynCount) address) :
    (clearInitEntry dynAddr space i).bytes address =
      space.bytes address := by
  unfold clearInitEntry
  dsimp only
  split
  · apply write_outside
    rw [length_numberBytes]
    intro inRange
    have inEntry : InRange _ 16 address :=
      inRange_of_offset inRange (by decide)
    exact outside (inRange_of_offset inEntry (by omega))
  · rfl

theorem clearInitArrays_outside
    {space : Space}
    (outside : ∀ dynAddr dynCount,
      dynamicSection base phdrs = some (dynAddr, dynCount) →
        ¬ InRange dynAddr (16 * dynCount) address) :
    (clearInitArrays space base phdrs).bytes address =
      space.bytes address := by
  unfold clearInitArrays
  cases found : dynamicSection base phdrs with
  | none => rfl
  | some dynamic =>
      obtain ⟨dynAddr, dynCount⟩ := dynamic
      have outside := outside dynAddr dynCount found
      have fold (list : List Nat) (small : ∀ i ∈ list, i < dynCount)
          (space : Space) :
          (list.foldl (clearInitEntry dynAddr) space).bytes address =
            space.bytes address := by
        induction list generalizing space with
        | nil => rfl
        | cons i rest induction =>
            rw [List.foldl_cons,
              induction fun j member =>
                small j (List.mem_cons_of_mem _ member)]
            exact
              clearInitEntry_outside (small i List.mem_cons_self) outside
      exact fold _ (fun i member => List.mem_range.mp member) space

theorem writeInlineHook_outside
    {space : Space} {function target : Usize}
    (outside : ¬ InRange function 16 address) :
    (writeInlineHook platform space function target).bytes address =
      space.bytes address := by
  have apart (offset size value : Nat) (fits : offset + size ≤ 16)
      (bytes : Bytes) :
      write bytes (function + BitVec.ofNat 64 offset)
          (numberBytes size value) address =
        bytes address := by
    apply write_outside
    rw [length_numberBytes]
    exact fun inRange => outside (inRange_of_offset inRange fits)
  have first (size value : Nat) (fits : size ≤ 16) (bytes : Bytes) :
      write bytes function (numberBytes size value) address =
        bytes address := by
    apply write_outside
    rw [length_numberBytes]
    exact fun inRange => outside (inRange_mono inRange fits)
  unfold writeInlineHook
  dsimp only
  split
  · simp only [bytes_mprotect, bytes_store]
    exact
      (apart 4 4 _ (by decide) _).trans
        ((first 4 _ (by decide) _).trans (apart 8 8 _ (by decide) _))
  · rw [bytes_mprotect]

theorem hookLibc_outside
    {space : Space} {done : Bool} {original : Option Usize}
    {target : Interceptor}
    (outside : ∀ function, original = some function →
      ¬ InRange function 16 address) :
    (hookLibc platform space done original target).bytes address =
      space.bytes address := by
  unfold hookLibc
  split
  · exact writeInlineHook_outside (outside _ rfl)
  · rfl

end Outside

/-! ## One call -/

section Calls

variable {platform : Platform} {loader : Loader} {answers : LoadAnswers}
  {base : Usize} {phdrs : List Phdr} {path realPath : String}
  {entry : BinaryCacheEntry} {address : Usize}

/-- The image of another binary is not touched by a first load. -/
theorem firstImage_outside
    (linked : Linked platform loader realPath answers base phdrs)
    {dlopened : Space} (opened : answers.dlopened = .ok dlopened)
    (other : path ≠ realPath)
    (cached : loader.cache.lookup path = some entry)
    (inSegments : InSegments entry address) :
    (firstImage platform (loader.libcHooks answers) dlopened base
        phdrs).bytes address = loader.space.bytes address := by
  have outside := linked.placed path entry other cached address inSegments
  unfold firstImage
  rw [patchGot_outside]
  · unfold preparedImage
    rw [hookLibc_outside, hookLibc_outside, clearInitArrays_outside]
    · exact linked.loads dlopened opened path entry cached address inSegments
    · intro dynAddr dynCount found inRange
      exact outside (linked.dynamic dynAddr dynCount found address inRange)
    · intro function found
      exact
        linked.libc path entry cached function (Or.inl found) address
          inSegments
    · intro function found
      exact
        linked.libc path entry cached function (Or.inr found) address
          inSegments
  · intro patch member inRange
    exact
      outside
        (linked.firstSlots dlopened opened patch member address inRange)

/-- The image of another binary is not touched by a later start. -/
theorem cachedImage_outside
    (linked : Linked platform loader realPath answers base phdrs)
    {own : BinaryCacheEntry}
    (found : loader.cache.lookup realPath = some own)
    (other : path ≠ realPath)
    (cached : loader.cache.lookup path = some entry)
    (inSegments : InSegments entry address)
    (apart : ¬ InSegments own address) :
    (cachedImage platform own.savedWritable loader.space base
        phdrs).bytes address = loader.space.bytes address := by
  have outside := linked.placed path entry other cached address inSegments
  unfold cachedImage
  rw [patchGot_outside, restore_outside apart]
  intro patch member inRange
  exact
    outside (linked.cachedSlots own found patch member address inRange)

/-- The binaries of the cache have no address in common. -/
def Apart (loader : Loader) : Prop :=
  ∀ left right first second, left ≠ right →
    loader.cache.lookup left = some first →
    loader.cache.lookup right = some second → ∀ address,
      InSegments first address → ¬ InSegments second address

theorem allocStack_loader
    (loader : Loader) (realPath : String) (answers : LoadAnswers) :
    (loader.allocStack realPath answers).1 = loader := by
  unfold Loader.allocStack
  split <;> rfl

/-- A call does not touch the image of another binary. -/
theorem load_outside
    {called : String} (apart : Apart loader)
    (linked : LinkedCall platform loader called answers)
    (other : answers.canonical ≠ .ok (some path))
    (cached : loader.cache.lookup path = some entry)
    (inSegments : InSegments entry address) :
    (loader.load platform called answers).1.space.bytes address =
      loader.space.bytes address := by
  unfold Loader.load
  split
  · rfl
  · rfl
  · rename_i realPath canonical
    have different : path ≠ realPath := by
      rintro rfl
      exact other canonical
    split
    · rename_i own found
      have outside : ¬ InSegments own address :=
        apart path realPath entry own different cached found address
          inSegments
      have restored :
          (restoreWritableSegments platform loader.space
              own.savedWritable).bytes address =
            loader.space.bytes address :=
        restore_outside outside
      unfold Loader.startCached
      dsimp only
      split
      · exact restored
      · rename_i phdrs headers
        split
        · exact restored
        · rename_i base isBase
          rw [allocStack_loader]
          exact
            cachedImage_outside
              ((linked realPath phdrs canonical headers).2 base isBase)
              found different cached inSegments outside
    · unfold Loader.startFirst
      split
      · rfl
      · rename_i phdrs headers
        obtain ⟨closes, linked⟩ := linked realPath phdrs canonical headers
        split
        · rfl
        · rename_i dlopened opened
          split
          · exact closes path entry cached address inSegments
          · rename_i base isBase
            dsimp only
            rw [allocStack_loader]
            exact
              firstImage_outside (linked base isBase) opened different
                cached inSegments

/-- The saved segments of a binary are in its image. -/
theorem inImage_of_saved
    {bytes : Bytes}
    (inSegments :
      Written (segmentWrites (saveWritableSegments bytes base phdrs))
        address) :
    InImage base phdrs address := by
  obtain ⟨range, member, inRange⟩ := inSegments
  simp only [segmentWrites, saveWritableSegments, List.map_map,
    List.mem_map, List.mem_filter] at member
  obtain ⟨phdr, ⟨inHeaders, writable⟩, rfl⟩ := member
  unfold isWritable at writable
  simp only [Bool.and_eq_true, beq_iff_eq] at writable
  refine ⟨phdr, inHeaders, writable.1.1, ?_⟩
  simpa [saveSegment] using inRange

/-- The binaries of the cache stay apart when one is loaded. -/
theorem apart_insert
    (apart : Apart loader)
    (linked : Linked platform loader realPath answers base phdrs)
    {bytes : Bytes} {space : Space} {users : Nat}
    {exitHooked execveHooked : Bool} :
    Apart
      { cache :=
          loader.cache.insert realPath
            ⟨saveWritableSegments bytes base phdrs, users⟩
        space := space
        exitHooked := exitHooked
        execveHooked := execveHooked } := by
  intro left right first second different isFirst isSecond address
    inFirst inSecond
  dsimp only at isFirst isSecond
  rw [lookup_insert_eq] at isFirst isSecond
  split at isFirst
  · rename_i isLeft
    split at isSecond
    · rename_i isRight
      exact different (isLeft.trans isRight.symm)
    · rename_i isRight
      cases isFirst
      exact
        linked.placed right second isRight isSecond address inSecond
          (inImage_of_saved inFirst)
  · rename_i isLeft
    split at isSecond
    · cases isSecond
      exact
        linked.placed left first isLeft isFirst address inFirst
          (inImage_of_saved inSecond)
    · exact
        apart left right first second different isFirst isSecond address
          inFirst inSecond

theorem apart_load
    {called : String} (apart : Apart loader)
    (linked : LinkedCall platform loader called answers) :
    Apart (loader.load platform called answers).1 := by
  unfold Loader.load
  split
  · exact apart
  · exact apart
  · rename_i realPath canonical
    split
    · unfold Loader.startCached
      dsimp only
      split
      · exact apart
      · split
        · exact apart
        · rw [allocStack_loader]
          exact apart
    · unfold Loader.startFirst
      split
      · exact apart
      · rename_i phdrs headers
        split
        · exact apart
        · split
          · exact apart
          · rename_i base isBase
            dsimp only
            rw [allocStack_loader]
            exact
              apart_insert apart
                ((linked realPath phdrs canonical headers).2 base isBase)

/-- Only the saved segments matter. -/
theorem apart_of_lookup
    {next : Loader} (apart : Apart loader)
    (found : ∀ path entry, next.cache.lookup path = some entry →
      ∃ before, loader.cache.lookup path = some before ∧
        before.savedWritable = entry.savedWritable) :
    Apart next := by
  intro left right first second different isFirst isSecond address
  obtain ⟨firstBefore, wasFirst, sameFirst⟩ := found left first isFirst
  obtain ⟨secondBefore, wasSecond, sameSecond⟩ :=
    found right second isSecond
  have before :=
    apart left right firstBefore secondBefore different wasFirst wasSecond
      address
  unfold InSegments at before ⊢
  rw [← sameFirst, ← sameSecond]
  exact before

theorem apart_addUser (apart : Apart loader) :
    Apart (loader.addUser path) := by
  apply apart_of_lookup apart
  intro other entry found
  unfold Loader.addUser at found
  rw [lookup_modify_eq] at found
  split at found
  · obtain ⟨before, was, rfl⟩ := Option.map_eq_some_iff.mp found
    exact ⟨before, was, rfl⟩
  · exact ⟨entry, found, rfl⟩

theorem apart_unload (apart : Apart loader) (dlclosed : Space) :
    Apart (loader.unload path dlclosed) := by
  unfold Loader.unload
  split
  · apply apart_of_lookup apart
    intro other entry found
    dsimp only at found
    rw [lookup_erase_eq] at found
    split at found
    · cases found
    · exact ⟨entry, found, rfl⟩
  · exact apart

end Calls

/-! ## Runs -/

section Steps

variable {platform : Platform} {process next : Process} {op : ProcessOp}

/-- The loader after a call. -/
theorem loader_of_start
    {id : SessionId} {path : String} {answers : LoadAnswers}
    {spawn : SystemOp} {failed : System → Option System}
    (started : process.start platform id path answers spawn failed =
      some next) :
    next.loader = (process.loader.load platform path answers).1 ∨
      ∃ realPath,
        next.loader =
          ((process.loader.load platform path answers).1).addUser
            realPath := by
  unfold Process.start at started
  obtain ⟨ex, _, loaded⟩ := Option.bind_eq_some_iff.mp started
  split at loaded
  · rename_i loader e result
    obtain ⟨system, _, rfl⟩ := Option.map_eq_some_iff.mp loaded
    rw [result]
    exact Or.inl rfl
  · rename_i loader realPath result
    obtain ⟨system, _, rfl⟩ := Option.map_eq_some_iff.mp loaded
    rw [result]
    exact Or.inr ⟨realPath, rfl⟩

/-- What a step does to the loader. -/
theorem loader_of_step
    (stepped : process.step platform op = some next) :
    (∃ start, start? op = some start ∧
        (next.loader =
            (process.loader.load platform start.path start.answers).1 ∨
          ∃ realPath,
            next.loader =
              ((process.loader.load platform start.path
                start.answers).1).addUser realPath)) ∨
      start? op = none ∧
        (next.loader.cache = process.loader.cache ∨
          ∃ path dlclosed,
            next.loader = process.loader.unload path dlclosed) := by
  cases op with
  | execve id path answers =>
      simp only [Process.step] at stepped
      exact Or.inl ⟨_, rfl, loader_of_start stepped⟩
  | drainRequest id path answers =>
      simp only [Process.step] at stepped
      exact Or.inl ⟨_, rfl, loader_of_start stepped⟩
  | system op =>
      simp only [Process.step] at stepped
      split at stepped
      · cases stepped
      · obtain ⟨system, _, rfl⟩ := Option.map_eq_some_iff.mp stepped
        exact Or.inr ⟨rfl, Or.inl rfl⟩
  | store address data =>
      simp only [Process.step] at stepped
      split at stepped
      · cases stepped
        exact Or.inr ⟨rfl, Or.inl rfl⟩
      · cases stepped
  | unload path dlclosed =>
      cases stepped
      exact Or.inr ⟨rfl, Or.inr ⟨path, dlclosed, rfl⟩⟩

theorem apart_step
    (process : Process) (op : ProcessOp) (next : Process)
    (apart : Apart process.loader)
    (stepped : process.step platform op = some next)
    (linked : LinkedStep platform process op) :
    Apart next.loader := by
  rcases loader_of_step stepped with
    ⟨start, isStart, loaded⟩ | ⟨_, same | ⟨path, dlclosed, unloaded⟩⟩
  · have kept := apart_load apart (linked start isStart)
    rcases loaded with loaded | ⟨realPath, loaded⟩
    · rw [loaded]
      exact kept
    · rw [loaded]
      exact apart_addUser kept
  · apply apart_of_lookup apart
    intro path entry found
    rw [same] at found
    exact ⟨entry, found, rfl⟩
  · rw [unloaded]
    exact apart_unload apart dlclosed

theorem keepsRunning_step
    (process : Process) (op : ProcessOp) (next : Process)
    (apart : Apart process.loader)
    (stepped : process.step platform op = some next)
    (linked : LinkedStep platform process op)
    (alone : StartsAlone process op) :
    KeepsRunning process op next := by
  intro start isStart path entry cached used address inSegments
  have other : start.answers.canonical ≠ .ok (some path) := by
    intro canonical
    exact
      alone start path isStart canonical
        (mem_iff_lookup.mpr ⟨entry, cached⟩) used
  have kept :=
    load_outside apart (linked start isStart) other cached inSegments
  rcases loader_of_step stepped with
    ⟨same, isSame, loaded⟩ | ⟨none, _⟩
  · rw [isStart] at isSame
    cases isSame
    rcases loaded with loaded | ⟨realPath, loaded⟩
    · rw [loaded]
      exact kept
    · rw [loaded]
      exact kept
  · rw [isStart] at none
    cases none

end Steps

/--
In a run in which the dynamic linker keeps the binaries apart, and in which a
cached binary is started only when no live process other than the caller runs
it, no start changes the writable segments of a binary which a live process
other than the caller runs.
-/
theorem start_keeps_running
    (platform : Platform) (world : World) (space : Space)
    (ops : List ProcessOp)
    (linked : Along (Process.step platform)
      (fun process op _ => LinkedStep platform process op)
      (Process.init world space) ops)
    (alone : Along (Process.step platform)
      (fun process op _ => StartsAlone process op)
      (Process.init world space) ops) :
    Along (Process.step platform) KeepsRunning
      (Process.init world space) ops := by
  have start : Apart (Process.init world space).loader := by
    intro left right first second _ isFirst
    cases isFirst
  refine
    @along_mono Process ProcessOp (Process.step platform) _ _
      (fun process => Apart process.loader) ?_ ?_ _ _ start
      (along_and linked alone)
  · intro process op next apart stepped holds
    exact apart_step process op next apart stepped holds.1
  · intro process op next apart stepped holds
    exact
      keepsRunning_step process op next apart stepped holds.1 holds.2

/-! ## Small programs -/

/-- A file with one writable segment of eight bytes. -/
def plainFile : List UInt8 :=
  List.flatten
    [ELFMAG, [ELFCLASS64, ELFDATA2LSB], numberBytes 10 0,
      numberBytes 2 3, numberBytes 2 183, numberBytes 4 1,
      numberBytes 8 0, numberBytes 8 64, numberBytes 8 0,
      numberBytes 4 0, numberBytes 2 64, numberBytes 2 56,
      numberBytes 2 1, numberBytes 6 0,
      numberBytes 4 1, numberBytes 4 6, numberBytes 8 0,
      numberBytes 8 0, numberBytes 8 0, numberBytes 8 8,
      numberBytes 8 8, numberBytes 8 0x1000]

/-- Its program header. -/
def plainHeaders : List Phdr :=
  [⟨PT_LOAD, PF_R ||| PF_W, 0, 0, 0, 8, 8, 0x1000⟩]

/-- Memory with zeros only. -/
def zeroSpace : Space where
  bytes := fun _ => 0
  prot := fun _ => .rw

/-- The file is loaded at an address, and `dlsym` finds nothing to hook. -/
def plainAnswers (path : String) (base : Usize) : LoadAnswers where
  canonical := .ok (some path)
  file := .ok plainFile
  dlopened := .ok zeroSpace
  dlclosed := zeroSpace
  loadedBase := some base
  libcExit := none
  libcExecve := none
  stackAllocated := true

/-- Does a live process run the binary of a path? -/
def runs (process : Process) (id : SessionId) (pid : VPid)
    (path : String) : Bool :=
  (process.executor? id).any fun ex =>
    (ex.vprocs.lookup pid).any fun co =>
      !co.isDone && co.binaryPath == some path

/-- The binaries of the cache, with their writable segments. -/
def cachedRanges (loader : Loader) : List (String × List (Usize × Nat)) :=
  loader.cache.entries.map fun entry =>
    (entry.1,
      entry.2.savedWritable.map fun segment =>
        (segment.addr, segment.data.length))

/-- The bytes of a range are the same in a space as they are now. -/
def sameRange (loader : Loader) (space : Space) (range : Usize × Nat) :
    Bool :=
  read space.bytes range.1 range.2 ==
    read loader.space.bytes range.1 range.2

/--
A small program is loaded away from the cached ones, and the dynamic linker
leaves their bytes as they are; there is nothing to hook.
-/
def loadsApart (loader : Loader) (start : Start) : Bool :=
  match start.answers.canonical, readHeaders start.path start.answers,
      start.answers.loadedBase with
  | .ok (some realPath), .ok phdrs, some base =>
      phdrs == plainHeaders && start.answers.libcExit.isNone &&
        start.answers.libcExecve.isNone &&
        (cachedRanges loader).all fun cached =>
          cached.2.all fun range =>
            (cached.1 == realPath ||
                (List.range 8).all fun i =>
                  !decide
                    (InRange range.1 range.2
                      (base + BitVec.ofNat 64 i))) &&
              sameRange loader start.answers.dlclosed range &&
              match start.answers.dlopened with
              | .ok dlopened => sameRange loader dlopened range
              | .error _ => true
  | _, _, _ => false

/-- The binary is not cached, or only the caller and ended processes run it. -/
def startsAlone (process : Process) (start : Start) : Bool :=
  match start.answers.canonical with
  | .ok (some realPath) =>
      !decide (realPath ∈ process.loader.cache) ||
        process.system.sessions.entries.all fun session =>
          session.2.driver.executor.vprocs.entries.all fun entry =>
            entry.2.isDone || entry.2.binaryPath != some realPath ||
              (session.1 == start.id &&
                caller process start.id == some entry.1)
  | _ => true

section SmallPrograms

variable {loader : Loader} {start : Start}

/-- Any range of a cached binary in which an address is has been checked. -/
theorem checked_of_inSegments
    {check : String × List (Usize × Nat) → Usize × Nat → Bool}
    (checked :
      ((cachedRanges loader).all fun cached =>
        cached.2.all (check cached)) = true)
    {path : String} {entry : BinaryCacheEntry}
    (cached : loader.cache.lookup path = some entry) {address : Usize}
    (inSegments : InSegments entry address) :
    ∃ ranges range, check (path, ranges) range = true ∧
      InRange range.1 range.2 address := by
  obtain ⟨range, member, inRange⟩ := inSegments
  rw [segmentWrites, List.map_map] at member
  have ofPath :=
    List.all_eq_true.mp checked _
      (List.mem_map_of_mem (mem_entries_iff.mpr cached))
  exact ⟨_, range, List.all_eq_true.mp ofPath range member, inRange⟩

theorem linkedCall_of_loadsApart (apart : loadsApart loader start = true) :
    LinkedCall plainPlatform loader start.path start.answers := by
  intro realPath phdrs canonical headers
  unfold loadsApart at apart
  rw [canonical, headers] at apart
  cases loaded : start.answers.loadedBase with
  | none =>
      rw [loaded] at apart
      cases apart
  | some base =>
      rw [loaded] at apart
      simp only [Bool.and_eq_true] at apart
      obtain ⟨⟨⟨isPlain, noExit⟩, noExecve⟩, checked⟩ := apart
      obtain rfl := eq_of_beq isPlain
      rw [Option.isNone_iff_eq_none] at noExit noExecve
      have same {other : String} {entry : BinaryCacheEntry}
          (cached : loader.cache.lookup other = some entry)
          {address : Usize} (inSegments : InSegments entry address) :
          (other ≠ realPath → ¬ InRange base 8 address) ∧
            start.answers.dlclosed.bytes address =
              loader.space.bytes address ∧
            ∀ dlopened, start.answers.dlopened = .ok dlopened →
              dlopened.bytes address = loader.space.bytes address := by
        obtain ⟨ranges, range, passes, inRange⟩ :=
          checked_of_inSegments checked cached inSegments
        simp only [Bool.and_eq_true, Bool.or_eq_true, beq_iff_eq] at passes
        obtain ⟨⟨placed, closed⟩, opened⟩ := passes
        refine ⟨fun different inImage => ?_, ?_, fun dlopened isOk => ?_⟩
        · have outside := placed.resolve_left different
          have no :=
            List.all_eq_true.mp outside _ (List.mem_range.mpr inImage)
          rw [BitVec.ofNat_toNat, BitVec.setWidth_eq,
            BitVec.add_comm, BitVec.sub_add_cancel] at no
          simp [inRange] at no
        · exact eq_of_read_eq (eq_of_beq closed) inRange
        · rw [isOk] at opened
          exact eq_of_read_eq (eq_of_beq opened) inRange
      refine ⟨fun other entry cached address inSegments =>
        (same cached inSegments).2.1, ?_⟩
      rintro _ ⟨⟩
      constructor
      · rintro other entry different cached address inSegments
          ⟨phdr, member, _, inRange⟩
        obtain rfl := List.mem_singleton.mp member
        refine (same cached inSegments).1 different ?_
        simpa using inRange
      · intro dynAddr dynCount found
        cases found
      · intro dlopened _ patch member
        cases member
      · intro entry _ patch member
        cases member
      · rintro other entry _ function (found | found)
        · rw [noExit] at found
          cases found
        · rw [noExecve] at found
          cases found
      · intro dlopened opened other entry cached address inSegments
        exact (same cached inSegments).2.2 dlopened opened

theorem not_otherUser_of_startsAlone
    {process : Process} (alone : startsAlone process start = true)
    {realPath : String}
    (canonical : start.answers.canonical = .ok (some realPath))
    (cached : realPath ∈ process.loader.cache) :
    ¬ OtherUser process start.id realPath := by
  rintro ⟨other, ex, pid, co, isExecutor, found, live, runs, notCaller⟩
  unfold startsAlone at alone
  rw [canonical] at alone
  obtain ⟨session, isSession, rfl⟩ := Option.map_eq_some_iff.mp isExecutor
  simp only [cached, decide_true, Bool.not_true, Bool.false_or,
    List.all_eq_true] at alone
  have passes :=
    alone _ (mem_entries_iff.mpr isSession) _ (mem_entries_iff.mpr found)
  simp only [live, runs, bne_self_eq_false, Bool.false_or,
    Bool.and_eq_true, beq_iff_eq] at passes
  exact notCaller passes

end SmallPrograms

/-- A start is apart and alone; the other steps need nothing. -/
def startsWell (process : Process) (op : ProcessOp) : Bool :=
  (start? op).all fun start =>
    loadsApart process.loader start && startsAlone process start

/-- Two programs are started; both change their variable, and one has ended. -/
def twoPrograms : List ProcessOp :=
  [.system .createSession, .system (.createProcess 1 (0, 1, 2)),
    .drainRequest 1 "/bin/a" (plainAnswers "/bin/a" 0x1000),
    .system (.createProcess 1 (0, 1, 2)),
    .drainRequest 1 "/bin/b" (plainAnswers "/bin/b" 0x2000),
    .system (.drive 1 .stepFromDriver), .store 0x1000 [9],
    .system (.drive 1 (.exit (.exit 0))),
    .system (.drive 1 .stepFromDriver), .store 0x2000 [7],
    .system (.drive 1 .doYield)]

/-- The first program is asked for again; it is cached, and not opened. -/
def startedAgain : List ProcessOp :=
  [.system (.createProcess 1 (0, 1, 2)),
    .drainRequest 1 "/bin/a"
      { plainAnswers "/bin/a" 0x1000 with
        dlopened := .error "not opened"
        dlclosed := (zeroSpace.store 0x1000 [9]).store 0x2000 [7] }]

/--
The first of the two programs is started a second time, while the other one is
running: its own variable is put back, and that of the other is kept.
-/
theorem start_keeps_running_two :
    ∃ final,
      run (Process.step plainPlatform)
          (Process.init (World.init Kernel.standard) zeroSpace)
          (twoPrograms ++ startedAgain) = some final ∧
      runs final 1 2 "/bin/b" = true ∧ runs final 1 3 "/bin/a" = true ∧
      final.loader.space.bytes 0x1000#64 = 0 ∧
      final.loader.space.bytes 0x2000#64 = 7 ∧
      Along (Process.step plainPlatform) KeepsRunning
        (Process.init (World.init Kernel.standard) zeroSpace)
        (twoPrograms ++ startedAgain) := by
  have completes :
      (run (Process.step plainPlatform)
          (Process.init (World.init Kernel.standard) zeroSpace)
          (twoPrograms ++ startedAgain)).any
        (fun final =>
          runs final 1 2 "/bin/b" && runs final 1 3 "/bin/a" &&
            decide
              (final.loader.space.bytes 0x1000#64 = 0 ∧
                final.loader.space.bytes 0x2000#64 = 7)) =
      true := by
    decide +kernel
  have well :
      Along (Process.step plainPlatform)
        (fun process op _ => startsWell process op = true)
        (Process.init (World.init Kernel.standard) zeroSpace)
        (twoPrograms ++ startedAgain) := by
    decide +kernel
  have starts {process : Process} {op : ProcessOp} {start : Start}
      (passes : startsWell process op = true)
      (isStart : start? op = some start) :
      loadsApart process.loader start = true ∧
        startsAlone process start = true := by
    rw [startsWell, isStart] at passes
    exact Bool.and_eq_true_iff.mp passes
  obtain ⟨final, reached, holds⟩ := Option.any_eq_true _ _ |>.mp completes
  simp only [Bool.and_eq_true, decide_eq_true_eq] at holds
  obtain ⟨⟨second, third⟩, restored, kept⟩ := holds
  refine ⟨final, reached, second, third, restored, kept, ?_⟩
  have along {good : Process → ProcessOp → Process → Prop}
      (implied : ∀ process op next, startsWell process op = true →
        good process op next) :
      Along (Process.step plainPlatform) good
        (Process.init (World.init Kernel.standard) zeroSpace)
        (twoPrograms ++ startedAgain) :=
    @along_mono Process ProcessOp _ _ _ (fun _ => True)
      (fun _ _ _ _ _ _ => True.intro)
      (fun process op next _ _ => implied process op next) _ _ True.intro
      well
  refine start_keeps_running _ _ _ _ (along ?_) (along ?_)
  · intro process op _ passes start isStart
    exact linkedCall_of_loadsApart (starts passes isStart).1
  · intro process op _ passes start path isStart
    exact not_otherUser_of_startsAlone (starts passes isStart).2

theorem otherUser_of_runs
    {process : Process} {id other : SessionId} {pid : VPid} {path : String}
    (isRun : runs process other pid path = true)
    (notCaller : caller process id ≠ some pid) :
    OtherUser process id path := by
  obtain ⟨ex, isExecutor, live⟩ := Option.any_eq_true _ _ |>.mp isRun
  obtain ⟨co, found, holds⟩ := Option.any_eq_true _ _ |>.mp live
  simp only [Bool.and_eq_true, Bool.not_eq_true', beq_iff_eq] at holds
  exact
    ⟨other, ex, pid, co, isExecutor, found, holds.1, holds.2,
      fun same => notCaller same.2⟩

/--
A program has changed its variable and waits for its next turn; the same
program is started a second time, and the variable is 0 again.
-/
theorem start_overwrites_running :
    ¬ ∀ (platform : Platform) (world : World) (space : Space)
        (ops : List ProcessOp),
      Along (Process.step platform) KeepsRunning
        (Process.init world space) ops := by
  intro claimed
  have changes :
      (run (Process.step plainPlatform)
          (Process.init (World.init Kernel.standard) zeroSpace)
          [.system .createSession, .system (.createProcess 1 (0, 1, 2)),
            .drainRequest 1 "/bin/a" (plainAnswers "/bin/a" 0x1000),
            .system (.drive 1 .stepFromDriver), .store 0x1000 [7],
            .system (.drive 1 .doYield),
            .system (.createProcess 1 (0, 1, 2))]).any
        (fun process =>
          decide
            (runs process 1 1 "/bin/a" = true ∧ caller process 1 = none ∧
              (process.loader.cache.lookup "/bin/a").any
                (fun entry =>
                  decide
                    (InRanges
                      (entry.savedWritable.map fun segment =>
                        (segment.addr, segment.data.length))
                      0x1000#64)) = true ∧
              process.loader.space.bytes 0x1000#64 = 7) &&
            (process.step plainPlatform
              (.drainRequest 1 "/bin/a"
                (plainAnswers "/bin/a" 0x1000))).any
              fun next =>
                decide (next.loader.space.bytes 0x1000#64 = 0)) =
      true := by
    decide +kernel
  obtain ⟨process, reached, holds⟩ :=
    Option.any_eq_true _ _ |>.mp changes
  obtain ⟨before, starts⟩ := Bool.and_eq_true_iff.mp holds
  obtain ⟨isRun, notCaller, cached, changed⟩ := of_decide_eq_true before
  obtain ⟨entry, found, inRanges⟩ := Option.any_eq_true _ _ |>.mp cached
  obtain ⟨next, stepped, restored⟩ := Option.any_eq_true _ _ |>.mp starts
  have inSegments : InSegments entry 0x1000#64 := by
    have inRanges := of_decide_eq_true inRanges
    unfold InSegments Written segmentWrites
    rw [List.map_map]
    exact inRanges
  have along :=
    along_append
      (claimed plainPlatform (World.init Kernel.standard) zeroSpace
        (_ ++ [.drainRequest 1 "/bin/a" (plainAnswers "/bin/a" 0x1000)]))
      reached
  have kept :=
    (along next stepped).1 _ rfl "/bin/a" entry found
      (otherUser_of_runs isRun (by rw [notCaller]; exact nofun))
      0x1000#64 inSegments
  rw [changed, of_decide_eq_true restored] at kept
  exact absurd kept (by decide)

end Vproc.Exec.RunningImages
