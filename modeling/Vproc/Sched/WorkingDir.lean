import Vproc.Lib.PathWalk
import Vproc.Sched.Lineage

/-!
# Working directories

Every coroutine may have a working directory of its own, a string in its
record.  The kernel has one for the whole host process.  `chdir` sets both;
nothing sets the kernel's when another coroutine is resumed.  `open`, `openat`
and `chdir` put a relative path behind the coroutine's directory, `creat`
passes it to the kernel as it is, and a coroutine without a directory of its
own uses the kernel's.

Paths are strings in UTF-8 without zero bytes, and name places in a tree of
directories.  `seen` has no counterpart in the source: it lists the calls with
the places their paths named.
-/

namespace Vproc.Sched.WorkingDir

open Vproc.Lib.Run
open Vproc.Lib.FiniteMap
open Vproc.Lib.PathWalk
open Vproc.Fd.Table
open Vproc.Fd.KernelTable
open Vproc.Fd.Runtime
open Vproc.Sched.Scheduler
open Vproc.Sched.DriverLoop
open Vproc.Sched.DriverSteps
open Vproc.Sched.ExitDurability
open Vproc.Sched.Lineage

/-! ## The kernel's directory -/

/-- A place all of whose names go down and have no slash in them. -/
def Proper (place : Place) : Prop :=
  ∀ name ∈ place, isPlain name = true ∧ '/' ∉ name

theorem proper_enter
    {place : Place} (proper : Proper place) {name : Name}
    (noSlash : '/' ∉ name) :
    Proper (enter place name) := by
  intro other member
  refine
    ⟨plain_enter (fun old isOld => (proper old isOld).1) name other member,
      ?_⟩
  rcases mem_enter member with old | rfl
  · exact (proper other old).2
  · exact noSlash

theorem proper_walk
    {place : Place} (proper : Proper place) {names : List Name}
    (noSlash : ∀ name ∈ names, '/' ∉ name) :
    Proper (walk place names) := by
  induction names generalizing place with
  | nil => exact proper
  | cons name rest induction =>
      refine induction (proper_enter proper ?_) ?_
      · exact noSlash name List.mem_cons_self
      · exact fun other member =>
          noSlash other (List.mem_cons_of_mem name member)

theorem proper_designated
    {cwd : Place} (proper : Proper cwd) (path : List Char) :
    Proper (designated cwd path) := by
  refine proper_walk ?_ fun _ => not_slash_of_mem
  split
  · exact nofun
  · exact proper

/-- A directory the kernel can be in. -/
def KernelDir := { place : Place // Proper place }

namespace KernelDir

instance : DecidableEq KernelDir :=
  inferInstanceAs (DecidableEq { place : Place // Proper place })

/-- The root directory. -/
def root : KernelDir :=
  ⟨[], nofun⟩

/-- The directory which a path names. -/
def follow (dir : KernelDir) (path : String) : KernelDir :=
  ⟨designated dir.1 path.toList, proper_designated dir.2 path.toList⟩

end KernelDir

/-! ## The functions of the source -/

/-- `resolve_path`. -/
def resolvePath (cwd path : String) : String :=
  if isAbsolute path.toList then path
  else
    String.ofList
      (render
        (walk ((components cwd.toList).filter (· ≠ []))
          (components path.toList)))

/-- `getcwd` of the C library, with the size of the buffer. -/
def realGetcwd (dir : KernelDir) (size : Nat) : Option String :=
  let path := String.ofList (render dir.1)
  if path.utf8ByteSize + 1 ≤ size then some path else none

/-- `process_cwd`. -/
def processCwd (dir : KernelDir) : String :=
  (realGetcwd dir 4096).getD "/"

/-- The answer of `getcwd`; none stands for a null pointer and `ERANGE`. -/
def getcwd (cwd : Option String) (dir : KernelDir) (size : Nat) :
    Option String :=
  match cwd with
  | some own => if size < own.utf8ByteSize + 1 then none else some own
  | none => realGetcwd dir size

/-- The path which `open` passes to the kernel. -/
def openPath (cwd : Option String) (path : String) : String :=
  match cwd with
  | some own =>
      if isAbsolute path.toList then path else resolvePath own path
  | none => path

/-- `AT_FDCWD`. -/
def atFdcwd : CInt :=
  -100

/-- The path which `openat` passes to the kernel. -/
def openatPath (cwd : Option String) (dirfd : CInt) (path : String) :
    String :=
  if dirfd = atFdcwd then
    match cwd with
    | some own =>
        if isAbsolute path.toList then path else resolvePath own path
    | none => path
  else path

/-- The path which `creat` passes to the kernel. -/
def creatPath (path : String) : String :=
  path

/-- The path which `chdir` passes to the kernel. -/
def chdirPath (cwd : Option String) (dir : KernelDir) (path : String) :
    String :=
  match cwd with
  | some own => resolvePath own path
  | none => resolvePath (processCwd dir) path

/-! ## Calls of a session -/

/-- A call of a coroutine, with the kernel's answer. -/
inductive DirCall where
  | chdir (path : String) (answer : CInt)
  | getcwd (size : Nat)
  | openPath (path : String) (flags : Nat) (answer : CInt)
  | openatPath (dirfd : CInt) (path : String) (flags : Nat)
      (answer : CInt)
  | creat (path : String) (answer : CInt)
deriving DecidableEq, Repr

/-- The place the passed path names, and the answer of `getcwd`. -/
structure Result where
  place : Option Place
  reply : Option String
deriving DecidableEq, Repr

/-- The place which the kernel takes a path for; an empty one names none. -/
def named (dir : KernelDir) (path : String) : Option Place :=
  if path = "" then none else some (dir.follow path).1

/-- What a call gives to a coroutine with this directory. -/
def resultOf (cwd : Option String) (dir : KernelDir) : DirCall → Result
  | .chdir path _ =>
      { place := named dir (chdirPath cwd dir path), reply := none }
  | .getcwd size => { place := none, reply := getcwd cwd dir size }
  | .openPath path _ _ =>
      { place := named dir (openPath cwd path), reply := none }
  | .openatPath dirfd path _ _ =>
      { place :=
          if dirfd = atFdcwd then named dir (openatPath cwd dirfd path)
          else none
        reply := none }
  | .creat path _ =>
      { place := named dir (creatPath path), reply := none }

/-- A session and the kernel's working directory. -/
structure Directories where
  machine : Machine
  kernelCwd : KernelDir
  seen : List (VPid × DirCall × Result)

/-- A step of the driver, or a call of the process which is running. -/
inductive DirOp where
  | driver (op : DriverOp)
  | call (pid : VPid) (call : DirCall)
deriving DecidableEq, Repr

namespace Directories

/-- A session which starts in some directory of the host. -/
def init (world : World) (dir : KernelDir) : Directories where
  machine := Machine.init world
  kernelCwd := dir
  seen := []

/-- `get_cwd`, for any process. -/
def cwdOf (state : Directories) (pid : VPid) : Option String :=
  (state.machine.driver.executor.vprocs.lookup pid).bind Coroutine.cwd

/-- Set the directory in the record of a process. -/
def setCwd (state : Directories) (pid : VPid) (path : String) : Machine :=
  { state.machine with
    driver :=
      state.machine.driver.withExecutor
        (state.machine.driver.executor.update pid fun co =>
          { co with cwd := some path }) }

/-- What a call does besides. -/
def effect (state : Directories) (pid : VPid) :
    DirCall → Option (Machine × KernelDir)
  | .chdir path answer =>
      if answer = 0 then
        let passed := chdirPath (state.cwdOf pid) state.kernelCwd path
        some (state.setCwd pid passed, state.kernelCwd.follow passed)
      else some (state.machine, state.kernelCwd)
  | .getcwd _ => some (state.machine, state.kernelCwd)
  | .openPath _ flags answer =>
      (state.machine.step (.sys (.openPath flags answer))).map
        fun next => (next, state.kernelCwd)
  | .openatPath _ _ flags answer =>
      (state.machine.step (.sys (.openatPath flags answer))).map
        fun next => (next, state.kernelCwd)
  | .creat _ answer =>
      (state.machine.step (.sys (.creat answer))).map
        fun next => (next, state.kernelCwd)

/-- One step of a session with its directories. -/
def step (state : Directories) : DirOp → Option Directories
  | .driver op =>
      (state.machine.step op).map fun next =>
        { state with machine := next }
  | .call pid call =>
      if state.machine.driver.turn.map Turn.pid = some pid then
        (state.effect pid call).map fun next =>
          { machine := next.1
            kernelCwd := next.2
            seen :=
              state.seen ++
                [(pid, call,
                  resultOf (state.cwdOf pid) state.kernelCwd call)] }
      else none

end Directories

/-! ## The recorded directory and the kernel's -/

/-- The place of a recorded directory. -/
def placeOf (path : String) : Place :=
  designated [] path.toList

/-- A running process with a directory of its own is in it. -/
def Matches (state : Directories) : Prop :=
  ∀ turn ∈ state.machine.driver.turn, ∀ path ∈ state.cwdOf turn.pid,
    state.kernelCwd.1 = placeOf path

instance (state : Directories) : Decidable (Matches state) :=
  inferInstanceAs
    (Decidable
      (∀ turn ∈ state.machine.driver.turn,
        ∀ path ∈ state.cwdOf turn.pid, state.kernelCwd.1 = placeOf path))

/--
A process with a directory of its own is resumed only while the kernel is in
it.  The second part is about a fork whose child is given the number of the
running process.
-/
def ResumesInPlace (state : Directories) : DirOp → Prop
  | .driver op =>
      (beginsTurn op = true → state.machine.driver.turn = none →
        ∀ pid ∈ state.machine.driver.executor.pickNext.2,
          ∀ path ∈ state.cwdOf pid,
            state.kernelCwd.1 = placeOf path) ∧
      ∀ parent, op = .spawnForkChild parent →
        state.machine.driver.turn.map Turn.pid =
            some state.machine.driver.executor.nextPid →
          ∀ path ∈ state.cwdOf parent, state.kernelCwd.1 = placeOf path
  | .call _ _ => True

section Steps

variable {state : Directories}

theorem cwdOf_of_continues
    {next : Directories} {pid : VPid}
    (continues : Continues state.machine.driver.executor
      next.machine.driver.executor pid)
    {path : String} (found : next.cwdOf pid = some path) :
    state.cwdOf pid = some path := by
  obtain ⟨co, stored, cwd⟩ := Option.bind_eq_some_iff.mp found
  obtain ⟨before, isBefore, same⟩ := continues co stored
  rw [Directories.cwdOf, isBefore, Option.bind_some, ← same.cwd, cwd]

theorem isAbsolute_resolvePath (cwd path : String) :
    isAbsolute (resolvePath cwd path).toList = true := by
  unfold resolvePath
  split
  · rename_i absolute
    exact absolute
  · rw [String.toList_ofList, isAbsolute_render]

theorem designated_absolute
    {path : List Char} (absolute : isAbsolute path = true)
    (first second : Place) :
    designated first path = designated second path := by
  rw [designated, designated, if_pos absolute, if_pos absolute]

theorem isAbsolute_chdirPath
    (cwd : Option String) (dir : KernelDir) (path : String) :
    isAbsolute (chdirPath cwd dir path).toList = true := by
  cases cwd with
  | none => exact isAbsolute_resolvePath _ path
  | some own => exact isAbsolute_resolvePath own path

theorem cwdOf_setCwd
    (state : Directories) (pid other : VPid) (path : String) :
    ((state.setCwd pid path).driver.executor.vprocs.lookup other).bind
        Coroutine.cwd =
      if other = pid then
        (state.machine.driver.executor.vprocs.lookup other).map
          fun _ => path
      else state.cwdOf other := by
  refine
    (congrArg (fun stored => Option.bind stored Coroutine.cwd)
      (lookup_update _ pid other _)).trans ?_
  split
  · cases state.machine.driver.executor.vprocs.lookup other <;> rfl
  · rfl

/-- What a call leaves: everything, or a changed directory. -/
theorem effect_cases
    {pid : VPid} {call : DirCall} {next : Machine × KernelDir}
    (happens : state.effect pid call = some next) :
    (next.1.driver = state.machine.driver ∧
        next.2 = state.kernelCwd) ∨
      ∃ path, call = .chdir path 0 ∧
        next =
          (state.setCwd pid
              (chdirPath (state.cwdOf pid) state.kernelCwd path),
            state.kernelCwd.follow
              (chdirPath (state.cwdOf pid) state.kernelCwd path)) := by
  cases call with
  | chdir path answer =>
      simp only [Directories.effect] at happens
      split at happens
      · rename_i succeeded
        subst succeeded
        cases happens
        exact Or.inr ⟨path, rfl, rfl⟩
      · cases happens
        exact Or.inl ⟨rfl, rfl⟩
  | getcwd size =>
      cases happens
      exact Or.inl ⟨rfl, rfl⟩
  | openPath path flags answer =>
      obtain ⟨machine, stepped, rfl⟩ := Option.map_eq_some_iff.mp happens
      exact Or.inl ⟨driver_of_sys (change_of_machineStep stepped), rfl⟩
  | openatPath dirfd path flags answer =>
      obtain ⟨machine, stepped, rfl⟩ := Option.map_eq_some_iff.mp happens
      exact Or.inl ⟨driver_of_sys (change_of_machineStep stepped), rfl⟩
  | creat path answer =>
      obtain ⟨machine, stepped, rfl⟩ := Option.map_eq_some_iff.mp happens
      exact Or.inl ⟨driver_of_sys (change_of_machineStep stepped), rfl⟩

/-- Who runs after a step of the driver, and with which directory. -/
theorem running_cases
    {op : DriverOp} {next : Machine} {turn : Turn} {path : String}
    (stepped : state.machine.step op = some next)
    (isTurn : next.driver.turn = some turn)
    (found : ({ state with machine := next } : Directories).cwdOf
      turn.pid = some path) :
    (beginsTurn op = true ∧ state.machine.driver.turn = none ∧
        state.machine.driver.executor.pickNext.2 = some turn.pid ∧
        state.cwdOf turn.pid = some path) ∨
      state.machine.driver.turn = some turn ∧
        (state.cwdOf turn.pid = some path ∨
          ∃ parent, op = .spawnForkChild parent ∧
            state.machine.driver.executor.nextPid = turn.pid ∧
            state.cwdOf parent = some path) := by
  have change := change_of_machineStep stepped
  have turns := turn_cases change isTurn
  by_cases new : spawns state.machine.driver op = true ∧
      turn.pid = state.machine.driver.executor.nextPid
  · obtain ⟨isSpawn, number⟩ := new
    obtain ⟨co, stored, _, newborn⟩ := newborn_step stepped isSpawn
    obtain ⟨other, isOther, cwd⟩ := Option.bind_eq_some_iff.mp found
    rw [number] at isOther
    cases stored.symm.trans isOther
    rcases turns with sameTurn | ⟨notSpawn, _⟩
    · cases newborn with
      | fresh _ _ noCwd _ =>
          rw [noCwd] at cwd
          cases cwd
      | forked parent origin isFork isOrigin _ sameCwd _ =>
          refine
            Or.inr ⟨sameTurn, Or.inr ⟨parent, isFork, number.symm, ?_⟩⟩
          rw [Directories.cwdOf, isOrigin, Option.bind_some, ← sameCwd,
            cwd]
    · rw [isSpawn] at notSpawn
      cases notSpawn
  · have before : state.cwdOf turn.pid = some path :=
      cwdOf_of_continues
        (continues_change change
          fun isSpawn same => new ⟨isSpawn, same⟩) found
    rcases turns with sameTurn | ⟨_, begins, idle, picked⟩
    · exact Or.inr ⟨sameTurn, Or.inl before⟩
    · exact Or.inl ⟨begins, idle, picked, before⟩

theorem matches_of_resumesInPlace
    (op : DirOp) (next : Directories) (holds : Matches state)
    (stepped : state.step op = some next)
    (inPlace : ResumesInPlace state op) :
    Matches next := by
  intro turn isTurn path found
  cases op with
  | driver op =>
      obtain ⟨machine, moved, rfl⟩ := Option.map_eq_some_iff.mp stepped
      rcases running_cases moved isTurn found with
        ⟨begins, idle, picked, before⟩ |
          ⟨sameTurn, before | ⟨parent, isFork, number, before⟩⟩
      · exact inPlace.1 begins idle turn.pid picked path before
      · exact holds turn sameTurn path before
      · refine inPlace.2 parent isFork ?_ path before
        rw [sameTurn, Option.map_some, number]
  | call pid call =>
      simp only [Directories.step] at stepped
      split at stepped
      · rename_i isRunning
        obtain ⟨after, happens, rfl⟩ := Option.map_eq_some_iff.mp stepped
        rcases effect_cases happens with
          ⟨sameDriver, sameDir⟩ | ⟨target, rfl, rfl⟩
        · have turns : state.machine.driver.turn = some turn := by
            rw [← sameDriver]
            exact isTurn
          have before : state.cwdOf turn.pid = some path := by
            rw [Directories.cwdOf, ← sameDriver]
            exact found
          dsimp only
          rw [sameDir]
          exact holds turn turns path before
        · have turns : state.machine.driver.turn = some turn := isTurn
          rw [turns] at isRunning
          cases isRunning
          have cwd := (cwdOf_setCwd state turn.pid turn.pid _).symm.trans found
          rw [if_pos rfl] at cwd
          obtain ⟨_, _, rfl⟩ := Option.map_eq_some_iff.mp cwd
          exact designated_absolute (isAbsolute_chdirPath _ _ target) _ _
      · cases stepped

theorem resumesInPlace_of_matches
    (op : DirOp) (next : Directories)
    (stepped : state.step op = some next) (holds : Matches next) :
    ResumesInPlace state op := by
  cases op with
  | call pid call => exact True.intro
  | driver op =>
      obtain ⟨machine, moved, rfl⟩ := Option.map_eq_some_iff.mp stepped
      have change := change_of_machineStep moved
      constructor
      · intro begins idle pid picked path found
        have picks : picks state.machine.driver op pid = true := by
          simp only [DriverSteps.picks, begins, Bool.true_and,
            decide_eq_true_eq]
          exact picked
        obtain ⟨⟨turn, isTurn, rfl, present⟩, _⟩ :=
          queue_of_resumes change (resumes_of_picks change picks)
        obtain ⟨co, stored⟩ := mem_iff_lookup.mp present
        have notSpawn : spawns state.machine.driver op = false := by
          cases op with
          | stepFromDriver => rfl
          | stepFromDriverWithFdSwap saved => rfl
          | _ => cases begins
        obtain ⟨before, isBefore, same⟩ :=
          continues_change change
            (fun isSpawn => by rw [notSpawn] at isSpawn; cases isSpawn)
            co stored
        refine holds turn isTurn path ?_
        rw [Option.mem_def, Directories.cwdOf, isBefore, Option.bind_some]
          at found
        rw [Option.mem_def, Directories.cwdOf, stored, Option.bind_some,
          same.cwd, found]
      · rintro parent rfl running path found
        obtain ⟨origin, isOrigin, cwd⟩ := Option.bind_eq_some_iff.mp found
        have isSpawn :
            spawns state.machine.driver (.spawnForkChild parent) = true :=
          decide_eq_true (mem_iff_lookup.mpr ⟨origin, isOrigin⟩)
        obtain ⟨turn, isTurn, number⟩ := Option.map_eq_some_iff.mp running
        obtain ⟨co, stored, _, newborn⟩ := newborn_step moved isSpawn
        have sameTurn := (turn_of_spawns change isSpawn).trans isTurn
        refine holds turn sameTurn path ?_
        cases newborn with
        | fresh notFork _ _ _ => exact (notFork parent rfl).elim
        | forked other source isFork isSource _ sameCwd _ =>
            cases isFork
            cases isOrigin.symm.trans isSource
            rw [Option.mem_def, Directories.cwdOf, number]
            dsimp only
            rw [stored, Option.bind_some, sameCwd, cwd]

end Steps

/--
In a run every running process with a directory of its own is in it, if and
only if every process with a directory of its own is resumed while the kernel
is in it.
-/
theorem cwd_matches_iff
    (world : World) (dir : KernelDir) (ops : List DirOp) :
    Along Directories.step (fun _ _ next => Matches next)
        (Directories.init world dir) ops ↔
      Along Directories.step (fun state op _ => ResumesInPlace state op)
        (Directories.init world dir) ops := by
  apply along_good_iff
  · exact fun _ op next holds stepped inPlace =>
      matches_of_resumesInPlace op next holds stepped inPlace
  · exact fun _ op next _ stepped holds =>
      resumesInPlace_of_matches op next stepped holds
  · exact nofun

/-- Process 1 goes to `/a` and yields, process 2 goes to `/b` and yields. -/
def twoChdirs : List DirOp :=
  [.driver .spawn, .driver .spawn, .driver .stepFromDriver,
    .call 1 (.chdir "/a" 0), .driver .doYield, .driver .stepFromDriver,
    .call 2 (.chdir "/b" 0), .driver .doYield, .driver .stepFromDriver]

/-- When process 1 is resumed, the kernel is still in `/b`. -/
theorem cwd_differs_after_resume :
    ¬ ∀ (world : World) (dir : KernelDir) (ops : List DirOp),
      Along Directories.step (fun _ _ next => Matches next)
        (Directories.init world dir) ops := by
  intro always
  have holds := always (World.init Kernel.standard) KernelDir.root twoChdirs
  revert holds
  decide

end Vproc.Sched.WorkingDir
