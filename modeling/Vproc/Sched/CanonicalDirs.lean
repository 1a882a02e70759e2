import Vproc.Sched.ResolvePath

/-!
# Canonical working directories

`chdir` stores what `resolve_path` makes of its argument.  A relative one is
worked off behind the directory, so a canonical directory stays canonical; an
absolute one is stored as it is, with all its dots and slashes.  The next `..`
then takes off the last name of the string, which need not be the last step on
the way to the directory.
-/

namespace Vproc.Sched.CanonicalDirs

open Vproc.Lib.Run
open Vproc.Lib.FiniteMap
open Vproc.Lib.PathWalk
open Vproc.Fd.Table
open Vproc.Fd.KernelTable
open Vproc.Fd.Runtime
open Vproc.Sched.Scheduler
open Vproc.Sched.DriverLoop
open Vproc.Sched.DriverSteps
open Vproc.Sched.ExitDurability
open Vproc.Sched.Lineage
open Vproc.Sched.WorkingDir
open Vproc.Sched.RelativePaths
open Vproc.Sched.ResolvePath

/-! ## What `chdir` works from -/

/-- The directory of a process: its own, or what the kernel reports. -/
def reported (cwd : Option String) (dir : KernelDir) : Option String :=
  match cwd with
  | some own => some own
  | none => realGetcwd dir 4096

/-- The directory which `chdir` puts a relative path behind. -/
def baseOf (cwd : Option String) (dir : KernelDir) : String :=
  (reported cwd dir).getD "/"

theorem chdirPath_eq (cwd : Option String) (dir : KernelDir) (path : String) :
    chdirPath cwd dir path = resolvePath (baseOf cwd dir) path := by
  cases cwd <;> rfl

/-- The kernel reports its directory in the canonical form. -/
theorem canonical_processCwd (dir : KernelDir) :
    Canonical (processCwd dir) := by
  cases reported : realGetcwd dir 4096 with
  | none =>
      rw [processCwd, reported]
      decide
  | some path =>
      rw [processCwd, reported, Option.getD_some]
      simp only [realGetcwd] at reported
      split at reported
      · rw [← Option.some.inj reported]
        exact canonical_render dir.2
      · cases reported

theorem canonical_baseOf
    {cwd : Option String} (canonical : ∀ own ∈ cwd, Canonical own)
    (dir : KernelDir) :
    Canonical (baseOf cwd dir) := by
  cases cwd with
  | none => exact canonical_processCwd dir
  | some own => exact canonical own rfl

/-- The names of a canonical path lead where it leads. -/
theorem names_of_canonical {path : String} (canonical : Canonical path) :
    Proper (namesOf path) ∧ path = String.ofList (render (namesOf path)) ∧
      placeOf path = namesOf path := by
  obtain ⟨names, proper, rfl⟩ := render_of_canonical canonical
  have plain (name : Name) (member : name ∈ names) : isPlain name = true :=
    (proper name member).1
  have noSlash (name : Name) (member : name ∈ names) : '/' ∉ name :=
    (proper name member).2
  have same : namesOf (String.ofList (render names)) = names := by
    rw [namesOf, String.toList_ofList]
    refine names_render noSlash ?_
    rintro name member rfl
    cases plain [] member
  rw [same, placeOf_eq_walk, same, walk_plain plain]
  exact ⟨proper, rfl, rfl⟩

theorem canonical_of_relative
    {cwd path : String} (canonical : Canonical cwd)
    (isRelative : isAbsolute path.toList = false) :
    Canonical (resolvePath cwd path) := by
  rw [resolvePath_relative isRelative]
  exact
    canonical_render
      (proper_walk (names_of_canonical canonical).1
        fun _ => not_slash_of_mem)

/-- From a canonical directory, `..` leads to its parent. -/
theorem resolvePath_up {cwd : String} (canonical : Canonical cwd) :
    resolvePath cwd ".." =
      String.ofList (render (placeOf cwd).dropLast) := by
  rw [resolvePath_relative (by decide), (names_of_canonical canonical).2.2]
  have up : components "..".toList = [['.', '.']] := by decide
  rw [up]
  rfl

/-! ## Sessions -/

/-- Every recorded directory is canonical. -/
def AllCanonical (state : Directories) : Prop :=
  ∀ pid, ∀ path ∈ state.cwdOf pid, Canonical path

/--
A successful `chdir` to `..` records the parent of the directory from which it
was called; the root is its own parent.
-/
def GoesUp (state : Directories) (op : DirOp) (next : Directories) : Prop :=
  ∀ pid, op = .call pid (.chdir ".." 0) →
    ∀ own ∈ reported (state.cwdOf pid) state.kernelCwd,
      next.cwdOf pid = some (String.ofList (render (placeOf own).dropLast))

/-- An absolute path with which `chdir` succeeds is canonical. -/
def CanonicalArgument (op : DirOp) : Prop :=
  ∀ pid path, op = .call pid (.chdir path 0) →
    isAbsolute path.toList = true → Canonical path

section Steps

variable {state next : Directories}

/-- A recorded directory was recorded before, for this process or another. -/
theorem cwdOf_source
    {op : DriverOp} {machine : Machine} {pid : VPid} {path : String}
    (stepped : state.machine.step op = some machine)
    (found : ({ state with machine := machine } : Directories).cwdOf pid =
      some path) :
    ∃ other, state.cwdOf other = some path := by
  by_cases new : spawns state.machine.driver op = true ∧
      pid = state.machine.driver.executor.nextPid
  · obtain ⟨isSpawn, rfl⟩ := new
    obtain ⟨co, stored, _, newborn⟩ := newborn_step stepped isSpawn
    obtain ⟨other, isOther, cwd⟩ := Option.bind_eq_some_iff.mp found
    cases stored.symm.trans isOther
    cases newborn with
    | fresh _ _ noCwd _ =>
        rw [noCwd] at cwd
        cases cwd
    | forked parent origin _ isOrigin _ sameCwd _ =>
        refine ⟨parent, ?_⟩
        rw [Directories.cwdOf, isOrigin, Option.bind_some, ← sameCwd, cwd]
  · have change := change_of_machineStep stepped
    exact
      ⟨pid,
        cwdOf_of_continues
          (continues_change change fun isSpawn same => new ⟨isSpawn, same⟩)
          found⟩

/-- What a process records is what it passes to the kernel. -/
theorem cwdOf_chdir
    {pid : VPid} {path : String} (live : RunsLive state.machine.driver)
    (stepped : state.step (.call pid (.chdir path 0)) = some next) :
    next.cwdOf pid =
      some (chdirPath (state.cwdOf pid) state.kernelCwd path) := by
  simp only [Directories.step] at stepped
  split at stepped
  · rename_i running
    obtain ⟨turn, isTurn, rfl⟩ := Option.map_eq_some_iff.mp running
    obtain ⟨co, found, _⟩ := live turn isTurn
    obtain ⟨after, happens, rfl⟩ := Option.map_eq_some_iff.mp stepped
    simp only [Directories.effect, if_pos] at happens
    cases happens
    refine (cwdOf_setCwd state turn.pid turn.pid _).trans ?_
    rw [if_pos rfl, found, Option.map_some]
  · cases stepped

theorem allCanonical_step
    {op : DirOp} (canonical : AllCanonical state)
    (stepped : state.step op = some next)
    (argument : CanonicalArgument op) :
    AllCanonical next := by
  intro pid path found
  cases op with
  | driver op =>
      obtain ⟨machine, moved, rfl⟩ := Option.map_eq_some_iff.mp stepped
      obtain ⟨other, before⟩ := cwdOf_source moved found
      exact canonical other path before
  | call caller call =>
      simp only [Directories.step] at stepped
      split at stepped
      · obtain ⟨after, happens, rfl⟩ := Option.map_eq_some_iff.mp stepped
        rcases effect_cases happens with
          ⟨sameDriver, _⟩ | ⟨given, rfl, rfl⟩
        · refine canonical pid path ?_
          rw [Directories.cwdOf, ← sameDriver]
          exact found
        · have recorded := (cwdOf_setCwd state caller pid _).symm.trans found
          split at recorded
          · obtain ⟨_, _, rfl⟩ := Option.map_eq_some_iff.mp recorded
            rw [chdirPath_eq]
            cases absolute : isAbsolute given.toList with
            | true =>
                rw [resolvePath, if_pos absolute]
                exact argument caller given rfl absolute
            | false =>
                exact
                  canonical_of_relative
                    (canonical_baseOf (canonical caller) state.kernelCwd)
                    absolute
          · exact canonical pid path recorded
      · cases stepped

theorem goesUp_step
    {op : DirOp} (live : RunsLive state.machine.driver)
    (canonical : AllCanonical state)
    (stepped : state.step op = some next) :
    GoesUp state op next := by
  rintro pid rfl own isOwn
  have base : baseOf (state.cwdOf pid) state.kernelCwd = own := by
    rw [baseOf, Option.mem_def.mp isOwn, Option.getD_some]
  have isCanonical :=
    canonical_baseOf (canonical pid) state.kernelCwd
  rw [base] at isCanonical
  rw [cwdOf_chdir live stepped, chdirPath_eq, base,
    resolvePath_up isCanonical]

/-- If the directories stay canonical, so was the argument. -/
theorem canonicalArgument_of_next
    {op : DirOp} (live : RunsLive state.machine.driver)
    (stepped : state.step op = some next)
    (canonical : AllCanonical next) :
    CanonicalArgument op := by
  rintro pid path rfl absolute
  have recorded := cwdOf_chdir live stepped
  rw [chdirPath_eq, resolvePath, if_pos absolute] at recorded
  exact canonical pid path recorded

end Steps

/--
In a run all recorded directories stay canonical and `..` always leads to the
parent, if and only if every absolute path with which `chdir` succeeds is
canonical.
-/
theorem cwd_canonical_iff
    (world : World) (dir : KernelDir) (ops : List DirOp) :
    Along Directories.step
        (fun state op next => AllCanonical next ∧ GoesUp state op next)
        (Directories.init world dir) ops ↔
      Along Directories.step (fun _ op _ => CanonicalArgument op)
        (Directories.init world dir) ops := by
  have fresh : AllCanonical (Directories.init world dir) := by
    rintro pid path ⟨⟩
  have live := runsLive_init world dir
  constructor
  · refine
      @along_mono Directories DirOp Directories.step _ _
        (fun state => RunsLive state.machine.driver) ?_ ?_ _ _ live
    · exact fun state op next live stepped _ =>
        runsLive_step state op next live stepped
    · exact fun state op next live stepped holds =>
        canonicalArgument_of_next live stepped holds.1
  · refine
      @along_mono Directories DirOp Directories.step _ _
        (fun state => RunsLive state.machine.driver ∧ AllCanonical state)
        ?_ ?_ _ _ ⟨live, fresh⟩
    · exact fun state op next holds stepped argument =>
        ⟨runsLive_step state op next holds.1 stepped,
          allCanonical_step holds.2 stepped argument⟩
    · exact fun state op next holds stepped argument =>
        ⟨allCanonical_step holds.2 stepped argument,
          goesUp_step holds.1 holds.2 stepped⟩

/-- Process 1 goes to `/a/b/..`, and up from there. -/
def upFromDots : List DirOp :=
  [.driver .spawn, .driver .stepFromDriver,
    .call 1 (.chdir "/a/b/.." 0), .call 1 (.chdir ".." 0)]

/-- `..` leads to `/a/b` then, which is not the parent of `/a`. -/
theorem cwd_not_canonical :
    ¬ ∀ (world : World) (dir : KernelDir) (ops : List DirOp),
      Along Directories.step
        (fun state op next => AllCanonical next ∧ GoesUp state op next)
        (Directories.init world dir) ops := by
  intro always
  have spawned :=
    always (World.init Kernel.standard) KernelDir.root upFromDots
  have resumed := (spawned _ rfl).2
  have dotted := (resumed _ rfl).2
  have wentUp := (dotted _ rfl).2
  have isParent := (wentUp _ rfl).1.2 1 rfl "/a/b/.." rfl
  revert isParent
  decide

end Vproc.Sched.CanonicalDirs
