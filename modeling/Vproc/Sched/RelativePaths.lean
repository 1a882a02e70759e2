import Vproc.Sched.WorkingDir

/-!
# Relative paths

A relative path is meant from the directory which `getcwd` reports.  `open`,
`openat` and `chdir` of a coroutine with a directory of its own work on the
strings, so the kernel's directory does not matter for them; `creat` passes
the path on, and is right only while the kernel is in that directory.  A
coroutine without a directory of its own is in the kernel's, which moves when
any other coroutine calls `chdir`.

As long as this does not happen to a process, the results of its calls are a
function of the directory it starts with and of these calls: `replay`.  That
other processes do not disturb it follows from this.
-/

namespace Vproc.Sched.RelativePaths

open Vproc.Lib.Run
open Vproc.Lib.FiniteMap
open Vproc.Lib.PathWalk
open Vproc.Fd.Table
open Vproc.Fd.KernelTable
open Vproc.Fd.Runtime
open Vproc.Sched.Scheduler
open Vproc.Sched.DriverLoop
open Vproc.Sched.DriverSteps
open Vproc.Sched.ExitDurability
open Vproc.Sched.Lineage
open Vproc.Sched.WorkingDir

/-! ## Agreement -/

/-- The path, if it is relative. -/
def relative? (path : String) : Option String :=
  if isAbsolute path.toList then none else some path

/-- The relative path which a call is given. -/
def relativePath? : DirCall → Option String
  | .chdir path _ => relative? path
  | .getcwd _ => none
  | .openPath path _ _ => relative? path
  | .openatPath dirfd path _ _ =>
      if dirfd = atFdcwd then relative? path else none
  | .creat path _ => relative? path

/-- The place which `getcwd` reports. -/
def ownPlace (cwd : Option String) (dir : KernelDir) : Place :=
  match cwd with
  | some own => placeOf own
  | none => dir.1

/-- What a relative path names from a place; the empty one names nothing. -/
def meant (start : Place) (path : String) : Option Place :=
  if path = "" then none else some (designated start path.toList)

/--
A call of the process passes a path which names the place of the given path,
seen from the process's own directory.
-/
def PathsAgree (pid : VPid) (state : Directories) : DirOp → Prop
  | .driver _ => True
  | .call caller call =>
      caller = pid → ∀ path ∈ relativePath? call,
        (resultOf (state.cwdOf pid) state.kernelCwd call).place =
          meant (ownPlace (state.cwdOf pid) state.kernelCwd) path

instance (pid : VPid) (state : Directories) (op : DirOp) :
    Decidable (PathsAgree pid state op) :=
  match op with
  | .driver _ => inferInstanceAs (Decidable True)
  | .call _ call =>
      inferInstanceAs (Decidable (_ → ∀ path ∈ relativePath? call, _ = _))

def isCreat : DirCall → Bool
  | .creat _ _ => true
  | _ => false

def isChdir : DirCall → Bool
  | .chdir _ _ => true
  | _ => false

/-- The names which `resolve_path` takes from a directory. -/
def namesOf (cwd : String) : List Name :=
  (components cwd.toList).filter (· ≠ [])

/--
The call does not depend on what others have done to the kernel's directory.
A path which is put behind another one is not empty, and no `..` of it takes
off a `.` or `..` of the recorded directory.
-/
def Steady (home : KernelDir) (cwd : Option String) (dir : KernelDir)
    (call : DirCall) : Prop :=
  match cwd with
  | some own =>
      ∀ path ∈ relativePath? call,
        if isCreat call then dir.1 = placeOf own
        else
          path ≠ "" ∧
            climbsPlain (namesOf own) (components path.toList) = true
  | none =>
      dir = home ∧
        (isChdir call = true →
          (realGetcwd home 4096).isSome = true ∧
            relativePath? call ≠ some "")

instance (home : KernelDir) (cwd : Option String) (dir : KernelDir)
    (call : DirCall) : Decidable (Steady home cwd dir call) :=
  match cwd with
  | some _ =>
      inferInstanceAs (Decidable (∀ path ∈ relativePath? call, ite _ _ _))
  | none => inferInstanceAs (Decidable (_ ∧ (_ → _)))

theorem relative?_spec
    {path other : String} (isRelative : relative? path = some other) :
    other = path ∧ isAbsolute path.toList = false := by
  unfold relative? at isRelative
  split at isRelative
  · cases isRelative
  · rename_i notAbsolute
    cases isRelative
    exact ⟨rfl, Bool.eq_false_of_not_eq_true notAbsolute⟩

theorem placeOf_eq_walk (path : String) :
    placeOf path = walk [] (namesOf path) := by
  rw [placeOf, namesOf, walk_filter, designated]
  split <;> rfl

/-- Where `resolve_path` leads to. -/
theorem designated_resolvePath
    {cwd path : String} (isRelative : isAbsolute path.toList = false)
    (climbs : climbsPlain (namesOf cwd) (components path.toList) = true)
    (dir : Place) :
    designated dir (resolvePath cwd path).toList =
      designated (placeOf cwd) path.toList := by
  have noSlash (name : Name)
      (member : name ∈ walk (namesOf cwd) (components path.toList)) :
      '/' ∉ name := by
    rcases mem_walk member with ofCwd | ofPath
    · exact not_slash_of_mem (List.mem_of_mem_filter ofCwd)
    · exact not_slash_of_mem ofPath
  calc
    designated dir (resolvePath cwd path).toList =
        designated dir
          (render (walk (namesOf cwd) (components path.toList))) := by
      simp [resolvePath, isRelative, namesOf]
    _ = walk [] (walk (namesOf cwd) (components path.toList)) :=
      designated_render noSlash dir
    _ = walk (walk [] (namesOf cwd)) (components path.toList) :=
      walk_walk climbs
    _ = designated (placeOf cwd) path.toList := by
      simp [designated, isRelative, placeOf_eq_walk]

theorem ne_empty_of_absolute
    {path : String} (absolute : isAbsolute path.toList = true) :
    path ≠ "" := by
  rintro rfl
  cases absolute

theorem named_absolute
    {path : String} (absolute : isAbsolute path.toList = true)
    (dir : KernelDir) :
    named dir path = some (designated dir.1 path.toList) :=
  if_neg (ne_empty_of_absolute absolute)

/-- `process_cwd` names the kernel's directory, if it fits. -/
theorem processCwd_spec
    {dir : KernelDir} (fits : (realGetcwd dir 4096).isSome = true) :
    namesOf (processCwd dir) = dir.1 ∧
      placeOf (processCwd dir) = dir.1 := by
  have path : processCwd dir = String.ofList (render dir.1) := by
    obtain ⟨found, isFound⟩ := Option.isSome_iff_exists.mp fits
    rw [processCwd, isFound, Option.getD_some]
    simp only [realGetcwd] at isFound
    split at isFound
    · exact (Option.some.inj isFound).symm
    · cases isFound
  have plain (name : Name) (member : name ∈ dir.1) :
      isPlain name = true :=
    (dir.2 name member).1
  have noSlash (name : Name) (member : name ∈ dir.1) : '/' ∉ name :=
    (dir.2 name member).2
  constructor
  · rw [path, namesOf, String.toList_ofList]
    refine names_render noSlash ?_
    rintro name member rfl
    cases plain [] member
  · rw [path, placeOf, String.toList_ofList, designated_render noSlash,
      walk_plain plain, List.nil_append]

/-- What `resolve_path` makes of a relative path names the right place. -/
theorem named_resolvePath
    {cwd path : String} (isRelative : isAbsolute path.toList = false)
    (notEmpty : path ≠ "")
    (climbs : climbsPlain (namesOf cwd) (components path.toList) = true)
    (dir : KernelDir) :
    named dir (resolvePath cwd path) = meant (placeOf cwd) path := by
  rw [named_absolute (isAbsolute_resolvePath cwd path),
    designated_resolvePath isRelative climbs, meant, if_neg notEmpty]

/-- A steady call passes a path which names the right place. -/
theorem agrees_of_steady
    {home dir : KernelDir} {cwd : Option String} {call : DirCall}
    (steady : Steady home cwd dir call) {path : String}
    (isRelative : relativePath? call = some path) :
    (resultOf cwd dir call).place = meant (ownPlace cwd dir) path := by
  have opened {given : String} (fromGiven : relative? given = some path)
      (resolves : ∀ own, cwd = some own → path ≠ "" ∧
        climbsPlain (namesOf own) (components path.toList) = true) :
      named dir (openPath cwd given) = meant (ownPlace cwd dir) path := by
    obtain ⟨rfl, notAbsolute⟩ := relative?_spec fromGiven
    cases cwd with
    | none => rfl
    | some own =>
        obtain ⟨notEmpty, climbs⟩ := resolves own rfl
        simp only [openPath, notAbsolute, Bool.false_eq_true, if_false]
        exact named_resolvePath notAbsolute notEmpty climbs dir
  have resolves (notCreat : isCreat call = false) (own : String)
      (isOwn : cwd = some own) : path ≠ "" ∧
        climbsPlain (namesOf own) (components path.toList) = true := by
    subst isOwn
    simpa [notCreat] using steady path isRelative
  cases call with
  | chdir given answer =>
      obtain ⟨rfl, notAbsolute⟩ := relative?_spec isRelative
      cases cwd with
      | none =>
          obtain ⟨rfl, ofChdir⟩ := steady
          obtain ⟨fits, notEmpty⟩ := ofChdir rfl
          obtain ⟨names, place⟩ := processCwd_spec fits
          have climbs :
              climbsPlain (namesOf (processCwd dir))
                (components path.toList) = true := by
            rw [names]
            refine climbsPlain_of_plain ?_ _
            exact fun name member => (dir.2 name member).1
          rw [ownPlace, ← place]
          refine named_resolvePath notAbsolute ?_ climbs dir
          rintro rfl
          exact notEmpty isRelative
      | some own =>
          obtain ⟨notEmpty, climbs⟩ := resolves rfl own rfl
          exact named_resolvePath notAbsolute notEmpty climbs dir
  | getcwd size => cases isRelative
  | openPath given flags answer =>
      exact opened isRelative (resolves rfl)
  | openatPath dirfd given flags answer =>
      simp only [relativePath?] at isRelative
      split at isRelative
      · rename_i fromCwd
        subst fromCwd
        exact opened isRelative (resolves rfl)
      · cases isRelative
  | creat given answer =>
      obtain ⟨rfl, notAbsolute⟩ := relative?_spec isRelative
      cases cwd with
      | none => rfl
      | some own =>
          have inPlace : dir.1 = placeOf own := steady path isRelative
          simp only [resultOf, creatPath, named, KernelDir.follow, meant,
            ownPlace, inPlace]

/-! ## The calls of one process -/

/-- The directory of a process: its own, or where the kernel was at first. -/
def ownDir (home : KernelDir) : Option String → KernelDir
  | some own => KernelDir.root.follow own
  | none => home

/-- The directory in the record after a call. -/
def cwdAfter (home : KernelDir) (cwd : Option String) :
    DirCall → Option String
  | .chdir path answer =>
      if answer = 0 then some (chdirPath cwd home path) else cwd
  | _ => cwd

/-- What a process sees which nobody disturbs. -/
def replay (home : KernelDir) :
    Option String → List DirCall → List (DirCall × Result)
  | _, [] => []
  | cwd, call :: rest =>
      (call, resultOf cwd (ownDir home cwd) call) ::
        replay home (cwdAfter home cwd call) rest

/-- The calls of a process so far, with what they gave. -/
def seenBy (pid : VPid) (state : Directories) :
    List (DirCall × Result) :=
  state.seen.filterMap fun entry =>
    if entry.1 = pid then some entry.2 else none

def callOf? (pid : VPid) : DirOp → Option DirCall
  | .driver _ => none
  | .call caller call => if caller = pid then some call else none

/-- The process keeps its number, and its calls are steady. -/
def Undisturbed (pid : VPid) (home : KernelDir) (state : Directories) :
    DirOp → Prop
  | .driver op =>
      spawns state.machine.driver op = true →
        pid ≠ state.machine.driver.executor.nextPid
  | .call caller call =>
      caller = pid → Steady home (state.cwdOf pid) state.kernelCwd call

instance (pid : VPid) (home : KernelDir) (state : Directories)
    (op : DirOp) : Decidable (Undisturbed pid home state op) :=
  match op with
  | .driver _ => inferInstanceAs (Decidable (_ → _))
  | .call _ _ => inferInstanceAs (Decidable (_ → _))

/-- The process has this directory in its record, if it is there at all. -/
structure Tracks (pid : VPid) (cwd : Option String)
    (state : Directories) : Prop where
  live : RunsLive state.machine.driver
  cwd : ∀ co, state.machine.driver.executor.vprocs.lookup pid = some co →
    co.cwd = cwd

theorem named_congr
    {path : String} (absolute : isAbsolute path.toList = true)
    (first second : KernelDir) :
    named first path = named second path := by
  rw [named_absolute absolute, named_absolute absolute,
    designated_absolute absolute]

/-- A steady call gives what it gives in the process's own directory. -/
theorem resultOf_of_steady
    {home dir : KernelDir} {cwd : Option String} {call : DirCall}
    (steady : Steady home cwd dir call) :
    resultOf cwd dir call = resultOf cwd (ownDir home cwd) call := by
  cases cwd with
  | none =>
      obtain ⟨rfl, _⟩ := steady
      rfl
  | some own =>
      have opened (path : String) :
          named dir (openPath (some own) path) =
            named (ownDir home (some own)) (openPath (some own) path) := by
        refine named_congr ?_ _ _
        simp only [openPath]
        split
        · rename_i absolute
          exact absolute
        · exact isAbsolute_resolvePath own path
      cases call with
      | chdir path answer =>
          simp only [resultOf, chdirPath]
          rw [named_congr (isAbsolute_resolvePath own path)]
      | getcwd size => rfl
      | openPath path flags answer =>
          simp only [resultOf]
          rw [opened]
      | openatPath dirfd path flags answer =>
          simp only [resultOf]
          split
          · rename_i fromCwd
            subst fromCwd
            exact congrArg (Result.mk · none) (opened path)
          · rfl
      | creat path answer =>
          simp only [resultOf, creatPath]
          cases absolute : isAbsolute path.toList with
          | true => rw [named_congr absolute]
          | false =>
              have inPlace : dir.1 = placeOf own :=
                steady path (by simp [relativePath?, relative?, absolute])
              simp only [named, KernelDir.follow, inPlace]
              rfl

section Steps

variable {state next : Directories} {pid : VPid} {cwd : Option String}

theorem runsLive_call
    {caller : VPid} {call : DirCall} {after : Machine × KernelDir}
    (live : RunsLive state.machine.driver)
    (happens : state.effect caller call = some after) :
    RunsLive after.1.driver := by
  rcases effect_cases happens with ⟨same, _⟩ | ⟨path, rfl, rfl⟩
  · rw [same]
    exact live
  · intro turn isTurn
    refine @lives_of_follows True _ _ _ ?_ (live turn isTurn)
    exact follows_modify _ caller turn.pid
      fun co => ⟨rfl, rfl, List.prefix_rfl⟩

/-- A step of the driver leaves the record of a process alone. -/
theorem tracks_driver
    {op : DriverOp} (tracks : Tracks pid cwd state)
    (stepped : state.step (.driver op) = some next)
    (notSpawned : spawns state.machine.driver op = true →
      pid ≠ state.machine.driver.executor.nextPid) :
    Tracks pid cwd next ∧ next.seen = state.seen := by
  obtain ⟨machine, moved, rfl⟩ := Option.map_eq_some_iff.mp stepped
  have change := change_of_machineStep moved
  refine ⟨⟨runsLive_change change tracks.live, ?_⟩, rfl⟩
  intro co found
  obtain ⟨before, isBefore, same⟩ :=
    continues_change change notSpawned co found
  exact same.cwd.trans (tracks.cwd before isBefore)

/-- So does a call of another process. -/
theorem tracks_other
    {caller : VPid} {call : DirCall} (tracks : Tracks pid cwd state)
    (stepped : state.step (.call caller call) = some next)
    (other : caller ≠ pid) :
    Tracks pid cwd next ∧ seenBy pid next = seenBy pid state := by
  simp only [Directories.step] at stepped
  split at stepped
  · obtain ⟨after, happens, rfl⟩ := Option.map_eq_some_iff.mp stepped
    refine ⟨⟨runsLive_call tracks.live happens, ?_⟩, ?_⟩
    · intro co found
      refine tracks.cwd co ?_
      rcases effect_cases happens with ⟨same, _⟩ | ⟨path, rfl, rfl⟩
      · rw [← same]
        exact found
      · have kept := lookup_update state.machine.driver.executor caller pid
        refine ((kept _).trans (if_neg other.symm)).symm.trans found
    · simp [seenBy, other]
  · cases stepped

theorem cwdOf_of_tracks
    (tracks : Tracks pid cwd state)
    (running : state.machine.driver.turn.map Turn.pid = some pid) :
    ∃ co, state.machine.driver.executor.vprocs.lookup pid = some co ∧
      co.cwd = cwd ∧ state.cwdOf pid = cwd := by
  obtain ⟨turn, isTurn, rfl⟩ := Option.map_eq_some_iff.mp running
  obtain ⟨co, found, _⟩ := tracks.live turn isTurn
  refine ⟨co, found, tracks.cwd co found, ?_⟩
  rw [Directories.cwdOf, found, Option.bind_some, tracks.cwd co found]

/-- What stands in the record after a steady call. -/
theorem cwd_of_effect
    {home : KernelDir} {call : DirCall} {after : Machine × KernelDir}
    {co changed : Coroutine}
    (stored : state.machine.driver.executor.vprocs.lookup pid = some co)
    (isCwd : state.cwdOf pid = co.cwd)
    (steady : Steady home co.cwd state.kernelCwd call)
    (happens : state.effect pid call = some after)
    (found : after.1.driver.executor.vprocs.lookup pid = some changed) :
    changed.cwd = cwdAfter home co.cwd call := by
  have kept (same : after.1.driver = state.machine.driver) :
      changed.cwd = co.cwd := by
    rw [same, stored] at found
    rw [Option.some.inj found]
  have others (notChdir : isChdir call = false) :
      changed.cwd = co.cwd := by
    rcases effect_cases happens with ⟨same, _⟩ | ⟨path, rfl, rfl⟩
    · exact kept same
    · cases notChdir
  cases call with
  | chdir path answer =>
      simp only [Directories.effect] at happens
      simp only [cwdAfter]
      split at happens
      · rename_i succeeded
        rw [if_pos succeeded]
        cases happens
        have update :=
          lookup_update state.machine.driver.executor pid pid
        have changes := (update _).symm.trans found
        rw [if_pos rfl, stored] at changes
        cases changes
        dsimp only
        rw [isCwd]
        cases own : co.cwd with
        | some path => rfl
        | none =>
            rw [own] at steady
            rw [steady.1]
      · rename_i failed
        rw [if_neg failed]
        cases happens
        exact kept rfl
  | getcwd size => exact others rfl
  | openPath path flags answer => exact others rfl
  | openatPath dirfd path flags answer => exact others rfl
  | creat path answer => exact others rfl

/-- A steady call of the process is the next one of its replay. -/
theorem tracks_own
    {home : KernelDir} {call : DirCall} (tracks : Tracks pid cwd state)
    (stepped : state.step (.call pid call) = some next)
    (steady : Steady home (state.cwdOf pid) state.kernelCwd call) :
    Tracks pid (cwdAfter home cwd call) next ∧
      seenBy pid next =
        seenBy pid state ++
          [(call, resultOf cwd (ownDir home cwd) call)] := by
  simp only [Directories.step] at stepped
  split at stepped
  · rename_i running
    obtain ⟨after, happens, rfl⟩ := Option.map_eq_some_iff.mp stepped
    obtain ⟨co, stored, ofRecord, isCwd⟩ := cwdOf_of_tracks tracks running
    rw [isCwd] at steady
    refine ⟨⟨runsLive_call tracks.live happens, ?_⟩, ?_⟩
    · intro changed found
      subst ofRecord
      exact cwd_of_effect stored isCwd steady happens found
    · have gives := resultOf_of_steady steady
      simp [seenBy, isCwd, gives]
  · cases stepped

end Steps

/-- A process which nobody disturbs sees its replay. -/
theorem seenBy_run
    {pid : VPid} {home : KernelDir} {cwd : Option String}
    {ops : List DirOp} {state final : Directories}
    (tracks : Tracks pid cwd state)
    (undisturbed : Along Directories.step
      (fun state op _ => Undisturbed pid home state op) state ops)
    (reached : run Directories.step state ops = some final) :
    seenBy pid final =
      seenBy pid state ++ replay home cwd (ops.filterMap (callOf? pid)) := by
  induction ops generalizing state cwd with
  | nil =>
      cases reached
      exact (List.append_nil _).symm
  | cons op rest induction =>
      obtain ⟨next, stepped, continued⟩ := run_cons_iff.mp reached
      obtain ⟨now, later⟩ := undisturbed next stepped
      cases op with
      | driver op =>
          obtain ⟨tracks, same⟩ := tracks_driver tracks stepped now
          rw [induction tracks later continued, seenBy, same]
          rfl
      | call caller call =>
          by_cases own : caller = pid
          · subst own
            obtain ⟨tracks, sees⟩ := tracks_own tracks stepped (now rfl)
            rw [induction tracks later continued, sees]
            simp [callOf?, replay]
          · obtain ⟨tracks, sees⟩ := tracks_other tracks stepped own
            rw [induction tracks later continued, sees]
            simp [callOf?, own]

/-- Not a `chdir` of another process. -/
def isKept (pid : VPid) : DirOp → Bool
  | .driver _ => true
  | .call caller call => caller == pid || !isChdir call

/-- The calls of a process are among the steps which are compared. -/
theorem calls_of_alike
    {pid : VPid} {first second : List DirOp}
    (alike : first.filter (isKept pid) = second.filter (isKept pid)) :
    first.filterMap (callOf? pid) = second.filterMap (callOf? pid) := by
  have kept (ops : List DirOp) :
      (ops.filter (isKept pid)).filterMap (callOf? pid) =
        ops.filterMap (callOf? pid) := by
    rw [List.filterMap_filter]
    refine congrArg (List.filterMap · ops) (funext fun op => ?_)
    cases op with
    | driver op => rfl
    | call caller call =>
        by_cases own : caller = pid
        · simp [isKept, own]
        · simp [callOf?, own]
  rw [← kept first, alike, kept second]

theorem runsLive_step
    (state : Directories) (op : DirOp) (next : Directories)
    (live : RunsLive state.machine.driver)
    (stepped : state.step op = some next) :
    RunsLive next.machine.driver := by
  cases op with
  | driver op =>
      obtain ⟨machine, moved, rfl⟩ := Option.map_eq_some_iff.mp stepped
      exact runsLive_change (change_of_machineStep moved) live
  | call caller call =>
      simp only [Directories.step] at stepped
      split at stepped
      · obtain ⟨after, happens, rfl⟩ := Option.map_eq_some_iff.mp stepped
        exact runsLive_call live happens
      · cases stepped

theorem runsLive_init (world : World) (dir : KernelDir) :
    RunsLive (Directories.init world dir).machine.driver :=
  runsLive_new

theorem runsLive_run
    {world : World} {dir : KernelDir} {ops : List DirOp}
    {final : Directories}
    (reached : run Directories.step (Directories.init world dir) ops =
      some final) :
    RunsLive final.machine.driver :=
  invariant_of_run runsLive_step (runsLive_init world dir) reached

/--
Two runs from a reachable state differ only in calls of `chdir` by other
processes, and disturb the process in none of its calls.  Then all its
relative paths name the same place, seen from its own directory, and its calls
have the same results in both runs.
-/
theorem relative_paths_agree
    (world : World) (dir : KernelDir) (pid : VPid)
    (before first second : List DirOp) (start one two : Directories)
    (reached : run Directories.step (Directories.init world dir) before =
      some start)
    (alike : first.filter (isKept pid) = second.filter (isKept pid))
    (firstRun : run Directories.step start first = some one)
    (secondRun : run Directories.step start second = some two)
    (firstSteady : Along Directories.step
      (fun state op _ => Undisturbed pid start.kernelCwd state op)
      start first)
    (secondSteady : Along Directories.step
      (fun state op _ => Undisturbed pid start.kernelCwd state op)
      start second) :
    Along Directories.step (fun state op _ => PathsAgree pid state op)
        start first ∧
      Along Directories.step (fun state op _ => PathsAgree pid state op)
        start second ∧
      seenBy pid one = seenBy pid two := by
  have agrees (ops : List DirOp)
      (steady : Along Directories.step
        (fun state op _ => Undisturbed pid start.kernelCwd state op)
        start ops) :
      Along Directories.step (fun state op _ => PathsAgree pid state op)
        start ops := by
    have implied (state : Directories) (op : DirOp) (next : Directories)
        (_ : True) (_ : state.step op = some next)
        (undisturbed : Undisturbed pid start.kernelCwd state op) :
        PathsAgree pid state op := by
      cases op with
      | driver op => exact True.intro
      | call caller call =>
          intro own path isRelative
          exact agrees_of_steady (undisturbed own) isRelative
    exact
      along_mono (fun _ _ _ _ _ _ => True.intro) implied True.intro steady
  have tracks : Tracks pid (start.cwdOf pid) start := by
    refine ⟨runsLive_run reached, ?_⟩
    intro co found
    rw [Directories.cwdOf, found, Option.bind_some]
  refine ⟨agrees first firstSteady, agrees second secondSteady, ?_⟩
  rw [seenBy_run tracks firstSteady firstRun,
    seenBy_run tracks secondSteady secondRun, calls_of_alike alike]

/-- Process 1 goes to `/a/b`, and later opens a file beside it. -/
def openBeside (between : List DirOp) : List DirOp :=
  [.driver .stepFromDriver, .call 1 (.chdir "/a/b" 0), .driver .doYield,
    .driver .stepFromDriver] ++ between ++
    [.driver .doYield, .driver .stepFromDriver,
      .call 1 (.openPath "../x" 0 (-1)), .call 1 (.getcwd 64)]

/-- A `chdir` of process 2 does not disturb this. -/
theorem relative_paths_agree_beside :
    ∃ start one two,
      run Directories.step
          (Directories.init (World.init Kernel.standard) KernelDir.root)
          [.driver .spawn, .driver .spawn] = some start ∧
        run Directories.step start (openBeside [.call 2 (.chdir "/c" 0)]) =
          some one ∧
        run Directories.step start (openBeside []) = some two ∧
        seenBy 1 one = seenBy 1 two ∧
        (seenBy 1 one).map (fun entry => entry.2.place) =
          [some [['a'], ['b']], some [['a'], ['x']], none] := by
  refine ⟨_, _, _, rfl, rfl, rfl, ?_, by decide⟩
  refine
    (relative_paths_agree (World.init Kernel.standard) KernelDir.root 1
      [.driver .spawn, .driver .spawn]
      (openBeside [.call 2 (.chdir "/c" 0)]) (openBeside []) _ _ _
      rfl ?_ rfl rfl ?_ ?_).2.2
  · decide
  · decide
  · decide

/--
A file which process 1 creates after its `chdir` lies in the directory which
process 2 went to.
-/
theorem creat_follows_others :
    ¬ ∀ (world : World) (dir : KernelDir) (pid : VPid)
      (before first second : List DirOp) (start one two : Directories),
      run Directories.step (Directories.init world dir) before =
          some start →
        first.filter (isKept pid) = second.filter (isKept pid) →
        run Directories.step start first = some one →
        run Directories.step start second = some two →
        Along Directories.step (fun state op _ => PathsAgree pid state op)
            start first ∧
          Along Directories.step
            (fun state op _ => PathsAgree pid state op) start second ∧
          seenBy pid one = seenBy pid two := by
  intro always
  have holds :=
    always (World.init Kernel.standard) KernelDir.root 1 twoChdirs
      [.call 1 (.creat "x" (-1))] [.call 1 (.creat "x" (-1))] _ _ _
      rfl rfl rfl rfl
  have agrees := holds.1
  revert agrees
  decide

end Vproc.Sched.RelativePaths
