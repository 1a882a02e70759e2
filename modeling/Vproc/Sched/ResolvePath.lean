import Vproc.Sched.RelativePaths

/-!
# Resolving one path behind another

`resolve_path` joins the names which it has collected, and takes the result
apart again when it is the directory of the next call.  Nothing is lost
between the two, so resolving two relative paths one after the other is
resolving the second behind the first.

Only `.` and `..` of the path are worked off, not those of the directory.  The
result has none of them if the directory has none.
-/

namespace Vproc.Sched.ResolvePath

open Vproc.Lib.PathWalk
open Vproc.Sched.WorkingDir
open Vproc.Sched.RelativePaths

/-! ## Canonical paths -/

/-- An absolute path all of whose names go down, without a slash at its end. -/
structure Canonical (path : String) : Prop where
  absolute : isAbsolute path.toList = true
  names : path ≠ "/" →
    ∀ name ∈ (components path.toList).tail, isPlain name = true
  ending : path ≠ "/" → path.toList.getLast? ≠ some '/'

theorem canonical_iff (path : String) :
    Canonical path ↔
      isAbsolute path.toList = true ∧
        (path ≠ "/" →
          (∀ name ∈ (components path.toList).tail, isPlain name = true) ∧
            path.toList.getLast? ≠ some '/') :=
  ⟨fun canonical =>
      ⟨canonical.absolute,
        fun notRoot => ⟨canonical.names notRoot, canonical.ending notRoot⟩⟩,
    fun ⟨absolute, others⟩ =>
      ⟨absolute, fun notRoot => (others notRoot).1,
        fun notRoot => (others notRoot).2⟩⟩

instance (path : String) : Decidable (Canonical path) :=
  decidable_of_iff _ (canonical_iff path).symm

/-- The path of names which go down. -/
theorem canonical_render {names : Place} (proper : Proper names) :
    Canonical (String.ofList (render names)) := by
  by_cases root : names = []
  · subst root
    exact ⟨rfl, fun notRoot => (notRoot rfl).elim,
      fun notRoot => (notRoot rfl).elim⟩
  · have split : components (render names) = [] :: names :=
      components_render (fun name member => (proper name member).2) root
    refine ⟨?_, fun _ => ?_, fun _ => ?_⟩
    · rw [String.toList_ofList]
      exact isAbsolute_render names
    · rw [String.toList_ofList, split, List.tail_cons]
      exact fun name member => (proper name member).1
    · rw [String.toList_ofList]
      intro ending
      obtain ⟨front, isFront⟩ := List.getLast?_eq_some_iff.mp ending
      -- A slash at the end would leave an empty component behind it.
      have last : (components (render names)).getLast? = some [] := by
        rw [isFront, components_append]
        exact List.getLast?_concat
      rw [split, List.getLast?_cons_of_ne_nil root] at last
      have plain := (proper [] (List.mem_of_getLast? last)).1
      cases plain

/-- Every canonical path is the path of names which go down. -/
theorem render_of_canonical {path : String} (canonical : Canonical path) :
    ∃ names, Proper names ∧ path = String.ofList (render names) := by
  by_cases root : path = "/"
  · exact ⟨[], by rintro name ⟨⟩, root⟩
  · obtain ⟨rest, isRest⟩ : ∃ rest, path.toList = '/' :: rest := by
      have absolute := canonical.absolute
      rw [isAbsolute, beq_iff_eq] at absolute
      exact List.head?_eq_some_iff.mp absolute
    have split : components path.toList = [] :: components rest := by
      rw [isRest]
      exact components_append [] rest
    have plain := canonical.names root
    rw [split, List.tail_cons] at plain
    refine
      ⟨components rest,
        fun name member => ⟨plain name member, not_slash_of_mem member⟩, ?_⟩
    have notNil : (components rest).isEmpty = false :=
      List.isEmpty_eq_false_iff.mpr (List.splitOn_ne_nil '/' rest)
    calc
      path = String.ofList path.toList := (String.ofList_toList).symm
      _ = String.ofList ('/' :: ['/'].intercalate (components rest)) := by
        rw [intercalate_components, isRest]
      _ = String.ofList (render (components rest)) := by
        rw [render, notNil, if_neg Bool.false_ne_true]

/-! ## The names of a resolved path -/

theorem noSlash_namesOf
    {cwd : String} {name : Name} (member : name ∈ namesOf cwd) :
    '/' ∉ name :=
  not_slash_of_mem (List.mem_of_mem_filter member)

theorem ne_nil_of_mem_namesOf
    {cwd : String} {name : Name} (member : name ∈ namesOf cwd) :
    name ≠ [] := by
  simpa using List.of_mem_filter member

theorem resolvePath_relative
    {cwd path : String} (isRelative : isAbsolute path.toList = false) :
    resolvePath cwd path =
      String.ofList
        (render (walk (namesOf cwd) (components path.toList))) :=
  if_neg (Bool.eq_false_iff.mp isRelative)

/-- Joining the names and taking the path apart again loses nothing. -/
theorem namesOf_resolvePath
    {cwd path : String} (isRelative : isAbsolute path.toList = false) :
    namesOf (resolvePath cwd path) =
      walk (namesOf cwd) (components path.toList) := by
  rw [resolvePath_relative isRelative, namesOf, String.toList_ofList]
  apply names_render
  · intro name member
    rcases mem_walk member with ofCwd | ofPath
    · exact noSlash_namesOf ofCwd
    · exact not_slash_of_mem ofPath
  · intro name member
    rcases plain_or_mem_of_walk member with ofCwd | plain
    · exact ne_nil_of_mem_namesOf ofCwd
    · rintro rfl
      cases plain

/-- A path which goes on behind a relative one is relative. -/
theorem relative_append
    {path : String} (notEmpty : path ≠ "")
    (isRelative : isAbsolute path.toList = false) (rest : String) :
    isAbsolute (path ++ rest).toList = false := by
  obtain ⟨char, others, isChar⟩ :=
    List.exists_cons_of_ne_nil (mt String.toList_eq_nil_iff.mp notEmpty)
  rw [isChar] at isRelative
  rw [String.toList_append, isChar]
  exact isRelative

/-- The directory has no `.` and no `..`. -/
def Undotted (cwd : String) : Prop :=
  ∀ name ∈ components cwd.toList, name ≠ ['.'] ∧ name ≠ ['.', '.']

instance (cwd : String) : Decidable (Undotted cwd) :=
  inferInstanceAs (Decidable (∀ name ∈ components cwd.toList, _ ∧ _))

theorem proper_namesOf {cwd : String} (undotted : Undotted cwd) :
    Proper (namesOf cwd) := by
  intro name member
  obtain ⟨notDot, notDots⟩ := undotted name (List.mem_of_mem_filter member)
  have notEmpty := ne_nil_of_mem_namesOf member
  exact ⟨by simp [isPlain, notEmpty, notDot, notDots], noSlash_namesOf member⟩

/-- Behind a directory without dots, `resolve_path` is canonical. -/
theorem canonical_resolvePath
    {cwd path : String} (undotted : Undotted cwd)
    (isRelative : isAbsolute path.toList = false) :
    Canonical (resolvePath cwd path) := by
  rw [resolvePath_relative isRelative]
  exact
    canonical_render
      (proper_walk (proper_namesOf undotted) fun _ => not_slash_of_mem)

/--
Resolving two relative paths one after the other is resolving the second
behind the first, whatever the directory is.  If the directory has no dots, the
result is canonical.
-/
theorem resolvePath_resolvePath
    (cwd p q : String) (notEmpty : p ≠ "")
    (isRelative : isAbsolute p.toList = false)
    (nextRelative : isAbsolute q.toList = false) :
    resolvePath (resolvePath cwd p) q = resolvePath cwd (p ++ "/" ++ q) ∧
      (Undotted cwd → Canonical (resolvePath cwd p)) := by
  refine ⟨?_, fun undotted => canonical_resolvePath undotted isRelative⟩
  have joined : isAbsolute (p ++ "/" ++ q).toList = false := by
    rw [String.append_assoc]
    exact relative_append notEmpty isRelative _
  have split :
      components (p ++ "/" ++ q).toList =
        components p.toList ++ components q.toList := by
    rw [String.append_assoc, String.toList_append, String.toList_append]
    exact components_append p.toList q.toList
  calc
    resolvePath (resolvePath cwd p) q =
        String.ofList
          (render
            (walk (namesOf (resolvePath cwd p)) (components q.toList))) :=
      resolvePath_relative nextRelative
    _ = String.ofList
          (render
            (walk (walk (namesOf cwd) (components p.toList))
              (components q.toList))) := by
      rw [namesOf_resolvePath isRelative]
    _ = String.ofList
          (render
            (walk (namesOf cwd) (components (p ++ "/" ++ q).toList))) := by
      rw [split, walk_append]
    _ = resolvePath cwd (p ++ "/" ++ q) := (resolvePath_relative joined).symm

/-- From `/usr/lib`, up beyond the root and down again. -/
theorem resolvePath_resolvePath_up :
    resolvePath (resolvePath "/usr/lib" "..//..") "../etc/./x" = "/etc/x" ∧
      Canonical (resolvePath "/usr/lib" "..//..") := by
  have holds :=
    resolvePath_resolvePath "/usr/lib" "..//.." "../etc/./x"
      (by decide) (by decide) (by decide)
  refine ⟨holds.1.trans (by decide), holds.2 (by decide)⟩

end Vproc.Sched.ResolvePath
