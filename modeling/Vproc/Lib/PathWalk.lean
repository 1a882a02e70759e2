import Mathlib

/-!
# Paths and the places they name

A path is a list of characters; the slash separates its components.  In a tree
of directories a component leads from one place to another: an empty one and
`.` stay, `..` goes up, any other goes down.  A place is the list of names on
the way to it from the root.

The names on a path can be worked through in two ways.  `walk` does it at the
place where the path starts.  Working on the names of another path first, and
walking the result from the root, comes to the same if no `..` takes off a `.`
or a `..` of that other path.
-/

namespace Vproc.Lib.PathWalk

/-- One component of a path. -/
abbrev Name := List Char

/-- The names on the way from the root. -/
abbrev Place := List Name

/-- A component which goes down. -/
def isPlain (name : Name) : Bool :=
  !(name == [] || name == ['.'] || name == ['.', '.'])

/-- Go on by one component. -/
def enter (place : Place) (name : Name) : Place :=
  if name = [] ∨ name = ['.'] then place
  else if name = ['.', '.'] then place.dropLast
  else place ++ [name]

/-- Go on by several components. -/
def walk (place : Place) (names : List Name) : Place :=
  names.foldl enter place

/-- The components of a path. -/
def components (path : List Char) : List Name :=
  path.splitOn '/'

/-- Does the path start at the root? -/
def isAbsolute (path : List Char) : Bool :=
  path.head? == some '/'

/-- The place which a path names, seen from another place. -/
def designated (cwd : Place) (path : List Char) : Place :=
  walk (if isAbsolute path then [] else cwd) (components path)

/-- The absolute path of a list of names. -/
def render (names : List Name) : List Char :=
  if names.isEmpty then ['/'] else '/' :: ['/'].intercalate names

/-! ## Components -/

/-- No component of a path has a slash in it. -/
theorem not_slash_of_mem
    {path : List Char} {name : Name} (member : name ∈ components path) :
    '/' ∉ name := by
  unfold components at member
  induction path generalizing name with
  | nil =>
      rw [List.splitOn_nil, List.mem_singleton] at member
      simp [member]
  | cons char rest induction =>
      rw [List.splitOn_cons_eq_if_modifyHead] at member
      split at member
      · rcases List.mem_cons.mp member with rfl | later
        · simp
        · exact induction later
      · rename_i notSlash
        obtain ⟨first, others, split⟩ :=
          List.exists_cons_of_ne_nil (List.splitOn_ne_nil '/' rest)
        rw [split] at member induction
        rcases List.mem_cons.mp member with rfl | later
        · rw [List.mem_cons]
          rintro (rfl | inFirst)
          · exact notSlash rfl
          · exact induction List.mem_cons_self inFirst
        · exact induction (List.mem_cons_of_mem first later)

/-- A slash ends a component. -/
theorem components_append (first second : List Char) :
    components (first ++ '/' :: second) =
      components first ++ components second :=
  List.splitOn_append_cons_self first second

theorem intercalate_components (path : List Char) :
    ['/'].intercalate (components path) = path :=
  List.intercalate_splitOn '/'

theorem components_render
    {names : List Name} (noSlash : ∀ name ∈ names, '/' ∉ name)
    (notRoot : names ≠ []) :
    components (render names) = [] :: names := by
  rw [render, if_neg (by simpa using notRoot), components,
    List.splitOn_cons_eq_if_modifyHead, if_pos (beq_self_eq_true _),
    List.splitOn_intercalate '/' noSlash notRoot]

theorem isAbsolute_render (names : List Name) :
    isAbsolute (render names) = true := by
  unfold render
  split <;> rfl

/-- The path of a list of names leads where the names lead from the root. -/
theorem designated_render
    {names : List Name} (noSlash : ∀ name ∈ names, '/' ∉ name)
    (cwd : Place) :
    designated cwd (render names) = walk [] names := by
  rw [designated, isAbsolute_render]
  by_cases root : names = []
  · subst root
    rfl
  · rw [components_render noSlash root]
    rfl

/-! ## Walking -/

theorem walk_append (place : Place) (first second : List Name) :
    walk place (first ++ second) = walk (walk place first) second :=
  List.foldl_append

/-- Empty components do not matter. -/
theorem walk_filter (place : Place) (names : List Name) :
    walk place (names.filter (· ≠ [])) = walk place names := by
  induction names generalizing place with
  | nil => rfl
  | cons name rest induction =>
      by_cases empty : name = []
      · subst empty
        exact induction place
      · rw [List.filter_cons_of_pos (by simpa using empty)]
        exact induction (enter place name)

theorem enter_plain
    {name : Name} (plain : isPlain name = true) (place : Place) :
    enter place name = place ++ [name] := by
  simp only [isPlain, Bool.not_eq_true', Bool.or_eq_false_iff,
    beq_eq_false_iff_ne, ne_eq] at plain
  rw [enter, if_neg (by simp [plain.1.1, plain.1.2]), if_neg plain.2]

theorem mem_enter
    {place : Place} {name other : Name}
    (member : other ∈ enter place name) :
    other ∈ place ∨ other = name := by
  unfold enter at member
  split at member
  · exact Or.inl member
  · split at member
    · exact Or.inl (List.mem_of_mem_dropLast member)
    · simpa using member

theorem mem_walk
    {place : Place} {names : List Name} {other : Name}
    (member : other ∈ walk place names) :
    other ∈ place ∨ other ∈ names := by
  induction names generalizing place with
  | nil => exact Or.inl member
  | cons name rest induction =>
      rcases @induction (enter place name) member with before | later
      · rcases mem_enter before with isOld | rfl
        · exact Or.inl isOld
        · exact Or.inr List.mem_cons_self
      · exact Or.inr (List.mem_cons_of_mem name later)

/-- Whatever is added on the way goes down. -/
theorem plain_or_mem_of_walk
    {place : Place} {names : List Name} {other : Name}
    (member : other ∈ walk place names) :
    other ∈ place ∨ isPlain other = true := by
  induction names generalizing place with
  | nil => exact Or.inl member
  | cons name rest induction =>
      rcases @induction (enter place name) member with before | plain
      · unfold enter at before
        split at before
        · exact Or.inl before
        · split at before
          · exact Or.inl (List.mem_of_mem_dropLast before)
          · rename_i notStays notUp
            rw [not_or] at notStays
            rcases List.mem_append.mp before with isOld | isNew
            · exact Or.inl isOld
            · rw [List.mem_singleton] at isNew
              subst isNew
              exact Or.inr (by simp [isPlain, notStays, notUp])
      · exact Or.inr plain

/-- No `..` on the way takes off a component which does not go down. -/
def climbsPlain : List Name → List Name → Bool
  | _, [] => true
  | names, name :: rest =>
      (if name = ['.', '.'] then names.getLast?.all isPlain else true) &&
        climbsPlain (enter names name) rest

/--
Working on the names of one path first: the same as walking one path after the
other.
-/
theorem walk_walk
    {names others : List Name} (climbs : climbsPlain names others = true) :
    walk [] (walk names others) = walk (walk [] names) others := by
  induction others generalizing names with
  | nil => rfl
  | cons name rest induction =>
      obtain ⟨now, later⟩ := Bool.and_eq_true_iff.mp climbs
      have entered :
          walk [] (enter names name) = enter (walk [] names) name := by
        by_cases up : name = ['.', '.']
        · subst up
          rw [if_pos rfl] at now
          rcases List.eq_nil_or_concat names with
            rfl | ⟨front, last, isConcat⟩
          · rfl
          · rw [List.concat_eq_append] at isConcat
            subst isConcat
            have plain : isPlain last = true := by simpa using now
            have whole :
                walk [] (front ++ [last]) = walk [] front ++ [last] := by
              rw [walk_append]
              exact enter_plain plain _
            rw [whole]
            simp [enter]
        · by_cases stays : name = [] ∨ name = ['.']
          · rw [enter, if_pos stays, enter, if_pos stays]
          · rw [enter, if_neg stays, if_neg up, walk_append]
            rfl
      calc
        walk [] (walk names (name :: rest)) =
            walk [] (walk (enter names name) rest) := rfl
        _ = walk (walk [] (enter names name)) rest := induction later
        _ = walk (enter (walk [] names) name) rest := by rw [entered]

/-- Names which go down all lead down. -/
theorem walk_plain
    {names : List Name} (plain : ∀ name ∈ names, isPlain name = true)
    (place : Place) :
    walk place names = place ++ names := by
  induction names generalizing place with
  | nil => exact (List.append_nil place).symm
  | cons name rest induction =>
      calc
        walk place (name :: rest) = walk (enter place name) rest := rfl
        _ = walk (place ++ [name]) rest := by
          rw [enter_plain (plain name List.mem_cons_self)]
        _ = (place ++ [name]) ++ rest :=
          induction
            (fun other member =>
              plain other (List.mem_cons_of_mem name member))
            _
        _ = place ++ name :: rest := by simp

theorem plain_enter
    {names : List Name} (plain : ∀ name ∈ names, isPlain name = true)
    (name : Name) :
    ∀ other ∈ enter names name, isPlain other = true := by
  intro other member
  rcases @plain_or_mem_of_walk names [name] other member with old | new
  · exact plain other old
  · exact new

theorem climbsPlain_of_plain
    {names : List Name} (plain : ∀ name ∈ names, isPlain name = true)
    (others : List Name) :
    climbsPlain names others = true := by
  induction others generalizing names with
  | nil => rfl
  | cons name rest induction =>
      rw [climbsPlain, induction (plain_enter plain name), Bool.and_true]
      split
      · rw [Option.all_eq_true]
        exact fun last isLast => plain last (List.mem_of_getLast? isLast)
      · rfl

theorem names_render
    {names : List Name} (noSlash : ∀ name ∈ names, '/' ∉ name)
    (notEmpty : ∀ name ∈ names, name ≠ []) :
    (components (render names)).filter (· ≠ []) = names := by
  by_cases root : names = []
  · subst root
    rfl
  · rw [components_render noSlash root, List.filter_cons_of_neg (by simp),
      List.filter_eq_self]
    simpa using notEmpty

end Vproc.Lib.PathWalk
