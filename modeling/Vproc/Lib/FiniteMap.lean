import Mathlib

/-!
# Finite maps as they are used by imperative code

A hash map is modelled by an association list without repeated keys.  The
order of the list stands for the iteration order, which no result below
depends on.  On top of the lookup, insertion and removal of the association
lists of mathlib this file has the operations which walk over a whole map:
its values, a filter on entries, and an update in place.
-/

namespace Vproc.Lib.FiniteMap

universe u

/-- A finite map from `Key` to `Value`. -/
abbrev KeyMap (Key Value : Type u) := AList fun _ : Key => Value

variable {Key Value : Type u}

/-- The values of the map in iteration order. -/
def values (map : KeyMap Key Value) : List Value :=
  map.entries.map Sigma.snd

/-- Keep the entries which satisfy a test. -/
def retain (keep : Key → Value → Bool) (map : KeyMap Key Value) :
    KeyMap Key Value where
  entries := map.entries.filter fun entry => keep entry.1 entry.2
  nodupKeys := map.nodupKeys.sublist List.filter_sublist

variable [DecidableEq Key]

/-- Update the value of one key in place, if the key is present. -/
def modify (key : Key) (update : Value → Value)
    (map : KeyMap Key Value) : KeyMap Key Value where
  entries :=
    map.entries.map
      (Sigma.map id fun other value =>
        if other = key then update value else value)
  nodupKeys := List.NodupKeys.map₂ _ _ map.nodupKeys

theorem lookup_insert_eq
    (map : KeyMap Key Value) (key other : Key) (value : Value) :
    (map.insert key value).lookup other =
      if other = key then some value else map.lookup other := by
  by_cases same : other = key
  · subst other
    simp
  · simp [same]

theorem lookup_erase_eq
    (map : KeyMap Key Value) (key other : Key) :
    (map.erase key).lookup other =
      if other = key then none else map.lookup other := by
  by_cases same : other = key
  · subst other
    simp
  · simp [same]

theorem lookup_modify_eq
    (map : KeyMap Key Value) (key other : Key)
    (update : Value → Value) :
    (modify key update map).lookup other =
      if other = key then (map.lookup other).map update
      else map.lookup other := by
  have mapped :
      (modify key update map).lookup other =
        (map.lookup other).map
          (fun value => if other = key then update value else value) :=
    List.dlookup_map₂ other
  rw [mapped]
  by_cases same : other = key
  · simp [same]
  · simp [same]

theorem mem_entries_iff
    {map : KeyMap Key Value} {key : Key} {value : Value} :
    ⟨key, value⟩ ∈ map.entries ↔ map.lookup key = some value :=
  AList.mem_lookup_iff.symm

theorem lookup_retain_iff
    {keep : Key → Value → Bool} {map : KeyMap Key Value}
    {key : Key} {value : Value} :
    (retain keep map).lookup key = some value ↔
      map.lookup key = some value ∧ keep key value = true := by
  rw [← mem_entries_iff, ← mem_entries_iff]
  simp only [retain, List.mem_filter]

theorem mem_values_iff
    {map : KeyMap Key Value} {value : Value} :
    value ∈ values map ↔ ∃ key, map.lookup key = some value := by
  simp only [values, List.mem_map]
  constructor
  · rintro ⟨⟨key, stored⟩, member, rfl⟩
    exact ⟨key, mem_entries_iff.mp member⟩
  · rintro ⟨key, found⟩
    exact ⟨⟨key, value⟩, mem_entries_iff.mpr found, rfl⟩

theorem mem_iff_lookup
    {map : KeyMap Key Value} {key : Key} :
    key ∈ map ↔ ∃ value, map.lookup key = some value := by
  rw [← AList.lookup_isSome, Option.isSome_iff_exists]

/-- A test on the values of a map, as a statement about its keys. -/
theorem any_values_iff
    {map : KeyMap Key Value} {test : Value → Bool} :
    (values map).any test = true ↔
      ∃ key value, map.lookup key = some value ∧ test value = true := by
  simp only [List.any_eq_true, mem_values_iff]
  constructor
  · rintro ⟨value, ⟨key, found⟩, passed⟩
    exact ⟨key, value, found, passed⟩
  · rintro ⟨key, value, found, passed⟩
    exact ⟨value, ⟨key, found⟩, passed⟩

/-- Two members of a list contribute to its sum. -/
theorem add_le_sum_map
    {Item : Type u} (weight : Item → Nat) {items : List Item}
    {first second : Item} (different : first ≠ second)
    (hasFirst : first ∈ items) (hasSecond : second ∈ items) :
    weight first + weight second ≤ (items.map weight).sum := by
  induction items with
  | nil => cases hasFirst
  | cons item rest induction =>
      rw [List.map_cons, List.sum_cons]
      have single {other : Item} (member : other ∈ rest) :
          weight other ≤ (rest.map weight).sum :=
        List.single_le_sum (fun _ _ => Nat.zero_le _) _
          (List.mem_map_of_mem member)
      rcases List.mem_cons.mp hasFirst with rfl | inFirst
      · have inSecond : second ∈ rest :=
          (List.mem_cons.mp hasSecond).resolve_left different.symm
        exact Nat.add_le_add_left (single inSecond) _
      · rcases List.mem_cons.mp hasSecond with rfl | inSecond
        · rw [Nat.add_comm]
          exact Nat.add_le_add_left (single inFirst) _
        · exact (induction inFirst inSecond).trans (Nat.le_add_left _ _)

/-- The values of two keys contribute to a sum over all values. -/
theorem add_le_sum_values
    (weight : Value → Nat) {map : KeyMap Key Value}
    {first second : Key} (different : first ≠ second)
    {left right : Value}
    (hasFirst : map.lookup first = some left)
    (hasSecond : map.lookup second = some right) :
    weight left + weight right ≤ ((values map).map weight).sum := by
  have apart :
      (⟨first, left⟩ : Sigma fun _ : Key => Value) ≠ ⟨second, right⟩ := by
    intro same
    exact different (congrArg Sigma.fst same)
  have total :=
    add_le_sum_map
      (fun item : Sigma fun _ : Key => Value => weight item.2) apart
      (mem_entries_iff.mpr hasFirst) (mem_entries_iff.mpr hasSecond)
  rw [values, List.map_map]
  exact total

end Vproc.Lib.FiniteMap
