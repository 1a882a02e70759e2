import Mathlib

/-!
# Patches

A patch says what is put at some addresses, and nothing about the others.
Patches are put one after the other, so that a later one wins.  If no two of
them speak about the same address, each of them can be seen in the result, and
their order does not matter.
-/

namespace Vproc.Lib.Patches

universe u v

variable {Address : Type u} {Value : Type v}

/-- What is put at some addresses. -/
abbrev Patch (Address : Type u) (Value : Type v) :=
  Address → Option Value

def put (memory : Address → Value) (patch : Patch Address Value) :
    Address → Value :=
  fun address => (patch address).getD (memory address)

def putAll (memory : Address → Value)
    (patches : List (Patch Address Value)) : Address → Value :=
  patches.foldl put memory

/-- One patch on top of another, as a single one. -/
def onTop (first second : Patch Address Value) : Patch Address Value :=
  fun address => (second address).or (first address)

/-- No address has two values. -/
def Apart (first second : Patch Address Value) : Prop :=
  ∀ address, first address = none ∨ second address = none

instance : Std.Symm (@Apart Address Value) where
  symm := fun _ _ apart address => (apart address).symm

section Put

variable {memory : Address → Value} {first second : Patch Address Value}

theorem put_of_none
    {address : Address} (none : first address = none) :
    put memory first address = memory address := by
  rw [put, none, Option.getD_none]

theorem put_of_some
    {address : Address} {value : Value}
    (some : first address = some value) :
    put memory first address = value := by
  rw [put, some, Option.getD_some]

theorem put_onTop :
    put memory (onTop first second) = put (put memory first) second := by
  funext address
  unfold put onTop
  cases second address with
  | none => rfl
  | some value => rfl

theorem put_comm (apart : Apart first second) :
    put (put memory first) second = put (put memory second) first := by
  funext address
  unfold put
  rcases apart address with none | none
  · rw [none, Option.getD_none, Option.getD_none]
  · rw [none, Option.getD_none, Option.getD_none]

end Put

section PutAll

variable {memory : Address → Value} {patches : List (Patch Address Value)}

theorem putAll_of_none
    {address : Address}
    (none : ∀ patch ∈ patches, patch address = none) :
    putAll memory patches address = memory address := by
  induction patches generalizing memory with
  | nil => rfl
  | cons patch rest induction =>
      obtain ⟨here, later⟩ := List.forall_mem_cons.mp none
      calc
        putAll memory (patch :: rest) address =
            putAll (put memory patch) rest address := rfl
        _ = put memory patch address := induction later
        _ = memory address := put_of_none here

/-- Each of the patches can be seen. -/
theorem putAll_of_mem
    (apart : patches.Pairwise Apart) {patch : Patch Address Value}
    (member : patch ∈ patches) {address : Address} {value : Value}
    (some : patch address = some value) :
    putAll memory patches address = value := by
  induction patches generalizing memory with
  | nil => cases member
  | cons head rest induction =>
      obtain ⟨fromHead, restApart⟩ := List.pairwise_cons.mp apart
      rcases List.mem_cons.mp member with rfl | later
      · have elsewhere : ∀ other ∈ rest, other address = none := by
          intro other inRest
          refine (fromHead other inRest address).resolve_left ?_
          rw [some]
          exact Option.some_ne_none value
        exact
          (putAll_of_none elsewhere).trans (put_of_some some)
      · exact induction restApart later

/-- The order of the patches does not matter. -/
theorem putAll_perm
    (apart : patches.Pairwise Apart)
    {others : List (Patch Address Value)} (perm : patches.Perm others) :
    putAll memory patches = putAll memory others := by
  refine perm.foldl_eq' ?_ memory
  intro first isFirst second isSecond before
  by_cases same : first = second
  · rw [same]
  · exact put_comm (apart.forall isFirst isSecond same)

end PutAll

end Vproc.Lib.Patches
