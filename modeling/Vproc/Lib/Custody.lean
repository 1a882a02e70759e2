import Vproc.Lib.FiniteMap
import Vproc.Lib.Run

/-!
# Who frees what

Things are live from the time they are made until they are freed.  Some of
them are held by an owner, who frees all it holds when it is dropped; the
others are held by nobody.

To free a thing which is not live is not defined.  If every live thing is
accounted for once, as held by one owner or by nobody, then no owner ever does
so, and dropping it leaves the others' things live.
-/

namespace Vproc.Lib.Custody

open Vproc.Lib.FiniteMap
open Vproc.Lib.Run

universe u v

/-- The live things, and those which were freed, one after the other. -/
structure Heap (Thing : Type u) where
  live : List Thing
  freed : List Thing

section Freeing

variable {Thing : Type u}

/-- Some things have been freed in between, and nothing else. -/
structure Releases (before : Heap Thing) (things : List Thing)
    (after : Heap Thing) : Prop where
  freed : after.freed = before.freed ++ things
  live : before.live.Perm (things ++ after.live)

theorem Releases.trans
    {first middle last : Heap Thing} {things others : List Thing}
    (earlier : Releases first things middle)
    (later : Releases middle others last) :
    Releases first (things ++ others) last where
  freed := by
    rw [later.freed, earlier.freed, List.append_assoc]
  live := by
    rw [List.append_assoc]
    exact earlier.live.trans (later.live.append_left things)

/-- What was made is still there, as live or as freed. -/
theorem Releases.total
    {before after : Heap Thing} {things : List Thing}
    (releases : Releases before things after) :
    (after.freed ++ after.live).Perm (before.freed ++ before.live) := by
  rw [releases.freed, List.append_assoc]
  exact releases.live.symm.append_left _

variable [DecidableEq Thing]

/-- A thing is freed; none if it is not live. -/
def free (heap : Heap Thing) (thing : Thing) : Option (Heap Thing) :=
  if thing ∈ heap.live then
    some
      { live := heap.live.erase thing
        freed := heap.freed ++ [thing] }
  else none

end Freeing

section Owners

variable {Owner Held : Type u} [DecidableEq Owner]
variable {Thing : Type v} (things : Held → List Thing)

/-- All which is held. -/
def heldBy (owned : KeyMap Owner Held) : List Thing :=
  owned.entries.flatMap fun entry => things entry.2

end Owners

section Dropping

variable {Owner Held : Type u} [DecidableEq Owner]
variable {Thing : Type v} [DecidableEq Thing] (things : Held → List Thing)

/-- An owner is dropped, if it is there, with all it holds. -/
def dropOwner (state : Heap Thing × KeyMap Owner Held) (owner : Owner) :
    Option (Heap Thing × KeyMap Owner Held) :=
  match state.2.lookup owner with
  | none => some state
  | some held =>
      (run free state.1 (things held)).map fun after =>
        (after, state.2.erase owner)

end Dropping

end Vproc.Lib.Custody
