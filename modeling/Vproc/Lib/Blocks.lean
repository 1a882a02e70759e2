import Mathlib

/-!
# Blocks laid end to end

Items which belong to different owners are often put into one list, each
owner's as a block, with a second list of the same length which says whose
item stands where.  The two are linked by position only.

Here the position of an owner's block is computed, and the items and the
owners found at a position are those of the block which covers it.  An answer
given for each position so belongs to one owner, provided that no two blocks
have the same one.
-/

namespace Vproc.Lib.Blocks

universe u v w

variable {Key : Type u} {Item : Type v} {Answer : Type w}

/-- All items, block after block. -/
def items (blocks : List (Key × List Item)) : List Item :=
  blocks.flatMap Prod.snd

/-- The owner of each item. -/
def owners (blocks : List (Key × List Item)) : List Key :=
  blocks.flatMap fun block => block.2.map fun _ => block.1

/-- The owners' blocks are told apart by their keys. -/
def Distinct (blocks : List (Key × List Item)) : Prop :=
  (blocks.map Prod.fst).Nodup

theorem ne_of_distinct
    {block : Key × List Item} {rest : List (Key × List Item)}
    (distinct : Distinct (block :: rest)) {key : Key} {own : List Item}
    (member : (key, own) ∈ rest) :
    block.1 ≠ key := by
  rintro rfl
  exact
    (List.nodup_cons.mp distinct).1
      (List.mem_map.mpr ⟨(block.1, own), member, rfl⟩)

variable [DecidableEq Key]

/-- The position at which the block of an owner begins. -/
def offset : List (Key × List Item) → Key → Nat
  | [], _ => 0
  | block :: rest, key =>
      if block.1 = key then 0 else block.2.length + offset rest key

theorem getElem?_items
    {blocks : List (Key × List Item)} (distinct : Distinct blocks)
    {key : Key} {own : List Item} (member : (key, own) ∈ blocks)
    {j : Nat} (below : j < own.length) :
    (items blocks)[offset blocks key + j]? = own[j]? := by
  induction blocks with
  | nil => cases member
  | cons block rest induction =>
      have later : Distinct rest := (List.nodup_cons.mp distinct).2
      rw [items, List.flatMap_cons, offset]
      rcases List.mem_cons.mp member with rfl | inRest
      · rw [if_pos rfl, Nat.zero_add, List.getElem?_append_left below]
      · rw [if_neg (ne_of_distinct distinct inRest), Nat.add_assoc, List.getElem?_append_right
          (Nat.le_add_right _ _), Nat.add_sub_cancel_left]
        exact induction later inRest

/-- The positions of an owner are those of its block. -/
theorem getElem?_owners_iff
    {blocks : List (Key × List Item)} (distinct : Distinct blocks)
    {key : Key} {own : List Item} (member : (key, own) ∈ blocks)
    (i : Nat) :
    (owners blocks)[i]? = some key ↔
      ∃ j < own.length, i = offset blocks key + j := by
  induction blocks generalizing i with
  | nil => cases member
  | cons block rest induction =>
      have later : Distinct rest := (List.nodup_cons.mp distinct).2
      have elsewhere (other : block.1 ≠ key) :
          ¬ ∃ j : Nat, ∃ below : j < block.2.length,
            (block.2.map fun _ => block.1)[j]? = some key := by
        rintro ⟨j, below, found⟩
        rw [List.getElem?_map, List.getElem?_eq_getElem below,
          Option.map_some] at found
        exact other (Option.some.inj found)
      rw [owners, List.flatMap_cons, offset, List.getElem?_append,
        List.length_map]
      rcases List.mem_cons.mp member with rfl | inRest
      · rw [if_pos rfl]
        dsimp only
        split
        · rename_i here
          simp [here]
        · rename_i after
          constructor
          · -- a later position has another owner
            intro found
            obtain ⟨other, isBlock, isKey⟩ :=
              List.mem_flatMap.mp (List.mem_of_getElem? found)
            obtain ⟨_, _, same⟩ := List.mem_map.mp isKey
            exact (ne_of_distinct distinct isBlock same.symm).elim
          · rintro ⟨j, below, rfl⟩
            omega
      · have other : block.1 ≠ key := ne_of_distinct distinct inRest
        rw [if_neg other]
        split
        · rename_i here
          constructor
          · intro found
            exact (elsewhere other ⟨i, here, found⟩).elim
          · rintro ⟨j, _, rfl⟩
            omega
        · rename_i after
          refine (induction later inRest (i - block.2.length)).trans ?_
          apply exists_congr
          intro j
          apply and_congr_right
          intro _
          omega

/-- An answer at a position of an owner is an answer to one of its items. -/
theorem exists_mem_zip_owners_iff
    {blocks : List (Key × List Item)} (distinct : Distinct blocks)
    {key : Key} {own : List Item} (member : (key, own) ∈ blocks)
    (answers : List Answer) (good : Answer → Prop) :
    (∃ answer, (answer, key) ∈ answers.zip (owners blocks) ∧
        good answer) ↔
      ∃ j < own.length, ∃ answer,
        answers[offset blocks key + j]? = some answer ∧ good answer := by
  have atPosition (answer : Answer) :
      (answer, key) ∈ answers.zip (owners blocks) ↔
        ∃ j < own.length,
          answers[offset blocks key + j]? = some answer := by
    rw [List.mem_iff_getElem?]
    simp only [List.getElem?_zip_eq_some,
      getElem?_owners_iff distinct member]
    constructor
    · rintro ⟨i, found, j, below, rfl⟩
      exact ⟨j, below, found⟩
    · rintro ⟨j, below, found⟩
      exact ⟨_, found, j, below, rfl⟩
  simp only [atPosition]
  constructor
  · rintro ⟨answer, ⟨j, below, found⟩, isGood⟩
    exact ⟨j, below, answer, found, isGood⟩
  · rintro ⟨j, below, answer, found, isGood⟩
    exact ⟨answer, ⟨j, below, found⟩, isGood⟩

end Vproc.Lib.Blocks
