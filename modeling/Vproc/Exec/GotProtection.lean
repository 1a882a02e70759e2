import Vproc.Exec.CachedStart

/-!
# The protection of the redirected pages

For each page with a redirected slot two pages are made writable before the
slots are written, and both are made read-only afterwards, whatever their
protection was.  So the protection is as before if and only if all of these
pages were read-only.
-/

namespace Vproc.Exec.GotProtection

open Vproc.Lib.Memory
open Vproc.Exec.Elf
open Vproc.Exec.Image
open Vproc.Exec.CachedStart

/-- The address is in one of the two pages which are changed for a slot. -/
def NearSlot (patches : List (Usize × Usize)) (address : Usize) : Prop :=
  ∃ patch ∈ patches, InRange (pageOf patch.1) 0x2000 address

instance (patches : List (Usize × Usize)) (address : Usize) :
    Decidable (NearSlot patches address) :=
  inferInstanceAs (Decidable (∃ patch ∈ patches, _))

section Prot

variable {platform : Platform}

theorem prot_mprotect
    (succeeds : Succeeds platform) (space : Space) (address size : Usize)
    (prot : Prot) (other : Usize) :
    (mprotectMteAware platform space address size prot).1.prot other =
      if InRange address size.toNat other then prot
      else space.prot other := by
  unfold mprotectMteAware
  rw [succeeds space address size prot]
  rfl

/-- All pages of a list have the protection, and all others keep theirs. -/
theorem prot_protectPages
    (succeeds : Succeeds platform) (prot : Prot) (space : Space)
    (pages : List Usize) (address : Usize) :
    (protectPages platform prot space pages).prot address =
      if ∃ page ∈ pages, InRange page 0x2000 address then prot
      else space.prot address := by
  induction pages generalizing space with
  | nil => simp [protectPages]
  | cons page rest induction =>
      have first := prot_mprotect succeeds space page 0x2000 prot address
      have whole :
          (protectPages platform prot space (page :: rest)).prot address =
            _ :=
        induction (mprotectMteAware platform space page 0x2000 prot).1
      rw [whole, first]
      simp only [List.exists_mem_cons_iff]
      by_cases later : ∃ page ∈ rest, InRange page 0x2000 address
      · rw [if_pos later, if_pos (Or.inr later)]
      · simp only [later, or_false, if_false]
        rfl

/-- A store changes no protection. -/
theorem prot_stores (space : Space) (patches : List (Usize × Usize)) :
    (patches.foldl
        (fun space patch =>
          space.store patch.1 (numberBytes 8 patch.2.toNat))
        space).prot =
      space.prot := by
  induction patches generalizing space with
  | nil => rfl
  | cons patch rest induction => exact induction _

theorem nearSlot_iff
    (patches : List (Usize × Usize)) (address : Usize) :
    (∃ page ∈ gotPages patches, InRange page 0x2000 address) ↔
      NearSlot patches address := by
  simp only [gotPages, List.mem_insertionSort, List.mem_dedup,
    List.mem_map, exists_exists_and_eq_and, NearSlot]

/-- The pages of the slots are read-only, and all others as before. -/
theorem prot_patchGot
    (succeeds : Succeeds platform) (space : Space) (base : Usize)
    (phdrs : List Phdr) (address : Usize) :
    (patchGotForLoadedBinary platform space base phdrs).prot address =
      if NearSlot (gotPatches platform space.bytes base phdrs) address
      then .r else space.prot address := by
  unfold patchGotForLoadedBinary
  dsimp only
  split
  · rename_i empty
    rw [List.isEmpty_iff.mp empty, if_neg (by simp [NearSlot])]
  · simp only [prot_protectPages succeeds, prot_stores, nearSlot_iff]
    split <;> rfl

end Prot

/--
Redirecting the calls keeps the protection of every page if and only if the
two pages of every slot were read-only.
-/
theorem protection_kept_iff
    (platform : Platform) (succeeds : Succeeds platform) (space : Space)
    (base : Usize) (phdrs : List Phdr) :
    (∀ address,
        (patchGotForLoadedBinary platform space base phdrs).prot address =
          space.prot address) ↔
      ∀ patch ∈ gotPatches platform space.bytes base phdrs,
        ∀ address, InRange (pageOf patch.1) 0x2000 address →
          space.prot address = .r := by
  simp only [prot_patchGot succeeds]
  constructor
  · intro kept patch member address inRange
    have same := kept address
    rw [if_pos ⟨patch, member, inRange⟩] at same
    exact same.symm
  · intro readOnly address
    split
    · rename_i near
      obtain ⟨patch, member, inRange⟩ := near
      exact (readOnly patch member address inRange).symm
    · rfl

theorem protection_of_forking :
    (∀ address,
        (patchGotForLoadedBinary plainPlatform forkingSpace 0x1000
            forkingHeaders).prot address =
          forkingSpace.prot address) ↔
      ∀ patch ∈
          gotPatches plainPlatform forkingSpace.bytes 0x1000
            forkingHeaders,
        ∀ address, InRange (pageOf patch.1) 0x2000 address →
          forkingSpace.prot address = .r :=
  protection_kept_iff plainPlatform (fun _ _ _ _ => rfl) forkingSpace 0x1000
    forkingHeaders

/-- The page after the page of a slot was writable, and no longer is. -/
theorem writable_page_lost :
    ¬ ∀ (platform : Platform) (space : Space) (base : Usize)
        (phdrs : List Phdr),
      Succeeds platform →
        ∀ address,
          (patchGotForLoadedBinary platform space base phdrs).prot address =
            space.prot address := by
  intro every
  have same :=
    every plainPlatform forkingSpace 0x1000 forkingHeaders
      (fun _ _ _ _ => rfl) 0x2000#64
  exact absurd same (by decide +kernel)

end Vproc.Exec.GotProtection
