import Vproc.Exec.LoadedRanges

/-!
# The alignment of load bases

`alloc_slot` returns the old value of `NEXT_BASE` and adds the size to it,
rounded up to `SLOT_ALIGN`, and one guard page more.  The addition is atomic,
so that the calls of all threads come one after the other.  The guard page is
shorter than the alignment: each slot begins one page further into its 64 KiB
than the slot before it.
-/

namespace Vproc.Exec.SlotAlignment

open Vproc.Lib.Alignment
open Vproc.Lib.Procedure
open Vproc.Lib.Procedure.Traced
open Vproc.Lib.Run
open Vproc.Exec.Elf hiding programHeaders
open Vproc.Exec.LoadPie
open Vproc.Exec.LoadSteps
open Vproc.Exec.LoadedRanges

/-- `NEXT_BASE`, and the bases returned so far. -/
structure Slots where
  nextBase : NextBase
  bases : List Nat

def Slots.initial : Slots where
  nextBase := .initial
  bases := []

/-- A call of `alloc_slot`; none if the address space is exhausted. -/
def step (slots : Slots) (size : Nat) : Option Slots :=
  let call := allocSlot slots.nextBase size
  match call.outcome with
  | .ok base =>
      some
        { nextBase := nextBaseAfter slots.nextBase call.events
          bases := slots.bases ++ [base] }
  | _ => none

/-- A base at which every segment has the alignment it asks for. -/
structure Aligned (base : Nat) : Prop where
  slot : SLOT_ALIGN ∣ base
  segment : ∀ phdr : Phdr, phdr.pAlign.toNat ∣ SLOT_ALIGN →
    base + phdr.pVaddr.toNat ≡ phdr.pVaddr.toNat [MOD phdr.pAlign.toNat]

theorem aligned_iff (base : Nat) : Aligned base ↔ SLOT_ALIGN ∣ base := by
  refine ⟨Aligned.slot, fun slot => ⟨slot, fun phdr divides => ?_⟩⟩
  have whole : base ≡ 0 [MOD phdr.pAlign.toNat] :=
    (Nat.modEq_zero_iff_dvd).mpr (divides.trans slot)
  calc
    base + phdr.pVaddr.toNat ≡ 0 + phdr.pVaddr.toNat
        [MOD phdr.pAlign.toNat] := whole.add_right _
    _ = phdr.pVaddr.toNat := Nat.zero_add _

/-- A slot which can be taken ends where the next one begins. -/
theorem nextBaseAfter_takeSlot
    {nextBase : NextBase} {next : Nat}
    (moves : nextBase.value ≤ next ∧ PAGE_SIZE ∣ next ∧ next < 2 ^ 64) :
    (nextBaseAfter nextBase [.takeSlot next]).value = next := by
  simp only [nextBaseAfter, List.findSome?_cons, slotEnd]
  rw [dif_pos moves]

/-- Every call returns the base and moves it on by whole slots and a page. -/
theorem next_of_step
    {slots next : Slots} {size : Nat} (stepped : step slots size = some next) :
    next.bases = slots.bases ++ [slots.nextBase.value] ∧
      next.nextBase.value =
        slots.nextBase.value + (roundUp SLOT_ALIGN size + PAGE_SIZE) := by
  unfold step at stepped
  dsimp only at stepped
  split at stepped
  · rename_i base returned
    obtain ⟨moved, events, rfl⟩ :=
      of_completes_allocSlot (completes_of_returns returned)
    obtain rfl := Option.some.inj stepped
    have paged :
        PAGE_SIZE ∣
          slots.nextBase.value + (roundUp SLOT_ALIGN size + PAGE_SIZE) := by
      have slot : PAGE_SIZE ∣ SLOT_ALIGN := by decide
      exact
        Nat.dvd_add slots.nextBase.paged
          (Nat.dvd_add (slot.trans (dvd_roundUp _ _)) (dvd_refl _))
    refine ⟨rfl, ?_⟩
    dsimp only
    rw [events]
    exact nextBaseAfter_takeSlot ⟨Nat.le_add_right _ _, paged, moved⟩
  · cases stepped

/-- Each base, and the next one, is as many pages into its 64 KiB as calls. -/
structure PagesOff (slots : Slots) : Prop where
  next : slots.nextBase.value % SLOT_ALIGN =
    PAGE_SIZE * slots.bases.length % SLOT_ALIGN
  bases : ∀ i base, slots.bases[i]? = some base →
    base % SLOT_ALIGN = PAGE_SIZE * i % SLOT_ALIGN

theorem pagesOff_initial : PagesOff .initial where
  next := by decide
  bases := fun _ _ none => nomatch none

theorem pagesOff_of_step
    (slots : Slots) (size : Nat) (next : Slots) (off : PagesOff slots)
    (stepped : step slots size = some next) : PagesOff next := by
  obtain ⟨bases, value⟩ := next_of_step stepped
  have align : SLOT_ALIGN = 65536 := rfl
  have page : PAGE_SIZE = 4096 := rfl
  constructor
  · have whole := dvd_roundUp SLOT_ALIGN size
    have before := off.next
    rw [value, bases, List.length_append, List.length_singleton]
    rw [align] at before whole ⊢
    rw [page] at before ⊢
    omega
  · intro i base found
    rw [bases, List.getElem?_append] at found
    split at found
    · exact off.bases i base found
    · rename_i notBefore
      rw [List.getElem?_singleton] at found
      split at found
      · rename_i last
        obtain rfl := Option.some.inj found
        have same : i = slots.bases.length := by omega
        rw [same]
        exact off.next
      · cases found

/--
In every run, exactly the bases whose calls have a multiple of 16 calls before
them are aligned.
-/
theorem base_aligned_iff
    (sizes : List Nat) (slots : Slots)
    (reached : run step .initial sizes = some slots)
    (i base : Nat) (returned : slots.bases[i]? = some base) :
    Aligned base ↔ 16 ∣ i := by
  have off : PagesOff slots :=
    invariant_of_run pagesOff_of_step pagesOff_initial reached
  have place := off.bases i base returned
  have align : SLOT_ALIGN = 65536 := rfl
  have page : PAGE_SIZE = 4096 := rfl
  rw [align, page] at place
  rw [aligned_iff, align]
  omega

/-- Two slots of one page each. -/
def twoSlots : Slots :=
  (run step .initial [4096, 4096]).get (by decide +kernel)

theorem run_twoSlots : run step .initial [4096, 4096] = some twoSlots :=
  (Option.some_get _).symm

theorem bases_twoSlots : twoSlots.bases = [0x2000000000, 0x2000011000] := by
  decide +kernel

theorem first_base_aligned : Aligned 0x2000000000 ↔ 16 ∣ 0 :=
  base_aligned_iff [4096, 4096] twoSlots run_twoSlots 0 0x2000000000
    (by rw [bases_twoSlots]; rfl)

/-- The base of the second call is one page off. -/
theorem second_base_unaligned :
    ¬ ∀ (sizes : List Nat) (slots : Slots),
      run step .initial sizes = some slots →
        ∀ base ∈ slots.bases, Aligned base := by
  intro every
  have second : 0x2000011000 ∈ twoSlots.bases := by
    rw [bases_twoSlots]
    exact List.mem_cons_of_mem _ List.mem_cons_self
  have aligned := every [4096, 4096] twoSlots run_twoSlots _ second
  exact absurd aligned.slot (by decide)

end Vproc.Exec.SlotAlignment
