import Vproc.Exec.LoadEvents
import Vproc.Lib.Patches
import Vproc.Lib.Run

/-!
# The address space under the loader

The events which the loader leaves behind act on the memory of the process: a
mapping replaces whatever was there by zeros, and a store needs memory which
is mapped and writable, and for a whole word an aligned address.  Without that
the process ends, which is a step that leads nowhere.
-/

namespace Vproc.Exec.AddressSpace

open Vproc.Lib.Patches
open Vproc.Lib.Procedure
open Vproc.Lib.Run
open Vproc.Exec.Elf hiding programHeaders
open Vproc.Exec.Image
open Vproc.Exec.LoadPie
open Vproc.Exec.LoadSteps
open Vproc.Exec.LoadEvents

/-! ## Memory -/

/-- The bytes and the protection at each address; none if it is not mapped. -/
structure Memory where
  bytes : Nat → UInt8
  prot : Nat → Option Prot

/-- The address is in the range. -/
def Holds (range : AddressRange) (address : Nat) : Prop :=
  range.start ≤ address ∧ address < range.start + range.size

instance (range : AddressRange) (address : Nat) :
    Decidable (Holds range address) :=
  inferInstanceAs (Decidable (_ ∧ _))

/-- One value for all addresses of a range. -/
def onRange {Value : Type} (range : AddressRange) (value : Value) :
    Patch Nat Value :=
  fun address => if Holds range address then some value else none

/-- Bytes from an address on. -/
def bytesFrom (start : Nat) (bytes : List UInt8) : Patch Nat UInt8 :=
  fun address =>
    if start ≤ address then bytes[address - start]? else none

namespace Memory

variable (memory : Memory)

/-- Private anonymous pages, mapped in the place of whatever was there. -/
def mapZeros (range : AddressRange) (prot : Prot) : Memory where
  bytes := put memory.bytes (onRange range 0)
  prot := put memory.prot (onRange range (some prot))

def isWritable (address : Nat) : Bool :=
  (memory.prot address).any Prot.write

/-- Bytes stored to memory, all of which has to be writable. -/
def store (start : Nat) (bytes : List UInt8) : Option Memory :=
  if ∀ i < bytes.length, memory.isWritable (start + i) = true then
    some { memory with bytes := put memory.bytes (bytesFrom start bytes) }
  else none

/-- A new protection for pages which are mapped. -/
def protect (range : AddressRange) (prot : Prot) : Memory where
  bytes := memory.bytes
  prot := fun address =>
    if Holds range address then
      (memory.prot address).map fun _ => prot
    else memory.prot address

end Memory

/-- `PROT_NONE`. -/
def PROT_NONE : Prot := ⟨false, false, false⟩

/-- What an event does to the memory; none if the process ends. -/
def perform (memory : Memory) : Event → Option Memory
  | .allocate _ _ => some memory
  | .takeSlot _ => some memory
  | .reserve range => some (memory.mapZeros range PROT_NONE)
  | .map range => some (memory.mapZeros range .rw)
  | .copy start bytes => memory.store start bytes
  | .protect range prot => some (memory.protect range prot)
  | .relocate target value =>
      if 8 ∣ target then memory.store target (numberBytes 8 value)
      else none

/-! ## What events do -/

section Perform

variable {memory : Memory}

theorem onRange_of_holds
    {Value : Type} {range : AddressRange} {address : Nat} (value : Value)
    (holds : Holds range address) :
    onRange range value address = some value :=
  if_pos holds

theorem onRange_of_not_holds
    {Value : Type} {range : AddressRange} {address : Nat} (value : Value)
    (outside : ¬ Holds range address) :
    onRange range value address = none :=
  if_neg outside

theorem bytesFrom_of_lt
    {start i : Nat} {bytes : List UInt8} (small : i < bytes.length) :
    bytesFrom start bytes (start + i) = some bytes[i] := by
  rw [bytesFrom, if_pos (Nat.le_add_right _ _), Nat.add_sub_cancel_left,
    List.getElem?_eq_getElem small]

theorem bytesFrom_of_not_holds
    {start address : Nat} {bytes : List UInt8}
    (outside : ¬ Holds ⟨start, bytes.length⟩ address) :
    bytesFrom start bytes address = none := by
  unfold bytesFrom
  unfold Holds at outside
  dsimp only at outside
  split
  · exact List.getElem?_eq_none (by omega)
  · rfl

/-- To store nothing changes nothing. -/
theorem put_bytesFrom_nil (bytes : Nat → UInt8) (start : Nat) :
    put bytes (bytesFrom start []) = bytes := by
  funext address
  have outside : ¬ Holds ⟨start, 0⟩ address := by
    rintro ⟨above, below⟩
    exact absurd above (Nat.not_le_of_lt below)
  exact put_of_none (bytesFrom_of_not_holds outside)

theorem isWritable_mapZeros
    {range : AddressRange} {prot : Prot} {address : Nat}
    (holds : Holds range address) :
    (memory.mapZeros range prot).isWritable address = prot.write := by
  have mapped : (memory.mapZeros range prot).prot address = some prot :=
    put_of_some (onRange_of_holds (some prot) holds)
  rw [Memory.isWritable, mapped]
  rfl

theorem store_of_writable
    {start : Nat} {bytes : List UInt8}
    (writable : ∀ i < bytes.length,
      memory.isWritable (start + i) = true) :
    memory.store start bytes =
      some
        { memory with bytes := put memory.bytes (bytesFrom start bytes) } :=
  if_pos writable

/-- A protection for all of a new mapping. -/
theorem protect_mapZeros
    (range : AddressRange) (first last : Prot) (bytes : Nat → UInt8) :
    Memory.protect
        { memory.mapZeros range first with bytes := bytes } range last =
      { bytes := bytes
        prot := put memory.prot (onRange range (some last)) } := by
  have prots :
      (fun address =>
          if Holds range address then
            ((memory.mapZeros range first).prot address).map fun _ => last
          else (memory.mapZeros range first).prot address) =
        put memory.prot (onRange range (some last)) := by
    funext address
    unfold Memory.mapZeros
    dsimp only
    split
    · rename_i holds
      rw [put_of_some (onRange_of_holds (some first) holds),
        put_of_some (onRange_of_holds (some last) holds)]
      rfl
    · rename_i outside
      rw [put_of_none (onRange_of_not_holds (some first) outside),
        put_of_none (onRange_of_not_holds (some last) outside)]
  exact congrArg (Memory.mk bytes) prots

theorem run_quiet
    {events : List Event} (quiet : ∀ event ∈ events, Quiet event) :
    run perform memory events = some memory := by
  induction events with
  | nil => rfl
  | cons event rest induction =>
      obtain ⟨here, later⟩ := List.forall_mem_cons.mp quiet
      have stays : perform memory event = some memory := by
        cases event <;> first | rfl | exact here.elim
      rw [run, stays]
      exact induction later

end Perform

end Vproc.Exec.AddressSpace
