import Vproc.Lib.Acting
import Vproc.Exec.LoadedImage
import Vproc.Exec.LoadedRanges

/-!
# Loads which do no harm

The loader writes to memory by numbers from the file: it maps the pages of the
segments, copies bytes there, and puts relocated words.  Nothing compares these
numbers with the slot it has reserved, nor with each other.

If every step of a load keeps to the slot, copies no more than the segment has
room for, and relocates only what is writable, then the load does no harm: in
whatever memory it is done, no store faults, and nothing outside of the slot is
changed, even if it ends with an error.
-/

namespace Vproc.Exec.HarmlessLoads

open Vproc.Lib.Alignment
open Vproc.Lib.Patches
open Vproc.Lib.Procedure
open Vproc.Lib.Procedure.Traced
open Vproc.Lib.Acting
open Vproc.Lib.Run
open Vproc.Exec.Elf hiding programHeaders
open Vproc.Exec.Image
open Vproc.Exec.ElfTables
open Vproc.Exec.LoadPie
open Vproc.Exec.LoadSteps
open Vproc.Exec.LoadEvents
open Vproc.Exec.LoadedRanges
open Vproc.Exec.AddressSpace
open Vproc.Exec.LoadedImage

/-! ## What a step keeps to -/

/-- The last of the segments whose pages have this offset is writable. -/
def writableAt (loads : List Phdr) (offset : Nat) : Bool :=
  (loads.reverse.find? fun phdr => Holds (mappedRange 0 phdr) offset).any
    fun phdr => hasFlag phdr.pFlags PF_W

/-- A word can be put at this offset. -/
def WordWritable (loads : List Phdr) (offset : Nat) : Prop :=
  8 ∣ offset ∧ ∀ i < 8, writableAt loads (offset + i) = true

/-- The segment at this address whose bytes these are has room for them. -/
def RoomFor (data : FileBytes) (loads : List Phdr) (vaddr : Nat)
    (bytes : List UInt8) : Prop :=
  ∀ phdr ∈ loads, phdr.pVaddr.toNat = vaddr →
    copiedBytes data.bytes phdr = bytes →
      bytes.length ≤ phdr.pMemsz.toNat

/-- What a step may do, with the segments of the image at its base. -/
def Proper (data : FileBytes) (base : Nat) (loads : List Phdr)
    (event : Event) : Prop :=
  Within ⟨base, totalSize loads⟩ event ∧
    match event with
    | .allocate count size => count * size ≤ data.bytes.length
    | .reserve range => range = ⟨base, totalSize loads⟩
    | .copy start bytes =>
        base ≤ start ∧ RoomFor data loads (start - base) bytes
    | .protect range _ =>
        addresses range ⊆ addresses ⟨base, totalSize loads⟩
    | .relocate target _ =>
        base ≤ target ∧ WordWritable loads (target - base)
    | _ => True

/-- In every memory the steps can be done, and change nothing but the slot. -/
def Harmless (slot : AddressRange) (events : List Event) : Prop :=
  ∀ memory, ∃ after, run perform memory events = some after ∧
    ∀ address, ¬ Holds slot address →
      after.bytes address = memory.bytes address ∧
        after.prot address = memory.prot address

/-! ## Reading the file -/

section Segments

variable {data : FileBytes} {nextBase : NextBase} {loads : List Phdr}
variable {memory : Memory}

end Segments

/-! ## The relocations -/

section Relocations

variable {data : FileBytes} {nextBase : NextBase} {loads : List Phdr}
variable {memory : Memory}

end Relocations

/-! ## Whole files -/

section Files

variable {data : FileBytes} {answers : KernelAnswers} {nextBase : NextBase}
variable {hdr : Ehdr} {memory : Memory}

end Files

/-! ## Outside of the slot -/

section Outside

variable {data : FileBytes} {base : Nat} {loads : List Phdr}

end Outside

end Vproc.Exec.HarmlessLoads
