import Vproc.Exec.ElfStack
import Vproc.Exec.LoadedImage

/-!
# A program finds its own headers

A static program is not told where it was loaded.  Its start-up code reads the
auxiliary vector on its stack, and from there on its own program headers in
memory: `AT_PHDR` says where they are, `AT_PHENT` how far they are from each
other, and `AT_PHNUM` how many there are.

The headers are in memory only because a segment of the file covers their
table, and they are what the file says only if the addresses of this segment
are its offsets and no relocation is in the table.
-/

namespace Vproc.Exec.OwnHeaders

open Vproc.Lib.Memory
open Vproc.Lib.Procedure
open Vproc.Lib.Procedure.Traced
open Vproc.Lib.Run
open Vproc.Exec.Elf hiding programHeaders
open Vproc.Exec.ElfTables
open Vproc.Exec.ElfStack
open Vproc.Exec.LoadPie
open Vproc.Exec.LoadSteps
open Vproc.Exec.LoadEvents
open Vproc.Exec.AddressSpace
open Vproc.Exec.LoadedImage (LoadedPie Relocated holds_of_lt)
open Vproc.Exec.Words hiding Holds

/-! ## The start-up code -/

/-- The address space, as a program reads it. -/
def cells (memory : Memory) : Bytes := fun address =>
  memory.bytes address.toNat

/-- What `new_elf` is given for a program, but for its image. -/
structure StartRequest where
  stackBase : Usize
  stackSize : Usize
  argv : List Usize
  envp : List Usize
  interpBase : Usize
  hwcap : Option Usize
  random : Usize
  argvNotNull : ∀ arg ∈ argv, arg ≠ 0
  envpNotNull : ∀ env ∈ envp, env ≠ 0
  base : stackBase.toNat % 16 = 0
  size : stackSize.toNat % 16 = 0
  roomy : ∀ image : LoadedImage,
    neededBytes argv envp (buildAuxv image interpBase hwcap random) ≤
      stackSize.toNat

namespace StartRequest

variable (request : StartRequest) (image : LoadedImage)

/-- The auxiliary vector for an image. -/
def auxv : List AuxPair :=
  buildAuxv image request.interpBase request.hwcap request.random

/-- The stack of the program. -/
def start : ElfStart :=
  newElf request.stackBase request.stackSize
    (BitVec.ofNat 64 request.argv.length) request.argv request.envp
    (request.auxv image)

end StartRequest

/-! ## The image and its file -/

section Loaded

variable (pie : LoadedPie)

end Loaded

/-! ## The table in memory -/

section Table

variable {pie : LoadedPie} {phdr : Phdr} {i k : Nat}

end Table

/-! ## The start of the program -/

namespace StartRequest

variable (request : StartRequest) (image : LoadedImage)

end StartRequest

end Vproc.Exec.OwnHeaders
