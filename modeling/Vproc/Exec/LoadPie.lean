import Vproc.Exec.ElfTables
import Vproc.Exec.Image
import Vproc.Lib.Alignment
import Vproc.Lib.Procedure

/-!
# Loading a PIE

`load_pie` reserves a slot of the address space, maps the `PT_LOAD` segments
of a file there, and relocates the image.  Every number it works with comes
from the file.  What it does is left as a trace: the vectors it allocates, the
slot it takes, the ranges it maps and protects, the bytes it copies and the
words it relocates.

Sums, products and differences are exact here; one which does not fit into 64
bits is a fault, where a debug build panics and a release build wraps.
-/

namespace Vproc.Exec.LoadPie

open Vproc.Lib.Alignment
open Vproc.Lib.Procedure
open Vproc.Lib.Procedure.Traced
open Vproc.Exec.Elf
open Vproc.Exec.Image
open Vproc.Exec.ElfTables

/-! ## Constants and records -/

/-- `ET_DYN`. -/
def ET_DYN : BitVec 16 := 3

/-- `PT_INTERP`. -/
def PT_INTERP : BitVec 32 := 3

/-- `DT_NULL`. -/
def DT_NULL : BitVec 64 := 0

/-- `DT_RELA`. -/
def DT_RELA : BitVec 64 := 7

/-- `DT_RELASZ`. -/
def DT_RELASZ : BitVec 64 := 8

/-- `R_AARCH64_RELATIVE`. -/
def R_AARCH64_RELATIVE : BitVec 32 := 0x403

/-- `PAGE_SIZE`. -/
def PAGE_SIZE : Nat := 4096

/-- `SLOT_ALIGN`. -/
def SLOT_ALIGN : Nat := 65536

/-- `Rela` with its addend. -/
structure RelaEntry extends Rela where
  rAddend : BitVec 64
deriving DecidableEq, Repr

/-- An entry of the dynamic section in its 16 bytes. -/
def decodeDyn (bytes : List UInt8) : Dyn where
  dTag := .ofNat 64 (field bytes 0 8)
  dVal := .ofNat 64 (field bytes 8 8)

/-- An entry of a relocation table in its 24 bytes. -/
def RelaEntry.decode (bytes : List UInt8) : RelaEntry where
  rOffset := .ofNat 64 (field bytes 0 8)
  rInfo := .ofNat 64 (field bytes 8 8)
  rAddend := .ofNat 64 (field bytes 16 8)

/-- Addresses from `start` on. -/
structure AddressRange where
  start : Nat
  size : Nat
deriving DecidableEq, Repr

/-- What can be seen of the loader from outside. -/
inductive Event where
  | allocate (count size : Nat)
  | takeSlot (next : Nat)
  | reserve (range : AddressRange)
  | map (range : AddressRange)
  | copy (start : Nat) (bytes : List UInt8)
  | protect (range : AddressRange) (prot : Prot)
  | relocate (target value : Nat)
deriving DecidableEq, Repr

/-- The error numbers of the kernel calls which fail, by segment. -/
structure KernelAnswers where
  reserve : Option Nat
  map : Nat → Option Nat
  protect : Nat → Option Nat

/-- A kernel which grants every call. -/
def KernelAnswers.granted : KernelAnswers where
  reserve := none
  map := fun _ => none
  protect := fun _ => none

/-- A procedure of the loader. -/
abbrev Loading (Result : Type) := Traced Event Result

/-- `{:#x}`. -/
def hex (number : Nat) : String :=
  "0x" ++ String.ofList (Nat.toDigits 16 number)

/-- A kernel call, whose error number ends the procedure. -/
def kernelCall (answer : Option Nat) (message : Nat → String) :
    Loading Unit :=
  match answer with
  | none => pure ()
  | some errno => fail (message errno)

/-- `Vec::with_capacity`, which panics beyond `isize::MAX` bytes. -/
def withCapacity (count size : Nat) : Loading Unit :=
  if count * size < 2 ^ 63 then emit (.allocate count size)
  else stop .capacity

/-! ## The parser -/

/-- `validate_pie`. -/
def validatePie (hdr : Ehdr) : Except String Unit :=
  let etype := hdr.eType.toNat
  if hdr.eType ≠ ET_DYN then
    .error s!"not PIE (type={etype}, expected DYN=3)"
  else .ok ()

/-- Records from the `i`-th on, at a distance of `stride` bytes. -/
def readRecords {Record : Type} (data : FileBytes)
    (start stride size : Nat) (decode : List UInt8 → Record) :
    Nat → Nat → Loading (List Record)
  | _, 0 => pure []
  | i, count + 1 => do
      let distance ← mul i stride
      let offset ← add start distance
      let bytes ← lift (readAt data.bytes (BitVec.ofNat 64 offset) size)
      let rest ← readRecords data start stride size decode (i + 1) count
      pure (decode bytes :: rest)

/-- `program_headers`. -/
def programHeaders (data : FileBytes) (hdr : Ehdr) :
    Loading (List Phdr) :=
  if hdr.ePhnum.toNat = 0 then pure []
  else do
    withCapacity hdr.ePhnum.toNat 56
    readRecords data hdr.ePhoff.toNat hdr.ePhentsize.toNat 56 Phdr.decode 0
      hdr.ePhnum.toNat

/-- The first program header of a type. -/
def firstOf (type : BitVec 32) (phdrs : List Phdr) : Option Phdr :=
  phdrs.find? fun phdr => phdr.pType == type

/-- `interpreter_path`, before the bytes become a `String`. -/
def interpreterPath (data : FileBytes) (phdrs : List Phdr) :
    Loading (Option (List UInt8)) :=
  match firstOf PT_INTERP phdrs with
  | none => pure none
  | some phdr => do
      let start := phdr.pOffset.toNat
      let stop ← add start phdr.pFilesz.toNat
      if data.bytes.length < stop then
        fail "PT_INTERP extends beyond file"
      else do
        let bytes ← slice data.bytes start stop
        pure (some (bytes.takeWhile fun byte => byte != 0))

/-- `load_segments`. -/
def loadSegments (phdrs : List Phdr) : List Phdr :=
  phdrs.filter fun phdr => phdr.pType == PT_LOAD

/-- The loop of `dynamic_entries`, from the `i`-th entry on. -/
def readDynamic (data : FileBytes) (start : Nat) :
    Nat → Nat → Loading (List Dyn)
  | _, 0 => pure []
  | i, count + 1 => do
      let distance ← mul i 16
      let offset ← add start distance
      let bytes ← lift (readAt data.bytes (BitVec.ofNat 64 offset) 16)
      let entry := decodeDyn bytes
      if entry.dTag = DT_NULL then pure []
      else do
        let rest ← readDynamic data start (i + 1) count
        pure (entry :: rest)

/-- `dynamic_entries`. -/
def dynamicEntries (data : FileBytes) (phdrs : List Phdr) :
    Loading (List Dyn) :=
  match firstOf PT_DYNAMIC phdrs with
  | none => pure []
  | some phdr => do
      let start := phdr.pOffset.toNat
      let size := phdr.pFilesz.toNat
      let stop ← add start size
      if data.bytes.length < stop then
        fail "PT_DYNAMIC extends beyond file"
      else do
        withCapacity (size / 16) 16
        readDynamic data start 0 (size / 16)

/-- The last value of a tag, or 0. -/
def lastValue (tag : BitVec 64) (dyns : List Dyn) : Nat :=
  dyns.foldl
    (fun value entry =>
      if entry.dTag = tag then entry.dVal.toNat else value)
    0

/-- `rela_entries_from_dynamic`. -/
def relaEntriesFromDynamic (data : FileBytes) (dyns : List Dyn) :
    Loading (List RelaEntry) :=
  let relaOffset := lastValue DT_RELA dyns
  let relaSize := lastValue DT_RELASZ dyns
  if relaSize = 0 then pure []
  else do
    withCapacity (relaSize / 24) 24
    readRecords data relaOffset 24 24 RelaEntry.decode 0 (relaSize / 24)

/-- The ends of the segments, one after the other. -/
def segmentEnds : List Phdr → Loading (List Nat)
  | [] => pure []
  | phdr :: rest => do
      let stop ← add phdr.pVaddr.toNat phdr.pMemsz.toNat
      let stops ← segmentEnds rest
      pure (stop :: stops)

/-- `load_span`. -/
def loadSpan (phdrs : List Phdr) : Loading (Nat × Nat) :=
  let loads := loadSegments phdrs
  if loads = [] then pure (0, 0)
  else do
    let minVaddr := ((loads.map fun phdr => phdr.pVaddr.toNat).min?).getD 0
    let stops ← segmentEnds loads
    let maxVaddr := stops.max?.getD 0
    let size ← sub maxVaddr minVaddr
    pure (minVaddr, size)

/-! ## The loader -/

/-- `page_align_down`. -/
def pageAlignDown (addr : Nat) : Nat :=
  clearLow 64 12 addr

/-- `page_align_up`. -/
def pageAlignUp (addr : Nat) : Loading Nat := do
  let sum ← add addr PAGE_SIZE
  let last ← sub sum 1
  pure (clearLow 64 12 last)

/-- `NEXT_BASE`: it starts at 128 GiB and moves by whole pages. -/
structure NextBase where
  value : Nat
  low : 0x2000000000 ≤ value
  paged : PAGE_SIZE ∣ value
  bound : value < 2 ^ 64

/-- `NEXT_BASE` before the first call. -/
def NextBase.initial : NextBase where
  value := 0x2000000000
  low := le_refl _
  paged := by decide
  bound := by decide

/-- `alloc_slot`. -/
def allocSlot (nextBase : NextBase) (size : Nat) : Loading Nat := do
  let sum ← add size SLOT_ALIGN
  let last ← sub sum 1
  let step ← add (clearLow 64 16 last) PAGE_SIZE
  let next ← add nextBase.value step
  emit (.takeSlot next)
  pure nextBase.value

/-- `prot_from_flags`. -/
def protFromFlags (flags : BitVec 32) : Prot :=
  ⟨hasFlag flags PF_R, hasFlag flags PF_W, hasFlag flags PF_X⟩

/-- The copying of `map_load_segment`. -/
def copySegment (data : FileBytes) (mapAddr pageOffset : Nat)
    (phdr : Phdr) : Loading Unit :=
  let segFilesz := phdr.pFilesz.toNat
  let segOffset := phdr.pOffset.toNat
  if 0 < segFilesz then do
    let fileEnd ← add segOffset segFilesz
    if data.bytes.length < fileEnd then
      fail "LOAD segment extends beyond file"
    else do
      let bytes ← slice data.bytes segOffset fileEnd
      let target ← add mapAddr pageOffset
      emit (.copy target bytes)
  else pure ()

/-- `map_load_segment`, for a segment with its index. -/
def mapLoadSegment (data : FileBytes) (base : Nat)
    (answers : KernelAnswers) (segment : Phdr × Nat) : Loading Unit := do
  let phdr := segment.1
  let segVaddr := phdr.pVaddr.toNat
  let pageStart := pageAlignDown segVaddr
  let segEnd ← add segVaddr phdr.pMemsz.toNat
  let pageEnd ← pageAlignUp segEnd
  let mapSize ← sub pageEnd pageStart
  let mapAddr ← add base pageStart
  let pageOffset ← sub segVaddr pageStart
  let address := hex mapAddr
  let size := hex mapSize
  kernelCall (answers.map segment.2) fun errno =>
    s!"mmap LOAD at {address} size {size}: errno {errno}"
  emit (.map ⟨mapAddr, mapSize⟩)
  copySegment data mapAddr pageOffset phdr
  kernelCall (answers.protect segment.2) fun errno =>
    s!"mprotect at {address}: errno {errno}"
  emit (.protect ⟨mapAddr, mapSize⟩ (protFromFlags phdr.pFlags))

/-- One round of `apply_relative_relocations`. -/
def applyRelocation (base : Nat) (rela : RelaEntry) : Loading Unit :=
  if relaType rela.rInfo ≠ R_AARCH64_RELATIVE then pure ()
  else do
    let target ← add base rela.rOffset.toNat
    emit
      (.relocate target (BitVec.ofNat 64 base + rela.rAddend).toNat)

/-- `apply_relative_relocations`. -/
def applyRelativeRelocations (base : Nat) (relas : List RelaEntry) :
    Loading Nat := do
  forEach (applyRelocation base) relas
  pure
    (relas.countP fun rela => relaType rela.rInfo == R_AARCH64_RELATIVE)

/-- `LoadedImage`. -/
structure LoadedImage where
  base : Nat
  totalSize : Nat
  entry : Nat
  phdrAddr : Nat
  phnum : BitVec 16
  phentsize : BitVec 16
  interpPath : Option (List UInt8)
deriving DecidableEq, Repr

/-- The relocations of `load_pie`. -/
def relocateImage (data : FileBytes) (base : Nat) (phdrs : List Phdr) :
    Loading Unit := do
  let dyns ← dynamicEntries data phdrs
  if dyns = [] then pure ()
  else do
    let relas ← relaEntriesFromDynamic data dyns
    let _ ← applyRelativeRelocations base relas
    pure ()

/-- `load_pie` once it has the program headers. -/
def loadImage (data : FileBytes) (answers : KernelAnswers)
    (nextBase : NextBase) (hdr : Ehdr) (phdrs : List Phdr) :
    Loading LoadedImage :=
  let loads := loadSegments phdrs
  if loads = [] then fail "no LOAD segments"
  else do
    let span ← loadSpan phdrs
    let totalMapped ← pageAlignUp span.2
    let base ← allocSlot nextBase totalMapped
    let address := hex base
    kernelCall answers.reserve fun errno =>
      s!"mmap reserve failed at {address}: errno {errno}"
    emit (.reserve ⟨base, totalMapped⟩)
    forEach (mapLoadSegment data base answers) loads.zipIdx
    relocateImage data base phdrs
    let interpPath ← interpreterPath data phdrs
    let entry ← add base hdr.eEntry.toNat
    let phdrAddr ← add base hdr.ePhoff.toNat
    pure
      { base := base
        totalSize := totalMapped
        entry := entry
        phdrAddr := phdrAddr
        phnum := hdr.ePhnum
        phentsize := hdr.ePhentsize
        interpPath := interpPath }

/-- `load_pie`. -/
def loadPie (data : FileBytes) (answers : KernelAnswers)
    (nextBase : NextBase) : Loading LoadedImage := do
  let hdr ← lift (parseHeader data.bytes)
  lift (validatePie hdr)
  let phdrs ← programHeaders data hdr
  loadImage data answers nextBase hdr phdrs

/-- `virtual_execve_static`, up to the image. -/
def virtualExecveStatic (data : FileBytes) (answers : KernelAnswers)
    (nextBase : NextBase) : Loading LoadedImage := do
  let hdr ← lift (parseHeader data.bytes)
  if hdr.eMachine ≠ EM_AARCH64 then fail "not aarch64"
  else do
    let phdrs ← programHeaders data hdr
    let interp ← interpreterPath data phdrs
    if interp.isSome then
      fail
        "binary is dynamically linked — use virtual_execve_dynamic()"
    else loadPie data answers nextBase

/-- `virtual_execve`, up to the image; none if the linker has to load it. -/
def virtualExecve (data : FileBytes) (answers : KernelAnswers)
    (nextBase : NextBase) : Loading (Option LoadedImage) := do
  let hdr ← lift (parseHeader data.bytes)
  let phdrs ← programHeaders data hdr
  let interp ← interpreterPath data phdrs
  if interp.isSome then pure none
  else do
    let image ← virtualExecveStatic data answers nextBase
    pure (some image)

end Vproc.Exec.LoadPie
