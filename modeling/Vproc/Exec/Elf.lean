import Vproc.Lib.Memory

/-!
# ELF files and their tables

The parts of the ELF64 parser which `virtual_execve_via_entry` uses: the file
header and the program headers are decoded from the bytes of a file, and the
entries of the dynamic section, of the relocation table and of the symbol
table from the memory the file was loaded to.  Numbers are little-endian.

A `usize` has 64 bits, and is counted as in a release build: sums and products
wrap.
-/

namespace Vproc.Exec.Elf

open Vproc.Lib.Memory

/-- `usize`. -/
abbrev Usize := BitVec 64

/-- The bytes of the address space. -/
abbrev Bytes := Cells 64 UInt8

/-! ## Constants -/

/-- `ELFMAG`. -/
def ELFMAG : List UInt8 := [0x7f, 0x45, 0x4c, 0x46]

/-- `ELFCLASS64`. -/
def ELFCLASS64 : UInt8 := 2

/-- `ELFDATA2LSB`. -/
def ELFDATA2LSB : UInt8 := 1

/-- `EM_AARCH64`. -/
def EM_AARCH64 : BitVec 16 := 183

/-- `PT_LOAD`. -/
def PT_LOAD : BitVec 32 := 1

/-- `PT_DYNAMIC`. -/
def PT_DYNAMIC : BitVec 32 := 2

/-- `PF_X`. -/
def PF_X : BitVec 32 := 1

/-- `PF_W`. -/
def PF_W : BitVec 32 := 2

/-- `PF_R`. -/
def PF_R : BitVec 32 := 4

/-- `DT_PLTRELSZ`. -/
def DT_PLTRELSZ : BitVec 64 := 2

/-- `DT_STRTAB`. -/
def DT_STRTAB : BitVec 64 := 5

/-- `DT_SYMTAB`. -/
def DT_SYMTAB : BitVec 64 := 6

/-- `DT_INIT`. -/
def DT_INIT : BitVec 64 := 12

/-- `DT_JMPREL`. -/
def DT_JMPREL : BitVec 64 := 23

/-- `DT_INIT_ARRAY`. -/
def DT_INIT_ARRAY : BitVec 64 := 25

/-- `R_AARCH64_JUMP_SLOT`. -/
def R_AARCH64_JUMP_SLOT : BitVec 32 := 0x402

/-! ## Records -/

/-- A little-endian number. -/
def littleEndian (bytes : List UInt8) : Nat :=
  bytes.foldr (fun byte rest => byte.toNat + 256 * rest) 0

/-- The number in some bytes of a record. -/
def field (bytes : List UInt8) (offset size : Nat) : Nat :=
  littleEndian ((bytes.drop offset).take size)

/-- `Ehdr`. -/
structure Ehdr where
  eIdent : List UInt8
  eType : BitVec 16
  eMachine : BitVec 16
  eEntry : BitVec 64
  ePhoff : BitVec 64
  ePhentsize : BitVec 16
  ePhnum : BitVec 16
deriving DecidableEq, Repr

/-- `Phdr`. -/
structure Phdr where
  pType : BitVec 32
  pFlags : BitVec 32
  pOffset : BitVec 64
  pVaddr : BitVec 64
  pPaddr : BitVec 64
  pFilesz : BitVec 64
  pMemsz : BitVec 64
  pAlign : BitVec 64
deriving DecidableEq, Repr

/-- `Dyn`. -/
structure Dyn where
  dTag : BitVec 64
  dVal : BitVec 64
deriving DecidableEq, Repr

/-- `Rela`, without the addend. -/
structure Rela where
  rOffset : BitVec 64
  rInfo : BitVec 64
deriving DecidableEq, Repr

/-- The header in its 64 bytes. -/
def Ehdr.decode (bytes : List UInt8) : Ehdr where
  eIdent := bytes.take 16
  eType := .ofNat 16 (field bytes 16 2)
  eMachine := .ofNat 16 (field bytes 18 2)
  eEntry := .ofNat 64 (field bytes 24 8)
  ePhoff := .ofNat 64 (field bytes 32 8)
  ePhentsize := .ofNat 16 (field bytes 54 2)
  ePhnum := .ofNat 16 (field bytes 56 2)

/-- A program header in its 56 bytes. -/
def Phdr.decode (bytes : List UInt8) : Phdr where
  pType := .ofNat 32 (field bytes 0 4)
  pFlags := .ofNat 32 (field bytes 4 4)
  pOffset := .ofNat 64 (field bytes 8 8)
  pVaddr := .ofNat 64 (field bytes 16 8)
  pPaddr := .ofNat 64 (field bytes 24 8)
  pFilesz := .ofNat 64 (field bytes 32 8)
  pMemsz := .ofNat 64 (field bytes 40 8)
  pAlign := .ofNat 64 (field bytes 48 8)

/-! ## Files -/

/-- `read_at`: the bytes of a record of the given size. -/
def readAt (data : List UInt8) (offset : Usize) (size : Nat) :
    Except String (List UInt8) :=
  let start := offset.toNat
  let length := data.length
  if 2 ^ 64 ≤ start + size then .error "offset overflow"
  else if length < start + size then
    .error s!"read at {start}+{size} exceeds data len {length}"
  else .ok ((data.drop start).take size)

/-- `parse_header`. -/
def parseHeader (data : List UInt8) : Except String Ehdr :=
  if data.length < 64 then .error "data too small for ELF header"
  else
    (readAt data 0 64).bind fun bytes =>
      let hdr := Ehdr.decode bytes
      let machine := hdr.eMachine.toNat
      if hdr.eIdent.take 4 ≠ ELFMAG then
        .error "not an ELF file (bad magic)"
      else if hdr.eIdent[4]? ≠ some ELFCLASS64 then
        .error "not a 64-bit ELF"
      else if hdr.eIdent[5]? ≠ some ELFDATA2LSB then
        .error "not little-endian"
      else if hdr.eMachine ≠ EM_AARCH64 then
        .error s!"not aarch64 (machine={machine})"
      else .ok hdr

/-- `program_headers`. -/
def programHeaders (data : List UInt8) (hdr : Ehdr) :
    Except String (List Phdr) :=
  (List.range hdr.ePhnum.toNat).mapM fun i =>
    (readAt data
      (hdr.ePhoff + BitVec.ofNat 64 i * hdr.ePhentsize.setWidth 64) 56).map
        Phdr.decode

/-! ## Tables in memory -/

/-- `read_unaligned` of a number of the given size. -/
def readUnaligned (bytes : Bytes) (address : Usize) (size : Nat) : Nat :=
  littleEndian (read bytes address size)

/-- The bytes which `write_unaligned` puts for a number of the given size. -/
def numberBytes (size value : Nat) : List UInt8 :=
  (List.range size).map fun i => UInt8.ofNat (value >>> (8 * i))

/-- The `i`-th entry of a dynamic section. -/
def readDyn (bytes : Bytes) (dynAddr : Usize) (i : Nat) : Dyn :=
  let entry := dynAddr + BitVec.ofNat 64 (16 * i)
  { dTag := .ofNat 64 (readUnaligned bytes entry 8)
    dVal := .ofNat 64 (readUnaligned bytes (entry + BitVec.ofNat 64 8) 8) }

/-- The `i`-th entry of a relocation table. -/
def readRela (bytes : Bytes) (jmprel : Usize) (i : Nat) : Rela :=
  let entry := jmprel + BitVec.ofNat 64 (24 * i)
  { rOffset := .ofNat 64 (readUnaligned bytes entry 8)
    rInfo := .ofNat 64 (readUnaligned bytes (entry + BitVec.ofNat 64 8) 8) }

/-- `st_name` of a symbol. -/
def readStName (bytes : Bytes) (symtab : Usize) (index : Nat) : Usize :=
  .ofNat 64
    (readUnaligned bytes (symtab + BitVec.ofNat 64 (24 * index)) 4)

/-- `rela_type`. -/
def relaType (info : BitVec 64) : BitVec 32 :=
  info.setWidth 32

/-- `rela_sym`. -/
def relaSym (info : BitVec 64) : BitVec 32 :=
  (info >>> 32).setWidth 32

/-- The bytes from an address on up to the first 0, at most `limit`. -/
def cStringFrom (bytes : Bytes) : Nat → Usize → List UInt8
  | 0, _ => []
  | limit + 1, address =>
      if bytes address = 0 then []
      else bytes address :: cStringFrom bytes limit (address + 1)

/-- `CStr::from_ptr`. -/
def cString (bytes : Bytes) (address : Usize) : List UInt8 :=
  cStringFrom bytes (2 ^ 64) address

end Vproc.Exec.Elf
