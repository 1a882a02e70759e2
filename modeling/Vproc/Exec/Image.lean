import Vproc.Exec.Elf

/-!
# The image of a loaded binary

`dlopen` has put a binary into the address space.  Before its first start its
initialisers are cleared, calls of intercepted functions are redirected
through its global offset table, and the contents of its writable segments are
saved.  Before every later start the saved contents are put back and the table
is redirected again.

The protection is kept for each address, and changed for whole pages.  A store
to a page which is not writable ends the process; this is not represented, and
neither is reading memory which is not there.
-/

namespace Vproc.Exec.Image

open Vproc.Lib.Memory
open Vproc.Exec.Elf

/-- `PROT_READ`, `PROT_WRITE` and `PROT_EXEC`. -/
structure Prot where
  read : Bool
  write : Bool
  exec : Bool
deriving DecidableEq, Repr

/-- `PROT_READ`. -/
def Prot.r : Prot := ⟨true, false, false⟩

/-- `PROT_READ | PROT_WRITE`. -/
def Prot.rw : Prot := ⟨true, true, false⟩

/-- `PROT_READ | PROT_EXEC`. -/
def Prot.rx : Prot := ⟨true, false, true⟩

/-- `PROT_READ | PROT_WRITE | PROT_EXEC`. -/
def Prot.rwx : Prot := ⟨true, true, true⟩

/-- The address space of the process. -/
structure Space where
  bytes : Bytes
  prot : Usize → Prot

/-- The functions of the preload layer which take the place of libc's. -/
inductive Interceptor where
  | fork
  | execve
  | waitpid
  | wait4
  | pipe
  | dup
  | dup2
  | close
  | read
  | write
  | getpid
  | getppid
  | exit
  | exitNow
  | kill
  | getpgid
  | setpgid
  | raise
  | openPath
  | openat
  | creat
  | fstat
  | lseek
  | chdir
  | getcwd
  | poll
  | select
  | tcsetpgrp
  | tcgetpgrp
  | setsid
  | getpgrp
  | pipe2
deriving DecidableEq, Repr

/-- The interceptor for a symbol. -/
def interceptor? : String → Option Interceptor
  | "fork" => some .fork
  | "vfork" => some .fork
  | "execve" => some .execve
  | "waitpid" => some .waitpid
  | "wait4" => some .wait4
  | "pipe" => some .pipe
  | "dup" => some .dup
  | "dup2" => some .dup2
  | "close" => some .close
  | "read" => some .read
  | "write" => some .write
  | "getpid" => some .getpid
  | "getppid" => some .getppid
  | "exit" => some .exit
  | "_exit" => some .exitNow
  | "kill" => some .kill
  | "getpgid" => some .getpgid
  | "setpgid" => some .setpgid
  | "raise" => some .raise
  | "open" => some .openPath
  | "openat" => some .openat
  | "creat" => some .creat
  | "fstat" => some .fstat
  | "lseek" => some .lseek
  | "chdir" => some .chdir
  | "getcwd" => some .getcwd
  | "poll" => some .poll
  | "select" => some .select
  | "tcsetpgrp" => some .tcsetpgrp
  | "tcgetpgrp" => some .tcgetpgrp
  | "setsid" => some .setsid
  | "getpgrp" => some .getpgrp
  | "pipe2" => some .pipe2
  | _ => none

/-- The answers of `mprotect`, and where the interceptors are. -/
structure Platform where
  mprotect : Space → Usize → Usize → Prot → Bool
  address : Interceptor → Usize

/-- `addr & !0xfff`. -/
def pageOf (address : Usize) : Usize :=
  address &&& ~~~0xfff

/-- Bytes written to memory. -/
def Space.store (space : Space) (address : Usize) (data : List UInt8) :
    Space :=
  { space with bytes := write space.bytes address data }

section Functions

variable (platform : Platform)

/-- `mprotect_mte_aware`. -/
def mprotectMteAware (space : Space) (address size : Usize)
    (prot : Prot) : Space × Bool :=
  if platform.mprotect space address size prot then
    ({ space with
        prot := fun other =>
          if InRange address size.toNat other then prot
          else space.prot other },
      true)
  else (space, false)

/-! ## Before the first start -/

/-- The `PT_DYNAMIC` segment: where it is, and the number of its entries. -/
def dynamicSection (base : Usize) (phdrs : List Phdr) :
    Option (Usize × Nat) :=
  (phdrs.find? fun phdr => phdr.pType == PT_DYNAMIC).map fun phdr =>
    (base + phdr.pVaddr, phdr.pMemsz.toNat / 16)

/-- One turn of the loop of `clear_init_arrays`. -/
def clearInitEntry (dynAddr : Usize) (space : Space) (i : Nat) : Space :=
  let tag := (readDyn space.bytes dynAddr i).dTag
  if tag = DT_INIT_ARRAY ∨ tag = DT_INIT then
    space.store
      (dynAddr + BitVec.ofNat 64 (16 * i) + BitVec.ofNat 64 8)
      (numberBytes 8 0)
  else space

/-- `clear_init_arrays`. -/
def clearInitArrays (space : Space) (base : Usize) (phdrs : List Phdr) :
    Space :=
  match dynamicSection base phdrs with
  | none => space
  | some (dynAddr, dynCount) =>
      (List.range dynCount).foldl (clearInitEntry dynAddr) space

/-- `write_inline_hook`. -/
def writeInlineHook (space : Space) (funcAddr target : Usize) : Space :=
  let page := pageOf funcAddr
  let opened := mprotectMteAware platform space page 0x2000 .rwx
  if opened.2 then
    let first :=
      opened.1.store (funcAddr + 8) (numberBytes 8 target.toNat)
    let second := first.store funcAddr (numberBytes 4 0x58000050)
    let third := second.store (funcAddr + 4) (numberBytes 4 0xD61F0200)
    (mprotectMteAware platform third page 0x2000 .rx).1
  else opened.1

/--
`hook_libc_exit` and `hook_libc_execve`: nothing if it has been done before,
or if `dlsym` does not find the function.
-/
def hookLibc (space : Space) (done : Bool) (original : Option Usize)
    (target : Interceptor) : Space :=
  match done, original with
  | false, some original =>
      writeInlineHook platform space original (platform.address target)
  | _, _ => space

/-- `WritableSegment`. -/
structure WritableSegment where
  addr : Usize
  data : List UInt8
  origFlags : BitVec 32

/-- Is a flag of a segment set? -/
def hasFlag (flags flag : BitVec 32) : Bool :=
  flags &&& flag != 0

/-- A writable `PT_LOAD` segment which is not empty. -/
def isWritable (phdr : Phdr) : Bool :=
  phdr.pType == PT_LOAD && hasFlag phdr.pFlags PF_W && phdr.pMemsz != 0

/-- The contents of one segment. -/
def saveSegment (bytes : Bytes) (base : Usize) (phdr : Phdr) :
    WritableSegment where
  addr := base + phdr.pVaddr
  data := read bytes (base + phdr.pVaddr) phdr.pMemsz.toNat
  origFlags := phdr.pFlags

/-- `save_writable_segments`. -/
def saveWritableSegments (bytes : Bytes) (base : Usize)
    (phdrs : List Phdr) : List WritableSegment :=
  (phdrs.filter isWritable).map (saveSegment bytes base)

/-! ## Before every later start -/

/-- The protection from the flags of a segment, with `PROT_WRITE` in it. -/
def restoredProt (flags : BitVec 32) : Prot :=
  let prot : Prot :=
    ⟨hasFlag flags PF_R, hasFlag flags PF_W, hasFlag flags PF_X⟩
  if prot.write then prot else { prot with write := true }

/-- One turn of the loop of `restore_writable_segments`. -/
def restoreSegment (space : Space) (segment : WritableSegment) : Space :=
  let size := segment.data.length
  if size = 0 then space
  else
    let pageStart := pageOf segment.addr
    let pageEnd := pageOf (segment.addr + BitVec.ofNat 64 size + 0xfff)
    let pageSize := pageEnd - pageStart
    let opened := mprotectMteAware platform space pageStart pageSize .rw
    if opened.2 then
      let copied := opened.1.store segment.addr segment.data
      (mprotectMteAware platform copied pageStart pageSize
        (restoredProt segment.origFlags)).1
    else opened.1

/-- `restore_writable_segments`. -/
def restoreWritableSegments (space : Space)
    (segments : List WritableSegment) : Space :=
  segments.foldl (restoreSegment platform) space

/-! ## The global offset table -/

/-- What `patch_got_for_loaded_binary` takes from the dynamic section. -/
structure PltTables where
  jmprel : Usize
  pltrelsz : Usize
  symtab : Usize
  strtab : Usize
deriving DecidableEq, Repr

/-- One entry of the dynamic section. -/
def PltTables.note (tables : PltTables) (entry : Dyn) : PltTables :=
  if entry.dTag = DT_JMPREL then { tables with jmprel := entry.dVal }
  else if entry.dTag = DT_PLTRELSZ then
    { tables with pltrelsz := entry.dVal }
  else if entry.dTag = DT_SYMTAB then { tables with symtab := entry.dVal }
  else if entry.dTag = DT_STRTAB then { tables with strtab := entry.dVal }
  else tables

/-- The loop over the dynamic section. -/
def pltTables (bytes : Bytes) (dynAddr : Usize) (dynCount : Nat) :
    PltTables :=
  ((List.range dynCount).map (readDyn bytes dynAddr)).foldl
    PltTables.note ⟨0, 0, 0, 0⟩

/-- `jmprel == 0 || symtab == 0 || strtab == 0 || pltrelsz == 0`. -/
def PltTables.isIncomplete (tables : PltTables) : Bool :=
  tables.jmprel == 0 || tables.symtab == 0 || tables.strtab == 0 ||
    tables.pltrelsz == 0

/-- The number of relocations. -/
def PltTables.relaCount (tables : PltTables) : Nat :=
  tables.pltrelsz.toNat / 24

/-- The address of the name of the symbol of a relocation. -/
def nameAddress (bytes : Bytes) (base : Usize) (tables : PltTables)
    (rela : Rela) : Usize :=
  tables.strtab + base +
    readStName bytes (tables.symtab + base) (relaSym rela.rInfo).toNat

/--
A name as text.  A byte which is not ASCII gives a character no intercepted
name has, as `to_str` refuses the name or gives another one.
-/
def text (name : List UInt8) : String :=
  String.ofList (name.map fun byte => Char.ofNat byte.toNat)

/-- The slot and the interceptor for one relocation, if there is one. -/
def gotPatch (bytes : Bytes) (base : Usize) (tables : PltTables)
    (i : Nat) : Option (Usize × Usize) :=
  let rela := readRela bytes (tables.jmprel + base) i
  if relaType rela.rInfo = R_AARCH64_JUMP_SLOT then
    (interceptor?
        (text (cString bytes (nameAddress bytes base tables rela)))).map
      fun interceptor =>
        (base + rela.rOffset, platform.address interceptor)
  else none

/-- `patches`. -/
def gotPatches (bytes : Bytes) (base : Usize) (phdrs : List Phdr) :
    List (Usize × Usize) :=
  match dynamicSection base phdrs with
  | none => []
  | some (dynAddr, dynCount) =>
      let tables := pltTables bytes dynAddr dynCount
      if tables.isIncomplete then []
      else
        (List.range tables.relaCount).filterMap
          (gotPatch platform bytes base tables)

/-- `pages`, in their order. -/
def gotPages (patches : List (Usize × Usize)) : List Usize :=
  ((patches.map fun patch => pageOf patch.1).dedup).insertionSort (· ≤ ·)

/-- `mprotect` of two pages each, whatever the answers are. -/
def protectPages (prot : Prot) (space : Space) (pages : List Usize) :
    Space :=
  pages.foldl
    (fun space page => (mprotectMteAware platform space page 0x2000 prot).1)
    space

/-- `patch_got_for_loaded_binary`. -/
def patchGotForLoadedBinary (space : Space) (base : Usize)
    (phdrs : List Phdr) : Space :=
  let patches := gotPatches platform space.bytes base phdrs
  if patches.isEmpty then space
  else
    let pages := gotPages patches
    let opened := protectPages platform .rw space pages
    let patched :=
      patches.foldl
        (fun space patch =>
          space.store patch.1 (numberBytes 8 patch.2.toNat))
        opened
    protectPages platform .r patched pages

/-! ## The two ways to start -/

/-- The hooks of libc: done before or not, and what `dlsym` finds. -/
structure LibcHooks where
  exitDone : Bool
  exit : Option Usize
  execveDone : Bool
  execve : Option Usize

/-- The image of a binary before its calls are redirected. -/
def preparedImage (libc : LibcHooks) (space : Space) (base : Usize)
    (phdrs : List Phdr) : Space :=
  let cleared := clearInitArrays space base phdrs
  let exitHooked :=
    hookLibc platform cleared libc.exitDone libc.exit .exit
  hookLibc platform exitHooked libc.execveDone libc.execve .execve

/-- The image of a binary when it is started for the first time. -/
def firstImage (libc : LibcHooks) (space : Space) (base : Usize)
    (phdrs : List Phdr) : Space :=
  patchGotForLoadedBinary platform
    (preparedImage platform libc space base phdrs) base phdrs

/-- The image of a binary when it is started again. -/
def cachedImage (saved : List WritableSegment) (space : Space)
    (base : Usize) (phdrs : List Phdr) : Space :=
  patchGotForLoadedBinary platform
    (restoreWritableSegments platform space saved) base phdrs

end Functions

end Vproc.Exec.Image
