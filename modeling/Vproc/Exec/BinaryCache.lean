import Vproc.Ffi.Sessions
import Vproc.Exec.Image

/-!
# The cache of loaded binaries

`virtual_execve_via_entry` loads a binary with `dlopen` once, and keeps it in
a cache under its canonical path.  Every later start of the same path uses the
loaded image again, after its writable segments have been put back.  The cache
and the address space belong to the whole process; the coroutines belong to
the sessions.

What the system says during a call is given by `LoadAnswers`: the file system,
the dynamic linker, `dlsym` and `mmap`.  The address of `main` is kept in the
cache by the source and never used, and it is left out, as are the arguments,
the environment and the stack of the new process.
-/

namespace Vproc.Exec.BinaryCache

open Vproc.Lib.Memory
open Vproc.Lib.FiniteMap
open Vproc.Fd.Table
open Vproc.Fd.Runtime
open Vproc.Sched.Scheduler
open Vproc.Sched.DriverLoop
open Vproc.Ffi.Sessions
open Vproc.Exec.Elf
open Vproc.Exec.Image

/-- `BinaryCacheEntry`. -/
structure BinaryCacheEntry where
  savedWritable : List WritableSegment
  activeUsers : Nat

/-- The process-wide state of the loader. -/
structure Loader where
  cache : KeyMap String BinaryCacheEntry
  space : Space
  exitHooked : Bool
  execveHooked : Bool

/--
The answers during one call.  The canonical path may not be text, and an error
of the system comes with its message.  `dlopened` is the address space with
the binary in it, and `dlclosed` the one after it has been closed again.
-/
structure LoadAnswers where
  canonical : Except String (Option String)
  file : Except String (List UInt8)
  dlopened : Except String Space
  dlclosed : Space
  loadedBase : Option Usize
  libcExit : Option Usize
  libcExecve : Option Usize
  stackAllocated : Bool

/-- The program headers in a file. -/
def readHeaders (path : String) (answers : LoadAnswers) :
    Except String (List Phdr) :=
  match answers.file with
  | .error e => .error s!"cannot read {path}: {e}"
  | .ok data => (parseHeader data).bind (programHeaders data)

namespace Loader

variable (platform : Platform)

/-- The hooks of libc which the first load sees to. -/
def libcHooks (loader : Loader) (answers : LoadAnswers) : LibcHooks where
  exitDone := loader.exitHooked
  exit := answers.libcExit
  execveDone := loader.execveHooked
  execve := answers.libcExecve

/-- The stack of the new process is allocated last. -/
def allocStack (loader : Loader) (realPath : String)
    (answers : LoadAnswers) : Loader × Except String String :=
  if answers.stackAllocated then (loader, .ok realPath)
  else (loader, .error "stack allocation failed")

/-- The cached path: the segments are put back before anything is checked. -/
def startCached (loader : Loader) (path realPath : String)
    (entry : BinaryCacheEntry) (answers : LoadAnswers) :
    Loader × Except String String :=
  let restored :=
    { loader with
      space :=
        restoreWritableSegments platform loader.space
          entry.savedWritable }
  match readHeaders path answers with
  | .error e => (restored, .error e)
  | .ok phdrs =>
      match answers.loadedBase with
      | none => (restored, .error "cannot find re-loaded base")
      | some base =>
          allocStack
            { restored with
              space :=
                patchGotForLoadedBinary platform restored.space base
                  phdrs }
            realPath answers

/-- The first load of a binary. -/
def startFirst (loader : Loader) (path realPath : String)
    (answers : LoadAnswers) : Loader × Except String String :=
  match readHeaders path answers with
  | .error e => (loader, .error e)
  | .ok phdrs =>
      match answers.dlopened with
      | .error e => (loader, .error s!"dlopen({path}): {e}")
      | .ok dlopened =>
          match answers.loadedBase with
          | none =>
              ({ loader with space := answers.dlclosed },
                .error
                  s!"dlopen({path}) succeeded but dl_iterate_phdr cannot find it")
          | some base =>
              let space :=
                firstImage platform (loader.libcHooks answers) dlopened
                  base phdrs
              let entry : BinaryCacheEntry :=
                ⟨saveWritableSegments space.bytes base phdrs, 0⟩
              allocStack
                { cache := loader.cache.insert realPath entry
                  space := space
                  exitHooked := true
                  execveHooked := true }
                realPath answers

/--
`virtual_execve_via_entry` up to the spawn, with the canonical path if the
process is spawned.
-/
def load (loader : Loader) (path : String) (answers : LoadAnswers) :
    Loader × Except String String :=
  match answers.canonical with
  | .error e => (loader, .error s!"cannot canonicalize {path}: {e}")
  | .ok none => (loader, .error "invalid path")
  | .ok (some realPath) =>
      match loader.cache.lookup realPath with
      | some entry =>
          startCached platform loader path realPath entry answers
      | none => startFirst platform loader path realPath answers

/-- The count of `track_binary_user`, a `u32`. -/
def addUser (loader : Loader) (path : String) : Loader :=
  { loader with
    cache :=
      modify path
        (fun entry =>
          { entry with activeUsers := (entry.activeUsers + 1) % 2 ^ 32 })
        loader.cache }

/--
`unload_binary` with a canonical path, and the address space after `dlclose`;
`unload_all_binaries` is a row of these.
-/
def unload (loader : Loader) (path : String) (dlclosed : Space) : Loader :=
  if path ∈ loader.cache then
    { loader with cache := loader.cache.erase path, space := dlclosed }
  else loader

end Loader

/-- The process: its sessions, and the loader. -/
structure Process where
  system : System
  loader : Loader

/-- Calls of `virtual_execve_via_entry`, and what happens besides. -/
inductive ProcessOp where
  | execve (id : SessionId) (path : String) (answers : LoadAnswers)
  | drainRequest (id : SessionId) (path : String) (answers : LoadAnswers)
  | system (op : SystemOp)
  | store (address : Usize) (data : List UInt8)
  | unload (path : String) (dlclosed : Space)

/-- The steps in which a binary is started. -/
def startsBinary : SystemOp → Bool
  | .drainRequest _ _ => true
  | .drive _ .virtualExecve => true
  | _ => false

namespace Process

/-- No session, and no binary. -/
def init (world : World) (space : Space) : Process where
  system := System.init world
  loader :=
    { cache := ∅, space := space, exitHooked := false
      execveHooked := false }

/-- The executor of a session. -/
def executor? (process : Process) (id : SessionId) : Option Executor :=
  (process.system.sessions.lookup id).map fun session =>
    session.driver.executor

/-- `binary_path` of a process is set. -/
def setBinaryPath (system : System) (id : SessionId) (vpid : VPid)
    (path : String) : System :=
  { system with
    sessions :=
      modify id
        (fun session =>
          { session with
            driver :=
              session.driver.withExecutor
                (session.driver.executor.update vpid fun co =>
                  { co with binaryPath := some path }) })
        system.sessions }

/--
A session calls `virtual_execve_via_entry`: `spawn` is the step by which the
new process comes into being, and `failed` the one if there is none.
-/
def start (process : Process) (platform : Platform) (id : SessionId)
    (path : String) (answers : LoadAnswers)
    (spawn : SystemOp) (failed : System → Option System) :
    Option Process :=
  (process.executor? id).bind fun ex =>
    match process.loader.load platform path answers with
    | (loader, .error _) =>
        (failed process.system).map fun system =>
          { system := system, loader := loader }
    | (loader, .ok realPath) =>
        (process.system.step spawn).map fun system =>
          { system := setBinaryPath system id ex.nextPid realPath
            loader := loader.addUser realPath }

/-- One step of the process. -/
def step (platform : Platform) (process : Process) :
    ProcessOp → Option Process
  | .execve id path answers =>
      process.start platform id path answers (.drive id .virtualExecve)
        some
  | .drainRequest id path answers =>
      process.start platform id path answers (.drainRequest id true)
        fun system => system.step (.drainRequest id false)
  | .system op =>
      if startsBinary op then none
      else
        (process.system.step op).map fun system =>
          { process with system := system }
  | .store address data =>
      if (List.range data.length).all fun i =>
          (process.loader.space.prot
            (address + BitVec.ofNat 64 i)).write
      then
        some
          { process with
            loader :=
              { process.loader with
                space := process.loader.space.store address data } }
      else none
  | .unload path dlclosed =>
      some { process with loader := process.loader.unload path dlclosed }

end Process

end Vproc.Exec.BinaryCache
