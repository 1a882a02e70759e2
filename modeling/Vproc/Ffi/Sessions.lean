import Vproc.Sched.DriverLoop

/-!
# Sessions

Each session has its own executor and its own driver thread; the descriptor
tables and the kernel's descriptors belong to the whole process.  A client
creates and destroys sessions and asks a session for processes.  The driver
of a session serves the requests, runs the scheduler, and shuts down once the
session has been destroyed.

A step is one call of a client or one action of a driver thread, so that a run
is any interleaving of them.  What a client waits for, and how long, does not
matter here.
-/

namespace Vproc.Ffi.Sessions

open Vproc.Lib.FiniteMap
open Vproc.Fd.Table
open Vproc.Fd.Runtime
open Vproc.Sched.Scheduler
open Vproc.Sched.DriverLoop

/-- The number of a session. -/
abbrev SessionId := Nat

/-- A session: its driver, the requests not yet served, and the flag. -/
structure Session where
  driver : Driver
  spawnQueue : List StdFds
  shutdown : Bool

namespace Session

/-- The session which `vproc_ffi_create_session` makes. -/
def new : Session where
  driver := Driver.new
  spawnQueue := []
  shutdown := false

end Session

/-- The process with all its sessions whose driver threads are there. -/
structure System where
  world : World
  sessions : KeyMap SessionId Session
  nextSessionId : SessionId

/-- Calls of clients, and actions of driver threads. -/
inductive SystemOp where
  | createSession
  | destroySession (id : SessionId)
  | createProcess (id : SessionId) (fds : StdFds)
  | drainRequest (id : SessionId) (loaded : Bool)
  | drive (id : SessionId) (op : DriverOp)
  | shutDown (id : SessionId)
deriving DecidableEq, Repr

namespace System

/-- No session has been created. -/
def init (world : World) : System where
  world := world
  sessions := ∅
  nextSessionId := 1

/-- Replace a session. -/
def setSession (system : System) (id : SessionId) (session : Session) :
    System :=
  { system with sessions := system.sessions.insert id session }

/-- `vproc_ffi_create_session`. -/
def createSession (system : System) : System :=
  { system.setSession system.nextSessionId Session.new with
    nextSessionId := system.nextSessionId + 1 }

/-- `vproc_ffi_destroy_session`: the driver thread is told to stop. -/
def destroySession (system : System) (id : SessionId) : System :=
  match system.sessions.lookup id with
  | none => system
  | some session => system.setSession id { session with shutdown := true }

/-- `vproc_ffi_create_process` up to its request; 0 without a session. -/
def createProcess (system : System) (id : SessionId) (fds : StdFds) :
    System :=
  match system.sessions.lookup id with
  | none => system
  | some session =>
      if session.shutdown then system
      else
        system.setSession id
          { session with spawnQueue := session.spawnQueue ++ [fds] }

/-- The session after a step of its driver. -/
def drive (system : System) (id : SessionId) (session : Session)
    (op : DriverOp) : Option System :=
  (Driver.step system.world session.driver op).map fun next =>
    { system.setSession id { session with driver := next.2 } with
      world := next.1 }

/--
The driver takes one request from the queue.  If the binary cannot be loaded,
nothing is spawned.
-/
def drainRequest (system : System) (id : SessionId) (session : Session)
    (loaded : Bool) : Option System :=
  match session.shutdown, session.spawnQueue with
  | false, fds :: rest =>
      let taken := { session with spawnQueue := rest }
      if loaded then
        system.drive id taken (.createProcess fds.1 fds.2.1 fds.2.2)
      else some (system.setSession id taken)
  | _, _ => none

/-- Requests come from the queue only. -/
def isRequest : DriverOp → Bool
  | .createProcess _ _ _ => true
  | _ => false

/--
The driver thread sees the flag: it reaps, calls `cleanup`, and ends.
-/
def shutDown (system : System) (id : SessionId) (session : Session) :
    Option System :=
  if session.shutdown && session.driver.turn.isNone then
    some
      { system with
        world := (Driver.reapStep system.world session.driver).1.cleanup
        sessions := system.sessions.erase id }
  else none

/-- One step of the system. -/
def step (system : System) : SystemOp → Option System
  | .createSession => some system.createSession
  | .destroySession id => some (system.destroySession id)
  | .createProcess id fds => some (system.createProcess id fds)
  | .drainRequest id loaded =>
      (system.sessions.lookup id).bind fun session =>
        system.drainRequest id session loaded
  | .drive id op =>
      if isRequest op then none
      else
        (system.sessions.lookup id).bind fun session =>
          system.drive id session op
  | .shutDown id =>
      (system.sessions.lookup id).bind fun session =>
        system.shutDown id session

end System

end Vproc.Ffi.Sessions
