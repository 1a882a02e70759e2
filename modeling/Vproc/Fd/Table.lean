import Vproc.Fd.PipeRing
import Vproc.Lib.FiniteMap

/-!
# The virtual descriptor table of one process

A table maps descriptor numbers (`u32`) to entries.  An entry is a borrowed
kernel descriptor, a shared reference to an owned one, or an end of a pipe.
What the source shares through `Arc` has an identity here: `ArcId` plays the
part of the address, so `Arc::ptr_eq` is equality of identities and a clone is
the same entry once more.

Closing an entry may close a pipe buffer which other tables share.  The
buffers live outside the table, so an operation reports the identities of the
buffers it closes in its `Outcome`.
-/

namespace Vproc.Fd.Table

open Vproc.Lib.FiniteMap

/-- A C `int`: kernel descriptors, return values, signals. -/
abbrev CInt := Int

/-- `fd as u32`. -/
def asU32 (fd : CInt) : Nat :=
  (fd % 4294967296).toNat

/-- `fd as c_int`. -/
def asCInt (fd : Nat) : CInt :=
  if fd < 2147483648 then fd else fd - 4294967296

/-- One more on a `u32`, as a release build computes it. -/
def succU32 (number : Nat) : Nat :=
  (number + 1) % 4294967296

theorem succU32_lt (number : Nat) : succU32 number < 4294967296 :=
  Nat.mod_lt _ (by decide)

/-- A `u32` comes back from a C `int`. -/
theorem asU32_asCInt {number : Nat} (bound : number < 4294967296) :
    asU32 (asCInt number) = number := by
  unfold asU32 asCInt
  split <;> omega

/-- The identity of a shared allocation. -/
abbrev ArcId := Nat

/-- `FileRef`: a kernel descriptor opened by a virtual process. -/
structure FileRef where
  arc : ArcId
  realFd : CInt
  cloexec : Bool
deriving DecidableEq, Repr

/-- `Vfd`: one virtual descriptor. -/
inductive Vfd where
  | real (fd : CInt)
  | file (ref : FileRef)
  | pipeRead (buf : ArcId)
  | pipeWrite (buf : ArcId)
deriving DecidableEq, Repr

namespace Vfd

/-- The pipe buffer behind an entry. -/
def buffer : Vfd → Option ArcId
  | .pipeRead buf => some buf
  | .pipeWrite buf => some buf
  | _ => none

/-- The kernel descriptor behind an entry. -/
def kernelFd : Vfd → Option CInt
  | .real fd => some fd
  | .file ref => some ref.realFd
  | _ => none

/-- The owned reference behind an entry. -/
def fileArc : Vfd → Option ArcId
  | .file ref => some ref.arc
  | _ => none

end Vfd

/-- `VfdTable`; the next number is a `u32`. -/
structure VfdTable where
  fds : KeyMap Nat Vfd
  nextFd : Nat
  nextFd_lt : nextFd < 4294967296

/-- What an operation leaves behind: table, closed buffers and result. -/
structure Outcome (Result : Type) where
  table : VfdTable
  closes : List ArcId
  result : Result

namespace VfdTable

/-- `new_with_fds`. -/
def newWithFds (stdin stdout stderr : CInt) : VfdTable where
  fds :=
    (((∅ : KeyMap Nat Vfd).insert 0 (.real stdin)).insert 1
      (.real stdout)).insert 2 (.real stderr)
  nextFd := 3
  nextFd_lt := by decide

/-- `new`: the numbers 0, 1 and 2 pass through to the host's own. -/
def new : VfdTable :=
  newWithFds 0 1 2

/-- `get`. -/
def get (table : VfdTable) (fd : Nat) : Option Vfd :=
  table.fds.lookup fd

/-- `get_real_fds_012`: none if one of the three is missing or a pipe. -/
def getRealFds012 (table : VfdTable) : Option (CInt × CInt × CInt) := do
  let fd0 ← (← table.get 0).kernelFd
  let fd1 ← (← table.get 1).kernelFd
  let fd2 ← (← table.get 2).kernelFd
  return (fd0, fd1, fd2)

/--
The loop of `alloc_fd`.  A map of `fuel` entries has a free number among any
`fuel + 1` successive ones, so the fuel never cuts the loop short.
-/
def skipUsed (fds : KeyMap Nat Vfd) : Nat → Nat → Nat
  | 0, nextFd => nextFd
  | fuel + 1, nextFd =>
      if nextFd ∈ fds then skipUsed fds fuel (succU32 nextFd) else nextFd

theorem skipUsed_lt
    (fds : KeyMap Nat Vfd) (fuel : Nat) {nextFd : Nat}
    (bound : nextFd < 4294967296) :
    skipUsed fds fuel nextFd < 4294967296 := by
  induction fuel generalizing nextFd with
  | zero => exact bound
  | succ fuel induction =>
      unfold skipUsed
      split
      · exact induction (succU32_lt nextFd)
      · exact bound

/-- `alloc_fd`: hands out `next_fd` itself, used or not. -/
def allocFd (table : VfdTable) : VfdTable × Nat :=
  ({ table with
      nextFd :=
        skipUsed table.fds table.fds.entries.length
          (succU32 table.nextFd)
      nextFd_lt := skipUsed_lt _ _ (succU32_lt _) },
    table.nextFd)

/-- `self.fds.insert(fd, vfd)`, replacing silently. -/
def put (table : VfdTable) (fd : Nat) (vfd : Vfd) : VfdTable :=
  { table with fds := table.fds.insert fd vfd }

/-- `insert`. -/
def insert (table : VfdTable) (vfd : Vfd) : VfdTable × Nat :=
  let alloc := table.allocFd
  (alloc.1.put alloc.2 vfd, alloc.2)

/-- `insert_file`, with the identity of the new `FileRef`. -/
def insertFile (table : VfdTable) (arc : ArcId) (realFd : CInt)
    (cloexec : Bool) : VfdTable × Nat :=
  table.insert (.file { arc, realFd, cloexec })

/--
`close`: a pipe buffer is closed when no number of this table refers to it any
more, through either of its ends.
-/
def close (table : VfdTable) (fd : Nat) : Outcome (Except CInt Unit) :=
  match table.fds.lookup fd with
  | none =>
      { table := table, closes := [], result := .error 9 }
  | some vfd =>
      let fds := table.fds.erase fd
      let closes :=
        match vfd.buffer with
        | none => []
        | some buf =>
            if (values fds).any fun other => other.buffer == some buf then []
            else [buf]
      { table := { table with fds := fds }
        closes := closes
        result := .ok () }

/-- `insert_at`. -/
def insertAt (table : VfdTable) (fd : Nat) (vfd : Vfd) : Outcome Unit :=
  let closed :=
    if fd ∈ table.fds then ((table.close fd).table, (table.close fd).closes)
    else (table, [])
  let placed := closed.1.put fd vfd
  { table :=
      if placed.nextFd ≤ fd then
        { placed with
          nextFd := succU32 fd
          nextFd_lt := succU32_lt fd }
      else placed
    closes := closed.2
    result := () }

/--
`close_file_fd`: the reference to hand to `real_close`, if no other number of
this table refers to it.  The source returns its `real_fd`.
-/
def closeFileFd (table : VfdTable) (fd : Nat) :
    VfdTable × Option FileRef :=
  match table.fds.lookup fd with
  | some (.file ref) =>
      let fds := table.fds.erase fd
      ({ table with fds := fds },
        if (values fds).any fun other => other.fileArc == some ref.arc then
          none
        else some ref)
  | _ => (table, none)

/-- The closing loop of `close_cloexec`. -/
def closeFileFds (table : VfdTable) :
    List Nat → VfdTable × List FileRef
  | [] => (table, [])
  | fd :: rest =>
      let closed := table.closeFileFd fd
      let continued := closeFileFds closed.1 rest
      (continued.1, closed.2.toList ++ continued.2)

/-- The test of `close_cloexec`. -/
def isCloexec : Vfd → Bool
  | .file ref => ref.cloexec
  | _ => false

/-- `close_cloexec`. -/
def closeCloexec (table : VfdTable) : VfdTable × List FileRef :=
  table.closeFileFds
    ((table.fds.entries.filter fun entry => isCloexec entry.2).map
      Sigma.fst)

/-- `dup2`: the target is closed before the source is looked up. -/
def dup2 (table : VfdTable) (oldFd newFd : Nat) :
    Outcome (Except CInt Nat) :=
  let closed :=
    if newFd ∈ table.fds then
      ((table.close newFd).table, (table.close newFd).closes)
    else (table, [])
  match closed.1.fds.lookup oldFd with
  | some vfd =>
      { table := closed.1.put newFd vfd
        closes := closed.2
        result := .ok newFd }
  | none =>
      { table := closed.1, closes := closed.2, result := .error 9 }

/-- `dup`: a number is taken even if the source turns out not to be open. -/
def dup (table : VfdTable) (oldFd : Nat) : Outcome (Except CInt Nat) :=
  let alloc := table.allocFd
  alloc.1.dup2 oldFd alloc.2

/-- `create_pipe`, with the identity of the new buffer. -/
def createPipe (table : VfdTable) (buf : ArcId) :
    VfdTable × Nat × Nat :=
  let readAlloc := table.allocFd
  let writeAlloc := readAlloc.1.allocFd
  (((writeAlloc.1.put readAlloc.2 (.pipeRead buf)).put writeAlloc.2
      (.pipeWrite buf)),
    readAlloc.2, writeAlloc.2)

/-- `clone_for_fork`: the clone of an entry shares what it refers to. -/
def cloneForFork (table : VfdTable) : VfdTable where
  fds := table.fds
  nextFd := table.nextFd
  nextFd_lt := table.nextFd_lt

/-- The loop of `Drop`, with the buffers already seen. -/
def dropLoop : List ArcId → List Vfd → List ArcId
  | _, [] => []
  | seen, vfd :: rest =>
      match vfd.buffer with
      | none => dropLoop seen rest
      | some buf =>
          if buf ∈ seen then dropLoop seen rest
          else buf :: dropLoop (buf :: seen) rest

/-- `Drop`: every buffer the table refers to is closed. -/
def dropCloses (table : VfdTable) : List ArcId :=
  dropLoop [] (values table.fds)

/-! ## What the operations do to entries -/

@[simp]
theorem allocFd_fds (table : VfdTable) :
    table.allocFd.1.fds = table.fds :=
  rfl

theorem get_put (table : VfdTable) (fd number : Nat) (vfd : Vfd) :
    (table.put fd vfd).get number =
      if number = fd then some vfd else table.get number :=
  lookup_insert_eq table.fds fd number vfd

theorem get_newWithFds
    (stdin stdout stderr : CInt) (number : Nat) :
    (newWithFds stdin stdout stderr).get number =
      if number = 2 then some (.real stderr)
      else if number = 1 then some (.real stdout)
      else if number = 0 then some (.real stdin)
      else none := by
  simp only [newWithFds, get, lookup_insert_eq, AList.lookup_empty]

theorem get_insert (table : VfdTable) (vfd : Vfd) (number : Nat) :
    (table.insert vfd).1.get number =
      if number = table.nextFd then some vfd else table.get number :=
  get_put table.allocFd.1 table.nextFd number vfd

theorem get_insertFile
    (table : VfdTable) (arc : ArcId) (realFd : CInt) (cloexec : Bool)
    (number : Nat) :
    (table.insertFile arc realFd cloexec).1.get number =
      if number = table.nextFd then
        some (.file { arc, realFd, cloexec })
      else table.get number :=
  get_insert table _ number

theorem get_close (table : VfdTable) (fd number : Nat) :
    (table.close fd).table.get number =
      if number = fd then none else table.get number := by
  unfold close
  split
  · rename_i missing
    by_cases same : number = fd
    · subst number
      simpa [get] using missing
    · simp [same]
  · exact lookup_erase_eq table.fds fd number

/-- The buffers a `close` closes. -/
theorem mem_close_closes_iff
    (table : VfdTable) (fd : Nat) (buf : ArcId) :
    buf ∈ (table.close fd).closes ↔
      (∃ vfd, table.get fd = some vfd ∧ vfd.buffer = some buf) ∧
        ∀ number vfd, number ≠ fd → table.get number = some vfd →
          vfd.buffer ≠ some buf := by
  unfold close
  split
  · rename_i missing
    simp [get, missing]
  · rename_i vfd found
    have entryIff :
        (∃ entry, table.get fd = some entry ∧
            entry.buffer = some buf) ↔
          vfd.buffer = some buf := by
      simp [get, found]
    rw [entryIff]
    cases kind : vfd.buffer with
    | none => simp
    | some other =>
        have referencedIff :
            ((values (table.fds.erase fd)).any fun entry =>
                entry.buffer == some other) = true ↔
              ∃ number entry, number ≠ fd ∧
                table.get number = some entry ∧
                entry.buffer = some other := by
          rw [any_values_iff]
          simp only [lookup_erase_eq, beq_iff_eq, get]
          constructor
          · rintro ⟨number, entry, stored, same⟩
            by_cases atFd : number = fd
            · simp [atFd] at stored
            · simp only [atFd, if_false] at stored
              exact ⟨number, entry, atFd, stored, same⟩
          · rintro ⟨number, entry, atFd, stored, same⟩
            exact ⟨number, entry, by simp [atFd, stored], same⟩
        dsimp only
        split
        · rename_i referenced
          obtain ⟨number, entry, atFd, stored, same⟩ :=
            referencedIff.mp referenced
          simp only [List.not_mem_nil, Option.some.injEq, false_iff,
            not_and]
          rintro rfl alone
          exact alone number entry atFd stored same
        · rename_i unreferenced
          simp only [List.mem_singleton, Option.some.injEq]
          constructor
          · rintro rfl
            refine ⟨rfl, ?_⟩
            intro number entry atFd stored same
            exact unreferenced
              (referencedIff.mpr ⟨number, entry, atFd, stored, same⟩)
          · rintro ⟨rfl, _⟩
            rfl

/-- `close` of a number which is not open closes no buffer. -/
theorem close_closes_of_not_mem
    (table : VfdTable) {fd : Nat} (missing : fd ∉ table.fds) :
    (table.close fd).closes = [] := by
  have absent : table.fds.lookup fd = none :=
    AList.lookup_eq_none.mpr missing
  simp [close, absent]

theorem insertAt_closes (table : VfdTable) (fd : Nat) (vfd : Vfd) :
    (table.insertAt fd vfd).closes = (table.close fd).closes := by
  unfold insertAt
  by_cases present : fd ∈ table.fds
  · simp [present]
  · simp [present, close_closes_of_not_mem table present]

theorem get_insertAt
    (table : VfdTable) (fd number : Nat) (vfd : Vfd) :
    (table.insertAt fd vfd).table.get number =
      if number = fd then some vfd else table.get number := by
  have placed (base : VfdTable)
      (agree : ∀ other, other ≠ fd → base.get other = table.get other) :
      (base.put fd vfd).get number =
        if number = fd then some vfd else table.get number := by
    rw [get_put]
    by_cases same : number = fd
    · simp [same]
    · simp [same, agree number same]
  have entries :
      (table.insertAt fd vfd).table.get number =
        ((if fd ∈ table.fds then (table.close fd).table
          else table).put fd vfd).get number := by
    unfold insertAt
    dsimp only
    by_cases present : fd ∈ table.fds
    · simp only [present, if_true]
      split <;> rfl
    · simp only [present, if_false]
      split <;> rfl
  rw [entries]
  apply placed
  intro other different
  by_cases present : fd ∈ table.fds
  · simp [present, get_close, different]
  · simp [present]

theorem dup2_closes (table : VfdTable) (oldFd newFd : Nat) :
    (table.dup2 oldFd newFd).closes = (table.close newFd).closes := by
  unfold dup2
  dsimp only
  by_cases present : newFd ∈ table.fds
  · simp only [present, if_true]
    split <;> rfl
  · simp only [present, if_false]
    rw [close_closes_of_not_mem table present]
    split <;> rfl

/-- The table after removing `fd`, whether it was open or not. -/
theorem get_closeIfPresent (table : VfdTable) (fd number : Nat) :
    (if fd ∈ table.fds then (table.close fd).table else table).get
        number =
      if number = fd then none else table.get number := by
  by_cases present : fd ∈ table.fds
  · simp only [present, if_true, get_close]
  · simp only [present, if_false]
    by_cases same : number = fd
    · subst number
      simpa [get] using AList.lookup_eq_none.mpr present
    · simp [same]

/--
`dup2` clears its target first, so that a source equal to the target is gone
before it can be copied.
-/
theorem get_dup2 (table : VfdTable) (oldFd newFd number : Nat) :
    (table.dup2 oldFd newFd).table.get number =
      if number = newFd then
        (if oldFd = newFd then none else table.get oldFd)
      else table.get number := by
  have cleared (other : Nat) := get_closeIfPresent table newFd other
  have shape :
      (table.dup2 oldFd newFd).table =
        match
          (if newFd ∈ table.fds then (table.close newFd).table
            else table).get oldFd with
        | some vfd =>
            (if newFd ∈ table.fds then (table.close newFd).table
              else table).put newFd vfd
        | none =>
            if newFd ∈ table.fds then (table.close newFd).table
            else table := by
    unfold dup2 get
    dsimp only
    by_cases present : newFd ∈ table.fds
    · simp only [present, if_true]
      split <;> rfl
    · simp only [present, if_false]
      split <;> rfl
  rw [shape]
  have source := cleared oldFd
  split
  · rename_i vfd found
    rw [get_put, cleared]
    rw [source] at found
    by_cases same : number = newFd
    · simp [same, found]
    · simp [same]
  · rename_i missing
    rw [cleared]
    rw [source] at missing
    by_cases same : number = newFd
    · simp [same, missing]
    · simp [same]

theorem dup2_result (table : VfdTable) (oldFd newFd : Nat) :
    (table.dup2 oldFd newFd).result =
      if oldFd = newFd ∨ table.get oldFd = none then .error 9
      else .ok newFd := by
  have source := get_closeIfPresent table newFd oldFd
  unfold dup2
  dsimp only
  by_cases present : newFd ∈ table.fds
  · simp only [present, if_true] at source ⊢
    by_cases same : oldFd = newFd
    · subst newFd
      simp only [if_true, get] at source
      simp [source]
    · simp only [same, if_false] at source
      cases found : table.get oldFd with
      | none =>
          rw [found] at source
          simp only [get] at source
          simp [same, source]
      | some vfd =>
          rw [found] at source
          simp only [get] at source
          simp [same, source]
  · simp only [present, if_false] at source ⊢
    by_cases same : oldFd = newFd
    · subst newFd
      have missing : table.fds.lookup oldFd = none :=
        AList.lookup_eq_none.mpr present
      simp [missing]
    · cases found : table.get oldFd with
      | none =>
          simp only [get] at found
          simp [same, found]
      | some vfd =>
          simp only [get] at found
          simp [same, found]

theorem get_dup (table : VfdTable) (oldFd number : Nat) :
    (table.dup oldFd).table.get number =
      if number = table.nextFd then
        (if oldFd = table.nextFd then none else table.get oldFd)
      else table.get number :=
  get_dup2 table.allocFd.1 oldFd table.nextFd number

theorem dup_result (table : VfdTable) (oldFd : Nat) :
    (table.dup oldFd).result =
      if oldFd = table.nextFd ∨ table.get oldFd = none then .error 9
      else .ok table.nextFd :=
  dup2_result table.allocFd.1 oldFd table.nextFd

theorem dup_closes (table : VfdTable) (oldFd : Nat) :
    (table.dup oldFd).closes = (table.close table.nextFd).closes := by
  have closes := dup2_closes table.allocFd.1 oldFd table.nextFd
  have alike :
      (table.allocFd.1.close table.nextFd).closes =
        (table.close table.nextFd).closes := by
    unfold close
    rw [allocFd_fds]
    split <;> rfl
  exact closes.trans alike

theorem get_createPipe (table : VfdTable) (buf : ArcId) (number : Nat) :
    (table.createPipe buf).1.get number =
      if number = table.allocFd.1.nextFd then some (.pipeWrite buf)
      else if number = table.nextFd then some (.pipeRead buf)
      else table.get number := by
  unfold createPipe
  dsimp only
  rw [get_put, get_put]
  rfl

/-! ## Closing owned descriptors -/

theorem get_closeFileFd (table : VfdTable) (fd number : Nat) :
    (table.closeFileFd fd).1.get number =
      if number = fd then
        (table.get number).filter fun vfd => vfd.fileArc.isNone
      else table.get number := by
  by_cases same : number = fd
  · subst number
    simp only [if_true]
    unfold closeFileFd
    split
    · rename_i ref found
      have entry : table.get fd = some (.file ref) := found
      rw [entry]
      exact AList.lookup_erase fd table.fds
    · rename_i other
      cases found : table.get fd with
      | none => rfl
      | some vfd =>
          cases vfd with
          | file ref => exact (other ref found).elim
          | _ => rfl
  · simp only [same, if_false]
    unfold closeFileFd
    split
    · exact AList.lookup_erase_ne same
    · rfl

/-- `close_file_fd` takes away nothing but its own number. -/
theorem get_of_get_closeFileFd
    (table : VfdTable) (fd : Nat) {number : Nat} {vfd : Vfd}
    (kept : (table.closeFileFd fd).1.get number = some vfd) :
    table.get number = some vfd ∧
      (number = fd → vfd.fileArc = none) := by
  rw [get_closeFileFd] at kept
  by_cases same : number = fd
  · simp only [same, if_true, Option.filter_eq_some_iff,
      Option.isNone_iff_eq_none] at kept ⊢
    exact ⟨kept.1, fun _ => kept.2⟩
  · simp only [same, if_false] at kept
    exact ⟨kept, fun equal => (same equal).elim⟩

/-- `close_file_fd` hands out the reference with its table's last number. -/
theorem closeFileFd_eq_some_iff
    (table : VfdTable) (fd : Nat) (ref : FileRef) :
    (table.closeFileFd fd).2 = some ref ↔
      table.get fd = some (.file ref) ∧
        ∀ number vfd, number ≠ fd → table.get number = some vfd →
          vfd.fileArc ≠ some ref.arc := by
  unfold closeFileFd
  split
  · rename_i stored found
    have entry : table.get fd = some (.file stored) := found
    have referencedIff :
        ((values (table.fds.erase fd)).any fun other =>
            other.fileArc == some stored.arc) = true ↔
          ∃ number vfd, number ≠ fd ∧ table.get number = some vfd ∧
            vfd.fileArc = some stored.arc := by
      rw [any_values_iff]
      simp only [lookup_erase_eq, beq_iff_eq, get]
      constructor
      · rintro ⟨number, vfd, kept, same⟩
        by_cases atFd : number = fd
        · simp [atFd] at kept
        · simp only [atFd, if_false] at kept
          exact ⟨number, vfd, atFd, kept, same⟩
      · rintro ⟨number, vfd, atFd, kept, same⟩
        exact ⟨number, vfd, by simp [atFd, kept], same⟩
    dsimp only
    rw [entry]
    split
    · rename_i referenced
      obtain ⟨number, vfd, atFd, kept, same⟩ :=
        referencedIff.mp referenced
      simp only [reduceCtorEq, Option.some.injEq, Vfd.file.injEq,
        false_iff, not_and]
      rintro rfl alone
      exact alone number vfd atFd kept same
    · rename_i unreferenced
      simp only [Option.some.injEq, Vfd.file.injEq]
      constructor
      · rintro rfl
        refine ⟨rfl, ?_⟩
        intro number vfd atFd kept same
        exact unreferenced
          (referencedIff.mpr ⟨number, vfd, atFd, kept, same⟩)
      · rintro ⟨rfl, _⟩
        rfl
  · rename_i other
    constructor
    · intro impossible
      cases impossible
    · rintro ⟨found, _⟩
      exact (other ref found).elim

/-- Closing owned numbers only takes entries away. -/
theorem closeFileFd_of_not_file
    {table : VfdTable} {number : Nat}
    (notFile : ∀ ref, table.get number ≠ some (.file ref)) :
    (table.closeFileFd number).2 = none := by
  cases closed : (table.closeFileFd number).2 with
  | none => rfl
  | some ref =>
      have stored :=
        ((closeFileFd_eq_some_iff _ _ ref).mp closed).1
      exact (notFile ref stored).elim

theorem get_of_get_closeFileFds
    (fds : List Nat) (table : VfdTable) {number : Nat} {vfd : Vfd}
    (kept : (table.closeFileFds fds).1.get number = some vfd) :
    table.get number = some vfd := by
  induction fds generalizing table with
  | nil => exact kept
  | cons fd rest induction =>
      have before := induction (table.closeFileFd fd).1 kept
      exact (get_of_get_closeFileFd table fd before).1

theorem get_closeFileFds
    (fds : List Nat) (table : VfdTable) (number : Nat) :
    (table.closeFileFds fds).1.get number =
      if number ∈ fds then
        (table.get number).filter fun vfd => vfd.fileArc.isNone
      else table.get number := by
  induction fds generalizing table with
  | nil => simp [closeFileFds]
  | cons fd rest induction =>
      simp only [closeFileFds]
      rw [induction, get_closeFileFd]
      by_cases same : number = fd
      · subst number
        by_cases again : fd ∈ rest
        · simp [again, Option.filter_filter]
        · simp [again]
      · simp [same]

/-- Every reference handed out was in the table, under a listed number. -/
theorem exists_of_mem_closeFileFds
    (fds : List Nat) (table : VfdTable) {ref : FileRef}
    (handed : ref ∈ (table.closeFileFds fds).2) :
    ∃ number ∈ fds, table.get number = some (.file ref) := by
  induction fds generalizing table with
  | nil => cases handed
  | cons fd rest induction =>
      rcases List.mem_append.mp handed with first | later
      · have closed : (table.closeFileFd fd).2 = some ref :=
          Option.mem_toList.mp first
        exact ⟨fd, by simp,
          ((closeFileFd_eq_some_iff table fd ref).mp closed).1⟩
      · obtain ⟨number, member, found⟩ :=
          induction (table.closeFileFd fd).1 later
        exact ⟨number, List.mem_cons_of_mem _ member,
          (get_of_get_closeFileFd table fd found).1⟩

/-- A handed-out reference has no number left in the table. -/
theorem closeFileFds_unreferenced
    (fds : List Nat) (table : VfdTable) {ref : FileRef}
    (handed : ref ∈ (table.closeFileFds fds).2)
    {number : Nat} {vfd : Vfd}
    (kept : (table.closeFileFds fds).1.get number = some vfd) :
    vfd.fileArc ≠ some ref.arc := by
  induction fds generalizing table with
  | nil => cases handed
  | cons fd rest induction =>
      rcases List.mem_append.mp handed with first | later
      · have closed : (table.closeFileFd fd).2 = some ref :=
          Option.mem_toList.mp first
        obtain ⟨stored, alone⟩ :=
          (closeFileFd_eq_some_iff table fd ref).mp closed
        have before :=
          get_of_get_closeFileFds rest (table.closeFileFd fd).1 kept
        obtain ⟨entry, atFd⟩ := get_of_get_closeFileFd table fd before
        by_cases same : number = fd
        · simp [atFd same]
        · exact alone number vfd same entry
      · exact induction (table.closeFileFd fd).1 later kept

/-- No reference is handed out twice by one loop. -/
theorem closeFileFds_nodup (fds : List Nat) (table : VfdTable) :
    ((table.closeFileFds fds).2.map FileRef.arc).Nodup := by
  induction fds generalizing table with
  | nil => exact List.nodup_nil
  | cons fd rest induction =>
      have tail := induction (table.closeFileFd fd).1
      simp only [closeFileFds]
      cases closed : (table.closeFileFd fd).2 with
      | none => simpa using tail
      | some ref =>
          simp only [Option.toList_some, List.singleton_append,
            List.map_cons, List.nodup_cons]
          refine ⟨?_, tail⟩
          intro again
          obtain ⟨other, member, same⟩ := List.mem_map.mp again
          obtain ⟨number, _, found⟩ :=
            exists_of_mem_closeFileFds rest _ member
          obtain ⟨stored, alone⟩ :=
            (closeFileFd_eq_some_iff table fd ref).mp closed
          obtain ⟨entry, atFd⟩ := get_of_get_closeFileFd table fd found
          by_cases here : number = fd
          · exact absurd (atFd here) (by simp [Vfd.fileArc])
          · exact alone number _ here entry (by simp [Vfd.fileArc, same])

/-- `close_cloexec` removes the close-on-exec numbers and no others. -/
theorem get_closeCloexec (table : VfdTable) (number : Nat) :
    table.closeCloexec.1.get number =
      (table.get number).filter fun vfd => !isCloexec vfd := by
  have listedIff :
      number ∈ (table.fds.entries.filter
            fun entry => isCloexec entry.2).map Sigma.fst ↔
        ∃ vfd, table.get number = some vfd ∧ isCloexec vfd = true := by
    simp only [List.mem_map, List.mem_filter, get]
    constructor
    · rintro ⟨⟨key, vfd⟩, ⟨member, marked⟩, rfl⟩
      exact ⟨vfd, mem_entries_iff.mp member, marked⟩
    · rintro ⟨vfd, found, marked⟩
      exact ⟨⟨number, vfd⟩, ⟨mem_entries_iff.mpr found, marked⟩, rfl⟩
  rw [closeCloexec, get_closeFileFds]
  cases found : table.get number with
  | none => simp
  | some vfd =>
      have listed :
          number ∈ (table.fds.entries.filter
                fun entry => isCloexec entry.2).map Sigma.fst ↔
            isCloexec vfd = true := by
        rw [listedIff, found]
        simp
      by_cases marked : isCloexec vfd = true
      · cases vfd with
        | file ref =>
            rw [if_pos (listed.mpr marked)]
            simp [Option.filter, marked, Vfd.fileArc]
        | _ => cases marked
      · rw [if_neg (fun member => marked (listed.mp member))]
        simp [Option.filter, marked]

theorem exists_of_mem_closeCloexec
    (table : VfdTable) {ref : FileRef}
    (handed : ref ∈ table.closeCloexec.2) :
    ∃ number, table.get number = some (.file ref) ∧
      ref.cloexec = true := by
  obtain ⟨number, listed, found⟩ :=
    exists_of_mem_closeFileFds _ table handed
  obtain ⟨⟨key, vfd⟩, member, rfl⟩ := List.mem_map.mp listed
  obtain ⟨stored, marked⟩ := List.mem_filter.mp member
  have same : table.get key = some vfd := mem_entries_iff.mp stored
  rw [found] at same
  cases same
  exact ⟨key, found, marked⟩

/-! ## Dropping a table -/

theorem mem_dropLoop_iff
    (vfds : List Vfd) (seen : List ArcId) (buf : ArcId) :
    buf ∈ dropLoop seen vfds ↔
      buf ∉ seen ∧ ∃ vfd ∈ vfds, vfd.buffer = some buf := by
  induction vfds generalizing seen with
  | nil => simp [dropLoop]
  | cons vfd rest induction =>
      unfold dropLoop
      cases kind : vfd.buffer with
      | none => simp [induction, kind]
      | some other =>
          dsimp only
          split
          · rename_i already
            rw [induction]
            constructor
            · rintro ⟨fresh, entry, member, same⟩
              exact ⟨fresh, entry, List.mem_cons_of_mem _ member, same⟩
            · rintro ⟨fresh, entry, member, same⟩
              rcases List.mem_cons.mp member with rfl | member
              · rw [kind] at same
                cases same
                exact (fresh already).elim
              · exact ⟨fresh, entry, member, same⟩
          · rename_i unseen
            rw [List.mem_cons, induction]
            constructor
            · rintro (rfl | ⟨fresh, entry, member, same⟩)
              · exact ⟨unseen, vfd, by simp, kind⟩
              · refine ⟨?_, entry, List.mem_cons_of_mem _ member, same⟩
                intro inSeen
                exact fresh (List.mem_cons_of_mem _ inSeen)
            · rintro ⟨fresh, entry, member, same⟩
              by_cases equal : buf = other
              · exact Or.inl equal
              · right
                refine ⟨by simp [equal, fresh], ?_⟩
                rcases List.mem_cons.mp member with rfl | member
                · rw [kind] at same
                  cases same
                  exact (equal rfl).elim
                · exact ⟨entry, member, same⟩

/-- Dropping a table closes exactly the buffers it refers to. -/
theorem mem_dropCloses_iff (table : VfdTable) (buf : ArcId) :
    buf ∈ table.dropCloses ↔
      ∃ number vfd, table.get number = some vfd ∧
        vfd.buffer = some buf := by
  simp only [dropCloses, mem_dropLoop_iff, List.not_mem_nil,
    not_false_eq_true, true_and, mem_values_iff, get]
  constructor
  · rintro ⟨vfd, ⟨number, found⟩, same⟩
    exact ⟨number, vfd, found, same⟩
  · rintro ⟨number, vfd, found, same⟩
    exact ⟨vfd, ⟨number, found⟩, same⟩

end VfdTable

end Vproc.Fd.Table
