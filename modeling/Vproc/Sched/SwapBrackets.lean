import Vproc.Fd.DescriptorIsolation
import Vproc.Sched.DriverLoop

/-!
# Several drivers and the numbers 0, 1 and 2

The driver of each session copies the kernel's numbers 0, 1 and 2 when it
starts.  Before it resumes a process it installs the process's descriptors
there with three calls of `raw_dup3`, and afterwards it puts its copies back
with three more.  The lock it holds is the one of its own session, and the
numbers belong to the whole host process.

So the brackets of two drivers may interleave, and a driver may start inside
the bracket of another one.  If neither happens, a process finds its own
descriptors, and the host its own between the brackets.  Every call of `dup`
and `raw_dup3` is one step here; a driver which resumes a process without
swapping does not touch the numbers and takes no step.
-/

namespace Vproc.Sched.SwapBrackets

open Vproc.Lib.Run
open Vproc.Fd.Table
open Vproc.Fd.KernelTable
open Vproc.Fd.Runtime
open Vproc.Fd.DescriptorIsolation
open Vproc.Sched.DriverLoop

/-! ## One call -/

/-- `raw_dup3` on the kernel table; a failure aborts. -/
def rawDup3 (kernel : Kernel) (oldFd newFd : CInt) : Option Kernel :=
  if oldFd < 0 ∨ oldFd = newFd then some kernel
  else
    let dupped := kernel.dup2 oldFd newFd
    if dupped.2 < 0 then none else some dupped.1

/-- It is the one of the descriptor world. -/
theorem rawDup3_eq (world : World) (oldFd newFd : CInt) :
    rawDup3 world.kernel oldFd newFd =
      if (world.rawDup3 oldFd newFd).2 < 0 then none
      else some (world.rawDup3 oldFd newFd).1.kernel := by
  unfold rawDup3 World.rawDup3
  split
  · rfl
  · rfl

/-- The descriptor for one of the three numbers. -/
def slotFd (fds : StdFds) : Nat → CInt
  | 0 => fds.1
  | 1 => fds.2.1
  | _ => fds.2.2

/-- Only the target changes, and gets the file of the source. -/
theorem files_rawDup3
    {kernel next : Kernel} {oldFd newFd : CInt}
    (dupped : rawDup3 kernel oldFd newFd = some next) :
    (∀ number, number ≠ newFd → next.files number = kernel.files number) ∧
      (0 ≤ oldFd → next.files newFd = kernel.files oldFd) := by
  unfold rawDup3 at dupped
  split at dupped
  · rename_i skipped
    cases dupped
    refine ⟨fun _ _ => rfl, ?_⟩
    intro nonneg
    rcases skipped with negative | same
    · exact (not_lt.mpr nonneg negative).elim
    · rw [same]
  · dsimp only at dupped
    split at dupped
    · cases dupped
    · rename_i succeeds
      cases dupped
      rw [Kernel.dup2_neg_iff, not_not] at succeeds
      constructor
      · intro number other
        rw [files_dup2_granted succeeds, if_neg other]
      · intro _
        rw [files_dup2_granted succeeds, if_pos rfl]

/-! ## Drivers -/

/-- Where the driver of a session is. -/
inductive Phase where
  | starting (saved : List CInt)
  | idle (saved : StdFds)
  | installing (saved fds : StdFds) (done : Nat)
  | resumed (saved fds : StdFds)
  | restoring (saved : StdFds) (done : Nat)
deriving DecidableEq, Repr

/-- The driver has called `raw_dup3` and has not put everything back. -/
def Phase.inBracket : Phase → Bool
  | .installing _ _ _ => true
  | .resumed _ _ => true
  | .restoring _ _ => true
  | _ => false

/-- The copy of one of the three numbers, once it is made. -/
def Phase.saved? : Phase → Nat → Option CInt
  | .starting saved, slot => saved[slot]?
  | .idle saved, slot => some (slotFd saved slot)
  | .installing saved _ _, slot => some (slotFd saved slot)
  | .resumed saved _, slot => some (slotFd saved slot)
  | .restoring saved _, slot => some (slotFd saved slot)

/-- The kernel table of the host process, and the drivers of its sessions. -/
structure Brackets (Session : Type) where
  kernel : Kernel
  phase : Session → Phase

/-- A step of a driver. -/
inductive SwapOp (Session : Type) where
  | save (session : Session) (answer : CInt)
  | begin (session : Session) (fds : StdFds)
  | install (session : Session)
  | yield (session : Session)
  | restore (session : Session)
deriving DecidableEq, Repr

/-- What `saved_fds` gets; the number itself if `dup` fails. -/
def savedFd (slot : Nat) (reply : CInt) : CInt :=
  if 0 ≤ reply then reply else slot

/-- With three copies the driver has started. -/
def started : List CInt → Phase
  | [fd0, fd1, fd2] => .idle (fd0, fd1, fd2)
  | saved => .starting saved

namespace Brackets

variable {Session : Type}

/-- A host process with no driver. -/
def init (kernel : Kernel) : Brackets Session where
  kernel := kernel
  phase := fun _ => .starting []

variable [DecidableEq Session]

/-- A driver goes on, with a changed kernel table. -/
def goOn (state : Brackets Session) (session : Session) (kernel : Kernel)
    (phase : Phase) : Brackets Session where
  kernel := kernel
  phase := Function.update state.phase session phase

/-- One step of one driver. -/
def step (state : Brackets Session) :
    SwapOp Session → Option (Brackets Session)
  | .save session answer =>
      match state.phase session with
      | .starting saved =>
          let dupped := state.kernel.dup saved.length answer
          some
            (state.goOn session dupped.1
              (started (saved ++ [savedFd saved.length dupped.2])))
      | _ => none
  | .begin session fds =>
      match state.phase session with
      | .idle saved =>
          (rawDup3 state.kernel (slotFd fds 0) 0).map fun kernel =>
            state.goOn session kernel (.installing saved fds 1)
      | _ => none
  | .install session =>
      match state.phase session with
      | .installing saved fds done =>
          (rawDup3 state.kernel (slotFd fds done) done).map fun kernel =>
            state.goOn session kernel
              (if done + 1 = 3 then .resumed saved fds
                else .installing saved fds (done + 1))
      | _ => none
  | .yield session =>
      match state.phase session with
      | .resumed saved _ =>
          some (state.goOn session state.kernel (.restoring saved 0))
      | _ => none
  | .restore session =>
      match state.phase session with
      | .restoring saved done =>
          (rawDup3 state.kernel (slotFd saved done) done).map fun kernel =>
            state.goOn session kernel
              (if done + 1 = 3 then .idle saved
                else .restoring saved (done + 1))
      | _ => none

end Brackets

/-- A process with descriptors from 3 on finds them at 0, 1 and 2. -/
def FindsItsOwn (kernel : Kernel) : Phase → Prop
  | .resumed _ fds =>
      (∀ slot < 3, 3 ≤ slotFd fds slot) →
        ∀ slot < 3, kernel.files (slot : Nat) =
          kernel.files (slotFd fds slot)
  | _ => True

/--
Every process which runs finds its own descriptors, and while no driver is in
a bracket the host has its own ones.
-/
def Separate {Session : Type} (host : CInt → Option OpenFile)
    (state : Brackets Session) : Prop :=
  (∀ session, FindsItsOwn state.kernel (state.phase session)) ∧
    ((∀ session, (state.phase session).inBracket = false) →
      ∀ slot < 3, state.kernel.files (slot : Nat) = host (slot : Nat))

/-- The number which is copied next is open. -/
def CopiesOpen (kernel : Kernel) : Phase → Prop
  | .starting saved => (kernel.files saved.length).isSome = true
  | _ => True

/--
No other driver is in a bracket when one copies a number or begins a bracket,
and the copies succeed with numbers from 3 on.
-/
def Alone {Session : Type} (state : Brackets Session) :
    SwapOp Session → Prop
  | .save session answer =>
      (∀ other, (state.phase other).inBracket = false) ∧
        CopiesOpen state.kernel (state.phase session) ∧
        state.kernel.usable answer = true ∧ 3 ≤ answer
  | .begin _ _ => ∀ other, (state.phase other).inBracket = false
  | _ => True

section Decidable

variable {Session : Type} [Fintype Session]

instance (kernel : Kernel) (phase : Phase) :
    Decidable (FindsItsOwn kernel phase) :=
  match phase with
  | .resumed _ _ => inferInstanceAs (Decidable (_ → _))
  | .starting _ => inferInstanceAs (Decidable True)
  | .idle _ => inferInstanceAs (Decidable True)
  | .installing _ _ _ => inferInstanceAs (Decidable True)
  | .restoring _ _ => inferInstanceAs (Decidable True)

instance (host : CInt → Option OpenFile) (state : Brackets Session) :
    Decidable (Separate host state) :=
  inferInstanceAs (Decidable (_ ∧ (_ → _)))

instance (kernel : Kernel) (phase : Phase) :
    Decidable (CopiesOpen kernel phase) :=
  match phase with
  | .starting _ => inferInstanceAs (Decidable (_ = true))
  | .idle _ => inferInstanceAs (Decidable True)
  | .installing _ _ _ => inferInstanceAs (Decidable True)
  | .resumed _ _ => inferInstanceAs (Decidable True)
  | .restoring _ _ => inferInstanceAs (Decidable True)

instance (state : Brackets Session) (op : SwapOp Session) :
    Decidable (Alone state op) :=
  match op with
  | .save _ _ => inferInstanceAs (Decidable (_ ∧ _ ∧ _ ∧ _))
  | .begin _ _ => inferInstanceAs (Decidable (∀ _ : Session, _))
  | .install _ => inferInstanceAs (Decidable True)
  | .yield _ => inferInstanceAs (Decidable True)
  | .restore _ => inferInstanceAs (Decidable True)

end Decidable

/-! ## The invariant -/

section Invariant

variable {Session : Type}

/-- A driver's copy of a number still leads to the host's file. -/
def CopiesKept (host : CInt → Option OpenFile) (kernel : Kernel)
    (phase : Phase) : Prop :=
  ∀ slot < 3, ∀ fd, phase.saved? slot = some fd →
    3 ≤ fd ∧ (kernel.files fd).isSome = true ∧
      kernel.files fd = host (slot : Nat)

/-- How far a driver has come in its bracket. -/
def Progress (host : CInt → Option OpenFile) (kernel : Kernel) :
    Phase → Prop
  | .installing _ fds done =>
      done < 3 ∧
        ((∀ slot < 3, 3 ≤ slotFd fds slot) →
          ∀ slot < done, kernel.files (slot : Nat) =
            kernel.files (slotFd fds slot))
  | .resumed _ fds =>
      (∀ slot < 3, 3 ≤ slotFd fds slot) →
        ∀ slot < 3, kernel.files (slot : Nat) =
          kernel.files (slotFd fds slot)
  | .restoring _ done =>
      done < 3 ∧
        ∀ slot < done, kernel.files (slot : Nat) = host (slot : Nat)
  | .starting saved => saved.length < 3
  | .idle _ => True

/-- At most one driver is in a bracket, and all of them are in order. -/
structure Orderly (host : CInt → Option OpenFile)
    (state : Brackets Session) : Prop where
  exclusive : ∀ first second, (state.phase first).inBracket = true →
    (state.phase second).inBracket = true → first = second
  copies : ∀ session, CopiesKept host state.kernel (state.phase session)
  progress : ∀ session, Progress host state.kernel (state.phase session)
  outside : (∀ session, (state.phase session).inBracket = false) →
    ∀ slot < 3, state.kernel.files (slot : Nat) = host (slot : Nat)

theorem separate_of_orderly
    {host : CInt → Option OpenFile} {state : Brackets Session}
    (orderly : Orderly host state) :
    Separate host state := by
  refine ⟨?_, orderly.outside⟩
  intro session
  have progress := orderly.progress session
  cases isPhase : state.phase session with
  | resumed saved fds =>
      rw [isPhase] at progress
      exact progress
  | _ => exact True.intro

theorem orderly_init (kernel : Kernel) :
    Orderly kernel.files (Brackets.init kernel : Brackets Session) where
  exclusive := fun _ _ inside _ => nomatch inside
  copies := fun _ _ _ _ copied => nomatch copied
  progress := fun _ => show 0 < 3 by decide
  outside := fun _ _ _ => rfl

theorem copiesKept_congr
    {host : CInt → Option OpenFile} {kernel next : Kernel} {phase : Phase}
    (kept : CopiesKept host kernel phase)
    (same : ∀ fd, 3 ≤ fd → (kernel.files fd).isSome = true →
      next.files fd = kernel.files fd) :
    CopiesKept host next phase := by
  intro slot inRange fd copied
  obtain ⟨fromThree, isOpen, isHost⟩ := kept slot inRange fd copied
  rw [same fd fromThree isOpen]
  exact ⟨fromThree, isOpen, isHost⟩

theorem progress_of_outside
    {host : CInt → Option OpenFile} {kernel next : Kernel} {phase : Phase}
    (notInside : phase.inBracket = false)
    (progress : Progress host kernel phase) :
    Progress host next phase := by
  cases phase with
  | starting saved => exact progress
  | idle saved => exact True.intro
  | installing saved fds done => cases notInside
  | resumed saved fds => cases notInside
  | restoring saved done => cases notInside

/-- A driver which starts, or has just started. -/
theorem started_cases
    (host : CInt → Option OpenFile) (kernel : Kernel) {saved : List CInt}
    (few : saved.length ≤ 3) :
    (started saved).inBracket = false ∧
      (∀ slot < 3, (started saved).saved? slot = saved[slot]?) ∧
      Progress host kernel (started saved) := by
  unfold started
  split
  · refine ⟨rfl, ?_, True.intro⟩
    intro slot inRange
    rcases slot with _ | _ | _ | slot
    · rfl
    · rfl
    · rfl
    · omega
  · rename_i notThree
    refine ⟨rfl, fun _ _ => rfl, ?_⟩
    refine lt_of_le_of_ne few ?_
    intro isThree
    obtain ⟨fd0, fd1, fd2, rfl⟩ := List.length_eq_three.mp isThree
    exact notThree fd0 fd1 fd2 rfl

variable {host : CInt → Option OpenFile} {state : Brackets Session}

/-- The others are outside while one is in a bracket. -/
theorem others_outside
    (orderly : Orderly host state) {session : Session}
    (inside : (state.phase session).inBracket = true) :
    ∀ other, other ≠ session →
      (state.phase other).inBracket = false := by
  intro other different
  cases isInside : (state.phase other).inBracket with
  | false => rfl
  | true =>
      exact (different (orderly.exclusive other session isInside inside)).elim

variable [DecidableEq Session]

/--
A driver goes on while no other one is in a bracket.  What is left to show is
about this driver.
-/
theorem orderly_goOn
    (orderly : Orderly host state) {session : Session} {kernel : Kernel}
    {phase : Phase}
    (alone : ∀ other, other ≠ session →
      (state.phase other).inBracket = false)
    (same : ∀ fd, 3 ≤ fd → (state.kernel.files fd).isSome = true →
      kernel.files fd = state.kernel.files fd)
    (copies : CopiesKept host kernel phase)
    (progress : Progress host kernel phase)
    (outside : phase.inBracket = false →
      ∀ slot < 3, kernel.files (slot : Nat) = host (slot : Nat)) :
    Orderly host (state.goOn session kernel phase) := by
  have phases (other : Session) :
      (state.goOn session kernel phase).phase other =
        if other = session then phase else state.phase other :=
    Function.update_apply _ _ _ _
  refine ⟨?_, ?_, ?_, ?_⟩
  · intro first second isFirst isSecond
    have only (other : Session)
        (inside : ((state.goOn session kernel phase).phase
          other).inBracket = true) :
        other = session := by
      by_contra different
      rw [phases, if_neg different, alone other different] at inside
      cases inside
    exact (only first isFirst).trans (only second isSecond).symm
  · intro other
    rw [phases]
    split
    · exact copies
    · exact copiesKept_congr (orderly.copies other) same
  · intro other
    rw [phases]
    split
    · exact progress
    · rename_i different
      exact
        progress_of_outside (alone other different)
          (orderly.progress other)
  · intro nobody
    have notInside := nobody session
    rw [phases, if_pos rfl] at notInside
    exact outside notInside

theorem files_from_three
    {kernel next : Kernel} {oldFd : CInt} {slot : Nat} (inRange : slot < 3)
    (dupped : rawDup3 kernel oldFd slot = some next) :
    ∀ fd, 3 ≤ fd → next.files fd = kernel.files fd := by
  intro fd fromThree
  refine (files_rawDup3 dupped).1 fd ?_
  rintro rfl
  have small : (slot : Int) < 3 := by exact_mod_cast inRange
  exact (not_lt.mpr fromThree) small

/-- The numbers below a slot are not touched. -/
theorem files_below
    {kernel next : Kernel} {oldFd : CInt} {slot other : Nat}
    (below : other < slot)
    (dupped : rawDup3 kernel oldFd slot = some next) :
    next.files (other : Nat) = kernel.files (other : Nat) := by
  refine (files_rawDup3 dupped).1 other ?_
  exact_mod_cast below.ne

/-- One more of the three numbers is installed. -/
theorem installed_step
    {kernel next : Kernel} {fds : StdFds} {done : Nat} (inRange : done < 3)
    (dupped : rawDup3 kernel (slotFd fds done) done = some next)
    (fromThree : ∀ slot < 3, 3 ≤ slotFd fds slot)
    (before : ∀ slot < done, kernel.files (slot : Nat) =
      kernel.files (slotFd fds slot)) :
    ∀ slot < done + 1, next.files (slot : Nat) =
      next.files (slotFd fds slot) := by
  intro slot below
  have source : next.files (slotFd fds slot) =
      kernel.files (slotFd fds slot) :=
    files_from_three inRange dupped _ (fromThree slot (by omega))
  rw [source]
  rcases Nat.lt_succ_iff_lt_or_eq.mp below with earlier | rfl
  · rw [files_below earlier dupped, before slot earlier]
  · refine (files_rawDup3 dupped).2 ?_
    exact le_trans (by decide) (fromThree slot inRange)

theorem orderly_install
    {session : Session} {next : Brackets Session}
    (orderly : Orderly host state)
    (stepped : state.step (.install session) = some next) :
    Orderly host next := by
  simp only [Brackets.step] at stepped
  split at stepped
  · rename_i saved fds done isPhase
    obtain ⟨kernel, dupped, rfl⟩ := Option.map_eq_some_iff.mp stepped
    have progress := orderly.progress session
    have copies := orderly.copies session
    rw [isPhase] at progress copies
    obtain ⟨inRange, before⟩ := progress
    have same : ∀ fd, 3 ≤ fd →
        (state.kernel.files fd).isSome = true →
          kernel.files fd = state.kernel.files fd :=
      fun fd fromThree _ => files_from_three inRange dupped fd fromThree
    refine
      orderly_goOn orderly
        (others_outside orderly (by rw [isPhase]; rfl)) same ?_ ?_ ?_
    · have kept := copiesKept_congr copies same
      split
      · exact kept
      · exact kept
    · split
      · rename_i last
        intro fromThree
        rw [← last]
        exact installed_step inRange dupped fromThree (before fromThree)
      · rename_i notLast
        refine ⟨by omega, ?_⟩
        intro fromThree
        exact installed_step inRange dupped fromThree (before fromThree)
    · split
      · exact nofun
      · exact nofun
  · cases stepped

theorem orderly_begin
    {session : Session} {fds : StdFds} {next : Brackets Session}
    (orderly : Orderly host state)
    (stepped : state.step (.begin session fds) = some next)
    (alone : ∀ other, (state.phase other).inBracket = false) :
    Orderly host next := by
  simp only [Brackets.step] at stepped
  split at stepped
  · rename_i saved isPhase
    obtain ⟨kernel, dupped, rfl⟩ := Option.map_eq_some_iff.mp stepped
    have copies := orderly.copies session
    rw [isPhase] at copies
    have inRange : 0 < 3 := by decide
    have same : ∀ fd, 3 ≤ fd →
        (state.kernel.files fd).isSome = true →
          kernel.files fd = state.kernel.files fd :=
      fun fd fromThree _ => files_from_three inRange dupped fd fromThree
    refine orderly_goOn orderly (fun other _ => alone other) same ?_ ?_ ?_
    · exact copiesKept_congr copies same
    · refine ⟨by decide, ?_⟩
      intro fromThree
      exact installed_step inRange dupped fromThree nofun
    · exact nofun
  · cases stepped

theorem orderly_yield
    {session : Session} {next : Brackets Session}
    (orderly : Orderly host state)
    (stepped : state.step (.yield session) = some next) :
    Orderly host next := by
  simp only [Brackets.step] at stepped
  split at stepped
  · rename_i saved fds isPhase
    cases stepped
    have copies := orderly.copies session
    rw [isPhase] at copies
    refine
      orderly_goOn orderly
        (others_outside orderly (by rw [isPhase]; rfl))
        (fun _ _ _ => rfl) copies ?_ nofun
    exact ⟨by decide, nofun⟩
  · cases stepped

theorem orderly_restore
    {session : Session} {next : Brackets Session}
    (orderly : Orderly host state)
    (stepped : state.step (.restore session) = some next) :
    Orderly host next := by
  simp only [Brackets.step] at stepped
  split at stepped
  · rename_i saved done isPhase
    obtain ⟨kernel, dupped, rfl⟩ := Option.map_eq_some_iff.mp stepped
    have progress := orderly.progress session
    have copies := orderly.copies session
    rw [isPhase] at progress copies
    obtain ⟨inRange, before⟩ := progress
    have same : ∀ fd, 3 ≤ fd →
        (state.kernel.files fd).isSome = true →
          kernel.files fd = state.kernel.files fd :=
      fun fd fromThree _ => files_from_three inRange dupped fd fromThree
    have after : ∀ slot < done + 1,
        kernel.files (slot : Nat) = host (slot : Nat) := by
      intro slot below
      rcases Nat.lt_succ_iff_lt_or_eq.mp below with earlier | rfl
      · rw [files_below earlier dupped, before slot earlier]
      · obtain ⟨fromThree, _, isHost⟩ := copies slot inRange _ rfl
        rw [← isHost]
        exact (files_rawDup3 dupped).2 (le_trans (by decide) fromThree)
    refine
      orderly_goOn orderly
        (others_outside orderly (by rw [isPhase]; rfl)) same ?_ ?_ ?_
    · have kept := copiesKept_congr copies same
      split
      · exact kept
      · exact kept
    · split
      · exact True.intro
      · exact ⟨by omega, after⟩
    · split
      · rename_i last
        rw [last] at after
        exact fun _ => after
      · exact nofun
  · cases stepped

theorem orderly_save
    {session : Session} {answer : CInt} {next : Brackets Session}
    (orderly : Orderly host state)
    (stepped : state.step (.save session answer) = some next)
    (alone : Alone state (.save session answer)) :
    Orderly host next := by
  simp only [Brackets.step] at stepped
  split at stepped
  · rename_i saved isPhase
    cases stepped
    obtain ⟨nobody, copied, usable, fromThree⟩ := alone
    rw [isPhase] at copied
    obtain ⟨file, isFile⟩ := Option.isSome_iff_exists.mp copied
    have few : saved.length < 3 := by
      have progress := orderly.progress session
      rw [isPhase] at progress
      exact progress
    have dupped : state.kernel.dup saved.length answer =
        (state.kernel.assign answer file, answer) := by
      simp [Kernel.dup, isFile, usable]
    have nonneg : 0 ≤ answer := le_trans (by decide) fromThree
    rw [dupped, savedFd, if_pos nonneg]
    have free := ((Kernel.usable_iff _ _).mp usable).2
    have same : ∀ fd, 3 ≤ fd →
        (state.kernel.files fd).isSome = true →
          (state.kernel.assign answer file).files fd =
            state.kernel.files fd := by
      intro fd _ isOpen
      rw [Kernel.files_assign, if_neg]
      rintro rfl
      rw [free] at isOpen
      cases isOpen
    have outside : ∀ slot < 3,
        (state.kernel.assign answer file).files (slot : Nat) =
          host (slot : Nat) := by
      intro slot inRange
      rw [Kernel.files_assign, if_neg]
      · exact orderly.outside nobody slot inRange
      · rintro rfl
        have small : (slot : Int) < 3 := by exact_mod_cast inRange
        exact (not_lt.mpr fromThree) small
    obtain ⟨notInside, copies, progress⟩ :=
      started_cases host (state.kernel.assign answer file)
        (show (saved ++ [answer]).length ≤ 3 by simpa using few)
    refine
      orderly_goOn orderly (fun other _ => nobody other) same ?_ progress
        (fun _ => outside)
    intro slot inRange fd isCopy
    rw [copies slot inRange] at isCopy
    by_cases new : slot < saved.length
    · rw [List.getElem?_append_left new] at isCopy
      have kept := orderly.copies session
      rw [isPhase] at kept
      exact copiesKept_congr kept same slot inRange fd isCopy
    · rw [List.getElem?_append_right (not_lt.mp new)] at isCopy
      have last : slot = saved.length := by
        by_contra different
        have beyond : slot - saved.length ≠ 0 := by omega
        cases distance : slot - saved.length with
        | zero => exact beyond distance
        | succ more => simp [distance] at isCopy
      subst last
      rw [Nat.sub_self] at isCopy
      cases isCopy
      rw [Kernel.files_assign, if_pos rfl, ← isFile]
      refine ⟨fromThree, ?_, orderly.outside nobody _ inRange⟩
      rw [isFile]
      rfl
  · cases stepped

theorem orderly_step
    (op : SwapOp Session) (next : Brackets Session)
    (orderly : Orderly host state) (stepped : state.step op = some next)
    (alone : Alone state op) :
    Orderly host next := by
  cases op with
  | save session answer => exact orderly_save orderly stepped alone
  | begin session fds => exact orderly_begin orderly stepped alone
  | install session => exact orderly_install orderly stepped
  | yield session => exact orderly_yield orderly stepped
  | restore session => exact orderly_restore orderly stepped

end Invariant

/--
In every interleaving in which a driver copies the numbers and begins its
brackets only while no other one is in a bracket, no two drivers mix up the
standard descriptors.
-/
theorem std_fds_separate
    {Session : Type} [DecidableEq Session] (kernel : Kernel)
    (ops : List (SwapOp Session))
    (alone : Along Brackets.step (fun state op _ => Alone state op)
      (Brackets.init kernel) ops) :
    Along Brackets.step (fun _ _ next => Separate kernel.files next)
      (Brackets.init kernel) ops :=
  along_mono
    (fun _ op next orderly stepped alone =>
      orderly_step op next orderly stepped alone)
    (fun _ op next orderly stepped alone =>
      separate_of_orderly (orderly_step op next orderly stepped alone))
    (orderly_init kernel) alone

/-- Twenty descriptors of different files. -/
def twentyFiles : Kernel where
  files := fun fd => if 0 ≤ fd ∧ fd < 20 then some fd.toNat else none
  nextFile := 20
  openMax := 1024

/-- Both drivers start, one after the other. -/
def bothStart : List (SwapOp Bool) :=
  [.save true 20, .save true 21, .save true 22, .save false 23,
    .save false 24, .save false 25]

/-- A whole bracket of one driver. -/
def bracket (session : Bool) (fds : StdFds) : List (SwapOp Bool) :=
  [.begin session fds, .install session, .install session, .yield session,
    .restore session, .restore session, .restore session]

/-- Brackets one after the other, with a descriptor in common. -/
theorem std_fds_separate_in_turn :
    Along Brackets.step (fun _ _ next => Separate twentyFiles.files next)
      (Brackets.init twentyFiles : Brackets Bool)
      (bothStart ++ bracket true (5, 6, 7) ++ bracket false (7, 8, 9)) :=
  std_fds_separate twentyFiles _ (by decide)

/-- The second driver begins its bracket inside the one of the first. -/
theorem std_fds_mixed_up :
    ¬ ∀ (kernel : Kernel) (ops : List (SwapOp Bool)),
      Along Brackets.step (fun _ _ next => Separate kernel.files next)
        (Brackets.init kernel) ops := by
  intro always
  have holds :=
    always twentyFiles
      (bothStart ++
        [.begin true (5, 6, 7), .install true, .install true,
          .begin false (7, 8, 9)])
  revert holds
  decide

end Vproc.Sched.SwapBrackets
