import Vproc.Fd.Runtime

/-!
# One turn of the loop of `poll`

`poll` looks at its descriptors one after the other.  A pipe of the process
tells from its buffer whether it is ready; any other descriptor is shown to the
kernel's `poll` without waiting, and is waited for if that reports nothing.
The call returns when it has found a descriptor ready, or found none and has a
timeout of zero; otherwise the coroutine parks and looks again when it is
resumed.  It counts the ready descriptors with 32 bits.

An array without entries is handed to the kernel as it is.
-/

namespace Vproc.Fd.Poll

open Vproc.Fd.PipeRing
open Vproc.Fd.Table
open Vproc.Fd.Runtime

/-- The bits of a C `short`. -/
abbrev Events := BitVec 16

/-- `POLLIN`. -/
def pollIn : Events := 1

/-- `POLLPRI`. -/
def pollPri : Events := 2

/-- `POLLOUT`. -/
def pollOut : Events := 4

/-- `POLLERR`. -/
def pollErr : Events := 8

/-- `POLLHUP`. -/
def pollHup : Events := 16

/-- `POLLNVAL`. -/
def pollNval : Events := 32

/-- `events & mask != 0`. -/
def has (events mask : Events) : Bool :=
  events &&& mask != 0

/-- `pollfd`, without its result. -/
structure PollFd where
  fd : CInt
  events : Events
deriving DecidableEq

/--
The kernel's `poll` of one descriptor, at one moment.  Of the conditions which
can be asked for it reports those which were; errors and hang-ups it reports
in any case.
-/
structure KernelPoll where
  answer : CInt → Events → Events
  asked :
    ∀ fd events, ∀ mask ∈ [pollIn, pollPri, pollOut],
      has (answer fd events) mask = true → has events mask = true

/-- A kernel in which nothing is ready. -/
def KernelPoll.silent : KernelPoll where
  answer := fun _ _ => 0
  asked := by simp [has]

/-- What `poll` finds at one descriptor: its `revents`, or what to wait for. -/
structure Found where
  revents : Events
  waits : Option PollFd

/-- `real_poll(&mut check, 1, 0)`. -/
def askKernel (kernel : KernelPoll) (realFd : CInt) (events : Events) :
    Found :=
  let revents := kernel.answer realFd events
  { revents := revents
    waits :=
      if revents = 0 then some { fd := realFd, events := events }
      else none }

/-- The ready conditions of a read end. -/
def readEnd (pipe : PipeBuffer) (events : Events) : Events :=
  if has events pollIn && (!pipe.isEmpty || pipe.isClosed) then
    pollIn ||| (if pipe.isClosed then pollHup else 0)
  else 0

/-- The ready conditions of a write end. -/
def writeEnd (pipe : PipeBuffer) (events : Events) : Events :=
  if has events pollOut then
    (if pipe.isFull then 0 else pollOut) |||
      (if pipe.isClosed then pollErr else 0)
  else 0

/-- The body of the inner loop. -/
def look (world : World) (vpid : VPid) (kernel : KernelPoll)
    (pfd : PollFd) : Found :=
  match world.entry vpid (asU32 pfd.fd) with
  | some (.pipeRead buf) =>
      { revents := readEnd (world.pipes buf) pfd.events, waits := none }
  | some (.pipeWrite buf) =>
      { revents := writeEnd (world.pipes buf) pfd.events, waits := none }
  | some (.real realFd) => askKernel kernel realFd pfd.events
  | some (.file ref) => askKernel kernel ref.realFd pfd.events
  | none => askKernel kernel pfd.fd pfd.events

/-- The conditions reported for one descriptor. -/
def revents (world : World) (vpid : VPid) (kernel : KernelPoll)
    (pfd : PollFd) : Events :=
  (look world vpid kernel pfd).revents

/-- The number of ready descriptors. -/
def readyCount (world : World) (vpid : VPid) (kernel : KernelPoll)
    (fds : List PollFd) : Nat :=
  fds.countP fun pfd => revents world vpid kernel pfd != 0

/-- The count of the ready descriptors which the loop keeps. -/
def countReady (world : World) (vpid : VPid) (kernel : KernelPoll)
    (fds : List PollFd) : Int32 :=
  fds.foldl
    (fun count pfd =>
      if revents world vpid kernel pfd = 0 then count else count + 1)
    0

/-- How one turn of the loop ends. -/
inductive Round where
  | returns (count : CInt)
  | parks (waitFds : List PollFd)
  | kernel

/-- One turn of the loop. -/
def pollRound (world : World) (vpid : VPid) (kernel : KernelPoll)
    (fds : List PollFd) (timeout : CInt) : Round :=
  let count := countReady world vpid kernel fds
  if fds = [] then .kernel
  else if 0 < count then .returns count.toInt
  else if timeout = 0 then .returns 0
  else
    .parks (fds.filterMap fun pfd => (look world vpid kernel pfd).waits)

/-- The count is the number of ready descriptors, cut to 32 bits. -/
theorem toInt_countReady
    (world : World) (vpid : VPid) (kernel : KernelPoll)
    (fds : List PollFd) :
    (countReady world vpid kernel fds).toInt =
      (readyCount world vpid kernel fds : Int).bmod 4294967296 := by
  have counted (start : Int32) :
      (fds.foldl
          (fun count pfd =>
            if revents world vpid kernel pfd = 0 then count
            else count + 1)
          start).toInt =
        (start.toInt + readyCount world vpid kernel fds).bmod
          4294967296 := by
    unfold readyCount
    induction fds generalizing start with
    | nil => simp [Int32.toInt_bmod]
    | cons pfd rest induction =>
        rw [List.foldl_cons, induction, List.countP_cons]
        by_cases silent : revents world vpid kernel pfd = 0
        · simp [silent]
        · have next :
              (start + 1).toInt = (start.toInt + 1).bmod 4294967296 :=
            Int32.toInt_add start 1
          have ready : (revents world vpid kernel pfd != 0) = true :=
            bne_iff_ne.mpr silent
          rw [if_neg silent, next, Int.bmod_add_bmod, if_pos ready]
          push_cast
          congr 1
          omega
  have total := counted 0
  rwa [Int32.toInt_zero, Int.zero_add] at total

/-- A call whose turn returns a positive number found that many ready. -/
theorem count_of_pollRound
    {world : World} {vpid : VPid} {kernel : KernelPoll}
    {fds : List PollFd} {timeout count : CInt}
    (returned : pollRound world vpid kernel fds timeout = .returns count)
    (positive : 0 < count) (few : fds.length < 2147483648) :
    count = readyCount world vpid kernel fds := by
  have counted := toInt_countReady world vpid kernel fds
  have bound : readyCount world vpid kernel fds ≤ fds.length :=
    List.countP_le_length
  rw [Int.bmod_eq_of_le (by omega) (by omega)] at counted
  unfold pollRound at returned
  dsimp only at returned
  split at returned
  · cases returned
  · split at returned
    · exact (Round.returns.inj returned).symm.trans counted
    · split at returned
      · cases returned
        exact (lt_irrefl 0 positive).elim
      · cases returned

/-- Nothing ready and a timeout: the coroutine parks. -/
theorem pollRound_of_unready
    {world : World} {vpid : VPid} {kernel : KernelPoll}
    {fds : List PollFd} {timeout : CInt}
    (nonempty : fds ≠ []) (finite : timeout ≠ 0)
    (unready : readyCount world vpid kernel fds = 0) :
    pollRound world vpid kernel fds timeout =
      .parks
        (fds.filterMap fun pfd => (look world vpid kernel pfd).waits) := by
  have counted := toInt_countReady world vpid kernel fds
  rw [unready] at counted
  have zero : ¬ 0 < countReady world vpid kernel fds := by
    rw [Int32.lt_iff_toInt_lt, counted]
    decide
  simp [pollRound, nonempty, finite, zero]

/-- What can be asked for is reported only when it was. -/
theorem has_events_of_revents
    (world : World) (vpid : VPid) (kernel : KernelPoll) (pfd : PollFd)
    {mask : Events} (askable : mask ∈ [pollIn, pollPri, pollOut])
    (reported : has (revents world vpid kernel pfd) mask = true) :
    has pfd.events mask = true := by
  have onlyIn (pipe : PipeBuffer)
      (inEnd : has (readEnd pipe pfd.events) mask = true) :
      has pfd.events mask = true := by
    unfold readEnd at inEnd
    split at inEnd
    · rename_i ready
      have asked : has pfd.events pollIn = true :=
        (Bool.and_eq_true_iff.mp ready).1
      simp only [List.mem_cons, List.not_mem_nil, or_false] at askable
      rcases askable with rfl | rfl | rfl
      · exact asked
      · split at inEnd <;> cases inEnd
      · split at inEnd <;> cases inEnd
    · simp [has] at inEnd
  have onlyOut (pipe : PipeBuffer)
      (outEnd : has (writeEnd pipe pfd.events) mask = true) :
      has pfd.events mask = true := by
    unfold writeEnd at outEnd
    split at outEnd
    · rename_i asked
      simp only [List.mem_cons, List.not_mem_nil, or_false] at askable
      rcases askable with rfl | rfl | rfl
      · split at outEnd <;> split at outEnd <;> cases outEnd
      · split at outEnd <;> split at outEnd <;> cases outEnd
      · exact asked
    · simp [has] at outEnd
  unfold revents look at reported
  split at reported
  · exact onlyIn _ reported
  · exact onlyOut _ reported
  · exact kernel.asked _ _ mask askable reported
  · exact kernel.asked _ _ mask askable reported
  · exact kernel.asked _ _ mask askable reported

end Vproc.Fd.Poll
