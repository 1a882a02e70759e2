import Vproc.Fd.Poll

/-!
# `select` on top of `poll`

`select` makes an array for `poll` of the numbers which are in one of its
sets, and writes the reported conditions back as bits.  Its result is that of
`poll`, the number of ready descriptors.  A descriptor may be ready in several
sets, or report an error or hang-up which has no set, so this is not always
the number of bits written.

The timeout becomes a number of milliseconds, computed with 64 bits of which
the lower 32 are passed on.
-/

namespace Vproc.Fd.Select

open Vproc.Fd.Table
open Vproc.Fd.Runtime
open Vproc.Fd.Poll

/-! ## The call -/

/-- `timeval`. -/
structure Timeval where
  tvSec : Int64
  tvUsec : Int64
deriving DecidableEq

/-- The milliseconds passed to `poll`; a null pointer waits for ever. -/
def timeoutMs : Option Timeval → Int32
  | none => -1
  | some tv => (tv.tvSec * 1000 + tv.tvUsec / 1000).toInt32

/-- `fd_set`: a bit for each number below `FD_SETSIZE`. -/
abbrev FdSet := BitVec 1024

/-- The three sets of a call; a set may be null. -/
structure FdSets where
  readfds : Option FdSet
  writefds : Option FdSet
  exceptfds : Option FdSet
deriving DecidableEq

/-- One of the three sets. -/
inductive Which where
  | read
  | write
  | except
deriving DecidableEq

/-- The condition a set stands for. -/
def Which.mask : Which → Events
  | .read => pollIn
  | .write => pollOut
  | .except => pollPri

def FdSets.get (sets : FdSets) : Which → Option FdSet
  | .read => sets.readfds
  | .write => sets.writefds
  | .except => sets.exceptfds

/-- `!set.is_null() && FD_ISSET(fd, set)`. -/
def isSet (set : Option FdSet) (fd : Nat) : Bool :=
  set.any fun bits => bits.getLsbD fd

/-- The events asked for one number. -/
def eventsOf (sets : FdSets) (fd : Nat) : Events :=
  (if isSet sets.readfds fd then pollIn else 0) |||
    ((if isSet sets.writefds fd then pollOut else 0) |||
      (if isSet sets.exceptfds fd then pollPri else 0))

/-- `nfds.min(FD_SETSIZE)`. -/
def maxFd (nfds : CInt) : Nat :=
  (min nfds 1024).toNat

/-- The entry for one number in the array for `poll`, if it has one. -/
def pollFdOf (sets : FdSets) (fd : Nat) : Option PollFd :=
  if eventsOf sets fd = 0 then none
  else some { fd := fd, events := eventsOf sets fd }

/-- The array for `poll`. -/
def pollfds (nfds : CInt) (sets : FdSets) : List PollFd :=
  (List.range (maxFd nfds)).filterMap (pollFdOf sets)

/-- Set the bits of the descriptors which report a condition. -/
def setBits (report : PollFd → Events) (mask : Events)
    (fds : List PollFd) (bits : FdSet) : FdSet :=
  fds.foldl
    (fun bits pfd =>
      if has (report pfd) mask then bits ||| .twoPow 1024 pfd.fd.toNat
      else bits)
    bits

/-- One set after the call: cleared, and the reported bits set. -/
def writeBack (report : PollFd → Events) (which : Which)
    (fds : List PollFd) (set : Option FdSet) : Option FdSet :=
  set.map fun _ => setBits report which.mask fds 0

/-- The three sets after a call which returns `count`. -/
def writtenSets (report : PollFd → Events) (fds : List PollFd)
    (sets : FdSets) (count : Nat) : FdSets :=
  let written (which : Which) : Option FdSet :=
    if 0 < count then writeBack report which fds (sets.get which)
    else (sets.get which).map fun _ => 0
  { readfds := written .read
    writefds := written .write
    exceptfds := written .except }

/-- How one turn of the loop ends for `select`. -/
inductive Selected where
  | returns (count : Nat) (sets : FdSets)
  | parks (waitFds : List PollFd)
  | kernel
deriving DecidableEq

/--
One turn of the loop of `poll`, and the rest of `select`.  The array has at
most 1024 entries, so that their number is never negative.
-/
def select (world : World) (vpid : VPid) (kernel : KernelPoll)
    (nfds : CInt) (sets : FdSets) (timeout : Option Timeval) : Selected :=
  let fds := pollfds nfds sets
  match pollRound world vpid kernel fds (timeoutMs timeout).toInt with
  | .returns count =>
      .returns count.toNat
        (writtenSets (revents world vpid kernel) fds sets count.toNat)
  | .parks waitFds => .parks waitFds
  | .kernel => .kernel

/-! ## What it is to report -/

/-- The number of bits of a set. -/
def bitCount (set : Option FdSet) : Nat :=
  (List.range 1024).countP (isSet set)

/-- A number below `nfds` whose bit is in an input set. -/
def Requested (nfds : CInt) (sets : FdSets) (which : Which) (fd : Nat) :
    Prop :=
  fd < maxFd nfds ∧ isSet (sets.get which) fd = true

/-- The output sets and the result agree with what `poll` reported. -/
structure Reports (report : PollFd → Events) (nfds : CInt)
    (sets : FdSets) (count : Nat) (out : FdSets) : Prop where
  onlyRequested :
    ∀ which fd, isSet (out.get which) fd = true →
      Requested nfds sets which fd
  bits :
    ∀ which fd,
      isSet (out.get which) fd = true ↔
        Requested nfds sets which fd ∧
          has (report { fd := fd, events := eventsOf sets fd })
              which.mask =
            true
  total :
    count =
      bitCount (out.get .read) + bitCount (out.get .write) +
        bitCount (out.get .except)

theorem length_pollfds_lt (nfds : CInt) (sets : FdSets) :
    (pollfds nfds sets).length < 2147483648 := by
  have short : (pollfds nfds sets).length ≤ maxFd nfds := by
    have filtered :=
      List.length_filterMap_le (pollFdOf sets) (List.range (maxFd nfds))
    rwa [List.length_range] at filtered
  unfold maxFd at short
  omega

/-- In how many sets a descriptor is ready. -/
def readySets (events : Events) : Nat :=
  (has events pollIn).toNat + (has events pollOut).toNat +
    (has events pollPri).toNat

/-- The descriptors which report errors and hang-ups only. -/
def silentCount (report : PollFd → Events) (fds : List PollFd) : Nat :=
  fds.countP fun pfd =>
    report pfd != 0 && readySets (report pfd) == 0

/-- The bits of descriptors beyond their first. -/
def surplus (report : PollFd → Events) (fds : List PollFd) : Nat :=
  (fds.map fun pfd => readySets (report pfd) - 1).sum

/-! ## Bits -/

theorem getLsbD_setBits
    (report : PollFd → Events) (mask : Events) (fds : List PollFd)
    (bits : FdSet) {fd : Nat} (below : fd < 1024) :
    (setBits report mask fds bits).getLsbD fd = true ↔
      bits.getLsbD fd = true ∨
        ∃ pfd ∈ fds, has (report pfd) mask = true ∧ pfd.fd.toNat = fd := by
  induction fds generalizing bits with
  | nil => simp [setBits]
  | cons pfd rest induction =>
      have after (next : FdSet)
          (same : next =
            if has (report pfd) mask then
              bits ||| .twoPow 1024 pfd.fd.toNat
            else bits) :
          setBits report mask (pfd :: rest) bits =
            setBits report mask rest next := by
        rw [same]
        rfl
      rw [after _ rfl, induction]
      by_cases reported : has (report pfd) mask = true
      · have bit :
            (bits ||| .twoPow 1024 pfd.fd.toNat).getLsbD fd = true ↔
              bits.getLsbD fd = true ∨ pfd.fd.toNat = fd := by
          rw [BitVec.getLsbD_or, BitVec.getLsbD_twoPow, Bool.or_eq_true,
            Bool.and_eq_true, decide_eq_true_eq, decide_eq_true_eq]
          refine or_congr_right ⟨And.right, fun same => ⟨?_, same⟩⟩
          exact same ▸ below
        rw [if_pos reported, bit]
        simp [reported, or_assoc]
      · simp [reported]

/-- The conditions asked for a number are those of the sets it is in. -/
theorem has_eventsOf (sets : FdSets) (which : Which) (fd : Nat) :
    has (eventsOf sets fd) which.mask = isSet (sets.get which) fd := by
  unfold eventsOf
  cases which with
  | read =>
      change _ = isSet sets.readfds fd
      cases isSet sets.readfds fd <;> cases isSet sets.writefds fd <;>
        cases isSet sets.exceptfds fd <;> rfl
  | write =>
      change _ = isSet sets.writefds fd
      cases isSet sets.readfds fd <;> cases isSet sets.writefds fd <;>
        cases isSet sets.exceptfds fd <;> rfl
  | except =>
      change _ = isSet sets.exceptfds fd
      cases isSet sets.readfds fd <;> cases isSet sets.writefds fd <;>
        cases isSet sets.exceptfds fd <;> rfl

theorem mask_mem (which : Which) :
    which.mask ∈ [pollIn, pollPri, pollOut] := by
  cases which <;> decide

/-- Who is in the array. -/
theorem mem_pollfds_iff (nfds : CInt) (sets : FdSets) (pfd : PollFd) :
    pfd ∈ pollfds nfds sets ↔
      ∃ fd < maxFd nfds, eventsOf sets fd ≠ 0 ∧
        pfd = { fd := fd, events := eventsOf sets fd } := by
  simp only [pollfds, List.mem_filterMap, List.mem_range, pollFdOf]
  apply exists_congr
  intro fd
  apply and_congr_right
  intro _
  by_cases unasked : eventsOf sets fd = 0
  · simp [unasked]
  · simp [eq_comm]

theorem maxFd_le (nfds : CInt) : maxFd nfds ≤ 1024 := by
  have least : min nfds 1024 ≤ 1024 := min_le_right _ _
  exact Int.toNat_le.mpr least

theorem isSet_lt {set : Option FdSet} {fd : Nat}
    (isIn : isSet set fd = true) : fd < 1024 := by
  obtain ⟨bits, _, held⟩ := (Option.any_eq_true _ _).mp isIn
  exact BitVec.lt_of_getLsbD held

/-- Conditions are reported only when they were asked for. -/
def OnlyAsked (report : PollFd → Events) : Prop :=
  ∀ pfd which, has (report pfd) (Which.mask which) = true →
    has pfd.events which.mask = true

theorem onlyAsked_revents
    (world : World) (vpid : VPid) (kernel : KernelPoll) :
    OnlyAsked (revents world vpid kernel) :=
  fun pfd which reported =>
    has_events_of_revents world vpid kernel pfd (mask_mem which) reported

section Bits

variable {report : PollFd → Events} (asked : OnlyAsked report)
variable (nfds : CInt) (sets : FdSets) (which : Which)

include asked

/-- The bits written back, by the conditions reported. -/
theorem isSet_writeBack_iff (fd : Nat) :
    isSet (writeBack report which (pollfds nfds sets) (sets.get which))
        fd = true ↔
      Requested nfds sets which fd ∧
        has (report { fd := fd, events := eventsOf sets fd })
            which.mask =
          true := by
  constructor
  · intro isOut
    have below := isSet_lt isOut
    obtain ⟨bits, written, held⟩ := (Option.any_eq_true _ _).mp isOut
    obtain ⟨_, _, rfl⟩ := Option.map_eq_some_iff.mp written
    rw [getLsbD_setBits _ _ _ _ below] at held
    rcases held with initial | ⟨pfd, member, reported, same⟩
    · simp at initial
    · obtain ⟨number, inRange, _, rfl⟩ :=
        (mem_pollfds_iff nfds sets pfd).mp member
      have isFd : number = fd := same
      subst isFd
      refine ⟨⟨inRange, ?_⟩, reported⟩
      rw [← has_eventsOf]
      exact asked _ which reported
  · rintro ⟨⟨inRange, isIn⟩, reported⟩
    have below := isSet_lt isIn
    have hasEvents : eventsOf sets fd ≠ 0 := by
      intro unasked
      rw [← has_eventsOf, unasked] at isIn
      simp [has] at isIn
    obtain ⟨bits, present, _⟩ := (Option.any_eq_true _ _).mp isIn
    rw [writeBack, present]
    refine
      (getLsbD_setBits report which.mask _ 0 below).mpr (Or.inr ?_)
    exact
      ⟨_, (mem_pollfds_iff nfds sets _).mpr
        ⟨fd, inRange, hasEvents, rfl⟩, reported, rfl⟩

omit asked in
theorem countP_range_of_lt
    {test : Nat → Bool} {small large : Nat} (order : small ≤ large)
    (below : ∀ fd, test fd = true → fd < small) :
    (List.range large).countP test = (List.range small).countP test := by
  obtain ⟨more, rfl⟩ := Nat.exists_eq_add_of_le order
  rw [List.range_add, List.countP_append]
  have noneAbove :
      ((List.range more).map (small + ·)).countP test = 0 := by
    rw [List.countP_eq_zero]
    intro fd member isTrue
    obtain ⟨offset, _, rfl⟩ := List.mem_map.mp member
    exact absurd (below _ isTrue) (Nat.not_lt.mpr (Nat.le_add_right _ _))
  rw [noneAbove, Nat.add_zero]

/-- As many bits are written to a set as descriptors are ready in it. -/
theorem bitCount_writeBack :
    bitCount
        (writeBack report which (pollfds nfds sets) (sets.get which)) =
      (pollfds nfds sets).countP fun pfd =>
        has (report pfd) which.mask := by
  have asBits := isSet_writeBack_iff asked nfds sets which
  rw [bitCount, countP_range_of_lt (maxFd_le nfds)
    fun fd isOut => ((asBits fd).mp isOut).1.1]
  rw [pollfds, List.countP_filterMap]
  apply List.countP_congr
  intro fd member
  have inRange : fd < maxFd nfds := List.mem_range.mp member
  rw [← pollfds, asBits]
  unfold pollFdOf
  by_cases unasked : eventsOf sets fd = 0
  · rw [if_pos unasked]
    constructor
    · rintro ⟨⟨_, isIn⟩, _⟩
      rw [← has_eventsOf, unasked] at isIn
      simp [has] at isIn
    · exact nofun
  · rw [if_neg unasked]
    constructor
    · exact fun both => both.2
    · intro reported
      have isIn := asked _ which reported
      rw [has_eventsOf] at isIn
      exact ⟨⟨inRange, isIn⟩, reported⟩

end Bits

/-! ## The result -/

/-- A ready descriptor is silent or has a first bit. -/
theorem readySets_add_silent (events : Events) :
    readySets events + (events != 0 && readySets events == 0).toNat =
      (events != 0).toNat + (readySets events - 1) := by
  by_cases isZero : events = 0
  · subst isZero
    decide
  · have ready : (events != 0) = true := bne_iff_ne.mpr isZero
    rw [ready]
    cases readySets events with
    | zero => rfl
    | succ others => simp [Nat.add_comm]

theorem bits_add_silentCount
    (report : PollFd → Events) (fds : List PollFd) :
    fds.countP (fun pfd => has (report pfd) pollIn) +
          fds.countP (fun pfd => has (report pfd) pollOut) +
        fds.countP (fun pfd => has (report pfd) pollPri) +
      silentCount report fds =
        fds.countP (fun pfd => report pfd != 0) + surplus report fds := by
  induction fds with
  | nil => rfl
  | cons pfd rest induction =>
      have asNat (test : Bool) :
          (if test = true then 1 else 0) = test.toNat := by
        cases test <;> rfl
      have first := readySets_add_silent (report pfd)
      simp only [silentCount, surplus] at induction
      simp only [silentCount, surplus, List.countP_cons, List.map_cons,
        List.sum_cons, asNat]
      have sum :
          readySets (report pfd) =
            (has (report pfd) pollIn).toNat +
                (has (report pfd) pollOut).toNat +
              (has (report pfd) pollPri).toNat :=
        rfl
      omega

theorem get_writtenSets
    (report : PollFd → Events) (fds : List PollFd) (sets : FdSets)
    {count : Nat} (positive : 0 < count) (which : Which) :
    (writtenSets report fds sets count).get which =
      writeBack report which fds (sets.get which) := by
  cases which
  · exact if_pos positive
  · exact if_pos positive
  · exact if_pos positive

/-- The result is the number of bits, if silence and surplus are even. -/
theorem count_eq_bits_iff
    {report : PollFd → Events} (asked : OnlyAsked report) (nfds : CInt)
    (sets : FdSets) {count : Nat}
    (counted :
      count = (pollfds nfds sets).countP fun pfd => report pfd != 0) :
    (count =
        bitCount
            (writeBack report .read (pollfds nfds sets) (sets.get .read)) +
          bitCount
            (writeBack report .write (pollfds nfds sets)
              (sets.get .write)) +
          bitCount
            (writeBack report .except (pollfds nfds sets)
              (sets.get .except))) ↔
      silentCount report (pollfds nfds sets) =
        surplus report (pollfds nfds sets) := by
  have balance := bits_add_silentCount report (pollfds nfds sets)
  rw [bitCount_writeBack asked, bitCount_writeBack asked,
    bitCount_writeBack asked, counted]
  simp only [Which.mask]
  omega

/--
When `select` returns a positive number, the output sets are those of the
reported conditions; the number is the number of their bits if and only if as
many descriptors report no condition with a set as there are bits beyond the
first of a descriptor.
-/
theorem select_reports_iff
    (world : World) (vpid : VPid) (kernel : KernelPoll) (nfds : CInt)
    (sets : FdSets) (timeout : Option Timeval) (count : Nat)
    (out : FdSets)
    (returned :
      select world vpid kernel nfds sets timeout = .returns count out)
    (positive : 0 < count) :
    Reports (revents world vpid kernel) nfds sets count out ↔
      silentCount (revents world vpid kernel) (pollfds nfds sets) =
        surplus (revents world vpid kernel) (pollfds nfds sets) := by
  have asked := onlyAsked_revents world vpid kernel
  unfold select at returned
  dsimp only at returned
  split at returned
  · rename_i found polled
    obtain ⟨rfl, rfl⟩ := Selected.returns.inj returned
    have counted :
        found.toNat =
          readyCount world vpid kernel (pollfds nfds sets) := by
      have total :=
        count_of_pollRound polled (Int.pos_iff_toNat_pos.mpr positive)
          (length_pollfds_lt nfds sets)
      rw [total, Int.toNat_natCast]
    have total := count_eq_bits_iff asked nfds sets counted
    have bits (which : Which) (fd : Nat) :=
      isSet_writeBack_iff asked nfds sets which fd
    have written (which : Which) :=
      get_writtenSets (revents world vpid kernel) (pollfds nfds sets)
        sets positive which
    constructor
    · intro reports
      have same := reports.total
      rw [written, written, written] at same
      exact total.mp same
    · intro even
      refine ⟨?_, ?_, ?_⟩
      · intro which fd isOut
        rw [written] at isOut
        exact ((bits which fd).mp isOut).1
      · intro which fd
        rw [written]
        exact bits which fd
      · rw [written, written, written]
        exact total.mpr even
  · cases returned
  · cases returned

/-- A kernel in which every descriptor can be read and written. -/
def allReady : KernelPoll where
  answer := fun _ events => events &&& (pollIn ||| pollOut)
  asked := by
    intro fd events mask _ reported
    unfold has at reported ⊢
    rw [bne_iff_ne] at reported ⊢
    intro unasked
    apply reported
    rw [BitVec.and_assoc, BitVec.and_comm (pollIn ||| pollOut),
      ← BitVec.and_assoc, unasked]
    exact BitVec.zero_and

/-- A process with the default table. -/
def standardWorld : World :=
  (World.init .standard).createTableWithFds 1 0 1 2

/-- Standard input for reading, standard output for writing. -/
def inputAndOutput : FdSets where
  readfds := some 1
  writefds := some 2
  exceptfds := none

theorem select_reports_iff_inputAndOutput :
    Reports (revents standardWorld 1 allReady) 2 inputAndOutput 2
        inputAndOutput ↔
      silentCount (revents standardWorld 1 allReady)
          (pollfds 2 inputAndOutput) =
        surplus (revents standardWorld 1 allReady)
          (pollfds 2 inputAndOutput) :=
  select_reports_iff standardWorld 1 allReady 2 inputAndOutput none 2
    inputAndOutput (by decide +kernel) (by decide)

/-- Number 3 in two sets, and ready in both. -/
def bothWays : FdSets where
  readfds := some 8
  writefds := some 8
  exceptfds := none

/-- A descriptor which is ready in two sets is counted once. -/
theorem select_counts_descriptors :
    ¬ ∀ (world : World) (vpid : VPid) (kernel : KernelPoll) (nfds : CInt)
      (sets : FdSets) (timeout : Option Timeval) (count : Nat)
      (out : FdSets),
      select world vpid kernel nfds sets timeout = .returns count out →
      0 < count →
      Reports (revents world vpid kernel) nfds sets count out := by
  intro always
  have reports :=
    always standardWorld 1 allReady 4 bothWays none 1 bothWays
      (by decide +kernel) (by decide)
  have total := reports.total
  revert total
  decide +kernel

/-! ## The timeout -/

/-- The same in exact integers. -/
def exactMs (tv : Timeval) : Int :=
  1000 * tv.tvSec.toInt + tv.tvUsec.toInt / 1000

/-- The conversion keeps the lower 32 bits of the exact value. -/
theorem toInt_timeoutMs
    (tv : Timeval) (usecLow : 0 ≤ tv.tvUsec) :
    (timeoutMs (some tv)).toInt = (exactMs tv).bmod 4294967296 := by
  have nonneg : 0 ≤ tv.tvUsec.toInt := Int64.le_iff_toInt_le.mp usecLow
  have quotient :
      (tv.tvUsec / 1000).toInt = tv.tvUsec.toInt / 1000 := by
    rw [Int64.toInt_div_of_ne_right _ _ (by decide)]
    exact Int.tdiv_eq_ediv_of_nonneg nonneg
  have sum :
      (tv.tvSec * 1000 + tv.tvUsec / 1000).toInt =
        (exactMs tv).bmod (2 ^ 64) := by
    rw [Int64.toInt_add, Int64.toInt_mul, quotient, Int.bmod_add_bmod,
      exactMs, Int.mul_comm]
    rfl
  calc
    (timeoutMs (some tv)).toInt =
        (tv.tvSec * 1000 + tv.tvUsec / 1000).toInt.bmod (2 ^ 32) :=
      Int64.toInt_toInt32 _
    _ = ((exactMs tv).bmod (2 ^ 64)).bmod (2 ^ 32) := by rw [sum]
    _ = (exactMs tv).bmod 4294967296 := Int.bmod_bmod_of_dvd (by decide)

/--
The timeout is converted exactly, capped at the greatest `c_int`, if and only
if it fits or wraps around to just that number.
-/
theorem select_timeout_exact_iff
    (tv : Timeval) (sec : 0 ≤ tv.tvSec)
    (usec : 0 ≤ tv.tvUsec ∧ tv.tvUsec < 1000000) :
    (timeoutMs (some tv)).toInt = min (exactMs tv) 2147483647 ↔
      exactMs tv ≤ 2147483647 ∨
        exactMs tv % 4294967296 = 2147483647 := by
  have secNonneg : 0 ≤ tv.tvSec.toInt := Int64.le_iff_toInt_le.mp sec
  have usecNonneg : 0 ≤ tv.tvUsec.toInt :=
    Int64.le_iff_toInt_le.mp usec.1
  have nonneg : 0 ≤ exactMs tv := by
    unfold exactMs
    omega
  rw [toInt_timeoutMs tv usec.1, Int.bmod_def]
  split <;> omega

/-- A day, and 2500 microseconds. -/
theorem select_timeout_exact_iff_day :
    (timeoutMs (some { tvSec := 86400, tvUsec := 2500 })).toInt =
        min (exactMs { tvSec := 86400, tvUsec := 2500 }) 2147483647 ↔
      exactMs { tvSec := 86400, tvUsec := 2500 } ≤ 2147483647 ∨
        exactMs { tvSec := 86400, tvUsec := 2500 } % 4294967296 =
          2147483647 :=
  select_timeout_exact_iff { tvSec := 86400, tvUsec := 2500 }
    (by decide) (by decide)

/-- Some 25 days become a wait for ever, and some 50 a wait of 704 ms. -/
theorem select_timeout_wraps :
    (timeoutMs (some { tvSec := 2147484, tvUsec := 0 })).toInt =
        -2147483296 ∧
      (timeoutMs (some { tvSec := 4294968, tvUsec := 0 })).toInt = 704 ∧
      ¬ ∀ tv : Timeval, 0 ≤ tv.tvSec →
        0 ≤ tv.tvUsec ∧ tv.tvUsec < 1000000 →
        (timeoutMs (some tv)).toInt = min (exactMs tv) 2147483647 := by
  refine ⟨by decide, by decide, ?_⟩
  intro always
  have isExact :=
    always { tvSec := 2147484, tvUsec := 0 } (by decide) (by decide)
  revert isExact
  decide

end Vproc.Fd.Select
