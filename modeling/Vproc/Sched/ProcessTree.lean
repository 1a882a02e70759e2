import Vproc.Sched.DriverSteps

/-!
# The process tree after reaping

`reap_done_coroutines` takes the finished coroutines out of `children` and out
of `vprocs`.  It looks at the lists of children before it drops the
coroutines, so that a finished child is still found among them, and stays in
the list of a parent which lives on.  The next call drops it.

The states are those which any sequence of calls of the executor's functions
leads to, in whatever order they are made.
-/

namespace Vproc.Sched.ProcessTree

open Vproc.Lib.Run
open Vproc.Lib.FiniteMap
open Vproc.Fd.Table
open Vproc.Fd.KernelTable
open Vproc.Fd.Runtime
open Vproc.Sched.Scheduler
open Vproc.Sched.DriverLoop
open Vproc.Sched.DriverSteps

/-- `reap_child`. -/
def reapChild (ex : Executor) (parent child : VPid) : Executor :=
  { ex with
    children :=
      modify parent (fun kids => kids.filter fun kid => kid ≠ child)
        ex.children }

/-- `state = State::Ready`, as the `yield` of an executor sets it. -/
def setReady (ex : Executor) (pid : VPid) : Executor :=
  ex.update pid fun co => { co with state := .ready }

/-- The calls of the functions of an executor. -/
inductive ExecutorOp where
  | spawn
  | spawnFront
  | spawnElf
  | spawnForkChild (parent : VPid)
  | takePid
  | pickNext
  | deliverSignals (pid : VPid)
  | requeueCurrent
  | requeueLive
  | setReady (pid : VPid)
  | resumeBegin (pid : VPid)
  | resumeEnd (pid : VPid) (dead : Bool)
  | yieldForIo (fds : List (CInt × Int)) (timeoutMs : CInt) (now : Nat)
  | vprocExitWithCode (code : CInt)
  | removeExitCode (pid : VPid)
  | kill (pid : VPid) (sig : CInt)
  | wakeIoReady (polled : List (Bool × VPid)) (now : Nat)
  | reapChild (parent child : VPid)
  | reapDone

/-- One call; none where it panics. -/
def call (ex : Executor) : ExecutorOp → Option Executor
  | .spawn => some ex.spawn.1
  | .spawnFront => some ex.spawnFront.1
  | .spawnElf => some ex.spawnElf.1
  | .spawnForkChild parent => (ex.spawnForkChild parent).map Prod.fst
  | .takePid => some ex.takePid
  | .pickNext => some ex.pickNext.1
  | .deliverSignals pid => some (ex.deliverSignals pid).1
  | .requeueCurrent => some ex.requeueCurrent
  | .requeueLive => some ex.requeueLive
  | .setReady pid => some (setReady ex pid)
  | .resumeBegin pid => ex.resumeBegin pid
  | .resumeEnd pid dead => some (ex.resumeEnd pid dead)
  | .yieldForIo fds timeoutMs now => some (ex.yieldForIo fds timeoutMs now)
  | .vprocExitWithCode code => some (ex.vprocExitWithCode code)
  | .removeExitCode pid => some (ex.removeExitCode pid)
  | .kill pid sig => some (ex.kill pid sig)
  | .wakeIoReady polled now => some (ex.wakeIoReady polled now)
  | .reapChild parent child => some (reapChild ex parent child)
  | .reapDone => some ex.reapDone

/-! ## The parents are there -/

/-- The list of children is kept for processes which are there. -/
def ParentsPresent (ex : Executor) : Prop :=
  ∀ parent, parent ∈ ex.children → parent ∈ ex.vprocs

/-- A change which adds coroutines and leaves the lists of children alone. -/
structure Grows (ex next : Executor) : Prop where
  children : next.children = ex.children
  present : ∀ pid, pid ∈ ex.vprocs → pid ∈ next.vprocs

theorem parentsPresent_of_grows
    {ex next : Executor} (grows : Grows ex next)
    (parents : ParentsPresent ex) :
    ParentsPresent next := by
  intro parent listed
  rw [grows.children] at listed
  exact grows.present parent (parents parent listed)

theorem mem_update
    (ex : Executor) (pid other : VPid) (change : Coroutine → Coroutine) :
    other ∈ (ex.update pid change).vprocs ↔ other ∈ ex.vprocs := by
  rw [← AList.lookup_isSome, ← AList.lookup_isSome, lookup_update]
  split
  · rw [Option.isSome_map]
  · rfl

theorem grows_of_same
    {ex next : Executor} (children : next.children = ex.children)
    (vprocs : next.vprocs = ex.vprocs) :
    Grows ex next :=
  ⟨children, fun _ known => vprocs ▸ known⟩

theorem grows_of_update
    {ex next : Executor} (pid : VPid) (change : Coroutine → Coroutine)
    (children : next.children = ex.children)
    (vprocs : next.vprocs = (ex.update pid change).vprocs) :
    Grows ex next where
  children := children
  present := by
    intro other known
    rw [vprocs]
    exact (mem_update ex pid other change).mpr known

theorem grows_of_insert
    {ex next : Executor} {pid : VPid} {co : Coroutine}
    (children : next.children = ex.children)
    (vprocs : next.vprocs = ex.vprocs.insert pid co) :
    Grows ex next where
  children := children
  present := by
    intro other known
    rw [vprocs]
    exact (AList.mem_insert _).mpr (Or.inr known)

theorem grows_deliverSignals (ex : Executor) (pid : VPid) :
    Grows ex (ex.deliverSignals pid).1 := by
  unfold Executor.deliverSignals
  split
  · exact ⟨rfl, fun _ => id⟩
  · split
    · exact ⟨rfl, fun _ => id⟩
    · split
      · exact grows_of_update pid _ rfl rfl
      · exact grows_of_update pid _ rfl rfl

theorem grows_wakeIoReady
    (ex : Executor) (polled : List (Bool × VPid)) (now : Nat) :
    Grows ex (ex.wakeIoReady polled now) := by
  refine wakeIoReady_rec (motive := Grows ex) ex polled now ?_ ?_
  · exact ⟨rfl, fun _ => id⟩
  · intro before grown pid _
    rw [wakeOne_eq]
    exact
      ⟨grown.children, fun other known =>
        (mem_update before pid other _).mpr (grown.present other known)⟩

theorem parentsPresent_fork
    {ex next : Executor} {parent child : VPid}
    (forked : ex.spawnForkChild parent = some (next, child))
    (parents : ParentsPresent ex) :
    ParentsPresent next := by
  obtain ⟨co, found, result⟩ := Option.map_eq_some_iff.mp forked
  cases result
  intro other listed
  rw [mem_update]
  refine (AList.mem_insert _).mpr (Or.inr ?_)
  rcases (AList.mem_insert _).mp listed with rfl | before
  · exact mem_iff_lookup.mpr ⟨co, found⟩
  · exact parents other before

/-! ## Reaping -/

theorem lookup_foldl_erase
    (pids : List VPid) (map : KeyMap VPid (List VPid)) (pid : VPid) :
    (pids.foldl (fun kids pid => kids.erase pid) map).lookup pid =
      if pid ∈ pids then none else map.lookup pid := by
  induction pids generalizing map with
  | nil => simp
  | cons first rest induction =>
      rw [List.foldl_cons, induction, lookup_erase_eq]
      by_cases same : pid = first
      · simp [same]
      · simp [same]

theorem mem_donePids_iff {ex : Executor} {pid : VPid} :
    pid ∈ ex.donePids ↔
      ∃ co, ex.vprocs.lookup pid = some co ∧ co.isDone = true := by
  constructor
  · exact done_of_mem_donePids
  · rintro ⟨co, found, done⟩
    exact
      List.mem_map.mpr
        ⟨⟨pid, co⟩,
          List.mem_filter.mpr ⟨mem_entries_iff.mpr found, done⟩, rfl⟩

/-- The children which are left in a list. -/
def presentKids (ex : Executor) (kids : List VPid) : List VPid :=
  kids.filter fun kid => decide (kid ∈ ex.vprocs)

/-- What reaping leaves in `children`. -/
theorem lookup_reapedChildren_iff
    {ex : Executor} {parent : VPid} {left : List VPid} :
    ex.reapDone.children.lookup parent = some left ↔
      parent ∉ ex.donePids ∧
        ∃ kids, ex.children.lookup parent = some kids ∧
          left = presentKids ex kids ∧ left ≠ [] := by
  have mapped :
      AList.lookup parent
          (⟨(ex.donePids.foldl (fun kids pid => kids.erase pid)
              ex.children).entries.map
                (Sigma.map id fun _ kids => presentKids ex kids),
            List.NodupKeys.map₂ _ _
              (ex.donePids.foldl (fun kids pid => kids.erase pid)
                ex.children).nodupKeys⟩ : KeyMap VPid (List VPid)) =
        ((ex.donePids.foldl (fun kids pid => kids.erase pid)
          ex.children).lookup parent).map (presentKids ex) :=
    List.dlookup_map₂ parent
  rw [lookup_foldl_erase] at mapped
  refine lookup_retain_iff.trans ?_
  constructor
  · rintro ⟨found, nonempty⟩
    have stored := mapped.symm.trans found
    obtain ⟨kids, listed, rfl⟩ := Option.map_eq_some_iff.mp stored
    split at listed
    · cases listed
    · rename_i live
      exact ⟨live, kids, listed, rfl, by simpa using nonempty⟩
  · rintro ⟨live, kids, listed, rfl, nonempty⟩
    refine ⟨mapped.trans ?_, by simpa using nonempty⟩
    rw [if_neg live, listed, Option.map_some]

/-- The coroutines which reaping leaves. -/
theorem lookup_reapedVprocs_iff
    {ex : Executor} {pid : VPid} {co : Coroutine} :
    ex.reapDone.vprocs.lookup pid = some co ↔
      ex.vprocs.lookup pid = some co ∧ co.isDone = false :=
  lookup_retain_iff.trans
    (and_congr_right fun _ => by rw [Bool.not_eq_true'])

theorem mem_reapedVprocs_iff {ex : Executor} {pid : VPid} :
    pid ∈ ex.reapDone.vprocs ↔ pid ∈ ex.vprocs ∧ pid ∉ ex.donePids := by
  rw [mem_iff_lookup, mem_iff_lookup, mem_donePids_iff]
  simp only [lookup_reapedVprocs_iff]
  constructor
  · rintro ⟨co, found, live⟩
    refine ⟨⟨co, found⟩, ?_⟩
    rintro ⟨other, same, done⟩
    rw [found] at same
    cases same
    rw [live] at done
    cases done
  · rintro ⟨⟨co, found⟩, live⟩
    refine ⟨co, found, Bool.eq_false_of_not_eq_true ?_⟩
    exact fun done => live ⟨co, found, done⟩

theorem parentsPresent_reapDone
    {ex : Executor} (parents : ParentsPresent ex) :
    ParentsPresent ex.reapDone := by
  intro parent listed
  obtain ⟨left, found⟩ := mem_iff_lookup.mp listed
  obtain ⟨live, kids, known, _⟩ := lookup_reapedChildren_iff.mp found
  exact
    mem_reapedVprocs_iff.mpr
      ⟨parents parent (mem_iff_lookup.mpr ⟨kids, known⟩), live⟩

theorem parentsPresent_reapChild
    {ex : Executor} (parents : ParentsPresent ex) (parent child : VPid) :
    ParentsPresent (reapChild ex parent child) := by
  intro other listed
  apply parents other
  obtain ⟨kids, found⟩ := mem_iff_lookup.mp listed
  have changed := (lookup_modify_eq _ _ _ _).symm.trans found
  split at changed
  · obtain ⟨before, known, _⟩ := Option.map_eq_some_iff.mp changed
    exact mem_iff_lookup.mpr ⟨before, known⟩
  · exact mem_iff_lookup.mpr ⟨kids, changed⟩

/-! ## The tree -/

/-- What holds after `reap_done_coroutines`, called in this state. -/
structure ReapsToTree (ex : Executor) : Prop where
  left : ∀ pid co, ex.reapDone.vprocs.lookup pid = some co ↔
    ex.vprocs.lookup pid = some co ∧ co.isDone = false
  parents : ParentsPresent ex.reapDone
  kids : ∀ parent kids, ex.reapDone.children.lookup parent = some kids →
    ∀ kid ∈ kids, kid ∈ ex.reapDone.vprocs
  nonempty : ∀ parent kids,
    ex.reapDone.children.lookup parent = some kids → kids ≠ []
  again : ex.reapDone.reapDone = ex.reapDone

/-- A process which is done is not in the list of one which is not. -/
def NoFinishedKid (ex : Executor) : Prop :=
  ∀ entry ∈ ex.children.entries, entry.1 ∉ ex.donePids →
    ∀ kid ∈ entry.2, kid ∉ ex.donePids

instance (ex : Executor) : Decidable (NoFinishedKid ex) :=
  inferInstanceAs (Decidable (∀ entry ∈ ex.children.entries, _))

/-- Reaping changes nothing if nobody is done and the lists are clean. -/
theorem reapDone_of_clean
    {ex : Executor} (live : ex.donePids = [])
    (kids : ∀ parent kids, ex.children.lookup parent = some kids →
      ∀ kid ∈ kids, kid ∈ ex.vprocs)
    (nonempty : ∀ parent kids,
      ex.children.lookup parent = some kids → kids ≠ []) :
    ex.reapDone = ex := by
  have vprocs : ex.reapDone.vprocs = ex.vprocs := by
    refine AList.ext (List.filter_eq_self.mpr ?_)
    intro entry member
    by_contra done
    have isDone : entry.1 ∈ ex.donePids :=
      mem_donePids_iff.mpr
        ⟨entry.2, mem_entries_iff.mp member, by simpa using done⟩
    rw [live] at isDone
    cases isDone
  have children : ex.reapDone.children = ex.children := by
    have unchanged :
        ex.children.entries.map
            (Sigma.map id fun _ kids => presentKids ex kids) =
          ex.children.entries := by
      conv_rhs => rw [← List.map_id ex.children.entries]
      apply List.map_congr_left
      rintro ⟨parent, listed⟩ member
      have all := kids parent listed (mem_entries_iff.mp member)
      have same : presentKids ex listed = listed :=
        List.filter_eq_self.mpr fun kid isKid =>
          decide_eq_true (all kid isKid)
      exact Sigma.ext rfl (heq_of_eq same)
    refine AList.ext ?_
    change (((ex.donePids.foldl (fun kids pid => kids.erase pid)
      ex.children).entries.map
        (Sigma.map id fun _ kids => presentKids ex kids)).filter
          fun entry => !entry.2.isEmpty) = ex.children.entries
    rw [live, List.foldl_nil, unchanged]
    refine List.filter_eq_self.mpr ?_
    intro entry member
    have some := nonempty entry.1 entry.2 (mem_entries_iff.mp member)
    simpa using some
  calc ex.reapDone
      = { ex with
          children := ex.reapDone.children
          vprocs := ex.reapDone.vprocs } := rfl
    _ = ex := by rw [vprocs, children]

theorem donePids_reapDone (ex : Executor) : ex.reapDone.donePids = [] := by
  refine List.eq_nil_iff_forall_not_mem.mpr ?_
  intro pid member
  obtain ⟨co, found, done⟩ := mem_donePids_iff.mp member
  rw [(lookup_reapedVprocs_iff.mp found).2] at done
  cases done

/-- Reaping leaves a tree if and only if no finished child is listed. -/
theorem reapsToTree_iff_of_parentsPresent
    {ex : Executor} (parents : ParentsPresent ex) :
    ReapsToTree ex ↔ NoFinishedKid ex := by
  constructor
  · -- a finished child is still there when the lists are looked through
    rintro tree ⟨parent, kids⟩ listed live kid member done
    obtain ⟨co, found, _⟩ := mem_donePids_iff.mp done
    have kept : kid ∈ presentKids ex kids :=
      List.mem_filter.mpr
        ⟨member, decide_eq_true (mem_iff_lookup.mpr ⟨co, found⟩)⟩
    have stays :=
      lookup_reapedChildren_iff.mpr
        ⟨live, kids, mem_entries_iff.mp listed, rfl,
          List.ne_nil_of_mem kept⟩
    have present := tree.kids parent _ stays kid kept
    exact (mem_reapedVprocs_iff.mp present).2 done
  · intro clean
    have kids : ∀ parent kids,
        ex.reapDone.children.lookup parent = some kids →
        ∀ kid ∈ kids, kid ∈ ex.reapDone.vprocs := by
      intro parent left found kid member
      obtain ⟨live, kids, listed, rfl, _⟩ :=
        lookup_reapedChildren_iff.mp found
      obtain ⟨isKid, present⟩ := List.mem_filter.mp member
      exact
        mem_reapedVprocs_iff.mpr
          ⟨of_decide_eq_true present,
            clean ⟨parent, kids⟩ (mem_entries_iff.mpr listed) live kid
              isKid⟩
    have nonempty : ∀ parent kids,
        ex.reapDone.children.lookup parent = some kids → kids ≠ [] := by
      intro parent left found
      obtain ⟨_, _, _, _, nonempty⟩ := lookup_reapedChildren_iff.mp found
      exact nonempty
    exact
      { left := fun _ _ => lookup_reapedVprocs_iff
        parents := parentsPresent_reapDone parents
        kids := kids
        nonempty := nonempty
        again := reapDone_of_clean (donePids_reapDone ex) kids nonempty }

/-! ## Runs -/

theorem parentsPresent_call
    (ex : Executor) (op : ExecutorOp) (next : Executor)
    (parents : ParentsPresent ex) (called : call ex op = some next) :
    ParentsPresent next := by
  have grown (grows : Grows ex next) : ParentsPresent next :=
    parentsPresent_of_grows grows parents
  cases op with
  | spawn =>
      cases called
      exact grown (grows_of_insert rfl rfl)
  | spawnFront =>
      cases called
      exact grown (grows_of_insert rfl rfl)
  | spawnElf =>
      cases called
      exact grown (grows_of_insert rfl rfl)
  | spawnForkChild parent =>
      obtain ⟨⟨forked, child⟩, isForked, rfl⟩ :=
        Option.map_eq_some_iff.mp called
      exact parentsPresent_fork isForked parents
  | takePid =>
      cases called
      exact grown (grows_of_same rfl rfl)
  | pickNext =>
      cases called
      exact grown (grows_of_same rfl rfl)
  | deliverSignals pid =>
      cases called
      exact grown (grows_deliverSignals ex pid)
  | requeueCurrent =>
      cases called
      rcases requeueCurrent_eq ex with same | ⟨_, _, queued⟩
      · rw [same]
        exact parents
      · rw [queued]
        exact parents
  | requeueLive =>
      cases called
      rcases requeueLive_eq ex with same | ⟨_, _, queued⟩
      · rw [same]
        exact parents
      · rw [queued]
        exact parents
  | setReady pid =>
      cases called
      exact grown (grows_of_update pid _ rfl rfl)
  | resumeBegin pid =>
      have resumed : ex.resumeBegin pid = some next := called
      unfold Executor.resumeBegin at resumed
      split at resumed
      · cases resumed
      · split at resumed
        · cases resumed
        · cases resumed
          exact grown (grows_of_update pid _ rfl rfl)
  | resumeEnd pid dead =>
      cases called
      exact grown (grows_of_update pid _ rfl rfl)
  | yieldForIo fds timeoutMs now =>
      cases called
      refine grown ?_
      unfold Executor.yieldForIo
      split
      · exact grows_of_same rfl rfl
      · exact grows_of_update _ _ rfl rfl
  | vprocExitWithCode code =>
      cases called
      refine grown ?_
      unfold Executor.vprocExitWithCode
      split
      · exact grows_of_same rfl rfl
      · exact grows_of_update _ _ rfl rfl
  | removeExitCode pid =>
      cases called
      exact grown (grows_of_same rfl rfl)
  | kill pid sig =>
      cases called
      exact grown (grows_of_update pid _ rfl rfl)
  | wakeIoReady polled now =>
      cases called
      exact grown (grows_wakeIoReady ex polled now)
  | reapChild parent child =>
      cases called
      exact parentsPresent_reapChild parents parent child
  | reapDone =>
      cases called
      exact parentsPresent_reapDone parents

theorem parentsPresent_new : ParentsPresent Executor.new := by
  intro parent listed
  cases listed

/--
In every state which calls of an executor's functions lead to, reaping leaves
exactly the coroutines which were not done and a consistent process tree, and
nothing to do for a second call, if and only if no process which is done is in
the list of children of one which is not.
-/
theorem reap_leaves_tree_iff
    (ops : List ExecutorOp) (ex : Executor)
    (reached : run call Executor.new ops = some ex) :
    ReapsToTree ex ↔ NoFinishedKid ex := by
  have parents : ParentsPresent ex :=
    invariant_of_run parentsPresent_call parentsPresent_new reached
  exact reapsToTree_iff_of_parentsPresent parents

/-- Process 1 forks process 2, and the child exits. -/
def childExits : List ExecutorOp :=
  [.spawn, .pickNext, .resumeBegin 1, .spawnForkChild 1, .requeueLive,
    .resumeEnd 1 false, .pickNext, .resumeBegin 2, .vprocExitWithCode 0,
    .resumeEnd 2 false]

/-- The parent then exits as well. -/
def bothExit : List ExecutorOp :=
  childExits ++
    [.pickNext, .resumeBegin 1, .vprocExitWithCode 0, .resumeEnd 1 false]

theorem reap_leaves_tree_iff_bothExit :
    ∃ ex, run call Executor.new bothExit = some ex ∧ ReapsToTree ex := by
  have clean :
      (run call Executor.new bothExit).any
        (fun ex => decide (NoFinishedKid ex)) = true := by
    decide
  obtain ⟨ex, reached, holds⟩ := Option.any_eq_true _ _ |>.mp clean
  exact
    ⟨ex, reached,
      (reap_leaves_tree_iff bothExit ex reached).mpr
        (of_decide_eq_true holds)⟩

/-- The child is reaped, and still listed. -/
theorem reaped_child_still_listed :
    ¬ ∀ (ops : List ExecutorOp) (ex : Executor),
      run call Executor.new ops = some ex → ReapsToTree ex := by
  intro every
  have listed :
      (run call Executor.new childExits).any
        (fun ex =>
          decide (ex.reapDone.children.lookup 1 = some [2]) &&
          decide (2 ∉ ex.reapDone.vprocs)) = true := by
    decide
  obtain ⟨ex, reached, holds⟩ := Option.any_eq_true _ _ |>.mp listed
  obtain ⟨stays, gone⟩ := Bool.and_eq_true_iff.mp holds
  have present :=
    (every childExits ex reached).kids 1 [2] (of_decide_eq_true stays) 2
      (List.mem_singleton.mpr rfl)
  exact of_decide_eq_true gone present

/-! ## The driver -/

/-- The calls an executor has gone through. -/
def Reachable (ex : Executor) : Prop :=
  ∃ ops, run call Executor.new ops = some ex

theorem reachable_call
    {ex next : Executor} (reachable : Reachable ex) (op : ExecutorOp)
    (called : call ex op = some next) :
    Reachable next := by
  obtain ⟨ops, reached⟩ := reachable
  exact
    ⟨ops ++ [op],
      run_trans reached (run_cons_iff.mpr ⟨next, called, rfl⟩)⟩

theorem reachable_spawned
    {ex next : Executor} (reachable : Reachable ex)
    (child : Spawned ex next) :
    Reachable next := by
  cases child with
  | back => exact reachable_call reachable .spawn rfl
  | front => exact reachable_call reachable .spawnFront rfl
  | elf => exact reachable_call reachable .spawnElf rfl
  | fork forked =>
      rename_i parent _
      refine reachable_call reachable (.spawnForkChild parent) ?_
      rw [call, forked, Option.map_some]

theorem reachable_ending
    {ex left : Executor} {op : DriverOp} {dead : Bool} {taken : Nat}
    (reachable : Reachable ex) (ending : Ending ex op left dead taken) :
    Reachable left := by
  cases ending with
  | yields => exact reachable_call reachable .requeueLive rfl
  | waits fds timeoutMs now =>
      exact
        reachable_call reachable (.yieldForIo fds timeoutMs now) rfl
  | exits cause =>
      exact
        reachable_call reachable (.vprocExitWithCode cause.code) rfl
  | raises fatal =>
      exact reachable_call reachable (.vprocExitWithCode _) rfl
  | panics missing =>
      exact
        reachable_call (reachable_call reachable .takePid rfl)
          (.vprocExitWithCode _) rfl
  | returns => exact reachable

/-- A step of a driver is a sequence of calls of its executor. -/
theorem reachable_change
    {driver next : Driver} {op : DriverOp}
    (reachable : Reachable driver.executor)
    (change : Change driver op next) :
    Reachable next.executor := by
  cases change with
  | spawned isSpawn child => exact reachable_spawned reachable child
  | idles idle begins nothing =>
      refine reachable_call reachable .pickNext ?_
      rw [call, nothing]
      rfl
  | resumes turn idle begins chosen isResumed =>
      rename_i picked _
      have isPicked : call driver.executor .pickNext = some picked := by
        rw [call, chosen]
      exact
        reachable_call
          (reachable_call (reachable_call reachable .pickNext isPicked)
            (.deliverSignals turn.pid) rfl)
          (.resumeBegin turn.pid) isResumed
  | ends turn running ending =>
      exact
        reachable_call (reachable_ending reachable ending)
          (.resumeEnd turn.pid _) rfl
  | signals pid sig isSignal =>
      exact reachable_call reachable (.kill pid sig) rfl
  | forgets pid =>
      exact reachable_call reachable (.removeExitCode pid) rfl
  | collects => exact reachable
  | wakes revents now idle =>
      exact reachable_call reachable (.wakeIoReady _ now) rfl
  | reaps idle => exact reachable_call reachable .reapDone rfl
  | calls call => exact reachable

/-- The executors of sessions are among those considered here. -/
theorem reachable_of_session
    {world : World} {ops : List DriverOp} {final : Machine}
    (reached : run Machine.step (Machine.init world) ops = some final) :
    Reachable final.driver.executor := by
  have kept (machine : Machine) (op : DriverOp) (next : Machine)
      (reachable : Reachable machine.driver.executor)
      (stepped : machine.step op = some next) :
      Reachable next.driver.executor :=
    reachable_change reachable (change_of_machineStep stepped)
  exact
    @invariant_of_run Machine DriverOp Machine.step
      (fun machine => Reachable machine.driver.executor) kept ops _ _
      ⟨[], rfl⟩ reached

end Vproc.Sched.ProcessTree
