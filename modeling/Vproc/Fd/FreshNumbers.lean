import Vproc.Fd.Table
import Vproc.Lib.Run

/-!
# Fresh numbers of a descriptor table

`alloc_fd` hands out `next_fd` as it stands and looks for a free number only
for the call after.  An allocated number is therefore fresh as long as
`next_fd` is free whenever a call begins, and each operation has to leave it
so.  The search itself does, while two numbers of the `u32` range are free
(three, for the two searches of `create_pipe`).

Two operations put an entry at a number their caller chose.  `insert_at` moves
`next_fd` past it, to a number which it does not test.  `dup2` does not move
`next_fd` at all: a copy at that number is overwritten by the next allocation.
-/

namespace Vproc.Fd.FreshNumbers

open Vproc.Lib.FiniteMap
open Vproc.Lib.Run
open Vproc.Fd.Table
open Vproc.Fd.Table.VfdTable

/-- The operations of a table, at any numbers. -/
inductive TableOp where
  | insert (vfd : Vfd)
  | insertFile (arc : ArcId) (realFd : CInt) (cloexec : Bool)
  | insertAt (fd : UInt32) (vfd : Vfd)
  | dup (oldFd : UInt32)
  | dup2 (oldFd newFd : UInt32)
  | createPipe (buf : ArcId)
  | close (fd : UInt32)
  | closeFileFd (fd : UInt32)
  | closeCloexec
  | cloneForFork

/-- The table an operation leaves. -/
def apply (table : VfdTable) : TableOp → VfdTable
  | .insert vfd => (table.insert vfd).1
  | .insertFile arc realFd cloexec =>
      (table.insertFile arc realFd cloexec).1
  | .insertAt fd vfd => (table.insertAt fd.toNat vfd).table
  | .dup oldFd => (table.dup oldFd.toNat).table
  | .dup2 oldFd newFd => (table.dup2 oldFd.toNat newFd.toNat).table
  | .createPipe buf => (table.createPipe buf).1
  | .close fd => (table.close fd.toNat).table
  | .closeFileFd fd => (table.closeFileFd fd.toNat).1
  | .closeCloexec => table.closeCloexec.1
  | .cloneForFork => table.cloneForFork

def step (table : VfdTable) (op : TableOp) : Option VfdTable :=
  some (apply table op)

/-- The operations which choose their numbers themselves. -/
def allocates : TableOp → Bool
  | .insert _ | .insertFile .. | .dup _ | .createPipe _ => true
  | _ => false

/-- The numbers such an operation returns; a failed `dup` returns none. -/
def allocated (table : VfdTable) : TableOp → List Nat
  | .insert vfd => [(table.insert vfd).2]
  | .insertFile arc realFd cloexec =>
      [(table.insertFile arc realFd cloexec).2]
  | .dup oldFd => (table.dup oldFd.toNat).result.toOption.toList
  | .createPipe buf =>
      [(table.createPipe buf).2.1, (table.createPipe buf).2.2]
  | _ => []

/-- Allocated numbers were free, and what was open is as it was. -/
structure Fresh (table : VfdTable) (op : TableOp) (next : VfdTable) :
    Prop where
  distinct : (allocated table op).Nodup
  unused : ∀ number ∈ allocated table op, table.get number = none
  keeps :
    allocates op = true →
      ∀ number vfd, table.get number = some vfd →
        next.get number = some vfd

/-- `next_fd` is not in use. -/
def NextFree (table : VfdTable) : Prop :=
  table.get table.nextFd = none

/--
The condition on one operation, in the table it starts from: two free numbers
for an allocation and three for a pipe, nothing at the number after that of an
`insert_at` which moves `next_fd`, and no `dup2` of an open number onto
`next_fd`.
-/
def SparesNext (table : VfdTable) : TableOp → Prop
  | .insert _ | .insertFile .. | .dup _ =>
      table.fds.entries.length < 4294967295
  | .createPipe _ => table.fds.entries.length < 4294967294
  | .insertAt fd _ =>
      table.nextFd ≤ fd.toNat → table.get (succU32 fd.toNat) = none
  | .dup2 oldFd newFd =>
      newFd.toNat = table.nextFd →
        oldFd = newFd ∨ table.get oldFd.toNat = none
  | _ => True

/-! ## The search of `alloc_fd` -/

/-- Numbers in use, counted by their distance from one number. -/
theorem card_le_of_used
    (fds : KeyMap Nat Vfd) (start : Nat) (offsets : Finset Nat)
    (within : ∀ offset ∈ offsets, offset < 4294967296)
    (used : ∀ offset ∈ offsets, (start + offset) % 4294967296 ∈ fds) :
    offsets.card ≤ fds.entries.length := by
  have injective :
      Set.InjOn (fun offset => (start + offset) % 4294967296)
        (offsets : Set Nat) := by
    intro left leftIn right rightIn same
    have leftBound := within left leftIn
    have rightBound := within right rightIn
    dsimp only at same
    omega
  have included :
      offsets.image (fun offset => (start + offset) % 4294967296) ⊆
        fds.keys.toFinset := by
    intro number member
    obtain ⟨offset, isIn, rfl⟩ := Finset.mem_image.mp member
    exact List.mem_toFinset.mpr (AList.mem_keys.mp (used offset isIn))
  calc
    offsets.card =
        (offsets.image
          fun offset => (start + offset) % 4294967296).card :=
      (Finset.card_image_of_injOn injective).symm
    _ ≤ fds.keys.toFinset.card := Finset.card_le_card included
    _ ≤ fds.keys.length := List.toFinset_card_le _
    _ = fds.entries.length := List.length_map _

/-- Where the search stops, and that it skips nothing which is free. -/
theorem skipUsed_eq
    (fds : KeyMap Nat Vfd) (fuel : Nat) {start : Nat}
    (bound : start < 4294967296) :
    ∃ skipped ≤ fuel,
      skipUsed fds fuel start = (start + skipped) % 4294967296 ∧
        (∀ offset < skipped, (start + offset) % 4294967296 ∈ fds) ∧
        (skipUsed fds fuel start ∈ fds → skipped = fuel) := by
  induction fuel generalizing start with
  | zero =>
      refine ⟨0, le_rfl, ?_, nofun, fun _ => rfl⟩
      rw [skipUsed, Nat.add_zero, Nat.mod_eq_of_lt bound]
  | succ fuel induction =>
      unfold skipUsed
      by_cases used : start ∈ fds
      · obtain ⟨skipped, most, stops, passed, full⟩ :=
          induction (succU32_lt start)
        simp only [used, if_true]
        refine ⟨skipped + 1, by omega, ?_, ?_, ?_⟩
        · rw [stops, succU32]
          omega
        · intro offset below
          rcases Nat.eq_zero_or_pos offset with rfl | positive
          · rwa [Nat.add_zero, Nat.mod_eq_of_lt bound]
          · have earlier := passed (offset - 1) (by omega)
            have same :
                (succU32 start + (offset - 1)) % 4294967296 =
                  (start + offset) % 4294967296 := by
              rw [succU32]
              omega
            rwa [same] at earlier
        · intro isUsed
          rw [full isUsed]
      · simp only [used, if_false]
        refine ⟨0, by omega, ?_, nofun, False.elim⟩
        rw [Nat.add_zero, Nat.mod_eq_of_lt bound]

/-- With a free number left, the search ends at one. -/
theorem nextFd_allocFd
    (table : VfdTable) (few : table.fds.entries.length < 4294967296) :
    ∃ skipped ≤ table.fds.entries.length,
      table.allocFd.1.nextFd =
          (table.nextFd + 1 + skipped) % 4294967296 ∧
        (∀ offset < skipped,
          (table.nextFd + 1 + offset) % 4294967296 ∈ table.fds) ∧
        table.allocFd.1.nextFd ∉ table.fds := by
  obtain ⟨skipped, most, stops, passed, full⟩ :=
    skipUsed_eq table.fds table.fds.entries.length
      (succU32_lt table.nextFd)
  have shifted (offset : Nat) :
      (succU32 table.nextFd + offset) % 4294967296 =
        (table.nextFd + 1 + offset) % 4294967296 := by
    rw [succU32]
    omega
  refine ⟨skipped, most, stops.trans (shifted skipped), ?_, ?_⟩
  · intro offset below
    exact shifted offset ▸ passed offset below
  · -- a search which ends at a used number has seen more than there are
    intro isUsed
    have all : skipped = table.fds.entries.length := full isUsed
    have tooMany :
        (Finset.range (skipped + 1)).card ≤ table.fds.entries.length := by
      apply card_le_of_used table.fds (succU32 table.nextFd)
      · intro offset member
        have below := Finset.mem_range.mp member
        omega
      · intro offset member
        have below := Finset.mem_range.mp member
        rcases Nat.lt_succ_iff_lt_or_eq.mp below with earlier | rfl
        · exact passed offset earlier
        · exact stops ▸ isUsed
    rw [Finset.card_range] at tooMany
    omega

/-- One allocation leaves `next_fd` at another free number. -/
theorem free_after_alloc
    (table : VfdTable) (few : table.fds.entries.length < 4294967295) :
    table.get table.allocFd.1.nextFd = none ∧
      table.allocFd.1.nextFd ≠ table.nextFd := by
  obtain ⟨skipped, most, stops, _, free⟩ :=
    nextFd_allocFd table (by omega)
  refine ⟨AList.lookup_eq_none.mpr free, ?_⟩
  have bound := table.nextFd_lt
  rw [stops]
  omega

/-- Two allocations in a row come back to the first number only when full. -/
theorem free_after_two_allocs
    (table : VfdTable) (few : table.fds.entries.length < 4294967294) :
    table.allocFd.1.allocFd.1.nextFd ≠ table.nextFd := by
  obtain ⟨first, mostFirst, stopsFirst, passedFirst, _⟩ :=
    nextFd_allocFd table (by omega)
  obtain ⟨second, mostSecond, stopsSecond, passedSecond, _⟩ :=
    nextFd_allocFd table.allocFd.1
      (by rw [allocFd_fds]; omega)
  rw [allocFd_fds] at mostSecond passedSecond
  have bound := table.nextFd_lt
  intro back
  rw [stopsSecond, stopsFirst] at back
  have around : first + second = 4294967294 := by omega
  -- all numbers but the two handed out are in use
  have tooMany :
      (((Finset.range 4294967296).erase 0).erase (first + 1)).card ≤
        table.fds.entries.length := by
    apply card_le_of_used table.fds table.nextFd
    · intro offset member
      simp only [Finset.mem_erase, Finset.mem_range] at member
      exact member.2.2
    · intro offset member
      simp only [Finset.mem_erase, Finset.mem_range] at member
      obtain ⟨notFirst, notZero, below⟩ := member
      rcases Nat.lt_or_ge offset (first + 1) with early | late
      · have used := passedFirst (offset - 1) (by omega)
        have same :
            (table.nextFd + 1 + (offset - 1)) % 4294967296 =
              (table.nextFd + offset) % 4294967296 := by
          omega
        rwa [same] at used
      · have used := passedSecond (offset - first - 2) (by omega)
        have same :
            (table.allocFd.1.nextFd + 1 + (offset - first - 2)) %
                4294967296 =
              (table.nextFd + offset) % 4294967296 := by
          rw [stopsFirst]
          omega
        rwa [same] at used
  have size :
      (((Finset.range 4294967296).erase 0).erase (first + 1)).card =
        4294967294 := by
    rw [Finset.card_erase_of_mem, Finset.card_erase_of_mem,
      Finset.card_range]
    · exact Finset.mem_range.mpr (by decide)
    · simp only [Finset.mem_erase, Finset.mem_range]
      omega
  omega

/-! ## Where the operations leave `next_fd` -/

@[simp]
theorem close_nextFd (table : VfdTable) (fd : Nat) :
    (table.close fd).table.nextFd = table.nextFd := by
  unfold VfdTable.close
  split <;> rfl

@[simp]
theorem closeFileFd_nextFd (table : VfdTable) (fd : Nat) :
    (table.closeFileFd fd).1.nextFd = table.nextFd := by
  unfold VfdTable.closeFileFd
  split <;> rfl

@[simp]
theorem closeFileFds_nextFd (fds : List Nat) (table : VfdTable) :
    (table.closeFileFds fds).1.nextFd = table.nextFd := by
  induction fds generalizing table with
  | nil => rfl
  | cons fd rest induction =>
      simp only [closeFileFds, induction, closeFileFd_nextFd]

@[simp]
theorem dup2_nextFd (table : VfdTable) (oldFd newFd : Nat) :
    (table.dup2 oldFd newFd).table.nextFd = table.nextFd := by
  have cleared :
      (if newFd ∈ table.fds then
          ((table.close newFd).table, (table.close newFd).closes)
        else (table, [])).1.nextFd = table.nextFd := by
    split
    · exact close_nextFd table newFd
    · rfl
  unfold VfdTable.dup2
  dsimp only
  split
  · exact cleared
  · exact cleared

theorem insertAt_nextFd (table : VfdTable) (fd : Nat) (vfd : Vfd) :
    (table.insertAt fd vfd).table.nextFd =
      if table.nextFd ≤ fd then succU32 fd else table.nextFd := by
  have cleared :
      ((if fd ∈ table.fds then
          ((table.close fd).table, (table.close fd).closes)
        else (table, [])).1.put fd vfd).nextFd = table.nextFd := by
    split
    · exact close_nextFd table fd
    · rfl
  unfold VfdTable.insertAt
  dsimp only
  rw [cleared]
  split
  · rfl
  · exact cleared

theorem succU32_ne (fd : UInt32) : succU32 fd.toNat ≠ fd.toNat := by
  have bound := fd.toNat_lt
  rw [succU32]
  omega

/-! ## The invariant -/

/-- An operation which spares `next_fd` leaves a free number there. -/
theorem nextFree_step
    (table : VfdTable) (op : TableOp) (next : VfdTable)
    (free : NextFree table) (stepped : step table op = some next)
    (spares : SparesNext table op) :
    NextFree next := by
  cases stepped
  unfold NextFree at *
  cases op with
  | insert vfd =>
      obtain ⟨unused, other⟩ := free_after_alloc table spares
      change (table.insert vfd).1.get table.allocFd.1.nextFd = none
      rw [get_insert, if_neg other]
      exact unused
  | insertFile arc realFd cloexec =>
      obtain ⟨unused, other⟩ := free_after_alloc table spares
      change
        (table.insertFile arc realFd cloexec).1.get
          table.allocFd.1.nextFd = none
      rw [get_insertFile, if_neg other]
      exact unused
  | insertAt fd vfd =>
      simp only [apply, insertAt_nextFd, get_insertAt]
      split
      · rename_i moved
        rw [if_neg (succU32_ne fd)]
        exact spares moved
      · rename_i stays
        rw [if_neg (by omega)]
        exact free
  | dup oldFd =>
      obtain ⟨unused, other⟩ := free_after_alloc table spares
      have left :
          (table.dup oldFd.toNat).table.nextFd =
            table.allocFd.1.nextFd :=
        dup2_nextFd _ _ _
      rw [apply, left, get_dup, if_neg other]
      exact unused
  | dup2 oldFd newFd =>
      simp only [apply, dup2_nextFd, get_dup2]
      by_cases onto : table.nextFd = newFd.toNat
      · rcases spares onto.symm with rfl | missing
        · simp [onto]
        · simp [onto, missing]
      · rw [if_neg onto]
        exact free
  | createPipe buf =>
      obtain ⟨unused, other⟩ :=
        free_after_alloc table.allocFd.1
          (by rw [allocFd_fds]; exact spares.trans (by decide))
      change
        (table.createPipe buf).1.get
          table.allocFd.1.allocFd.1.nextFd = none
      rw [get_createPipe, if_neg other,
        if_neg (free_after_two_allocs table spares)]
      exact unused
  | close fd =>
      simp only [apply, close_nextFd, get_close, free, ite_self]
  | closeFileFd fd =>
      simp only [apply, closeFileFd_nextFd, get_closeFileFd, free,
        Option.filter_none, ite_self]
  | closeCloexec =>
      have left : table.closeCloexec.1.nextFd = table.nextFd :=
        closeFileFds_nextFd _ _
      rw [apply, left, get_closeCloexec, free]
      rfl
  | cloneForFork => exact free

/-- An entry put at a free number disturbs no open one. -/
theorem keeps_of_free
    {table : VfdTable} {number fd : Nat} {vfd : Vfd}
    (free : table.get fd = none)
    (stored : table.get number = some vfd) :
    number ≠ fd := by
  rintro rfl
  rw [free] at stored
  cases stored

/-- While `next_fd` is free, what an operation allocates is fresh. -/
theorem fresh_step
    (table : VfdTable) (op : TableOp) (next : VfdTable)
    (free : NextFree table) (stepped : step table op = some next)
    (spares : SparesNext table op) :
    Fresh table op next := by
  cases stepped
  unfold NextFree at free
  have single (number : Nat) (member : number ∈ [table.nextFd]) :
      table.get number = none := by
    rw [List.mem_singleton.mp member]
    exact free
  cases op with
  | insert vfd =>
      refine ⟨List.nodup_singleton _, single, fun _ number _ stored => ?_⟩
      rw [apply, get_insert, if_neg (keeps_of_free free stored)]
      exact stored
  | insertFile arc realFd cloexec =>
      refine ⟨List.nodup_singleton _, single, fun _ number _ stored => ?_⟩
      rw [apply, get_insertFile, if_neg (keeps_of_free free stored)]
      exact stored
  | dup oldFd =>
      have returned :
          allocated table (.dup oldFd) = [] ∨
            allocated table (.dup oldFd) = [table.nextFd] := by
        rw [allocated, dup_result]
        split
        · exact Or.inl rfl
        · exact Or.inr rfl
      refine ⟨?_, ?_, fun _ number _ stored => ?_⟩
      · rcases returned with failed | succeeded
        · simp [failed]
        · simp [succeeded]
      · rcases returned with failed | succeeded
        · simp [failed]
        · rw [succeeded]
          exact single
      · rw [apply, get_dup, if_neg (keeps_of_free free stored)]
        exact stored
  | createPipe buf =>
      obtain ⟨unused, other⟩ :=
        free_after_alloc table (spares.trans (by decide))
      have returned :
          allocated table (.createPipe buf) =
            [table.nextFd, table.allocFd.1.nextFd] :=
        rfl
      refine ⟨?_, ?_, fun _ number _ stored => ?_⟩
      · rw [returned]
        simp [other.symm]
      · rw [returned]
        simp [free, unused]
      · rw [apply, get_createPipe, if_neg (keeps_of_free unused stored),
          if_neg (keeps_of_free free stored)]
        exact stored
  | _ => exact ⟨List.nodup_nil, nofun, nofun⟩

theorem nextFree_newWithFds (stdin stdout stderr : CInt) :
    NextFree (newWithFds stdin stdout stderr) :=
  get_newWithFds stdin stdout stderr 3

/--
In every run of table operations which spare `next_fd`, every allocated number
is fresh.
-/
theorem allocated_numbers_fresh
    (stdin stdout stderr : CInt) (ops : List TableOp)
    (spares :
      Along step (fun table op _ => SparesNext table op)
        (newWithFds stdin stdout stderr) ops) :
    Along step Fresh (newWithFds stdin stdout stderr) ops :=
  along_mono nextFree_step fresh_step
    (nextFree_newWithFds stdin stdout stderr) spares

/-- Copies below, at and above `next_fd`, and a pipe between them. -/
def copiesAndPipe : List TableOp :=
  [.dup2 0 5, .insertAt 3 (.real 7), .createPipe 0, .close 4, .dup 6]

instance (table : VfdTable) (op : TableOp) :
    Decidable (SparesNext table op) :=
  match op with
  | .insert _ | .insertFile .. | .dup _ =>
      inferInstanceAs (Decidable (_ < _))
  | .createPipe _ => inferInstanceAs (Decidable (_ < _))
  | .insertAt _ _ => inferInstanceAs (Decidable (_ → _))
  | .dup2 _ _ => inferInstanceAs (Decidable (_ → _))
  | .close _ | .closeFileFd _ | .closeCloexec | .cloneForFork =>
      inferInstanceAs (Decidable True)

theorem allocated_numbers_fresh_copiesAndPipe :
    Along step (fun table op _ => SparesNext table op) new
        copiesAndPipe ∧
      Along step Fresh new copiesAndPipe := by
  have spares :
      Along step (fun table op _ => SparesNext table op) new
        copiesAndPipe := by
    decide
  exact ⟨spares, allocated_numbers_fresh 0 1 2 _ spares⟩

/--
A copy of standard input at 3, the next number: the entry inserted after it
takes the same number, and the copy is gone.
-/
theorem allocated_number_in_use :
    ¬ Along step Fresh new [.dup2 0 3, .insert (.real 7)] := by
  intro along
  obtain ⟨_, later⟩ := along _ rfl
  obtain ⟨fresh, _⟩ := later _ rfl
  have unused := fresh.unused 3 (by decide)
  revert unused
  decide

end Vproc.Fd.FreshNumbers
