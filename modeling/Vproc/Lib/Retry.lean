import Mathlib

/-!
# Calls which try again

A call in a cooperative program tries until it has a result, and gives up
control between two attempts.  What it finds differs from one attempt to the
next, so a call is given by one attempt, and it is observed along a sequence
of moments.  It ends at the first moment at which the attempt has a result; a
call which never ends has no such moment.

Two calls have the same end if and only if their attempts agree at every
moment which is reached.
-/

namespace Vproc.Lib.Retry

universe u v

variable {Moment : Type u} {Result : Type v}

/-- All attempts before the `n`-th have been in vain. -/
def Reaches (attempt : Moment → Option Result) (moments : Nat → Moment)
    (n : Nat) : Prop :=
  ∀ k < n, attempt (moments k) = none

/-- The call ends with its `n`-th attempt. -/
def EndsAt (attempt : Moment → Option Result) (moments : Nat → Moment)
    (n : Nat) (result : Result) : Prop :=
  Reaches attempt moments n ∧ attempt (moments n) = some result

/-- Two calls end at the same moment with the same result, or both never. -/
def SameEnd (left right : Moment → Option Result)
    (moments : Nat → Moment) : Prop :=
  ∀ n result,
    EndsAt left moments n result ↔ EndsAt right moments n result

variable {left right attempt : Moment → Option Result}
variable {moments : Nat → Moment}

/-- An attempt with a result is not before the end of the call. -/
theorem exists_endsAt_le
    {n : Nat} {result : Result}
    (succeeds : attempt (moments n) = some result) :
    ∃ m ≤ n, ∃ first, EndsAt attempt moments m first := by
  induction n using Nat.strong_induction_on generalizing result with
  | _ n induction =>
      by_cases reaches : Reaches attempt moments n
      · exact ⟨n, le_rfl, result, reaches, succeeds⟩
      · unfold Reaches at reaches
        push Not at reaches
        obtain ⟨k, below, earlier⟩ := reaches
        obtain ⟨other, isOther⟩ := Option.ne_none_iff_exists'.mp earlier
        obtain ⟨m, order, first, ends⟩ := induction k below isOther
        exact ⟨m, order.trans below.le, first, ends⟩

/-- Two calls which agree at every moment reached are in vain together. -/
theorem reaches_iff_of_agree
    (agree : ∀ n, Reaches left moments n →
      left (moments n) = right (moments n))
    (n : Nat) :
    Reaches left moments n ↔ Reaches right moments n := by
  induction n with
  | zero => exact ⟨fun _ => nofun, fun _ => nofun⟩
  | succ n induction =>
      have split (call : Moment → Option Result) :
          Reaches call moments (n + 1) ↔
            Reaches call moments n ∧ call (moments n) = none := by
        constructor
        · intro reaches
          exact
            ⟨fun k below => reaches k (below.trans n.lt_succ_self),
              reaches n n.lt_succ_self⟩
        · rintro ⟨reaches, now⟩ k below
          rcases Nat.lt_succ_iff_lt_or_eq.mp below with before | rfl
          · exact reaches k before
          · exact now
      rw [split, split, ← induction]
      apply and_congr_right
      intro reaches
      rw [agree n reaches]

/-- Having the same end is agreeing at every moment reached. -/
theorem sameEnd_iff :
    SameEnd left right moments ↔
      ∀ n, Reaches left moments n →
        left (moments n) = right (moments n) := by
  constructor
  · intro same n reaches
    cases found : left (moments n) with
    | some result =>
        exact ((same n result).mp ⟨reaches, found⟩).2.symm
    | none =>
        -- an end of the other call would be one of this call, too early
        cases other : right (moments n) with
        | none => rfl
        | some result =>
            obtain ⟨m, order, first, ends⟩ := exists_endsAt_le other
            have early := ((same m first).mpr ends).2
            rcases order.lt_or_eq with before | rfl
            · rw [reaches m before] at early
              cases early
            · rw [found] at early
              cases early
  · intro agree n result
    unfold EndsAt
    rw [reaches_iff_of_agree agree n]
    apply and_congr_right
    intro reaches
    rw [agree n ((reaches_iff_of_agree agree n).mpr reaches)]

end Vproc.Lib.Retry
