import Mathlib.Algebra.Order.Group.Nat
import Mathlib.Algebra.Order.Ring.Int
import Mathlib.Logic.Function.Iterate

/-!
# CrownFi.Lib.Ranked

**A step function that comes to an end.** Every step lowers a rank, and at rank
zero nothing changes any more; then the rank bounds how many steps are left, and
`finish` takes them all. What a computation ends in can be found by following it
step by step (`Ranked.finish_step`), and what every step preserves holds at its
end (`Ranked.finish_induction`).
-/

namespace Lib

variable {α : Type*} {step : α → α} {rank : α → Nat}

structure Ranked (step : α → α) (rank : α → Nat) : Prop where
  fixed : ∀ a, rank a = 0 → step a = a
  descends : ∀ a, rank a ≠ 0 → rank (step a) < rank a

/-- The end of a computation. -/
def finish (step : α → α) (rank : α → Nat) (a : α) : α := step^[rank a] a

namespace Ranked

/-- More steps than are left change nothing. -/
theorem iterate_eq_finish (h : Ranked step rank) {n : Nat} {a : α} (hn : rank a ≤ n) :
    step^[n] a = finish step rank a := by
  induction n using Nat.strongRecOn generalizing a with
  | _ n ih =>
    by_cases hended : rank a = 0
    · rw [finish, hended, Function.iterate_zero, id, Function.iterate_fixed (h.fixed a hended)]
    · have hless := h.descends a hended
      obtain ⟨r, hr⟩ := Nat.exists_eq_succ_of_ne_zero hended
      obtain ⟨m, rfl⟩ := Nat.exists_eq_succ_of_ne_zero (Nat.ne_of_gt (by omega : 0 < n))
      have hfinish : finish step rank a = step^[r] (step a) := by
        rw [finish, hr, Function.iterate_succ_apply]
      rw [Function.iterate_succ_apply, hfinish, ih m (by omega) (by omega), ih r (by omega) (by omega)]

/-- **One step** of a computation does not change its end. -/
theorem finish_step (h : Ranked step rank) (a : α) : finish step rank a = finish step rank (step a) := by
  by_cases hended : rank a = 0
  · rw [h.fixed a hended]
  · have hless := h.descends a hended
    have hall : step^[rank a + 1] a = finish step rank a := h.iterate_eq_finish (Nat.le_succ _)
    have hrest : step^[rank a] (step a) = finish step rank (step a) :=
      h.iterate_eq_finish (Nat.le_of_lt hless)
    rw [← hall, ← hrest, Function.iterate_succ_apply]

theorem finish_ended {a : α} (hended : rank a = 0) : finish step rank a = a := by
  rw [finish, hended, Function.iterate_zero, id]

/-- What every step preserves holds at the end. -/
theorem finish_induction {P : α → Prop} (hstep : ∀ a, P a → P (step a)) {a : α} (ha : P a) :
    P (finish step rank a) :=
  Function.Iterate.rec P ha hstep _

/-- **It does end.** -/
theorem rank_finish (h : Ranked step rank) (a : α) : rank (finish step rank a) = 0 := by
  induction hr : rank a using Nat.strongRecOn generalizing a with
  | _ r ih =>
    by_cases hended : rank a = 0
    · rw [finish_ended hended, hended]
    · rw [h.finish_step]
      exact ih _ (hr ▸ h.descends a hended) _ rfl

end Ranked

end Lib
