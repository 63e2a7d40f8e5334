import Mathlib.Algebra.Order.Ring.Int
import Mathlib.Data.List.Nodup
import Mathlib.Tactic.Linarith

/-!
# CrownFi.Lib.Numbering

**Numbers in a row.** `following last count` are the `count` numbers after `last`. Whoever numbers
things takes the highest number so far and goes on from there; what was in a row from 1 on then
still is.
-/

namespace Lib

/-- The numbers after `last`, so many of them. -/
def following (last : Int) : Nat → List Int
  | 0 => []
  | count + 1 => (last + 1) :: following (last + 1) count

variable {last : Int} {count : Nat}

@[simp] theorem following_length : (following last count).length = count := by
  induction count generalizing last with
  | zero => rfl
  | succ count ih => rw [following, List.length_cons, ih]

theorem mem_following {n : Int} : n ∈ following last count ↔ last < n ∧ n ≤ last + count := by
  induction count generalizing last with
  | zero =>
      simp only [following, List.not_mem_nil, false_iff, Nat.cast_zero, add_zero, not_and, not_le]
      exact fun h => h
  | succ count ih =>
      rw [following, List.mem_cons, ih]
      push_cast
      omega

theorem following_nodup : (following last count).Nodup := by
  induction count generalizing last with
  | zero => exact List.nodup_nil
  | succ count ih =>
      rw [following, List.nodup_cons]
      refine ⟨fun hmem => ?_, ih⟩
      have := (mem_following.mp hmem).1
      omega

/-- The numbers that go on where others ended. -/
theorem following_add {more : Nat} :
    following last (count + more) = following last count ++ following (last + count) more := by
  induction count generalizing last with
  | zero => simp [following]
  | succ count ih =>
      have hcount : count + 1 + more = (count + more) + 1 := by omega
      have hlast : last + 1 + (count : Int) = last + ((count + 1 : Nat) : Int) := by
        push_cast
        omega
      rw [hcount, following, ih, hlast, following, List.cons_append]

/-- One more number at the end. -/
theorem following_succ : following last (count + 1) = following last count ++ [last + count + 1] :=
  following_add

/-- The highest of the numbers from 1 on. -/
theorem following_max : (following 0 count).max?.getD 0 = count := by
  cases count with
  | zero => rfl
  | succ count =>
      have hmax : (following 0 (count + 1)).max? = some ((count + 1 : Nat) : Int) := by
        refine List.max?_eq_some_iff.mpr ⟨mem_following.mpr ⟨by omega, by omega⟩, fun n hn => ?_⟩
        have := (mem_following.mp hn).2
        omega
      rw [hmax, Option.getD_some]

end Lib
