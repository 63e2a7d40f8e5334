import Mathlib.Algebra.BigOperators.Group.Finset.Basic
import Mathlib.Algebra.BigOperators.Ring.Finset
import Mathlib.Algebra.Order.BigOperators.Group.Finset
import Mathlib.Algebra.Order.Ring.Int
import Mathlib.Tactic.Linarith
import Mathlib.Tactic.Ring

/-!
# CrownFi.Lib.ProRata

**Pro-rata division with integer shares.** A total `T` is divided among parts in
proportion to weights `s i` that sum to `W`; each part is promised the rounded
down share `s i * T / W`. The shares of any group stay below the group's exact
proportion, and fall short of it by less than one unit a member. Hence whoever
takes what is left after everybody else gets at least the own share, and less
than the number of parts more than it.

A `Pot` is such a division under way: parts are paid one after the other, in any
order, and the part that completes the weight takes the remainder.
-/

namespace Lib

variable {ι : Type*}

/-- The rounded-down share of weight `s` in `T`, out of the total weight `W`. -/
def share (s T W : ℤ) : ℤ := s * T / W

theorem share_mul_le (s T : ℤ) {W : ℤ} (hW : 0 < W) : share s T W * W ≤ s * T :=
  Int.ediv_mul_le _ hW.ne'

theorem lt_share_add_one_mul (s T : ℤ) {W : ℤ} (hW : 0 < W) : s * T < (share s T W + 1) * W :=
  Int.lt_ediv_add_one_mul_self _ hW

theorem share_nonneg {s T W : ℤ} (hs : 0 ≤ s) (hT : 0 ≤ T) (hW : 0 < W) : 0 ≤ share s T W :=
  Int.ediv_nonneg (mul_nonneg hs hT) hW.le

/-- When the total is at least the total weight, nobody's share is below the own weight. -/
theorem le_share {s T W : ℤ} (hs : 0 ≤ s) (hW : 0 < W) (hT : W ≤ T) : s ≤ share s T W :=
  (Int.le_ediv_iff_mul_le hW).mpr (mul_le_mul_of_nonneg_left hT hs)

/-- The shares of a group stay within the group's exact proportion. -/
theorem sum_share_mul_le (C : Finset ι) (s : ι → ℤ) (T : ℤ) {W : ℤ} (hW : 0 < W) :
    (∑ i ∈ C, share (s i) T W) * W ≤ (∑ i ∈ C, s i) * T := by
  rw [Finset.sum_mul, Finset.sum_mul]
  exact Finset.sum_le_sum fun i _ => share_mul_le _ _ hW

/-- The shares of a group fall short of its exact proportion by at most one unit a member. -/
theorem sum_mul_le_share_add_card (C : Finset ι) (s : ι → ℤ) (T : ℤ) {W : ℤ} (hW : 0 < W) :
    (∑ i ∈ C, s i) * T ≤ (∑ i ∈ C, share (s i) T W + C.card) * W := by
  have hterm : ∀ i ∈ C, s i * T ≤ (share (s i) T W + 1) * W := fun i _ =>
    (lt_share_add_one_mul _ _ hW).le
  calc (∑ i ∈ C, s i) * T = ∑ i ∈ C, s i * T := Finset.sum_mul ..
    _ ≤ ∑ i ∈ C, (share (s i) T W + 1) * W := Finset.sum_le_sum hterm
    _ = (∑ i ∈ C, share (s i) T W + C.card) * W := by
        rw [← Finset.sum_mul, Finset.sum_add_distrib]; simp

/-- Shares of a group never exceed the total when its weight is within the total weight. -/
theorem sum_share_le (C : Finset ι) (s : ι → ℤ) {T W : ℤ} (hW : 0 < W) (hT : 0 ≤ T)
    (hC : ∑ i ∈ C, s i ≤ W) : ∑ i ∈ C, share (s i) T W ≤ T := by
  have h := sum_share_mul_le C s T hW
  have h' : (∑ i ∈ C, s i) * T ≤ W * T := mul_le_mul_of_nonneg_right hC hT
  by_contra hlt
  push Not at hlt
  have : (T + 1) * W ≤ (∑ i ∈ C, share (s i) T W) * W := mul_le_mul_of_nonneg_right hlt hW.le
  nlinarith

/-- **The remainder.** Whoever takes what everybody else's shares leave gets at
least the own share, and exceeds it by less than the number of parts. -/
theorem remainder_bounds [DecidableEq ι] {U : Finset ι} {s : ι → ℤ} {T W : ℤ} (hW : 0 < W)
    (hsum : ∑ i ∈ U, s i = W) {i : ι} (hi : i ∈ U) :
    share (s i) T W ≤ T - ∑ j ∈ U.erase i, share (s j) T W ∧
      T - ∑ j ∈ U.erase i, share (s j) T W < share (s i) T W + U.card := by
  have hall : ∑ j ∈ U, share (s j) T W = share (s i) T W + ∑ j ∈ U.erase i, share (s j) T W :=
    (Finset.add_sum_erase U _ hi).symm
  have hle := sum_share_mul_le U s T hW
  have hge := sum_mul_le_share_add_card (U.erase i) s T hW
  have hone := lt_share_add_one_mul (s i) T hW
  have hsplit : s i + ∑ j ∈ U.erase i, s j = W := by rw [Finset.add_sum_erase U _ hi, hsum]
  have hcard : ((U.erase i).card : ℤ) + 1 = U.card := by
    have := Finset.card_erase_add_one hi
    exact_mod_cast this
  rw [hsum, hall] at hle
  constructor
  · have : share (s i) T W + ∑ j ∈ U.erase i, share (s j) T W ≤ T :=
      le_of_mul_le_mul_right (by linarith) hW
    linarith
  · -- the other parts fall short by at most one unit each, this part by less than one
    have : T * W < (∑ j ∈ U.erase i, share (s j) T W + share (s i) T W + U.card) * W := by
      have hT : T * W = s i * T + (∑ j ∈ U.erase i, s j) * T := by rw [← add_mul, hsplit]; ring
      rw [hT, ← hcard]
      linarith
    have := lt_of_mul_lt_mul_right this hW.le
    linarith

/-! ### Groups given as lists -/

/-- The shares of a list of weights stay within the exact proportion. -/
theorem sum_shares_mul_le (l : List ℤ) (T : ℤ) {W : ℤ} (hW : 0 < W) :
    (l.map (share · T W)).sum * W ≤ l.sum * T := by
  induction l with
  | nil => simp
  | cons s rest ih =>
      have hone := share_mul_le s T hW
      simp only [List.map_cons, List.sum_cons, add_mul]
      linarith

/-- They fall short of it by less than one unit a weight. -/
theorem sum_mul_lt_shares_add_length {l : List ℤ} (hl : l ≠ []) (T : ℤ) {W : ℤ} (hW : 0 < W) :
    l.sum * T < ((l.map (share · T W)).sum + l.length) * W := by
  induction l with
  | nil => exact absurd rfl hl
  | cons s rest ih =>
      have hone := lt_share_add_one_mul s T hW
      have hrest : rest.sum * T ≤ ((rest.map (share · T W)).sum + rest.length) * W := by
        by_cases hnil : rest = []
        · simp [hnil]
        · exact (ih hnil).le
      simp only [List.map_cons, List.sum_cons, List.length_cons, Nat.cast_add, Nat.cast_one]
      linarith

/-- **What rounding down leaves over** of a whole total is not negative, and less than the
number of weights. -/
theorem leftover_bounds {l : List ℤ} (hl : l ≠ []) (T : ℤ) {W : ℤ} (hW : 0 < W)
    (hsum : l.sum = W) :
    0 ≤ T - (l.map (share · T W)).sum ∧ T - (l.map (share · T W)).sum < l.length := by
  have hle := sum_shares_mul_le l T hW
  have hlt := sum_mul_lt_shares_add_length hl T hW
  rw [hsum, mul_comm W T] at hle hlt
  constructor
  · have := le_of_mul_le_mul_right hle hW
    linarith
  · have := lt_of_mul_lt_mul_right hlt hW.le
    linarith

/-! ### Paying a pot out -/

/-- A total to be divided among finitely many parts with positive weights, not
smaller than the sum of the weights. -/
structure Pot (ι : Type*) where
  parts : Finset ι
  weight : ι → ℤ
  total : ℤ
  weight_pos : ∀ i ∈ parts, 0 < weight i
  weight_le_total : ∑ i ∈ parts, weight i ≤ total

namespace Pot

variable (p : Pot ι)

/-- The weight of a group of parts. -/
def weightOf (C : Finset ι) : ℤ := ∑ i ∈ C, p.weight i

/-- The rounded-down share of one part. -/
def shareOf (i : ι) : ℤ := share (p.weight i) p.total (p.weightOf p.parts)

variable {p} {C : Finset ι} {i : ι}

theorem weightOf_le (hC : C ⊆ p.parts) : p.weightOf C ≤ p.weightOf p.parts :=
  Finset.sum_le_sum_of_subset_of_nonneg hC fun i hi _ => (p.weight_pos i hi).le

theorem ne_parts (hi : i ∈ p.parts) (hiC : i ∉ C) : C ≠ p.parts := by
  rintro rfl
  exact hiC hi

theorem weightOf_pos (hi : i ∈ p.parts) : 0 < p.weightOf p.parts :=
  Finset.sum_pos p.weight_pos ⟨i, hi⟩

theorem weight_le_share (hi : i ∈ p.parts) : p.weight i ≤ p.shareOf i :=
  le_share (p.weight_pos i hi).le (weightOf_pos hi) p.weight_le_total

variable [DecidableEq ι]

variable (p) in
/-- What has been paid out once the parts in `C` are paid. -/
def paid (C : Finset ι) : ℤ := if C = p.parts then p.total else ∑ i ∈ C, p.shareOf i

variable (p) in
/-- What part `i` is paid when it comes after the parts in `C`. -/
def due (C : Finset ι) (i : ι) : ℤ :=
  if p.weightOf C + p.weight i = p.weightOf p.parts then p.total - p.paid C else p.shareOf i

theorem weightOf_insert (hi : i ∉ C) : p.weightOf (insert i C) = p.weightOf C + p.weight i := by
  rw [weightOf, Finset.sum_insert hi, add_comm, weightOf]

/-- The weights are positive, so only the whole group has the whole weight. -/
theorem weightOf_eq_iff (hC : C ⊆ p.parts) : p.weightOf C = p.weightOf p.parts ↔ C = p.parts := by
  refine ⟨fun h => ?_, fun h => by rw [h]⟩
  by_contra hne
  obtain ⟨j, hj, hjC⟩ := Finset.exists_of_ssubset (hC.ssubset_of_ne hne)
  have hle := weightOf_le (p := p) (Finset.insert_subset hj hC)
  rw [weightOf_insert hjC] at hle
  have := p.weight_pos j hj
  linarith

/-- **The test for the last part is exact**: the weights paid so far and the own
weight make up the total weight exactly when every other part has been paid. -/
theorem completes_iff (hC : C ⊆ p.parts) (hi : i ∈ p.parts) (hiC : i ∉ C) :
    p.weightOf C + p.weight i = p.weightOf p.parts ↔ C = p.parts.erase i := by
  rw [← weightOf_insert hiC, weightOf_eq_iff (Finset.insert_subset hi hC)]
  constructor
  · rintro h
    rw [← h, Finset.erase_insert hiC]
  · rintro rfl
    exact Finset.insert_erase hi

/-- One payment moves the paid amount by exactly what was due. -/
theorem paid_insert (hC : C ⊆ p.parts) (hi : i ∈ p.parts) (hiC : i ∉ C) :
    p.paid (insert i C) = p.paid C + p.due C i := by
  unfold due
  split
  · rename_i hlast
    rw [(completes_iff hC hi hiC).mp hlast, Finset.insert_erase hi, paid, if_pos rfl]
    ring
  · rename_i hlast
    have hne : insert i C ≠ p.parts := fun h => hlast <| by
      rw [← weightOf_insert hiC, h]
    rw [paid, if_neg hne, paid, if_neg (ne_parts hi hiC), Finset.sum_insert hiC]
    ring

/-- A pot is never overdrawn. -/
theorem paid_le (hC : C ⊆ p.parts) : p.paid C ≤ p.total := by
  unfold paid
  split
  · exact le_rfl
  · rename_i hne
    obtain ⟨j, hj, -⟩ := Finset.exists_of_ssubset (hC.ssubset_of_ne hne)
    have hW := weightOf_pos hj
    exact sum_share_le C p.weight hW (hW.le.trans p.weight_le_total) (weightOf_le hC)

theorem due_le (hC : C ⊆ p.parts) (hi : i ∈ p.parts) (hiC : i ∉ C) :
    p.due C i ≤ p.total - p.paid C := by
  have h := paid_le (p := p) (Finset.insert_subset hi hC)
  rw [paid_insert hC hi hiC] at h
  linarith

theorem paid_nonneg (hC : C ⊆ p.parts) : 0 ≤ p.paid C := by
  unfold paid
  split
  · exact (Finset.sum_nonneg fun i hi => (p.weight_pos i hi).le).trans p.weight_le_total
  · exact Finset.sum_nonneg fun i hi =>
      (p.weight_pos i (hC hi)).le.trans (weight_le_share (hC hi))

/-- Every payment is the own share, but the last, which is less than the number of
parts above it. -/
theorem due_bounds (hC : C ⊆ p.parts) (hi : i ∈ p.parts) (hiC : i ∉ C) :
    p.shareOf i ≤ p.due C i ∧ p.due C i < p.shareOf i + p.parts.card := by
  have hcard : (0 : ℤ) < p.parts.card := by exact_mod_cast Finset.card_pos.mpr ⟨i, hi⟩
  unfold due
  split
  · rename_i hlast
    obtain rfl := (completes_iff hC hi hiC).mp hlast
    rw [paid, if_neg (ne_parts hi hiC)]
    exact remainder_bounds (weightOf_pos hi) rfl hi
  · exact ⟨le_rfl, by linarith⟩

/-- Nobody is paid less than the own weight. -/
theorem weight_le_due (hC : C ⊆ p.parts) (hi : i ∈ p.parts) (hiC : i ∉ C) :
    p.weight i ≤ p.due C i :=
  (weight_le_share hi).trans (due_bounds hC hi hiC).1

end Pot

end Lib
