import CrownFi.Payouts.Handlers
import Mathlib.Data.Rat.Floor

/-!
# CrownFi.Payouts.Split

**The split of an order's amount.** Candidate and organizer have their shares rounded down, and the
platform takes the rest. Their two roundings leave it less than two units more than its exact share, so
it has that share rounded down and at most two units more (`calculateSplit_exact`), and there are splits
where it has both (`split_of_two`). For amounts of `i64` nothing overflows on the way.
-/

namespace CrownFi.Payouts

open Lib CrownFi.Api

variable {total candidateBps organizerBps platformBps : Int}

/-- What the validators accept. -/
theorem validateBps_eq_ok (h : validateBps.{0} candidateBps organizerBps platformBps = .ok ⟨⟩) :
    0 ≤ candidateBps ∧ 0 ≤ organizerBps ∧ 0 ≤ platformBps ∧
      candidateBps + organizerBps + platformBps = 10000 := by
  unfold validateBps at h
  split at h
  · cases h
  · omega

/-- The share of an amount in basis points, rounded down. -/
def bpsFloor (total bps : Int) : Int := ⌊(total : ℚ) * bps / 10000⌋

theorem bpsFloor_eq (bps : Int) : bpsFloor total bps = total * bps / 10000 := by
  have h := Rat.floor_intCast_div_natCast (total * bps) 10000
  push_cast at h
  exact h

theorem tdiv_eq_bpsFloor {bps : Int} (htotal : 0 < total) (hbps : 0 ≤ bps) :
    (total * bps).tdiv 10000 = bpsFloor total bps := by
  rw [bpsFloor_eq]
  exact Int.tdiv_eq_ediv_of_nonneg (mul_nonneg htotal.le hbps)

/-- A share is within the amount. -/
theorem bpsFloor_range {bps : Int} (htotal : 0 < total) (hbps : 0 ≤ bps) (hmax : bps ≤ 10000) :
    0 ≤ bpsFloor total bps ∧ bpsFloor total bps ≤ total := by
  have hlow : 0 ≤ total * bps := mul_nonneg htotal.le hbps
  have hhigh : total * bps ≤ total * 10000 := mul_le_mul_of_nonneg_left hmax htotal.le
  rw [bpsFloor_eq]
  omega

/-- The three shares of an amount, the last of them being the rest. -/
def exactSplit (total candidateBps organizerBps : Int) : Split where
  candidate := bpsFloor total candidateBps
  organizer := bpsFloor total organizerBps
  platform := total - bpsFloor total candidateBps - bpsFloor total organizerBps

/-- **Two roundings lose less than two units**, and the third less than one. -/
theorem exactSplit_platform (hsum : candidateBps + organizerBps + platformBps = 10000) :
    bpsFloor total platformBps ≤ (exactSplit total candidateBps organizerBps).platform ∧
      (exactSplit total candidateBps organizerBps).platform ≤ bpsFloor total platformBps + 2 := by
  have hparts : total * candidateBps + total * organizerBps + total * platformBps = total * 10000 := by
    rw [← mul_add, ← mul_add, hsum]
  simp only [exactSplit, bpsFloor_eq]
  omega

theorem checkedI128_of_range {n : Int} (hlow : 0 ≤ n) (hhigh : n < 2 ^ 127) :
    checkedI128 n = some n := by
  have hin : -2 ^ 127 ≤ n ∧ n < 2 ^ 127 := ⟨by omega, hhigh⟩
  rw [checkedI128, if_pos hin]

theorem checkedI64_of_within {n : Int} (hlow : 0 ≤ n) (hle : n ≤ total) (hmax : total < 2 ^ 63) :
    checkedI64 n = some n := by
  have hin : inI64 n := ⟨by omega, by omega⟩
  rw [checkedI64, if_pos hin]

/-- **Every split is exact.** It is never refused, its shares are in range and add up to the amount, the
first two are rounded down and the third is at most two units above its own share, rounded down. -/
theorem calculateSplit_exact (htotal : 0 < total) (hmax : total < 2 ^ 63)
    (hbps : validateBps.{0} candidateBps organizerBps platformBps = .ok ⟨⟩) :
    ∃ split, calculateSplit total candidateBps organizerBps platformBps = .ok split ∧
      (0 ≤ split.candidate ∧ split.candidate < 2 ^ 63) ∧
      (0 ≤ split.organizer ∧ split.organizer < 2 ^ 63) ∧
      (0 ≤ split.platform ∧ split.platform < 2 ^ 63) ∧
      split.candidate + split.organizer + split.platform = total ∧
      split.candidate = ⌊(total : ℚ) * candidateBps / 10000⌋ ∧
      split.organizer = ⌊(total : ℚ) * organizerBps / 10000⌋ ∧
      ⌊(total : ℚ) * platformBps / 10000⌋ ≤ split.platform ∧
      split.platform ≤ ⌊(total : ℚ) * platformBps / 10000⌋ + 2 := by
  obtain ⟨hc, ho, hp, hsum⟩ := validateBps_eq_ok hbps
  obtain ⟨hclow, hchigh⟩ := bpsFloor_range htotal hc (by omega)
  obtain ⟨holow, hohigh⟩ := bpsFloor_range htotal ho (by omega)
  obtain ⟨hplow, -⟩ := bpsFloor_range htotal hp (by omega)
  obtain ⟨hplatform, hplatform'⟩ := @exactSplit_platform total _ _ _ hsum
  have hrest : 0 ≤ (exactSplit total candidateBps organizerBps).platform := hplow.trans hplatform
  have hrest' : (exactSplit total candidateBps organizerBps).platform ≤ total := by
    show total - bpsFloor total candidateBps - bpsFloor total organizerBps ≤ total
    omega
  -- the products, which are the largest numbers on the way
  have hproduct (bps : Int) (hlow : 0 ≤ bps) (hle : bps ≤ 10000) :
      checkedI128 (total * bps) = some (total * bps) := by
    have hhigh : total * bps ≤ total * 10000 := mul_le_mul_of_nonneg_left hle htotal.le
    exact checkedI128_of_range (mul_nonneg htotal.le hlow) (by omega)
  have hvalue : calculateSplit total candidateBps organizerBps platformBps =
      .ok (exactSplit total candidateBps organizerBps) := by
    have hfirst : checkedI128 (total - bpsFloor total candidateBps) =
        some (total - bpsFloor total candidateBps) := checkedI128_of_range (by omega) (by omega)
    have hsecond : checkedI128 (total - bpsFloor total candidateBps - bpsFloor total organizerBps) =
        some (exactSplit total candidateBps organizerBps).platform :=
      checkedI128_of_range hrest (by show (exactSplit _ _ _).platform < _; omega)
    simp only [calculateSplit, if_neg (not_le.mpr htotal), hbps, hproduct _ hc (by omega),
      hproduct _ ho (by omega), okOr, bind, Except.bind, pure, Except.pure,
      tdiv_eq_bpsFloor htotal hc, tdiv_eq_bpsFloor htotal ho, hfirst, Option.bind, hsecond,
      checkedI64_of_within hclow hchigh hmax, checkedI64_of_within holow hohigh hmax,
      checkedI64_of_within hrest hrest' hmax]
    rfl
  refine ⟨_, hvalue, ⟨hclow, hchigh.trans_lt hmax⟩, ⟨holow, hohigh.trans_lt hmax⟩,
    ⟨hrest, hrest'.trans_lt hmax⟩, ?_, rfl, rfl, hplatform, hplatform'⟩
  show bpsFloor total candidateBps + bpsFloor total organizerBps +
    (total - bpsFloor total candidateBps - bpsFloor total organizerBps) = total
  omega

/-- The split of the source's own test. -/
theorem split_of_test : ∃ split, calculateSplit 10000001 7000 2000 1000 = .ok split ∧
    split.candidate + split.organizer + split.platform = 10000001 ∧ split.platform = 1000001 := by
  obtain ⟨split, hsplit, -, -, -, hsum, hc, ho, -⟩ :=
    @calculateSplit_exact 10000001 7000 2000 1000 (by norm_num) (by norm_num) rfl
  refine ⟨split, hsplit, hsum, ?_⟩
  norm_num at hc ho
  omega

/-- Two units in nearly equal parts: the first two shares round down to nothing, and the platform, whose
exact share is below one unit, has both. -/
theorem split_of_two : ¬ ∀ total candidateBps organizerBps platformBps : Int, 0 < total →
    total < 2 ^ 63 → validateBps.{0} candidateBps organizerBps platformBps = .ok ⟨⟩ →
    ∃ split, calculateSplit total candidateBps organizerBps platformBps = .ok split ∧
      split.platform ≤ ⌊(total : ℚ) * platformBps / 10000⌋ + 1 := by
  intro h
  obtain ⟨split, hsplit, hle⟩ := h 2 3333 3333 3334 (by norm_num) (by norm_num) rfl
  have hvalue : calculateSplit 2 3333 3333 3334 = .ok ⟨0, 0, 2⟩ := by decide
  obtain rfl := Except.ok.inj (hsplit.symm.trans hvalue)
  norm_num at hle

end CrownFi.Payouts
