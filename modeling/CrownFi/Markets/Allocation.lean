import CrownFi.Markets.PlanTotal

/-!
# CrownFi.Markets.Allocation

**What each winner of a market is paid.** The planner rounds every share down and hands the leftover
out, one unit to a row, from the first row on. The leftover is smaller than the number of winners, so
the loop never comes back to the first row: the first rows have one unit more than their rounded-down
share, and the others have exactly that (`handOut_floorShares`).
-/

namespace CrownFi.Markets.Positions

open Lib CrownFi.Api

variable {positions winners : List ActivePosition} {winner : Uuid} {market : SettlementContext}
  {distributable stake : Int} {plan : Plan}

/-- The rows of the winners: one unit more for the first `extra` of them. -/
def rowsWith (winners : List ActivePosition) (distributable stake extra : Int) : List PlannedPayout :=
  winners.mapIdx fun i p =>
    ⟨p, share p.amountMinor distributable stake + if (i : Int) < extra then 1 else 0⟩

/-- **The loop ends within one pass.** -/
theorem handOut_floorShares {extra : Nat} (h : extra ≤ winners.length) :
    handOut (winners.map (floorShare distributable stake)) 0 extra =
      rowsWith winners distributable stake extra := by
  refine List.ext_getElem? fun i => ?_
  have hroom : 0 + extra ≤ (winners.map (floorShare distributable stake)).length := by
    rw [List.length_map]
    omega
  rw [handOut_getElem? hroom, rowsWith, List.getElem?_mapIdx, List.getElem?_map, Option.map_map]
  refine congrArg (Option.map · winners[i]?) (funext fun p => ?_)
  by_cases hi : i < extra
  · simp [hi, floorShare]
  · simp [hi, floorShare]

/-- A sum of amounts beyond the range of `i64` is refused. -/
theorem sumFrom_fails {total : Int} {amounts : List Int} (htotal : 0 ≤ total) (hmax : total < 2 ^ 63)
    (hamounts : ∀ n ∈ amounts, 0 ≤ n) (hsum : 2 ^ 63 ≤ total + amounts.sum) :
    sumFrom total amounts = .error amountOverflow := by
  induction amounts generalizing total with
  | nil =>
      rw [List.sum_nil] at hsum
      omega
  | cons n rest ih =>
      have hn := hamounts n List.mem_cons_self
      rw [List.sum_cons] at hsum
      rw [sumFrom]
      by_cases hnext : total + n < 2 ^ 63
      · rw [orOverflow_eq_ok.mpr (checkedI64_of_range (by omega) hnext), ok_bind]
        exact ih (by omega) hnext (fun m hm => hamounts m (List.mem_cons_of_mem _ hm)) (by omega)
      · have hout : ¬ inI64 (total + n) := fun hin => hnext hin.2
        rw [checkedI64, if_neg hout]
        rfl

/-- The plan of a payout, to the unit, and the range of every number that it is made of. -/
structure Plan.Allocated (plan : Plan) (market : SettlementContext) (positions : List ActivePosition)
    (winner : Uuid) : Prop where
  distributable : plan.distributableMinor = afterFee market positions
  leftover_nonneg : 0 ≤ leftover (winnersOf positions winner) (afterFee market positions)
    (staked (winnersOf positions winner))
  leftover_lt : leftover (winnersOf positions winner) (afterFee market positions)
    (staked (winnersOf positions winner)) < (winnersOf positions winner).length
  rows : plan.rows = sortRows (rowsWith (winnersOf positions winner) (afterFee market positions)
    (staked (winnersOf positions winner)) (leftover (winnersOf positions winner)
      (afterFee market positions) (staked (winnersOf positions winner))))
  floors : ∀ r ∈ plan.rows,
    r.payoutMinor = share r.position.amountMinor (afterFee market positions)
      (staked (winnersOf positions winner)) ∨
    r.payoutMinor = share r.position.amountMinor (afterFee market positions)
      (staked (winnersOf positions winner)) + 1
  paid : (plan.rows.map (·.payoutMinor)).sum = plan.distributableMinor
  inRange : ∀ r ∈ plan.rows, 0 ≤ r.payoutMinor ∧ r.payoutMinor ≤ afterFee market positions
  afterFee_range : 0 ≤ afterFee market positions ∧ afterFee market positions < 2 ^ 63
  fee_range : 0 ≤ staked positions * market.feeBps ∧ staked positions * market.feeBps < 2 ^ 127
  product_range : ∀ p ∈ winnersOf positions winner,
    0 ≤ p.amountMinor * afterFee market positions ∧ p.amountMinor * afterFee market positions < 2 ^ 127

theorem mem_rowsWith {extra : Int} {r : PlannedPayout}
    (h : r ∈ rowsWith winners distributable stake extra) :
    r.payoutMinor = share r.position.amountMinor distributable stake ∨
      r.payoutMinor = share r.position.amountMinor distributable stake + 1 := by
  obtain ⟨i, hi⟩ := List.mem_iff_getElem?.mp h
  rw [rowsWith, List.getElem?_mapIdx] at hi
  obtain ⟨p, -, rfl⟩ := Option.map_eq_some_iff.mp hi
  by_cases hextra : (i : Int) < extra
  · exact .inr (by simp [hextra])
  · exact .inl (by simp [hextra])

/-- The range of what is distributed. -/
theorem afterFee_range (hamounts : ∀ p ∈ positions, 0 < p.amountMinor) (hne : positions ≠ [])
    (hfee : 0 ≤ market.feeBps ∧ market.feeBps ≤ 1000) (hstakes : staked positions < 2 ^ 63) :
    (0 ≤ staked positions * market.feeBps ∧ staked positions * market.feeBps < 2 ^ 127) ∧
      0 ≤ afterFee market positions ∧ afterFee market positions < 2 ^ 63 := by
  have hpos : 0 < staked positions := staked_pos hamounts hne
  have hproduct : 0 ≤ staked positions * market.feeBps := mul_nonneg hpos.le hfee.1
  have hle : staked positions * market.feeBps ≤ staked positions * 1000 :=
    mul_le_mul_of_nonneg_left hfee.2 hpos.le
  unfold afterFee
  omega

/-- The product of two amounts in the range of `i64` is in that of `i128`. -/
theorem mul_lt_i128 {a b : Int} (ha : 0 ≤ a) (hamax : a < 2 ^ 63) (hb : 0 ≤ b) (hbmax : b < 2 ^ 63) :
    0 ≤ a * b ∧ a * b < 2 ^ 127 := by
  refine ⟨mul_nonneg ha hb, ?_⟩
  calc a * b ≤ 2 ^ 63 * 2 ^ 63 := mul_le_mul hamax.le hbmax.le hb (by norm_num)
    _ < 2 ^ 127 := by norm_num

/-- **The allocation of a payout.** -/
theorem planSettlement_allocated (hwinner : market.winningOutcomeId = some winner)
    (hne : winnersOf positions winner ≠ []) (hamounts : ∀ p ∈ positions, 0 < p.amountMinor)
    (hfee : 0 ≤ market.feeBps ∧ market.feeBps ≤ 1000) (hstakes : staked positions < 2 ^ 63) :
    ∃ plan, planSettlement .payout market positions = .ok plan ∧
      plan.Allocated market positions winner := by
  have hwinners (p : ActivePosition) (hp : p ∈ winnersOf positions winner) : 0 < p.amountMinor :=
    hamounts p (List.mem_filter.mp hp).1
  have hpositions : positions ≠ [] := by
    rintro rfl
    exact hne rfl
  obtain ⟨hfees, hafter⟩ := afterFee_range hamounts hpositions hfee hstakes
  obtain ⟨hleft, hlt⟩ := leftover_range (afterFee market positions) hne hwinners
  obtain ⟨plan, hplan⟩ := planSettlement_payout_succeeds hwinner hne hamounts hfee hstakes
  obtain ⟨winner', rows, -, hsum, hmarket, -, htotal, hplanFee, hdist, hrows, hsorted⟩ :=
    planSettlement_payout hplan
  obtain rfl := Option.some.inj (hwinner.symm.trans hmarket)
  have hdist' : plan.distributableMinor = afterFee market positions := by
    rw [hdist, hplanFee, htotal]
    show staked positions - (staked positions * market.feeBps).tdiv 10000 = _
    rw [Int.tdiv_eq_ediv_of_nonneg hfees.1]
    rfl
  -- the loop hands out less than one round
  have hplanned : plan.rows = sortRows (rowsWith (winnersOf positions winner) (afterFee market positions)
      (staked (winnersOf positions winner)) (leftover (winnersOf positions winner)
        (afterFee market positions) (staked (winnersOf positions winner)))) := by
    rw [hdist', payoutRows_eq hne hamounts hafter.1 hafter.2 hstakes,
      handOut_floorShares (by omega), Int.toNat_of_nonneg hleft] at hrows
    rw [hsorted, ← Except.ok.inj hrows]
  have hfloors (r : PlannedPayout) (hr : r ∈ plan.rows) :=
    mem_rowsWith (mem_sortRows.mp (hplanned ▸ hr))
  have hnonneg := planSettlement_nonneg hplan hamounts hfee
  refine ⟨plan, hplan, hdist', hleft, hlt, hplanned, hfloors, hsum, fun r hr => ⟨hnonneg r hr, ?_⟩,
    hafter, hfees, fun p hp => ?_⟩
  · -- no payout is more than all of them
    rw [← hdist', ← hsum]
    exact List.single_le_sum (by
      intro n hn
      obtain ⟨r', hr', rfl⟩ := List.mem_map.mp hn
      exact hnonneg r' hr') _ (List.mem_map_of_mem hr)
  · have hamount := hwinners p hp
    have hmax : p.amountMinor ≤ staked (winnersOf positions winner) := by
      refine List.single_le_sum ?_ _ (List.mem_map_of_mem hp)
      intro n hn
      obtain ⟨q, hq, rfl⟩ := List.mem_map.mp hn
      exact (hwinners q hq).le
    have hle := staked_winnersOf_le hamounts winner
    exact mul_lt_i128 hamount.le (by omega) hafter.1 hafter.2

/-- **Every payout is allocated, or its stakes are refused as too large.** In particular the check
that the payouts add up never fails. -/
theorem settlement_allocation (hwinner : market.winningOutcomeId = some winner)
    (hne : winnersOf positions winner ≠ [])
    (hamounts : ∀ p ∈ positions, 0 < p.amountMinor ∧ p.amountMinor < 2 ^ 63)
    (hfee : 0 ≤ market.feeBps ∧ market.feeBps ≤ 1000) :
    if staked positions < 2 ^ 63 then
      ∃ plan, planSettlement .payout market positions = .ok plan ∧
        plan.Allocated market positions winner
    else planSettlement .payout market positions = .error amountOverflow := by
  have hpositive (p : ActivePosition) (hp : p ∈ positions) : 0 < p.amountMinor := (hamounts p hp).1
  split
  · rename_i hstakes
    exact planSettlement_allocated hwinner hne hpositive hfee hstakes
  · rename_i hstakes
    have hpositions : positions ≠ [] := by
      rintro rfl
      exact hne rfl
    have hfails : sumFrom 0 (positions.map (·.amountMinor)) = .error amountOverflow := by
      refine sumFrom_fails le_rfl (by norm_num) (fun n hn => ?_) ?_
      · obtain ⟨p, hp, rfl⟩ := List.mem_map.mp hn
        exact (hpositive p hp).le
      · rw [zero_add]
        exact not_lt.mp hstakes
    simp only [planSettlement, if_neg hpositions, hfails]
    rfl

/-- Two winners with five of eleven units: one unit is left over, and the first has it. -/
theorem elevenUnits_allocated :
    ∃ plan, planSettlement .payout ⟨7, .resolved, 100, some 8⟩
        [⟨1, 8, 3, 4⟩, ⟨2, 8, 2, 5⟩, ⟨3, 9, 6, 6⟩] = .ok plan ∧
      plan.Allocated ⟨7, .resolved, 100, some 8⟩ [⟨1, 8, 3, 4⟩, ⟨2, 8, 2, 5⟩, ⟨3, 9, 6, 6⟩] 8 := by
  have h := @settlement_allocation [⟨1, 8, 3, 4⟩, ⟨2, 8, 2, 5⟩, ⟨3, 9, 6, 6⟩] 8 ⟨7, .resolved, 100, some 8⟩
    rfl (by decide) (by decide) (by decide)
  rwa [if_pos (by decide)] at h

end CrownFi.Markets.Positions
