import CrownFi.Markets.Plans
import CrownFi.PredictionContract.Payouts

/-!
# CrownFi.Markets.FeeRule

**Whether a plan charges the fee that the contract charges.** A claim on the contract pays
the fee out of the claimant's profit. A plan takes the fee out of the whole pool, the
winners' own stakes included, and divides what is left.

`FeeRule` says what it means for a plan to follow the contract. A plan does so when its fee
rounds to nothing, or when there is one winner and the fee is within the fee on the profit;
and whenever it does so, the fee is within the fee on the profit (`WithinProfit`), which no
plan is whose winners staked `10000 / feeBps` units or more.
-/

namespace CrownFi.Markets.Positions

open Lib CrownFi.Api PredictionContract

/-- What positions add up to. -/
def staked (positions : List ActivePosition) : Int := (positions.map (·.amountMinor)).sum

/-- The positions on the winning outcome. -/
def winnersOf (positions : List ActivePosition) (winner : Uuid) : List ActivePosition :=
  positions.filter (·.outcomeId = winner)

variable {positions winners : List ActivePosition} {winner : Uuid} {rows : List PlannedPayout}
  {distributable stake allocated total : Int} {r : PlannedPayout}

/-! ### The payouts of the rows -/

theorem shares_payouts (h : shares distributable stake allocated winners = .ok (rows, total)) :
    (∀ r ∈ rows, r.payoutMinor = (r.position.amountMinor * distributable).tdiv stake) ∧
      total = allocated + (rows.map (·.payoutMinor)).sum := by
  induction winners generalizing allocated rows total with
  | nil =>
      obtain ⟨rfl, rfl⟩ := Prod.mk.inj (Except.ok.inj h)
      simp
  | cons w rest ih =>
      simp only [shares, bind_eq_ok, orOverflow_eq_ok] at h
      obtain ⟨payout, hpayout, allocated', hallocated, ⟨rows', total'⟩, hrest, heq⟩ := h
      obtain ⟨rfl, rfl⟩ := Prod.mk.inj (Except.ok.inj heq)
      obtain ⟨hrows, htotal⟩ := ih hrest
      have hfloor := checkedI64_eq_some hpayout
      constructor
      · intro r hr
        rcases List.mem_cons.mp hr with rfl | hr
        · exact hfloor
        · exact hrows r hr
      · rw [htotal, checkedI64_eq_some hallocated, List.map_cons, List.sum_cons, add_assoc]

/-- While the loop does not wrap around, it pays one unit to each row from `index` on. -/
theorem handOut_getElem? {index remainder : Nat} (h : index + remainder ≤ rows.length) (i : Nat) :
    (handOut rows index remainder)[i]? = rows[i]?.map fun r =>
      if index ≤ i ∧ i < index + remainder then { r with payoutMinor := r.payoutMinor + 1 } else r := by
  induction remainder generalizing rows index with
  | zero =>
      have hnone : ¬ (index ≤ i ∧ i < index + 0) := by omega
      simp only [handOut, if_neg hnone, Option.map_id']
  | succ remainder ih =>
      have hlength : (addUnit rows index).length = rows.length := by simp [addUnit]
      have hrow : (addUnit rows index)[i]? = rows[i]?.map fun r =>
          if index = i then { r with payoutMinor := r.payoutMinor + 1 } else r := by
        simp only [addUnit, List.getElem?_modify]
        cases rows[i]? with
        | none => rfl
        | some r => by_cases hi : index = i <;> simp [hi]
      rw [handOut]
      by_cases hlast : index + 1 = rows.length
      · obtain rfl : remainder = 0 := by omega
        rw [handOut, hrow]
        have hiff : (index = i) = (index ≤ i ∧ i < index + (0 + 1)) := by
          apply propext
          omega
        simp only [hiff]
      · have hmod : (index + 1) % rows.length = index + 1 := Nat.mod_eq_of_lt (by omega)
        rw [hmod, ih (by omega), hrow, Option.map_map]
        refine congrArg (Option.map · rows[i]?) (funext fun r => ?_)
        by_cases hi : index = i
        · subst hi
          have hin : index ≤ index ∧ index < index + (remainder + 1) := by omega
          have hout : ¬ (index + 1 ≤ index ∧ index < index + 1 + remainder) := by omega
          simp only [Function.comp_apply, if_true, if_pos hin, if_neg hout]
        · have hiff : (index + 1 ≤ i ∧ i < index + 1 + remainder) =
              (index ≤ i ∧ i < index + (remainder + 1)) := by
            apply propext
            omega
          simp only [Function.comp_apply, if_neg hi, hiff]

/-- A row is handed one unit at most, and none where nothing is left over. -/
theorem mem_handOut {remainder : Nat} (h : remainder ≤ rows.length)
    (hr : r ∈ handOut rows 0 remainder) :
    ∃ r' ∈ rows, r.position = r'.position ∧ r'.payoutMinor ≤ r.payoutMinor ∧
      r.payoutMinor ≤ r'.payoutMinor + min 1 remainder := by
  obtain ⟨i, hi⟩ := List.mem_iff_getElem?.mp hr
  rw [handOut_getElem? (by omega)] at hi
  obtain ⟨r', hr', rfl⟩ := Option.map_eq_some_iff.mp hi
  refine ⟨r', List.mem_of_getElem? hr', ?_⟩
  by_cases hin : 0 ≤ i ∧ i < 0 + remainder
  · rw [if_pos hin]
    have hone : 1 ≤ remainder := by omega
    simp [hone]
  · rw [if_neg hin]
    simp

theorem staked_pos (h : ∀ p ∈ positions, 0 < p.amountMinor) (hne : positions ≠ []) :
    0 < staked positions := by
  unfold staked
  refine List.sum_pos _ ?_ (by simpa using hne)
  intro n hn
  obtain ⟨p, hp, rfl⟩ := List.mem_map.mp hn
  exact h p hp

theorem staked_winnersOf_le (h : ∀ p ∈ positions, 0 < p.amountMinor) (winner : Uuid) :
    staked (winnersOf positions winner) ≤ staked positions := by
  refine List.Sublist.sum_le_sum (List.filter_sublist.map _) ?_
  intro n hn
  obtain ⟨p, hp, rfl⟩ := List.mem_map.mp hn
  exact (h p hp).le

/-- **The rows of a payout** pay the rounded-down share, or less than the number of
winners more. -/
theorem payoutRows_bounds (h : payoutRows positions winner distributable = .ok rows)
    (hamounts : ∀ p ∈ positions, 0 < p.amountMinor) (hdist : 0 ≤ distributable) :
    0 < staked (winnersOf positions winner) ∧ ∀ r ∈ rows,
      share r.position.amountMinor distributable (staked (winnersOf positions winner)) ≤
        r.payoutMinor ∧
      r.payoutMinor <
        share r.position.amountMinor distributable (staked (winnersOf positions winner)) +
          (winnersOf positions winner).length := by
  simp only [payoutRows, throw_bind, guard_eq_ok, bind_eq_ok] at h
  obtain ⟨hne, stake, hstake, ⟨rows', allocated⟩, hshares, heq⟩ := h
  obtain rfl := Except.ok.inj heq
  obtain rfl : stake = staked (winnersOf positions winner) := by
    rw [sumFrom_eq hstake, zero_add]
    rfl
  have hwinners (p : ActivePosition) (hp : p ∈ winnersOf positions winner) : 0 < p.amountMinor :=
    hamounts p (List.mem_filter.mp hp).1
  have hpos := staked_pos hwinners hne
  have hpositions := shares_positions hshares
  obtain ⟨hpayouts, hallocated⟩ := shares_payouts hshares
  -- each row of `shares` is the rounded-down share
  have hshare (r : PlannedPayout) (hr : r ∈ rows') : r.payoutMinor =
      share r.position.amountMinor distributable (staked (winnersOf positions winner)) := by
    have hmem : r.position ∈ winnersOf positions winner := by
      have hin := List.mem_map_of_mem (f := (·.position)) hr
      rwa [hpositions] at hin
    rw [hpayouts r hr, share, Int.tdiv_eq_ediv_of_nonneg]
    exact mul_nonneg (hwinners _ hmem).le hdist
  have hlength : rows'.length = (winnersOf positions winner).length := by
    rw [winnersOf, ← hpositions, List.length_map]
  have hsum : allocated = (((winnersOf positions winner).map (·.amountMinor)).map
      (share · distributable (staked (winnersOf positions winner)))).sum := by
    rw [hallocated, zero_add, List.map_congr_left hshare, winnersOf, ← hpositions]
    simp only [List.map_map]
    rfl
  obtain ⟨hnonneg, hlt⟩ := leftover_bounds (l := (winnersOf positions winner).map (·.amountMinor))
    (mt List.map_eq_nil_iff.mp hne) distributable hpos rfl
  rw [← hsum] at hnonneg hlt
  rw [List.length_map] at hlt
  have hroom : (distributable - allocated).toNat ≤ rows'.length := by omega
  refine ⟨hpos, fun r hr => ?_⟩
  obtain ⟨r', hr', hposition, hge, hle⟩ := mem_handOut hroom hr
  have heq := hshare r' hr'
  rw [← hposition] at heq
  constructor
  · linarith
  · omega

/-! ### The same stakes on the contract -/

/-- The account of a contract market with the stakes of the positions, where `owner` is the
address that each winning position belongs to. -/
structure Mirrors (x : Account) (market : SettlementContext) (positions : List ActivePosition)
    (winner : Uuid) (owner : ActivePosition → Address) : Prop where
  feeBps : (x.info.feeBps : Int) = market.feeBps
  totalPool : x.info.totalPool = staked positions
  distinct : ((winnersOf positions winner).map owner).Nodup
  stakes : ∀ p ∈ winnersOf positions winner, x.winningStake (owner p) = p.amountMinor
  winners : ∀ u ∈ x.winnerSet, u ∈ (winnersOf positions winner).map owner

variable {x : Account} {market : SettlementContext} {owner : ActivePosition → Address}

theorem Mirrors.winners_eq (h : Mirrors x market positions winner owner) (hb : x.Booked)
    (hamounts : ∀ p ∈ positions, 0 < p.amountMinor) :
    hb.winners = ((winnersOf positions winner).map owner).toFinset := by
  ext u
  rw [hb.mem_winners, List.mem_toFinset]
  constructor
  · exact h.winners u
  · intro hu
    obtain ⟨p, hp, rfl⟩ := List.mem_map.mp hu
    rw [h.stakes p hp]
    exact hamounts p (List.mem_filter.mp hp).1

theorem Mirrors.winnerSet_ncard (h : Mirrors x market positions winner owner) (hb : x.Booked)
    (hamounts : ∀ p ∈ positions, 0 < p.amountMinor) :
    x.winnerSet.ncard = (winnersOf positions winner).length := by
  rw [← hb.card_winners, h.winners_eq hb hamounts, List.toFinset_card_of_nodup h.distinct,
    List.length_map]

theorem Mirrors.winningPool (h : Mirrors x market positions winner owner) (hb : x.Booked)
    (hamounts : ∀ p ∈ positions, 0 < p.amountMinor) :
    x.winningPool = staked (winnersOf positions winner) := by
  rw [← hb.sum_winners, h.winners_eq hb hamounts, List.sum_toFinset _ h.distinct, List.map_map,
    staked]
  exact congrArg List.sum (List.map_congr_left h.stakes)

/-! ### The rule -/

/-- **The fee rule of the contract**, for the plan of a payout: in all no more than the fee on
the profit is kept, no winner is paid less than staked, and every winner is paid what the
contract pays on the same stakes, up to less than the number of winners. -/
structure FeeRule (market : SettlementContext) (positions : List ActivePosition) (winner : Uuid)
    (plan : Plan) : Prop where
  onProfit : (staked positions - (plan.rows.map (·.payoutMinor)).sum) * 10000 ≤
    (staked positions - staked (winnersOf positions winner)) * market.feeBps
  noLoss : ∀ r ∈ plan.rows, r.position.amountMinor ≤ r.payoutMinor
  close : ∀ w m x owner e w' net, Reachable w → w.account m = some x →
    Mirrors x market positions winner owner → ∀ r ∈ plan.rows,
      claim e w (owner r.position) m = .ok (w', net) →
        |r.payoutMinor - net| < (winnersOf positions winner).length

/-- The fee on the whole pool, rounded down, is within the fee on the profit. -/
def WithinProfit (market : SettlementContext) (positions : List ActivePosition) (winner : Uuid) :
    Prop :=
  staked positions * market.feeBps / 10000 * 10000 ≤
    (staked positions - staked (winnersOf positions winner)) * market.feeBps

instance : Decidable (WithinProfit market positions winner) :=
  inferInstanceAs (Decidable (_ ≤ _))

/-- The fee on the whole pool rounds to nothing. -/
def NoFee (market : SettlementContext) (positions : List ActivePosition) : Prop :=
  staked positions * market.feeBps < 10000

instance : Decidable (NoFee market positions) := inferInstanceAs (Decidable (_ < _))

/-! ### What the plan pays, and what the contract pays -/

/-- What is left of the pool after the fee. -/
def afterFee (market : SettlementContext) (positions : List ActivePosition) : Int :=
  staked positions - staked positions * market.feeBps / 10000

variable {plan : Plan} {w w' : World} {e : Env} {m : Nat} {net : Int} {p : ActivePosition}

/-- The plan of a payout, as far as amounts go. -/
structure Plan.Shared (plan : Plan) (market : SettlementContext) (positions : List ActivePosition)
    (winner : Uuid) : Prop where
  staked_pos : 0 < staked (winnersOf positions winner)
  paid : (plan.rows.map (·.payoutMinor)).sum = afterFee market positions
  row_mem : ∀ r ∈ plan.rows, r.position ∈ winnersOf positions winner
  share_le : ∀ r ∈ plan.rows, share r.position.amountMinor (afterFee market positions)
    (staked (winnersOf positions winner)) ≤ r.payoutMinor
  lt_share_add : ∀ r ∈ plan.rows, r.payoutMinor < share r.position.amountMinor
    (afterFee market positions) (staked (winnersOf positions winner)) +
      (winnersOf positions winner).length

theorem planSettlement_shared (h : planSettlement .payout market positions = .ok plan)
    (hwinner : market.winningOutcomeId = some winner)
    (hamounts : ∀ p ∈ positions, 0 < p.amountMinor)
    (hfee : 0 ≤ market.feeBps ∧ market.feeBps ≤ 1000) :
    plan.Shared market positions winner := by
  obtain ⟨winner', rows, hne, hsum, hmarket, -, htotal, hplanFee, hdist, hrows, hsorted⟩ :=
    planSettlement_payout h
  obtain rfl := Option.some.inj (hwinner.symm.trans hmarket)
  have hpos : 0 < staked positions := staked_pos hamounts hne
  have hproduct : 0 ≤ staked positions * market.feeBps := mul_nonneg hpos.le hfee.1
  have hdist' : plan.distributableMinor = afterFee market positions := by
    rw [hdist, hplanFee, htotal]
    change staked positions - (staked positions * market.feeBps).tdiv 10000 = _
    rw [Int.tdiv_eq_ediv_of_nonneg hproduct]
    rfl
  have hnonneg : 0 ≤ afterFee market positions := by
    have hle : staked positions * market.feeBps ≤ staked positions * 1000 :=
      mul_le_mul_of_nonneg_left hfee.2 hpos.le
    unfold afterFee
    omega
  rw [hdist'] at hrows hsum
  obtain ⟨hstaked, hbounds⟩ := payoutRows_bounds hrows hamounts hnonneg
  have hmem (r : PlannedPayout) (hr : r ∈ plan.rows) : r ∈ rows := by
    rwa [hsorted, mem_sortRows] at hr
  refine ⟨hstaked, hsum, fun r hr => ?_, fun r hr => (hbounds r (hmem r hr)).1,
    fun r hr => (hbounds r (hmem r hr)).2⟩
  have hin := List.mem_map_of_mem (f := (·.position)) (hmem r hr)
  rwa [payoutRows_positions hrows] at hin

/-- The net payment of a claim on the contract, for the same stakes. -/
theorem Mirrors.claim_net (h : Mirrors x market positions winner owner) (hw : Reachable w)
    (hx : w.account m = some x) (hamounts : ∀ p ∈ positions, 0 < p.amountMinor)
    (hp : p ∈ winnersOf positions winner) (hclaim : claim e w (owner p) m = .ok (w', net)) :
    ∃ gross, net = gross - (gross - p.amountMinor) * market.feeBps / 10000 ∧
      p.amountMinor ≤ gross ∧ gross ≤ staked positions ∧
      share p.amountMinor (staked positions) (staked (winnersOf positions winner)) ≤ gross ∧
      gross < share p.amountMinor (staked positions) (staked (winnersOf positions winner)) +
        (winnersOf positions winner).length := by
  have hb := hw.sound.balanced m x hx
  obtain ⟨x', hmoves, hnet⟩ := claim_moves hclaim
  obtain rfl := Option.some.inj (hmoves.before.symm.trans hx)
  obtain ⟨hge, hfloor, -, -⟩ := hb.claim_amounts hmoves.allowed
  obtain ⟨hpaid, hle⟩ := hb.gross_le hmoves.allowed
  obtain ⟨hlow, hhigh⟩ := hb.gross_inRange hmoves.allowed
  rw [Account.floorShare, h.stakes p hp, h.totalPool, h.winningPool hb.toBooked hamounts] at hlow hhigh
  rw [h.winnerSet_ncard hb.toBooked hamounts] at hhigh
  rw [h.stakes p hp] at hfloor hge
  rw [h.totalPool] at hle
  rw [hnet, hfloor, h.feeBps]
  exact ⟨_, rfl, hge, by linarith, hlow, hhigh⟩

/-! ### When the plan follows the rule -/

theorem WithinProfit.fee_le (h : WithinProfit market positions winner)
    (hamounts : ∀ p ∈ positions, 0 < p.amountMinor)
    (hfee : 0 ≤ market.feeBps ∧ market.feeBps ≤ 1000) :
    staked (winnersOf positions winner) ≤ afterFee market positions := by
  have hle := staked_winnersOf_le hamounts winner
  have hprofit : (staked positions - staked (winnersOf positions winner)) * market.feeBps ≤
      (staked positions - staked (winnersOf positions winner)) * 1000 :=
    mul_le_mul_of_nonneg_left hfee.2 (by linarith)
  unfold WithinProfit at h
  unfold afterFee
  omega

/-- Two amounts from the same share on, each less than `n` above it, are closer than `n`. -/
theorem abs_sub_lt_of_share {a b s n : Int} (ha : s ≤ a) (ha' : a < s + n) (hb : s ≤ b)
    (hb' : b < s + n) : |a - b| < n := by
  rw [abs_lt]
  constructor <;> linarith

/-- Within the fee on the profit, the first two parts of the rule hold, whatever is rounded. -/
theorem WithinProfit.feeRule (h : WithinProfit market positions winner)
    (hshared : plan.Shared market positions winner)
    (hamounts : ∀ p ∈ positions, 0 < p.amountMinor)
    (hfee : 0 ≤ market.feeBps ∧ market.feeBps ≤ 1000)
    (hclose : ∀ w m x owner e w' net, Reachable w → w.account m = some x →
      Mirrors x market positions winner owner → ∀ r ∈ plan.rows,
        claim e w (owner r.position) m = .ok (w', net) →
          |r.payoutMinor - net| < (winnersOf positions winner).length) :
    FeeRule market positions winner plan where
  onProfit := by
    rw [hshared.paid, afterFee, sub_sub_cancel]
    exact h
  noLoss r hr := by
    have hamount := hamounts r.position (List.mem_filter.mp (hshared.row_mem r hr)).1
    have hle := le_share hamount.le hshared.staked_pos (h.fee_le hamounts hfee)
    exact hle.trans (hshared.share_le r hr)
  close := hclose

theorem NoFee.withinProfit (h : NoFee market positions)
    (hamounts : ∀ p ∈ positions, 0 < p.amountMinor) (hfee : 0 ≤ market.feeBps) :
    WithinProfit market positions winner := by
  have hle := staked_winnersOf_le hamounts winner
  have hprofit : 0 ≤ (staked positions - staked (winnersOf positions winner)) * market.feeBps :=
    mul_nonneg (by linarith) hfee
  unfold NoFee at h
  unfold WithinProfit
  omega

/-- No fee on the pool, none on a profit: both divide the same total. -/
theorem NoFee.feeRule (h : NoFee market positions) (hshared : plan.Shared market positions winner)
    (hamounts : ∀ p ∈ positions, 0 < p.amountMinor)
    (hfee : 0 ≤ market.feeBps ∧ market.feeBps ≤ 1000) :
    FeeRule market positions winner plan := by
  refine (h.withinProfit hamounts hfee.1).feeRule hshared hamounts hfee ?_
  intro w m x owner e w' net hw hx hmirrors r hr hclaim
  have hin := hshared.row_mem r hr
  have hamount := hamounts r.position (List.mem_filter.mp hin).1
  obtain ⟨gross, rfl, hge, hle, hlow, hhigh⟩ := hmirrors.claim_net hw hx hamounts hin hclaim
  unfold NoFee at h
  have hnonneg : 0 ≤ staked positions * market.feeBps := mul_nonneg (by linarith) hfee.1
  have hafter : afterFee market positions = staked positions := by
    unfold afterFee
    omega
  have hprofit₀ : 0 ≤ (gross - r.position.amountMinor) * market.feeBps :=
    mul_nonneg (by linarith) hfee.1
  have hprofit : (gross - r.position.amountMinor) * market.feeBps ≤ staked positions * market.feeBps :=
    mul_le_mul_of_nonneg_right (by linarith) hfee.1
  have hzero : (gross - r.position.amountMinor) * market.feeBps / 10000 = 0 := by omega
  have hshare := hshared.share_le r hr
  have hshare' := hshared.lt_share_add r hr
  rw [hafter] at hshare hshare'
  rw [hzero, sub_zero]
  exact abs_sub_lt_of_share hshare hshare' hlow hhigh

/-- A single winner takes the whole pool but the fee. -/
theorem WithinProfit.feeRule_of_single (h : WithinProfit market positions winner)
    (hsingle : (winnersOf positions winner).length = 1)
    (hshared : plan.Shared market positions winner)
    (hamounts : ∀ p ∈ positions, 0 < p.amountMinor)
    (hfee : 0 ≤ market.feeBps ∧ market.feeBps ≤ 1000) :
    FeeRule market positions winner plan := by
  refine h.feeRule hshared hamounts hfee ?_
  intro w m x owner e w' net hw hx hmirrors r hr hclaim
  have hin := hshared.row_mem r hr
  obtain ⟨gross, rfl, -, -, hlow, hhigh⟩ := hmirrors.claim_net hw hx hamounts hin hclaim
  have hshare := hshared.share_le r hr
  have hshare' := hshared.lt_share_add r hr
  have hpos := hshared.staked_pos
  -- the one stake is the whole winning stake, and its share the whole total
  have hstaked : staked (winnersOf positions winner) = r.position.amountMinor := by
    obtain ⟨p, hp⟩ := List.length_eq_one_iff.mp hsingle
    rw [hp, List.mem_singleton] at hin
    rw [hp, staked, List.map_singleton, List.sum_singleton, hin]
  rw [hstaked] at hpos hlow hhigh hshare hshare'
  have hwhole (t : Int) : share r.position.amountMinor t r.position.amountMinor = t :=
    Int.mul_ediv_cancel_left t hpos.ne'
  rw [hwhole, hsingle] at hhigh hshare'
  rw [hwhole] at hlow hshare
  obtain rfl : gross = staked positions := by omega
  have hpayout : r.payoutMinor = afterFee market positions := by omega
  -- the fee on the pool is at least the fee on the profit, and within it
  have hprofit : (staked positions - r.position.amountMinor) * market.feeBps ≤
      staked positions * market.feeBps := mul_le_mul_of_nonneg_right (by linarith) hfee.1
  unfold WithinProfit at h
  rw [hstaked] at h
  rw [hpayout, afterFee, hsingle]
  have hsame : staked positions * market.feeBps / 10000 =
      (staked positions - r.position.amountMinor) * market.feeBps / 10000 := by omega
  rw [hsame, sub_self]
  simp

/-- **A plan follows the fee rule** of the contract when its fee rounds to nothing, or when
there is one winner and the fee on the pool is within the fee on the profit. Whenever it
does so, the fee on the pool is within the fee on the profit. -/
theorem plan_follows_fee_rule (hplan : planSettlement .payout market positions = .ok plan)
    (hwinner : market.winningOutcomeId = some winner)
    (hamounts : ∀ p ∈ positions, 0 < p.amountMinor)
    (hfee : 0 ≤ market.feeBps ∧ market.feeBps ≤ 1000) :
    (NoFee market positions ∨
        ((winnersOf positions winner).length = 1 ∧ WithinProfit market positions winner) →
      FeeRule market positions winner plan) ∧
    (FeeRule market positions winner plan → WithinProfit market positions winner) := by
  have hshared := planSettlement_shared hplan hwinner hamounts hfee
  constructor
  · intro hcond
    rcases hcond with hzero | ⟨hsingle, hwithin⟩
    · exact hzero.feeRule hshared hamounts hfee
    · exact hwithin.feeRule_of_single hsingle hshared hamounts hfee
  · intro hrule
    have honProfit := hrule.onProfit
    rwa [hshared.paid, afterFee, sub_sub_cancel] at honProfit

/-- A small market: half a percent of 160 units rounds to nothing. -/
def smallMarket : SettlementContext := ⟨1, .resolved, 50, some 7⟩

def smallPositions : List ActivePosition := [⟨11, 7, 100, 21⟩, ⟨12, 8, 60, 22⟩]

/-- Its only winner takes the pool. -/
theorem smallMarket_follows_fee_rule :
    FeeRule smallMarket smallPositions 7 ⟨some 7, 160, 0, 160, 160, [⟨⟨11, 7, 100, 21⟩, 160⟩]⟩ :=
  (plan_follows_fee_rule (by decide +kernel) rfl (by decide) (by decide)).1 (.inl (by decide))

/-- **A pool where everybody won**: there is no profit, and the only winner is planned 975 units
for the own 1000. -/
theorem everybody_won_charged :
    ¬ ∀ (market : SettlementContext) (positions : List ActivePosition) (winner : Uuid) (plan : Plan),
      planSettlement .payout market positions = .ok plan →
      market.winningOutcomeId = some winner → (∀ p ∈ positions, 0 < p.amountMinor) →
      0 ≤ market.feeBps ∧ market.feeBps ≤ 1000 → FeeRule market positions winner plan := by
  intro h
  have hrule := h ⟨1, .resolved, 250, some 7⟩ [⟨11, 7, 1000, 21⟩] 7
    ⟨some 7, 1000, 25, 975, 975, [⟨⟨11, 7, 1000, 21⟩, 975⟩]⟩ (by decide +kernel) rfl (by decide)
    (by decide)
  have hloss : (1000 : Int) ≤ 975 := hrule.noLoss ⟨⟨11, 7, 1000, 21⟩, 975⟩ (List.mem_singleton.mpr rfl)
  exact absurd hloss (by decide)

end CrownFi.Markets.Positions
