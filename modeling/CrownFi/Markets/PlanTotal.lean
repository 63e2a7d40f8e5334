import CrownFi.Markets.FeeRule
import CrownFi.Markets.PlanOutlines
import CrownFi.Lib.Serial

/-!
# CrownFi.Markets.PlanTotal

**The planner computes within its range.** Amounts that are positive, and add up to an `i64`, are
planned: no checked operation of the planner overflows, what it hands out adds up to what it
distributes, and the items that it makes can be inserted one after the other. So a refund is
planned as soon as there is something to refund, and a payout as soon as somebody won.
-/

namespace CrownFi.Markets.Positions

open Lib CrownFi.Api

variable {positions winners : List ActivePosition} {winner : Uuid} {rows : List PlannedPayout}
  {market : SettlementContext}

/-! ### The planner computes within its range -/

theorem checkedI64_of_range {n : Int} (hlow : 0 ≤ n) (hhigh : n < 2 ^ 63) : checkedI64 n = some n := by
  have hin : inI64 n := ⟨by omega, hhigh⟩
  rw [checkedI64, if_pos hin]

theorem sumFrom_succeeds {total : Int} {amounts : List Int} (htotal : 0 ≤ total)
    (hamounts : ∀ n ∈ amounts, 0 ≤ n) (hmax : total + amounts.sum < 2 ^ 63) :
    sumFrom total amounts = .ok (total + amounts.sum) := by
  induction amounts generalizing total with
  | nil => rw [sumFrom, List.sum_nil, add_zero]
  | cons n rest ih =>
      have hn := hamounts n List.mem_cons_self
      have hrest (m : Int) (hm : m ∈ rest) : 0 ≤ m := hamounts m (List.mem_cons_of_mem _ hm)
      have hsum := List.sum_nonneg hrest
      rw [List.sum_cons] at hmax ⊢
      have hchecked : orOverflow (checkedI64 (total + n)) = .ok (total + n) :=
        orOverflow_eq_ok.mpr (checkedI64_of_range (by omega) (by omega))
      rw [sumFrom, hchecked]
      refine (ih (by omega) hrest (by omega)).trans ?_
      rw [add_assoc]

/-- A sum of amounts in range. -/
theorem sumFrom_map {α : Type} {l : List α} {f : α → Int} (hnonneg : ∀ a ∈ l, 0 ≤ f a)
    (hmax : (l.map f).sum < 2 ^ 63) : sumFrom 0 (l.map f) = .ok (l.map f).sum := by
  have hamounts (n : Int) (hn : n ∈ l.map f) : 0 ≤ n := by
    obtain ⟨a, ha, rfl⟩ := List.mem_map.mp hn
    exact hnonneg a ha
  have h := sumFrom_succeeds le_rfl hamounts (by omega)
  rwa [zero_add] at h

/-- A winner with the rounded-down share. -/
def floorShare (distributable stake : Int) (p : ActivePosition) : PlannedPayout :=
  ⟨p, share p.amountMinor distributable stake⟩

/-- The shares of some winners, while what is allocated stays in range. -/
theorem shares_succeeds {distributable stake allocated : Int} (hstake : 0 < stake)
    (hdist : 0 ≤ distributable) (hallocated : 0 ≤ allocated)
    (hamounts : ∀ p ∈ winners, 0 < p.amountMinor)
    (hmax : allocated + ((winners.map (·.amountMinor)).map (share · distributable stake)).sum < 2 ^ 63) :
    shares distributable stake allocated winners = .ok (winners.map (floorShare distributable stake),
      allocated + ((winners.map (·.amountMinor)).map (share · distributable stake)).sum) := by
  induction winners generalizing allocated with
  | nil =>
      simp only [List.map_nil, List.sum_nil, add_zero]
      rfl
  | cons w rest ih =>
      have hw := hamounts w List.mem_cons_self
      have hrest (p : ActivePosition) (hp : p ∈ rest) : 0 < p.amountMinor :=
        hamounts p (List.mem_cons_of_mem _ hp)
      have hshare := share_nonneg hw.le hdist hstake
      have hsum : 0 ≤ ((rest.map (·.amountMinor)).map (share · distributable stake)).sum := by
        refine List.sum_nonneg fun n hn => ?_
        obtain ⟨a, ha, rfl⟩ := List.mem_map.mp hn
        obtain ⟨p, hp, rfl⟩ := List.mem_map.mp ha
        exact share_nonneg (hrest p hp).le hdist hstake
      simp only [List.map_cons, List.sum_cons] at hmax ⊢
      have hfloor : (w.amountMinor * distributable).tdiv stake = share w.amountMinor distributable stake :=
        Int.tdiv_eq_ediv_of_nonneg (mul_nonneg hw.le hdist)
      rw [shares, hfloor, orOverflow_eq_ok.mpr (checkedI64_of_range hshare (by omega)), ok_bind,
        orOverflow_eq_ok.mpr (checkedI64_of_range (by omega) (by omega)), ok_bind,
        ih (by omega) hrest (by omega), ok_bind, add_assoc]
      rfl

theorem addUnit_sum {index : Nat} (h : index < rows.length) :
    ((addUnit rows index).map (·.payoutMinor)).sum = (rows.map (·.payoutMinor)).sum + 1 := by
  induction rows generalizing index with
  | nil => simp at h
  | cons r rest ih =>
      cases index with
      | zero =>
          simp only [addUnit, List.modify_zero_cons, List.map_cons, List.sum_cons]
          omega
      | succ index =>
          have hrest := ih (Nat.lt_of_succ_lt_succ h)
          simp only [addUnit, List.modify_succ_cons, List.map_cons, List.sum_cons] at hrest ⊢
          omega

/-- The loop hands out what it is given. -/
theorem handOut_sum {index remainder : Nat} (h : index < rows.length) :
    ((handOut rows index remainder).map (·.payoutMinor)).sum =
      (rows.map (·.payoutMinor)).sum + remainder := by
  induction remainder generalizing rows index with
  | zero => simp [handOut]
  | succ remainder ih =>
      have hlength : (addUnit rows index).length = rows.length := by simp [addUnit]
      have hnext : (index + 1) % rows.length < (addUnit rows index).length := by
        rw [hlength]
        exact Nat.mod_lt _ (by omega)
      rw [handOut, ih hnext, addUnit_sum h]
      push_cast
      ring

/-- What the rounded-down shares of the winners leave. -/
def leftover (winners : List ActivePosition) (distributable stake : Int) : Int :=
  distributable - ((winners.map (·.amountMinor)).map (share · distributable stake)).sum

theorem leftover_range (distributable : Int) (hne : winners ≠ [])
    (hamounts : ∀ p ∈ winners, 0 < p.amountMinor) :
    0 ≤ leftover winners distributable (staked winners) ∧
      leftover winners distributable (staked winners) < winners.length := by
  have hne' : winners.map (·.amountMinor) ≠ [] := fun hnil => hne (List.map_eq_nil_iff.mp hnil)
  have h := leftover_bounds hne' distributable (staked_pos hamounts hne) rfl
  rwa [List.length_map] at h

/-- **The rows of a payout** are there as soon as somebody won: the rounded-down shares, and the
leftover handed out. -/
theorem payoutRows_eq {distributable : Int} (hne : winnersOf positions winner ≠ [])
    (hamounts : ∀ p ∈ positions, 0 < p.amountMinor) (hdist : 0 ≤ distributable)
    (hmax : distributable < 2 ^ 63) (hstakes : staked positions < 2 ^ 63) :
    payoutRows positions winner distributable = .ok (handOut ((winnersOf positions winner).map
        (floorShare distributable (staked (winnersOf positions winner)))) 0
      (leftover (winnersOf positions winner) distributable
        (staked (winnersOf positions winner))).toNat) := by
  have hwinners (p : ActivePosition) (hp : p ∈ winnersOf positions winner) : 0 < p.amountMinor :=
    hamounts p (List.mem_filter.mp hp).1
  have hpos := staked_pos hwinners hne
  have hle := staked_winnersOf_le hamounts winner
  -- the winning stake is in range, as a part of all stakes
  have hstake : sumFrom 0 ((winnersOf positions winner).map (·.amountMinor)) =
      .ok (staked (winnersOf positions winner)) :=
    sumFrom_map (fun p hp => (hwinners p hp).le) (hle.trans_lt hstakes)
  obtain ⟨hleft, -⟩ := leftover_range distributable hne hwinners
  unfold leftover at hleft
  have hshares := shares_succeeds hpos hdist (le_refl (0 : Int)) hwinners (by omega)
  rw [zero_add] at hshares
  change (do
    if winnersOf positions winner = [] then throw (.conflict "market_has_no_winning_positions")
    let winningStake ← sumFrom 0 ((winnersOf positions winner).map (·.amountMinor))
    let given ← shares distributable winningStake 0 (winnersOf positions winner)
    return handOut given.1 0 (distributable - given.2).toNat : Except ApiError _) = _
  rw [if_neg hne, hstake, ok_bind, hshares]
  rfl

/-- They pay what is distributed. -/
theorem payoutRows_succeeds {distributable : Int} (hne : winnersOf positions winner ≠ [])
    (hamounts : ∀ p ∈ positions, 0 < p.amountMinor) (hdist : 0 ≤ distributable)
    (hmax : distributable < 2 ^ 63) (hstakes : staked positions < 2 ^ 63) :
    ∃ rows, payoutRows positions winner distributable = .ok rows ∧
      (rows.map (·.payoutMinor)).sum = distributable := by
  have hwinners (p : ActivePosition) (hp : p ∈ winnersOf positions winner) : 0 < p.amountMinor :=
    hamounts p (List.mem_filter.mp hp).1
  obtain ⟨hleft, -⟩ := leftover_range distributable hne hwinners
  refine ⟨_, payoutRows_eq hne hamounts hdist hmax hstakes, ?_⟩
  have hlength : 0 < ((winnersOf positions winner).map
      (floorShare distributable (staked (winnersOf positions winner)))).length := by
    rw [List.length_map]
    exact List.length_pos_iff.mpr hne
  rw [handOut_sum hlength, Int.toNat_of_nonneg hleft, leftover, List.map_map, List.map_map]
  exact add_sub_cancel _ _

theorem sortRows_sum : ((sortRows rows).map (·.payoutMinor)).sum = (rows.map (·.payoutMinor)).sum :=
  ((List.perm_insertionSort _ rows).map _).sum_eq

/-- **A payout is planned** as soon as somebody won. -/
theorem planSettlement_payout_succeeds (hwinner : market.winningOutcomeId = some winner)
    (hne : winnersOf positions winner ≠ []) (hamounts : ∀ p ∈ positions, 0 < p.amountMinor)
    (hfee : 0 ≤ market.feeBps ∧ market.feeBps ≤ 1000) (hstakes : staked positions < 2 ^ 63) :
    ∃ plan, planSettlement .payout market positions = .ok plan := by
  have hpositions : positions ≠ [] := by
    rintro rfl
    exact hne rfl
  have hpos : 0 < staked positions := staked_pos hamounts hpositions
  have hproduct : 0 ≤ staked positions * market.feeBps := mul_nonneg hpos.le hfee.1
  have hle : staked positions * market.feeBps ≤ staked positions * 1000 :=
    mul_le_mul_of_nonneg_left hfee.2 hpos.le
  have htotal : sumFrom 0 (positions.map (·.amountMinor)) = .ok (staked positions) :=
    sumFrom_map (fun p hp => (hamounts p hp).le) hstakes
  have hfeeMinor : orOverflow (checkedI64 ((staked positions * market.feeBps).tdiv 10000)) =
      .ok (staked positions * market.feeBps / 10000) := by
    rw [Int.tdiv_eq_ediv_of_nonneg hproduct]
    exact orOverflow_eq_ok.mpr (checkedI64_of_range (by omega) (by omega))
  have hafter : 0 ≤ afterFee market positions ∧ afterFee market positions < 2 ^ 63 := by
    unfold afterFee
    omega
  have hdist : orOverflow (checkedI64 (staked positions - staked positions * market.feeBps / 10000)) =
      .ok (afterFee market positions) :=
    orOverflow_eq_ok.mpr (checkedI64_of_range hafter.1 hafter.2)
  obtain ⟨rows, hrows, hsum⟩ := payoutRows_succeeds hne hamounts hafter.1 hafter.2 hstakes
  obtain ⟨hstaked, hbounds⟩ := payoutRows_bounds hrows hamounts hafter.1
  have hsorted : ((sortRows rows).map (·.payoutMinor)).sum = afterFee market positions :=
    sortRows_sum.trans hsum
  have hplanned : sumFrom 0 ((sortRows rows).map (·.payoutMinor)) = .ok (afterFee market positions) := by
    refine (sumFrom_map (fun r hr => ?_) (hsorted.trans_lt hafter.2)).trans (congrArg _ hsorted)
    have hmem : r ∈ rows := mem_sortRows.mp hr
    have hin := List.mem_map_of_mem (f := (·.position)) hmem
    rw [payoutRows_positions hrows] at hin
    have hamount := hamounts r.position (List.mem_filter.mp hin).1
    exact (share_nonneg hamount.le hafter.1 hstaked).trans (hbounds r hmem).1
  refine ⟨⟨some winner, staked positions, staked positions * market.feeBps / 10000,
    afterFee market positions, afterFee market positions, sortRows rows⟩, ?_⟩
  simp only [planSettlement, if_neg hpositions, htotal, ok_bind, hwinner, pure_bind, hfeeMinor, hdist,
    hrows, hplanned]
  exact if_neg fun h => h rfl

variable (market) in
/-- **A refund is planned** as soon as there is something to refund. -/
theorem planSettlement_refund_succeeds (hpositions : positions ≠ [])
    (hamounts : ∀ p ∈ positions, 0 < p.amountMinor) (hstakes : staked positions < 2 ^ 63) :
    ∃ plan, planSettlement .refund market positions = .ok plan := by
  have hpos : 0 < staked positions := staked_pos hamounts hpositions
  have htotal : sumFrom 0 (positions.map (·.amountMinor)) = .ok (staked positions) :=
    sumFrom_map (fun p hp => (hamounts p hp).le) hstakes
  have hsorted : ((sortRows (refundRows positions)).map (·.payoutMinor)).sum = staked positions := by
    rw [sortRows_sum, refundRows, List.map_map]
    rfl
  have hplanned : sumFrom 0 ((sortRows (refundRows positions)).map (·.payoutMinor)) =
      .ok (staked positions) := by
    refine (sumFrom_map (fun r hr => ?_) (hsorted.trans_lt hstakes)).trans (congrArg _ hsorted)
    obtain ⟨p, hp, rfl⟩ := List.mem_map.mp (mem_sortRows.mp hr)
    exact (hamounts p hp).le
  have hdist : orOverflow (checkedI64 (staked positions - 0)) = .ok (staked positions) := by
    rw [sub_zero]
    exact orOverflow_eq_ok.mpr (checkedI64_of_range hpos.le hstakes)
  refine ⟨⟨none, staked positions, 0, staked positions, staked positions,
    sortRows (refundRows positions)⟩, ?_⟩
  simp only [planSettlement, if_neg hpositions, htotal, ok_bind, pure_bind, hdist, hplanned]
  exact if_neg fun h => h rfl

/-! ### The rows of a plan -/

variable {kind : RunKind} {plan : Plan}

/-- The rows of a plan are about some of the positions, each once. -/
theorem planSettlement_positions (h : planSettlement kind market positions = .ok plan) :
    ∃ planned, planned.Sublist positions ∧ (plan.rows.map (·.position)).Perm planned := by
  cases kind with
  | refund =>
      obtain ⟨-, -, -, hrows⟩ := planSettlement_refund h
      refine ⟨positions, List.Sublist.refl _, ?_⟩
      rw [hrows]
      refine ((List.perm_insertionSort _ _).map _).trans ?_
      rw [refundRows, List.map_map]
      exact .of_eq (List.map_id' positions)
  | payout =>
      obtain ⟨winner, rows, -, -, -, -, -, -, -, hpayouts, hrows⟩ := planSettlement_payout h
      refine ⟨winnersOf positions winner, List.filter_sublist, ?_⟩
      rw [hrows]
      refine ((List.perm_insertionSort _ _).map _).trans ?_
      exact .of_eq (payoutRows_positions hpayouts)

/-- What a plan pays is not negative. -/
theorem planSettlement_nonneg (h : planSettlement kind market positions = .ok plan)
    (hamounts : ∀ p ∈ positions, 0 < p.amountMinor)
    (hfee : 0 ≤ market.feeBps ∧ market.feeBps ≤ 1000) : ∀ r ∈ plan.rows, 0 ≤ r.payoutMinor := by
  intro r hr
  cases kind with
  | refund =>
      obtain ⟨-, -, -, hrows⟩ := planSettlement_refund h
      rw [hrows] at hr
      obtain ⟨p, hp, rfl⟩ := List.mem_map.mp (mem_sortRows.mp hr)
      exact (hamounts p hp).le
  | payout =>
      obtain ⟨winner, -, hne, -, hwinner, -⟩ := planSettlement_payout h
      have hshared := planSettlement_shared h hwinner hamounts hfee
      have hamount := hamounts r.position (List.mem_filter.mp (hshared.row_mem r hr)).1
      have hpos := staked_pos hamounts hne
      have hle : staked positions * market.feeBps ≤ staked positions * 1000 :=
        mul_le_mul_of_nonneg_left hfee.2 hpos.le
      have hafter : 0 ≤ afterFee market positions := by
        unfold afterFee
        omega
      exact (share_nonneg hamount.le hafter hshared.staked_pos).trans (hshared.share_le r hr)

variable (market) in
/-- **When a payout is planned**: somebody won. -/
theorem planSettlement_payout_iff (hamounts : ∀ p ∈ positions, 0 < p.amountMinor)
    (hfee : 0 ≤ market.feeBps ∧ market.feeBps ≤ 1000) (hstakes : staked positions < 2 ^ 63) :
    (∃ plan, planSettlement .payout market positions = .ok plan) ↔
      ∃ p ∈ positions, market.winningOutcomeId = some p.outcomeId := by
  constructor
  · rintro ⟨plan, h⟩
    obtain ⟨winner, rows, -, -, hwinner, -, -, -, -, hpayouts, -⟩ := planSettlement_payout h
    obtain ⟨p, hp⟩ : ∃ p, p ∈ winnersOf positions winner := by
      refine List.exists_mem_of_ne_nil _ fun hnil => ?_
      have hthrow : payoutRows positions winner plan.distributableMinor =
          .error (.conflict "market_has_no_winning_positions") := if_pos hnil
      rw [hthrow] at hpayouts
      cases hpayouts
    obtain ⟨hp, hout⟩ := List.mem_filter.mp hp
    exact ⟨p, hp, hwinner.trans (congrArg some (of_decide_eq_true hout).symm)⟩
  · rintro ⟨p, hp, hwinner⟩
    refine planSettlement_payout_succeeds hwinner ?_ hamounts hfee hstakes
    exact List.ne_nil_of_mem (List.mem_filter.mpr ⟨hp, decide_eq_true rfl⟩)

/-! ### The items of a plan -/

/-- Items that an insert accepts one after the other. -/
structure Insertable (items : List SettlementItem) (db : Database) : Prop where
  principal : ∀ i ∈ items, 0 < i.principalMinor
  payout : ∀ i ∈ items, 0 ≤ i.payoutMinor
  ids : (items.map (·.id)).Nodup
  positions : (items.map fun i => (i.settlementRunId, i.positionId)).Nodup
  new : ∀ i ∈ items, ∀ j ∈ db.items, j.id ≠ i.id
  planned : ∀ i ∈ items, ∀ j ∈ db.items,
    (j.settlementRunId, j.positionId) ≠ (i.settlementRunId, i.positionId)

section Items

variable {i : SettlementItem} {items : List SettlementItem} {db view : Database}

theorem Insertable.violation (h : Insertable (i :: items) db) : itemViolation i db = none := by
  have hchecks : ¬ ¬ (0 < i.principalMinor ∧ 0 ≤ i.payoutMinor) :=
    not_not_intro ⟨h.principal i List.mem_cons_self, h.payout i List.mem_cons_self⟩
  have hkeys : (db.items.any fun j => j.id = i.id ||
      (j.settlementRunId = i.settlementRunId && j.positionId = i.positionId)) = false := by
    refine List.any_eq_false.mpr fun j hj hkey => ?_
    have hid := h.new i List.mem_cons_self j hj
    have hplanned := h.planned i List.mem_cons_self j hj
    simp only [Bool.or_eq_true, Bool.and_eq_true, decide_eq_true_eq] at hkey
    rcases hkey with heq | ⟨hrun, hposition⟩
    · exact hid heq
    · exact hplanned (Prod.ext hrun hposition)
  rw [itemViolation, if_neg hchecks, hkeys]
  rfl

/-- The items behind the first, once that is there. -/
theorem Insertable.tail (h : Insertable (i :: items) db) : Insertable items (itemTable.add i db) where
  principal j hj := h.principal j (List.mem_cons_of_mem _ hj)
  payout j hj := h.payout j (List.mem_cons_of_mem _ hj)
  ids := (List.nodup_cons.mp h.ids).2
  positions := (List.nodup_cons.mp h.positions).2
  new j hj k hk := by
    rcases List.mem_append.mp hk with hk | hk
    · exact h.new j (List.mem_cons_of_mem _ hj) k hk
    · obtain rfl := List.mem_singleton.mp hk
      intro heq
      exact (List.nodup_cons.mp h.ids).1 (List.mem_map.mpr ⟨j, hj, heq.symm⟩)
  planned j hj k hk := by
    rcases List.mem_append.mp hk with hk | hk
    · exact h.planned j (List.mem_cons_of_mem _ hj) k hk
    · obtain rfl := List.mem_singleton.mp hk
      intro heq
      exact (List.nodup_cons.mp h.positions).1 (List.mem_map.mpr ⟨j, hj, heq.symm⟩)

/-- **The loop that inserts the items** ends with all of them. -/
theorem ends_insertItems {k : PUnit → Prog Database Row Site Result} (h : Insertable items view) :
    Prog.ends (insertItems items k) view db = (k ⟨⟩).ends (Books.addItems items view) db := by
  induction items generalizing view with
  | nil => rw [Books.addItems_nil]; rfl
  | cons i rest ih =>
      rw [Books.addItems_cons, ← ih h.tail]
      refine ends_bind.trans ?_
      exact ends_insertRow (raise_eq_none.mpr h.violation)

end Items

section PlanItems

variable {runId : Uuid} {idOf : Nat → Uuid} {index : Nat}

theorem planItems_ids :
    (planItems runId idOf index rows).map (·.id) = (List.range' index rows.length).map idOf := by
  induction rows generalizing index with
  | nil => rfl
  | cons r rest ih =>
      rw [planItems, List.map_cons, ih, List.length_cons, List.range'_succ, List.map_cons]
      rfl

theorem planItems_positions : (planItems runId idOf index rows).map (fun i =>
    (i.settlementRunId, i.positionId)) = rows.map fun r => (runId, r.position.positionId) := by
  induction rows generalizing index with
  | nil => rfl
  | cons r rest ih =>
      rw [planItems, List.map_cons, List.map_cons, ih]
      rfl

/-- An item of a plan is its row, with one of the ids. -/
theorem exists_of_mem_planItems {i : SettlementItem} (h : i ∈ planItems runId idOf index rows) :
    ∃ r ∈ rows, ∃ n, index ≤ n ∧ n < index + rows.length ∧ i = r.item runId (idOf n) := by
  induction rows generalizing index with
  | nil => cases h
  | cons r rest ih =>
      rw [List.length_cons]
      rcases List.mem_cons.mp h with rfl | h
      · exact ⟨r, List.mem_cons_self, index, le_rfl, by omega, rfl⟩
      · obtain ⟨s, hs, n, hlow, hhigh, heq⟩ := ih h
        exact ⟨s, List.mem_cons_of_mem _ hs, n, by omega, by omega, heq⟩

end PlanItems

end CrownFi.Markets.Positions
