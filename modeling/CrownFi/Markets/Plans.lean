import CrownFi.Lib.Fallible
import CrownFi.Markets.Settlement
import Mathlib.Tactic.Abel

/-!
# CrownFi.Markets.Plans

**What a settlement plan contains**: its rows pay exactly what it distributes, and every
position that the plan owes something has a row. The loop over the remainder and the sort
move payouts and rows around, but neither drops a position.
-/

namespace CrownFi.Markets.Positions

open Lib CrownFi.Api

@[simp] theorem orOverflow_eq_ok {value : Option Int} {n : Int} :
    orOverflow value = .ok n ↔ value = some n := by
  cases value <;> simp [orOverflow]

/-- A checked sum is the sum. -/
theorem sumFrom_eq {total n : Int} {amounts : List Int} (h : sumFrom total amounts = .ok n) :
    n = total + amounts.sum := by
  induction amounts generalizing total with
  | nil =>
      obtain rfl := Except.ok.inj h
      simp
  | cons a rest ih =>
      rw [sumFrom, bind_eq_ok] at h
      obtain ⟨t, ht, hrest⟩ := h
      rw [ih hrest, checkedI64_eq_some (orOverflow_eq_ok.mp ht), List.sum_cons, add_assoc]

/-! ### The rows of a payout -/

/-- Each winner has one row, in order. -/
theorem shares_positions {distributable stake allocated total : Int} {winners : List ActivePosition}
    {rows : List PlannedPayout} (h : shares distributable stake allocated winners = .ok (rows, total)) :
    rows.map (·.position) = winners := by
  induction winners generalizing allocated rows total with
  | nil =>
      obtain ⟨rfl, -⟩ := Prod.mk.inj (Except.ok.inj h)
      rfl
  | cons w rest ih =>
      simp only [shares, bind_eq_ok] at h
      obtain ⟨payout, -, allocated', -, ⟨rows', total'⟩, hrest, heq⟩ := h
      obtain ⟨rfl, -⟩ := Prod.mk.inj (Except.ok.inj heq)
      rw [List.map_cons, ih hrest]

theorem addUnit_positions (rows : List PlannedPayout) (index : Nat) :
    (addUnit rows index).map (·.position) = rows.map (·.position) := by
  refine List.ext_getElem? fun i => ?_
  simp only [addUnit, List.getElem?_map, List.getElem?_modify]
  cases rows[i]? with
  | none => rfl
  | some r => by_cases hi : index = i <;> simp [hi]

theorem handOut_positions (rows : List PlannedPayout) (index remainder : Nat) :
    (handOut rows index remainder).map (·.position) = rows.map (·.position) := by
  induction remainder generalizing rows index with
  | zero => rfl
  | succ remainder ih => rw [handOut, ih, addUnit_positions]

theorem payoutRows_positions {positions : List ActivePosition} {winner : Uuid} {distributable : Int}
    {rows : List PlannedPayout} (h : payoutRows positions winner distributable = .ok rows) :
    rows.map (·.position) = positions.filter (·.outcomeId = winner) := by
  simp only [payoutRows] at h
  split at h
  · cases h
  · simp only [bind_eq_ok] at h
    obtain ⟨stake, -, ⟨rows', allocated⟩, hshares, heq⟩ := h
    obtain rfl := Except.ok.inj heq
    rw [handOut_positions, shares_positions hshares]

/-! ### The plan -/

/-- The rows of a plan, by their positions. -/
abbrev sortRows (rows : List PlannedPayout) : List PlannedPayout :=
  rows.insertionSort fun r r' => r.position.positionId.toNat ≤ r'.position.positionId.toNat

theorem planSettlement_refund {market : SettlementContext} {positions : List ActivePosition}
    {plan : Plan} (h : planSettlement .refund market positions = .ok plan) :
    positions ≠ [] ∧ (plan.rows.map (·.payoutMinor)).sum = plan.distributableMinor ∧
      plan.winningOutcomeId = none ∧ plan.rows = sortRows (refundRows positions) := by
  simp only [planSettlement, throw_bind, pure_bind, guard_eq_ok, bind_eq_ok, pure_eq_ok] at h
  obtain ⟨hpositions, total, -, distributable, -, planned, hplanned, heq, rfl⟩ := h
  obtain rfl := not_not.mp heq
  refine ⟨hpositions, ?_, rfl, rfl⟩
  rw [sumFrom_eq hplanned, zero_add]

theorem planSettlement_payout {market : SettlementContext} {positions : List ActivePosition}
    {plan : Plan} (h : planSettlement .payout market positions = .ok plan) :
    ∃ winner rows, positions ≠ [] ∧ (plan.rows.map (·.payoutMinor)).sum = plan.distributableMinor ∧
      market.winningOutcomeId = some winner ∧ plan.winningOutcomeId = some winner ∧
      plan.totalStakeMinor = (positions.map (·.amountMinor)).sum ∧
      plan.feeMinor = (plan.totalStakeMinor * market.feeBps).tdiv 10000 ∧
      plan.distributableMinor = plan.totalStakeMinor - plan.feeMinor ∧
      payoutRows positions winner plan.distributableMinor = .ok rows ∧
      plan.rows = sortRows rows := by
  cases hwinner : market.winningOutcomeId with
  | none =>
      simp only [planSettlement, hwinner, throw_bind, guard_eq_ok, bind_eq_ok, reduceCtorEq,
        and_false, exists_false] at h
  | some winner =>
      simp only [planSettlement, hwinner, throw_bind, pure_bind, guard_eq_ok, bind_eq_ok,
        pure_eq_ok] at h
      obtain ⟨hpositions, total, htotal, fee, hfee, distributable, hdist, rows, hrows, planned,
        hplanned, heq, rfl⟩ := h
      obtain rfl := not_not.mp heq
      refine ⟨winner, rows, hpositions, ?_, rfl, rfl, ?_, ?_, ?_, hrows, rfl⟩
      · rw [sumFrom_eq hplanned, zero_add]
      · rw [sumFrom_eq htotal, zero_add]
      · exact checkedI64_eq_some (orOverflow_eq_ok.mp hfee)
      · exact checkedI64_eq_some (orOverflow_eq_ok.mp hdist)

/-- What is known of a plan. -/
structure Plan.Sound (plan : Plan) (kind : RunKind) (market : SettlementContext)
    (positions : List ActivePosition) : Prop where
  winner : kind = .payout → plan.winningOutcomeId = market.winningOutcomeId
  stocked : plan.rows ≠ []
  balanced : (plan.rows.map (·.payoutMinor)).sum = plan.distributableMinor
  refunds : kind = .refund → ∀ p ∈ positions, ⟨p, p.amountMinor⟩ ∈ plan.rows
  payouts : ∀ p ∈ positions, plan.winningOutcomeId = some p.outcomeId →
    ∃ r ∈ plan.rows, r.position = p

theorem mem_sortRows {rows : List PlannedPayout} {r : PlannedPayout} : r ∈ sortRows rows ↔ r ∈ rows :=
  (List.perm_insertionSort _ rows).mem_iff

theorem sortRows_ne_nil {rows : List PlannedPayout} (h : rows ≠ []) : sortRows rows ≠ [] := by
  obtain ⟨r, hr⟩ := List.exists_mem_of_ne_nil rows h
  exact List.ne_nil_of_mem (mem_sortRows.mpr hr)

/-- **A plan that is made is sound.** -/
theorem planSettlement_sound {kind : RunKind} {market : SettlementContext}
    {positions : List ActivePosition} {plan : Plan}
    (h : planSettlement kind market positions = .ok plan) : plan.Sound kind market positions := by
  cases kind with
  | refund =>
      obtain ⟨hpositions, hsum, hwinner, hrows⟩ := planSettlement_refund h
      have hmem (p : ActivePosition) (hp : p ∈ positions) : ⟨p, p.amountMinor⟩ ∈ plan.rows := by
        rw [hrows, mem_sortRows]
        exact List.mem_map.mpr ⟨p, hp, rfl⟩
      refine ⟨(fun hkind => by cases hkind), ?_, hsum, fun _ => hmem, fun p _ howes => ?_⟩
      · rw [hrows]
        exact sortRows_ne_nil fun hnil => hpositions (List.map_eq_nil_iff.mp hnil)
      · rw [hwinner] at howes
        cases howes
  | payout =>
      obtain ⟨winner, rows, -, hsum, hmarket, hwinner, -, -, -, hpayouts, hrows⟩ :=
        planSettlement_payout h
      have hwinners := payoutRows_positions hpayouts
      refine ⟨fun _ => hwinner.trans hmarket.symm, ?_, hsum, (fun hkind => by cases hkind),
        fun p hp howes => ?_⟩
      · rw [hrows]
        refine sortRows_ne_nil fun hnil => ?_
        rw [hnil, List.map_nil] at hwinners
        simp only [payoutRows, ← hwinners, if_true, throw_bind] at hpayouts
        cases hpayouts
      · rw [hwinner] at howes
        have hmem : p ∈ rows.map (·.position) := by
          rw [hwinners, List.mem_filter, decide_eq_true_eq]
          exact ⟨hp, (Option.some.inj howes).symm⟩
        obtain ⟨r, hr, rfl⟩ := List.mem_map.mp hmem
        exact ⟨r, by rwa [hrows, mem_sortRows], rfl⟩

end CrownFi.Markets.Positions
