import CrownFi.Markets.Outlines

/-!
# CrownFi.Markets.PlanOutlines

**The outline of a settlement plan.** The market is locked before its active positions are
read, so whatever is active at the commit was read, and has its item if the plan owes it one.
-/

namespace CrownFi.Markets

open Lib CrownFi.Api Positions

variable {strict fixed : Prop} {ext : External}

/-! ### The items of a plan -/

section Items

variable {runId : Uuid} {idOf : Nat → Uuid} {index : Nat} {rows : List PlannedPayout}

theorem planItems_payouts :
    (planItems runId idOf index rows).map (·.payoutMinor) = rows.map (·.payoutMinor) := by
  induction rows generalizing index with
  | nil => rfl
  | cons r rest ih => rw [planItems, List.map_cons, List.map_cons, ih]; rfl

theorem planItems_ne_nil (h : rows ≠ []) : planItems runId idOf index rows ≠ [] := by
  intro hnil
  have hpayouts := congrArg (List.map (·.payoutMinor)) hnil
  rw [planItems_payouts] at hpayouts
  exact h (List.map_eq_nil_iff.mp hpayouts)

theorem of_mem_planItems {i : SettlementItem} (h : i ∈ planItems runId idOf index rows) :
    i.settlementRunId = runId ∧ i.status = .planned := by
  induction rows generalizing index with
  | nil => cases h
  | cons r rest ih =>
      cases List.mem_cons.mp h with
      | inl hi =>
          rw [hi]
          exact ⟨rfl, rfl⟩
      | inr hi => exact ih hi

theorem mem_planItems {r : PlannedPayout} (h : r ∈ rows) :
    ∃ i ∈ planItems runId idOf index rows,
      i.positionId = r.position.positionId ∧ i.payoutMinor = r.payoutMinor := by
  induction rows generalizing index with
  | nil => cases h
  | cons s rest ih =>
      cases List.mem_cons.mp h with
      | inl hr =>
          rw [hr]
          exact ⟨_, List.mem_cons_self, rfl, rfl⟩
      | inr hr =>
          obtain ⟨i, hi, heq⟩ := ih hr
          exact ⟨i, List.mem_cons_of_mem _ hi, heq⟩

end Items

theorem mem_activePositions {marketId : Uuid} {db : Database} {a : ActivePosition} :
    a ∈ activePositions marketId db ↔
      ∃ p ∈ db.positions, p.marketId = marketId ∧ p.status = .active ∧ Position.toActive p = a := by
  simp only [activePositions, List.mem_map, List.mem_insertionSort, List.mem_filter, Bool.and_eq_true,
    decide_eq_true_eq]
  constructor
  · rintro ⟨p, ⟨hp, hmarket, hs⟩, rfl⟩
    exact ⟨p, hp, hmarket, hs, rfl⟩
  · rintro ⟨p, hp, hmarket, hs, rfl⟩
    exact ⟨p, ⟨hp, hmarket, hs⟩, rfl⟩

theorem find_of_runViolation {r : SettlementRun} {db : Database} (h : runViolation r db = none) :
    runTable.find db r.id = none := by
  unfold runViolation at h
  split at h
  · cases h
  · rename_i hany
    refine runTable.find_none_of_any (Bool.not_eq_true _ ▸ hany) fun s hs => ?_
    have hid : s.id = r.id := hs
    simp [hid]

theorem find_of_itemViolation {i : SettlementItem} {db : Database} (h : itemViolation i db = none) :
    itemTable.find db i.id = none := by
  unfold itemViolation at h
  split at h
  · cases h
  · split at h
    · cases h
    · rename_i hany
      refine itemTable.find_none_of_any (Bool.not_eq_true _ ▸ hany) fun j hj => ?_
      have hid : j.id = i.id := hj
      simp [hid]

/-! ### Statements -/

section Statements

variable {L : List (Lock Row)} {pending : Database → Database} {A : Database → Prop}

theorem freshItems_cons {i : SettlementItem} {rest : List SettlementItem} {db : Database}
    (hi : itemTable.find db i.id = none) (hrest : Books.FreshItems rest (itemTable.add i db)) :
    Books.FreshItems (i :: rest) db where
  ids := by
    rw [List.map_cons, List.nodup_cons]
    refine ⟨fun hmem => ?_, hrest.ids⟩
    obtain ⟨j, hj, hid⟩ := List.mem_map.mp hmem
    exact itemTable.find_none (hrest.new j hj) i (List.mem_append_right _ (List.mem_singleton.mpr rfl))
      hid.symm
  new j hj := by
    cases List.mem_cons.mp hj with
    | inl heq => rw [heq, hi]
    | inr hj =>
        have hnone := hrest.new j hj
        rw [itemTable.find_add, Option.or_eq_none_iff] at hnone
        exact hnone.1

/-- The loop that inserts the items: no other item has their ids. -/
theorem safe_insertItems {items : List SettlementItem} {k : PUnit → Prog Database Row Site Result}
    (ht : Tracks strict fixed L pending A)
    (next : ∀ L' B, Tracks strict fixed L' (fun d => Books.addItems items (pending d)) B → L ⊆ L' →
      (∀ d, B d → A d ∧ Books.FreshItems items (pending d)) →
      Outline strict fixed (k ⟨⟩) L' (fun d => Books.addItems items (pending d)) B) :
    Outline strict fixed (insertItems items k) L pending A := by
  induction items generalizing L pending A with
  | nil =>
      simp only [Books.addItems_nil] at next
      exact next L A ht (List.Subset.refl _) fun d hd => ⟨hd, List.nodup_nil, by simp⟩
  | cons i rest ih =>
      refine safe_bind (ht.safe_insertRow fun db₁ A₁ _ _ hv h₁ => ?_)
      have hnone (d : Database) (hd : A₁ d) : itemTable.find (pending d) i.id = none := by
        have hseen := (h₁.seen d hd).find itemLayout (i := i.id) (m := .update) (by simp [itemTable]) rfl
        exact hseen.trans (find_of_itemViolation (raise_eq_none.mp hv))
      have ht₁ := h₁.track.add itemLayout (r := i) (by simp [itemTable])
      refine ih ht₁ fun L' B ht' hsub hfresh => ?_
      simp only [Books.addItems_cons] at next
      exact next L' B ht' (fun _ hl => hsub (List.mem_append_left _ hl)) fun d hd =>
        ⟨h₁.before d (hfresh d hd).1, freshItems_cons (hnone d (hfresh d hd).1) (hfresh d hd).2⟩

/-- What a plan has read: the market, and every position that is active at the commit. -/
structure Read (marketId : Uuid) (market : SettlementContext) (positions : List ActivePosition)
    (db : Database) : Prop where
  market : ∃ m, marketTable.find db marketId = some m ∧ m.winningOutcomeId = market.winningOutcomeId
  active : ∀ pid p, positionTable.find db pid = some p → p.marketId = marketId → p.status = .active →
    ∃ a ∈ positions, a.positionId = pid ∧ a.outcomeId = p.outcomeId ∧ a.amountMinor = p.amountMinor

/-- A run and its items as they are planned. -/
theorem addPlan_of_sound {d : Database} {adds touches : Uuid → Prop} (hI : Inv strict fixed d)
    {plan : Plan} {kind : RunKind} {marketId : Uuid} {market : SettlementContext}
    {positions : List ActivePosition} (hplan : plan.Sound kind market positions)
    (hread : Read marketId market positions d) {r : SettlementRun} {idOf : Nat → Uuid}
    (hnew : runTable.find d r.id = none) (hstatus : r.status = .planned) (hmarket : r.marketId = marketId)
    (hkind : r.kind = kind) (hwinner : r.winningOutcomeId = plan.winningOutcomeId)
    (hdistributable : r.distributableMinor = plan.distributableMinor)
    (hfresh : Books.FreshItems (planItems r.id idOf 0 plan.rows) d) (hadds : adds marketId)
    (htouches : touches r.id) :
    Inv strict fixed (Books.addItems (planItems r.id idOf 0 plan.rows) (runTable.add r d)) ∧
      Progress strict fixed adds touches d
        (Books.addItems (planItems r.id idOf 0 plan.rows) (runTable.add r d)) := by
  refine hI.addPlan hnew (by rw [hstatus]; decide) (planItems_ne_nil hplan.stocked)
    (fun i hi => (of_mem_planItems hi).1) (fun i hi => by rw [(of_mem_planItems hi).2]; decide) hfresh
    ?_ (hmarket ▸ hadds) htouches ?_ ?_
  · rw [planItems_payouts, hplan.balanced, hdistributable]
  · intro hpayout
    obtain ⟨m, hm, heq⟩ := hread.market
    refine ⟨m, hmarket ▸ hm, ?_⟩
    rw [hwinner, heq, hplan.winner (hkind.symm.trans hpayout)]
  · intro pid p hp hpm hs howes
    rw [hmarket] at hpm
    obtain ⟨a, ha, hid, houtcome, hamount⟩ := hread.active pid p hp hpm hs
    rw [hkind, hwinner, ← houtcome] at howes
    by_cases hrefund : kind = .refund
    · obtain ⟨i, hi, hposition, hpayout⟩ := mem_planItems (hplan.refunds hrefund a ha)
      exact ⟨i, hi, hposition.trans hid, fun _ => hpayout.trans hamount⟩
    · obtain ⟨row, hrow, hposition⟩ := hplan.payouts a ha (howes.resolve_left hrefund)
      obtain ⟨i, hi, hid', -⟩ := mem_planItems hrow
      refine ⟨i, hi, hid'.trans ((congrArg ActivePosition.positionId hposition).trans hid), ?_⟩
      exact fun h => absurd (hkind.symm.trans h) hrefund

theorem safe_writePlan {actorUserId marketId : Uuid} {market : SettlementContext} {kind : RunKind}
    {idempotencyKey reason : String} {plan : Plan} {began : Int} {ids : PlanIds}
    {positions : List ActivePosition} (ht : Tracks strict fixed L id A)
    (hlock : ⟨.market marketId, .update⟩ ∈ L) (hplan : plan.Sound kind market positions)
    (hread : ∀ d, A d → Read marketId market positions d) :
    Outline strict fixed (writePlan ext actorUserId marketId market kind idempotencyKey reason plan
      began ids fun r => .ret (.ok r)) L id A := by
  unfold writePlan
  refine safe_bind (ht.safe_insertRow fun db₁ A₁ _ _ hv h₁ => ?_)
  generalize hr : (SettlementRun.mk ids.run _ _ _ _ _ _ _ _ _ _ _ _) = r at *
  have hrid : r.id = ids.run := by rw [← hr]
  have hnone (d : Database) (hd : A₁ d) : runTable.find d r.id = none := by
    have hseen := (h₁.seen d hd).find runLayout (i := r.id) (m := .update) (by simp [runTable]) rfl
    exact hseen.trans (find_of_runViolation (raise_eq_none.mp hv))
  have ht₁ := h₁.track.add runLayout (r := r) (by simp [runTable])
  refine safe_bind (safe_insertItems ht₁ fun L₂ A₂ ht₂ hsub hfresh => ?_)
  rw [← hrid] at ht₂ hfresh ⊢
  have hk₂ : Sound strict fixed (· = marketId) (· = r.id)
      (fun d => Books.addItems (planItems r.id ids.item 0 plan.rows) (runTable.add r d)) A₂ := by
    intro d hI hd
    obtain ⟨hd₁, hnew⟩ := hfresh d hd
    exact addPlan_of_sound hI hplan (hread d (h₁.before d hd₁)) (hnone d hd₁) (by rw [← hr])
      (by rw [← hr]) (by rw [← hr]) (by rw [← hr]) (by rw [← hr])
      ⟨hnew.ids, hnew.new⟩ rfl rfl
  -- the market begins to settle
  refine safe_bind (ht₂.safe_update fun db₃ A₃ _ _ _ h₃ => ?_)
  have ht₃ := h₃.track.modifyLocked marketLayout (f := ({ · with status := .settling }))
    (fun _ => rfl) fun m => ⟨_, List.mem_singleton.mpr rfl, rfl, rfl⟩
  refine safe_bind (safe_insertGovernance ht₃ ((hk₂.mono h₃.before).change
    fun _ _ _ hIp => hIp.beginSettling) fun L₄ p₄ A₄ h₄ => ?_)
  refine safe_bind (h₄.track.safe_commitWithin h₄.keeps (fun db db' hprog => ?_) safe_ret)
  refine hprog.mono (fun m hm => ?_) fun rid hrun => ?_
  · have hwritten : Written L (.market m) := hm ▸ written_of_mem hlock rfl
    exact hwritten.mono fun _ hl => h₄.locks (List.mem_append_left _ (hsub (List.mem_append_left _ hl)))
  · have hmem : ⟨.run r.id, .update⟩ ∈ L₂ := hsub (List.mem_append_right _ List.mem_cons_self)
    have hwritten : Written L₂ (.run rid) := hrun ▸ written_of_mem hmem rfl
    exact hwritten.mono fun _ hl => h₄.locks (List.mem_append_left _ hl)

theorem safe_planMarket {actorUserId marketId : Uuid} {market : SettlementContext} {kind : RunKind}
    {idempotencyKey reason : String} {began : Int} {ids : PlanIds} (ht : Tracks strict fixed L id A)
    (hk : Sound strict fixed nothing nothing id A)
    (hlock : ⟨.market marketId, .update⟩ ∈ L)
    (hmarket : ∀ d, A d → ∃ m, marketTable.find d marketId = some m ∧
      m.winningOutcomeId = market.winningOutcomeId) :
    Outline strict fixed (planMarket ext actorUserId marketId market kind idempotencyKey reason began
      ids fun r => .ret (.ok r)) L id A := by
  unfold planMarket
  refine safe_bind (ht.safe_selectFor fun db₁ A₁ existing _ _ _ h₁ => ?_)
  cases existing with
  | some existing => exact safe_bind (safe_commitNothing h₁.track (hk.mono h₁.before) safe_ret)
  | none =>
    -- what is active at the commit was active when it was read
    refine safe_bind (h₁.track.safe_stepKnowing (fun view d => ∀ pid p, positionTable.find d pid = some p →
      p.marketId = marketId → p.status = .active →
        ∃ v, positionTable.find view pid = some v ∧ v.Leads p) ?_ ?_ fun db₂ A₂ _ _ _ h₂ hactive => ?_)
    · exact fun db _ _ _ pid p hp _ _ => ⟨p, hp, refl_of Position.Leads p⟩
    · exact fun db => stable_active (List.mem_append_left _ hlock) rfl db
    refine safe_bind (safe_valid fun plan hplan => ?_)
    refine safe_writePlan h₂.track (List.mem_append_left _ (List.mem_append_left _ hlock))
      (planSettlement_sound hplan) fun d hd => ⟨hmarket d (h₁.before d (h₂.before d hd)), ?_⟩
    intro pid p hp hpm hs
    obtain ⟨v, hv, hlead⟩ := hactive d hd pid p hp hpm hs
    obtain ⟨hmem, hid⟩ := positionTable.find_mem hv
    exact ⟨Position.toActive v, mem_activePositions.mpr
      ⟨v, hmem, hlead.market.symm.trans hpm, hlead.active hs, rfl⟩, hid, hlead.outcome.symm,
      hlead.amount.symm⟩

theorem safe_replayPlan {marketId : Uuid} {key : String} (ht : Tracks strict fixed L pending A)
    (hk : Sound strict fixed nothing nothing pending A) :
    Outline strict fixed ((do
      let existing ← Tx.select .other (latestRun marketId key)
      let existing ← Tx.orElse existing (.error (.conflict "market_settlement_already_started"))
      Tx.commit
      return ⟨.ok, existing.id⟩ : Handler Response) fun r => .ret (.ok r)) L pending A := by
  refine safe_bind (safe_select ht.stable fun _ _ _ _ _ => ?_)
  refine safe_bind (safe_orElse fun existing _ => ?_)
  exact safe_bind (safe_commitNothing ht hk safe_ret)

end Statements

theorem safe_createSettlementPlan (actorUserId marketId : Uuid) (body : CreateSettlementPlanRequest)
    (ids : PlanIds) :
    SafeHandler strict fixed (createSettlementPlan ext actorUserId marketId body ids) := by
  unfold SafeHandler SafeRequest Handler.request createSettlementPlan
  refine safe_bind (safe_valid fun key _ => ?_)
  refine safe_bind (safe_valid fun reason _ => ?_)
  refine safe_bind (safe_select stable_true fun _ began _ _ _ => ?_)
  refine safe_bind (safe_bind (Track.start.safe_selectFor fun db₁ A₁ row _ _ hrow h₁ => ?_))
  refine safe_orElse fun market hmarket => ?_
  -- the market is locked from here on
  have hrow : (marketTable.find db₁ marketId).map Market.settlementContext = some market :=
    hrow.trans hmarket
  obtain ⟨m, hm, rfl⟩ := Option.map_eq_some_iff.mp hrow
  have hlock : (⟨.market marketId, .update⟩ : Lock Row) ∈ [] ++ (marketTable.find (id db₁)
      marketId).toList.map fun m => (⟨.market m.id, .update⟩ : Lock Row) := by
    have hid : m.id = marketId := (marketTable.find_mem hm).2
    simp [hm, hid]
  have hknown (d : Database) (hd : A₁ d) : ∃ m', marketTable.find d marketId = some m' ∧
      m'.winningOutcomeId = (Market.settlementContext m).winningOutcomeId :=
    ⟨m, ((h₁.seen d hd).find marketLayout (i := marketId) hlock rfl).trans hm, rfl⟩
  have hk₁ : Sound strict fixed nothing nothing id A₁ := sound_start.mono h₁.before
  refine safe_bind (safe_allowed h₁.track ?_)
  have hplan (kind : RunKind) : Outline strict fixed (planMarket ext actorUserId marketId
      (Market.settlementContext m) kind key reason began ids fun r => .ret (.ok r)) _ id A₁ :=
    safe_planMarket h₁.track hk₁ hlock hknown
  cases (Market.settlementContext m).status with
  | resolved => exact hplan .payout
  | cancelled => exact hplan .refund
  | settling => exact safe_replayPlan h₁.track hk₁
  | settled => exact safe_replayPlan h₁.track hk₁
  | _ => exact safe_exit

end CrownFi.Markets
