import CrownFi.Markets.LogCheck
import CrownFi.Markets.MarketCap
import CrownFi.Markets.PlanTotal

/-!
# CrownFi.Markets.Stranded

**Whether the stakes of a market can still be settled.** A plan is the only way out of a market
whose stakes are accepted, and the transitions that lead to it look at no position. So a market
can get where no plan is made of it: it begins to settle by hand, or it is resolved for an outcome
on which nothing is staked.

Nowhere else are stakes stranded (`plan_made_iff`). The stakes of a market are within a limit that
is itself in range, so the planner computes within its range, and nothing of a new run is taken.
-/

namespace CrownFi.Markets

open Lib CrownFi.Api Positions

variable {ext : External}

/-! ### The terms of a market -/

/-- What a plan computes with. -/
def Market.terms (m : Market) : Uuid × Int × Int := (m.id, m.feeBps, m.maxMarketExposureMinor)

/-- The markets have the same terms. -/
def SameTerms (db db' : Database) : Prop := db'.markets.map Market.terms = db.markets.map Market.terms

instance : IsPreorder Database SameTerms where
  refl _ := rfl
  trans _ _ _ h h' := h'.trans h

/-- Every market has terms in range, as the checks of its table have it. -/
def TermsInRange (db : Database) : Prop :=
  ∀ m ∈ db.markets, 0 ≤ m.feeBps ∧ m.feeBps ≤ 1000 ∧ m.maxMarketExposureMinor < 2 ^ 63

theorem TermsInRange.same {db db' : Database} (h : TermsInRange db) (hsame : SameTerms db db') :
    TermsInRange db' := by
  intro m' hm'
  have hmem : m'.terms ∈ db.markets.map Market.terms := hsame ▸ List.mem_map_of_mem hm'
  obtain ⟨m, hm, hterms⟩ := List.mem_map.mp hmem
  simp only [Market.terms, Prod.mk.injEq] at hterms
  obtain ⟨-, hfee, hlimit⟩ := hterms
  rw [← hfee, ← hlimit]
  exact h m hm

theorem spares_terms : Spares fun _ => SameTerms where
  decisions _ _ _ := rfl
  governance _ _ _ := rfl
  runs _ _ _ := rfl
  items _ _ _ := rfl
  settlementEvidence _ _ _ := rfl
  markets _ _ _ _ f hf := map_updateWhere fun m => by rw [hf m]; rfl

theorem sparesIntents_terms : SparesIntents fun _ => SameTerms where
  created _ _ _ _ := rfl
  expired _ _ _ _ := rfl
  surroundings _ _ _ _ _ := rfl

theorem confined_activatePosition {p : Position} :
    Tx.Confined (fun _ _ => True) (fun _ => SameTerms) (activatePosition p) := by
  refine .of fun k hk => .stmt fun view _ => ⟨trivial, fun db => ?_, ?_⟩
  · show SameTerms db (activation p view db)
    unfold activation
    cases positionOf p.stakeIntentId view with
    | some old => rfl
    | none => rfl
  · split
    · exact .ret
    · exact hk ⟨⟩

theorem confined_acceptPositionEvidence (marketId : Uuid) (body : AcceptPositionEvidenceRequest)
    (ids : PositionIds) : (acceptPositionEvidence marketId body ids).request.Confined (fun _ _ => True)
      fun _ => SameTerms := by
  refine Tx.Bounded.request ?_ _
  refine .bind .ofExcept fun stake => .bind .select fun began => ?_
  refine .bind confined_found fun intent => .bind .require fun _ => .bind .select fun existing => ?_
  cases existing with
  | some existing => exact .bind .require fun _ => .bind .commit fun _ => .pure
  | none =>
      refine .bind .require fun _ => .bind .require fun _ => .bind .select fun current => ?_
      refine .bind .orElse fun _ => .bind .require fun _ => .bind .select fun acceptedAt => ?_
      refine .bind (.insertRow fun _ => rfl) fun _ => .bind confined_activatePosition fun _ => ?_
      refine .bind (.bind (.update fun _ _ _ => rfl) fun _ => .pure) fun _ => ?_
      exact .bind (.update fun _ _ _ => rfl) fun _ => .bind .commit fun _ => .pure

theorem confined_recordStakeSubmission_terms (actorUserId intentId : Uuid) (txHash : String) :
    (Stakes.recordSubmission actorUserId intentId txHash).request.Confined (fun _ _ => True)
      fun _ => SameTerms := by
  refine Tx.Bounded.request ?_ _
  refine .bind (confined_expireIntentIfNeeded sparesIntents_terms.expired intentId) fun _ => ?_
  refine .bind (.bind .select fun _ => .orElse) fun intent => .bind confined_allowed fun _ => ?_
  refine .bind .require fun _ => .bind .require fun _ => .bind .ofExcept fun hash => ?_
  cases intent.submittedTxHash with
  | some existing => exact .bind .require fun _ => .pure
  | none => exact .bind (.bind (.update fun _ _ _ => rfl) fun _ => .commit) fun _ => .pure

/-- **No request changes the terms** of a market. -/
theorem confined_terms {p : Prog Database Row Site Result} (hp : Requests ext stakeOperations p) :
    p.Confined (fun _ _ => True) fun _ => SameTerms := by
  obtain ⟨operation, hmem, hp⟩ := hp
  cases hp with
  | recordPolicyDecision actorUserId marketId body decisionId =>
      exact confined_recordPolicyDecision spares_terms actorUserId marketId body decisionId
  | transitionMarket actorUserId marketId body eventId =>
      exact confined_transitionMarket spares_terms actorUserId marketId body eventId
  | createStakeIntent userId marketId idempotencyHeader body intentId =>
      exact confined_createStakeIntent sparesIntents_terms _ userId marketId idempotencyHeader body
        intentId
  | getMarketIntent actorUserId intentId =>
      exact confined_getMarketIntent sparesIntents_terms actorUserId intentId
  | recordStakeSubmission actorUserId intentId txHash =>
      exact confined_recordStakeSubmission_terms actorUserId intentId txHash
  | acceptPositionEvidence marketId body ids =>
      exact confined_acceptPositionEvidence marketId body ids
  | createSettlementPlan actorUserId marketId body ids =>
      exact confined_createSettlementPlan spares_terms actorUserId marketId body ids
  | recordSettlementSubmission itemId transactionHash =>
      exact confined_recordSubmission spares_terms itemId transactionHash
  | acceptSettlementEvidence itemId body ids =>
      exact confined_acceptSettlementEvidence spares_terms (fun _ _ _ _ _ _ => rfl) itemId body ids
  | environment directory organizations pageants =>
      exact confined_environment sparesIntents_terms directory organizations pageants
  | createMarket => simp [stakeOperations, asides, bystanders] at hmem

/-! ### A request for a plan -/

section Plan

variable {db : Database} {m : Market} {actorUserId : Uuid} {body : CreateSettlementPlanRequest}
  {ids : PlanIds}

/-- A request of an authorised manager with valid texts, a reason that the log accepts, and fresh
ids. -/
structure ManagerRequest (db : Database) (m : Market) (actorUserId : Uuid)
    (body : CreateSettlementPlanRequest) (ids : PlanIds) : Prop where
  manager : (db.directory.siteAdministrator actorUserId ||
    db.directory.member m.organizationId actorUserId [.owner, .admin]) = true
  key : ∃ key, requiredText body.idempotencyKey 200 "invalid_market_settlement_idempotency_key" =
    .ok key
  reason : ∃ reason, requiredText body.reason 1000 "invalid_market_settlement_reason" = .ok reason ∧
    3 ≤ (btrim reason).length ∧ (btrim reason).length ≤ 1000
  run : ∀ r ∈ db.runs, r.id ≠ ids.run
  items : ∀ n < (activePositions m.id db).length, ∀ i ∈ db.items, i.id ≠ ids.item n
  distinct : ((List.range (activePositions m.id db).length).map ids.item).Nodup
  event : ∀ e ∈ db.governance, e.id ≠ ids.event

/-- The kind of run that a market gets. -/
def runKindOf : MarketStatus → RunKind
  | .cancelled => .refund
  | _ => .payout

/-- The request succeeds, and leaves a run of the market that refunds a cancelled one and pays a
resolved one out. -/
def PlanMade (ext : External) (db : Database) (m : Market) (actorUserId : Uuid)
    (body : CreateSettlementPlanRequest) (ids : PlanIds) : Prop :=
  ∃ response db', (createSettlementPlan ext actorUserId m.id body ids).request.ends db db =
      some (.ok response, db') ∧
    ∃ r ∈ db'.runs, r.id = response.id ∧ r.marketId = m.id ∧ r.kind = runKindOf m.status

/-- The market is cancelled, or resolved for an outcome on which something is staked. -/
def Payable (db : Database) (m : Market) : Prop :=
  m.status = .cancelled ∨ m.status = .resolved ∧ ∃ p ∈ db.positions, p.marketId = m.id ∧
    p.status = .active ∧ m.winningOutcomeId = some p.outcomeId

/-- What the planner relies on, of a state. -/
structure Plannable (db : Database) : Prop where
  books : Books (fun _ => False) db
  marketIds : (db.markets.map (·.id)).Nodup
  positionIds : (db.positions.map (·.id)).Nodup
  amounts : ∀ p ∈ db.positions, 0 < p.amountMinor
  capped : Capped db
  terms : TermsInRange db

theorem activePositions_perm {marketId : Uuid} : (activePositions marketId db).Perm
    ((db.positions.filter fun p => p.marketId = marketId && p.status = .active).map Position.toActive) :=
  (List.perm_insertionSort _ _).map _

theorem staked_activePositions {marketId : Uuid} :
    staked (activePositions marketId db) = activeTotal marketId db := by
  rw [staked, (activePositions_perm.map _).sum_eq, List.map_map]
  exact sum_filter (f := Position.amountMinor)

theorem Plannable.nodup_active (h : Plannable db) (marketId : Uuid) :
    ((activePositions marketId db).map (·.positionId)).Nodup := by
  rw [(activePositions_perm.map _).nodup_iff, List.map_map]
  exact h.positionIds.sublist (List.filter_sublist.map _)

theorem Plannable.amounts_active (h : Plannable db) (marketId : Uuid) :
    ∀ a ∈ activePositions marketId db, 0 < a.amountMinor := by
  intro a ha
  obtain ⟨p, hp, -, -, rfl⟩ := mem_activePositions.mp ha
  exact h.amounts p hp

theorem Plannable.staked_lt (h : Plannable db) (hm : m ∈ db.markets) :
    staked (activePositions m.id db) < 2 ^ 63 := by
  obtain ⟨-, -, hlimit⟩ := h.terms m hm
  rw [staked_activePositions]
  exact (h.capped m.id m (find?_key h.marketIds hm)).trans_lt hlimit

/-- The items of a plan are insertable, next to what is there already. -/
theorem Plannable.insertable (h : Plannable db) (hm : m ∈ db.markets)
    (hreq : ManagerRequest db m actorUserId body ids) {kind : RunKind} {plan : Plan}
    (hplan : planSettlement kind (Market.settlementContext m) (activePositions m.id db) = .ok plan)
    {view : Database} (hview : view.items = db.items) :
    Insertable (planItems ids.run ids.item 0 plan.rows) view := by
  obtain ⟨hlow, hhigh, -⟩ := h.terms m hm
  obtain ⟨planned, hsub, hperm⟩ := planSettlement_positions hplan
  have hnonneg := planSettlement_nonneg hplan (h.amounts_active m.id) ⟨hlow, hhigh⟩
  have hlength : plan.rows.length ≤ (activePositions m.id db).length := by
    rw [← List.length_map (f := (·.position)), hperm.length_eq]
    exact hsub.length_le
  have hrows (r : PlannedPayout) (hr : r ∈ plan.rows) : r.position ∈ activePositions m.id db :=
    hsub.subset (hperm.subset (List.mem_map_of_mem hr))
  refine ⟨fun i hi => ?_, fun i hi => ?_, ?_, ?_, fun i hi j hj => ?_, fun i hi j hj => ?_⟩
  · obtain ⟨r, hr, -, -, -, rfl⟩ := exists_of_mem_planItems hi
    exact h.amounts_active m.id _ (hrows r hr)
  · obtain ⟨r, hr, -, -, -, rfl⟩ := exists_of_mem_planItems hi
    exact hnonneg r hr
  · rw [planItems_ids, ← List.range_eq_range']
    exact hreq.distinct.sublist ((List.range_sublist.mpr hlength).map _)
  · rw [planItems_positions]
    have hpositions : (plan.rows.map fun r => r.position.positionId).Nodup := by
      have hnodup := (h.nodup_active m.id).sublist (hsub.map (·.positionId))
      rwa [← (hperm.map (·.positionId)).nodup_iff, List.map_map] at hnodup
    have hpairs : (plan.rows.map fun r => (ids.run, r.position.positionId)) =
        (plan.rows.map fun r => r.position.positionId).map (Prod.mk ids.run) := by
      rw [List.map_map]
      rfl
    rw [hpairs]
    exact hpositions.map (Prod.mk_right_injective ids.run)
  · obtain ⟨r, -, n, -, hn, rfl⟩ := exists_of_mem_planItems hi
    exact hreq.items n (by omega) j (hview ▸ hj)
  · obtain ⟨r, -, n, -, -, rfl⟩ := exists_of_mem_planItems hi
    intro heq
    -- an item that is there belongs to a run that is there
    obtain ⟨s, hs⟩ := h.books.owned j (hview ▸ hj)
    obtain ⟨hmem, hid⟩ := runTable.find_mem hs
    exact hreq.run s hmem (hid.trans (Prod.mk.inj heq).1)

variable (ext) in
/-- **What is planned is written.** -/
theorem Plannable.ends_writePlan (h : Plannable db) (hm : m ∈ db.markets)
    (hruns : ∀ r ∈ db.runs, r.marketId ≠ m.id) (hreq : ManagerRequest db m actorUserId body ids)
    {kind : RunKind} {plan : Plan}
    (hplan : planSettlement kind (Market.settlementContext m) (activePositions m.id db) = .ok plan)
    (key reason : String) (began : Int)
    (hlogged : 3 ≤ (btrim reason).length ∧ (btrim reason).length ≤ 1000) :
    ∃ db', Prog.ends (writePlan ext.accepting actorUserId m.id (Market.settlementContext m) kind key reason plan
        began ids fun r => .ret (.ok r)) db db = some (.ok ⟨.created, ids.run⟩, db') ∧
      ∃ r ∈ db'.runs, r.id = ids.run ∧ r.marketId = m.id ∧ r.kind = kind := by
  have hrun (r : SettlementRun) (hid : r.id = ids.run) (hmarket : r.marketId = m.id) :
      runViolation r db = none := by
    have hnone : (db.runs.any fun s => s.id = r.id || (s.marketId = r.marketId && s.kind = r.kind &&
        s.idempotencyKey = r.idempotencyKey)) = false := by
      refine List.any_eq_false.mpr fun s hs hkey => ?_
      simp only [Bool.or_eq_true, Bool.and_eq_true, decide_eq_true_eq] at hkey
      rcases hkey with heq | ⟨⟨heq, -⟩, -⟩
      · exact hreq.run s hs (heq.trans hid)
      · exact hruns s hs (heq.trans hmarket)
    rw [runViolation, hnone]
    rfl
  unfold writePlan insertRun insertGovernance
  refine ⟨?left, ?ends, ?run⟩
  case ends =>
    refine ends_bind.trans ((ends_insertRow ?_).trans ?_)
    · exact raise_eq_none.mpr (hrun _ rfl rfl)
    refine ends_bind.trans ((ends_insertItems ?_).trans ?_)
    · exact h.insertable hm hreq hplan rfl
    refine ends_bind.trans ((ends_update fun _ _ => rfl).trans ?_)
    refine ends_bind.trans ((ends_insertRow ?_).trans ?_)
    · refine raise_eq_none.mpr ?_
      have hchecks : ¬ (ext.accepting.governed "settlement.plan" = false ∨
          ¬ (3 ≤ (btrim reason).length ∧ (btrim reason).length ≤ 1000)) := by
        rintro (h | h)
        · cases h
        · exact h hlogged
      have hfresh : db.governance.any (·.id = ids.event) = false :=
        List.any_eq_false.mpr fun e he heq => hreq.event e he (of_decide_eq_true heq)
      rw [governanceViolation, if_neg hchecks]
      exact if_neg (Bool.not_eq_true _ ▸ hfresh)
    · exact rfl
  case run =>
    refine ⟨_, List.mem_append_right _ List.mem_cons_self, rfl, rfl, rfl⟩

theorem no_sameKey (hruns : ∀ r ∈ db.runs, r.marketId ≠ m.id) {kind : RunKind} {key : String} :
    (db.runs.find? fun r => r.marketId = m.id && r.kind = kind && r.idempotencyKey = key) = none := by
  refine List.find?_eq_none.mpr fun r hr hkey => hruns r hr ?_
  simp only [Bool.and_eq_true, decide_eq_true_eq] at hkey
  exact hkey.1.1

variable (ext) in
/-- A market without runs gets one as soon as the planner makes a plan. -/
theorem Plannable.ends_planMarket (h : Plannable db) (hm : m ∈ db.markets)
    (hruns : ∀ r ∈ db.runs, r.marketId ≠ m.id) (hreq : ManagerRequest db m actorUserId body ids)
    {kind : RunKind} {plan : Plan}
    (hplan : planSettlement kind (Market.settlementContext m) (activePositions m.id db) = .ok plan)
    (key reason : String) (began : Int)
    (hlogged : 3 ≤ (btrim reason).length ∧ (btrim reason).length ≤ 1000) :
    ∃ db', Prog.ends (planMarket ext.accepting actorUserId m.id (Market.settlementContext m) kind key
        reason began ids fun r => .ret (.ok r)) db db = some (.ok ⟨.created, ids.run⟩, db') ∧
      ∃ r ∈ db'.runs, r.id = ids.run ∧ r.marketId = m.id ∧ r.kind = kind := by
  obtain ⟨db', hends, hrun⟩ := h.ends_writePlan ext hm hruns hreq hplan key reason began hlogged
  refine ⟨db', ?_, hrun⟩
  unfold planMarket activePositionsForUpdate
  refine ends_bind.trans (ends_selectFor.trans ?_)
  rw [no_sameKey hruns]
  refine ends_bind.trans (ends_selectFor.trans ?_)
  exact ends_bind.trans ((ends_ofExcept hplan).trans hends)

/-- Where the planner makes no plan, there is none. -/
theorem ends_planMarket_refused (hruns : ∀ r ∈ db.runs, r.marketId ≠ m.id) {kind : RunKind}
    {error : ApiError}
    (hplan : planSettlement kind (Market.settlementContext m) (activePositions m.id db) = .error error)
    {key reason : String} {began : Int} :
    Prog.ends (planMarket ext.accepting actorUserId m.id (Market.settlementContext m) kind key reason
      began ids fun r => .ret (.ok r)) db db = some (.error error, db) := by
  unfold planMarket activePositionsForUpdate
  refine ends_bind.trans (ends_selectFor.trans ?_)
  rw [no_sameKey hruns]
  refine ends_bind.trans (ends_selectFor.trans ?_)
  exact ends_bind.trans (ends_failed hplan)

variable (ext) in
/-- The request up to the status of the market. -/
theorem ManagerRequest.ends (hreq : ManagerRequest db m actorUserId body ids)
    (hm : marketTable.find db m.id = some m) : ∃ key reason,
      (3 ≤ (btrim reason).length ∧ (btrim reason).length ≤ 1000) ∧
      (createSettlementPlan ext actorUserId m.id body ids).request.ends db db =
        Prog.ends ((match m.status with
          | .resolved => planMarket ext actorUserId m.id (Market.settlementContext m) .payout key reason
              db.directory.clock ids
          | .cancelled => planMarket ext actorUserId m.id (Market.settlementContext m) .refund key reason
              db.directory.clock ids
          | .settling | .settled => do
              let existing ← Tx.select .other (latestRun m.id key)
              let existing ← Tx.orElse existing (.error (.conflict "market_settlement_already_started"))
              Tx.commit
              return ⟨.ok, existing.id⟩
          | _ => Tx.exit (.error (.conflict "market_not_resolved_or_cancelled")) : Handler Response)
          fun r => .ret (.ok r)) db db := by
  obtain ⟨key, hkey⟩ := hreq.key
  obtain ⟨reason, hreason, hlogged⟩ := hreq.reason
  refine ⟨key, reason, hlogged, ?_⟩
  unfold Handler.request createSettlementPlan settlementContextForUpdate requireOrganizationManager
  refine ends_bind.trans ((ends_ofExcept hkey).trans ?_)
  refine ends_bind.trans ((ends_ofExcept hreason).trans ?_)
  refine ends_bind.trans (ends_select.trans ?_)
  have hmarket : (marketTable.find db m.id).map Market.settlementContext =
      some (Market.settlementContext m) := by rw [hm, Option.map_some]
  refine ends_bind.trans (ends_bind.trans (ends_selectFor.trans ((ends_orElse hmarket).trans ?_)))
  exact ends_bind.trans (ends_bind.trans (ends_select.trans (ends_require hreq.manager)))

/-- **When a plan is made** of a market that waits for one. -/
theorem Plannable.planMade_iff (h : Plannable db) (hm : m ∈ db.markets)
    (hstatus : m.status = .resolved ∨ m.status = .cancelled ∨ m.status = .settling)
    (hactive : ∃ p ∈ db.positions, p.marketId = m.id ∧ p.status = .active)
    (hruns : ∀ r ∈ db.runs, r.marketId ≠ m.id) (hreq : ManagerRequest db m actorUserId body ids) :
    PlanMade ext.accepting db m actorUserId body ids ↔ Payable db m := by
  obtain ⟨hlow, hhigh, -⟩ := h.terms m hm
  obtain ⟨key, reason, hlogged, hends⟩ := hreq.ends ext.accepting (find?_key h.marketIds hm)
  have hamounts := h.amounts_active m.id
  have hstaked := h.staked_lt hm
  unfold PlanMade Payable
  rw [hends]
  rcases hstatus with hresolved | hcancelled | hsettling
  · rw [hresolved]
    have hiff := planSettlement_payout_iff (Market.settlementContext m) hamounts ⟨hlow, hhigh⟩ hstaked
    constructor
    · rintro ⟨response, db', hok, -⟩
      refine .inr ⟨rfl, ?_⟩
      cases hplan : planSettlement .payout (Market.settlementContext m) (activePositions m.id db) with
      | error error =>
          rw [ends_planMarket_refused hruns hplan] at hok
          cases hok
      | ok plan =>
          obtain ⟨a, ha, hwinner⟩ := hiff.mp ⟨plan, hplan⟩
          obtain ⟨p, hp, hmarket, hs, rfl⟩ := mem_activePositions.mp ha
          exact ⟨p, hp, hmarket, hs, hwinner⟩
    · rintro (hc | ⟨-, p, hp, hmarket, hs, hwinner⟩)
      · cases hc
      · obtain ⟨plan, hplan⟩ := hiff.mpr
          ⟨_, mem_activePositions.mpr ⟨p, hp, hmarket, hs, rfl⟩, hwinner⟩
        obtain ⟨db', hplanned, hrun⟩ := h.ends_planMarket ext hm hruns hreq hplan key reason
          db.directory.clock hlogged
        exact ⟨_, db', hplanned, hrun⟩
  · rw [hcancelled]
    obtain ⟨p, hp, hmarket, hs⟩ := hactive
    have hne : activePositions m.id db ≠ [] :=
      List.ne_nil_of_mem (mem_activePositions.mpr ⟨p, hp, hmarket, hs, rfl⟩)
    obtain ⟨plan, hplan⟩ := planSettlement_refund_succeeds (Market.settlementContext m) hne
      hamounts hstaked
    obtain ⟨db', hplanned, hrun⟩ := h.ends_planMarket ext hm hruns hreq hplan key reason
      db.directory.clock hlogged
    exact iff_of_true ⟨_, db', hplanned, hrun⟩ (.inl rfl)
  · rw [hsettling]
    refine iff_of_false ?_ (by simp)
    rintro ⟨response, db', hok, -⟩
    -- there is no run to go on with
    have hnone : latestRun m.id key db = none := by
      have hnil : (db.runs.filter fun r => r.marketId = m.id && r.idempotencyKey = key) = [] := by
        refine List.filter_eq_nil_iff.mpr fun r hr hkey => hruns r hr ?_
        exact of_decide_eq_true (Bool.and_eq_true_iff.mp hkey).1
      rw [latestRun, hnil]
      rfl
    rw [ends_bind, ends_select, ends_bind, ends_missing hnone] at hok
    cases hok

end Plan

/-! ### Every run -/

/-- Where the runs start: markets with terms in range, of which none is settled yet. -/
structure Staked (db : Database) : Prop where
  unsettled : Unsettled db
  books : CappedBooks db
  terms : TermsInRange db

/-- The planner can rely on the state that a run reaches. -/
theorem run_plannable {db₀ : Database} (h₀ : Staked db₀) {pool : Pool Database Row Site Result}
    {actions : List (Action Database Row Site Result)}
    (hrun : Run (Pool.Step (Requests ext stakeOperations) fun _ _ => True) (Pool.idle db₀) actions pool) :
    Plannable pool.db := by
  have hcapped := (run_healthy (fun _ => safe_stakeRequest) hrun (healthy_idle h₀.books)).inv
  have hterms := (run_healthy (I := TermsInRange) (G := fun _ _ _ => True) (fun p hp =>
    (confined_terms hp).safeRequest (fun _ _ _ hsame h => h.same hsame) fun _ _ _ _ _ => trivial) hrun
    (healthy_idle h₀.terms)).inv
  have hinv : Inv False False pool.db := by
    rw [← condition_free] at hrun
    exact (run_healthy (fun _ hp => safe_request (fun h => h.elim) hp) hrun
      (healthy_idle h₀.unsettled.inv)).inv
  exact ⟨hinv.books, hinv.marketIds, hinv.positionIds, hcapped.books.amounts, hcapped.capped, hterms⟩

/-- **When the stakes of a market can be settled**: in every state of every run, a market that is
resolved, cancelled or settling, with active positions and no run, gets a plan if and only if it is
cancelled, or resolved for an outcome on which something is staked. -/
theorem plan_made_iff {db₀ : Database} (h₀ : Staked db₀) {pool : Pool Database Row Site Result}
    {actions : List (Action Database Row Site Result)}
    (hrun : Run (Pool.Step (Requests ext.accepting stakeOperations) fun _ _ => True) (Pool.idle db₀)
      actions pool)
    {m : Market} (hm : m ∈ pool.db.markets)
    (hstatus : m.status = .resolved ∨ m.status = .cancelled ∨ m.status = .settling)
    (hactive : ∃ p ∈ pool.db.positions, p.marketId = m.id ∧ p.status = .active)
    (hruns : ∀ r ∈ pool.db.runs, r.marketId ≠ m.id) {actorUserId : Uuid}
    {body : CreateSettlementPlanRequest} {ids : PlanIds}
    (hreq : ManagerRequest pool.db m actorUserId body ids) :
    PlanMade ext.accepting pool.db m actorUserId body ids ↔ Payable pool.db m :=
  (run_plannable h₀ hrun).planMade_iff hm hstatus hactive hruns hreq

theorem resolvedMarket_staked : Staked resolvedMarket where
  unsettled := resolvedMarket_unsettled
  books := resolvedMarket_capped
  terms m hm := by
    obtain rfl := List.mem_singleton.mp hm
    decide

/-- The market once the late stake is accepted. -/
def stakedMarket : Database :=
  { resolvedMarket with
    outcomes := [⟨21, 20, "A", "First", 0, 1500⟩, ⟨22, 20, "B", "Second", 1, 0⟩]
    stakeIntents :=
      [stakeIntentOf 40 2 4 1000 .confirmed (stakeHash 'a'),
        { stakeIntentOf 41 3 5 500 .confirmed (stakeHash 'b') with confirmedAt := some (seconds 1800000000) }]
    positionEvidence := resolvedMarket.positionEvidence ++
      [⟨61, 10, 20, 41, 21, 5, stakeHash 'b', 6, "stake-2", 500, seconds 1800000000⟩]
    positions := resolvedMarket.positions ++
      [⟨51, 10, 20, 21, 3, 5, 41, 500, .active, some 61, some (seconds 1800000000),
        seconds 1800000000⟩] }

/-- The market that was made to settle by hand. -/
def stuckMarket : Database :=
  { resolvedMarket with
    markets := resolvedMarket.markets.map ({ · with status := .settling })
    governance := [⟨82, 10, 20, 1, "market.transition", some .resolved, some .settling, "It is over."⟩] }

/-- The request for a plan passes every check but the market's, in either. -/
theorem planRequest_manages {db : Database} (hdb : db = stakedMarket ∨ db = stuckMarket) {m : Market}
    (hm : m ∈ db.markets) : ManagerRequest db m 1 planRequest planIds := by
  have htexts : (∃ key, requiredText planRequest.idempotencyKey 200
        "invalid_market_settlement_idempotency_key" = .ok key) ∧
      ∃ reason, requiredText planRequest.reason 1000 "invalid_market_settlement_reason" = .ok reason ∧
        3 ≤ (btrim reason).length ∧ (btrim reason).length ≤ 1000 :=
    ⟨⟨"plan", by decide +kernel⟩, "Pay the winners.", by decide +kernel, by decide +kernel,
      by decide +kernel⟩
  rcases hdb with rfl | rfl
  · obtain rfl := List.mem_singleton.mp hm
    exact ⟨by decide, htexts.1, htexts.2, by decide, by decide, by decide +kernel, by decide⟩
  · obtain rfl := List.mem_singleton.mp hm
    exact ⟨by decide, htexts.1, htexts.2, by decide, by decide, by decide +kernel, by decide⟩

theorem stakedMarket_reached : (stakeLate.serve (fun _ _ => True) resolvedMarket resolvedMarket).any
    (fun served => served.2 = stakedMarket) = true := by
  decide +kernel

/-- The plan of the market with both stakes is made. -/
theorem stakedMarket_planned :
    ∃ (pool : Pool Database Row Site Result) (actions : List (Action Database Row Site Result)) (m : Market),
      Run (Pool.Step (Requests marketExternal.accepting stakeOperations) fun _ _ => True)
        (Pool.idle resolvedMarket) actions pool ∧
      pool.db.positions.map (·.status) = [.active, .active] ∧ m ∈ pool.db.markets ∧
      PlanMade marketExternal.accepting pool.db m 1 planRequest planIds := by
  obtain ⟨served, hserved, hreached⟩ := (Option.any_eq_true _ _).mp stakedMarket_reached
  have hend : served.2 = stakedMarket := of_decide_eq_true hreached
  have hrequest : Requests marketExternal.accepting stakeOperations stakeLate :=
    ⟨_, by decide, .acceptPositionEvidence 20 lateStakeRequest ⟨61, 51⟩⟩
  obtain ⟨actions, hrun⟩ := Pool.run_of_serve hrequest hserved
  rw [hend] at hrun
  refine ⟨_, actions, stakedMarket.markets.head (by decide), hrun, by decide, by decide, ?_⟩
  refine (plan_made_iff resolvedMarket_staked hrun (by decide) (by decide) ?_ (by decide)
    (planRequest_manages (.inl rfl) (by decide))).mpr ?_
  · exact ⟨_, List.mem_cons_self, by decide, by decide⟩
  · exact .inr ⟨by decide, _, List.mem_cons_self, by decide, by decide, by decide⟩

/-- The operations that take a market from its stakes to its settlement. -/
def stakingOperations : List Operation :=
  [.transitionMarket, .createStakeIntent, .recordStakeSubmission, .acceptPositionEvidence,
    .createSettlementPlan]

theorem stuckMarket_reached : ((moveTo "settling" 82).serve (fun _ _ => True) resolvedMarket
    resolvedMarket).any (fun served => served.2 = stuckMarket) = true := by
  decide +kernel

/-- A market that is made to settle by hand never gets a plan. -/
theorem settling_by_hand_stranded :
    ¬ ∀ (ext : External) (db₀ : Database), Staked db₀ →
      ∀ (pool : Pool Database Row Site Result) (actions : List (Action Database Row Site Result)),
        Run (Pool.Step (Requests ext.accepting stakingOperations) fun _ _ => True) (Pool.idle db₀)
          actions pool →
        ∀ m ∈ pool.db.markets, m.status = .resolved ∨ m.status = .cancelled ∨ m.status = .settling →
        (∃ p ∈ pool.db.positions, p.marketId = m.id ∧ p.status = .active) →
        (∀ r ∈ pool.db.runs, r.marketId ≠ m.id) →
        ∀ (actorUserId : Uuid) (body : CreateSettlementPlanRequest) (ids : PlanIds),
          ManagerRequest pool.db m actorUserId body ids →
            PlanMade ext.accepting pool.db m actorUserId body ids := by
  intro h
  obtain ⟨served, hserved, hreached⟩ := (Option.any_eq_true _ _).mp stuckMarket_reached
  have hend : served.2 = stuckMarket := of_decide_eq_true hreached
  have hrequest : Requests marketExternal.accepting stakingOperations (moveTo "settling" 82) :=
    ⟨_, by decide, .transitionMarket 1 20 (transitionRequest "settling") 82⟩
  obtain ⟨actions, hrun⟩ := Pool.run_of_serve hrequest hserved
  rw [hend] at hrun
  obtain ⟨response, db', hends, -⟩ := h marketExternal resolvedMarket resolvedMarket_staked _ actions hrun
    (stuckMarket.markets.head (by decide)) (by decide) (.inr (.inr (by decide)))
    ⟨_, List.mem_cons_self, by decide, by decide⟩ (by decide) 1 planRequest planIds
    (planRequest_manages (.inr rfl) (by decide))
  have hrefused : ((createSettlementPlan marketExternal.accepting 1 20 planRequest planIds).request.ends
      stuckMarket stuckMarket).all (fun served => !served.1.isOk) = true := by
    decide +kernel
  have hends : (createSettlementPlan marketExternal.accepting 1 20 planRequest planIds).request.ends
      stuckMarket stuckMarket = some (.ok response, db') := hends
  rw [hends] at hrefused
  cases hrefused

end CrownFi.Markets
