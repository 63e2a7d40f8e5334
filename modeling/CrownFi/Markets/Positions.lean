import CrownFi.Markets.Stakes

/-!
# CrownFi.Markets.Positions

Positions and settlement plans (`market_positions.rs`). Evidence from the chain turns a
submitted stake intent into an active position; a plan gives every active position of a
refund, and every winning position of a payout, one item. Both lock the market's row,
but only the plan looks at the market's status.
-/

namespace CrownFi.Markets.Positions

open Lib CrownFi.Api

/-- `map_database_error`; a number out of range is no error it knows. -/
def mapDatabaseError : SqlError → ApiError
  | .uniqueViolation => .conflict "market_position_or_settlement_already_exists"
  | .foreignKeyViolation => .invalidRequest "market_related_resource_not_found"
  | .checkViolation => .invalidRequest "market_settlement_constraint_failed"
  | .outOfRange => .database

/-- `validate_stellar_address`; the modules differ in the error. -/
def validateStellarAddress (value error : String) : Except ApiError String :=
  let value := String.ofList (trimUpper value)
  if isStellarAccount value then .ok value else .error (.invalidRequest error)

/-! ### Evidence of a position -/

structure AcceptPositionEvidenceRequest where
  stakeIntentId : Uuid
  txHash : String
  ledgerSequence : Int
  contractEventId : String
  sourceAddress : String
  amountMinor : Int
  evidence : Json

/-- The evidence, validated. -/
structure ObservedStake where
  stakeIntentId : Uuid
  txHash : String
  ledgerSequence : Int
  contractEventId : String
  sourceAddress : String
  amountMinor : Int
  deriving DecidableEq, Repr

def AcceptPositionEvidenceRequest.validate (body : AcceptPositionEvidenceRequest) :
    Except ApiError ObservedStake := do
  let txHash ← hexString body.txHash 64 "invalid_market_transaction_hash"
  let contractEventId ← requiredText body.contractEventId 240 "invalid_market_event_id"
  let sourceAddress ← validateStellarAddress body.sourceAddress "invalid_market_source_address"
  if body.ledgerSequence ≤ 0 ∨ body.amountMinor ≤ 0 ∨ body.evidence.isObject = false then
    throw (.invalidRequest "invalid_market_position_evidence")
  return { stakeIntentId := body.stakeIntentId, txHash, ledgerSequence := body.ledgerSequence
           contractEventId, sourceAddress, amountMinor := body.amountMinor }

structure StakeIntentContext where
  organizationId : Uuid
  marketId : Uuid
  outcomeId : Uuid
  userId : Uuid
  stellarAccountId : Uuid
  expectedAmountMinor : Int
  intentStatus : StakeIntentStatus
  sourceAddress : String
  maxMarketExposureMinor : Int
  deriving DecidableEq, Repr

/-- The intent joined with its account and its market. -/
def stakeIntentContext (stakeIntentId : Uuid) (db : Database) : Option StakeIntentContext := do
  let psi ← stakeIntentTable.find db stakeIntentId
  let sa ← db.directory.stellarAccounts.find? (·.id = psi.stellarAccountId)
  let pm ← marketTable.find db psi.marketId
  return { organizationId := psi.organizationId, marketId := psi.marketId
           outcomeId := psi.outcomeId, userId := psi.userId
           stellarAccountId := psi.stellarAccountId, expectedAmountMinor := psi.amountMinor
           intentStatus := psi.status, sourceAddress := sa.address
           maxMarketExposureMinor := pm.maxMarketExposureMinor }

/-- `FOR UPDATE OF psi, pm`. -/
def contextForUpdate (stakeIntentId : Uuid) : Handler StakeIntentContext := do
  let row ← Tx.selectFor .other
    (fun db => (stakeIntentContext stakeIntentId db).toList.flatMap fun c =>
      [⟨.stakeIntent stakeIntentId, .update⟩, ⟨.market c.marketId, .update⟩])
    (stakeIntentContext stakeIntentId)
  Tx.orElse row (.error .notFound)

/-- `load_evidence_tx`. -/
def loadEvidenceTx (stakeIntentId : Uuid) : Handler (Option PositionEvidence) :=
  Tx.selectFor .other
    (fun db => (positionEvidenceTable.find db stakeIntentId).toList.map fun e =>
      ⟨.positionEvidenceOf e.stakeIntentId, .update⟩)
    (positionEvidenceTable.find · stakeIntentId)

/-- What the active positions of a market add up to. -/
def activeExposure (marketId : Uuid) (db : Database) : Option Int :=
  Stakes.sumMinor <|
    (db.positions.filter fun p => p.marketId = marketId && p.status = .active).map (·.amountMinor)

/-- The unique keys of `prediction_market_position_evidence`. -/
def positionEvidenceViolation (e : PositionEvidence) (db : Database) : Option SqlError :=
  if db.positionEvidence.any fun f => f.id = e.id || f.stakeIntentId = e.stakeIntentId ||
      f.txHash = e.txHash || f.contractEventId = e.contractEventId then
    some .uniqueViolation
  else none

def insertPositionEvidence (e : PositionEvidence) : Handler PUnit :=
  Tx.insertRow (.accept e.stakeIntentId e.txHash) positionEvidenceTable
    [⟨.positionEvidence e.id, .update⟩, ⟨.positionEvidenceOf e.stakeIntentId, .update⟩,
      ⟨.positionTransaction e.txHash, .update⟩, ⟨.contractEvent e.contractEventId, .update⟩,
      ⟨.market e.marketId, .keyShare⟩, ⟨.stakeIntent e.stakeIntentId, .keyShare⟩,
      ⟨.outcome e.outcomeId, .keyShare⟩]
    (fun db => raise mapDatabaseError (positionEvidenceViolation e db)) e

/-- The position of an intent. -/
def positionOf (stakeIntentId : Uuid) (db : Database) : Option Position :=
  db.positions.find? (·.stakeIntentId = stakeIntentId)

/-- `ON CONFLICT (stake_intent_id) DO UPDATE`. -/
def Position.reactivate (new old : Position) : Position :=
  { old with
    status := .active, acceptedEvidenceId := new.acceptedEvidenceId, activatedAt := new.activatedAt }

/-- The change of the upsert, by what it saw. -/
def activation (p : Position) (view : Database) : Database → Database :=
  match positionOf p.stakeIntentId view with
  | some old => positionTable.modify (·.id = old.id) (Position.reactivate p) view
  | none => positionTable.add p

/-- `INSERT INTO prediction_market_positions .. ON CONFLICT (stake_intent_id) DO UPDATE ..`. -/
def activatePosition (p : Position) : Handler PUnit := fun k =>
  .stmt (.activate p.marketId)
    (fun view => ⟨.position ((positionOf p.stakeIntentId view).getD p).id, .update⟩ ::
      [⟨.positionOf p.stakeIntentId, .update⟩, ⟨.market p.marketId, .keyShare⟩,
        ⟨.outcome p.outcomeId, .keyShare⟩, ⟨.stakeIntent p.stakeIntentId, .keyShare⟩])
    (activation p)
    fun view =>
      if positionOf p.stakeIntentId view = none ∧ view.positions.any (·.id = p.id) = true then
        .ret (.error (mapDatabaseError .uniqueViolation))
      else k ⟨⟩

/-- `total_active_minor = total_active_minor + ..`. -/
def addToOutcome (outcomeId : Uuid) (amountMinor : Int) : Handler PUnit := do
  let _ ← Tx.update .other outcomeTable (fun o => [⟨.outcome o.id, .noKeyUpdate⟩])
    (·.id = outcomeId) (fun o => { o with totalActiveMinor := o.totalActiveMinor + amountMinor })
    fun _ o => raise mapDatabaseError <|
      if ¬ inI64 o.totalActiveMinor then some .outOfRange
      else if o.totalActiveMinor < 0 then some .checkViolation
      else none

/-- The ids a request draws. -/
structure PositionIds where
  evidence : Uuid
  position : Uuid
  deriving DecidableEq, Repr

/-- What is written for new evidence. -/
def acceptStake (intent : StakeIntentContext) (stake : ObservedStake) (began acceptedAt : Int)
    (ids : PositionIds) : Handler Response := do
  insertPositionEvidence
    { id := ids.evidence, organizationId := intent.organizationId, marketId := intent.marketId
      stakeIntentId := stake.stakeIntentId, outcomeId := intent.outcomeId
      sourceStellarAccountId := intent.stellarAccountId, txHash := stake.txHash
      ledgerSequence := stake.ledgerSequence, contractEventId := stake.contractEventId
      amountMinor := stake.amountMinor, acceptedAt }
  activatePosition
    { id := ids.position, organizationId := intent.organizationId, marketId := intent.marketId
      outcomeId := intent.outcomeId, userId := intent.userId
      stellarAccountId := intent.stellarAccountId, stakeIntentId := stake.stakeIntentId
      amountMinor := stake.amountMinor, status := .active, acceptedEvidenceId := some ids.evidence
      activatedAt := some acceptedAt, createdAt := began }
  addToOutcome intent.outcomeId stake.amountMinor
  let _ ← Stakes.updateStakeIntent stake.stakeIntentId (fun _ => true)
    ({ · with status := .confirmed, confirmedAt := some acceptedAt }) fun _ _ => none
  Tx.commit
  return ⟨.created, ids.evidence⟩

def acceptPositionEvidence (marketId : Uuid) (body : AcceptPositionEvidenceRequest)
    (ids : PositionIds) : Handler Response := do
  let stake ← valid body.validate
  let began ← Tx.select .other (·.directory.clock)
  let intent ← contextForUpdate stake.stakeIntentId
  Tx.require (intent.marketId = marketId) (.error .notFound)
  let existing ← loadEvidenceTx stake.stakeIntentId
  match existing with
  | some existing =>
      Tx.require (existing.txHash = stake.txHash && existing.amountMinor = stake.amountMinor &&
          existing.contractEventId = stake.contractEventId)
        (.error (.conflict "market_evidence_conflicts_with_accepted_record"))
      Tx.commit
      return ⟨.ok, existing.id⟩
  | none =>
      Tx.require (intent.intentStatus = .submitted) (.error (.conflict "market_intent_not_submitted"))
      Tx.require (intent.expectedAmountMinor = stake.amountMinor &&
          intent.sourceAddress = stake.sourceAddress)
        (.error (.conflict "market_position_evidence_mismatch"))
      let current ← Tx.select .other (activeExposure marketId)
      let current ← inRange mapDatabaseError current
      Tx.require ((checkedI64 (current + stake.amountMinor)).any (· ≤ intent.maxMarketExposureMinor))
        (.error (.conflict "market_exposure_limit_exceeded"))
      let acceptedAt ← Tx.select .other (·.directory.clock)
      acceptStake intent stake began acceptedAt ids

/-! ### The summary of positions -/

structure PositionSummaryEntry where
  outcomeId : Uuid
  code : String
  label : String
  activePositions : Nat
  totalActiveMinor : Int
  deriving DecidableEq, Repr

structure PositionsSummary where
  marketId : Uuid
  totalPositions : Nat
  totalActiveMinor : Int
  outcomes : List PositionSummaryEntry
  deriving DecidableEq, Repr

/-- The active positions on an outcome, as the summary joins them. -/
def activeOn (outcomeId : Uuid) (db : Database) : List Position :=
  db.positions.filter fun p => p.outcomeId = outcomeId && p.status = .active

def Outcome.summary (db : Database) (o : Outcome) : Option PositionSummaryEntry := do
  let totalActiveMinor ← Stakes.sumMinor ((activeOn o.id db).map (·.amountMinor))
  return { outcomeId := o.id, code := o.code, label := o.label
           activePositions := (activeOn o.id db).length, totalActiveMinor }

/-- The outcomes of a market with what is active on them: `ORDER BY sort_order`. -/
def summaryEntries (marketId : Uuid) (db : Database) : Option (List PositionSummaryEntry) :=
  ((db.outcomes.filter (·.marketId = marketId)).insertionSort
    fun o o' => o.sortOrder ≤ o'.sortOrder).mapM (Outcome.summary db)

def getPositionsSummary (marketId : Uuid) : Handler PositionsSummary := do
  let found ← Tx.select .other fun db =>
    db.markets.any fun m => m.id = marketId && m.status ≠ .draft
  Tx.require found (.error .notFound)
  let outcomes ← Tx.select .other (summaryEntries marketId)
  let outcomes ← inRange mapDatabaseError outcomes
  -- a sum of `i64` wraps around
  return { marketId, totalPositions := (outcomes.map (·.activePositions)).sum
           totalActiveMinor := (outcomes.map PositionSummaryEntry.totalActiveMinor).sum.bmod (2 ^ 64)
           outcomes }

/-! ### Planning a settlement -/

structure SettlementContext where
  organizationId : Uuid
  status : MarketStatus
  feeBps : Int
  winningOutcomeId : Option Uuid
  deriving DecidableEq, Repr

structure ActivePosition where
  positionId : Uuid
  outcomeId : Uuid
  amountMinor : Int
  stellarAccountId : Uuid
  deriving DecidableEq, Repr

/-- A position with the payout planned for it. -/
structure PlannedPayout where
  position : ActivePosition
  payoutMinor : Int
  deriving DecidableEq, Repr

def amountOverflow : ApiError := .invalidRequest "market_settlement_amount_overflow"

/-- A checked result, or the error of the plan. -/
def orOverflow (value : Option Int) : Except ApiError Int :=
  match value with
  | some n => .ok n
  | none => .error amountOverflow

/-- `try_fold` with `checked_add`. -/
def sumFrom (total : Int) : List Int → Except ApiError Int
  | [] => .ok total
  | n :: rest => do
      let total ← orOverflow (checkedI64 (total + n))
      sumFrom total rest

/-- The floor of each winner's share, with the sum of what came before. -/
def shares (distributableMinor winningStake : Int) (allocated : Int) :
    List ActivePosition → Except ApiError (List PlannedPayout × Int)
  | [] => .ok ([], allocated)
  | position :: rest => do
      let payout ← orOverflow
        (checkedI64 ((position.amountMinor * distributableMinor).tdiv winningStake))
      let allocated ← orOverflow (checkedI64 (allocated + payout))
      let (rows, allocated) ← shares distributableMinor winningStake allocated rest
      return (⟨position, payout⟩ :: rows, allocated)

/-- One more unit for the row at this index. -/
def addUnit (rows : List PlannedPayout) (index : Nat) : List PlannedPayout :=
  rows.modify index fun r => { r with payoutMinor := r.payoutMinor + 1 }

/-- The loop that hands out the remainder, one unit to each row in turn. -/
def handOut (rows : List PlannedPayout) (index : Nat) : Nat → List PlannedPayout
  | 0 => rows
  | remainder + 1 => handOut (addUnit rows index) ((index + 1) % rows.length) remainder

/-- The rows of a payout: the winners with their shares of what is distributed. -/
def payoutRows (positions : List ActivePosition) (winner : Uuid) (distributableMinor : Int) :
    Except ApiError (List PlannedPayout) := do
  let winners := positions.filter (·.outcomeId = winner)
  if winners = [] then throw (.conflict "market_has_no_winning_positions")
  let winningStake ← sumFrom 0 (winners.map (·.amountMinor))
  let (rows, allocated) ← shares distributableMinor winningStake 0 winners
  return handOut rows 0 (distributableMinor - allocated).toNat

/-- The rows of a refund: every position with its amount. -/
def refundRows (positions : List ActivePosition) : List PlannedPayout :=
  positions.map fun position => ⟨position, position.amountMinor⟩

/-- A settlement as it is planned. -/
structure Plan where
  winningOutcomeId : Option Uuid
  totalStakeMinor : Int
  feeMinor : Int
  distributableMinor : Int
  totalPlannedMinor : Int
  rows : List PlannedPayout
  deriving DecidableEq, Repr

def planSettlement (kind : RunKind) (market : SettlementContext) (positions : List ActivePosition) :
    Except ApiError Plan := do
  if positions = [] then throw (.conflict "market_has_no_active_positions")
  let totalStakeMinor ← sumFrom 0 (positions.map (·.amountMinor))
  let winningOutcomeId ←
    match kind, market.winningOutcomeId with
    | .payout, some winner => pure (some winner)
    | .payout, none => throw (.conflict "market_winning_outcome_missing")
    | .refund, _ => pure none
  let feeMinor ←
    match kind with
    | .payout => orOverflow (checkedI64 ((totalStakeMinor * market.feeBps).tdiv 10000))
    | .refund => pure 0
  let distributableMinor ← orOverflow (checkedI64 (totalStakeMinor - feeMinor))
  let rows ←
    match winningOutcomeId with
    | some winner => payoutRows positions winner distributableMinor
    | none => pure (refundRows positions)
  let rows := rows.insertionSort fun r r' => r.position.positionId.toNat ≤ r'.position.positionId.toNat
  let totalPlannedMinor ← sumFrom 0 (rows.map (·.payoutMinor))
  if totalPlannedMinor ≠ distributableMinor then
    throw (.conflict "market_settlement_conservation_failed")
  return { winningOutcomeId, totalStakeMinor, feeMinor, distributableMinor, totalPlannedMinor, rows }

/-! ### The settlement plan of a market -/

/-- `require_organization_manager_tx`. -/
def requireOrganizationManager (organizationId userId : Uuid) : Handler PUnit := do
  let allowed ← Tx.select .other fun db =>
    db.directory.siteAdministrator userId || db.directory.member organizationId userId [.owner, .admin]
  Tx.require allowed (.error .forbidden)

def Market.settlementContext (m : Market) : SettlementContext :=
  ⟨m.organizationId, m.status, m.feeBps, m.winningOutcomeId⟩

/-- The market, `FOR UPDATE`. -/
def settlementContextForUpdate (marketId : Uuid) : Handler SettlementContext := do
  let row ← Tx.selectFor .other
    (fun db => (marketTable.find db marketId).toList.map fun m => ⟨.market m.id, .update⟩)
    fun db => (marketTable.find db marketId).map Market.settlementContext
  Tx.orElse row (.error .notFound)

def Position.toActive (p : Position) : ActivePosition :=
  ⟨p.id, p.outcomeId, p.amountMinor, p.stellarAccountId⟩

/-- The active positions of a market: `ORDER BY created_at, id`. -/
def activePositions (marketId : Uuid) (db : Database) : List ActivePosition :=
  ((db.positions.filter fun p => p.marketId = marketId && p.status = .active).insertionSort
    fun p p' => p.createdAt < p'.createdAt ∨
      (p.createdAt = p'.createdAt ∧ p.id.toNat ≤ p'.id.toNat)).map Position.toActive

def activePositionsForUpdate (marketId : Uuid) : Handler (List ActivePosition) :=
  Tx.selectFor .other
    (fun db => (activePositions marketId db).map fun p => ⟨.position p.positionId, .update⟩)
    (activePositions marketId)

/-- The unique keys of `prediction_market_settlement_runs`. -/
def runViolation (r : SettlementRun) (db : Database) : Option SqlError :=
  if db.runs.any fun s => s.id = r.id || (s.marketId = r.marketId && s.kind = r.kind &&
      s.idempotencyKey = r.idempotencyKey) then
    some .uniqueViolation
  else none

def insertRun (r : SettlementRun) : Handler PUnit :=
  Tx.insertRow .other runTable
    [⟨.run r.id, .update⟩, ⟨.runKey r.marketId r.kind r.idempotencyKey, .update⟩,
      ⟨.market r.marketId, .keyShare⟩]
    (fun db => raise mapDatabaseError (runViolation r db)) r

/-- The keys and checks of `prediction_market_settlement_items`. -/
def itemViolation (i : SettlementItem) (db : Database) : Option SqlError :=
  if ¬ (0 < i.principalMinor ∧ 0 ≤ i.payoutMinor) then some .checkViolation
  else if db.items.any fun j => j.id = i.id ||
      (j.settlementRunId = i.settlementRunId && j.positionId = i.positionId) then
    some .uniqueViolation
  else none

def insertItem (i : SettlementItem) : Handler PUnit :=
  Tx.insertRow .other itemTable
    [⟨.item i.id, .update⟩, ⟨.itemOf i.settlementRunId i.positionId, .update⟩,
      ⟨.run i.settlementRunId, .keyShare⟩, ⟨.position i.positionId, .keyShare⟩]
    (fun db => raise mapDatabaseError (itemViolation i db)) i

/-- The item that a planned payout becomes. -/
def PlannedPayout.item (runId itemId : Uuid) (r : PlannedPayout) : SettlementItem where
  id := itemId
  settlementRunId := runId
  positionId := r.position.positionId
  recipientStellarAccountId := r.position.stellarAccountId
  principalMinor := r.position.amountMinor
  payoutMinor := r.payoutMinor
  status := .planned
  submittedTxHash := none
  acceptedEvidenceId := none
  confirmedAt := none

/-- The items of the rows, numbered from `index`. -/
def planItems (runId : Uuid) (idOf : Nat → Uuid) (index : Nat) : List PlannedPayout → List SettlementItem
  | [] => []
  | r :: rest => r.item runId (idOf index) :: planItems runId idOf (index + 1) rest

def insertItems : List SettlementItem → Handler PUnit
  | [] => pure ⟨⟩
  | i :: rest => do
      insertItem i
      insertItems rest

/-- The ids a request draws. -/
structure PlanIds where
  run : Uuid
  item : Nat → Uuid
  event : Uuid

/-- What is written for a new plan. -/
def writePlan (ext : External) (actorUserId marketId : Uuid) (market : SettlementContext)
    (kind : RunKind) (idempotencyKey reason : String) (plan : Plan) (began : Int) (ids : PlanIds) :
    Handler Response := do
  insertRun
    { id := ids.run, organizationId := market.organizationId, marketId, kind, status := .planned
      winningOutcomeId := plan.winningOutcomeId, idempotencyKey
      totalStakeMinor := plan.totalStakeMinor, feeMinor := plan.feeMinor
      distributableMinor := plan.distributableMinor, totalPlannedMinor := plan.totalPlannedMinor
      requestedByUserId := actorUserId, createdAt := began }
  insertItems (planItems ids.run ids.item 0 plan.rows)
  let _ ← Tx.update .other marketTable (fun m => [⟨.market m.id, .noKeyUpdate⟩]) (·.id = marketId)
    ({ · with status := .settling }) fun _ _ => none
  insertGovernance ext.governed mapDatabaseError
    { id := ids.event, organizationId := market.organizationId, marketId, actorUserId
      action := "settlement.plan", previousStatus := some market.status
      newStatus := some .settling, reason }
  Tx.commit
  return ⟨.created, ids.run⟩

/-- The plan of a market that is ready for it. -/
def planMarket (ext : External) (actorUserId marketId : Uuid) (market : SettlementContext)
    (kind : RunKind) (idempotencyKey reason : String) (began : Int) (ids : PlanIds) :
    Handler Response := do
  let sameKey (db : Database) := db.runs.find? fun r =>
    r.marketId = marketId && r.kind = kind && r.idempotencyKey = idempotencyKey
  let existing ← Tx.selectFor .other
    (fun db => (sameKey db).toList.map fun r => ⟨.run r.id, .update⟩) sameKey
  match existing with
  | some existing =>
      Tx.commit
      return ⟨.ok, existing.id⟩
  | none =>
      let positions ← activePositionsForUpdate marketId
      let plan ← valid (planSettlement kind market positions)
      writePlan ext actorUserId marketId market kind idempotencyKey reason plan began ids

/-- The latest run of a market under a key, of any kind. -/
def latestRun (marketId : Uuid) (idempotencyKey : String) (db : Database) : Option SettlementRun :=
  ((db.runs.filter fun r => r.marketId = marketId && r.idempotencyKey = idempotencyKey).insertionSort
    fun r r' => r'.createdAt ≤ r.createdAt).head?

structure CreateSettlementPlanRequest where
  idempotencyKey : String
  reason : String
  deriving DecidableEq, Repr

def createSettlementPlan (ext : External) (actorUserId marketId : Uuid)
    (body : CreateSettlementPlanRequest) (ids : PlanIds) : Handler Response := do
  let idempotencyKey ← valid
    (requiredText body.idempotencyKey 200 "invalid_market_settlement_idempotency_key")
  let reason ← valid (requiredText body.reason 1000 "invalid_market_settlement_reason")
  let began ← Tx.select .other (·.directory.clock)
  let market ← settlementContextForUpdate marketId
  requireOrganizationManager market.organizationId actorUserId
  match market.status with
  | .resolved => planMarket ext actorUserId marketId market .payout idempotencyKey reason began ids
  | .cancelled => planMarket ext actorUserId marketId market .refund idempotencyKey reason began ids
  | .settling | .settled =>
      let existing ← Tx.select .other (latestRun marketId idempotencyKey)
      let existing ← Tx.orElse existing (.error (.conflict "market_settlement_already_started"))
      Tx.commit
      return ⟨.ok, existing.id⟩
  | _ => Tx.exit (.error (.conflict "market_not_resolved_or_cancelled"))

end CrownFi.Markets.Positions
