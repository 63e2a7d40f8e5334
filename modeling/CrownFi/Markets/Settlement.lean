import CrownFi.Markets.Positions

/-!
# CrownFi.Markets.Settlement

Settlement items and their evidence (`market_settlement.rs`). The evidence of the last
item confirms the run, closes whatever positions of the market are active then, and
settles the market if it still is settling.
-/

namespace CrownFi.Markets.Settlement

open Lib CrownFi.Api

/-- `map_database_error`; a number out of range is no error it knows. -/
def mapDatabaseError : SqlError → ApiError
  | .uniqueViolation => .conflict "market_settlement_operation_already_exists"
  | .foreignKeyViolation => .invalidRequest "market_settlement_resource_missing"
  | .checkViolation => .invalidRequest "market_settlement_constraint_failed"
  | .outOfRange => .database

/-! ### The rows of an item -/

structure SettlementItemContext where
  itemId : Uuid
  settlementRunId : Uuid
  organizationId : Uuid
  marketId : Uuid
  runKind : RunKind
  runStatus : RunStatus
  requestedByUserId : Uuid
  recipientStellarAccountId : Uuid
  recipientAddress : String
  payoutMinor : Int
  itemStatus : ItemStatus
  submittedTxHash : Option String
  acceptedEvidenceId : Option Uuid
  deriving DecidableEq, Repr

/-- The item joined with its run and its recipient. -/
def settlementItemContext (itemId : Uuid) (db : Database) : Option SettlementItemContext := do
  let si ← itemTable.find db itemId
  let sr ← runTable.find db si.settlementRunId
  let sa ← db.directory.stellarAccounts.find? (·.id = si.recipientStellarAccountId)
  return { itemId := si.id, settlementRunId := si.settlementRunId
           organizationId := sr.organizationId, marketId := sr.marketId, runKind := sr.kind
           runStatus := sr.status, requestedByUserId := sr.requestedByUserId
           recipientStellarAccountId := si.recipientStellarAccountId
           recipientAddress := sa.address, payoutMinor := si.payoutMinor, itemStatus := si.status
           submittedTxHash := si.submittedTxHash, acceptedEvidenceId := si.acceptedEvidenceId }

/-- `load_context_tx`: `FOR UPDATE OF si, sr`. -/
def loadContextTx (itemId : Uuid) : Handler SettlementItemContext := do
  let row ← Tx.selectFor .other
    (fun db => (settlementItemContext itemId db).toList.flatMap fun c =>
      [⟨.item c.itemId, .update⟩, ⟨.run c.settlementRunId, .update⟩])
    (settlementItemContext itemId)
  Tx.orElse row (.error .notFound)

/-- The latest decision on the action, expired or not, allows it at `now`. -/
def policyAllows (marketId : Uuid) (action : PolicyAction) (now : Int) (db : Database) : Bool :=
  ((db.decisions.filter fun d => d.marketId = marketId && d.action = action &&
      d.subjectUserId = none).insertionSort fun d d' => d'.createdAt ≤ d.createdAt).head?.any
    fun d => d.decision = .allow && d.expiresAt.all (now < ·)

/-- `require_settlement_policy_tx`. -/
def requireSettlementPolicy (context : SettlementItemContext) (began : Int) : Handler PUnit := do
  let action : PolicyAction := match context.runKind with
    | .refund => .refund
    | .payout => .settle
  let allowed ← Tx.select .other (policyAllows context.marketId action began)
  Tx.require allowed (.error .forbidden)

/-! ### Submissions -/

/-- The item's transaction hash becomes `hash`; no other item may have it. -/
def submitItem (itemId : Uuid) (hash : String) : Handler PUnit := do
  let _ ← Tx.update .other itemTable
    (fun i => [⟨.item i.id, .noKeyUpdate⟩, ⟨.itemTransaction hash, .update⟩])
    (fun i => i.id = itemId && i.status = .planned)
    ({ · with status := .submitted, submittedTxHash := some hash })
    fun db i => raise mapDatabaseError
      (if db.items.any fun j => j.id ≠ i.id && j.submittedTxHash = some hash then
        some .uniqueViolation else none)

/-- An update of a run's row. -/
def updateRun (runId : Uuid) (admits : SettlementRun → Bool) (status : RunStatus) : Handler PUnit := do
  let _ ← Tx.update .other runTable (fun r => [⟨.run r.id, .noKeyUpdate⟩])
    (fun r => r.id = runId && admits r) ({ · with status }) fun _ _ => none

def recordSubmission (itemId : Uuid) (transactionHash : String) : Handler Response := do
  let transactionHash ← valid
    (hexString transactionHash 64 "invalid_market_settlement_transaction_hash")
  let began ← Tx.select .other (·.directory.clock)
  let context ← loadContextTx itemId
  requireSettlementPolicy context began
  Tx.require (context.acceptedEvidenceId.isNone && context.itemStatus ≠ .confirmed)
    (.error (.conflict "market_settlement_item_already_confirmed"))
  if context.itemStatus = .submitted then
    Tx.require (context.submittedTxHash = some transactionHash)
      (.error (.conflict "market_settlement_submission_conflict"))
    Tx.commit
    return ⟨.ok, itemId⟩
  else
    Tx.require (context.itemStatus = .planned && (context.runStatus = .planned ||
        context.runStatus = .submitting || context.runStatus = .submitted))
      (.error (.conflict "market_settlement_item_not_submittable"))
    submitItem itemId transactionHash
    updateRun context.settlementRunId (·.status = .planned) .submitting
    Tx.commit
    return ⟨.ok, itemId⟩

/-! ### Evidence -/

structure SettlementEvidenceRequest where
  transactionHash : String
  ledgerSequence : Int
  operationIndex : Int
  eventReference : String
  recipientAddress : String
  amountMinor : Int
  evidence : Json

/-- The evidence, validated. -/
structure ObservedPayout where
  transactionHash : String
  ledgerSequence : Int
  operationIndex : Int
  eventReference : String
  recipientAddress : String
  amountMinor : Int
  deriving DecidableEq, Repr

def SettlementEvidenceRequest.validate (body : SettlementEvidenceRequest) :
    Except ApiError ObservedPayout := do
  let transactionHash ← hexString body.transactionHash 64 "invalid_market_settlement_transaction_hash"
  let eventReference ← requiredText body.eventReference 240 "invalid_market_settlement_event_reference"
  let recipientAddress ← Positions.validateStellarAddress body.recipientAddress
    "invalid_market_settlement_recipient"
  if body.ledgerSequence ≤ 0 ∨ body.operationIndex < 0 ∨ body.amountMinor < 0 ∨
      body.evidence.isObject = false then
    throw (.invalidRequest "invalid_market_settlement_evidence")
  return { transactionHash, ledgerSequence := body.ledgerSequence
           operationIndex := body.operationIndex, eventReference, recipientAddress
           amountMinor := body.amountMinor }

/-- `load_evidence_tx`. -/
def loadEvidenceTx (itemId : Uuid) : Handler (Option SettlementEvidence) :=
  Tx.selectFor .other
    (fun db => (settlementEvidenceTable.find db itemId).toList.map fun e =>
      ⟨.settlementEvidenceOf e.settlementItemId, .update⟩)
    (settlementEvidenceTable.find · itemId)

/-- The unique keys of `prediction_market_settlement_evidence`. -/
def settlementEvidenceViolation (e : SettlementEvidence) (db : Database) : Option SqlError :=
  if db.settlementEvidence.any fun f => f.id = e.id || f.settlementItemId = e.settlementItemId ||
      f.eventReference = e.eventReference ||
      (f.transactionHash = e.transactionHash && f.operationIndex = e.operationIndex) then
    some .uniqueViolation
  else none

def insertSettlementEvidence (e : SettlementEvidence) : Handler PUnit :=
  Tx.insertRow .other settlementEvidenceTable
    [⟨.settlementEvidence e.id, .update⟩, ⟨.settlementEvidenceOf e.settlementItemId, .update⟩,
      ⟨.eventReference e.eventReference, .update⟩,
      ⟨.operation e.transactionHash e.operationIndex, .update⟩,
      ⟨.run e.settlementRunId, .keyShare⟩, ⟨.item e.settlementItemId, .keyShare⟩]
    (fun db => raise mapDatabaseError (settlementEvidenceViolation e db)) e

def confirmItem (itemId evidenceId : Uuid) (acceptedAt : Int) : Handler PUnit := do
  let _ ← Tx.update .other itemTable (fun i => [⟨.item i.id, .noKeyUpdate⟩]) (·.id = itemId)
    ({ · with status := .confirmed, acceptedEvidenceId := some evidenceId
              confirmedAt := some acceptedAt }) fun _ _ => none

/-- The items of a run that are not confirmed. -/
def remainingItems (runId : Uuid) (db : Database) : Nat :=
  (db.items.filter fun i => i.settlementRunId = runId && i.status ≠ .confirmed).length

/-- The status of a position that a run of this kind closes. -/
def RunKind.closes : RunKind → PositionStatus
  | .refund => .refunded
  | .payout => .settled

def closePositions (marketId : Uuid) (status : PositionStatus) : Handler PUnit := do
  let _ ← Tx.update (.closePositions marketId) positionTable
    (fun p => [⟨.position p.id, .noKeyUpdate⟩])
    (fun p => p.marketId = marketId && p.status = .active) ({ · with status }) fun _ _ => none

def settleMarket (marketId : Uuid) : Handler PUnit := do
  let _ ← Tx.update (.finalize marketId) marketTable (fun m => [⟨.market m.id, .noKeyUpdate⟩])
    (fun m => m.id = marketId && m.status = .settling) ({ · with status := .settled })
    fun _ _ => none

def RunKind.confirmedAction : RunKind → String
  | .refund => "refund.confirmed"
  | .payout => "settlement.confirmed"

def RunKind.confirmedReason : RunKind → String
  | .refund => "All cancellation refunds have accepted chain evidence."
  | .payout => "All resolution payouts have accepted chain evidence."

def finalizeIfComplete (ext : External) (context : SettlementItemContext) (eventId : Uuid) :
    Handler PUnit := do
  let remaining ← Tx.select .other (remainingItems context.settlementRunId)
  if remaining ≠ 0 then
    pure ⟨⟩
  else
    updateRun context.settlementRunId (fun _ => true) .confirmed
    closePositions context.marketId (RunKind.closes context.runKind)
    settleMarket context.marketId
    insertGovernance ext.governed mapDatabaseError
      { id := eventId, organizationId := context.organizationId, marketId := context.marketId
        actorUserId := context.requestedByUserId, action := RunKind.confirmedAction context.runKind
        previousStatus := some .settling, newStatus := some .settled
        reason := RunKind.confirmedReason context.runKind }

/-- The ids a request draws. -/
structure SettlementIds where
  evidence : Uuid
  event : Uuid
  deriving DecidableEq, Repr

/-- What is written for new evidence. -/
def acceptPayout (ext : External) (context : SettlementItemContext) (payout : ObservedPayout)
    (acceptedAt : Int) (itemId : Uuid) (ids : SettlementIds) : Handler Response := do
  insertSettlementEvidence
    { id := ids.evidence, organizationId := context.organizationId
      settlementRunId := context.settlementRunId, settlementItemId := itemId
      recipientStellarAccountId := context.recipientStellarAccountId
      transactionHash := payout.transactionHash, ledgerSequence := payout.ledgerSequence
      operationIndex := payout.operationIndex, eventReference := payout.eventReference
      amountMinor := payout.amountMinor, acceptedAt }
  confirmItem itemId ids.evidence acceptedAt
  finalizeIfComplete ext context ids.event
  let evidence ← loadEvidenceTx itemId
  let evidence ← Tx.orElse evidence (.error .notFound)
  Tx.commit
  return ⟨.created, evidence.id⟩

def acceptSettlementEvidence (ext : External) (itemId : Uuid) (body : SettlementEvidenceRequest)
    (ids : SettlementIds) : Handler Response := do
  let payout ← valid body.validate
  let began ← Tx.select .other (·.directory.clock)
  let context ← loadContextTx itemId
  requireSettlementPolicy context began
  let existing ← loadEvidenceTx itemId
  match existing with
  | some existing =>
      Tx.require (existing.transactionHash = payout.transactionHash &&
          existing.amountMinor = payout.amountMinor && existing.eventReference = payout.eventReference)
        (.error (.conflict "market_settlement_evidence_conflict"))
      Tx.commit
      return ⟨.ok, existing.id⟩
  | none =>
      Tx.require (context.itemStatus = .submitted &&
          context.submittedTxHash = some payout.transactionHash)
        (.error (.conflict "market_settlement_item_not_submitted"))
      Tx.require (context.recipientAddress = payout.recipientAddress &&
          context.payoutMinor = payout.amountMinor)
        (.error (.conflict "market_settlement_evidence_mismatch"))
      let acceptedAt ← Tx.select .other (·.directory.clock)
      acceptPayout ext context payout acceptedAt itemId ids

end CrownFi.Markets.Settlement
