import CrownFi.Commerce.Reconciliation
import CrownFi.Lib.Fallible
import CrownFi.Payouts.Schema

/-!
# CrownFi.Payouts.Handlers

Payout rules, batches, submissions, evidence and failures (`payouts.rs`). A batch pays out one
order in three transfers by one chain transaction. Evidence is stored whatever it says; only
evidence that agrees with its transfer confirms it.
-/

namespace CrownFi.Payouts

open Lib CrownFi.Api CrownFi.Stellar
open CrownFi.Commerce (Asset Response Result)
open CrownFi.Commerce.Reconciliation (parseI64 rawHash)

/-- What the handlers take from other packages: the hash function, and how a JSON value is
written as bytes. -/
structure External where
  sha256 : Sha256
  toVec : Json → ByteArray

/-! ### Who asks -/

/-- `require_editor` and `require_editor_tx`. -/
def requireEditor (organizationId userId : Uuid) : Handler PUnit := do
  let allowed ← Tx.select .other (·.shop.directory.memberEditor organizationId userId)
  Tx.require allowed (.error .forbidden)

/-- `ensure_user`: the worker acts for a user that exists. -/
def ensureUser (userId : Uuid) : Handler PUnit := do
  let found ← Tx.select .other fun db => db.shop.directory.users.any (·.id = userId)
  Tx.require found (.error .unauthorized)

/-! ### The split -/

/-- A checked operation on `i128`. -/
def checkedI128 (n : Int) : Option Int := if -2 ^ 127 ≤ n ∧ n < 2 ^ 127 then some n else none

theorem of_checkedI128 {n m : Int} (h : checkedI128 n = some m) : m = n := by
  unfold checkedI128 at h
  split at h
  · exact (Option.some.inj h).symm
  · cases h

def validateBps (candidate organizer platform : Int) : Except ApiError PUnit :=
  if candidate < 0 ∨ organizer < 0 ∨ platform < 0 ∨ 10000 < candidate ∨ 10000 < organizer ∨
      10000 < platform ∨ candidate + organizer + platform ≠ 10000 then
    throw (.invalidRequest "invalid_payout_basis_points")
  else return ⟨⟩

structure Split where
  candidate : Int
  organizer : Int
  platform : Int
  deriving DecidableEq, Repr

def amountOverflow : ApiError := .invalidRequest "payout_amount_overflow"

/-- The platform takes what the floors of the other shares leave. -/
def calculateSplit (total candidateBps organizerBps platformBps : Int) : Except ApiError Split := do
  if total ≤ 0 then throw (.invalidRequest "invalid_payout_total")
  validateBps candidateBps organizerBps platformBps
  let candidate ← okOr (checkedI128 (total * candidateBps)) amountOverflow
  let candidate := candidate.tdiv 10000
  let organizer ← okOr (checkedI128 (total * organizerBps)) amountOverflow
  let organizer := organizer.tdiv 10000
  let platform ← okOr ((checkedI128 (total - candidate)).bind fun value =>
    checkedI128 (value - organizer)) amountOverflow
  let candidate ← okOr (checkedI64 candidate) amountOverflow
  let organizer ← okOr (checkedI64 organizer) amountOverflow
  let platform ← okOr (checkedI64 platform) amountOverflow
  return { candidate, organizer, platform }

/-! ### Rules -/

structure CreatePayoutRuleRequest where
  sourceAccount : String
  candidateAccount : String
  organizerAccount : String
  platformAccount : String
  candidateBps : Int
  organizerBps : Int
  platformBps : Int
  status : Option String
  deriving DecidableEq, Repr

def payoutRuleStatus (value : String) : Except ApiError RuleStatus :=
  let value := String.ofList (trimLower value)
  if value = "draft" then .ok .draft
  else if value = "active" then .ok .active
  else if value = "archived" then .ok .archived
  else .error (.invalidRequest "invalid_payout_rule_status")

/-- The rule that a request describes. -/
def CreatePayoutRuleRequest.validate (body : CreatePayoutRuleRequest)
    (ruleId organizationId productId actorUserId : Uuid) : Except ApiError PayoutRule := do
  let sourceAccount ← account body.sourceAccount
  let candidateAccount ← account body.candidateAccount
  let organizerAccount ← account body.organizerAccount
  let platformAccount ← account body.platformAccount
  if sourceAccount = candidateAccount ∨ sourceAccount = organizerAccount ∨
      sourceAccount = platformAccount ∨ candidateAccount = organizerAccount ∨
      candidateAccount = platformAccount ∨ organizerAccount = platformAccount then
    throw (.invalidRequest "payout_accounts_must_be_distinct")
  validateBps body.candidateBps body.organizerBps body.platformBps
  let status ← payoutRuleStatus (body.status.getD "active")
  return { id := ruleId, organizationId, productId, candidateAccount, organizerAccount
           platformAccount, candidateBps := body.candidateBps, organizerBps := body.organizerBps
           platformBps := body.platformBps, status, createdByUserId := actorUserId, sourceAccount }

/-- The unique keys of `payout_rules`: one active rule for a product. -/
def insertRule (r : PayoutRule) : Handler PUnit :=
  Tx.insertRow .other ruleTable
    (⟨.rule r.id, .update⟩ ::
      if r.status = .active then [⟨.activeRuleOf r.productId, .update⟩] else [])
    (fun db => unique (db.rules.any fun s => s.id = r.id ||
      (s.productId = r.productId && s.status = .active && r.status = .active))) r

def createPayoutRule (actorUserId organizationId productId : Uuid) (body : CreatePayoutRuleRequest)
    (ruleId : Uuid) : Handler Response := do
  requireEditor organizationId actorUserId
  let productOrg ← Tx.select .other fun db =>
    (db.shop.catalogue.products.find? (·.id = productId)).map (·.organizationId)
  let productOrg ← Tx.orElse productOrg (.error .notFound)
  Tx.require (productOrg = organizationId) (.error .notFound)
  let rule ← valid (body.validate ruleId organizationId productId actorUserId)
  requireEditor organizationId actorUserId
  insertRule rule
  Tx.commit
  return ⟨.created, ruleId⟩

/-! ### Preparing a batch -/

structure CreatePayoutBatchRequest where
  payoutRuleId : Uuid
  idempotencyKey : String
  deriving DecidableEq, Repr

structure OrderPayoutSource where
  organizationId : Uuid
  status : Commerce.OrderStatus
  environment : Commerce.Environment
  amountMinor : Int
  asset : Asset
  productId : Uuid
  quantity : Int
  deriving DecidableEq, Repr

/-- The order joined with each of its items. -/
def orderPayoutSources (orderId : Uuid) (db : Database) : List OrderPayoutSource :=
  (Commerce.orderTable.find db.shop orderId).toList.flatMap fun o =>
    (db.shop.orderItems.filter (·.orderId = orderId)).map fun oi =>
      { organizationId := o.organizationId, status := o.status, environment := o.environment
        amountMinor := o.amountMinor, asset := o.asset, productId := oi.productId
        quantity := oi.quantity }

/-- `FOR UPDATE OF o,oi`. -/
def orderPayoutLocks (orderId : Uuid) (db : Database) : List (Lock Row) :=
  (Commerce.orderTable.find db.shop orderId).toList.flatMap fun o =>
    (db.shop.orderItems.filter (·.orderId = orderId)).flatMap fun oi =>
      [⟨.order o.id, .update⟩, ⟨.orderItem oi.id, .update⟩]

/-- An accepted reconciliation of one of the order's intents. -/
def paymentConfirmed (orderId : Uuid) (db : Database) : Bool :=
  db.shop.intents.any fun ti => ti.orderId = orderId &&
    db.shop.results.any fun sr => sr.transactionIntentId = ti.id && sr.status = .accepted

def payoutRequestText (order : OrderPayoutSource) (orderId ruleId : Uuid) (split : Split) : String :=
  "organization=" ++ order.organizationId.text ++ ";order=" ++ orderId.text ++ ";rule=" ++
    ruleId.text ++ ";amount=" ++ toString order.amountMinor ++ ";asset=" ++ order.asset.code ++ ":" ++
    toString order.asset.scale ++ ":" ++ order.asset.issuer.getD "" ++ ";candidate=" ++
    toString split.candidate ++ ";organizer=" ++ toString split.organizer ++ ";platform=" ++
    toString split.platform

/-- The unique keys of `payout_batches`: one batch for an order. -/
def insertBatch (b : PayoutBatch) : Handler PUnit :=
  Tx.insertRow .other batchTable
    [⟨.batch b.id, .update⟩, ⟨.batchOf b.orderId, .update⟩,
      ⟨.batchKey b.organizationId b.idempotencyKey, .update⟩, ⟨.order b.orderId, .keyShare⟩,
      ⟨.rule b.payoutRuleId, .keyShare⟩]
    (fun db => unique (db.batches.any fun c => c.id = b.id || c.orderId = b.orderId ||
      (c.organizationId = b.organizationId && c.idempotencyKey = b.idempotencyKey))) b

/-- The unique keys of `payout_transfers`: one transfer for a role. -/
def insertTransfer (t : PayoutTransfer) : Handler PUnit :=
  Tx.insertRow .other transferTable
    [⟨.transfer t.id, .update⟩, ⟨.transferOf t.payoutBatchId t.role, .update⟩,
      ⟨.batch t.payoutBatchId, .keyShare⟩]
    (fun db => unique (db.transfers.any fun s => s.id = t.id ||
      (s.payoutBatchId = t.payoutBatchId && s.role = t.role))) t

def pendingTransfer (id payoutBatchId : Uuid) (role : PayoutRole) (recipientAccount : String)
    (expectedAmountMinor : Int) : PayoutTransfer where
  id := id
  payoutBatchId := payoutBatchId
  role := role
  recipientAccount := recipientAccount
  expectedAmountMinor := expectedAmountMinor
  status := .pending
  operationIndex := none
  transactionHash := none
  actualAmountMinor := none
  ledgerSequence := none
  failureCode := none

/-- The ids a request draws. -/
structure BatchIds where
  batch : Uuid
  candidate : Uuid
  organizer : Uuid
  platform : Uuid
  deriving DecidableEq, Repr

/-- The transfers of a new batch. -/
def BatchIds.transfers (ids : BatchIds) (rule : PayoutRule) (split : Split) : List PayoutTransfer :=
  [pendingTransfer ids.candidate ids.batch .candidate rule.candidateAccount split.candidate,
    pendingTransfer ids.organizer ids.batch .organizer rule.organizerAccount split.organizer,
    pendingTransfer ids.platform ids.batch .platform rule.platformAccount split.platform]

/-- `load_batch`, as far as the answer depends on it. -/
def loadBatch (batchId : Uuid) : Handler PUnit := do
  let found ← Tx.select .other fun db => (batchTable.find db batchId).isSome
  Tx.require found (.error .notFound)

def createPayoutBatch (sha256 : Sha256) (actorUserId orderId : Uuid) (body : CreatePayoutBatchRequest)
    (ids : BatchIds) : Handler Response := do
  let idempotencyKey ← valid (requiredChars body.idempotencyKey 200 "invalid_payout_idempotency_key")
  let rows ← Tx.selectFor .other (orderPayoutLocks orderId) (orderPayoutSources orderId)
  let order ← Tx.orElse rows.head? (.error .notFound)
  Tx.require (rows.length = 1 && order.quantity = 1) (.error (.conflict "one_payout_product_required"))
  requireEditor order.organizationId actorUserId
  Tx.require (order.status = .fulfilled) (.error (.conflict "fulfilled_order_required_for_payout"))
  Tx.require (order.environment = .testnet) (.error (.invalidRequest "payout_requires_testnet"))
  let confirmed ← Tx.select .other (paymentConfirmed orderId)
  Tx.require confirmed (.error (.conflict "indexed_payment_confirmation_required"))
  let rule ← Tx.selectFor .other
    (fun db => (ruleTable.find db body.payoutRuleId).toList.map fun r => ⟨.rule r.id, .update⟩)
    (ruleTable.find · body.payoutRuleId)
  let rule ← Tx.orElse rule (.error .notFound)
  Tx.require (rule.organizationId = order.organizationId && rule.productId = order.productId)
    (.error (.invalidRequest "payout_rule_scope_mismatch"))
  Tx.require (rule.status = .active) (.error (.conflict "active_payout_rule_required"))
  let _ ← valid (validateBps rule.candidateBps rule.organizerBps rule.platformBps)
  let split ← valid (calculateSplit order.amountMinor rule.candidateBps rule.organizerBps
    rule.platformBps)
  Tx.require (0 < split.candidate && 0 < split.organizer && 0 < split.platform)
    (.error (.conflict "zero_value_payout_share_not_supported"))
  let requestSha256 := hashText sha256 (payoutRequestText order orderId rule.id split)
  let sameKey (db : Database) := db.batches.find? fun b =>
    b.organizationId = order.organizationId && b.idempotencyKey = idempotencyKey
  let existing ← Tx.selectFor .other
    (fun db => (sameKey db).toList.map fun b => ⟨.batch b.id, .update⟩) sameKey
  match existing with
  | some existing =>
      Tx.require (existing.requestSha256 = requestSha256) (.error (.conflict "idempotency_key_reused"))
      Tx.commit
      loadBatch existing.id
      return ⟨.ok, existing.id⟩
  | none =>
      insertBatch
        { id := ids.batch, organizationId := order.organizationId, orderId, payoutRuleId := rule.id
          status := .prepared, amountMinor := order.amountMinor, asset := order.asset
          idempotencyKey, requestSha256, confirmedTransferCount := 0
          submittedTransactionHash := none, failureCode := none, createdByUserId := actorUserId }
      insertTransfer (pendingTransfer ids.candidate ids.batch .candidate rule.candidateAccount
        split.candidate)
      insertTransfer (pendingTransfer ids.organizer ids.batch .organizer rule.organizerAccount
        split.organizer)
      insertTransfer (pendingTransfer ids.platform ids.batch .platform rule.platformAccount
        split.platform)
      Tx.commit
      loadBatch ids.batch
      return ⟨.created, ids.batch⟩

/-! ### Submissions -/

/-- `load_batch_for_update`. -/
def loadBatchForUpdate (site : Site) (batchId : Uuid) : Handler PayoutBatch := do
  let batch ← Tx.selectFor site
    (fun db => (batchTable.find db batchId).toList.map fun b => ⟨.batch b.id, .update⟩)
    (batchTable.find · batchId)
  Tx.orElse batch (.error .notFound)

def updateBatch (site : Site) (p : PayoutBatch → Bool) (change : PayoutBatch → PayoutBatch) :
    Handler Nat :=
  Tx.update site batchTable (fun b => [⟨.batch b.id, .noKeyUpdate⟩]) p change fun _ _ => none

def updateTransfers (p : PayoutTransfer → Bool) (change : PayoutTransfer → PayoutTransfer) :
    Handler Nat :=
  Tx.update .other transferTable (fun t => [⟨.transfer t.id, .noKeyUpdate⟩]) p change fun _ _ => none

structure PayoutSubmissionRequest where
  transactionHash : String
  submissionResponse : Json

/-- The checks of the request before its transaction: the hash that was submitted. -/
def PayoutSubmissionRequest.validate (body : PayoutSubmissionRequest) : Except ApiError String := do
  let txHash ← hexString body.transactionHash 64 "invalid_transaction_hash"
  if rawHash "hash" body.submissionResponse ≠ some txHash.toList then
    throw (.invalidRequest "submission_response_hash_mismatch")
  return txHash

/-- `'submitted' | 'partial' | 'confirmed'`. -/
def BatchStatus.wasSubmitted (s : BatchStatus) : Bool := s.inFlight || s = .confirmed

def PayoutBatch.submit (hash : String) (b : PayoutBatch) : PayoutBatch :=
  { b with status := .submitted, submittedTransactionHash := some hash, failureCode := none }

def PayoutTransfer.submit (hash : String) (t : PayoutTransfer) : PayoutTransfer :=
  { t with status := .submitted, transactionHash := some hash, failureCode := none }

def recordPayoutSubmission (actorUserId batchId : Uuid) (body : PayoutSubmissionRequest) :
    Handler Response := do
  ensureUser actorUserId
  let txHash ← valid body.validate
  let batch ← loadBatchForUpdate .other batchId
  if batch.status.wasSubmitted then
    Tx.require (batch.submittedTransactionHash = some txHash)
      (.error (.conflict "payout_batch_already_submitted"))
    Tx.commit
    loadBatch batchId
    return ⟨.ok, batchId⟩
  else
    Tx.require (batch.status = .prepared) (.error (.conflict "payout_batch_not_prepared"))
    let _ ← updateBatch .other (fun b => b.id = batchId && b.status = .prepared) (·.submit txHash)
    let _ ← updateTransfers (fun t => t.payoutBatchId = batchId && t.status = .pending)
      (·.submit txHash)
    Tx.commit
    loadBatch batchId
    return ⟨.ok, batchId⟩

/-! ### Evidence -/

structure TransferEvidenceRequest where
  role : String
  transactionHash : String
  operationIndex : Int
  sourceAccount : String
  recipientAccount : String
  amountMinor : Int
  assetCode : String
  assetScale : Int
  assetIssuer : Option String
  ledgerSequence : Int
  successful : Bool
  rawOperation : Json

/-- The evidence, validated. -/
structure Observed where
  role : PayoutRole
  txHash : String
  operationIndex : Int
  source : String
  recipient : String
  amountMinor : Int
  asset : Asset
  ledgerSequence : Int
  successful : Bool
  deriving DecidableEq, Repr

def payoutRole (value : String) : Except ApiError PayoutRole :=
  let value := String.ofList (trimLower value)
  if value = "candidate" then .ok .candidate
  else if value = "organizer" then .ok .organizer
  else if value = "platform" then .ok .platform
  else .error (.invalidRequest "invalid_payout_role")

/-- The checks of the request before its transaction. -/
def TransferEvidenceRequest.validate (body : TransferEvidenceRequest) : Except ApiError Observed := do
  if body.operationIndex < 0 ∨ body.amountMinor < 0 ∨ body.ledgerSequence ≤ 0 then
    throw (.invalidRequest "invalid_payout_evidence_numbers")
  if ¬ (0 ≤ body.assetScale ∧ body.assetScale ≤ 7) then
    throw (.invalidRequest "invalid_asset_scale")
  let role ← payoutRole body.role
  let txHash ← hexString body.transactionHash 64 "invalid_transaction_hash"
  let source ← account body.sourceAccount
  let recipient ← account body.recipientAccount
  let code ← validateAssetCode body.assetCode
  let issuer ← validateAssetIssuer (isStrKey accountVersion) code body.assetIssuer
  return { role, txHash, operationIndex := body.operationIndex, source, recipient
           amountMinor := body.amountMinor, asset := ⟨code, body.assetScale, issuer⟩
           ledgerSequence := body.ledgerSequence, successful := body.successful }

/-- `decimal_minor`, as the payouts have it. -/
def decimalMinor (value : String) (scale : Int) : Option Int := do
  let cs := value.toList
  if ¬ (0 ≤ scale ∧ scale ≤ 7) ∨ cs.head? = some '-' ∨ cs.head? = some '+' then
    none
  let whole := cs.takeWhile (· ≠ '.')
  let fraction := (cs.drop whole.length).drop 1
  if fraction.contains '.' || whole.isEmpty || !whole.all isDigit || !fraction.all isDigit ||
      scale < fraction.length then
    none
  let factor ← checkedI64 (10 ^ scale.toNat)
  let whole ← parseI64 whole
  let whole ← checkedI64 (whole * factor)
  let padded := fraction ++ List.replicate (scale.toNat - fraction.length) '0'
  let fraction ← if padded.isEmpty then some 0 else parseI64 padded
  checkedI64 (whole + fraction)

/-- The hash of the evidence, as `hash_json` takes it. -/
def evidenceHash (ext : External) (o : Observed) (rawOperation : Json) : String :=
  hashBytes ext.sha256 (ext.toVec (.object
    [("role", .string o.role.text), ("transaction_hash", .string o.txHash),
      ("operation_index", .int o.operationIndex), ("source_account", .string o.source),
      ("recipient_account", .string o.recipient), ("amount_minor", .int o.amountMinor),
      ("asset_code", .string o.asset.code), ("asset_scale", .int o.asset.scale),
      ("asset_issuer", Json.ofOption o.asset.issuer), ("ledger_sequence", .int o.ledgerSequence),
      ("successful", .bool o.successful), ("raw_operation", rawOperation)]))

def rawOperationFailure (o : Observed) (raw : Json) : Option String :=
  if raw.getStr "type" ≠ some "payment" then some "raw_operation_type_mismatch"
  else if rawHash "transaction_hash" raw ≠ some o.txHash.toList then
    some "raw_operation_transaction_hash_mismatch"
  else if (raw.get "operation_index").bind Json.asI64 ≠ some o.operationIndex ∨
      (raw.get "ledger_sequence").bind Json.asI64 ≠ some o.ledgerSequence then
    some "raw_operation_position_mismatch"
  else if raw.getStr "source_account" ≠ some o.source ∨ raw.getStr "to" ≠ some o.recipient then
    some "raw_operation_account_mismatch"
  else
    match raw.getStr "amount" with
    | none => some "raw_operation_amount_missing"
    | some amount =>
        if decimalMinor amount o.asset.scale ≠ some o.amountMinor then some "raw_operation_amount_mismatch"
        else if o.asset.code = "XLM" then
          if raw.getStr "asset_type" ≠ some "native" then some "raw_operation_asset_mismatch" else none
        else if raw.getStr "asset_code" ≠ some o.asset.code ∨
            raw.getStr "asset_issuer" ≠ o.asset.issuer then
          some "raw_operation_asset_mismatch"
        else none

/-- `reconcile_transfer`: the first disagreement between the evidence and the transfer. -/
def reconcileTransfer (batch : PayoutBatch) (rule : PayoutRule) (transfer : PayoutTransfer)
    (o : Observed) (rawOperation : Json) : Option String :=
  if batch.status.inFlight = false ∨ transfer.status ≠ .submitted then some "payout_not_submitted"
  else if batch.submittedTransactionHash ≠ some o.txHash then some "transaction_hash_mismatch"
  else if o.source ≠ rule.sourceAccount then some "source_account_mismatch"
  else if o.recipient ≠ transfer.recipientAccount then some "recipient_account_mismatch"
  else if o.amountMinor ≠ transfer.expectedAmountMinor then some "amount_mismatch"
  else if o.asset ≠ batch.asset then some "asset_mismatch"
  else if o.successful = false then some "payout_failed_on_chain"
  else rawOperationFailure o rawOperation

/-- The unique keys of `payout_transfer_evidence`: one accepted evidence for a transfer. -/
def insertEvidence (e : PayoutEvidence) : Handler PUnit :=
  Tx.insertRow .other evidenceTable
    ([⟨.evidence e.id, .update⟩, ⟨.operation e.transactionHash e.operationIndex, .update⟩,
        ⟨.transfer e.payoutTransferId, .keyShare⟩] ++
      if e.processingStatus = .accepted then [⟨.acceptedEvidenceOf e.payoutTransferId, .update⟩]
      else [])
    (fun db => unique (db.evidence.any fun f => f.id = e.id ||
      (f.transactionHash = e.transactionHash && f.operationIndex = e.operationIndex) ||
      (f.payoutTransferId = e.payoutTransferId && f.processingStatus = .accepted &&
        e.processingStatus = .accepted))) e

def PayoutTransfer.confirm (o : Observed) (t : PayoutTransfer) : PayoutTransfer :=
  { t with
    status := .confirmed, operationIndex := some o.operationIndex, transactionHash := some o.txHash
    actualAmountMinor := some o.amountMinor, ledgerSequence := some o.ledgerSequence
    failureCode := none }

/-- The status of a batch in flight, by the number of its confirmed transfers. -/
def statusOfCount : Nat → Option BatchStatus
  | 0 => some .submitted
  | 1 | 2 => some .partially
  | 3 => some .confirmed
  | _ => none

/-- `refresh_batch_status`. -/
def refreshBatchStatus (batchId : Uuid) : Handler PUnit := do
  let confirmed ← Tx.select .other fun db =>
    ((transfersOf db batchId).filter (·.status = .confirmed)).length
  let status ← Tx.orElse (statusOfCount confirmed) (.error .database)
  let _ ← updateBatch .other (fun b => b.id = batchId) fun b =>
    { b with status, confirmedTransferCount := confirmed, failureCode := none }

/-- The evidence as it is recorded. -/
def evidenceRow (ext : External) (o : Observed) (rawOperation : Json) (evidenceId transferId : Uuid)
    (failure : Option String) : PayoutEvidence where
  id := evidenceId
  payoutTransferId := transferId
  transactionHash := o.txHash
  operationIndex := o.operationIndex
  sourceAccount := o.source
  recipientAccount := o.recipient
  amountMinor := o.amountMinor
  asset := o.asset
  ledgerSequence := o.ledgerSequence
  successful := o.successful
  evidenceSha256 := evidenceHash ext o rawOperation
  processingStatus := if failure.isNone then .accepted else .rejected
  reconciliationError := failure

def recordTransferEvidence (ext : External) (actorUserId batchId : Uuid)
    (body : TransferEvidenceRequest) (evidenceId : Uuid) : Handler Response := do
  ensureUser actorUserId
  let observed ← valid body.validate
  let batch ← loadBatchForUpdate (.evidence batchId) batchId
  let rule ← Tx.select .other (ruleTable.find · batch.payoutRuleId)
  let rule ← Tx.orElse rule (.error .database)
  let ofRole (db : Database) := db.transfers.find? fun t =>
    t.payoutBatchId = batchId && t.role = observed.role
  let transfer ← Tx.selectFor .other
    (fun db => (ofRole db).toList.map fun t => ⟨.transfer t.id, .update⟩) ofRole
  let transfer ← Tx.orElse transfer (.error .notFound)
  let existing ← Tx.select .other (evidenceTable.find · (observed.txHash, observed.operationIndex))
  match existing with
  | some existing =>
      Tx.require (existing.payoutTransferId = transfer.id &&
          existing.evidenceSha256 = evidenceHash ext observed body.rawOperation)
        (.error (.conflict "payout_evidence_reused"))
      Tx.commit
      loadBatch batchId
      return ⟨if existing.processingStatus = .accepted then .ok else .conflict, batchId⟩
  | none =>
      Tx.require (transfer.status ≠ .confirmed) (.error (.conflict "payout_transfer_already_confirmed"))
      let failure := reconcileTransfer batch rule transfer observed body.rawOperation
      insertEvidence (evidenceRow ext observed body.rawOperation evidenceId transfer.id failure)
      match failure with
      | none =>
          let updated ← updateTransfers (fun t => t.id = transfer.id && t.status = .submitted)
            (·.confirm observed)
          Tx.require (updated = 1) (.error (.conflict "payout_transfer_state_changed"))
          refreshBatchStatus batchId
          Tx.commit
          loadBatch batchId
          return ⟨.created, batchId⟩
      | some _ =>
          Tx.commit
          loadBatch batchId
          return ⟨.conflict, batchId⟩

/-! ### Failures -/

def PayoutTransfer.fail (code : String) (t : PayoutTransfer) : PayoutTransfer :=
  { t with status := .failed, failureCode := some code }

def recordPayoutFailure (actorUserId batchId : Uuid) (failureCode : String) : Handler Response := do
  ensureUser actorUserId
  let failureCode ← valid (requiredChars failureCode 500 "invalid_payout_failure")
  let batch ← loadBatchForUpdate .other batchId
  Tx.require batch.status.inFlight (.error (.conflict "payout_batch_not_in_flight"))
  let next : BatchStatus := if 0 < batch.confirmedTransferCount then .partially else .failed
  let _ ← updateBatch (.failure batchId) (fun b => b.id = batchId) fun b =>
    { b with status := next, failureCode := some failureCode }
  let _ ← updateTransfers (fun t => t.payoutBatchId = batchId && t.status = .submitted)
    (·.fail failureCode)
  Tx.commit
  loadBatch batchId
  return ⟨.ok, batchId⟩

/-! ### Requests -/

/-- The shop goes on: whatever it does, its tables are other tables. -/
def elsewhere (shop : Commerce.Database) : Handler Response := do
  Tx.write .other (fun _ => []) fun db => { db with shop }
  Tx.commit
  return ⟨.ok, 0⟩

/-- The requests on payouts, and what happens besides them. -/
inductive Requests (ext : External) : Prog Database Row Site Result → Prop
  | createPayoutRule (actorUserId organizationId productId : Uuid) (body : CreatePayoutRuleRequest)
      (ruleId : Uuid) :
      Requests ext (createPayoutRule actorUserId organizationId productId body ruleId).request
  | createPayoutBatch (actorUserId orderId : Uuid) (body : CreatePayoutBatchRequest) (ids : BatchIds) :
      Requests ext (createPayoutBatch ext.sha256 actorUserId orderId body ids).request
  | recordPayoutSubmission (actorUserId batchId : Uuid) (body : PayoutSubmissionRequest) :
      Requests ext (recordPayoutSubmission actorUserId batchId body).request
  | recordTransferEvidence (actorUserId batchId : Uuid) (body : TransferEvidenceRequest)
      (evidenceId : Uuid) :
      Requests ext (recordTransferEvidence ext actorUserId batchId body evidenceId).request
  | recordPayoutFailure (actorUserId batchId : Uuid) (failureCode : String) :
      Requests ext (recordPayoutFailure actorUserId batchId failureCode).request
  | elsewhere (shop : Commerce.Database) : Requests ext (elsewhere shop).request

end CrownFi.Payouts
