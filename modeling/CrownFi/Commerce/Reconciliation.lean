import CrownFi.Commerce.Intents

/-!
# CrownFi.Commerce.Reconciliation

Submission receipts and chain evidence (`stellar_reconciliation.rs`). Evidence is
stored whatever it says; only evidence that agrees with the intent, in the
structured fields and in the raw records behind them, confirms the payment.
-/

namespace CrownFi.Commerce.Reconciliation

open Lib CrownFi.Api CrownFi.Stellar Orders Intents

/-- What the handlers take from other packages: the hash function, how a JSON value is
written as bytes, and how an instant is read from a text and written as JSON. -/
structure External where
  sha256 : Sha256
  toVec : Json → ByteArray
  parseRfc3339 : String → Option Int
  timeJson : Int → Json

/-! ### The rows of an intent -/

structure ExpectedIntent where
  intent : TransactionIntent
  transaction : StellarTransaction
  attempt : PaymentAttempt
  order : Order
  deriving DecidableEq, Repr

/-- The intent joined with its transaction, attempt and order. -/
def expectedIntent (intentId : Uuid) (db : Database) : Option ExpectedIntent := do
  let intent ← intentTable.find db intentId
  let transaction ← db.transactions.find? (·.transactionIntentId = intent.id)
  let attempt ← attemptTable.find db intent.paymentAttemptId
  let order ← orderTable.find db intent.orderId
  return { intent, transaction, attempt, order }

/-- `FOR UPDATE OF ti, st, pa, o`. -/
def ExpectedIntent.locks (e : ExpectedIntent) : List (Lock Row) :=
  [⟨.intent e.intent.id, .update⟩, ⟨.transaction e.transaction.id, .update⟩,
    ⟨.attempt e.attempt.id, .update⟩, ⟨.order e.order.id, .update⟩]

/-- `expected_for_update`. -/
def expectedForUpdate (intentId : Uuid) : Handler ExpectedIntent := do
  let row ← Tx.selectFor .other
    (fun db => ((expectedIntent intentId db).map (·.locks)).getD []) (expectedIntent intentId)
  Tx.orElse row (.error .notFound)

/-- The result that was reconciled last. -/
def latestResult (intentId : Uuid) (db : Database) : Option ReconciliationResult :=
  ((db.results.filter (·.transactionIntentId = intentId)).insertionSort
    fun r r' => r'.reconciledAt ≤ r.reconciledAt).head?

/-- `load_response`, as far as the answer's status depends on it. -/
def loadResponse (intentId : Uuid) : Handler (Option ReconciliationResult) := do
  let found ← Tx.select .other fun db => (expectedIntent intentId db).isSome
  Tx.require found (.error .notFound)
  Tx.select .other (latestResult intentId)

def reconciliationHttpStatus (result : Option ReconciliationResult) (created : Bool) : HttpStatus :=
  match result.map ReconciliationResult.status with
  | some .accepted => if created then .created else .ok
  | some .rejected => .conflict
  | none => .ok

/-! ### Submission receipts -/

structure SubmissionReceiptRequest where
  transactionHash : String
  horizonStatusCode : Int
  horizonResponse : Json

/-- The checks of the request before its transaction: the hash that was submitted. -/
def SubmissionReceiptRequest.validate (body : SubmissionReceiptRequest) : Except ApiError String := do
  let txHash ← hexString body.transactionHash 64 "invalid_transaction_hash"
  if ¬ (200 ≤ body.horizonStatusCode ∧ body.horizonStatusCode ≤ 299) then
    throw (.invalidRequest "horizon_submission_not_successful")
  let responseHash := (body.horizonResponse.getStr "hash").map fun s => s.toList.map Char.toLower
  if responseHash ≠ some txHash.toList then
    throw (.invalidRequest "horizon_response_hash_mismatch")
  return txHash

/-- An update of a transaction's row. -/
def updateTransaction (p : StellarTransaction → Bool) (change : StellarTransaction → StellarTransaction) :
    Handler Nat :=
  Tx.update .other transactionTable (fun t => [⟨.transaction t.id, .noKeyUpdate⟩]) p change
    fun _ _ => none

def recordSubmissionReceipt (actorUserId intentId : Uuid) (body : SubmissionReceiptRequest) :
    Handler Response := do
  let txHash ← valid body.validate
  let expected ← expectedForUpdate intentId
  requireEditor expected.intent.organizationId actorUserId
  Tx.require (expected.transaction.transactionHash = txHash)
    (.error (.conflict "submitted_transaction_hash_mismatch"))
  if expected.transaction.status = .submitted || expected.transaction.status = .confirmed then
    Tx.commit
    let _ ← loadResponse intentId
    return ⟨.ok, intentId⟩
  else
    Tx.require (expected.transaction.status = .signed && expected.intent.status = .signed)
      (.error (.conflict "stellar_transaction_not_signed"))
    let _ ← updateTransaction (fun t => t.transactionIntentId = intentId && t.status = .signed) fun t =>
      { t with status := .submitted, horizonStatusCode := some body.horizonStatusCode, failureCode := none }
    let _ ← updateIntent intentId (·.status = .signed) fun i =>
      { i with status := .submitted, failureCode := none }
    Tx.commit
    let _ ← loadResponse intentId
    return ⟨.ok, intentId⟩

/-! ### Amounts as decimal texts -/

/-- The number that a text of digits denotes. -/
def digitsValue (cs : List Char) : Nat := cs.foldl (fun n c => n * 10 + (c.toNat - 48)) 0

/-- `parse::<i64>` of a text of digits. -/
def parseI64 (cs : List Char) : Option Int :=
  if cs = [] then none else checkedI64 (digitsValue cs)

/-- `decimal_minor`: the amount in units of the smallest denomination. -/
def decimalMinor (value : String) (scale : Int) : Option Int := do
  let cs := value.toList
  if ¬ (0 ≤ scale ∧ scale ≤ 7) ∨ cs.head? = some '-' ∨ cs.head? = some '+' then
    none
  let whole := cs.takeWhile (· ≠ '.')
  let fraction := (cs.drop whole.length).drop 1
  if fraction.contains '.' || whole.isEmpty || !whole.all isDigit || !fraction.all isDigit ||
      scale < fraction.length then
    none
  let factor ← checkedI64 (10 ^ scale.toNat)
  let whole ← parseI64 whole
  let whole ← checkedI64 (whole * factor)
  let padded := fraction ++ List.replicate (scale.toNat - fraction.length) '0'
  let fraction ← if padded.isEmpty then some 0 else parseI64 padded
  checkedI64 (whole + fraction)

/-! ### Chain evidence -/

structure ChainEvidenceRequest where
  transactionHash : String
  ledgerSequence : Int
  operationIndex : Int
  pagingToken : String
  sourceAccount : String
  destinationAccount : String
  amountMinor : Int
  assetCode : String
  assetScale : Int
  assetIssuer : Option String
  memoText : String
  transactionSuccessful : Bool
  closedAt : Int
  rawTransaction : Json
  rawOperation : Json

/-- The evidence, validated. -/
structure Observed where
  txHash : String
  ledgerSequence : Int
  operationIndex : Int
  pagingToken : String
  source : String
  destination : String
  amountMinor : Int
  asset : Asset
  memo : String
  successful : Bool
  closedAt : Int
  deriving DecidableEq, Repr

/-- The checks of the request before its transaction. -/
def ChainEvidenceRequest.validate (body : ChainEvidenceRequest) (now : Int) : Except ApiError Observed := do
  if body.ledgerSequence ≤ 0 ∨ body.operationIndex < 0 ∨ body.amountMinor ≤ 0 then
    throw (.invalidRequest "invalid_chain_evidence_numbers")
  if ¬ (0 ≤ body.assetScale ∧ body.assetScale ≤ 7) then
    throw (.invalidRequest "invalid_asset_scale")
  let txHash ← hexString body.transactionHash 64 "invalid_transaction_hash"
  let pagingToken ← requiredChars body.pagingToken 200 "invalid_paging_token"
  let source ← account body.sourceAccount
  let destination ← account body.destinationAccount
  let code ← validateAssetCode body.assetCode
  let issuer ← validateAssetIssuer (isStrKey accountVersion) code body.assetIssuer
  let memo ← requiredChars body.memoText 28 "invalid_stellar_memo"
  if now + seconds 300 < body.closedAt then
    throw (.invalidRequest "chain_evidence_closed_at_in_future")
  return { txHash, ledgerSequence := body.ledgerSequence, operationIndex := body.operationIndex
           pagingToken, source, destination, amountMinor := body.amountMinor
           asset := ⟨code, body.assetScale, issuer⟩, memo, successful := body.transactionSuccessful
           closedAt := body.closedAt }

/-- `evidence_hash`. -/
def evidenceHash (ext : External) (o : Observed) (rawTx rawOp : Json) : String :=
  hashBytes ext.sha256 (ext.toVec (.object
    [("transaction_hash", .string o.txHash), ("ledger_sequence", .int o.ledgerSequence),
      ("operation_index", .int o.operationIndex), ("paging_token", .string o.pagingToken),
      ("source_account", .string o.source), ("destination_account", .string o.destination),
      ("amount_minor", .int o.amountMinor), ("asset_code", .string o.asset.code),
      ("asset_scale", .int o.asset.scale), ("asset_issuer", Json.ofOption o.asset.issuer),
      ("memo_text", .string o.memo), ("successful", .bool o.successful),
      ("closed_at", ext.timeJson o.closedAt), ("raw_transaction", rawTx), ("raw_operation", rawOp)]))

/-- A hash in a raw record, in lower case. -/
def rawHash (key : String) (raw : Json) : Option (List Char) :=
  (raw.getStr key).map fun s => s.toList.map Char.toLower

def rawTransactionFailure (parseRfc3339 : String → Option Int) (o : Observed) (raw : Json) :
    Option String :=
  if rawHash "hash" raw ≠ some o.txHash.toList then some "raw_transaction_hash_mismatch"
  else if (raw.get "successful").bind Json.asBool ≠ some o.successful then
    some "raw_transaction_success_mismatch"
  else if (raw.get "ledger").bind Json.asI64 ≠ some o.ledgerSequence then
    some "raw_transaction_ledger_mismatch"
  else if raw.getStr "memo_type" ≠ some "text" ∨ raw.getStr "memo" ≠ some o.memo then
    some "raw_transaction_memo_mismatch"
  else
    match raw.getStr "created_at" with
    | none => some "raw_transaction_closed_at_missing"
    | some text =>
        match parseRfc3339 text with
        | none => some "raw_transaction_closed_at_invalid"
        | some parsed => if parsed ≠ o.closedAt then some "raw_transaction_closed_at_mismatch" else none

def rawOperationFailure (o : Observed) (raw : Json) : Option String :=
  if raw.getStr "type" ≠ some "payment" then some "raw_operation_type_mismatch"
  else if rawHash "transaction_hash" raw ≠ some o.txHash.toList then
    some "raw_operation_transaction_hash_mismatch"
  else if raw.getStr "paging_token" ≠ some o.pagingToken then some "raw_operation_paging_token_mismatch"
  else if raw.getStr "source_account" ≠ some o.source ∨ raw.getStr "to" ≠ some o.destination then
    some "raw_operation_account_mismatch"
  else
    match raw.getStr "amount" with
    | none => some "raw_operation_amount_missing"
    | some amount =>
        if decimalMinor amount o.asset.scale ≠ some o.amountMinor then some "raw_operation_amount_mismatch"
        else if o.asset.code = "XLM" then
          if raw.getStr "asset_type" ≠ some "native" then some "raw_operation_asset_mismatch" else none
        else if raw.getStr "asset_code" ≠ some o.asset.code ∨
            raw.getStr "asset_issuer" ≠ o.asset.issuer then
          some "raw_operation_asset_mismatch"
        else none

/-- `reconcile`: the first disagreement between the evidence and the intent. -/
def reconcile (parseRfc3339 : String → Option Int) (e : ExpectedIntent) (o : Observed)
    (rawTx rawOp : Json) : Option String :=
  if e.intent.status ≠ .submitted ∨ e.transaction.status ≠ .submitted then
    some "transaction_not_submitted"
  else if o.txHash ≠ e.transaction.transactionHash then some "transaction_hash_mismatch"
  else if o.successful = false then some "transaction_failed_on_chain"
  else if o.source ≠ e.intent.sourceAccount then some "source_account_mismatch"
  else if o.destination ≠ e.intent.destinationAccount then some "destination_account_mismatch"
  else if o.amountMinor ≠ e.intent.amountMinor then some "amount_mismatch"
  else if o.asset ≠ e.intent.asset then some "asset_mismatch"
  else if o.memo ≠ e.intent.memoText then some "memo_mismatch"
  else (rawTransactionFailure parseRfc3339 o rawTx).or (rawOperationFailure o rawOp)

/-- The unique keys of `stellar_chain_evidence`. -/
def evidenceViolation (e : ChainEvidence) (db : Database) : Option SqlError :=
  if db.evidence.any fun f => f.id = e.id ||
      (f.transactionHash = e.transactionHash && f.operationIndex = e.operationIndex) then
    some .uniqueViolation
  else none

def insertEvidence (e : ChainEvidence) : Handler PUnit :=
  Tx.insertRow .other evidenceTable
    [⟨.evidence e.id, .update⟩, ⟨.operation e.transactionHash e.operationIndex, .update⟩,
      ⟨.intent e.transactionIntentId, .keyShare⟩, ⟨.transaction e.stellarTransactionId, .keyShare⟩]
    (fun db => raise mapDatabaseError (evidenceViolation e db)) e

/-- The unique keys of `stellar_reconciliation_results`: one accepted result for an intent. -/
def resultViolation (r : ReconciliationResult) (db : Database) : Option SqlError :=
  if db.results.any fun s => s.id = r.id || s.chainEvidenceId = r.chainEvidenceId ||
      (s.transactionIntentId = r.transactionIntentId && s.status = .accepted && r.status = .accepted) then
    some .uniqueViolation
  else none

def insertResult (r : ReconciliationResult) : Handler PUnit :=
  Tx.insertRow .other resultTable
    ([⟨.result r.id, .update⟩, ⟨.resultOf r.chainEvidenceId, .update⟩,
        ⟨.intent r.transactionIntentId, .keyShare⟩, ⟨.evidence r.chainEvidenceId, .keyShare⟩] ++
      if r.status = .accepted then [⟨.acceptedResultOf r.transactionIntentId, .update⟩] else [])
    (fun db => raise mapDatabaseError (resultViolation r db)) r

def confirmPaymentState (expected : ExpectedIntent) : Handler PUnit := do
  let transaction ← updateTransaction
    (fun t => t.id = expected.transaction.id && t.status = .submitted) fun t =>
      { t with status := .confirmed, failureCode := none }
  let intent ← updateIntent expected.intent.id (·.status = .submitted) fun i =>
    { i with status := .confirmed, failureCode := none }
  let payment ← updateAttempt expected.attempt.id (fun a => AttemptStatus.active a.status) fun a =>
    { a with status := .confirmed, failureCode := none }
  let order ← Tx.update .other orderTable (fun o => [⟨.order o.id, .noKeyUpdate⟩])
    (fun o => o.id = expected.order.id && o.status = .awaitingPayment) ({ · with status := .paid })
    fun _ _ => none
  Tx.require (transaction = 1 && intent = 1 && payment = 1 && order = 1)
    (.error (.conflict "stellar_confirmation_state_changed"))

/-- `PAYMENT_CURSOR`. -/
def paymentCursor : String := "commerce-payments-v1"

/-- The cursor moves only forward, by ledger and then by token as a text. -/
def ChainCursor.advance (token : String) (ledger : Int) (c : ChainCursor) : ChainCursor :=
  if c.ledgerSequence < ledger ∨ (c.ledgerSequence = ledger ∧ c.cursorValue < token) then
    { c with cursorValue := token, ledgerSequence := ledger }
  else c

/-- `advance_cursor`: `INSERT .. ON CONFLICT .. DO UPDATE .. WHERE ..`. -/
def advanceCursor (token : String) (ledger : Int) : Handler PUnit :=
  Tx.write .other (fun _ => [⟨.cursor paymentCursor, .update⟩]) fun db =>
    cursorTable.put db <|
      if db.cursors.any (·.consumerName = paymentCursor) then
        updateWhere (·.consumerName = paymentCursor) (ChainCursor.advance token ledger) db.cursors
      else db.cursors ++ [⟨paymentCursor, token, ledger⟩]

/-- The ids a request draws. -/
structure EvidenceIds where
  evidence : Uuid
  result : Uuid
  deriving DecidableEq, Repr

/-- The transaction of the request, once the evidence is validated. -/
def reconcileEvidence (ext : External) (actorUserId intentId : Uuid) (observed : Observed)
    (rawTx rawOp : Json) (ids : EvidenceIds) : Handler Response := do
  let began ← Tx.select .other (·.directory.clock)
  let expected ← expectedForUpdate intentId
  requireEditor expected.intent.organizationId actorUserId
  let existing ← Tx.select .other fun db => db.evidence.find? fun e =>
    e.transactionHash = observed.txHash && e.operationIndex = observed.operationIndex
  match existing with
  | some existing =>
      Tx.require (existing.transactionIntentId = intentId &&
          existing.evidenceSha256 = evidenceHash ext observed rawTx rawOp)
        (.error (.conflict "chain_evidence_reused"))
      Tx.commit
      let result ← loadResponse intentId
      return ⟨reconciliationHttpStatus result false, intentId⟩
  | none =>
      let reconciled ← Tx.select .other fun db => db.results.any fun r =>
        r.transactionIntentId = intentId && r.status = .accepted
      Tx.require (!reconciled) (.error (.conflict "transaction_intent_already_reconciled"))
      let failure := reconcile ext.parseRfc3339 expected observed rawTx rawOp
      insertEvidence
        { id := ids.evidence, transactionIntentId := intentId
          stellarTransactionId := expected.transaction.id, transactionHash := observed.txHash
          ledgerSequence := observed.ledgerSequence, operationIndex := observed.operationIndex
          pagingToken := observed.pagingToken, sourceAccount := observed.source
          destinationAccount := observed.destination, amountMinor := observed.amountMinor
          asset := observed.asset, memoText := observed.memo
          transactionSuccessful := observed.successful, closedAt := observed.closedAt
          evidenceSha256 := evidenceHash ext observed rawTx rawOp }
      insertResult
        { id := ids.result, transactionIntentId := intentId, chainEvidenceId := ids.evidence
          status := if failure.isNone then .accepted else .rejected, failureCode := failure
          reconciledByUserId := actorUserId, reconciledAt := began }
      match failure with
      | none =>
          confirmPaymentState expected
          advanceCursor observed.pagingToken observed.ledgerSequence
          Tx.commit
          let result ← loadResponse intentId
          return ⟨reconciliationHttpStatus result true, intentId⟩
      | some _ =>
          Tx.commit
          let result ← loadResponse intentId
          return ⟨reconciliationHttpStatus result true, intentId⟩

def recordChainEvidence (ext : External) (actorUserId intentId : Uuid) (body : ChainEvidenceRequest)
    (ids : EvidenceIds) : Handler Response := do
  let now ← Tx.select .other (·.directory.clock)
  let observed ← valid (body.validate now)
  reconcileEvidence ext actorUserId intentId observed body.rawTransaction body.rawOperation ids

end CrownFi.Commerce.Reconciliation
