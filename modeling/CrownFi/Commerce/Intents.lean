import CrownFi.Commerce.Orders
import CrownFi.Stellar.Envelope

/-!
# CrownFi.Commerce.Intents

Transaction intents (`stellar_intents.rs`): the unsigned payment envelope that is
built for a payment attempt, and the signed one that the payer sends back.
-/

namespace CrownFi.Commerce.Intents

open Lib CrownFi.Api CrownFi.Stellar Orders

/-! ### Creating an intent -/

structure CreateTransactionIntentRequest where
  paymentAttemptId : Uuid
  sourceAccount : String
  destinationAccount : String
  sourceAccountSequence : Int
  baseFee : Option Nat
  timeoutSeconds : Option Int
  idempotencyKey : String
  deriving DecidableEq, Repr

/-- The arguments of the request, validated. -/
structure IntentArguments where
  sourceAccount : String
  destinationAccount : String
  transactionSequence : Int
  baseFee : Nat
  timeoutSeconds : Int
  idempotencyKey : String
  deriving DecidableEq, Repr

/-- The checks of the request before its transaction. -/
def CreateTransactionIntentRequest.validate (body : CreateTransactionIntentRequest) :
    Except ApiError IntentArguments := do
  let sourceAccount ← normalizeStellarAccount body.sourceAccount
  let destinationAccount ← normalizeStellarAccount body.destinationAccount
  if sourceAccount = destinationAccount then
    throw (.invalidRequest "stellar_source_equals_destination")
  if body.sourceAccountSequence < 0 then
    throw (.invalidRequest "invalid_source_account_sequence")
  let transactionSequence ← match checkedI64 (body.sourceAccountSequence + 1) with
    | some n => pure n
    | none => throw (.invalidRequest "transaction_sequence_overflow")
  if transactionSequence ≤ 0 then
    throw (.invalidRequest "invalid_transaction_sequence")
  let baseFee := body.baseFee.getD 100
  if ¬ (100 ≤ baseFee ∧ baseFee ≤ 1000000) then
    throw (.invalidRequest "invalid_stellar_base_fee")
  let timeoutSeconds := body.timeoutSeconds.getD 300
  if ¬ (60 ≤ timeoutSeconds ∧ timeoutSeconds ≤ 900) then
    throw (.invalidRequest "invalid_transaction_timeout")
  let idempotencyKey ← requiredChars body.idempotencyKey 200
    "invalid_transaction_intent_idempotency_key"
  return { sourceAccount, destinationAccount, transactionSequence, baseFee, timeoutSeconds
           idempotencyKey }

def intentRequestText (organizationId orderId attemptId : Uuid) (args : IntentArguments)
    (sourceAccountSequence : Int) (order : Order) : String :=
  "organization=" ++ organizationId.text ++ ";order=" ++ orderId.text ++ ";attempt=" ++
    attemptId.text ++ ";source=" ++ args.sourceAccount ++ ";destination=" ++
    args.destinationAccount ++ ";source_sequence=" ++ toString sourceAccountSequence ++
    ";base_fee=" ++ toString args.baseFee ++ ";timeout=" ++ toString args.timeoutSeconds ++
    ";amount=" ++ toString order.amountMinor ++ ";asset=" ++ order.asset.code ++ ":" ++
    toString order.asset.scale ++ ":" ++ order.asset.issuer.getD ""

/-- `CFI-` and the first twenty digits of the id. -/
def intentMemo (intentId : Uuid) : String :=
  "CFI-" ++ String.ofList (((Uuid.text intentId).toList.filter (· ≠ '-')).take 20)

def IntentStatus.active (s : IntentStatus) : Bool :=
  s = .built || s = .awaitingSignature || s = .signed || s = .submitted

/-- The unique keys of `transaction_intents`. -/
def intentViolation (i : TransactionIntent) (db : Database) : Option SqlError :=
  if db.intents.any fun j => j.id = i.id ||
      (j.organizationId = i.organizationId && j.idempotencyKey = i.idempotencyKey) ||
      (j.paymentAttemptId = i.paymentAttemptId && IntentStatus.active j.status) then
    some .uniqueViolation
  else none

def insertIntent (i : TransactionIntent) : Handler PUnit :=
  Tx.insertRow .other intentTable
    [⟨.intent i.id, .update⟩, ⟨.intentKey i.organizationId i.idempotencyKey, .update⟩,
      ⟨.activeIntentOf i.paymentAttemptId, .update⟩, ⟨.order i.orderId, .keyShare⟩,
      ⟨.attempt i.paymentAttemptId, .keyShare⟩]
    (fun db => raise mapDatabaseError (intentViolation i db)) i

def createTransactionIntent (sha256 : Sha256) (actorUserId orderId : Uuid)
    (body : CreateTransactionIntentRequest) (intentId : Uuid) : Handler Response := do
  let args ← valid body.validate
  let row ← Tx.selectFor .other (attemptLocks body.paymentAttemptId)
    (attemptWithOrder body.paymentAttemptId)
  let (attempt, order) ← Tx.orElse row (.error .notFound)
  requireEditor order.organizationId actorUserId
  Tx.require (attempt.orderId = orderId) (.error (.invalidRequest "payment_attempt_order_mismatch"))
  Tx.require (order.status = .awaitingPayment) (.error (.conflict "order_not_awaiting_payment"))
  Tx.require (AttemptStatus.active attempt.status) (.error (.conflict "payment_attempt_not_active"))
  Tx.require (order.environment = .testnet && attempt.environment = .testnet)
    (.error (.invalidRequest "stellar_intent_requires_testnet"))
  Tx.require (order.amountMinor = attempt.expectedAmountMinor && order.asset = attempt.asset)
    (.error (.conflict "payment_attempt_snapshot_mismatch"))
  let requestSha256 := hashText sha256 (intentRequestText order.organizationId orderId
    body.paymentAttemptId args body.sourceAccountSequence order)
  let sameKey (db : Database) := db.intents.find? fun i =>
    i.organizationId = order.organizationId && i.idempotencyKey = args.idempotencyKey
  let existing ← Tx.selectFor .other
    (fun db => (sameKey db).toList.map fun i => ⟨.intent i.id, .update⟩) sameKey
  match existing with
  | some existing =>
      Tx.require (existing.requestSha256 = requestSha256) (.error (.conflict "idempotency_key_reused"))
      Tx.commit
      return ⟨.ok, existing.id⟩
  | none =>
      let now ← Tx.select .other (·.directory.clock)
      let expiresAt := now + seconds args.timeoutSeconds
      let built ← valid (buildUnsignedPaymentEnvelope sha256 args.sourceAccount
        args.destinationAccount args.transactionSequence args.baseFee order.amountMinor
        order.asset.code order.asset.issuer (intentMemo intentId) (unixTimestamp expiresAt))
      insertIntent
        { id := intentId, organizationId := order.organizationId, orderId
          paymentAttemptId := body.paymentAttemptId, createdByUserId := actorUserId
          sourceAccount := args.sourceAccount, destinationAccount := args.destinationAccount
          transactionSequence := args.transactionSequence, baseFee := args.baseFee
          amountMinor := order.amountMinor, asset := order.asset, memoText := intentMemo intentId
          idempotencyKey := args.idempotencyKey, requestSha256
          transactionBodySha256 := built.transactionBodySha256
          unsignedEnvelopeSha256 := built.unsignedEnvelopeSha256
          unsignedEnvelopeXdr := built.envelopeXdr, status := .awaitingSignature, expiresAt
          failureCode := none }
      Tx.commit
      return ⟨.created, intentId⟩

/-! ### Accepting a signed envelope -/

/-- What the comparison with an envelope reads of an intent. -/
def TransactionIntent.terms (i : TransactionIntent) : IntentTerms where
  sourceAccount := i.sourceAccount
  destinationAccount := i.destinationAccount
  transactionSequence := i.transactionSequence
  baseFee := i.baseFee
  amountMinor := i.amountMinor
  assetCode := i.asset.code
  assetIssuer := i.asset.issuer
  memoText := i.memoText
  transactionBodySha256 := i.transactionBodySha256
  expiresAtUnix := unixTimestamp i.expiresAt

/-- A signed envelope as it was sent, its bytes, and what they say. -/
structure SignedEnvelope where
  xdr : String
  bytes : List UInt8
  parsed : ParsedEnvelope
  deriving DecidableEq, Repr

/-- The checks of the request before its transaction. -/
def readSignedEnvelope (signedEnvelopeXdr : String) : Except ApiError SignedEnvelope := do
  let xdr ← requiredChars signedEnvelopeXdr 100000 "invalid_signed_envelope_xdr"
  let bytes ← decodeBase64 xdr
  let parsed ← parsePaymentEnvelope bytes
  if parsed.signatureCount = 0 then
    throw (.invalidRequest "signed_envelope_has_no_signatures")
  return { xdr, bytes, parsed }

/-- The unique keys of `stellar_transactions`. -/
def transactionViolation (t : StellarTransaction) (db : Database) : Option SqlError :=
  if db.transactions.any fun u => u.id = t.id || u.transactionIntentId = t.transactionIntentId ||
      u.envelopeSha256 = t.envelopeSha256 || u.transactionHash = t.transactionHash then
    some .uniqueViolation
  else none

def insertTransaction (t : StellarTransaction) : Handler PUnit :=
  Tx.insertRow .other transactionTable
    [⟨.transaction t.id, .update⟩, ⟨.transactionOf t.transactionIntentId, .update⟩,
      ⟨.envelope t.envelopeSha256, .update⟩, ⟨.transactionHash t.transactionHash, .update⟩,
      ⟨.intent t.transactionIntentId, .keyShare⟩]
    (fun db => raise mapDatabaseError (transactionViolation t db)) t

/-- An update of an intent; where it ends the intent, the attempt's place becomes free. -/
def updateIntent (intentId : Uuid) (admits : TransactionIntent → Bool)
    (change : TransactionIntent → TransactionIntent) : Handler Nat :=
  Tx.update .other intentTable
    (fun i => [⟨.intent i.id, .noKeyUpdate⟩, ⟨.activeIntentOf i.paymentAttemptId, .update⟩])
    (fun i => i.id = intentId && admits i) change fun _ _ => none

/-- The transaction of the request, once the envelope is read. -/
def acceptEnvelope (sha256 : Sha256) (actorUserId intentId : Uuid) (envelope : SignedEnvelope)
    (transactionId : Uuid) : Handler Response := do
  let row ← Tx.selectFor .other
    (fun db => (intentTable.find db intentId).toList.map fun i => ⟨.intent i.id, .update⟩)
    (intentTable.find · intentId)
  let intent ← Tx.orElse row (.error .notFound)
  requireEditor intent.organizationId actorUserId
  let envelopeSha256 := hashList sha256 envelope.bytes
  let existing ← Tx.select .other fun db =>
    db.transactions.find? (·.transactionIntentId = intentId)
  match existing with
  | some existing =>
      Tx.require (existing.envelopeSha256 = envelopeSha256)
        (.error (.conflict "transaction_intent_already_signed"))
      Tx.commit
      return ⟨.ok, intentId⟩
  | none =>
      Tx.require (intent.status = .awaitingSignature)
        (.error (.conflict "transaction_intent_not_awaiting_signature"))
      let now ← Tx.select .other (·.directory.clock)
      if intent.expiresAt ≤ now then
        let _ ← updateIntent intentId (fun _ => true) fun i =>
          { i with status := .expired, failureCode := some "intent_expired" }
        Tx.commit
        Tx.exit (.error (.conflict "transaction_intent_expired"))
      else
        let _ ← valid (validateSignedEnvelopeAgainstIntent sha256 envelope.parsed
          (TransactionIntent.terms intent))
        insertTransaction
          { id := transactionId, transactionIntentId := intentId, envelopeSha256
            signedEnvelopeXdr := envelope.xdr
            transactionHash := transactionHash sha256 envelope.parsed.transactionBody
            status := .signed, horizonStatusCode := none, failureCode := none }
        let _ ← updateIntent intentId (fun _ => true) fun i =>
          { i with status := .signed, failureCode := none }
        Tx.commit
        return ⟨.created, intentId⟩

def acceptSignedEnvelope (sha256 : Sha256) (actorUserId intentId : Uuid) (signedEnvelopeXdr : String)
    (transactionId : Uuid) : Handler Response := do
  let envelope ← valid (readSignedEnvelope signedEnvelopeXdr)
  acceptEnvelope sha256 actorUserId intentId envelope transactionId

end CrownFi.Commerce.Intents
