import CrownFi.Api.Json
import CrownFi.Commerce.Ticketing

/-!
# CrownFi.Commerce.Orders

Orders, payment attempts and provider events (`orders.rs`).
-/

namespace CrownFi.Commerce.Orders

open Lib CrownFi.Api Ticketing

/-- `map_database_error`; the modules of the chain have the same one. -/
def mapDatabaseError : SqlError → ApiError
  | .uniqueViolation => .conflict "resource_already_exists"
  | .foreignKeyViolation => .invalidRequest "related_resource_not_found"
  | .checkViolation | .outOfRange => .invalidRequest "database_constraint_failed"

/-! ### Arguments -/

def validateEnvironment (value : String) : Except ApiError Environment :=
  let value := String.ofList (trimLower value)
  if value = "local" then .ok .local
  else if value = "testnet" then .ok .testnet
  else if value = "staging" then .ok .staging
  else if value = "production" then .ok .production
  else .error (.invalidRequest "invalid_environment")

def validatePaymentOutcome (value : String) : Except ApiError Outcome :=
  let value := String.ofList (trimLower value)
  if value = "confirmed" then .ok .confirmed
  else if value = "failed" then .ok .failed
  else .error (.invalidRequest "invalid_payment_outcome")

def validateOptionalStellarAccount : Option String → Except ApiError (Option String) :=
  optional fun value =>
    let value := String.ofList (trimUpper value)
    if isStellarAccount value then .ok value else .error (.invalidRequest "invalid_stellar_account")

/-! ### Creating an order -/

structure CreateOrderRequest where
  productId : Uuid
  priceId : Uuid
  quantity : Int
  environment : String
  idempotencyKey : String
  deriving DecidableEq, Repr

def orderRequestText (buyerUserId organizationId productId priceId : Uuid) (quantity : Int)
    (environment : Environment) : String :=
  "buyer=" ++ buyerUserId.text ++ ";organization=" ++ organizationId.text ++ ";product=" ++
    productId.text ++ ";price=" ++ priceId.text ++ ";quantity=" ++ toString quantity ++
    ";environment=" ++ environment.text

structure CatalogueEntry where
  organizationId : Uuid
  name : String
  status : ProductStatus
  amountMinor : Int
  asset : Asset
  supplyLimit : Option Int
  reservedQuantity : Int
  fulfilledQuantity : Int
  deriving DecidableEq, Repr

/-- The product with its price, if the price is active at `now`, and its inventory. -/
def catalogueEntry (productId priceId : Uuid) (now : Int) (db : Database) : Option CatalogueEntry := do
  let p ← db.catalogue.products.find? (·.id = productId)
  let pp ← db.catalogue.prices.find? fun pp => pp.id = priceId && pp.productId = p.id &&
    pp.isActive && pp.startsAt.all (· ≤ now) && pp.endsAt.all (now ≤ ·)
  let i ← db.inventory.find? (·.productId = p.id)
  return { organizationId := p.organizationId, name := p.name, status := p.status
           amountMinor := pp.amountMinor, asset := pp.asset, supplyLimit := i.supplyLimit
           reservedQuantity := i.reservedQuantity, fulfilledQuantity := i.fulfilledQuantity }

def createOrder (sha256 : Sha256) (actorUserId organizationId : Uuid) (body : CreateOrderRequest)
    (orderId itemId : Uuid) : Handler Response := do
  requireEditor organizationId actorUserId
  Tx.require (0 < body.quantity) (.error (.invalidRequest "invalid_order_quantity"))
  let environment ← valid (validateEnvironment body.environment)
  let idempotencyKey ← valid (requiredChars body.idempotencyKey 200 "invalid_order_idempotency_key")
  let requestSha256 := hashText sha256
    (orderRequestText actorUserId organizationId body.productId body.priceId body.quantity environment)
  let began ← Tx.select .other (·.directory.clock)
  let sameKey (db : Database) := db.orders.find? fun o =>
    o.organizationId = organizationId && o.idempotencyKey = idempotencyKey
  let existing ← Tx.selectFor .other
    (fun db => (sameKey db).toList.map fun o => ⟨.order o.id, .update⟩) sameKey
  match existing with
  | some existing =>
      Tx.require (existing.requestSha256 = requestSha256) (.error (.conflict "idempotency_key_reused"))
      Tx.commit
      return ⟨.ok, existing.id⟩
  | none =>
      let row ← Tx.selectFor .other
        (fun db => if (catalogueEntry body.productId body.priceId began db).isSome then
          [⟨.product body.productId, .update⟩, ⟨.price body.priceId, .update⟩,
            ⟨.inventory body.productId, .update⟩] else [])
        (catalogueEntry body.productId body.priceId began)
      let catalogue ← Tx.orElse row (.error (.invalidRequest "product_or_price_not_available"))
      Tx.require (catalogue.organizationId = organizationId) (.error .forbidden)
      Tx.require (catalogue.status = .published) (.error (.conflict "product_not_published"))
      let totalAmountMinor ← Tx.orElse (checkedI64 (catalogue.amountMinor * body.quantity))
        (.error (.invalidRequest "order_amount_overflow"))
      Tx.require (catalogue.supplyLimit.all fun limit =>
          wrapI64 (catalogue.reservedQuantity + catalogue.fulfilledQuantity + body.quantity) ≤ limit)
        (.error (.conflict "insufficient_inventory"))
      insertOrder mapDatabaseError
        { id := orderId, organizationId, buyerUserId := actorUserId, status := .awaitingPayment
          environment, idempotencyKey, requestSha256, amountMinor := totalAmountMinor
          asset := catalogue.asset, expiresAt := none }
      insertOrderItem mapDatabaseError
        { id := itemId, orderId, productId := body.productId, productName := catalogue.name
          quantity := body.quantity, unitAmountMinor := catalogue.amountMinor, totalAmountMinor
          asset := catalogue.asset }
      let updated ← reserveInventory mapDatabaseError body.productId body.quantity
      Tx.require (updated = 1) (.error (.conflict "insufficient_inventory"))
      Tx.commit
      return ⟨.created, orderId⟩

/-! ### Payment attempts -/

structure CreatePaymentAttemptRequest where
  provider : String
  providerReference : Option String
  payerAccount : Option String
  deriving DecidableEq, Repr

def AttemptStatus.active (s : AttemptStatus) : Bool := s = .created || s = .awaitingConfirmation

/-- The unique keys and foreign keys of `payment_attempts`. -/
def attemptViolation (a : PaymentAttempt) (db : Database) : Option SqlError :=
  if db.attempts.any fun b => b.id = a.id ||
      (a.providerReference.isSome && b.provider = a.provider && b.providerReference = a.providerReference) ||
      (b.orderId = a.orderId && AttemptStatus.active b.status && AttemptStatus.active a.status) then
    some .uniqueViolation
  else none

def createPaymentAttempt (actorUserId orderId : Uuid) (body : CreatePaymentAttemptRequest)
    (attemptId : Uuid) : Handler Response := do
  let provider ← valid (requiredChars body.provider 80 "invalid_payment_provider")
  let provider := String.ofList (provider.toList.map Char.toLower)
  let providerReference ← valid
    (optional (requiredChars · 200 "invalid_provider_reference") body.providerReference)
  let payerAccount ← valid (validateOptionalStellarAccount body.payerAccount)
  let row ← Tx.selectFor .other
    (fun db => (orderTable.find db orderId).toList.map fun o => ⟨.order o.id, .update⟩)
    (orderTable.find · orderId)
  let order ← Tx.orElse row (.error .notFound)
  requireEditor order.organizationId actorUserId
  Tx.require (order.status = .awaitingPayment) (.error (.conflict "order_not_awaiting_payment"))
  let attempt : PaymentAttempt :=
    { id := attemptId, orderId, provider, providerReference, payerAccount
      expectedAmountMinor := order.amountMinor, asset := order.asset
      environment := order.environment, status := .awaitingConfirmation, failureCode := none }
  Tx.insertRow .other attemptTable
    ([⟨.attempt attemptId, .update⟩, ⟨.activeAttemptOf orderId, .update⟩, ⟨.order orderId, .keyShare⟩] ++
      providerReference.toList.map fun reference => ⟨.providerReference provider reference, .update⟩)
    (fun db => raise mapDatabaseError (attemptViolation attempt db)) attempt
  Tx.commit
  return ⟨.created, attemptId⟩

/-! ### Provider events -/

structure RecordPaymentEventRequest where
  providerEventId : String
  signatureVerified : Bool
  outcome : String
  amountMinor : Int
  assetCode : String
  assetScale : Int
  assetIssuer : Option String
  payerAccount : Option String
  environment : String
  payload : Json

/-- What a provider reports, validated. -/
structure ReportedPayment where
  providerEventId : String
  outcome : Outcome
  amountMinor : Int
  asset : Asset
  payerAccount : Option String
  environment : Environment
  deriving DecidableEq, Repr

/-- The checks of the request before its transaction. -/
def RecordPaymentEventRequest.validate (body : RecordPaymentEventRequest) :
    Except ApiError ReportedPayment := do
  if body.signatureVerified = false then
    throw .unauthorized
  if body.amountMinor ≤ 0 ∨ ¬ (0 ≤ body.assetScale ∧ body.assetScale ≤ 7) then
    throw (.invalidRequest "invalid_payment_event_amount")
  let providerEventId ← requiredChars body.providerEventId 200 "invalid_provider_event_id"
  let outcome ← validatePaymentOutcome body.outcome
  let environment ← validateEnvironment body.environment
  let code ← validateAssetCode body.assetCode
  let issuer ← validateAssetIssuer isStellarAccount code body.assetIssuer
  let payerAccount ← validateOptionalStellarAccount body.payerAccount
  return { providerEventId, outcome, amountMinor := body.amountMinor
           asset := ⟨code, body.assetScale, issuer⟩, payerAccount, environment }

/-- `payment_event_hash`: zero bytes separate the texts, numbers are big-endian. `toVec`
writes the payload as bytes. -/
def paymentEventHash (sha256 : Sha256) (toVec : Json → ByteArray) (p : ReportedPayment)
    (payload : Json) : String :=
  let text (s : String) := s.toUTF8.toList
  let be (width : Nat) (n : Int) := (List.range width).map fun i =>
    UInt8.ofNat ((n % 2 ^ (8 * width)).toNat / 2 ^ (8 * (width - 1 - i)))
  let outcome := if p.outcome = .confirmed then "confirmed" else "failed"
  let bytes := text p.providerEventId ++ [0] ++ text outcome ++ [0] ++ be 8 p.amountMinor ++
    text p.asset.code ++ be 2 p.asset.scale ++ text (p.asset.issuer.getD "") ++ [0] ++
    text (p.payerAccount.getD "") ++ [0] ++ text p.environment.text ++ [0] ++ (toVec payload).toList
  hashBytes sha256 ⟨bytes.toArray⟩

/-- `reconcile_event`. -/
def reconcileEvent (a : PaymentAttempt) (p : ReportedPayment) : Option String :=
  if p.amountMinor ≠ a.expectedAmountMinor then some "amount_mismatch"
  else if p.asset ≠ a.asset then some "asset_mismatch"
  else if p.environment ≠ a.environment then some "environment_mismatch"
  else if a.payerAccount.isSome ∧ p.payerAccount ≠ a.payerAccount then some "payer_mismatch"
  else none

/-- The attempt with its order. -/
def attemptWithOrder (attemptId : Uuid) (db : Database) : Option (PaymentAttempt × Order) := do
  let pa ← attemptTable.find db attemptId
  let o ← orderTable.find db pa.orderId
  return (pa, o)

/-- `FOR UPDATE OF pa, o`. -/
def attemptLocks (attemptId : Uuid) (db : Database) : List (Lock Row) :=
  (attemptWithOrder attemptId db).toList.flatMap fun (pa, o) =>
    [⟨.attempt pa.id, .update⟩, ⟨.order o.id, .update⟩]

def eventViolation (e : ProviderEvent) (db : Database) : Option SqlError :=
  if db.events.any fun f => f.id = e.id ||
      (f.provider = e.provider && f.providerEventId = e.providerEventId) then
    some .uniqueViolation
  else none

/-- An update of an attempt that ends it gives its order's place free. -/
def updateAttempt (attemptId : Uuid) (admits : PaymentAttempt → Bool)
    (change : PaymentAttempt → PaymentAttempt) : Handler Nat :=
  Tx.update .other attemptTable
    (fun a => [⟨.attempt a.id, .noKeyUpdate⟩, ⟨.activeAttemptOf a.orderId, .update⟩])
    (fun a => a.id = attemptId && admits a) change fun _ _ => none

/-- A confirmed event pays the order of its attempt; a failed one ends the attempt. -/
def applyOutcome (attempt : PaymentAttempt) (outcome : Outcome) : Handler PUnit :=
  match outcome with
  | .confirmed => do
      let _ ← updateAttempt attempt.id (fun _ => true) fun a =>
        { a with status := .confirmed, failureCode := none }
      let _ ← Tx.update (.eventOrder attempt.orderId) orderTable (fun o => [⟨.order o.id, .noKeyUpdate⟩])
        (fun o => o.id = attempt.orderId && o.status = .awaitingPayment) ({ · with status := .paid })
        fun _ _ => none
  | .failed => do
      let _ ← updateAttempt attempt.id (fun _ => true) fun a =>
        { a with status := .failed, failureCode := some "provider_failed" }

def recordPaymentEvent (sha256 : Sha256) (toVec : Json → ByteArray) (actorUserId attemptId : Uuid)
    (body : RecordPaymentEventRequest) (eventId : Uuid) : Handler Response := do
  let payment ← valid body.validate
  let payloadSha256 := paymentEventHash sha256 toVec payment body.payload
  let row ← Tx.selectFor .other (attemptLocks attemptId) (attemptWithOrder attemptId)
  let (attempt, order) ← Tx.orElse row (.error .notFound)
  requireEditor order.organizationId actorUserId
  let existing ← Tx.select .other fun db => db.events.find? fun e =>
    e.provider = attempt.provider && e.providerEventId = payment.providerEventId
  match existing with
  | some existing =>
      Tx.require (existing.paymentAttemptId = attemptId && existing.payloadSha256 = payloadSha256)
        (.error (.conflict "provider_event_reused"))
      Tx.commit
      return ⟨.ok, existing.id⟩
  | none =>
      Tx.require (AttemptStatus.active attempt.status) (.error (.conflict "payment_attempt_not_active"))
      let reconciliationError := reconcileEvent attempt payment
      let event : ProviderEvent :=
        { id := eventId, paymentAttemptId := attemptId, provider := attempt.provider
          providerEventId := payment.providerEventId, payloadSha256, outcome := payment.outcome
          amountMinor := payment.amountMinor, asset := payment.asset
          payerAccount := payment.payerAccount, environment := payment.environment
          processingStatus := if reconciliationError.isSome then .rejected else .processed
          reconciliationError }
      Tx.insertRow .other eventTable
        [⟨.event eventId, .update⟩, ⟨.providerEvent attempt.provider payment.providerEventId, .update⟩,
          ⟨.attempt attemptId, .keyShare⟩]
        (fun db => raise mapDatabaseError (eventViolation event db)) event
      match reconciliationError with
      | none =>
          applyOutcome attempt payment.outcome
          Tx.commit
          return ⟨.created, eventId⟩
      | some _ =>
          Tx.commit
          return ⟨.conflict, eventId⟩

end CrownFi.Commerce.Orders
