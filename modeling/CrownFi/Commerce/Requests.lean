import CrownFi.Commerce.Issuance

/-!
# CrownFi.Commerce.Requests

Everything that a run of the shop is made of: the requests on reservations, orders,
payments, intents, evidence and issuances, and what happens besides them.
-/

namespace CrownFi.Commerce

open Lib CrownFi.Api Reconciliation

/-- People, catalogue and clock may change at any time. -/
def environment (directory : Directory) (catalogue : Catalogue) : Handler Response := do
  Tx.write .other (fun _ => []) fun db => { db with directory, catalogue }
  Tx.commit
  return ⟨.ok, 0⟩

/-- The management of the catalogue gives a product its limit, the first time with a new row. -/
def setSupplyLimit (productId : Uuid) (supplyLimit : Option Int) : Handler Response := do
  let row ← Tx.selectFor .other
    (fun db => (inventoryTable.find db productId).toList.map fun i => ⟨.inventory i.productId, .update⟩)
    (inventoryTable.find · productId)
  match row with
  | some _ =>
      let _ ← Ticketing.updateInventory Ticketing.mapDatabaseError productId (fun _ => true) fun i =>
        { i with supplyLimit }
      Tx.commit
      return ⟨.ok, productId⟩
  | none =>
      Tx.insertRow .other inventoryTable [⟨.inventory productId, .update⟩]
        (fun db => if (inventoryTable.find db productId).isSome then
          some (.error (Ticketing.mapDatabaseError .uniqueViolation)) else none)
        { productId, supplyLimit, reservedQuantity := 0, fulfilledQuantity := 0 }
      Tx.commit
      return ⟨.created, productId⟩

/-- The operations of the shop, by name. -/
inductive Operation
  | createReservation
  | createOrder
  | createPaymentAttempt
  | recordPaymentEvent
  | createTransactionIntent
  | acceptSignedEnvelope
  | recordSubmissionReceipt
  | recordChainEvidence
  | prepareIssuance
  | acceptOwnershipEvidence
  | environment
  | setSupplyLimit
  deriving DecidableEq, Repr

/-- The requests of the shop, each with the operation that it asks for. -/
inductive Request (ext : External) : Operation → Prog Database Row Site Result → Prop
  | createReservation (buyerUserId ticketProductId : Uuid) (body : Ticketing.CreateReservationRequest)
      (ids : Ticketing.ReservationIds) :
      Request ext .createReservation
        (Ticketing.createReservation ext.sha256 buyerUserId ticketProductId body ids).request
  | createOrder (actorUserId organizationId : Uuid) (body : Orders.CreateOrderRequest)
      (orderId itemId : Uuid) :
      Request ext .createOrder
        (Orders.createOrder ext.sha256 actorUserId organizationId body orderId itemId).request
  | createPaymentAttempt (actorUserId orderId : Uuid) (body : Orders.CreatePaymentAttemptRequest)
      (attemptId : Uuid) :
      Request ext .createPaymentAttempt
        (Orders.createPaymentAttempt actorUserId orderId body attemptId).request
  | recordPaymentEvent (actorUserId attemptId : Uuid) (body : Orders.RecordPaymentEventRequest)
      (eventId : Uuid) :
      Request ext .recordPaymentEvent
        (Orders.recordPaymentEvent ext.sha256 ext.toVec actorUserId attemptId body eventId).request
  | createTransactionIntent (actorUserId orderId : Uuid)
      (body : Intents.CreateTransactionIntentRequest) (intentId : Uuid) :
      Request ext .createTransactionIntent
        (Intents.createTransactionIntent ext.sha256 actorUserId orderId body intentId).request
  | acceptSignedEnvelope (actorUserId intentId : Uuid) (signedEnvelopeXdr : String)
      (transactionId : Uuid) :
      Request ext .acceptSignedEnvelope
        (Intents.acceptSignedEnvelope ext.sha256 actorUserId intentId signedEnvelopeXdr
          transactionId).request
  | recordSubmissionReceipt (actorUserId intentId : Uuid) (body : SubmissionReceiptRequest) :
      Request ext .recordSubmissionReceipt
        (Reconciliation.recordSubmissionReceipt actorUserId intentId body).request
  | recordChainEvidence (actorUserId intentId : Uuid) (body : ChainEvidenceRequest) (ids : EvidenceIds) :
      Request ext .recordChainEvidence
        (Reconciliation.recordChainEvidence ext actorUserId intentId body ids).request
  | prepareIssuance (orderId : Uuid) (ids : Int → Uuid) :
      Request ext .prepareIssuance (Issuance.prepareIssuance orderId ids).request
  | acceptOwnershipEvidence (issuanceId : Uuid) (body : Issuance.OwnershipEvidenceRequest)
      (evidenceId : Uuid) :
      Request ext .acceptOwnershipEvidence
        (Issuance.acceptOwnershipEvidence issuanceId body evidenceId).request
  | environment (directory : Directory) (catalogue : Catalogue) :
      Request ext .environment (environment directory catalogue).request
  | setSupplyLimit (productId : Uuid) (supplyLimit : Option Int) :
      Request ext .setSupplyLimit (setSupplyLimit productId supplyLimit).request

/-- A request for one of these operations. -/
def Requests (ext : External) (operations : List Operation) (p : Prog Database Row Site Result) : Prop :=
  ∃ operation ∈ operations, Request ext operation p

end CrownFi.Commerce
