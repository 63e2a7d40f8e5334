import CrownFi.Commerce.Reconciliation

/-!
# CrownFi.Commerce.Issuance

Tickets for paid orders (`ticket_operations.rs`): the worker prepares one issuance for
each ticket of an order, and accepts the evidence of its mint. These requests move an
order on from `paid`.
-/

namespace CrownFi.Commerce.Issuance

open Lib CrownFi.Api Orders

/-- `map_database_error`. -/
def mapDatabaseError : SqlError → ApiError
  | .uniqueViolation => .conflict "ticket_operation_already_applied"
  | .foreignKeyViolation => .invalidRequest "ticket_operation_resource_missing"
  | .checkViolation => .invalidRequest "ticket_operation_constraint_failed"
  | .outOfRange => .database

/-! ### Preparing the issuances of an order -/

structure PaidOrderContext where
  organizationId : Uuid
  buyerUserId : Uuid
  orderStatus : OrderStatus
  reservationId : Uuid
  reservationStatus : ReservationStatus
  ticketProductId : Uuid
  ticketEventId : Uuid
  productId : Uuid
  quantity : Int
  deriving DecidableEq, Repr

/-- The order joined with its reservation and the ticket product. -/
def paidOrderContext (orderId : Uuid) (db : Database) : Option PaidOrderContext := do
  let o ← orderTable.find db orderId
  let tr ← db.reservations.find? (·.orderId = o.id)
  let tp ← db.catalogue.ticketProducts.find? (·.id = tr.ticketProductId)
  return { organizationId := o.organizationId, buyerUserId := o.buyerUserId, orderStatus := o.status
           reservationId := tr.id, reservationStatus := tr.status
           ticketProductId := tr.ticketProductId, ticketEventId := tp.ticketEventId
           productId := tp.productId, quantity := tr.quantity }

/-- The rows that a context is read from. -/
theorem paidOrderContext_eq {orderId : Uuid} {db : Database} {c : PaidOrderContext}
    (hids : (db.reservations.map (·.id)).Nodup) (h : paidOrderContext orderId db = some c) :
    ∃ o r tp, orderTable.find db orderId = some o ∧
      reservationTable.find db c.reservationId = some r ∧ r.orderId = orderId ∧
      db.catalogue.ticketProducts.find? (·.id = r.ticketProductId) = some tp ∧
      c = { organizationId := o.organizationId, buyerUserId := o.buyerUserId, orderStatus := o.status
            reservationId := r.id, reservationStatus := r.status
            ticketProductId := r.ticketProductId, ticketEventId := tp.ticketEventId
            productId := tp.productId, quantity := r.quantity } := by
  simp only [paidOrderContext, Option.bind_eq_bind, Option.bind_eq_some_iff] at h
  obtain ⟨o, ho, r, hr, tp, htp, heq⟩ := h
  obtain rfl := Option.some.inj heq
  have horder : r.orderId = o.id := by simpa using List.find?_some hr
  refine ⟨o, r, tp, ho, ?_, horder.trans (orderTable.find_mem ho).2, htp, ?_⟩
  · exact reservationTable.find_of_mem hids (List.mem_of_find?_eq_some hr)
  · rfl

/-- `FOR UPDATE OF o, tr, tp`. -/
def PaidOrderContext.locks (c : PaidOrderContext) (orderId : Uuid) : List (Lock Row) :=
  [⟨.order orderId, .update⟩, ⟨.reservation c.reservationId, .update⟩,
    ⟨.ticketProduct c.ticketProductId, .update⟩]

/-- `load_issuances_tx_required`. -/
def issuancesOf (orderId : Uuid) (db : Database) : List TicketIssuance :=
  (db.issuances.filter (·.orderId = orderId)).insertionSort fun i j =>
    i.serialNumber < j.serialNumber ∨ (i.serialNumber = j.serialNumber ∧ i.id.toNat ≤ j.id.toNat)

/-- An intent of the order has an accepted reconciliation result. -/
def acceptedPayment (orderId : Uuid) (db : Database) : Bool :=
  db.intents.any fun ti => ti.orderId = orderId &&
    db.results.any fun rr => rr.transactionIntentId = ti.id && rr.status = .accepted

/-- `COALESCE(MAX(serial_number), 0)` over the issuances of an event. -/
def currentSerial (ticketEventId : Uuid) (db : Database) : Int :=
  ((db.issuances.filter (·.ticketEventId = ticketEventId)).map (·.serialNumber)).max?.getD 0

/-- The constraints of `ticket_issuances` on a row that is not minted yet. -/
def issuanceViolation (i : TicketIssuance) (db : Database) : Option SqlError :=
  if db.issuances.any fun j => j.id = i.id ||
      (j.ticketEventId = i.ticketEventId && j.serialNumber = i.serialNumber) then
    some .uniqueViolation
  else if i.serialNumber ≤ 0 then some .checkViolation
  else none

def insertIssuance (i : TicketIssuance) : Handler PUnit :=
  Tx.insertRow .other issuanceTable
    [⟨.issuance i.id, .update⟩, ⟨.serial i.ticketEventId i.serialNumber, .update⟩,
      ⟨.order i.orderId, .keyShare⟩, ⟨.ticketEvent i.ticketEventId, .keyShare⟩,
      ⟨.ticketProduct i.ticketProductId, .keyShare⟩]
    (fun db => raise mapDatabaseError (issuanceViolation i db)) i

/-- The loop over `offset ..= offset + count - 1`. `ids` are the ids drawn. -/
def insertIssuances (context : PaidOrderContext) (orderId ownerStellarAccountId : Uuid)
    (currentSerial : Int) (ids : Int → Uuid) (offset : Int) : Nat → Handler PUnit
  | 0 => pure ⟨⟩
  | count + 1 => do
      let serialNumber ← Tx.orElse (checkedI64 (currentSerial + offset))
        (.error (.invalidRequest "ticket_serial_overflow"))
      insertIssuance
        { id := ids offset, organizationId := context.organizationId
          ticketEventId := context.ticketEventId, ticketProductId := context.ticketProductId
          orderId, ownerUserId := context.buyerUserId, ownerStellarAccountId, serialNumber
          status := .pending, tokenId := none, issuanceTxHash := none, acceptedEvidenceId := none }
      insertIssuances context orderId ownerStellarAccountId currentSerial ids (offset + 1) count

/-- An update of an order's status. -/
def moveOrder (orderId : Uuid) (source target : OrderStatus) : Handler Nat :=
  Tx.update .other orderTable (fun o => [⟨.order o.id, .noKeyUpdate⟩])
    (fun o => o.id = orderId && o.status = source) ({ · with status := target }) fun _ _ => none

def prepareIssuance (orderId : Uuid) (ids : Int → Uuid) : Handler Response := do
  let row ← Tx.selectFor .other
    (fun db => ((paidOrderContext orderId db).map (·.locks orderId)).getD [])
    (paidOrderContext orderId)
  let context ← Tx.orElse row (.error .notFound)
  let existing ← Tx.select .other (issuancesOf orderId)
  if existing.isEmpty then
    Tx.require (context.orderStatus = .paid && context.reservationStatus = .reserved)
      (.error (.conflict "ticket_order_not_ready_for_issuance"))
    let accepted ← Tx.select .other (acceptedPayment orderId)
    Tx.require accepted (.error (.conflict "ticket_payment_evidence_missing"))
    let owner ← Tx.select .other (·.directory.ownerAccount context.buyerUserId)
    let owner ← Tx.orElse owner (.error (.conflict "ticket_owner_wallet_missing"))
    let _ ← Tx.selectFor .other
      (fun db => (db.catalogue.ticketEvents.filter (·.id = context.ticketEventId)).map fun te =>
        ⟨.ticketEvent te.id, .update⟩) fun _ => PUnit.unit
    let serial ← Tx.select .other (currentSerial context.ticketEventId)
    insertIssuances context orderId owner.id serial ids 1 context.quantity.toNat
    let updated ← Ticketing.updateInventory mapDatabaseError context.productId
      (fun i => context.quantity ≤ i.reservedQuantity) fun i =>
        { i with reservedQuantity := i.reservedQuantity - context.quantity
                 fulfilledQuantity := i.fulfilledQuantity + context.quantity }
    Tx.require (updated = 1) (.error (.conflict "ticket_inventory_projection_drift"))
    let _ ← Tx.update .other reservationTable (fun r => [⟨.reservation r.id, .noKeyUpdate⟩])
      (fun r => r.id = context.reservationId && r.status = .reserved) ({ · with status := .converted })
      fun _ _ => none
    let _ ← moveOrder orderId .paid .fulfilling
    Tx.commit
    return ⟨.created, orderId⟩
  else
    Tx.commit
    return ⟨.ok, orderId⟩

/-! ### Accepting the evidence of a mint -/

structure OwnershipEvidenceRequest where
  tokenId : String
  transactionHash : String
  ledgerSequence : Int
  contractEventId : String
  ownerAddress : String
  evidence : Json

/-- The evidence, validated. -/
structure OwnershipClaim where
  tokenId : String
  transactionHash : String
  contractEventId : String
  ownerAddress : String
  ledgerSequence : Int
  deriving DecidableEq, Repr

/-- `validate_stellar_address`: the shape of an account. -/
def validateStellarAddress (value : String) : Except ApiError String :=
  let value := String.ofList (trimUpper value)
  if isStellarAccount value then .ok value else .error (.invalidRequest "invalid_ticket_owner_address")

/-- The checks of the request before its transaction. -/
def OwnershipEvidenceRequest.validate (body : OwnershipEvidenceRequest) : Except ApiError OwnershipClaim := do
  let tokenId ← requiredText body.tokenId 240 "invalid_ticket_token_id"
  let transactionHash ← hexString body.transactionHash 64 "invalid_ticket_transaction_hash"
  let contractEventId ← requiredText body.contractEventId 240 "invalid_ticket_contract_event_id"
  let ownerAddress ← validateStellarAddress body.ownerAddress
  if body.ledgerSequence ≤ 0 ∨ body.evidence.isObject = false then
    throw (.invalidRequest "invalid_ticket_ownership_evidence")
  return { tokenId, transactionHash, contractEventId, ownerAddress, ledgerSequence := body.ledgerSequence }

/-- `load_ownership_tx`: the evidence that the issuance points at. -/
def loadOwnership (issuanceId : Uuid) (db : Database) : Option OwnershipEvidence := do
  let ti ← issuanceTable.find db issuanceId
  let toe ← db.ownership.find? fun e => e.ticketIssuanceId = ti.id && ti.acceptedEvidenceId = some e.id
  let _ ← db.directory.stellarAccounts.find? (·.id = toe.ownerStellarAccountId)
  return toe

/-- The unique keys of `ticket_ownership_evidence`. -/
def ownershipViolation (e : OwnershipEvidence) (db : Database) : Option SqlError :=
  if db.ownership.any fun f => f.id = e.id || f.contractEventId = e.contractEventId then
    some .uniqueViolation
  else none

/-- The unique keys of `ticket_issuances` that a mint sets. -/
def mintViolation (i : TicketIssuance) (db : Database) : Option SqlError :=
  if db.issuances.any fun j => j.id ≠ i.id &&
      (j.tokenId.isSome && j.tokenId = i.tokenId ||
        j.issuanceTxHash.isSome && j.issuanceTxHash = i.issuanceTxHash) then
    some .uniqueViolation
  else none

/-- The issuances of an order that are not issued. -/
def remainingIssuances (orderId : Uuid) (db : Database) : Nat :=
  (db.issuances.filter fun i => i.orderId = orderId && i.status ≠ .issued).length

def acceptOwnershipEvidence (issuanceId : Uuid) (body : OwnershipEvidenceRequest) (evidenceId : Uuid) :
    Handler Response := do
  let mint ← valid body.validate
  let row ← Tx.selectFor .other
    (fun db => (issuanceTable.find db issuanceId).toList.map fun i => ⟨.issuance i.id, .update⟩)
    (issuanceTable.find · issuanceId)
  let issuance ← Tx.orElse row (.error .notFound)
  let existing ← Tx.select .other (loadOwnership issuanceId)
  match existing with
  | some existing =>
      Tx.require (existing.tokenId = mint.tokenId && existing.transactionHash = mint.transactionHash)
        (.error (.conflict "ticket_ownership_evidence_conflict"))
      Tx.commit
      return ⟨.ok, issuanceId⟩
  | none =>
      Tx.require (issuance.status = .pending || issuance.status = .submitted)
        (.error (.conflict "ticket_issuance_not_evidence_ready"))
      let owner ← Tx.select .other fun db => db.directory.stellarAccounts.find? fun a =>
        a.id = issuance.ownerStellarAccountId && a.network = .testnet && a.verified
      let owner ← Tx.orElse owner (.error (.conflict "ticket_owner_wallet_missing"))
      Tx.require (owner.address = mint.ownerAddress)
        (.error (.conflict "ticket_ownership_owner_mismatch"))
      let evidence : OwnershipEvidence :=
        { id := evidenceId, organizationId := issuance.organizationId, ticketIssuanceId := issuanceId
          ownerStellarAccountId := issuance.ownerStellarAccountId, tokenId := mint.tokenId
          transactionHash := mint.transactionHash, ledgerSequence := mint.ledgerSequence
          contractEventId := mint.contractEventId }
      Tx.insertRow .other ownershipTable
        [⟨.ownership evidenceId, .update⟩, ⟨.contractEvent mint.contractEventId, .update⟩,
          ⟨.issuance issuanceId, .keyShare⟩]
        (fun db => raise mapDatabaseError (ownershipViolation evidence db)) evidence
      let _ ← Tx.update .other issuanceTable
        (fun i => [⟨.issuance i.id, .noKeyUpdate⟩, ⟨.token mint.tokenId, .update⟩,
          ⟨.issuanceTx mint.transactionHash, .update⟩])
        (·.id = issuanceId) (fun i =>
          { i with status := .issued, tokenId := some mint.tokenId
                   issuanceTxHash := some mint.transactionHash, acceptedEvidenceId := some evidenceId })
        fun db i => raise mapDatabaseError (mintViolation i db)
      let remaining ← Tx.select (.counting issuance.orderId) (remainingIssuances issuance.orderId)
      let _ ← if remaining = 0 then moveOrder issuance.orderId .fulfilling .fulfilled else pure 0
      let view ← Tx.select .other (loadOwnership issuanceId)
      Tx.require view.isSome (.error .notFound)
      Tx.commit
      return ⟨.created, issuanceId⟩

end CrownFi.Commerce.Issuance
