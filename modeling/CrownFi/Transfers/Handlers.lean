import CrownFi.Commerce.Requests
import CrownFi.Transfers.Schema

/-!
# CrownFi.Transfers.Handlers

Transfers of tickets (`ticket_transfers.rs`) and the check-in at the door (`ticket_operations.rs`). An
owner asks for a transfer, an organizer reviews it unless the policy of the product is open, a worker
records the transaction that it was submitted with, and the evidence of that transaction makes the
ticket change hands.
-/

namespace CrownFi.Transfers

open Lib CrownFi.Api
open CrownFi.Commerce (Response Result TicketIssuance OwnershipEvidence IssuanceStatus)
open CrownFi.Commerce.Issuance (ownershipViolation)

/-- `map_database_error` of the transfers. -/
def mapDatabaseError : SqlError → ApiError
  | .uniqueViolation => .conflict "ticket_transfer_already_exists"
  | .foreignKeyViolation => .invalidRequest "ticket_transfer_resource_missing"
  | .checkViolation => .invalidRequest "ticket_transfer_constraint_failed"
  | .outOfRange => .database

/-- `require_organization_editor_tx` and `require_organization_operator_tx`. -/
def requireEditor (organizationId userId : Uuid) : Handler PUnit := do
  let allowed ← Tx.select .other (·.shop.directory.organizationEditor organizationId userId)
  Tx.require allowed (.error .forbidden)

/-- `validate_stellar_address`: the shape of an account. -/
def validateStellarAddress (value : String) : Except ApiError String :=
  let value := String.ofList (trimUpper value)
  if isStellarAccount value then .ok value
  else .error (.invalidRequest "invalid_ticket_transfer_address")

/-! ### What is loaded -/

structure TransferIssuanceContext where
  organizationId : Uuid
  ticketEventId : Uuid
  ticketProductId : Uuid
  ownerUserId : Uuid
  ownerStellarAccountId : Uuid
  tokenId : Option String
  issuanceStatus : IssuanceStatus
  acceptedEvidenceId : Option Uuid
  transferPolicy : TransferPolicy
  ownerAddress : String
  deriving DecidableEq, Repr

/-- The ticket joined with its product and the account of its owner. -/
def issuanceContext (issuanceId : Uuid) (db : Database) : Option TransferIssuanceContext := do
  let ti ← issuanceTable.find db issuanceId
  let tp ← db.shop.catalogue.ticketProducts.find? (·.id = ti.ticketProductId)
  let policy ← db.policies.find? (·.ticketProductId = tp.id)
  let sa ← db.shop.directory.stellarAccounts.find? (·.id = ti.ownerStellarAccountId)
  return { organizationId := ti.organizationId, ticketEventId := ti.ticketEventId
           ticketProductId := ti.ticketProductId, ownerUserId := ti.ownerUserId
           ownerStellarAccountId := ti.ownerStellarAccountId, tokenId := ti.tokenId
           issuanceStatus := ti.status, acceptedEvidenceId := ti.acceptedEvidenceId
           transferPolicy := policy.policy, ownerAddress := sa.address }

/-- `load_issuance_context_tx`, `FOR UPDATE OF ti`. -/
def loadIssuanceContext (issuanceId : Uuid) : Handler TransferIssuanceContext := do
  let row ← Tx.selectFor .other
    (fun db => (issuanceContext issuanceId db).toList.map fun _ => ⟨.shop (.issuance issuanceId), .update⟩)
    (issuanceContext issuanceId)
  Tx.orElse row (.error .notFound)

structure TransferContext where
  organizationId : Uuid
  ticketIssuanceId : Uuid
  tokenId : String
  fromUserId : Uuid
  fromStellarAccountId : Uuid
  fromAddress : String
  toUserId : Uuid
  toStellarAccountId : Uuid
  toAddress : String
  policy : TransferPolicy
  status : TransferStatus
  submittedTxHash : Option String
  acceptedEvidenceId : Option Uuid
  deriving DecidableEq, Repr

/-- The transfer joined with the accounts of both parties. -/
def transferContext (transferId : Uuid) (db : Database) : Option TransferContext := do
  let tr ← transferTable.find db transferId
  let sender ← db.shop.directory.stellarAccounts.find? (·.id = tr.fromStellarAccountId)
  let receiver ← db.shop.directory.stellarAccounts.find? (·.id = tr.toStellarAccountId)
  return { organizationId := tr.organizationId, ticketIssuanceId := tr.ticketIssuanceId
           tokenId := tr.tokenId, fromUserId := tr.fromUserId
           fromStellarAccountId := tr.fromStellarAccountId, fromAddress := sender.address
           toUserId := tr.toUserId, toStellarAccountId := tr.toStellarAccountId
           toAddress := receiver.address, policy := tr.policy, status := tr.status
           submittedTxHash := tr.submittedTxHash, acceptedEvidenceId := tr.acceptedEvidenceId }

/-- `load_transfer_context_tx`, `FOR UPDATE OF tr`. -/
def loadTransferContext (transferId : Uuid) : Handler TransferContext := do
  let row ← Tx.selectFor .other
    (fun db => (transferContext transferId db).toList.map fun _ => ⟨.transfer transferId, .update⟩)
    (transferContext transferId)
  Tx.orElse row (.error .notFound)

/-- `load_transfer_tx` and `load_transfer`, of a row that is there. -/
def loadTransfer (transferId : Uuid) : Handler PUnit := do
  let found ← Tx.select .other fun db => (transferTable.find db transferId).isSome
  Tx.require found (.error .notFound)

/-! ### The constraints of transfers -/

/-- The unique keys of `ticket_transfer_requests`: one request for a key of a user, and one active
transfer for a ticket. -/
def TransferRequest.collides (t u : TransferRequest) : Bool :=
  (u.organizationId = t.organizationId && u.fromUserId = t.fromUserId &&
    u.idempotencyKey = t.idempotencyKey) ||
  (u.ticketIssuanceId = t.ticketIssuanceId && u.active && t.active)

/-- The check of the times of a transfer. -/
def TransferRequest.timed (t : TransferRequest) : Bool :=
  match t.status with
  | .requested => t.reviewedAt.isNone && t.submittedAt.isNone && t.confirmedAt.isNone
  | .approved => t.reviewedAt.isSome && t.submittedAt.isNone && t.confirmedAt.isNone
  | .submitted => t.reviewedAt.isSome && t.submittedTxHash.isSome && t.submittedAt.isSome &&
      t.confirmedAt.isNone
  | .confirmed => t.reviewedAt.isSome && t.submittedTxHash.isSome && t.submittedAt.isSome &&
      t.acceptedEvidenceId.isSome && t.confirmedAt.isSome
  | .rejected | .cancelled | .failed => true

def TransferRequest.checked (t : TransferRequest) : Bool :=
  t.policy ≠ .nonTransferable && t.fromStellarAccountId ≠ t.toStellarAccountId &&
    t.fromUserId ≠ t.toUserId && t.timed

def transferViolation (t : TransferRequest) (db : Database) : Option SqlError :=
  if db.transfers.any fun u => u.id = t.id || t.collides u then some .uniqueViolation
  else if t.checked then none
  else some .checkViolation

def insertTransfer (t : TransferRequest) : Handler PUnit :=
  Tx.insertRow .other transferTable
    ([⟨.transfer t.id, .update⟩, ⟨.transferKey t.organizationId t.fromUserId t.idempotencyKey, .update⟩,
        ⟨.shop (.issuance t.ticketIssuanceId), .keyShare⟩] ++
      if t.active then [⟨.activeTransferOf t.ticketIssuanceId, .update⟩] else [])
    (fun db => raise mapDatabaseError (transferViolation t db)) t

/-- The constraints of a changed transfer. -/
def changedTransferViolation (db : Database) (t : TransferRequest) : Option SqlError :=
  if db.transfers.any fun u => u.id ≠ t.id && t.collides u then some .uniqueViolation
  else if t.checked then none
  else some .checkViolation

def updateTransfer (p : TransferRequest → Bool) (f : TransferRequest → TransferRequest) : Handler Nat :=
  Tx.update .other transferTable (fun t => [⟨.transfer t.id, .noKeyUpdate⟩]) p f
    fun db t => raise mapDatabaseError (changedTransferViolation db t)

/-! ### Asking for a transfer -/

structure CreateTransferRequest where
  toAddress : String
  idempotencyKey : String
  reason : String
  deriving DecidableEq, Repr

/-- The request, validated. -/
structure Ask where
  toAddress : String
  idempotencyKey : String
  reason : String
  deriving DecidableEq, Repr

/-- The checks of the request before its transaction. -/
def CreateTransferRequest.validate (body : CreateTransferRequest) : Except ApiError Ask := do
  let toAddress ← validateStellarAddress body.toAddress
  let idempotencyKey ← requiredText body.idempotencyKey 200 "invalid_ticket_transfer_idempotency_key"
  let reason ← requiredText body.reason 1000 "invalid_ticket_transfer_reason"
  return { toAddress, idempotencyKey, reason }

/-- The text of which a request is the hash. -/
def requestText (issuanceId actorUserId : Uuid) (ownerAddress toAddress idempotencyKey : String) : String :=
  "ticket-transfer-v1|" ++ issuanceId.text ++ "|" ++ actorUserId.text ++ "|" ++ ownerAddress ++ "|" ++
    toAddress ++ "|" ++ idempotencyKey

/-- The verified account with this address. -/
def destination (address : String) (db : Database) : Option StellarAccount :=
  db.shop.directory.stellarAccounts.find? fun a =>
    a.network = .testnet && a.address = address && a.verified

/-- The transfer as it is asked for. -/
def newTransfer (transferId issuanceId actorUserId : Uuid) (c : TransferIssuanceContext)
    (receiver : StellarAccount) (tokenId requestSha256 : String) (ask : Ask) (now : Int) :
    TransferRequest :=
  let open_policy := decide (c.transferPolicy = .openPolicy)
  { id := transferId, organizationId := c.organizationId, ticketIssuanceId := issuanceId, tokenId
    fromUserId := actorUserId, fromStellarAccountId := c.ownerStellarAccountId
    toUserId := receiver.userId, toStellarAccountId := receiver.id, policy := c.transferPolicy
    status := if open_policy then .approved else .requested
    idempotencyKey := ask.idempotencyKey, requestSha256, reason := ask.reason
    reviewedByUserId := if open_policy then some actorUserId else none
    reviewReason :=
      if open_policy then some "Automatically approved by the configured open-transfer policy." else none
    submittedTxHash := none, acceptedEvidenceId := none
    reviewedAt := if open_policy then some now else none, submittedAt := none, confirmedAt := none }

def createTransfer (sha256 : Sha256) (actorUserId issuanceId : Uuid) (body : CreateTransferRequest)
    (transferId : Uuid) : Handler Response := do
  let ask ← valid body.validate
  let issuance ← loadIssuanceContext issuanceId
  Tx.require (issuance.ownerUserId = actorUserId) (.error .notFound)
  Tx.require (issuance.issuanceStatus = .issued && issuance.acceptedEvidenceId.isSome)
    (.error (.conflict "ticket_not_transferable_before_issuance"))
  Tx.require (issuance.transferPolicy ≠ .nonTransferable)
    (.error (.conflict "ticket_transfer_not_allowed"))
  let checkedIn ← Tx.select .other fun db => db.checkIns.any (·.ticketIssuanceId = issuanceId)
  Tx.require (!checkedIn) (.error (.conflict "checked_in_ticket_not_transferable"))
  Tx.require (issuance.ownerAddress ≠ ask.toAddress)
    (.error (.invalidRequest "ticket_transfer_owner_unchanged"))
  let receiver ← Tx.select .other (destination ask.toAddress)
  let receiver ← Tx.orElse receiver
    (.error (.invalidRequest "ticket_transfer_destination_not_verified"))
  Tx.require (receiver.userId ≠ actorUserId) (.error (.invalidRequest "ticket_transfer_owner_unchanged"))
  let requestSha256 := hashText sha256
    (requestText issuanceId actorUserId issuance.ownerAddress ask.toAddress ask.idempotencyKey)
  let sameKey (db : Database) := db.transfers.find? fun t =>
    t.organizationId = issuance.organizationId && t.fromUserId = actorUserId &&
      t.idempotencyKey = ask.idempotencyKey
  let existing ← Tx.selectFor .other
    (fun db => (sameKey db).toList.map fun t => ⟨.transfer t.id, .update⟩) sameKey
  match existing with
  | some existing =>
      Tx.require (existing.requestSha256 = requestSha256)
        (.error (.conflict "ticket_transfer_idempotency_conflict"))
      Tx.commit
      return ⟨.ok, existing.id⟩
  | none =>
      let tokenId ← Tx.orElse issuance.tokenId (.error (.conflict "ticket_token_missing"))
      let now ← Tx.select .other (·.shop.directory.clock)
      insertTransfer (newTransfer transferId issuanceId actorUserId issuance receiver tokenId
        requestSha256 ask now)
      loadTransfer transferId
      Tx.commit
      return ⟨.created, transferId⟩

/-! ### Review -/

structure ReviewTransferRequest where
  decision : String
  reason : String
  deriving DecidableEq, Repr

/-- The review, validated. -/
structure Review where
  approve : Bool
  reason : String
  deriving DecidableEq, Repr

def ReviewTransferRequest.validate (body : ReviewTransferRequest) : Except ApiError Review := do
  let decision := String.ofList (trimLower body.decision)
  if decision ≠ "approve" ∧ decision ≠ "reject" then
    throw (.invalidRequest "invalid_ticket_transfer_decision")
  let reason ← requiredText body.reason 1000 "invalid_ticket_transfer_review_reason"
  return { approve := decision = "approve", reason }

def TransferRequest.review (actorUserId : Uuid) (review : Review) (now : Int) (t : TransferRequest) :
    TransferRequest :=
  { t with
    status := if review.approve then .approved else .rejected
    reviewedByUserId := some actorUserId, reviewReason := some review.reason, reviewedAt := some now }

def reviewTransfer (actorUserId transferId : Uuid) (body : ReviewTransferRequest) : Handler Response := do
  let review ← valid body.validate
  let began ← Tx.select .other (·.shop.directory.clock)
  let context ← loadTransferContext transferId
  requireEditor context.organizationId actorUserId
  Tx.require (context.status = .requested && context.policy = .organizerApproved)
    (.error (.conflict "ticket_transfer_not_reviewable"))
  let _ ← updateTransfer (fun t => t.id = transferId && t.status = .requested)
    (·.review actorUserId review began)
  loadTransfer transferId
  Tx.commit
  return ⟨.ok, transferId⟩

/-! ### Submission -/

def TransferRequest.submit (transactionHash : String) (now : Int) (t : TransferRequest) : TransferRequest :=
  { t with status := .submitted, submittedTxHash := some transactionHash, submittedAt := some now }

def recordTransferSubmission (transferId : Uuid) (transactionHash : String) : Handler Response := do
  let transactionHash ← valid (hexString transactionHash 64 "invalid_ticket_transfer_transaction_hash")
  let began ← Tx.select .other (·.shop.directory.clock)
  let context ← loadTransferContext transferId
  if context.status = .submitted then
    Tx.require (context.submittedTxHash = some transactionHash)
      (.error (.conflict "ticket_transfer_submission_conflict"))
    Tx.commit
    loadTransfer transferId
    return ⟨.ok, transferId⟩
  else
    Tx.require (context.status = .approved) (.error (.conflict "ticket_transfer_not_approved"))
    let _ ← updateTransfer (fun t => t.id = transferId && t.status = .approved)
      (·.submit transactionHash began)
    loadTransfer transferId
    Tx.commit
    return ⟨.ok, transferId⟩

/-! ### Evidence -/

structure TransferEvidenceRequest where
  transactionHash : String
  ledgerSequence : Int
  eventReference : String
  tokenId : String
  fromAddress : String
  toAddress : String
  rawEvent : Json

/-- The evidence, validated. -/
structure Observed where
  transactionHash : String
  eventReference : String
  tokenId : String
  fromAddress : String
  toAddress : String
  ledgerSequence : Int
  deriving DecidableEq, Repr

def TransferEvidenceRequest.validate (body : TransferEvidenceRequest) : Except ApiError Observed := do
  let transactionHash ← hexString body.transactionHash 64 "invalid_ticket_transfer_transaction_hash"
  let eventReference ← requiredText body.eventReference 240 "invalid_ticket_transfer_event_reference"
  let tokenId ← requiredText body.tokenId 240 "invalid_ticket_token_id"
  let fromAddress ← validateStellarAddress body.fromAddress
  let toAddress ← validateStellarAddress body.toAddress
  if body.ledgerSequence ≤ 0 ∨ body.rawEvent.isObject = false then
    throw (.invalidRequest "invalid_ticket_transfer_evidence")
  return { transactionHash, eventReference, tokenId, fromAddress, toAddress
           ledgerSequence := body.ledgerSequence }

/-- The evidence as it is recorded. -/
def evidenceRow (c : TransferContext) (o : Observed) (evidenceId : Uuid) : OwnershipEvidence where
  id := evidenceId
  organizationId := c.organizationId
  ticketIssuanceId := c.ticketIssuanceId
  ownerStellarAccountId := c.toStellarAccountId
  tokenId := o.tokenId
  transactionHash := o.transactionHash
  ledgerSequence := o.ledgerSequence
  contractEventId := o.eventReference

/-- The ticket in the hands of who it was transferred to. -/
def hand (c : TransferContext) (evidenceId : Uuid) (i : TicketIssuance) : TicketIssuance :=
  { i with ownerUserId := c.toUserId, ownerStellarAccountId := c.toStellarAccountId
           acceptedEvidenceId := some evidenceId, status := .issued }

def TransferRequest.confirm (evidenceId : Uuid) (now : Int) (t : TransferRequest) : TransferRequest :=
  { t with status := .confirmed, acceptedEvidenceId := some evidenceId, confirmedAt := some now }

def acceptTransferEvidence (transferId : Uuid) (body : TransferEvidenceRequest) (evidenceId : Uuid) :
    Handler Response := do
  let observed ← valid body.validate
  let context ← loadTransferContext transferId
  if context.status = .confirmed then
    Tx.commit
    loadTransfer transferId
    return ⟨.ok, transferId⟩
  else
    Tx.require (context.status = .submitted && context.submittedTxHash = some observed.transactionHash)
      (.error (.conflict "ticket_transfer_not_submitted"))
    Tx.require (context.tokenId = observed.tokenId && context.fromAddress = observed.fromAddress &&
        context.toAddress = observed.toAddress) (.error (.conflict "ticket_transfer_evidence_mismatch"))
    let issuance ← loadIssuanceContext context.ticketIssuanceId
    Tx.require (issuance.ownerStellarAccountId = context.fromStellarAccountId &&
        issuance.ownerUserId = context.fromUserId && issuance.tokenId = some observed.tokenId)
      (.error (.conflict "ticket_transfer_source_owner_drift"))
    let acceptedAt ← Tx.select .other (·.shop.directory.clock)
    Tx.insertRow .other ownershipTable
      [⟨.shop (.ownership evidenceId), .update⟩, ⟨.shop (.contractEvent observed.eventReference), .update⟩,
        ⟨.shop (.issuance context.ticketIssuanceId), .keyShare⟩]
      (fun db => raise mapDatabaseError
        (ownershipViolation (evidenceRow context observed evidenceId) db.shop))
      (evidenceRow context observed evidenceId)
    let _ ← Tx.update .other issuanceTable (fun i => [⟨.shop (.issuance i.id), .noKeyUpdate⟩])
      (·.id = context.ticketIssuanceId) (hand context evidenceId) fun _ _ => none
    let _ ← updateTransfer (·.id = transferId) (·.confirm evidenceId acceptedAt)
    loadTransfer transferId
    Tx.commit
    return ⟨.created, transferId⟩

/-! ### Check-in -/

structure CheckInRequest where
  nonce : String
  deviceReference : Option String
  metadata : Json

/-- The request, validated. -/
structure Entry where
  nonce : String
  deviceReference : Option String
  deriving DecidableEq, Repr

def CheckInRequest.validate (body : CheckInRequest) : Except ApiError Entry := do
  let nonce ← requiredText body.nonce 500 "invalid_ticket_check_in_nonce"
  let deviceReference ← optional (requiredText · 240 "invalid_ticket_check_in_device") body.deviceReference
  if body.metadata.isObject = false then throw (.invalidRequest "invalid_ticket_check_in_metadata")
  return { nonce, deviceReference }

def nonceText (issuanceId : Uuid) (nonce : String) : String :=
  "crownfi-ticket-check-in-v1|" ++ issuanceId.text ++ "|" ++ nonce

/-- The unique keys of `ticket_check_ins`. -/
def checkInViolation (c : CheckIn) (db : Database) : Option SqlError :=
  if db.checkIns.any fun k => k.id = c.id || k.ticketIssuanceId = c.ticketIssuanceId ||
      k.checkInNonceHash = c.checkInNonceHash then
    some .uniqueViolation
  else none

def checkInTicket (sha256 : Sha256) (actorUserId issuanceId : Uuid) (body : CheckInRequest)
    (checkInId : Uuid) : Handler Response := do
  let entry ← valid body.validate
  let nonceHash := hashText sha256 (nonceText issuanceId entry.nonce)
  let row ← Tx.selectFor .other
    (fun db => (issuanceTable.find db issuanceId).toList.map fun i => ⟨.shop (.issuance i.id), .update⟩)
    (issuanceTable.find · issuanceId)
  let issuance ← Tx.orElse row (.error .notFound)
  requireEditor issuance.organizationId actorUserId
  Tx.require (issuance.status = .issued && issuance.acceptedEvidenceId.isSome)
    (.error (.conflict "ticket_not_issued"))
  let eventValid ← Tx.select .other fun db => db.shop.catalogue.ticketEvents.any fun te =>
    te.id = issuance.ticketEventId && te.status ≠ .cancelled && te.status ≠ .archived
  Tx.require eventValid (.error (.conflict "ticket_event_not_check_in_ready"))
  let checkedIn (db : Database) := db.checkIns.find? (·.ticketIssuanceId = issuanceId)
  let existing ← Tx.selectFor .other
    (fun db => (checkedIn db).toList.map fun c => ⟨.checkIn c.id, .update⟩) checkedIn
  match existing with
  | some existing =>
      Tx.exit (.error (.conflict (if existing.checkedInByUserId = actorUserId then
        "ticket_already_checked_in" else "ticket_check_in_replay")))
  | none =>
      let checkIn : CheckIn :=
        { id := checkInId, ticketIssuanceId := issuanceId, ticketEventId := issuance.ticketEventId
          checkedInByUserId := actorUserId, checkInNonceHash := nonceHash
          deviceReference := entry.deviceReference }
      Tx.insertRow .other checkInTable
        [⟨.checkIn checkInId, .update⟩, ⟨.checkInOf issuanceId, .update⟩, ⟨.nonce nonceHash, .update⟩,
          ⟨.shop (.issuance issuanceId), .keyShare⟩]
        (fun db => raise Commerce.Issuance.mapDatabaseError (checkInViolation checkIn db)) checkIn
      Tx.commit
      return ⟨.created, checkInId⟩

/-! ### Verification -/

structure TicketOwnershipView where
  issuanceId : Uuid
  organizationId : Uuid
  ticketEventId : Uuid
  ticketProductId : Uuid
  tokenId : String
  ownerAddress : String
  transactionHash : String
  ledgerSequence : Int
  contractEventId : String
  issuanceStatus : IssuanceStatus
  serialNumber : Int
  deriving DecidableEq, Repr

/-- The evidence of a token joined with the issued ticket that points at it and with the account of
the owner. -/
def ownershipViews (tokenId : String) (db : Database) : List TicketOwnershipView :=
  (db.shop.ownership.filter (·.tokenId = tokenId)).flatMap fun toe =>
    (db.shop.issuances.filter fun ti => ti.id = toe.ticketIssuanceId &&
        ti.acceptedEvidenceId = some toe.id && ti.status = .issued).flatMap fun ti =>
      (db.shop.directory.stellarAccounts.filter (·.id = toe.ownerStellarAccountId)).map fun sa =>
        { issuanceId := ti.id, organizationId := ti.organizationId, ticketEventId := ti.ticketEventId
          ticketProductId := ti.ticketProductId, tokenId := toe.tokenId, ownerAddress := sa.address
          transactionHash := toe.transactionHash, ledgerSequence := toe.ledgerSequence
          contractEventId := toe.contractEventId, issuanceStatus := ti.status
          serialNumber := ti.serialNumber }

def verifyTicketOwnership (tokenId : String) (db : Database) : Except ApiError TicketOwnershipView := do
  let tokenId ← requiredText tokenId 240 "invalid_ticket_token_id"
  okOr (ownershipViews tokenId db).head? .notFound

/-! ### Requests -/

/-- The policies of the ticket products may change at any time. -/
def setPolicies (policies : List PolicyOfProduct) : Handler Response := do
  Tx.write .other (fun _ => []) fun db => { db with policies }
  Tx.commit
  return ⟨.ok, 0⟩

/-- The requests of the shop, those on transfers, and check-ins. -/
inductive Requests (ext : Commerce.Reconciliation.External) : Prog Database Row Site Result → Prop
  | shop {operation : Commerce.Operation} {p : Prog Commerce.Database Commerce.Row Commerce.Site Result}
      (h : Commerce.Request ext operation p) : Requests ext (p.within shopView .shop .shop)
  | createTransfer (actorUserId issuanceId : Uuid) (body : CreateTransferRequest) (transferId : Uuid) :
      Requests ext (createTransfer ext.sha256 actorUserId issuanceId body transferId).request
  | reviewTransfer (actorUserId transferId : Uuid) (body : ReviewTransferRequest) :
      Requests ext (reviewTransfer actorUserId transferId body).request
  | recordTransferSubmission (transferId : Uuid) (transactionHash : String) :
      Requests ext (recordTransferSubmission transferId transactionHash).request
  | acceptTransferEvidence (transferId : Uuid) (body : TransferEvidenceRequest) (evidenceId : Uuid) :
      Requests ext (acceptTransferEvidence transferId body evidenceId).request
  | checkInTicket (actorUserId issuanceId : Uuid) (body : CheckInRequest) (checkInId : Uuid) :
      Requests ext (checkInTicket ext.sha256 actorUserId issuanceId body checkInId).request
  | setPolicies (policies : List PolicyOfProduct) : Requests ext (setPolicies policies).request

end CrownFi.Transfers
