import CrownFi.Api.Directory
import CrownFi.Lib.Statements

/-!
# CrownFi.Commerce.Schema

The tables of the shop: catalogue and inventory, orders and ticket reservations,
payment attempts and provider events, Stellar intents, transactions, evidence and
reconciliation results, and ticket issuances. Columns that no modelled handler
reads (audit rows, bookkeeping timestamps, raw JSON) are left out.
-/

namespace CrownFi.Commerce

open Lib CrownFi.Api

inductive Environment
  | «local»
  | testnet
  | staging
  | production
  deriving DecidableEq, Repr

def Environment.text : Environment → String
  | .local => "local"
  | .testnet => "testnet"
  | .staging => "staging"
  | .production => "production"

/-- What an amount is counted in. -/
structure Asset where
  code : String
  scale : Int
  issuer : Option String
  deriving DecidableEq, Repr

/-! ### The catalogue -/

inductive ProductStatus
  | draft
  | published
  | archived
  deriving DecidableEq, Repr

structure Product where
  id : Uuid
  organizationId : Uuid
  name : String
  status : ProductStatus
  deriving DecidableEq, Repr

structure ProductPrice where
  id : Uuid
  productId : Uuid
  amountMinor : Int
  asset : Asset
  isActive : Bool
  startsAt : Option Int
  endsAt : Option Int
  deriving DecidableEq, Repr

inductive EventStatus
  | draft
  | onSale
  | offSale
  | completed
  | cancelled
  | archived
  deriving DecidableEq, Repr

structure TicketEvent where
  id : Uuid
  organizationId : Uuid
  pageantId : Uuid
  status : EventStatus
  deriving DecidableEq, Repr

structure TicketProduct where
  id : Uuid
  ticketEventId : Uuid
  productId : Uuid
  perUserLimit : Int
  saleStartsAt : Int
  saleEndsAt : Int
  deriving DecidableEq, Repr

/-- The tables that the modelled requests only read. -/
structure Catalogue where
  products : List Product
  prices : List ProductPrice
  ticketEvents : List TicketEvent
  ticketProducts : List TicketProduct
  deriving DecidableEq, Repr

structure Inventory where
  productId : Uuid
  supplyLimit : Option Int
  reservedQuantity : Int
  fulfilledQuantity : Int
  deriving DecidableEq, Repr

/-! ### Orders and reservations -/

inductive OrderStatus
  | created
  | awaitingPayment
  | paid
  | fulfilling
  | fulfilled
  | failed
  | expired
  | refunded
  deriving DecidableEq, Repr

structure Order where
  id : Uuid
  organizationId : Uuid
  buyerUserId : Uuid
  status : OrderStatus
  environment : Environment
  idempotencyKey : String
  requestSha256 : String
  amountMinor : Int
  asset : Asset
  expiresAt : Option Int
  deriving DecidableEq, Repr

structure OrderItem where
  id : Uuid
  orderId : Uuid
  productId : Uuid
  productName : String
  quantity : Int
  unitAmountMinor : Int
  totalAmountMinor : Int
  asset : Asset
  deriving DecidableEq, Repr

inductive ReservationStatus
  | reserved
  | converted
  | released
  | expired
  | cancelled
  deriving DecidableEq, Repr

structure Reservation where
  id : Uuid
  organizationId : Uuid
  ticketProductId : Uuid
  orderId : Uuid
  buyerUserId : Uuid
  quantity : Int
  status : ReservationStatus
  idempotencyKey : String
  requestSha256 : String
  expiresAt : Int
  deriving DecidableEq, Repr

/-! ### Payments -/

inductive AttemptStatus
  | created
  | awaitingConfirmation
  | confirmed
  | failed
  | expired
  deriving DecidableEq, Repr

structure PaymentAttempt where
  id : Uuid
  orderId : Uuid
  provider : String
  providerReference : Option String
  payerAccount : Option String
  expectedAmountMinor : Int
  asset : Asset
  environment : Environment
  status : AttemptStatus
  failureCode : Option String
  deriving DecidableEq, Repr

inductive Outcome
  | confirmed
  | failed
  deriving DecidableEq, Repr

inductive ProcessingStatus
  | processed
  | rejected
  deriving DecidableEq, Repr

structure ProviderEvent where
  id : Uuid
  paymentAttemptId : Uuid
  provider : String
  providerEventId : String
  payloadSha256 : String
  outcome : Outcome
  amountMinor : Int
  asset : Asset
  payerAccount : Option String
  environment : Environment
  processingStatus : ProcessingStatus
  reconciliationError : Option String
  deriving DecidableEq, Repr

/-! ### The chain -/

inductive IntentStatus
  | built
  | awaitingSignature
  | signed
  | submitted
  | confirmed
  | failed
  | expired
  deriving DecidableEq, Repr

structure TransactionIntent where
  id : Uuid
  organizationId : Uuid
  orderId : Uuid
  paymentAttemptId : Uuid
  createdByUserId : Uuid
  sourceAccount : String
  destinationAccount : String
  transactionSequence : Int
  baseFee : Nat
  amountMinor : Int
  asset : Asset
  memoText : String
  idempotencyKey : String
  requestSha256 : String
  transactionBodySha256 : String
  unsignedEnvelopeSha256 : String
  unsignedEnvelopeXdr : String
  status : IntentStatus
  expiresAt : Int
  failureCode : Option String
  deriving DecidableEq, Repr

inductive TransactionStatus
  | signed
  | submitted
  | confirmed
  | failed
  deriving DecidableEq, Repr

structure StellarTransaction where
  id : Uuid
  transactionIntentId : Uuid
  envelopeSha256 : String
  signedEnvelopeXdr : String
  transactionHash : String
  status : TransactionStatus
  horizonStatusCode : Option Int
  failureCode : Option String
  deriving DecidableEq, Repr

structure ChainEvidence where
  id : Uuid
  transactionIntentId : Uuid
  stellarTransactionId : Uuid
  transactionHash : String
  ledgerSequence : Int
  operationIndex : Int
  pagingToken : String
  sourceAccount : String
  destinationAccount : String
  amountMinor : Int
  asset : Asset
  memoText : String
  transactionSuccessful : Bool
  closedAt : Int
  evidenceSha256 : String
  deriving DecidableEq, Repr

inductive ResultStatus
  | accepted
  | rejected
  deriving DecidableEq, Repr

structure ReconciliationResult where
  id : Uuid
  transactionIntentId : Uuid
  chainEvidenceId : Uuid
  status : ResultStatus
  failureCode : Option String
  reconciledByUserId : Uuid
  reconciledAt : Int
  deriving DecidableEq, Repr

structure ChainCursor where
  consumerName : String
  cursorValue : String
  ledgerSequence : Int
  deriving DecidableEq, Repr

/-! ### Tickets -/

inductive IssuanceStatus
  | pending
  | submitted
  | issued
  | transferred
  | revoked
  | failed
  deriving DecidableEq, Repr

structure TicketIssuance where
  id : Uuid
  organizationId : Uuid
  ticketEventId : Uuid
  ticketProductId : Uuid
  orderId : Uuid
  ownerUserId : Uuid
  ownerStellarAccountId : Uuid
  serialNumber : Int
  status : IssuanceStatus
  tokenId : Option String
  issuanceTxHash : Option String
  acceptedEvidenceId : Option Uuid
  deriving DecidableEq, Repr

structure OwnershipEvidence where
  id : Uuid
  organizationId : Uuid
  ticketIssuanceId : Uuid
  ownerStellarAccountId : Uuid
  tokenId : String
  transactionHash : String
  ledgerSequence : Int
  contractEventId : String
  deriving DecidableEq, Repr

/-! ### The database -/

structure Database where
  directory : Directory
  catalogue : Catalogue
  inventory : List Inventory
  orders : List Order
  orderItems : List OrderItem
  reservations : List Reservation
  attempts : List PaymentAttempt
  events : List ProviderEvent
  intents : List TransactionIntent
  transactions : List StellarTransaction
  evidence : List ChainEvidence
  results : List ReconciliationResult
  cursors : List ChainCursor
  issuances : List TicketIssuance
  ownership : List OwnershipEvidence
  deriving DecidableEq, Repr

/-- What a statement can lock: a row, or a value of a unique key. -/
inductive Row
  | product (id : Uuid)
  | price (id : Uuid)
  | ticketEvent (id : Uuid)
  | ticketProduct (id : Uuid)
  | inventory (productId : Uuid)
  | order (id : Uuid)
  | orderKey (organizationId : Uuid) (idempotencyKey : String)
  | orderItem (orderId productId : Uuid)
  | reservation (id : Uuid)
  | reservationOf (orderId : Uuid)
  | reservationKey (organizationId buyerUserId : Uuid) (idempotencyKey : String)
  | attempt (id : Uuid)
  | activeAttemptOf (orderId : Uuid)
  | providerReference (provider reference : String)
  | event (id : Uuid)
  | providerEvent (provider eventId : String)
  | intent (id : Uuid)
  | intentKey (organizationId : Uuid) (idempotencyKey : String)
  | activeIntentOf (paymentAttemptId : Uuid)
  | transaction (id : Uuid)
  | transactionOf (transactionIntentId : Uuid)
  | envelope (sha256 : String)
  | transactionHash (hash : String)
  | evidence (id : Uuid)
  | operation (transactionHash : String) (operationIndex : Int)
  | result (id : Uuid)
  | acceptedResultOf (transactionIntentId : Uuid)
  | resultOf (chainEvidenceId : Uuid)
  | cursor (consumerName : String)
  | issuance (id : Uuid)
  | serial (ticketEventId : Uuid) (serialNumber : Int)
  | token (tokenId : String)
  | issuanceTx (hash : String)
  | ownership (id : Uuid)
  | contractEvent (id : String)
  deriving DecidableEq, Repr

/-! ### The tables that requests write -/

def inventoryTable : Table Database Row Uuid Inventory where
  rows := Database.inventory
  put db inventory := { db with inventory }
  key := Inventory.productId
  row := .inventory
  rows_put _ _ := rfl

def orderTable : Table Database Row Uuid Order where
  rows := Database.orders
  put db orders := { db with orders }
  key := Order.id
  row := .order
  rows_put _ _ := rfl

def orderItemTable : Table Database Row (Uuid × Uuid) OrderItem where
  rows := Database.orderItems
  put db orderItems := { db with orderItems }
  key i := (i.orderId, i.productId)
  row k := .orderItem k.1 k.2
  rows_put _ _ := rfl

def reservationTable : Table Database Row Uuid Reservation where
  rows := Database.reservations
  put db reservations := { db with reservations }
  key := Reservation.id
  row := .reservation
  rows_put _ _ := rfl

def attemptTable : Table Database Row Uuid PaymentAttempt where
  rows := Database.attempts
  put db attempts := { db with attempts }
  key := PaymentAttempt.id
  row := .attempt
  rows_put _ _ := rfl

def eventTable : Table Database Row Uuid ProviderEvent where
  rows := Database.events
  put db events := { db with events }
  key := ProviderEvent.id
  row := .event
  rows_put _ _ := rfl

def intentTable : Table Database Row Uuid TransactionIntent where
  rows := Database.intents
  put db intents := { db with intents }
  key := TransactionIntent.id
  row := .intent
  rows_put _ _ := rfl

def transactionTable : Table Database Row Uuid StellarTransaction where
  rows := Database.transactions
  put db transactions := { db with transactions }
  key := StellarTransaction.id
  row := .transaction
  rows_put _ _ := rfl

def evidenceTable : Table Database Row Uuid ChainEvidence where
  rows := Database.evidence
  put db evidence := { db with evidence }
  key := ChainEvidence.id
  row := .evidence
  rows_put _ _ := rfl

def resultTable : Table Database Row Uuid ReconciliationResult where
  rows := Database.results
  put db results := { db with results }
  key := ReconciliationResult.id
  row := .result
  rows_put _ _ := rfl

def cursorTable : Table Database Row String ChainCursor where
  rows := Database.cursors
  put db cursors := { db with cursors }
  key := ChainCursor.consumerName
  row := .cursor
  rows_put _ _ := rfl

def issuanceTable : Table Database Row Uuid TicketIssuance where
  rows := Database.issuances
  put db issuances := { db with issuances }
  key := TicketIssuance.id
  row := .issuance
  rows_put _ _ := rfl

def ownershipTable : Table Database Row Uuid OwnershipEvidence where
  rows := Database.ownership
  put db ownership := { db with ownership }
  key := OwnershipEvidence.id
  row := .ownership
  rows_put _ _ := rfl

/-! ### Statements, responses and requests -/

/-- The statements a condition can speak about: the updates of the order and of the inventory in
the expiry sweep, the order update of a provider event, the sum of what a buyer holds of a ticket
product before a quantity is added, and the count of the tickets of an order that are not issued. -/
inductive Site
  | sweepOrder (orderId : Uuid)
  | eventOrder (orderId : Uuid)
  | releaseInventory (productId : Uuid) (quantity : Int)
  | holdings (ticketProductId buyerUserId : Uuid) (quantity : Int)
  | counting (orderId : Uuid)
  | other
  deriving DecidableEq, Repr

inductive HttpStatus
  | ok
  | created
  | conflict
  deriving DecidableEq, Repr

/-- What a request answers: a status, and the row it is about. -/
structure Response where
  status : HttpStatus
  id : Uuid
  deriving DecidableEq, Repr

abbrev Result := Except ApiError Response

abbrev Handler := Tx Database Row Site Result

/-- A request: the handler, answering its response. -/
def Handler.request (h : Handler Response) : Prog Database Row Site Result := h fun r => .ret (.ok r)

/-- Go on with a validated argument. -/
def valid {α : Type} (e : Except ApiError α) : Handler α := Tx.ofExcept e .error

/-- `require_organization_editor_tx` of the admin modules. -/
def requireEditor (organizationId userId : Uuid) : Handler PUnit := do
  let allowed ← Tx.select .other (·.directory.memberEditor organizationId userId)
  Tx.require allowed (.error .forbidden)

/-- A violated constraint, as the error the module makes of it. -/
def raise (map : SqlError → ApiError) (e : Option SqlError) : Option Result :=
  e.map fun e => .error (map e)

end CrownFi.Commerce
