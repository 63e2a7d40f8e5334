import CrownFi.Api.Json
import CrownFi.Api.Validation
import CrownFi.Commerce.Schema

/-!
# CrownFi.Fulfillment.Schema

The tables of the fulfillment of collectibles: the editions that products stand for, the jobs that
mint what an order bought, their mints, the chain evidence of the mints, and who owns what was
minted. They stand beside the tables of the shop, of which fulfillment moves the orders and the
inventory.
-/

namespace CrownFi.Fulfillment

open Lib CrownFi.Api
open CrownFi.Commerce (Response Result Order Inventory)

/-! ### What is sold -/

inductive ProductKind
  | collectible
  | ticket
  | merchandise
  | donation
  deriving DecidableEq, Repr

/-- The kind of a product. -/
structure KindOfProduct where
  productId : Uuid
  kind : ProductKind
  deriving DecidableEq, Repr

inductive MintPolicy
  | onPurchase
  | preMinted
  | manual
  deriving DecidableEq, Repr

structure CollectibleCollection where
  id : Uuid
  contractId : Option String
  metadataSha256 : Option String
  deriving DecidableEq, Repr

structure CollectibleEdition where
  id : Uuid
  collectionId : Uuid
  productId : Uuid
  contractId : Option String
  metadataSha256 : Option String
  mintPolicy : MintPolicy
  deriving DecidableEq, Repr

/-! ### Jobs and mints -/

inductive JobStatus
  | queued
  | running
  | awaitingChain
  | fulfilled
  | failed
  | deadLetter
  deriving DecidableEq, Repr

structure FulfillmentJob where
  id : Uuid
  organizationId : Uuid
  orderId : Uuid
  orderItemId : Uuid
  status : JobStatus
  idempotencyKey : String
  payloadSha256 : String
  attempts : Int
  maxAttempts : Int
  availableAt : Int
  lockedAt : Option Int
  lockedBy : Option String
  lastError : Option String
  createdByUserId : Uuid
  deriving DecidableEq, Repr

inductive MintStatus
  | queued
  | submitted
  | confirmed
  | failed
  deriving DecidableEq, Repr

structure CollectibleMint where
  id : Uuid
  fulfillmentJobId : Uuid
  orderItemId : Uuid
  collectibleEditionId : Uuid
  contractId : String
  recipientAccount : String
  metadataSha256 : String
  mintReferenceSha256 : String
  tokenId : Option String
  transactionHash : Option String
  status : MintStatus
  failureCode : Option String
  deriving DecidableEq, Repr

inductive EvidenceStatus
  | accepted
  | rejected
  deriving DecidableEq, Repr

structure MintEvidence where
  id : Uuid
  collectibleMintId : Uuid
  transactionHash : String
  contractId : String
  tokenId : String
  ownerAccount : String
  ledgerSequence : Int
  eventIndex : Int
  successful : Bool
  evidenceSha256 : String
  processingStatus : EvidenceStatus
  reconciliationError : Option String
  deriving DecidableEq, Repr

structure OwnershipProjection where
  id : Uuid
  contractId : String
  tokenId : String
  ownerAccount : String
  collectibleMintId : Uuid
  sourceTransactionHash : String
  ledgerSequence : Int
  eventIndex : Int
  deriving DecidableEq, Repr

/-! ### The database -/

structure Database where
  shop : Commerce.Database
  kinds : List KindOfProduct
  collections : List CollectibleCollection
  editions : List CollectibleEdition
  jobs : List FulfillmentJob
  mints : List CollectibleMint
  evidence : List MintEvidence
  projections : List OwnershipProjection
  deriving DecidableEq, Repr

/-- What a statement can lock: a row, or a value of a unique key. -/
inductive Row
  | order (id : Uuid)
  | orderItem (id : Uuid)
  | product (id : Uuid)
  | inventory (productId : Uuid)
  | collection (id : Uuid)
  | edition (id : Uuid)
  | job (id : Uuid)
  | jobOf (orderItemId : Uuid)
  | jobKey (organizationId : Uuid) (idempotencyKey : String)
  | mint (id : Uuid)
  | mintOf (fulfillmentJobId : Uuid)
  | mintOfItem (orderItemId : Uuid)
  | mintReference (sha256 : String)
  | evidence (id : Uuid)
  | event (transactionHash : String) (eventIndex : Int)
  | acceptedEvidenceOf (collectibleMintId : Uuid)
  | projection (id : Uuid)
  | projectionOf (collectibleMintId : Uuid)
  | token (contractId tokenId : String)
  deriving DecidableEq, Repr

def orderTable : Table Database Row Uuid Order where
  rows db := db.shop.orders
  put db orders := { db with shop := { db.shop with orders } }
  key := Order.id
  row := .order
  rows_put _ _ := rfl

def inventoryTable : Table Database Row Uuid Inventory where
  rows db := db.shop.inventory
  put db inventory := { db with shop := { db.shop with inventory } }
  key := Inventory.productId
  row := .inventory
  rows_put _ _ := rfl

def jobTable : Table Database Row Uuid FulfillmentJob where
  rows := Database.jobs
  put db jobs := { db with jobs }
  key := FulfillmentJob.id
  row := .job
  rows_put _ _ := rfl

def mintTable : Table Database Row Uuid CollectibleMint where
  rows := Database.mints
  put db mints := { db with mints }
  key := CollectibleMint.id
  row := .mint
  rows_put _ _ := rfl

/-- The mint of a job. -/
def mintOf (jobId : Uuid) (db : Database) : Option CollectibleMint :=
  db.mints.find? (·.fulfillmentJobId = jobId)

/-- Evidence, by the event on the chain that it is about. -/
def evidenceTable : Table Database Row (String × Int) MintEvidence where
  rows := Database.evidence
  put db evidence := { db with evidence }
  key e := (e.transactionHash, e.eventIndex)
  row k := .event k.1 k.2
  rows_put _ _ := rfl

/-- Who owns what was minted, by the mint. -/
def projectionTable : Table Database Row Uuid OwnershipProjection where
  rows := Database.projections
  put db projections := { db with projections }
  key := OwnershipProjection.collectibleMintId
  row := .projectionOf
  rows_put _ _ := rfl

/-! ### Statements and requests -/

/-- The statements a condition can speak about: the job's update when a worker records a submission,
or a failure, and the insertion of evidence. -/
inductive Site
  | submission (jobId : Uuid) (workerId transactionHash : String)
  | failure (jobId : Uuid) (workerId : String)
  | evidence (transactionHash : String) (eventIndex : Int)
  | other
  deriving DecidableEq, Repr

abbrev Handler := Tx Database Row Site Result

/-- A request: the handler, answering its response. -/
def Handler.request (h : Handler Response) : Prog Database Row Site Result := h fun r => .ret (.ok r)

/-- Go on with a validated argument. -/
def valid {α : Type} (e : Except ApiError α) : Handler α := Tx.ofExcept e .error

/-- `db_error`. -/
def dbError : SqlError → ApiError
  | .uniqueViolation => .conflict "resource_already_exists"
  | .foreignKeyViolation => .invalidRequest "related_resource_not_found"
  | .checkViolation | .outOfRange => .invalidRequest "database_constraint_failed"

/-- A violated constraint, as the error the module makes of it. -/
def raise (e : Option SqlError) : Option Result := e.map fun e => .error (dbError e)

/-- A violated unique key. -/
def unique (violated : Bool) : Option Result :=
  raise (if violated then some .uniqueViolation else none)

theorem unique_eq_none {violated : Bool} : unique violated = none ↔ violated = false := by
  cases violated <;> simp [unique, raise]

end CrownFi.Fulfillment
