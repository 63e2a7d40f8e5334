import CrownFi.Api.Json
import CrownFi.Api.Validation
import CrownFi.Commerce.Schema

/-!
# CrownFi.Payouts.Schema

The tables of the payouts: the rules by which the price of a product is split, the batches that
pay out an order, their transfers, and the chain evidence of the transfers. They stand beside
the tables of the shop, which payouts only read.
-/

namespace CrownFi.Payouts

open Lib CrownFi.Api
open CrownFi.Commerce (Asset Response Result)

inductive RuleStatus
  | draft
  | active
  | archived
  deriving DecidableEq, Repr

structure PayoutRule where
  id : Uuid
  organizationId : Uuid
  productId : Uuid
  candidateAccount : String
  organizerAccount : String
  platformAccount : String
  candidateBps : Int
  organizerBps : Int
  platformBps : Int
  status : RuleStatus
  createdByUserId : Uuid
  sourceAccount : String
  deriving DecidableEq, Repr

/-- The status of a batch; `partially` is the source's `partial`. -/
inductive BatchStatus
  | prepared
  | submitted
  | partially
  | confirmed
  | failed
  deriving DecidableEq, Repr

/-- `'submitted' | 'partial'`. -/
def BatchStatus.inFlight (s : BatchStatus) : Bool := s = .submitted || s = .partially

structure PayoutBatch where
  id : Uuid
  organizationId : Uuid
  orderId : Uuid
  payoutRuleId : Uuid
  status : BatchStatus
  amountMinor : Int
  asset : Asset
  idempotencyKey : String
  requestSha256 : String
  confirmedTransferCount : Int
  submittedTransactionHash : Option String
  failureCode : Option String
  createdByUserId : Uuid
  deriving DecidableEq, Repr

inductive PayoutRole
  | candidate
  | organizer
  | platform
  deriving DecidableEq, Repr

def PayoutRole.text : PayoutRole → String
  | .candidate => "candidate"
  | .organizer => "organizer"
  | .platform => "platform"

inductive TransferStatus
  | pending
  | submitted
  | confirmed
  | rejected
  | failed
  deriving DecidableEq, Repr

structure PayoutTransfer where
  id : Uuid
  payoutBatchId : Uuid
  role : PayoutRole
  recipientAccount : String
  expectedAmountMinor : Int
  status : TransferStatus
  operationIndex : Option Int
  transactionHash : Option String
  actualAmountMinor : Option Int
  ledgerSequence : Option Int
  failureCode : Option String
  deriving DecidableEq, Repr

inductive EvidenceStatus
  | accepted
  | rejected
  deriving DecidableEq, Repr

structure PayoutEvidence where
  id : Uuid
  payoutTransferId : Uuid
  transactionHash : String
  operationIndex : Int
  sourceAccount : String
  recipientAccount : String
  amountMinor : Int
  asset : Asset
  ledgerSequence : Int
  successful : Bool
  evidenceSha256 : String
  processingStatus : EvidenceStatus
  reconciliationError : Option String
  deriving DecidableEq, Repr

/-! ### The database -/

structure Database where
  shop : Commerce.Database
  rules : List PayoutRule
  batches : List PayoutBatch
  transfers : List PayoutTransfer
  evidence : List PayoutEvidence
  deriving DecidableEq, Repr

/-- What a statement can lock: a row, or a value of a unique key. -/
inductive Row
  | order (id : Uuid)
  | orderItem (id : Uuid)
  | rule (id : Uuid)
  | activeRuleOf (productId : Uuid)
  | batch (id : Uuid)
  | batchOf (orderId : Uuid)
  | batchKey (organizationId : Uuid) (idempotencyKey : String)
  | transfer (id : Uuid)
  | transferOf (payoutBatchId : Uuid) (role : PayoutRole)
  | evidence (id : Uuid)
  | operation (transactionHash : String) (operationIndex : Int)
  | acceptedEvidenceOf (payoutTransferId : Uuid)
  deriving DecidableEq, Repr

def ruleTable : Table Database Row Uuid PayoutRule where
  rows := Database.rules
  put db rules := { db with rules }
  key := PayoutRule.id
  row := .rule
  rows_put _ _ := rfl

def batchTable : Table Database Row Uuid PayoutBatch where
  rows := Database.batches
  put db batches := { db with batches }
  key := PayoutBatch.id
  row := .batch
  rows_put _ _ := rfl

def transferTable : Table Database Row Uuid PayoutTransfer where
  rows := Database.transfers
  put db transfers := { db with transfers }
  key := PayoutTransfer.id
  row := .transfer
  rows_put _ _ := rfl

/-- Evidence, by the operation on the chain that it is about. -/
def evidenceTable : Table Database Row (String × Int) PayoutEvidence where
  rows := Database.evidence
  put db evidence := { db with evidence }
  key e := (e.transactionHash, e.operationIndex)
  row k := .operation k.1 k.2
  rows_put _ _ := rfl

/-- The transfers of a batch. -/
def transfersOf (db : Database) (batchId : Uuid) : List PayoutTransfer :=
  db.transfers.filter (·.payoutBatchId = batchId)

/-- The accepted evidence of a transfer. -/
def acceptedOf (db : Database) (transferId : Uuid) : List PayoutEvidence :=
  db.evidence.filter fun e => e.payoutTransferId = transferId && e.processingStatus = .accepted

/-! ### Statements and requests -/

/-- The statements a condition can speak about: where evidence about a batch reads it, and the
report that a batch failed. -/
inductive Site
  | evidence (batchId : Uuid)
  | failure (batchId : Uuid)
  | other
  deriving DecidableEq, Repr

abbrev Handler := Tx Database Row Site Result

/-- A request: the handler, answering its response. -/
def Handler.request (h : Handler Response) : Prog Database Row Site Result := h fun r => .ret (.ok r)

/-- Go on with a validated argument. -/
def valid {α : Type} (e : Except ApiError α) : Handler α := Tx.ofExcept e .error

/-- `db_error`. -/
def dbError : SqlError → ApiError
  | .uniqueViolation => .conflict "resource_already_exists"
  | .foreignKeyViolation => .invalidRequest "related_resource_not_found"
  | .checkViolation | .outOfRange => .invalidRequest "database_constraint_failed"

/-- A violated unique key, as the error the module makes of it. -/
def unique (violated : Bool) : Option Result :=
  if violated then some (.error (dbError .uniqueViolation)) else none

theorem unique_eq_none {violated : Bool} : unique violated = none ↔ violated = false := by
  cases violated <;> simp [unique]

end CrownFi.Payouts
