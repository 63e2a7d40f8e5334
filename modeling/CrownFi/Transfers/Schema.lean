import CrownFi.Commerce.Issuance
import CrownFi.Lib.Within

/-!
# CrownFi.Transfers.Schema

The tables of tickets that change hands: how the tickets of a product may be transferred, the
requests for transfers, and who was checked in. They stand beside the tables of the shop, which has
the tickets and the evidence of who owns them.
-/

namespace CrownFi.Transfers

open Lib CrownFi.Api
open CrownFi.Commerce (Response Result TicketIssuance OwnershipEvidence)

/-! ### Transfers -/

inductive TransferPolicy
  | nonTransferable
  | organizerApproved
  | openPolicy
  deriving DecidableEq, Repr

/-- The policy of a ticket product. -/
structure PolicyOfProduct where
  ticketProductId : Uuid
  policy : TransferPolicy
  deriving DecidableEq, Repr

inductive TransferStatus
  | requested
  | approved
  | submitted
  | confirmed
  | rejected
  | cancelled
  | failed
  deriving DecidableEq, Repr

structure TransferRequest where
  id : Uuid
  organizationId : Uuid
  ticketIssuanceId : Uuid
  tokenId : String
  fromUserId : Uuid
  fromStellarAccountId : Uuid
  toUserId : Uuid
  toStellarAccountId : Uuid
  policy : TransferPolicy
  status : TransferStatus
  idempotencyKey : String
  requestSha256 : String
  reason : String
  reviewedByUserId : Option Uuid
  reviewReason : Option String
  submittedTxHash : Option String
  acceptedEvidenceId : Option Uuid
  reviewedAt : Option Int
  submittedAt : Option Int
  confirmedAt : Option Int
  deriving DecidableEq, Repr

/-- The statuses that the index `ticket_transfer_one_active_per_issuance` is about. -/
def TransferRequest.active (t : TransferRequest) : Bool :=
  t.status = .requested || t.status = .approved || t.status = .submitted

structure CheckIn where
  id : Uuid
  ticketIssuanceId : Uuid
  ticketEventId : Uuid
  checkedInByUserId : Uuid
  checkInNonceHash : String
  deviceReference : Option String
  deriving DecidableEq, Repr

/-! ### The database -/

structure Database where
  shop : Commerce.Database
  policies : List PolicyOfProduct
  transfers : List TransferRequest
  checkIns : List CheckIn
  deriving DecidableEq, Repr

/-- What a statement can lock: what the shop can lock, a row, or a value of a unique key. -/
inductive Row
  | shop (row : Commerce.Row)
  | transfer (id : Uuid)
  | transferKey (organizationId fromUserId : Uuid) (idempotencyKey : String)
  | activeTransferOf (ticketIssuanceId : Uuid)
  | checkIn (id : Uuid)
  | checkInOf (ticketIssuanceId : Uuid)
  | nonce (hash : String)
  deriving DecidableEq, Repr

/-- The statements a condition can speak about are those of the shop. -/
inductive Site
  | shop (site : Commerce.Site)
  | other
  deriving DecidableEq, Repr

/-- The shop within the system. -/
def shopView : View Database Commerce.Database where
  get := Database.shop
  put db shop := { db with shop }
  get_put _ _ := rfl
  put_get _ := rfl
  put_put _ _ _ := rfl

def issuanceTable : Table Database Row Uuid TicketIssuance :=
  Commerce.issuanceTable.within shopView .shop

def ownershipTable : Table Database Row Uuid OwnershipEvidence :=
  Commerce.ownershipTable.within shopView .shop

def transferTable : Table Database Row Uuid TransferRequest where
  rows := Database.transfers
  put db transfers := { db with transfers }
  key := TransferRequest.id
  row := .transfer
  rows_put _ _ := rfl

def checkInTable : Table Database Row Uuid CheckIn where
  rows := Database.checkIns
  put db checkIns := { db with checkIns }
  key := CheckIn.id
  row := .checkIn
  rows_put _ _ := rfl

/-! ### Requests -/

abbrev Handler := Tx Database Row Site Result

/-- A request: the handler, answering its response. -/
def Handler.request (h : Handler Response) : Prog Database Row Site Result := h fun r => .ret (.ok r)

/-- Go on with a validated argument. -/
def valid {α : Type} (e : Except ApiError α) : Handler α := Tx.ofExcept e .error

/-- A violated constraint, as the error the module makes of it. -/
def raise (map : SqlError → ApiError) (e : Option SqlError) : Option Result := e.map fun e => .error (map e)

theorem raise_none {map : SqlError → ApiError} {e : Option SqlError} (h : raise map e = none) : e = none :=
  Option.map_eq_none_iff.mp h

end CrownFi.Transfers
