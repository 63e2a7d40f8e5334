import CrownFi.Api.Directory
import CrownFi.Api.Json
import CrownFi.Api.Validation
import CrownFi.Lib.Statements

/-!
# CrownFi.Markets.Schema

The tables of the prediction markets: markets with their outcomes, policy decisions and
governance log, stake intents and positions, and settlement runs with their items and
evidence. Columns that no modelled handler reads (audit rows, bookkeeping timestamps,
raw JSON) are left out.
-/

namespace CrownFi.Markets

open Lib CrownFi.Api

/-! ### Markets -/

inductive MarketStatus
  | draft
  | pendingReview
  | approved
  | «open»
  | paused
  | closed
  | resolutionPending
  | resolved
  | cancelled
  | settling
  | settled
  | archived
  deriving DecidableEq, Repr

namespace MarketStatus

def text : MarketStatus → String
  | draft => "draft"
  | pendingReview => "pending_review"
  | approved => "approved"
  | «open» => "open"
  | paused => "paused"
  | closed => "closed"
  | resolutionPending => "resolution_pending"
  | resolved => "resolved"
  | cancelled => "cancelled"
  | settling => "settling"
  | settled => "settled"
  | archived => "archived"

def all : List MarketStatus :=
  [draft, pendingReview, approved, «open», paused, closed, resolutionPending, resolved, cancelled,
    settling, settled, archived]

/-- The status that a text names. -/
def ofText (value : String) : Option MarketStatus := all.find? (·.text = value)

theorem ofText_text (s : MarketStatus) : ofText s.text = some s := by
  cases s <;> decide

end MarketStatus

structure Market where
  id : Uuid
  organizationId : Uuid
  pageantId : Option Uuid
  slug : String
  question : String
  description : Option String
  status : MarketStatus
  assetCode : String
  assetScale : Int
  assetIssuer : Option String
  feeBps : Int
  minStakeMinor : Int
  maxStakeMinor : Int
  maxUserExposureMinor : Int
  maxMarketExposureMinor : Int
  opensAt : Int
  closesAt : Int
  resolutionSource : String
  policyVersion : String
  winningOutcomeId : Option Uuid
  deriving DecidableEq, Repr

structure Outcome where
  id : Uuid
  marketId : Uuid
  code : String
  label : String
  sortOrder : Int
  totalActiveMinor : Int
  deriving DecidableEq, Repr

inductive PolicyAction
  | marketOpen
  | stake
  | resolve
  | settle
  | refund
  deriving DecidableEq, Repr

inductive Decision
  | allow
  | deny
  | review
  deriving DecidableEq, Repr

structure PolicyDecision where
  id : Uuid
  organizationId : Uuid
  marketId : Uuid
  subjectUserId : Option Uuid
  action : PolicyAction
  decision : Decision
  reason : String
  policyVersion : String
  decidedByUserId : Uuid
  expiresAt : Option Int
  createdAt : Int
  deriving DecidableEq, Repr

structure GovernanceEvent where
  id : Uuid
  organizationId : Uuid
  marketId : Uuid
  actorUserId : Uuid
  action : String
  previousStatus : Option MarketStatus
  newStatus : Option MarketStatus
  reason : String
  deriving DecidableEq, Repr

structure Pageant where
  id : Uuid
  organizationId : Uuid
  deriving DecidableEq, Repr

/-! ### Stakes -/

inductive StakeIntentStatus
  | awaitingSignature
  | signed
  | submitted
  | confirmed
  | rejected
  | expired
  | cancelled
  deriving DecidableEq, Repr

structure StakeIntent where
  id : Uuid
  organizationId : Uuid
  marketId : Uuid
  outcomeId : Uuid
  userId : Uuid
  stellarAccountId : Uuid
  amountMinor : Int
  idempotencyKey : String
  requestSha256 : String
  status : StakeIntentStatus
  submittedTxHash : Option String
  expiresAt : Int
  confirmedAt : Option Int
  deriving DecidableEq, Repr

structure PositionEvidence where
  id : Uuid
  organizationId : Uuid
  marketId : Uuid
  stakeIntentId : Uuid
  outcomeId : Uuid
  sourceStellarAccountId : Uuid
  txHash : String
  ledgerSequence : Int
  contractEventId : String
  amountMinor : Int
  acceptedAt : Int
  deriving DecidableEq, Repr

inductive PositionStatus
  | pending
  | active
  | rejected
  | settled
  | refunded
  deriving DecidableEq, Repr

structure Position where
  id : Uuid
  organizationId : Uuid
  marketId : Uuid
  outcomeId : Uuid
  userId : Uuid
  stellarAccountId : Uuid
  stakeIntentId : Uuid
  amountMinor : Int
  status : PositionStatus
  acceptedEvidenceId : Option Uuid
  activatedAt : Option Int
  createdAt : Int
  deriving DecidableEq, Repr

/-! ### Settlement -/

inductive RunKind
  | payout
  | refund
  deriving DecidableEq, Repr

inductive RunStatus
  | planned
  | submitting
  | submitted
  | confirmed
  | failed
  | cancelled
  deriving DecidableEq, Repr

structure SettlementRun where
  id : Uuid
  organizationId : Uuid
  marketId : Uuid
  kind : RunKind
  status : RunStatus
  winningOutcomeId : Option Uuid
  idempotencyKey : String
  totalStakeMinor : Int
  feeMinor : Int
  distributableMinor : Int
  totalPlannedMinor : Int
  requestedByUserId : Uuid
  createdAt : Int
  deriving DecidableEq, Repr

inductive ItemStatus
  | planned
  | submitted
  | confirmed
  | failed
  deriving DecidableEq, Repr

structure SettlementItem where
  id : Uuid
  settlementRunId : Uuid
  positionId : Uuid
  recipientStellarAccountId : Uuid
  principalMinor : Int
  payoutMinor : Int
  status : ItemStatus
  submittedTxHash : Option String
  acceptedEvidenceId : Option Uuid
  confirmedAt : Option Int
  deriving DecidableEq, Repr

structure SettlementEvidence where
  id : Uuid
  organizationId : Uuid
  settlementRunId : Uuid
  settlementItemId : Uuid
  recipientStellarAccountId : Uuid
  transactionHash : String
  ledgerSequence : Int
  operationIndex : Int
  eventReference : String
  amountMinor : Int
  acceptedAt : Int
  deriving DecidableEq, Repr

/-! ### The database -/

structure Database where
  directory : Directory
  organizations : List Uuid
  pageants : List Pageant
  markets : List Market
  outcomes : List Outcome
  decisions : List PolicyDecision
  governance : List GovernanceEvent
  stakeIntents : List StakeIntent
  positionEvidence : List PositionEvidence
  positions : List Position
  runs : List SettlementRun
  items : List SettlementItem
  settlementEvidence : List SettlementEvidence
  deriving DecidableEq, Repr

/-- What a statement can lock: a row, or a value of a unique key. What a user has at stake in a
market, and the clock, are locked by no statement, but schedules may be compared with those that
would lock them. -/
inductive Row
  | market (id : Uuid)
  | marketSlug (organizationId : Uuid) (slug : String)
  | outcome (id : Uuid)
  | outcomeCode (marketId : Uuid) (code : String)
  | outcomeOrder (marketId : Uuid) (sortOrder : Int)
  | decision (id : Uuid)
  | governance (id : Uuid)
  | stakeIntent (id : Uuid)
  | stakeIntentKey (organizationId userId : Uuid) (idempotencyKey : String)
  | stakeTransaction (hash : String)
  | positionEvidence (id : Uuid)
  | positionEvidenceOf (stakeIntentId : Uuid)
  | positionTransaction (hash : String)
  | contractEvent (id : String)
  | position (id : Uuid)
  | positionOf (stakeIntentId : Uuid)
  | run (id : Uuid)
  | runKey (marketId : Uuid) (kind : RunKind) (idempotencyKey : String)
  | item (id : Uuid)
  | itemOf (settlementRunId positionId : Uuid)
  | itemTransaction (hash : String)
  | settlementEvidence (id : Uuid)
  | settlementEvidenceOf (settlementItemId : Uuid)
  | operation (transactionHash : String) (operationIndex : Int)
  | eventReference (reference : String)
  | atStake (marketId userId : Uuid)
  | clock
  deriving DecidableEq, Repr

/-! ### The tables that requests write -/

def marketTable : Table Database Row Uuid Market where
  rows := Database.markets
  put db markets := { db with markets }
  key := Market.id
  row := .market
  rows_put _ _ := rfl

def outcomeTable : Table Database Row Uuid Outcome where
  rows := Database.outcomes
  put db outcomes := { db with outcomes }
  key := Outcome.id
  row := .outcome
  rows_put _ _ := rfl

def decisionTable : Table Database Row Uuid PolicyDecision where
  rows := Database.decisions
  put db decisions := { db with decisions }
  key := PolicyDecision.id
  row := .decision
  rows_put _ _ := rfl

def governanceTable : Table Database Row Uuid GovernanceEvent where
  rows := Database.governance
  put db governance := { db with governance }
  key := GovernanceEvent.id
  row := .governance
  rows_put _ _ := rfl

def stakeIntentTable : Table Database Row Uuid StakeIntent where
  rows := Database.stakeIntents
  put db stakeIntents := { db with stakeIntents }
  key := StakeIntent.id
  row := .stakeIntent
  rows_put _ _ := rfl

/-- Position evidence, by the stake intent that it is about. -/
def positionEvidenceTable : Table Database Row Uuid PositionEvidence where
  rows := Database.positionEvidence
  put db positionEvidence := { db with positionEvidence }
  key := PositionEvidence.stakeIntentId
  row := .positionEvidenceOf
  rows_put _ _ := rfl

def positionTable : Table Database Row Uuid Position where
  rows := Database.positions
  put db positions := { db with positions }
  key := Position.id
  row := .position
  rows_put _ _ := rfl

def runTable : Table Database Row Uuid SettlementRun where
  rows := Database.runs
  put db runs := { db with runs }
  key := SettlementRun.id
  row := .run
  rows_put _ _ := rfl

def itemTable : Table Database Row Uuid SettlementItem where
  rows := Database.items
  put db items := { db with items }
  key := SettlementItem.id
  row := .item
  rows_put _ _ := rfl

/-- Settlement evidence, by the item that it is about. -/
def settlementEvidenceTable : Table Database Row Uuid SettlementEvidence where
  rows := Database.settlementEvidence
  put db settlementEvidence := { db with settlementEvidence }
  key := SettlementEvidence.settlementItemId
  row := .settlementEvidenceOf
  rows_put _ _ := rfl

/-! ### Statements, responses and requests -/

/-- The statements a condition can speak about: the market update of a transition, with the
status that the request read, the updates of the positions and of the market at the end of a
settlement, the insertion of a position, the sum of what a user has at stake in a market, the
update of a submitted intent, and the passage of time. -/
inductive Site
  | transition (marketId : Uuid) (source target : MarketStatus)
  | closePositions (marketId : Uuid)
  | finalize (marketId : Uuid)
  | activate (marketId : Uuid)
  | userExposure (marketId userId : Uuid)
  | submit (intentId : Uuid) (txHash : String)
  | accept (stakeIntentId : Uuid) (txHash : String)
  | passes
  | other
  deriving DecidableEq, Repr

inductive HttpStatus
  | ok
  | created
  deriving DecidableEq, Repr

/-- What a request answers: a status, and the row it is about. -/
structure Response where
  status : HttpStatus
  id : Uuid
  deriving DecidableEq, Repr

abbrev Result := Except ApiError Response

abbrev Handler := Tx Database Row Site Result

/-- A request: the handler, answering its response. -/
def Handler.request (h : Handler Response) : Prog Database Row Site Result := h fun r => .ret (.ok r)

/-- Go on with a validated argument. -/
def valid {α : Type} (e : Except ApiError α) : Handler α := Tx.ofExcept e .error

/-- A violated constraint, as the error the module makes of it. -/
def raise (map : SqlError → ApiError) (e : Option SqlError) : Option Result :=
  e.map fun e => .error (map e)

theorem raise_eq_none {map : SqlError → ApiError} {e : Option SqlError} :
    raise map e = none ↔ e = none := by
  simp [raise]

/-- A computation of the database that may be out of range, as the error the module makes of it. -/
def inRange {α : Type} (map : SqlError → ApiError) (value : Option α) : Handler α :=
  Tx.orElse value (.error (map .outOfRange))

/-- What the handlers take from outside: the hash function, how an instant is read from a
text, and the check of the governance log on the action of an event. -/
structure External where
  sha256 : Sha256
  parseRfc3339 : String → Option Int
  governed : String → Bool

/-- The check on the action of a governance event as the last migration has it. -/
def governanceAction (action : String) : Bool :=
  ["created", "submitted_for_review", "approved", "rejected", "opened", "closed", "resolved",
    "cancelled", "paused", "resumed", "settlement.plan", "settlement.confirmed",
    "refund.confirmed"].contains action

/-- `btrim` of a text. -/
def btrim (value : String) : List Char :=
  ((value.toList.dropWhile (· = ' ')).reverse.dropWhile (· = ' ')).reverse

/-- The constraints of `prediction_market_governance_events`. -/
def governanceViolation (governed : String → Bool) (e : GovernanceEvent) (db : Database) :
    Option SqlError :=
  if governed e.action = false ∨ ¬ (3 ≤ (btrim e.reason).length ∧ (btrim e.reason).length ≤ 1000) then
    some .checkViolation
  else if db.governance.any (·.id = e.id) then some .uniqueViolation
  else none

def insertGovernance (governed : String → Bool) (map : SqlError → ApiError) (e : GovernanceEvent) :
    Handler PUnit :=
  Tx.insertRow .other governanceTable
    [⟨.governance e.id, .update⟩, ⟨.market e.marketId, .keyShare⟩]
    (fun db => raise map (governanceViolation governed e db)) e

end CrownFi.Markets
