import CrownFi.Api.Directory
import CrownFi.Api.Validation
import CrownFi.Lib.Statements
import CrownFi.Voting.Merkle
import Mathlib.Data.List.Sort

/-!
# CrownFi.Voting.Schema

The voting tables, and the queries the handlers run on them. Columns that no
modelled handler reads (timestamps of bookkeeping, event and audit rows) are left
out. Rows are lists in insertion order.
-/

namespace CrownFi.Voting

open Lib CrownFi.Api

inductive RoundStatus
  | draft
  | scheduled
  | «open»
  | closing
  | closed
  | anchored
  | cancelled
  deriving DecidableEq, Repr

structure Round where
  id : Uuid
  organizationId : Uuid
  pageantId : Uuid
  status : RoundStatus
  opensAt : Int
  closesAt : Int
  deriving DecidableEq, Repr

structure RoundContestant where
  roundId : Uuid
  pageantContestantId : Uuid
  sortOrder : Nat
  deriving DecidableEq, Repr

inductive ContestantStatus
  | draft
  | active
  | withdrawn
  | disqualified
  | archived
  deriving DecidableEq, Repr

/-- A row of `pageant_contestants`, with the display name of its contestant. -/
structure PageantContestant where
  id : Uuid
  pageantId : Uuid
  displayName : String
  sash : Option String
  status : ContestantStatus
  deriving DecidableEq, Repr

structure Vote where
  id : Uuid
  organizationId : Uuid
  pageantId : Uuid
  roundId : Uuid
  pageantContestantId : Uuid
  voterUserId : Uuid
  idempotencyKey : String
  requestSha256 : String
  receiptHash : String
  acceptedAt : Int
  deriving DecidableEq, Repr

structure TallyEntry where
  pageantContestantId : Uuid
  displayName : String
  sash : Option String
  votes : Nat
  deriving DecidableEq, Repr

inductive SnapshotStatus
  | created
  | anchorPending
  | anchored
  | failed
  deriving DecidableEq, Repr

structure Snapshot where
  id : Uuid
  organizationId : Uuid
  pageantId : Uuid
  roundId : Uuid
  status : SnapshotStatus
  totalVotes : Nat
  tallySha256 : String
  merkleRoot : String
  tally : List TallyEntry
  createdByUserId : Uuid
  anchorTxHash : Option String := none
  anchorContractEventId : Option String := none
  acceptedEvidenceId : Option Uuid := none
  deriving DecidableEq, Repr

structure SnapshotLeaf where
  snapshotId : Uuid
  voteId : Uuid
  receiptHash : String
  leafIndex : Nat
  leafHash : String
  deriving DecidableEq, Repr

inductive DeploymentNetwork
  | testnet
  | mainnet
  deriving DecidableEq, Repr

inductive DeploymentStatus
  | recordedUnverified
  | verified
  | deprecated
  deriving DecidableEq, Repr

structure ContractDeployment where
  id : Uuid
  network : DeploymentNetwork
  contractKind : String
  contractId : String
  status : DeploymentStatus
  createdAt : Int
  deriving DecidableEq, Repr

inductive AnchorStatus
  | created
  | submitted
  | confirmed
  | failed
  deriving DecidableEq, Repr

structure AnchorIntent where
  id : Uuid
  organizationId : Uuid
  snapshotId : Uuid
  roundId : Uuid
  contractDeploymentId : Uuid
  contractRoundKey : Int
  contractId : String
  merkleRoot : String
  tallySha256 : String
  totalVotes : Int
  idempotencyKey : String
  status : AnchorStatus
  submittedTxHash : Option String
  createdByUserId : Uuid
  deriving DecidableEq, Repr

structure AnchorEvidence where
  id : Uuid
  organizationId : Uuid
  anchorIntentId : Uuid
  snapshotId : Uuid
  contractDeploymentId : Uuid
  contractRoundKey : Int
  contractId : String
  transactionHash : String
  ledgerSequence : Int
  eventReference : String
  merkleRoot : String
  tallySha256 : String
  totalVotes : Int
  deriving DecidableEq, Repr

structure Database where
  directory : Directory
  rounds : List Round
  roundContestants : List RoundContestant
  pageantContestants : List PageantContestant
  votes : List Vote
  snapshots : List Snapshot
  leaves : List SnapshotLeaf
  deployments : List ContractDeployment := []
  anchorIntents : List AnchorIntent := []
  anchorEvidence : List AnchorEvidence := []
  deriving DecidableEq, Repr

/-- What a statement can lock: a row, or a value of a unique key. -/
inductive Row
  | round (id : Uuid)
  | vote (id : Uuid)
  | voteOf (roundId voterUserId : Uuid)
  | receipt (receiptHash : String)
  | snapshot (id : Uuid)
  | snapshotOf (roundId : Uuid)
  | leafOf (voteId : Uuid)
  | leafReceipt (receiptHash : String)
  | leafHash (snapshotId : Uuid) (leafHash : String)
  | deployment (id : Uuid)
  | anchorIntent (id : Uuid)
  | anchorIntentOf (snapshotId : Uuid)
  | anchorIntentOfRound (roundId : Uuid)
  | contractRoundKey (contractId : String) (key : Int)
  | anchorKey (organizationId : Uuid) (idempotencyKey : String)
  | anchorEvidence (id : Uuid)
  | anchorEvidenceOf (anchorIntentId : Uuid)
  | anchorEvidenceOfSnapshot (snapshotId : Uuid)
  | anchorEvent (eventReference : String)
  deriving DecidableEq, Repr

/-! ### The tables that the anchoring writes -/

def roundTable : Table Database Row Uuid Round where
  rows := Database.rounds
  put db rounds := { db with rounds }
  key := Round.id
  row := .round
  rows_put _ _ := rfl

def snapshotTable : Table Database Row Uuid Snapshot where
  rows := Database.snapshots
  put db snapshots := { db with snapshots }
  key := Snapshot.id
  row := .snapshot
  rows_put _ _ := rfl

def anchorIntentTable : Table Database Row Uuid AnchorIntent where
  rows := Database.anchorIntents
  put db anchorIntents := { db with anchorIntents }
  key := AnchorIntent.id
  row := .anchorIntent
  rows_put _ _ := rfl

def anchorEvidenceTable : Table Database Row Uuid AnchorEvidence where
  rows := Database.anchorEvidence
  put db anchorEvidence := { db with anchorEvidence }
  key := AnchorEvidence.id
  row := .anchorEvidence
  rows_put _ _ := rfl

/-! ### Queries -/

namespace Database

variable (db : Database)

def round? (id : Uuid) : Option Round := db.rounds.find? (·.id = id)

def snapshot? (id : Uuid) : Option Snapshot := db.snapshots.find? (·.id = id)

def snapshotOf? (roundId : Uuid) : Option Snapshot := db.snapshots.find? (·.roundId = roundId)

def votesOf (roundId : Uuid) : List Vote := db.votes.filter (·.roundId = roundId)

/-- `ORDER BY receipt_hash, id`. -/
def voteOrder (v v' : Vote) : Prop :=
  v.receiptHash < v'.receiptHash ∨ (v.receiptHash = v'.receiptHash ∧ v.id.toNat ≤ v'.id.toNat)

instance : DecidableRel voteOrder := fun _ _ => inferInstanceAs (Decidable (_ ∨ _))

/-- The votes of a round in the order of the snapshot. -/
def orderedVotes (roundId : Uuid) : List Vote := (db.votesOf roundId).insertionSort voteOrder

/-- `ORDER BY leaf_index`. -/
def leafHashes (snapshotId : Uuid) : List String :=
  ((db.leaves.filter (·.snapshotId = snapshotId)).insertionSort
    fun l l' => l.leafIndex ≤ l'.leafIndex).map (·.leafHash)

def contestantAllowed (roundId pageantContestantId pageantId : Uuid) : Bool :=
  db.roundContestants.any (fun c =>
      c.roundId = roundId && c.pageantContestantId = pageantContestantId) &&
    db.pageantContestants.any fun p =>
      p.id = pageantContestantId && p.pageantId = pageantId && p.status = .active

/-- The tally of a round: its contestants in order, each with the number of their votes. -/
def tally (roundId : Uuid) : List TallyEntry :=
  let entries := (db.roundContestants.filter (·.roundId = roundId)).insertionSort fun c c' =>
    c.sortOrder < c'.sortOrder ∨
      (c.sortOrder = c'.sortOrder ∧ c.pageantContestantId.toNat ≤ c'.pageantContestantId.toNat)
  entries.filterMap fun c =>
    (db.pageantContestants.find? (·.id = c.pageantContestantId)).map fun p =>
      { pageantContestantId := p.id
        displayName := p.displayName
        sash := p.sash
        votes := ((db.votesOf roundId).filter (·.pageantContestantId = p.id)).length }

def anchorIntentOf? (snapshotId : Uuid) : Option AnchorIntent :=
  db.anchorIntents.find? (·.snapshotId = snapshotId)

def anchorEvidenceOf? (anchorIntentId : Uuid) : Option AnchorEvidence :=
  db.anchorEvidence.find? (·.anchorIntentId = anchorIntentId)

/-- The contract that publishes roots: `ORDER BY created_at DESC LIMIT 1`. -/
def auditAnchor? : Option ContractDeployment :=
  let verified := db.deployments.filter fun d =>
    d.network = .testnet && d.contractKind = "audit-anchor" && d.status = .verified
  (verified.insertionSort fun d d' => d'.createdAt ≤ d.createdAt).head?

/-- `UPDATE voting_rounds SET status = .. WHERE id = ..`. -/
def setRoundStatus (roundId : Uuid) (status : RoundStatus) : Database :=
  { db with rounds := updateWhere (·.id = roundId) ({ · with status }) db.rounds }

end Database

end CrownFi.Voting
