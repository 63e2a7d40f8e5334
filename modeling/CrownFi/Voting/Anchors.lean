import CrownFi.Api.Json
import CrownFi.Voting.Handlers

/-!
# CrownFi.Voting.Anchors

The anchoring of a snapshot (`voting_anchor.rs`) as programs over the tables:
`create_anchor_intent`, `record_anchor_submission` and `accept_anchor_evidence`.

The key that the contract files a round under is drawn from a sequence, which no
transaction rolls back: it is an argument of the request, as a fresh `Uuid` is. What the
worker presents is checked against the intent; the chain itself is not asked.
-/

namespace CrownFi.Voting

open Lib CrownFi.Api

/-! ### Validation -/

def u32Max : Int := 4294967295

/-- `validate_contract_id`. -/
def validateContractId (value : String) : Except ApiError String :=
  let value := trimUpper value
  if byteLength value = 56 ∧ value.head? = some 'C' ∧
      (value.drop 1).all (fun c => isUpper c || ('2' ≤ c && c ≤ '7')) = true then
    .ok (String.ofList value)
  else .error (.invalidRequest "invalid_audit_anchor_contract_id")

/-- `map_database_error`. -/
def mapAnchorError : SqlError → ApiError
  | .uniqueViolation => .conflict "voting_anchor_resource_already_exists"
  | .foreignKeyViolation => .invalidRequest "voting_anchor_resource_missing"
  | .checkViolation => .invalidRequest "voting_anchor_constraint_failed"
  | .outOfRange => .database

/-! ### Rows that the anchoring reads and writes -/

/-- `load_intent_tx`. -/
def loadIntentTx (intentId : Uuid) : Handler AnchorIntent := do
  let row ← Tx.selectFor .other
    (fun db => (anchorIntentTable.find db intentId).toList.map fun i => ⟨.anchorIntent i.id, .update⟩)
    (anchorIntentTable.find · intentId)
  Tx.orElse row (.error .notFound)

/-- `load_evidence_tx`. -/
def loadEvidenceTx (intentId : Uuid) : Handler (Option AnchorEvidence) :=
  Tx.selectFor .other
    (fun db => (db.anchorEvidenceOf? intentId).toList.map fun e => ⟨.anchorEvidence e.id, .update⟩)
    (·.anchorEvidenceOf? intentId)

/-- The keys and checks of `voting_anchor_intents`. The network of every row is the testnet. -/
def anchorIntentViolation (i : AnchorIntent) (db : Database) : Option SqlError :=
  if ¬ (1 ≤ i.contractRoundKey ∧ i.contractRoundKey ≤ u32Max) ∨
      ¬ (0 ≤ i.totalVotes ∧ i.totalVotes ≤ u32Max) then
    some .checkViolation
  else if db.anchorIntents.any fun j => j.id = i.id || j.snapshotId = i.snapshotId ||
      j.roundId = i.roundId ||
      (j.contractId = i.contractId && j.contractRoundKey = i.contractRoundKey) ||
      (j.organizationId = i.organizationId && j.idempotencyKey = i.idempotencyKey) then
    some .uniqueViolation
  else none

def insertAnchorIntent (i : AnchorIntent) : Handler PUnit :=
  Tx.insertRow .other anchorIntentTable
    [⟨.anchorIntent i.id, .update⟩, ⟨.anchorIntentOf i.snapshotId, .update⟩,
      ⟨.anchorIntentOfRound i.roundId, .update⟩,
      ⟨.contractRoundKey i.contractId i.contractRoundKey, .update⟩,
      ⟨.anchorKey i.organizationId i.idempotencyKey, .update⟩,
      ⟨.snapshot i.snapshotId, .keyShare⟩, ⟨.round i.roundId, .keyShare⟩,
      ⟨.deployment i.contractDeploymentId, .keyShare⟩]
    (fun db => (anchorIntentViolation i db).map fun e => .error (mapAnchorError e)) i

/-- The keys of `voting_anchor_evidence`. -/
def anchorEvidenceViolation (e : AnchorEvidence) (db : Database) : Option SqlError :=
  if db.anchorEvidence.any fun f => f.id = e.id || f.anchorIntentId = e.anchorIntentId ||
      f.snapshotId = e.snapshotId || f.eventReference = e.eventReference then
    some .uniqueViolation
  else none

def insertAnchorEvidence (e : AnchorEvidence) : Handler PUnit :=
  Tx.insertRow .other anchorEvidenceTable
    [⟨.anchorEvidence e.id, .update⟩, ⟨.anchorEvidenceOf e.anchorIntentId, .update⟩,
      ⟨.anchorEvidenceOfSnapshot e.snapshotId, .update⟩, ⟨.anchorEvent e.eventReference, .update⟩,
      ⟨.anchorIntent e.anchorIntentId, .keyShare⟩, ⟨.snapshot e.snapshotId, .keyShare⟩,
      ⟨.deployment e.contractDeploymentId, .keyShare⟩]
    (fun db => (anchorEvidenceViolation e db).map fun e => .error (mapAnchorError e)) e

/-- `UPDATE voting_anchor_intents SET .. WHERE ..`. -/
def updateAnchorIntents (p : AnchorIntent → Bool) (f : AnchorIntent → AnchorIntent) : Handler Nat :=
  Tx.update .other anchorIntentTable (fun i => [⟨.anchorIntent i.id, .noKeyUpdate⟩]) p f
    fun _ _ => none

/-- `UPDATE voting_snapshots SET .. WHERE ..`. -/
def updateSnapshots (p : Snapshot → Bool) (f : Snapshot → Snapshot) : Handler Nat :=
  Tx.update .other snapshotTable (fun s => [⟨.snapshot s.id, .noKeyUpdate⟩]) p f fun _ _ => none

/-- `UPDATE voting_rounds SET .. WHERE ..`. -/
def updateRounds (p : Round → Bool) (f : Round → Round) : Handler Nat :=
  Tx.update .other roundTable (fun r => [⟨.round r.id, .noKeyUpdate⟩]) p f fun _ _ => none

/-! ### Requesting the anchoring -/

def createAnchorIntent (actorUserId snapshotId : Uuid) (idempotencyKey : String) (intentId : Uuid)
    (contractRoundKey : Int) : Handler Response := do
  let idempotencyKey ← valid
    (requiredText idempotencyKey 200 "invalid_voting_anchor_idempotency_key")
  let row ← Tx.selectFor .other
    (fun db => (snapshotTable.find db snapshotId).toList.map fun s => ⟨.snapshot s.id, .update⟩)
    (snapshotTable.find · snapshotId)
  let snapshot ← Tx.orElse row (.error .notFound)
  requireOrganizationEditor snapshot.organizationId actorUserId
  Tx.require (snapshot.status = .created || snapshot.status = .anchorPending)
    (.error (.conflict "voting_snapshot_not_anchorable"))
  let existing ← Tx.selectFor .other
    (fun db => (db.anchorIntentOf? snapshotId).toList.map fun i => ⟨.anchorIntent i.id, .update⟩)
    (·.anchorIntentOf? snapshotId)
  match existing with
  | some existing =>
      Tx.require (existing.idempotencyKey = idempotencyKey)
        (.error (.conflict "voting_snapshot_anchor_already_requested"))
      Tx.commit
      return .anchorIntent false existing.id
  | none =>
      let verified ← Tx.selectFor .other
        (fun db => db.auditAnchor?.toList.map fun d => ⟨.deployment d.id, .share⟩) (·.auditAnchor?)
      let deployment ← Tx.orElse verified
        (.error (.conflict "verified_audit_anchor_contract_missing"))
      insertAnchorIntent
        { id := intentId, organizationId := snapshot.organizationId, snapshotId
          roundId := snapshot.roundId, contractDeploymentId := deployment.id, contractRoundKey
          contractId := deployment.contractId, merkleRoot := snapshot.merkleRoot
          tallySha256 := snapshot.tallySha256, totalVotes := snapshot.totalVotes, idempotencyKey
          status := .created, submittedTxHash := none, createdByUserId := actorUserId }
      let _ ← updateSnapshots (fun s => s.id = snapshotId && s.status = .created)
        ({ · with status := .anchorPending })
      let record ← loadIntentTx intentId
      Tx.commit
      return .anchorIntent true record.id

/-! ### The submission -/

def recordAnchorSubmission (intentId : Uuid) (transactionHash : String) : Handler Response := do
  let transactionHash ← valid
    (validateHash transactionHash "invalid_voting_anchor_transaction_hash")
  let intent ← loadIntentTx intentId
  Tx.require (intent.status ≠ .confirmed) (.error (.conflict "voting_anchor_already_confirmed"))
  if intent.status = .submitted then
    Tx.require (intent.submittedTxHash = some transactionHash)
      (.error (.conflict "voting_anchor_submission_conflict"))
    Tx.commit
    return .anchorIntent false intent.id
  else
    Tx.require (intent.status = .created) (.error (.conflict "voting_anchor_not_submittable"))
    let _ ← updateAnchorIntents (fun i => i.id = intentId && i.status = .created)
      ({ · with status := .submitted, submittedTxHash := some transactionHash })
    let record ← loadIntentTx intentId
    Tx.commit
    return .anchorIntent false record.id

/-! ### The evidence -/

structure AnchorEvidenceRequest where
  transactionHash : String
  ledgerSequence : Int
  eventReference : String
  contractId : String
  contractRoundKey : Int
  merkleRoot : String
  tallySha256 : String
  totalVotes : Int
  rawEvent : Json

/-- The request with its texts normalised, if it passes the checks. -/
def AnchorEvidenceRequest.validate (body : AnchorEvidenceRequest) :
    Except ApiError AnchorEvidenceRequest := do
  let transactionHash ← validateHash body.transactionHash "invalid_voting_anchor_transaction_hash"
  let eventReference ← requiredText body.eventReference 240 "invalid_voting_anchor_event_reference"
  let contractId ← validateContractId body.contractId
  let merkleRoot ← validateHash body.merkleRoot "invalid_voting_merkle_root"
  let tallySha256 ← validateHash body.tallySha256 "invalid_voting_tally_hash"
  if body.ledgerSequence ≤ 0 ∨ ¬ (1 ≤ body.contractRoundKey ∧ body.contractRoundKey ≤ u32Max) ∨
      ¬ (0 ≤ body.totalVotes ∧ body.totalVotes ≤ u32Max) ∨ body.rawEvent.isObject = false then
    throw (.invalidRequest "invalid_voting_anchor_evidence")
  return { body with transactionHash, eventReference, contractId, merkleRoot, tallySha256 }

/-- The evidence row for an intent. -/
def AnchorEvidenceRequest.row (body : AnchorEvidenceRequest) (intent : AnchorIntent)
    (evidenceId : Uuid) : AnchorEvidence where
  id := evidenceId
  organizationId := intent.organizationId
  anchorIntentId := intent.id
  snapshotId := intent.snapshotId
  contractDeploymentId := intent.contractDeploymentId
  contractRoundKey := intent.contractRoundKey
  contractId := intent.contractId
  transactionHash := body.transactionHash
  ledgerSequence := body.ledgerSequence
  eventReference := body.eventReference
  merkleRoot := body.merkleRoot
  tallySha256 := body.tallySha256
  totalVotes := body.totalVotes

/-- A delivery of evidence that was accepted before. -/
def AnchorEvidence.agrees (e : AnchorEvidence) (body : AnchorEvidenceRequest) : Bool :=
  e.transactionHash = body.transactionHash && e.eventReference = body.eventReference &&
    e.merkleRoot = body.merkleRoot && e.tallySha256 = body.tallySha256

/-- The evidence is about what was to be published. -/
def AnchorIntent.matches (i : AnchorIntent) (body : AnchorEvidenceRequest) : Bool :=
  i.contractId = body.contractId && i.contractRoundKey = body.contractRoundKey &&
    i.merkleRoot = body.merkleRoot && i.tallySha256 = body.tallySha256 &&
    i.totalVotes = body.totalVotes

/-- What `UPDATE voting_snapshots` sets. -/
def Snapshot.anchor (body : AnchorEvidenceRequest) (evidenceId : Uuid) (s : Snapshot) : Snapshot :=
  { s with
    status := .anchored
    anchorTxHash := some body.transactionHash
    anchorContractEventId := some body.eventReference
    acceptedEvidenceId := some evidenceId }

def acceptAnchorEvidence (intentId : Uuid) (body : AnchorEvidenceRequest) (evidenceId : Uuid) :
    Handler Response := do
  let body ← valid body.validate
  let intent ← loadIntentTx intentId
  let existing ← loadEvidenceTx intentId
  match existing with
  | some existing =>
      Tx.require (existing.agrees body) (.error (.conflict "voting_anchor_evidence_conflict"))
      Tx.commit
      return .anchorEvidence false existing.id
  | none =>
      Tx.require (intent.status = .submitted && intent.submittedTxHash = some body.transactionHash)
        (.error (.conflict "voting_anchor_not_submitted"))
      Tx.require (intent.matches body) (.error (.conflict "voting_anchor_evidence_mismatch"))
      insertAnchorEvidence (body.row intent evidenceId)
      let _ ← updateAnchorIntents (fun i => i.id = intentId) ({ · with status := .confirmed })
      let _ ← updateSnapshots (fun s => s.id = intent.snapshotId && s.status = .anchorPending)
        (Snapshot.anchor body evidenceId)
      let _ ← updateRounds (fun r => r.id = intent.roundId && r.status = .closed)
        ({ · with status := .anchored })
      let evidence ← loadEvidenceTx intentId
      let evidence ← Tx.orElse evidence (.error .notFound)
      Tx.commit
      return .anchorEvidence true evidence.id

/-! ### All requests -/

/-- Contracts are deployed and verified elsewhere. -/
def setDeployments (deployments : List ContractDeployment) : Handler Response := do
  Tx.write .other (fun _ => []) fun db => { db with deployments }
  Tx.commit
  return .done

/-- The requests on rounds and on the anchoring of their snapshots. -/
inductive AnchorRequest (sha256 : Sha256) (tallyText : List TallyEntry → ByteArray) :
    Prog Database Row Site Result → Prop
  | voting {p : Prog Database Row Site Result} :
      Request sha256 tallyText p → AnchorRequest sha256 tallyText p
  | createAnchorIntent (actorUserId snapshotId : Uuid) (idempotencyKey : String) (intentId : Uuid)
      (contractRoundKey : Int) :
      AnchorRequest sha256 tallyText
        (createAnchorIntent actorUserId snapshotId idempotencyKey intentId contractRoundKey).request
  | recordAnchorSubmission (intentId : Uuid) (transactionHash : String) :
      AnchorRequest sha256 tallyText (recordAnchorSubmission intentId transactionHash).request
  | acceptAnchorEvidence (intentId : Uuid) (body : AnchorEvidenceRequest) (evidenceId : Uuid) :
      AnchorRequest sha256 tallyText (acceptAnchorEvidence intentId body evidenceId).request
  | setDeployments (deployments : List ContractDeployment) :
      AnchorRequest sha256 tallyText (setDeployments deployments).request

end CrownFi.Voting
