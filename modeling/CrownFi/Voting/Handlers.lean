import CrownFi.Lib.Fallible
import CrownFi.Voting.Schema

/-!
# CrownFi.Voting.Handlers

The voting requests as programs over the tables: `cast_vote` and `transition_round`
(`voting.rs`), `create_snapshot` and `get_receipt_proof` (`voting_proofs.rs`).

A fresh `Uuid` is an argument of the request. A key-share lock stands for a foreign
key to the round; the other foreign keys refer to rows that no modelled request
locks.
-/

namespace CrownFi.Voting

open Lib CrownFi.Api

/-- The statements a condition can speak about: the insert of a vote, with the round as
the request read it. -/
inductive Site
  | castVoteInsert (round : Round)
  | other
  deriving DecidableEq, Repr

structure VoteReceipt where
  voteId : Uuid
  roundId : Uuid
  pageantContestantId : Uuid
  receiptHash : String
  acceptedAt : Int
  deriving DecidableEq, Repr

inductive Response
  | receipt (created : Bool) (record : VoteReceipt)
  | round (id : Uuid)
  | snapshot (created : Bool) (id : Uuid)
  | anchorIntent (created : Bool) (id : Uuid)
  | anchorEvidence (created : Bool) (id : Uuid)
  | done
  deriving DecidableEq, Repr

abbrev Result := Except ApiError Response

abbrev Handler := Tx Database Row Site Result

/-- A request: the handler, answering its response. -/
def Handler.request (h : Handler Response) : Prog Database Row Site Result := h fun r => .ret (.ok r)

/-- Go on with a validated argument. -/
def valid {α : Type} (e : Except ApiError α) : Handler α := Tx.ofExcept e .error

/-! ### Casting a vote -/

structure CastVoteRequest where
  pageantContestantId : Uuid
  idempotencyKey : String
  deriving DecidableEq, Repr

def Vote.receipt (v : Vote) : VoteReceipt :=
  ⟨v.id, v.roundId, v.pageantContestantId, v.receiptHash, v.acceptedAt⟩

def voteRequestText (roundId voterUserId pageantContestantId : Uuid) (key : String) : String :=
  "round=" ++ roundId.text ++ ";voter=" ++ voterUserId.text ++ ";contestant=" ++
    pageantContestantId.text ++ ";key=" ++ key

def voteReceiptText (voteId roundId voterUserId pageantContestantId : Uuid)
    (requestSha256 : String) : String :=
  "vote=" ++ voteId.text ++ ";round=" ++ roundId.text ++ ";voter=" ++ voterUserId.text ++
    ";contestant=" ++ pageantContestantId.text ++ ";request=" ++ requestSha256

/-- The constraints an insert into `votes` can violate. -/
def voteViolation (v : Vote) (db : Database) : Option Result :=
  if db.votes.any fun w => w.id = v.id || (w.roundId = v.roundId && w.voterUserId = v.voterUserId) ||
      w.receiptHash = v.receiptHash then
    some (.error .duplicateVote)
  else if (db.round? v.roundId).isNone ||
      !db.pageantContestants.any (·.id = v.pageantContestantId) then
    some (.error (.invalidRequest "voting_related_resource_not_found"))
  else none

def insertVote (round : Round) (v : Vote) : Handler PUnit :=
  Tx.insert (.castVoteInsert round)
    (fun _ => [⟨.vote v.id, .update⟩, ⟨.voteOf v.roundId v.voterUserId, .update⟩,
      ⟨.receipt v.receiptHash, .update⟩, ⟨.round v.roundId, .keyShare⟩])
    (voteViolation v)
    fun db => { db with votes := db.votes ++ [v] }

def castVote (sha256 : Sha256) (voterUserId roundId : Uuid) (body : CastVoteRequest)
    (voteId : Uuid) : Handler Response := do
  let idempotencyKey ← valid (requiredText body.idempotencyKey 200 "invalid_vote_idempotency_key")
  let requestSha256 := hashText sha256
    (voteRequestText roundId voterUserId body.pageantContestantId idempotencyKey)
  let row ← Tx.select .other (·.round? roundId)
  let round ← Tx.orElse row (.error .notFound)
  let now ← Tx.select .other (·.directory.clock)
  Tx.require (round.status = .open && round.opensAt ≤ now && now < round.closesAt)
    (.error .votingClosed)
  let voterActive ← Tx.select .other fun db =>
    db.directory.userActive voterUserId && db.directory.verifiedOn .testnet voterUserId
  Tx.require voterActive (.error .forbidden)
  let contestantAllowed ← Tx.select .other
    (·.contestantAllowed roundId body.pageantContestantId round.pageantId)
  Tx.require contestantAllowed (.error (.invalidRequest "contestant_not_in_voting_round"))
  let existing ← Tx.select .other fun db => db.votes.find? fun v =>
    v.roundId = roundId && v.voterUserId = voterUserId && v.idempotencyKey = idempotencyKey
  match existing with
  | some existing =>
      let existingHash ← Tx.select .other fun db =>
        (db.votes.find? (·.id = existing.id)).map (·.requestSha256)
      Tx.require (existingHash = some requestSha256)
        (.error (.conflict "vote_idempotency_key_reused"))
      Tx.commit
      return .receipt false existing.receipt
  | none =>
      let receiptHash := hashText sha256
        (voteReceiptText voteId roundId voterUserId body.pageantContestantId requestSha256)
      let acceptedAt ← Tx.select .other (·.directory.clock)
      let vote : Vote :=
        { id := voteId, organizationId := round.organizationId, pageantId := round.pageantId
          roundId, pageantContestantId := body.pageantContestantId, voterUserId, idempotencyKey
          requestSha256, receiptHash, acceptedAt }
      insertVote round vote
      Tx.commit
      return .receipt true vote.receipt

/-! ### Opening and closing a round -/

/-- The row lock of `SELECT .. FROM voting_rounds WHERE id = .. FOR UPDATE`. -/
def roundForUpdate (roundId : Uuid) (db : Database) : List (Lock Row) :=
  if (db.round? roundId).isSome then [⟨.round roundId, .update⟩] else []

def requireOrganizationEditor (organizationId userId : Uuid) : Handler PUnit := do
  let allowed ← Tx.select .other (·.directory.organizationEditor organizationId userId)
  Tx.require allowed (.error .forbidden)

def transitionRound (actorUserId roundId : Uuid) (reason : String) (opening : Bool) :
    Handler Response := do
  let _ ← valid (requiredText reason 1000 "invalid_voting_transition_reason")
  let row ← Tx.selectFor .other (roundForUpdate roundId) (·.round? roundId)
  let current ← Tx.orElse row (.error .notFound)
  requireOrganizationEditor current.organizationId actorUserId
  let now ← Tx.select .other (·.directory.clock)
  if opening then
    Tx.require (current.status = .draft || current.status = .scheduled)
      (.error (.conflict "voting_round_not_openable"))
    Tx.require (current.opensAt ≤ now) (.error (.conflict "voting_round_not_started"))
    Tx.require (now < current.closesAt) (.error (.conflict "voting_round_expired"))
    Tx.write .other (fun _ => [⟨.round roundId, .noKeyUpdate⟩]) (·.setRoundStatus roundId .open)
    Tx.commit
    return .round roundId
  else
    Tx.require (current.status = .open || current.status = .closing)
      (.error (.conflict "voting_round_not_closable"))
    Tx.write .other (fun _ => [⟨.round roundId, .noKeyUpdate⟩]) (·.setRoundStatus roundId .closed)
    Tx.commit
    return .round roundId

/-! ### The snapshot of a closed round -/

def i64Max : Nat := 2 ^ 63 - 1

/-- The leaf `create_snapshot` makes of a vote. -/
def Vote.leaf (v : Vote) (roundId : Uuid) : VoteLeaf :=
  ⟨roundId, v.receiptHash, v.pageantContestantId⟩

def snapshotViolation (s : Snapshot) (db : Database) : Option Result :=
  if db.snapshots.any fun t => t.id = s.id || t.roundId = s.roundId then
    some (.error (.conflict "voting_snapshot_already_exists"))
  else none

def leafViolation (l : SnapshotLeaf) (db : Database) : Option Result :=
  if db.leaves.any fun m => m.voteId = l.voteId || m.receiptHash = l.receiptHash ||
      (m.snapshotId = l.snapshotId && (m.leafIndex = l.leafIndex || m.leafHash = l.leafHash)) then
    some (.error (.conflict "voting_snapshot_already_exists"))
  else none

def insertLeaf (l : SnapshotLeaf) : Handler PUnit :=
  Tx.insert .other
    (fun _ => [⟨.leafOf l.voteId, .update⟩, ⟨.leafReceipt l.receiptHash, .update⟩,
      ⟨.leafHash l.snapshotId l.leafHash, .update⟩, ⟨.vote l.voteId, .keyShare⟩])
    (leafViolation l)
    fun db => { db with leaves := db.leaves ++ [l] }

/-- The leaf rows of a snapshot, from a leaf index on. -/
def leafRows (sha256 : Sha256) (snapshotId roundId : Uuid) : Nat → List Vote → List SnapshotLeaf
  | _, [] => []
  | index, v :: rest =>
      { snapshotId, voteId := v.id, receiptHash := v.receiptHash, leafIndex := index
        leafHash := (v.leaf roundId).hash sha256 } ::
        leafRows sha256 snapshotId roundId (index + 1) rest

/-- The loop that inserts the leaf rows. -/
def insertLeaves : List SnapshotLeaf → Handler PUnit
  | [] => pure ⟨⟩
  | l :: rest => do
      insertLeaf l
      insertLeaves rest

/-- `tallyText` serialises the tally to the bytes that are hashed. -/
def createSnapshot (sha256 : Sha256) (tallyText : List TallyEntry → ByteArray)
    (actorUserId roundId snapshotId : Uuid) : Handler Response := do
  let row ← Tx.selectFor .other (roundForUpdate roundId) (·.round? roundId)
  let round ← Tx.orElse row (.error .notFound)
  requireOrganizationEditor round.organizationId actorUserId
  Tx.require (round.status = .closed || round.status = .anchored)
    (.error (.conflict "voting_round_not_closed"))
  let existing ← Tx.selectFor .other
    (fun db => (db.snapshotOf? roundId).toList.map fun s => ⟨.snapshot s.id, .update⟩)
    (·.snapshotOf? roundId)
  match existing with
  | some existing =>
      Tx.commit
      return .snapshot false existing.id
  | none =>
      let tally ← Tx.select .other (·.tally roundId)
      let votes ← Tx.selectFor .other
        (fun db => (db.orderedVotes roundId).map fun v => ⟨.vote v.id, .share⟩)
        (·.orderedVotes roundId)
      Tx.require (votes.length ≤ i64Max) (.error (.invalidRequest "voting_snapshot_too_large"))
      let tallyTotal := (tally.map (·.votes)).sum
      Tx.require (tallyTotal ≤ i64Max) (.error (.invalidRequest "voting_tally_overflow"))
      Tx.require (votes.length = tallyTotal) (.error (.conflict "voting_snapshot_tally_mismatch"))
      let leafHashes := votes.map fun v => (v.leaf roundId).hash sha256
      let snapshot : Snapshot :=
        { id := snapshotId, organizationId := round.organizationId, pageantId := round.pageantId
          roundId, status := .created, totalVotes := votes.length
          tallySha256 := hashBytes sha256 (tallyText tally)
          merkleRoot := merkleRoot sha256 leafHashes, tally, createdByUserId := actorUserId }
      Tx.insert .other
        (fun _ => [⟨.snapshot snapshotId, .update⟩, ⟨.snapshotOf roundId, .update⟩,
          ⟨.round roundId, .keyShare⟩])
        (snapshotViolation snapshot)
        fun db => { db with snapshots := db.snapshots ++ [snapshot] }
      insertLeaves (leafRows sha256 snapshotId roundId 0 votes)
      Tx.commit
      return .snapshot true snapshotId

/-! ### Everything else that happens to the tables -/

/-- The tables the voting requests only read, and the clock, may change at any time. -/
def environment (directory : Directory) (roundContestants : List RoundContestant)
    (pageantContestants : List PageantContestant) : Handler Response := do
  Tx.write .other (fun _ => []) fun db =>
    { db with directory, roundContestants, pageantContestants }
  Tx.commit
  return .done

/-- The requests on rounds: votes, openings and closings, snapshots. -/
inductive Request (sha256 : Sha256) (tallyText : List TallyEntry → ByteArray) :
    Prog Database Row Site Result → Prop
  | castVote (voterUserId roundId : Uuid) (body : CastVoteRequest) (voteId : Uuid) :
      Request sha256 tallyText (castVote sha256 voterUserId roundId body voteId).request
  | transitionRound (actorUserId roundId : Uuid) (reason : String) (opening : Bool) :
      Request sha256 tallyText (transitionRound actorUserId roundId reason opening).request
  | createSnapshot (actorUserId roundId snapshotId : Uuid) :
      Request sha256 tallyText
        (createSnapshot sha256 tallyText actorUserId roundId snapshotId).request
  | environment (directory : Directory) (roundContestants : List RoundContestant)
      (pageantContestants : List PageantContestant) :
      Request sha256 tallyText (environment directory roundContestants pageantContestants).request

/-! ### Receipts -/

/-- `validate_hash`: trimmed, in lower case, 64 hexadecimal digits. -/
def validateHash (value code : String) : Except ApiError String :=
  let value := trimLower value
  if byteLength value = 64 ∧ value.all (hexDigits.contains ·) = true then .ok (String.ofList value)
  else .error (.invalidRequest code)

structure ReceiptProof where
  snapshotId : Uuid
  roundId : Uuid
  snapshotStatus : SnapshotStatus
  receiptHash : String
  leafIndex : Nat
  leafHash : String
  merkleRoot : String
  proof : List ProofStep
  deriving DecidableEq, Repr

/-- `get_receipt_proof`. Its three queries are not in one transaction: each sees a
state of its own. -/
def getReceiptProof (sha256 : Sha256) (db₁ db₂ db₃ : Database) (receiptHash : String) :
    Except Abort ReceiptProof := do
  let receiptHash ← (validateHash receiptHash "invalid_vote_receipt_hash").mapError .error
  let leaf ← okOr (db₁.leaves.find? (·.receiptHash = receiptHash)) (.error .notFound)
  let snapshot ← okOr (db₂.snapshot? leaf.snapshotId) (.error .notFound)
  let leaves := db₃.leafHashes leaf.snapshotId
  failIf (leaves[leaf.leafIndex]? ≠ some leaf.leafHash)
    (.error (.conflict "voting_snapshot_leaf_drift"))
  let proof ← merkleProof sha256 leaves leaf.leafIndex
  failIf (verifyProof sha256 leaf.leafHash proof snapshot.merkleRoot = false)
    (.error (.conflict "voting_snapshot_proof_invalid"))
  return { snapshotId := snapshot.id, roundId := snapshot.roundId
           snapshotStatus := snapshot.status, receiptHash := leaf.receiptHash
           leafIndex := leaf.leafIndex, leafHash := leaf.leafHash
           merkleRoot := snapshot.merkleRoot, proof }

end CrownFi.Voting
