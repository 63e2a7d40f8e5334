import CrownFi.Lib.Processes
import CrownFi.Lib.Tables
import CrownFi.Web.BuyRoutes
import CrownFi.Web.Rounds.Merkle
import Mathlib.Data.List.Sort

/-!
# CrownFi.Web.Rounds.Requests

Voting rounds of the web application: votes (`web/src/app/api/vote`), the two
ways to close a round and the receipts of its votes (`web/src/app/api/rounds`),
with `lib/roundClose.ts` and `lib/tally.ts`.

No request runs in a transaction, apart from the two statements that save a
checkpoint. So a request is a process that makes one access after another, with
the others in between. What the calls of the network answer comes with the
request (`Outcomes`).
-/

namespace CrownFi.Web.Rounds

open Lib Lib.Processes CrownFi.Api

/-! ### The data -/

inductive RoundStatus
  | «open»
  | closed
  deriving DecidableEq

structure Round where
  id : String
  status : RoundStatus
  closedAt : Option Nat
  deriving DecidableEq

structure Contestant where
  id : String
  name : String
  deriving DecidableEq

structure Vote where
  roundId : String
  fanId : String
  contestantId : String
  leafHash : String
  createdAt : Nat
  deriving DecidableEq

structure TallyEntry where
  contestantId : String
  name : String
  votes : Nat
  deriving DecidableEq

/-- The hash of an anchor transaction, or a fake one. -/
inductive AnchorTx
  | transaction (txHash : TxHash)
  | mock
  deriving DecidableEq

structure Checkpoint where
  roundId : String
  merkleRoot : String
  tallyHash : String
  totalVotes : Nat
  anchorTx : AnchorTx
  tally : List TallyEntry
  leaves : List String
  deriving DecidableEq

/-- A vote with the name of its contestant. -/
structure VoteRow where
  vote : Vote
  name : String
  deriving DecidableEq

/-- The database and the memory of the server, with two histories: `seen` lists the transactions that have
been built or submitted, `readFor` what had been read when an anchor transaction was prepared. -/
structure Database where
  clock : Nat
  fanIds : List String
  contestants : List Contestant
  rounds : List Round
  votes : List Vote
  checkpoints : List Checkpoint
  intents : List TxIntent
  sequence : String → Nat
  seen : List Transaction
  readFor : List (TxHash × List VoteRow)

structure Config where
  sha256 : Sha256
  net : Network
  /-- `a.localeCompare(b) <= 0`. -/
  localeLe : String → String → Bool
  /-- `VOTE_QUOTA_PER_ROUND`, unless it is not a number. -/
  quota : Option Nat
  /-- `STELLAR_MODE` is `live`. -/
  live : Bool
  platformAddress : String

def Database.round (db : Database) (id : String) : Option Round := db.rounds.find? (·.id = id)

def Database.contestant (db : Database) (id : String) : Option Contestant :=
  db.contestants.find? (·.id = id)

def Database.checkpoint (db : Database) (roundId : String) : Option Checkpoint :=
  db.checkpoints.find? (·.roundId = roundId)

/-- The votes of a round, in the order of their creation, each with its contestant. -/
def Database.voteRows (db : Database) (roundId : String) : List VoteRow :=
  ((db.votes.filter (·.roundId = roundId)).insertionSort fun a b => a.createdAt ≤ b.createdAt).map fun v =>
    ⟨v, ((db.contestant v.contestantId).map (·.name)).getD ""⟩

/-! ### `tally.ts` and `roundClose.ts` -/

/-- One round of the loop over the votes. -/
def countVote (counts : List TallyEntry) (row : VoteRow) : List TallyEntry :=
  if counts.any (·.contestantId = row.vote.contestantId) then
    updateWhere (·.contestantId = row.vote.contestantId) (fun e => { e with votes := e.votes + 1 }) counts
  else counts ++ [⟨row.vote.contestantId, row.name, 1⟩]

def tallyOf (rows : List VoteRow) : List TallyEntry :=
  (rows.foldl countVote []).insertionSort fun a b => b.votes ≤ a.votes

def tallyHash (config : Config) (entries : List TallyEntry) : String :=
  let sorted := entries.insertionSort fun a b => config.localeLe a.contestantId b.contestantId = true
  sha256Hex config.sha256 (String.intercalate "," (sorted.map fun e => e.contestantId ++ ":" ++ toString e.votes))

/-- The result of `computeCheckpoint`. -/
structure Computed where
  tally : List TallyEntry
  leaves : List String
  root : String
  tHash : String
  totalVotes : Nat
  deriving DecidableEq

/-- `computeCheckpoint`, on the votes that it has read. -/
def computeCheckpoint (config : Config) (rows : List VoteRow) : Computed :=
  let tally := tallyOf rows
  let leaves := rows.map (·.vote.leafHash)
  { tally
    leaves
    root := merkleRoot config.sha256 leaves
    tHash := tallyHash config tally
    totalVotes := rows.length }

def Computed.checkpoint (cp : Computed) (roundId : String) (anchorTx : AnchorTx) : Checkpoint where
  roundId
  merkleRoot := cp.root
  tallyHash := cp.tHash
  totalVotes := cp.totalVotes
  anchorTx
  tally := cp.tally
  leaves := cp.leaves

/-- `saveCheckpoint`: the round is closed and the checkpoint upserted, in one transaction. -/
def saveCheckpoint (roundId : String) (cp : Computed) (anchorTx : AnchorTx) (db : Database) :
    Except Unit Database :=
  if (db.round roundId).isNone then .error ()
  else
    .ok { db with
      rounds := updateWhere (·.id = roundId)
        (fun r => { r with status := .closed, closedAt := some db.clock }) db.rounds
      checkpoints := db.checkpoints.filter (fun c => c.roundId ≠ roundId) ++ [cp.checkpoint roundId anchorTx] }

theorem saveCheckpoint_eq_ok {roundId : String} {cp : Computed} {anchorTx : AnchorTx} {db db' : Database}
    (h : saveCheckpoint roundId cp anchorTx db = .ok db') :
    (∃ round, db.round roundId = some round) ∧
      db' = { db with
        rounds := updateWhere (·.id = roundId)
          (fun r => { r with status := .closed, closedAt := some db.clock }) db.rounds
        checkpoints :=
          db.checkpoints.filter (fun c => c.roundId ≠ roundId) ++ [cp.checkpoint roundId anchorTx] } := by
  unfold saveCheckpoint at h
  split at h
  · cases h
  · rename_i hround
    exact ⟨Option.ne_none_iff_exists'.mp (by simpa using hround), (Except.ok.inj h).symm⟩

/-! ### The chain -/

/-- `roundIdToU32`: the first eight digits of the hash. -/
def roundIdToU32 (sha256 : Sha256) (roundId : String) : Nat :=
  ((sha256 roundId.toUTF8).toList.take 4).foldl (fun n byte => n * 256 + byte.toNat) 0

/-- The call `publish` of a checkpoint. -/
def publishOperations (config : Config) (roundId : String) (cp : Computed) : List Operation :=
  [.publish (roundIdToU32 config.sha256 roundId) cp.root cp.tHash cp.totalVotes]

/-- The loop that waits for the transaction. -/
def polled (o : Outcomes) : Nat → Bool
  | 0 => o.poll 0 = .answers .success
  | left + 1 =>
      match o.poll (left + 1) with
      | .answers .success => true
      | .answers .notFound => polled o left
      | _ => false

/-- The transaction is sent, and found to have succeeded. -/
def succeeds (o : Outcomes) : Bool :=
  match o.send with
  | .answers .error => false
  | .answers _ => polled o 30
  | _ => false

def answered {α : Type} : Outcome α → Bool
  | .answers _ => true
  | _ => false

/-! ### The requests -/

structure VoteBody where
  roundId : String
  fanId : String
  contestantId : String

inductive Request
  | vote (allowed : Bool) (body : Option VoteBody)
  | prepareClose (admin : Option String) (roundId adminAddress : String) (o : Outcomes)
  | confirmClose (admin : Option String) (roundId signedXdr intentId : String) (o : Outcomes)
  | close (admin : Option String) (roundId : String) (o : Outcomes)
  | receipt (roundId : String) (fanId : String)

inductive Answer
  | ok
  | error (status : Nat) (code : String)
  /-- Status 500, with the message of what was thrown. -/
  | failed
  | receipt (verified : Bool)
  deriving DecidableEq

/-- The accesses. -/
inductive Point
  | readRound
  | countVotes
  | createVote (roundId : String)
  | readVotes
  | fetchAccount
  | createIntent
  | consumeIntent
  | submit
  | recompute (roundId : String) (txHash : TxHash)
  | save (roundId : String) (leaves : List String)
  | findCheckpoint
  | findVote

abbrev Handler := Task Database Empty Point Answer

/-- The row of a vote. -/
def VoteBody.row (config : Config) (body : VoteBody) (createdAt : Nat) : Vote where
  roundId := body.roundId
  fanId := body.fanId
  contestantId := body.contestantId
  leafHash := voteLeaf config.sha256 body.fanId body.contestantId body.roundId
  createdAt

/-- `db.vote.create`, unless a constraint refuses the row. -/
def insertVote (config : Config) (body : VoteBody) (db : Database) : Except Unit Database :=
  if body.fanId ∉ db.fanIds ∨ (db.round body.roundId).isNone ∨ (db.contestant body.contestantId).isNone ∨
      db.votes.any (fun v => v.roundId = body.roundId && v.fanId = body.fanId) then .error ()
  else .ok { db with votes := db.votes ++ [body.row config db.clock] }

theorem insertVote_eq_ok {config : Config} {body : VoteBody} {db db' : Database}
    (h : insertVote config body db = .ok db') :
    db' = { db with votes := db.votes ++ [body.row config db.clock] } := by
  unfold insertVote at h
  split at h
  · cases h
  · exact (Except.ok.inj h).symm

/-- `POST /api/vote`; `allowed` by the rate limit. -/
def vote (config : Config) (allowed : Bool) (body : Option VoteBody) : Handler Answer := do
  Task.require allowed (.error 429 "rate_limited")
  let body ← Task.orElse body (.error 400 "invalid_json")
  Task.require (body.roundId ≠ "" && body.fanId ≠ "" && body.contestantId ≠ "") (.error 400 "missing_fields")
  let round ← Task.read .readRound (·.round body.roundId)
  let round ← Task.orElse round (.error 404 "round_not_found")
  Task.require (round.status = .open) (.error 409 "round_closed")
  let existing ← Task.read .countVotes fun db =>
    db.votes.countP fun v => v.roundId = body.roundId && v.fanId = body.fanId
  Task.require (config.quota.all fun quota => existing < quota) (.error 409 "quota_reached")
  Task.transact (.createVote body.roundId) (insertVote config body) fun _ => .error 409 "duplicate_vote"
  return .ok

/-- The checks that the three closing routes begin with. -/
def requireOpen (roundId : String) : Handler PUnit := do
  let round ← Task.read .readRound (·.round roundId)
  let round ← Task.orElse round (.error 404 "round_not_found")
  Task.require (!(round.status = .closed && round.closedAt.isSome)) (.error 409 "already_closed")

/-- `createTxIntent` for the transaction that publishes what has been read. -/
def storeIntent (config : Config) (roundId adminAddress intentId : String) (rows : List VoteRow)
    (tx : Transaction) (db : Database) : Database :=
  { db with
    intents := createTxIntent intentId db.clock (.roundClose roundId) adminAddress (config.net.hash tx) db.intents
    seen := tx :: db.seen
    readFor := (config.net.hash tx, rows) :: db.readFor }

/-- `POST /api/rounds/[id]/prepare-close`. -/
def prepareClose (config : Config) (admin : Option String) (roundId adminAddress : String) (o : Outcomes) :
    Handler Answer := do
  let admin ← Task.orElse admin (.error 401 "admin_auth_required")
  requireOpen roundId
  let rows ← Task.read .readVotes (·.voteRows roundId)
  let cp := computeCheckpoint config rows
  Task.require config.live .ok
  Task.require (adminAddress.startsWith "G") (.error 400 "connect_wallet")
  Task.require (admin = adminAddress) (.error 403 "admin_wallet_mismatch")
  Task.require (answered o.account) .failed
  let tx ← Task.read .fetchAccount fun db =>
    buildTransaction adminAddress (db.sequence adminAddress) db.clock (publishOperations config roundId cp)
  Task.require (answered o.prepare) .failed
  Task.write .createIntent (storeIntent config roundId adminAddress o.intentId rows tx)
  return .ok

/-- `submitSignedXdr`; the answer is the hash of the transaction. -/
def submitSigned (config : Config) (o : Outcomes) (signedXdr source : String) (txHash : TxHash) :
    Handler TxHash := do
  let tx ← Task.orElse (config.net.fromXDR signedXdr) .failed
  Task.require (tx.source = source) .failed
  Task.require (config.net.hash tx = txHash) .failed
  Task.write .submit fun db => { db with seen := tx :: db.seen }
  Task.require (succeeds o) .failed
  return config.net.hash tx

/-- `POST /api/rounds/[id]/confirm-close`. -/
def confirmClose (config : Config) (admin : Option String) (roundId signedXdr intentId : String)
    (o : Outcomes) : Handler Answer := do
  let admin ← Task.orElse admin (.error 401 "admin_auth_required")
  Task.require (signedXdr ≠ "" && intentId ≠ "") (.error 400 "missing_signed_tx")
  requireOpen roundId
  let intent ← Task.access .consumeIntent
    (fun db => { db with intents := withoutIntent intentId db.intents })
    fun db => liveIntent intentId db.clock db.intents
  let intent ← Task.orElse (intent.filter (·.kind = .roundClose roundId)) (.error 409 "invalid_or_expired_intent")
  let txHash ← submitSigned config o signedXdr admin intent.txHash
  let rows ← Task.read (.recompute roundId txHash) (·.voteRows roundId)
  let cp := computeCheckpoint config rows
  Task.transact (.save roundId cp.leaves) (saveCheckpoint roundId cp (.transaction txHash)) fun _ => .failed
  return .ok

/-- The transaction of `invoke`, which the platform signs. -/
def platformTransaction (config : Config) (operations : List Operation) (db : Database) : Transaction where
  source := config.platformAddress
  sequence := db.sequence config.platformAddress + 1
  operations
  maxTime := db.clock / 1000 + 30

/-- `anchorCheckpoint`. -/
def anchorCheckpoint (config : Config) (o : Outcomes) (roundId : String) (cp : Computed) : Handler AnchorTx :=
  if config.live then do
    let tx ← Task.access .submit
      (fun db => { db with
        seen := platformTransaction config (publishOperations config roundId cp) db :: db.seen })
      (platformTransaction config (publishOperations config roundId cp))
    Task.require (succeeds o) .failed
    return .transaction (config.net.hash tx)
  else return .mock

/-- `POST /api/rounds/[id]/close`. -/
def close (config : Config) (admin : Option String) (roundId : String) (o : Outcomes) : Handler Answer := do
  let _ ← Task.orElse admin (.error 401 "admin_auth_required")
  requireOpen roundId
  let rows ← Task.read .readVotes (·.voteRows roundId)
  let cp := computeCheckpoint config rows
  let anchorTx ← anchorCheckpoint config o roundId cp
  Task.transact (.save roundId cp.leaves) (saveCheckpoint roundId cp anchorTx) fun _ => .failed
  return .ok

/-- What `receipt` answers for a vote and a checkpoint. -/
def receiptFor (config : Config) (checkpoint : Checkpoint) (vote : Vote) : Answer :=
  if checkpoint.leaves.contains vote.leafHash then
    match merkleProof config.sha256 checkpoint.leaves (checkpoint.leaves.idxOf vote.leafHash) with
    | some proof => .receipt (verifyProof config.sha256 vote.leafHash proof checkpoint.merkleRoot)
    | none => .failed
  else .error 500 "leaf_not_found"

/-- `GET /api/rounds/[id]/receipt`. -/
def receipt (config : Config) (roundId fanId : String) : Handler Answer := do
  Task.require (fanId ≠ "") (.error 400 "missing_fanId")
  let checkpoint ← Task.read .findCheckpoint (·.checkpoint roundId)
  let checkpoint ← Task.orElse checkpoint (.error 409 "round_not_closed")
  let vote ← Task.read .findVote fun db => db.votes.find? fun v => v.roundId = roundId && v.fanId = fanId
  let vote ← Task.orElse vote (.error 404 "no_vote_for_fan")
  return receiptFor config checkpoint vote

/-! ### The system -/

/-- What else happens: a new round (`POST /api/rounds`), a change of an account, time, and a restart of the
server, which forgets the intents. -/
inductive Event
  | createRound (id : String)
  | account (source : String) (sequence : Nat)
  | tick (elapsed : Nat)
  | restart

def Event.change : Event → Database → Database
  | .createRound id, db => { db with rounds := db.rounds ++ [⟨id, .open, none⟩] }
  | .account source sequence, db =>
      { db with sequence := fun address => if address = source then sequence else db.sequence address }
  | .tick elapsed, db => { db with clock := db.clock + elapsed }
  | .restart, db => { db with intents := [] }

/-- Identifiers of rounds are fresh. -/
def Event.Possible : Event → Database → Prop
  | .createRound id, db => db.round id = none
  | _, _ => True

instance : (e : Event) → (db : Database) → Decidable (e.Possible db)
  | .createRound id, db => inferInstanceAs (Decidable (db.round id = none))
  | .account _ _, _ | .tick _, _ | .restart, _ => .isTrue trivial

def program (config : Config) : Request → Proc Database Empty Point Answer
  | .vote allowed body => vote config allowed body .ret
  | .prepareClose admin roundId adminAddress o => prepareClose config admin roundId adminAddress o .ret
  | .confirmClose admin roundId signedXdr intentId o => confirmClose config admin roundId signedXdr intentId o .ret
  | .close admin roundId o => close config admin roundId o .ret
  | .receipt roundId fanId => receipt config roundId fanId .ret

def system (config : Config) : System Request Database Empty Point Answer Event where
  program := program config
  change := Event.change
  possible := Event.Possible

instance (config : Config) (e : Event) (db : Database) : Decidable ((system config).possible e db) :=
  inferInstanceAs (Decidable (e.Possible db))

/-- No round has been closed and no vote cast yet. -/
structure Database.Initial (db : Database) : Prop where
  votes : db.votes = []
  rounds : ∀ r ∈ db.rounds, r.status = .open
  checkpoints : db.checkpoints = []
  intents : db.intents = []

abbrev RoundsWorld := Processes.World Request Database Empty Point Answer

end CrownFi.Web.Rounds
