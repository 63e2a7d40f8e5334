import CrownFi.Api.Primitives
import CrownFi.Lib.Counters
import CrownFi.Lib.Fallible
import CrownFi.Lib.Run
import Mathlib.Data.List.Sort
import Mathlib.Data.String.Basic

/-!
# CrownFi.App.Votes

The **votes that are kept in memory** (`app.rs`, with the state of `state.rs`). A vote is accepted by
inserting its key into the set of votes, under one mutex, and counted in the tally, under another; a
snapshot is taken from the tally, under that mutex, and stored under a third one. Between two of these
critical sections everybody else may run, so a request is two steps of the system, and what it has
accepted and not yet counted, or taken and not yet stored, is part of the system's state.

* The maps of events, categories and contestants are filled at the start and never change; the fields
  that no handler here looks at are left out.
* A set is the list of its elements, a map the list of its entries; what is missing in the tally is an
  empty bucket, as `or_default` has it. The order in which a hash map is walked has no effect: every
  walk is sorted by votes and id (`buildTally_perm`).
* No handler waits between its critical sections, so no request is dropped there. Ids of snapshots are
  random and new.
-/

namespace CrownFi.App

open Lib Api

inductive ApiError
  | invalidRequest (code : String)
  | votingClosed
  | duplicateVote
  | notFound
  | unauthorized
  deriving DecidableEq, Repr

structure Category where
  id : String
  eventId : String
  votingStatus : String
  deriving DecidableEq, Repr

structure Contestant where
  id : String
  eventId : String
  categoryId : String
  deriving DecidableEq, Repr

/-- What `AppState::new` fills in. -/
structure Catalogue where
  events : List String
  categories : List Category
  contestants : List Contestant

structure Config where
  apiMode : String
  stellarMode : String
  adminDemoToken : String

structure VoteRequest where
  categoryId : String
  voterId : String
  contestantId : String
  deriving DecidableEq, Repr

structure VoteKey where
  eventId : String
  categoryId : String
  voterId : String
  deriving DecidableEq, Repr

/-- A vote that has been accepted. -/
structure Vote where
  eventId : String
  categoryId : String
  voterId : String
  contestantId : String
  deriving DecidableEq, Repr

structure VoteReceipt where
  id : String
  eventId : String
  categoryId : String
  voterId : String
  contestantId : String
  leafHash : String
  mode : String
  deriving DecidableEq, Repr

structure TallyEntry where
  contestantId : String
  votes : Nat
  deriving DecidableEq, Repr

structure TallyResponse where
  eventId : String
  categoryId : String
  totalVotes : Nat
  entries : List TallyEntry
  deriving DecidableEq, Repr

structure Snapshot where
  id : String
  eventId : String
  categoryId : String
  snapshotHash : String
  merkleRoot : String
  totalVotes : Nat
  anchorTx : Option String
  mode : String
  deriving DecidableEq, Repr

/-- `(event_id, category_id)` to the votes of each contestant. -/
abbrev Tally := String × String → List (String × Nat)

def Catalogue.category (cat : Catalogue) (id : String) : Option Category := cat.categories.find? (·.id = id)

def Catalogue.contestant (cat : Catalogue) (id : String) : Option Contestant :=
  cat.contestants.find? (·.id = id)

def VoteRequest.vote (body : VoteRequest) (eventId : String) : Vote where
  eventId := eventId
  categoryId := body.categoryId
  voterId := body.voterId
  contestantId := body.contestantId

def Vote.key (v : Vote) : VoteKey := ⟨v.eventId, v.categoryId, v.voterId⟩

/-- The bucket that a vote is counted in. -/
def Vote.bucket (v : Vote) : String × String := (v.eventId, v.categoryId)

def Config.requireAdmin (config : Config) (provided : Option String) : Except ApiError Unit :=
  failIf (provided.getD "" ≠ config.adminDemoToken) .unauthorized

/-! ### Votes -/

/-- `hash_parts`. -/
def hashParts (sha256 : Sha256) (parts : List String) : String := hashText sha256 ("|".intercalate parts)

def Vote.parts (v : Vote) : List String := [v.eventId, v.categoryId, v.voterId, v.contestantId]

def Vote.leafHash (sha256 : Sha256) (v : Vote) : String := hashParts sha256 v.parts

/-- `submit_vote`, up to the insertion of the key. -/
def admitVote (cat : Catalogue) (eventId : String) (body : VoteRequest) (votes : List VoteKey) :
    Except ApiError (List VoteKey) := do
  let category ← okOr (cat.category body.categoryId) (.invalidRequest "category_not_found")
  failIf (category.eventId ≠ eventId) (.invalidRequest "category_event_mismatch")
  failIf (category.votingStatus ≠ "open") .votingClosed
  let contestant ← okOr (cat.contestant body.contestantId) (.invalidRequest "contestant_not_found")
  failIf (contestant.eventId ≠ eventId ∨ contestant.categoryId ≠ body.categoryId)
    (.invalidRequest "contestant_category_mismatch")
  failIf ((body.vote eventId).key ∈ votes) .duplicateVote
  return votes ++ [(body.vote eventId).key]

/-- `submit_vote`, with the tally locked. -/
def countVote (v : Vote) (tally : Tally) : Tally := fun bucket =>
  if bucket = v.bucket then bump v.contestantId (tally bucket) else tally bucket

/-- What `submit_vote` answers. -/
def Vote.receipt (config : Config) (sha256 : Sha256) (receiptId : String) (v : Vote) : VoteReceipt where
  id := receiptId
  eventId := v.eventId
  categoryId := v.categoryId
  voterId := v.voterId
  contestantId := v.contestantId
  leafHash := v.leafHash sha256
  mode := config.apiMode

/-! ### The tally -/

/-- The order of the entries: by votes, the most first, and then by id. -/
def TallyEntry.Before (a b : TallyEntry) : Prop :=
  b.votes < a.votes ∨ (a.votes = b.votes ∧ a.contestantId ≤ b.contestantId)

instance : DecidableRel TallyEntry.Before := fun _ _ => inferInstanceAs (Decidable (_ ∨ _))

/-- The sorted entries of a bucket. -/
def tallyEntries (bucket : List (String × Nat)) : List TallyEntry :=
  (bucket.map fun c => (⟨c.1, c.2⟩ : TallyEntry)).insertionSort TallyEntry.Before

def buildTally (tally : Tally) (eventId categoryId : String) : TallyResponse :=
  let entries := tallyEntries (tally (eventId, categoryId))
  { eventId, categoryId
    totalVotes := (entries.map (·.votes)).sum
    entries }

def getTally (cat : Catalogue) (tally : Tally) (eventId : String) : Except ApiError TallyResponse := do
  failIf (eventId ∉ cat.events) .notFound
  return buildTally tally eventId "fan-choice"

/-! ### The canonical text

`serde_json::to_string` of a tally: the fields in their order, and texts with the escapes of the
serializer. -/

def escapeChar (c : Char) : List Char :=
  if c = '"' then ['\\', '"']
  else if c = '\\' then ['\\', '\\']
  else if c.toNat = 8 then ['\\', 'b']
  else if c = '\t' then ['\\', 't']
  else if c = '\n' then ['\\', 'n']
  else if c.toNat = 12 then ['\\', 'f']
  else if c = '\r' then ['\\', 'r']
  else if c.toNat < 32 then ['\\', 'u', '0', '0', hexDigit (c.toNat / 16), hexDigit (c.toNat % 16)]
  else [c]

def quoted (s : String) : List Char := '"' :: (s.toList.flatMap escapeChar ++ ['"'])

def TallyEntry.json (entry : TallyEntry) : List Char :=
  "\x7b\"contestant_id\":".toList ++ quoted entry.contestantId ++ ",\"votes\":".toList ++
    Nat.toDigits 10 entry.votes ++ ['\x7d']

def TallyResponse.json (tally : TallyResponse) : List Char :=
  "\x7b\"event_id\":".toList ++ quoted tally.eventId ++ ",\"category_id\":".toList ++
    quoted tally.categoryId ++ ",\"total_votes\":".toList ++ Nat.toDigits 10 tally.totalVotes ++
    ",\"entries\":[".toList ++ [','].intercalate (tally.entries.map TallyEntry.json) ++ [']', '\x7d']

/-! ### Snapshots -/

/-- `create_snapshot`, up to the storing. -/
def draftSnapshot (config : Config) (sha256 : Sha256) (cat : Catalogue) (provided : Option String)
    (snapshotId eventId categoryId : String) (tally : Tally) : Except ApiError Snapshot := do
  config.requireAdmin provided
  failIf (eventId ∉ cat.events) .notFound
  let response := buildTally tally eventId categoryId
  let snapshotHash := hashText sha256 (String.ofList response.json)
  return {
    id := snapshotId
    eventId, categoryId, snapshotHash
    merkleRoot := hashParts sha256 [snapshotHash, toString response.totalVotes]
    totalVotes := response.totalVotes
    anchorTx := none
    mode := config.stellarMode }

def storeSnapshot (s : Snapshot) (snapshots : List Snapshot) : List Snapshot :=
  snapshots.filter (·.id ≠ s.id) ++ [s]

def getSnapshot (snapshotId : String) (snapshots : List Snapshot) : Except ApiError Snapshot :=
  okOr (snapshots.find? (·.id = snapshotId)) .notFound

/-- The reference that a snapshot is anchored with. -/
def Snapshot.txHash (config : Config) (s : Snapshot) : String :=
  (if config.stellarMode = "live" then "pending-live-stellar-submit-" else "mock-stellar-tx-") ++
    String.ofList (s.snapshotHash.toList.take 16)

def anchorSnapshot (config : Config) (provided : Option String) (snapshotId : String)
    (snapshots : List Snapshot) : Except ApiError (List Snapshot × String) := do
  config.requireAdmin provided
  let snapshot ← getSnapshot snapshotId snapshots
  let txHash := snapshot.txHash config
  return (snapshots.map fun s => if s.id = snapshotId then { s with anchorTx := some txHash } else s, txHash)

/-- The `ok` of `verify_snapshot`, and the snapshot. -/
def verifySnapshot (snapshotId : String) (snapshots : List Snapshot) : Except ApiError (Bool × Snapshot) := do
  let snapshot ← getSnapshot snapshotId snapshots
  return (snapshot.anchorTx.isSome, snapshot)

/-! ### The system -/

/-- What is in memory, with what is between two critical sections: votes that have been accepted and
not yet counted, and snapshots that have been taken and not yet stored. -/
structure World where
  votes : List VoteKey
  tally : Tally
  snapshots : List Snapshot
  pending : List Vote
  drafts : List Snapshot

/-- Nothing has happened yet. -/
def World.empty : World where
  votes := []
  tally := fun _ => []
  snapshots := []
  pending := []
  drafts := []

inductive Move
  | accept (eventId : String) (body : VoteRequest)
  | count (v : Vote)
  | draft (provided : Option String) (snapshotId eventId categoryId : String)
  | store (s : Snapshot)
  | anchor (provided : Option String) (snapshotId : String)

/-- One critical section. -/
inductive Step (config : Config) (sha256 : Sha256) (cat : Catalogue) (w : World) : Move → World → Prop
  | accept {eventId : String} {body : VoteRequest} {votes : List VoteKey} :
      admitVote cat eventId body w.votes = .ok votes →
      Step config sha256 cat w (.accept eventId body)
        { w with votes, pending := w.pending ++ [body.vote eventId] }
  | count {v : Vote} :
      v ∈ w.pending →
      Step config sha256 cat w (.count v)
        { w with tally := countVote v w.tally, pending := w.pending.erase v }
  | draft {provided : Option String} {snapshotId eventId categoryId : String} {s : Snapshot} :
      draftSnapshot config sha256 cat provided snapshotId eventId categoryId w.tally = .ok s →
      (∀ t ∈ w.snapshots ++ w.drafts, t.id ≠ snapshotId) →
      Step config sha256 cat w (.draft provided snapshotId eventId categoryId)
        { w with drafts := w.drafts ++ [s] }
  | store {s : Snapshot} :
      s ∈ w.drafts →
      Step config sha256 cat w (.store s)
        { w with snapshots := storeSnapshot s w.snapshots, drafts := w.drafts.erase s }
  | anchor {provided : Option String} {snapshotId txHash : String} {snapshots : List Snapshot} :
      anchorSnapshot config provided snapshotId w.snapshots = .ok (snapshots, txHash) →
      Step config sha256 cat w (.anchor provided snapshotId) { w with snapshots }

end CrownFi.App
