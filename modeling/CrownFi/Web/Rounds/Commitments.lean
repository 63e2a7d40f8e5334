import CrownFi.Web.Deliveries
import CrownFi.Web.Rounds.Requests

/-!
# CrownFi.Web.Rounds.Commitments

**A stored checkpoint is the one that its anchor transaction publishes.**
`prepare-close` reads the votes, builds the transaction that publishes their
checkpoint and keeps its hash; `confirm-close` submits that transaction, reads
the votes again, and stores what it computes then. The two are the same as long
as the second reading sees the votes of the first, which is the condition
(`Unchanged`): nothing keeps a vote from arriving while the administrator signs.
`close` computes once, and needs no condition.
-/

namespace CrownFi.Web.Rounds

open Lib Lib.Processes CrownFi.Api

variable {config : Config}

/-- The votes are read again as they were read when the transaction was prepared. -/
def Unchanged : Point → Database → Prop
  | .recompute roundId txHash, db => ∀ read ∈ db.readFor, read.1 = txHash → read.2 = db.voteRows roundId
  | _, _ => True

instance : (point : Point) → (db : Database) → Decidable (Unchanged point db)
  | .recompute roundId txHash, db =>
      inferInstanceAs (Decidable (∀ read ∈ db.readFor, read.1 = txHash → read.2 = db.voteRows roundId))
  | .readRound, _ | .countVotes, _ | .createVote _, _ | .readVotes, _ | .fetchAccount, _
  | .createIntent, _ | .consumeIntent, _ | .submit, _ | .save _ _, _ | .findCheckpoint, _
  | .findVote, _ => .isTrue trivial

/-! ### The invariant -/

/-- A transaction with this hash publishes what these votes amount to. -/
def Publishes (config : Config) (db : Database) (txHash : TxHash) (roundId : String) (cp : Computed) : Prop :=
  ∃ tx ∈ db.seen, config.net.hash tx = txHash ∧ tx.operations = publishOperations config roundId cp

/-- The transaction has been built from votes read then. -/
def Prepared (config : Config) (db : Database) (txHash : TxHash) (roundId : String) : Prop :=
  ∃ rows, (txHash, rows) ∈ db.readFor ∧ Publishes config db txHash roundId (computeCheckpoint config rows)

/-- The values of a checkpoint, as they are published. -/
def Checkpoint.operations (config : Config) (c : Checkpoint) : List Operation :=
  [.publish (roundIdToU32 config.sha256 c.roundId) c.merkleRoot c.tallyHash c.totalVotes]

structure Committed (config : Config) (db : Database) : Prop where
  intents : ∀ i ∈ db.intents, ∀ roundId, i.kind = .roundClose roundId → Prepared config db i.txHash roundId
  checkpoints : ∀ c ∈ db.checkpoints, ∀ txHash, c.anchorTx = .transaction txHash →
    ∃ tx ∈ db.seen, config.net.hash tx = txHash ∧ tx.operations = c.operations config

/-- The histories grow. -/
def Grows (_ : List Empty) (db db' : Database) : Prop := db.seen ⊆ db'.seen ∧ db.readFor ⊆ db'.readFor

variable {db db' : Database} {txHash : TxHash} {roundId : String} {cp : Computed} {held : List Empty}

theorem Publishes.grows (h : Publishes config db txHash roundId cp) (hseen : db.seen ⊆ db'.seen) :
    Publishes config db' txHash roundId cp := by
  obtain ⟨tx, htx, hhash, hoperations⟩ := h
  exact ⟨tx, hseen htx, hhash, hoperations⟩

theorem Prepared.grows (h : Prepared config db txHash roundId) (hseen : db.seen ⊆ db'.seen)
    (hread : db.readFor ⊆ db'.readFor) : Prepared config db' txHash roundId := by
  obtain ⟨rows, hrows, hpublishes⟩ := h
  exact ⟨rows, hread hrows, hpublishes.grows hseen⟩

/-- Fewer intents, the same checkpoints. -/
theorem Committed.grows (h : Committed config db) (hintents : ∀ i ∈ db'.intents, i ∈ db.intents)
    (hcheckpoints : db'.checkpoints = db.checkpoints) (hseen : db.seen ⊆ db'.seen)
    (hread : db.readFor ⊆ db'.readFor) : Committed config db' where
  intents i hi roundId hkind := (h.intents i (hintents i hi) roundId hkind).grows hseen hread
  checkpoints c hc txHash hanchor := by
    rw [hcheckpoints] at hc
    obtain ⟨tx, htx, hhash, hoperations⟩ := h.checkpoints c hc txHash hanchor
    exact ⟨tx, hseen htx, hhash, hoperations⟩

theorem Committed.votes (h : Committed config db) (votes : List Vote) : Committed config { db with votes } :=
  h.grows (fun _ hi => hi) rfl (List.Subset.refl _) (List.Subset.refl _)

theorem Committed.sent (h : Committed config db) (tx : Transaction) :
    Committed config { db with seen := tx :: db.seen } :=
  h.grows (fun _ hi => hi) rfl (List.subset_cons_self _ _) (List.Subset.refl _)

/-- **Storing an intent** for the transaction that publishes what has been read. -/
theorem Committed.storeIntent {adminAddress intentId : String} {rows : List VoteRow} {tx : Transaction}
    (h : Committed config db)
    (hoperations : tx.operations = publishOperations config roundId (computeCheckpoint config rows)) :
    Committed config (storeIntent config roundId adminAddress intentId rows tx db) := by
  have hgrown : Committed config { db with
      seen := tx :: db.seen, readFor := (config.net.hash tx, rows) :: db.readFor } :=
    h.grows (fun _ hi => hi) rfl (List.subset_cons_self _ _) (List.subset_cons_self _ _)
  constructor
  · intro i hi roundId' hkind
    rcases List.mem_append.mp hi with hold | hnew
    · exact hgrown.intents i (List.mem_filter.mp hold).1 roundId' hkind
    · obtain rfl := List.mem_singleton.mp hnew
      obtain rfl := IntentKind.roundClose.inj hkind
      exact ⟨rows, List.mem_cons_self, tx, List.mem_cons_self, rfl, hoperations⟩
  · exact hgrown.checkpoints

/-- **Saving a checkpoint** that its transaction publishes. -/
theorem Committed.save {anchorTx : AnchorTx} (h : Committed config db)
    (hpublishes : ∀ txHash, anchorTx = .transaction txHash → Publishes config db txHash roundId cp)
    (hsaved : saveCheckpoint roundId cp anchorTx db = .ok db') :
    Committed config db' ∧ db'.seen = db.seen ∧ db'.readFor = db.readFor := by
  obtain ⟨-, rfl⟩ := saveCheckpoint_eq_ok hsaved
  refine ⟨⟨h.intents, fun c hc txHash hanchor => ?_⟩, rfl, rfl⟩
  rcases List.mem_append.mp hc with hold | hnew
  · exact h.checkpoints c (List.mem_filter.mp hold).1 txHash hanchor
  · obtain rfl := List.mem_singleton.mp hnew
    exact hpublishes txHash hanchor

/-! ### The requests -/

section Requests

variable {ok : Point → Database → Prop} {A : Database → Prop} {α : Type}

/-- An outline against the invariant. -/
abbrev Commits (config : Config) (p : Proc Database Empty Point Answer) (A : Database → Prop) : Prop :=
  Outlined (Committed config) Grows Unchanged (fun _ _ _ => True) (fun _ => True) p [] A

end Requests

/-! ### Runs -/

def baseConfig : Config where
  sha256 _ := bytesOf 0
  net := testNetwork
  localeLe a b := a ≤ b
  quota := some 1
  live := true
  platformAddress := "GPLATFORM"

/-- What the administrator signs. -/
def emptyAnchor : Transaction :=
  buildTransaction "GADMIN" 7 60000 (publishOperations baseConfig "round" (computeCheckpoint baseConfig []))

def testConfig : Config :=
  { baseConfig with
    net := { testNetwork with fromXDR := fun text => if text = "signed" then some emptyAnchor else none } }

def openRound : Database where
  clock := 60000
  fanIds := ["fan"]
  contestants := [⟨"contestant", "Ana"⟩]
  rounds := [⟨"round", .open, none⟩]
  votes := []
  checkpoints := []
  intents := []
  sequence _ := 7
  seen := []
  readFor := []

theorem openRound_initial : openRound.Initial := ⟨rfl, by decide, rfl, rfl⟩

def castVote : List (Processes.Move Request Event) :=
  .spawn (.vote true (some ⟨"round", "fan", "contestant"⟩)) :: List.replicate 4 (.go 0)

end CrownFi.Web.Rounds
