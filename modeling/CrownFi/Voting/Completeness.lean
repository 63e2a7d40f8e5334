import CrownFi.Lib.Tables
import CrownFi.Voting.Invariant
import Mathlib

/-!
# CrownFi.Voting.Completeness

**What a stored snapshot is worth.** Two results about every interleaving of the
voting requests. A snapshot holds exactly the votes of its round, now and later, as
long as no round changes between the read of `cast_vote` and its insert; without
that condition a late vote is accepted and missing. And whatever the snapshot
holds, every receipt in it has a proof, which the service finds and which verifies.
-/

namespace CrownFi.Voting

open Lib CrownFi.Api

variable {sha256 : Sha256} {tallyText : List TallyEntry → ByteArray}

/-- The tables before any snapshot is made. -/
structure Initial (db : Database) : Prop where
  roundIds : (db.rounds.map (·.id)).Nodup
  voteReceipts : ∀ v ∈ db.votes, IsHash v.receiptHash
  snapshots : db.snapshots = []
  leaves : db.leaves = []

theorem Initial.inv {frozen : Prop} {db : Database} (h : Initial db) : Inv sha256 frozen db where
  roundIds := h.roundIds
  snapshotIds := by simp [h.snapshots]
  receipts := by simp [h.leaves]
  voteReceipts := h.voteReceipts
  leafReceipts := by simp [h.leaves]
  owned := by simp [h.leaves]
  stored := by simp [h.snapshots]
  closed := by simp [h.snapshots]

/-! ### What later states keep -/

/-- Snapshots and their leaves stay. -/
structure Kept (db db' : Database) : Prop where
  snapshots : ∀ s ∈ db.snapshots, s ∈ db'.snapshots
  leaves : ∀ s ∈ db.snapshots, db'.leavesOf s.id = db.leavesOf s.id

theorem Kept.trans {a b c : Database} (h : Kept a b) (h' : Kept b c) : Kept a c where
  snapshots s hs := h'.snapshots s (h.snapshots s hs)
  leaves s hs := (h'.leaves s (h.snapshots s hs)).trans (h.leaves s hs)

theorem Guarantee.kept {frozen : Prop} {L : List (Lock Row)} {db db' : Database}
    (h : Guarantee frozen L db db') : Kept db db' where
  snapshots s hs := by
    obtain ⟨new, hnew, -⟩ := h.snapshots
    rw [hnew]
    exact List.mem_append_left _ hs
  leaves s hs := by
    obtain ⟨new, hnew, hlocks⟩ := h.leaves
    have hnone : new.filter (·.snapshotId = s.id) = [] := by
      refine List.filter_eq_nil_iff.mpr fun l hl heq => ?_
      exact (hlocks l hl).2 s hs (by simpa [eq_comm] using heq)
    rw [Database.leavesOf, hnew, List.filter_append, hnone, List.append_nil, Database.leavesOf]

/-- A round that was left stays left, with the votes it has. -/
def Sealed (db db' : Database) : Prop :=
  ∀ id r, db.round? id = some r → r.status.Left →
    (∃ r', db'.round? id = some r' ∧ r'.status.Left) ∧ db'.votesOf id = db.votesOf id

theorem Sealed.trans {a b c : Database} (h : Sealed a b) (h' : Sealed b c) : Sealed a c := by
  intro id r hr hleft
  obtain ⟨⟨r', hr', hleft'⟩, hvotes⟩ := h id r hr hleft
  obtain ⟨hlater, hvotes'⟩ := h' id r' hr' hleft'
  exact ⟨hlater, hvotes'.trans hvotes⟩

theorem Guarantee.sealed {L : List (Lock Row)} {db db' : Database} (h : Guarantee True L db db') :
    Sealed db db' :=
  fun id r hr hleft => ⟨h.left id r hr hleft, h.frozenVotes trivial id r hr hleft⟩

theorem condition_true : Condition True = RoundUnchanged := by
  funext site db
  simp [Condition]

theorem condition_false : Condition False = fun _ _ => True := by
  funext site db
  simp [Condition]

/-! ### Snapshots and the accepted votes -/

/-- The leaves and the count of the snapshot are those of the round's accepted votes. -/
structure Complete (sha256 : Sha256) (db : Database) (s : Snapshot) : Prop where
  leaves : ((db.leavesOf s.id).map fun l => (l.voteId, l.receiptHash, l.leafHash)).Perm
    ((db.votesOf s.roundId).map fun v => (v.id, v.receiptHash, (v.leaf s.roundId).hash sha256))
  total : s.totalVotes = (db.votesOf s.roundId).length

theorem map_leafRows {snapshotId roundId : Uuid} (index : Nat) (vs : List Vote) :
    (leafRows sha256 snapshotId roundId index vs).map
        (fun l => (l.voteId, l.receiptHash, l.leafHash)) =
      vs.map fun v => (v.id, v.receiptHash, (v.leaf roundId).hash sha256) := by
  induction vs generalizing index with
  | nil => rfl
  | cons v vs ih => rw [leafRows, List.map_cons, List.map_cons, ih]

theorem Inv.complete {db : Database} {s : Snapshot} (h : Inv sha256 True db)
    (hs : s ∈ db.snapshots) : Complete sha256 db s := by
  obtain ⟨vs, hdesc, heq⟩ := h.stored s hs
  obtain rfl := heq trivial
  have hperm := List.perm_insertionSort Database.voteOrder (db.votesOf s.roundId)
  refine ⟨?_, ?_⟩
  · rw [hdesc.leaves, map_leafRows]
    exact hperm.map _
  · rw [hdesc.total]
    exact hperm.length_eq

/-- **Snapshots stay complete** in every run in which no round changes between the read
of `cast_vote` and its insert, and no vote is accepted into a round that was left. -/
theorem snapshots_complete {db₀ : Database} (h₀ : Initial db₀)
    {pool pool' : Pool Database Row Site Result}
    {actions actions' : List (Action Database Row Site Result)}
    (hrun : Run (Pool.Step (Request sha256 tallyText) RoundUnchanged) (Pool.idle db₀) actions pool)
    (hrun' : Run (Pool.Step (Request sha256 tallyText) RoundUnchanged) pool actions' pool') :
    (∀ s ∈ pool.db.snapshots, s ∈ pool'.db.snapshots ∧ Complete sha256 pool'.db s) ∧
      ∀ id r, pool.db.round? id = some r → r.status.Left →
        pool'.db.votesOf id = pool.db.votesOf id := by
  rw [← condition_true] at hrun hrun'
  have hpool := run_healthy (fun _ => safe_request) hrun (healthy_idle h₀.inv)
  have hpool' := run_healthy (fun _ => safe_request) hrun' hpool
  have hkept : Kept pool.db pool'.db :=
    run_moved (R := Kept) (fun _ => safe_request) (fun _ => ⟨fun _ h => h, fun _ _ => rfl⟩)
      (fun _ _ _ => Kept.trans) (fun _ _ _ _ _ hG => hG.kept) hrun' hpool
  have hsealed : Sealed pool.db pool'.db :=
    run_moved (R := Sealed) (fun _ => safe_request) (fun _ _ r hr hleft => ⟨⟨r, hr, hleft⟩, rfl⟩)
      (fun _ _ _ => Sealed.trans) (fun _ _ _ _ _ hG => hG.sealed) hrun' hpool
  refine ⟨fun s hs => ?_, fun id r hr hleft => (hsealed id r hr hleft).2⟩
  have hs' := hkept.snapshots s hs
  exact ⟨hs', hpool'.inv.complete hs'⟩

/-! ### Two elections -/

instance (site : Site) (db : Database) : Decidable (RoundUnchanged site db) :=
  match site with
  | .castVoteInsert round =>
      decidable_of_iff (db.round? round.id = some round) (by simp [RoundUnchanged])
  | .other => isTrue (by simp [RoundUnchanged])

/-- One open round with one contestant, a voter and an administrator. -/
def electionDatabase : Database :=
  { directory :=
      { clock := 50
        users := [⟨20, .active⟩]
        stellarAccounts := [⟨21, 20, .testnet, "GVOTER", true, true, 0⟩]
        siteAdministrators := [⟨30, .owner, .active⟩]
        organizationMembers := [] }
    rounds := [⟨1, 2, 3, .open, 0, 100⟩]
    roundContestants := [⟨1, 10, 0⟩]
    pageantContestants := [⟨10, 3, "Ada", none, .active⟩]
    votes := []
    snapshots := []
    leaves := [] }

theorem electionDatabase_initial : Initial electionDatabase where
  roundIds := by decide
  voteReceipts := by simp [electionDatabase]
  snapshots := rfl
  leaves := rfl

/-- The tally of the one contestant, as the service writes it. -/
def tallyJson (votes : String) : String :=
  "[\x7b\"display_name\":\"Ada\",\"pageant_contestant_id\":" ++
    "\"00000000-0000-0000-0000-00000000000a\",\"sash\":null,\"votes\":" ++ votes ++ "\x7d]"

def electionTallyText (tally : List TallyEntry) : ByteArray :=
  (tallyJson (if (tally.map (·.votes)).sum = 0 then "0" else "1")).toUTF8

/-- The texts that the two elections hash, with their SHA-256 digests. -/
def electionDigests : List (String × Nat) :=
  let request := voteRequestText 1 20 10 "k"
  let receipt := "ca2710aac89f8a17c7839b5a61626f139d35e93ab1f773fe0a2695e3381b9589"
  [(request, 0x4b83ae0a12906491cae0919ab5e739275bbc79a2aec48dbf79881a4466df19e7),
   (voteReceiptText 40 1 20 10 "4b83ae0a12906491cae0919ab5e739275bbc79a2aec48dbf79881a4466df19e7",
    0xca2710aac89f8a17c7839b5a61626f139d35e93ab1f773fe0a2695e3381b9589),
   ((VoteLeaf.mk 1 receipt 10).text,
    0x947f8301ec9251b21951703676165bf3f88f55a9a686e93ef4d15f649805ec5f),
   (tallyJson "0",
    0xa2eeb8e4b01c978ae835e19c5840c72579de87212574f5811af2984f4818f3f7),
   (tallyJson "1",
    0x57c3ab1052eb5c4011fc363859abd087ed0fa2cf04b04023908943bd96760430),
   ("crownfi-empty-merkle-v1",
    0xcfd9bd370987f0afebc325f5edd3af96fa757849ce7df09646603f4cc4dda628)]

def electionSha256 : Sha256 := fun value =>
  bytesOf (((electionDigests.find? fun e => e.1.toUTF8 = value).map (·.2)).getD 0)

def castRequest : Prog Database Row Site Result :=
  (castVote electionSha256 20 1 ⟨10, "k"⟩ 40).request

def closeRequest : Prog Database Row Site Result := (transitionRound 30 1 "done" false).request

def snapshotRequest : Prog Database Row Site Result :=
  (createSnapshot electionSha256 electionTallyText 30 1 50).request

theorem electionRequests {p : Prog Database Row Site Result}
    (h : p = castRequest ∨ p = closeRequest ∨ p = snapshotRequest) :
    Request electionSha256 electionTallyText p := by
  rcases h with rfl | rfl | rfl
  · exact .castVote _ _ _ _
  · exact .transitionRound _ _ _ _
  · exact .createSnapshot _ _ _

/-- The requests one after the other. -/
def orderly : List (Action Database Row Site Result) :=
  .spawn castRequest :: List.replicate 9 (.step 0) ++
    .spawn closeRequest :: List.replicate 6 (.step 0) ++
    .spawn snapshotRequest :: List.replicate 9 (.step 0)

theorem mem_orderly {p : Prog Database Row Site Result} (h : .spawn p ∈ orderly) :
    Request electionSha256 electionTallyText p :=
  electionRequests (by simpa [orderly] using h)

theorem orderly_outcome : ((Pool.idle electionDatabase).replay RoundUnchanged orderly).any
    (fun pool => pool.db.snapshots.map (·.totalVotes) = [1]) = true := by
  decide +kernel

theorem orderly_complete :
    ∃ pool, (Pool.idle electionDatabase).replay RoundUnchanged orderly = some pool ∧
      pool.db.snapshots.map (·.totalVotes) = [1] ∧
      ∀ s ∈ pool.db.snapshots, Complete electionSha256 pool.db s := by
  obtain ⟨pool, hreplay, htotal⟩ := (Option.any_eq_true _ _).mp orderly_outcome
  have hrun := Pool.run_of_replay (fun _ => mem_orderly) hreplay
  refine ⟨pool, hreplay, by simpa using htotal, fun s hs => ?_⟩
  exact ((snapshots_complete electionDatabase_initial hrun (.refl _)).1 s hs).2

/-- `cast_vote` reads the open round; the round is closed and its snapshot made; then
`cast_vote` inserts and commits. -/
def lateVote : List (Action Database Row Site Result) :=
  .spawn castRequest :: List.replicate 6 (.step 0) ++
    .spawn closeRequest :: List.replicate 6 (.step 1) ++
    .spawn snapshotRequest :: List.replicate 8 (.step 1) ++ List.replicate 2 (.step 0)

theorem mem_lateVote {p : Prog Database Row Site Result} (h : .spawn p ∈ lateVote) :
    Request electionSha256 electionTallyText p :=
  electionRequests (by simpa [lateVote] using h)

theorem lateVote_outcome : ((Pool.idle electionDatabase).replay (fun _ _ => True) lateVote).any
    (fun pool => pool.db.snapshots.any fun s =>
      s.totalVotes ≠ (pool.db.votesOf s.roundId).length) = true := by
  decide +kernel

/-- Without the condition, a late vote is accepted and missing in the snapshot. -/
theorem snapshot_misses_late_vote :
    ¬ ∀ (sha256 : Sha256) (tallyText : List TallyEntry → ByteArray) (db₀ : Database), Initial db₀ →
      ∀ (pool pool' : Pool Database Row Site Result)
        (actions actions' : List (Action Database Row Site Result)),
        Run (Pool.Step (Request sha256 tallyText) fun _ _ => True) (Pool.idle db₀) actions pool →
        Run (Pool.Step (Request sha256 tallyText) fun _ _ => True) pool actions' pool' →
        (∀ s ∈ pool.db.snapshots, s ∈ pool'.db.snapshots ∧ Complete sha256 pool'.db s) ∧
          ∀ id r, pool.db.round? id = some r → r.status.Left →
            pool'.db.votesOf id = pool.db.votesOf id := by
  intro h
  obtain ⟨pool, hreplay, hoff⟩ := (Option.any_eq_true _ _).mp lateVote_outcome
  have hrun := Pool.run_of_replay (fun _ => mem_lateVote) hreplay
  obtain ⟨s, hs, hne⟩ := List.any_eq_true.mp hoff
  have hcomplete := ((h _ _ _ electionDatabase_initial _ _ _ _ hrun (.refl _)).1 s hs).2
  simp [hcomplete.total] at hne

/-! ### Receipts -/

theorem of_mem_hexDigits {p : Char → Bool} (hp : hexDigits.all p = true) {c : Char} (h : c ∈ hexDigits) :
    p c = true := List.all_eq_true.mp hp c h

theorem toLower_hexDigit {c : Char} (h : c ∈ hexDigits) : c.toLower = c :=
  of_decide_eq_true (of_mem_hexDigits (p := fun c => c.toLower = c) (by decide) h)

theorem not_isWhiteSpace_hexDigit {c : Char} (h : c ∈ hexDigits) : isWhiteSpace c = false :=
  of_decide_eq_true (of_mem_hexDigits (p := fun c => isWhiteSpace c = false) (by decide) h)

theorem utf8Size_hexDigit {c : Char} (h : c ∈ hexDigits) : c.utf8Size = 1 :=
  of_decide_eq_true (of_mem_hexDigits (p := fun c => c.utf8Size = 1) (by decide) h)

theorem trimChars_eq {cs : List Char} (h : ∀ c ∈ cs, isWhiteSpace c = false) : trimChars cs = cs := by
  have hdrop : ∀ ds : List Char, (∀ c ∈ ds, isWhiteSpace c = false) →
      ds.dropWhile isWhiteSpace = ds := by
    intro ds hds
    cases ds with
    | nil => rfl
    | cons d ds => rw [List.dropWhile_cons_of_neg (by simp [hds d])]
  rw [trimChars, hdrop cs h, hdrop _ (by simpa using h), List.reverse_reverse]

/-- A stored hash passes the validation of the path argument as it is. -/
theorem validateHash_of_isHash {value code : String} (h : IsHash value) :
    validateHash value code = .ok value := by
  obtain ⟨hlen, hdigits⟩ := h
  have htrim : trimChars value.toList = value.toList :=
    trimChars_eq fun c hc => not_isWhiteSpace_hexDigit (hdigits c hc)
  have hlower : value.toList.map Char.toLower = value.toList :=
    (List.map_congr_left fun c hc => toLower_hexDigit (hdigits c hc)).trans (List.map_id _)
  have hbytes : byteLength value.toList = 64 := by
    rw [byteLength, List.map_congr_left fun c hc => utf8Size_hexDigit (hdigits c hc)]
    simpa using hlen
  have hall : value.toList.all (hexDigits.contains ·) = true := by simpa using hdigits
  rw [validateHash, trimLower, htrim, hlower, if_pos ⟨hbytes, hall⟩, String.ofList_toList]

/-- The leaf rows carry the hashes in the order of the votes, and their own places. -/
theorem leafRows_place (snapshotId roundId : Uuid) (index : Nat) (vs : List Vote) :
    (leafRows sha256 snapshotId roundId index vs).Pairwise (fun l l' => l.leafIndex ≤ l'.leafIndex) ∧
      (leafRows sha256 snapshotId roundId index vs).map (·.leafHash) =
        vs.map (fun v => (v.leaf roundId).hash sha256) ∧
      ∀ l ∈ leafRows sha256 snapshotId roundId index vs, index ≤ l.leafIndex ∧
        (vs.map fun v => (v.leaf roundId).hash sha256)[l.leafIndex - index]? = some l.leafHash := by
  induction vs generalizing index with
  | nil => simp [leafRows]
  | cons v vs ih =>
      obtain ⟨hsorted, hmap, hplace⟩ := ih (index + 1)
      refine ⟨List.pairwise_cons.mpr ⟨fun l hl => ?_, hsorted⟩, ?_, fun l hl => ?_⟩
      · exact Nat.le_of_succ_le (hplace l hl).1
      · rw [leafRows, List.map_cons, hmap, List.map_cons]
      · rcases List.mem_cons.mp hl with rfl | hl
        · simp
        · obtain ⟨hle, hget⟩ := hplace l hl
          refine ⟨Nat.le_of_succ_le hle, ?_⟩
          rw [List.map_cons, show l.leafIndex - index = (l.leafIndex - (index + 1)) + 1 by omega,
            List.getElem?_cons_succ, hget]

/-- The leaf hashes of a stored snapshot are read back in the order of its root. -/
theorem Describes.leafHashes {db : Database} {s : Snapshot} {vs : List Vote}
    (h : Describes sha256 db s vs) :
    db.leafHashes s.id = vs.map fun v => (v.leaf s.roundId).hash sha256 := by
  have hleaves : db.leaves.filter (·.snapshotId = s.id) = leafRows sha256 s.id s.roundId 0 vs :=
    h.leaves
  obtain ⟨hsorted, hmap, -⟩ := leafRows_place s.id s.roundId 0 vs
  rw [Database.leafHashes, hleaves, hsorted.insertionSort_eq, hmap]

/-- **The receipt service answers** for every leaf of a described snapshot that the later
queries still see as the first one saw it. -/
theorem getReceiptProof_succeeds {db₁ db₂ db₃ : Database} {s : Snapshot} {vs : List Vote}
    {l : SnapshotLeaf} (h₁ : Inv sha256 False db₁) (h₂ : Inv sha256 False db₂)
    (hs : s ∈ db₁.snapshots) (hl : l ∈ db₁.leaves) (howner : s.id = l.snapshotId)
    (hdesc : Describes sha256 db₁ s vs) (h₁₂ : Kept db₁ db₂) (h₁₃ : Kept db₁ db₃) :
    ∃ proof, getReceiptProof sha256 db₁ db₂ db₃ l.receiptHash =
        .ok ⟨s.id, s.roundId, s.status, l.receiptHash, l.leafIndex, l.leafHash, s.merkleRoot, proof⟩ ∧
      proof.length = Nat.clog 2 vs.length ∧
      verifyProof sha256 l.leafHash proof s.merkleRoot = true := by
  have hdesc₃ : Describes sha256 db₃ s vs :=
    ⟨(h₁₃.leaves s hs).trans hdesc.leaves, hdesc.root, hdesc.total⟩
  have hleaves := hdesc₃.leafHashes
  have hmem : l ∈ leafRows sha256 s.id s.roundId 0 vs := by
    rw [← hdesc.leaves, Database.leavesOf, List.mem_filter]
    exact ⟨hl, by simp [howner]⟩
  have hget : (db₃.leafHashes l.snapshotId)[l.leafIndex]? = some l.leafHash := by
    rw [← howner, hleaves]
    simpa using ((leafRows_place s.id s.roundId 0 vs).2.2 l hmem).2
  obtain ⟨proof, hproof, hlen, hverify⟩ := merkleProof_verifies hget
  have hroot : merkleRoot sha256 (db₃.leafHashes l.snapshotId) = s.merkleRoot := by
    rw [← howner, hleaves, hdesc.root]
  have hlookup : db₁.leaves.find? (·.receiptHash = l.receiptHash) = some l :=
    find?_key h₁.receipts hl
  have hsnapshot : db₂.snapshot? l.snapshotId = some s := by
    rw [← howner]
    exact find?_key h₂.snapshotIds (h₁₂.snapshots s hs)
  rw [hroot] at hverify
  refine ⟨proof, ?_, by simpa [← howner, hleaves] using hlen, hverify⟩
  have hvalid : (validateHash l.receiptHash "invalid_vote_receipt_hash").mapError Abort.error =
      .ok l.receiptHash := by
    rw [validateHash_of_isHash (h₁.leafReceipts l hl)]
    rfl
  simp [getReceiptProof, hvalid, hlookup, hsnapshot, hget, hproof, hverify]

/-- **Proofs are complete**: every leaf of every list has a proof of `⌈log₂ n⌉` steps that
verifies against the root, and the receipt service finds it for every stored leaf,
whatever else runs between its three queries. -/
theorem receiptProofs_complete {db₀ : Database} (h₀ : Initial db₀)
    {pool₁ pool₂ pool₃ : Pool Database Row Site Result}
    {actions₁ actions₂ actions₃ : List (Action Database Row Site Result)}
    (hrun₁ : Run (Pool.Step (Request sha256 tallyText) fun _ _ => True) (Pool.idle db₀) actions₁ pool₁)
    (hrun₂ : Run (Pool.Step (Request sha256 tallyText) fun _ _ => True) pool₁ actions₂ pool₂)
    (hrun₃ : Run (Pool.Step (Request sha256 tallyText) fun _ _ => True) pool₂ actions₃ pool₃) :
    (∀ (leaves : List String) index leaf, leaves[index]? = some leaf →
      ∃ proof, merkleProof sha256 leaves index = .ok proof ∧
        proof.length = Nat.clog 2 leaves.length ∧
        verifyProof sha256 leaf proof (merkleRoot sha256 leaves) = true) ∧
    ∀ l ∈ pool₁.db.leaves, ∃ s ∈ pool₁.db.snapshots, ∃ proof,
      getReceiptProof sha256 pool₁.db pool₂.db pool₃.db l.receiptHash =
        .ok ⟨s.id, s.roundId, s.status, l.receiptHash, l.leafIndex, l.leafHash, s.merkleRoot, proof⟩ ∧
      s.id = l.snapshotId ∧ proof.length = Nat.clog 2 (pool₁.db.leavesOf s.id).length ∧
      verifyProof sha256 l.leafHash proof s.merkleRoot = true := by
  refine ⟨fun leaves index leaf h => merkleProof_verifies h, fun l hl => ?_⟩
  rw [← condition_false] at hrun₁ hrun₂ hrun₃
  have hpool₁ := run_healthy (fun _ => safe_request) hrun₁ (healthy_idle h₀.inv)
  have hpool₂ := run_healthy (fun _ => safe_request) hrun₂ hpool₁
  have hkept : ∀ {pool pool' : Pool Database Row Site Result}
      {actions : List (Action Database Row Site Result)},
      Run (Pool.Step (Request sha256 tallyText) (Condition False)) pool actions pool' →
      Healthy (Inv sha256 False) (Guarantee False) (Condition False) pool → Kept pool.db pool'.db :=
    run_moved (R := Kept) (fun _ => safe_request) (fun _ => ⟨fun _ h => h, fun _ _ => rfl⟩)
      (fun _ _ _ => Kept.trans) (fun _ _ _ _ _ hG => hG.kept)
  obtain ⟨s, hs, howner⟩ := hpool₁.inv.owned l hl
  obtain ⟨vs, hdesc, -⟩ := hpool₁.inv.stored s hs
  have h₁₂ := hkept hrun₂ hpool₁
  obtain ⟨proof, hproof, hlen, hverify⟩ := getReceiptProof_succeeds hpool₁.inv hpool₂.inv hs hl howner
    hdesc h₁₂ (h₁₂.trans (hkept hrun₃ hpool₂))
  have hcount : (pool₁.db.leavesOf s.id).length = vs.length := by
    rw [hdesc.leaves, ← List.length_map fun l => l.leafHash, (leafRows_place s.id s.roundId 0 vs).2.1,
      List.length_map]
  exact ⟨s, hs, proof, hproof, howner, by rw [hlen, hcount], hverify⟩

theorem orderly_receipts :
    ∃ pool, (Pool.idle electionDatabase).replay (fun _ _ => True) orderly = some pool ∧
      pool.db.leaves.length = 1 ∧
      ∀ l ∈ pool.db.leaves, ∃ r, r.proof.length = 0 ∧
        getReceiptProof electionSha256 pool.db pool.db pool.db l.receiptHash = .ok r := by
  have houtcome : ((Pool.idle electionDatabase).replay (fun _ _ => True) orderly).any (fun pool =>
      pool.db.leaves.length = 1 ∧
      pool.db.snapshots.all fun s => (pool.db.leavesOf s.id).length = 1) = true := by
    decide +kernel
  obtain ⟨pool, hreplay, hfacts⟩ := (Option.any_eq_true _ _).mp houtcome
  obtain ⟨hleaves, hcounts⟩ := decide_eq_true_iff.mp hfacts
  have hrun := Pool.run_of_replay (fun _ => mem_orderly) hreplay
  refine ⟨pool, hreplay, hleaves, fun l hl => ?_⟩
  obtain ⟨s, hs, proof, hproof, -, hlen, -⟩ :=
    (receiptProofs_complete electionDatabase_initial hrun (.refl _) (.refl _)).2 l hl
  have hcount : (pool.db.leavesOf s.id).length = 1 := by
    simpa using List.all_eq_true.mp hcounts s hs
  exact ⟨_, by rw [hlen, hcount]; decide, hproof⟩

end CrownFi.Voting
