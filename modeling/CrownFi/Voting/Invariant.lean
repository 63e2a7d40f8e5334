import CrownFi.Lib.Outline
import CrownFi.Voting.Handlers

/-!
# CrownFi.Voting.Invariant

**What holds of the voting tables in every interleaving of requests.**

A stored snapshot always describes *some* list of votes exactly: its leaf rows, its
root and its count agree (`Stored`). Whether that list is the round's votes depends
on `frozen`, the assumption that no vote is inserted into a round that is not open
any more. The invariant and the guarantee carry it as a parameter, so that one
proof of the requests serves both the results that need it and those that do not.

The guarantee says which lock a commit needs for what it changes: a round's row
changes under its update lock, a round gets votes under a key-share lock of the
round, and a snapshot or a leaf appears under the locks of its unique keys.
-/

namespace CrownFi.Voting

open Lib CrownFi.Api

variable {sha256 : Sha256} {tallyText : List TallyEntry → ByteArray} {frozen : Prop}

/-- The round has been open and is not open any more, or never will be. -/
def RoundStatus.Left (s : RoundStatus) : Prop :=
  s = .closing ∨ s = .closed ∨ s = .anchored ∨ s = .cancelled

/-- A hash as the column constraints require it: 64 lower-case hexadecimal digits. -/
def IsHash (s : String) : Prop := s.toList.length = 64 ∧ ∀ c ∈ s.toList, c ∈ hexDigits

theorem isHash_hashText (s : String) : IsHash (hashText sha256 s) := by
  refine ⟨?_, fun c hc => mem_hexEncode hc⟩
  rw [hashText, hashBytes, length_hexEncode]
  simp

namespace Database

/-- The leaf rows of a snapshot, in the order of their insertion. -/
def leavesOf (db : Database) (snapshotId : Uuid) : List SnapshotLeaf :=
  db.leaves.filter (·.snapshotId = snapshotId)

end Database

/-- The snapshot describes the votes `vs`: leaf rows, root and count. -/
structure Describes (sha256 : Sha256) (db : Database) (s : Snapshot) (vs : List Vote) : Prop where
  leaves : db.leavesOf s.id = leafRows sha256 s.id s.roundId 0 vs
  root : s.merkleRoot = merkleRoot sha256 (vs.map fun v => (v.leaf s.roundId).hash sha256)
  total : s.totalVotes = vs.length

/-- **The invariant of the voting tables.** -/
structure Inv (sha256 : Sha256) (frozen : Prop) (db : Database) : Prop where
  roundIds : (db.rounds.map (·.id)).Nodup
  snapshotIds : (db.snapshots.map (·.id)).Nodup
  receipts : (db.leaves.map (·.receiptHash)).Nodup
  voteReceipts : ∀ v ∈ db.votes, IsHash v.receiptHash
  leafReceipts : ∀ l ∈ db.leaves, IsHash l.receiptHash
  owned : ∀ l ∈ db.leaves, ∃ s ∈ db.snapshots, s.id = l.snapshotId
  stored : ∀ s ∈ db.snapshots, ∃ vs, Describes sha256 db s vs ∧
    (frozen → vs = db.orderedVotes s.roundId)
  closed : frozen → ∀ s ∈ db.snapshots, ∀ r, db.round? s.roundId = some r → r.status.Left

/-- **The guarantee of a commit** under the locks `L`. -/
structure Guarantee (frozen : Prop) (L : List (Lock Row)) (db db' : Database) : Prop where
  rounds : ∀ id, ⟨.round id, .update⟩ ∉ L → db'.round? id = db.round? id
  left : ∀ id r, db.round? id = some r → r.status.Left →
    ∃ r', db'.round? id = some r' ∧ r'.status.Left
  votes : ∀ id, ⟨.round id, .keyShare⟩ ∉ L → db'.votesOf id = db.votesOf id
  frozenVotes : frozen → ∀ id r, db.round? id = some r → r.status.Left →
    db'.votesOf id = db.votesOf id
  snapshots : ∃ new, db'.snapshots = db.snapshots ++ new ∧
    ∀ s ∈ new, ⟨.snapshot s.id, .update⟩ ∈ L
  leaves : ∃ new, db'.leaves = db.leaves ++ new ∧
    ∀ l ∈ new, ⟨.leafReceipt l.receiptHash, .update⟩ ∈ L ∧ ∀ s ∈ db.snapshots, s.id ≠ l.snapshotId

/-- A commit that leaves rounds, votes, snapshots and leaves as they are. -/
theorem Guarantee.of_same {L : List (Lock Row)} {db db' : Database} (hr : db'.rounds = db.rounds)
    (hv : db'.votes = db.votes) (hs : db'.snapshots = db.snapshots)
    (hl : db'.leaves = db.leaves) : Guarantee frozen L db db' where
  rounds id _ := by rw [Database.round?, Database.round?, hr]
  left id r hid hleft := ⟨r, by rw [← hid, Database.round?, Database.round?, hr], hleft⟩
  votes id _ := by rw [Database.votesOf, Database.votesOf, hv]
  frozenVotes _ id _ _ _ := by rw [Database.votesOf, Database.votesOf, hv]
  snapshots := ⟨[], by simp [hs], by simp⟩
  leaves := ⟨[], by simp [hl], by simp⟩

theorem Inv.of_same {db db' : Database} (h : Inv sha256 frozen db) (hr : db'.rounds = db.rounds)
    (hv : db'.votes = db.votes) (hs : db'.snapshots = db.snapshots)
    (hl : db'.leaves = db.leaves) : Inv sha256 frozen db' where
  roundIds := by rw [hr]; exact h.roundIds
  snapshotIds := by rw [hs]; exact h.snapshotIds
  receipts := by rw [hl]; exact h.receipts
  voteReceipts := by rw [hv]; exact h.voteReceipts
  leafReceipts := by rw [hl]; exact h.leafReceipts
  owned := by rw [hl, hs]; exact h.owned
  stored := fun s hmem => by
    rw [hs] at hmem
    obtain ⟨vs, hdesc, heq⟩ := h.stored s hmem
    refine ⟨vs, ⟨?_, hdesc.root, hdesc.total⟩, fun hf => ?_⟩
    · rw [← hdesc.leaves, Database.leavesOf, Database.leavesOf, hl]
    · rw [heq hf, Database.orderedVotes, Database.orderedVotes, Database.votesOf,
        Database.votesOf, hv]
  closed := fun hf s hmem r hid => by
    rw [hs] at hmem
    exact h.closed hf s hmem r (by rw [← hid, Database.round?, Database.round?, hr])

/-! ### What the locks protect -/

/-- The row of a locked round stays as it is. -/
theorem stable_round {held : List (Lock Row)} {id : Uuid} {mode : LockMode} {o : Option Round}
    (hlock : ⟨.round id, mode⟩ ∈ held) (hmode : mode.conflicts .update = true) :
    Stable (Inv sha256 frozen) (Guarantee frozen) held fun db => db.round? id = o := by
  intro L db db' hcompat _ _ h hG
  rw [hG.rounds id (hcompat.not_mem hlock rfl hmode)]
  exact h

/-- A round locked for update gets no votes. -/
theorem stable_votes {held : List (Lock Row)} {id : Uuid} {vs : List Vote}
    (hlock : ⟨.round id, .update⟩ ∈ held) :
    Stable (Inv sha256 frozen) (Guarantee frozen) held fun db => db.votesOf id = vs := by
  intro L db db' hcompat _ _ h hG
  rw [hG.votes id (hcompat.not_mem hlock rfl rfl)]
  exact h

/-- A locked snapshot id stays unused. -/
theorem stable_snapshotId {held : List (Lock Row)} {id : Uuid}
    (hlock : ⟨.snapshot id, .update⟩ ∈ held) :
    Stable (Inv sha256 frozen) (Guarantee frozen) held
      fun db => ∀ s ∈ db.snapshots, s.id ≠ id := by
  intro L db db' hcompat _ _ h hG s hs
  obtain ⟨new, hnew, hlocks⟩ := hG.snapshots
  rw [hnew] at hs
  rcases List.mem_append.mp hs with hs | hs
  · exact h s hs
  · rintro rfl
    exact hcompat.not_mem hlock rfl rfl (hlocks s hs)

/-- A locked receipt stays unused. -/
theorem stable_receipt {held : List (Lock Row)} {receipt : String}
    (hlock : ⟨.leafReceipt receipt, .update⟩ ∈ held) :
    Stable (Inv sha256 frozen) (Guarantee frozen) held
      fun db => ∀ l ∈ db.leaves, l.receiptHash ≠ receipt := by
  intro L db db' hcompat _ _ h hG l hl
  obtain ⟨new, hnew, hlocks⟩ := hG.leaves
  rw [hnew] at hl
  rcases List.mem_append.mp hl with hl | hl
  · exact h l hl
  · rintro rfl
    exact hcompat.not_mem hlock rfl rfl (hlocks l hl).1

/-! ### Casting a vote -/

/-- The condition under which `frozen` is justified: when a vote is inserted, the row of
its round is still the one that the request read. -/
def RoundUnchanged (site : Site) (db : Database) : Prop :=
  ∀ round, site = .castVoteInsert round → db.round? round.id = some round

/-- The condition, as far as it is assumed. -/
def Condition (frozen : Prop) (site : Site) (db : Database) : Prop :=
  frozen → RoundUnchanged site db

namespace Database

theorem round?_id {db : Database} {id : Uuid} {r : Round} (h : db.round? id = some r) :
    r.id = id := by
  simpa using List.find?_some h

def addVote (db : Database) (v : Vote) : Database := { db with votes := db.votes ++ [v] }

theorem votesOf_addVote_of_ne {db : Database} {v : Vote} {id : Uuid} (h : v.roundId ≠ id) :
    (db.addVote v).votesOf id = db.votesOf id := by
  simp [votesOf, addVote, List.filter_append, h]

end Database

/-- A round that is open is not left. -/
theorem RoundStatus.not_left_open : ¬ RoundStatus.Left .open := by
  simp [RoundStatus.Left]

theorem Inv.addVote {db : Database} {v : Vote} (h : Inv sha256 frozen db)
    (hhash : IsHash v.receiptHash)
    (hopen : frozen → ∃ r, db.round? v.roundId = some r ∧ r.status = .open) :
    Inv sha256 frozen (db.addVote v) := by
  have hround : frozen → ∀ s ∈ db.snapshots, v.roundId ≠ s.roundId := by
    intro hf s hs heq
    obtain ⟨r, hr, hst⟩ := hopen hf
    rw [heq] at hr
    exact RoundStatus.not_left_open (hst ▸ h.closed hf s hs r hr)
  exact { h with
    voteReceipts := fun w hw => by
      rcases List.mem_append.mp hw with hw | hw
      · exact h.voteReceipts w hw
      · obtain rfl := List.mem_singleton.mp hw
        exact hhash
    stored := fun s hs => by
      obtain ⟨vs, hdesc, heq⟩ := h.stored s hs
      refine ⟨vs, ⟨hdesc.leaves, hdesc.root, hdesc.total⟩, fun hf => ?_⟩
      rw [heq hf, Database.orderedVotes, Database.orderedVotes,
        Database.votesOf_addVote_of_ne (hround hf s hs)] }

theorem Guarantee.addVote {L : List (Lock Row)} {db : Database} {v : Vote}
    (hlock : ⟨.round v.roundId, .keyShare⟩ ∈ L)
    (hopen : frozen → ∃ r, db.round? v.roundId = some r ∧ r.status = .open) :
    Guarantee frozen L db (db.addVote v) where
  rounds id _ := rfl
  left id r hid hleft := ⟨r, hid, hleft⟩
  votes id hid := Database.votesOf_addVote_of_ne (by rintro rfl; exact hid hlock)
  frozenVotes hf id r hid hleft := by
    refine Database.votesOf_addVote_of_ne ?_
    rintro rfl
    obtain ⟨r', hr', hst⟩ := hopen hf
    obtain rfl := Option.some.inj (hid.symm.trans hr')
    exact RoundStatus.not_left_open (hst ▸ hleft)
  snapshots := ⟨[], by simp [Database.addVote], by simp⟩
  leaves := ⟨[], by simp [Database.addVote], by simp⟩

theorem safe_castVote (voterUserId roundId : Uuid) (body : CastVoteRequest) (voteId : Uuid) :
    SafeRequest (Inv sha256 frozen) (Guarantee frozen) (Condition frozen)
      (castVote sha256 voterUserId roundId body voteId).request := by
  unfold SafeRequest Handler.request castVote
  refine safe_bind (safe_ofExcept fun key _ => ?_)
  refine safe_bind (safe_select stable_true fun _ _ _ _ hrow => ?_)
  refine safe_bind (safe_orElse fun round hround => ?_)
  obtain rfl : round.id = roundId := Database.round?_id (hrow.trans hround)
  refine safe_bind (safe_select stable_true fun _ _ _ _ _ => ?_)
  refine safe_bind (safe_require fun hopen => ?_)
  have hstatus : round.status = .open := by
    simp only [Bool.and_eq_true, decide_eq_true_eq] at hopen
    exact hopen.1.1
  refine safe_bind (safe_select stable_true fun _ _ _ _ _ => ?_)
  refine safe_bind (safe_require fun _ => ?_)
  refine safe_bind (safe_select stable_true fun _ _ _ _ _ => ?_)
  refine safe_bind (safe_require fun _ => ?_)
  refine safe_bind (safe_select stable_true fun _ existing _ _ _ => ?_)
  cases existing with
  | some existing =>
    -- the request was accepted before: nothing is written
    refine safe_bind (safe_select stable_true fun _ _ _ _ _ => ?_)
    refine safe_bind (safe_require fun _ => ?_)
    exact safe_bind (safe_commit (fun db hI _ => ⟨hI, .of_same rfl rfl rfl rfl⟩) safe_ret)
  | none =>
    refine safe_bind (safe_select stable_true fun _ _ _ _ _ => ?_)
    refine safe_bind (safe_insert fun db hI _ hok _ => ?_)
    -- the insert's key-share lock keeps the round open until the commit
    refine ⟨fun d => frozen → ∃ r, d.round? round.id = some r ∧ r.status = .open,
      fun hf => ⟨round, hok hf _ rfl, hstatus⟩, ?_, ?_⟩
    · intro L d d' hcompat hId hId' h hG hf
      rw [hG.rounds round.id (hcompat.not_mem (l := ⟨.round round.id, .keyShare⟩) (by simp) rfl rfl)]
      exact h hf
    · refine safe_bind (safe_commit (fun d hId hopen => ⟨?_, ?_⟩) safe_ret)
      · exact hId.addVote (isHash_hashText _) hopen
      · exact .addVote (by simp) hopen

/-! ### Opening and closing a round -/

namespace Database

theorem round?_setRoundStatus (db : Database) (roundId id : Uuid) (status : RoundStatus) :
    (db.setRoundStatus roundId status).round? id =
      (db.round? id).map fun r => if r.id = roundId then { r with status } else r := by
  refine (find?_updateWhere fun _ => ?_).trans ?_
  · rfl
  · simp only [decide_eq_true_eq, round?]

theorem round?_setRoundStatus_of_ne {db : Database} {roundId id : Uuid} (h : id ≠ roundId)
    (status : RoundStatus) : (db.setRoundStatus roundId status).round? id = db.round? id := by
  rw [round?_setRoundStatus]
  cases hr : db.round? id with
  | none => rfl
  | some r =>
      have hid : r.id = id := by simpa using List.find?_some hr
      simp [hid, h]

end Database

/-- Setting the status of a round moves a round that was left only to such a status. -/
theorem left_setRoundStatus {db : Database} {roundId : Uuid} {status : RoundStatus} {r₀ : Round}
    (hr₀ : db.round? roundId = some r₀) (hstatus : r₀.status.Left → status.Left) (id : Uuid)
    (r : Round) (hr : db.round? id = some r) (hleft : r.status.Left) :
    ∃ r', (db.setRoundStatus roundId status).round? id = some r' ∧ r'.status.Left := by
  by_cases hid : id = roundId
  · subst hid
    obtain rfl := Option.some.inj (hr.symm.trans hr₀)
    rw [Database.round?_setRoundStatus, hr]
    simpa [Database.round?_id hr] using hstatus hleft
  · exact ⟨r, by rw [Database.round?_setRoundStatus_of_ne hid, hr], hleft⟩

theorem Inv.setRoundStatus {db : Database} {roundId : Uuid} {status : RoundStatus} {r₀ : Round}
    (h : Inv sha256 frozen db) (hr₀ : db.round? roundId = some r₀)
    (hstatus : r₀.status.Left → status.Left) : Inv sha256 frozen (db.setRoundStatus roundId status) :=
  { h with
    roundIds := by
      have hids : (db.setRoundStatus roundId status).rounds.map (·.id) = db.rounds.map (·.id) :=
        map_updateWhere fun _ => rfl
      rw [hids]
      exact h.roundIds
    stored := fun s hs => by
      obtain ⟨vs, hdesc, heq⟩ := h.stored s hs
      exact ⟨vs, ⟨hdesc.leaves, hdesc.root, hdesc.total⟩, heq⟩
    closed := fun hf s hs r hr => by
      cases hold : db.round? s.roundId with
      | none => simp [Database.round?_setRoundStatus, hold] at hr
      | some r' =>
          obtain ⟨r'', hr'', hleft⟩ :=
            left_setRoundStatus hr₀ hstatus _ r' hold (h.closed hf s hs r' hold)
          obtain rfl := Option.some.inj (hr.symm.trans hr'')
          exact hleft }

theorem Guarantee.setRoundStatus {L : List (Lock Row)} {db : Database} {roundId : Uuid}
    {status : RoundStatus} {r₀ : Round} (hlock : ⟨.round roundId, .update⟩ ∈ L)
    (hr₀ : db.round? roundId = some r₀) (hstatus : r₀.status.Left → status.Left) :
    Guarantee frozen L db (db.setRoundStatus roundId status) where
  rounds id hid := Database.round?_setRoundStatus_of_ne (by rintro rfl; exact hid hlock) status
  left := left_setRoundStatus hr₀ hstatus
  votes id _ := rfl
  frozenVotes _ id _ _ _ := rfl
  snapshots := ⟨[], by simp [Database.setRoundStatus], by simp⟩
  leaves := ⟨[], by simp [Database.setRoundStatus], by simp⟩

theorem roundForUpdate_mem {db : Database} {roundId : Uuid} {r : Round}
    (h : db.round? roundId = some r) : ⟨.round roundId, .update⟩ ∈ roundForUpdate roundId db := by
  simp [roundForUpdate, h]

/-- The rest of a handler that begins by locking a round for update. -/
theorem safe_lockRound {roundId : Uuid} {ok : Site → Database → Prop} {r : Result}
    {k : Round → Prog Database Row Site Result}
    (h : ∀ round held, ⟨.round roundId, .update⟩ ∈ held →
      Safe (Inv sha256 frozen) (Guarantee frozen) ok (k round) held id
        fun db => db.round? roundId = some round) :
    Safe (Inv sha256 frozen) (Guarantee frozen) ok
      (Tx.selectFor .other (roundForUpdate roundId) (·.round? roundId) fun row => Tx.orElse row r k)
      [] id fun _ => True := by
  refine safe_selectFor fun db row _ _ hrow => ?_
  cases row with
  | none => exact ⟨fun _ => True, trivial, stable_true, safe_orElse fun _ h => by cases h⟩
  | some round =>
      have hlock := roundForUpdate_mem hrow
      exact ⟨fun d => d.round? roundId = some round, hrow, stable_round hlock rfl, h round _ hlock⟩

theorem safe_transitionRound (actorUserId roundId : Uuid) (reason : String) (opening : Bool) :
    SafeRequest (Inv sha256 frozen) (Guarantee frozen) (Condition frozen)
      (transitionRound actorUserId roundId reason opening).request := by
  unfold SafeRequest Handler.request transitionRound requireOrganizationEditor
  refine safe_bind (safe_ofExcept fun _ _ => ?_)
  refine safe_lockRound fun current held hlock => ?_
  have hstable : Stable (Inv sha256 frozen) (Guarantee frozen) held
      fun db => db.round? roundId = some current := stable_round hlock rfl
  refine safe_bind (safe_bind (safe_select hstable fun _ _ _ _ _ => ?_))
  refine safe_require fun _ => ?_
  refine safe_bind (safe_select hstable fun _ now _ _ _ => ?_)
  -- both branches write the status under the lock and commit
  have hwrite : ∀ status : RoundStatus, (current.status.Left → status.Left) →
      Safe (Inv sha256 frozen) (Guarantee frozen) (Condition frozen)
        ((do
          Tx.write .other (fun _ => [⟨.round roundId, .noKeyUpdate⟩])
            (·.setRoundStatus roundId status)
          Tx.commit
          return .round roundId : Handler Response) fun r => .ret (.ok r)) held id
        fun db => db.round? roundId = some current := by
    intro status hleft
    refine safe_bind (safe_write fun db hI hcur _ => ⟨_, hcur, hstable.weaken, ?_⟩)
    refine safe_bind (safe_commit (fun d hId hd => ⟨?_, ?_⟩) safe_ret)
    · exact hId.setRoundStatus hd hleft
    · exact .setRoundStatus (List.mem_append_left _ hlock) hd hleft
  cases opening with
  | true =>
      refine safe_bind (safe_require fun hst => ?_)
      refine safe_bind (safe_require fun _ => ?_)
      refine safe_bind (safe_require fun _ => ?_)
      refine hwrite .open fun hleft => ?_
      rcases hleft with h | h | h | h <;> simp [h] at hst
  | false =>
      refine safe_bind (safe_require fun _ => ?_)
      exact hwrite .closed fun _ => Or.inr (Or.inl rfl)

theorem safe_environment (directory : Directory) (roundContestants : List RoundContestant)
    (pageantContestants : List PageantContestant) :
    SafeRequest (Inv sha256 frozen) (Guarantee frozen) (Condition frozen)
      (environment directory roundContestants pageantContestants).request := by
  unfold SafeRequest Handler.request environment
  refine safe_bind (safe_write fun _ _ _ _ => ⟨fun _ => True, trivial, stable_true, ?_⟩)
  exact safe_bind (safe_commit (fun db hI _ => ⟨hI.of_same rfl rfl rfl rfl, .of_same rfl rfl rfl rfl⟩)
    safe_ret)

/-! ### Storing a snapshot -/

namespace Database

def addSnapshot (db : Database) (s : Snapshot) (rows : List SnapshotLeaf) : Database :=
  { db with snapshots := db.snapshots ++ [s], leaves := db.leaves ++ rows }

end Database

theorem mem_leafRows {snapshotId roundId : Uuid} {index : Nat} {vs : List Vote} {l : SnapshotLeaf}
    (h : l ∈ leafRows sha256 snapshotId roundId index vs) :
    l.snapshotId = snapshotId ∧ ∃ v ∈ vs, l.receiptHash = v.receiptHash := by
  induction vs generalizing index with
  | nil => simp [leafRows] at h
  | cons v vs ih =>
      rcases List.mem_cons.mp h with rfl | h
      · exact ⟨rfl, v, by simp, rfl⟩
      · obtain ⟨hid, w, hw, heq⟩ := ih h
        exact ⟨hid, w, by simp [hw], heq⟩

theorem mem_orderedVotes {db : Database} {roundId : Uuid} {v : Vote}
    (h : v ∈ db.orderedVotes roundId) : v ∈ db.votes ∧ v.roundId = roundId := by
  have hmem := (List.perm_insertionSort Database.voteOrder (db.votesOf roundId)).mem_iff.mp h
  simpa [Database.votesOf] using hmem

theorem Inv.addSnapshot {db : Database} {s : Snapshot} {vs : List Vote} {r : Round}
    (h : Inv sha256 frozen db) (hid : ∀ t ∈ db.snapshots, t.id ≠ s.id)
    (hvs : db.orderedVotes s.roundId = vs)
    (hnodup : ((leafRows sha256 s.id s.roundId 0 vs).map (·.receiptHash)).Nodup)
    (hfresh : ∀ l ∈ leafRows sha256 s.id s.roundId 0 vs, ∀ m ∈ db.leaves,
      m.receiptHash ≠ l.receiptHash)
    (hroot : s.merkleRoot = merkleRoot sha256 (vs.map fun v => (v.leaf s.roundId).hash sha256))
    (htotal : s.totalVotes = vs.length) (hr : db.round? s.roundId = some r)
    (hleft : r.status.Left) :
    Inv sha256 frozen (db.addSnapshot s (leafRows sha256 s.id s.roundId 0 vs)) where
  roundIds := h.roundIds
  snapshotIds := by
    rw [Database.addSnapshot, List.map_append, List.nodup_append]
    refine ⟨h.snapshotIds, by simp, ?_⟩
    simp only [List.map_cons, List.map_nil, List.mem_singleton, List.mem_map]
    rintro _ ⟨t, ht, rfl⟩ _ rfl
    exact hid t ht
  receipts := by
    rw [Database.addSnapshot, List.map_append, List.nodup_append]
    refine ⟨h.receipts, hnodup, ?_⟩
    simp only [List.mem_map]
    rintro _ ⟨m, hm, rfl⟩ _ ⟨l, hl, rfl⟩
    exact hfresh l hl m hm
  voteReceipts := h.voteReceipts
  leafReceipts l hl := by
    rcases List.mem_append.mp hl with hl | hl
    · exact h.leafReceipts l hl
    · obtain ⟨-, v, hv, heq⟩ := mem_leafRows hl
      rw [heq]
      exact h.voteReceipts v (mem_orderedVotes (hvs ▸ hv)).1
  owned l hl := by
    rcases List.mem_append.mp hl with hl | hl
    · obtain ⟨t, ht, heq⟩ := h.owned l hl
      exact ⟨t, List.mem_append_left _ ht, heq⟩
    · exact ⟨s, by simp [Database.addSnapshot], (mem_leafRows hl).1.symm⟩
  stored t ht := by
    rcases List.mem_append.mp ht with ht | ht
    · obtain ⟨ws, hdesc, heq⟩ := h.stored t ht
      refine ⟨ws, ⟨?_, hdesc.root, hdesc.total⟩, heq⟩
      have hnone : (leafRows sha256 s.id s.roundId 0 vs).filter (·.snapshotId = t.id) = [] := by
        refine List.filter_eq_nil_iff.mpr fun l hl => ?_
        simpa [(mem_leafRows hl).1] using (hid t ht).symm
      rw [← hdesc.leaves, Database.leavesOf, Database.leavesOf, Database.addSnapshot,
        List.filter_append, hnone, List.append_nil]
    · obtain rfl := List.mem_singleton.mp ht
      refine ⟨vs, ⟨?_, hroot, htotal⟩, fun _ => hvs.symm⟩
      have hnone : db.leaves.filter (·.snapshotId = t.id) = [] := by
        refine List.filter_eq_nil_iff.mpr fun l hl heq => ?_
        obtain ⟨u, hu, hul⟩ := h.owned l hl
        exact hid u hu (hul.trans (by simpa using heq))
      rw [Database.leavesOf, Database.addSnapshot, List.filter_append, hnone, List.nil_append,
        List.filter_eq_self]
      intro l hl
      simpa using (mem_leafRows hl).1
  closed hf t ht r' hr' := by
    rcases List.mem_append.mp ht with ht | ht
    · exact h.closed hf t ht r' hr'
    · obtain rfl := List.mem_singleton.mp ht
      obtain rfl := Option.some.inj (hr.symm.trans hr')
      exact hleft

theorem Guarantee.addSnapshot {L : List (Lock Row)} {db : Database} {s : Snapshot}
    {rows : List SnapshotLeaf} (hid : ∀ t ∈ db.snapshots, t.id ≠ s.id)
    (hlock : ⟨.snapshot s.id, .update⟩ ∈ L)
    (hlocks : ∀ l ∈ rows, ⟨.leafReceipt l.receiptHash, .update⟩ ∈ L)
    (hrows : ∀ l ∈ rows, l.snapshotId = s.id) : Guarantee frozen L db (db.addSnapshot s rows) where
  rounds id _ := rfl
  left id r hid hleft := ⟨r, hid, hleft⟩
  votes id _ := rfl
  frozenVotes _ id _ _ _ := rfl
  snapshots := ⟨[s], rfl, by simpa using hlock⟩
  leaves := ⟨rows, rfl, fun l hl => ⟨hlocks l hl, fun t ht => (hrows l hl) ▸ hid t ht⟩⟩

/-- The loop over the leaf rows: after each insert its receipt is new, and stays new
because the key is locked. -/
theorem safe_insertLeaves {ok : Site → Database → Prop} {s : Snapshot} {B : Database → Prop}
    {base : List (Lock Row)}
    (hB : Stable (Inv sha256 frozen) (Guarantee frozen) base B) {k : PUnit → Prog Database Row Site Result}
    (rows : List SnapshotLeaf) :
    ∀ (done : List SnapshotLeaf) (held : List (Lock Row)), base ⊆ held →
      (∀ l ∈ done, ⟨.leafReceipt l.receiptHash, .update⟩ ∈ held) →
      (done.map (·.receiptHash)).Nodup →
      (∀ held', base ⊆ held' →
        (∀ l ∈ done ++ rows, ⟨.leafReceipt l.receiptHash, .update⟩ ∈ held') →
        ((done ++ rows).map (·.receiptHash)).Nodup →
        Safe (Inv sha256 frozen) (Guarantee frozen) ok (k ⟨⟩) held'
          (fun d => d.addSnapshot s (done ++ rows))
          fun d => B d ∧ ∀ l ∈ done ++ rows, ∀ m ∈ d.leaves, m.receiptHash ≠ l.receiptHash) →
      Safe (Inv sha256 frozen) (Guarantee frozen) ok (insertLeaves rows k) held
        (fun d => d.addSnapshot s done)
        fun d => B d ∧ ∀ l ∈ done, ∀ m ∈ d.leaves, m.receiptHash ≠ l.receiptHash := by
  induction rows with
  | nil =>
      intro done held hbase hlocks hnodup hk
      change Safe _ _ ok (k ⟨⟩) held _ _
      simpa using hk held hbase (by simpa using hlocks) (by simpa using hnodup)
  | cons l rows ih =>
      intro done held hbase hlocks hnodup hk
      refine safe_bind (safe_insert fun db _ hA _ hviolation => ?_)
      obtain ⟨hBdb, hfresh⟩ := hA
      -- the view contains the rows inserted so far, so the check covers them too
      have hnew : ∀ m ∈ db.leaves ++ done, m.receiptHash ≠ l.receiptHash := by
        intro m hm heq
        have hany : (db.addSnapshot s done).leaves.any (fun m => m.voteId = l.voteId ||
            m.receiptHash = l.receiptHash || (m.snapshotId = l.snapshotId &&
              (m.leafIndex = l.leafIndex || m.leafHash = l.leafHash))) = true :=
          List.any_eq_true.mpr ⟨m, hm, by simp [heq]⟩
        rw [leafViolation, if_pos hany] at hviolation
        cases hviolation
      have hheld : ∀ m ∈ done ++ [l], ⟨.leafReceipt m.receiptHash, .update⟩ ∈
          held ++ [⟨.leafOf l.voteId, .update⟩, ⟨.leafReceipt l.receiptHash, .update⟩,
            ⟨.leafHash l.snapshotId l.leafHash, .update⟩, ⟨.vote l.voteId, .keyShare⟩] := by
        intro m hm
        rcases List.mem_append.mp hm with hm | hm
        · exact List.mem_append_left _ (hlocks m hm)
        · obtain rfl := List.mem_singleton.mp hm
          simp
      have hsub : base ⊆ held ++ [⟨.leafOf l.voteId, .update⟩,
          ⟨.leafReceipt l.receiptHash, .update⟩, ⟨.leafHash l.snapshotId l.leafHash, .update⟩,
          ⟨.vote l.voteId, .keyShare⟩] := fun x hx => List.mem_append_left _ (hbase hx)
      refine ⟨fun d => B d ∧ ∀ l' ∈ done ++ [l], ∀ m ∈ d.leaves, m.receiptHash ≠ l'.receiptHash,
        ⟨hBdb, ?_⟩, (hB.mono hsub).and ?_, ?_⟩
      · intro l' hl'
        rcases List.mem_append.mp hl' with hl' | hl'
        · exact hfresh l' hl'
        · obtain rfl := List.mem_singleton.mp hl'
          exact fun m hm => hnew m (List.mem_append_left _ hm)
      · intro L d d' hcompat hI hI' h hG l' hl'
        exact stable_receipt (hheld l' hl') L d d' hcompat hI hI' (h l' hl') hG
      · have hpending : (fun d : Database =>
            { d.addSnapshot s done with leaves := (d.addSnapshot s done).leaves ++ [l] }) =
            fun d => d.addSnapshot s (done ++ [l]) := by
          funext d
          simp [Database.addSnapshot]
        rw [hpending]
        refine ih (done ++ [l]) _ hsub hheld ?_ fun held' hbase' hlocks' hnodup' => ?_
        · rw [List.map_append, List.nodup_append]
          refine ⟨hnodup, by simp, ?_⟩
          simp only [List.mem_map, List.map_cons, List.map_nil, List.mem_singleton]
          rintro _ ⟨m, hm, rfl⟩ _ rfl
          exact hnew m (List.mem_append_right _ hm)
        · simpa using hk held' hbase' (by simpa using hlocks') (by simpa using hnodup')

/-- The snapshot of a round that was left, and is locked, holds the votes it has now. -/
theorem safe_createSnapshot (actorUserId roundId snapshotId : Uuid) :
    SafeRequest (Inv sha256 frozen) (Guarantee frozen) (Condition frozen)
      (createSnapshot sha256 tallyText actorUserId roundId snapshotId).request := by
  unfold SafeRequest Handler.request createSnapshot requireOrganizationEditor
  refine safe_lockRound fun round held hlock => ?_
  have hround : Stable (Inv sha256 frozen) (Guarantee frozen) held
      fun db => db.round? roundId = some round := stable_round hlock rfl
  refine safe_bind (safe_bind (safe_select hround fun _ _ _ _ _ => ?_))
  refine safe_require fun _ => ?_
  refine safe_bind (safe_require fun hst => ?_)
  have hleft : round.status.Left := by
    rcases Bool.or_eq_true_iff.mp hst with h | h
    · exact Or.inr (Or.inl (by simpa using h))
    · exact Or.inr (Or.inr (Or.inl (by simpa using h)))
  refine safe_bind (safe_selectFor fun db existing _ hA hexisting => ⟨_, hA, hround.weaken, ?_⟩)
  cases existing with
  | some existing =>
    exact safe_bind (safe_commit (fun db hI _ => ⟨hI, .of_same rfl rfl rfl rfl⟩) safe_ret)
  | none =>
    refine safe_bind (safe_select hround.weaken fun _ tally _ _ _ => ?_)
    refine safe_bind (safe_selectFor fun db votes _ hA hvotes => ?_)
    -- from here on the round's votes are known, and cannot change
    refine ⟨fun d => d.round? roundId = some round ∧ d.votesOf roundId = db.votesOf roundId,
      ⟨hA, rfl⟩, hround.weaken.weaken.and (stable_votes hlock).weaken.weaken, ?_⟩
    refine safe_bind (safe_require fun _ => ?_)
    refine safe_bind (safe_require fun _ => ?_)
    refine safe_bind (safe_require fun _ => ?_)
    refine safe_bind (safe_insert fun db' hI' hA' _ hviolation => ?_)
    have hunused : ∀ t ∈ db'.snapshots, t.id ≠ snapshotId := by
      intro t ht heq
      have hany : db'.snapshots.any (fun t => t.id = snapshotId || t.roundId = roundId) = true :=
        List.any_eq_true.mpr ⟨t, ht, by simp [heq]⟩
      rw [snapshotViolation, if_pos (by exact hany)] at hviolation
      cases hviolation
    generalize hheld : held ++ _ ++ _ ++ _ = held'
    have hin : ⟨.snapshot snapshotId, .update⟩ ∈ held' := by
      rw [← hheld]
      simp
    have hlock' : ⟨.round roundId, .update⟩ ∈ held' := by
      rw [← hheld]
      exact List.mem_append_left _ (List.mem_append_left _ (List.mem_append_left _ hlock))
    have hB : Stable (Inv sha256 frozen) (Guarantee frozen) held' fun d =>
        (d.round? roundId = some round ∧ d.votesOf roundId = db.votesOf roundId) ∧
          ∀ t ∈ d.snapshots, t.id ≠ snapshotId :=
      ((stable_round hlock' rfl).and (stable_votes hlock')).and (stable_snapshotId hin)
    let snapshot : Snapshot :=
      { id := snapshotId, organizationId := round.organizationId, pageantId := round.pageantId
        roundId, status := .created, totalVotes := votes.length
        tallySha256 := hashBytes sha256 (tallyText tally)
        merkleRoot := merkleRoot sha256 (votes.map fun v => (v.leaf roundId).hash sha256)
        tally, createdByUserId := actorUserId }
    refine ⟨_, ⟨⟨hA', hunused⟩, fun l hl => absurd hl List.not_mem_nil⟩,
      hB.and (B := fun d => ∀ l ∈ ([] : List SnapshotLeaf), ∀ m ∈ d.leaves,
        m.receiptHash ≠ l.receiptHash) (fun _ _ _ _ _ _ _ _ l hl => absurd hl List.not_mem_nil), ?_⟩
    have hpending : (fun d : Database => { d with snapshots := d.snapshots ++ [snapshot] }) =
        fun d => d.addSnapshot snapshot [] := by
      funext d
      simp [Database.addSnapshot]
    refine safe_bind (hpending ▸ safe_insertLeaves hB _ [] held' (List.Subset.refl _)
      (by simp) (by simp) fun final hbase hlocks hnodup => ?_)
    refine safe_bind (safe_commit (fun d hId hd => ?_) safe_ret)
    obtain ⟨⟨⟨hr, hvs⟩, hid⟩, hfresh⟩ := hd
    refine ⟨hId.addSnapshot hid ?_ hnodup hfresh rfl rfl hr hleft,
      .addSnapshot hid (hbase hin) hlocks fun l hl => (mem_leafRows hl).1⟩
    rw [← hvotes]
    exact congrArg (List.insertionSort Database.voteOrder) hvs

theorem safe_request {p : Prog Database Row Site Result} (h : Request sha256 tallyText p) :
    SafeRequest (Inv sha256 frozen) (Guarantee frozen) (Condition frozen) p := by
  cases h with
  | castVote => exact safe_castVote _ _ _ _
  | transitionRound => exact safe_transitionRound _ _ _ _
  | createSnapshot => exact safe_createSnapshot _ _ _
  | environment => exact safe_environment _ _ _

end CrownFi.Voting
