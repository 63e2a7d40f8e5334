import CrownFi.Web.Rounds.Commitments

/-!
# CrownFi.Web.Rounds.Receipts

**Every vote of a closed round has a receipt.** A closed round has a checkpoint,
and the leaves of its votes are among the leaves of the checkpoint, so that the
receipt route finds a proof, which verifies. Two races break that: a vote that is
stored after the votes have been read for the checkpoint, and one that is stored
after the round has been closed, by a request that had found it open. The
condition (`InTime`) excludes both.
-/

namespace CrownFi.Web.Rounds

open Lib Lib.Processes CrownFi.Api

variable {config : Config} {db db' : Database} {roundId : String} {leaves : List String} {cp : Computed}

/-- Votes are stored while the round is open, and a checkpoint is saved that has them all. -/
def InTime : Point → Database → Prop
  | .createVote roundId, db => (db.round roundId).all (·.status = .open) = true
  | .save roundId leaves, db => ∀ v ∈ db.votes, v.roundId = roundId → v.leafHash ∈ leaves
  | _, _ => True

instance : (point : Point) → (db : Database) → Decidable (InTime point db)
  | .createVote roundId, db => inferInstanceAs (Decidable ((db.round roundId).all _ = true))
  | .save roundId leaves, db =>
      inferInstanceAs (Decidable (∀ v ∈ db.votes, v.roundId = roundId → v.leafHash ∈ leaves))
  | .readRound, _ | .countVotes, _ | .readVotes, _ | .fetchAccount, _ | .createIntent, _
  | .consumeIntent, _ | .submit, _ | .recompute _ _, _ | .findCheckpoint, _ | .findVote, _ => .isTrue trivial

/-! ### The invariant -/

/-- The round is closed, with these leaves. -/
structure Settled (db : Database) (roundId : String) (leaves : List String) : Prop where
  closed : ∃ round, db.round roundId = some round ∧ round.status = .closed
  votes : ∀ v ∈ db.votes, v.roundId = roundId → v.leafHash ∈ leaves

structure Receipted (config : Config) (db : Database) : Prop where
  closed : ∀ roundId round, db.round roundId = some round → round.status = .closed →
    ∃ c, db.checkpoint roundId = some c
  settled : ∀ c ∈ db.checkpoints, Settled db c.roundId c.leaves
  rooted : ∀ c ∈ db.checkpoints, c.merkleRoot = merkleRoot config.sha256 c.leaves
  fans : ∀ v ∈ db.votes, v.fanId ≠ ""

/-- What is settled stays settled. -/
def Settles (_ : List Empty) (db db' : Database) : Prop :=
  ∀ roundId leaves, Settled db roundId leaves → Settled db' roundId leaves

theorem stable_settled {held : List Empty} :
    Stable (Receipted config) Settles held fun db => Settled db roundId leaves :=
  fun _ _ _ _ _ _ h hG => hG roundId leaves h

/-- Neither rounds nor votes change. -/
theorem settles_same {held : List Empty} (hrounds : db'.rounds = db.rounds) (hvotes : db'.votes = db.votes) :
    Settles held db db' := by
  intro roundId leaves h
  have hround : db'.round roundId = db.round roundId := by rw [Database.round, Database.round, hrounds]
  constructor
  · rw [hround]
    exact h.closed
  · rw [hvotes]
    exact h.votes

theorem Receipted.same (h : Receipted config db) (hrounds : db'.rounds = db.rounds)
    (hvotes : db'.votes = db.votes) (hcheckpoints : db'.checkpoints = db.checkpoints) :
    Receipted config db' where
  closed roundId round hround hstatus := by
    rw [Database.checkpoint, hcheckpoints]
    rw [Database.round, hrounds] at hround
    exact h.closed roundId round hround hstatus
  settled c hc := by
    rw [hcheckpoints] at hc
    have hsettles : Settles [] db db' := settles_same hrounds hvotes
    exact hsettles _ _ (h.settled c hc)
  rooted c hc := by
    rw [hcheckpoints] at hc
    exact h.rooted c hc
  fans v hv := by
    rw [hvotes] at hv
    exact h.fans v hv

/-- **A vote in an open round** concerns no checkpoint. -/
theorem settles_vote {held : List Empty} {v : Vote}
    (hopen : ∀ round, db.round v.roundId = some round → round.status = .open) :
    Settles held db { db with votes := db.votes ++ [v] } := by
  intro roundId leaves h
  refine ⟨h.closed, fun w hw hround => ?_⟩
  rcases List.mem_append.mp hw with hold | hnew
  · exact h.votes w hold hround
  · obtain rfl := List.mem_singleton.mp hnew
    obtain ⟨round, hfound, hclosed⟩ := h.closed
    rw [← hround] at hfound
    rw [hopen round hfound] at hclosed
    cases hclosed

theorem Receipted.vote {v : Vote} (h : Receipted config db) (hfan : v.fanId ≠ "")
    (hopen : ∀ round, db.round v.roundId = some round → round.status = .open) :
    Receipted config { db with votes := db.votes ++ [v] } where
  closed := h.closed
  settled c hc := by
    have hsettles : Settles [] db { db with votes := db.votes ++ [v] } := settles_vote hopen
    exact hsettles _ _ (h.settled c hc)
  rooted := h.rooted
  fans w hw := by
    rcases List.mem_append.mp hw with hold | hnew
    · exact h.fans w hold
    · obtain rfl := List.mem_singleton.mp hnew
      exact hfan

theorem exists_checkpoint {c : Checkpoint} (hc : c ∈ db.checkpoints) : ∃ c', db.checkpoint c.roundId = some c' := by
  refine Option.isSome_iff_exists.mp (List.find?_isSome.mpr ⟨c, hc, ?_⟩)
  exact decide_eq_true rfl

/-! ### Saving a checkpoint -/

section Save

variable {anchorTx : AnchorTx} {held : List Empty} (hsaved : saveCheckpoint roundId cp anchorTx db = .ok db')

include hsaved

/-- The rounds after a checkpoint has been saved. -/
theorem round_saved (roundId' : String) : db'.round roundId' =
    (db.round roundId').map fun r =>
      if r.id = roundId then { r with status := .closed, closedAt := some db.clock } else r := by
  obtain ⟨-, rfl⟩ := saveCheckpoint_eq_ok hsaved
  have hfound : (updateWhere (fun r : Round => r.id = roundId)
      (fun r => { r with status := .closed, closedAt := some db.clock }) db.rounds).find?
        (fun r => r.id = roundId') = _ := find?_updateWhere fun r => rfl
  rw [Database.round, hfound, Database.round]
  simp only [decide_eq_true_eq]

/-- The saved round is closed. -/
theorem settled_saved (hvotes : ∀ v ∈ db.votes, v.roundId = roundId → v.leafHash ∈ cp.leaves) :
    Settled db' roundId cp.leaves := by
  have hrounds := round_saved hsaved roundId
  obtain ⟨⟨round, hround⟩, rfl⟩ := saveCheckpoint_eq_ok hsaved
  have hid : round.id = roundId := by simpa using List.find?_some hround
  rw [hround, Option.map_some, if_pos hid] at hrounds
  exact ⟨⟨_, hrounds, rfl⟩, hvotes⟩

theorem settles_saved : Settles held db db' := by
  intro roundId' leaves h
  obtain ⟨round, hround, hclosed⟩ := h.closed
  have hrounds := round_saved hsaved roundId'
  rw [hround, Option.map_some] at hrounds
  obtain ⟨-, rfl⟩ := saveCheckpoint_eq_ok hsaved
  refine ⟨⟨_, hrounds, ?_⟩, h.votes⟩
  split
  · rfl
  · exact hclosed

theorem Receipted.saved (h : Receipted config db) (hroot : cp.root = merkleRoot config.sha256 cp.leaves)
    (hvotes : ∀ v ∈ db.votes, v.roundId = roundId → v.leafHash ∈ cp.leaves) : Receipted config db' := by
  have hrounds := round_saved hsaved
  have hsettled := settled_saved hsaved hvotes
  have hsettles : Settles [] db db' := settles_saved hsaved
  obtain ⟨-, rfl⟩ := saveCheckpoint_eq_ok hsaved
  have hmem : ∀ c ∈ db.checkpoints.filter (fun c => c.roundId ≠ roundId) ++ [cp.checkpoint roundId anchorTx],
      c ∈ db.checkpoints ∨ c = cp.checkpoint roundId anchorTx := by
    intro c hc
    rcases List.mem_append.mp hc with hold | hnew
    · exact .inl (List.mem_filter.mp hold).1
    · exact .inr (List.mem_singleton.mp hnew)
  constructor
  · intro roundId' round hround hclosed
    rw [hrounds, Option.map_eq_some_iff] at hround
    obtain ⟨before, hbefore, rfl⟩ := hround
    have hid : before.id = roundId' := by simpa using List.find?_some hbefore
    by_cases hsame : roundId' = roundId
    · obtain rfl := hsame
      exact exists_checkpoint (c := cp.checkpoint roundId' anchorTx)
        (List.mem_append_right _ (List.mem_singleton_self _))
    · rw [if_neg (hid ▸ hsame)] at hclosed
      obtain ⟨c, hc⟩ := h.closed roundId' before hbefore hclosed
      have hcround : c.roundId = roundId' := by simpa using List.find?_some hc
      have hkept : c ∈ db.checkpoints.filter fun c => c.roundId ≠ roundId :=
        List.mem_filter.mpr ⟨List.mem_of_find?_eq_some hc, by simpa [hcround] using hsame⟩
      rw [← hcround]
      exact exists_checkpoint (List.mem_append_left _ hkept)
  · intro c hc
    rcases hmem c hc with hold | rfl
    · exact hsettles _ _ (h.settled c hold)
    · exact hsettled
  · intro c hc
    rcases hmem c hc with hold | rfl
    · exact h.rooted c hold
    · exact hroot
  · exact h.fans

end Save

/-! ### The receipt -/

/-- **A leaf of a checkpoint has a receipt.** -/
theorem receiptFor_verified {c : Checkpoint} {v : Vote}
    (hroot : c.merkleRoot = merkleRoot config.sha256 c.leaves) (hleaf : v.leafHash ∈ c.leaves) :
    receiptFor config c v = .receipt true := by
  have hindex : c.leaves[c.leaves.idxOf v.leafHash]? = some v.leafHash := by
    rw [List.getElem?_eq_getElem (List.idxOf_lt_length_iff.mpr hleaf), List.getElem_idxOf]
  obtain ⟨proof, hproof, -, hverified⟩ := merkleProof_verifies  hindex
  rw [receiptFor, if_pos (List.contains_iff_mem.mpr hleaf), hproof, hroot]
  simp only [hverified]

/-! ### The requests -/

section Requests

variable {A : Database → Prop}

/-- An outline against the invariant, with the answers that it may give. -/
abbrev Gives (config : Config) (answers : Answer → Prop) (p : Proc Database Empty Point Answer)
    (A : Database → Prop) : Prop :=
  Outlined (Receipted config) Settles InTime (fun _ _ _ => True) answers p [] A

/-- A receipt is not refused, and verifies. -/
def Verifies : Request → Answer → Prop
  | .receipt _ _, answer => answer ≠ .receipt false ∧ answer ≠ .error 500 "leaf_not_found" ∧ answer ≠ .failed
  | _, _ => True

theorem gives_requireOpen {k : PUnit → Proc Database Empty Point Answer}
    (h : Gives config (fun _ => True) (k ⟨⟩) fun _ => True) :
    Gives config (fun _ => True) (requireOpen roundId k) fun _ => True := by
  unfold requireOpen
  refine outlined_bind (outlined_look stable_true fun db _ _ => ?_)
  refine outlined_bind (outlined_orElse fun round _ => ?_)
  exact outlined_require fun _ => h

theorem gives_vote {allowed : Bool} {body : Option VoteBody} :
    Gives config (fun _ => True) (vote config allowed body .ret) fun _ => True := by
  unfold vote
  refine outlined_bind (outlined_require fun _ => ?_)
  refine outlined_bind (outlined_orElse fun body _ => ?_)
  refine outlined_bind (outlined_require fun hfields => ?_)
  refine outlined_bind (outlined_look stable_true fun db _ _ => ?_)
  refine outlined_bind (outlined_orElse fun round _ => ?_)
  refine outlined_bind (outlined_require fun _ => ?_)
  refine outlined_bind (outlined_look stable_true fun db _ _ => ?_)
  refine outlined_bind (outlined_require fun _ => ?_)
  refine outlined_bind (outlined_transact fun db db' hI _ hintime hinserted => ?_)
  obtain rfl := insertVote_eq_ok hinserted
  have hfan : body.fanId ≠ "" := by
    simp only [Bool.and_eq_true, decide_eq_true_eq] at hfields
    exact hfields.1.2
  have hopen : ∀ round, db.round body.roundId = some round → round.status = .open := by
    intro round hround
    have hall : (db.round body.roundId).all (·.status = .open) = true := hintime
    rw [hround] at hall
    exact of_decide_eq_true hall
  exact ⟨⟨hI.vote hfan hopen, settles_vote hopen⟩, _, trivial, stable_true, outlined_ret trivial⟩

theorem gives_prepareClose {admin : Option String} {adminAddress : String} {o : Outcomes} :
    Gives config (fun _ => True) (prepareClose config admin roundId adminAddress o .ret) fun _ => True := by
  unfold prepareClose
  refine outlined_bind (outlined_orElse fun admin _ => ?_)
  refine outlined_bind (gives_requireOpen ?_)
  refine outlined_bind (outlined_look stable_true fun db _ _ => ?_)
  refine outlined_bind (outlined_require fun _ => ?_)
  refine outlined_bind (outlined_require fun _ => ?_)
  refine outlined_bind (outlined_require fun _ => ?_)
  refine outlined_bind (outlined_require fun _ => ?_)
  refine outlined_bind (outlined_look stable_true fun db _ _ => ?_)
  refine outlined_bind (outlined_require fun _ => ?_)
  refine outlined_bind (outlined_write fun db hI _ _ => ?_)
  exact ⟨.inr ⟨hI.same rfl rfl rfl, settles_same rfl rfl⟩, _, trivial, stable_true, outlined_ret trivial⟩

theorem gives_save {anchorTx : AnchorTx} (hroot : cp.root = merkleRoot config.sha256 cp.leaves) :
    Gives config (fun _ => True) (Task.transact (.save roundId cp.leaves) (saveCheckpoint roundId cp anchorTx)
      (fun _ => .failed) fun _ => .ret .ok) fun _ => True := by
  refine outlined_transact fun db db' hI _ hintime hsaved => ?_
  exact ⟨⟨hI.saved hsaved hroot hintime, settles_saved hsaved⟩, _, trivial, stable_true, outlined_ret trivial⟩

theorem gives_confirmClose {admin : Option String} {signedXdr intentId : String} {o : Outcomes} :
    Gives config (fun _ => True) (confirmClose config admin roundId signedXdr intentId o .ret) fun _ => True := by
  unfold confirmClose
  refine outlined_bind (outlined_orElse fun admin _ => ?_)
  refine outlined_bind (outlined_require fun _ => ?_)
  refine outlined_bind (gives_requireOpen ?_)
  refine outlined_bind (outlined_access fun db hI _ _ => ?_)
  refine ⟨.inr ⟨hI.same rfl rfl rfl, settles_same rfl rfl⟩, _, trivial, stable_true, ?_⟩
  refine outlined_bind (outlined_orElse fun intent _ => ?_)
  refine outlined_bind (outlined_bind ?_)
  refine outlined_orElse fun tx _ => ?_
  refine outlined_bind (outlined_require fun _ => ?_)
  refine outlined_bind (outlined_require fun _ => ?_)
  refine outlined_bind (outlined_write fun db hI _ _ => ?_)
  refine ⟨.inr ⟨hI.same rfl rfl rfl, settles_same rfl rfl⟩, _, trivial, stable_true, ?_⟩
  refine outlined_bind (outlined_require fun _ => ?_)
  refine outlined_bind (outlined_look stable_true fun db _ _ => ?_)
  exact outlined_bind (gives_save rfl)

theorem gives_close {admin : Option String} {o : Outcomes} :
    Gives config (fun _ => True) (close config admin roundId o .ret) fun _ => True := by
  unfold close
  refine outlined_bind (outlined_orElse fun admin _ => ?_)
  refine outlined_bind (gives_requireOpen ?_)
  refine outlined_bind (outlined_look stable_true fun db _ _ => ?_)
  refine outlined_bind ?_
  unfold anchorCheckpoint
  refine outlined_ite (fun _ => ?_) fun _ => outlined_bind (gives_save rfl)
  refine outlined_bind (outlined_access fun db hI _ _ => ?_)
  refine ⟨.inr ⟨hI.same rfl rfl rfl, settles_same rfl rfl⟩, _, trivial, stable_true, ?_⟩
  exact outlined_bind (outlined_require fun _ => outlined_bind (gives_save rfl))

/-- **A receipt** of a vote that is found after the checkpoint. -/
theorem gives_receipt {fanId : String} :
    Gives config (Verifies (.receipt roundId fanId)) (receipt config roundId fanId .ret) fun _ => True := by
  unfold receipt
  refine outlined_bind (outlined_requireFailing (fun _ => ?_) fun _ => by simp [Verifies])
  refine outlined_bind (outlined_read fun db hI _ _ => ?_)
  cases hfound : db.checkpoint roundId with
  | none => exact ⟨_, trivial, stable_true, outlined_bind (outlined_orElseFailing (fun c hc => by cases hc) fun _ => by simp [Verifies])⟩
  | some c =>
      have hc : c ∈ db.checkpoints := List.mem_of_find?_eq_some hfound
      have hround : c.roundId = roundId := by simpa using List.find?_some hfound
      have hsettled := hI.settled c hc
      rw [hround] at hsettled
      refine ⟨_, hsettled, stable_settled, outlined_bind (outlined_orElseFailing (fun c' hc' => ?_) fun h => by cases h)⟩
      obtain rfl := Option.some.inj hc'
      refine outlined_bind (outlined_look stable_settled fun db' _ hsettled' => ?_)
      refine outlined_bind (outlined_orElseFailing (fun v hv => ?_) fun _ => by simp [Verifies])
      have hvote : v ∈ db'.votes ∧ v.roundId = roundId := by
        have hmatch := List.find?_some hv
        simp only [Bool.and_eq_true, decide_eq_true_eq] at hmatch
        exact ⟨List.mem_of_find?_eq_some hv, hmatch.1⟩
      have hleaf : v.leafHash ∈ c.leaves := hsettled'.votes v hvote.1 hvote.2
      refine outlined_ret ?_
      rw [receiptFor_verified (hI.rooted c hc) hleaf]
      simp [Verifies]

theorem gives_program (r : Request) : Gives config (Verifies r) (program config r) fun _ => True := by
  cases r with
  | vote allowed body => exact gives_vote
  | prepareClose admin roundId adminAddress o => exact gives_prepareClose
  | confirmClose admin roundId signedXdr intentId o => exact gives_confirmClose
  | close admin roundId o => exact gives_close
  | receipt roundId fanId => exact gives_receipt

end Requests

/-! ### Runs -/

theorem events_receipted : EventsKeep (system config) (.ofAccess InTime) (Receipted config) Settles := by
  intro e db hpossible _ h
  cases e with
  | createRound id =>
      -- a new round is open, and hides no other
      have hround : ∀ roundId round, db.round roundId = some round →
          (Event.change (.createRound id) db).round roundId = some round := by
        intro roundId round hround
        change (db.rounds ++ [Round.mk id .open none]).find? (fun r => r.id = roundId) = some round
        rw [Database.round] at hround
        rw [List.find?_append, hround]
        rfl
      have hsettles : Settles [] db (Event.change (.createRound id) db) := by
        intro roundId leaves hsettled
        obtain ⟨round, hfound, hclosed⟩ := hsettled.closed
        exact ⟨⟨round, hround roundId round hfound, hclosed⟩, hsettled.votes⟩
      refine ⟨⟨fun roundId round hfound hclosed => ?_, fun c hc => hsettles _ _ (h.settled c hc), h.rooted,
        h.fans⟩, hsettles⟩
      cases hbefore : db.round roundId with
      | some before =>
          obtain rfl : before = round := Option.some.inj ((hround roundId before hbefore).symm.trans hfound)
          exact h.closed roundId before hbefore hclosed
      | none =>
          change (db.rounds ++ [Round.mk id .open none]).find? (fun r => r.id = roundId) = some round at hfound
          rw [Database.round] at hbefore
          rw [List.find?_append, hbefore, Option.none_or] at hfound
          obtain rfl := List.mem_singleton.mp (List.mem_of_find?_eq_some hfound)
          cases hclosed
  | account source sequence => exact ⟨h.same rfl rfl rfl, settles_same rfl rfl⟩
  | tick elapsed => exact ⟨h.same rfl rfl rfl, settles_same rfl rfl⟩
  | restart => exact ⟨h.same rfl rfl rfl, settles_same rfl rfl⟩

theorem receipted_initial (h : db.Initial) : Receipted config db where
  closed roundId round hround hclosed := by
    rw [h.rounds round (List.mem_of_find?_eq_some hround)] at hclosed
    cases hclosed
  settled c hc := by
    rw [h.checkpoints] at hc
    cases hc
  rooted c hc := by
    rw [h.checkpoints] at hc
    cases hc
  fans v hv := by
    rw [h.votes] at hv
    cases hv

/-- What the receipt route answers, alone. -/
theorem receipt_alone {fanId : String} {c : Checkpoint} {v : Vote} (hfan : fanId ≠ "")
    (hc : db.checkpoint roundId = some c)
    (hv : (db.votes.find? fun v => v.roundId = roundId && v.fanId = fanId) = some v) :
    ((program config (.receipt roundId fanId)).alone db).1 = receiptFor config c v := by
  have hrequired : decide (fanId ≠ "") = true := decide_eq_true hfan
  change ((receipt config roundId fanId .ret).alone db).1 = _
  simp only [receipt, bind, Task.require, hrequired, if_true, Task.read, Task.access, Proc.alone, hc,
    Task.orElse, id, hv, pure]

/-- **Every vote of a closed round has a receipt**, in every run in which votes and checkpoints are stored in
time; and no receipt request is ever told otherwise. -/
theorem closed_round_receipted {db₀ : Database} (h₀ : db₀.Initial) {moves : List (Processes.Move Request Event)}
    {world : RoundsWorld}
    (hrun : Run (Processes.World.Step (system config) (.ofAccess InTime)) (Processes.World.idle db₀) moves world) :
    (∀ roundId round, world.state.round roundId = some round → round.status = .closed →
      ∃ c, world.state.checkpoint roundId = some c ∧ ∀ v ∈ world.state.votes, v.roundId = roundId →
        v.leafHash ∈ c.leaves ∧
          ((program config (.receipt roundId v.fanId)).alone world.state).1 = .receipt true) ∧
      ∀ t ∈ world.processes, ∀ answer, t.proc.answer? = some answer → Verifies t.request answer := by
  have h : Running (Receipted config) Settles (Discipline.ofAccess InTime).access (fun _ _ _ => True)
      Verifies world :=
    run_running gives_program events_receipted hrun (running_idle (receipted_initial h₀))
  refine ⟨fun roundId round hround hclosed => ?_, fun t ht answer hanswer => h.answered ht hanswer⟩
  obtain ⟨c, hc⟩ := h.inv.closed roundId round hround hclosed
  have hmem : c ∈ world.state.checkpoints := List.mem_of_find?_eq_some hc
  have hcround : c.roundId = roundId := by simpa using List.find?_some hc
  have hsettled := h.inv.settled c hmem
  rw [hcround] at hsettled
  refine ⟨c, hc, fun v hv hvround => ⟨hsettled.votes v hv hvround, ?_⟩⟩
  have hfinds : (world.state.votes.find? fun w => w.roundId = roundId && w.fanId = v.fanId).isSome = true :=
    List.find?_isSome.mpr ⟨v, hv, by simp [hvround]⟩
  obtain ⟨w, hw⟩ := Option.isSome_iff_exists.mp hfinds
  have hwround : w.roundId = roundId := by
    have hmatch := List.find?_some hw
    simp only [Bool.and_eq_true, decide_eq_true_eq] at hmatch
    exact hmatch.1
  rw [receipt_alone (h.inv.fans v hv) hc hw]
  exact receiptFor_verified (h.inv.rooted c hmem) (hsettled.votes w (List.mem_of_find?_eq_some hw) hwround)

/-! The round of one fan, closed by the platform. -/

/-- The administrator closes the round, up to the anchor. -/
def closeRound (process : Nat) : List (Processes.Move Request Event) :=
  .spawn (.close (some "GADMIN") "round" smoothly) :: List.replicate 3 (.go process)

def voteAs (process : Nat) : List (Processes.Move Request Event) :=
  .spawn (.vote true (some ⟨"round", "fan", "contestant"⟩)) :: List.replicate 3 (.go process)

def closedWith (test : Checkpoint → Vote → Bool) (world : RoundsWorld) : Bool :=
  (world.state.round "round").any (·.status = .closed) && (world.state.checkpoint "round").any fun c =>
    world.state.votes.any fun v => v.roundId = "round" && test c v

theorem closedWith_iff {test : Checkpoint → Vote → Bool} {world : RoundsWorld}
    (h : closedWith test world = true) : ∃ round c v, world.state.round "round" = some round ∧
      round.status = .closed ∧ world.state.checkpoint "round" = some c ∧ v ∈ world.state.votes ∧
      v.roundId = "round" ∧ test c v = true := by
  obtain ⟨hround, hcheckpoint⟩ := Bool.and_eq_true_iff.mp h
  obtain ⟨round, hround, hclosed⟩ := (Option.any_eq_true _ _).mp hround
  obtain ⟨c, hc, htest⟩ := (Option.any_eq_true _ _).mp hcheckpoint
  obtain ⟨v, hv, htest⟩ := List.any_eq_true.mp htest
  simp only [Bool.and_eq_true, decide_eq_true_eq] at htest hclosed
  exact ⟨round, c, v, hround, hclosed, hc, hv, htest.1, htest.2⟩

theorem early_vote_receipted : ∃ (world : RoundsWorld) (v : Vote), v ∈ world.state.votes ∧
    ((program testConfig (.receipt "round" v.fanId)).alone world.state).1 = .receipt true := by
  have h : ((Processes.World.idle openRound).replay (system testConfig) (.ofAccess InTime)
      (voteAs 0 ++ closeRound 1 ++ [.go 1])).any (closedWith fun _ _ => true) = true := by decide +kernel
  obtain ⟨world, hworld, htest⟩ := (Option.any_eq_true _ _).mp h
  obtain ⟨round, c, v, hround, hclosed, -, hv, hvround, -⟩ := closedWith_iff htest
  obtain ⟨c', -, hall⟩ := (closed_round_receipted openRound_initial (Processes.World.run_of_replay hworld)).1 "round"
    round hround hclosed
  exact ⟨world, v, hv, (hall v hv hvround).2⟩

/-- **A late vote** is in no checkpoint of its closed round. -/
theorem late_vote_unreceipted : ∃ world : RoundsWorld,
    Run (Processes.World.Step (system testConfig) .none) (Processes.World.idle openRound) (closeRound 0 ++ voteAs 1 ++ [.go 0])
      world ∧
    ∃ round c v, world.state.round "round" = some round ∧ round.status = .closed ∧
      world.state.checkpoint "round" = some c ∧ v ∈ world.state.votes ∧ v.roundId = "round" ∧
      v.leafHash ∉ c.leaves := by
  have h : ((Processes.World.idle openRound).replay (system testConfig) .none
      (closeRound 0 ++ voteAs 1 ++ [.go 0])).any (closedWith fun c v => !c.leaves.contains v.leafHash) =
        true := by decide +kernel
  obtain ⟨world, hworld, htest⟩ := (Option.any_eq_true _ _).mp h
  obtain ⟨round, c, v, hround, hclosed, hc, hv, hvround, hmissing⟩ := closedWith_iff htest
  refine ⟨world, Processes.World.run_of_replay hworld, round, c, v, hround, hclosed, hc, hv, hvround, fun hleaf => ?_⟩
  rw [List.contains_iff_mem.mpr hleaf] at hmissing
  cases hmissing

end CrownFi.Web.Rounds
