import CrownFi.Voting.Completeness
import CrownFi.Voting.Stages

/-!
# CrownFi.Voting.Anchored

**Intent, snapshot and round are anchored together**, in any order, interleaving and
redelivery of the requests on rounds and on the anchoring of their snapshots.

Each request has its outline here. The anchoring requests hold the row they start from
until they commit, and the invariant tells them the other rows: a snapshot without intent
is created, a submitted intent has a pending snapshot and a closed round.
-/

namespace CrownFi.Voting.Anchoring

open Lib CrownFi.Api

variable {sha256 : Sha256} {tallyText : List TallyEntry → ByteArray}

/-- The outline of the rest of a request. -/
abbrev Outline (p : Prog Database Row Site Result) (L : List (Lock Row))
    (pending : Database → Database) (A : Database → Prop) : Prop :=
  Safe Inv (Forward part Guaranteed) (fun _ _ => True) p L pending A

abbrev Tracks (L : List (Lock Row)) (pending : Database → Database) (A : Database → Prop) : Prop :=
  Track part Inv Guaranteed L pending A

abbrev SafeHandler (h : Handler Response) : Prop :=
  SafeRequest Inv (Forward part Guaranteed) (fun _ _ => True) h.request

/-! ### Tables that the anchoring does not look at -/

def voteTable : Table Database Row Uuid Vote where
  rows := Database.votes
  put db votes := { db with votes }
  key := Vote.id
  row := .vote
  rows_put _ _ := rfl

def leafTable : Table Database Row Uuid SnapshotLeaf where
  rows := Database.leaves
  put db leaves := { db with leaves }
  key := SnapshotLeaf.voteId
  row := .leafOf
  rows_put _ _ := rfl

theorem hidden_votes {own : Uuid → Prop} : Hidden part Inv (Moves own) voteTable where
  part_put _ _ k := by cases k <;> rfl
  keeps _ _ hI := hI.of_same (by rfl) (by rfl) (by rfl) (by rfl) own

theorem hidden_leaves {own : Uuid → Prop} : Hidden part Inv (Moves own) leafTable where
  part_put _ _ k := by cases k <;> rfl
  keeps _ _ hI := hI.of_same (by rfl) (by rfl) (by rfl) (by rfl) own

/-! ### Rules for the parts of the requests -/

section Rules

variable {L : List (Lock Row)} {pending : Database → Database} {A : Database → Prop}
  {own : Uuid → Prop}

theorem safe_valid {α : Type} {e : Except ApiError α} {k : α → Prog Database Row Site Result}
    (next : ∀ a, e = .ok a → Outline (k a) L pending A) : Outline (valid e k) L pending A :=
  safe_ofExcept next

theorem safe_requireEditor {organizationId userId : Uuid} {k : PUnit → Prog Database Row Site Result}
    (ht : Tracks L pending A) (next : Outline (k ⟨⟩) L pending A) :
    Outline (requireOrganizationEditor organizationId userId k) L pending A := by
  unfold requireOrganizationEditor
  refine safe_bind (safe_select ht.stable fun _ _ _ _ _ => ?_)
  exact safe_require fun _ => next

/-- The end of a request that makes no snapshot. -/
theorem safe_done {k : PUnit → Prog Database Row Site Result} (ht : Tracks L pending A)
    (hk : Keeps Inv (Moves fun _ => False) pending A)
    (next : Outline (k ⟨⟩) [] id fun _ => True) : Outline (Tx.commit k) L pending A :=
  ht.safe_commitWithin hk (fun _ _ h => h.guaranteed fun _ => False.elim) next

/-- The row of an intent is known once it is loaded. -/
theorem safe_loadIntentTx {intentId : Uuid} {k : AnchorIntent → Prog Database Row Site Result}
    (ht : Tracks L pending A)
    (next : ∀ L' B i, Tracks L' pending B → (∀ d, B d → A d) →
      (∀ d, B d → anchorIntentTable.find (pending d) intentId = some i) →
      Outline (k i) L' pending B) :
    Outline (loadIntentTx intentId k) L pending A := by
  unfold loadIntentTx
  refine safe_bind (ht.safe_selectFor fun db B row _ _ hrow h => ?_)
  refine safe_orElse fun i hi => ?_
  have hfind : anchorIntentTable.find (pending db) intentId = some i := hrow.trans hi
  have hid : i.id = intentId := (anchorIntentTable.find_mem hfind).2
  have hlock : (⟨.anchorIntent intentId, .update⟩ : Lock Row) ∈
      L ++ (anchorIntentTable.find (pending db) intentId).toList.map fun i => ⟨.anchorIntent i.id, .update⟩ := by
    simp [hfind, hid]
  exact next _ B i h.track h.before fun d hd =>
    ((h.seen d hd).find intentLayout hlock rfl).trans hfind

theorem safe_loadEvidenceTx {intentId : Uuid}
    {k : Option AnchorEvidence → Prog Database Row Site Result} (ht : Tracks L pending A)
    (next : ∀ L' B e, Tracks L' pending B → (∀ d, B d → A d) → Outline (k e) L' pending B) :
    Outline (loadEvidenceTx intentId k) L pending A := by
  unfold loadEvidenceTx
  exact ht.safe_selectFor fun db B row _ _ _ h => next _ B row h.track h.before

end Rules

/-! ### The requests on rounds -/

theorem safe_castVote (voterUserId roundId : Uuid) (body : CastVoteRequest) (voteId : Uuid) :
    SafeHandler (castVote sha256 voterUserId roundId body voteId) := by
  unfold SafeHandler SafeRequest Handler.request castVote
  refine safe_bind (safe_valid fun key _ => ?_)
  refine safe_bind (safe_select stable_true fun _ _ _ _ _ => ?_)
  refine safe_bind (safe_orElse fun round _ => ?_)
  refine safe_bind (safe_select stable_true fun _ _ _ _ _ => ?_)
  refine safe_bind (safe_require fun _ => ?_)
  refine safe_bind (safe_select stable_true fun _ _ _ _ _ => ?_)
  refine safe_bind (safe_require fun _ => ?_)
  refine safe_bind (safe_select stable_true fun _ _ _ _ _ => ?_)
  refine safe_bind (safe_require fun _ => ?_)
  refine safe_bind (safe_select stable_true fun _ existing _ _ _ => ?_)
  cases existing with
  | some existing =>
    refine safe_bind (safe_select stable_true fun _ _ _ _ _ => ?_)
    refine safe_bind (safe_require fun _ => ?_)
    exact safe_bind (safe_done .start .start safe_ret)
  | none =>
    refine safe_bind (safe_select stable_true fun _ _ _ _ _ => ?_)
    refine safe_bind (Track.start.safe_insertHidden (T := voteTable) (R := Moves fun _ => False)
      .start hidden_votes fun L p B h => ?_)
    exact safe_bind (safe_done h.track h.keeps safe_ret)

/-- The change of a round's status under its lock. -/
theorem track_setRoundStatus {L : List (Lock Row)} {pending : Database → Database}
    {A : Database → Prop} {roundId : Uuid} {status : RoundStatus} (ht : Tracks L pending A)
    (hlock : ⟨.round roundId, .update⟩ ∈ L) :
    Tracks L (fun db => (pending db).setRoundStatus roundId status) A := by
  refine ht.change (f := (·.setRoundStatus roundId status)) (fun db => ?_) ?_
  · refine roundLayout.framed_put fun id hid => ?_
    show roundTable.find (db.setRoundStatus roundId status) id = _
    rw [find_setRoundStatus]
    cases hfind : roundTable.find db id with
    | none => rfl
    | some r =>
        have hne : r.id ≠ roundId := by
          intro heq
          have hkey : id = roundId := (roundTable.find_mem hfind).2.symm.trans heq
          have := hid _ hlock (by rw [hkey]; rfl)
          cases this
        rw [Option.map_some, if_neg hne]
  · refine roundLayout.rowwise (f := fun db => updateWhere (·.id = roundId)
      ({ · with status }) db.rounds) fun id db db' heq => ?_
    show roundTable.find (db.setRoundStatus roundId status) id =
      roundTable.find (db'.setRoundStatus roundId status) id
    rw [find_setRoundStatus, find_setRoundStatus, heq]

theorem safe_setRoundStatus {L : List (Lock Row)} {A : Database → Prop} {roundId : Uuid}
    {status : RoundStatus} {r : Round} {response : Response} (ht : Tracks L id A)
    (hlock : ⟨.round roundId, .update⟩ ∈ L)
    (hr : ∀ d, A d → roundTable.find d roundId = some r)
    (hopen : r.status ≠ .closed ∧ r.status ≠ .anchored) (hstatus : status ≠ .anchored) :
    Outline ((do
      Tx.write .other (fun _ => [⟨.round roundId, .noKeyUpdate⟩]) (·.setRoundStatus roundId status)
      Tx.commit
      return response : Handler Response) fun r => .ret (.ok r)) L id A := by
  refine safe_bind (ht.safe_stmt fun db B _ _ _ h => ?_)
  refine safe_bind (safe_done (track_setRoundStatus h.track (List.mem_append_left _ hlock)) ?_ safe_ret)
  exact fun d hI hd => hI.setRoundStatus (hr d (h.before d hd)) hopen hstatus _

/-- A round locked by `roundForUpdate` is known. -/
theorem round_seen {db d : Database} {roundId : Uuid} {r : Round}
    (h : Seen part ([] ++ roundForUpdate roundId db) db d) (hr : db.round? roundId = some r) :
    roundTable.find d roundId = some r :=
  (h.find roundLayout (List.mem_append_right _ (roundForUpdate_mem hr)) rfl).trans hr

theorem safe_transitionRound (actorUserId roundId : Uuid) (reason : String) (opening : Bool) :
    SafeHandler (transitionRound actorUserId roundId reason opening) := by
  unfold SafeHandler SafeRequest Handler.request transitionRound
  refine safe_bind (safe_valid fun _ _ => ?_)
  refine safe_bind (Track.start.safe_selectFor fun db₁ A₁ row _ _ hrow h₁ => ?_)
  refine safe_bind (safe_orElse fun current hcurrent => ?_)
  have hfind : db₁.round? roundId = some current := hrow.trans hcurrent
  have hlock : (⟨.round roundId, .update⟩ : Lock Row) ∈ [] ++ roundForUpdate roundId db₁ := by
    simp [roundForUpdate, hfind]
  refine safe_bind (safe_requireEditor h₁.track ?_)
  refine safe_bind (safe_select h₁.track.stable fun _ _ _ _ _ => ?_)
  refine safe_ite (fun _ => ?_) fun _ => ?_
  · refine safe_bind (safe_require fun hstatus => ?_)
    refine safe_bind (safe_require fun _ => ?_)
    refine safe_bind (safe_require fun _ => ?_)
    refine safe_setRoundStatus h₁.track hlock (fun d hd => round_seen (h₁.seen d hd) hfind) ?_ (by decide)
    simp only [Bool.or_eq_true, decide_eq_true_eq] at hstatus
    rcases hstatus with h | h <;> simp [h]
  · refine safe_bind (safe_require fun hstatus => ?_)
    refine safe_setRoundStatus h₁.track hlock (fun d hd => round_seen (h₁.seen d hd) hfind) ?_ (by decide)
    simp only [Bool.or_eq_true, decide_eq_true_eq] at hstatus
    rcases hstatus with h | h <;> simp [h]

theorem safe_insertLeaves {own : Uuid → Prop} {L : List (Lock Row)} {pending : Database → Database}
    {A : Database → Prop} {rows : List SnapshotLeaf} {k : PUnit → Prog Database Row Site Result}
    (ht : Tracks L pending A) (hk : Keeps Inv (Moves own) pending A)
    (next : ∀ L' pending' B, Track.Hides part Inv Guaranteed (Moves own) L pending A L' pending' B →
      Outline (k ⟨⟩) L' pending' B) :
    Outline (insertLeaves rows k) L pending A := by
  induction rows generalizing L pending A with
  | nil => exact next _ _ _ (Track.hides_refl ht hk)
  | cons l rest ih =>
      refine safe_bind (ht.safe_insertHidden (T := leafTable) hk hidden_leaves fun L₁ p₁ A₁ h₁ => ?_)
      exact ih h₁.track h₁.keeps fun L' p' B h' => next L' p' B (h₁.trans h')

/-- A round that is locked and has no snapshot gets none. -/
theorem stable_noSnapshot {L : List (Lock Row)} {roundId : Uuid}
    (hlock : ⟨.round roundId, .update⟩ ∈ L) (db : Database) :
    Stable Inv (Forward part Guaranteed) L fun d =>
      db.snapshotOf? roundId = none → ∀ t ∈ d.snapshots, t.roundId ≠ roundId := by
  intro L' d d' hcompat _ _ hnone hG hempty t' ht'
  rcases hG.moved.new t' ht' with ⟨t, ht, hround⟩ | htaken
  · rw [← hround]
    exact hnone hempty t ht
  · rintro rfl
    exact hcompat.not_mem hlock rfl rfl htaken

theorem find_of_snapshotViolation {s : Snapshot} {db : Database} (h : snapshotViolation s db = none) :
    snapshotTable.find db s.id = none := by
  unfold snapshotViolation at h
  split at h
  · cases h
  · rename_i hany
    refine snapshotTable.find_none_of_any (Bool.eq_false_iff.mpr hany) fun t ht => ?_
    simp [show t.id = s.id from ht]

theorem safe_createSnapshot (actorUserId roundId snapshotId : Uuid) :
    SafeHandler (createSnapshot sha256 tallyText actorUserId roundId snapshotId) := by
  unfold SafeHandler SafeRequest Handler.request createSnapshot
  refine safe_bind (Track.start.safe_selectFor fun db₁ A₁ row _ _ hrow h₁ => ?_)
  refine safe_bind (safe_orElse fun round hround => ?_)
  have hfind : db₁.round? roundId = some round := hrow.trans hround
  have hlock : (⟨.round roundId, .update⟩ : Lock Row) ∈ [] ++ roundForUpdate roundId db₁ := by
    simp [roundForUpdate, hfind]
  have hr (d : Database) (hd : A₁ d) : roundTable.find d roundId = some round :=
    round_seen (h₁.seen d hd) hfind
  refine safe_bind (safe_requireEditor h₁.track ?_)
  refine safe_bind (safe_require fun hclosed => ?_)
  simp only [Bool.or_eq_true, decide_eq_true_eq] at hclosed
  refine safe_bind (h₁.track.safe_selectForKnowing
    (fun db d => db.snapshotOf? roundId = none → ∀ t ∈ d.snapshots, t.roundId ≠ roundId)
    (fun db _ _ _ hempty t ht => by simpa using List.find?_eq_none.mp hempty t ht)
    (stable_noSnapshot hlock) fun db₂ A₂ existing _ _ hexisting h₂ hfirst => ?_)
  cases existing with
  | some existing => exact safe_bind (safe_done h₂.track .start safe_ret)
  | none =>
    have hfirst' (d : Database) (hd : A₂ d) : ∀ t ∈ d.snapshots, t.roundId ≠ roundId :=
      hfirst d hd hexisting
    refine safe_bind (safe_select h₂.track.stable fun _ tally _ _ _ => ?_)
    refine safe_bind (h₂.track.safe_selectFor fun db₃ A₃ votes _ _ _ h₃ => ?_)
    refine safe_bind (safe_require fun _ => ?_)
    refine safe_bind (safe_require fun _ => ?_)
    refine safe_bind (safe_require fun _ => ?_)
    generalize hrow : Snapshot.mk snapshotId round.organizationId round.pageantId roundId .created
      votes.length (hashBytes sha256 (tallyText tally)) (merkleRoot sha256 _) tally actorUserId none
      none none = s
    obtain ⟨rfl, rfl, hcreated⟩ : s.id = snapshotId ∧ s.roundId = roundId ∧ s.status = .created := by
      rw [← hrow]
      exact ⟨rfl, rfl, rfl⟩
    refine safe_bind (h₃.track.safe_insertRow (T := snapshotTable) fun db₄ A₄ _ _ hviolation h₄ => ?_)
    -- the id is new, and its lock keeps it so
    have hview : snapshotTable.find db₄ s.id = none := find_of_snapshotViolation hviolation
    have hnew (d : Database) (hd : A₄ d) : snapshotTable.find d s.id = none :=
      ((h₄.seen d hd).find snapshotLayout (List.mem_append_right _ List.mem_cons_self) rfl).trans hview
    have ht₄ := h₄.track.add snapshotLayout (List.mem_append_right _ List.mem_cons_self)
    have hk₄ : Keeps Inv (Moves fun id => id = s.roundId) (snapshotTable.add s) A₄ := fun d hI hd =>
      have hd₂ := h₃.before d (h₄.before d hd)
      hI.addSnapshot (hr d (h₂.before d hd₂)) hclosed (hnew d hd) (hfirst d hd₂ hexisting) hcreated rfl
    refine safe_bind (safe_insertLeaves ht₄ hk₄ fun L₅ p₅ A₅ h₅ => ?_)
    refine safe_bind (h₅.track.safe_commitWithin h₅.keeps (fun _ _ h => h.guaranteed ?_) safe_ret)
    rintro _ rfl
    exact h₅.locks (List.mem_append_left _ (List.mem_append_left _ (List.mem_append_left _ hlock)))

theorem safe_environment (directory : Directory) (roundContestants : List RoundContestant)
    (pageantContestants : List PageantContestant) :
    SafeHandler (environment directory roundContestants pageantContestants) := by
  unfold SafeHandler SafeRequest Handler.request environment
  refine safe_bind (Track.start.safe_writeHidden (R := Moves fun _ => False) .start ?_ ?_
    fun L p B h => ?_)
  · exact fun db k => by cases k <;> rfl
  · exact fun db hI => hI.of_same (by rfl) (by rfl) (by rfl) (by rfl) _
  · exact safe_bind (safe_done h.track h.keeps safe_ret)

/-! ### The anchoring requests -/

theorem safe_setDeployments (deployments : List ContractDeployment) :
    SafeHandler (setDeployments deployments) := by
  unfold SafeHandler SafeRequest Handler.request setDeployments
  refine safe_bind (Track.start.safe_writeHidden (R := Moves fun _ => False) .start ?_ ?_
    fun L p B h => ?_)
  · exact fun db k => by cases k <;> rfl
  · exact fun db hI => hI.of_same (by rfl) (by rfl) (by rfl) (by rfl) _
  · exact safe_bind (safe_done h.track h.keeps safe_ret)

/-- A snapshot that is not anchored and has no intent is created. -/
theorem created_of_none {db : Database} {s : Snapshot} (h : Inv db)
    (hs : snapshotTable.find db s.id = some s) (hnone : db.anchorIntentOf? s.id = none)
    (hstatus : s.status = .created ∨ s.status = .anchorPending) : s.status = .created := by
  obtain ⟨r, -, hstage⟩ := h.stage s.id s hs
  cases hstage with
  | created _ hsnapshot => exact hsnapshot
  | pending i _ _ hfind hcopies =>
      have hmem := (anchorIntentTable.find_mem hfind).1
      have := List.find?_eq_none.mp hnone i hmem
      simp [hcopies.snapshot] at this
  | anchored _ _ _ hsnapshot => simp [hsnapshot] at hstatus

theorem find_of_anchorIntentViolation {i : AnchorIntent} {db : Database}
    (h : anchorIntentViolation i db = none) : anchorIntentTable.find db i.id = none := by
  unfold anchorIntentViolation at h
  split at h
  · cases h
  · split at h
    · cases h
    · rename_i hany
      refine anchorIntentTable.find_none_of_any (Bool.eq_false_iff.mpr hany) fun j hj => ?_
      simp [show j.id = i.id from hj]

theorem safe_createAnchorIntent (actorUserId snapshotId : Uuid) (idempotencyKey : String)
    (intentId : Uuid) (contractRoundKey : Int) :
    SafeHandler (createAnchorIntent actorUserId snapshotId idempotencyKey intentId contractRoundKey) := by
  unfold SafeHandler SafeRequest Handler.request createAnchorIntent
  refine safe_bind (safe_valid fun key _ => ?_)
  refine safe_bind (Track.start.safe_selectFor fun db₁ A₁ row _ _ hrow h₁ => ?_)
  refine safe_bind (safe_orElse fun s hs => ?_)
  have hfind : snapshotTable.find db₁ snapshotId = some s := hrow.trans hs
  obtain rfl : s.id = snapshotId := (snapshotTable.find_mem hfind).2
  have hlock : (⟨.snapshot s.id, .update⟩ : Lock Row) ∈
      [] ++ (snapshotTable.find db₁ s.id).toList.map fun s => ⟨.snapshot s.id, .update⟩ := by
    simp [hfind]
  have hsnapshot (d : Database) (hd : A₁ d) : snapshotTable.find d s.id = some s :=
    ((h₁.seen d hd).find snapshotLayout hlock rfl).trans hfind
  refine safe_bind (safe_requireEditor h₁.track ?_)
  refine safe_bind (safe_require fun hstatus => ?_)
  simp only [Bool.or_eq_true, decide_eq_true_eq] at hstatus
  refine safe_bind (h₁.track.safe_selectFor fun db₂ A₂ existing hI₂ hA₂ hexisting h₂ => ?_)
  cases existing with
  | some existing =>
    refine safe_bind (safe_require fun _ => ?_)
    exact safe_bind (safe_done h₂.track .start safe_ret)
  | none =>
    have hcreated : s.status = .created := created_of_none hI₂ (hsnapshot db₂ hA₂) hexisting hstatus
    refine safe_bind (h₂.track.safe_selectFor fun db₃ A₃ _ _ _ _ h₃ => ?_)
    refine safe_bind (safe_orElse fun deployment _ => ?_)
    generalize hrow : AnchorIntent.mk intentId s.organizationId s.id s.roundId deployment.id
      contractRoundKey deployment.contractId s.merkleRoot s.tallySha256 s.totalVotes key .created none
      actorUserId = i
    obtain ⟨hid, hcopies, histatus⟩ : i.id = intentId ∧ Copies i s ∧ i.status = .created := by
      rw [← hrow]
      exact ⟨rfl, ⟨rfl, rfl, rfl, rfl, rfl⟩, rfl⟩
    subst hid
    refine safe_bind (h₃.track.safe_insertRow fun db₄ A₄ _ _ hviolation h₄ => ?_)
    have hview : anchorIntentTable.find db₄ i.id = none :=
      find_of_anchorIntentViolation (Option.map_eq_none_iff.mp hviolation)
    have hnew (d : Database) (hd : A₄ d) : anchorIntentTable.find d i.id = none :=
      ((h₄.seen d hd).find intentLayout (List.mem_append_right _ List.mem_cons_self) rfl).trans hview
    have ht₄ := h₄.track.add intentLayout (List.mem_append_right _ List.mem_cons_self)
    refine safe_bind (ht₄.safe_update fun db₅ A₅ _ hA₅ _ h₅ => ?_)
    have ht₅ := h₅.track.modifyLocked snapshotLayout (f := ({ · with status := .anchorPending }))
      (fun _ => rfl) fun s => ⟨_, List.mem_singleton.mpr rfl, rfl, rfl⟩
    have hs₄ (d : Database) (hd : A₄ d) : snapshotTable.find d s.id = some s :=
      hsnapshot d (h₂.before d (h₃.before d (h₄.before d hd)))
    refine safe_bind (safe_loadIntentTx ht₅ fun L₆ A₆ record ht₆ hbefore₆ _ => ?_)
    refine safe_bind (safe_done ht₆ (fun d hI hd => ?_) safe_ret)
    have hd₄ := h₅.before d (hbefore₆ d hd)
    exact hI.request (hs₄ d hd₄) (hs₄ db₅ hA₅) hcreated (hnew d hd₄) hcopies histatus _

theorem safe_recordAnchorSubmission (intentId : Uuid) (transactionHash : String) :
    SafeHandler (recordAnchorSubmission intentId transactionHash) := by
  unfold SafeHandler SafeRequest Handler.request recordAnchorSubmission
  refine safe_bind (safe_valid fun hash _ => ?_)
  refine safe_bind (safe_loadIntentTx .start fun L₁ A₁ i ht₁ _ hi => ?_)
  refine safe_bind (safe_require fun _ => ?_)
  refine safe_ite (fun _ => ?_) fun _ => ?_
  · refine safe_bind (safe_require fun _ => ?_)
    exact safe_bind (safe_done ht₁ .start safe_ret)
  · refine safe_bind (safe_require fun hstatus => ?_)
    have hcreated : i.status = .created := of_decide_eq_true hstatus
    refine safe_bind (ht₁.safe_update fun db₂ A₂ _ hA₂ _ h₂ => ?_)
    have ht₂ := h₂.track.modifyLocked intentLayout (f := submitted hash)
      (fun _ => rfl) fun i => ⟨_, List.mem_singleton.mpr rfl, rfl, rfl⟩
    refine safe_bind (safe_loadIntentTx ht₂ fun L₃ A₃ record ht₃ hbefore₃ _ => ?_)
    refine safe_bind (safe_done ht₃ (fun d hI hd => ?_) safe_ret)
    have hi₂ := hi db₂ hA₂
    obtain rfl : i.id = intentId := (anchorIntentTable.find_mem hi₂).2
    exact hI.submit (hi d (h₂.before d (hbefore₃ d hd))) hi₂ hcreated _

/-- The evidence for an intent that it matches. -/
theorem attests_row {i : AnchorIntent} {body : AnchorEvidenceRequest} (h : i.matches body = true)
    (evidenceId : Uuid) : Attests (body.row i evidenceId) i := by
  simp only [AnchorIntent.matches, Bool.and_eq_true, decide_eq_true_eq] at h
  obtain ⟨⟨⟨⟨-, -⟩, hroot⟩, htally⟩, hvotes⟩ := h
  exact ⟨rfl, rfl, rfl, rfl, hroot.symm, htally.symm, hvotes.symm⟩

theorem safe_acceptAnchorEvidence (intentId : Uuid) (body : AnchorEvidenceRequest)
    (evidenceId : Uuid) : SafeHandler (acceptAnchorEvidence intentId body evidenceId) := by
  unfold SafeHandler SafeRequest Handler.request acceptAnchorEvidence
  refine safe_bind (safe_valid fun body _ => ?_)
  refine safe_bind (safe_loadIntentTx .start fun L₁ A₁ i ht₁ _ hi => ?_)
  refine safe_bind (safe_loadEvidenceTx ht₁ fun L₂ A₂ existing ht₂ hbefore₂ => ?_)
  cases existing with
  | some existing =>
    refine safe_bind (safe_require fun _ => ?_)
    exact safe_bind (safe_done ht₂ .start safe_ret)
  | none =>
    refine safe_bind (safe_require fun hstatus => ?_)
    have hsubmitted : i.status = .submitted := (Bool.and_eq_true_iff.mp hstatus).1 |> of_decide_eq_true
    refine safe_bind (safe_require fun hmatches => ?_)
    refine safe_bind (ht₂.safe_insertRow fun db₃ A₃ hI₃ hA₂ _ h₃ => ?_)
    obtain rfl : i.id = intentId := (anchorIntentTable.find_mem (hi db₃ (hbefore₂ db₃ hA₂))).2
    have hi₃ (d : Database) (hd : A₃ d) : anchorIntentTable.find d i.id = some i :=
      hi d (hbefore₂ d (h₃.before d hd))
    have ht₃ := h₃.track.hide (f := anchorEvidenceTable.add (body.row i evidenceId))
      fun db k => by cases k <;> rfl
    refine safe_bind (ht₃.safe_update fun db₄ A₄ _ hA₃ _ h₄ => ?_)
    have ht₄ := h₄.track.modifyLocked intentLayout (f := confirmed)
      (fun _ => rfl) fun i => ⟨_, List.mem_singleton.mpr rfl, rfl, rfl⟩
    -- the update locks the snapshot that it matches, and the next one the round
    refine safe_bind (ht₄.safe_update fun db₅ A₅ hI₅ hA₄ _ h₅ => ?_)
    obtain ⟨s, r, hs, -, -, hsnapshot, hcopies, -⟩ :=
      hI₅.pending (hi₃ db₅ (h₄.before db₅ hA₄)) (.inr hsubmitted)
    have hsid : s.id = i.snapshotId := (snapshotTable.find_mem hs).2
    have hs₅ (d : Database) (hd : A₅ d) : snapshotTable.find d i.snapshotId = some s := by
      refine ((h₅.seen d hd).find snapshotLayout (m := .noKeyUpdate) (List.mem_append_right _ ?_)
        rfl).trans hs
      refine List.mem_flatMap.mpr ⟨s, snapshotTable.mem_matching.mpr
        ⟨(snapshotTable.find_mem hs).1, by simp [hsid, hsnapshot]⟩, ?_⟩
      exact hsid ▸ List.mem_singleton.mpr rfl
    have ht₅ := h₅.track.modifyLocked snapshotLayout (f := Snapshot.anchor body evidenceId)
      (fun _ => rfl) fun s => ⟨_, List.mem_singleton.mpr rfl, rfl, rfl⟩
    refine safe_bind (ht₅.safe_update fun db₆ A₆ hI₆ hA₅ _ h₆ => ?_)
    obtain ⟨-, r, -, hr, hround, -⟩ :=
      hI₆.pending (hi₃ db₆ (h₄.before db₆ (h₅.before db₆ hA₅))) (.inr hsubmitted)
    have hrid : r.id = i.roundId := (roundTable.find_mem hr).2
    have hr₆ (d : Database) (hd : A₆ d) : roundTable.find d i.roundId = some r := by
      refine ((h₆.seen d hd).find roundLayout (m := .noKeyUpdate) (List.mem_append_right _ ?_)
        rfl).trans hr
      refine List.mem_flatMap.mpr ⟨r, roundTable.mem_matching.mpr
        ⟨(roundTable.find_mem hr).1, by simp [hrid, hround]⟩, ?_⟩
      exact hrid ▸ List.mem_singleton.mpr rfl
    have ht₆ := h₆.track.modifyLocked roundLayout (f := ({ · with status := .anchored }))
      (fun _ => rfl) fun r => ⟨_, List.mem_singleton.mpr rfl, rfl, rfl⟩
    refine safe_bind (safe_loadEvidenceTx ht₆ fun L₇ A₇ evidence ht₇ hbefore₇ => ?_)
    refine safe_bind (safe_orElse fun evidence _ => ?_)
    refine safe_bind (safe_done ht₇ (fun d hI hd => ?_) safe_ret)
    have hd₅ := h₆.before d (hbefore₇ d hd)
    exact hI.accept (hi₃ d (h₄.before d (h₅.before d hd₅))) hsubmitted (hs₅ d hd₅)
      (hr₆ d (hbefore₇ d hd)) (hi₃ db₄ hA₃) hs hr (attests_row hmatches evidenceId) _

/-- **Every request keeps the stages.** -/
theorem safe_request {p : Prog Database Row Site Result} (h : AnchorRequest sha256 tallyText p) :
    SafeRequest Inv (Forward part Guaranteed) (fun _ _ => True) p := by
  cases h with
  | voting h =>
      cases h with
      | castVote => exact safe_castVote _ _ _ _
      | transitionRound => exact safe_transitionRound _ _ _ _
      | createSnapshot => exact safe_createSnapshot _ _ _
      | environment => exact safe_environment _ _ _
  | createAnchorIntent => exact safe_createAnchorIntent _ _ _ _ _
  | recordAnchorSubmission => exact safe_recordAnchorSubmission _ _
  | acceptAnchorEvidence => exact safe_acceptAnchorEvidence _ _ _
  | setDeployments => exact safe_setDeployments _

/-! ### What the stages say -/

/-- No snapshot is made yet, and nothing is anchored. -/
structure Unanchored (db : Database) : Prop extends Initial db where
  intents : db.anchorIntents = []
  evidence : db.anchorEvidence = []
  rounds : ∀ r ∈ db.rounds, r.status ≠ .anchored

theorem Unanchored.inv {db : Database} (h : Unanchored db) : Inv db where
  roundIds := h.roundIds
  snapshotIds := by simp [h.snapshots]
  intentIds := by simp [h.intents]
  snapshotOnce id s id' s' hs := by
    have := (snapshotTable.find_mem hs).1
    simp [snapshotTable, h.snapshots] at this
  intentOnce id i id' i' hi := by
    have := (anchorIntentTable.find_mem hi).1
    simp [anchorIntentTable, h.intents] at this
  evidenceOnce := by simp [h.evidence]
  stage id s hs := by
    have := (snapshotTable.find_mem hs).1
    simp [snapshotTable, h.snapshots] at this
  anchored id r hr hanchored := absurd hanchored (h.rounds r (roundTable.find_mem hr).1)
  owned id i hi := by
    have := (anchorIntentTable.find_mem hi).1
    simp [anchorIntentTable, h.intents] at this
  attested := by simp [h.evidence]

/-- The evidence is accepted for the snapshot, and says of the intent's publication what the
snapshot commits to. -/
structure AcceptedFor (e : AnchorEvidence) (i : AnchorIntent) (s : Snapshot) : Prop where
  accepted : s.acceptedEvidenceId = some e.id
  intent : e.anchorIntentId = i.id ∧ i.snapshotId = s.id
  root : e.merkleRoot = s.merkleRoot
  tally : e.tallySha256 = s.tallySha256
  votes : e.totalVotes = s.totalVotes
  contract : e.contractId = i.contractId ∧ e.contractRoundKey = i.contractRoundKey

/-- **Intents, snapshots and rounds agree about what is anchored.** -/
structure Consistent (db : Database) : Prop where
  confirmed : ∀ s ∈ db.snapshots,
    (∃ i ∈ db.anchorIntents, i.snapshotId = s.id ∧ i.status = .confirmed) ↔ s.status = .anchored
  rounds : ∀ s ∈ db.snapshots,
    s.status = .anchored ↔ ∃ r ∈ db.rounds, r.id = s.roundId ∧ r.status = .anchored
  anchored : ∀ r ∈ db.rounds, r.status = .anchored → ∃ s ∈ db.snapshots, s.roundId = r.id
  accepted : ∀ s ∈ db.snapshots, s.status = .anchored →
    ∃ e ∈ db.anchorEvidence, ∃ i ∈ db.anchorIntents, AcceptedFor e i s
  evidence : ∀ e ∈ db.anchorEvidence,
    ∃ s ∈ db.snapshots, ∃ i ∈ db.anchorIntents, AcceptedFor e i s
  once : ∀ i ∈ db.anchorIntents, ∀ j ∈ db.anchorIntents, i.snapshotId = j.snapshotId → i = j

theorem acceptedFor {e : AnchorEvidence} {i : AnchorIntent} {s : Snapshot} (hattests : Attests e i)
    (hcopies : Copies i s) (haccepted : s.acceptedEvidenceId = some e.id) : AcceptedFor e i s where
  accepted := haccepted
  intent := ⟨hattests.intent, hcopies.snapshot⟩
  root := hattests.root.trans hcopies.root
  tally := hattests.tally.trans hcopies.tally
  votes := hattests.votes.trans hcopies.votes
  contract := ⟨hattests.contract, hattests.roundKey⟩

theorem Inv.once {db : Database} (h : Inv db) {i j : AnchorIntent} (hi : i ∈ db.anchorIntents)
    (hj : j ∈ db.anchorIntents) (hsame : i.snapshotId = j.snapshotId) : i = j := by
  have hi' := anchorIntentTable.find_of_mem h.intentIds hi
  have hj' := anchorIntentTable.find_of_mem h.intentIds hj
  have hid : i.id = j.id := h.intentOnce _ _ _ _ hi' hj' hsame
  exact List.inj_on_of_nodup_map h.intentIds hi hj hid

theorem Inv.consistent {db : Database} (h : Inv db) : Consistent db where
  confirmed s hs := by
    obtain ⟨r, -, hstage⟩ := h.stage _ s (snapshotTable.find_of_mem h.snapshotIds hs)
    constructor
    · rintro ⟨i, hi, hof, hstatus⟩
      cases hstage with
      | created _ _ hnone =>
          exact absurd hof (hnone _ i (anchorIntentTable.find_of_mem h.intentIds hi))
      | pending j _ _ hfind hcopies hpending =>
          obtain rfl := h.once hi (anchorIntentTable.find_mem hfind).1 (hof.trans hcopies.snapshot.symm)
          rw [hstatus] at hpending
          rcases hpending with h | h <;> cases h
      | anchored _ _ _ hsnapshot => exact hsnapshot
    · intro hanchored
      cases hstage with
      | created _ hsnapshot => simp [hsnapshot] at hanchored
      | pending _ _ hsnapshot => simp [hsnapshot] at hanchored
      | anchored i _ _ _ hfind hcopies hstatus =>
          exact ⟨i, (anchorIntentTable.find_mem hfind).1, hcopies.snapshot, hstatus⟩
  rounds s hs := by
    obtain ⟨r, hr, hstage⟩ := h.stage _ s (snapshotTable.find_of_mem h.snapshotIds hs)
    obtain ⟨hmem, hrid⟩ := roundTable.find_mem hr
    rw [hstage.anchored_iff]
    constructor
    · exact fun hanchored => ⟨r, hmem, hrid, hanchored⟩
    · rintro ⟨r', hr', hid, hanchored⟩
      have heq : r' = r := List.inj_on_of_nodup_map h.roundIds hr' hmem (hid.trans hrid.symm)
      exact heq ▸ hanchored
  anchored r hr hanchored := by
    obtain ⟨sid, s, hs, hround⟩ := h.anchored _ r (roundTable.find_of_mem h.roundIds hr) hanchored
    exact ⟨s, (snapshotTable.find_mem hs).1, hround⟩
  accepted s hs hanchored := by
    obtain ⟨r, -, hstage⟩ := h.stage _ s (snapshotTable.find_of_mem h.snapshotIds hs)
    cases hstage with
    | created _ hsnapshot => simp [hsnapshot] at hanchored
    | pending _ _ hsnapshot => simp [hsnapshot] at hanchored
    | anchored i e _ _ hfind hcopies _ hmem hattests haccepted =>
        exact ⟨e, hmem, i, (anchorIntentTable.find_mem hfind).1,
          acceptedFor hattests hcopies haccepted⟩
  evidence e he := by
    obtain ⟨i, hi⟩ := h.attested e he
    obtain ⟨himem, hid⟩ := anchorIntentTable.find_mem hi
    obtain ⟨s, hs⟩ := h.owned _ i hi
    obtain ⟨hsmem, hsid⟩ := snapshotTable.find_mem hs
    obtain ⟨r, -, hstage⟩ := h.stage _ s hs
    cases hstage with
    | created _ _ hnone => exact absurd hsid.symm (hnone _ i hi)
    | pending j _ _ hfind hcopies _ hnone =>
        obtain rfl := h.once himem (anchorIntentTable.find_mem hfind).1
          (hsid.symm.trans hcopies.snapshot.symm)
        exact absurd hid.symm (hnone e he)
    | anchored j f _ _ hfind hcopies _ hmem hattests haccepted =>
        obtain rfl := h.once himem (anchorIntentTable.find_mem hfind).1
          (hsid.symm.trans hcopies.snapshot.symm)
        -- an intent has one evidence row
        have hsame : e = f := List.inj_on_of_nodup_map h.evidenceOnce he hmem
          (hid.symm.trans hattests.intent.symm)
        exact ⟨s, hsmem, i, himem, hsame ▸ acceptedFor hattests hcopies haccepted⟩
  once i hi j hj := h.once hi hj

/-- **Anchors are consistent** in every reachable state; what a snapshot commits to never
changes, and only one intent for it is ever confirmed. -/
theorem anchors_consistent {db₀ : Database} (h₀ : Unanchored db₀)
    {pool pool' : Pool Database Row Site Result}
    {actions actions' : List (Action Database Row Site Result)}
    (hrun : Run (Pool.Step (AnchorRequest sha256 tallyText) fun _ _ => True) (Pool.idle db₀)
      actions pool)
    (hrun' : Run (Pool.Step (AnchorRequest sha256 tallyText) fun _ _ => True) pool actions' pool') :
    Consistent pool.db ∧
    (∀ s ∈ pool.db.snapshots, ∃ s' ∈ pool'.db.snapshots,
      s'.id = s.id ∧ commitments s' = commitments s) ∧
    ∀ i ∈ pool.db.anchorIntents, ∀ j ∈ pool'.db.anchorIntents, i.snapshotId = j.snapshotId →
      i.status = .confirmed → j = i := by
  have hpool := run_healthy (fun _ => safe_request) hrun (healthy_idle h₀.inv)
  have hpool' := run_healthy (fun _ => safe_request) hrun' hpool
  have hkept : Kept pool.db pool'.db := run_moved (fun _ => safe_request) (refl_of Kept)
    (fun _ _ _ => trans_of Kept) (fun _ _ _ _ _ hG => hG.moved.kept) hrun' hpool
  refine ⟨hpool.inv.consistent, fun s hs => ?_, fun i hi j hj hsame hconfirmed => ?_⟩
  · obtain ⟨s', hs', hcommits⟩ :=
      hkept.snapshots _ s (snapshotTable.find_of_mem hpool.inv.snapshotIds hs)
    obtain ⟨hmem, hid⟩ := snapshotTable.find_mem hs'
    exact ⟨s', hmem, hid, hcommits⟩
  · obtain ⟨i', hi', hsameIntent⟩ :=
      hkept.intents _ i (anchorIntentTable.find_of_mem hpool.inv.intentIds hi)
    obtain rfl := hsameIntent.confirmed hconfirmed
    exact hpool'.inv.once hj (anchorIntentTable.find_mem hi').1 hsame.symm

/-! ### A run -/

def contractText : String := String.ofList ('C' :: List.replicate 55 'A')

def zeroHash : String := String.ofList (List.replicate 64 '0')

/-- The election, with the contract that publishes its root. -/
def anchorDatabase : Database :=
  { electionDatabase with
    deployments := [⟨60, .testnet, "audit-anchor", contractText, .verified, 0⟩] }

theorem anchorDatabase_unanchored : Unanchored anchorDatabase where
  roundIds := electionDatabase_initial.roundIds
  voteReceipts := electionDatabase_initial.voteReceipts
  snapshots := rfl
  leaves := rfl
  intents := rfl
  evidence := rfl
  rounds := by decide

def published : AnchorEvidenceRequest where
  transactionHash := zeroHash
  ledgerSequence := 7
  eventReference := "event-1"
  contractId := contractText
  contractRoundKey := 1
  merkleRoot := "947f8301ec9251b21951703676165bf3f88f55a9a686e93ef4d15f649805ec5f"
  tallySha256 := "57c3ab1052eb5c4011fc363859abd087ed0fa2cf04b04023908943bd96760430"
  totalVotes := 1
  rawEvent := .object []

/-- A delivery of the evidence, with the id that it draws. -/
def delivery (evidenceId : Uuid) : Prog Database Row Site Result :=
  (acceptAnchorEvidence 61 published evidenceId).request

/-- The election, its snapshot, and the anchoring of it. -/
def anchoring : List (Action Database Row Site Result) :=
  orderly ++
    .spawn (createAnchorIntent 30 50 "a" 61 1).request :: List.replicate 9 (.step 0) ++
    .spawn (recordAnchorSubmission 61 zeroHash).request :: List.replicate 5 (.step 0) ++
    .spawn (delivery 62) :: List.replicate 9 (.step 0)

/-- The evidence comes again. -/
def redelivery : List (Action Database Row Site Result) :=
  .spawn (delivery 63) :: List.replicate 4 (.step 0)

theorem mem_anchoring {p : Prog Database Row Site Result}
    (h : .spawn p ∈ anchoring ∨ .spawn p ∈ redelivery) :
    AnchorRequest electionSha256 electionTallyText p := by
  have hcases : .spawn p ∈ orderly ∨ p = (createAnchorIntent 30 50 "a" 61 1).request ∨
      p = (recordAnchorSubmission 61 zeroHash).request ∨ p = delivery 62 ∨ p = delivery 63 := by
    simp only [anchoring, redelivery, List.mem_append, List.mem_cons, List.mem_replicate,
      Action.spawn.injEq, reduceCtorEq, and_false, or_false] at h
    tauto
  rcases hcases with h | rfl | rfl | rfl | rfl
  · exact .voting (mem_orderly h)
  · exact .createAnchorIntent _ _ _ _ _
  · exact .recordAnchorSubmission _ _
  · exact .acceptAnchorEvidence _ _ _
  · exact .acceptAnchorEvidence _ _ _

theorem anchoring_outcome :
    ((Pool.idle anchorDatabase).replay (fun _ _ => True) anchoring).any (fun pool =>
      pool.db.rounds.map (·.status) = [.anchored] ∧
      (pool.replay (fun _ _ => True) redelivery).isSome) = true := by
  decide +kernel

theorem anchoring_consistent :
    ∃ pool pool', (Pool.idle anchorDatabase).replay (fun _ _ => True) anchoring = some pool ∧
      pool.replay (fun _ _ => True) redelivery = some pool' ∧
      pool.db.rounds.map (·.status) = [.anchored] ∧ Consistent pool.db ∧
      ∀ s ∈ pool.db.snapshots, ∃ s' ∈ pool'.db.snapshots,
        s'.id = s.id ∧ commitments s' = commitments s := by
  obtain ⟨pool, hreplay, hfacts⟩ := (Option.any_eq_true _ _).mp anchoring_outcome
  obtain ⟨hanchored, hagain⟩ := decide_eq_true_iff.mp hfacts
  obtain ⟨pool', hreplay'⟩ := Option.isSome_iff_exists.mp hagain
  have hrun := Pool.run_of_replay (fun _ h => mem_anchoring (.inl h)) hreplay
  have hrun' := Pool.run_of_replay (fun _ h => mem_anchoring (.inr h)) hreplay'
  obtain ⟨hconsistent, hcommitments, -⟩ :=
    anchors_consistent anchorDatabase_unanchored hrun hrun'
  exact ⟨pool, pool', hreplay, hreplay', hanchored, hconsistent, hcommitments⟩

end CrownFi.Voting.Anchoring
