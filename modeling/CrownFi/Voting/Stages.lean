import CrownFi.Lib.Tracking
import CrownFi.Voting.Anchors

/-!
# CrownFi.Voting.Stages

**The stages of an anchoring.** A snapshot, its round, its intent and its evidence go
together through three stages (`Stage`): the snapshot is created and nobody asked to anchor
it; an intent with its commitments is pending; the intent is confirmed by evidence, and
snapshot and round are anchored. The invariant (`Inv`) says that every snapshot is in one of
them; each commit of the protocol takes one snapshot from its stage to the next and leaves
what belongs to the others untouched (`Stage.frame`, `Inv.advance`).
-/

namespace CrownFi.Voting.Anchoring

open Lib CrownFi.Api

/-! ### Stages -/

/-- The intent asks to publish what the snapshot commits to. -/
structure Copies (i : AnchorIntent) (s : Snapshot) : Prop where
  snapshot : i.snapshotId = s.id
  round : i.roundId = s.roundId
  root : i.merkleRoot = s.merkleRoot
  tally : i.tallySha256 = s.tallySha256
  votes : i.totalVotes = s.totalVotes

/-- The evidence is about the publication that the intent asks for. -/
structure Attests (e : AnchorEvidence) (i : AnchorIntent) : Prop where
  intent : e.anchorIntentId = i.id
  snapshot : e.snapshotId = i.snapshotId
  contract : e.contractId = i.contractId
  roundKey : e.contractRoundKey = i.contractRoundKey
  root : e.merkleRoot = i.merkleRoot
  tally : e.tallySha256 = i.tallySha256
  votes : e.totalVotes = i.totalVotes

/-- Where the anchoring of a snapshot stands. -/
inductive Stage (db : Database) (s : Snapshot) (round : RoundStatus) : Prop
  | created (hround : round = .closed) (hsnapshot : s.status = .created)
      (hnone : ∀ id i, anchorIntentTable.find db id = some i → i.snapshotId ≠ s.id)
  | pending (i : AnchorIntent) (hround : round = .closed) (hsnapshot : s.status = .anchorPending)
      (hfind : anchorIntentTable.find db i.id = some i) (hcopies : Copies i s)
      (hintent : i.status = .created ∨ i.status = .submitted)
      (hnone : ∀ e ∈ db.anchorEvidence, e.anchorIntentId ≠ i.id)
  | anchored (i : AnchorIntent) (e : AnchorEvidence) (hround : round = .anchored)
      (hsnapshot : s.status = .anchored) (hfind : anchorIntentTable.find db i.id = some i)
      (hcopies : Copies i s) (hintent : i.status = .confirmed) (hmem : e ∈ db.anchorEvidence)
      (hattests : Attests e i) (haccepted : s.acceptedEvidenceId = some e.id)

/-- A change that does not touch the intents and the evidence of a snapshot. -/
structure Untouched (db db' : Database) (snapshotId : Uuid) : Prop where
  intents : ∀ id i, anchorIntentTable.find db id = some i → i.snapshotId = snapshotId →
    anchorIntentTable.find db' id = some i
  noIntents : ∀ id i', anchorIntentTable.find db' id = some i' → i'.snapshotId = snapshotId →
    ∃ i, anchorIntentTable.find db id = some i ∧ i.snapshotId = snapshotId
  evidence : ∀ e ∈ db.anchorEvidence, e ∈ db'.anchorEvidence
  noEvidence : ∀ e ∈ db'.anchorEvidence, e ∈ db.anchorEvidence ∨
    ∀ i, anchorIntentTable.find db e.anchorIntentId = some i → i.snapshotId ≠ snapshotId

/-- The stage of a snapshot whose rows are not touched. -/
theorem Stage.frame {db db' : Database} {s : Snapshot} {round : RoundStatus} (h : Stage db s round)
    (hsame : Untouched db db' s.id) : Stage db' s round := by
  cases h with
  | created hround hsnapshot hnone =>
      refine .created hround hsnapshot fun id i' hi' hof => ?_
      obtain ⟨i, hi, hold⟩ := hsame.noIntents id i' hi' hof
      exact hnone id i hi hold
  | pending i hround hsnapshot hfind hcopies hintent hnone =>
      have hfind' := hsame.intents i.id i hfind hcopies.snapshot
      refine .pending i hround hsnapshot hfind' hcopies hintent fun e he hof => ?_
      rcases hsame.noEvidence e he with hold | hother
      · exact hnone e hold hof
      · exact hother i (hof ▸ hfind) hcopies.snapshot
  | anchored i e hround hsnapshot hfind hcopies hintent hmem hattests haccepted =>
      have hfind' := hsame.intents i.id i hfind hcopies.snapshot
      exact .anchored i e hround hsnapshot hfind' hcopies hintent (hsame.evidence e hmem) hattests
        haccepted

namespace Stage

variable {db : Database} {s : Snapshot} {round : RoundStatus}

/-- The round of a snapshot is closed or anchored. -/
theorem round_left (h : Stage db s round) : round = .closed ∨ round = .anchored := by
  cases h with
  | created hround => exact .inl hround
  | pending _ hround => exact .inl hround
  | anchored _ _ hround => exact .inr hround

theorem anchored_iff (h : Stage db s round) : s.status = .anchored ↔ round = .anchored := by
  cases h with
  | created hround hsnapshot => simp [hround, hsnapshot]
  | pending _ hround hsnapshot => simp [hround, hsnapshot]
  | anchored _ _ hround hsnapshot => simp [hround, hsnapshot]

end Stage

/-! ### The invariant -/

structure Inv (db : Database) : Prop where
  roundIds : (db.rounds.map (·.id)).Nodup
  snapshotIds : (db.snapshots.map (·.id)).Nodup
  intentIds : (db.anchorIntents.map (·.id)).Nodup
  snapshotOnce : ∀ id s id' s', snapshotTable.find db id = some s →
    snapshotTable.find db id' = some s' → s.roundId = s'.roundId → id = id'
  intentOnce : ∀ id i id' i', anchorIntentTable.find db id = some i →
    anchorIntentTable.find db id' = some i' → i.snapshotId = i'.snapshotId → id = id'
  evidenceOnce : (db.anchorEvidence.map (·.anchorIntentId)).Nodup
  stage : ∀ id s, snapshotTable.find db id = some s →
    ∃ r, roundTable.find db s.roundId = some r ∧ Stage db s r.status
  anchored : ∀ id r, roundTable.find db id = some r → r.status = .anchored →
    ∃ sid s, snapshotTable.find db sid = some s ∧ s.roundId = id
  owned : ∀ id i, anchorIntentTable.find db id = some i →
    ∃ s, snapshotTable.find db i.snapshotId = some s
  attested : ∀ e ∈ db.anchorEvidence, ∃ i, anchorIntentTable.find db e.anchorIntentId = some i

/-- What a snapshot commits to. -/
structure Commitments where
  organizationId : Uuid
  pageantId : Uuid
  roundId : Uuid
  totalVotes : Nat
  tallySha256 : String
  merkleRoot : String
  tally : List TallyEntry
  deriving DecidableEq, Repr

def commitments (s : Snapshot) : Commitments :=
  ⟨s.organizationId, s.pageantId, s.roundId, s.totalVotes, s.tallySha256, s.merkleRoot, s.tally⟩

/-- A snapshot keeps its commitments. -/
def SameCommitments (s s' : Snapshot) : Prop := commitments s' = commitments s

instance : IsPreorder Snapshot SameCommitments where
  refl _ := rfl
  trans _ _ _ h h' := Eq.trans h' h

/-- An intent stays with its snapshot, and stays confirmed. -/
structure SameIntent (i i' : AnchorIntent) : Prop where
  snapshot : i'.snapshotId = i.snapshotId
  confirmed : i.status = .confirmed → i' = i

instance : IsPreorder AnchorIntent SameIntent where
  refl _ := ⟨rfl, fun _ => rfl⟩
  trans a b c h h' := by
    refine ⟨h'.snapshot.trans h.snapshot, fun hstatus => ?_⟩
    obtain rfl := h.confirmed hstatus
    exact h'.confirmed hstatus

/-- **What every commit keeps.** -/
structure Kept (db db' : Database) : Prop where
  snapshots : snapshotTable.Grows SameCommitments db db'
  intents : anchorIntentTable.Grows SameIntent db db'
  evidence : ∀ e ∈ db.anchorEvidence, e ∈ db'.anchorEvidence

instance : IsPreorder Database Kept where
  refl _ := ⟨.refl, .refl, fun _ he => he⟩
  trans _ _ _ h h' := ⟨h.snapshots.trans h'.snapshots, h.intents.trans h'.intents,
    fun e he => h'.evidence e (h.evidence e he)⟩

/-- What a commit does, when it makes snapshots of the rounds `own` only. -/
structure Moves (own : Uuid → Prop) (db db' : Database) : Prop where
  kept : Kept db db'
  new : ∀ s' ∈ db'.snapshots, (∃ s ∈ db.snapshots, s.roundId = s'.roundId) ∨ own s'.roundId

instance (own : Uuid → Prop) : IsPreorder Database (Moves own) where
  refl db := ⟨refl_of Kept db, fun s hs => .inl ⟨s, hs, rfl⟩⟩
  trans a b c h h' := by
    refine ⟨trans_of Kept h.kept h'.kept, fun s'' hs'' => ?_⟩
    rcases h'.new s'' hs'' with ⟨s', hs', hround⟩ | hown
    · rw [← hround]
      exact h.new s' hs'
    · exact .inr hown

/-- The guarantee, beyond the rows: a new snapshot takes the lock of its round. -/
def Guaranteed (L : List (Lock Row)) : Database → Database → Prop :=
  Moves fun roundId => ⟨.round roundId, .update⟩ ∈ L

theorem Moves.guaranteed {own : Uuid → Prop} {L : List (Lock Row)} {db db' : Database}
    (h : Moves own db db') (hown : ∀ roundId, own roundId → (⟨.round roundId, .update⟩ : Lock Row) ∈ L) :
    Guaranteed L db db' :=
  ⟨h.kept, fun s hs => (h.new s hs).imp_right (hown _)⟩

/-! ### What locks protect -/

inductive Part
  | round (r : Option Round)
  | snapshot (s : Option Snapshot)
  | intent (i : Option AnchorIntent)
  | other

def part (db : Database) : Row → Part
  | .round id => .round (roundTable.find db id)
  | .snapshot id => .snapshot (snapshotTable.find db id)
  | .anchorIntent id => .intent (anchorIntentTable.find db id)
  | _ => .other

theorem roundLayout : Layout part roundTable Part.round where
  row _ _ := rfl
  injective _ _ h := Part.round.inj h
  other db l k hk := by
    cases k with
    | round id => exact absurd rfl (hk id)
    | _ => rfl

theorem snapshotLayout : Layout part snapshotTable Part.snapshot where
  row _ _ := rfl
  injective _ _ h := Part.snapshot.inj h
  other db l k hk := by
    cases k with
    | snapshot id => exact absurd rfl (hk id)
    | _ => rfl

theorem intentLayout : Layout part anchorIntentTable Part.intent where
  row _ _ := rfl
  injective _ _ h := Part.intent.inj h
  other db l k hk := by
    cases k with
    | anchorIntent id => exact absurd rfl (hk id)
    | _ => rfl

/-! ### Changes of other tables -/

theorem Untouched.of_same {db db' : Database} (hi : db'.anchorIntents = db.anchorIntents)
    (he : db'.anchorEvidence = db.anchorEvidence) (id : Uuid) : Untouched db db' id := by
  have hfind (id : Uuid) : anchorIntentTable.find db' id = anchorIntentTable.find db id := by
    show db'.anchorIntents.find? _ = db.anchorIntents.find? _
    rw [hi]
  refine ⟨fun id i hfound _ => ?_, fun id i hfound hof => ⟨i, ?_, hof⟩, fun e h => ?_, fun e h => .inl ?_⟩
  · rw [hfind, hfound]
  · rw [← hfind, hfound]
  · rw [he]
    exact h
  · rw [← he]
    exact h

/-- A change that leaves rounds, snapshots, intents and evidence as they are. -/
theorem Inv.of_same {db db' : Database} (h : Inv db) (hr : db'.rounds = db.rounds)
    (hs : db'.snapshots = db.snapshots) (hi : db'.anchorIntents = db.anchorIntents)
    (he : db'.anchorEvidence = db.anchorEvidence) (own : Uuid → Prop) : Inv db' ∧ Moves own db db' := by
  have hsame := Untouched.of_same hi he
  obtain ⟨directory, rounds, roundContestants, pageantContestants, votes, snapshots, leaves,
    deployments, anchorIntents, anchorEvidence⟩ := db
  obtain ⟨directory', rounds', roundContestants', pageantContestants', votes', snapshots', leaves',
    deployments', anchorIntents', anchorEvidence'⟩ := db'
  dsimp only at hr hs hi he
  subst hr hs hi he
  refine ⟨⟨h.roundIds, h.snapshotIds, h.intentIds, h.snapshotOnce, h.intentOnce, h.evidenceOnce,
    fun id s hfind => ?_, h.anchored, h.owned, h.attested⟩,
    ⟨⟨.of_find fun _ => rfl, .of_find fun _ => rfl, fun _ he => he⟩, fun s hs => .inl ⟨s, hs, rfl⟩⟩⟩
  obtain ⟨r, hr, hstage⟩ := h.stage id s hfind
  exact ⟨r, hr, hstage.frame (hsame s.id)⟩

/-! ### One step of one snapshot -/

/-- A commit that takes the snapshot `s` to `s'`, with its intent now `i`. -/
structure Advance (db db' : Database) (s s' : Snapshot) (i : AnchorIntent) : Prop where
  roundIds : (db'.rounds.map (·.id)).Nodup
  snapshotIds : (db'.snapshots.map (·.id)).Nodup
  intentIds : (db'.anchorIntents.map (·.id)).Nodup
  evidenceOnce : (db'.anchorEvidence.map (·.anchorIntentId)).Nodup
  before : snapshotTable.find db s.id = some s
  snapshot : snapshotTable.find db' s.id = some s'
  commits : SameCommitments s s'
  snapshots : ∀ id, id ≠ s.id → snapshotTable.find db' id = snapshotTable.find db id
  rounds : ∀ id, id ≠ s.roundId → roundTable.find db' id = roundTable.find db id
  intent : anchorIntentTable.find db' i.id = some i
  mine : i.snapshotId = s.id
  same : ∀ i₀, anchorIntentTable.find db i.id = some i₀ → SameIntent i₀ i
  only : ∀ id i₀, anchorIntentTable.find db id = some i₀ → i₀.snapshotId = s.id → id = i.id
  intents : ∀ id, id ≠ i.id → anchorIntentTable.find db' id = anchorIntentTable.find db id
  evidence : ∀ e ∈ db.anchorEvidence, e ∈ db'.anchorEvidence
  newEvidence : ∀ e ∈ db'.anchorEvidence, e ∈ db.anchorEvidence ∨ e.anchorIntentId = i.id
  stage : ∃ r, roundTable.find db' s.roundId = some r ∧ Stage db' s' r.status

namespace Advance

variable {db db' : Database} {s s' : Snapshot} {i : AnchorIntent}

theorem roundId (h : Advance db db' s s' i) : s'.roundId = s.roundId :=
  congrArg Commitments.roundId h.commits

/-- What belongs to the other snapshots is not touched. -/
theorem untouched (h : Advance db db' s s' i) {id : Uuid} (hid : id ≠ s.id) :
    Untouched db db' id where
  intents iid i₀ hi₀ hof := by
    rw [h.intents iid, hi₀]
    rintro rfl
    exact hid (hof.symm.trans ((h.same i₀ hi₀).snapshot.symm.trans h.mine))
  noIntents iid i' hi' hof := by
    refine ⟨i', ?_, hof⟩
    rw [← h.intents iid, hi']
    rintro rfl
    obtain rfl := Option.some.inj (hi'.symm.trans h.intent)
    exact hid (hof.symm.trans h.mine)
  evidence := h.evidence
  noEvidence e he := by
    refine (h.newEvidence e he).imp_right fun hnew i₀ hi₀ hof => ?_
    rw [hnew] at hi₀
    exact hid (hof.symm.trans ((h.same i₀ hi₀).snapshot.symm.trans h.mine))

/-- A snapshot after the step, as it was before. -/
theorem find_before (h : Advance db db' s s' i) {id : Uuid} {t' : Snapshot}
    (ht' : snapshotTable.find db' id = some t') :
    (id = s.id ∧ t' = s') ∨ (id ≠ s.id ∧ snapshotTable.find db id = some t') := by
  by_cases hid : id = s.id
  · rw [hid, h.snapshot] at ht'
    exact .inl ⟨hid, (Option.some.inj ht').symm⟩
  · rw [h.snapshots id hid] at ht'
    exact .inr ⟨hid, ht'⟩

/-- Every snapshot stays where it is, in its round. -/
theorem find_after (h : Advance db db' s s' i) {id : Uuid} {t : Snapshot}
    (ht : snapshotTable.find db id = some t) :
    ∃ t', snapshotTable.find db' id = some t' ∧ SameCommitments t t' := by
  by_cases hid : id = s.id
  · rw [hid, h.before] at ht
    obtain rfl := Option.some.inj ht
    exact ⟨s', hid ▸ h.snapshot, h.commits⟩
  · exact ⟨t, (h.snapshots id hid).trans ht, rfl⟩

theorem kept (h : Advance db db' s s' i) : Kept db db' where
  snapshots _ _ ht := h.find_after ht
  intents id i₀ hi₀ := by
    by_cases hid : id = i.id
    · subst hid
      exact ⟨i, h.intent, h.same i₀ hi₀⟩
    · exact ⟨i₀, (h.intents id hid).trans hi₀, refl_of SameIntent i₀⟩
  evidence := h.evidence

theorem moves (h : Advance db db' s s' i) (own : Uuid → Prop) : Moves own db db' := by
  refine ⟨h.kept, fun t' ht' => .inl ?_⟩
  rcases h.find_before (snapshotTable.find_of_mem h.snapshotIds ht') with ⟨-, rfl⟩ | ⟨-, hold⟩
  · exact ⟨s, (snapshotTable.find_mem h.before).1, h.roundId.symm⟩
  · exact ⟨t', (snapshotTable.find_mem hold).1, rfl⟩

end Advance

/-- **A step of one snapshot keeps the invariant.** -/
theorem Inv.advance {db db' : Database} {s s' : Snapshot} {i : AnchorIntent} (h : Inv db)
    (ha : Advance db db' s s' i) : Inv db' where
  roundIds := ha.roundIds
  snapshotIds := ha.snapshotIds
  intentIds := ha.intentIds
  evidenceOnce := ha.evidenceOnce
  snapshotOnce id t id' t' ht ht' hround := by
    rcases ha.find_before ht with ⟨rfl, rfl⟩ | ⟨-, hold⟩ <;>
      rcases ha.find_before ht' with ⟨rfl, rfl⟩ | ⟨-, hold'⟩
    · rfl
    · exact h.snapshotOnce _ _ _ _ ha.before hold' (ha.roundId.symm.trans hround)
    · exact h.snapshotOnce _ _ _ _ hold ha.before (hround.trans ha.roundId)
    · exact h.snapshotOnce _ _ _ _ hold hold' hround
  intentOnce id j id' j' hj hj' hsnapshot := by
    by_cases hmine : j.snapshotId = s.id
    · -- both are the intent of the snapshot
      have hthis {id : Uuid} {j : AnchorIntent} (hj : anchorIntentTable.find db' id = some j)
          (hof : j.snapshotId = s.id) : id = i.id := by
        by_cases hid : id = i.id
        · exact hid
        · exact ha.only id j ((ha.intents id hid).symm.trans hj) hof
      rw [hthis hj hmine, hthis hj' (hsnapshot.symm.trans hmine)]
    · obtain ⟨j₀, hj₀, hof⟩ := (ha.untouched hmine).noIntents id j hj rfl
      obtain ⟨j₀', hj₀', hof'⟩ := (ha.untouched hmine).noIntents id' j' hj' hsnapshot.symm
      exact h.intentOnce id j₀ id' j₀' hj₀ hj₀' (hof.trans hof'.symm)
  stage id t' ht' := by
    rcases ha.find_before ht' with ⟨rfl, rfl⟩ | ⟨hid, hold⟩
    · rw [ha.roundId]
      exact ha.stage
    · obtain ⟨r, hr, hstage⟩ := h.stage id t' hold
      have hother : t'.id ≠ s.id := fun heq => hid ((snapshotTable.find_mem hold).2.symm.trans heq)
      refine ⟨r, ?_, hstage.frame (ha.untouched hother)⟩
      rw [ha.rounds, hr]
      exact fun hround => hid (h.snapshotOnce _ _ _ _ hold ha.before hround)
  anchored id r hr hanchored := by
    by_cases hid : id = s.roundId
    · exact ⟨s.id, s', ha.snapshot, ha.roundId.trans hid.symm⟩
    · obtain ⟨sid, t, ht, hround⟩ := h.anchored id r ((ha.rounds id hid).symm.trans hr) hanchored
      obtain ⟨t', ht', hcommits⟩ := ha.find_after ht
      exact ⟨sid, t', ht', (congrArg Commitments.roundId hcommits).trans hround⟩
  owned id j hj := by
    by_cases hid : id = i.id
    · subst hid
      obtain rfl := Option.some.inj (hj.symm.trans ha.intent)
      exact ⟨s', ha.mine ▸ ha.snapshot⟩
    · obtain ⟨t, ht⟩ := h.owned id j ((ha.intents id hid).symm.trans hj)
      obtain ⟨t', ht', -⟩ := ha.find_after ht
      exact ⟨t', ht'⟩
  attested e he := by
    rcases ha.newEvidence e he with hold | hnew
    · obtain ⟨j, hj⟩ := h.attested e hold
      obtain ⟨j', hj', -⟩ := ha.kept.intents _ j hj
      exact ⟨j', hj'⟩
    · exact ⟨i, hnew ▸ ha.intent⟩

/-! ### The steps of the protocol -/

/-- The update of a snapshot that `create_anchor_intent` makes. -/
abbrev askAnchor (snapshotId : Uuid) (view db : Database) : Database :=
  snapshotTable.modify (fun s => s.id = snapshotId && s.status = .created)
    ({ · with status := .anchorPending }) view db

/-- **An intent is created** for a snapshot that has none. -/
theorem Inv.request {db view : Database} {s : Snapshot} {i : AnchorIntent} (h : Inv db)
    (hs : snapshotTable.find db s.id = some s) (hview : snapshotTable.find view s.id = some s)
    (hcreated : s.status = .created) (hnew : anchorIntentTable.find db i.id = none)
    (hcopies : Copies i s) (hstatus : i.status = .created) (own : Uuid → Prop) :
    Inv (askAnchor s.id view (anchorIntentTable.add i db)) ∧
      Moves own db (askAnchor s.id view (anchorIntentTable.add i db)) := by
  obtain ⟨r, hr, hstage⟩ := h.stage s.id s hs
  obtain ⟨hround, hnone⟩ : r.status = .closed ∧
      ∀ id j, anchorIntentTable.find db id = some j → j.snapshotId ≠ s.id := by
    cases hstage with
    | created hround _ hnone => exact ⟨hround, hnone⟩
    | pending _ _ hsnapshot => simp [hcreated] at hsnapshot
    | anchored _ _ _ hsnapshot => simp [hcreated] at hsnapshot
  have hfound : anchorIntentTable.find (anchorIntentTable.add i db) i.id = some i := by
    rw [anchorIntentTable.find_add, hnew, Option.none_or]
    exact if_pos rfl
  have hchanged : snapshotTable.find (askAnchor s.id view (anchorIntentTable.add i db)) s.id =
      some { s with status := .anchorPending } :=
    snapshotTable.find_modify_of_find (f := ({ · with status := .anchorPending })) (fun _ => rfl) hs
      hview (by simp [hcreated])
  have ha : Advance db (askAnchor s.id view (anchorIntentTable.add i db)) s
      { s with status := .anchorPending } i :=
    { roundIds := h.roundIds
      snapshotIds := by
        have hkeys : (askAnchor s.id view (anchorIntentTable.add i db)).snapshots.map (·.id) =
            db.snapshots.map (·.id) := snapshotTable.keys_modify fun _ => rfl
        exact hkeys ▸ h.snapshotIds
      intentIds := anchorIntentTable.nodup_add h.intentIds (anchorIntentTable.find_none hnew)
      evidenceOnce := h.evidenceOnce
      before := hs
      snapshot := hchanged
      commits := rfl
      snapshots := fun id hid =>
        snapshotTable.find_modify_of_ne (f := ({ · with status := .anchorPending })) (j := s.id)
          (fun _ => rfl) (fun t ht => of_decide_eq_true (Bool.and_eq_true_iff.mp ht).1) hid
      rounds := fun _ _ => rfl
      intent := hfound
      mine := hcopies.snapshot
      same := fun i₀ hi₀ => by simp [hnew] at hi₀
      only := fun id i₀ hi₀ hof => absurd hof (hnone id i₀ hi₀)
      intents := fun id hid => anchorIntentTable.find_add_of_ne (Ne.symm hid)
      evidence := fun _ he => he
      newEvidence := fun _ he => .inl he
      stage := by
        refine ⟨r, hr, .pending i hround rfl hfound ?_ (.inl hstatus) fun e he hof => ?_⟩
        · exact ⟨hcopies.snapshot, hcopies.round, hcopies.root, hcopies.tally, hcopies.votes⟩
        · obtain ⟨j, hj⟩ := h.attested e he
          rw [hof, hnew] at hj
          cases hj }
  exact ⟨h.advance ha, ha.moves own⟩

/-- The stage of a pending intent. -/
theorem Inv.pending {db : Database} {i : AnchorIntent} (h : Inv db)
    (hi : anchorIntentTable.find db i.id = some i)
    (hstatus : i.status = .created ∨ i.status = .submitted) :
    ∃ s r, snapshotTable.find db i.snapshotId = some s ∧ roundTable.find db i.roundId = some r ∧
      r.status = .closed ∧ s.status = .anchorPending ∧ Copies i s ∧
      ∀ e ∈ db.anchorEvidence, e.anchorIntentId ≠ i.id := by
  obtain ⟨s, hs⟩ := h.owned i.id i hi
  obtain ⟨r, hr, hstage⟩ := h.stage _ s hs
  have hsid : s.id = i.snapshotId := (snapshotTable.find_mem hs).2
  cases hstage with
  | created _ _ hnone => exact absurd hsid.symm (hnone i.id i hi)
  | pending j hround hsnapshot hfind hcopies _ hnone =>
      -- the intent of the snapshot is this one
      have hid : j.id = i.id :=
        h.intentOnce _ _ _ _ hfind hi (hcopies.snapshot.trans hsid)
      obtain rfl : j = i := by
        rw [hid, hi] at hfind
        exact (Option.some.inj hfind).symm
      exact ⟨s, r, hs, hcopies.round ▸ hr, hround, hsnapshot, hcopies, hnone⟩
  | anchored j _ _ _ hfind hcopies hconfirmed =>
      have hid : j.id = i.id :=
        h.intentOnce _ _ _ _ hfind hi (hcopies.snapshot.trans hsid)
      rw [hid, hi] at hfind
      obtain rfl := Option.some.inj hfind
      rw [hconfirmed] at hstatus
      rcases hstatus with h | h <;> cases h

/-- The intent, submitted. -/
abbrev submitted (hash : String) (i : AnchorIntent) : AnchorIntent :=
  { i with status := .submitted, submittedTxHash := some hash }

/-- The update of an intent that `record_anchor_submission` makes. -/
abbrev recordSubmission (intentId : Uuid) (hash : String) (view db : Database) : Database :=
  anchorIntentTable.modify (fun i => i.id = intentId && i.status = .created) (submitted hash) view db

/-- **The intent is submitted.** -/
theorem Inv.submit {db view : Database} {i : AnchorIntent} {hash : String} (h : Inv db)
    (hi : anchorIntentTable.find db i.id = some i) (hview : anchorIntentTable.find view i.id = some i)
    (hstatus : i.status = .created) (own : Uuid → Prop) :
    Inv (recordSubmission i.id hash view db) ∧ Moves own db (recordSubmission i.id hash view db) := by
  obtain ⟨s, r, hs, hr, hround, hsnapshot, hcopies, hnone⟩ := h.pending hi (.inl hstatus)
  have hsid : s.id = i.snapshotId := (snapshotTable.find_mem hs).2
  rw [← hsid] at hs
  have hfound : anchorIntentTable.find (recordSubmission i.id hash view db) i.id =
      some (submitted hash i) :=
    anchorIntentTable.find_modify_of_find (f := submitted hash) (fun _ => rfl) hi hview
      (by simp [hstatus])
  have ha : Advance db (recordSubmission i.id hash view db) s s (submitted hash i) :=
    { roundIds := h.roundIds
      snapshotIds := h.snapshotIds
      intentIds := by
        have hkeys : (recordSubmission i.id hash view db).anchorIntents.map (·.id) =
            db.anchorIntents.map (·.id) := anchorIntentTable.keys_modify fun _ => rfl
        exact hkeys ▸ h.intentIds
      evidenceOnce := h.evidenceOnce
      before := hs
      snapshot := hs
      commits := rfl
      snapshots := fun _ _ => rfl
      rounds := fun _ _ => rfl
      intent := hfound
      mine := hsid.symm
      same := fun i₀ hi₀ => by
        obtain rfl := Option.some.inj (hi₀.symm.trans hi)
        exact ⟨rfl, fun hconfirmed => by simp [hstatus] at hconfirmed⟩
      only := fun id i₀ hi₀ hof => h.intentOnce _ _ _ _ hi₀ hi (hof.trans hsid)
      intents := fun id hid => anchorIntentTable.find_modify_of_ne (f := submitted hash) (j := i.id)
        (fun _ => rfl) (fun j hj => of_decide_eq_true (Bool.and_eq_true_iff.mp hj).1) hid
      evidence := fun _ he => he
      newEvidence := fun _ he => .inl he
      stage := by
        refine ⟨r, hcopies.round ▸ hr, .pending (submitted hash i) hround hsnapshot hfound ?_
          (.inr rfl) hnone⟩
        exact ⟨hcopies.snapshot, hcopies.round, hcopies.root, hcopies.tally, hcopies.votes⟩ }
  exact ⟨h.advance ha, ha.moves own⟩

/-- The intent, confirmed. -/
abbrev confirmed (i : AnchorIntent) : AnchorIntent := { i with status := .confirmed }

/-- The changes that `accept_anchor_evidence` makes: each update has its own view. -/
abbrev accept (intentId snapshotId roundId : Uuid) (body : AnchorEvidenceRequest) (e : AnchorEvidence)
    (view₁ view₂ view₃ db : Database) : Database :=
  roundTable.modify (fun r => r.id = roundId && r.status = .closed) ({ · with status := .anchored })
    view₃ <|
  snapshotTable.modify (fun s => s.id = snapshotId && s.status = .anchorPending)
    (Snapshot.anchor body e.id) view₂ <|
  anchorIntentTable.modify (fun i => i.id = intentId) confirmed view₁ <|
  anchorEvidenceTable.add e db

/-- **The evidence is accepted**: intent, snapshot and round move together. -/
theorem Inv.accept {db view₁ view₂ view₃ : Database} {i : AnchorIntent} {s : Snapshot} {r : Round}
    {body : AnchorEvidenceRequest} {e : AnchorEvidence} (h : Inv db)
    (hi : anchorIntentTable.find db i.id = some i) (hstatus : i.status = .submitted)
    (hs : snapshotTable.find db i.snapshotId = some s) (hr : roundTable.find db i.roundId = some r)
    (hview₁ : anchorIntentTable.find view₁ i.id = some i)
    (hview₂ : snapshotTable.find view₂ i.snapshotId = some s)
    (hview₃ : roundTable.find view₃ i.roundId = some r) (hattests : Attests e i)
    (own : Uuid → Prop) :
    Inv (accept i.id i.snapshotId i.roundId body e view₁ view₂ view₃ db) ∧
      Moves own db (accept i.id i.snapshotId i.roundId body e view₁ view₂ view₃ db) := by
  obtain ⟨s₀, r₀, hs₀, hr₀, hround, hsnapshot, hcopies, hnone⟩ := h.pending hi (.inr hstatus)
  obtain rfl := Option.some.inj (hs.symm.trans hs₀)
  obtain rfl := Option.some.inj (hr.symm.trans hr₀)
  have hsid : s.id = i.snapshotId := (snapshotTable.find_mem hs).2
  generalize hdb' : Anchoring.accept i.id i.snapshotId i.roundId body e view₁ view₂ view₃ db = db'
  have hintent : anchorIntentTable.find db' i.id = some (confirmed i) := by
    rw [← hdb']
    exact anchorIntentTable.find_modify_of_find (f := confirmed) (fun _ => rfl) hi hview₁ (by simp)
  have hsnap : snapshotTable.find db' i.snapshotId = some (s.anchor body e.id) := by
    rw [← hdb']
    exact snapshotTable.find_modify_of_find (f := Snapshot.anchor body e.id)
      (fun _ => rfl) hs hview₂ (by simp [hsid, hsnapshot])
  have hrow : roundTable.find db' i.roundId = some { r with status := .anchored } := by
    have hrid : r.id = i.roundId := (roundTable.find_mem hr).2
    rw [← hdb']
    exact roundTable.find_modify_of_find (f := ({ · with status := .anchored }))
      (fun _ => rfl) hr hview₃ (by simp [hrid, hround])
  have hevidence : db'.anchorEvidence = db.anchorEvidence ++ [e] := by
    rw [← hdb']
    rfl
  have ha : Advance db db' s (s.anchor body e.id) (confirmed i) :=
    { roundIds := by
        have hkeys : db'.rounds.map (·.id) = db.rounds.map (·.id) := by
          rw [← hdb']
          exact roundTable.keys_modify fun _ => rfl
        exact hkeys ▸ h.roundIds
      snapshotIds := by
        have hkeys : db'.snapshots.map (·.id) = db.snapshots.map (·.id) := by
          rw [← hdb']
          exact snapshotTable.keys_modify fun _ => rfl
        exact hkeys ▸ h.snapshotIds
      intentIds := by
        have hkeys : db'.anchorIntents.map (·.id) = db.anchorIntents.map (·.id) := by
          rw [← hdb']
          exact anchorIntentTable.keys_modify fun _ => rfl
        exact hkeys ▸ h.intentIds
      evidenceOnce := by
        rw [hevidence, List.map_append, List.nodup_append]
        refine ⟨h.evidenceOnce, List.nodup_singleton _, fun id hid id' hid' => ?_⟩
        obtain ⟨f, hf, rfl⟩ := List.mem_map.mp hid
        obtain rfl := List.mem_singleton.mp hid'
        exact fun heq => hnone f hf (heq.trans hattests.intent)
      before := hsid ▸ hs
      snapshot := hsid ▸ hsnap
      commits := rfl
      snapshots := fun id hid => by
        rw [← hdb']
        exact snapshotTable.find_modify_of_ne (f := Snapshot.anchor body e.id) (j := i.snapshotId)
          (fun _ => rfl) (fun t ht => of_decide_eq_true (Bool.and_eq_true_iff.mp ht).1)
          (hsid ▸ hid)
      rounds := fun id hid => by
        rw [← hdb']
        exact roundTable.find_modify_of_ne (f := ({ · with status := .anchored })) (j := i.roundId)
          (fun _ => rfl) (fun t ht => of_decide_eq_true (Bool.and_eq_true_iff.mp ht).1)
          (hcopies.round ▸ hid)
      intent := hintent
      mine := hsid.symm
      same := fun i₀ hi₀ => by
        obtain rfl := Option.some.inj (hi₀.symm.trans hi)
        exact ⟨rfl, fun hconfirmed => by simp [hstatus] at hconfirmed⟩
      only := fun id i₀ hi₀ hof => h.intentOnce _ _ _ _ hi₀ hi (hof.trans hsid)
      intents := fun id hid => by
        rw [← hdb']
        exact anchorIntentTable.find_modify_of_ne (f := confirmed) (j := i.id) (fun _ => rfl)
          (fun j hj => of_decide_eq_true hj) hid
      evidence := fun f hf => by
        rw [hevidence]
        exact List.mem_append_left _ hf
      newEvidence := fun f hf => by
        rw [hevidence] at hf
        refine (List.mem_append.mp hf).imp_right fun hf => ?_
        obtain rfl := List.mem_singleton.mp hf
        exact hattests.intent
      stage := by
        refine ⟨_, hcopies.round ▸ hrow, .anchored (confirmed i) e rfl rfl hintent ?_ rfl ?_ ?_ rfl⟩
        · exact ⟨hcopies.snapshot, hcopies.round, hcopies.root, hcopies.tally, hcopies.votes⟩
        · rw [hevidence]
          exact List.mem_append_right _ (List.mem_singleton.mpr rfl)
        · exact ⟨hattests.intent, hattests.snapshot, hattests.contract, hattests.roundKey,
            hattests.root, hattests.tally, hattests.votes⟩ }
  exact ⟨h.advance ha, ha.moves own⟩

/-! ### The steps of the rounds -/

/-- **A snapshot is created** of a closed round that has none. -/
theorem Inv.addSnapshot {db : Database} {s : Snapshot} {r : Round} (h : Inv db)
    (hr : roundTable.find db s.roundId = some r) (hclosed : r.status = .closed ∨ r.status = .anchored)
    (hnew : snapshotTable.find db s.id = none) (hfirst : ∀ t ∈ db.snapshots, t.roundId ≠ s.roundId)
    (hcreated : s.status = .created) {own : Uuid → Prop} (hown : own s.roundId) :
    Inv (snapshotTable.add s db) ∧ Moves own db (snapshotTable.add s db) := by
  -- an anchored round would have a snapshot already
  have hround : r.status = .closed := by
    refine hclosed.resolve_right fun hanchored => ?_
    obtain ⟨sid, t, ht, hof⟩ := h.anchored _ r hr hanchored
    exact hfirst t (snapshotTable.find_mem ht).1 hof
  have hfind {id : Uuid} {t : Snapshot} (ht : snapshotTable.find (snapshotTable.add s db) id = some t) :
      snapshotTable.find db id = some t ∨ (id = s.id ∧ t = s) := by
    refine (snapshotTable.of_find_add ht).imp_right fun ⟨_, hid, heq⟩ => ?_
    exact ⟨hid.symm, heq⟩
  have hkept : Kept db (snapshotTable.add s db) := ⟨.add, .of_find fun _ => rfl, fun _ he => he⟩
  refine ⟨⟨h.roundIds, snapshotTable.nodup_add h.snapshotIds (snapshotTable.find_none hnew),
    h.intentIds, ?_, h.intentOnce, h.evidenceOnce, ?_, ?_, ?_, h.attested⟩, hkept, ?_⟩
  · intro id t id' t' ht ht' hsame
    rcases hfind ht with hold | ⟨rfl, rfl⟩ <;> rcases hfind ht' with hold' | ⟨rfl, rfl⟩
    · exact h.snapshotOnce id t id' t' hold hold' hsame
    · exact absurd hsame (hfirst t (snapshotTable.find_mem hold).1)
    · exact absurd hsame.symm (hfirst t' (snapshotTable.find_mem hold').1)
    · rfl
  · intro id t ht
    rcases hfind ht with hold | ⟨rfl, rfl⟩
    · obtain ⟨r', hr', hstage⟩ := h.stage id t hold
      have hsame : Untouched db (snapshotTable.add s db) t.id :=
        .of_same (by rfl) (by rfl) _
      exact ⟨r', hr', hstage.frame hsame⟩
    · refine ⟨r, hr, .created hround hcreated fun id i hi hof => ?_⟩
      obtain ⟨t', ht'⟩ := h.owned id i hi
      rw [hof, hnew] at ht'
      cases ht'
  · intro id r' hr' hanchored
    obtain ⟨sid, t, ht, hof⟩ := h.anchored id r' hr' hanchored
    exact ⟨sid, t, snapshotTable.find_add_of_some ht, hof⟩
  · intro id i hi
    obtain ⟨t, ht⟩ := h.owned id i hi
    exact ⟨t, snapshotTable.find_add_of_some ht⟩
  · intro t ht
    rcases List.mem_append.mp ht with hold | hlast
    · exact .inl ⟨t, hold, rfl⟩
    · obtain rfl := List.mem_singleton.mp hlast
      exact .inr hown

theorem find_setRoundStatus (db : Database) (roundId id : Uuid) (status : RoundStatus) :
    roundTable.find (db.setRoundStatus roundId status) id = (roundTable.find db id).map fun r =>
      if r.id = roundId then { r with status } else r := by
  refine (find?_updateWhere fun _ => ?_).trans ?_
  · rfl
  · simp only [decide_eq_true_eq]
    rfl

/-- **A round is opened or closed** that is not closed yet. -/
theorem Inv.setRoundStatus {db : Database} {roundId : Uuid} {status : RoundStatus} {r : Round}
    (h : Inv db) (hr : roundTable.find db roundId = some r)
    (hopen : r.status ≠ .closed ∧ r.status ≠ .anchored) (hstatus : status ≠ .anchored)
    (own : Uuid → Prop) :
    Inv (db.setRoundStatus roundId status) ∧ Moves own db (db.setRoundStatus roundId status) := by
  have hother {id : Uuid} (hid : id ≠ roundId) :
      roundTable.find (db.setRoundStatus roundId status) id = roundTable.find db id := by
    rw [find_setRoundStatus]
    cases hfind : roundTable.find db id with
    | none => rfl
    | some r' =>
        have hne : r'.id ≠ roundId := fun heq => hid ((roundTable.find_mem hfind).2.symm.trans heq)
        rw [Option.map_some, if_neg hne]
  refine ⟨⟨?_, h.snapshotIds, h.intentIds, h.snapshotOnce, h.intentOnce, h.evidenceOnce, ?_, ?_,
    h.owned, h.attested⟩, ⟨.of_find fun _ => rfl, .of_find fun _ => rfl, fun _ he => he⟩,
    fun s hs => .inl ⟨s, hs, rfl⟩⟩
  · have hkeys : (db.setRoundStatus roundId status).rounds.map (·.id) = db.rounds.map (·.id) :=
      map_updateWhere fun _ => rfl
    exact hkeys ▸ h.roundIds
  · intro id s hs
    obtain ⟨r', hr', hstage⟩ := h.stage id s hs
    have hsame : Untouched db (db.setRoundStatus roundId status) s.id :=
        .of_same (by rfl) (by rfl) _
    refine ⟨r', ?_, hstage.frame hsame⟩
    rw [hother, hr']
    intro hid
    rw [hid, hr] at hr'
    obtain rfl := Option.some.inj hr'
    rcases hstage.round_left with hleft | hleft
    · exact hopen.1 hleft
    · exact hopen.2 hleft
  · intro id r' hr' hanchored
    by_cases hid : id = roundId
    · have hrid : r.id = roundId := (roundTable.find_mem hr).2
      rw [hid, find_setRoundStatus, hr, Option.map_some, if_pos hrid] at hr'
      obtain rfl := Option.some.inj hr'
      exact absurd hanchored hstatus
    · exact h.anchored id r' ((hother hid).symm.trans hr') hanchored

end CrownFi.Voting.Anchoring
