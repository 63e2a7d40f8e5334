import CrownFi.Lib.Confined
import CrownFi.Lib.Records
import CrownFi.Voting.Anchors
import CrownFi.Voting.Completeness

/-!
# CrownFi.Voting.Resubmission

**A vote that is submitted again.** A request that was accepted and comes again, at any time and
next to any other requests, should get the receipt of the vote that it stored. It does exactly if
`cast_vote` would still admit it: the replay is looked up behind the checks of the round, the voter
and the contestant, and only a vote that is committed by then is found. A copy that is under way
when the first is committed, or comes after the round has closed, is refused.
-/

namespace CrownFi.Voting.Ballots

open Lib CrownFi.Api

variable {sha256 : Sha256} {tallyText : List TallyEntry → ByteArray}

/-! ### Votes are kept, one for each voter -/

/-- The keys of `votes`. -/
structure Inv (db : Database) : Prop where
  ids : (db.votes.map (·.id)).Nodup
  voters : (db.votes.map fun v => (v.roundId, v.voterUserId)).Nodup

/-- Votes are only added, under the locks of their keys. -/
def Guarantee (L : List (Lock Row)) (db db' : Database) : Prop :=
  ∃ new, db'.votes = db.votes ++ new ∧ ∀ v ∈ new,
    ⟨.vote v.id, .update⟩ ∈ L ∧ ⟨.voteOf v.roundId v.voterUserId, .update⟩ ∈ L

/-- No vote is lost. -/
def Kept (db db' : Database) : Prop := db.votes ⊆ db'.votes

instance : IsPreorder Database Kept where
  refl _ := List.Subset.refl _
  trans _ _ _ := List.Subset.trans

theorem Guarantee.kept {L : List (Lock Row)} {db db' : Database} (h : Guarantee L db db') :
    Kept db db' := by
  obtain ⟨new, hnew, -⟩ := h
  intro v hv
  rw [hnew]
  exact List.mem_append_left _ hv

/-- The keys of a vote are free. -/
def Free (v : Vote) (db : Database) : Prop :=
  ∀ w ∈ db.votes, w.id ≠ v.id ∧ (w.roundId, w.voterUserId) ≠ (v.roundId, v.voterUserId)

/-- Locked keys stay free. -/
theorem stable_free {held : List (Lock Row)} {v : Vote} (hid : ⟨.vote v.id, .update⟩ ∈ held)
    (hvoter : ⟨.voteOf v.roundId v.voterUserId, .update⟩ ∈ held) :
    Stable Inv Guarantee held (Free v) := by
  rintro L db db' hcompat - - h ⟨new, hnew, hlocks⟩ w hw
  rw [hnew] at hw
  rcases List.mem_append.mp hw with hw | hw
  · exact h w hw
  · obtain ⟨hwid, hwvoter⟩ := hlocks w hw
    constructor
    · intro heq
      exact hcompat.not_mem hid rfl rfl (heq ▸ hwid)
    · intro heq
      obtain ⟨hround, huser⟩ := Prod.mk.inj heq
      rw [hround, huser] at hwvoter
      exact hcompat.not_mem hvoter rfl rfl hwvoter

theorem Inv.add {db : Database} {v : Vote} (h : Inv db) (hfree : Free v db) : Inv (db.addVote v) where
  ids := by
    rw [Database.addVote, List.map_append, List.nodup_append]
    refine ⟨h.ids, List.nodup_singleton _, ?_⟩
    rintro _ hw _ hv rfl
    obtain ⟨w, hw, heq⟩ := List.mem_map.mp hw
    exact (hfree w hw).1 (heq.trans (List.mem_singleton.mp hv))
  voters := by
    rw [Database.addVote, List.map_append, List.nodup_append]
    refine ⟨h.voters, List.nodup_singleton _, ?_⟩
    rintro _ hw _ hv rfl
    obtain ⟨w, hw, heq⟩ := List.mem_map.mp hw
    exact (hfree w hw).2 (heq.trans (List.mem_singleton.mp hv))

theorem free_of_violation {db : Database} {v : Vote} (h : voteViolation v db = none) : Free v db := by
  intro w hw
  unfold voteViolation at h
  split at h
  · cases h
  · rename_i hnone
    rw [List.any_eq_true] at hnone
    constructor
    · exact fun heq => hnone ⟨w, hw, by simp [heq]⟩
    · intro heq
      obtain ⟨hround, huser⟩ := Prod.mk.inj heq
      exact hnone ⟨w, hw, by simp [hround, huser]⟩

theorem safe_castVote (voterUserId roundId : Uuid) (body : CastVoteRequest) (voteId : Uuid) :
    SafeRequest Inv Guarantee (fun _ _ => True) (castVote sha256 voterUserId roundId body voteId).request := by
  unfold SafeRequest Handler.request castVote
  refine safe_bind (safe_ofExcept fun key _ => ?_)
  refine safe_bind (safe_select stable_true fun _ _ _ _ _ => ?_)
  refine safe_bind (safe_orElse fun round _ => ?_)
  refine safe_bind (safe_select stable_true fun _ _ _ _ _ => ?_)
  refine safe_bind (safe_require fun _ => ?_)
  refine safe_bind (safe_select stable_true fun _ _ _ _ _ => ?_)
  refine safe_bind (safe_require fun _ => ?_)
  refine safe_bind (safe_select stable_true fun _ _ _ _ _ => ?_)
  refine safe_bind (safe_require fun _ => ?_)
  refine safe_bind (safe_select stable_true fun _ existing _ _ _ => ?_)
  cases existing with
  | some existing =>
    refine safe_bind (safe_select stable_true fun _ _ _ _ _ => ?_)
    refine safe_bind (safe_require fun _ => ?_)
    exact safe_bind (safe_commit (fun db hI _ => ⟨hI, [], by simp, by simp⟩) safe_ret)
  | none =>
    refine safe_bind (safe_select stable_true fun _ _ _ _ _ => ?_)
    refine safe_bind (safe_insert fun db _ _ _ hviolation => ?_)
    refine ⟨Free _, free_of_violation hviolation, stable_free (by simp) (by simp), ?_⟩
    -- until the commit the locks of the insert keep the keys free
    refine safe_bind (safe_commit (fun d hI hfree => ⟨hI.add hfree, [_], rfl, ?_⟩) safe_ret)
    intro v hv
    rw [List.mem_singleton.mp hv]
    simp

/-! ### Requests that leave the votes alone -/

/-- The votes are the same. -/
def SameVotes (db db' : Database) : Prop := db'.votes = db.votes

instance : IsPreorder Database SameVotes where
  refl _ := rfl
  trans _ _ _ h h' := Eq.trans h' h

/-- A part of a request that leaves the votes alone. -/
abbrev Aside {α : Type} (m : Handler α) : Prop := m.Confined (fun _ _ => True) fun _ => SameVotes

theorem Aside.safe {h : Handler Response} (haside : Aside h) :
    SafeRequest Inv Guarantee (fun _ _ => True) h.request := by
  refine Prog.Bounded.safeRequest (Tx.Bounded.request haside _) (fun L db db' hsame hI => ?_)
    fun L db db' hsame _ => ⟨[], hsame.trans (List.append_nil _).symm, by simp⟩
  obtain ⟨hids, hvoters⟩ := hI
  constructor
  · rw [show db'.votes = db.votes from hsame]
    exact hids
  · rw [show db'.votes = db.votes from hsame]
    exact hvoters

theorem aside_requireOrganizationEditor (organizationId userId : Uuid) :
    Aside (requireOrganizationEditor organizationId userId) :=
  .bind .select fun _ => .require

theorem aside_transitionRound (actorUserId roundId : Uuid) (reason : String) (opening : Bool) :
    Aside (transitionRound actorUserId roundId reason opening) := by
  unfold transitionRound
  refine .bind .ofExcept fun _ => .bind .select fun _ => .bind .orElse fun current => ?_
  refine .bind (aside_requireOrganizationEditor _ _) fun _ => .bind .select fun now => .ite ?_ ?_
  · refine .bind .require fun _ => .bind .require fun _ => .bind .require fun _ => ?_
    exact .bind (.write fun _ _ => rfl) fun _ => .bind .commit fun _ => .pure
  · refine .bind .require fun _ => ?_
    exact .bind (.write fun _ _ => rfl) fun _ => .bind .commit fun _ => .pure

theorem aside_insertLeaves (rows : List SnapshotLeaf) : Aside (insertLeaves rows) := by
  induction rows with
  | nil => exact .pure
  | cons l rest ih => exact .bind (.insert fun _ _ => rfl) fun _ => ih

theorem aside_createSnapshot (actorUserId roundId snapshotId : Uuid) :
    Aside (createSnapshot sha256 tallyText actorUserId roundId snapshotId) := by
  unfold createSnapshot
  refine .bind .select fun _ => .bind .orElse fun round => ?_
  refine .bind (aside_requireOrganizationEditor _ _) fun _ => .bind .require fun _ => ?_
  refine .bind .select fun existing => ?_
  cases existing with
  | some existing => exact .bind .commit fun _ => .pure
  | none =>
    refine .bind .select fun tally => .bind .select fun votes => ?_
    refine .bind .require fun _ => .bind .require fun _ => .bind .require fun _ => ?_
    refine .bind (.insert fun _ _ => rfl) fun _ => ?_
    exact .bind (aside_insertLeaves _) fun _ => .bind .commit fun _ => .pure

theorem aside_environment (directory : Directory) (roundContestants : List RoundContestant)
    (pageantContestants : List PageantContestant) :
    Aside (environment directory roundContestants pageantContestants) :=
  .bind (.write fun _ _ => rfl) fun _ => .bind .commit fun _ => .pure

theorem aside_setDeployments (deployments : List ContractDeployment) :
    Aside (setDeployments deployments) :=
  .bind (.write fun _ _ => rfl) fun _ => .bind .commit fun _ => .pure

theorem aside_loadIntentTx (intentId : Uuid) : Aside (loadIntentTx intentId) :=
  .bind .select fun _ => .orElse

theorem aside_createAnchorIntent (actorUserId snapshotId : Uuid) (idempotencyKey : String)
    (intentId : Uuid) (contractRoundKey : Int) :
    Aside (createAnchorIntent actorUserId snapshotId idempotencyKey intentId contractRoundKey) := by
  unfold createAnchorIntent
  refine .bind .ofExcept fun _ => .bind .select fun _ => .bind .orElse fun snapshot => ?_
  refine .bind (aside_requireOrganizationEditor _ _) fun _ => .bind .require fun _ => ?_
  refine .bind .select fun existing => ?_
  cases existing with
  | some existing => exact .bind .require fun _ => .bind .commit fun _ => .pure
  | none =>
    refine .bind .select fun _ => .bind .orElse fun deployment => ?_
    refine .bind (.insertRow fun _ => rfl) fun _ => .bind (.update fun _ _ _ => rfl) fun _ => ?_
    exact .bind (aside_loadIntentTx _) fun _ => .bind .commit fun _ => .pure

theorem aside_recordAnchorSubmission (intentId : Uuid) (transactionHash : String) :
    Aside (recordAnchorSubmission intentId transactionHash) := by
  unfold recordAnchorSubmission
  refine .bind .ofExcept fun _ => .bind (aside_loadIntentTx _) fun intent => ?_
  refine .bind .require fun _ => .ite ?_ ?_
  · exact .bind .require fun _ => .bind .commit fun _ => .pure
  · refine .bind .require fun _ => .bind (.update fun _ _ _ => rfl) fun _ => ?_
    exact .bind (aside_loadIntentTx _) fun _ => .bind .commit fun _ => .pure

theorem aside_acceptAnchorEvidence (intentId : Uuid) (body : AnchorEvidenceRequest) (evidenceId : Uuid) :
    Aside (acceptAnchorEvidence intentId body evidenceId) := by
  unfold acceptAnchorEvidence
  refine .bind .ofExcept fun _ => .bind (aside_loadIntentTx _) fun intent => ?_
  refine .bind .select fun existing => ?_
  cases existing with
  | some existing => exact .bind .require fun _ => .bind .commit fun _ => .pure
  | none =>
    refine .bind .require fun _ => .bind .require fun _ => .bind (.insertRow fun _ => rfl) fun _ => ?_
    refine .bind (.update fun _ _ _ => rfl) fun _ => .bind (.update fun _ _ _ => rfl) fun _ => ?_
    refine .bind (.update fun _ _ _ => rfl) fun _ => .bind .select fun _ => .bind .orElse fun _ => ?_
    exact .bind .commit fun _ => .pure

/-- **Every request keeps the votes, one for each voter of a round.** -/
theorem safe_request {p : Prog Database Row Site Result} (h : AnchorRequest sha256 tallyText p) :
    SafeRequest Inv Guarantee (fun _ _ => True) p := by
  cases h with
  | voting h =>
      cases h with
      | castVote => exact safe_castVote _ _ _ _
      | transitionRound => exact (aside_transitionRound _ _ _ _).safe
      | createSnapshot => exact (aside_createSnapshot _ _ _).safe
      | environment => exact (aside_environment _ _ _).safe
  | createAnchorIntent => exact (aside_createAnchorIntent _ _ _ _ _).safe
  | recordAnchorSubmission => exact (aside_recordAnchorSubmission _ _).safe
  | acceptAnchorEvidence => exact (aside_acceptAnchorEvidence _ _ _).safe
  | setDeployments => exact (aside_setDeployments _).safe

/-! ### The answer to a vote -/

/-- A request to cast a vote, with the id that it draws. -/
structure VoteCall where
  voterUserId : Uuid
  roundId : Uuid
  body : CastVoteRequest
  voteId : Uuid
  deriving DecidableEq

def VoteCall.request (sha256 : Sha256) (c : VoteCall) : Prog Database Row Site Result :=
  (castVote sha256 c.voterUserId c.roundId c.body c.voteId).request

/-- The requests, the votes marked as such. -/
inductive Calls (sha256 : Sha256) (tallyText : List TallyEntry → ByteArray) :
    Option VoteCall → Prog Database Row Site Result → Prop
  | castVote (c : VoteCall) : Calls sha256 tallyText (some c) (c.request sha256)
  | other {p : Prog Database Row Site Result} (h : AnchorRequest sha256 tallyText p) :
      Calls sha256 tallyText none p

/-- The vote that an accepted call of this kind stored, whatever its id. -/
structure Stored (sha256 : Sha256) (c : VoteCall) (v : Vote) : Prop where
  round : v.roundId = c.roundId
  voter : v.voterUserId = c.voterUserId
  contestant : v.pageantContestantId = c.body.pageantContestantId
  key : requiredText c.body.idempotencyKey 200 "invalid_vote_idempotency_key" = .ok v.idempotencyKey
  hash : v.requestSha256 = hashText sha256
    (voteRequestText c.roundId c.voterUserId c.body.pageantContestantId v.idempotencyKey)

/-- The voter may vote. -/
def Eligible (voterUserId : Uuid) (db : Database) : Prop :=
  db.directory.userActive voterUserId = true ∧ db.directory.verifiedOn .testnet voterUserId = true

/-- What the call reads still admits it: the round is open, the voter and the contestant are eligible,
and the vote is committed when it is looked up. -/
def Readmitted (c : VoteCall) (v : Vote) : List Database → Prop
  | roundSeen :: clockSeen :: voterSeen :: contestantSeen :: votesSeen :: _ =>
      (∃ round, roundSeen.round? c.roundId = some round ∧
        (round.status = .open ∧ round.opensAt ≤ clockSeen.directory.clock ∧
          clockSeen.directory.clock < round.closesAt) ∧
        contestantSeen.contestantAllowed c.roundId c.body.pageantContestantId round.pageantId = true) ∧
      Eligible c.voterUserId voterSeen ∧ v ∈ votesSeen.votes
  | _ => False

/-- The call returns the receipt of the vote, and writes nothing. -/
def Replays (sha256 : Sha256) (c : VoteCall) (v : Vote) (answer : Result) (seen : List Database) : Prop :=
  answer = .ok (.receipt false v.receipt) ∧ (c.request sha256).Quiet seen

variable {c : VoteCall} {v : Vote} {seen : List Database} {answer : Result}

/-- The vote of a round and a voter is found under its own key. -/
theorem find_vote {db : Database} (hvoters : (db.votes.map fun v => (v.roundId, v.voterUserId)).Nodup)
    (hv : v ∈ db.votes) :
    (db.votes.find? fun w => w.roundId = v.roundId && w.voterUserId = v.voterUserId &&
      w.idempotencyKey = v.idempotencyKey) = some v := by
  cases hfound : db.votes.find? fun w => w.roundId = v.roundId && w.voterUserId = v.voterUserId &&
      w.idempotencyKey = v.idempotencyKey with
  | none =>
    have := List.find?_eq_none.mp hfound v hv
    simp at this
  | some w =>
    have hmatch := List.find?_some hfound
    simp only [Bool.and_eq_true, decide_eq_true_eq] at hmatch
    obtain ⟨⟨hround, hvoter⟩, -⟩ := hmatch
    have hw := List.mem_of_find?_eq_some hfound
    rw [List.inj_on_of_nodup_map hvoters hw hv (Prod.ext hround hvoter)]

/-- The lookup of the vote that the call stored. -/
def lookup (c : VoteCall) (key : String) (db : Database) : Option Vote :=
  db.votes.find? fun w => w.roundId = c.roundId && w.voterUserId = c.voterUserId && w.idempotencyKey = key

/-- A call only reads until it has looked the vote up, and if it finds one, to its end. -/
theorem quiet_request (h : ∀ d₁ d₂ d₃ d₄ d₅ more, seen = d₁ :: d₂ :: d₃ :: d₄ :: d₅ :: more →
      more = [] ∨ ∀ key, requiredText c.body.idempotencyKey 200 "invalid_vote_idempotency_key" = .ok key →
        ∃ w, lookup c key d₅ = some w) :
    (c.request sha256).Quiet seen := by
  unfold VoteCall.request Handler.request castVote
  refine quiet_bind.mpr (quiet_ofExcept.mpr fun key hkey => ?_)
  refine quiet_bind.mpr (quiet_select.mpr fun d₁ rest₁ h₁ => ?_)
  refine quiet_bind.mpr (quiet_orElse.mpr fun round _ => ?_)
  refine quiet_bind.mpr (quiet_select.mpr fun d₂ rest₂ h₂ => ?_)
  refine quiet_bind.mpr (quiet_require.mpr fun _ => ?_)
  refine quiet_bind.mpr (quiet_select.mpr fun d₃ rest₃ h₃ => ?_)
  refine quiet_bind.mpr (quiet_require.mpr fun _ => ?_)
  refine quiet_bind.mpr (quiet_select.mpr fun d₄ rest₄ h₄ => ?_)
  refine quiet_bind.mpr (quiet_require.mpr fun _ => ?_)
  refine quiet_bind.mpr (quiet_select.mpr fun d₅ rest₅ h₅ => ?_)
  subst h₁ h₂ h₃ h₄ h₅
  rcases h _ _ _ _ _ _ rfl with rfl | hfound
  · exact quiet_nil _
  · obtain ⟨w, hw⟩ := hfound key hkey
    unfold lookup at hw
    rw [hw]
    refine quiet_bind.mpr (quiet_select.mpr fun _ _ _ => ?_)
    exact quiet_bind.mpr (quiet_require.mpr fun _ => trivial)

/-- A call that is readmitted replays the vote. -/
theorem replays_of_readmitted (hstored : Stored sha256 c v)
    (hanswer : (c.request sha256).answer seen = some answer)
    (hviews : ∀ n, (c.request sha256).Quiet (seen.take n) →
      (seen.take n).Pairwise Kept ∧ ∀ view ∈ seen.take n, Inv view)
    (h : Readmitted c v seen) : Replays sha256 c v answer seen := by
  match seen, h with
  | d₁ :: d₂ :: d₃ :: d₄ :: d₅ :: rest, ⟨⟨round, hround, hwindow, hallowed⟩, heligible, hv⟩ =>
    obtain ⟨hvround, hvvoter, hcontestant, hkey, hhash⟩ := hstored
    have hfirst := hviews 5 (quiet_request fun _ _ _ _ _ _ heq => .inl (by simp_all))
    have hinv : Inv d₅ := hfirst.2 d₅ (by simp)
    have hfind : lookup c v.idempotencyKey d₅ = some v := by
      unfold lookup
      rw [← hvround, ← hvvoter]
      exact find_vote hinv.voters hv
    have hquiet (more : List Database) : (c.request sha256).Quiet (d₁ :: d₂ :: d₃ :: d₄ :: d₅ :: more) := by
      refine quiet_request fun _ _ _ _ _ _ heq => .inr fun key hkey' => ⟨v, ?_⟩
      simp only [List.cons.injEq] at heq
      obtain ⟨-, -, -, -, rfl, -⟩ := heq
      obtain rfl := Except.ok.inj (hkey'.symm.trans hkey)
      exact hfind
    refine ⟨?_, hquiet rest⟩
    unfold VoteCall.request Handler.request castVote at hanswer
    unfold lookup at hfind
    obtain ⟨hopen, hopens, hcloses⟩ := hwindow
    simp only [answer_bind, valid, hkey, answer_ofExcept, Except.ok.injEq, exists_eq_left', reduceCtorEq,
      false_and, exists_false, or_false, answer_select_cons, answer_orElse, hround, Option.some.injEq,
      answer_require, hopen, decide_true, hopens, hcloses, Bool.and_self, if_true, heligible.1,
      heligible.2, hallowed, hfind] at hanswer
    obtain ⟨d₆, more, rfl, hlast⟩ := answer_select.mp hanswer
    -- the vote is still there when its hash is read
    have hsecond := hviews 6 (hquiet [d₆])
    have hpairs : ([d₁, d₂, d₃, d₄] ++ [d₅, d₆]).Pairwise Kept := hsecond.1
    have hkept : Kept d₅ d₆ := by simpa using (List.pairwise_append.mp hpairs).2.1
    have hids : (d₆.votes.map (·.id)).Nodup := (hsecond.2 d₆ (by simp)).ids
    have hagain : d₆.votes.find? (·.id = v.id) = some v := find?_key hids (hkept hv)
    simp only [hagain, Option.map_some, answer_bind, answer_require, hhash, decide_true, if_true] at hlast
    exact (Option.some.inj hlast).symm

theorem voteViolation_error {db : Database} {w : Vote} {r : Result} (h : voteViolation w db = some r) :
    ∃ e, r = .error e := by
  unfold voteViolation at h
  split at h
  · exact ⟨_, (Option.some.inj h).symm⟩
  · split at h
    · exact ⟨_, (Option.some.inj h).symm⟩
    · cases h

/-- A call that replays the vote was readmitted. -/
theorem readmitted_of_replays {db : Database} (hv : v ∈ db.votes) (hids : (db.votes.map (·.id)).Nodup)
    (hanswer : (c.request sha256).answer seen = some answer)
    (hviews : ∀ n, (c.request sha256).Quiet (seen.take n) → ∀ view ∈ seen.take n, Kept view db)
    (h : Replays sha256 c v answer seen) : Readmitted c v seen := by
  obtain ⟨rfl, -⟩ := h
  have hearlier := hviews 5
  unfold VoteCall.request Handler.request castVote at hanswer
  simp only [answer_bind, valid, answer_ofExcept, answer_select, answer_orElse, answer_require] at hanswer
  rcases hanswer with ⟨key, hkey, d₁, rest₁, rfl, hanswer⟩ | ⟨err, -, herr⟩
  swap
  · cases herr
  rcases hanswer with ⟨round, hround, d₂, rest₂, rfl, hanswer⟩ | ⟨-, herr⟩
  swap
  · cases herr
  split at hanswer
  swap
  · cases hanswer
  rename_i hwindow
  obtain ⟨d₃, rest₃, rfl, hanswer⟩ := hanswer
  split at hanswer
  swap
  · cases hanswer
  rename_i heligible
  obtain ⟨d₄, rest₄, rfl, hanswer⟩ := hanswer
  split at hanswer
  swap
  · cases hanswer
  rename_i hallowed
  obtain ⟨d₅, rest₅, rfl, hanswer⟩ := hanswer
  simp only [Bool.and_eq_true, decide_eq_true_eq] at hwindow heligible
  refine ⟨⟨round, hround, ⟨hwindow.1.1, hwindow.1.2, hwindow.2⟩, hallowed⟩, heligible, ?_⟩
  cases hfound : d₅.votes.find? fun w => w.roundId = c.roundId && w.voterUserId = c.voterUserId &&
      w.idempotencyKey = key with
  | none =>
    -- a new vote is answered as such
    rw [hfound] at hanswer
    obtain ⟨d₆, rest₆, rfl, hinsert⟩ := answer_select.mp (answer_bind.mp hanswer)
    obtain ⟨d₇, rest₇, rfl, hinserted⟩ := answer_insert.mp (answer_bind.mp hinsert)
    rcases hinserted with herr | ⟨-, hcreated⟩
    · obtain ⟨e, he⟩ := voteViolation_error herr
      cases he
    · cases Option.some.inj hcreated
  | some w =>
    rw [hfound] at hanswer
    obtain ⟨d₆, rest₆, rfl, hchecked⟩ := answer_select.mp (answer_bind.mp hanswer)
    rw [answer_bind, answer_require] at hchecked
    split at hchecked
    swap
    · cases hchecked
    have hreceipt : Response.receipt false w.receipt = .receipt false v.receipt :=
      Except.ok.inj (Option.some.inj hchecked)
    have hid : w.id = v.id := congrArg VoteReceipt.voteId (Response.receipt.inj hreceipt).2
    have hw : w ∈ d₅.votes := List.mem_of_find?_eq_some hfound
    have hkept : Kept d₅ db := hearlier (quiet_request fun _ _ _ _ _ _ heq => .inl (by simp_all)) d₅ (by simp)
    rw [← List.inj_on_of_nodup_map hids (hkept hw) hv hid]
    exact hw

/-- **A resubmitted vote is answered with its receipt exactly if it is readmitted**, in every run next
to any other requests. It never adds a vote: the voter's one vote in the round is the one that was
accepted. -/
theorem resubmission_replays_iff {db₀ : Database} (h₀ : Inv db₀)
    {pool : Pool Database Row Site (Record (Option VoteCall) Result Database)}
    {actions : List (Action Database Row Site (Record (Option VoteCall) Result Database))}
    (hrun : Run (Pool.Step (Recording (Calls sha256 tallyText)) fun _ _ => True) (Pool.idle db₀)
      actions pool)
    {t : Thread Database Row Site (Record (Option VoteCall) Result Database)} (ht : t ∈ pool.threads)
    (hended : t.prog = .ret ⟨some c, answer, seen⟩) (hv : v ∈ pool.db.votes) (hstored : Stored sha256 c v) :
    (Replays sha256 c v answer seen ↔ Readmitted c v seen) ∧
      ∀ w ∈ pool.db.votes, w.roundId = c.roundId → w.voterUserId = c.voterUserId → w = v := by
  have hsafe : ∀ tag p, Calls sha256 tallyText tag p → SafeRequest Inv Guarantee (fun _ _ => True) p := by
    intro tag p hp
    cases hp with
    | castVote c => exact safe_castVote _ _ _ _
    | other h => exact safe_request h
  obtain ⟨hinv, p, hp, hanswer, hviews⟩ :=
    run_heard (R := Kept) hsafe (fun _ _ _ _ _ hG => hG.kept) h₀ hrun ht hended
  cases hp
  refine ⟨⟨fun h => ?_, fun h => ?_⟩, fun w hw hround hvoter => ?_⟩
  · exact readmitted_of_replays hv hinv.ids hanswer
      (fun n hquiet view hview => ((hviews n hquiet).2 view hview).2) h
  · exact replays_of_readmitted hstored hanswer
      (fun n hquiet => ⟨(hviews n hquiet).1, fun view hview => ((hviews n hquiet).2 view hview).1⟩) h
  · exact List.inj_on_of_nodup_map hinv.voters hw hv
      (Prod.ext (hround.trans hstored.round.symm) (hvoter.trans hstored.voter.symm))

/-! ### A retry in time, and one after the close -/

def firstCall : VoteCall := ⟨20, 1, ⟨10, "k"⟩, 40⟩

/-- The same request, which draws another id. -/
def retryCall : VoteCall := { firstCall with voteId := 41 }

abbrev Recorded := Action Database Row Site (Record (Option VoteCall) Result Database)

/-- A call runs alone, for a number of steps. -/
def calls (c : VoteCall) (steps : Nat) : List Recorded :=
  .spawn ((c.request electionSha256).recorded (some c) []) :: List.replicate steps (.step 0)

/-- The vote is accepted and comes again. -/
def promptRetry : List Recorded := calls firstCall 9 ++ calls retryCall 7

/-- The vote is accepted, the round closes, and the vote comes again. -/
def lateRetry : List Recorded :=
  calls firstCall 9 ++ .spawn (closeRequest.recorded none []) :: List.replicate 6 (.step 0) ++
    calls retryCall 2

theorem recording_retries {q : Prog Database Row Site (Record (Option VoteCall) Result Database)}
    (h : .spawn q ∈ promptRetry ∨ .spawn q ∈ lateRetry) :
    Recording (Calls electionSha256 electionTallyText) q := by
  have hall : q = (firstCall.request electionSha256).recorded (some firstCall) [] ∨
      q = (retryCall.request electionSha256).recorded (some retryCall) [] ∨
      q = closeRequest.recorded none [] := by
    simp only [promptRetry, lateRetry, calls, List.mem_append, List.mem_cons, Action.spawn.injEq,
      List.mem_replicate, reduceCtorEq, and_false, or_false, or_assoc] at h
    tauto
  rcases hall with rfl | rfl | rfl
  · exact ⟨_, _, .castVote firstCall, rfl⟩
  · exact ⟨_, _, .castVote retryCall, rfl⟩
  · exact ⟨none, _, .other (.voting (.transitionRound _ _ _ _)), rfl⟩

theorem electionDatabase_inv : Inv electionDatabase where
  ids := by decide
  voters := by decide

instance (sha256 : Sha256) (c : VoteCall) (v : Vote) : Decidable (Stored sha256 c v) :=
  decidable_of_iff (v.roundId = c.roundId ∧ v.voterUserId = c.voterUserId ∧
      v.pageantContestantId = c.body.pageantContestantId ∧
      requiredText c.body.idempotencyKey 200 "invalid_vote_idempotency_key" = .ok v.idempotencyKey ∧
      v.requestSha256 = hashText sha256
        (voteRequestText c.roundId c.voterUserId c.body.pageantContestantId v.idempotencyKey))
    ⟨fun ⟨h₁, h₂, h₃, h₄, h₅⟩ => ⟨h₁, h₂, h₃, h₄, h₅⟩, fun ⟨h₁, h₂, h₃, h₄, h₅⟩ => ⟨h₁, h₂, h₃, h₄, h₅⟩⟩

instance (c : VoteCall) (v : Vote) (seen : List Database) : Decidable (Readmitted c v seen) := by
  unfold Readmitted
  split
  · exact inferInstanceAs (Decidable ((∃ round ∈ (_ : Option Round), _) ∧ (_ ∧ _) ∧ _))
  · exact inferInstanceAs (Decidable False)

theorem promptRetry_outcome : ((Pool.idle electionDatabase).replay (fun _ _ => True) promptRetry).any
    (fun pool => pool.threads.any fun t => t.prog.ended?.any fun r => pool.db.votes.any fun v =>
      decide (r.request = some retryCall) && decide (Stored electionSha256 retryCall v) &&
        decide (Readmitted retryCall v r.seen)) = true := by
  decide +kernel

/-- In time the retry gets the receipt. -/
theorem promptRetry_replays :
    ∃ pool actions t answer seen v,
      Run (Pool.Step (Recording (Calls electionSha256 electionTallyText)) fun _ _ => True)
        (Pool.idle electionDatabase) actions pool ∧
      t ∈ pool.threads ∧ t.prog = .ret ⟨some retryCall, answer, seen⟩ ∧ v ∈ pool.db.votes ∧
      Replays electionSha256 retryCall v answer seen := by
  obtain ⟨pool, hreplay, houtcome⟩ := (Option.any_eq_true _ _).mp promptRetry_outcome
  have hrun := Pool.run_of_replay (fun _ hq => recording_retries (.inl hq)) hreplay
  obtain ⟨t, ht, houtcome⟩ := List.any_eq_true.mp houtcome
  obtain ⟨r, hended, houtcome⟩ := (Option.any_eq_true _ _).mp houtcome
  obtain ⟨v, hv, houtcome⟩ := List.any_eq_true.mp houtcome
  simp only [Bool.and_eq_true, decide_eq_true_eq] at houtcome
  obtain ⟨⟨hrequest, hstored⟩, hreadmitted⟩ := houtcome
  obtain ⟨request, answer, seen⟩ := r
  obtain rfl : request = some retryCall := hrequest
  have hprog := Prog.ended_iff.mp hended
  exact ⟨pool, _, t, answer, seen, v, hrun, ht, hprog, hv,
    (resubmission_replays_iff electionDatabase_inv hrun ht hprog hv hstored).1.mpr hreadmitted⟩

theorem lateRetry_outcome : ((Pool.idle electionDatabase).replay (fun _ _ => True) lateRetry).any
    (fun pool => pool.threads.any fun t => t.prog.ended?.any fun r => pool.db.votes.any fun v =>
      decide (r.request = some retryCall) && decide (Stored electionSha256 retryCall v) &&
        decide (r.answer = .error .votingClosed)) = true := by
  decide +kernel

/-- After the round has closed it is refused. -/
theorem late_retry_refused :
    ¬ ∀ (sha256 : Sha256) (tallyText : List TallyEntry → ByteArray) (db₀ : Database), Inv db₀ →
      ∀ (pool : Pool Database Row Site (Record (Option VoteCall) Result Database))
        (actions : List Recorded),
        Run (Pool.Step (Recording (Calls sha256 tallyText)) fun _ _ => True) (Pool.idle db₀) actions pool →
        ∀ t ∈ pool.threads, ∀ c answer seen, t.prog = .ret ⟨some c, answer, seen⟩ →
          ∀ v ∈ pool.db.votes, Stored sha256 c v → Replays sha256 c v answer seen := by
  intro h
  obtain ⟨pool, hreplay, houtcome⟩ := (Option.any_eq_true _ _).mp lateRetry_outcome
  have hrun := Pool.run_of_replay (fun _ hq => recording_retries (.inr hq)) hreplay
  obtain ⟨t, ht, houtcome⟩ := List.any_eq_true.mp houtcome
  obtain ⟨r, hended, houtcome⟩ := (Option.any_eq_true _ _).mp houtcome
  obtain ⟨v, hv, houtcome⟩ := List.any_eq_true.mp houtcome
  simp only [Bool.and_eq_true, decide_eq_true_eq] at houtcome
  obtain ⟨⟨hrequest, hstored⟩, hclosed⟩ := houtcome
  obtain ⟨request, answer, seen⟩ := r
  obtain rfl : request = some retryCall := hrequest
  have hreplays := h _ _ _ electionDatabase_inv _ _ hrun t ht _ _ _ (Prog.ended_iff.mp hended) v hv hstored
  cases hreplays.1.symm.trans hclosed

end CrownFi.Voting.Ballots
