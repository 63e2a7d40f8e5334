import CrownFi.Lib.Confined
import CrownFi.Lib.Sums
import CrownFi.Lib.Tracking
import CrownFi.Markets.Plans
import CrownFi.Markets.Requests

/-!
# CrownFi.Markets.Accepting

**What an accepted stake does.** The evidence of a stake is accepted under locks on its intent and
on its market. This module says once what such a transaction commits, in terms of the state that
it commits to (`Acceptance`, `accepted`): the intent is still submitted, nothing about it was
accepted before, and the active positions of the market have room for it. What is true of every
run with such transactions is then a matter of that one change.

The outline relies on little: rows and keys change under their locks, the active positions of a
market add up to no more unless the market is locked, and outcomes stay.
-/

namespace CrownFi.Markets

open Lib CrownFi.Api Positions

/-! ### What locks protect -/

/-- What the rows and keys around a stake are. -/
inductive StakePart
  | limit (maxMarketExposureMinor : Option Int)
  | intent (i : Option StakeIntent)
  | taken (b : Bool)
  | other

def stakePart (db : Database) : Row → StakePart
  | .market id => .limit ((marketTable.find db id).map (·.maxMarketExposureMinor))
  | .stakeIntent id => .intent (stakeIntentTable.find db id)
  | .positionEvidence id => .taken (db.positionEvidence.any (·.id = id))
  | .positionEvidenceOf id => .taken (db.positionEvidence.any (·.stakeIntentId = id))
  | .positionTransaction hash => .taken (db.positionEvidence.any (·.txHash = hash))
  | .contractEvent id => .taken (db.positionEvidence.any (·.contractEventId = id))
  | .positionOf id => .taken (db.positions.any (·.stakeIntentId = id))
  | _ => .other

theorem intentLayout : Layout stakePart stakeIntentTable StakePart.intent where
  row _ _ := rfl
  injective _ _ h := StakePart.intent.inj h
  other db l k hk := by
    cases k with
    | stakeIntent id => exact absurd rfl (hk id)
    | _ => rfl

section Keys

variable {L : List (Lock Row)} {db : Database} {e : PositionEvidence} {p : Position}

/-- An insert of evidence, under the locks of its keys. -/
theorem framed_addEvidence
    (hkeys : ∀ k ∈ [Row.positionEvidence e.id, .positionEvidenceOf e.stakeIntentId,
      .positionTransaction e.txHash, .contractEvent e.contractEventId], ⟨k, .update⟩ ∈ L) :
    Framed stakePart L db (positionEvidenceTable.add e db) := by
  have hfree (k : Row) (hk : NotWritten L k) (hkey : k ∈ [Row.positionEvidence e.id,
      .positionEvidenceOf e.stakeIntentId, .positionTransaction e.txHash,
      .contractEvent e.contractEventId]) : False := by
    have := hk _ (hkeys k hkey) rfl
    cases this
  have hany {q : PositionEvidence → Bool} (hq : q e = false) :
      (db.positionEvidence ++ [e]).any q = db.positionEvidence.any q := by
    rw [List.any_append, List.any_cons, hq, List.any_nil, Bool.or_false, Bool.or_false]
  intro k hk
  cases k with
  | positionEvidence id =>
      refine congrArg StakePart.taken (hany (decide_eq_false ?_))
      rintro rfl
      exact hfree _ hk (by simp)
  | positionEvidenceOf id =>
      refine congrArg StakePart.taken (hany (decide_eq_false ?_))
      rintro rfl
      exact hfree _ hk (by simp)
  | positionTransaction hash =>
      refine congrArg StakePart.taken (hany (decide_eq_false ?_))
      rintro rfl
      exact hfree _ hk (by simp)
  | contractEvent id =>
      refine congrArg StakePart.taken (hany (decide_eq_false ?_))
      rintro rfl
      exact hfree _ hk (by simp)
  | _ => rfl

theorem rowwise_addEvidence : Rowwise stakePart (positionEvidenceTable.add e) := by
  intro k db db' heq
  have hany {q : PositionEvidence → Bool} (h : StakePart.taken (db.positionEvidence.any q) =
      StakePart.taken (db'.positionEvidence.any q)) :
      StakePart.taken ((db.positionEvidence ++ [e]).any q) =
        StakePart.taken ((db'.positionEvidence ++ [e]).any q) := by
    rw [List.any_append, List.any_append, StakePart.taken.inj h]
  cases k with
  | positionEvidence id => exact hany heq
  | positionEvidenceOf id => exact hany heq
  | positionTransaction hash => exact hany heq
  | contractEvent id => exact hany heq
  | _ => exact heq

/-- An insert of a position, under the lock of its intent's key. -/
theorem framed_addPosition (hkey : ⟨.positionOf p.stakeIntentId, .update⟩ ∈ L) :
    Framed stakePart L db (positionTable.add p db) := by
  intro k hk
  cases k with
  | positionOf id =>
      have hne : ¬ p.stakeIntentId = id := by
        rintro rfl
        have := hk _ hkey rfl
        cases this
      refine congrArg StakePart.taken ?_
      show (db.positions ++ [p]).any _ = _
      rw [List.any_append, List.any_cons, decide_eq_false hne, List.any_nil, Bool.or_false,
        Bool.or_false]
  | _ => rfl

theorem rowwise_addPosition : Rowwise stakePart (positionTable.add p) := by
  intro k db db' heq
  cases k with
  | positionOf id =>
      refine congrArg StakePart.taken ?_
      show (db.positions ++ [p]).any _ = (db'.positions ++ [p]).any _
      have htaken : db.positions.any (·.stakeIntentId = id) = db'.positions.any (·.stakeIntentId = id) :=
        StakePart.taken.inj heq
      rw [List.any_append, List.any_append, htaken]
  | _ => exact heq

end Keys

/-! ### The books of accepted stakes -/

/-- What a position counts towards the active positions of a market. -/
def activeIn (marketId : Uuid) (p : Position) : Int :=
  if p.marketId = marketId && p.status = .active then p.amountMinor else 0

/-- What the active positions of a market add up to. -/
def activeTotal (marketId : Uuid) (db : Database) : Int := total (activeIn marketId) db.positions

theorem activeExposure_eq {marketId : Uuid} {db : Database} :
    activeExposure marketId db = checkedI64 (activeTotal marketId db) := by
  rw [activeExposure, Stakes.sumMinor, sum_filter]
  rfl

/-- Every position is backed by evidence of its own intent, and evidence is accepted once. -/
structure StakeBooks (db : Database) : Prop where
  evidenceIds : (db.positionEvidence.map (·.id)).Nodup
  evidenceIntents : (db.positionEvidence.map (·.stakeIntentId)).Nodup
  evidenceHashes : (db.positionEvidence.map (·.txHash)).Nodup
  evidenceEvents : (db.positionEvidence.map (·.contractEventId)).Nodup
  positionIntents : (db.positions.map (·.stakeIntentId)).Nodup
  backed : ∀ p ∈ db.positions, ∃ e ∈ db.positionEvidence,
    p.acceptedEvidenceId = some e.id ∧ p.stakeIntentId = e.stakeIntentId
  amounts : ∀ p ∈ db.positions, 0 < p.amountMinor

/-- What the others leave alone besides locked rows. -/
structure StakeRely (L : List (Lock Row)) (db db' : Database) : Prop where
  exposure : ∀ id, NotWritten L (.market id) → activeTotal id db' ≤ activeTotal id db
  outcomes : db'.outcomes.map (·.id) = db.outcomes.map (·.id)

theorem StakeRely.refl {L : List (Lock Row)} {db : Database} : StakeRely L db db :=
  ⟨fun _ _ => le_refl _, rfl⟩

abbrev StakeGuarantee : List (Lock Row) → Database → Database → Prop := Forward stakePart StakeRely

/-! ### The change -/

/-- Nothing of the evidence is taken. -/
structure Unclaimed (e : PositionEvidence) (db : Database) : Prop where
  id : db.positionEvidence.any (·.id = e.id) = false
  intent : db.positionEvidence.any (·.stakeIntentId = e.stakeIntentId) = false
  hash : db.positionEvidence.any (·.txHash = e.txHash) = false
  event : db.positionEvidence.any (·.contractEventId = e.contractEventId) = false

/-- A stake that is accepted in the state `db`: its intent, the limit of its market, the evidence
and the new position. -/
structure Acceptance (db : Database) (i : StakeIntent) (limit : Int) (e : PositionEvidence)
    (p : Position) : Prop where
  intent : stakeIntentTable.find db i.id = some i
  submitted : i.status = .submitted
  limited : (marketTable.find db i.marketId).map (·.maxMarketExposureMinor) = some limit
  evidenceOf : e.stakeIntentId = i.id
  unclaimed : Unclaimed e db
  positionOf : p.stakeIntentId = i.id
  market : p.marketId = i.marketId
  outcome : p.outcomeId = i.outcomeId
  user : p.userId = i.userId
  amount : p.amountMinor = i.amountMinor
  active : p.status = .active
  backed : p.acceptedEvidenceId = some e.id
  positive : 0 < i.amountMinor
  within : activeTotal i.marketId db + i.amountMinor ≤ limit

/-- What is written for an accepted stake. -/
def accepted (i : StakeIntent) (e : PositionEvidence) (p : Position) (acceptedAt : Int)
    (db : Database) : Database :=
  { db with
    positionEvidence := db.positionEvidence ++ [e]
    positions := db.positions ++ [p]
    outcomes := updateWhere (·.id = i.outcomeId)
      (fun o => { o with totalActiveMinor := o.totalActiveMinor + i.amountMinor }) db.outcomes
    stakeIntents := updateWhere (fun j => j.id = i.id && true)
      ({ · with status := .confirmed, confirmedAt := some acceptedAt }) db.stakeIntents }

/-- What a request with evidence commits: nothing, or an accepted stake with evidence that is `own`
to its intent. -/
def AcceptsStake (own : StakeIntent → PositionEvidence → Prop) (db db' : Database) : Prop :=
  db' = db ∨ ∃ i limit e p acceptedAt, Acceptance db i limit e p ∧ own i e ∧
    db' = accepted i e p acceptedAt db

section Acceptance

variable {db : Database} {i : StakeIntent} {limit acceptedAt : Int} {e : PositionEvidence}
  {p : Position}

/-- An intent without evidence has no position. -/
theorem StakeBooks.unused (h : StakeBooks db) {id : Uuid}
    (hnew : db.positionEvidence.any (·.stakeIntentId = id) = false) :
    ∀ q ∈ db.positions, q.stakeIntentId ≠ id := by
  rintro q hq rfl
  obtain ⟨f, hf, -, hintent⟩ := h.backed q hq
  exact List.any_eq_false.mp hnew f hf (decide_eq_true hintent.symm)

theorem nodup_concat {α β : Type} [DecidableEq β] {key : α → β} {rows : List α} {r : α}
    (hnodup : (rows.map key).Nodup) (hnew : rows.any (key · = key r) = false) :
    ((rows ++ [r]).map key).Nodup := by
  rw [List.map_append, List.map_singleton, List.nodup_append]
  refine ⟨hnodup, List.nodup_singleton _, ?_⟩
  intro k hk k' hk' heq
  obtain ⟨s, hs, rfl⟩ := List.mem_map.mp hk
  rw [List.mem_singleton] at hk'
  exact List.any_eq_false.mp hnew s hs (decide_eq_true (heq.trans hk'))

theorem Acceptance.books (ha : Acceptance db i limit e p) (h : StakeBooks db) :
    StakeBooks (accepted i e p acceptedAt db) where
  evidenceIds := nodup_concat h.evidenceIds ha.unclaimed.id
  evidenceIntents := nodup_concat h.evidenceIntents ha.unclaimed.intent
  evidenceHashes := nodup_concat h.evidenceHashes ha.unclaimed.hash
  evidenceEvents := nodup_concat h.evidenceEvents ha.unclaimed.event
  positionIntents := by
    refine nodup_concat h.positionIntents (List.any_eq_false.mpr fun q hq hintent => ?_)
    have hnone := h.unused ha.unclaimed.intent q hq
    exact hnone ((of_decide_eq_true hintent).trans (ha.positionOf.trans ha.evidenceOf.symm))
  backed q hq := by
    rcases List.mem_append.mp hq with hq | hq
    · obtain ⟨f, hf, hbacked⟩ := h.backed q hq
      exact ⟨f, List.mem_append_left _ hf, hbacked⟩
    · obtain rfl := List.mem_singleton.mp hq
      exact ⟨e, List.mem_append_right _ (List.mem_singleton_self e), ha.backed,
        ha.positionOf.trans ha.evidenceOf.symm⟩
  amounts q hq := by
    rcases List.mem_append.mp hq with hq | hq
    · exact h.amounts q hq
    · obtain rfl := List.mem_singleton.mp hq
      rw [ha.amount]
      exact ha.positive

theorem activeTotal_accepted (ha : Acceptance db i limit e p) (id : Uuid) :
    activeTotal id (accepted i e p acceptedAt db) =
      activeTotal id db + if i.marketId = id then i.amountMinor else 0 := by
  show total _ (db.positions ++ [p]) = _
  rw [total_concat, activeTotal, activeIn, ha.active, ha.market, ha.amount]
  simp

theorem Acceptance.rely (ha : Acceptance db i limit e p) {L : List (Lock Row)}
    (hmarket : ⟨.market i.marketId, .update⟩ ∈ L) :
    StakeRely L db (accepted i e p acceptedAt db) where
  exposure id hid := by
    have hne : i.marketId ≠ id := by
      rintro rfl
      have := hid _ hmarket rfl
      cases this
    rw [activeTotal_accepted ha, if_neg hne, add_zero]
  outcomes := map_updateWhere fun _ => rfl

/-- The four writes of an accepted stake, by what their statements saw. -/
theorem accepted_eq (i : StakeIntent) (e : PositionEvidence) (p : Position) (acceptedAt : Int)
    (view₃ view₄ : Database) (houtcomes : db.outcomes.map (·.id) = view₃.outcomes.map (·.id))
    (hintent : stakeIntentTable.find view₄ i.id = some i) :
    stakeIntentTable.modify (fun j => j.id = i.id && true)
        ({ · with status := .confirmed, confirmedAt := some acceptedAt }) view₄
        (outcomeTable.modify (·.id = i.outcomeId)
          (fun o => { o with totalActiveMinor := o.totalActiveMinor + i.amountMinor }) view₃
          (positionTable.add p (positionEvidenceTable.add e db))) =
      accepted i e p acceptedAt db := by
  rw [outcomeTable.modify_eq, stakeIntentTable.modify_eq]
  · rfl
  · intro j _ hj
    have hid : j.id = i.id := by simpa using hj
    refine List.mem_map.mpr ⟨i, stakeIntentTable.mem_matching.mpr
      ⟨(stakeIntentTable.find_mem hintent).1, by simp⟩, hid.symm⟩
  · intro o ho hid
    have hmem : o.id ∈ view₃.outcomes.map (·.id) := houtcomes ▸ List.mem_map_of_mem ho
    obtain ⟨o', ho', heq⟩ := List.mem_map.mp hmem
    refine List.mem_map.mpr ⟨o', outcomeTable.mem_matching.mpr ⟨ho', ?_⟩, heq⟩
    rw [heq]
    exact hid

end Acceptance

/-! ### The outline -/

section Outline

variable {L : List (Lock Row)} {A : Database → Prop} {ok : Site → Database → Prop}
  {own : StakeIntent → PositionEvidence → Prop}

abbrev StakeTrack : List (Lock Row) → (Database → Database) → (Database → Prop) → Prop :=
  Track stakePart StakeBooks StakeRely

/-- What a request with evidence guarantees. -/
def AcceptGuarantee (own : StakeIntent → PositionEvidence → Prop) (L : List (Lock Row))
    (db db' : Database) : Prop :=
  StakeGuarantee L db db' ∧ AcceptsStake own db db'

/-- What the condition says when evidence is inserted makes it `own` to the intent. -/
def Owns (ok : Site → Database → Prop) (own : StakeIntent → PositionEvidence → Prop) : Prop :=
  ∀ db i e, stakeIntentTable.find db i.id = some i → e.stakeIntentId = i.id →
    ok (.accept e.stakeIntentId e.txHash) db → own i e

abbrev AcceptOutline (ok : Site → Database → Prop) (own : StakeIntent → PositionEvidence → Prop) :
    Prog Database Row Site Result → List (Lock Row) → (Database → Database) → (Database → Prop) → Prop :=
  Outlined StakeBooks StakeGuarantee (AcceptGuarantee own) ok fun _ _ => True

theorem owns_any : Owns ok fun _ _ => True := fun _ _ _ _ _ _ => trivial

/-- In a market that is locked the active positions add up to no more. -/
theorem stable_activeTotal {marketId : Uuid} {bound : Int} {m : LockMode}
    (hlock : ⟨.market marketId, m⟩ ∈ L) (hmode : m.protects = true) :
    Stable StakeBooks StakeGuarantee L fun db => activeTotal marketId db ≤ bound :=
  fun _ _ _ hcompat _ _ hA hG =>
    (hG.moved.exposure marketId (hcompat.not_writes hlock hmode)).trans hA

theorem stable_outcomes {ids : List Uuid} :
    Stable StakeBooks StakeGuarantee L fun db => db.outcomes.map (·.id) = ids :=
  fun _ _ _ _ _ _ hA hG => hG.moved.outcomes.trans hA

/-- What is known of the intent and the market that are locked. -/
structure Known (c : StakeIntentContext) (i : StakeIntent) (db : Database) : Prop where
  intent : stakeIntentTable.find db i.id = some i
  limited : (marketTable.find db i.marketId).map (·.maxMarketExposureMinor) =
    some c.maxMarketExposureMinor

theorem Known.of_seen {c : StakeIntentContext} {i : StakeIntent} {view now : Database}
    (h : Known c i view) (hseen : Seen stakePart L view now)
    (hintent : ⟨.stakeIntent i.id, .update⟩ ∈ L) (hmarket : ⟨.market i.marketId, .update⟩ ∈ L) :
    Known c i now where
  intent := (hseen.find intentLayout hintent rfl).trans h.intent
  limited := (StakePart.limit.inj (hseen _ hmarket rfl)).trans h.limited

/-- The context, as the rows of the intent and of its market. -/
theorem known_of_context {stakeIntentId : Uuid} {db : Database} {c : StakeIntentContext}
    (h : stakeIntentContext stakeIntentId db = some c) :
    ∃ i : StakeIntent, Known c i db ∧ i.id = stakeIntentId ∧ c.marketId = i.marketId ∧
      c.outcomeId = i.outcomeId ∧ c.userId = i.userId ∧ c.expectedAmountMinor = i.amountMinor ∧
      c.intentStatus = i.status := by
  simp only [stakeIntentContext, Option.bind_eq_bind, Option.bind_eq_some_iff] at h
  obtain ⟨i, hi, a, -, m, hm, heq⟩ := h
  obtain rfl := Option.some.inj heq
  have hid : i.id = stakeIntentId := (stakeIntentTable.find_mem hi).2
  subst hid
  exact ⟨i, ⟨hi, by rw [hm]; rfl⟩, rfl, rfl, rfl, rfl, rfl, rfl⟩

theorem unclaimed_of_violation {e : PositionEvidence} {db : Database}
    (h : positionEvidenceViolation e db = none) : Unclaimed e db := by
  unfold positionEvidenceViolation at h
  split at h
  · cases h
  · rename_i hany
    simp only [List.any_eq_true, Bool.or_eq_true, decide_eq_true_eq, not_exists, not_and, not_or] at hany
    constructor
    · exact List.any_eq_false.mpr fun f hf => by simpa using (hany f hf).1.1.1
    · exact List.any_eq_false.mpr fun f hf => by simpa using (hany f hf).1.1.2
    · exact List.any_eq_false.mpr fun f hf => by simpa using (hany f hf).1.2
    · exact List.any_eq_false.mpr fun f hf => by simpa using (hany f hf).2

theorem Unclaimed.of_seen {e : PositionEvidence} {view now : Database} (h : Unclaimed e view)
    (hseen : Seen stakePart L view now)
    (hkeys : ∀ k ∈ [Row.positionEvidence e.id, .positionEvidenceOf e.stakeIntentId,
      .positionTransaction e.txHash, .contractEvent e.contractEventId], ⟨k, .update⟩ ∈ L) :
    Unclaimed e now where
  id := (StakePart.taken.inj (hseen _ (hkeys (.positionEvidence e.id) (by simp)) rfl)).trans h.id
  intent := (StakePart.taken.inj
    (hseen _ (hkeys (.positionEvidenceOf e.stakeIntentId) (by simp)) rfl)).trans h.intent
  hash := (StakePart.taken.inj (hseen _ (hkeys (.positionTransaction e.txHash) (by simp)) rfl)).trans
    h.hash
  event := (StakePart.taken.inj
    (hseen _ (hkeys (.contractEvent e.contractEventId) (by simp)) rfl)).trans h.event

/-- What is known when a stake is about to be written. -/
structure Ready (c : StakeIntentContext) (stake : ObservedStake) (i : StakeIntent) (db : Database) :
    Prop where
  known : Known c i db
  room : activeTotal i.marketId db + stake.amountMinor ≤ c.maxMarketExposureMinor

/-- What is checked before a stake is written. -/
structure Checked (c : StakeIntentContext) (stake : ObservedStake) (i : StakeIntent) : Prop where
  id : stake.stakeIntentId = i.id
  market : c.marketId = i.marketId
  outcome : c.outcomeId = i.outcomeId
  user : c.userId = i.userId
  amount : stake.amountMinor = i.amountMinor
  positive : 0 < stake.amountMinor
  submitted : i.status = .submitted

/-- The upsert inserts the position of an intent that has none. -/
theorem safe_activateNew {G : List (Lock Row) → Database → Database → Prop}
    {pending : Database → Database} {p : Position} {k : PUnit → Prog Database Row Site Result}
    (ht : StakeTrack L pending A)
    (hnone : ∀ d, StakeBooks d → A d → Positions.positionOf p.stakeIntentId (pending d) = none)
    (next : ∀ L' B, StakeTrack L' (fun d => positionTable.add p (pending d)) B → L ⊆ L' →
      (∀ d, B d → A d) →
      Outlined StakeBooks StakeGuarantee G ok (fun _ _ => True) (k ⟨⟩) L'
        (fun d => positionTable.add p (pending d)) B) :
    Outlined StakeBooks StakeGuarantee G ok (fun _ _ => True) (activatePosition p k) L pending A := by
  refine Lib.safe_step fun db hI hA _ => ?_
  obtain ⟨B, hB, h⟩ := ht.after hA
  refine ⟨B, hB, h.track.stable, ?_⟩
  have heffect : activation p (pending db) = positionTable.add p := by
    rw [activation, hnone db hI hA]
  rw [heffect]
  split
  · exact safe_ret
  · refine next _ B (h.track.change (fun _ => framed_addPosition ?_) rowwise_addPosition)
      (List.subset_append_left _ _) h.before
    simp

/-- **A stake is accepted**, with its intent and its market locked. -/
theorem acceptStake_outline {c : StakeIntentContext} {stake : ObservedStake} {i : StakeIntent}
    {began acceptedAt : Int} {ids : PositionIds} (hown : Owns ok own) (ht : StakeTrack L id A)
    (hc : Checked c stake i) (hready : ∀ d, A d → Ready c stake i d)
    (hmarket : ⟨.market i.marketId, .update⟩ ∈ L) :
    AcceptOutline ok own (acceptStake c stake began acceptedAt ids fun r => .ret (.ok r)) L id A := by
  unfold acceptStake
  refine safe_bind (Lib.safe_insertRow fun db₁ _ hA hok hv => ?_)
  generalize he : (PositionEvidence.mk _ _ _ _ _ _ _ _ _ _ _) = e at *
  obtain ⟨A₁, hA₁, h₁⟩ := ht.after (L := _) hA
  refine ⟨A₁, hA₁, h₁.track.stable, ?_⟩
  have hunclaimed (d : Database) (hd : A₁ d) : Unclaimed e d :=
    (unclaimed_of_violation (raise_eq_none.mp hv)).of_seen (h₁.seen d hd) (by simp)
  have heintent : e.stakeIntentId = i.id := by rw [← he, ← hc.id]
  have howned : own i e := hown db₁ i e (hready db₁ hA).known.intent heintent hok
  have ht₁ := h₁.track.change (fun _ => framed_addEvidence (e := e) (by simp))
    rowwise_addEvidence
  generalize hp : (Position.mk _ _ _ _ _ _ _ _ _ _ _ _) = p
  have hpintent : p.stakeIntentId = i.id := by rw [← hp, ← hc.id]
  have hunused (d : Database) (hI : StakeBooks d) (hd : A₁ d) :
      Positions.positionOf p.stakeIntentId d = none := by
    refine List.find?_eq_none.mpr fun q hq hintent => ?_
    refine hI.unused (hunclaimed d hd).intent q hq ?_
    rw [of_decide_eq_true hintent, hpintent, heintent]
  refine safe_bind (safe_activateNew ht₁ hunused fun L₂ A₂ ht₂ hsub₂ hA₂ => ?_)
  -- outcomes are only ever changed, so the update of the outcome sees all there are
  refine safe_bind (safe_bind (ht₂.safe_updateKnowing
    (fun db d => d.outcomes.map (·.id) = db.outcomes.map (·.id)) (fun _ _ _ => rfl)
    (fun _ => stable_outcomes) fun db₃ A₃ _ _ h₃ houtcomes => ?_))
  have hside (k : Row) (d : Database) : stakePart (outcomeTable.modify (·.id = c.outcomeId)
      (fun o => { o with totalActiveMinor := o.totalActiveMinor + stake.amountMinor })
      (positionTable.add p (positionEvidenceTable.add e db₃)) d) k = stakePart d k := by
    cases k <;> rfl
  have ht₃ := h₃.track.hide fun d k => hside k d
  refine safe_bind (ht₃.safe_update fun db₄ A₄ _ hA₄ _ h₄ => ?_)
  have ht₄ := h₄.track.modifyLocked intentLayout (f := fun i => { i with
      status := .confirmed, confirmedAt := some acceptedAt }) (fun _ => rfl)
    fun i => ⟨_, List.mem_singleton.mpr rfl, rfl, rfl⟩
  refine safe_bind (Lib.safe_commit (fun d hI hd => ?_) safe_ret)
  have hd₃ := h₄.before d hd
  have hd₁ := hA₂ d (h₃.before d hd₃)
  have hr := hready d (h₁.before d hd₁)
  have hview := hready db₄ (h₁.before db₄ (hA₂ db₄ (h₃.before db₄ hA₄)))
  have ha : Acceptance d i c.maxMarketExposureMinor e p := by
    refine ⟨hr.known.intent, hc.submitted, hr.known.limited, heintent, hunclaimed d hd₁, hpintent,
      ?_, ?_, ?_, ?_, ?_, ?_, ?_, ?_⟩
    · rw [← hp, ← hc.market]
    · rw [← hp, ← hc.outcome]
    · rw [← hp, ← hc.user]
    · rw [← hp, ← hc.amount]
    · rw [← hp]
    · rw [← hp, ← he]
    · rw [← hc.amount]
      exact hc.positive
    · rw [← hc.amount]
      exact hr.room
  have heq := accepted_eq i e p acceptedAt (positionTable.add p (positionEvidenceTable.add e db₃))
    (outcomeTable.modify (·.id = c.outcomeId)
      (fun o => { o with totalActiveMinor := o.totalActiveMinor + stake.amountMinor })
      (positionTable.add p (positionEvidenceTable.add e db₃))
      (positionTable.add p (positionEvidenceTable.add e db₄))) (houtcomes d hd₃) hview.known.intent
  rw [← hc.id, ← hc.outcome, ← hc.amount] at heq
  have hG := ht₄.framed d
  simp only [id_eq] at hG ⊢
  rw [heq] at hG ⊢
  refine ⟨ha.books hI, ⟨hG, ha.rely ?_⟩, .inr ⟨i, _, e, p, acceptedAt, ha, howned, rfl⟩⟩
  exact List.mem_append_left _ (List.mem_append_left _ (hsub₂ (List.mem_append_left _ hmarket)))

/-- The end of a request that wrote nothing. -/
theorem accept_nothing {k : PUnit → Prog Database Row Site Result}
    (next : AcceptOutline ok own (k ⟨⟩) [] id fun _ => True) : AcceptOutline ok own (Tx.commit k) L id A :=
  Lib.safe_commit (fun _ hI _ => ⟨hI, ⟨.refl, .refl⟩, .inl rfl⟩) next

theorem validate_positive {body : AcceptPositionEvidenceRequest} {stake : ObservedStake}
    (h : body.validate = .ok stake) : 0 < stake.amountMinor := by
  unfold AcceptPositionEvidenceRequest.validate at h
  simp only [throw_bind, bind_eq_ok, guard_eq_ok, pure_eq_ok] at h
  obtain ⟨hash, -, event, -, source, -, hguard, rfl⟩ := h
  simp only [not_or, not_le] at hguard
  exact hguard.2.1

/-- **A request with evidence** commits an accepted stake, or nothing. -/
theorem acceptPositionEvidence_outline (hown : Owns ok own) (marketId : Uuid)
    (body : AcceptPositionEvidenceRequest) (ids : PositionIds) :
    OutlinedRequest StakeBooks StakeGuarantee (AcceptGuarantee own) ok (fun _ _ => True)
      (acceptPositionEvidence marketId body ids).request := by
  unfold OutlinedRequest Handler.request acceptPositionEvidence
  refine safe_bind (safe_ofExcept fun stake hstake => ?_)
  refine safe_bind (safe_select stable_true fun _ began _ _ _ => ?_)
  refine safe_bind (safe_bind (Track.start.safe_selectFor fun db₁ A₁ row _ _ hrow h₁ => ?_))
  refine safe_orElse fun c hcontext => ?_
  obtain ⟨i, hknown, hid, hmarket, houtcome, huser, hamount, hstatus⟩ :=
    known_of_context (hrow.trans hcontext)
  -- the intent and its market are locked from here on
  have hrows : stakeIntentContext stake.stakeIntentId (id db₁) = some c := hrow.trans hcontext
  simp only [hrows, Option.toList_some, List.flatMap_cons, List.flatMap_nil, List.append_nil] at h₁ ⊢
  have hintentLock : (⟨.stakeIntent i.id, .update⟩ : Lock Row) ∈
      [] ++ [⟨.stakeIntent stake.stakeIntentId, .update⟩, ⟨.market c.marketId, .update⟩] := by
    simp [hid]
  have hmarketLock : (⟨.market i.marketId, .update⟩ : Lock Row) ∈
      [] ++ [⟨.stakeIntent stake.stakeIntentId, .update⟩, ⟨.market c.marketId, .update⟩] := by
    simp [hmarket]
  refine safe_bind (safe_require fun hsame => ?_)
  have hsame : c.marketId = marketId := of_decide_eq_true hsame
  have hasked : (⟨.market marketId, .update⟩ : Lock Row) ∈
      [] ++ [⟨.stakeIntent stake.stakeIntentId, .update⟩, ⟨.market c.marketId, .update⟩] := by
    simp [hsame]
  refine safe_bind (h₁.track.safe_selectFor fun db₂ A₂ existing _ _ _ h₂ => ?_)
  cases existing with
  | some existing => exact safe_bind (safe_require fun _ => safe_bind (accept_nothing safe_ret))
  | none =>
    refine safe_bind (safe_require fun hsubmitted => ?_)
    refine safe_bind (safe_require fun hmatches => ?_)
    simp only [Bool.and_eq_true, decide_eq_true_eq] at hsubmitted hmatches
    refine safe_bind (h₂.track.safe_stepKnowing
      (fun db d => activeTotal marketId d ≤ activeTotal marketId db) (fun _ _ _ _ => le_refl _)
      (fun db => stable_activeTotal (m := .update) (List.mem_append_left _ hasked) rfl)
      fun db₃ A₃ _ _ _ h₃ hbound => ?_)
    refine safe_bind (safe_orElse fun current hcurrent => ?_)
    refine safe_bind (safe_require fun hroom => ?_)
    have hc : Checked c stake i := by
      refine ⟨hid.symm, hmarket, houtcome, huser, ?_, validate_positive hstake, ?_⟩
      · rw [← hmatches.1, hamount]
      · rw [← hstatus, hsubmitted]
    have hready (d : Database) (hd : A₃ d) : Ready c stake i d := by
      have hd₁ := h₂.before d (h₃.before d hd)
      constructor
      · exact hknown.of_seen (h₁.seen d hd₁) hintentLock hmarketLock
      · obtain ⟨n, hn, hle⟩ := (Option.any_eq_true _ _).mp hroom
        have hcurrent : current = activeTotal marketId db₃ :=
          checkedI64_eq_some (activeExposure_eq ▸ hcurrent)
        have hn := checkedI64_eq_some hn
        have hle : n ≤ c.maxMarketExposureMinor := of_decide_eq_true hle
        have hbound := hbound d hd
        rw [← hmarket, hsame]
        omega
    refine safe_bind (safe_select h₃.track.stable fun _ acceptedAt _ _ _ => ?_)
    refine acceptStake_outline hown h₃.track hc hready ?_
    exact List.mem_append_left _ (List.mem_append_left _ hmarketLock)

end Outline

end CrownFi.Markets
