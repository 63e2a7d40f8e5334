import CrownFi.Markets.Bystanders
import CrownFi.Markets.Settled

/-!
# CrownFi.Markets.MarketCap

**The exposure of a market stays within its limit.** A stake is accepted with its market locked,
so the sum that the handler compares with the limit is the sum that it commits to; the other
requests only ever close positions. So the active positions of a market never add up to more than
its limit, in any interleaving. An intent yields one position at most, since its evidence is
accepted once, and evidence that is refused has changed nothing.
-/

namespace CrownFi.Markets

open Lib CrownFi.Api Positions

variable {ext : External}

/-! ### The invariant -/

/-- The active positions of every market are within its limit. -/
def Capped (db : Database) : Prop :=
  ∀ id m, marketTable.find db id = some m → activeTotal id db ≤ m.maxMarketExposureMinor

/-- Exact books of stakes, with every market within its limit. -/
structure CappedBooks (db : Database) : Prop where
  books : StakeBooks db
  capped : Capped db

section Changes

variable {db db' : Database} {L : List (Lock Row)} {closes : Position → Position → Prop}

/-- Changes of statuses keep the books. -/
theorem StakeBooks.aside (h : StakeBooks db) (ha : Aside closes L db db')
    (hsame : ∀ p p', closes p p' → p' = { p with status := p'.status }) : StakeBooks db' where
  evidenceIds := ha.evidence ▸ h.evidenceIds
  evidenceIntents := ha.evidence ▸ h.evidenceIntents
  evidenceHashes := ha.evidence ▸ h.evidenceHashes
  evidenceEvents := ha.evidence ▸ h.evidenceEvents
  positionIntents := by
    have hmap : db'.positions.map (·.stakeIntentId) = db.positions.map (·.stakeIntentId) :=
      forall₂_map_eq ha.positions fun p p' hp => by rw [hsame p p' hp]
    exact hmap ▸ h.positionIntents
  backed p' hp' := by
    obtain ⟨p, hp, hcloses⟩ := forall₂_exists ha.positions hp'
    obtain ⟨e, he, hbacked⟩ := h.backed p hp
    rw [hsame p p' hcloses, ha.evidence]
    exact ⟨e, he, hbacked⟩
  amounts p' hp' := by
    obtain ⟨p, hp, hcloses⟩ := forall₂_exists ha.positions hp'
    rw [hsame p p' hcloses]
    exact h.amounts p hp

/-- A position that is closed counts no more. -/
theorem activeIn_closes {p p' : Position} (h : Closes p p') (hp : 0 < p.amountMinor) (id : Uuid) :
    activeIn id p' ≤ activeIn id p := by
  rw [h.same, activeIn, activeIn]
  rcases h.status with heq | hne
  · rw [heq]
  · rw [decide_eq_false hne, Bool.and_false, if_neg Bool.false_ne_true]
    split <;> omega

theorem activeTotal_aside (h : StakeBooks db) (ha : Aside Closes L db db') (id : Uuid) :
    activeTotal id db' ≤ activeTotal id db :=
  total_forall₂_le ha.positions fun p hp _ hcloses => activeIn_closes hcloses (h.amounts p hp) id

theorem CappedBooks.aside (h : CappedBooks db) (ha : Aside Closes L db db') : CappedBooks db' where
  books := h.books.aside ha fun _ _ hcloses => hcloses.same
  capped id m' hm' := by
    have hlimits := ha.limits id
    rw [hm'] at hlimits
    obtain ⟨m, hm, hlimit⟩ := Option.map_eq_some_iff.mp hlimits.symm
    have hlimit : m.maxMarketExposureMinor = m'.maxMarketExposureMinor := hlimit
    rw [← hlimit]
    exact (activeTotal_aside h.books ha id).trans (h.capped id m hm)

theorem guarantee_aside (h : CappedBooks db) (ha : Aside Closes L db db') : StakeGuarantee L db db' where
  framed := ha.framed
  moved := ⟨fun id _ => activeTotal_aside h.books ha id, congrArg _ ha.outcomes⟩

/-- An accepted stake keeps its market within the limit. -/
theorem CappedBooks.accepts (h : CappedBooks db) (hbooks : StakeBooks db') {own : StakeIntent → PositionEvidence → Prop}
    (ha : AcceptsStake own db db') :
    CappedBooks db' where
  books := hbooks
  capped := by
    rcases ha with rfl | ⟨i, limit, e, p, acceptedAt, ha, -, rfl⟩
    · exact h.capped
    · intro id m hm
      rw [activeTotal_accepted ha]
      by_cases hid : i.marketId = id
      · subst hid
        have hlimit := ha.limited
        rw [show marketTable.find db i.marketId = some m from hm, Option.map_some,
          Option.some.injEq] at hlimit
        rw [if_pos rfl, hlimit]
        exact ha.within
      · rw [if_neg hid, add_zero]
        exact h.capped id m hm

end Changes

/-! ### The requests -/

/-- The requests with evidence, and those beside them. -/
def stakeOperations : List Operation := .acceptPositionEvidence :: asides

theorem safe_stakeRequest {p : Prog Database Row Site Result} (hp : Requests ext stakeOperations p) :
    SafeRequest CappedBooks StakeGuarantee (fun _ _ => True) p := by
  obtain ⟨operation, hmem, hp⟩ := hp
  rcases List.mem_cons.mp hmem with rfl | hmem
  · cases hp with
    | acceptPositionEvidence marketId body ids =>
        refine (acceptPositionEvidence_outline owns_any marketId body ids).refine (fun _ h => h.books)
          (fun _ _ _ hG => hG) fun L db db' hI hbooks hG => ?_
        exact ⟨hI.accepts hbooks hG.2, hG.1⟩
  · refine (confined_aside sparesClosing_aside ⟨operation, hmem, hp⟩).safeRequest ?_ ?_
    · exact fun L db db' ha hI => hI.aside ha
    · exact fun L db db' ha hI => guarantee_aside hI ha

theorem discards_activatePosition {p : Position} {bad : Result → Prop}
    {k : PUnit → Prog Database Row Site Result} (h : (k ⟨⟩).Discards bad) :
    Prog.Discards bad (activatePosition p k) := by
  intro view
  beta_reduce
  split
  · trivial
  · exact h

/-- A request with evidence that is refused has committed nothing. -/
theorem discards_acceptPositionEvidence (marketId : Uuid) (body : AcceptPositionEvidenceRequest)
    (ids : PositionIds) : (acceptPositionEvidence marketId body ids).request.Discards Refused := by
  unfold Handler.request acceptPositionEvidence loadEvidenceTx
  refine Tx.discards_bind (Tx.discards_ofExcept fun stake => ?_)
  refine Tx.discards_bind (Tx.discards_stmt fun began => ?_)
  refine Tx.discards_bind (Tx.discards_bind (Tx.discards_stmt fun row => Tx.discards_orElse fun c => ?_))
  refine Tx.discards_bind (Tx.discards_require ?_)
  refine Tx.discards_bind (Tx.discards_stmt fun existing => ?_)
  -- what follows a commit answers the accepted evidence
  have hend (r : Response) : ¬ Refused (.ok r) := id
  cases existing with
  | some existing =>
      refine Tx.discards_bind (Tx.discards_require ?_)
      exact Tx.discards_bind (Tx.discards_commit (hend _))
  | none =>
      refine Tx.discards_bind (Tx.discards_require ?_)
      refine Tx.discards_bind (Tx.discards_require ?_)
      refine Tx.discards_bind (Tx.discards_stmt fun _ => ?_)
      refine Tx.discards_bind (Tx.discards_orElse fun current => ?_)
      refine Tx.discards_bind (Tx.discards_require ?_)
      refine Tx.discards_bind (Tx.discards_stmt fun acceptedAt => ?_)
      unfold acceptStake insertPositionEvidence Stakes.updateStakeIntent
      refine Tx.discards_bind (Tx.discards_insert ?_)
      refine Tx.discards_bind (discards_activatePosition ?_)
      refine Tx.discards_bind (Tx.discards_bind (Tx.discards_update fun _ => ?_))
      refine Tx.discards_bind (Tx.discards_update fun _ => ?_)
      exact Tx.discards_bind (Tx.discards_commit (hend _))

/-! ### Every run -/

/-- What is promised of markets and their positions: each market is within its limit, an intent
yields one position at most, and so does a transaction, and an operation in it. -/
structure ExposureKept (db : Database) : Prop where
  capped : Capped db
  once : ∀ p ∈ db.positions, ∀ p' ∈ db.positions, p.stakeIntentId = p'.stakeIntentId → p = p'
  backed : ∀ p ∈ db.positions, ∃ e ∈ db.positionEvidence, p.acceptedEvidenceId = some e.id
  apart : ∀ p ∈ db.positions, ∀ p' ∈ db.positions, ∀ e ∈ db.positionEvidence,
    ∀ e' ∈ db.positionEvidence, p.acceptedEvidenceId = some e.id → p'.acceptedEvidenceId = some e'.id →
    e.txHash = e'.txHash ∨ e.contractEventId = e'.contractEventId → p = p'

theorem StakeBooks.once {db : Database} (h : StakeBooks db) {p p' : Position} (hp : p ∈ db.positions)
    (hp' : p' ∈ db.positions) (hintent : p.stakeIntentId = p'.stakeIntentId) : p = p' :=
  List.inj_on_of_nodup_map h.positionIntents hp hp' hintent

/-- The evidence of a position is about its intent. -/
theorem StakeBooks.intent_of_evidence {db : Database} (h : StakeBooks db) {p : Position}
    {e : PositionEvidence} (hp : p ∈ db.positions) (he : e ∈ db.positionEvidence)
    (hbacked : p.acceptedEvidenceId = some e.id) : p.stakeIntentId = e.stakeIntentId := by
  obtain ⟨f, hf, hid, hintent⟩ := h.backed p hp
  rw [hbacked, Option.some.injEq] at hid
  rw [hintent, List.inj_on_of_nodup_map h.evidenceIds hf he hid.symm]

theorem CappedBooks.kept {db : Database} (h : CappedBooks db) : ExposureKept db where
  capped := h.capped
  once _ hp _ hp' := h.books.once hp hp'
  backed p hp := by
    obtain ⟨e, he, hbacked, -⟩ := h.books.backed p hp
    exact ⟨e, he, hbacked⟩
  apart p hp p' hp' e he e' he' hbacked hbacked' hshared := by
    have hsame : e = e' := by
      rcases hshared with hhash | hevent
      · exact List.inj_on_of_nodup_map h.books.evidenceHashes he he' hhash
      · exact List.inj_on_of_nodup_map h.books.evidenceEvents he he' hevent
    subst hsame
    refine h.books.once hp hp' ?_
    rw [h.books.intent_of_evidence hp he hbacked, h.books.intent_of_evidence hp' he hbacked']

/-- **The exposure of every market stays within its limit**, no intent, transaction or operation
yields two positions, and refused evidence changes nothing, in every run. -/
theorem market_exposure_kept {db₀ : Database} (h₀ : CappedBooks db₀)
    {pool : Pool Database Row Site Result} {actions : List (Action Database Row Site Result)}
    (hrun : Run (Pool.Step (Requests ext stakeOperations) fun _ _ => True) (Pool.idle db₀) actions pool) :
    ExposureKept pool.db ∧
      ∀ (marketId : Uuid) (body : AcceptPositionEvidenceRequest) (ids : PositionIds),
        (acceptPositionEvidence marketId body ids).request.Discards Refused := by
  refine ⟨?_, discards_acceptPositionEvidence⟩
  exact (run_healthy (fun _ => safe_stakeRequest) hrun (healthy_idle h₀)).inv.kept

theorem resolvedMarket_capped : CappedBooks resolvedMarket where
  books := by
    constructor <;> decide
  capped id m hm := by
    obtain ⟨hmem, hid⟩ := marketTable.find_mem hm
    obtain rfl := List.mem_singleton.mp hmem
    subst hid
    decide

theorem stakeLate_outcome :
    (Pool.serveAll (fun _ _ => True) resolvedMarket [stakeLate, stakeLate]).any
      (fun served => served.2.positions.map (·.status) = [.active, .active]) = true := by
  decide +kernel

/-- The evidence of a stake comes twice. -/
theorem stakeLate_kept :
    ∃ (pool : Pool Database Row Site Result) (actions : List (Action Database Row Site Result)),
      Run (Pool.Step (Requests marketExternal stakeOperations) fun _ _ => True)
        (Pool.idle resolvedMarket) actions pool ∧
      pool.db.positions.map (·.status) = [.active, .active] ∧ ExposureKept pool.db := by
  obtain ⟨served, hserved, hstatus⟩ := (Option.any_eq_true _ _).mp stakeLate_outcome
  have hrequests : ∀ p ∈ [stakeLate, stakeLate], Requests marketExternal stakeOperations p := by
    intro p hp
    obtain rfl : p = stakeLate := by simpa using hp
    exact ⟨_, by decide, .acceptPositionEvidence 20 lateStakeRequest ⟨61, 51⟩⟩
  obtain ⟨actions, hrun⟩ := Pool.run_of_serveAll hrequests hserved
  exact ⟨_, actions, hrun, of_decide_eq_true hstatus, (market_exposure_kept resolvedMarket_capped hrun).1⟩

end CrownFi.Markets
