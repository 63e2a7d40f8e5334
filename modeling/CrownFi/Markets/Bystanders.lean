import CrownFi.Markets.Accepting

/-!
# CrownFi.Markets.Bystanders

**Requests that leave stakes alone.** Policy decisions, transitions, settlement plans, submissions
and settlement evidence write neither stake intents nor evidence of positions; the last of them
closes positions, and that is all. For a relation that such writes stay within (`Spares`), each of
these requests is confined to it. What is proved about stakes says once which relation it tolerates
from the others, and need not look at their handlers.

The relation that most of this development uses is `Aside`: evidence and outcomes stay, positions
change as given, and whatever else locks protect changes under its lock. Requests that create,
expire or submit intents are aside as well.
-/

namespace CrownFi.Markets

open Lib CrownFi.Api Governance Positions Settlement

/-- Changes that are no matter of stakes stay within the relation: whatever happens to decisions,
the log, runs, items and their evidence, and to the status and the winner of markets. -/
structure Spares (moves : List (Lock Row) → Database → Database → Prop) : Prop where
  decisions : ∀ L db l, moves L db (decisionTable.put db l)
  governance : ∀ L db l, moves L db (governanceTable.put db l)
  runs : ∀ L db l, moves L db (runTable.put db l)
  items : ∀ L db l, moves L db (itemTable.put db l)
  settlementEvidence : ∀ L db l, moves L db (settlementEvidenceTable.put db l)
  markets : ∀ (L : List (Lock Row)) (view db : Database) (p : Market → Bool) (f : Market → Market),
    (∀ m, f m = { m with status := (f m).status, winningOutcomeId := (f m).winningOutcomeId }) →
    moves L db (marketTable.modify p f view db)

/-- The update at the end of a settlement stays within the relation. -/
def SparesClosing (ok : Site → Database → Prop)
    (moves : List (Lock Row) → Database → Database → Prop) : Prop :=
  ∀ (marketId : Uuid) (kind : RunKind) (L : List (Lock Row)) (view db : Database),
    ok (.closePositions marketId) view →
    moves L db (positionTable.modify (fun p => p.marketId = marketId && p.status = .active)
      ({ · with status := RunKind.closes kind }) view db)

section Bystanders

variable {ext : External} {ok : Site → Database → Prop}
  {moves : List (Lock Row) → Database → Database → Prop} [Widening moves]

/-- A check of something that is read. -/
theorem confined_allowed {α : Type} {answer : Database → α} {passed : α → Bool} {r : Result} :
    Tx.Confined ok moves (do
      let value ← Tx.select .other answer
      Tx.require (passed value) r : Handler PUnit) :=
  .bind .select fun _ => .require

/-- Something that is read and has to be there. -/
theorem confined_found {α : Type} {locks : Database → List (Lock Row)} {answer : Database → Option α}
    {r : Result} :
    Tx.Confined ok moves (do
      let value ← Tx.selectFor .other locks answer
      Tx.orElse value r : Handler α) :=
  .bind .select fun _ => .orElse

omit [Widening moves] in
theorem confined_insertGovernance (h : Spares moves) {map : SqlError → ApiError}
    {e : GovernanceEvent} : Tx.Confined ok moves (insertGovernance ext.governed map e) :=
  .insertRow fun _ => h.governance _ _ _

theorem confined_recordPolicyDecision (h : Spares moves) (actorUserId marketId : Uuid)
    (body : PolicyDecisionRequest) (decisionId : Uuid) :
    (recordPolicyDecision ext actorUserId marketId body decisionId).request.Confined ok moves := by
  refine Tx.Bounded.request ?_ _
  refine .bind confined_allowed fun _ => .bind (.bind .select fun _ => .orElse) fun market => ?_
  refine .bind .select fun _ => .bind .ofExcept fun _ => .bind .select fun _ => ?_
  refine .bind .require fun _ => .bind .select fun _ => ?_
  exact .bind (.insertRow fun _ => h.decisions _ _ _) fun _ => .bind .commit fun _ => .pure

theorem confined_requireTarget {market : Market} {body : TransitionMarketRequest}
    {target : MarketStatus} {now : Int} :
    Tx.Confined ok moves (requireTarget market body target now) := by
  cases target with
  | «open» => exact .bind .require fun _ => confined_allowed
  | resolutionPending => exact .bind .require fun _ => confined_allowed
  | resolved =>
      refine .bind confined_allowed fun _ => .bind .orElse fun _ => ?_
      exact .bind confined_allowed fun _ => .require
  | settling => exact confined_allowed
  | _ => exact .pure

/-- A transition after the check of the permission. -/
theorem confined_toTarget (h : Spares moves) {actorUserId : Uuid} {market : Market}
    {target : Option MarketStatus} {body : TransitionMarketRequest} {reason : String} {eventId : Uuid} :
    Tx.Confined ok moves (do
      let target ← Tx.orElse target (.error (.conflict "invalid_market_transition"))
      let now ← Tx.select .other (·.directory.clock)
      requireTarget market body target now
      Tx.require (isNull body.evidence || body.evidence.isObject)
        (.error (.invalidRequest "transition_evidence_must_be_object"))
      enterStatus ext actorUserId market target body.winningOutcomeId reason eventId :
      Handler Response) := by
  refine .bind .orElse fun target => .bind .select fun _ => .bind confined_requireTarget fun _ => ?_
  refine .bind .require fun _ => ?_
  refine .bind (.update fun _ _ _ => h.markets _ _ _ _ _ fun _ => rfl) fun _ => ?_
  exact .bind (confined_insertGovernance h) fun _ => .bind .commit fun _ => .pure

theorem confined_transitionMarket (h : Spares moves) (actorUserId marketId : Uuid)
    (body : TransitionMarketRequest) (eventId : Uuid) :
    (transitionMarket ext actorUserId marketId body eventId).request.Confined ok moves := by
  refine Tx.Bounded.request ?_ _
  refine .bind (.bind .select fun _ => .orElse) fun market => .bind .ofExcept fun _ => ?_
  -- the handler goes on in the same way after either permission
  refine .ite (.bind confined_allowed fun _ => ?_) (.bind confined_allowed fun _ => ?_)
  · exact confined_toTarget h
  · exact confined_toTarget h

omit [Widening moves] in
theorem confined_insertItems (h : Spares moves) (items : List SettlementItem) :
    Tx.Confined ok moves (insertItems items) := by
  induction items with
  | nil => exact .pure
  | cons i rest ih => exact .bind (.insertRow fun _ => h.items _ _ _) fun _ => ih

theorem confined_planMarket (h : Spares moves) {actorUserId marketId : Uuid}
    {market : SettlementContext} {kind : RunKind} {idempotencyKey reason : String} {began : Int}
    {ids : PlanIds} :
    Tx.Confined ok moves
      (planMarket ext actorUserId marketId market kind idempotencyKey reason began ids) := by
  refine .bind .select fun existing => ?_
  cases existing with
  | some existing => exact .bind .commit fun _ => .pure
  | none =>
      refine .bind .select fun _ => .bind .ofExcept fun plan => ?_
      refine .bind (.insertRow fun _ => h.runs _ _ _) fun _ => ?_
      refine .bind (confined_insertItems h _) fun _ => ?_
      refine .bind (.update fun _ _ _ => h.markets _ _ _ _ _ fun _ => rfl) fun _ => ?_
      exact .bind (confined_insertGovernance h) fun _ => .bind .commit fun _ => .pure

theorem confined_createSettlementPlan (h : Spares moves) (actorUserId marketId : Uuid)
    (body : CreateSettlementPlanRequest) (ids : PlanIds) :
    (createSettlementPlan ext actorUserId marketId body ids).request.Confined ok moves := by
  refine Tx.Bounded.request ?_ _
  refine .bind .ofExcept fun key => .bind .ofExcept fun reason => .bind .select fun began => ?_
  refine .bind confined_found fun market => .bind confined_allowed fun _ => ?_
  cases market.status with
  | resolved => exact confined_planMarket h
  | cancelled => exact confined_planMarket h
  | settling => exact .bind .select fun _ => .bind .orElse fun _ => .bind .commit fun _ => .pure
  | settled => exact .bind .select fun _ => .bind .orElse fun _ => .bind .commit fun _ => .pure
  | _ => exact .exit

omit [Widening moves] in
theorem confined_updateRun (h : Spares moves) {runId : Uuid} {admits : SettlementRun → Bool}
    {status : RunStatus} : Tx.Confined ok moves (updateRun runId admits status) :=
  .bind (.update fun _ _ _ => h.runs _ _ _) fun _ => .pure

theorem confined_recordSubmission (h : Spares moves) (itemId : Uuid) (transactionHash : String) :
    (Settlement.recordSubmission itemId transactionHash).request.Confined ok moves := by
  refine Tx.Bounded.request ?_ _
  refine .bind .ofExcept fun _ => .bind .select fun _ => .bind confined_found fun context => ?_
  refine .bind confined_allowed fun _ => .bind .require fun _ => .ite ?_ ?_
  · exact .bind .require fun _ => .bind .commit fun _ => .pure
  · refine .bind .require fun _ => ?_
    refine .bind (.bind (.update fun _ _ _ => h.items _ _ _) fun _ => .pure) fun _ => ?_
    exact .bind (confined_updateRun h) fun _ => .bind .commit fun _ => .pure

theorem confined_finalizeIfComplete (h : Spares moves) (hclosing : SparesClosing ok moves)
    {context : SettlementItemContext} {eventId : Uuid} :
    Tx.Confined ok moves (finalizeIfComplete ext context eventId) := by
  refine .bind .select fun remaining => .ite .pure ?_
  refine .bind (confined_updateRun h) fun _ => ?_
  refine .bind (.bind (.update fun view hok db => hclosing _ context.runKind _ view db hok)
    fun _ => .pure) fun _ => ?_
  refine .bind (.bind (.update fun _ _ _ => h.markets _ _ _ _ _ fun _ => rfl) fun _ => .pure)
    fun _ => ?_
  exact confined_insertGovernance h

theorem confined_acceptSettlementEvidence (h : Spares moves) (hclosing : SparesClosing ok moves)
    (itemId : Uuid) (body : SettlementEvidenceRequest) (ids : SettlementIds) :
    (acceptSettlementEvidence ext itemId body ids).request.Confined ok moves := by
  refine Tx.Bounded.request ?_ _
  refine .bind .ofExcept fun payout => .bind .select fun _ => .bind confined_found fun context => ?_
  refine .bind confined_allowed fun _ => .bind .select fun existing => ?_
  cases existing with
  | some existing => exact .bind .require fun _ => .bind .commit fun _ => .pure
  | none =>
      refine .bind .require fun _ => .bind .require fun _ => .bind .select fun acceptedAt => ?_
      refine .bind (.insertRow fun _ => h.settlementEvidence _ _ _) fun _ => ?_
      refine .bind (.bind (.update fun _ _ _ => h.items _ _ _) fun _ => .pure) fun _ => ?_
      refine .bind (confined_finalizeIfComplete h hclosing) fun _ => ?_
      exact .bind .select fun _ => .bind .orElse fun _ => .bind .commit fun _ => .pure

/-- The operations that leave stakes alone. -/
def bystanders : List Operation :=
  [.recordPolicyDecision, .transitionMarket, .createSettlementPlan, .recordSettlementSubmission,
    .acceptSettlementEvidence]

/-- **A bystander is confined** to what such writes stay within. -/
theorem confined_bystander (h : Spares moves) (hclosing : SparesClosing ok moves)
    {p : Prog Database Row Site Result} (hp : Requests ext bystanders p) : p.Confined ok moves := by
  obtain ⟨operation, hmem, hp⟩ := hp
  cases hp with
  | recordPolicyDecision actorUserId marketId body decisionId =>
      exact confined_recordPolicyDecision h actorUserId marketId body decisionId
  | transitionMarket actorUserId marketId body eventId =>
      exact confined_transitionMarket h actorUserId marketId body eventId
  | createSettlementPlan actorUserId marketId body ids =>
      exact confined_createSettlementPlan h actorUserId marketId body ids
  | recordSettlementSubmission itemId transactionHash =>
      exact confined_recordSubmission h itemId transactionHash
  | acceptSettlementEvidence itemId body ids =>
      exact confined_acceptSettlementEvidence h hclosing itemId body ids
  | _ => simp [bystanders] at hmem

end Bystanders

/-! ### New intents and expired ones -/

/-- Intents that expire stay within the relation. -/
def SparesExpiry (moves : List (Lock Row) → Database → Database → Prop) : Prop :=
  ∀ (view db : Database) (p : StakeIntent → Bool),
    (∀ i, p i = true → i.status = .awaitingSignature ∨ i.status = .signed) →
    moves ((stakeIntentTable.matching p view).flatMap fun i => [⟨.stakeIntent i.id, .noKeyUpdate⟩]) db
      (stakeIntentTable.modify p ({ · with status := .expired }) view db)

/-- New intents, expired ones and changes of the surroundings stay within the relation. -/
structure SparesIntents (moves : List (Lock Row) → Database → Database → Prop) : Prop where
  created : ∀ (L : List (Lock Row)) (db : Database) (i : StakeIntent),
    ⟨.stakeIntent i.id, .update⟩ ∈ L → moves L db (stakeIntentTable.add i db)
  expired : SparesExpiry moves
  surroundings : ∀ L db directory organizations pageants,
    moves L db { db with directory, organizations, pageants }

section Intents

variable {ok : Site → Database → Prop} {moves : List (Lock Row) → Database → Database → Prop}
  [Widening moves]

theorem unsubmitted_of_expires (intentId : Uuid) (now : Int) {i : StakeIntent}
    (h : (i.id = intentId && ((i.status = .awaitingSignature || i.status = .signed) &&
      decide (i.expiresAt ≤ now)) : Bool) = true) : i.status = .awaitingSignature ∨ i.status = .signed := by
  simp only [Bool.and_eq_true, Bool.or_eq_true, decide_eq_true_eq] at h
  exact h.2.1

theorem confined_expireIntentIfNeeded (h : SparesExpiry moves) (intentId : Uuid) :
    Tx.Confined ok moves (Stakes.expireIntentIfNeeded intentId) := by
  refine .bind .select fun now => .bind (.update fun view _ db => ?_) fun _ => .commit
  exact h view db _ fun _ => unsubmitted_of_expires intentId now

omit [Widening moves] in
/-- An intent whose time is over expires, and the request goes on. -/
theorem safe_expiry {I : Database → Prop} {G : List (Lock Row) → Database → Database → Prop}
    (h : SparesExpiry moves) (hI : ∀ L db db', moves L db db' → I db → I db')
    (hG : ∀ L db db', moves L db db' → I db → G L db db') {intentId : Uuid}
    {k : PUnit → Prog Database Row Site Result} (next : Safe I G ok (k ⟨⟩) [] id fun _ => True) :
    Safe I G ok (Stakes.expireIntentIfNeeded intentId k) [] id fun _ => True := by
  refine safe_bind (safe_select stable_true fun _ now _ _ _ => ?_)
  refine safe_bind (Lib.safe_update fun view _ _ _ => ⟨fun _ => True, trivial, stable_true, ?_⟩)
  refine Lib.safe_commit (fun d hd _ => ?_) next
  have hmoves := h view d _ fun _ => unsubmitted_of_expires intentId now
  exact ⟨hI _ _ _ hmoves hd, hG _ _ _ hmoves hd⟩

theorem confined_getMarketIntent (h : SparesIntents moves) (actorUserId intentId : Uuid) :
    (Stakes.getMarketIntent actorUserId intentId).request.Confined ok moves := by
  refine Tx.Bounded.request ?_ _
  refine .bind (confined_expireIntentIfNeeded h.expired intentId) fun _ => ?_
  refine .bind (.bind .select fun _ => .orElse) fun intent => ?_
  exact .bind confined_allowed fun _ => .pure

omit [Widening moves] in
theorem confined_requireExposure {exposure amountMinor limit : Int} {error : String} :
    Tx.Confined ok moves (Stakes.requireExposure exposure amountMinor limit error) :=
  .bind .orElse fun _ => .require

theorem confined_createStakeIntent (h : SparesIntents moves) (sha256 : Sha256) (userId marketId : Uuid)
    (idempotencyHeader : Option String) (body : Stakes.CreateStakeIntentRequest) (intentId : Uuid) :
    (Stakes.createStakeIntent sha256 userId marketId idempotencyHeader body intentId).request.Confined
      ok moves := by
  refine Tx.Bounded.request ?_ _
  refine .bind (.bind .select fun _ => .orElse) fun market => .bind .ofExcept fun key => ?_
  refine .bind .select fun now => .bind .require fun _ => .bind .require fun _ => ?_
  refine .bind .require fun _ => .bind confined_allowed fun _ => .bind confined_allowed fun _ => ?_
  refine .bind .ofExcept fun address => .bind .select fun _ => .bind .orElse fun account => ?_
  refine .bind .select fun existing => ?_
  cases existing with
  | some existing => exact .bind .require fun _ => .pure
  | none =>
      refine .bind .select fun _ => .bind .orElse fun _ => .bind confined_requireExposure fun _ => ?_
      refine .bind .select fun _ => .bind .orElse fun _ => .bind confined_requireExposure fun _ => ?_
      refine .bind (.bind .select fun began => .insertRow fun db => ?_) fun _ => ?_
      · exact h.created _ db _ List.mem_cons_self
      · exact .bind .commit fun _ => .pure

omit [Widening moves] in
theorem confined_environment (h : SparesIntents moves) (directory : Directory)
    (organizations : List Uuid) (pageants : List Pageant) :
    (environment directory organizations pageants).request.Confined ok moves := by
  refine Tx.Bounded.request ?_ _
  exact .bind (.write fun _ db => h.surroundings _ db _ _ _) fun _ => .bind .commit fun _ => .pure

/-- The operations that create intents, or let them expire. -/
def intentOperations : List Operation := [.createStakeIntent, .getMarketIntent, .environment]

theorem confined_intents {ext : External} (h : SparesIntents moves) {p : Prog Database Row Site Result}
    (hp : Requests ext intentOperations p) : p.Confined ok moves := by
  obtain ⟨operation, hmem, hp⟩ := hp
  cases hp with
  | createStakeIntent userId marketId idempotencyHeader body intentId =>
      exact confined_createStakeIntent h _ userId marketId idempotencyHeader body intentId
  | getMarketIntent actorUserId intentId => exact confined_getMarketIntent h actorUserId intentId
  | environment directory organizations pageants =>
      exact confined_environment h directory organizations pageants
  | _ => simp [intentOperations] at hmem

end Intents

/-! ### Beside accepted stakes -/

/-- What a request other than one with evidence does to the rows around stakes, if its changes of
positions are `closes`. -/
structure Aside (closes : Position → Position → Prop) (L : List (Lock Row)) (db db' : Database) :
    Prop where
  framed : Framed stakePart L db db'
  limits : ∀ id, (marketTable.find db' id).map (·.maxMarketExposureMinor) =
    (marketTable.find db id).map (·.maxMarketExposureMinor)
  evidence : db'.positionEvidence = db.positionEvidence
  outcomes : db'.outcomes = db.outcomes
  positions : List.Forall₂ closes db.positions db'.positions

/-- A position is closed, or stays. -/
structure Closes (p p' : Position) : Prop where
  same : p' = { p with status := p'.status }
  status : p'.status = p.status ∨ p'.status ≠ .active

instance : IsPreorder Position Closes where
  refl _ := ⟨rfl, .inl rfl⟩
  trans _ _ _ h h' := by
    refine ⟨by rw [h'.same, h.same], ?_⟩
    rcases h'.status with heq | hne
    · rw [heq]
      exact h.status
    · exact .inr hne

section Aside

variable {ext : External} {ok : Site → Database → Prop} {closes : Position → Position → Prop}
  [IsPreorder Position closes] {L : List (Lock Row)} {db db' : Database}

instance : Widening (Aside closes) where
  refl _ _ := ⟨.refl, fun _ => rfl, rfl, rfl, List.forall₂_refl _⟩
  trans _ _ _ _ h h' := ⟨h.framed.trans h'.framed, fun id => (h'.limits id).trans (h.limits id),
    h'.evidence.trans h.evidence, h'.outcomes.trans h.outcomes,
    forall₂_trans h.positions h'.positions⟩
  mono _ _ _ _ hsub h := { h with framed := h.framed.mono hsub }

/-- A change of a table that is spoken of nowhere. -/
theorem Aside.hidden (hpart : ∀ k, stakePart db' k = stakePart db k) (hmarkets : db'.markets = db.markets)
    (hevidence : db'.positionEvidence = db.positionEvidence) (houtcomes : db'.outcomes = db.outcomes)
    (hpositions : db'.positions = db.positions) : Aside closes L db db' where
  framed k _ := hpart k
  limits id := by rw [show marketTable.find db' id = marketTable.find db id from congrArg _ hmarkets]
  evidence := hevidence
  outcomes := houtcomes
  positions := hpositions ▸ List.forall₂_refl _

/-- A change of a market that keeps its limit. -/
theorem Aside.market {view : Database} {p : Market → Bool} {f : Market → Market}
    (hf : ∀ m, f m = { m with status := (f m).status, winningOutcomeId := (f m).winningOutcomeId }) :
    Aside closes L db (marketTable.modify p f view db) := by
  have hlimits (id : Uuid) : (marketTable.find (marketTable.modify p f view db) id).map
      (·.maxMarketExposureMinor) = (marketTable.find db id).map (·.maxMarketExposureMinor) := by
    rw [marketTable.find_modify fun m => by rw [hf m]; rfl, Option.map_map]
    refine congrArg (Option.map · _) (funext fun m => ?_)
    show (if _ then f m else m).maxMarketExposureMinor = _
    split
    · rw [hf m]
    · rfl
  refine ⟨fun k _ => ?_, hlimits, rfl, rfl, List.forall₂_refl _⟩
  cases k with
  | market id => exact congrArg StakePart.limit (hlimits id)
  | _ => rfl

theorem spares_aside : Spares (Aside closes) where
  decisions _ _ _ := .hidden (fun k => by cases k <;> rfl) rfl rfl rfl rfl
  governance _ _ _ := .hidden (fun k => by cases k <;> rfl) rfl rfl rfl rfl
  runs _ _ _ := .hidden (fun k => by cases k <;> rfl) rfl rfl rfl rfl
  items _ _ _ := .hidden (fun k => by cases k <;> rfl) rfl rfl rfl rfl
  settlementEvidence _ _ _ := .hidden (fun k => by cases k <;> rfl) rfl rfl rfl rfl
  markets _ _ _ _ _ hf := .market hf

/-- Closing positions is a change of them only. -/
theorem sparesClosing_aside : SparesClosing ok (Aside Closes) := by
  intro marketId kind L view db _
  refine ⟨fun k _ => ?_, fun _ => rfl, rfl, rfl, ?_⟩
  · cases k with
    | positionOf id =>
        refine congrArg StakePart.taken ?_
        show (updateWhere _ _ db.positions).any _ = _
        rw [updateWhere, List.any_map]
        refine congrArg (db.positions.any ·) (funext fun p => ?_)
        show decide ((if _ then _ else p).stakeIntentId = id) = _
        split <;> rfl
    | _ => rfl
  · refine forall₂_updateWhere (fun p => refl_of Closes p) fun p _ _ => ⟨rfl, .inr ?_⟩
    show RunKind.closes kind ≠ .active
    cases kind <;> decide

/-- A change of intents, under the locks of the rows that it concerns. -/
theorem Aside.intents {l : List StakeIntent} (hframed : Framed stakePart L db (stakeIntentTable.put db l)) :
    Aside closes L db (stakeIntentTable.put db l) :=
  ⟨hframed, fun _ => rfl, rfl, rfl, List.forall₂_refl _⟩

theorem sparesIntents_aside : SparesIntents (Aside closes) where
  created _ _ _ hlock := .intents (intentLayout.framed_add hlock)
  expired view db p _ := by
    refine .intents (intentLayout.framed_modify (fun _ => rfl) fun i hi => ?_)
    exact ⟨_, List.mem_flatMap.mpr ⟨i, hi, List.mem_singleton.mpr rfl⟩, rfl, rfl⟩
  surroundings _ _ _ _ _ := .hidden (fun k => by cases k <;> rfl) rfl rfl rfl rfl

theorem confined_recordStakeSubmission (actorUserId intentId : Uuid) (txHash : String) :
    (Stakes.recordSubmission actorUserId intentId txHash).request.Confined ok (Aside closes) := by
  refine Tx.Bounded.request ?_ _
  refine .bind (confined_expireIntentIfNeeded sparesIntents_aside.expired intentId) fun _ => ?_
  refine .bind (.bind .select fun _ => .orElse) fun intent => ?_
  refine .bind confined_allowed fun _ => ?_
  refine .bind .require fun _ => .bind .require fun _ => .bind .ofExcept fun hash => ?_
  cases intent.submittedTxHash with
  | some existing => exact .bind .require fun _ => .pure
  | none =>
      refine .bind (.bind (.update fun view _ db => .intents ?_) fun _ => .commit) fun _ => .pure
      refine intentLayout.framed_modify (fun _ => rfl) fun i hi => ?_
      exact ⟨_, List.mem_flatMap.mpr ⟨i, hi, List.mem_cons_self⟩, rfl, rfl⟩

end Aside

/-- The operations beside accepted stakes. -/
def asides : List Operation :=
  bystanders ++ [.createStakeIntent, .getMarketIntent, .recordStakeSubmission, .environment]

/-- **All but the requests with evidence are aside.** -/
theorem confined_aside {ext : External} {ok : Site → Database → Prop}
    {closes : Position → Position → Prop} [IsPreorder Position closes]
    (hclosing : SparesClosing ok (Aside closes)) {p : Prog Database Row Site Result}
    (hp : Requests ext asides p) : p.Confined ok (Aside closes) := by
  obtain ⟨operation, hmem, hp⟩ := hp
  rcases List.mem_append.mp hmem with hmem | hmem
  · exact confined_bystander spares_aside hclosing ⟨operation, hmem, hp⟩
  · cases hp with
    | recordStakeSubmission actorUserId intentId txHash =>
        exact confined_recordStakeSubmission actorUserId intentId txHash
    | createStakeIntent userId marketId idempotencyHeader body intentId =>
        exact confined_createStakeIntent sparesIntents_aside _ userId marketId idempotencyHeader body
          intentId
    | getMarketIntent actorUserId intentId =>
        exact confined_getMarketIntent sparesIntents_aside actorUserId intentId
    | environment directory organizations pageants =>
        exact confined_environment sparesIntents_aside directory organizations pageants
    | _ => simp at hmem

end CrownFi.Markets
