import CrownFi.Markets.Settled

/-!
# CrownFi.Markets.LogCheck

**The check of the governance log against the actions that the handlers log.** Creating a
market logs `market.create`, a transition logs `market.transition`, and the check of the last
migration allows neither text. So with the check in place none of these requests commits, in
any interleaving; and one that would commit were its event accepted is refused by the check.
-/

namespace CrownFi.Markets

open Lib CrownFi.Api

variable {ext : External} {α : Type}

/-- The log with the check that the last migration installs. -/
def External.checked (ext : External) : External := { ext with governed := governanceAction }

/-- The log as if it accepted every action. -/
def External.accepting (ext : External) : External := { ext with governed := fun _ => true }

/-- The requests that change a market's status by hand. -/
inductive GuardedRequest
  | createMarket (actorUserId : Uuid) (body : Governance.CreateMarketRequest)
      (ids : Governance.MarketIds)
  | transitionMarket (actorUserId marketId : Uuid) (body : Governance.TransitionMarketRequest)
      (eventId : Uuid)

def GuardedRequest.handler (ext : External) : GuardedRequest → Handler Response
  | createMarket actorUserId body ids => Governance.createMarket ext actorUserId body ids
  | transitionMarket actorUserId marketId body eventId =>
      Governance.transitionMarket ext actorUserId marketId body eventId

/-- The request alone, on a committed state. -/
def GuardedRequest.serve (request : GuardedRequest) (ext : External) (db : Database) :
    Option (Result × Database) :=
  (request.handler ext).request.serve (fun _ _ => True) db db

/-- What a guarded operation owes when its checks pass: it commits, with the market in the
requested status and exactly one new event in the log. -/
def Performed (marketId : Uuid) (target : MarketStatus) (db : Database)
    (served : Option (Result × Database)) : Prop :=
  ∃ r db', served = some (.ok r, db') ∧
    (∃ m, marketTable.find db' marketId = some m ∧ m.status = target) ∧
    ∃ e : GovernanceEvent, db'.governance = db.governance ++ [e] ∧ e.marketId = marketId ∧
      e.newStatus = some target

/-! ### What comes before the event -/

abbrev Within (m : Handler α) : Prop := Tx.Within Refused m

theorem refused_raise {map : SqlError → ApiError} {violation : Database → Option SqlError}
    (view : Database) (r : Result) (h : raise map (violation view) = some r) : Refused r := by
  obtain ⟨e, -, rfl⟩ := Option.map_eq_some_iff.mp h
  trivial

/-- A check that reads one value. -/
theorem within_allowed {β : Type} {answer : Database → β} {passed : β → Bool} {error : ApiError} :
    Within (do
      let value ← Tx.select .other answer
      Tx.require (passed value) (.error error)) :=
  Tx.within_bind Tx.within_stmt fun _ => Tx.within_require trivial

theorem within_fetchMarketRecord {marketId : Uuid} :
    Within (Governance.fetchMarketRecord marketId) :=
  Tx.within_bind Tx.within_stmt fun _ => Tx.within_orElse trivial

theorem within_requireTarget {market : Market} {body : Governance.TransitionMarketRequest}
    {target : MarketStatus} {now : Int} :
    Within (Governance.requireTarget market body target now) := by
  cases target with
  | «open» => exact Tx.within_bind (Tx.within_require trivial) fun _ => within_allowed
  | resolutionPending => exact Tx.within_bind (Tx.within_require trivial) fun _ => within_allowed
  | resolved =>
      refine Tx.within_bind within_allowed fun _ => ?_
      refine Tx.within_bind (Tx.within_orElse trivial) fun _ => ?_
      exact Tx.within_bind within_allowed fun _ => Tx.within_require trivial
  | settling => exact within_allowed
  | _ => exact Tx.within_pure

theorem within_insertOutcomes {marketId : Uuid} {idOf : Nat → Uuid}
    (outcomes : List (String × String)) (sortOrder : Nat) :
    Within (Governance.insertOutcomes marketId idOf sortOrder outcomes) := by
  induction outcomes generalizing sortOrder with
  | nil => exact Tx.within_pure
  | cons outcome rest ih =>
      obtain ⟨code, label⟩ := outcome
      exact Tx.within_bind (Tx.within_insert refused_raise) fun _ => ih (sortOrder + 1)

/-! ### What the check makes of a request -/

/-- The refusal of a row that a check of its table does not allow. -/
def constraintFailed : Result := .error (.invalidRequest "database_constraint_failed")

/-- With the check in place the request commits nothing, and it is refused by the check
wherever it would succeed without. -/
structure Blocked (accepting checked : Handler Response) : Prop where
  discards : checked.request.Discards fun _ => True
  refused : ∀ view db r db', accepting.request.serve (fun _ _ => True) view db = some (.ok r, db') →
    checked.request.serve (fun _ _ => True) view db = some (constraintFailed, db)

theorem Blocked.bind {m : Handler α} {f f' : α → Handler Response} (hm : Within m)
    (hf : ∀ a, Blocked (f a) (f' a)) : Blocked (m >>= f) (m >>= f') where
  discards := hm.discards _ fun a => (hf a).discards
  refused view db r db' hserve := by
    obtain ⟨a, view', hgo, hsame⟩ := hm.goesOn (k := fun a => (f a).request) hserve fun h => h
    exact (hsame _ db).trans ((hf a).refused view' db r db' hgo)

theorem Blocked.ite {c : Prop} [Decidable c] {m m' n n' : Handler Response} (hm : Blocked m m')
    (hn : Blocked n n') : Blocked (if c then m else n) (if c then m' else n') := by
  by_cases hc : c
  · simpa only [if_pos hc] using hm
  · simpa only [if_neg hc] using hn

/-- An event that the check does not allow. -/
theorem Blocked.event {e : GovernanceEvent} (he : governanceAction e.action = false)
    {f : PUnit → Handler Response} :
    Blocked (insertGovernance ext.accepting.governed Governance.mapDatabaseError e >>= f)
      (insertGovernance ext.checked.governed Governance.mapDatabaseError e >>= f) := by
  have hviolation (view : Database) :
      raise Governance.mapDatabaseError (governanceViolation ext.checked.governed e view) =
        some constraintFailed := by
    rw [governanceViolation, if_pos (.inl he)]
    rfl
  have hdiscards (k : PUnit → Prog Database Row Site Result) : Prog.Discards (fun _ => True)
      (insertGovernance ext.checked.governed Governance.mapDatabaseError e k) :=
    Tx.discards_insertRefused hviolation
  constructor
  · exact Tx.discards_bind (hdiscards _)
  · intro view db r db' _
    refine (if_pos trivial).trans ?_
    simp only [hviolation, Prog.serve]

/-! ### The requests -/

theorem createMarket_blocked (actorUserId : Uuid) (body : Governance.CreateMarketRequest)
    (ids : Governance.MarketIds) :
    Blocked (Governance.createMarket ext.accepting actorUserId body ids)
      (Governance.createMarket ext.checked actorUserId body ids) := by
  have haction : governanceAction "market.create" = false := by decide
  refine .bind within_allowed fun _ => ?_
  refine .bind Tx.within_stmt fun now => ?_
  refine .bind (Tx.within_ofExcept fun _ => trivial) fun draft => ?_
  refine .bind Tx.within_stmt fun pageantMatches => ?_
  refine .bind (Tx.within_require trivial) fun _ => ?_
  refine .bind (Tx.within_insert refused_raise) fun _ => ?_
  refine .bind (within_insertOutcomes _ _) fun _ => ?_
  exact .event haction

theorem enterStatus_blocked {actorUserId : Uuid} {market : Market} {target : MarketStatus}
    {winningOutcomeId : Option Uuid} {reason : String} {eventId : Uuid} :
    Blocked
      (Governance.enterStatus ext.accepting actorUserId market target winningOutcomeId reason eventId)
      (Governance.enterStatus ext.checked actorUserId market target winningOutcomeId reason eventId) := by
  have haction : governanceAction "market.transition" = false := by decide
  exact .bind Tx.within_update fun _ => .event haction

theorem transitionMarket_blocked (actorUserId marketId : Uuid)
    (body : Governance.TransitionMarketRequest) (eventId : Uuid) :
    Blocked (Governance.transitionMarket ext.accepting actorUserId marketId body eventId)
      (Governance.transitionMarket ext.checked actorUserId marketId body eventId) := by
  refine .bind within_fetchMarketRecord fun market => ?_
  refine .bind (Tx.within_ofExcept fun _ => trivial) fun reason => ?_
  have rest (target : Option MarketStatus) : Blocked
      (do
        let target ← Tx.orElse (target.filter (Governance.validTransition market.status))
          (.error (.conflict "invalid_market_transition"))
        let now ← Tx.select .other (·.directory.clock)
        Governance.requireTarget market body target now
        Tx.require (Governance.isNull body.evidence || body.evidence.isObject)
          (.error (.invalidRequest "transition_evidence_must_be_object"))
        Governance.enterStatus ext.accepting actorUserId market target body.winningOutcomeId reason
          eventId)
      (do
        let target ← Tx.orElse (target.filter (Governance.validTransition market.status))
          (.error (.conflict "invalid_market_transition"))
        let now ← Tx.select .other (·.directory.clock)
        Governance.requireTarget market body target now
        Tx.require (Governance.isNull body.evidence || body.evidence.isObject)
          (.error (.invalidRequest "transition_evidence_must_be_object"))
        Governance.enterStatus ext.checked actorUserId market target body.winningOutcomeId reason
          eventId) := by
    refine .bind (Tx.within_orElse trivial) fun target => ?_
    refine .bind Tx.within_stmt fun now => ?_
    refine .bind within_requireTarget fun _ => ?_
    refine .bind (Tx.within_require trivial) fun _ => ?_
    exact enterStatus_blocked
  exact .ite (.bind within_allowed fun _ => rest _) (.bind within_allowed fun _ => rest _)

theorem GuardedRequest.blocked (ext : External) (request : GuardedRequest) :
    Blocked (request.handler ext.accepting) (request.handler ext.checked) := by
  cases request with
  | createMarket actorUserId body ids => exact createMarket_blocked actorUserId body ids
  | transitionMarket actorUserId marketId body eventId =>
      exact transitionMarket_blocked actorUserId marketId body eventId

/-- **No guarded operation commits** with the check in place: whatever its statements see, it ends
without a commit, and where it would succeed if the log accepted its event, it is refused with the
constraint's error. -/
theorem guarded_operations_blocked (ext : External) (request : GuardedRequest) :
    ((request.handler ext.checked).request.Discards fun _ => True) ∧
      ∀ db, (∀ marketId target, ¬ Performed marketId target db (request.serve ext.checked db)) ∧
        ∀ r db', request.serve ext.accepting db = some (.ok r, db') →
          request.serve ext.checked db = some (constraintFailed, db) := by
  have hblocked := request.blocked ext
  refine ⟨hblocked.discards, fun db => ⟨?_, fun r db' => hblocked.refused db db r db'⟩⟩
  rintro marketId target ⟨r, db', hserve, -, e, hlog, -⟩
  obtain rfl : db' = db := hblocked.discards.serve hserve trivial
  have hlength := congrArg List.length hlog
  rw [List.length_append, List.length_singleton] at hlength
  omega

/-- No interleaving of guarded operations changes anything. -/
theorem guarded_operations_idle {ok : Site → Database → Prop} {db : Database}
    {pool : Pool Database Row Site Result} {actions : List (Action Database Row Site Result)}
    (hrun : Run (Pool.Step (Requests ext.checked [.createMarket, .transitionMarket]) ok)
      (Pool.idle db) actions pool) : pool.db = db := by
  refine run_discards (fun p hp => ?_) hrun
  obtain ⟨operation, hmem, hp⟩ := hp
  cases hp with
  | createMarket actorUserId body ids => exact (createMarket_blocked actorUserId body ids).discards
  | transitionMarket actorUserId marketId body eventId =>
      exact (transitionMarket_blocked actorUserId marketId body eventId).discards
  | _ => simp at hmem

/-- The administrator asks to settle a resolved market, which the policy allows. -/
def settlingRequest : GuardedRequest := .transitionMarket 1 20 (transitionRequest "settling") 82

theorem settling_accepted :
    (settlingRequest.serve marketExternal.accepting resolvedMarket).any
      (fun served => served.1 matches .ok _) = true := by
  decide +kernel

/-- A transition that passes every check of its handler is refused. -/
theorem guarded_operation_refused :
    ¬ ∀ (ext : External) (request : GuardedRequest) (db : Database) (r : Response) (db' : Database),
      request.serve ext.accepting db = some (.ok r, db') →
        ∃ marketId target, Performed marketId target db (request.serve ext.checked db) := by
  intro h
  obtain ⟨⟨r, db'⟩, hserved, hok⟩ := (Option.any_eq_true _ _).mp settling_accepted
  cases r with
  | error e => cases hok
  | ok r =>
      obtain ⟨marketId, target, r', db'', hserve, -, e, hlog, -⟩ := h _ _ _ r db' hserved
      have hrefused := (settlingRequest.blocked marketExternal).refused _ _ r db' hserved
      have heq := hserve.symm.trans hrefused
      cases heq

end CrownFi.Markets
