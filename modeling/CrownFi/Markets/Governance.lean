import CrownFi.Markets.Schema

/-!
# CrownFi.Markets.Governance

The lifecycle of a market (`markets.rs`): its creation, the policy decisions about it,
and its transitions. A transition checks the status that it read before its transaction
began, and its update then sets the status of whatever row it finds.
-/

namespace CrownFi.Markets.Governance

open Lib CrownFi.Api

/-- `map_database_error`. -/
def mapDatabaseError : SqlError → ApiError
  | .uniqueViolation => .conflict "resource_already_exists"
  | .foreignKeyViolation => .invalidRequest "related_resource_not_found"
  | .checkViolation | .outOfRange => .invalidRequest "database_constraint_failed"

/-! ### Permissions and lookups -/

/-- The query of `is_site_administrator`: an active administrator, of any role. -/
def isSiteAdministrator (userId : Uuid) (db : Database) : Bool :=
  db.directory.siteAdministrators.any fun a => a.userId = userId && a.status = .active

def requireSiteAdministrator (userId : Uuid) : Handler PUnit := do
  let allowed ← Tx.select .other (isSiteAdministrator userId)
  Tx.require allowed (.error .forbidden)

def requireOrganizationEditor (organizationId userId : Uuid) : Handler PUnit := do
  let allowed ← Tx.select .other fun db =>
    isSiteAdministrator userId db || db.directory.memberEditor organizationId userId
  Tx.require allowed (.error .forbidden)

def fetchMarketRecord (marketId : Uuid) : Handler Market := do
  let market ← Tx.select .other (marketTable.find · marketId)
  Tx.orElse market (.error .notFound)

def requireOutcome (marketId outcomeId : Uuid) : Handler PUnit := do
  let found ← Tx.select .other fun db =>
    db.outcomes.any fun o => o.marketId = marketId && o.id = outcomeId
  Tx.require found (.error (.invalidRequest "market_outcome_not_found"))

/-- The latest decision among these: `ORDER BY created_at DESC, id DESC`. -/
def latestDecision (decisions : List PolicyDecision) : Option PolicyDecision :=
  (decisions.insertionSort fun d d' => d'.createdAt < d.createdAt ∨
    (d.createdAt = d'.createdAt ∧ d'.id.toNat ≤ d.id.toNat)).head?

/-- The decision that is in force: the latest of those that have not expired. -/
def decisionInForce (marketId : Uuid) (subjectUserId : Option Uuid) (action : PolicyAction)
    (db : Database) : Option PolicyDecision :=
  latestDecision <| db.decisions.filter fun d =>
    d.marketId = marketId && d.action = action && d.subjectUserId = subjectUserId &&
      d.expiresAt.all (db.directory.clock < ·)

def requirePolicyAllow (marketId : Uuid) (subjectUserId : Option Uuid) (action : PolicyAction) :
    Handler PUnit := do
  let decision ← Tx.select .other (decisionInForce marketId subjectUserId action)
  Tx.require (decision.any (·.decision = .allow)) (.error .forbidden)

/-! ### Arguments -/

/-- `validate_text`: trimmed, with `min` to `max` characters. -/
def validateText (value : String) (min max : Nat) (error : String) : Except ApiError String :=
  let value := trimChars value.toList
  if min ≤ value.length ∧ value.length ≤ max then .ok (String.ofList value)
  else .error (.invalidRequest error)

def optionalText (value : Option String) (max : Nat) (error : String) :
    Except ApiError (Option String) :=
  match value.map fun value => trimChars value.toList with
  | some [] => .ok none
  | some value =>
      if value.length ≤ max then .ok (some (String.ofList value)) else .error (.invalidRequest error)
  | none => .ok none

def parseTimestamp (parseRfc3339 : String → Option Int) (value error : String) : Except ApiError Int :=
  match parseRfc3339 (String.ofList (trimChars value.toList)) with
  | some instant => .ok instant
  | none => .error (.invalidRequest error)

/-- No two hyphens in a row. -/
def hyphensApart : List Char → Bool
  | '-' :: '-' :: _ => false
  | _ :: cs => hyphensApart cs
  | [] => true

def validateSlug (value : String) : Except ApiError String :=
  let value := trimLower value
  if value ≠ [] ∧ byteLength value ≤ 120 ∧ value.head? ≠ some '-' ∧ value.getLast? ≠ some '-' ∧
      hyphensApart value ∧
      value.all (fun c => ('a' ≤ c && c ≤ 'z') || isDigit c || c = '-') then
    .ok (String.ofList value)
  else .error (.invalidRequest "invalid_market_slug")

def validateStellarAddress (value : String) : Except ApiError String :=
  let value := String.ofList (trimUpper value)
  if isStellarAccount value then .ok value else .error (.invalidRequest "invalid_stellar_address")

def validateAsset (code : String) (issuer : Option String) :
    Except ApiError (String × Option String) := do
  let code ← validateAssetCode code
  if code = "XLM" then
    if issuer.any fun value => trimChars value.toList ≠ [] then
      throw (.invalidRequest "xlm_must_not_have_issuer")
    return (code, none)
  else
    match issuer with
    | none => throw (.invalidRequest "asset_issuer_required")
    | some issuer =>
        let issuer ← validateStellarAddress issuer
        return (code, some issuer)

structure OutcomeInput where
  code : String
  label : String
  deriving DecidableEq, Repr

def isOutcomeCode (code : List Char) : Bool :=
  code ≠ [] && byteLength code ≤ 32 &&
    code.all (fun c => isUpper c || isDigit c || c = '_' || c = '-') &&
    code.head?.any fun c => isUpper c || isDigit c

/-- The outcomes that follow those with the codes `seen`. -/
def outcomesAfter (seen : List String) :
    List OutcomeInput → Except ApiError (List (String × String))
  | [] => .ok []
  | outcome :: rest => do
      let code := trimUpper outcome.code
      if isOutcomeCode code = false then throw (.invalidRequest "invalid_market_outcome_code")
      let code := String.ofList code
      if seen.contains code then throw (.invalidRequest "duplicate_market_outcome_code")
      let label ← validateText outcome.label 1 160 "invalid_market_outcome_label"
      let others ← outcomesAfter (code :: seen) rest
      return (code, label) :: others

def validateOutcomes (outcomes : List OutcomeInput) : Except ApiError (List (String × String)) :=
  if 2 ≤ outcomes.length ∧ outcomes.length ≤ 32 then outcomesAfter [] outcomes
  else .error (.invalidRequest "market_requires_two_to_thirty_two_outcomes")

def validatePolicyAction (value : String) : Except ApiError PolicyAction :=
  let value := String.ofList (trimLower value)
  if value = "market.open" then .ok .marketOpen
  else if value = "stake" then .ok .stake
  else if value = "resolve" then .ok .resolve
  else if value = "settle" then .ok .settle
  else if value = "refund" then .ok .refund
  else .error (.invalidRequest "invalid_policy_action")

def validatePolicyDecision (value : String) : Except ApiError Decision :=
  let value := String.ofList (trimLower value)
  if value = "allow" then .ok .allow
  else if value = "deny" then .ok .deny
  else if value = "review" then .ok .review
  else .error (.invalidRequest "invalid_policy_decision")

/-! ### Creating a market -/

structure CreateMarketRequest where
  organizationId : Uuid
  pageantId : Option Uuid
  slug : String
  question : String
  description : Option String
  assetCode : String
  assetScale : Int
  assetIssuer : Option String
  feeBps : Int
  minStakeMinor : Int
  maxStakeMinor : Int
  maxUserExposureMinor : Int
  maxMarketExposureMinor : Int
  opensAt : String
  closesAt : String
  resolutionSource : String
  policyVersion : String
  outcomes : List OutcomeInput
  deriving DecidableEq, Repr

def validateLimits (body : CreateMarketRequest) : Except ApiError Unit :=
  if body.assetScale < 0 ∨ 7 < body.assetScale ∨ body.feeBps < 0 ∨ 1000 < body.feeBps ∨
      body.minStakeMinor ≤ 0 ∨ body.maxStakeMinor < body.minStakeMinor ∨
      body.maxUserExposureMinor < body.maxStakeMinor ∨
      body.maxMarketExposureMinor < body.maxUserExposureMinor then
    .error (.invalidRequest "invalid_market_limits")
  else .ok ()

/-- The ids a request draws: of the market, of its outcomes in order, of the governance event. -/
structure MarketIds where
  market : Uuid
  outcome : Nat → Uuid
  event : Uuid

/-- The checks of the request before its transaction, at the instant `now`: the draft of the
market, and its outcomes. -/
def CreateMarketRequest.validate (body : CreateMarketRequest) (parseRfc3339 : String → Option Int)
    (marketId : Uuid) (now : Int) : Except ApiError (Market × List (String × String)) := do
  validateLimits body
  let slug ← validateSlug body.slug
  let question ← validateText body.question 8 500 "invalid_market_question"
  let description ← optionalText body.description 4000 "invalid_market_description"
  let resolutionSource ← validateText body.resolutionSource 8 1000 "invalid_resolution_source"
  let policyVersion ← validateText body.policyVersion 1 120 "invalid_policy_version"
  let opensAt ← parseTimestamp parseRfc3339 body.opensAt "invalid_opens_at"
  let closesAt ← parseTimestamp parseRfc3339 body.closesAt "invalid_closes_at"
  if closesAt ≤ opensAt then throw (.invalidRequest "market_close_must_follow_open")
  if closesAt ≤ now then throw (.invalidRequest "market_close_must_be_future")
  let asset ← validateAsset body.assetCode body.assetIssuer
  let outcomes ← validateOutcomes body.outcomes
  let draft : Market :=
    { id := marketId, organizationId := body.organizationId, pageantId := body.pageantId, slug
      question, description, status := .draft, assetCode := asset.1
      assetScale := body.assetScale, assetIssuer := asset.2, feeBps := body.feeBps
      minStakeMinor := body.minStakeMinor, maxStakeMinor := body.maxStakeMinor
      maxUserExposureMinor := body.maxUserExposureMinor
      maxMarketExposureMinor := body.maxMarketExposureMinor, opensAt, closesAt, resolutionSource
      policyVersion, winningOutcomeId := none }
  return (draft, outcomes)

/-- The keys and foreign keys of `prediction_markets`. -/
def marketViolation (m : Market) (db : Database) : Option SqlError :=
  if db.markets.any fun n => n.id = m.id || (n.organizationId = m.organizationId && n.slug = m.slug) then
    some .uniqueViolation
  else if db.organizations.contains m.organizationId = false then some .foreignKeyViolation
  else none

def insertMarket (m : Market) : Handler PUnit :=
  Tx.insertRow .other marketTable
    [⟨.market m.id, .update⟩, ⟨.marketSlug m.organizationId m.slug, .update⟩]
    (fun db => raise mapDatabaseError (marketViolation m db)) m

/-- The keys of `prediction_market_outcomes`. -/
def outcomeViolation (o : Outcome) (db : Database) : Option SqlError :=
  if db.outcomes.any fun p => p.id = o.id ||
      (p.marketId = o.marketId && (p.code = o.code || p.sortOrder = o.sortOrder)) then
    some .uniqueViolation
  else none

def insertOutcome (o : Outcome) : Handler PUnit :=
  Tx.insertRow .other outcomeTable
    [⟨.outcome o.id, .update⟩, ⟨.outcomeCode o.marketId o.code, .update⟩,
      ⟨.outcomeOrder o.marketId o.sortOrder, .update⟩, ⟨.market o.marketId, .keyShare⟩]
    (fun db => raise mapDatabaseError (outcomeViolation o db)) o

/-- The loop over the outcomes, from the one with this sort order. -/
def insertOutcomes (marketId : Uuid) (idOf : Nat → Uuid) (sortOrder : Nat) :
    List (String × String) → Handler PUnit
  | [] => pure ⟨⟩
  | (code, label) :: rest => do
      insertOutcome
        { id := idOf sortOrder, marketId, code, label, sortOrder, totalActiveMinor := 0 }
      insertOutcomes marketId idOf (sortOrder + 1) rest

/-- The transaction of the request, once it is validated. -/
def createDraft (ext : External) (actorUserId : Uuid) (market : Market)
    (outcomes : List (String × String)) (ids : MarketIds) : Handler Response := do
  let pageantMatches ← Tx.select .other fun db => market.pageantId.all fun pageantId =>
    db.pageants.any fun p => p.id = pageantId && p.organizationId = market.organizationId
  Tx.require pageantMatches (.error (.invalidRequest "pageant_organization_mismatch"))
  insertMarket market
  insertOutcomes market.id ids.outcome 0 outcomes
  insertGovernance ext.governed mapDatabaseError
    { id := ids.event, organizationId := market.organizationId, marketId := market.id
      actorUserId, action := "market.create", previousStatus := none, newStatus := some .draft
      reason := "Market draft created for policy review." }
  Tx.commit
  return ⟨.created, market.id⟩

def createMarket (ext : External) (actorUserId : Uuid) (body : CreateMarketRequest) (ids : MarketIds) :
    Handler Response := do
  requireOrganizationEditor body.organizationId actorUserId
  let now ← Tx.select .other (·.directory.clock)
  let draft ← valid (body.validate ext.parseRfc3339 ids.market now)
  createDraft ext actorUserId draft.1 draft.2 ids

/-! ### Policy decisions -/

structure PolicyDecisionRequest where
  subjectUserId : Option Uuid
  action : String
  decision : String
  reason : String
  policyVersion : String
  expiresAt : Option String
  deriving DecidableEq, Repr

/-- The decision that a request asks for, validated at the instant `now`. -/
structure PolicyRuling where
  action : PolicyAction
  decision : Decision
  reason : String
  policyVersion : String
  expiresAt : Option Int
  deriving DecidableEq, Repr

def PolicyDecisionRequest.validate (body : PolicyDecisionRequest)
    (parseRfc3339 : String → Option Int) (now : Int) : Except ApiError PolicyRuling := do
  let action ← validatePolicyAction body.action
  let decision ← validatePolicyDecision body.decision
  let reason ← validateText body.reason 3 1000 "invalid_policy_reason"
  let policyVersion ← validateText body.policyVersion 1 120 "invalid_policy_version"
  let expiresAt ← optional (parseTimestamp parseRfc3339 · "invalid_policy_expiry") body.expiresAt
  if expiresAt.any (· ≤ now) then throw (.invalidRequest "policy_expiry_must_be_future")
  if (action = .stake) ≠ (body.subjectUserId.isSome = true) then
    throw (.invalidRequest "policy_subject_mismatch")
  return { action, decision, reason, policyVersion, expiresAt }

def recordPolicyDecision (ext : External) (actorUserId marketId : Uuid) (body : PolicyDecisionRequest)
    (decisionId : Uuid) : Handler Response := do
  requireSiteAdministrator actorUserId
  let market ← fetchMarketRecord marketId
  let now ← Tx.select .other (·.directory.clock)
  let ruling ← valid (body.validate ext.parseRfc3339 now)
  let subjectFound ← Tx.select .other fun db => body.subjectUserId.all db.directory.userActive
  Tx.require subjectFound (.error (.invalidRequest "policy_subject_not_found"))
  let began ← Tx.select .other (·.directory.clock)
  Tx.insertRow .other decisionTable
    [⟨.decision decisionId, .update⟩, ⟨.market marketId, .keyShare⟩]
    (fun db => raise mapDatabaseError
      (if db.decisions.any (·.id = decisionId) then some .uniqueViolation else none))
    { id := decisionId, organizationId := market.organizationId, marketId
      subjectUserId := body.subjectUserId, action := ruling.action, decision := ruling.decision
      reason := ruling.reason, policyVersion := ruling.policyVersion
      decidedByUserId := actorUserId, expiresAt := ruling.expiresAt, createdAt := began }
  Tx.commit
  return ⟨.created, decisionId⟩

/-! ### Transitions -/

def validTransition : MarketStatus → MarketStatus → Bool
  | .draft, .pendingReview
  | .pendingReview, .approved | .pendingReview, .cancelled
  | .approved, .open | .approved, .cancelled
  | .open, .paused | .open, .closed | .open, .cancelled
  | .paused, .open | .paused, .closed | .paused, .cancelled
  | .closed, .resolutionPending | .closed, .cancelled
  | .resolutionPending, .resolved | .resolutionPending, .cancelled
  | .resolved, .settling
  | .settling, .settled
  | .settled, .archived
  | .cancelled, .archived => true
  | _, _ => false

structure TransitionMarketRequest where
  targetStatus : String
  reason : String
  winningOutcomeId : Option Uuid
  evidence : Json

def isEmptyObject : Json → Bool
  | .object fields => fields.isEmpty
  | _ => false

/-- What the target asks for besides the transition table. -/
def requireTarget (market : Market) (body : TransitionMarketRequest) (target : MarketStatus)
    (now : Int) : Handler PUnit :=
  match target with
  | .open => do
      Tx.require (market.opensAt ≤ now && now < market.closesAt)
        (.error (.conflict "market_outside_open_window"))
      requirePolicyAllow market.id none .marketOpen
  | .resolutionPending => do
      Tx.require (market.closesAt ≤ now) (.error (.conflict "market_still_open"))
      requirePolicyAllow market.id none .resolve
  | .resolved => do
      requirePolicyAllow market.id none .resolve
      let outcomeId ← Tx.orElse body.winningOutcomeId
        (.error (.invalidRequest "winning_outcome_required"))
      requireOutcome market.id outcomeId
      Tx.require (body.evidence.isObject && !isEmptyObject body.evidence)
        (.error (.invalidRequest "resolution_evidence_required"))
  | .settling => requirePolicyAllow market.id none .settle
  | _ => pure ⟨⟩

/-- The change of a market by a transition. -/
def Market.enter (target : MarketStatus) (winningOutcomeId : Option Uuid) (m : Market) : Market :=
  { m with
    status := target
    winningOutcomeId := if target = .resolved then winningOutcomeId else m.winningOutcomeId }

def isNull : Json → Bool
  | .null => true
  | _ => false

/-- The transaction of a transition that passed its checks. -/
def enterStatus (ext : External) (actorUserId : Uuid) (market : Market) (target : MarketStatus)
    (winningOutcomeId : Option Uuid) (reason : String) (eventId : Uuid) : Handler Response := do
  let _ ← Tx.update (.transition market.id market.status target) marketTable
    (fun m => [⟨.market m.id, .noKeyUpdate⟩]) (·.id = market.id)
    (Market.enter target winningOutcomeId) fun _ _ => none
  insertGovernance ext.governed mapDatabaseError
    { id := eventId, organizationId := market.organizationId, marketId := market.id, actorUserId
      action := "market.transition", previousStatus := some market.status
      newStatus := some target, reason }
  Tx.commit
  return ⟨.ok, market.id⟩

def transitionMarket (ext : External) (actorUserId marketId : Uuid) (body : TransitionMarketRequest)
    (eventId : Uuid) : Handler Response := do
  let market ← fetchMarketRecord marketId
  let target := MarketStatus.ofText (String.ofList (trimLower body.targetStatus))
  let reason ← valid (validateText body.reason 3 1000 "invalid_transition_reason")
  if target = some .pendingReview then
    requireOrganizationEditor market.organizationId actorUserId
  else
    requireSiteAdministrator actorUserId
  let target ← Tx.orElse (target.filter (validTransition market.status))
    (.error (.conflict "invalid_market_transition"))
  let now ← Tx.select .other (·.directory.clock)
  requireTarget market body target now
  Tx.require (isNull body.evidence || body.evidence.isObject)
    (.error (.invalidRequest "transition_evidence_must_be_object"))
  enterStatus ext actorUserId market target body.winningOutcomeId reason eventId

end CrownFi.Markets.Governance
