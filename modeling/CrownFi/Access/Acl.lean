import CrownFi.Api.Json
import CrownFi.Api.Validation
import CrownFi.Lib.Fallible

/-!
# CrownFi.Access.Acl

The access-control table of `authorization_acl.rs`: `classify_request`, which
decides from a request's method, path and body what stands between the request
and its handler.

The classifier reads the path on its own, segment by segment, and knows nothing
of the routers. **What it does not recognise under `/internal` or `/admin` it
denies**; everything else it lets pass.
-/

namespace CrownFi.Access

open Api Lib

/-! ### Requests -/

inductive Method
  | get
  | post
  | patch
  | delete
  | other (name : String)
  deriving DecidableEq, Repr

/-- What scopes are resolved from: the tables by their primary keys. -/
structure Resources where
  /-- `organization_id` -/
  pageants : Uuid → Option Uuid
  mediaAssets : Uuid → Option Uuid
  collectibleCollections : Uuid → Option Uuid
  products : Uuid → Option Uuid
  predictionMarkets : Uuid → Option Uuid
  /-- `pageant_id` -/
  pageantContestants : Uuid → Option Uuid
  /-- `organization_id, buyer_user_id` -/
  orders : Uuid → Option (Uuid × Uuid)
  /-- `order_id` -/
  paymentAttempts : Uuid → Option Uuid
  /-- `organization_id, order_id` -/
  transactionIntents : Uuid → Option (Uuid × Uuid)
  fulfillmentJobs : Uuid → Option (Uuid × Uuid)
  payoutBatches : Uuid → Option (Uuid × Uuid)
  /-- `organization_id, user_id` -/
  marketStakeIntents : Uuid → Option (Uuid × Uuid)

/-- The state of the application, and `Uuid::parse_str`. -/
structure AppState where
  database : Option Resources
  parseUuid : String → Option Uuid

/-! ### Classes -/

inductive Capability
  | accountRead
  | manageOverview
  | siteSettingsRead
  | siteSettingsWrite
  | organizationMembersRead
  | organizationMembersManage
  | pageantWrite
  | catalogueWrite
  | mediaWrite
  | orderManage
  | orderRead
  | providerEventWrite
  | intentWrite
  | intentRead
  | contractRead
  | contractWrite
  | chainEvidenceWrite
  | reconciliationRead
  | fulfillmentCreate
  | fulfillmentRead
  | fulfillmentOperate
  | payoutManage
  | payoutRead
  | snapshotWrite
  | marketCreate
  | marketSubmitReview
  | marketGovern
  | marketPolicyManage
  | marketStake
  | marketIntentRead
  | marketIntentWrite
  deriving DecidableEq, Repr

inductive Transport
  | webInternal
  | adminApi
  | payoutWorker
  deriving DecidableEq, Repr

structure Scope where
  organizationId : Option Uuid
  ownerUserId : Option Uuid
  resourceType : Option String
  resourceId : Option Uuid
  concealCrossTenant : Bool
  deriving DecidableEq, Repr

namespace Scope

def site : Scope :=
  { organizationId := none, ownerUserId := none, resourceType := none, resourceId := none,
    concealCrossTenant := false }

def user (userId : Uuid) : Scope :=
  { organizationId := none, ownerUserId := some userId, resourceType := some "user",
    resourceId := some userId, concealCrossTenant := true }

def organization (organizationId : Uuid) (resourceType : String) (resourceId : Option Uuid) :
    Scope :=
  { organizationId := some organizationId, ownerUserId := none, resourceType := some resourceType,
    resourceId := resourceId, concealCrossTenant := true }

def owned (organizationId ownerUserId : Uuid) (resourceType : String) (resourceId : Uuid) : Scope :=
  { organizationId := some organizationId, ownerUserId := some ownerUserId,
    resourceType := some resourceType, resourceId := some resourceId, concealCrossTenant := true }

end Scope

inductive ScopeSource
  | resolved (scope : Scope)
  | firstEditableOrganization
  deriving DecidableEq, Repr

structure ProtectedPlan where
  transport : Transport
  capability : Capability
  scope : ScopeSource
  expectedActorUserId : Option Uuid
  deriving DecidableEq, Repr

structure TokenGate where
  transport : Transport
  actorRequired : Bool
  expectedActorUserId : Option Uuid
  localOnly : Bool
  deriving DecidableEq, Repr

inductive RequestClass
  | «public»
  | tokenOnly (gate : TokenGate)
  | «protected» (plan : ProtectedPlan)
  | deny (transport : Transport)
  deriving DecidableEq, Repr

def protectedWeb (capability : Capability) (scope : ScopeSource) (expectedActorUserId : Option Uuid) :
    RequestClass :=
  .«protected»
    { transport := .webInternal, capability := capability, scope := scope,
      expectedActorUserId := expectedActorUserId }

def protectedAdmin (capability : Capability) (scope : Scope) : RequestClass :=
  .«protected»
    { transport := .adminApi, capability := capability, scope := .resolved scope,
      expectedActorUserId := none }

/-! ### Paths and bodies -/

/-- `trim_matches('/')`. -/
def trimSlashes (path : List Char) : List Char :=
  (((path.dropWhile (· = '/')).reverse).dropWhile (· = '/')).reverse

def splitPath (path : String) : List String :=
  (((trimSlashes path.toList).splitOn '/').filter fun segment => segment ≠ []).map String.ofList

def startsWith (path leading : String) : Bool := leading.toList.isPrefixOf path.toList

def endsWith (path trailing : String) : Bool := trailing.toList.isSuffixOf path.toList

def isPublicRequest (method : Method) (path : String) : Bool :=
  (path = "/health" || path = "/ready" || path = "/setup/status") ||
    (method = .get &&
      (path = "/events" || startsWith path "/events/" || startsWith path "/snapshots/" ||
        path = "/markets" || startsWith path "/markets/" || path = "/platform/organizations" ||
        startsWith path "/platform/")) ||
    (method = .post && startsWith path "/events/" && endsWith path "/vote")

namespace AppState

def bodyUuid (state : AppState) (body : Option Json) (key : String) : Option Uuid :=
  (body.bind (Json.getStr key)).bind state.parseUuid

def requiredBodyUuid (state : AppState) (body : Option Json) (key : String) : Except ApiError Uuid :=
  okOr (state.bodyUuid body key) (.invalidRequest key)

/-- `parse_uuid` of a segment. -/
def parse (state : AppState) (segment : String) : Except ApiError Uuid :=
  okOr (state.parseUuid segment) .notFound

def databasePool (state : AppState) : Except ApiError Resources :=
  okOr state.database (.serviceUnavailable "database_not_configured")

end AppState

def bodyString (body : Option Json) (key : String) : Option String :=
  (body.bind (Json.getStr key)).map fun value => String.ofList (trimLower value)

/-! ### Scopes -/

namespace Resources

variable (db : Resources)

/-- `scalar_uuid`: the organisation of the row. -/
def organizationFor (table : Uuid → Option Uuid) (id : Uuid) : Except ApiError Uuid :=
  okOr (table id) .notFound

def organizationForPageant : Uuid → Except ApiError Uuid := organizationFor db.pageants

def organizationForMedia : Uuid → Except ApiError Uuid := organizationFor db.mediaAssets

def organizationForCollection : Uuid → Except ApiError Uuid :=
  organizationFor db.collectibleCollections

def organizationForProduct : Uuid → Except ApiError Uuid := organizationFor db.products

def organizationForMarket : Uuid → Except ApiError Uuid := organizationFor db.predictionMarkets

def organizationForPageantContestant (id : Uuid) : Except ApiError Uuid :=
  okOr ((db.pageantContestants id).bind db.pageants) .notFound

def scopeForOrder (id : Uuid) : Except ApiError (Uuid × Uuid) := okOr (db.orders id) .notFound

def scopeForPaymentAttempt (id : Uuid) : Except ApiError (Uuid × Uuid) :=
  okOr ((db.paymentAttempts id).bind db.orders) .notFound

/-- The organisation of a row that belongs to an order, and the order's buyer. -/
def scopeThroughOrder (table : Uuid → Option (Uuid × Uuid)) (id : Uuid) :
    Except ApiError (Uuid × Uuid) :=
  okOr ((table id).bind fun (organizationId, orderId) =>
    (db.orders orderId).map fun (_, buyerUserId) => (organizationId, buyerUserId)) .notFound

def scopeForIntent : Uuid → Except ApiError (Uuid × Uuid) :=
  db.scopeThroughOrder db.transactionIntents

def scopeForFulfillmentJob : Uuid → Except ApiError (Uuid × Uuid) :=
  db.scopeThroughOrder db.fulfillmentJobs

def scopeForPayoutBatch : Uuid → Except ApiError (Uuid × Uuid) :=
  db.scopeThroughOrder db.payoutBatches

def scopeForMarketIntent (id : Uuid) : Except ApiError (Uuid × Uuid) :=
  okOr (db.marketStakeIntents id) .notFound

end Resources

/-! ### The classifier -/

/-- A segment whose number the length of the path admits. -/
def segment (segments : List String) (i : Nat) : String := segments.getD i ""

def classifyInternal (state : AppState) (method : Method) (segments : List String)
    (body : Option Json) : Except ApiError RequestClass := do
  let pool ← state.databasePool
  let at' := segment segments
  let actor := state.bodyUuid body "actor_user_id"
  if segments.length = 4 ∧ at' 1 = "identity" ∧ at' 2 = "users" ∧ method = .get then
    let userId ← state.parse (at' 3)
    return protectedWeb .accountRead (.resolved (.user userId)) none
  else if segments = ["internal", "site-settings"] then
    if method = .get then return protectedWeb .siteSettingsRead (.resolved .site) actor
    else if method = .patch then return protectedWeb .siteSettingsWrite (.resolved .site) actor
    else return .deny .webInternal
  else if segments.length = 6 ∧ at' 1 = "access" ∧ at' 2 = "organizations" ∧ at' 4 = "members" ∧
      method = .get then
    let organizationId ← state.parse (at' 3)
    let actorUserId ← state.parse (at' 5)
    return protectedWeb .organizationMembersRead
      (.resolved (.organization organizationId "organization" (some organizationId)))
      (some actorUserId)
  else if segments.length = 5 ∧ at' 1 = "access" ∧ at' 2 = "organizations" ∧ at' 4 = "members" ∧
      method = .post then
    let organizationId ← state.parse (at' 3)
    return protectedWeb .organizationMembersManage
      (.resolved (.organization organizationId "organization" (some organizationId))) actor
  else if segments.length = 4 ∧ at' 1 = "manage" ∧ at' 2 = "overview" ∧ method = .get then
    let userId ← state.parse (at' 3)
    return protectedWeb .manageOverview (.resolved (.user userId)) (some userId)
  else if segments = ["internal", "manage", "pageants"] ∧ method = .post then
    let organizationId ← state.requiredBodyUuid body "organization_id"
    return protectedWeb .pageantWrite
      (.resolved (.organization organizationId "organization" (some organizationId))) actor
  else if segments = ["internal", "manage", "pageants"] ∧ method = .patch then
    let pageantId ← state.requiredBodyUuid body "pageant_id"
    let organizationId ← pool.organizationForPageant pageantId
    return protectedWeb .pageantWrite
      (.resolved (.organization organizationId "pageant" (some pageantId))) actor
  else if segments.length = 4 ∧ at' 0 = "internal" ∧ at' 1 = "manage" ∧ at' 2 = "pageants" ∧
      method = .delete then
    let pageantId ← state.parse (at' 3)
    let organizationId ← pool.organizationForPageant pageantId
    return protectedWeb .pageantWrite
      (.resolved (.organization organizationId "pageant" (some pageantId))) none
  else if segments = ["internal", "manage", "categories"] ∧ method = .post then
    let pageantId ← state.requiredBodyUuid body "pageant_id"
    let organizationId ← pool.organizationForPageant pageantId
    return protectedWeb .pageantWrite
      (.resolved (.organization organizationId "pageant" (some pageantId))) actor
  else if segments = ["internal", "manage", "contestants"] ∧ method = .post then
    let pageantId ← state.requiredBodyUuid body "pageant_id"
    let organizationId ← pool.organizationForPageant pageantId
    return protectedWeb .pageantWrite
      (.resolved (.organization organizationId "pageant" (some pageantId))) actor
  else if segments = ["internal", "manage", "contestants"] ∧ method = .patch then
    let pageantContestantId ← state.requiredBodyUuid body "pageant_contestant_id"
    let organizationId ← pool.organizationForPageantContestant pageantContestantId
    return protectedWeb .pageantWrite
      (.resolved (.organization organizationId "organization" (some organizationId))) actor
  else if segments.length = 4 ∧ at' 0 = "internal" ∧ at' 1 = "manage" ∧ at' 2 = "contestants" ∧
      method = .delete then
    let pageantContestantId ← state.parse (at' 3)
    let organizationId ← pool.organizationForPageantContestant pageantContestantId
    return protectedWeb .pageantWrite
      (.resolved (.organization organizationId "organization" (some organizationId))) none
  else if segments = ["internal", "manage", "seed-miss-stellarverse"] ∧ method = .post then
    let scope := match state.bodyUuid body "organization_id" with
      | some organizationId =>
          .resolved (.organization organizationId "organization" (some organizationId))
      | none => .firstEditableOrganization
    return protectedWeb .pageantWrite scope actor
  else if segments = ["internal", "markets"] ∧ method = .post then
    let organizationId ← state.requiredBodyUuid body "organization_id"
    return protectedWeb .marketCreate
      (.resolved (.organization organizationId "organization" (some organizationId))) none
  else if segments.length = 4 ∧ at' 1 = "markets" then
    let marketId ← state.parse (at' 2)
    let organizationId ← pool.organizationForMarket marketId
    let plan (capability : Capability) : RequestClass :=
      protectedWeb capability
        (.resolved (.organization organizationId "prediction_market" (some marketId))) none
    if at' 3 = "policy-decisions" ∧ method = .post then return plan .marketPolicyManage
    else if at' 3 = "transitions" ∧ method = .post then
      if bodyString body "target_status" = some "pending_review" then
        return plan .marketSubmitReview
      else return plan .marketGovern
    else if at' 3 = "stake-intents" ∧ method = .post then return plan .marketStake
    else return .deny .webInternal
  else if 3 ≤ segments.length ∧ at' 1 = "market-intents" then
    let intentId ← state.parse (at' 2)
    let (organizationId, userId) ← pool.scopeForMarketIntent intentId
    let plan (capability : Capability) : RequestClass :=
      protectedWeb capability
        (.resolved (.owned organizationId userId "prediction_market_stake_intent" intentId)) none
    if segments.length = 3 ∧ method = .get then return plan .marketIntentRead
    else if segments.length = 4 ∧ at' 3 = "submission" ∧ method = .post then
      return plan .marketIntentWrite
    else return .deny .webInternal
  else return .deny .webInternal

def classifyAdmin (state : AppState) (method : Method) (segments : List String) :
    Except ApiError RequestClass :=
  let at' := segment segments
  if segments.length = 4 ∧ at' 1 = "events" ∧ at' 3 = "snapshot" ∧ method = .post then
    return protectedAdmin .snapshotWrite .site
  else if segments.length = 4 ∧ at' 1 = "snapshots" ∧ at' 3 = "anchor" ∧ method = .post then
    return protectedAdmin .snapshotWrite .site
  else if segments.length < 3 ∨ at' 1 ≠ "platform" then return .deny .adminApi
  else do
    let pool ← state.databasePool
    if segments.length = 3 ∧ at' 2 = "contract-deployments" then
      if method = .get then return protectedAdmin .contractRead .site
      else if method = .post then return protectedAdmin .contractWrite .site
      else return .deny .adminApi
    else if segments.length = 5 ∧ at' 2 = "organizations" then
      let organizationId ← state.parse (at' 3)
      let plan (capability : Capability) : RequestClass :=
        protectedAdmin capability
          (.organization organizationId "organization" (some organizationId))
      if at' 4 = "pageants" ∧ method = .post then return plan .pageantWrite
      else if (at' 4 = "products" ∨ at' 4 = "collectible-collections") ∧ method = .post then
        return plan .catalogueWrite
      else if at' 4 = "orders" ∧ method = .post then return plan .orderManage
      else return .deny .adminApi
    else if segments.length = 6 ∧ at' 2 = "organizations" ∧ at' 4 = "media" ∧
        at' 5 = "upload-intents" ∧ method = .post then
      let organizationId ← state.parse (at' 3)
      return protectedAdmin .mediaWrite
        (.organization organizationId "organization" (some organizationId))
    else if segments.length = 7 ∧ at' 2 = "organizations" ∧ at' 4 = "products" ∧
        at' 6 = "payout-rules" ∧ method = .post then
      let requestedOrganizationId ← state.parse (at' 3)
      let productId ← state.parse (at' 5)
      let organizationId ← pool.organizationForProduct productId
      if requestedOrganizationId ≠ organizationId then throw .notFound
      else
        return protectedAdmin .payoutManage (.organization organizationId "product" (some productId))
    else if segments.length = 5 ∧ at' 2 = "pageants" ∧
        (at' 4 = "categories" ∨ at' 4 = "contestants") ∧ method = .post then
      let pageantId ← state.parse (at' 3)
      let organizationId ← pool.organizationForPageant pageantId
      return protectedAdmin .pageantWrite (.organization organizationId "pageant" (some pageantId))
    else if segments.length = 5 ∧ at' 2 = "pageant-contestants" ∧ method = .post then
      let pageantContestantId ← state.parse (at' 3)
      let organizationId ← pool.organizationForPageantContestant pageantContestantId
      let plan (capability : Capability) : RequestClass :=
        protectedAdmin capability
          (.organization organizationId "pageant_contestant" (some pageantContestantId))
      if at' 4 = "sections" then return plan .pageantWrite
      else if at' 4 = "media" then return plan .mediaWrite
      else return .deny .adminApi
    else if segments.length = 5 ∧ at' 2 = "media" ∧ at' 4 = "complete" ∧ method = .post then
      let mediaAssetId ← state.parse (at' 3)
      let organizationId ← pool.organizationForMedia mediaAssetId
      return protectedAdmin .mediaWrite
        (.organization organizationId "media_asset" (some mediaAssetId))
    else if segments.length = 5 ∧ at' 2 = "collectible-collections" ∧ at' 4 = "editions" ∧
        method = .post then
      let collectionId ← state.parse (at' 3)
      let organizationId ← pool.organizationForCollection collectionId
      return protectedAdmin .catalogueWrite
        (.organization organizationId "collectible_collection" (some collectionId))
    else if 4 ≤ segments.length ∧ at' 2 = "orders" then
      let orderId ← state.parse (at' 3)
      let (organizationId, buyerUserId) ← pool.scopeForOrder orderId
      let plan (capability : Capability) : RequestClass :=
        protectedAdmin capability (.owned organizationId buyerUserId "order" orderId)
      if segments.length = 4 ∧ method = .get then return plan .orderRead
      else if segments.length = 5 ∧ at' 4 = "payment-attempts" ∧ method = .post then
        return plan .orderManage
      else if segments.length = 5 ∧ at' 4 = "stellar-intents" ∧ method = .post then
        return plan .intentWrite
      else if segments.length = 5 ∧ at' 4 = "fulfillment-jobs" ∧ method = .post then
        return plan .fulfillmentCreate
      else if segments.length = 5 ∧ at' 4 = "payout-batches" ∧ method = .post then
        return plan .payoutManage
      else return .deny .adminApi
    else if segments.length = 5 ∧ at' 2 = "payment-attempts" ∧ at' 4 = "events" ∧
        method = .post then
      let paymentAttemptId ← state.parse (at' 3)
      let (organizationId, buyerUserId) ← pool.scopeForPaymentAttempt paymentAttemptId
      return protectedAdmin .providerEventWrite
        (.owned organizationId buyerUserId "payment_attempt" paymentAttemptId)
    else if 4 ≤ segments.length ∧ at' 2 = "stellar-intents" then
      let intentId ← state.parse (at' 3)
      let (organizationId, buyerUserId) ← pool.scopeForIntent intentId
      let plan (capability : Capability) : RequestClass :=
        protectedAdmin capability (.owned organizationId buyerUserId "transaction_intent" intentId)
      if segments.length = 4 ∧ method = .get then return plan .intentRead
      else if segments.length = 5 ∧ at' 4 = "signed-envelope" ∧ method = .post then
        return plan .intentWrite
      else if segments.length = 5 ∧ (at' 4 = "submission-receipt" ∨ at' 4 = "chain-evidence") ∧
          method = .post then
        return plan .chainEvidenceWrite
      else if segments.length = 5 ∧ at' 4 = "reconciliation" ∧ method = .get then
        return plan .reconciliationRead
      else return .deny .adminApi
    else if 4 ≤ segments.length ∧ at' 2 = "fulfillment-jobs" then
      let jobId ← state.parse (at' 3)
      let (organizationId, buyerUserId) ← pool.scopeForFulfillmentJob jobId
      let plan (capability : Capability) : RequestClass :=
        protectedAdmin capability (.owned organizationId buyerUserId "fulfillment_job" jobId)
      if segments.length = 4 ∧ method = .get then return plan .fulfillmentRead
      else if segments.length = 5 ∧
          (at' 4 = "claim" ∨ at' 4 = "submission" ∨ at' 4 = "failure" ∨ at' 4 = "mint-evidence") ∧
          method = .post then
        return plan .fulfillmentOperate
      else return .deny .adminApi
    else if segments.length = 4 ∧ at' 2 = "payout-batches" ∧ method = .get then
      let payoutBatchId ← state.parse (at' 3)
      let (organizationId, buyerUserId) ← pool.scopeForPayoutBatch payoutBatchId
      return protectedAdmin .payoutRead
        (.owned organizationId buyerUserId "payout_batch" payoutBatchId)
    else return .deny .adminApi

/-- The classes of the paths that are not public by their shape. -/
def classifySegments (state : AppState) (method : Method) (segments : List String)
    (body : Option Json) : Except ApiError RequestClass :=
  let at' := segment segments
  if segments = [] then return .«public»
  else if segments = ["internal", "identity", "challenges"] ∧ method = .post then
    let requestedUserId := state.bodyUuid body "requested_user_id"
    let link : Bool := bodyString body "purpose" = some "link"
    return .tokenOnly
      { transport := .webInternal, actorRequired := link,
        expectedActorUserId := if link then requestedUserId else none, localOnly := false }
  else if segments.length = 5 ∧ at' 0 = "internal" ∧ at' 1 = "identity" ∧ at' 2 = "challenges" ∧
      at' 4 = "consume" ∧ method = .post then
    let requestedUserId := state.bodyUuid body "requested_user_id"
    return .tokenOnly
      { transport := .webInternal, actorRequired := requestedUserId.isSome,
        expectedActorUserId := requestedUserId, localOnly := false }
  else if segments = ["internal", "setup", "complete"] ∧ method = .post then
    return .tokenOnly
      { transport := .webInternal, actorRequired := true,
        expectedActorUserId := state.bodyUuid body "user_id", localOnly := false }
  else if segments = ["admin", "platform", "bootstrap"] ∧ method = .post then
    return .tokenOnly
      { transport := .adminApi, actorRequired := false, expectedActorUserId := none,
        localOnly := true }
  else if segments.length = 5 ∧ at' 0 = "internal" ∧ at' 1 = "platform" ∧ at' 2 = "payout-batches" ∧
      (at' 4 = "submission" ∨ at' 4 = "transfer-evidence" ∨ at' 4 = "failure") ∧ method = .post then
    return .tokenOnly
      { transport := .payoutWorker, actorRequired := false, expectedActorUserId := none,
        localOnly := false }
  else if at' 0 = "internal" then classifyInternal state method segments body
  else if at' 0 = "admin" then classifyAdmin state method segments
  else return .«public»

def classifyRequest (state : AppState) (method : Method) (path : String) (body : Option Json) :
    Except ApiError RequestClass :=
  if isPublicRequest method path then return .«public»
  else classifySegments state method (splitPath path) body

end CrownFi.Access
