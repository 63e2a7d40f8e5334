import CrownFi.Access.Acl

/-!
# CrownFi.Access.Routes

The routes that the API's routers register, against the classifier.

**Seven registered routes are unreachable**: all of `ticket_transfers.rs` and the
three of `voting_anchor.rs` under `/internal`. The classifier has no case for their
second segment, so that it denies them whoever calls. The parameters never matter:
the classifier compares no parameter with a word.
-/

namespace CrownFi.Access

open Api Lib

/-! ### Paths -/

/-- A piece of a route's path: a fixed segment, or a parameter. -/
inductive Piece
  | lit (text : String)
  | param (name : String)
  deriving DecidableEq, Repr

instance : Coe String Piece := ⟨.lit⟩

def Piece.text (params : String → Uuid) : Piece → String
  | lit text => text
  | param name => Uuid.text (params name)

structure Route where
  method : Method
  pattern : List Piece
  deriving DecidableEq, Repr

/-- A slash before each segment. -/
def pathOf (segments : List String) : String :=
  String.ofList ('/' :: List.intercalate ['/'] (segments.map String.toList))

namespace Route

def segments (route : Route) (params : String → Uuid) : List String :=
  route.pattern.map (Piece.text params)

/-- The path of a request with these parameters. -/
def path (route : Route) (params : String → Uuid) : String := pathOf (route.segments params)

end Route

/-! ### Routers -/

def appRouter : List Route := [
  ⟨.get, ["health"]⟩,
  ⟨.get, ["ready"]⟩,
  ⟨.get, ["events"]⟩,
  ⟨.get, ["events", .param "event_id"]⟩,
  ⟨.get, ["events", .param "event_id", "contestants"]⟩,
  ⟨.post, ["events", .param "event_id", "vote"]⟩,
  ⟨.get, ["events", .param "event_id", "tally"]⟩,
  ⟨.post, ["admin", "events", .param "event_id", "snapshot"]⟩,
  ⟨.post, ["admin", "snapshots", .param "snapshot_id", "anchor"]⟩,
  ⟨.get, ["snapshots", .param "snapshot_id"]⟩,
  ⟨.get, ["snapshots", .param "snapshot_id", "verify"]⟩]

def identityRouter : List Route := [
  ⟨.get, ["setup", "status"]⟩,
  ⟨.post, ["internal", "identity", "challenges"]⟩,
  ⟨.post, ["internal", "identity", "challenges", .param "challenge_id", "consume"]⟩,
  ⟨.get, ["internal", "identity", "users", .param "user_id"]⟩,
  ⟨.post, ["internal", "setup", "complete"]⟩,
  ⟨.get, ["internal", "site-settings"]⟩,
  ⟨.patch, ["internal", "site-settings"]⟩]

def accessRouter : List Route := [
  ⟨.get, ["internal", "access", "organizations", .param "organization_id", "members",
    .param "actor_user_id"]⟩,
  ⟨.post, ["internal", "access", "organizations", .param "organization_id", "members"]⟩]

def manageRouter : List Route := [
  ⟨.get, ["internal", "manage", "overview", .param "user_id"]⟩,
  ⟨.post, ["internal", "manage", "pageants"]⟩,
  ⟨.patch, ["internal", "manage", "pageants"]⟩,
  ⟨.delete, ["internal", "manage", "pageants", .param "id"]⟩,
  ⟨.post, ["internal", "manage", "categories"]⟩,
  ⟨.post, ["internal", "manage", "contestants"]⟩,
  ⟨.patch, ["internal", "manage", "contestants"]⟩,
  ⟨.delete, ["internal", "manage", "contestants", .param "id"]⟩,
  ⟨.post, ["internal", "manage", "seed-miss-stellarverse"]⟩]

def marketsRouter : List Route := [
  ⟨.get, ["markets"]⟩,
  ⟨.get, ["markets", .param "market_id"]⟩,
  ⟨.post, ["internal", "markets", .param "market_id", "stake-intents"]⟩,
  ⟨.get, ["internal", "market-intents", .param "intent_id"]⟩,
  ⟨.post, ["internal", "market-intents", .param "intent_id", "submission"]⟩,
  ⟨.post, ["internal", "markets"]⟩,
  ⟨.post, ["internal", "markets", .param "market_id", "policy-decisions"]⟩,
  ⟨.post, ["internal", "markets", .param "market_id", "transitions"]⟩]

def marketPositionsRouter : List Route := [
  ⟨.post, ["market-operations", "markets", .param "market_id", "position-evidence"]⟩,
  ⟨.post, ["market-operations", "markets", .param "market_id", "settlement-plan"]⟩,
  ⟨.get, ["markets", .param "market_id", "positions-summary"]⟩,
  ⟨.get, ["markets", .param "market_id", "settlement-plan"]⟩]

def marketSettlementRouter : List Route := [
  ⟨.post, ["market-operations", "settlement-items", .param "item_id", "submission"]⟩,
  ⟨.post, ["market-operations", "settlement-items", .param "item_id", "evidence"]⟩,
  ⟨.get, ["markets", .param "market_id", "settlement-status"]⟩]

def ticketingRouter : List Route := [
  ⟨.get, ["ticketing", "pageants", .param "pageant_id", "events"]⟩,
  ⟨.post, ["ticketing", "events"]⟩,
  ⟨.get, ["ticketing", "events", .param "event_id", "products"]⟩,
  ⟨.post, ["ticketing", "events", .param "event_id", "products"]⟩,
  ⟨.post, ["ticketing", "events", .param "event_id", "on-sale"]⟩,
  ⟨.post, ["ticketing", "products", .param "ticket_product_id", "reservations"]⟩,
  ⟨.get, ["ticketing", "reservations", .param "reservation_id"]⟩]

def ticketOperationsRouter : List Route := [
  ⟨.post, ["ticket-operations", "orders", .param "order_id", "prepare-issuance"]⟩,
  ⟨.post, ["ticket-operations", "issuances", .param "issuance_id", "ownership-evidence"]⟩,
  ⟨.get, ["ticketing", "tokens", .param "token_id", "verify"]⟩,
  ⟨.post, ["ticketing", "issuances", .param "issuance_id", "check-in"]⟩]

def ticketTransfersRouter : List Route := [
  ⟨.post, ["internal", "ticketing", "issuances", .param "issuance_id", "transfers"]⟩,
  ⟨.post, ["internal", "ticketing", "transfers", .param "transfer_id", "review"]⟩,
  ⟨.post, ["internal", "ticket-operations", "transfers", .param "transfer_id", "submission"]⟩,
  ⟨.post, ["internal", "ticket-operations", "transfers", .param "transfer_id", "evidence"]⟩]

def votingRouter : List Route := [
  ⟨.post, ["voting", "rounds"]⟩,
  ⟨.get, ["voting", "rounds", .param "round_id"]⟩,
  ⟨.post, ["voting", "rounds", .param "round_id", "open"]⟩,
  ⟨.post, ["voting", "rounds", .param "round_id", "close"]⟩,
  ⟨.post, ["voting", "rounds", .param "round_id", "votes"]⟩,
  ⟨.get, ["voting", "rounds", .param "round_id", "tally"]⟩]

def votingProofsRouter : List Route := [
  ⟨.post, ["voting", "rounds", .param "round_id", "snapshot"]⟩,
  ⟨.get, ["voting", "rounds", .param "round_id", "snapshot"]⟩,
  ⟨.get, ["voting", "receipts", .param "receipt_hash", "proof"]⟩]

def votingAnchorRouter : List Route := [
  ⟨.post, ["internal", "voting", "snapshots", .param "snapshot_id", "anchor-intents"]⟩,
  ⟨.post, ["internal", "voting-anchor", "intents", .param "intent_id", "submission"]⟩,
  ⟨.post, ["internal", "voting-anchor", "intents", .param "intent_id", "evidence"]⟩,
  ⟨.get, ["voting", "rounds", .param "round_id", "anchor"]⟩]

def votingPublicRouter : List Route := [
  ⟨.get, ["voting", "pageants", .param "pageant_id", "rounds"]⟩]

def platformRouter : List Route := [
  ⟨.get, ["platform", "organizations"]⟩,
  ⟨.get, ["platform", "organizations", .param "organization_id"]⟩,
  ⟨.get, ["platform", "organizations", .param "organization_id", "pageants"]⟩,
  ⟨.get, ["platform", "pageants", .param "pageant_id", "categories"]⟩,
  ⟨.get, ["platform", "pageants", .param "pageant_id", "contestants"]⟩,
  ⟨.get, ["platform", "pageant-contestants", .param "pageant_contestant_id", "sections"]⟩,
  ⟨.post, ["admin", "platform", "bootstrap"]⟩,
  ⟨.post, ["admin", "platform", "organizations", .param "organization_id", "pageants"]⟩,
  ⟨.post, ["admin", "platform", "pageants", .param "pageant_id", "categories"]⟩,
  ⟨.post, ["admin", "platform", "pageants", .param "pageant_id", "contestants"]⟩,
  ⟨.post, ["admin", "platform", "pageant-contestants", .param "pageant_contestant_id", "sections"]⟩]

def mediaRouter : List Route := [
  ⟨.get, ["platform", "media", .param "media_asset_id"]⟩,
  ⟨.get, ["platform", "pageant-contestants", .param "pageant_contestant_id", "media"]⟩,
  ⟨.post, ["admin", "platform", "organizations", .param "organization_id", "media",
    "upload-intents"]⟩,
  ⟨.post, ["admin", "platform", "media", .param "media_asset_id", "complete"]⟩,
  ⟨.post, ["admin", "platform", "pageant-contestants", .param "pageant_contestant_id", "media"]⟩]

def commerceRouter : List Route := [
  ⟨.get, ["platform", "organizations", .param "organization_id", "products"]⟩,
  ⟨.get, ["platform", "products", .param "product_id"]⟩,
  ⟨.get, ["platform", "organizations", .param "organization_id", "collectible-collections"]⟩,
  ⟨.get, ["platform", "collectible-collections", .param "collection_id", "editions"]⟩,
  ⟨.post, ["admin", "platform", "organizations", .param "organization_id", "products"]⟩,
  ⟨.post, ["admin", "platform", "organizations", .param "organization_id",
    "collectible-collections"]⟩,
  ⟨.post, ["admin", "platform", "collectible-collections", .param "collection_id", "editions"]⟩]

def ordersRouter : List Route := [
  ⟨.post, ["admin", "platform", "organizations", .param "organization_id", "orders"]⟩,
  ⟨.get, ["admin", "platform", "orders", .param "order_id"]⟩,
  ⟨.post, ["admin", "platform", "orders", .param "order_id", "payment-attempts"]⟩,
  ⟨.post, ["admin", "platform", "payment-attempts", .param "payment_attempt_id", "events"]⟩]

def stellarIntentsRouter : List Route := [
  ⟨.post, ["admin", "platform", "orders", .param "order_id", "stellar-intents"]⟩,
  ⟨.get, ["admin", "platform", "stellar-intents", .param "intent_id"]⟩,
  ⟨.post, ["admin", "platform", "stellar-intents", .param "intent_id", "signed-envelope"]⟩]

def stellarReconciliationRouter : List Route := [
  ⟨.get, ["admin", "platform", "contract-deployments"]⟩,
  ⟨.post, ["admin", "platform", "contract-deployments"]⟩,
  ⟨.post, ["admin", "platform", "stellar-intents", .param "intent_id", "submission-receipt"]⟩,
  ⟨.post, ["admin", "platform", "stellar-intents", .param "intent_id", "chain-evidence"]⟩,
  ⟨.get, ["admin", "platform", "stellar-intents", .param "intent_id", "reconciliation"]⟩]

def fulfillmentRouter : List Route := [
  ⟨.post, ["admin", "platform", "orders", .param "order_id", "fulfillment-jobs"]⟩,
  ⟨.get, ["admin", "platform", "fulfillment-jobs", .param "job_id"]⟩,
  ⟨.post, ["admin", "platform", "fulfillment-jobs", .param "job_id", "claim"]⟩,
  ⟨.post, ["admin", "platform", "fulfillment-jobs", .param "job_id", "submission"]⟩,
  ⟨.post, ["admin", "platform", "fulfillment-jobs", .param "job_id", "failure"]⟩,
  ⟨.post, ["admin", "platform", "fulfillment-jobs", .param "job_id", "mint-evidence"]⟩]

def payoutsRouter : List Route := [
  ⟨.post, ["admin", "platform", "organizations", .param "organization_id", "products",
    .param "product_id", "payout-rules"]⟩,
  ⟨.post, ["admin", "platform", "orders", .param "order_id", "payout-batches"]⟩,
  ⟨.get, ["admin", "platform", "payout-batches", .param "batch_id"]⟩,
  ⟨.post, ["internal", "platform", "payout-batches", .param "batch_id", "submission"]⟩,
  ⟨.post, ["internal", "platform", "payout-batches", .param "batch_id", "transfer-evidence"]⟩,
  ⟨.post, ["internal", "platform", "payout-batches", .param "batch_id", "failure"]⟩]

/-- The routers in the order that `main.rs` merges them. -/
def registered : List Route :=
  appRouter ++ identityRouter ++ accessRouter ++ manageRouter ++ marketsRouter ++
    marketPositionsRouter ++ marketSettlementRouter ++ ticketingRouter ++ ticketOperationsRouter ++
    ticketTransfersRouter ++ votingRouter ++ votingProofsRouter ++ votingAnchorRouter ++
    votingPublicRouter ++ platformRouter ++ mediaRouter ++ commerceRouter ++ ordersRouter ++
    stellarIntentsRouter ++ stellarReconciliationRouter ++ fulfillmentRouter ++ payoutsRouter

/-- The routes under `/internal` whose second segment the classifier does not know. -/
def Route.unclassified (route : Route) : Bool :=
  match route.pattern with
  | .lit first :: .lit second :: _ =>
      first = "internal" && ["ticketing", "ticket-operations", "voting", "voting-anchor"].contains second
  | _ => false

/-! ### Splitting a path -/

/-- Empty segments do not count, so neither do the slashes at the ends. -/
theorem filter_splitOn_trimSlashes (path : List Char) :
    ((trimSlashes path).splitOn '/').filter (fun segment => segment ≠ []) =
      (path.splitOn '/').filter fun segment => segment ≠ [] := by
  have hfront (cs : List Char) : ((cs.dropWhile (· = '/')).splitOn '/').filter (fun s => s ≠ []) =
      (cs.splitOn '/').filter fun s => s ≠ [] := by
    induction cs with
    | nil => rfl
    | cons c cs ih =>
        by_cases hc : c = '/'
        · rw [List.dropWhile_cons_of_pos (by simpa using hc), ih, hc]
          rw [show '/' :: cs = [] ++ '/' :: cs from rfl, List.splitOn_append_cons_self]
          simp
        · rw [List.dropWhile_cons_of_neg (by simpa using hc)]
  have hback (cs : List Char) : (((cs.dropWhile (· = '/')).reverse).splitOn '/').filter (fun s => s ≠ []) =
      (cs.reverse.splitOn '/').filter fun s => s ≠ [] := by
    induction cs with
    | nil => rfl
    | cons c cs ih =>
        by_cases hc : c = '/'
        · rw [List.dropWhile_cons_of_pos (by simpa using hc), ih, hc, List.reverse_cons,
            List.splitOn_append_cons_self]
          simp
        · rw [List.dropWhile_cons_of_neg (by simpa using hc)]
  rw [trimSlashes, hback, List.reverse_reverse, hfront]

/-- **The segments of a path** are those it was made of. -/
theorem splitPath_pathOf {segments : List String} (hne : segments ≠ [])
    (hplain : ∀ s ∈ segments, s ≠ "" ∧ '/' ∉ s.toList) : splitPath (pathOf segments) = segments := by
  have hsplit : (List.intercalate ['/'] (segments.map String.toList)).splitOn '/' =
      segments.map String.toList := by
    refine List.splitOn_intercalate '/' ?_ (by simpa using hne)
    intro l hl
    obtain ⟨s, hs, rfl⟩ := List.mem_map.mp hl
    exact (hplain s hs).2
  have hfilter : (segments.map String.toList).filter (fun s => s ≠ []) =
      segments.map String.toList := by
    rw [List.filter_eq_self]
    intro l hl
    obtain ⟨s, hs, rfl⟩ := List.mem_map.mp hl
    simpa using (hplain s hs).1
  unfold splitPath pathOf
  rw [filter_splitOn_trimSlashes, String.toList_ofList]
  rw [show ('/' :: List.intercalate ['/'] (segments.map String.toList)) =
      [] ++ '/' :: List.intercalate ['/'] (segments.map String.toList) from rfl,
    List.splitOn_append_cons_self, hsplit, List.splitOn_nil, List.singleton_append,
    List.filter_cons_of_neg (by simp), hfilter, List.map_map]
  simp

theorem uuid_text_plain (u : Uuid) : Uuid.text u ≠ "" ∧ '/' ∉ (Uuid.text u).toList := by
  have hdigits : ∀ c ∈ (List.range 32).map (fun i => hexDigit (u.toNat / 16 ^ (31 - i) % 16)),
      c ∈ hexDigits := by
    intro c hc
    obtain ⟨i, -, rfl⟩ := List.mem_map.mp hc
    exact hexDigit_mem _
  unfold Uuid.text
  dsimp only
  generalize (List.range 32).map (fun i => hexDigit (u.toNat / 16 ^ (31 - i) % 16)) = digits at hdigits
  have hslash : '/' ∉ digits := by
    intro h
    exact absurd (hdigits _ h) (by decide)
  constructor
  · intro h
    have hnil := congrArg String.toList h
    rw [String.toList_ofList] at hnil
    simp at hnil
  · rw [String.toList_ofList]
    simp only [List.mem_append, List.mem_cons, not_or]
    have htake (n : Nat) (cs : List Char) (h : '/' ∉ cs) : '/' ∉ cs.take n :=
      fun hmem => h (List.mem_of_mem_take hmem)
    have hdrop (n : Nat) (cs : List Char) (h : '/' ∉ cs) : '/' ∉ cs.drop n :=
      fun hmem => h (List.mem_of_mem_drop hmem)
    grind

theorem splitPath_path {route : Route} (hne : route.pattern ≠ [])
    (hplain : ∀ piece ∈ route.pattern, ∀ text, piece = .lit text → text ≠ "" ∧ '/' ∉ text.toList)
    (params : String → Uuid) : splitPath (route.path params) = route.segments params := by
  refine splitPath_pathOf (by simpa [Route.segments] using hne) ?_
  intro s hs
  obtain ⟨piece, hpiece, rfl⟩ := List.mem_map.mp hs
  cases piece with
  | lit text => exact hplain _ hpiece text rfl
  | param name => exact uuid_text_plain _

/-- The fixed segments of the routes are words. -/
theorem registered_plain {route : Route} (h : route ∈ registered) : route.pattern ≠ [] ∧
    ∀ piece ∈ route.pattern, ∀ text, piece = .lit text → text ≠ "" ∧ '/' ∉ text.toList := by
  have hall : ∀ route ∈ registered, route.pattern ≠ [] ∧ route.pattern.all (fun piece =>
      match piece with
      | .lit text => text ≠ "" && !text.toList.contains '/'
      | .param _ => true) = true := by
    decide +kernel
  obtain ⟨hne, hwords⟩ := hall route h
  refine ⟨hne, fun piece hpiece text heq => ?_⟩
  have hword := List.all_eq_true.mp hwords piece hpiece
  subst heq
  simpa using hword

/-! ### Outcomes -/

/-- The classifier denies. -/
def Denied (outcome : Except ApiError RequestClass) : Prop :=
  ∃ transport, outcome = .ok (.deny transport)

/-- The classifier answers with a class that does not deny. -/
def Answered (outcome : Except ApiError RequestClass) : Prop :=
  ∃ answer, outcome = .ok answer ∧ ∀ transport, answer ≠ .deny transport

section Outcomes

variable {α : Type} {x : Except ApiError α} {answer : RequestClass}

@[simp] theorem denied_pure :
    Denied (pure answer) ↔ ∃ transport, answer = .deny transport := by
  simp [Denied, pure, Except.pure]

@[simp] theorem denied_ok : Denied (.ok answer) ↔ ∃ transport, answer = .deny transport := by
  simp [Denied]

@[simp] theorem not_denied_throw (e : ApiError) : ¬ Denied (throw e) := by
  simp [Denied, throw, throwThe, MonadExceptOf.throw]

@[simp] theorem denied_bind {f : α → Except ApiError RequestClass} :
    Denied (x >>= f) ↔ ∃ a, x = .ok a ∧ Denied (f a) := by
  cases x <;> simp [Denied, bind, Except.bind]

@[simp] theorem denied_map {f : α → RequestClass} :
    Denied (f <$> x) ↔ ∃ a, x = .ok a ∧ ∃ transport, f a = .deny transport := by
  cases x <;> simp [Denied, Functor.map, Except.map]

@[simp] theorem denied_ite {c : Prop} [Decidable c] {x y : Except ApiError RequestClass} :
    Denied (if c then x else y) ↔ if c then Denied x else Denied y := by
  split <;> rfl

@[simp] theorem answered_pure :
    Answered (pure answer) ↔ ∀ transport, answer ≠ .deny transport := by
  simp [Answered, pure, Except.pure]

@[simp] theorem answered_ok : Answered (.ok answer) ↔ ∀ transport, answer ≠ .deny transport := by
  simp [Answered]

@[simp] theorem answered_bind {f : α → Except ApiError RequestClass} :
    Answered (x >>= f) ↔ ∃ a, x = .ok a ∧ Answered (f a) := by
  cases x <;> simp [Answered, bind, Except.bind]

@[simp] theorem answered_map {f : α → RequestClass} :
    Answered (f <$> x) ↔ ∃ a, x = .ok a ∧ ∀ transport, f a ≠ .deny transport := by
  cases x <;> simp [Answered, Functor.map, Except.map]

@[simp] theorem answered_ite {c : Prop} [Decidable c] {x y : Except ApiError RequestClass} :
    Answered (if c then x else y) ↔ if c then Answered x else Answered y := by
  split <;> rfl

@[simp] theorem protectedWeb_ne_deny {capability : Capability} {scope : ScopeSource}
    {actor : Option Uuid} {transport : Transport} :
    protectedWeb capability scope actor ≠ .deny transport := by
  simp [protectedWeb]

@[simp] theorem protectedAdmin_ne_deny {capability : Capability} {scope : Scope}
    {transport : Transport} : protectedAdmin capability scope ≠ .deny transport := by
  simp [protectedAdmin]

end Outcomes

/-- Outside `/internal` and `/admin` everything is let pass. -/
theorem classifySegments_open (state : AppState) (method : Method) {first : String}
    (rest : List String) (body : Option Json) (hinternal : first ≠ "internal")
    (hadmin : first ≠ "admin") :
    classifySegments state method (first :: rest) body = .ok .«public» := by
  simp [classifySegments, segment, hinternal, hadmin, pure, Except.pure]

/-! ### Routes against the classifier -/

/-- The class of a request to the route, were its path not public. -/
def Route.outcome (route : Route) (state : AppState) (params : String → Uuid) (body : Option Json) :
    Except ApiError RequestClass :=
  classifySegments state route.method (route.segments params) body

/-- A database in which every resource exists and is the organisation's. -/
def everything (organizationId : Uuid) : Resources :=
  { pageants := fun _ => some organizationId
    mediaAssets := fun _ => some organizationId
    collectibleCollections := fun _ => some organizationId
    products := fun _ => some organizationId
    predictionMarkets := fun _ => some organizationId
    pageantContestants := fun id => some id
    orders := fun id => some (organizationId, id)
    paymentAttempts := fun id => some id
    transactionIntents := fun id => some (organizationId, id)
    fulfillmentJobs := fun id => some (organizationId, id)
    payoutBatches := fun id => some (organizationId, id)
    marketStakeIntents := fun id => some (organizationId, id) }

/-- A body with every identifier that the classifier asks for. -/
def everyId : Option Json :=
  some (.object
    [("organization_id", .string (Uuid.text 0)), ("pageant_id", .string (Uuid.text 0)),
      ("pageant_contestant_id", .string (Uuid.text 0))])

theorem getStr_everyId {key : String}
    (h : key ∈ ["organization_id", "pageant_id", "pageant_contestant_id"]) :
    everyId.bind (Json.getStr key) = some (Uuid.text 0) := by
  rw [List.mem_cons, List.mem_cons, List.mem_singleton] at h
  rcases h with rfl | rfl | rfl <;> rfl

/-- The route is denied just where the classifier does not know it, and otherwise reached as soon
as what it names exists. -/
structure Route.Decided (route : Route) (params : String → Uuid) : Prop where
  denied : ∀ state body, Denied (route.outcome state params body) ↔
    route.unclassified = true ∧ state.database.isSome = true
  answered : ∀ parseUuid, (∀ u, parseUuid (Uuid.text u) = some u) →
    (Answered (route.outcome ⟨some (everything (params "organization_id")), parseUuid⟩ params
      everyId) ↔ route.unclassified = false)

/-- A route outside `/internal` and `/admin`. -/
theorem decided_open {route : Route} {first : String} {rest : List Piece}
    (hpattern : route.pattern = .lit first :: rest) (hinternal : first ≠ "internal")
    (hadmin : first ≠ "admin") (params : String → Uuid) : route.Decided params := by
  have houtcome (state : AppState) (body : Option Json) :
      route.outcome state params body = .ok .«public» := by
    unfold Route.outcome Route.segments
    rw [hpattern]
    exact classifySegments_open state _ _ body hinternal hadmin
  have hclassified : route.unclassified = false := by
    unfold Route.unclassified
    rw [hpattern]
    cases rest with
    | nil => rfl
    | cons second _ =>
        cases second with
        | lit second => simp [hinternal]
        | param _ => rfl
  constructor
  · intro state body
    simp [houtcome, hclassified]
  · intro parseUuid _
    simp [houtcome, hclassified]

/-- The routers with routes that the classifier reaches in `classify_internal`. -/
def internalRouters : List Route :=
  identityRouter ++ accessRouter ++ manageRouter ++ marketsRouter ++ ticketTransfersRouter ++
    votingAnchorRouter

/-- The routers with routes that it reaches in `classify_admin`. -/
def adminRouters : List Route :=
  appRouter ++ platformRouter ++ mediaRouter ++ commerceRouter ++ ordersRouter ++ stellarIntentsRouter ++
    stellarReconciliationRouter ++ fulfillmentRouter ++ payoutsRouter

theorem internalRouters_decided (params : String → Uuid) :
    ∀ route ∈ internalRouters, route.Decided params := by
  simp only [internalRouters, identityRouter, accessRouter, manageRouter, marketsRouter,
    ticketTransfersRouter, votingAnchorRouter, List.cons_append, List.nil_append,
    List.forall_mem_cons, List.not_mem_nil, false_imp_iff, implies_true, and_true]
  and_intros
  all_goals
    constructor
    · intro state body
      simp [Route.outcome, Route.segments, Piece.text, classifySegments, segment,
        Route.unclassified, classifyInternal, AppState.databasePool, Option.isSome_iff_exists]
    · intro parseUuid hparse
      simp [Route.outcome, Route.segments, Piece.text, classifySegments, segment,
        Route.unclassified, classifyInternal, everything, hparse, getStr_everyId,
        AppState.databasePool, AppState.parse, AppState.requiredBodyUuid, AppState.bodyUuid,
        Resources.organizationForPageant, Resources.organizationFor,
        Resources.organizationForPageantContestant, Resources.organizationForMarket,
        Resources.scopeForMarketIntent]

theorem adminRouters_decided (params : String → Uuid) :
    ∀ route ∈ adminRouters, route.Decided params := by
  simp only [adminRouters, appRouter, platformRouter, mediaRouter, commerceRouter, ordersRouter,
    stellarIntentsRouter, stellarReconciliationRouter, fulfillmentRouter, payoutsRouter,
    List.cons_append, List.nil_append, List.forall_mem_cons, List.not_mem_nil, false_imp_iff,
    implies_true, and_true]
  and_intros
  all_goals
    constructor
    · intro state body
      simp [Route.outcome, Route.segments, Piece.text, classifySegments, segment,
        Route.unclassified, classifyAdmin]
    · intro parseUuid hparse
      simp [Route.outcome, Route.segments, Piece.text, classifySegments, segment,
        Route.unclassified, classifyAdmin, everything, hparse, AppState.databasePool,
        AppState.parse, Resources.organizationForPageant, Resources.organizationFor,
        Resources.organizationForPageantContestant, Resources.organizationForMedia,
        Resources.organizationForCollection, Resources.organizationForProduct,
        Resources.scopeForOrder, Resources.scopeForPaymentAttempt, Resources.scopeThroughOrder,
        Resources.scopeForIntent, Resources.scopeForFulfillmentJob, Resources.scopeForPayoutBatch]

/-- The routers whose routes are all outside `/internal` and `/admin`. -/
def openRouters : List Route :=
  marketPositionsRouter ++ marketSettlementRouter ++ ticketingRouter ++ ticketOperationsRouter ++
    votingRouter ++ votingProofsRouter ++ votingPublicRouter

theorem openRouters_decided (params : String → Uuid) :
    ∀ route ∈ openRouters, route.Decided params := by
  have hall : ∀ route ∈ openRouters,
      ∃ first ∈ ["market-operations", "markets", "ticketing", "ticket-operations", "voting"],
        route.pattern.head? = some (.lit first) := by
    decide +kernel
  intro route h
  obtain ⟨first, hfirst, hhead⟩ := hall route h
  obtain ⟨rest, hpattern⟩ := List.head?_eq_some_iff.mp hhead
  refine decided_open hpattern ?_ ?_ params
  · rintro rfl
    exact absurd hfirst (by decide)
  · rintro rfl
    exact absurd hfirst (by decide)

theorem registered_decided {route : Route} (h : route ∈ registered) (params : String → Uuid) :
    route.Decided params := by
  have hsome : route ∈ internalRouters ∨ route ∈ adminRouters ∨ route ∈ openRouters := by
    unfold registered at h
    unfold internalRouters adminRouters openRouters
    simp only [List.mem_append] at h ⊢
    grind
  rcases hsome with h | h | h
  · exact internalRouters_decided params route h
  · exact adminRouters_decided params route h
  · exact openRouters_decided params route h

/-- A path under `/internal` is not public. -/
theorem isPublicRequest_internal (method : Method) (rest : List String) :
    isPublicRequest method (pathOf ("internal" :: rest)) = false := by
  have hpath : ∃ cs, (pathOf ("internal" :: rest)).toList = '/' :: 'i' :: cs := by
    unfold pathOf
    rw [String.toList_ofList, List.map_cons, show "internal".toList = 'i' :: "nternal".toList by decide]
    cases rest with
    | nil => exact ⟨_, rfl⟩
    | cons second rest => exact ⟨_, rfl⟩
  obtain ⟨cs, hcs⟩ := hpath
  have hne {other : String} (h : ∀ cs, other.toList ≠ '/' :: 'i' :: cs) :
      pathOf ("internal" :: rest) ≠ other := by
    intro heq
    exact h cs (heq ▸ hcs)
  have hprefix {leading : String} {c : Char} {tail : List Char} (h : leading.toList = '/' :: c :: tail)
      (hc : c ≠ 'i') : startsWith (pathOf ("internal" :: rest)) leading = false := by
    unfold startsWith
    rw [h, hcs]
    simp [List.isPrefixOf, hc]
  have hhealth : pathOf ("internal" :: rest) ≠ "/health" := hne (by simp)
  have hready : pathOf ("internal" :: rest) ≠ "/ready" := hne (by simp)
  have hsetup : pathOf ("internal" :: rest) ≠ "/setup/status" := hne (by simp)
  have hevents : pathOf ("internal" :: rest) ≠ "/events" := hne (by simp)
  have hmarkets : pathOf ("internal" :: rest) ≠ "/markets" := hne (by simp)
  have horganizations : pathOf ("internal" :: rest) ≠ "/platform/organizations" := hne (by simp)
  have hevent : startsWith (pathOf ("internal" :: rest)) "/events/" = false :=
    hprefix (by rfl) (by decide)
  have hsnapshot : startsWith (pathOf ("internal" :: rest)) "/snapshots/" = false :=
    hprefix (by rfl) (by decide)
  have hmarket : startsWith (pathOf ("internal" :: rest)) "/markets/" = false :=
    hprefix (by rfl) (by decide)
  have hplatform : startsWith (pathOf ("internal" :: rest)) "/platform/" = false :=
    hprefix (by rfl) (by decide)
  simp [isPublicRequest, hhealth, hready, hsetup, hevents, hmarkets, horganizations, hevent, hsnapshot,
    hmarket, hplatform]

/-- A route that the classifier does not know is not public. -/
theorem not_public_of_unclassified {route : Route} (h : route.unclassified = true)
    (params : String → Uuid) : isPublicRequest route.method (route.path params) = false := by
  unfold Route.unclassified at h
  split at h
  · rename_i first second rest hpattern
    rw [Bool.and_eq_true, decide_eq_true_eq] at h
    obtain ⟨rfl, -⟩ := h
    unfold Route.path Route.segments
    rw [hpattern]
    exact isPublicRequest_internal _ _
  · cases h

/-- **The table and the routers.** Whatever the parameters of its path, a registered route is denied
if and only if the classifier does not know its second segment. Where it is known, some state and
body have a request to it answered; where it is not, none has. -/
theorem registered_denied_iff {parseUuid : String → Option Uuid}
    (hparse : ∀ u, parseUuid (Uuid.text u) = some u) {route : Route} (h : route ∈ registered)
    (params : String → Uuid) :
    (∀ database body,
      Denied (classifyRequest ⟨database, parseUuid⟩ route.method (route.path params) body) ↔
        route.unclassified = true ∧ database.isSome = true) ∧
    ((∃ database body,
      Answered (classifyRequest ⟨some database, parseUuid⟩ route.method (route.path params) body)) ↔
        route.unclassified = false) := by
  have hdecided := registered_decided h params
  obtain ⟨hne, hplain⟩ := registered_plain h
  unfold classifyRequest
  rw [splitPath_path hne hplain]
  cases hpublic : isPublicRequest route.method (route.path params) with
  | true =>
      have hclassified : route.unclassified = false := by
        cases hunclassified : route.unclassified with
        | false => rfl
        | true => exact absurd hpublic (by simp [not_public_of_unclassified hunclassified params])
      rw [hclassified]
      constructor
      · intro database body
        simp
      · have hanswered : ∃ (database : Resources) (body : Option Json), Answered (.ok .«public») :=
          ⟨everything 0, none, by simp⟩
        simpa using hanswered
  | false =>
      simp only [Bool.false_eq_true, if_false]
      refine ⟨fun database body => hdecided.denied ⟨database, parseUuid⟩ body, ?_⟩
      constructor
      · rintro ⟨database, body, answer, hanswer, hne⟩
        cases hunclassified : route.unclassified with
        | false => rfl
        | true =>
            obtain ⟨transport, hdeny⟩ :=
              (hdecided.denied ⟨some database, parseUuid⟩ body).mpr ⟨hunclassified, rfl⟩
            have hsame : Except.ok answer = .ok (.deny transport) := hanswer.symm.trans hdeny
            cases hsame
            exact absurd rfl (hne transport)
      · intro hclassified
        exact ⟨_, _, (hdecided.answered parseUuid hparse).mpr hclassified⟩

/-! ### A request for a transfer -/

/-- The identifier of 32 hexadecimal digits, hyphens aside. -/
def readUuid (text : String) : Option Uuid :=
  let digits := text.toList.filter (· ≠ '-')
  if digits.length = 32 ∧ digits.all hexDigits.contains then
    some (BitVec.ofNat 128 ((digits.map hexDigits.idxOf).foldl (fun n digit => n * 16 + digit) 0))
  else none

/-- A number is what its lowest digits spell, as far as they go. -/
theorem foldl_digits (n k : Nat) :
    ((List.range k).map fun i => n / 16 ^ (k - 1 - i) % 16).foldl (fun n digit => n * 16 + digit) 0 =
      n % 16 ^ k := by
  induction k generalizing n with
  | zero => simp [Nat.mod_one]
  | succ k ih =>
      have hfront : (List.range k).map (fun i => n / 16 ^ (k + 1 - 1 - i) % 16) =
          (List.range k).map fun i => n / 16 / 16 ^ (k - 1 - i) % 16 := by
        refine List.map_congr_left fun i hi => ?_
        have hlt := List.mem_range.mp hi
        rw [Nat.div_div_eq_div_mul, ← Nat.pow_succ', show (k - 1 - i).succ = k + 1 - 1 - i by omega]
      rw [List.range_succ, List.map_append, List.foldl_append, hfront, ih]
      simp only [List.map_cons, List.map_nil, List.foldl_cons, List.foldl_nil]
      rw [show k + 1 - 1 - k = 0 by omega, Nat.pow_zero, Nat.div_one, Nat.pow_succ', Nat.mod_mul]
      omega

theorem idxOf_hexDigit {n : Nat} (h : n < 16) : hexDigits.idxOf (hexDigit n) = n := by
  have hall : ∀ d : Fin 16, hexDigits.idxOf (hexDigit d) = d := by decide
  exact hall ⟨n, h⟩

/-- The hyphens of an identifier stand between its digits. -/
theorem filter_hyphens {digits : List Char} (h : '-' ∉ digits) :
    (digits.take 8 ++ '-' :: (digits.drop 8).take 4 ++ '-' :: (digits.drop 12).take 4 ++
      '-' :: (digits.drop 16).take 4 ++ '-' :: digits.drop 20).filter (· ≠ '-') = digits := by
  have hplain (cs : List Char) (hcs : ∀ c ∈ cs, c ∈ digits) : cs.filter (· ≠ '-') = cs := by
    rw [List.filter_eq_self]
    intro c hc
    rw [decide_eq_true_eq]
    rintro rfl
    exact h (hcs _ hc)
  have hgroup (n : Nat) : ((digits.drop n).take 4).filter (· ≠ '-') = (digits.drop n).take 4 :=
    hplain _ fun c hc => List.mem_of_mem_drop (List.mem_of_mem_take hc)
  have hfirst : (digits.take 8).filter (· ≠ '-') = digits.take 8 :=
    hplain _ fun c hc => List.mem_of_mem_take hc
  have hlast : (digits.drop 20).filter (· ≠ '-') = digits.drop 20 :=
    hplain _ fun c hc => List.mem_of_mem_drop hc
  have hjoin (n : Nat) : (digits.drop n).take 4 ++ digits.drop (n + 4) = digits.drop n := by
    rw [← List.drop_drop, List.take_append_drop]
  have hhyphen (cs : List Char) : ('-' :: cs).filter (· ≠ '-') = cs.filter (· ≠ '-') :=
    List.filter_cons_of_neg (by simp)
  simp only [List.filter_append, hhyphen, hgroup, hfirst, hlast, List.append_assoc]
  rw [hjoin 16, hjoin 12, hjoin 8, List.take_append_drop]

theorem readUuid_text (u : Uuid) : readUuid (Uuid.text u) = some u := by
  have hmem : ∀ c ∈ (List.range 32).map (fun i => hexDigit (u.toNat / 16 ^ (31 - i) % 16)),
      c ∈ hexDigits := by
    intro c hc
    obtain ⟨i, -, rfl⟩ := List.mem_map.mp hc
    exact hexDigit_mem _
  have hdigits : (Uuid.text u).toList.filter (· ≠ '-') =
      (List.range 32).map fun i => hexDigit (u.toNat / 16 ^ (31 - i) % 16) := by
    unfold Uuid.text
    rw [String.toList_ofList]
    exact filter_hyphens fun h => absurd (hmem _ h) (by decide)
  have hvalues : ((List.range 32).map fun i => hexDigit (u.toNat / 16 ^ (31 - i) % 16)).map
      hexDigits.idxOf = (List.range 32).map fun i => u.toNat / 16 ^ (32 - 1 - i) % 16 := by
    rw [List.map_map]
    exact List.map_congr_left fun i _ => idxOf_hexDigit (Nat.mod_lt _ (by decide))
  unfold readUuid
  rw [hdigits]
  dsimp only
  rw [hvalues, foldl_digits, if_pos]
  · rw [Nat.mod_eq_of_lt (by have := u.isLt; omega), BitVec.ofNat_toNat]
    simp
  · constructor
    · simp
    · rw [List.all_eq_true]
      intro c hc
      simpa using hmem c hc

/-- Where a buyer asks to transfer a ticket. -/
def transferRoute : Route :=
  ⟨.post, ["internal", "ticketing", "issuances", .param "issuance_id", "transfers"]⟩

/-- The request for a transfer is denied, as its route is not known to the classifier. -/
theorem transferRoute_unreachable :
    (∀ database body, Denied (classifyRequest ⟨database, readUuid⟩ transferRoute.method
      (transferRoute.path fun _ => 7) body) ↔
        transferRoute.unclassified = true ∧ database.isSome = true) ∧
    ((∃ database body, Answered (classifyRequest ⟨some database, readUuid⟩ transferRoute.method
      (transferRoute.path fun _ => 7) body)) ↔ transferRoute.unclassified = false) :=
  registered_denied_iff readUuid_text (by decide +kernel) fun _ => 7

/-- A registered route that the classifier denies although all its resources exist. -/
theorem transfer_denied :
    transferRoute ∈ registered ∧
      classifyRequest ⟨some (everything 1), readUuid⟩ transferRoute.method
        (transferRoute.path fun _ => 7) none = .ok (.deny .webInternal) := by
  decide +kernel

end CrownFi.Access
