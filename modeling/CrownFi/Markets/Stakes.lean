import CrownFi.Markets.Governance

/-!
# CrownFi.Markets.Stakes

Stake intents (`markets.rs`): a wallet says what it is going to stake, and later under
which transaction it did. Every query here runs on its own; only the insertion of an
intent has a transaction around it.
-/

namespace CrownFi.Markets.Stakes

open Lib CrownFi.Api Governance

/-- `STAKE_INTENT_TTL_MINUTES`. -/
def stakeIntentTtl : Int := seconds (15 * 60)

/-! ### Exposure -/

/-- `SUM(..)::bigint`. -/
def sumMinor (amounts : List Int) : Option Int := checkedI64 amounts.sum

/-- An intent that may still become a position. -/
def StakeIntent.pending (now : Int) (i : StakeIntent) : Bool :=
  (i.status = .awaitingSignature || i.status = .signed || i.status = .submitted) && now < i.expiresAt

/-- What the positions and the pending intents of a market, those that `counts` selects by
their user, add up to. -/
def exposure (marketId : Uuid) (counts : Uuid → Bool) (db : Database) : Option Int := do
  let positions ← sumMinor <|
    (db.positions.filter fun p => p.marketId = marketId && counts p.userId &&
      (p.status = .pending || p.status = .active)).map (·.amountMinor)
  let intents ← sumMinor <|
    (db.stakeIntents.filter fun i => i.marketId = marketId && counts i.userId &&
      StakeIntent.pending db.directory.clock i).map (·.amountMinor)
  checkedI64 (positions + intents)

def currentUserExposure (marketId userId : Uuid) (db : Database) : Option Int :=
  exposure marketId (· = userId) db

def currentMarketExposure (marketId : Uuid) (db : Database) : Option Int :=
  exposure marketId (fun _ => true) db

/-- The exposure with another stake is within the limit. -/
def requireExposure (exposure : Int) (amountMinor limit : Int) (error : String) : Handler PUnit := do
  let next ← Tx.orElse (checkedI64 (exposure + amountMinor))
    (.error (.invalidRequest "exposure_overflow"))
  Tx.require (next ≤ limit) (.error (.conflict error))

/-! ### Creating an intent -/

/-- `idempotency_key`: the header, trimmed, not empty, at most 200 bytes. -/
def readIdempotencyKey (header : Option String) : Except ApiError String :=
  match header with
  | some value => requiredText value 200 "idempotency_key_required"
  | none => .error (.invalidRequest "idempotency_key_required")

structure CreateStakeIntentRequest where
  outcomeId : Uuid
  walletAddress : String
  amountMinor : Int
  deriving DecidableEq, Repr

/-- The fields whose hash says whether two requests are the same. -/
def stakeRequestText (marketId outcomeId userId : Uuid) (walletAddress : String) (amountMinor : Int) :
    String :=
  "|".intercalate [marketId.text, outcomeId.text, userId.text, walletAddress, toString amountMinor]

/-- The verified account of the user with this address. -/
def stakeAccount (userId : Uuid) (address : String) (db : Database) : Option Uuid :=
  (db.directory.stellarAccounts.find? fun a =>
    a.userId = userId && a.network = .testnet && a.address = address && a.verified).map (·.id)

/-- The keys and checks of `prediction_market_stake_intents`, for a row inserted in a
transaction that began at `began`. -/
def stakeIntentViolation (i : StakeIntent) (began : Int) (db : Database) : Option SqlError :=
  if ¬ (0 < i.amountMinor ∧ began < i.expiresAt) then some .checkViolation
  else if db.stakeIntents.any fun j => j.id = i.id || (j.organizationId = i.organizationId &&
      j.userId = i.userId && j.idempotencyKey = i.idempotencyKey) then
    some .uniqueViolation
  else none

def insertStakeIntent (i : StakeIntent) : Handler PUnit := do
  let began ← Tx.select .other (·.directory.clock)
  Tx.insertRow .other stakeIntentTable
    [⟨.stakeIntent i.id, .update⟩,
      ⟨.stakeIntentKey i.organizationId i.userId i.idempotencyKey, .update⟩,
      ⟨.market i.marketId, .keyShare⟩, ⟨.outcome i.outcomeId, .keyShare⟩]
    (fun db => raise mapDatabaseError (stakeIntentViolation i began db)) i

def createStakeIntent (sha256 : Sha256) (userId marketId : Uuid) (idempotencyHeader : Option String)
    (body : CreateStakeIntentRequest) (intentId : Uuid) : Handler Response := do
  let market ← fetchMarketRecord marketId
  let idempotencyKey ← valid (readIdempotencyKey idempotencyHeader)
  let now ← Tx.select .other (·.directory.clock)
  Tx.require (market.status = .open) (.error (.conflict "market_not_open"))
  Tx.require (market.opensAt ≤ now && now < market.closesAt) (.error (.conflict "market_closed"))
  Tx.require (market.minStakeMinor ≤ body.amountMinor && body.amountMinor ≤ market.maxStakeMinor)
    (.error (.invalidRequest "stake_amount_outside_limits"))
  requireOutcome marketId body.outcomeId
  requirePolicyAllow marketId (some userId) .stake
  let walletAddress ← valid (validateStellarAddress body.walletAddress)
  let account ← Tx.select .other (stakeAccount userId walletAddress)
  let stellarAccountId ← Tx.orElse account (.error .forbidden)
  let requestSha256 := hashText sha256
    (stakeRequestText marketId body.outcomeId userId walletAddress body.amountMinor)
  let existing ← Tx.select .other fun db => db.stakeIntents.find? fun i =>
    i.organizationId = market.organizationId && i.userId = userId && i.idempotencyKey = idempotencyKey
  match existing with
  | some existing =>
      Tx.require (existing.requestSha256 = requestSha256)
        (.error (.conflict "idempotency_key_reused_with_changed_request"))
      return ⟨.ok, existing.id⟩
  | none =>
      let ofUser ← Tx.select (.userExposure marketId userId) (currentUserExposure marketId userId)
      let ofUser ← inRange mapDatabaseError ofUser
      requireExposure ofUser body.amountMinor market.maxUserExposureMinor
        "user_exposure_limit_exceeded"
      let ofMarket ← Tx.select .other (currentMarketExposure marketId)
      let ofMarket ← inRange mapDatabaseError ofMarket
      requireExposure ofMarket body.amountMinor market.maxMarketExposureMinor
        "market_exposure_limit_exceeded"
      insertStakeIntent
        { id := intentId, organizationId := market.organizationId, marketId
          outcomeId := body.outcomeId, userId, stellarAccountId, amountMinor := body.amountMinor
          idempotencyKey, requestSha256, status := .awaitingSignature, submittedTxHash := none
          expiresAt := min (now + stakeIntentTtl) market.closesAt, confirmedAt := none }
      Tx.commit
      return ⟨.created, intentId⟩

/-! ### Reading and submitting an intent -/

/-- An update of an intent's row; `check` is the error that its new row raises. -/
def updateStakeIntent (intentId : Uuid) (admits : StakeIntent → Bool)
    (change : StakeIntent → StakeIntent) (check : Database → StakeIntent → Option Result) :
    Handler Nat :=
  Tx.update .other stakeIntentTable (fun i => [⟨.stakeIntent i.id, .noKeyUpdate⟩])
    (fun i => i.id = intentId && admits i) change check

def expireIntentIfNeeded (intentId : Uuid) : Handler PUnit := do
  let now ← Tx.select .other (·.directory.clock)
  let _ ← updateStakeIntent intentId
    (fun i => (i.status = .awaitingSignature || i.status = .signed) && i.expiresAt ≤ now)
    ({ · with status := .expired }) fun _ _ => none
  Tx.commit

def fetchStakeIntent (intentId : Uuid) : Handler StakeIntent := do
  let intent ← Tx.select .other (stakeIntentTable.find · intentId)
  Tx.orElse intent (.error .notFound)

def requireIntentAccess (intent : StakeIntent) (actorUserId : Uuid) : Handler PUnit := do
  let administrator ← Tx.select .other (isSiteAdministrator actorUserId)
  Tx.require (intent.userId = actorUserId || administrator) (.error .forbidden)

def getMarketIntent (actorUserId intentId : Uuid) : Handler Response := do
  expireIntentIfNeeded intentId
  let intent ← fetchStakeIntent intentId
  requireIntentAccess intent actorUserId
  return ⟨.ok, intentId⟩

/-- The intent's transaction hash becomes `txHash`; no other intent may have it. -/
def submitIntent (intentId : Uuid) (txHash : String) : Handler PUnit := do
  let _ ← Tx.update (.submit intentId txHash) stakeIntentTable
    (fun i => [⟨.stakeIntent i.id, .noKeyUpdate⟩, ⟨.stakeTransaction txHash, .update⟩])
    (·.id = intentId) ({ · with status := .submitted, submittedTxHash := some txHash })
    fun db i => raise mapDatabaseError
      (if db.stakeIntents.any fun j => j.id ≠ i.id && j.submittedTxHash = some txHash then
        some .uniqueViolation else none)
  Tx.commit

def recordSubmission (actorUserId intentId : Uuid) (txHash : String) : Handler Response := do
  expireIntentIfNeeded intentId
  let intent ← fetchStakeIntent intentId
  requireIntentAccess intent actorUserId
  Tx.require (intent.status ≠ .expired) (.error (.conflict "stake_intent_expired"))
  Tx.require
    (intent.status = .awaitingSignature || intent.status = .signed || intent.status = .submitted)
    (.error (.conflict "stake_intent_not_submittable"))
  let txHash ← valid (hexString txHash 64 "invalid_transaction_hash")
  match intent.submittedTxHash with
  | some existing =>
      Tx.require (existing = txHash) (.error (.conflict "stake_intent_already_submitted"))
      return ⟨.ok, intentId⟩
  | none =>
      submitIntent intentId txHash
      return ⟨.ok, intentId⟩

end CrownFi.Markets.Stakes
