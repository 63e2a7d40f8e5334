import CrownFi.Commerce.Reconciliation
import CrownFi.Fulfillment.Schema

/-!
# CrownFi.Fulfillment.Handlers

Jobs that mint collectibles (`fulfillment.rs`). A job is queued for a paid order, claimed by a
worker, submitted to the chain with the hash of its transaction, and fulfilled by the evidence of its
mint. Evidence is stored whatever it says; only evidence that agrees with the mint confirms it.
-/

namespace CrownFi.Fulfillment

open Lib CrownFi.Api CrownFi.Stellar
open CrownFi.Commerce (Response Result Environment OrderStatus)
open CrownFi.Commerce.Reconciliation (rawHash)

/-- What the handlers take from other packages: the hash function, and how a JSON value is
written as bytes. -/
structure External where
  sha256 : Sha256
  toVec : Json → ByteArray

def hashJson (ext : External) (value : Json) : String := hashBytes ext.sha256 (ext.toVec value)

/-- `require_editor_tx`. -/
def requireEditor (organizationId userId : Uuid) : Handler PUnit := do
  let allowed ← Tx.select .other (·.shop.directory.memberEditor organizationId userId)
  Tx.require allowed (.error .forbidden)

/-- `stellar_contract`. -/
def contract (value : String) : Except ApiError String :=
  let value := String.ofList (trimUpper value)
  if isStrKey contractVersion value then .ok value
  else .error (.invalidRequest "invalid_contract_id")

/-- `validate_hex`. -/
def validateHex (value : String) (length : Nat) (code : String) : Except ApiError PUnit :=
  if byteLength value.toList ≠ length ∨ value.toList.all isHexDigit = false then
    .error (.invalidRequest code)
  else .ok ⟨⟩

/-- `load_fulfillment`: the job with its mint and its order. -/
def loadFulfillment (jobId : Uuid) : Handler PUnit := do
  let job ← Tx.select .other (jobTable.find · jobId)
  let job ← Tx.orElse job (.error .notFound)
  let mint ← Tx.select .other (mintOf jobId)
  let _ ← Tx.orElse mint (.error .database)
  let order ← Tx.select .other (orderTable.find · job.orderId)
  let _ ← Tx.orElse order (.error .database)

/-! ### Creating a job -/

structure CreateFulfillmentRequest where
  recipientAccount : String
  idempotencyKey : String
  maxAttempts : Option Int
  deriving DecidableEq, Repr

/-- The request, validated. -/
structure Fulfil where
  recipientAccount : String
  idempotencyKey : String
  maxAttempts : Int
  deriving DecidableEq, Repr

/-- The checks of the request before its transaction. -/
def CreateFulfillmentRequest.validate (body : CreateFulfillmentRequest) : Except ApiError Fulfil := do
  let recipientAccount ← account body.recipientAccount
  let idempotencyKey ← requiredChars body.idempotencyKey 200 "invalid_fulfillment_idempotency_key"
  let maxAttempts := body.maxAttempts.getD 5
  if ¬ (1 ≤ maxAttempts ∧ maxAttempts ≤ 20) then throw (.invalidRequest "invalid_max_attempts")
  return { recipientAccount, idempotencyKey, maxAttempts }

structure FulfillmentSource where
  organizationId : Uuid
  buyerUserId : Uuid
  orderStatus : OrderStatus
  environment : Environment
  orderItemId : Uuid
  productId : Uuid
  quantity : Int
  productKind : ProductKind
  collectibleEditionId : Uuid
  contractId : Option String
  metadataSha256 : Option String
  mintPolicy : MintPolicy
  /-- The row of the collection, which is locked with the others. -/
  collectionId : Uuid
  deriving DecidableEq, Repr

/-- The order joined with each of its items, and the item with the edition that it is of. -/
def fulfillmentSources (orderId : Uuid) (db : Database) : List FulfillmentSource :=
  (orderTable.find db orderId).toList.flatMap fun o =>
    (db.shop.orderItems.filter (·.orderId = orderId)).flatMap fun oi =>
      (db.kinds.filter (·.productId = oi.productId)).flatMap fun p =>
        (db.editions.filter (·.productId = oi.productId)).flatMap fun ce =>
          (db.collections.filter (·.id = ce.collectionId)).map fun cc =>
            { organizationId := o.organizationId, buyerUserId := o.buyerUserId, orderStatus := o.status
              environment := o.environment, orderItemId := oi.id, productId := oi.productId
              quantity := oi.quantity, productKind := p.kind, collectibleEditionId := ce.id
              contractId := ce.contractId.or cc.contractId
              metadataSha256 := ce.metadataSha256.or cc.metadataSha256, mintPolicy := ce.mintPolicy
              collectionId := cc.id }

/-- `FOR UPDATE OF o,oi,p,ce,cc`. -/
def FulfillmentSource.locks (s : FulfillmentSource) (orderId : Uuid) : List (Lock Row) :=
  [⟨.order orderId, .update⟩, ⟨.orderItem s.orderItemId, .update⟩, ⟨.product s.productId, .update⟩,
    ⟨.edition s.collectibleEditionId, .update⟩, ⟨.collection s.collectionId, .update⟩]

/-- An accepted reconciliation of one of the order's intents. -/
def paymentConfirmed (orderId : Uuid) (db : Database) : Bool :=
  db.shop.intents.any fun ti => ti.orderId = orderId &&
    db.shop.results.any fun sr => sr.transactionIntentId = ti.id && sr.status = .accepted

/-- The buyer has shown that the account is theirs. -/
def walletVerified (userId : Uuid) (address : String) (db : Database) : Bool :=
  db.shop.directory.stellarAccounts.any fun a =>
    a.userId = userId && a.network = .testnet && a.address = address && a.verified

def payload (s : FulfillmentSource) (orderId : Uuid) (contractId metadataSha256 recipient : String) :
    Json := .object
  [("order_id", .string orderId.text), ("order_item_id", .string s.orderItemId.text),
    ("product_id", .string s.productId.text),
    ("collectible_edition_id", .string s.collectibleEditionId.text),
    ("contract_id", .string contractId), ("recipient_account", .string recipient),
    ("metadata_sha256", .string metadataSha256), ("quantity", .int 1),
    ("network", .string "testnet")]

def mintReferenceText (s : FulfillmentSource) (contractId metadataSha256 recipient : String) : String :=
  "network=testnet;order_item=" ++ s.orderItemId.text ++ ";edition=" ++ s.collectibleEditionId.text ++
    ";contract=" ++ contractId ++ ";recipient=" ++ recipient ++ ";metadata=" ++ metadataSha256

/-- The constraints of `fulfillment_jobs` on a new row: one job for an order item. -/
def insertJob (j : FulfillmentJob) : Handler PUnit :=
  Tx.insertRow .other jobTable
    [⟨.job j.id, .update⟩, ⟨.jobOf j.orderItemId, .update⟩,
      ⟨.jobKey j.organizationId j.idempotencyKey, .update⟩, ⟨.order j.orderId, .keyShare⟩,
      ⟨.orderItem j.orderItemId, .keyShare⟩]
    (fun db => unique (db.jobs.any fun k => k.id = j.id || k.orderItemId = j.orderItemId ||
      (k.organizationId = j.organizationId && k.idempotencyKey = j.idempotencyKey))) j

/-- The unique keys of `collectible_mints`: one mint for a job, for an order item, for a reference. -/
def insertMint (m : CollectibleMint) : Handler PUnit :=
  Tx.insertRow .other mintTable
    [⟨.mint m.id, .update⟩, ⟨.mintOf m.fulfillmentJobId, .update⟩, ⟨.mintOfItem m.orderItemId, .update⟩,
      ⟨.mintReference m.mintReferenceSha256, .update⟩, ⟨.job m.fulfillmentJobId, .keyShare⟩,
      ⟨.orderItem m.orderItemId, .keyShare⟩, ⟨.edition m.collectibleEditionId, .keyShare⟩]
    (fun db => unique (db.mints.any fun n => n.id = m.id ||
      n.fulfillmentJobId = m.fulfillmentJobId || n.orderItemId = m.orderItemId ||
      n.mintReferenceSha256 = m.mintReferenceSha256)) m

/-- An update of an order's status. -/
def moveOrder (orderId : Uuid) (source target : OrderStatus) : Handler Nat :=
  Tx.update .other orderTable (fun o => [⟨.order o.id, .noKeyUpdate⟩])
    (fun o => o.id = orderId && o.status = source) ({ · with status := target }) fun _ _ => none

/-- The ids a request draws. -/
structure JobIds where
  job : Uuid
  mint : Uuid
  deriving DecidableEq, Repr

def queuedJob (s : FulfillmentSource) (orderId actorUserId jobId : Uuid) (fulfil : Fulfil)
    (payloadSha256 : String) (began : Int) : FulfillmentJob where
  id := jobId
  organizationId := s.organizationId
  orderId := orderId
  orderItemId := s.orderItemId
  status := .queued
  idempotencyKey := fulfil.idempotencyKey
  payloadSha256 := payloadSha256
  attempts := 0
  maxAttempts := fulfil.maxAttempts
  availableAt := began
  lockedAt := none
  lockedBy := none
  lastError := none
  createdByUserId := actorUserId

def queuedMint (s : FulfillmentSource) (ids : JobIds) (contractId metadataSha256 recipient : String)
    (mintReferenceSha256 : String) : CollectibleMint where
  id := ids.mint
  fulfillmentJobId := ids.job
  orderItemId := s.orderItemId
  collectibleEditionId := s.collectibleEditionId
  contractId := contractId
  recipientAccount := recipient
  metadataSha256 := metadataSha256
  mintReferenceSha256 := mintReferenceSha256
  tokenId := none
  transactionHash := none
  status := .queued
  failureCode := none

/-- What a source must be like for its collectible to be minted. -/
def FulfillmentSource.mintable (s : FulfillmentSource) : Except ApiError (String × String) := do
  if s.environment ≠ .testnet then throw (.invalidRequest "fulfillment_requires_testnet")
  if s.productKind ≠ .collectible ∨ s.quantity ≠ 1 then
    throw (.conflict "one_collectible_item_required")
  if s.mintPolicy ≠ .onPurchase then throw (.conflict "collectible_not_minted_on_purchase")
  let contractId ← okOr s.contractId (.conflict "collectible_contract_not_configured")
  validateStrkey contractId contractVersion "invalid_contract_id"
  let metadataSha256 ← okOr s.metadataSha256 (.conflict "collectible_metadata_not_finalized")
  validateHex metadataSha256 64 "invalid_metadata_sha256"
  return (contractId, metadataSha256)

def createFulfillmentJob (ext : External) (actorUserId orderId : Uuid) (body : CreateFulfillmentRequest)
    (ids : JobIds) : Handler Response := do
  let fulfil ← valid body.validate
  let began ← Tx.select .other (·.shop.directory.clock)
  let sources ← Tx.selectFor .other
    (fun db => (fulfillmentSources orderId db).flatMap (·.locks orderId)) (fulfillmentSources orderId)
  let source ← Tx.orElse sources.head? (.error .notFound)
  Tx.require (sources.length = 1) (.error (.conflict "one_collectible_item_required"))
  requireEditor source.organizationId actorUserId
  let (contractId, metadataSha256) ← valid source.mintable
  let confirmed ← Tx.select .other (paymentConfirmed orderId)
  Tx.require confirmed (.error (.conflict "indexed_payment_confirmation_required"))
  let verified ← Tx.select .other (walletVerified source.buyerUserId fulfil.recipientAccount)
  Tx.require verified (.error (.conflict "verified_buyer_testnet_wallet_required"))
  let payloadSha256 := hashJson ext
    (payload source orderId contractId metadataSha256 fulfil.recipientAccount)
  let sameKey (db : Database) := db.jobs.find? fun j =>
    j.organizationId = source.organizationId && j.idempotencyKey = fulfil.idempotencyKey
  let existing ← Tx.selectFor .other
    (fun db => (sameKey db).toList.map fun j => ⟨.job j.id, .update⟩) sameKey
  match existing with
  | some existing =>
      Tx.require (existing.payloadSha256 = payloadSha256) (.error (.conflict "idempotency_key_reused"))
      Tx.commit
      loadFulfillment existing.id
      return ⟨.ok, existing.id⟩
  | none =>
      Tx.require (source.orderStatus = .paid) (.error (.conflict "order_not_paid"))
      let mintReferenceSha256 := hashText ext.sha256
        (mintReferenceText source contractId metadataSha256 fulfil.recipientAccount)
      insertJob (queuedJob source orderId actorUserId ids.job fulfil payloadSha256 began)
      insertMint (queuedMint source ids contractId metadataSha256 fulfil.recipientAccount
        mintReferenceSha256)
      let updated ← moveOrder orderId .paid .fulfilling
      Tx.require (updated = 1) (.error (.conflict "order_state_changed"))
      Tx.commit
      loadFulfillment ids.job
      return ⟨.created, ids.job⟩

/-! ### Claiming a job -/

/-- `load_job_for_update`. -/
def loadJobForUpdate (jobId : Uuid) : Handler FulfillmentJob := do
  let job ← Tx.selectFor .other
    (fun db => (jobTable.find db jobId).toList.map fun j => ⟨.job j.id, .update⟩) (jobTable.find · jobId)
  Tx.orElse job (.error .notFound)

/-- `load_mint_for_update`. -/
def loadMintForUpdate (jobId : Uuid) : Handler CollectibleMint := do
  let mint ← Tx.selectFor .other
    (fun db => (mintOf jobId db).toList.map fun m => ⟨.mint m.id, .update⟩) (mintOf jobId)
  Tx.orElse mint (.error .notFound)

def updateJob (site : Site) (p : FulfillmentJob → Bool) (change : FulfillmentJob → FulfillmentJob) :
    Handler Nat :=
  Tx.update site jobTable (fun j => [⟨.job j.id, .noKeyUpdate⟩]) p change fun _ _ => none

/-- The constraint of `collectible_mints` on the fields of a submission. -/
def mintViolation (m : CollectibleMint) : Option SqlError :=
  match m.status with
  | .queued => if m.tokenId.isNone ∧ m.transactionHash.isNone then none else some .checkViolation
  | .submitted | .confirmed =>
      if m.tokenId.isSome ∧ m.transactionHash.isSome then none else some .checkViolation
  | .failed => none

def updateMint (p : CollectibleMint → Bool) (change : CollectibleMint → CollectibleMint) :
    Handler Nat :=
  Tx.update .other mintTable (fun m => [⟨.mint m.id, .noKeyUpdate⟩]) p change
    fun _ m => raise (mintViolation m)

def FulfillmentJob.exhaust (j : FulfillmentJob) : FulfillmentJob :=
  { j with status := .deadLetter, lastError := some "max_attempts_exhausted", lockedAt := none
           lockedBy := none }

def FulfillmentJob.claim (workerId : String) (now : Int) (j : FulfillmentJob) : FulfillmentJob :=
  { j with status := .running, attempts := j.attempts + 1, lockedAt := some now
           lockedBy := some workerId, lastError := none }

def CollectibleMint.requeue (m : CollectibleMint) : CollectibleMint :=
  { m with status := .queued, failureCode := none }

/-- The job is in the hands of this worker. -/
def FulfillmentJob.ownedBy (workerId : String) (j : FulfillmentJob) : Bool :=
  j.status = .running && j.lockedBy = some workerId

def claimFulfillmentJob (actorUserId jobId : Uuid) (workerId : String) : Handler Response := do
  let workerId ← valid (requiredChars workerId 160 "invalid_worker_id")
  let began ← Tx.select .other (·.shop.directory.clock)
  let job ← loadJobForUpdate jobId
  requireEditor job.organizationId actorUserId
  if job.ownedBy workerId then
    Tx.commit
    loadFulfillment jobId
    return ⟨.ok, jobId⟩
  else
    Tx.require (job.status = .queued || job.status = .failed)
      (.error (.conflict "fulfillment_job_not_claimable"))
    let now ← Tx.select .other (·.shop.directory.clock)
    Tx.require (job.availableAt ≤ now) (.error (.conflict "fulfillment_job_not_available"))
    if job.maxAttempts ≤ job.attempts then
      let _ ← updateJob .other (·.id = jobId) (·.exhaust)
      Tx.commit
      Tx.exit (.error (.conflict "fulfillment_attempts_exhausted"))
    else
      let _ ← updateJob .other (·.id = jobId) (·.claim workerId began)
      let _ ← updateMint (fun m => m.fulfillmentJobId = jobId && m.status = .failed) (·.requeue)
      Tx.commit
      loadFulfillment jobId
      return ⟨.ok, jobId⟩

/-! ### Submissions -/

structure MintSubmissionRequest where
  workerId : String
  transactionHash : String
  tokenId : String
  deriving DecidableEq, Repr

/-- The submission, validated. -/
structure Submission where
  workerId : String
  txHash : String
  tokenId : String
  deriving DecidableEq, Repr

def MintSubmissionRequest.validate (body : MintSubmissionRequest) : Except ApiError Submission := do
  let workerId ← requiredChars body.workerId 160 "invalid_worker_id"
  let txHash ← hexString body.transactionHash 64 "invalid_transaction_hash"
  let tokenId ← requiredChars body.tokenId 160 "invalid_token_id"
  return { workerId, txHash, tokenId }

def CollectibleMint.submit (s : Submission) (m : CollectibleMint) : CollectibleMint :=
  { m with tokenId := some s.tokenId, transactionHash := some s.txHash, status := .submitted
           failureCode := none }

def FulfillmentJob.submit (j : FulfillmentJob) : FulfillmentJob :=
  { j with status := .awaitingChain, lockedAt := none, lockedBy := none, lastError := none }

def recordMintSubmission (actorUserId jobId : Uuid) (body : MintSubmissionRequest) : Handler Response := do
  let submission ← valid body.validate
  let job ← loadJobForUpdate jobId
  requireEditor job.organizationId actorUserId
  let mint ← loadMintForUpdate jobId
  if job.status = .awaitingChain ∧ mint.status = .submitted ∧
      mint.transactionHash = some submission.txHash ∧ mint.tokenId = some submission.tokenId then
    Tx.commit
    loadFulfillment jobId
    return ⟨.ok, jobId⟩
  else
    Tx.require (job.ownedBy submission.workerId)
      (.error (.conflict "fulfillment_job_not_owned_by_worker"))
    Tx.require (mint.status = .queued) (.error (.conflict "collectible_mint_not_queued"))
    let _ ← updateMint (fun m => m.id = mint.id && m.status = .queued) (·.submit submission)
    let _ ← updateJob (.submission jobId submission.workerId submission.txHash)
      (fun j => j.id = jobId && j.status = .running) (·.submit)
    Tx.commit
    loadFulfillment jobId
    return ⟨.ok, jobId⟩

/-! ### Failures -/

structure FulfillmentFailureRequest where
  workerId : String
  errorCode : String
  retryable : Bool
  retryAfterSeconds : Option Int
  deriving DecidableEq, Repr

/-- The report of a failure, validated. -/
structure FailureReport where
  workerId : String
  errorCode : String
  retryable : Bool
  retryAfter : Int
  deriving DecidableEq, Repr

def FulfillmentFailureRequest.validate (body : FulfillmentFailureRequest) :
    Except ApiError FailureReport := do
  let workerId ← requiredChars body.workerId 160 "invalid_worker_id"
  let errorCode ← requiredChars body.errorCode 500 "invalid_fulfillment_error"
  let retryAfter := body.retryAfterSeconds.getD 30
  if ¬ (0 ≤ retryAfter ∧ retryAfter ≤ 86400) then throw (.invalidRequest "invalid_retry_after")
  return { workerId, errorCode, retryable := body.retryable, retryAfter }

def FulfillmentJob.fail (status : JobStatus) (availableAt : Int) (code : String) (j : FulfillmentJob) :
    FulfillmentJob :=
  { j with status, availableAt, lockedAt := none, lockedBy := none, lastError := some code }

def CollectibleMint.fail (code : String) (m : CollectibleMint) : CollectibleMint :=
  { m with status := .failed, failureCode := some code }

def recordFulfillmentFailure (actorUserId jobId : Uuid) (body : FulfillmentFailureRequest) :
    Handler Response := do
  let failure ← valid body.validate
  let job ← loadJobForUpdate jobId
  requireEditor job.organizationId actorUserId
  Tx.require (job.ownedBy failure.workerId) (.error (.conflict "fulfillment_job_not_owned_by_worker"))
  let willRetry := failure.retryable && job.attempts < job.maxAttempts
  let now ← Tx.select .other (·.shop.directory.clock)
  let _ ← updateJob (.failure jobId failure.workerId) (·.id = jobId)
    (·.fail (if willRetry then .failed else .deadLetter) (now + seconds failure.retryAfter)
      failure.errorCode)
  let _ ← updateMint (fun m => m.fulfillmentJobId = jobId && m.status = .queued)
    (·.fail failure.errorCode)
  let _ ← if willRetry then pure 0 else moveOrder job.orderId .fulfilling .failed
  Tx.commit
  loadFulfillment jobId
  return ⟨.ok, jobId⟩

/-! ### Evidence -/

structure MintEvidenceRequest where
  transactionHash : String
  contractId : String
  tokenId : String
  ownerAccount : String
  ledgerSequence : Int
  eventIndex : Int
  successful : Bool
  rawEvent : Json

/-- The evidence, validated. -/
structure Observed where
  txHash : String
  contractId : String
  tokenId : String
  owner : String
  ledgerSequence : Int
  eventIndex : Int
  successful : Bool
  deriving DecidableEq, Repr

/-- The checks of the request before its transaction. -/
def MintEvidenceRequest.validate (body : MintEvidenceRequest) : Except ApiError Observed := do
  if body.ledgerSequence ≤ 0 ∨ body.eventIndex < 0 then
    throw (.invalidRequest "invalid_mint_evidence_numbers")
  let txHash ← hexString body.transactionHash 64 "invalid_transaction_hash"
  let contractId ← contract body.contractId
  let tokenId ← requiredChars body.tokenId 160 "invalid_token_id"
  let owner ← account body.ownerAccount
  return { txHash, contractId, tokenId, owner, ledgerSequence := body.ledgerSequence
           eventIndex := body.eventIndex, successful := body.successful }

/-- The hash of the evidence. -/
def evidenceHash (ext : External) (o : Observed) (rawEvent : Json) : String :=
  hashJson ext (.object
    [("transaction_hash", .string o.txHash), ("contract_id", .string o.contractId),
      ("token_id", .string o.tokenId), ("owner_account", .string o.owner),
      ("ledger_sequence", .int o.ledgerSequence), ("event_index", .int o.eventIndex),
      ("successful", .bool o.successful), ("raw_event", rawEvent)])

def rawEventFailure (o : Observed) (raw : Json) : Option String :=
  if raw.getStr "event_type" ≠ some "mint" then some "raw_mint_event_type_mismatch"
  else if rawHash "transaction_hash" raw ≠ some o.txHash.toList then
    some "raw_mint_transaction_hash_mismatch"
  else if raw.getStr "contract_id" ≠ some o.contractId ∨ raw.getStr "token_id" ≠ some o.tokenId ∨
      raw.getStr "owner_account" ≠ some o.owner then
    some "raw_mint_identity_mismatch"
  else if (raw.get "ledger_sequence").bind Json.asI64 ≠ some o.ledgerSequence ∨
      (raw.get "successful").bind Json.asBool ≠ some o.successful then
    some "raw_mint_result_mismatch"
  else none

/-- `reconcile_mint_evidence`: the first disagreement between the evidence and the mint. -/
def reconcileMintEvidence (job : FulfillmentJob) (mint : CollectibleMint) (o : Observed)
    (rawEvent : Json) : Option String :=
  if job.status ≠ .awaitingChain ∨ mint.status ≠ .submitted then some "mint_not_submitted"
  else if mint.transactionHash ≠ some o.txHash then some "transaction_hash_mismatch"
  else if mint.contractId ≠ o.contractId then some "contract_id_mismatch"
  else if mint.tokenId ≠ some o.tokenId then some "token_id_mismatch"
  else if mint.recipientAccount ≠ o.owner then some "owner_account_mismatch"
  else if o.successful = false then some "mint_failed_on_chain"
  else rawEventFailure o rawEvent

/-- The unique keys of `collectible_mint_evidence`: one accepted evidence for a mint. -/
def insertEvidence (e : MintEvidence) : Handler PUnit :=
  Tx.insertRow (.evidence e.transactionHash e.eventIndex) evidenceTable
    ([⟨.evidence e.id, .update⟩, ⟨.event e.transactionHash e.eventIndex, .update⟩,
        ⟨.mint e.collectibleMintId, .keyShare⟩] ++
      if e.processingStatus = .accepted then [⟨.acceptedEvidenceOf e.collectibleMintId, .update⟩]
      else [])
    (fun db => unique (db.evidence.any fun f => f.id = e.id ||
      (f.transactionHash = e.transactionHash && f.eventIndex = e.eventIndex) ||
      (f.collectibleMintId = e.collectibleMintId && f.processingStatus = .accepted &&
        e.processingStatus = .accepted))) e

/-- The evidence as it is recorded. -/
def evidenceRow (ext : External) (o : Observed) (rawEvent : Json) (evidenceId mintId : Uuid)
    (failure : Option String) : MintEvidence where
  id := evidenceId
  collectibleMintId := mintId
  transactionHash := o.txHash
  contractId := o.contractId
  tokenId := o.tokenId
  ownerAccount := o.owner
  ledgerSequence := o.ledgerSequence
  eventIndex := o.eventIndex
  successful := o.successful
  evidenceSha256 := evidenceHash ext o rawEvent
  processingStatus := if failure.isNone then .accepted else .rejected
  reconciliationError := failure

/-- The unique keys of `ownership_projections`: one owner of what a mint made, and of a token. -/
def insertProjection (p : OwnershipProjection) : Handler PUnit :=
  Tx.insertRow .other projectionTable
    [⟨.projection p.id, .update⟩, ⟨.projectionOf p.collectibleMintId, .update⟩,
      ⟨.token p.contractId p.tokenId, .update⟩, ⟨.mint p.collectibleMintId, .keyShare⟩]
    (fun db => unique (db.projections.any fun q => q.id = p.id ||
      q.collectibleMintId = p.collectibleMintId ||
      (q.contractId = p.contractId && q.tokenId = p.tokenId))) p

def projectionRow (o : Observed) (projectionId mintId : Uuid) : OwnershipProjection where
  id := projectionId
  contractId := o.contractId
  tokenId := o.tokenId
  ownerAccount := o.owner
  collectibleMintId := mintId
  sourceTransactionHash := o.txHash
  ledgerSequence := o.ledgerSequence
  eventIndex := o.eventIndex

def CollectibleMint.confirm (m : CollectibleMint) : CollectibleMint :=
  { m with status := .confirmed, failureCode := none }

def FulfillmentJob.fulfil (j : FulfillmentJob) : FulfillmentJob :=
  { j with status := .fulfilled, lockedAt := none, lockedBy := none, lastError := none }

/-- What a quantity that is fulfilled does to the inventory. -/
def fulfilInventory (quantity : Int) (i : Commerce.Inventory) : Commerce.Inventory :=
  { i with reservedQuantity := i.reservedQuantity - quantity
           fulfilledQuantity := i.fulfilledQuantity + quantity }

/-- The jobs of an order that are not fulfilled. -/
def remainingJobs (orderId : Uuid) (db : Database) : Nat :=
  (db.jobs.filter fun j => j.orderId = orderId && j.status ≠ .fulfilled).length

/-- `UPDATE product_inventory .. FROM order_items ..`: the number of rows changed. -/
def fulfilItem (orderItemId : Uuid) : Handler Nat := do
  let item ← Tx.select .other fun db => db.shop.orderItems.find? (·.id = orderItemId)
  match item with
  | none => pure 0
  | some item =>
      Tx.update .other inventoryTable (fun i => [⟨.inventory i.productId, .noKeyUpdate⟩])
        (fun i => i.productId = item.productId && item.quantity ≤ i.reservedQuantity)
        (fulfilInventory item.quantity) fun _ i => raise (Commerce.Ticketing.inventoryViolation i)

def confirmMint (job : FulfillmentJob) (mint : CollectibleMint) (o : Observed) (projectionId : Uuid) :
    Handler PUnit := do
  let minted ← updateMint (fun m => m.id = mint.id && m.status = .submitted) (·.confirm)
  let fulfilled ← updateJob .other (fun j => j.id = job.id && j.status = .awaitingChain) (·.fulfil)
  Tx.require (minted = 1 && fulfilled = 1) (.error (.conflict "collectible_mint_state_changed"))
  insertProjection (projectionRow o projectionId mint.id)
  let moved ← fulfilItem job.orderItemId
  Tx.require (moved = 1) (.error (.conflict "inventory_fulfillment_state_changed"))
  let remaining ← Tx.select .other (remainingJobs job.orderId)
  if remaining = 0 then
    let updated ← moveOrder job.orderId .fulfilling .fulfilled
    Tx.require (updated = 1) (.error (.conflict "order_fulfillment_state_changed"))
  else pure ⟨⟩

/-- The ids a request draws. -/
structure EvidenceIds where
  evidence : Uuid
  projection : Uuid
  deriving DecidableEq, Repr

def recordMintEvidence (ext : External) (actorUserId jobId : Uuid) (body : MintEvidenceRequest)
    (ids : EvidenceIds) : Handler Response := do
  let observed ← valid body.validate
  let job ← loadJobForUpdate jobId
  requireEditor job.organizationId actorUserId
  let mint ← loadMintForUpdate jobId
  let existing ← Tx.select .other (evidenceTable.find · (observed.txHash, observed.eventIndex))
  match existing with
  | some existing =>
      Tx.require (existing.collectibleMintId = mint.id &&
          existing.evidenceSha256 = evidenceHash ext observed body.rawEvent)
        (.error (.conflict "mint_evidence_reused"))
      Tx.commit
      loadFulfillment jobId
      return ⟨if existing.processingStatus = .accepted then .ok else .conflict, jobId⟩
  | none =>
      let failure := reconcileMintEvidence job mint observed body.rawEvent
      insertEvidence (evidenceRow ext observed body.rawEvent ids.evidence mint.id failure)
      match failure with
      | none =>
          let other ← Tx.select .other fun db => db.evidence.any fun e =>
            e.collectibleMintId = mint.id && e.processingStatus = .accepted && e.id ≠ ids.evidence
          Tx.require (!other) (.error (.conflict "collectible_mint_already_confirmed"))
          confirmMint job mint observed ids.projection
          Tx.commit
          loadFulfillment jobId
          return ⟨.created, jobId⟩
      | some _ =>
          Tx.commit
          loadFulfillment jobId
          return ⟨.conflict, jobId⟩

/-! ### Requests -/

/-- What the rest of the system can replace: the tables that fulfillment only reads, and the clock. -/
structure Surroundings where
  shop : Commerce.Database
  kinds : List KindOfProduct
  collections : List CollectibleCollection
  editions : List CollectibleEdition

/-- The tables around the jobs, their orders and the inventory are replaced. -/
def surround (s : Surroundings) (db : Database) : Database :=
  { db with
    shop := { s.shop with
      orders := db.shop.orders, orderItems := db.shop.orderItems, inventory := db.shop.inventory }
    kinds := s.kinds
    collections := s.collections
    editions := s.editions }

/-- The rest of the system goes on, and time with it: whatever it does to other tables. -/
def elsewhere (s : Surroundings) : Handler Response := do
  Tx.write .other (fun _ => []) (surround s)
  Tx.commit
  return ⟨.ok, 0⟩

/-- The requests on the jobs of collectibles, and what happens besides them. -/
inductive Requests (ext : External) : Prog Database Row Site Result → Prop
  | createFulfillmentJob (actorUserId orderId : Uuid) (body : CreateFulfillmentRequest) (ids : JobIds) :
      Requests ext (createFulfillmentJob ext actorUserId orderId body ids).request
  | claimFulfillmentJob (actorUserId jobId : Uuid) (workerId : String) :
      Requests ext (claimFulfillmentJob actorUserId jobId workerId).request
  | recordMintSubmission (actorUserId jobId : Uuid) (body : MintSubmissionRequest) :
      Requests ext (recordMintSubmission actorUserId jobId body).request
  | recordFulfillmentFailure (actorUserId jobId : Uuid) (body : FulfillmentFailureRequest) :
      Requests ext (recordFulfillmentFailure actorUserId jobId body).request
  | recordMintEvidence (actorUserId jobId : Uuid) (body : MintEvidenceRequest) (ids : EvidenceIds) :
      Requests ext (recordMintEvidence ext actorUserId jobId body ids).request
  | elsewhere (s : Surroundings) : Requests ext (elsewhere s).request

end CrownFi.Fulfillment
