import CrownFi.Commerce.Payments
import CrownFi.Lib.Preserving
import CrownFi.Stellar.Integrity

/-!
# CrownFi.Commerce.Envelopes

**Signed envelopes of stored intents.** Every intent in the database keeps the hash of the
transaction that was built from its own terms, whatever requests run beside each other: the
one request that inserts intents builds the envelope from the row it inserts, and every
update leaves the terms alone. So the envelopes that are accepted for a stored intent are
those that carry the body built for it.
-/

namespace CrownFi.Commerce

open Lib CrownFi.Api CrownFi.Stellar Intents

/-- The envelope and the hashes of an intent are what was built from its own terms. -/
def Authentic (sha256 : Sha256) (i : TransactionIntent) : Prop :=
  ∃ t, (TransactionIntent.terms i).Describes t ∧
    (⟨i.unsignedEnvelopeXdr, i.transactionBodySha256, i.unsignedEnvelopeSha256⟩ : BuiltEnvelope) =
      t.built sha256

/-- An intent that was not changed in what its envelope was built from. -/
theorem Authentic.of_same {sha256 : Sha256} {i j : TransactionIntent} (h : Authentic sha256 i)
    (hterms : TransactionIntent.terms j = TransactionIntent.terms i)
    (hxdr : j.unsignedEnvelopeXdr = i.unsignedEnvelopeXdr)
    (hbody : j.transactionBodySha256 = i.transactionBodySha256)
    (hunsigned : j.unsignedEnvelopeSha256 = i.unsignedEnvelopeSha256) : Authentic sha256 j := by
  obtain ⟨t, hdescribes, hbuilt⟩ := h
  exact ⟨t, hterms ▸ hdescribes, by rw [hxdr, hbody, hunsigned, hbuilt]⟩

def AllAuthentic (sha256 : Sha256) (db : Database) : Prop :=
  ∀ i ∈ db.intents, Authentic sha256 i

/-- The handler leaves every intent as it was built. -/
abbrev KeepsAuthentic {α : Type} (sha256 : Sha256) (h : Handler α) : Prop :=
  h.Preserves (AllAuthentic sha256) fun _ => True

/-! ### Requests that write no intent -/

section Others

variable {sha256 : Sha256}

theorem valid_authentic {α : Type} {e : Except ApiError α} :
    (valid e).Preserves (AllAuthentic sha256) fun a => e = .ok a :=
  .ofExcept

theorem requireEditor_authentic {organizationId userId : Uuid} :
    KeepsAuthentic sha256 (requireEditor organizationId userId) := by
  unfold requireEditor
  refine .bind .select fun allowed _ => ?_
  exact Tx.Preserves.require.weaken

theorem updateInventoryAt_authentic {site : Site} {map : SqlError → ApiError} {productId : Uuid}
    {admits : Inventory → Bool} {change : Inventory → Inventory} :
    KeepsAuthentic sha256 (Ticketing.updateInventoryAt site map productId admits change) :=
  .update fun _ _ h => h

theorem updateInventory_authentic {map : SqlError → ApiError} {productId : Uuid}
    {admits : Inventory → Bool} {change : Inventory → Inventory} :
    KeepsAuthentic sha256 (Ticketing.updateInventory map productId admits change) :=
  updateInventoryAt_authentic

theorem reserveInventory_authentic {map : SqlError → ApiError} {productId : Uuid} {quantity : Int} :
    KeepsAuthentic sha256 (Ticketing.reserveInventory map productId quantity) :=
  .bind .select fun _ _ => .bind .require fun _ _ => updateInventory_authentic

theorem updateAttempt_authentic {attemptId : Uuid} {admits : PaymentAttempt → Bool}
    {change : PaymentAttempt → PaymentAttempt} :
    KeepsAuthentic sha256 (Orders.updateAttempt attemptId admits change) :=
  .update fun _ _ h => h

theorem releaseHold_authentic (hold : Ticketing.ExpiredHold) :
    KeepsAuthentic sha256 (Ticketing.releaseHold hold) := by
  unfold Ticketing.releaseHold
  refine .bind (.update fun _ _ h => h) fun _ _ => ?_
  refine .bind (.update fun _ _ h => h) fun _ _ => ?_
  exact .bind updateInventoryAt_authentic fun _ _ => .pure trivial

theorem releaseHolds_authentic (holds : List Ticketing.ExpiredHold) :
    KeepsAuthentic sha256 (Ticketing.releaseHolds holds) := by
  induction holds with
  | nil => exact .pure trivial
  | cons hold rest ih => exact .bind (releaseHold_authentic hold) fun _ _ => ih

theorem createReservation_authentic (buyerUserId ticketProductId : Uuid)
    (body : Ticketing.CreateReservationRequest) (ids : Ticketing.ReservationIds) :
    KeepsAuthentic sha256 (Ticketing.createReservation sha256 buyerUserId ticketProductId body ids) := by
  unfold Ticketing.createReservation
  refine .bind .require fun _ _ => ?_
  refine .bind valid_authentic fun key _ => ?_
  refine .bind .select fun began _ => ?_
  refine .bind (.bind .selectFor fun holds _ => releaseHolds_authentic holds) fun _ _ => ?_
  refine .bind .selectFor fun row _ => ?_
  refine .bind .orElse fun available _ => ?_
  refine .bind .select fun now _ => ?_
  refine .bind .require fun _ _ => ?_
  refine .bind .select fun buyerValid _ => ?_
  refine .bind .require fun _ _ => ?_
  refine .bind .selectFor fun existing _ => ?_
  cases existing with
  | some existing =>
      refine .bind .require fun _ _ => ?_
      exact .bind .commit fun _ _ => .pure trivial
  | none =>
      refine .bind .select fun held _ => ?_
      refine .bind .require fun _ _ => ?_
      refine .bind .require fun _ _ => ?_
      refine .bind .require fun _ _ => ?_
      refine .bind .orElse fun total _ => ?_
      refine .bind (.insertRow fun _ h => h) fun _ _ => ?_
      refine .bind (.insertRow fun _ h => h) fun _ _ => ?_
      refine .bind reserveInventory_authentic fun updated _ => ?_
      refine .bind .require fun _ _ => ?_
      refine .bind (.insertRow fun _ h => h) fun _ _ => ?_
      exact .bind .commit fun _ _ => .pure trivial

theorem createOrder_authentic (actorUserId organizationId : Uuid) (body : Orders.CreateOrderRequest)
    (orderId itemId : Uuid) :
    KeepsAuthentic sha256 (Orders.createOrder sha256 actorUserId organizationId body orderId itemId) := by
  unfold Orders.createOrder
  refine .bind requireEditor_authentic fun _ _ => ?_
  refine .bind .require fun _ _ => ?_
  refine .bind valid_authentic fun environment _ => ?_
  refine .bind valid_authentic fun key _ => ?_
  refine .bind .select fun began _ => ?_
  refine .bind .selectFor fun existing _ => ?_
  cases existing with
  | some existing =>
      refine .bind .require fun _ _ => ?_
      exact .bind .commit fun _ _ => .pure trivial
  | none =>
      refine .bind .selectFor fun row _ => ?_
      refine .bind .orElse fun catalogue _ => ?_
      refine .bind .require fun _ _ => ?_
      refine .bind .require fun _ _ => ?_
      refine .bind .orElse fun total _ => ?_
      refine .bind .require fun _ _ => ?_
      refine .bind (.insertRow fun _ h => h) fun _ _ => ?_
      refine .bind (.insertRow fun _ h => h) fun _ _ => ?_
      refine .bind reserveInventory_authentic fun updated _ => ?_
      refine .bind .require fun _ _ => ?_
      exact .bind .commit fun _ _ => .pure trivial

theorem createPaymentAttempt_authentic (actorUserId orderId : Uuid)
    (body : Orders.CreatePaymentAttemptRequest) (attemptId : Uuid) :
    KeepsAuthentic sha256 (Orders.createPaymentAttempt actorUserId orderId body attemptId) := by
  unfold Orders.createPaymentAttempt
  refine .bind valid_authentic fun provider _ => ?_
  refine .bind valid_authentic fun reference _ => ?_
  refine .bind valid_authentic fun payer _ => ?_
  refine .bind .selectFor fun row _ => ?_
  refine .bind .orElse fun order _ => ?_
  refine .bind requireEditor_authentic fun _ _ => ?_
  refine .bind .require fun _ _ => ?_
  refine .bind (.insertRow fun _ h => h) fun _ _ => ?_
  exact .bind .commit fun _ _ => .pure trivial

theorem applyOutcome_authentic (attempt : PaymentAttempt) (outcome : Outcome) :
    KeepsAuthentic sha256 (Orders.applyOutcome attempt outcome) := by
  cases outcome with
  | confirmed =>
      refine .bind updateAttempt_authentic fun _ _ => ?_
      exact .bind (.update fun _ _ h => h) fun _ _ => .pure trivial
  | failed => exact .bind updateAttempt_authentic fun _ _ => .pure trivial

theorem recordPaymentEvent_authentic (toVec : Json → ByteArray) (actorUserId attemptId : Uuid)
    (body : Orders.RecordPaymentEventRequest) (eventId : Uuid) :
    KeepsAuthentic sha256
      (Orders.recordPaymentEvent sha256 toVec actorUserId attemptId body eventId) := by
  unfold Orders.recordPaymentEvent
  refine .bind valid_authentic fun payment _ => ?_
  refine .bind .selectFor fun row _ => ?_
  refine .bind .orElse fun found _ => ?_
  obtain ⟨attempt, order⟩ := found
  refine .bind requireEditor_authentic fun _ _ => ?_
  refine .bind .select fun existing _ => ?_
  cases existing with
  | some existing =>
      refine .bind .require fun _ _ => ?_
      exact .bind .commit fun _ _ => .pure trivial
  | none =>
      refine .bind .require fun _ _ => ?_
      refine .bind (.insertRow fun _ h => h) fun _ _ => ?_
      generalize Orders.reconcileEvent attempt payment = reconciliationError
      cases reconciliationError with
      | some _ => exact .bind .commit fun _ _ => .pure trivial
      | none =>
          refine .bind (applyOutcome_authentic attempt payment.outcome) fun _ _ => ?_
          exact .bind .commit fun _ _ => .pure trivial

theorem insertIssuances_authentic (context : Issuance.PaidOrderContext)
    (orderId ownerStellarAccountId : Uuid) (currentSerial : Int) (ids : Int → Uuid) (offset : Int)
    (count : Nat) :
    KeepsAuthentic sha256
      (Issuance.insertIssuances context orderId ownerStellarAccountId currentSerial ids offset count) := by
  induction count generalizing offset with
  | zero => exact .pure trivial
  | succ count ih =>
      refine .bind .orElse fun serial _ => ?_
      exact .bind (.insertRow fun _ h => h) fun _ _ => ih _

theorem moveOrder_authentic {orderId : Uuid} {source target : OrderStatus} :
    KeepsAuthentic sha256 (Issuance.moveOrder orderId source target) :=
  .update fun _ _ h => h

theorem prepareIssuance_authentic (orderId : Uuid) (ids : Int → Uuid) :
    KeepsAuthentic sha256 (Issuance.prepareIssuance orderId ids) := by
  unfold Issuance.prepareIssuance
  refine .bind .selectFor fun row _ => ?_
  refine .bind .orElse fun context _ => ?_
  refine .bind .select fun existing _ => .ite (fun _ => ?_) fun _ => ?_
  · refine .bind .require fun _ _ => ?_
    refine .bind .select fun accepted _ => ?_
    refine .bind .require fun _ _ => ?_
    refine .bind .select fun owner _ => ?_
    refine .bind .orElse fun owner _ => ?_
    refine .bind .selectFor fun _ _ => ?_
    refine .bind .select fun serial _ => ?_
    refine .bind (insertIssuances_authentic _ _ _ _ _ _ _) fun _ _ => ?_
    refine .bind updateInventory_authentic fun updated _ => ?_
    refine .bind .require fun _ _ => ?_
    refine .bind (.update fun _ _ h => h) fun _ _ => ?_
    refine .bind moveOrder_authentic fun _ _ => ?_
    exact .bind .commit fun _ _ => .pure trivial
  · exact .bind .commit fun _ _ => .pure trivial

theorem acceptOwnershipEvidence_authentic (issuanceId : Uuid) (body : Issuance.OwnershipEvidenceRequest)
    (evidenceId : Uuid) :
    KeepsAuthentic sha256 (Issuance.acceptOwnershipEvidence issuanceId body evidenceId) := by
  unfold Issuance.acceptOwnershipEvidence
  refine .bind valid_authentic fun mint _ => ?_
  refine .bind .selectFor fun row _ => ?_
  refine .bind .orElse fun issuance _ => ?_
  refine .bind .select fun existing _ => ?_
  cases existing with
  | some existing =>
      refine .bind .require fun _ _ => ?_
      exact .bind .commit fun _ _ => .pure trivial
  | none =>
      refine .bind .require fun _ _ => ?_
      refine .bind .select fun owner _ => ?_
      refine .bind .orElse fun owner _ => ?_
      refine .bind .require fun _ _ => ?_
      refine .bind (.insertRow fun _ h => h) fun _ _ => ?_
      refine .bind (.update fun _ _ h => h) fun _ _ => ?_
      refine .bind .select fun remaining _ => ?_
      have hend : KeepsAuthentic sha256 (do
          let view ← Tx.select .other (Issuance.loadOwnership issuanceId)
          Tx.require view.isSome (.error .notFound)
          Tx.commit
          return (⟨.created, issuanceId⟩ : Response)) := by
        refine .bind .select fun view _ => ?_
        refine .bind .require fun _ _ => ?_
        exact .bind .commit fun _ _ => .pure trivial
      -- the order is moved on in one of the two cases, and the end is the same
      refine .ite (fun _ => ?_) fun _ => ?_
      · exact .bind moveOrder_authentic fun _ _ => hend
      · exact .bind (.pure (Q := fun _ => True) trivial) fun _ _ => hend

theorem environment_authentic (directory : Directory) (catalogue : Catalogue) :
    KeepsAuthentic sha256 (environment directory catalogue) := by
  unfold environment
  refine .bind (.write fun _ h => h) fun _ _ => ?_
  exact .bind .commit fun _ _ => .pure trivial

theorem setSupplyLimit_authentic (productId : Uuid) (supplyLimit : Option Int) :
    KeepsAuthentic sha256 (setSupplyLimit productId supplyLimit) := by
  unfold setSupplyLimit
  refine .bind .selectFor fun row _ => ?_
  cases row with
  | some _ =>
      refine .bind updateInventory_authentic fun _ _ => ?_
      exact .bind .commit fun _ _ => .pure trivial
  | none =>
      refine .bind (.insertRow fun _ h => h) fun _ _ => ?_
      exact .bind .commit fun _ _ => .pure trivial

end Others

/-! ### Requests that write intents -/

section Intents

variable {sha256 : Sha256}

/-- An update that changes only the status of an intent, and why it failed. -/
theorem updateIntent_authentic {intentId : Uuid} {admits : TransactionIntent → Bool}
    {status : IntentStatus} {failureCode : Option String} :
    KeepsAuthentic sha256 (updateIntent intentId admits ({ · with status, failureCode })) :=
  .update fun _ _ => intentTable.forall_modify fun _ _ h => h.of_same rfl rfl rfl rfl

/-- **The envelope is built from the row it is stored in.** -/
theorem createTransactionIntent_authentic (actorUserId orderId : Uuid)
    (body : CreateTransactionIntentRequest) (intentId : Uuid) :
    KeepsAuthentic sha256 (createTransactionIntent sha256 actorUserId orderId body intentId) := by
  unfold createTransactionIntent
  refine .bind valid_authentic fun args _ => ?_
  refine .bind .selectFor fun row _ => ?_
  refine .bind .orElse fun found _ => ?_
  obtain ⟨attempt, order⟩ := found
  refine .bind requireEditor_authentic fun _ _ => ?_
  refine .bind .require fun _ _ => ?_
  refine .bind .require fun _ _ => ?_
  refine .bind .require fun _ _ => ?_
  refine .bind .require fun _ _ => ?_
  refine .bind .require fun _ _ => ?_
  refine .bind .selectFor fun existing _ => ?_
  cases existing with
  | some existing =>
      refine .bind .require fun _ _ => ?_
      exact .bind .commit fun _ _ => .pure trivial
  | none =>
      refine .bind .select fun now _ => ?_
      refine .bind valid_authentic fun built hbuilt => ?_
      refine .bind (.insertRow fun db => intentTable.forall_add ?_) fun _ _ => ?_
      · obtain ⟨t, hdescribes, rfl⟩ := (build_eq_ok (i :=
          { sourceAccount := args.sourceAccount, destinationAccount := args.destinationAccount
            transactionSequence := args.transactionSequence, baseFee := args.baseFee
            amountMinor := order.amountMinor, assetCode := order.asset.code
            assetIssuer := order.asset.issuer, memoText := intentMemo intentId
            transactionBodySha256 := built.transactionBodySha256
            expiresAtUnix := unixTimestamp (now + seconds args.timeoutSeconds) })).mp hbuilt
        exact ⟨t, hdescribes, rfl⟩
      · exact .bind .commit fun _ _ => .pure trivial

theorem acceptEnvelope_authentic (actorUserId intentId : Uuid) (envelope : SignedEnvelope)
    (transactionId : Uuid) :
    KeepsAuthentic sha256 (acceptEnvelope sha256 actorUserId intentId envelope transactionId) := by
  unfold acceptEnvelope
  refine .bind .selectFor fun row _ => ?_
  refine .bind .orElse fun intent _ => ?_
  refine .bind requireEditor_authentic fun _ _ => ?_
  refine .bind .select fun existing _ => ?_
  cases existing with
  | some existing =>
      refine .bind .require fun _ _ => ?_
      exact .bind .commit fun _ _ => .pure trivial
  | none =>
      refine .bind .require fun _ _ => ?_
      refine .bind .select fun now _ => .ite (fun _ => ?_) fun _ => ?_
      · refine .bind updateIntent_authentic fun _ _ => ?_
        exact .bind .commit fun _ _ => .exit
      · refine .bind valid_authentic fun _ _ => ?_
        refine .bind (.insertRow fun _ h => h) fun _ _ => ?_
        refine .bind updateIntent_authentic fun _ _ => ?_
        exact .bind .commit fun _ _ => .pure trivial

theorem acceptSignedEnvelope_authentic (actorUserId intentId : Uuid) (signedEnvelopeXdr : String)
    (transactionId : Uuid) :
    KeepsAuthentic sha256
      (acceptSignedEnvelope sha256 actorUserId intentId signedEnvelopeXdr transactionId) := by
  unfold acceptSignedEnvelope
  refine .bind valid_authentic fun envelope _ => ?_
  exact acceptEnvelope_authentic actorUserId intentId envelope transactionId

theorem expectedForUpdate_authentic {intentId : Uuid} :
    KeepsAuthentic sha256 (Reconciliation.expectedForUpdate intentId) := by
  unfold Reconciliation.expectedForUpdate
  exact .bind .selectFor fun _ _ => Tx.Preserves.orElse.weaken

theorem loadResponse_authentic {intentId : Uuid} :
    KeepsAuthentic sha256 (Reconciliation.loadResponse intentId) := by
  unfold Reconciliation.loadResponse
  refine .bind .select fun found _ => ?_
  exact .bind .require fun _ _ => Tx.Preserves.select.weaken

theorem updateTransaction_authentic {p : StellarTransaction → Bool}
    {change : StellarTransaction → StellarTransaction} :
    KeepsAuthentic sha256 (Reconciliation.updateTransaction p change) :=
  .update fun _ _ h => h

theorem recordSubmissionReceipt_authentic (actorUserId intentId : Uuid)
    (body : Reconciliation.SubmissionReceiptRequest) :
    KeepsAuthentic sha256 (Reconciliation.recordSubmissionReceipt actorUserId intentId body) := by
  unfold Reconciliation.recordSubmissionReceipt
  refine .bind valid_authentic fun txHash _ => ?_
  refine .bind expectedForUpdate_authentic fun expected _ => ?_
  refine .bind requireEditor_authentic fun _ _ => ?_
  refine .bind .require fun _ _ => .ite (fun _ => ?_) fun _ => ?_
  · refine .bind .commit fun _ _ => ?_
    exact .bind loadResponse_authentic fun _ _ => .pure trivial
  · refine .bind .require fun _ _ => ?_
    refine .bind updateTransaction_authentic fun _ _ => ?_
    refine .bind updateIntent_authentic fun _ _ => ?_
    refine .bind .commit fun _ _ => ?_
    exact .bind loadResponse_authentic fun _ _ => .pure trivial

theorem confirmPaymentState_authentic (expected : Reconciliation.ExpectedIntent) :
    KeepsAuthentic sha256 (Reconciliation.confirmPaymentState expected) := by
  unfold Reconciliation.confirmPaymentState
  refine .bind updateTransaction_authentic fun _ _ => ?_
  refine .bind updateIntent_authentic fun _ _ => ?_
  refine .bind updateAttempt_authentic fun _ _ => ?_
  refine .bind (.update fun _ _ h => h) fun _ _ => ?_
  exact Tx.Preserves.require.weaken

theorem recordChainEvidence_authentic (ext : Reconciliation.External) (actorUserId intentId : Uuid)
    (body : Reconciliation.ChainEvidenceRequest) (ids : Reconciliation.EvidenceIds) :
    KeepsAuthentic sha256
      (Reconciliation.recordChainEvidence ext actorUserId intentId body ids) := by
  unfold Reconciliation.recordChainEvidence
  refine .bind .select fun now _ => ?_
  refine .bind valid_authentic fun observed _ => ?_
  unfold Reconciliation.reconcileEvidence
  refine .bind .select fun began _ => ?_
  refine .bind expectedForUpdate_authentic fun expected _ => ?_
  refine .bind requireEditor_authentic fun _ _ => ?_
  refine .bind .select fun existing _ => ?_
  cases existing with
  | some existing =>
      refine .bind .require fun _ _ => ?_
      refine .bind .commit fun _ _ => ?_
      exact .bind loadResponse_authentic fun _ _ => .pure trivial
  | none =>
      refine .bind .select fun reconciled _ => ?_
      refine .bind .require fun _ _ => ?_
      refine .bind (.insertRow fun _ h => h) fun _ _ => ?_
      refine .bind (.insertRow fun _ h => h) fun _ _ => ?_
      generalize Reconciliation.reconcile _ _ _ _ _ = failure
      cases failure with
      | none =>
          refine .bind (confirmPaymentState_authentic expected) fun _ _ => ?_
          refine .bind (.write fun _ h => h) fun _ _ => ?_
          refine .bind .commit fun _ _ => ?_
          exact .bind loadResponse_authentic fun _ _ => .pure trivial
      | some _ =>
          refine .bind .commit fun _ _ => ?_
          exact .bind loadResponse_authentic fun _ _ => .pure trivial

end Intents

theorem request_authentic {ext : Reconciliation.External} {operation : Operation}
    {p : Prog Database Row Site Result} (h : Request ext operation p) :
    p.Preserves (AllAuthentic ext.sha256) := by
  cases h with
  | createReservation buyer product body ids =>
      exact (createReservation_authentic buyer product body ids).request .ok
  | createOrder actor organization body order item =>
      exact (createOrder_authentic actor organization body order item).request .ok
  | createPaymentAttempt actor order body attempt =>
      exact (createPaymentAttempt_authentic actor order body attempt).request .ok
  | recordPaymentEvent actor attempt body event =>
      exact (recordPaymentEvent_authentic ext.toVec actor attempt body event).request .ok
  | createTransactionIntent actor order body intent =>
      exact (createTransactionIntent_authentic actor order body intent).request .ok
  | acceptSignedEnvelope actor intent xdr transaction =>
      exact (acceptSignedEnvelope_authentic actor intent xdr transaction).request .ok
  | recordSubmissionReceipt actor intent body =>
      exact (recordSubmissionReceipt_authentic actor intent body).request .ok
  | recordChainEvidence actor intent body ids =>
      exact (recordChainEvidence_authentic ext actor intent body ids).request .ok
  | prepareIssuance order ids => exact (prepareIssuance_authentic order ids).request .ok
  | acceptOwnershipEvidence issuance body evidence =>
      exact (acceptOwnershipEvidence_authentic issuance body evidence).request .ok
  | environment directory catalogue => exact (environment_authentic directory catalogue).request .ok
  | setSupplyLimit product limit => exact (setSupplyLimit_authentic product limit).request .ok

/-! ### What is accepted for a stored intent -/

/-- The envelopes accepted for a stored intent are its own, signed. -/
structure Sealed (sha256 : Sha256) (i : TransactionIntent) (body : List UInt8) : Prop where
  /-- What is stored is what the builder makes of the stored terms. -/
  built : buildUnsignedPaymentEnvelope sha256 i.sourceAccount i.destinationAccount
      i.transactionSequence i.baseFee i.amountMinor i.asset.code i.asset.issuer i.memoText
      (unixTimestamp i.expiresAt) =
    .ok ⟨i.unsignedEnvelopeXdr, i.transactionBodySha256, i.unsignedEnvelopeSha256⟩
  /-- The body is the one that was built. -/
  unsigned : decodeBase64 i.unsignedEnvelopeXdr = .ok (envelopeBytes body [])
  accepts : ∀ bodies : Set (List UInt8), NoCollision sha256 bodies → body ∈ bodies →
    ∀ bytes, (∀ parsed, parsePaymentEnvelope bytes = .ok parsed → parsed.transactionBody ∈ bodies) →
      (Accepts sha256 bytes (TransactionIntent.terms i) ↔ SignedBytes body bytes)
  /-- The same of a text that is sent. -/
  reads : ∀ text envelope, readSignedEnvelope text = .ok envelope →
    NoCollision sha256 {body, envelope.parsed.transactionBody} →
      (validateSignedEnvelopeAgainstIntent sha256 envelope.parsed (TransactionIntent.terms i) = .ok () ↔
        SignedBytes body envelope.bytes)
  /-- Nothing that an accepted envelope says differs from the intent. -/
  agrees : ∀ parsed,
    validateSignedEnvelopeAgainstIntent sha256 parsed (TransactionIntent.terms i) = .ok () →
      Agrees sha256 parsed (TransactionIntent.terms i)

theorem readSignedEnvelope_parsed {text : String} {envelope : SignedEnvelope}
    (h : readSignedEnvelope text = .ok envelope) :
    parsePaymentEnvelope envelope.bytes = .ok envelope.parsed ∧ envelope.parsed.signatureCount ≠ 0 := by
  unfold readSignedEnvelope at h
  simp only [throw_bind, bind_eq_ok, guard_eq_ok, pure_eq_ok] at h
  obtain ⟨xdr, -, bytes, -, parsed, hparsed, hsigned, rfl⟩ := h
  exact ⟨hparsed, hsigned⟩

theorem Authentic.sealed {sha256 : Sha256} {i : TransactionIntent} (h : Authentic sha256 i)
    (hrange : (TransactionIntent.terms i).InRange) : ∃ body, Sealed sha256 i body := by
  obtain ⟨t, hdescribes, hbuilt⟩ := h
  obtain ⟨hxdr, hbody, -⟩ := BuiltEnvelope.mk.inj hbuilt
  have haccepts (bodies : Set (List UInt8)) (hfree : NoCollision sha256 bodies) (hmem : t.write ∈ bodies)
      (bytes : List UInt8)
      (hbytes : ∀ parsed, parsePaymentEnvelope bytes = .ok parsed → parsed.transactionBody ∈ bodies) :
      Accepts sha256 bytes (TransactionIntent.terms i) ↔ SignedBytes t.write bytes :=
    accepts_iff hfree hdescribes hrange hbody hmem hbytes
  refine ⟨t.write, ⟨build_eq_ok.mpr ⟨t, hdescribes, hbuilt⟩, ?_, haccepts, ?_, ?_⟩⟩
  · rw [hxdr]
    exact decode_encodeBase64 (envelopeBytes_ne_nil _ _)
  · intro text envelope hread hfree
    obtain ⟨hparsed, hsigned⟩ := readSignedEnvelope_parsed hread
    rw [← haccepts _ hfree (Set.mem_insert _ _) envelope.bytes ?_]
    · constructor
      · intro hvalid
        exact ⟨_, hparsed, hsigned, hvalid⟩
      · intro ⟨parsed, hparsed', _, hvalid⟩
        obtain rfl := Except.ok.inj (hparsed.symm.trans hparsed')
        exact hvalid
    · intro parsed hparsed'
      obtain rfl := Except.ok.inj (hparsed.symm.trans hparsed')
      exact Set.mem_insert_of_mem _ rfl
  · intro parsed hvalid
    exact validate_eq_ok.mp hvalid

/-- **Envelope integrity**: in every run from a shop without intents, the envelopes that are
accepted for a stored intent are those with the body built for it, one to twenty well-formed
signatures, and nothing else. -/
theorem stored_intents_sealed {ext : Reconciliation.External} {operations : List Operation}
    {ok : Site → Database → Prop} {db₀ : Database} (h₀ : db₀.intents = [])
    {pool : Pool Database Row Site Result} {actions : List (Action Database Row Site Result)}
    (hrun : Run (Pool.Step (Requests ext operations) ok) (Pool.idle db₀) actions pool)
    {i : TransactionIntent} (hi : i ∈ pool.db.intents) (hrange : (TransactionIntent.terms i).InRange) :
    ∃ body, Sealed ext.sha256 i body := by
  have hstart : AllAuthentic ext.sha256 db₀ := by
    intro j hj
    rw [h₀] at hj
    cases hj
  have hall := run_preserves (fun p ⟨_, _, hp⟩ => request_authentic hp) hrun hstart
  exact (hall i hi).sealed hrange

/-- The terms of the sale's intent. -/
def saleTerms : IntentTerms where
  sourceAccount := payerAddress
  destinationAccount := shopAddress
  transactionSequence := 8
  baseFee := 100
  amountMinor := 1000000
  assetCode := "XLM"
  assetIssuer := none
  memoText := "CFI-00000000000000000000"
  transactionBodySha256 := "b466c40236f40bb15d62e244e26ae3990703c65e3027179b262fc1bcc5e266f3"
  expiresAtUnix := 1800000300

theorem saleTerms_inRange : saleTerms.InRange where
  transactionSequence := show inI64 8 by decide
  baseFee := show 100 < 2 ^ 32 by decide
  amountMinor := show inI64 1000000 by decide
  expiresAtUnix := show inI64 1800000300 by decide

theorem sale_intent : (Pool.serveAll (fun _ _ => True) shopDatabase
    [reserveSeat, openAttempt, openIntent]).any (fun built =>
      built.2.intents.map TransactionIntent.terms = [saleTerms]) = true := by
  decide +kernel

/-- The intent of the sale, sealed. -/
theorem sale_intent_sealed :
    ∃ (pool : Pool Database Row Site Result) (actions : List (Action Database Row Site Result)),
      Run (Pool.Step (Requests saleExternal ticketOperations) fun _ _ => True)
        (Pool.idle shopDatabase) actions pool ∧
      ∃ i ∈ pool.db.intents, TransactionIntent.terms i = saleTerms ∧
        ∃ body, Sealed saleSha256 i body := by
  obtain ⟨built, hbuilt, hterms⟩ := (Option.any_eq_true _ _).mp sale_intent
  have hrequests : ∀ p ∈ [reserveSeat, openAttempt, openIntent],
      Requests saleExternal ticketOperations p :=
    fun p hp => sale_requests p (List.mem_of_mem_take (i := 3) hp)
  obtain ⟨actions, hrun⟩ := Pool.run_of_serveAll hrequests hbuilt
  have hmem : saleTerms ∈ built.2.intents.map TransactionIntent.terms := by
    rw [of_decide_eq_true hterms]
    exact List.mem_singleton_self _
  obtain ⟨i, hi, hsame⟩ := List.mem_map.mp hmem
  refine ⟨_, actions, hrun, i, hi, hsame, ?_⟩
  exact stored_intents_sealed rfl hrun hi (hsame ▸ saleTerms_inRange)

end CrownFi.Commerce
