import CrownFi.Commerce.Confirmation

/-!
# CrownFi.Commerce.Deliveries

**The order in which receipt and evidence arrive.** A payment that succeeded on the chain is
reported by two messages: the receipt of its submission, and the evidence from the ledger.
Either may be delivered again, and at any time. Evidence that comes before the receipt is
recorded as rejected; evidence that comes again is answered from the record. So the payment
of a transaction that is not yet submitted is confirmed only if the receipt comes first
(`deliverAll_completed_iff`).
-/

namespace CrownFi.Commerce.Deliveries

open Lib CrownFi.Api Orders Reconciliation

/-- The two messages about a payment. -/
structure Payment where
  intentId : Uuid
  receipt : SubmissionReceiptRequest
  evidence : ChainEvidenceRequest

inductive Message
  | receipt
  | evidence (ids : EvidenceIds)

/-- One delivery: when, for whom, and which message. -/
structure Delivery where
  clock : Int
  actorUserId : Uuid
  message : Message

variable {ext : External} {pay : Payment} {observed : Observed} {x : ExpectedIntent}
  {db db₀ : Database} {d : Delivery}

def Delivery.request (ext : External) (pay : Payment) (d : Delivery) : Prog Database Row Site Result :=
  match d.message with
  | .receipt => (recordSubmissionReceipt d.actorUserId pay.intentId pay.receipt).request
  | .evidence ids => (recordChainEvidence ext d.actorUserId pay.intentId pay.evidence ids).request

def atTime (clock : Int) (db : Database) : Database :=
  { db with directory := { db.directory with clock } }

/-- One message, processed alone. -/
def deliver (ext : External) (pay : Payment) (db : Database) (d : Delivery) : Database :=
  (d.request ext pay).leaves (atTime d.clock db) (atTime d.clock db)

def deliverAll (ext : External) (pay : Payment) (db : Database) (ds : List Delivery) : Database :=
  ds.foldl (deliver ext pay) db

/-! ### The rows of the payment -/

theorem expectedIntent_eq_some {intentId : Uuid} :
    expectedIntent intentId db = some x ↔ intentTable.find db intentId = some x.intent ∧
      db.transactions.find? (·.transactionIntentId = x.intent.id) = some x.transaction ∧
      attemptTable.find db x.intent.paymentAttemptId = some x.attempt ∧
      orderTable.find db x.intent.orderId = some x.order := by
  simp only [expectedIntent, Option.bind_eq_bind, Option.bind_eq_some_iff]
  constructor
  · rintro ⟨i, hi, t, ht, a, ha, o, ho, heq⟩
    obtain rfl := Option.some.inj heq
    exact ⟨hi, ht, ha, ho⟩
  · rintro ⟨hi, ht, ha, ho⟩
    exact ⟨_, hi, _, ht, _, ha, _, ho, rfl⟩

/-- What stays the same around the rows of the payment, from `db₀` on. -/
structure Rows (pay : Payment) (db₀ : Database) (x : ExpectedIntent) (db : Database) : Prop where
  found : expectedIntent pay.intentId db = some x
  intentIds : (db.intents.map (·.id)).Nodup
  transactionIds : (db.transactions.map (·.id)).Nodup
  attemptIds : (db.attempts.map (·.id)).Nodup
  orderIds : (db.orders.map (·.id)).Nodup
  editors : db.directory.memberEditor = db₀.directory.memberEditor

/-- The operation of the evidence is recorded for the intent. -/
def Recorded (ext : External) (pay : Payment) (observed : Observed) (db : Database) : Prop :=
  ∃ e, db.evidence.find? (fun e => e.transactionHash = observed.txHash &&
      e.operationIndex = observed.operationIndex) = some e ∧ e.transactionIntentId = pay.intentId ∧
    e.evidenceSha256 =
      evidenceHash ext observed pay.evidence.rawTransaction pay.evidence.rawOperation

theorem Rows.atTime (h : Rows pay db₀ x db) (clock : Int) : Rows pay db₀ x (atTime clock db) :=
  ⟨h.found, h.intentIds, h.transactionIds, h.attemptIds, h.orderIds, h.editors⟩

/-- The keys of a table stay unique. -/
theorem nodup_modify {ι α : Type} [DecidableEq ι] (T : Table Database Row ι α)
    (h : ((T.rows db).map T.key).Nodup) {p : α → Bool} {f : α → α} {view : Database}
    (hf : ∀ r, T.key (f r) = T.key r) : ((T.rows (T.modify p f view db)).map T.key).Nodup := by
  rw [T.keys_modify hf]
  exact h

/-- What is read after the commit changes nothing. -/
theorem leaves_loadResponse {intentId : Uuid} {respond : Option ReconciliationResult → Response}
    {view : Database} :
    ((do
      let result ← loadResponse intentId
      return respond result : Handler Response).request).leaves view db = db := by
  show Prog.leaves (Tx.require _ _ _) view db = db
  unfold Tx.require
  split <;> rfl

/-! ### Receipts -/

/-- The rows after the receipt of a signed transaction. -/
def submitIntent (i : TransactionIntent) : TransactionIntent :=
  { i with status := .submitted, failureCode := none }

def submitTransaction (horizonStatusCode : Int) (t : StellarTransaction) : StellarTransaction :=
  { t with status := .submitted, horizonStatusCode := some horizonStatusCode, failureCode := none }

def submitted (horizonStatusCode : Int) (x : ExpectedIntent) : ExpectedIntent :=
  { x with
    intent := submitIntent x.intent, transaction := submitTransaction horizonStatusCode x.transaction }

/-- The receipt is for this transaction, and the evidence agrees with it once it is submitted. -/
structure Agrees (ext : External) (pay : Payment) (observed : Observed) (x : ExpectedIntent) :
    Prop where
  receipt : pay.receipt.validate = .ok x.transaction.transactionHash
  evidence : reconcile ext.parseRfc3339 (submitted 0 x) observed
    pay.evidence.rawTransaction pay.evidence.rawOperation = none

theorem leaves_expected {view : Database} {k : ExpectedIntent → Prog Database Row Site Result}
    (h : Rows pay db₀ x view) :
    Prog.leaves (expectedForUpdate pay.intentId k) view db = (k x).leaves view db := by
  unfold expectedForUpdate
  rw [leaves_bind, leaves_selectFor, leaves_orElse h.found]

theorem leaves_editor {view : Database} {organizationId userId : Uuid}
    {k : PUnit → Prog Database Row Site Result}
    (h : view.directory.memberEditor organizationId userId = true) :
    Prog.leaves (requireEditor organizationId userId k) view db = (k ⟨⟩).leaves view db := by
  unfold requireEditor
  rw [leaves_bind, leaves_select, leaves_require h]

/-- A receipt of a transaction that was submitted before. -/
theorem leaves_receipt_again {actorUserId : Uuid} (h : Rows pay db₀ x db)
    (heditor : db.directory.memberEditor x.intent.organizationId actorUserId = true)
    (hreceipt : pay.receipt.validate = .ok x.transaction.transactionHash)
    (hstatus : x.transaction.status = .submitted ∨ x.transaction.status = .confirmed) :
    (recordSubmissionReceipt actorUserId pay.intentId pay.receipt).request.leaves db db = db := by
  have hdone : (decide (x.transaction.status = .submitted) ||
      decide (x.transaction.status = .confirmed)) = true := by simpa using hstatus
  unfold Handler.request recordSubmissionReceipt
  rw [leaves_bind, valid, leaves_ofExcept hreceipt, leaves_bind, leaves_expected h, leaves_bind,
    leaves_editor heditor, leaves_bind, leaves_require (decide_eq_true rfl), if_pos hdone]
  exact leaves_loadResponse

/-- What the receipt of a signed transaction writes. -/
def writeReceipt (pay : Payment) (db : Database) : Database :=
  let sent := transactionTable.modify
    (fun t => t.transactionIntentId = pay.intentId && t.status = .signed)
    (submitTransaction pay.receipt.horizonStatusCode) db db
  intentTable.modify (fun i => i.id = pay.intentId && i.status = .signed) submitIntent sent sent

theorem leaves_receipt_signed {actorUserId : Uuid} (h : Rows pay db₀ x db)
    (heditor : db.directory.memberEditor x.intent.organizationId actorUserId = true)
    (hreceipt : pay.receipt.validate = .ok x.transaction.transactionHash)
    (hi : x.intent.status = .signed) (ht : x.transaction.status = .signed) :
    (recordSubmissionReceipt actorUserId pay.intentId pay.receipt).request.leaves db db =
      writeReceipt pay db := by
  have hnot : ¬ (decide (x.transaction.status = .submitted) ||
      decide (x.transaction.status = .confirmed)) = true := by simp [ht]
  have hsigned : (decide (x.transaction.status = .signed) && decide (x.intent.status = .signed)) =
      true := by simp [hi, ht]
  unfold Handler.request recordSubmissionReceipt
  rw [leaves_bind, valid, leaves_ofExcept hreceipt, leaves_bind, leaves_expected h, leaves_bind,
    leaves_editor heditor, leaves_bind, leaves_require (decide_eq_true rfl), if_neg hnot,
    leaves_bind, leaves_require hsigned, leaves_bind, updateTransaction, leaves_update, leaves_bind,
    Intents.updateIntent, leaves_update]
  exact leaves_loadResponse

/-- The rows are as the receipt leaves them. -/
theorem Rows.writeReceipt (h : Rows pay db₀ x db) (hi : x.intent.status = .signed)
    (ht : x.transaction.status = .signed) :
    Rows pay db₀ (submitted pay.receipt.horizonStatusCode x) (writeReceipt pay db) := by
  obtain ⟨hintent, htransaction, hattempt, horder⟩ := expectedIntent_eq_some.mp h.found
  have hid : x.intent.id = pay.intentId := (intentTable.find_mem hintent).2
  have hof : x.transaction.transactionIntentId = x.intent.id := by
    simpa using List.find?_some htransaction
  constructor
  · refine expectedIntent_eq_some.mpr ⟨?_, ?_, hattempt, horder⟩
    · refine intentTable.find_modify_of_find (f := submitIntent) (r := x.intent)
        (p := fun i => i.id = pay.intentId && i.status = .signed) (fun _ => rfl) hintent hintent ?_
      simp [hid, hi]
    · refine (transactionTable.find?_modify_self
        (p := fun t => t.transactionIntentId = pay.intentId && t.status = .signed)
        (q := fun t => t.transactionIntentId = x.intent.id)
        (f := submitTransaction pay.receipt.horizonStatusCode) fun _ => rfl).trans ?_
      rw [show (transactionTable.rows db).find? _ = _ from htransaction, Option.map_some, if_pos]
      · rfl
      · simp [hof, hid, ht]
  · exact nodup_modify intentTable h.intentIds fun _ => rfl
  · exact nodup_modify transactionTable h.transactionIds fun _ => rfl
  · exact h.attemptIds
  · exact h.orderIds
  · exact h.editors

/-! ### Evidence -/

/-- The evidence as it is recorded. -/
def evidenceRow (ext : External) (pay : Payment) (observed : Observed) (x : ExpectedIntent)
    (ids : EvidenceIds) : ChainEvidence where
  id := ids.evidence
  transactionIntentId := pay.intentId
  stellarTransactionId := x.transaction.id
  transactionHash := observed.txHash
  ledgerSequence := observed.ledgerSequence
  operationIndex := observed.operationIndex
  pagingToken := observed.pagingToken
  sourceAccount := observed.source
  destinationAccount := observed.destination
  amountMinor := observed.amountMinor
  asset := observed.asset
  memoText := observed.memo
  transactionSuccessful := observed.successful
  closedAt := observed.closedAt
  evidenceSha256 := evidenceHash ext observed pay.evidence.rawTransaction pay.evidence.rawOperation

/-- The result of its reconciliation. -/
def resultRow (pay : Payment) (actorUserId : Uuid) (ids : EvidenceIds) (began : Int)
    (failure : Option String) : ReconciliationResult where
  id := ids.result
  transactionIntentId := pay.intentId
  chainEvidenceId := ids.evidence
  status := if failure.isNone then .accepted else .rejected
  failureCode := failure
  reconciledByUserId := actorUserId
  reconciledAt := began

/-- The database with both. -/
def recordResult (ext : External) (pay : Payment) (observed : Observed) (x : ExpectedIntent)
    (actorUserId : Uuid) (ids : EvidenceIds) (failure : Option String) (db : Database) : Database :=
  resultTable.add (resultRow pay actorUserId ids db.directory.clock failure)
    (evidenceTable.add (evidenceRow ext pay observed x ids) db)

variable {actorUserId : Uuid} {ids : EvidenceIds}

/-- Evidence that was recorded before. -/
theorem leaves_evidence_again (h : Rows pay db₀ x db)
    (heditor : db.directory.memberEditor x.intent.organizationId actorUserId = true)
    (hevidence : pay.evidence.validate db.directory.clock = .ok observed)
    (hrecorded : Recorded ext pay observed db) :
    (recordChainEvidence ext actorUserId pay.intentId pay.evidence ids).request.leaves db db =
      db := by
  obtain ⟨e, he, hof, hhash⟩ := hrecorded
  unfold Handler.request recordChainEvidence reconcileEvidence
  rw [leaves_bind, leaves_select, leaves_bind, valid, leaves_ofExcept hevidence, leaves_bind,
    leaves_select, leaves_bind, leaves_expected h, leaves_bind, leaves_editor heditor, leaves_bind,
    leaves_select, he]
  rw [leaves_bind, leaves_require (by simp [hof, hhash]), leaves_bind, leaves_commit]
  exact leaves_loadResponse

/-- Nothing is recorded about the payment yet, and the drawn ids are new. -/
structure Unrecorded (pay : Payment) (observed : Observed) (ids : EvidenceIds) (db : Database) :
    Prop where
  operation : db.evidence.find? (fun e => e.transactionHash = observed.txHash &&
    e.operationIndex = observed.operationIndex) = none
  results : ∀ r ∈ db.results, r.transactionIntentId = pay.intentId → r.status ≠ .accepted
  evidenceIds : ∀ e ∈ db.evidence, e.id ≠ ids.evidence
  resultIds : ∀ r ∈ db.results, r.id ≠ ids.result ∧ r.chainEvidenceId ≠ ids.evidence

theorem Unrecorded.insertEvidence (h : Unrecorded pay observed ids db) (ext : External)
    (x : ExpectedIntent) {db' : Database}
    {k : PUnit → Prog Database Row Site Result} :
    Prog.leaves (insertEvidence (evidenceRow ext pay observed x ids) k) db db' =
      (k ⟨⟩).leaves (evidenceTable.add (evidenceRow ext pay observed x ids) db) db' := by
  refine leaves_insert ?_
  unfold evidenceViolation
  rw [if_neg]
  · rfl
  intro hany
  obtain ⟨e, he, hclash⟩ := List.any_eq_true.mp hany
  rcases Bool.or_eq_true_iff.mp hclash with hid | hop
  · exact h.evidenceIds e he (of_decide_eq_true hid)
  · exact List.find?_eq_none.mp h.operation e he hop

theorem Unrecorded.insertResult (h : Unrecorded pay observed ids db) (actorUserId : Uuid)
    {db' : Database} {began : Int}
    {failure : Option String} {e : ChainEvidence} {k : PUnit → Prog Database Row Site Result} :
    Prog.leaves (insertResult (resultRow pay actorUserId ids began failure) k)
        (evidenceTable.add e db) db' =
      (k ⟨⟩).leaves (resultTable.add (resultRow pay actorUserId ids began failure)
        (evidenceTable.add e db)) db' := by
  refine leaves_insert ?_
  unfold resultViolation
  rw [if_neg]
  · rfl
  intro hany
  obtain ⟨r, hr, hclash⟩ := List.any_eq_true.mp hany
  obtain ⟨hid, heid⟩ := h.resultIds r hr
  have hopen := h.results r hr
  simp [resultRow, hid, heid] at hclash
  exact hopen hclash.1.1 hclash.1.2

/-- What follows the record of new evidence. -/
def afterRecord (pay : Payment) (observed : Observed) (x : ExpectedIntent) (failure : Option String) :
    Handler Response :=
  match failure with
  | none => do
      confirmPaymentState x
      advanceCursor observed.pagingToken observed.ledgerSequence
      Tx.commit
      let result ← loadResponse pay.intentId
      return ⟨reconciliationHttpStatus result true, pay.intentId⟩
  | some _ => do
      Tx.commit
      let result ← loadResponse pay.intentId
      return ⟨reconciliationHttpStatus result true, pay.intentId⟩

/-- New evidence is recorded with its result, whatever the result is. -/
theorem leaves_evidence_new {failure : Option String} (h : Rows pay db₀ x db)
    (heditor : db.directory.memberEditor x.intent.organizationId actorUserId = true)
    (hevidence : pay.evidence.validate db.directory.clock = .ok observed)
    (hnew : Unrecorded pay observed ids db)
    (hfailure : reconcile ext.parseRfc3339 x observed pay.evidence.rawTransaction
      pay.evidence.rawOperation = failure) :
    (recordChainEvidence ext actorUserId pay.intentId pay.evidence ids).request.leaves db db =
      (afterRecord pay observed x failure).request.leaves
        (recordResult ext pay observed x actorUserId ids failure db) db := by
  have hopen : (!db.results.any fun r => r.transactionIntentId = pay.intentId &&
      r.status = .accepted) = true := by
    rw [Bool.not_eq_true', List.any_eq_false]
    intro r hr
    have := hnew.results r hr
    simpa using this
  subst hfailure
  unfold Handler.request recordChainEvidence reconcileEvidence
  rw [leaves_bind, leaves_select, leaves_bind, valid, leaves_ofExcept hevidence, leaves_bind,
    leaves_select, leaves_bind, leaves_expected h, leaves_bind, leaves_editor heditor, leaves_bind,
    leaves_select, hnew.operation]
  rw [leaves_bind, leaves_select, leaves_bind, leaves_require hopen, leaves_bind]
  refine (hnew.insertEvidence ext x).trans ?_
  refine (leaves_bind.trans (hnew.insertResult actorUserId)).trans ?_
  generalize reconcile ext.parseRfc3339 x observed pay.evidence.rawTransaction
    pay.evidence.rawOperation = failure
  cases failure <;> rfl

theorem Rows.recordResult (h : Rows pay db₀ x db) {failure : Option String} :
    Rows pay db₀ x (recordResult ext pay observed x actorUserId ids failure db) :=
  ⟨h.found, h.intentIds, h.transactionIds, h.attemptIds, h.orderIds, h.editors⟩

theorem Unrecorded.recorded (h : Unrecorded pay observed ids db) {failure : Option String} :
    Recorded ext pay observed (recordResult ext pay observed x actorUserId ids failure db) := by
  refine ⟨evidenceRow ext pay observed x ids, ?_, rfl, rfl⟩
  show (db.evidence ++ [_]).find? _ = _
  rw [List.find?_append, h.operation, Option.none_or, List.find?_singleton, if_pos]
  simp [evidenceRow]

/-! ### The confirmation -/

def confirmTransaction (t : StellarTransaction) : StellarTransaction :=
  { t with status := .confirmed, failureCode := none }

def confirmIntent (i : TransactionIntent) : TransactionIntent :=
  { i with status := .confirmed, failureCode := none }

def confirmAttempt (a : PaymentAttempt) : PaymentAttempt :=
  { a with status := .confirmed, failureCode := none }

def payOrder (o : Order) : Order := { o with status := .paid }

/-- The rows after the confirmation. -/
def confirmed (x : ExpectedIntent) : ExpectedIntent :=
  ⟨confirmIntent x.intent, confirmTransaction x.transaction, confirmAttempt x.attempt, payOrder x.order⟩

/-- What the confirmation writes. -/
def writeConfirmation (x : ExpectedIntent) (db : Database) : Database :=
  let db := transactionTable.modify (fun t => t.id = x.transaction.id && t.status = .submitted)
    confirmTransaction db db
  let db := intentTable.modify (fun i => i.id = x.intent.id && i.status = .submitted) confirmIntent db db
  let db := attemptTable.modify (fun a => a.id = x.attempt.id && AttemptStatus.active a.status) confirmAttempt db db
  orderTable.modify (fun o => o.id = x.order.id && o.status = .awaitingPayment) payOrder db db

/-- The payment can be confirmed. -/
structure Payable (x : ExpectedIntent) : Prop where
  intent : x.intent.status = .submitted
  transaction : x.transaction.status = .submitted
  attempt : AttemptStatus.active x.attempt.status = true
  order : x.order.status = .awaitingPayment

/-- The rows of the payment by their keys. -/
theorem Rows.finds (h : Rows pay db₀ x db) :
    transactionTable.find db x.transaction.id = some x.transaction ∧
      intentTable.find db x.intent.id = some x.intent ∧
      attemptTable.find db x.attempt.id = some x.attempt ∧
      orderTable.find db x.order.id = some x.order := by
  obtain ⟨hintent, htransaction, hattempt, horder⟩ := expectedIntent_eq_some.mp h.found
  refine ⟨transactionTable.find_of_mem h.transactionIds (List.mem_of_find?_eq_some htransaction),
    intentTable.find_of_mem h.intentIds (intentTable.find_mem hintent).1,
    attemptTable.find_of_mem h.attemptIds (attemptTable.find_mem hattempt).1,
    orderTable.find_of_mem h.orderIds (orderTable.find_mem horder).1⟩

theorem leaves_confirmPaymentState {db' : Database} {k : PUnit → Prog Database Row Site Result}
    (h : Rows pay db₀ x db) (hpay : Payable x) :
    Prog.leaves (confirmPaymentState x k) db db' = (k ⟨⟩).leaves (writeConfirmation x db) db' := by
  obtain ⟨htransaction, hintent, hattempt, horder⟩ := h.finds
  unfold confirmPaymentState updateTransaction Intents.updateIntent Orders.updateAttempt
  rw [leaves_bind, leaves_update, leaves_bind, leaves_update, leaves_bind, leaves_update, leaves_bind,
    leaves_update, leaves_require]
  · rfl
  · -- each update meets its one row
    have h₁ := transactionTable.length_matching_key (p := fun t => decide (t.status = .submitted))
      h.transactionIds htransaction (decide_eq_true hpay.transaction)
    have h₂ := intentTable.length_matching_key (p := fun i => decide (i.status = .submitted))
      h.intentIds hintent (decide_eq_true hpay.intent)
    have h₃ := attemptTable.length_matching_key (p := fun a => AttemptStatus.active a.status)
      h.attemptIds hattempt hpay.attempt
    have h₄ := orderTable.length_matching_key (p := fun o => decide (o.status = .awaitingPayment))
      h.orderIds horder (decide_eq_true hpay.order)
    simp only [Bool.and_eq_true, decide_eq_true_eq]
    exact ⟨⟨⟨h₁, h₂⟩, h₃⟩, h₄⟩

/-- The rows are as the confirmation leaves them. -/
theorem Rows.writeConfirmation (h : Rows pay db₀ x db) (hpay : Payable x) :
    Rows pay db₀ (confirmed x) (writeConfirmation x db) := by
  obtain ⟨htransaction, hintent, hattempt, horder⟩ := h.finds
  obtain ⟨hintent', htransaction', hattempt', horder'⟩ := expectedIntent_eq_some.mp h.found
  have hid : x.intent.id = pay.intentId := (intentTable.find_mem hintent').2
  have haid : x.attempt.id = x.intent.paymentAttemptId := (attemptTable.find_mem hattempt').2
  have hoid : x.order.id = x.intent.orderId := (orderTable.find_mem horder').2
  constructor
  · refine expectedIntent_eq_some.mpr ⟨?_, ?_, ?_, ?_⟩
    · rw [← hid]
      refine intentTable.find_modify_of_find (f := confirmIntent) (r := x.intent)
        (p := fun i => i.id = x.intent.id && i.status = .submitted) (fun _ => rfl) hintent hintent ?_
      simp [hpay.intent]
    · refine (transactionTable.find?_modify_self
        (p := fun t => t.id = x.transaction.id && t.status = .submitted)
        (q := fun t => t.transactionIntentId = x.intent.id) (f := confirmTransaction) fun _ => rfl).trans ?_
      rw [show (transactionTable.rows db).find? _ = _ from htransaction', Option.map_some, if_pos]
      · rfl
      · simp [hpay.transaction]
    · show attemptTable.find _ x.intent.paymentAttemptId = _
      rw [← haid]
      refine attemptTable.find_modify_of_find (f := confirmAttempt) (r := x.attempt)
        (p := fun a => a.id = x.attempt.id && AttemptStatus.active a.status) (fun _ => rfl) hattempt
        hattempt ?_
      simp [hpay.attempt]
    · show orderTable.find _ x.intent.orderId = _
      rw [← hoid]
      refine orderTable.find_modify_of_find (f := payOrder) (r := x.order)
        (p := fun o => o.id = x.order.id && o.status = .awaitingPayment) (fun _ => rfl) horder
        horder ?_
      simp [hpay.order]
  · exact nodup_modify intentTable h.intentIds fun _ => rfl
  · exact nodup_modify transactionTable h.transactionIds fun _ => rfl
  · exact nodup_modify attemptTable h.attemptIds fun _ => rfl
  · exact nodup_modify orderTable h.orderIds fun _ => rfl
  · exact h.editors

/-! ### The stages of a payment -/

/-- Evidence that is valid now is valid later. -/
theorem validate_later {body : ChainEvidenceRequest} {now later : Int} (hle : now ≤ later)
    (h : body.validate now = .ok observed) : body.validate later = .ok observed := by
  simp only [ChainEvidenceRequest.validate, throw_bind, guard_eq_ok, bind_eq_ok, pure_eq_ok,
    not_lt] at h ⊢
  obtain ⟨h₁, h₂, _, h₃, _, h₄, _, h₅, _, h₆, _, h₇, _, h₈, _, h₉, htime, heq⟩ := h
  exact ⟨h₁, h₂, _, h₃, _, h₄, _, h₅, _, h₆, _, h₇, _, h₈, _, h₉, by omega, heq⟩

/-- Before the submission all evidence is rejected. -/
theorem reconcile_signed {parseRfc3339 : String → Option Int} {rawTx rawOp : Json}
    (h : x.intent.status = .signed) :
    reconcile parseRfc3339 x observed rawTx rawOp = some "transaction_not_submitted" := by
  unfold reconcile
  rw [if_pos]
  left
  rw [h]
  decide

theorem Agrees.accepted (h : Agrees ext pay observed x) (hpay : Payable x) :
    reconcile ext.parseRfc3339 x observed pay.evidence.rawTransaction pay.evidence.rawOperation =
      none := by
  have hsame : reconcile ext.parseRfc3339 x observed pay.evidence.rawTransaction
      pay.evidence.rawOperation = reconcile ext.parseRfc3339 (submitted 0 x) observed
        pay.evidence.rawTransaction pay.evidence.rawOperation := by
    unfold reconcile
    simp only [submitted, submitIntent, submitTransaction, hpay.intent, hpay.transaction]
    rfl
  exact hsame.trans h.evidence

/-- A delivery by an editor, with ids that are new, from the time of `db₀` on. -/
structure Delivery.Fits (pay : Payment) (observed : Observed) (organizationId : Uuid)
    (db₀ : Database) (d : Delivery) : Prop where
  time : db₀.directory.clock ≤ d.clock
  editor : db₀.directory.memberEditor organizationId d.actorUserId = true
  unrecorded : ∀ ids, d.message = .evidence ids → Unrecorded pay observed ids db₀

/-- What holds of the payment at every stage. -/
structure Stage (ext : External) (pay : Payment) (observed : Observed) (organizationId : Uuid)
    (db₀ : Database) (x : ExpectedIntent) (db : Database) : Prop where
  rows : Rows pay db₀ x db
  agrees : Agrees ext pay observed x
  organization : x.intent.organizationId = organizationId
  evidence : pay.evidence.validate db₀.directory.clock = .ok observed

/-- Nothing is recorded since `db₀`. -/
def Untouched (db₀ db : Database) : Prop := db.evidence = db₀.evidence ∧ db.results = db₀.results

/-- Intent and transaction are both at this point. -/
def Signed (x : ExpectedIntent) : Prop :=
  x.intent.status = .signed ∧ x.transaction.status = .signed

def Submitted (x : ExpectedIntent) : Prop :=
  x.intent.status = .submitted ∧ x.transaction.status = .submitted

/-- The payment is confirmed, and its order paid. -/
structure Completed (x : ExpectedIntent) : Prop where
  intent : x.intent.status = .confirmed
  transaction : x.transaction.status = .confirmed
  order : x.order.status = .paid

theorem Unrecorded.of_untouched (h : Unrecorded pay observed ids db₀) (hu : Untouched db₀ db)
    (clock : Int) : Unrecorded pay observed ids (Deliveries.atTime clock db) := by
  obtain ⟨hevidence, hresults⟩ := hu
  constructor
  · show db.evidence.find? _ = none
    rw [hevidence]
    exact h.operation
  · show ∀ r ∈ db.results, _
    rw [hresults]
    exact h.results
  · show ∀ e ∈ db.evidence, _
    rw [hevidence]
    exact h.evidenceIds
  · show ∀ r ∈ db.results, _
    rw [hresults]
    exact h.resultIds

/-- Rejected evidence changes nothing more. -/
theorem leaves_afterRecord_rejected {view : Database} {failure : String} :
    (afterRecord pay observed x (some failure)).request.leaves view db = view := by
  unfold Handler.request afterRecord
  rw [leaves_bind, leaves_commit]
  exact leaves_loadResponse

/-- The cursor after the evidence. -/
def moveCursor (observed : Observed) (db : Database) : Database :=
  cursorTable.put db <|
    if db.cursors.any (·.consumerName = paymentCursor) then
      updateWhere (·.consumerName = paymentCursor)
        (ChainCursor.advance observed.pagingToken observed.ledgerSequence) db.cursors
    else db.cursors ++ [⟨paymentCursor, observed.pagingToken, observed.ledgerSequence⟩]

theorem leaves_afterRecord_accepted {view : Database} (h : Rows pay db₀ x view) (hpay : Payable x) :
    (afterRecord pay observed x none).request.leaves view db =
      moveCursor observed (writeConfirmation x view) := by
  unfold Handler.request afterRecord
  rw [leaves_bind, leaves_confirmPaymentState h hpay, leaves_bind, advanceCursor, leaves_write,
    leaves_bind, leaves_commit]
  exact leaves_loadResponse

theorem Rows.moveCursor (h : Rows pay db₀ x db) : Rows pay db₀ x (moveCursor observed db) :=
  ⟨h.found, h.intentIds, h.transactionIds, h.attemptIds, h.orderIds, h.editors⟩

section Steps

variable {organizationId : Uuid} (h : Stage ext pay observed organizationId db₀ x db)
  (hd : d.Fits pay observed organizationId db₀)

include h in
theorem Stage.atTime (clock : Int) : Stage ext pay observed organizationId db₀ x (atTime clock db) :=
  ⟨h.rows.atTime clock, h.agrees, h.organization, h.evidence⟩

include h hd

theorem Stage.editor :
    (Deliveries.atTime d.clock db).directory.memberEditor x.intent.organizationId d.actorUserId =
      true := by
  rw [(h.rows.atTime d.clock).editors, h.organization]
  exact hd.editor

theorem Stage.validated :
    pay.evidence.validate (Deliveries.atTime d.clock db).directory.clock = .ok observed :=
  validate_later hd.time h.evidence

theorem Stage.receipt_again (hmessage : d.message = .receipt)
    (hstatus : x.transaction.status = .submitted ∨ x.transaction.status = .confirmed) :
    deliver ext pay db d = Deliveries.atTime d.clock db := by
  rw [deliver, Delivery.request, hmessage]
  exact leaves_receipt_again (h.rows.atTime d.clock) (h.editor hd) h.agrees.receipt hstatus

theorem Stage.receipt_signed (hmessage : d.message = .receipt) (hsigned : Signed x) :
    deliver ext pay db d = writeReceipt pay (Deliveries.atTime d.clock db) := by
  rw [deliver, Delivery.request, hmessage]
  exact leaves_receipt_signed (h.rows.atTime d.clock) (h.editor hd) h.agrees.receipt hsigned.1 hsigned.2

theorem Stage.evidence_again (hmessage : d.message = .evidence ids)
    (hrecorded : Recorded ext pay observed db) :
    deliver ext pay db d = Deliveries.atTime d.clock db := by
  rw [deliver, Delivery.request, hmessage]
  exact leaves_evidence_again (h.rows.atTime d.clock) (h.editor hd) (h.validated hd) hrecorded

theorem Stage.evidence_new {failure : Option String} (hmessage : d.message = .evidence ids)
    (huntouched : Untouched db₀ db)
    (hfailure : reconcile ext.parseRfc3339 x observed pay.evidence.rawTransaction
      pay.evidence.rawOperation = failure) :
    deliver ext pay db d = (afterRecord pay observed x failure).request.leaves
      (recordResult ext pay observed x d.actorUserId ids failure (Deliveries.atTime d.clock db))
      (Deliveries.atTime d.clock db) := by
  rw [deliver, Delivery.request, hmessage]
  exact leaves_evidence_new (h.rows.atTime d.clock) (h.editor hd) (h.validated hd)
    ((hd.unrecorded ids hmessage).of_untouched huntouched d.clock) hfailure

end Steps

variable {organizationId : Uuid}

/-- The steps of a payment write neither the hash nor what the evidence is compared with. -/
theorem Stage.of_submitted (h : Stage ext pay observed organizationId db₀ x db) {db' : Database}
    {code : Int} (hrows : Rows pay db₀ (submitted code x) db') :
    Stage ext pay observed organizationId db₀ (submitted code x) db' :=
  ⟨hrows, ⟨h.agrees.receipt, h.agrees.evidence⟩, h.organization, h.evidence⟩

theorem Stage.of_confirmed (h : Stage ext pay observed organizationId db₀ x db) {db' : Database}
    (hrows : Rows pay db₀ (confirmed x) db') :
    Stage ext pay observed organizationId db₀ (confirmed x) db' :=
  ⟨hrows, ⟨h.agrees.receipt, h.agrees.evidence⟩, h.organization, h.evidence⟩

variable (ext pay observed organizationId) in
/-- Submitted, and the evidence did not come yet. -/
def Awaiting (db₀ db : Database) : Prop :=
  ∃ x, Stage ext pay observed organizationId db₀ x db ∧ Payable x ∧ Untouched db₀ db

variable (ext pay observed organizationId) in
/-- The evidence is recorded, and the payment is not confirmed. -/
def Rejected (db₀ db : Database) : Prop :=
  ∃ x, Stage ext pay observed organizationId db₀ x db ∧ Recorded ext pay observed db ∧
    (Signed x ∨ Submitted x)

variable (ext pay observed organizationId) in
/-- The evidence is recorded, and the payment is confirmed. -/
def Finished (db₀ db : Database) : Prop :=
  ∃ x, Stage ext pay observed organizationId db₀ x db ∧ Recorded ext pay observed db ∧ Completed x

/-! ### One delivery -/

/-- **Rejected evidence is final**: neither message moves the payment out of it. -/
theorem Rejected.deliver (h : Rejected ext pay observed organizationId db₀ db)
    (hd : d.Fits pay observed organizationId db₀) :
    Rejected ext pay observed organizationId db₀ (deliver ext pay db d) := by
  obtain ⟨x, hstage, hrecorded, hsent⟩ := h
  cases hmessage : d.message with
  | receipt =>
      rcases hsent with hsigned | hsubmitted
      · have hrows := (hstage.rows.atTime d.clock).writeReceipt hsigned.1 hsigned.2
        rw [hstage.receipt_signed hd hmessage hsigned]
        exact ⟨_, hstage.of_submitted hrows, hrecorded, .inr ⟨rfl, rfl⟩⟩
      · rw [hstage.receipt_again hd hmessage (.inl hsubmitted.2)]
        exact ⟨x, hstage.atTime d.clock, hrecorded, .inr hsubmitted⟩
  | evidence ids =>
      rw [hstage.evidence_again hd hmessage hrecorded]
      exact ⟨x, hstage.atTime d.clock, hrecorded, hsent⟩

theorem Finished.deliver (h : Finished ext pay observed organizationId db₀ db)
    (hd : d.Fits pay observed organizationId db₀) :
    Finished ext pay observed organizationId db₀ (deliver ext pay db d) := by
  obtain ⟨x, hstage, hrecorded, hcompleted⟩ := h
  have hsame : Deliveries.deliver ext pay db d = Deliveries.atTime d.clock db := by
    cases hmessage : d.message with
    | receipt => exact hstage.receipt_again hd hmessage (.inr hcompleted.transaction)
    | evidence ids => exact hstage.evidence_again hd hmessage hrecorded
  rw [hsame]
  exact ⟨x, hstage.atTime d.clock, hrecorded, hcompleted⟩

theorem Awaiting.deliver_receipt (h : Awaiting ext pay observed organizationId db₀ db)
    (hd : d.Fits pay observed organizationId db₀) (hmessage : d.message = .receipt) :
    Awaiting ext pay observed organizationId db₀ (deliver ext pay db d) := by
  obtain ⟨x, hstage, hpayable, huntouched⟩ := h
  rw [hstage.receipt_again hd hmessage (.inl hpayable.transaction)]
  exact ⟨x, hstage.atTime d.clock, hpayable, huntouched⟩

/-- **The first evidence after the receipt** confirms the payment. -/
theorem Awaiting.deliver_evidence (h : Awaiting ext pay observed organizationId db₀ db)
    (hd : d.Fits pay observed organizationId db₀) {ids : EvidenceIds}
    (hmessage : d.message = .evidence ids) :
    Finished ext pay observed organizationId db₀ (deliver ext pay db d) := by
  obtain ⟨x, hstage, hpayable, huntouched⟩ := h
  have hunrecorded := (hd.unrecorded ids hmessage).of_untouched huntouched d.clock
  have hrows : Rows pay db₀ x
      (recordResult ext pay observed x d.actorUserId ids none (Deliveries.atTime d.clock db)) :=
    (hstage.rows.atTime d.clock).recordResult
  have hrecorded : Recorded ext pay observed
      (recordResult ext pay observed x d.actorUserId ids none (Deliveries.atTime d.clock db)) :=
    hunrecorded.recorded
  rw [hstage.evidence_new hd hmessage huntouched (hstage.agrees.accepted hpayable),
    leaves_afterRecord_accepted hrows hpayable]
  exact ⟨_, hstage.of_confirmed (hrows.writeConfirmation hpayable).moveCursor, hrecorded, rfl, rfl, rfl⟩

/-! ### All deliveries -/

theorem Rejected.deliverAll {ds : List Delivery}
    (hds : ∀ d ∈ ds, d.Fits pay observed organizationId db₀)
    (h : Rejected ext pay observed organizationId db₀ db) :
    Rejected ext pay observed organizationId db₀ (deliverAll ext pay db ds) := by
  induction ds generalizing db with
  | nil => exact h
  | cons d ds ih =>
      obtain ⟨hd, hrest⟩ := List.forall_mem_cons.mp hds
      exact ih hrest (h.deliver hd)

theorem Finished.deliverAll {ds : List Delivery}
    (hds : ∀ d ∈ ds, d.Fits pay observed organizationId db₀)
    (h : Finished ext pay observed organizationId db₀ db) :
    Finished ext pay observed organizationId db₀ (deliverAll ext pay db ds) := by
  induction ds generalizing db with
  | nil => exact h
  | cons d ds ih =>
      obtain ⟨hd, hrest⟩ := List.forall_mem_cons.mp hds
      exact ih hrest (h.deliver hd)

/-- After a receipt the evidence is among the later deliveries. -/
theorem evidence_later {ds : List Delivery} (hmessage : d.message = .receipt)
    (h : ∃ e ∈ d :: ds, ∃ ids, e.message = .evidence ids) :
    ∃ e ∈ ds, ∃ ids, e.message = .evidence ids := by
  obtain ⟨e, hmem, ids, he⟩ := h
  rcases List.mem_cons.mp hmem with rfl | hmem
  · rw [hmessage] at he
    cases he
  · exact ⟨e, hmem, ids, he⟩

/-- Once submitted, the payment is confirmed as soon as any evidence comes. -/
theorem Awaiting.deliverAll {ds : List Delivery}
    (hds : ∀ d ∈ ds, d.Fits pay observed organizationId db₀)
    (hevidence : ∃ d ∈ ds, ∃ ids, d.message = .evidence ids)
    (h : Awaiting ext pay observed organizationId db₀ db) :
    Finished ext pay observed organizationId db₀ (deliverAll ext pay db ds) := by
  induction ds generalizing db with
  | nil =>
      obtain ⟨_, hmem, _⟩ := hevidence
      cases hmem
  | cons d ds ih =>
      obtain ⟨hd, hrest⟩ := List.forall_mem_cons.mp hds
      cases hmessage : d.message with
      | evidence ids =>
          have hfinished := (h.deliver_evidence hd hmessage).deliverAll hrest
          exact hfinished
      | receipt =>
          exact ih hrest (evidence_later hmessage hevidence) (h.deliver_receipt hd hmessage)

/-! ### The order of delivery -/

/-- A payment that succeeded on the chain as it was intended, before its messages come. -/
structure Reported (ext : External) (pay : Payment) (observed : Observed) (x : ExpectedIntent)
    (db : Database) : Prop extends Stage ext pay observed x.intent.organizationId db x db where
  attempt : AttemptStatus.active x.attempt.status = true
  order : x.order.status = .awaitingPayment
  sent : Signed x ∨ Submitted x

/-- The deliveries of its messages, each of them at least once. -/
structure Complete (pay : Payment) (observed : Observed) (organizationId : Uuid) (db : Database)
    (ds : List Delivery) : Prop where
  fits : ∀ d ∈ ds, d.Fits pay observed organizationId db
  receipt : ∃ d ∈ ds, d.message = .receipt
  evidence : ∃ d ∈ ds, ∃ ids, d.message = .evidence ids

/-- The intent is confirmed, and the order paid. -/
def Paid (intentId : Uuid) (db : Database) : Prop :=
  ∃ x, expectedIntent intentId db = some x ∧ x.intent.status = .confirmed ∧ x.order.status = .paid

theorem Finished.paid (h : Finished ext pay observed organizationId db₀ db) :
    Paid pay.intentId db := by
  obtain ⟨x, hstage, -, hcompleted⟩ := h
  exact ⟨x, hstage.rows.found, hcompleted.intent, hcompleted.order⟩

theorem Rejected.not_paid (h : Rejected ext pay observed organizationId db₀ db) :
    ¬ Paid pay.intentId db := by
  intro ⟨y, hy, hconfirmed, _⟩
  obtain ⟨x, hstage, -, hsent⟩ := h
  obtain rfl := Option.some.inj (hstage.rows.found.symm.trans hy)
  rcases hsent with hsigned | hsubmitted
  · rw [hsigned.1] at hconfirmed
    cases hconfirmed
  · rw [hsubmitted.1] at hconfirmed
    cases hconfirmed

theorem Reported.awaiting (h : Reported ext pay observed x db) (hsubmitted : Submitted x) :
    Awaiting ext pay observed x.intent.organizationId db db :=
  ⟨x, h.toStage, ⟨hsubmitted.1, hsubmitted.2, h.attempt, h.order⟩, rfl, rfl⟩

/-- The receipt comes first. -/
theorem Reported.deliver_receipt (h : Reported ext pay observed x db)
    (hd : d.Fits pay observed x.intent.organizationId db) (hmessage : d.message = .receipt) :
    Awaiting ext pay observed x.intent.organizationId db (deliver ext pay db d) := by
  rcases h.sent with hsigned | hsubmitted
  · have hrows := (h.rows.atTime d.clock).writeReceipt hsigned.1 hsigned.2
    rw [h.toStage.receipt_signed hd hmessage hsigned]
    exact ⟨_, h.toStage.of_submitted hrows, ⟨rfl, rfl, h.attempt, h.order⟩, rfl, rfl⟩
  · exact (h.awaiting hsubmitted).deliver_receipt hd hmessage

/-- The evidence comes first, before the receipt. -/
theorem Reported.deliver_evidence (h : Reported ext pay observed x db)
    (hd : d.Fits pay observed x.intent.organizationId db) {ids : EvidenceIds}
    (hmessage : d.message = .evidence ids) (hsigned : Signed x) :
    Rejected ext pay observed x.intent.organizationId db (deliver ext pay db d) := by
  have hunrecorded := (hd.unrecorded ids hmessage).of_untouched ⟨rfl, rfl⟩ d.clock
  rw [h.toStage.evidence_new hd hmessage ⟨rfl, rfl⟩ (reconcile_signed hsigned.1),
    leaves_afterRecord_rejected]
  refine ⟨x, ⟨(h.rows.atTime d.clock).recordResult, h.agrees, rfl, h.evidence⟩, ?_, .inl hsigned⟩
  exact hunrecorded.recorded

/-- The receipt comes first, and the evidence at any time later. -/
theorem Reported.paid (h : Reported ext pay observed x db) {ds : List Delivery}
    (hds : Complete pay observed x.intent.organizationId db (d :: ds))
    (hmessage : d.message = .receipt) : Paid pay.intentId (deliverAll ext pay db (d :: ds)) := by
  obtain ⟨hd, hrest⟩ := List.forall_mem_cons.mp hds.fits
  have hfinished := (h.deliver_receipt hd hmessage).deliverAll hrest
    (evidence_later hmessage hds.evidence)
  exact hfinished.paid

/-- The evidence comes first, and anything later. -/
theorem Reported.not_paid (h : Reported ext pay observed x db) (hsigned : Signed x)
    {ds : List Delivery} (hds : Complete pay observed x.intent.organizationId db (d :: ds))
    {ids : EvidenceIds} (hmessage : d.message = .evidence ids) :
    ¬ Paid pay.intentId (deliverAll ext pay db (d :: ds)) := by
  obtain ⟨hd, hrest⟩ := List.forall_mem_cons.mp hds.fits
  have hrejected := (h.deliver_evidence hd hmessage hsigned).deliverAll hrest
  exact hrejected.not_paid

/-- A payment that is submitted is confirmed; one that is not is confirmed if the receipt comes first. -/
theorem Reported.paid_iff (h : Reported ext pay observed x db) {ds : List Delivery}
    (hds : Complete pay observed x.intent.organizationId db ds) :
    Paid pay.intentId (deliverAll ext pay db ds) ↔
      Submitted x ∨ ds.head?.map (·.message) = some .receipt := by
  by_cases hsubmitted : Submitted x
  · have hfinished := (h.awaiting hsubmitted).deliverAll hds.fits hds.evidence
    exact ⟨fun _ => .inl hsubmitted, fun _ => hfinished.paid⟩
  have hsigned : Signed x := h.sent.resolve_right hsubmitted
  cases ds with
  | nil =>
      obtain ⟨_, hmem, _⟩ := hds.evidence
      cases hmem
  | cons d ds =>
      cases hmessage : d.message with
      | receipt => exact ⟨fun _ => .inr (congrArg some hmessage), fun _ => h.paid hds hmessage⟩
      | evidence ids =>
          constructor
          · exact fun hpaid => absurd hpaid (h.not_paid hsigned hds hmessage)
          · rintro (hboth | hfirst)
            · exact absurd hboth hsubmitted
            · have hreceipt : d.message = .receipt := Option.some.inj hfirst
              rw [hmessage] at hreceipt
              cases hreceipt

/-- **The order of delivery matters.** A payment that succeeded is confirmed, and its order paid,
whatever is delivered again and however often, if and only if it was submitted already or its
receipt is the first message that is delivered. -/
theorem deliverAll_completed_iff (h : Reported ext pay observed x db) {ds : List Delivery}
    (hds : Complete pay observed x.intent.organizationId db ds) :
    Paid pay.intentId (deliverAll ext pay db ds) ↔
      (x.intent.status = .submitted ∧ x.transaction.status = .submitted) ∨
        ds.head?.map (·.message) = some .receipt :=
  h.paid_iff hds

/-! ### The messages of a sale -/

def salePayment : Payment where
  intentId := 34
  receipt := ⟨saleHash, 200, .object [("hash", .string saleHash)]⟩
  evidence := saleEvidence

def saleObserved : Observed where
  txHash := saleHash
  ledgerSequence := 77
  operationIndex := 0
  pagingToken := "330712481793"
  source := payerAddress
  destination := shopAddress
  amountMinor := 1000000
  asset := ⟨"XLM", 7, none⟩
  memo := "CFI-00000000000000000000"
  successful := true
  closedAt := seconds 1800000060

/-- The sale up to the signed envelope. -/
theorem sale_signed : (Pool.serveAll (fun _ _ => True) shopDatabase
      [reserveSeat, openAttempt, openIntent, sendEnvelope]).any (fun signed =>
    decide (signed.2.evidence = [] ∧ signed.2.results = [] ∧
      (signed.2.intents.map (·.id)).Nodup ∧ (signed.2.transactions.map (·.id)).Nodup ∧
      (signed.2.attempts.map (·.id)).Nodup ∧ (signed.2.orders.map (·.id)).Nodup ∧
      signed.2.directory.clock = seconds 1800000000 ∧
      signed.2.directory.memberEditor 10 3 = true ∧
      salePayment.evidence.validate signed.2.directory.clock = .ok saleObserved) &&
    (expectedIntent 34 signed.2).any fun x =>
      decide (x.intent.organizationId = 10 ∧ x.intent.status = .signed ∧
        x.transaction.status = .signed ∧ AttemptStatus.active x.attempt.status = true ∧
        x.order.status = .awaitingPayment ∧
        salePayment.receipt.validate = .ok x.transaction.transactionHash ∧
        reconcile saleExternal.parseRfc3339 (submitted 0 x) saleObserved
          salePayment.evidence.rawTransaction salePayment.evidence.rawOperation = none)) = true := by
  rw [sendEnvelope_eq]
  decide +kernel

/-- Messages that the editor delivers two minutes later. -/
def saleDeliveries (messages : List Message) : List Delivery :=
  messages.map fun message => ⟨seconds 1800000120, 3, message⟩

theorem saleDeliveries_complete (hevidence : db.evidence = []) (hresults : db.results = [])
    (hclock : db.directory.clock ≤ seconds 1800000120)
    (heditor : db.directory.memberEditor 10 3 = true) {messages : List Message}
    (hreceipt : .receipt ∈ messages) {ids : EvidenceIds} (hids : .evidence ids ∈ messages) :
    Complete salePayment saleObserved 10 db (saleDeliveries messages) where
  fits d hd := by
    obtain ⟨message, -, rfl⟩ := List.mem_map.mp hd
    refine ⟨hclock, heditor, fun ids _ => ?_⟩
    constructor <;> simp [hevidence, hresults]
  receipt := ⟨_, List.mem_map_of_mem hreceipt, rfl⟩
  evidence := ⟨_, List.mem_map_of_mem hids, ids, rfl⟩

/-- The signed payment of the sale, and all deliveries of its messages. -/
theorem sale_reported : ∃ (x : ExpectedIntent) (db : Database),
    Reported saleExternal salePayment saleObserved x db ∧ Signed x ∧
      ∀ (messages : List Message) (ids : EvidenceIds), .receipt ∈ messages →
        .evidence ids ∈ messages →
          Complete salePayment saleObserved x.intent.organizationId db (saleDeliveries messages) := by
  obtain ⟨signed, -, hall⟩ := (Option.any_eq_true _ _).mp sale_signed
  obtain ⟨hdb, hrows⟩ := Bool.and_eq_true_iff.mp hall
  obtain ⟨x, hx, hsale⟩ := (Option.any_eq_true _ _).mp hrows
  obtain ⟨hevidence, hresults, hi, ht, ha, ho, hclock, heditor, hvalid⟩ := of_decide_eq_true hdb
  obtain ⟨horg, histatus, htstatus, hactive, horder, hreceipt, hnone⟩ := of_decide_eq_true hsale
  refine ⟨x, signed.2, ⟨⟨⟨hx, hi, ht, ha, ho, rfl⟩, ⟨hreceipt, hnone⟩, rfl, hvalid⟩, hactive, horder,
    .inl ⟨histatus, htstatus⟩⟩, ⟨histatus, htstatus⟩, fun messages ids hr he => ?_⟩
  rw [horg]
  have htime : signed.2.directory.clock ≤ seconds 1800000120 := hclock ▸ by decide
  exact saleDeliveries_complete hevidence hresults htime heditor hr he

/-- The messages of the sale, the receipt first, and the evidence first. -/
theorem sale_order_matters : ∃ (x : ExpectedIntent) (db : Database),
    Reported saleExternal salePayment saleObserved x db ∧
      Paid 34 (deliverAll saleExternal salePayment db
        (saleDeliveries [.receipt, .evidence ⟨36, 37⟩, .receipt, .evidence ⟨38, 39⟩])) ∧
      ¬ Paid 34 (deliverAll saleExternal salePayment db
        (saleDeliveries [.evidence ⟨36, 37⟩, .receipt, .evidence ⟨38, 39⟩])) := by
  obtain ⟨x, db, hreported, hsigned, hcomplete⟩ := sale_reported
  refine ⟨x, db, hreported, ?_, fun hpaid => ?_⟩
  · exact (deliverAll_completed_iff hreported
      (hcomplete _ ⟨36, 37⟩ (by simp) (by simp))).mpr (.inr rfl)
  · rcases (deliverAll_completed_iff hreported
      (hcomplete _ ⟨36, 37⟩ (by simp) (by simp))).mp hpaid with hboth | hfirst
    · rw [hsigned.1] at hboth
      cases hboth.1
    · cases hfirst

/-- The sale's evidence comes before its receipt, and both come again: the buyer has paid on the
chain, and the order waits for payment. -/
theorem sale_evidence_first : ¬ ∀ (ext : External) (pay : Payment) (observed : Observed)
    (x : ExpectedIntent) (db : Database) (ds : List Delivery), Reported ext pay observed x db →
      Complete pay observed x.intent.organizationId db ds →
        Paid pay.intentId (deliverAll ext pay db ds) := by
  intro hall
  obtain ⟨x, db, hreported, hsigned, hcomplete⟩ := sale_reported
  have hds := hcomplete [.evidence ⟨36, 37⟩, .receipt, .evidence ⟨38, 39⟩] ⟨36, 37⟩ (by simp) (by simp)
  exact hreported.not_paid hsigned hds rfl (hall _ _ _ _ _ _ hreported hds)

end CrownFi.Commerce.Deliveries
