import CrownFi.Commerce.Sweep

/-!
# CrownFi.Commerce.Outlines

**Every request keeps the invariant**, in any interleaving with the others: one outline
for each request, statement by statement.
-/

namespace CrownFi.Commerce

open Lib CrownFi.Api Reconciliation

variable {held evidenced : Prop} {ext : External}

/-- A request that keeps the invariant. -/
abbrev SafeHandler (held evidenced : Prop) (h : Handler Response) : Prop :=
  SafeRequest (Inv held evidenced) (Forward part fun _ => Progress) (Condition held evidenced) h.request

theorem safe_valid {α : Type} {L : List (Lock Row)} {pending : Database → Database}
    {A : Database → Prop} {e : Except ApiError α} {k : α → Prog Database Row Site Result}
    (next : ∀ a, e = .ok a → Outline held evidenced (k a) L pending A) :
    Outline held evidenced (valid e k) L pending A :=
  safe_ofExcept next

theorem safe_createReservation (buyerUserId ticketProductId : Uuid)
    (body : Ticketing.CreateReservationRequest) (ids : Ticketing.ReservationIds) :
    SafeHandler held evidenced
      (Ticketing.createReservation ext.sha256 buyerUserId ticketProductId body ids) := by
  unfold SafeHandler SafeRequest Handler.request Ticketing.createReservation
  refine safe_bind (safe_require fun _ => ?_)
  refine safe_bind (safe_valid fun key _ => ?_)
  refine safe_bind (safe_select stable_true fun _ _ _ _ _ => ?_)
  refine safe_bind (safe_releaseExpiredForProduct fun L₀ p₀ A₀ ht₀ hk₀ => ?_)
  refine safe_bind (ht₀.safe_selectFor fun db₁ A₁ _ _ _ _ h₁ => ?_)
  have hk₁ := hk₀.mono h₁.before
  refine safe_bind (safe_orElse fun available _ => ?_)
  refine safe_bind (safe_select h₁.track.stable fun _ _ _ _ _ => ?_)
  refine safe_bind (safe_require fun _ => ?_)
  refine safe_bind (safe_select h₁.track.stable fun _ _ _ _ _ => ?_)
  refine safe_bind (safe_require fun _ => ?_)
  refine safe_bind (h₁.track.safe_selectFor fun db₂ A₂ existing _ _ _ h₂ => ?_)
  have hk₂ := hk₁.mono h₂.before
  cases existing with
  | some existing =>
    refine safe_bind (safe_require fun _ => ?_)
    exact safe_bind (h₂.track.safe_commit hk₂ safe_ret)
  | none =>
    refine safe_bind (safe_select h₂.track.stable fun _ _ _ _ _ => ?_)
    refine safe_bind (safe_require fun _ => ?_)
    refine safe_bind (safe_require fun _ => ?_)
    refine safe_bind (safe_require fun _ => ?_)
    refine safe_bind (safe_orElse fun total _ => ?_)
    refine safe_bind (safe_insertOrder rfl h₂.track hk₂ fun L₃ p₃ A₃ ht₃ hk₃ horder => ?_)
    refine safe_bind (ht₃.safe_insertHidden hk₃ (hidden fun _ _ => ⟨rfl, rfl, rfl, rfl⟩)
      fun L₄ p₄ A₄ h₄ => ?_)
    refine safe_bind (safe_reserveInventory h₄.track h₄.keeps fun n L₅ p₅ A₅ h₅ => ?_)
    refine safe_bind (safe_require fun _ => ?_)
    have hboth := h₄.trans h₅
    refine safe_bind (safe_insertReservation rfl hboth.track hboth.keeps (fun d hd => ?_)
      fun L₆ p₆ A₆ ht₆ hk₆ => ?_)
    · exact ⟨_, (hboth.find orderLayout d _).trans (horder d (hboth.before d hd))⟩
    · exact safe_bind (ht₆.safe_commit hk₆ safe_ret)

section Statements

variable {L : List (Lock Row)} {pending : Database → Database} {A : Database → Prop}

theorem safe_requireEditor {organizationId userId : Uuid} {k : PUnit → Prog Database Row Site Result}
    (ht : Tracks held evidenced L pending A)
    (next : Outline held evidenced (k ⟨⟩) L pending A) :
    Outline held evidenced (requireEditor organizationId userId k) L pending A := by
  unfold requireEditor
  refine safe_bind (safe_select ht.stable fun _ _ _ _ _ => ?_)
  exact safe_require fun _ => next

theorem safe_updateAttempt {attemptId : Uuid} {admits : PaymentAttempt → Bool}
    {change : PaymentAttempt → PaymentAttempt} {k : Nat → Prog Database Row Site Result}
    (ht : Tracks held evidenced L pending A) (hk : Sound held evidenced pending A)
    (next : ∀ n L' pending' B,
      Track.Hides part (Inv held evidenced) (fun _ => Progress) Progress L pending A L' pending' B →
      Outline held evidenced (k n) L' pending' B) :
    Outline held evidenced (Orders.updateAttempt attemptId admits change k) L pending A :=
  ht.safe_updateHidden hk (hidden fun _ _ => ⟨rfl, rfl, rfl, rfl⟩) next

end Statements

/-! ### Orders and payments -/

theorem safe_createOrder (actorUserId organizationId : Uuid) (body : Orders.CreateOrderRequest)
    (orderId itemId : Uuid) :
    SafeHandler held evidenced
      (Orders.createOrder ext.sha256 actorUserId organizationId body orderId itemId) := by
  unfold SafeHandler SafeRequest Handler.request Orders.createOrder
  refine safe_bind (safe_requireEditor Track.start ?_)
  refine safe_bind (safe_require fun _ => ?_)
  refine safe_bind (safe_valid fun environment _ => ?_)
  refine safe_bind (safe_valid fun key _ => ?_)
  refine safe_bind (safe_select stable_true fun _ _ _ _ _ => ?_)
  refine safe_bind (Track.start.safe_selectFor fun db₁ A₁ existing _ _ _ h₁ => ?_)
  have hk₁ := (Keeps.start (I := Inv held evidenced) (R := Progress)).mono h₁.before
  cases existing with
  | some existing =>
    refine safe_bind (safe_require fun _ => ?_)
    exact safe_bind (h₁.track.safe_commit hk₁ safe_ret)
  | none =>
    refine safe_bind (h₁.track.safe_selectFor fun db₂ A₂ row _ _ _ h₂ => ?_)
    have hk₂ := hk₁.mono h₂.before
    refine safe_bind (safe_orElse fun catalogue _ => ?_)
    refine safe_bind (safe_require fun _ => ?_)
    refine safe_bind (safe_require fun _ => ?_)
    refine safe_bind (safe_orElse fun total _ => ?_)
    refine safe_bind (safe_require fun _ => ?_)
    refine safe_bind (safe_insertOrder rfl h₂.track hk₂ fun L₃ p₃ A₃ ht₃ hk₃ _ => ?_)
    refine safe_bind (ht₃.safe_insertHidden hk₃ (hidden fun _ _ => ⟨rfl, rfl, rfl, rfl⟩)
      fun L₄ p₄ A₄ h₄ => ?_)
    refine safe_bind (safe_reserveInventory h₄.track h₄.keeps fun n L₅ p₅ A₅ h₅ => ?_)
    refine safe_bind (safe_require fun _ => ?_)
    exact safe_bind (h₅.track.safe_commit h₅.keeps safe_ret)

theorem safe_createPaymentAttempt (actorUserId orderId : Uuid)
    (body : Orders.CreatePaymentAttemptRequest) (attemptId : Uuid) :
    SafeHandler held evidenced (Orders.createPaymentAttempt actorUserId orderId body attemptId) := by
  unfold SafeHandler SafeRequest Handler.request Orders.createPaymentAttempt
  refine safe_bind (safe_valid fun provider _ => ?_)
  refine safe_bind (safe_valid fun reference _ => ?_)
  refine safe_bind (safe_valid fun payer _ => ?_)
  refine safe_bind (Track.start.safe_selectFor fun db₁ A₁ row _ _ _ h₁ => ?_)
  have hk₁ := (Keeps.start (I := Inv held evidenced) (R := Progress)).mono h₁.before
  refine safe_bind (safe_orElse fun order _ => ?_)
  refine safe_bind (safe_requireEditor h₁.track ?_)
  refine safe_bind (safe_require fun _ => ?_)
  refine safe_bind (h₁.track.safe_insertHidden hk₁ (hidden fun _ _ => ⟨rfl, rfl, rfl, rfl⟩)
    fun L₂ p₂ A₂ h₂ => ?_)
  exact safe_bind (h₂.track.safe_commit h₂.keeps safe_ret)

theorem attemptWithOrder_eq {attemptId : Uuid} {db : Database} {attempt : PaymentAttempt}
    {order : Order} (h : Orders.attemptWithOrder attemptId db = some (attempt, order)) :
    attemptTable.find db attemptId = some attempt ∧
      orderTable.find db attempt.orderId = some order := by
  simp only [Orders.attemptWithOrder, Option.bind_eq_bind, Option.bind_eq_some_iff] at h
  obtain ⟨a, ha, o, ho, heq⟩ := h
  obtain ⟨rfl, rfl⟩ := Prod.mk.inj (Option.some.inj heq)
  exact ⟨ha, ho⟩

theorem safe_applyOutcome {L : List (Lock Row)} {pending : Database → Database} {A : Database → Prop}
    {attempt : PaymentAttempt} {outcome : Outcome} {k : PUnit → Prog Database Row Site Result}
    (ht : Tracks held evidenced L pending A) (hk : Sound held evidenced pending A)
    (next : ∀ L' pending' B, Tracks held evidenced L' pending' B →
      Sound held evidenced pending' B → Outline held evidenced (k ⟨⟩) L' pending' B) :
    Outline held evidenced (Orders.applyOutcome attempt outcome k) L pending A := by
  cases outcome with
  | confirmed =>
    refine safe_bind (safe_updateAttempt ht hk fun n L₁ p₁ A₁ h₁ => ?_)
    refine safe_bind (h₁.track.safe_update fun db₂ A₂ hI₂ hA₂ hok h₂ => ?_)
    refine next _ _ _ (h₂.track.modifyLocked orderLayout (f := ({ · with status := .paid }))
      (fun _ => rfl) fun o => ⟨_, List.mem_singleton.mpr rfl, rfl, rfl⟩) ?_
    refine (h₁.keeps.mono h₂.before).change fun d _ _ hIp => ?_
    refine hIp.moveOrders (s := .awaitingPayment) (fun o ho => ?_) (.inr (.inl rfl)) ?_
    · simpa using (Bool.and_eq_true_iff.mp ho).2
    · -- under the condition there is no such order
      intro hev _ _ o ho
      obtain ⟨hmem, hp⟩ := orderTable.mem_matching.mp ho
      simp only [Bool.and_eq_true, decide_eq_true_eq] at hp
      have hfind := orderTable.find_of_mem (h₁.keeps db₂ hI₂ hA₂).1.orderIds hmem
      exact absurd hp.2 (hok.2 hev _ rfl o (hp.1 ▸ hfind))
  | failed =>
    refine safe_bind (safe_updateAttempt ht hk fun n L₁ p₁ A₁ h₁ => ?_)
    exact next _ _ _ h₁.track h₁.keeps

theorem safe_recordPaymentEvent (actorUserId attemptId : Uuid)
    (body : Orders.RecordPaymentEventRequest) (eventId : Uuid) :
    SafeHandler held evidenced
      (Orders.recordPaymentEvent ext.sha256 ext.toVec actorUserId attemptId body eventId) := by
  unfold SafeHandler SafeRequest Handler.request Orders.recordPaymentEvent
  refine safe_bind (safe_valid fun payment _ => ?_)
  refine safe_bind (Track.start.safe_selectFor fun db₁ A₁ row _ _ _ h₁ => ?_)
  have hk₁ := (Keeps.start (I := Inv held evidenced) (R := Progress)).mono h₁.before
  refine safe_bind (safe_orElse fun found _ => ?_)
  obtain ⟨attempt, order⟩ := found
  refine safe_bind (safe_requireEditor h₁.track ?_)
  refine safe_bind (safe_select h₁.track.stable fun _ existing _ _ _ => ?_)
  cases existing with
  | some existing =>
    refine safe_bind (safe_require fun _ => ?_)
    exact safe_bind (h₁.track.safe_commit hk₁ safe_ret)
  | none =>
    refine safe_bind (safe_require fun _ => ?_)
    refine safe_bind (h₁.track.safe_insertHidden hk₁ (hidden fun _ _ => ⟨rfl, rfl, rfl, rfl⟩)
      fun L₂ p₂ A₂ h₂ => ?_)
    generalize Orders.reconcileEvent attempt payment = reconciliationError
    cases reconciliationError with
    | some _ => exact safe_bind (h₂.track.safe_commit h₂.keeps safe_ret)
    | none =>
      refine safe_bind (safe_applyOutcome h₂.track h₂.keeps fun L₃ p₃ A₃ ht₃ hk₃ => ?_)
      exact safe_bind (ht₃.safe_commit hk₃ safe_ret)

/-! ### Intents -/

theorem safe_createTransactionIntent (actorUserId orderId : Uuid)
    (body : Intents.CreateTransactionIntentRequest) (intentId : Uuid) :
    SafeHandler held evidenced
      (Intents.createTransactionIntent ext.sha256 actorUserId orderId body intentId) := by
  unfold SafeHandler SafeRequest Handler.request Intents.createTransactionIntent
  refine safe_bind (safe_valid fun args _ => ?_)
  refine safe_bind (Track.start.safe_selectFor fun db₁ A₁ row _ _ _ h₁ => ?_)
  have hk₁ := (Keeps.start (I := Inv held evidenced) (R := Progress)).mono h₁.before
  refine safe_bind (safe_orElse fun found _ => ?_)
  obtain ⟨attempt, order⟩ := found
  refine safe_bind (safe_requireEditor h₁.track ?_)
  refine safe_bind (safe_require fun _ => ?_)
  refine safe_bind (safe_require fun _ => ?_)
  refine safe_bind (safe_require fun _ => ?_)
  refine safe_bind (safe_require fun _ => ?_)
  refine safe_bind (safe_require fun _ => ?_)
  refine safe_bind (h₁.track.safe_selectFor fun db₂ A₂ existing _ _ _ h₂ => ?_)
  have hk₂ := hk₁.mono h₂.before
  cases existing with
  | some existing =>
    refine safe_bind (safe_require fun _ => ?_)
    exact safe_bind (h₂.track.safe_commit hk₂ safe_ret)
  | none =>
    refine safe_bind (safe_select h₂.track.stable fun _ _ _ _ _ => ?_)
    refine safe_bind (safe_valid fun built _ => ?_)
    refine safe_bind (h₂.track.safe_insertRow fun db₃ A₃ _ _ _ h₃ => ?_)
    refine safe_bind ((h₃.track.add intentLayout ?_).safe_commit ?_ safe_ret)
    · simp [intentTable]
    · exact (hk₂.mono h₃.before).change fun _ _ _ hIp => hIp.addIntent

section Statements

variable {L : List (Lock Row)} {pending : Database → Database} {A : Database → Prop}

/-- An update of an intent that is not confirmed. -/
theorem safe_updateIntent {intentId : Uuid} {admits : TransactionIntent → Bool}
    {change : TransactionIntent → TransactionIntent} {k : Nat → Prog Database Row Site Result}
    (hchange : ∀ i, (change i).id = i.id) (ht : Tracks held evidenced L pending A)
    (hk : Sound held evidenced pending A)
    (hopen : ∀ d, A d → ∀ i, intentTable.find (pending d) intentId = some i → admits i = true →
      i.status ≠ .confirmed)
    (next : ∀ n L' pending' B, Tracks held evidenced L' pending' B →
      Sound held evidenced pending' B → (∀ d, B d → A d) →
      (∀ d, (pending' d).results = (pending d).results) →
      (∀ i, admits i = true → (∀ d, A d → intentTable.find (pending d) intentId = some i) →
        ∀ d, B d → intentTable.find (pending' d) intentId = some (change i)) →
      Outline held evidenced (k n) L' pending' B) :
    Outline held evidenced (Intents.updateIntent intentId admits change k) L pending A := by
  unfold Intents.updateIntent
  refine ht.safe_update fun db B _ hA _ h => ?_
  refine next _ _ _ _ (h.track.modifyLocked intentLayout hchange
    fun i => ⟨_, List.mem_cons_self, rfl, rfl⟩) ?_ h.before (fun _ => rfl) fun i hi hfind d hd => ?_
  rotate_left
  · obtain ⟨hmem, hid⟩ := intentTable.find_mem (hfind db hA)
    have hp : (decide (i.id = intentId) && admits i) = true := by
      rw [show i.id = intentId from hid, hi]
      simp
    rw [intentTable.find_modify hchange, hfind d (h.before d hd), Option.map_some, if_pos]
    exact Bool.and_eq_true_iff.mpr ⟨hp, decide_eq_true
      (List.mem_map.mpr ⟨i, intentTable.mem_matching.mpr ⟨hmem, hp⟩, rfl⟩)⟩
  refine (hk.mono h.before).change fun d _ hd hIp => ?_
  refine hIp.modifyIntents hchange fun id i hi hp => ?_
  obtain ⟨hid, hadmits⟩ := Bool.and_eq_true_iff.mp hp
  obtain rfl : id = intentId := (intentTable.find_mem hi).2.symm.trans (of_decide_eq_true hid)
  exact hopen d (h.before d hd) i hi hadmits

end Statements

theorem safe_acceptEnvelope (actorUserId intentId : Uuid) (envelope : Intents.SignedEnvelope)
    (transactionId : Uuid) :
    SafeHandler held evidenced
      (Intents.acceptEnvelope ext.sha256 actorUserId intentId envelope transactionId) := by
  unfold SafeHandler SafeRequest Handler.request Intents.acceptEnvelope
  refine safe_bind (Track.start.safe_selectFor fun db₁ A₁ row _ _ hrow h₁ => ?_)
  have hk₁ := (Keeps.start (I := Inv held evidenced) (R := Progress)).mono h₁.before
  refine safe_bind (safe_orElse fun intent hintent => ?_)
  -- the intent is locked and stays as it was read
  have hfind : intentTable.find db₁ intentId = some intent := hrow.trans hintent
  have hknown (d : Database) (hd : A₁ d) : intentTable.find d intentId = some intent := by
    refine ((h₁.seen d hd).find intentLayout (i := intentId) (m := .update) ?_ rfl).trans hfind
    obtain ⟨-, hid⟩ := intentTable.find_mem hfind
    rw [List.nil_append, ← hid]
    simp only [id, hid, hfind]
    simp [intentTable, ← hid]
  refine safe_bind (safe_requireEditor h₁.track ?_)
  refine safe_bind (safe_select h₁.track.stable fun _ existing _ _ _ => ?_)
  cases existing with
  | some existing =>
    refine safe_bind (safe_require fun _ => ?_)
    exact safe_bind (h₁.track.safe_commit hk₁ safe_ret)
  | none =>
    refine safe_bind (safe_require fun hstatus => ?_)
    have hopen (i : TransactionIntent) (hi : some intent = some i) : i.status ≠ .confirmed := by
      obtain rfl := Option.some.inj hi
      rw [of_decide_eq_true hstatus]
      decide
    refine safe_bind (safe_select h₁.track.stable fun _ now _ _ _ => ?_)
    refine safe_ite (fun _ => ?_) fun _ => ?_
    · refine safe_bind (safe_updateIntent (fun _ => rfl) h₁.track hk₁ ?_
        fun n L₂ p₂ A₂ ht₂ hk₂ _ _ _ => ?_)
      · exact fun d hd i hi _ => hopen i ((hknown d hd).symm.trans hi)
      · exact safe_bind (ht₂.safe_commit hk₂ safe_exit)
    · refine safe_bind (safe_valid fun _ _ => ?_)
      refine safe_bind (h₁.track.safe_insertHidden hk₁ (hidden fun _ _ => ⟨rfl, rfl, rfl, rfl⟩)
        fun L₂ p₂ A₂ h₂ => ?_)
      refine safe_bind (safe_updateIntent (fun _ => rfl) h₂.track h₂.keeps ?_
        fun n L₃ p₃ A₃ ht₃ hk₃ _ _ _ => ?_)
      · intro d hd i hi _
        rw [h₂.find intentLayout] at hi
        exact hopen i ((hknown d (h₂.before d hd)).symm.trans hi)
      · exact safe_bind (ht₃.safe_commit hk₃ safe_ret)

theorem safe_acceptSignedEnvelope (actorUserId intentId : Uuid) (signedEnvelopeXdr : String)
    (transactionId : Uuid) :
    SafeHandler held evidenced
      (Intents.acceptSignedEnvelope ext.sha256 actorUserId intentId signedEnvelopeXdr
        transactionId) := by
  unfold SafeHandler SafeRequest Handler.request Intents.acceptSignedEnvelope
  refine safe_bind (safe_valid fun envelope _ => ?_)
  exact safe_acceptEnvelope actorUserId intentId envelope transactionId

/-! ### Receipts and evidence -/

theorem safe_loadResponse {intentId : Uuid}
    {k : Option ReconciliationResult → Prog Database Row Site Result}
    (next : ∀ r, Outline held evidenced (k r) [] id fun _ => True) :
    Outline held evidenced (loadResponse intentId k) [] id fun _ => True := by
  unfold loadResponse
  refine safe_bind (safe_select stable_true fun _ _ _ _ _ => ?_)
  refine safe_bind (safe_require fun _ => ?_)
  exact safe_select stable_true fun _ r _ _ _ => next r

theorem expectedIntent_eq {intentId : Uuid} {db : Database} {e : ExpectedIntent}
    (h : expectedIntent intentId db = some e) :
    intentTable.find db intentId = some e.intent ∧
      orderTable.find db e.intent.orderId = some e.order := by
  simp only [expectedIntent, Option.bind_eq_bind, Option.bind_eq_some_iff] at h
  obtain ⟨i, hi, t, -, a, -, o, ho, heq⟩ := h
  obtain rfl := Option.some.inj heq
  exact ⟨hi, ho⟩

/-- The intent and the order of the evidence are locked from the beginning. -/
theorem safe_expectedForUpdate {intentId : Uuid} {k : ExpectedIntent → Prog Database Row Site Result}
    (next : ∀ e L B, Tracks held evidenced L id B → Sound held evidenced id B →
      (∀ d, B d → intentTable.find d intentId = some e.intent) → e.intent.id = intentId →
      e.intent.orderId = e.order.id → Outline held evidenced (k e) L id B) :
    Outline held evidenced (expectedForUpdate intentId k) [] id fun _ => True := by
  unfold expectedForUpdate
  refine safe_bind (Track.start.safe_selectFor fun db B row _ _ hrow h => ?_)
  refine safe_orElse fun e he => ?_
  have hexpected : expectedIntent intentId db = some e := hrow.trans he
  obtain ⟨hintent, horder⟩ := expectedIntent_eq hexpected
  have hid : e.intent.id = intentId := (intentTable.find_mem hintent).2
  refine next e _ B h.track (Keeps.start.mono h.before) (fun d hd => ?_) hid
    (orderTable.find_mem horder).2.symm
  refine ((h.seen d hd).find intentLayout (i := intentId) (m := .update) ?_ rfl).trans hintent
  simp only [id, hexpected, Option.map_some, Option.getD_some, ExpectedIntent.locks, hid]
  exact List.mem_cons_self

theorem safe_recordSubmissionReceipt (actorUserId intentId : Uuid) (body : SubmissionReceiptRequest) :
    SafeHandler held evidenced (recordSubmissionReceipt actorUserId intentId body) := by
  unfold SafeHandler SafeRequest Handler.request recordSubmissionReceipt
  refine safe_bind (safe_valid fun txHash _ => ?_)
  refine safe_bind (safe_expectedForUpdate fun expected L₁ A₁ ht₁ hk₁ _ _ _ => ?_)
  refine safe_bind (safe_requireEditor ht₁ ?_)
  refine safe_bind (safe_require fun _ => ?_)
  refine safe_ite (fun _ => ?_) fun _ => ?_
  · refine safe_bind (ht₁.safe_commit hk₁ ?_)
    exact safe_bind (safe_loadResponse fun _ => safe_ret)
  · refine safe_bind (safe_require fun _ => ?_)
    refine safe_bind (ht₁.safe_updateHidden hk₁ (hidden fun _ _ => ⟨rfl, rfl, rfl, rfl⟩)
      fun n L₂ p₂ A₂ h₂ => ?_)
    refine safe_bind (safe_updateIntent (fun _ => rfl) h₂.track h₂.keeps ?_
      fun n L₃ p₃ A₃ ht₃ hk₃ _ _ _ => ?_)
    · intro d _ i _ hadmits
      rw [of_decide_eq_true hadmits]
      decide
    · refine safe_bind (ht₃.safe_commit hk₃ ?_)
      exact safe_bind (safe_loadResponse fun _ => safe_ret)

/-- **The confirmation of a payment**: the order is paid, and it has its evidence. -/
theorem safe_confirmPaymentState {L : List (Lock Row)} {pending : Database → Database}
    {A : Database → Prop} {expected : ExpectedIntent} {k : PUnit → Prog Database Row Site Result}
    (ht : Tracks held evidenced L pending A) (hk : Sound held evidenced pending A)
    (hsubmitted : expected.intent.status = .submitted)
    (horder : expected.intent.orderId = expected.order.id)
    (hintent : ∀ d, A d → intentTable.find (pending d) expected.intent.id = some expected.intent)
    (hresult : ∀ d, A d → ∃ r ∈ (pending d).results,
      r.transactionIntentId = expected.intent.id ∧ r.status = .accepted)
    (next : ∀ L' pending' B, Tracks held evidenced L' pending' B →
      Sound held evidenced pending' B → Outline held evidenced (k ⟨⟩) L' pending' B) :
    Outline held evidenced (confirmPaymentState expected k) L pending A := by
  unfold confirmPaymentState
  refine safe_bind (ht.safe_updateHidden hk (hidden fun _ _ => ⟨rfl, rfl, rfl, rfl⟩)
    fun n₁ L₁ p₁ A₁ h₁ => ?_)
  have hintent₁ (d : Database) (hd : A₁ d) :
      intentTable.find (p₁ d) expected.intent.id = some expected.intent :=
    (h₁.find intentLayout d _).trans (hintent d (h₁.before d hd))
  refine safe_bind (safe_updateIntent (fun _ => rfl) h₁.track h₁.keeps ?_
    fun n₂ L₂ p₂ A₂ ht₂ hk₂ hbefore₂ hresults₂ hintent₂ => ?_)
  · intro d _ i _ hadmits
    rw [of_decide_eq_true hadmits]
    decide
  have hconfirmed := hintent₂ _ (decide_eq_true hsubmitted) hintent₁
  refine safe_bind (safe_updateAttempt ht₂ hk₂ fun n₃ L₃ p₃ A₃ h₃ => ?_)
  refine safe_bind (h₃.track.safe_update fun db₄ A₄ _ _ _ h₄ => ?_)
  refine safe_require fun _ => ?_
  refine next _ _ _ (h₄.track.modifyLocked orderLayout (f := ({ · with status := .paid }))
    (fun _ => rfl) fun o => ⟨_, List.mem_singleton.mpr rfl, rfl, rfl⟩) ?_
  refine (h₃.keeps.mono h₄.before).change fun d hI hd hIp => ?_
  refine hIp.moveOrders (s := .awaitingPayment) (fun o ho => ?_) (.inr (.inl rfl)) ?_
  · simpa using (Bool.and_eq_true_iff.mp ho).2
  · intro _ _ _ o ho
    have hd₃ := h₄.before d hd
    have hd₂ := h₃.before d hd₃
    have hd₁ := hbefore₂ d hd₂
    obtain ⟨hoid, -⟩ := Bool.and_eq_true_iff.mp (orderTable.mem_matching.mp ho).2
    obtain ⟨r, hr, hri, hraccepted⟩ := hresult d (h₁.before d hd₁)
    have hr₂ : r ∈ (p₂ d).results := hresults₂ d ▸ (h₁.moved d hI hd₁).results r hr
    refine ⟨expected.intent.id, _, (h₃.find intentLayout d _).trans (hconfirmed d hd₂), ?_, rfl,
      r, (h₃.moved d hI hd₃).results r hr₂, hri, hraccepted⟩
    exact horder.trans (of_decide_eq_true hoid).symm

theorem reconcile_submitted {parseRfc3339 : String → Option Int} {e : ExpectedIntent} {o : Observed}
    {rawTx rawOp : Json} (h : reconcile parseRfc3339 e o rawTx rawOp = none) :
    e.intent.status = .submitted := by
  unfold reconcile at h
  split at h
  · cases h
  · rename_i hstatus
    exact not_not.mp (not_or.mp hstatus).1

theorem safe_insertResult {L : List (Lock Row)} {pending : Database → Database}
    {A : Database → Prop} {r : ReconciliationResult} {k : PUnit → Prog Database Row Site Result}
    (ht : Tracks held evidenced L pending A) (hk : Sound held evidenced pending A)
    (next : ∀ L' pending' B, Tracks held evidenced L' pending' B →
      Sound held evidenced pending' B → (∀ d, B d → A d) → (∀ d, r ∈ (pending' d).results) →
      (∀ d id, intentTable.find (pending' d) id = intentTable.find (pending d) id) →
      Outline held evidenced (k ⟨⟩) L' pending' B) :
    Outline held evidenced (insertResult r k) L pending A := by
  unfold insertResult
  refine ht.safe_insertRow fun db B _ _ _ h => ?_
  refine next _ _ _ (h.track.hide fun db k => ?_) ?_ h.before ?_ fun _ _ => rfl
  · cases k <;> rfl
  · exact (hk.mono h.before).change fun _ _ _ hIp => hIp.addResult
  · exact fun d => List.mem_append_right _ (List.mem_singleton.mpr rfl)

theorem safe_reconcileEvidence (actorUserId intentId : Uuid) (observed : Observed)
    (rawTx rawOp : Json) (ids : EvidenceIds) :
    SafeHandler held evidenced
      (reconcileEvidence ext actorUserId intentId observed rawTx rawOp ids) := by
  unfold SafeHandler SafeRequest Handler.request reconcileEvidence
  refine safe_bind (safe_select stable_true fun _ _ _ _ _ => ?_)
  refine safe_bind (safe_expectedForUpdate fun expected L₁ A₁ ht₁ hk₁ hintent hid horder => ?_)
  refine safe_bind (safe_requireEditor ht₁ ?_)
  refine safe_bind (safe_select ht₁.stable fun _ existing _ _ _ => ?_)
  cases existing with
  | some existing =>
    refine safe_bind (safe_require fun _ => ?_)
    refine safe_bind (ht₁.safe_commit hk₁ ?_)
    exact safe_bind (safe_loadResponse fun _ => safe_ret)
  | none =>
    refine safe_bind (safe_select ht₁.stable fun _ _ _ _ _ => ?_)
    refine safe_bind (safe_require fun _ => ?_)
    generalize hfailure : reconcile ext.parseRfc3339 expected observed rawTx rawOp = failure
    refine safe_bind (ht₁.safe_insertHidden hk₁ (hidden fun _ _ => ⟨rfl, rfl, rfl, rfl⟩)
      fun L₂ p₂ A₂ h₂ => ?_)
    refine safe_bind (safe_insertResult h₂.track h₂.keeps
      fun L₃ p₃ A₃ ht₃ hk₃ hbefore₃ hresult₃ hfind₃ => ?_)
    cases failure with
    | some _ =>
      refine safe_bind (ht₃.safe_commit hk₃ ?_)
      exact safe_bind (safe_loadResponse fun _ => safe_ret)
    | none =>
      refine safe_bind (safe_confirmPaymentState ht₃ hk₃ (reconcile_submitted hfailure) horder ?_
        (fun d _ => ⟨_, hresult₃ d, hid.symm, rfl⟩) fun L₄ p₄ A₄ ht₄ hk₄ => ?_)
      · intro d hd
        rw [hfind₃, h₂.find intentLayout, hid]
        exact hintent d (h₂.before d (hbefore₃ d hd))
      refine safe_bind (ht₄.safe_writeHidden hk₄ ?_ ?_ fun L₅ p₅ A₅ h₅ => ?_)
      · exact fun db k => by cases k <;> rfl
      · exact fun db hI => hI.of_same rfl rfl rfl rfl
      refine safe_bind (h₅.track.safe_commit h₅.keeps ?_)
      exact safe_bind (safe_loadResponse fun _ => safe_ret)

theorem safe_recordChainEvidence (actorUserId intentId : Uuid) (body : ChainEvidenceRequest)
    (ids : EvidenceIds) :
    SafeHandler held evidenced (recordChainEvidence ext actorUserId intentId body ids) := by
  unfold SafeHandler SafeRequest Handler.request recordChainEvidence
  refine safe_bind (safe_select stable_true fun _ now _ _ _ => ?_)
  refine safe_bind (safe_valid fun observed _ => ?_)
  exact safe_reconcileEvidence actorUserId intentId observed _ _ ids

/-! ### Issuances -/

theorem safe_insertIssuances {L : List (Lock Row)} {pending : Database → Database}
    {A : Database → Prop} {context : Issuance.PaidOrderContext} {orderId owner : Uuid} {serial : Int}
    {idOf : Int → Uuid} {offset : Int} {count : Nat} {k : PUnit → Prog Database Row Site Result}
    (ht : Tracks held evidenced L pending A) (hk : Sound held evidenced pending A)
    (next : ∀ L' pending' B,
      Track.Hides part (Inv held evidenced) (fun _ => Progress) Progress L pending A L' pending' B →
      Outline held evidenced (k ⟨⟩) L' pending' B) :
    Outline held evidenced
      (Issuance.insertIssuances context orderId owner serial idOf offset count k) L pending A := by
  induction count generalizing L pending A offset with
  | zero => exact next _ _ _ (Track.hides_refl ht hk)
  | succ count ih =>
      refine safe_bind (safe_orElse fun _ _ => ?_)
      refine safe_bind (ht.safe_insertHidden hk (hidden fun _ _ => ⟨rfl, rfl, rfl, rfl⟩)
        fun L₁ p₁ A₁ h₁ => ?_)
      exact ih h₁.track h₁.keeps fun L' p' B h' => next L' p' B (h₁.trans h')

theorem safe_prepareIssuance (orderId : Uuid) (ids : Int → Uuid) :
    SafeHandler held evidenced (Issuance.prepareIssuance orderId ids) := by
  unfold SafeHandler SafeRequest Handler.request Issuance.prepareIssuance
  refine safe_bind (Track.start.safe_selectFor fun db₁ A₁ row hI₁ _ hrow h₁ => ?_)
  have hk₁ := (Keeps.start (I := Inv held evidenced) (R := Progress)).mono h₁.before
  refine safe_bind (safe_orElse fun context hcontext => ?_)
  -- the order and its reservation are locked from here on
  have hpaid : Issuance.paidOrderContext orderId db₁ = some context := hrow.trans hcontext
  obtain ⟨o, r, tp, ho, hr, hro, -, hc⟩ := Issuance.paidOrderContext_eq hI₁.reservationIds hpaid
  have hos : o.status = context.orderStatus := by rw [hc]
  have hlocks : ((Issuance.paidOrderContext orderId db₁).map (·.locks orderId)).getD [] =
      context.locks orderId := by rw [hpaid]; rfl
  have horder (d : Database) (hd : A₁ d) : orderTable.find d orderId = some o := by
    refine ((h₁.seen d hd).find orderLayout (m := .update) ?_ rfl).trans ho
    rw [List.nil_append]
    show _ ∈ ((Issuance.paidOrderContext orderId db₁).map (·.locks orderId)).getD []
    rw [hlocks]
    exact List.mem_cons_self
  have hreservation (d : Database) (hd : A₁ d) :
      reservationTable.find d context.reservationId = some r := by
    refine ((h₁.seen d hd).find reservationLayout (m := .update) ?_ rfl).trans hr
    rw [List.nil_append]
    show _ ∈ ((Issuance.paidOrderContext orderId db₁).map (·.locks orderId)).getD []
    rw [hlocks]
    exact List.mem_cons_of_mem _ List.mem_cons_self
  refine safe_bind (safe_select h₁.track.stable fun _ _ _ _ _ => ?_)
  refine safe_ite (fun _ => ?_) fun _ => safe_bind (h₁.track.safe_commit hk₁ safe_ret)
  refine safe_bind (safe_require fun hready => ?_)
  simp only [Bool.and_eq_true, decide_eq_true_eq] at hready
  refine safe_bind (safe_select h₁.track.stable fun _ _ _ _ _ => ?_)
  refine safe_bind (safe_require fun _ => ?_)
  refine safe_bind (safe_select h₁.track.stable fun _ _ _ _ _ => ?_)
  refine safe_bind (safe_orElse fun owner _ => ?_)
  refine safe_bind (h₁.track.safe_selectFor fun db₂ A₂ _ _ _ _ h₂ => ?_)
  refine safe_bind (safe_select h₂.track.stable fun _ _ _ _ _ => ?_)
  refine safe_bind (safe_insertIssuances h₂.track (hk₁.mono h₂.before) fun L₃ p₃ A₃ h₃ => ?_)
  refine safe_bind (safe_updateInventory h₃.track h₃.keeps fun n L₄ p₄ A₄ h₄ => ?_)
  refine safe_bind (safe_require fun _ => ?_)
  have hboth := h₃.trans h₄
  have horder₄ (d : Database) (hd : A₄ d) : orderTable.find (p₄ d) orderId = some o :=
    (hboth.find orderLayout d _).trans (horder d (h₂.before d (hboth.before d hd)))
  have hreservation₄ (d : Database) (hd : A₄ d) :
      reservationTable.find (p₄ d) context.reservationId = some r :=
    (hboth.find reservationLayout d _).trans (hreservation d (h₂.before d (hboth.before d hd)))
  -- the reservation is converted and the order moves on, both in one commit
  refine safe_bind (h₄.track.safe_update fun db₅ A₅ _ _ _ h₅ => ?_)
  have ht₅ := h₅.track.modifyLocked reservationLayout (f := ({ · with status := .converted }))
    (fun _ => rfl) fun r => ⟨_, List.mem_singleton.mpr rfl, rfl, rfl⟩
  refine safe_bind (ht₅.safe_update fun db₆ A₆ _ hA₆ _ h₆ => ?_)
  have ht₆ := h₆.track.modifyLocked orderLayout (f := ({ · with status := .fulfilling }))
    (fun _ => rfl) fun o => ⟨_, List.mem_singleton.mpr rfl, rfl, rfl⟩
  refine safe_bind (ht₆.safe_commit ?_ safe_ret)
  refine (h₄.keeps.mono fun d hd => h₅.before d (h₆.before d hd)).change
    (f := fun x => setOrders _ _ _ (setReservations _ _ _ x)) fun d _ hd hIp => ?_
  have hd₄ := h₅.before d (h₆.before d hd)
  refine hIp.moveBoth (s := .paid) (t := .fulfilling) (fun o ho => ?_) (by decide) (by decide)
    fun id r' hr' hp => ?_
  · simpa using (Bool.and_eq_true_iff.mp ho).2
  · have hid : r'.id = context.reservationId := of_decide_eq_true (Bool.and_eq_true_iff.mp hp).1
    obtain rfl : context.reservationId = id := hid.symm.trans (reservationTable.find_mem hr').2
    obtain rfl := Option.some.inj (hr'.symm.trans (hreservation₄ d hd₄))
    rw [hro, find_setOrders, horder₄ d hd₄, Option.map_some, if_pos]
    · exact ⟨_, rfl, fun _ => .inl rfl, fun _ h => by rcases h with h | h | h <;> cases h⟩
    · obtain ⟨hmem, hoid⟩ := orderTable.find_mem (horder₄ db₆ (h₅.before db₆ hA₆))
      have hq : (decide (o.id = orderId) && decide (o.status = .paid)) = true := by
        rw [hos, hready.1, show o.id = orderId from hoid]
        simp
      exact Bool.and_eq_true_iff.mpr ⟨hq, decide_eq_true
        (List.mem_map.mpr ⟨o, orderTable.mem_matching.mpr ⟨hmem, hq⟩, rfl⟩)⟩

theorem safe_acceptOwnershipEvidence (issuanceId : Uuid) (body : Issuance.OwnershipEvidenceRequest)
    (evidenceId : Uuid) :
    SafeHandler held evidenced (Issuance.acceptOwnershipEvidence issuanceId body evidenceId) := by
  unfold SafeHandler SafeRequest Handler.request Issuance.acceptOwnershipEvidence
  refine safe_bind (safe_valid fun mint _ => ?_)
  refine safe_bind (Track.start.safe_selectFor fun db₁ A₁ row _ _ _ h₁ => ?_)
  have hk₁ := (Keeps.start (I := Inv held evidenced) (R := Progress)).mono h₁.before
  refine safe_bind (safe_orElse fun issuance _ => ?_)
  refine safe_bind (safe_select h₁.track.stable fun _ existing _ _ _ => ?_)
  cases existing with
  | some existing =>
    refine safe_bind (safe_require fun _ => ?_)
    exact safe_bind (h₁.track.safe_commit hk₁ safe_ret)
  | none =>
    refine safe_bind (safe_require fun _ => ?_)
    refine safe_bind (safe_select h₁.track.stable fun _ _ _ _ _ => ?_)
    refine safe_bind (safe_orElse fun owner _ => ?_)
    refine safe_bind (safe_require fun _ => ?_)
    refine safe_bind (h₁.track.safe_insertHidden hk₁ (hidden fun _ _ => ⟨rfl, rfl, rfl, rfl⟩)
      fun L₂ p₂ A₂ h₂ => ?_)
    refine safe_bind (h₂.track.safe_updateHidden h₂.keeps (hidden fun _ _ => ⟨rfl, rfl, rfl, rfl⟩)
      fun n L₃ p₃ A₃ h₃ => ?_)
    refine safe_bind (safe_select h₃.track.stable fun _ remaining _ _ _ => ?_)
    have rest (n : Nat) (L : List (Lock Row)) (p : Database → Database) (A : Database → Prop)
        (ht : Tracks held evidenced L p A) (hk : Sound held evidenced p A) :
        Outline held evidenced ((do
          let view ← Tx.select .other (Issuance.loadOwnership issuanceId)
          Tx.require view.isSome (.error .notFound)
          Tx.commit
          return ⟨.created, issuanceId⟩ : Handler Response) fun r => .ret (.ok r)) L p A := by
      refine safe_bind (safe_select ht.stable fun _ _ _ _ _ => ?_)
      refine safe_bind (safe_require fun _ => ?_)
      exact safe_bind (ht.safe_commit hk safe_ret)
    refine safe_ite (fun _ => ?_) fun _ => ?_
    · exact safe_bind (safe_moveOrder (by decide) (by decide) h₃.track h₃.keeps rest)
    · exact rest 0 _ _ _ h₃.track h₃.keeps

/-! ### Everything else -/

theorem safe_environment (directory : Directory) (catalogue : Catalogue) :
    SafeHandler held evidenced (environment directory catalogue) := by
  unfold SafeHandler SafeRequest Handler.request environment
  refine safe_bind (Track.start.safe_writeHidden (R := Progress) .start ?_ ?_ fun L₁ p₁ A₁ h₁ => ?_)
  · exact fun db k => by cases k <;> rfl
  · exact fun db hI => hI.of_same rfl rfl rfl rfl
  · exact safe_bind (h₁.track.safe_commit h₁.keeps safe_ret)

theorem safe_setSupplyLimit (productId : Uuid) (supplyLimit : Option Int) :
    SafeHandler held evidenced (setSupplyLimit productId supplyLimit) := by
  unfold SafeHandler SafeRequest Handler.request setSupplyLimit
  refine safe_bind (Track.start.safe_selectFor fun db₁ A₁ row _ _ _ h₁ => ?_)
  have hk₁ := (Keeps.start (I := Inv held evidenced) (R := Progress)).mono h₁.before
  cases row with
  | some _ =>
    refine safe_bind (safe_updateInventory h₁.track hk₁ fun n L₂ p₂ A₂ h₂ => ?_)
    exact safe_bind (h₂.track.safe_commit h₂.keeps safe_ret)
  | none =>
    refine safe_bind (h₁.track.safe_insertHidden hk₁ (hidden fun _ _ => ⟨rfl, rfl, rfl, rfl⟩)
      fun L₂ p₂ A₂ h₂ => ?_)
    exact safe_bind (h₂.track.safe_commit h₂.keeps safe_ret)

/-- **Every request of the shop keeps the invariant.** -/
theorem safe_request {operations : List Operation} {p : Prog Database Row Site Result}
    (h : Requests ext operations p) :
    SafeRequest (Inv held evidenced) (Forward part fun _ => Progress) (Condition held evidenced) p := by
  obtain ⟨operation, -, hp⟩ := h
  cases hp with
  | createReservation => exact safe_createReservation _ _ _ _
  | createOrder => exact safe_createOrder _ _ _ _ _
  | createPaymentAttempt => exact safe_createPaymentAttempt _ _ _ _
  | recordPaymentEvent => exact safe_recordPaymentEvent _ _ _ _
  | createTransactionIntent => exact safe_createTransactionIntent _ _ _ _
  | acceptSignedEnvelope => exact safe_acceptSignedEnvelope _ _ _ _
  | recordSubmissionReceipt => exact safe_recordSubmissionReceipt _ _ _
  | recordChainEvidence => exact safe_recordChainEvidence _ _ _ _
  | prepareIssuance => exact safe_prepareIssuance _ _
  | acceptOwnershipEvidence => exact safe_acceptOwnershipEvidence _ _ _
  | environment => exact safe_environment _ _
  | setSupplyLimit => exact safe_setSupplyLimit _ _

end CrownFi.Commerce
