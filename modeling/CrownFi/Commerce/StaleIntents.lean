import CrownFi.Commerce.Bystanders
import CrownFi.Commerce.Payments

/-!
# CrownFi.Commerce.StaleIntents

**Intents that ran out.** An intent is good for some minutes, but a place among the active intents is
given back only by the request that brings a signed envelope too late. Whoever never signs leaves the
intent as it is, and the unique index that admits one active intent for each attempt does not know
the clock. So the next intent of an attempt is created exactly when none of the earlier ones is still
stored as active, whatever their deadlines. Nothing else is in its way: the order and its attempt
agree on what is to be paid in every reachable state.
-/

namespace CrownFi.Commerce.Snapshots

open Lib CrownFi.Api CrownFi.Stellar Ticketing Orders Intents Reconciliation

variable {ext : External} {operations : List Operation} {ok : Site → Database → Prop}

/-! ### Attempts copy their orders -/

/-- What an order asks for. -/
def orderTerms (o : Order) : Int × Asset × Environment := (o.amountMinor, o.asset, o.environment)

/-- What an attempt expects. -/
def attemptTerms (a : PaymentAttempt) : Int × Asset × Environment :=
  (a.expectedAmountMinor, a.asset, a.environment)

/-- Every attempt expects what its order asks for. -/
def Copied (db : Database) : Prop :=
  ∀ a ∈ db.attempts, ∃ o, orderTable.find db a.orderId = some o ∧ orderTerms o = attemptTerms a

def SameTerms (o o' : Order) : Prop := orderTerms o' = orderTerms o

instance : IsPreorder Order SameTerms where
  refl _ := rfl
  trans _ _ _ h h' := h'.trans h

/-- Orders keep their terms. -/
abbrev OrdersStay : Database → Database → Prop := orderTable.Grows SameTerms

/-- Orders keep their terms, and attempts keep their orders and terms. -/
structure Stays (db db' : Database) : Prop where
  orders : OrdersStay db db'
  attempts : ∀ a' ∈ db'.attempts, ∃ a ∈ db.attempts, a'.orderId = a.orderId ∧
    attemptTerms a' = attemptTerms a

instance : IsPreorder Database Stays where
  refl _ := ⟨Table.Grows.refl, fun a ha => ⟨a, ha, rfl, rfl⟩⟩
  trans db db' db'' h h' := by
    refine ⟨h.orders.trans h'.orders, fun a'' ha'' => ?_⟩
    obtain ⟨a', ha', horder', hterms'⟩ := h'.attempts a'' ha''
    obtain ⟨a, ha, horder, hterms⟩ := h.attempts a' ha'
    exact ⟨a, ha, horder'.trans horder, hterms'.trans hterms⟩

theorem Stays.copied {db db' : Database} (h : Stays db db') (hdb : Copied db) : Copied db' := by
  intro a' ha'
  obtain ⟨a, ha, horder, hterms⟩ := h.attempts a' ha'
  obtain ⟨o, ho, hsame⟩ := hdb a ha
  obtain ⟨o', ho', hkept⟩ := h.orders _ o ho
  rw [horder]
  exact ⟨o', ho', (Eq.trans hkept hsame).trans hterms.symm⟩

/-- A change that leaves the attempts alone. -/
theorem Stays.of_orders {db db' : Database} (h : OrdersStay db db') (hattempts : db'.attempts = db.attempts) :
    Stays db db' := by
  refine ⟨h, fun a ha => ⟨a, ?_, rfl, rfl⟩⟩
  rw [← hattempts]
  exact ha

/-- A change of other tables. -/
theorem Stays.hidden {db db' : Database} (horders : db'.orders = db.orders)
    (hattempts : db'.attempts = db.attempts) : Stays db db' := by
  refine .of_orders (.of_find fun id => ?_) hattempts
  show db'.orders.find? _ = db.orders.find? _
  rw [horders]

/-- An update of the status of orders. -/
theorem Stays.moveOrders {p : Order → Bool} {status : OrderStatus} {view db : Database} :
    Stays db (orderTable.modify p ({ · with status }) view db) :=
  .of_orders (.modify (fun _ => rfl) fun _ _ => rfl) rfl

theorem Stays.settle {p : PaymentAttempt → Bool} {change : PaymentAttempt → PaymentAttempt}
    {view db : Database} (hchange : Settling change) : Stays db (attemptTable.modify p change view db) := by
  refine ⟨.of_find fun _ => rfl, fun a' ha' => ?_⟩
  rcases attemptTable.mem_modify ha' with ha | ⟨a, ha, -, rfl⟩
  · exact ⟨a', ha, rfl, rfl⟩
  · obtain ⟨status, failureCode, heq⟩ := hchange a
    rw [heq]
    exact ⟨a, ha, rfl, rfl⟩

theorem pays : Pays (fun _ _ => True) fun _ => Stays where
  other _ := trivial
  event _ _ := trivial
  settles _ _ _ _ _ hchange := .settle hchange
  events _ _ _ := .hidden rfl rfl
  intents _ _ _ := .hidden rfl rfl
  transactions _ _ _ := .hidden rfl rfl
  evidence _ _ _ := .hidden rfl rfl
  results _ _ _ := .hidden rfl rfl
  cursors _ _ _ := .hidden rfl rfl
  pays _ _ _ := .moveOrders

theorem sells : Sells fun _ => Stays where
  environment _ _ _ _ := .hidden rfl rfl
  inventory _ _ _ := .hidden rfl rfl
  releases _ _ _ _ := .hidden rfl rfl
  reserves _ _ _ := .hidden rfl rfl
  orderItems _ _ _ := .hidden rfl rfl
  opens _ _ _ := .of_orders .add rfl
  expires _ _ _ := .moveOrders

theorem issues : Issues fun _ => Stays where
  inventory _ _ _ := .hidden rfl rfl
  converts _ _ _ _ := .hidden rfl rfl
  issuances _ _ _ := .hidden rfl rfl
  ownership _ _ _ := .hidden rfl rfl
  prepares _ _ _ := .moveOrders
  finishes _ _ _ := .moveOrders

/-! ### Outlines -/

/-- A request that opens no attempt keeps the terms of what there is. -/
theorem outline_stays {p : Prog Database Row Site Result} (h : p.Confined ok fun _ => Stays) :
    SafeRequest Copied (fun _ => OrdersStay) ok p :=
  h.safeRequest (fun _ _ _ hstays => hstays.copied) fun _ _ _ hstays _ => hstays.orders

/-- The order is there, with these terms. -/
def Asks (orderId : Uuid) (order : Order) (db : Database) : Prop :=
  ∃ o, orderTable.find db orderId = some o ∧ orderTerms o = orderTerms order

theorem stable_asks {L : List (Lock Row)} {orderId : Uuid} {order : Order} :
    Stable Copied (fun _ => OrdersStay) L (Asks orderId order) := by
  intro L' db db' _ _ _ ⟨o, ho, hterms⟩ hstay
  obtain ⟨o', ho', hkept⟩ := hstay _ o ho
  exact ⟨o', ho', Eq.trans hkept hterms⟩

/-- **A new attempt copies its order**, which keeps its terms until the commit. -/
theorem createPaymentAttempt_outline (actorUserId orderId : Uuid) (body : CreatePaymentAttemptRequest)
    (attemptId : Uuid) :
    SafeRequest Copied (fun _ => OrdersStay) ok
      (createPaymentAttempt actorUserId orderId body attemptId).request := by
  unfold SafeRequest Handler.request createPaymentAttempt
  refine safe_bind (safe_ofExcept fun provider _ => ?_)
  refine safe_bind (safe_ofExcept fun reference _ => ?_)
  refine safe_bind (safe_ofExcept fun payer _ => ?_)
  refine safe_bind (safe_selectFor fun db row _ _ hrow => ?_)
  cases row with
  | none => exact ⟨fun _ => True, trivial, stable_true, safe_bind (safe_orElse fun _ h => by cases h)⟩
  | some order =>
    refine ⟨Asks orderId order, ⟨order, hrow, rfl⟩, stable_asks, ?_⟩
    refine safe_bind (safe_orElse fun order' horder => ?_)
    obtain rfl := Option.some.inj horder
    refine safe_bind (safe_bind (safe_select stable_asks fun _ _ _ _ _ => safe_require fun _ => ?_))
    refine safe_bind (safe_require fun _ => ?_)
    refine safe_bind (Lib.safe_insertRow fun db' _ hasks _ _ => ⟨_, hasks, stable_asks, ?_⟩)
    refine safe_bind (safe_commit (fun d hI hd => ?_) safe_ret)
    refine ⟨fun a ha => ?_, .of_find fun _ => rfl⟩
    rcases List.mem_append.mp ha with ha | ha
    · exact hI a ha
    · obtain rfl := List.mem_singleton.mp ha
      exact hd

theorem outline {p : Prog Database Row Site Result} (h : Requests ext operations p) :
    SafeRequest Copied (fun _ => OrdersStay) ok p := by
  obtain ⟨operation, -, h⟩ := h
  by_cases hpays : operation ∈ payments
  · by_cases hattempt : operation = .createPaymentAttempt
    · subst hattempt
      cases h with
      | createPaymentAttempt actorUserId orderId body attemptId =>
          exact createPaymentAttempt_outline actorUserId orderId body attemptId
    · exact outline_stays (bounded_settlement pays hpays hattempt h)
  · by_cases hissues : operation ∈ issuing
    · exact outline_stays (confined_issuance issues ⟨operation, hissues, h⟩)
    · refine outline_stays (confined_sale sells ⟨operation, ?_, h⟩)
      cases operation <;> first | decide | exact absurd (by decide) hpays | exact absurd (by decide) hissues

/-- **Orders and attempts agree** in every reachable state. -/
theorem run_copied {db₀ : Database} (h₀ : db₀.attempts = []) {pool : Pool Database Row Site Result}
    {actions : List (Action Database Row Site Result)}
    (hrun : Run (Pool.Step (Requests ext operations) ok) (Pool.idle db₀) actions pool) :
    Copied pool.db := by
  have hstart : Copied db₀ := by
    intro a ha
    rw [h₀] at ha
    cases ha
  exact (run_healthy (fun _ => outline) hrun (healthy_idle hstart)).inv

/-! ### The next intent -/

/-- A request for an intent. -/
structure IntentRequest where
  actorUserId : Uuid
  orderId : Uuid
  body : CreateTransactionIntentRequest
  intentId : Uuid

def IntentRequest.request (ext : External) (q : IntentRequest) : Prog Database Row Site Result :=
  (createTransactionIntent ext.sha256 q.actorUserId q.orderId q.body q.intentId).request

/-- The request asks for an intent of an active attempt to pay an order that awaits its payment; it
is valid, and its key and its id are new. -/
structure Fresh (ext : External) (db : Database) (q : IntentRequest) (args : IntentArguments)
    (attempt : PaymentAttempt) (order : Order) : Prop where
  valid : q.body.validate = .ok args
  found : attemptWithOrder q.body.paymentAttemptId db = some (attempt, order)
  orderId : attempt.orderId = q.orderId
  editor : db.directory.memberEditor order.organizationId q.actorUserId = true
  awaits : order.status = .awaitingPayment
  active : AttemptStatus.active attempt.status = true
  testnet : order.environment = .testnet
  key : ∀ i ∈ db.intents, ¬ (i.organizationId = order.organizationId ∧
    i.idempotencyKey = args.idempotencyKey)
  id : ∀ i ∈ db.intents, i.id ≠ q.intentId
  /-- The accounts and the asset can be written into an envelope. -/
  envelope : ∃ built, buildUnsignedPaymentEnvelope ext.sha256 args.sourceAccount args.destinationAccount
    args.transactionSequence args.baseFee order.amountMinor order.asset.code order.asset.issuer
    (intentMemo q.intentId)
    (unixTimestamp (db.directory.clock + seconds args.timeoutSeconds)) = .ok built

/-- All intents of the attempt have run out, and none was submitted. -/
def Stale (attemptId : Uuid) (db : Database) : Prop :=
  ∀ i ∈ db.intents, i.paymentAttemptId = attemptId →
    i.expiresAt ≤ db.directory.clock ∧ i.status ≠ .submitted

/-- All intents of the attempt are stored as ended. -/
def Ended (attemptId : Uuid) (db : Database) : Prop :=
  ∀ i ∈ db.intents, i.paymentAttemptId = attemptId →
    i.status = .confirmed ∨ i.status = .failed ∨ i.status = .expired

theorem intentStatus_ended_iff {s : IntentStatus} :
    (s = .confirmed ∨ s = .failed ∨ s = .expired) ↔ IntentStatus.active s = false := by
  cases s <;> decide

/-- The request creates its intent. -/
def Succeeds (ext : External) (q : IntentRequest) (db : Database) : Prop :=
  ∃ db', (q.request ext).ends db db = some (.ok ⟨.created, q.intentId⟩, db')

theorem intentViolation_eq {i : TransactionIntent} {db : Database}
    (hid : ∀ j ∈ db.intents, j.id ≠ i.id)
    (hkey : ∀ j ∈ db.intents, ¬ (j.organizationId = i.organizationId ∧
      j.idempotencyKey = i.idempotencyKey)) :
    intentViolation i db = none ↔ Ended i.paymentAttemptId db := by
  unfold intentViolation
  constructor
  · intro h j hj hattempt
    split at h
    · cases h
    · rename_i hany
      rw [intentStatus_ended_iff, Bool.eq_false_iff]
      intro hactive
      exact hany (List.any_eq_true.mpr ⟨j, hj, by simp [hattempt, hactive]⟩)
  · intro hended
    refine if_neg fun hany => ?_
    obtain ⟨j, hj, hclash⟩ := List.any_eq_true.mp hany
    simp only [Bool.or_eq_true, Bool.and_eq_true, decide_eq_true_eq] at hclash
    rcases hclash with (hsame | hsame) | ⟨hattempt, hactive⟩
    · exact hid j hj hsame
    · exact hkey j hj hsame
    · rw [intentStatus_ended_iff.mp (hended j hj hattempt)] at hactive
      cases hactive

/-- The insertion of an intent under a new key and id. -/
theorem ends_insertIntent {i : TransactionIntent} {db : Database} {r : Response}
    (hid : ∀ j ∈ db.intents, j.id ≠ i.id)
    (hkey : ∀ j ∈ db.intents, ¬ (j.organizationId = i.organizationId ∧
      j.idempotencyKey = i.idempotencyKey)) :
    (∃ db', Prog.ends ((do
      insertIntent i
      Tx.commit
      return r : Handler Response) fun r => .ret (.ok r)) db db = some (.ok r, db')) ↔
      Ended i.paymentAttemptId db := by
  rw [← intentViolation_eq hid hkey, ends_bind, insertIntent, Tx.insertRow]
  cases hviolation : intentViolation i db with
  | none =>
      rw [ends_insert (by simp only [hviolation, raise, Option.map_none])]
      exact iff_of_true ⟨_, rfl⟩ rfl
  | some e =>
      rw [ends_insertRefused (by simp only [hviolation, raise, Option.map_some]; rfl)]
      refine iff_of_false (fun ⟨db', heq⟩ => ?_) (Option.some_ne_none e)
      cases (Prod.mk.inj (Option.some.inj heq)).1

/-- What stands in the way of an intent is the unique keys of the table alone. -/
theorem ends_createTransactionIntent {db : Database} {q : IntentRequest} {args : IntentArguments}
    {attempt : PaymentAttempt} {order : Order} (hcopied : Copied db)
    (h : Fresh ext db q args attempt order) :
    Succeeds ext q db ↔ Ended q.body.paymentAttemptId db := by
  obtain ⟨hattempt, horder⟩ := attemptWithOrder_eq h.found
  obtain ⟨o, ho, hterms⟩ := hcopied attempt (attemptTable.find_mem hattempt).1
  obtain rfl := Option.some.inj (ho.symm.trans horder)
  obtain ⟨hamount, hterms⟩ := Prod.mk.inj hterms
  obtain ⟨hasset, henvironment⟩ := Prod.mk.inj hterms
  obtain ⟨built, hbuilt⟩ := h.envelope
  have hnone : (db.intents.find? fun i => i.organizationId = o.organizationId &&
      i.idempotencyKey = args.idempotencyKey) = none := by
    refine List.find?_eq_none.mpr fun i hi hsame => h.key i hi ?_
    simpa using hsame
  unfold Succeeds IntentRequest.request Handler.request createTransactionIntent
  rw [ends_bind, valid, ends_ofExcept h.valid, ends_bind, ends_selectFor, ends_bind,
    ends_orElse h.found]
  show (∃ db', Prog.ends ((requireEditor o.organizationId q.actorUserId >>= fun _ => _) _) db db = _) ↔ _
  unfold requireEditor
  rw [ends_bind, ends_bind, ends_select, ends_require h.editor, ends_bind,
    ends_require (decide_eq_true h.orderId), ends_bind, ends_require (decide_eq_true h.awaits), ends_bind,
    ends_require h.active, ends_bind, ends_require (by simp [h.testnet, ← henvironment]), ends_bind,
    ends_require (by simp [hamount, hasset]), ends_bind, ends_selectFor, hnone]
  show (∃ db', Prog.ends ((Tx.select .other (·.directory.clock) >>= fun _ => _) _) db db = _) ↔ _
  rw [ends_bind, ends_select, ends_bind, valid, ends_ofExcept hbuilt]
  exact ends_insertIntent h.id h.key

/-- **Stale intents are out of the way** of the next one exactly when they are stored as ended. -/
theorem stale_intents_pass_iff_ended {db₀ : Database} (h₀ : db₀.attempts = [])
    {pool : Pool Database Row Site Result} {actions : List (Action Database Row Site Result)}
    (hrun : Run (Pool.Step (Requests ext operations) ok) (Pool.idle db₀) actions pool)
    {q : IntentRequest} {args : IntentArguments} {attempt : PaymentAttempt} {order : Order}
    (hfresh : Fresh ext pool.db q args attempt order) :
    (Stale q.body.paymentAttemptId pool.db → Succeeds ext q pool.db) ↔
      (Stale q.body.paymentAttemptId pool.db → Ended q.body.paymentAttemptId pool.db) :=
  imp_congr_right fun _ => ends_createTransactionIntent (run_copied h₀ hrun) hfresh

/-! ### An intent that is never signed -/

/-- The sale's external functions, with the digests of the second intent's envelope, which differs
from the first in its deadline. -/
def staleExternal : External where
  sha256 value :=
    if value.size = 164 ∧ value.data[67]? = some 188 then
      bytesOf 0x3ad40a14cba3d6f5a0a8ae9c709c2fad9d9835d2a7ad6ca3f369ca8c51f9c432
    else if value.size = 172 ∧ value.data[71]? = some 188 then
      bytesOf 0xbd809036453b521ec97f2a1f47a01becbc82dba640a3b2e20f6b93375dc6bac8
    else saleSha256 value
  toVec := saleExternal.toVec
  parseRfc3339 := saleExternal.parseRfc3339
  timeJson := saleExternal.timeJson

def firstIntent : IntentRequest := ⟨3, 30, ⟨33, payerAddress, shopAddress, 7, none, none, "i1"⟩, 34⟩

/-- The second request differs in its key. -/
def secondIntent : IntentRequest := ⟨3, 30, ⟨33, payerAddress, shopAddress, 7, none, none, "i2"⟩, 38⟩

/-- A seat is reserved, an attempt and an intent are opened, and nobody signs for 400 seconds. -/
def abandoned : List (Prog Database Row Site Result) :=
  [(createReservation staleExternal.sha256 1 24 ⟨1, "k1"⟩ ⟨30, 31, 32⟩).request, openAttempt,
    firstIntent.request staleExternal, (environment (shopDirectory 1800000400) shopCatalogue).request]

/-- Then somebody signs, too late. -/
def signedLate : List (Prog Database Row Site Result) :=
  abandoned ++ [(acceptSignedEnvelope staleExternal.sha256 3 34 saleEnvelope.xdr 35).request]

/-- The operations of these runs. -/
def intentOperations : List Operation :=
  [.createReservation, .createPaymentAttempt, .createTransactionIntent, .acceptSignedEnvelope,
    .environment]

theorem signedLate_requests : ∀ p ∈ signedLate, Requests staleExternal intentOperations p := by
  simp only [signedLate, abandoned, List.forall_mem_append, List.forall_mem_cons]
  refine ⟨⟨?_, ?_, ?_, ?_, ?_⟩, ?_, ?_⟩
  · exact ⟨_, by decide, .createReservation 1 24 ⟨1, "k1"⟩ ⟨30, 31, 32⟩⟩
  · exact ⟨_, by decide, .createPaymentAttempt 3 30 ⟨"stellar", none, none⟩ 33⟩
  · exact ⟨_, by decide, .createTransactionIntent 3 30 firstIntent.body 34⟩
  · exact ⟨_, by decide, .environment _ _⟩
  · exact fun p hp => by cases hp
  · exact ⟨_, by decide, .acceptSignedEnvelope 3 34 saleEnvelope.xdr 35⟩
  · exact fun p hp => by cases hp

theorem abandoned_requests : ∀ p ∈ abandoned, Requests staleExternal intentOperations p :=
  fun p hp => signedLate_requests p (List.mem_append_left _ hp)

instance (attemptId : Uuid) (db : Database) : Decidable (Stale attemptId db) :=
  inferInstanceAs (Decidable (∀ i ∈ db.intents, _))

instance (attemptId : Uuid) (db : Database) : Decidable (Ended attemptId db) :=
  inferInstanceAs (Decidable (∀ i ∈ db.intents, _))

/-- The fields of `Fresh`, evaluated. -/
def fresh (ext : External) (db : Database) (q : IntentRequest) : Bool :=
  match q.body.validate, attemptWithOrder q.body.paymentAttemptId db with
  | .ok args, some (attempt, order) =>
      decide (attempt.orderId = q.orderId) && db.directory.memberEditor order.organizationId q.actorUserId &&
      decide (order.status = .awaitingPayment) && AttemptStatus.active attempt.status &&
      decide (order.environment = .testnet) &&
      decide (∀ i ∈ db.intents, ¬ (i.organizationId = order.organizationId ∧
        i.idempotencyKey = args.idempotencyKey)) &&
      decide (∀ i ∈ db.intents, i.id ≠ q.intentId) &&
      (buildUnsignedPaymentEnvelope ext.sha256 args.sourceAccount args.destinationAccount
        args.transactionSequence args.baseFee order.amountMinor order.asset.code order.asset.issuer
        (intentMemo q.intentId)
        (unixTimestamp (db.directory.clock + seconds args.timeoutSeconds))).isOk
  | _, _ => false

theorem fresh_of {db : Database} {q : IntentRequest} (h : fresh ext db q = true) :
    ∃ args attempt order, Fresh ext db q args attempt order := by
  unfold fresh at h
  split at h
  · rename_i args attempt order hvalid hfound
    simp only [Bool.and_eq_true, decide_eq_true_eq] at h
    obtain ⟨⟨⟨⟨⟨⟨⟨horder, heditor⟩, hawaits⟩, hactive⟩, htestnet⟩, hkey⟩, hid⟩, hbuilt⟩ := h
    refine ⟨args, attempt, order, hvalid, hfound, horder, heditor, hawaits, hactive, htestnet, hkey, hid, ?_⟩
    generalize buildUnsignedPaymentEnvelope _ _ _ _ _ _ _ _ _ _ = envelope at hbuilt ⊢
    cases envelope with
    | ok built => exact ⟨built, rfl⟩
    | error e => cases hbuilt
  · cases h

theorem abandoned_outcome : (Pool.serveAll (fun _ _ => True) shopDatabase abandoned).any (fun left =>
    fresh staleExternal left.2 secondIntent && decide (Stale 33 left.2) &&
      ((secondIntent.request staleExternal).ends left.2 left.2).map Prod.fst =
        some (.error (.conflict "resource_already_exists"))) = true := by
  decide +kernel

/-- **An intent that nobody signs keeps its place**, and the next one is refused. -/
theorem stale_intent_blocks :
    ¬ ∀ (ext : External) (db₀ : Database), db₀.attempts = [] →
      ∀ (pool : Pool Database Row Site Result) (actions : List (Action Database Row Site Result)),
        Run (Pool.Step (Requests ext intentOperations) fun _ _ => True) (Pool.idle db₀) actions pool →
        ∀ q args attempt order, Fresh ext pool.db q args attempt order →
          Stale q.body.paymentAttemptId pool.db → Succeeds ext q pool.db := by
  intro h
  obtain ⟨left, hleft, hall⟩ := (Option.any_eq_true _ _).mp abandoned_outcome
  simp only [Bool.and_eq_true, decide_eq_true_eq] at hall
  obtain ⟨⟨hfresh, hstale⟩, hrefused⟩ := hall
  obtain ⟨args, attempt, order, hfresh⟩ := fresh_of hfresh
  obtain ⟨actions, hrun⟩ := Pool.run_of_serveAll abandoned_requests hleft
  obtain ⟨db', hends⟩ := h _ _ rfl _ _ hrun _ _ _ _ hfresh hstale
  rw [show (secondIntent.request staleExternal).ends left.2 left.2 = _ from hends] at hrefused
  cases Option.some.inj hrefused

theorem signedLate_outcome : (Pool.serveAll (fun _ _ => True) shopDatabase signedLate).any (fun left =>
    fresh staleExternal left.2 secondIntent && decide (Stale 33 left.2) &&
      decide (Ended 33 left.2)) = true := by
  rw [signedLate, acceptSignedEnvelope_eq saleEnvelope_read]
  decide +kernel

/-- After the late signature the next intent is created. -/
theorem signedLate_passes :
    ∃ (pool : Pool Database Row Site Result) (actions : List (Action Database Row Site Result)),
      Run (Pool.Step (Requests staleExternal intentOperations) fun _ _ => True) (Pool.idle shopDatabase)
        actions pool ∧
      Stale 33 pool.db ∧ Succeeds staleExternal secondIntent pool.db := by
  obtain ⟨left, hleft, hall⟩ := (Option.any_eq_true _ _).mp signedLate_outcome
  simp only [Bool.and_eq_true, decide_eq_true_eq] at hall
  obtain ⟨⟨hfresh, hstale⟩, hended⟩ := hall
  obtain ⟨args, attempt, order, hfresh⟩ := fresh_of hfresh
  obtain ⟨actions, hrun⟩ := Pool.run_of_serveAll signedLate_requests hleft
  refine ⟨_, actions, hrun, hstale, ?_⟩
  exact (stale_intents_pass_iff_ended rfl hrun hfresh).mpr (fun _ => hended) hstale

end CrownFi.Commerce.Snapshots
