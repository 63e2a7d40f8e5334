import CrownFi.Commerce.Requests
import CrownFi.Lib.Confined

/-!
# CrownFi.Commerce.Bystanders

**Requests that only pay, only sell, or only issue.** Payment attempts, provider events, intents,
envelopes, receipts and chain evidence write tables of their own, and besides them they turn orders
that await a payment into paid ones; reservations, stock and tickets they leave alone. Orders,
reservations and what happens to the catalogue, in turn, know nothing of payments: besides
reservations and stock they write new orders, and orders that await a payment run out. Issuance
writes tickets and stock, and moves paid orders on. For a relation that such writes stay within
(`Pays`, `Spares`, `Sells`, `Issues`), each of these requests is confined to it. What is proved about
stock or payments says once which relation it tolerates from the others, and need not look at their
handlers.
-/

namespace CrownFi.Commerce

open Lib CrownFi.Api Ticketing Orders Intents Reconciliation

/-- The orders that a payment changes. -/
def payable (orderId : Uuid) (o : Order) : Bool := o.id = orderId && o.status = .awaitingPayment

/-- A change of an attempt's status, of nothing else. -/
def Settling (change : PaymentAttempt → PaymentAttempt) : Prop :=
  ∀ a, ∃ status failureCode, change a = { a with status, failureCode }

/-- The changes of a payment stay within the relation, and its statements need not see anything. -/
structure Pays (must : Site → Database → Prop)
    (moves : List (Lock Row) → Database → Database → Prop) : Prop where
  other : ∀ view, must .other view
  event : ∀ id view, must (.eventOrder id) view
  settles : ∀ L p change view db, Settling change → moves L db (attemptTable.modify p change view db)
  events : ∀ L db l, moves L db (eventTable.put db l)
  intents : ∀ L db l, moves L db (intentTable.put db l)
  transactions : ∀ L db l, moves L db (transactionTable.put db l)
  evidence : ∀ L db l, moves L db (evidenceTable.put db l)
  results : ∀ L db l, moves L db (resultTable.put db l)
  cursors : ∀ L db l, moves L db (cursorTable.put db l)
  pays : ∀ id view db,
    moves ((orderTable.matching (payable id) view).flatMap fun o => [⟨.order o.id, .noKeyUpdate⟩]) db
      (orderTable.modify (payable id) ({ · with status := .paid }) view db)

/-- The same, where attempts may be anything. -/
structure Spares (must : Site → Database → Prop)
    (moves : List (Lock Row) → Database → Database → Prop) : Prop where
  other : ∀ view, must .other view
  event : ∀ id view, must (.eventOrder id) view
  attempts : ∀ L db l, moves L db (attemptTable.put db l)
  events : ∀ L db l, moves L db (eventTable.put db l)
  intents : ∀ L db l, moves L db (intentTable.put db l)
  transactions : ∀ L db l, moves L db (transactionTable.put db l)
  evidence : ∀ L db l, moves L db (evidenceTable.put db l)
  results : ∀ L db l, moves L db (resultTable.put db l)
  cursors : ∀ L db l, moves L db (cursorTable.put db l)
  pays : ∀ id view db,
    moves ((orderTable.matching (payable id) view).flatMap fun o => [⟨.order o.id, .noKeyUpdate⟩]) db
      (orderTable.modify (payable id) ({ · with status := .paid }) view db)

theorem Spares.toPays {must : Site → Database → Prop}
    {moves : List (Lock Row) → Database → Database → Prop} (h : Spares must moves) : Pays must moves where
  other := h.other
  event := h.event
  settles _ _ _ _ _ _ := h.attempts _ _ _
  events := h.events
  intents := h.intents
  transactions := h.transactions
  evidence := h.evidence
  results := h.results
  cursors := h.cursors
  pays := h.pays

section Payments

variable {ext : External} {ok must : Site → Database → Prop}
  {moves : List (Lock Row) → Database → Database → Prop} [Widening moves]

omit [Widening moves] in
theorem Pays.evident (h : Pays must moves) (view : Database) : Evident (must .other view) :=
  ⟨h.other view⟩

omit [Widening moves] in
theorem bounded_request {handler : Handler Response} (h : Tx.Bounded ok must moves handler) :
    handler.request.Bounded ok must moves :=
  h.request _

/-- A read at a statement that no condition speaks about. -/
theorem Pays.select (h : Pays must moves) {α : Type} {locks : Database → List (Lock Row)}
    {answer : Database → α} :
    Tx.Bounded ok must moves (Tx.stmt .other locks (fun _ db => db) answer : Handler α) :=
  have := h.evident
  .select

/-- Something that is read and has to be there. -/
theorem Pays.found (h : Pays must moves) {α : Type} {locks : Database → List (Lock Row)}
    {answer : Database → Option α} {r : Result} :
    Tx.Bounded ok must moves (do
      let value ← Tx.selectFor .other locks answer
      Tx.orElse value r : Handler α) :=
  .bind h.select fun _ => .orElse

theorem Pays.requireEditor (h : Pays must moves) {organizationId userId : Uuid} :
    Tx.Bounded ok must moves (requireEditor organizationId userId) :=
  .bind h.select fun _ => .require

omit [Widening moves] in
theorem Pays.updateAttempt (h : Pays must moves) {attemptId : Uuid}
    {admits : PaymentAttempt → Bool} {change : PaymentAttempt → PaymentAttempt}
    (hchange : Settling change) : Tx.Bounded ok must moves (updateAttempt attemptId admits change) :=
  have := h.evident
  .update (fun _ _ _ => h.settles _ _ _ _ _ hchange)

omit [Widening moves] in
theorem Pays.updateIntent (h : Pays must moves) {intentId : Uuid}
    {admits : TransactionIntent → Bool} {change : TransactionIntent → TransactionIntent} :
    Tx.Bounded ok must moves (updateIntent intentId admits change) :=
  have := h.evident
  .update (fun _ _ _ => h.intents _ _ _)

omit [Widening moves] in
theorem Pays.updateTransaction (h : Pays must moves) {p : StellarTransaction → Bool}
    {change : StellarTransaction → StellarTransaction} :
    Tx.Bounded ok must moves (updateTransaction p change) :=
  have := h.evident
  .update (fun _ _ _ => h.transactions _ _ _)

theorem bounded_createPaymentAttempt (h : Spares must moves) (actorUserId orderId : Uuid)
    (body : CreatePaymentAttemptRequest) (attemptId : Uuid) :
    (createPaymentAttempt actorUserId orderId body attemptId).request.Bounded ok must moves := by
  have := h.toPays.evident
  refine bounded_request ?_
  refine .bind .ofExcept fun _ => .bind .ofExcept fun _ => .bind .ofExcept fun _ => ?_
  refine .bind h.toPays.select fun _ => .bind .orElse fun _ => .bind h.toPays.requireEditor fun _ => ?_
  refine .bind .require fun _ => ?_
  refine .bind (.insertRow (fun _ => h.attempts _ _ _)) fun _ => ?_
  exact .bind .commit fun _ => .pure

omit [Widening moves] in
theorem bounded_applyOutcome (h : Pays must moves) {attempt : PaymentAttempt} {outcome : Outcome} :
    Tx.Bounded ok must moves (applyOutcome attempt outcome) := by
  have := fun view => Evident.mk (h.event attempt.orderId view)
  cases outcome with
  | confirmed =>
      refine .bind (h.updateAttempt fun _ => ⟨_, _, rfl⟩) fun _ => ?_
      exact .bind (.update (fun _ _ _ => h.pays _ _ _)) fun _ => .pure
  | failed => exact .bind (h.updateAttempt fun _ => ⟨_, _, rfl⟩) fun _ => .pure

theorem bounded_recordPaymentEvent (h : Pays must moves) (actorUserId attemptId : Uuid)
    (body : RecordPaymentEventRequest) (eventId : Uuid) :
    (recordPaymentEvent ext.sha256 ext.toVec actorUserId attemptId body eventId).request.Bounded
      ok must moves := by
  have := h.evident
  refine bounded_request ?_
  refine .bind .ofExcept fun payment => .bind h.select fun _ => .bind .orElse fun found => ?_
  obtain ⟨attempt, order⟩ := found
  refine .bind h.requireEditor fun _ => .bind h.select fun existing => ?_
  cases existing with
  | some existing => exact .bind .require fun _ => .bind .commit fun _ => .pure
  | none =>
      refine .bind .require fun _ => ?_
      refine .bind (.insertRow (fun _ => h.events _ _ _)) fun _ => ?_
      split
      · exact .bind (bounded_applyOutcome h) fun _ => .bind .commit fun _ => .pure
      · exact .bind .commit fun _ => .pure

theorem bounded_createTransactionIntent (h : Pays must moves) (actorUserId orderId : Uuid)
    (body : CreateTransactionIntentRequest) (intentId : Uuid) :
    (createTransactionIntent ext.sha256 actorUserId orderId body intentId).request.Bounded
      ok must moves := by
  have := h.evident
  refine bounded_request ?_
  refine .bind .ofExcept fun args => .bind h.select fun _ => .bind .orElse fun found => ?_
  obtain ⟨attempt, order⟩ := found
  refine .bind h.requireEditor fun _ => .bind .require fun _ => .bind .require fun _ => ?_
  refine .bind .require fun _ => .bind .require fun _ => .bind .require fun _ => ?_
  refine .bind h.select fun existing => ?_
  cases existing with
  | some existing => exact .bind .require fun _ => .bind .commit fun _ => .pure
  | none =>
      refine .bind h.select fun now => .bind .ofExcept fun built => ?_
      refine .bind (.insertRow (fun _ => h.intents _ _ _)) fun _ => ?_
      exact .bind .commit fun _ => .pure

theorem bounded_acceptSignedEnvelope (h : Pays must moves) (actorUserId intentId : Uuid)
    (signedEnvelopeXdr : String) (transactionId : Uuid) :
    (acceptSignedEnvelope ext.sha256 actorUserId intentId signedEnvelopeXdr transactionId).request.Bounded
      ok must moves := by
  have := h.evident
  refine bounded_request ?_
  refine .bind .ofExcept fun envelope => .bind h.select fun _ => .bind .orElse fun intent => ?_
  refine .bind h.requireEditor fun _ => .bind h.select fun existing => ?_
  cases existing with
  | some existing => exact .bind .require fun _ => .bind .commit fun _ => .pure
  | none =>
      refine .bind .require fun _ => .bind h.select fun now => .ite ?_ ?_
      · exact .bind h.updateIntent fun _ => .bind .commit fun _ => .exit
      · refine .bind .ofExcept fun _ => ?_
        refine .bind (.insertRow (fun _ => h.transactions _ _ _)) fun _ => ?_
        exact .bind h.updateIntent fun _ => .bind .commit fun _ => .pure

theorem bounded_loadResponse (h : Pays must moves) {intentId : Uuid} :
    Tx.Bounded ok must moves (loadResponse intentId) :=
  .bind h.select fun _ => .bind .require fun _ => h.select

theorem bounded_recordSubmissionReceipt (h : Pays must moves) (actorUserId intentId : Uuid)
    (body : SubmissionReceiptRequest) :
    (recordSubmissionReceipt actorUserId intentId body).request.Bounded ok must moves := by
  refine bounded_request ?_
  refine .bind .ofExcept fun _ => .bind h.found fun expected => .bind h.requireEditor fun _ => ?_
  refine .bind .require fun _ => .ite ?_ ?_
  · exact .bind .commit fun _ => .bind (bounded_loadResponse h) fun _ => .pure
  · refine .bind .require fun _ => .bind h.updateTransaction fun _ => .bind h.updateIntent fun _ => ?_
    exact .bind .commit fun _ => .bind (bounded_loadResponse h) fun _ => .pure

omit [Widening moves] in
theorem bounded_confirmPaymentState (h : Pays must moves) {expected : ExpectedIntent} :
    Tx.Bounded ok must moves (confirmPaymentState expected) := by
  have := h.evident
  refine .bind h.updateTransaction fun _ => .bind h.updateIntent fun _ => ?_
  refine .bind (h.updateAttempt fun _ => ⟨_, _, rfl⟩) fun _ => ?_
  exact .bind (.update (fun _ _ _ => h.pays _ _ _)) fun _ => .require

theorem bounded_recordChainEvidence (h : Pays must moves) (actorUserId intentId : Uuid)
    (body : ChainEvidenceRequest) (ids : EvidenceIds) :
    (recordChainEvidence ext actorUserId intentId body ids).request.Bounded ok must moves := by
  have := h.evident
  refine bounded_request ?_
  refine .bind h.select fun _ => .bind .ofExcept fun observed => .bind h.select fun began => ?_
  refine .bind h.found fun expected => .bind h.requireEditor fun _ => .bind h.select fun existing => ?_
  cases existing with
  | some existing =>
      refine .bind .require fun _ => .bind .commit fun _ => ?_
      exact .bind (bounded_loadResponse h) fun _ => .pure
  | none =>
      refine .bind h.select fun _ => .bind .require fun _ => ?_
      refine .bind (.insertRow (fun _ => h.evidence _ _ _)) fun _ => ?_
      refine .bind (.insertRow (fun _ => h.results _ _ _)) fun _ => ?_
      split
      · refine .bind (bounded_confirmPaymentState h) fun _ => ?_
        refine .bind (.write (fun _ _ => h.cursors _ _ _)) fun _ => ?_
        exact .bind .commit fun _ => .bind (bounded_loadResponse h) fun _ => .pure
      · exact .bind .commit fun _ => .bind (bounded_loadResponse h) fun _ => .pure

/-- The operations that only pay. -/
def payments : List Operation :=
  [.createPaymentAttempt, .recordPaymentEvent, .createTransactionIntent, .acceptSignedEnvelope,
    .recordSubmissionReceipt, .recordChainEvidence]

/-- **A payment is confined** to what its writes stay within, once its attempt is there. -/
theorem bounded_settlement (h : Pays must moves) {operation : Operation}
    (hmem : operation ∈ payments) (hne : operation ≠ .createPaymentAttempt)
    {p : Prog Database Row Site Result} (hp : Request ext operation p) : p.Bounded ok must moves := by
  cases hp with
  | createPaymentAttempt => exact absurd rfl hne
  | recordPaymentEvent actorUserId attemptId body eventId =>
      exact bounded_recordPaymentEvent h actorUserId attemptId body eventId
  | createTransactionIntent actorUserId orderId body intentId =>
      exact bounded_createTransactionIntent h actorUserId orderId body intentId
  | acceptSignedEnvelope actorUserId intentId signedEnvelopeXdr transactionId =>
      exact bounded_acceptSignedEnvelope h actorUserId intentId signedEnvelopeXdr transactionId
  | recordSubmissionReceipt actorUserId intentId body =>
      exact bounded_recordSubmissionReceipt h actorUserId intentId body
  | recordChainEvidence actorUserId intentId body ids =>
      exact bounded_recordChainEvidence h actorUserId intentId body ids
  | _ => simp [payments] at hmem

/-- **A payment is confined** to what its writes stay within. -/
theorem bounded_payment (h : Spares must moves) {p : Prog Database Row Site Result}
    (hp : Requests ext payments p) : p.Bounded ok must moves := by
  obtain ⟨operation, hmem, hp⟩ := hp
  by_cases hattempt : operation = .createPaymentAttempt
  · subst hattempt
    cases hp with
    | createPaymentAttempt actorUserId orderId body attemptId =>
        exact bounded_createPaymentAttempt h actorUserId orderId body attemptId
  · exact bounded_settlement h.toPays hmem hattempt hp

end Payments

/-! ### Requests that only sell -/

/-- The changes of an order that is placed stay within the relation. -/
structure Places (moves : List (Lock Row) → Database → Database → Prop) : Prop where
  inventory : ∀ L db l, moves L db (inventoryTable.put db l)
  orderItems : ∀ L db l, moves L db (orderItemTable.put db l)
  opens : ∀ o db, o.status = .awaitingPayment →
    moves [⟨.order o.id, .update⟩, ⟨.orderKey o.organizationId o.idempotencyKey, .update⟩] db
      (orderTable.add o db)

/-- The changes of a sale stay within the relation. -/
structure Sells (moves : List (Lock Row) → Database → Database → Prop) : Prop extends Places moves where
  environment : ∀ L db directory catalogue, moves L db { db with directory, catalogue }
  releases : ∀ L p view db,
    moves L db (reservationTable.modify p ({ · with status := .expired }) view db)
  reserves : ∀ L r db, moves L db (reservationTable.add r db)
  expires : ∀ id view db,
    moves ((orderTable.matching (payable id) view).flatMap fun o => [⟨.order o.id, .noKeyUpdate⟩]) db
      (orderTable.modify (payable id) ({ · with status := .expired }) view db)

section Sales

variable {ext : External} {ok : Site → Database → Prop}
  {moves : List (Lock Row) → Database → Database → Prop}

theorem Places.insertOrder (h : Places moves) {map : SqlError → ApiError} {o : Order}
    (ho : o.status = .awaitingPayment) : Tx.Confined ok moves (insertOrder map o) :=
  .insertRow fun _ => h.opens _ _ ho

theorem Places.insertOrderItem (h : Places moves) {map : SqlError → ApiError} {i : OrderItem} :
    Tx.Confined ok moves (insertOrderItem map i) :=
  .insertRow fun _ => h.orderItems _ _ _

theorem Places.updateInventoryAt (h : Places moves) {site : Site} {map : SqlError → ApiError}
    {productId : Uuid} {admits : Inventory → Bool} {change : Inventory → Inventory} :
    Tx.Confined ok moves (updateInventoryAt site map productId admits change) :=
  .update fun _ _ _ => h.inventory _ _ _

theorem confined_releaseHold (h : Sells moves) {hold : ExpiredHold} :
    Tx.Confined ok moves (releaseHold hold) := by
  refine .bind (.update fun _ _ _ => h.releases _ _ _ _) fun _ => ?_
  refine .bind (.update fun _ _ _ => h.expires _ _ _) fun _ => ?_
  exact .bind h.toPlaces.updateInventoryAt fun _ => .pure

theorem confined_releaseHolds (h : Sells moves) {holds : List ExpiredHold} :
    Tx.Confined ok moves (releaseHolds holds) := by
  induction holds with
  | nil => exact .pure
  | cons hold rest ih => exact .bind (confined_releaseHold h) fun _ => ih

variable [Widening moves]

theorem Places.reserveInventory (h : Places moves) {map : SqlError → ApiError} {productId : Uuid}
    {quantity : Int} : Tx.Confined ok moves (reserveInventory map productId quantity) :=
  .bind .select fun _ => .bind .require fun _ => h.updateInventoryAt

theorem confined_createReservation (h : Sells moves) (buyerUserId ticketProductId : Uuid)
    (body : CreateReservationRequest) (ids : ReservationIds) :
    (createReservation ext.sha256 buyerUserId ticketProductId body ids).request.Confined ok moves := by
  refine bounded_request ?_
  refine .bind .require fun _ => .bind .ofExcept fun _ => .bind .select fun _ => ?_
  refine .bind (.bind .select fun _ => confined_releaseHolds h) fun _ => ?_
  refine .bind .select fun _ => .bind .orElse fun available => .bind .select fun _ => ?_
  refine .bind .require fun _ => .bind .select fun _ => .bind .require fun _ => ?_
  refine .bind .select fun existing => ?_
  cases existing with
  | some existing => exact .bind .require fun _ => .bind .commit fun _ => .pure
  | none =>
      refine .bind .select fun _ => .bind .require fun _ => .bind .require fun _ => ?_
      refine .bind .require fun _ => .bind .orElse fun _ => .bind (h.toPlaces.insertOrder rfl) fun _ => ?_
      refine .bind h.toPlaces.insertOrderItem fun _ => .bind h.toPlaces.reserveInventory fun _ => ?_
      refine .bind .require fun _ => ?_
      refine .bind (.insertRow fun _ => h.reserves _ _ _) fun _ => ?_
      exact .bind .commit fun _ => .pure

theorem confined_createOrder (h : Places moves) (actorUserId organizationId : Uuid)
    (body : CreateOrderRequest) (orderId itemId : Uuid) :
    (createOrder ext.sha256 actorUserId organizationId body orderId itemId).request.Confined ok moves := by
  refine bounded_request ?_
  refine .bind (.bind .select fun _ => .require) fun _ => .bind .require fun _ => ?_
  refine .bind .ofExcept fun _ => .bind .ofExcept fun _ => .bind .select fun _ => ?_
  refine .bind .select fun existing => ?_
  cases existing with
  | some existing => exact .bind .require fun _ => .bind .commit fun _ => .pure
  | none =>
      refine .bind .select fun _ => .bind .orElse fun _ => .bind .require fun _ => ?_
      refine .bind .require fun _ => .bind .orElse fun _ => .bind .require fun _ => ?_
      refine .bind (h.insertOrder rfl) fun _ => .bind h.insertOrderItem fun _ => ?_
      refine .bind h.reserveInventory fun _ => .bind .require fun _ => ?_
      exact .bind .commit fun _ => .pure

omit [Widening moves] in
theorem confined_environment (h : Sells moves) (directory : Directory) (catalogue : Catalogue) :
    (environment directory catalogue).request.Confined ok moves := by
  refine bounded_request ?_
  exact .bind (.write fun _ _ => h.environment _ _ _ _) fun _ => .bind .commit fun _ => .pure

theorem confined_setSupplyLimit (h : Places moves) (productId : Uuid) (supplyLimit : Option Int) :
    (setSupplyLimit productId supplyLimit).request.Confined ok moves := by
  refine bounded_request ?_
  refine .bind .select fun row => ?_
  cases row with
  | some row => exact .bind h.updateInventoryAt fun _ => .bind .commit fun _ => .pure
  | none =>
      refine .bind (.insertRow fun _ => h.inventory _ _ _) fun _ => ?_
      exact .bind .commit fun _ => .pure

/-- The operations that only sell. -/
def sales : List Operation := [.createReservation, .createOrder, .environment, .setSupplyLimit]

/-- **A sale is confined** to what its writes stay within. -/
theorem confined_sale (h : Sells moves) {p : Prog Database Row Site Result}
    (hp : Requests ext sales p) : p.Confined ok moves := by
  obtain ⟨operation, hmem, hp⟩ := hp
  cases hp with
  | createReservation buyerUserId ticketProductId body ids =>
      exact confined_createReservation h buyerUserId ticketProductId body ids
  | createOrder actorUserId organizationId body orderId itemId =>
      exact confined_createOrder h.toPlaces actorUserId organizationId body orderId itemId
  | environment directory catalogue => exact confined_environment h directory catalogue
  | setSupplyLimit productId supplyLimit => exact confined_setSupplyLimit h.toPlaces productId supplyLimit
  | _ => simp [sales] at hmem

end Sales

/-! ### Requests that only issue -/

/-- The orders that move on. -/
def movable (orderId : Uuid) (source : OrderStatus) (o : Order) : Bool :=
  o.id = orderId && o.status = source

/-- The changes of an issuance stay within the relation. -/
structure Issues (moves : List (Lock Row) → Database → Database → Prop) : Prop where
  inventory : ∀ L db l, moves L db (inventoryTable.put db l)
  converts : ∀ L p view db,
    moves L db (reservationTable.modify p ({ · with status := .converted }) view db)
  issuances : ∀ L db l, moves L db (issuanceTable.put db l)
  ownership : ∀ L db l, moves L db (ownershipTable.put db l)
  prepares : ∀ id view db, moves ((orderTable.matching (movable id .paid) view).flatMap
      fun o => [⟨.order o.id, .noKeyUpdate⟩]) db
    (orderTable.modify (movable id .paid) ({ · with status := .fulfilling }) view db)
  finishes : ∀ id view db, moves ((orderTable.matching (movable id .fulfilling) view).flatMap
      fun o => [⟨.order o.id, .noKeyUpdate⟩]) db
    (orderTable.modify (movable id .fulfilling) ({ · with status := .fulfilled }) view db)

section Issuances

open Issuance

variable {ext : External} {ok : Site → Database → Prop}
  {moves : List (Lock Row) → Database → Database → Prop}

theorem Issues.updateInventory (h : Issues moves) {map : SqlError → ApiError} {productId : Uuid}
    {admits : Inventory → Bool} {change : Inventory → Inventory} :
    Tx.Confined ok moves (updateInventory map productId admits change) := by
  show Tx.Confined ok moves (updateInventoryAt .other map productId admits change)
  exact .update fun _ _ _ => h.inventory _ _ _

theorem Issues.moveOrder_prepared (h : Issues moves) {orderId : Uuid} :
    Tx.Confined ok moves (moveOrder orderId .paid .fulfilling) :=
  .update fun _ _ _ => h.prepares _ _ _

theorem Issues.moveOrder_finished (h : Issues moves) {orderId : Uuid} :
    Tx.Confined ok moves (moveOrder orderId .fulfilling .fulfilled) :=
  .update fun _ _ _ => h.finishes _ _ _

theorem confined_insertIssuances (h : Issues moves) {context : PaidOrderContext}
    {orderId owner : Uuid} {serial : Int} {ids : Int → Uuid} {offset : Int} {count : Nat} :
    Tx.Confined ok moves (insertIssuances context orderId owner serial ids offset count) := by
  induction count generalizing offset with
  | zero => exact .pure
  | succ count ih =>
      refine .bind .orElse fun _ => .bind (.insertRow fun _ => h.issuances _ _ _) fun _ => ?_
      exact ih

variable [Widening moves]

theorem confined_prepareIssuance (h : Issues moves) (orderId : Uuid) (ids : Int → Uuid) :
    (prepareIssuance orderId ids).request.Confined ok moves := by
  refine bounded_request ?_
  refine .bind .select fun _ => .bind .orElse fun _ => .bind .select fun _ => .ite ?_ ?_
  · refine .bind .require fun _ => .bind .select fun _ => .bind .require fun _ => ?_
    refine .bind .select fun _ => .bind .orElse fun _ => .bind .select fun _ => ?_
    refine .bind .select fun _ => .bind (confined_insertIssuances h) fun _ => ?_
    refine .bind h.updateInventory fun _ => .bind .require fun _ => ?_
    refine .bind (.update fun _ _ _ => h.converts _ _ _ _) fun _ => ?_
    exact .bind h.moveOrder_prepared fun _ => .bind .commit fun _ => .pure
  · exact .bind .commit fun _ => .pure

theorem confined_acceptOwnershipEvidence (h : Issues moves) (issuanceId : Uuid)
    (body : OwnershipEvidenceRequest) (evidenceId : Uuid) :
    (acceptOwnershipEvidence issuanceId body evidenceId).request.Confined ok moves := by
  refine bounded_request ?_
  refine .bind .ofExcept fun _ => .bind .select fun _ => .bind .orElse fun _ => ?_
  refine .bind .select fun existing => ?_
  cases existing with
  | some existing => exact .bind .require fun _ => .bind .commit fun _ => .pure
  | none =>
      refine .bind .require fun _ => .bind .select fun _ => .bind .orElse fun _ => ?_
      refine .bind .require fun _ => ?_
      refine .bind (.insertRow fun _ => h.ownership _ _ _) fun _ => ?_
      refine .bind (.update fun _ _ _ => h.issuances _ _ _) fun _ => ?_
      have rest : Tx.Confined ok moves (do
          let view ← Tx.select .other (loadOwnership issuanceId)
          Tx.require view.isSome (.error .notFound)
          Tx.commit
          return ⟨.created, issuanceId⟩ : Handler Response) :=
        .bind .select fun _ => .bind .require fun _ => .bind .commit fun _ => .pure
      refine .bind .select fun _ => .ite ?_ ?_
      · exact .bind h.moveOrder_finished fun _ => rest
      · exact rest

/-- The operations that only issue. -/
def issuing : List Operation := [.prepareIssuance, .acceptOwnershipEvidence]

/-- **An issuance is confined** to what its writes stay within. -/
theorem confined_issuance (h : Issues moves) {p : Prog Database Row Site Result}
    (hp : Requests ext issuing p) : p.Confined ok moves := by
  obtain ⟨operation, hmem, hp⟩ := hp
  cases hp with
  | prepareIssuance orderId ids => exact confined_prepareIssuance h orderId ids
  | acceptOwnershipEvidence issuanceId body evidenceId =>
      exact confined_acceptOwnershipEvidence h issuanceId body evidenceId
  | _ => simp [issuing] at hmem

end Issuances

end CrownFi.Commerce
