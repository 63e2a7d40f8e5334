import CrownFi.Commerce.Bystanders
import CrownFi.Commerce.Invariant

/-!
# CrownFi.Commerce.Credits

**Payment attempts, the events that settle them, and the orders that they pay.** An event of a
provider is recorded under the provider's own identifier; the commit that records it is the only one
that settles its attempt and pays the order (`Applied`). What holds in between (`Credited`): no
identifier is recorded twice, an order has at most one attempt that is open or confirmed, and an
order with a confirmed attempt no longer awaits a payment. That such an order is paid is more than
the code ensures, since the update of the order looks at the order's status and its outcome is not
looked at; the invariant carries it as a parameter (`agree`).
-/

namespace CrownFi.Commerce.Credits

open Lib CrownFi.Api Ticketing Orders Reconciliation

variable {ext : External} {agree : Prop}

/-! ### Deliveries -/

/-- A call that reports an event: `record_payment_event` with the id that the row would get. -/
structure Delivery where
  actorUserId : Uuid
  attemptId : Uuid
  body : RecordPaymentEventRequest
  eventId : Uuid

def Delivery.request (ext : External) (d : Delivery) : Prog Database Row Site Result :=
  (recordPaymentEvent ext.sha256 ext.toVec d.actorUserId d.attemptId d.body d.eventId).request

/-- What identifies an event. -/
def eventKey (e : ProviderEvent) : String × String := (e.provider, e.providerEventId)

/-- The row is what the delivery reports. -/
structure Records (ext : External) (db : Database) (e : ProviderEvent) (d : Delivery)
    (payment : ReportedPayment) : Prop where
  valid : d.body.validate = .ok payment
  id : e.id = d.eventId
  attempt : e.paymentAttemptId = d.attemptId
  provider : ∃ a, attemptTable.find db d.attemptId = some a ∧ a.provider = e.provider
  providerEventId : e.providerEventId = payment.providerEventId
  payload : e.payloadSha256 = paymentEventHash ext.sha256 ext.toVec payment d.body.payload

/-! ### The invariant -/

/-- An attempt that takes its order's place: it is open, or it paid the order. -/
def Live (a : PaymentAttempt) : Prop := AttemptStatus.active a.status = true ∨ a.status = .confirmed

/-- An order with a confirmed attempt does not await a payment; it is paid, as far as assumed. -/
def Settles (agree : Prop) (a : AttemptStatus) (o : OrderStatus) : Prop :=
  a = .confirmed → o ≠ .awaitingPayment ∧ (agree → o.Paid)

structure Credited (ext : External) (agree : Prop) (sent : Delivery → Prop) (db : Database) : Prop where
  attemptIds : (db.attempts.map (·.id)).Nodup
  keys : (db.events.map eventKey).Nodup
  placed : ∀ id a, attemptTable.find db id = some a →
    ∃ o, orderTable.find db a.orderId = some o ∧ Settles agree a.status o.status
  alone : ∀ a ∈ db.attempts, ∀ b ∈ db.attempts, a.orderId = b.orderId → Live a → Live b → a.id = b.id
  recorded : ∀ e ∈ db.events, ∃ d payment, sent d ∧ Records ext db e d payment

theorem leads_awaiting {s t : OrderStatus} (h : s.Leads t) (hs : s ≠ .awaitingPayment) :
    t ≠ .awaitingPayment := by
  revert h hs
  cases s <;> cases t <;> decide

theorem Settles.leads {a : AttemptStatus} {s t : OrderStatus} (h : Settles agree a s)
    (hst : s.Leads t) : Settles agree a t := by
  intro ha
  obtain ⟨hs, hpaid⟩ := h ha
  exact ⟨leads_awaiting hst hs, fun hagree => (hpaid hagree).leads hst⟩

/-! ### What a commit does -/

/-- Orders move forward, and none that was not paid is paid now. -/
structure OrdersKept (db db' : Database) : Prop where
  forward : ∀ id o, orderTable.find db id = some o →
    ∃ o', orderTable.find db' id = some o' ∧ o.status.Leads o'.status
  unpaid : ∀ id o', orderTable.find db' id = some o' → o'.status.Paid →
    ∃ o, orderTable.find db id = some o ∧ o.status.Paid

/-- A sale: attempts and events are as they were. -/
structure Sold (db db' : Database) : Prop where
  attempts : db'.attempts = db.attempts
  events : db'.events = db.events
  orders : OrdersKept db db'

instance : IsPreorder Database Sold where
  refl _ := ⟨rfl, rfl, fun _ o ho => ⟨o, ho, .refl _⟩, fun _ o ho hp => ⟨o, ho, hp⟩⟩
  trans a b c h h' := by
    refine ⟨h'.attempts.trans h.attempts, h'.events.trans h.events, fun id o ho => ?_,
      fun id o'' ho'' hp => ?_⟩
    · obtain ⟨o', ho', hlead⟩ := h.orders.forward id o ho
      obtain ⟨o'', ho'', hlead'⟩ := h'.orders.forward id o' ho'
      exact ⟨o'', ho'', hlead.trans hlead'⟩
    · obtain ⟨o', ho', hp'⟩ := h'.orders.unpaid id o'' ho'' hp
      exact h.orders.unpaid id o' ho' hp'

/-- No event is recorded: no attempt that is there changes, a new one is open, no order is paid. -/
structure Unapplied (db db' : Database) : Prop where
  events : db'.events = db.events
  attempts : ∀ id a', attemptTable.find db' id = some a' →
    attemptTable.find db id = some a' ∨
      (attemptTable.find db id = none ∧ AttemptStatus.active a'.status = true)
  orders : OrdersKept db db'

/-- **An event is recorded**: it is the first with its key, and nothing changes but that its own
attempt, which was open, is settled, and that the order of this attempt, which awaited a payment, is
paid. -/
structure AppliedBy (e : ProviderEvent) (db db' : Database) : Prop where
  events : db'.events = db.events ++ [e]
  first : ∀ f ∈ db.events, eventKey f ≠ eventKey e
  attempts : ∀ id a', attemptTable.find db' id = some a' →
    attemptTable.find db id = some a' ∨
      (id = e.paymentAttemptId ∧ ∃ a, attemptTable.find db id = some a ∧
        AttemptStatus.active a.status = true ∧
        (a' = { a with status := .confirmed, failureCode := none } ∨
          a' = { a with status := .failed, failureCode := some "provider_failed" }))
  orders : ∀ id o', orderTable.find db' id = some o' →
    orderTable.find db id = some o' ∨
      ∃ o a, orderTable.find db id = some o ∧ o.status = .awaitingPayment ∧
        o' = { o with status := .paid } ∧
        attemptTable.find db e.paymentAttemptId = some a ∧ a.orderId = id

/-- What a commit does: it records one event, or it applies none. -/
def Applied (db db' : Database) : Prop := Unapplied db db' ∨ ∃ e, AppliedBy e db db'

/-- What a commit under the locks `L` does. -/
structure Commits (L : List (Lock Row)) (db db' : Database) : Prop where
  applied : Applied db db'
  orders : ∀ id o, orderTable.find db id = some o →
    ∃ o', orderTable.find db' id = some o' ∧ o.status.Leads o'.status
  attempts : ∀ id a, attemptTable.find db id = some a →
    ∃ a', attemptTable.find db' id = some a' ∧ a'.provider = a.provider
  opened : ∀ id, NotWritten L (.order id) → ∀ a' ∈ db'.attempts, a'.orderId = id → Live a' →
    ∃ a ∈ db.attempts, a.orderId = id ∧ Live a

/-! ### What locks protect -/

/-- The events by their keys. -/
theorem events_put (db : Database) (events : List ProviderEvent) : { db with events }.events = events := rfl

def keyedEvents : Table Database Row (String × String) ProviderEvent where
  rows := Database.events
  put db events := { db with events }
  key := eventKey
  row k := .providerEvent k.1 k.2
  rows_put := events_put

inductive Part
  | order (o : Option Order)
  | attempt (a : Option PaymentAttempt)
  | event (e : Option ProviderEvent)
  | other

def part (db : Database) : Row → Part
  | .order id => .order (orderTable.find db id)
  | .attempt id => .attempt (attemptTable.find db id)
  | .providerEvent provider eventId => .event (keyedEvents.find db (provider, eventId))
  | _ => .other

theorem orderLayout : Layout part orderTable Part.order where
  row _ _ := rfl
  injective _ _ h := Part.order.inj h
  other db l k hk := by
    cases k with
    | order id => exact absurd rfl (hk id)
    | _ => rfl

theorem attemptLayout : Layout part attemptTable Part.attempt where
  row _ _ := rfl
  injective _ _ h := Part.attempt.inj h
  other db l k hk := by
    cases k with
    | attempt id => exact absurd rfl (hk id)
    | _ => rfl

theorem eventLayout : Layout part keyedEvents Part.event where
  row _ _ := rfl
  injective _ _ h := Part.event.inj h
  other db l k hk := by
    cases k with
    | providerEvent provider eventId => exact absurd rfl (hk (provider, eventId))
    | _ => rfl

/-! ### Sales -/

/-- What a sale may do under the locks of its statements. -/
structure Sale (L : List (Lock Row)) (db db' : Database) : Prop where
  framed : Framed part L db db'
  sold : Sold db db'

instance : Widening Sale where
  refl _ db := ⟨.refl, refl_of Sold db⟩
  trans _ _ _ _ h h' := ⟨h.framed.trans h'.framed, trans_of Sold h.sold h'.sold⟩
  mono _ _ _ _ hsub h := ⟨h.framed.mono hsub, h.sold⟩

/-- A change of tables that none of this speaks of. -/
theorem Sale.hidden {L : List (Lock Row)} {db db' : Database} (ho : db'.orders = db.orders)
    (ha : db'.attempts = db.attempts) (he : db'.events = db.events) : Sale L db db' := by
  have horder (id : Uuid) : orderTable.find db' id = orderTable.find db id := by
    show db'.orders.find? _ = db.orders.find? _
    rw [ho]
  refine ⟨fun k _ => ?_, ha, he, fun id o h => ⟨o, (horder id).trans h, .refl _⟩,
    fun id o h hp => ⟨o, (horder id).symm.trans h, hp⟩⟩
  cases k with
  | order id => exact congrArg Part.order (horder id)
  | attempt id =>
      show Part.attempt (db'.attempts.find? _) = Part.attempt (db.attempts.find? _)
      rw [ha]
  | providerEvent provider eventId =>
      show Part.event (db'.events.find? _) = Part.event (db.events.find? _)
      rw [he]
  | _ => rfl

theorem ordersKept_add {o : Order} {db : Database} (ho : o.status = .awaitingPayment) :
    OrdersKept db (orderTable.add o db) where
  forward id o' ho' := ⟨o', orderTable.find_add_of_some ho', .refl _⟩
  unpaid id o' ho' hp := by
    rcases orderTable.of_find_add ho' with hold | ⟨-, -, rfl⟩
    · exact ⟨o', hold, hp⟩
    · rw [ho] at hp
      exact absurd hp (by decide)

theorem ordersKept_expire {id : Uuid} {view db : Database} :
    OrdersKept db (setOrders (payable id) .expired view db) where
  forward := (Progress.moveOrders (p := payable id) (s := .awaitingPayment)
    (fun o ho => of_decide_eq_true (Bool.and_eq_true_iff.mp ho).2) (.inr (.inl rfl))).orders
  unpaid i o' ho' hp := by
    rcases of_find_setOrders ho' with hold | ⟨o, -, -, -, rfl⟩
    · exact ⟨o', hold, hp⟩
    · exact absurd hp (show ¬ OrderStatus.Paid .expired by decide)

theorem sells : Sells Sale where
  environment _ _ _ _ := .hidden rfl rfl rfl
  inventory _ _ _ := .hidden rfl rfl rfl
  releases _ _ _ _ := .hidden rfl rfl rfl
  reserves _ _ _ := .hidden rfl rfl rfl
  orderItems _ _ _ := .hidden rfl rfl rfl
  opens o _ ho := ⟨orderLayout.framed_add List.mem_cons_self, rfl, rfl, ordersKept_add ho⟩
  expires id view db := by
    refine ⟨orderLayout.framed_modify (fun _ => rfl) fun o ho => ?_, rfl, rfl, ordersKept_expire⟩
    exact ⟨_, List.mem_flatMap.mpr ⟨o, ho, List.mem_singleton.mpr rfl⟩, rfl, rfl⟩

variable {sent : Delivery → Prop} {db db' : Database}

theorem Records.mono {e : ProviderEvent} {d : Delivery} {payment : ReportedPayment}
    (h : Records ext db e d payment)
    (hattempts : ∀ id a, attemptTable.find db id = some a →
      ∃ a', attemptTable.find db' id = some a' ∧ a'.provider = a.provider) :
    Records ext db' e d payment := by
  obtain ⟨a, ha, hprovider⟩ := h.provider
  obtain ⟨a', ha', hprovider'⟩ := hattempts _ a ha
  exact ⟨h.valid, h.id, h.attempt, ⟨a', ha', hprovider'.trans hprovider⟩, h.providerEventId, h.payload⟩

theorem Sold.attempt (h : Sold db db') (id : Uuid) :
    attemptTable.find db' id = attemptTable.find db id := by
  show db'.attempts.find? _ = db.attempts.find? _
  rw [h.attempts]

theorem Sold.credited (h : Sold db db') (hI : Credited ext agree sent db) :
    Credited ext agree sent db' where
  attemptIds := by rw [h.attempts]; exact hI.attemptIds
  keys := by rw [h.events]; exact hI.keys
  placed id a ha := by
    rw [h.attempt] at ha
    obtain ⟨o, ho, hsettles⟩ := hI.placed id a ha
    obtain ⟨o', ho', hlead⟩ := h.orders.forward _ o ho
    exact ⟨o', ho', hsettles.leads hlead⟩
  alone := by rw [h.attempts]; exact hI.alone
  recorded e he := by
    rw [h.events] at he
    obtain ⟨d, payment, hsent, hrecords⟩ := hI.recorded e he
    exact ⟨d, payment, hsent, hrecords.mono fun id a ha => ⟨a, (h.attempt id).trans ha, rfl⟩⟩

theorem Sold.commits {L : List (Lock Row)} (h : Sold db db') : Commits L db db' where
  applied := .inl ⟨h.events, fun id _ ha' => .inl ((h.attempt id).symm.trans ha'), h.orders⟩
  orders := h.orders.forward
  attempts id a ha := ⟨a, (h.attempt id).trans ha, rfl⟩
  opened _ _ a' ha' horder hlive := ⟨a', h.attempts ▸ ha', horder, hlive⟩

/-! ### A new attempt -/

/-- An order without an open or a confirmed attempt. -/
def Vacant (orderId : Uuid) (db : Database) : Prop := ∀ a ∈ db.attempts, a.orderId = orderId → ¬ Live a

theorem attemptViolation_none {a : PaymentAttempt} (h : attemptViolation a db = none)
    (ha : AttemptStatus.active a.status = true) :
    attemptTable.find db a.id = none ∧
      ∀ b ∈ db.attempts, b.orderId = a.orderId → AttemptStatus.active b.status = false := by
  unfold attemptViolation at h
  split at h
  · cases h
  · rename_i hany
    have hall := List.any_eq_false.mp (Bool.eq_false_iff.mpr hany)
    refine ⟨List.find?_eq_none.mpr fun b hb hid => ?_, fun b hb horder => ?_⟩
    · exact hall b hb (by simp only [Bool.or_eq_true]; exact .inl (.inl hid))
    · cases hactive : AttemptStatus.active b.status with
      | false => rfl
      | true => exact absurd (by simp [horder, hactive, ha]) (hall b hb)

/-- An order that awaits a payment and has no open attempt has no confirmed one either. -/
theorem Credited.vacant (h : Credited ext agree sent db) {orderId : Uuid} {o : Order}
    (ho : orderTable.find db orderId = some o) (hstatus : o.status = .awaitingPayment)
    (hclosed : ∀ a ∈ db.attempts, a.orderId = orderId → AttemptStatus.active a.status = false) :
    Vacant orderId db := by
  intro a ha horder hlive
  rcases hlive with hactive | hconfirmed
  · rw [hclosed a ha horder] at hactive
    cases hactive
  · obtain ⟨o', ho', hsettles⟩ := h.placed _ a (attemptTable.find_of_mem h.attemptIds ha)
    rw [horder, ho] at ho'
    obtain rfl := Option.some.inj ho'
    exact (hsettles hconfirmed).1 hstatus

theorem Credited.addAttempt (h : Credited ext agree sent db) {a : PaymentAttempt} {o : Order}
    (hactive : a.status = .awaitingConfirmation) (hnew : attemptTable.find db a.id = none)
    (ho : orderTable.find db a.orderId = some o) (hvacant : Vacant a.orderId db) :
    Credited ext agree sent (attemptTable.add a db) where
  attemptIds := attemptTable.nodup_add h.attemptIds (attemptTable.find_none hnew)
  keys := h.keys
  placed id b hb := by
    rcases attemptTable.of_find_add hb with hold | ⟨-, -, rfl⟩
    · exact h.placed id b hold
    · exact ⟨o, ho, fun hconfirmed => by rw [hactive] at hconfirmed; cases hconfirmed⟩
  alone b hb c hc horder hlive hlive' := by
    rcases List.mem_append.mp hb with hold | hadded
    · rcases List.mem_append.mp hc with hold' | hadded'
      · exact h.alone b hold c hold' horder hlive hlive'
      · obtain rfl := List.mem_singleton.mp hadded'
        exact absurd hlive (hvacant b hold horder)
    · obtain rfl := List.mem_singleton.mp hadded
      rcases List.mem_append.mp hc with hold' | hadded'
      · exact absurd hlive' (hvacant c hold' horder.symm)
      · rw [List.mem_singleton.mp hadded']
  recorded e he := by
    obtain ⟨d, payment, hsent, hrecords⟩ := h.recorded e he
    exact ⟨d, payment, hsent, hrecords.mono fun id b hb => ⟨b, attemptTable.find_add_of_some hb, rfl⟩⟩

theorem commits_addAttempt {L : List (Lock Row)} {a : PaymentAttempt}
    (hactive : AttemptStatus.active a.status = true) (hlock : Written L (.order a.orderId)) :
    Commits L db (attemptTable.add a db) where
  applied := by
    refine .inl ⟨rfl, fun id b hb => ?_, fun _ o ho => ⟨o, ho, .refl _⟩, fun _ o ho hp => ⟨o, ho, hp⟩⟩
    rcases attemptTable.of_find_add hb with hold | ⟨hnone, -, rfl⟩
    · exact .inl hold
    · exact .inr ⟨hnone, hactive⟩
  orders _ o ho := ⟨o, ho, .refl _⟩
  attempts id b hb := ⟨b, attemptTable.find_add_of_some hb, rfl⟩
  opened id hfree b hb horder hlive := by
    rcases List.mem_append.mp hb with hold | hadded
    · exact ⟨b, hold, horder, hlive⟩
    · obtain rfl := List.mem_singleton.mp hadded
      exact absurd (horder ▸ hlock) hfree.not_written

/-! ### A recorded event -/

section Settle

variable {attempt : PaymentAttempt} {change : PaymentAttempt → PaymentAttempt} {view : Database}

/-- What an update of an attempt's status leaves as it is. -/
structure KeepsPlace (change : PaymentAttempt → PaymentAttempt) : Prop where
  id : ∀ a, (change a).id = a.id
  order : ∀ a, (change a).orderId = a.orderId
  provider : ∀ a, (change a).provider = a.provider

/-- The change of an update of one attempt. -/
abbrev settle (attemptId : Uuid) (change : PaymentAttempt → PaymentAttempt) (view db : Database) :
    Database :=
  attemptTable.modify (fun a => a.id = attemptId && true) change view db

/-- An attempt after the update was there, and was live if it is. -/
theorem of_mem_settle (hids : (db.attempts.map (·.id)).Nodup)
    (hattempt : attemptTable.find db attempt.id = some attempt)
    (hactive : AttemptStatus.active attempt.status = true) (hchange : KeepsPlace change)
    {a' : PaymentAttempt} (ha' : a' ∈ (settle attempt.id change view db).attempts) :
    ∃ a ∈ db.attempts, a.id = a'.id ∧ a.orderId = a'.orderId ∧ (Live a' → Live a) := by
  rcases attemptTable.mem_modify ha' with hold | ⟨a, ha, hp, rfl⟩
  · exact ⟨a', hold, rfl, rfl, fun h => h⟩
  · have hid : a.id = attempt.id := of_decide_eq_true (Bool.and_eq_true_iff.mp hp).1
    have hfind : attemptTable.find db a.id = some a := attemptTable.find_of_mem hids ha
    rw [hid, hattempt] at hfind
    obtain rfl := Option.some.inj hfind
    exact ⟨attempt, ha, (hchange.id _).symm, (hchange.order _).symm, fun _ => .inl hactive⟩

/-- An attempt that is found after the update was found before, as it is or to be changed. -/
theorem of_find_settle (hchange : KeepsPlace change) {attemptId id : Uuid} {a' : PaymentAttempt}
    (h : attemptTable.find (settle attemptId change view db) id = some a') :
    ∃ a, attemptTable.find db id = some a ∧ (a' = a ∨ (id = attemptId ∧ a' = change a)) := by
  obtain ⟨a, ha, rfl | ⟨hp, -, rfl⟩⟩ := attemptTable.of_find_modify hchange.id h
  · exact ⟨_, ha, .inl rfl⟩
  · have hid : a.id = attemptId := of_decide_eq_true (Bool.and_eq_true_iff.mp hp).1
    have hkey : a.id = id := (attemptTable.find_mem ha).2
    exact ⟨a, ha, .inr ⟨hkey.symm.trans hid, rfl⟩⟩

theorem find_settle_provider (hchange : KeepsPlace change) {attemptId id : Uuid} {a : PaymentAttempt}
    (ha : attemptTable.find db id = some a) :
    ∃ a', attemptTable.find (settle attemptId change view db) id = some a' ∧
      a'.provider = a.provider := by
  rw [attemptTable.find_modify hchange.id, ha, Option.map_some]
  refine ⟨_, rfl, ?_⟩
  split
  · exact hchange.provider a
  · rfl

/-- **An attempt is settled**, and its order with it. -/
theorem Credited.settle (h : Credited ext agree sent db)
    (hattempt : attemptTable.find db attempt.id = some attempt)
    (hactive : AttemptStatus.active attempt.status = true) (hchange : KeepsPlace change)
    (hattempts : db'.attempts = (Credits.settle attempt.id change view db).attempts)
    (hevents : db'.events = db.events)
    (horders : ∀ id o, orderTable.find db id = some o →
      ∃ o', orderTable.find db' id = some o' ∧ o.status.Leads o'.status)
    (hsettles : ∃ o', orderTable.find db' attempt.orderId = some o' ∧
      Settles agree (change attempt).status o'.status) :
    Credited ext agree sent db' := by
  have hfind (id : Uuid) : attemptTable.find db' id =
      attemptTable.find (Credits.settle attempt.id change view db) id := by
    show db'.attempts.find? _ = (Credits.settle attempt.id change view db).attempts.find? _
    rw [hattempts]
  refine ⟨?_, by rw [hevents]; exact h.keys, fun id a' ha' => ?_, fun b' hb' c' hc' horder hb hc => ?_,
    fun e he => ?_⟩
  · rw [hattempts]
    have hids : (Credits.settle attempt.id change view db).attempts.map (·.id) =
        db.attempts.map (·.id) := attemptTable.keys_modify hchange.id
    exact hids ▸ h.attemptIds
  · rw [hfind] at ha'
    obtain ⟨a, ha, rfl | ⟨rfl, rfl⟩⟩ := of_find_settle hchange ha'
    · obtain ⟨o, ho, hold⟩ := h.placed id _ ha
      obtain ⟨o', ho', hlead⟩ := horders _ o ho
      exact ⟨o', ho', hold.leads hlead⟩
    · obtain rfl := Option.some.inj (hattempt.symm.trans ha)
      rw [hchange.order]
      exact hsettles
  · rw [hattempts] at hb' hc'
    obtain ⟨b, hbmem, hbid, hborder, hblive⟩ := of_mem_settle h.attemptIds hattempt hactive hchange hb'
    obtain ⟨c, hcmem, hcid, hcorder, hclive⟩ := of_mem_settle h.attemptIds hattempt hactive hchange hc'
    have hsame := h.alone b hbmem c hcmem (hborder.trans (horder.trans hcorder.symm)) (hblive hb)
      (hclive hc)
    exact hbid.symm.trans (hsame.trans hcid)
  · rw [hevents] at he
    obtain ⟨d, payment, hsent, hrecords⟩ := h.recorded e he
    refine ⟨d, payment, hsent, hrecords.mono fun id a ha => ?_⟩
    rw [hfind]
    exact find_settle_provider hchange ha

end Settle

/-- **An event is recorded** under a new key. -/
theorem Credited.addEvent (h : Credited ext agree sent db) {e : ProviderEvent} {d : Delivery}
    {payment : ReportedPayment} (hnew : keyedEvents.find db (eventKey e) = none) (hsent : sent d)
    (hrecords : Records ext db e d payment) :
    Credited ext agree sent (eventTable.add e db) where
  attemptIds := h.attemptIds
  keys := keyedEvents.nodup_add h.keys (keyedEvents.find_none hnew)
  placed := h.placed
  alone := h.alone
  recorded f hf := by
    rcases List.mem_append.mp hf with hold | hadded
    · obtain ⟨d', payment', hsent', hrecords'⟩ := h.recorded f hold
      exact ⟨d', payment', hsent', hrecords'.mono fun _ a ha => ⟨a, ha, rfl⟩⟩
    · obtain rfl := List.mem_singleton.mp hadded
      exact ⟨d, payment, hsent, hrecords.mono fun _ a ha => ⟨a, ha, rfl⟩⟩

/-- What the commit of a recorded event does, from what becomes of attempts and orders. -/
theorem AppliedBy.commits {L : List (Lock Row)} {e : ProviderEvent} (h : AppliedBy e db db')
    (horders : ∀ id o, orderTable.find db id = some o →
      ∃ o', orderTable.find db' id = some o' ∧ o.status.Leads o'.status)
    (hattempts : ∀ id a, attemptTable.find db id = some a →
      ∃ a', attemptTable.find db' id = some a' ∧ a'.provider = a.provider)
    (hlive : ∀ a' ∈ db'.attempts, ∃ a ∈ db.attempts, a.orderId = a'.orderId ∧ (Live a' → Live a)) :
    Commits L db db' where
  applied := .inr ⟨e, h⟩
  orders := horders
  attempts := hattempts
  opened id _ a' ha' horder hlive' := by
    obtain ⟨a, ha, hsame, himp⟩ := hlive a' ha'
    exact ⟨a, ha, hsame.trans horder, himp hlive'⟩

end CrownFi.Commerce.Credits
