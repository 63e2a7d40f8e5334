import CrownFi.Commerce.Credits
import CrownFi.Commerce.Payments

/-!
# CrownFi.Commerce.PaymentEvents

**Events of payment providers, in every interleaving.** A confirmed attempt has a paid order as long
as every event that confirms one meets an order that still awaits its payment. The code does not
ensure this: the event locks the order, but nobody looks at how many rows the update of the order
changed, and the expiry sweep may have been there before. What it does ensure is that each event is
applied at most once, whatever is delivered how often and in whatever order.
-/

namespace CrownFi.Commerce.Credits

open Lib CrownFi.Api Ticketing Orders Reconciliation

variable {ext : External} {agree : Prop} {sent : Delivery → Prop}

/-- When an event pays an order, the order awaits a payment or is paid. -/
def EventsPay (site : Site) (db : Database) : Prop :=
  ∀ id, site = .eventOrder id → ∀ o, orderTable.find db id = some o →
    o.status = .awaitingPayment ∨ o.status.Paid

/-- The condition, as far as it is assumed. -/
def Condition (agree : Prop) (site : Site) (db : Database) : Prop := agree → EventsPay site db

/-- An outline of the rest of a request. -/
abbrev Outline (ext : External) (agree : Prop) (sent : Delivery → Prop) :
    Prog Database Row Site Result → List (Lock Row) → (Database → Database) → (Database → Prop) → Prop :=
  Safe (Credited ext agree sent) (Forward part Commits) (Condition agree)

theorem sale_outline {p : Prog Database Row Site Result} (h : p.Confined (Condition agree) Sale) :
    Outline ext agree sent p [] id fun _ => True :=
  h.safeRequest (fun _ _ _ hsale hI => hsale.sold.credited hI)
    fun _ _ _ hsale _ => ⟨hsale.framed, hsale.sold.commits⟩

section Statements

variable {L : List (Lock Row)} {pending : Database → Database} {A : Database → Prop}

theorem outline_requireEditor {organizationId userId : Uuid}
    {k : PUnit → Prog Database Row Site Result}
    (ht : Track part (Credited ext agree sent) Commits L pending A)
    (next : Outline ext agree sent (k ⟨⟩) L pending A) :
    Outline ext agree sent (requireEditor organizationId userId k) L pending A := by
  unfold requireEditor
  refine safe_bind (safe_select ht.stable fun _ _ _ _ _ => ?_)
  exact safe_require fun _ => next

/-- A commit of nothing. -/
theorem outline_nothing {k : PUnit → Prog Database Row Site Result}
    (ht : Track part (Credited ext agree sent) Commits L id A)
    (next : Outline ext agree sent (k ⟨⟩) [] id fun _ => True) :
    Outline ext agree sent (Tx.commit k) L id A :=
  ht.safe_commitWithin (R := Sold) .start (fun _ _ h => h.commits) next

end Statements

/-! ### Attempts -/

/-- Nobody else opens an attempt of an order that is locked. -/
theorem stable_vacant {L : List (Lock Row)} {orderId : Uuid} {m : LockMode}
    (hlock : ⟨.order orderId, m⟩ ∈ L) (hmode : m.protects = true) :
    Stable (Credited ext agree sent) (Forward part Commits) L (Vacant orderId) := by
  intro L' db db' hcompat _ _ hvacant hG a' ha' horder hlive
  obtain ⟨a, ha, hsame, hlive⟩ :=
    hG.moved.opened orderId (hcompat.not_writes hlock hmode) a' ha' horder hlive
  exact hvacant a ha hsame hlive

theorem createPaymentAttempt_outline (actorUserId orderId : Uuid) (body : CreatePaymentAttemptRequest)
    (attemptId : Uuid) :
    Outline ext agree sent (createPaymentAttempt actorUserId orderId body attemptId).request [] id
      fun _ => True := by
  unfold Handler.request createPaymentAttempt
  refine safe_bind (safe_ofExcept fun provider _ => ?_)
  refine safe_bind (safe_ofExcept fun reference _ => ?_)
  refine safe_bind (safe_ofExcept fun payer _ => ?_)
  refine safe_bind (Track.start.safe_selectFor fun db₁ A₁ row _ _ hrow h₁ => ?_)
  refine safe_bind (safe_orElse fun order horder => ?_)
  -- the order is locked and stays as it was read
  have hfind : orderTable.find db₁ orderId = some order := hrow.trans horder
  have hid : order.id = orderId := (orderTable.find_mem hfind).2
  have hlock : (⟨.order orderId, .update⟩ : Lock Row) ∈
      [] ++ (orderTable.find db₁ orderId).toList.map fun o => ⟨.order o.id, .update⟩ := by
    rw [hfind, ← hid]
    exact List.mem_singleton.mpr rfl
  have hknown (d : Database) (hd : A₁ d) : orderTable.find d orderId = some order :=
    ((h₁.seen d hd).find orderLayout hlock rfl).trans hfind
  refine safe_bind (outline_requireEditor h₁.track ?_)
  refine safe_bind (safe_require fun hstatus => ?_)
  refine safe_bind (Lib.safe_insertRow fun db₂ hI₂ hA₂ _ hviolation => ?_)
  obtain ⟨hnew, hclosed⟩ := attemptViolation_none (raise_none hviolation) rfl
  have hvacant := hI₂.vacant (hknown db₂ hA₂) (of_decide_eq_true hstatus) hclosed
  obtain ⟨B, hB, h₂, hvacantB⟩ := h₁.track.afterKnowing (L := _) hA₂ hvacant
    (stable_vacant hlock rfl).weaken
  refine ⟨B, hB, h₂.track.stable, ?_⟩
  refine safe_bind (Lib.safe_commit (fun d hI hd => ?_) safe_ret)
  have hnone : attemptTable.find d attemptId = none := by
    refine ((h₂.seen d hd).find attemptLayout (m := .update) ?_ rfl).trans hnew
    exact List.mem_append_right _ (List.mem_append_left _ List.mem_cons_self)
  refine ⟨hI.addAttempt rfl hnone (hknown d (h₂.before d hd)) (hvacantB d hd), ?_, ?_⟩
  · refine (h₂.track.add attemptLayout ?_).framed d
    exact List.mem_append_right _ (List.mem_append_left _ List.mem_cons_self)
  · exact commits_addAttempt rfl ((written_of_mem hlock rfl).mono (List.subset_append_left _ _))

/-! ### Events -/

/-- What the event's transaction knows of its attempt and the order, which it has locked. -/
structure Found (attempt : PaymentAttempt) (order : Order) (db : Database) : Prop where
  attemptRow : attemptTable.find db attempt.id = some attempt
  orderRow : orderTable.find db attempt.orderId = some order

theorem eventViolation_none {e : ProviderEvent} {db : Database} (h : eventViolation e db = none) :
    keyedEvents.find db (eventKey e) = none := by
  unfold eventViolation at h
  split at h
  · cases h
  · rename_i hany
    refine List.find?_eq_none.mpr fun f hf hkey => hany (List.any_eq_true.mpr ⟨f, hf, ?_⟩)
    obtain ⟨hprovider, hid⟩ := Prod.mk.inj (of_decide_eq_true hkey)
    simp [hprovider, hid]

/-- The attempt is confirmed. -/
abbrev confirm (a : PaymentAttempt) : PaymentAttempt := { a with status := .confirmed, failureCode := none }

/-- The attempt has failed. -/
abbrev fail (a : PaymentAttempt) : PaymentAttempt :=
  { a with status := .failed, failureCode := some "provider_failed" }

theorem keepsPlace_confirm : KeepsPlace confirm := ⟨fun _ => rfl, fun _ => rfl, fun _ => rfl⟩

theorem keepsPlace_fail : KeepsPlace fail := ⟨fun _ => rfl, fun _ => rfl, fun _ => rfl⟩

section Event

variable {attempt : PaymentAttempt} {order : Order} {event : ProviderEvent} {d : Delivery}
  {payment : ReportedPayment} {db view view' : Database} {L : List (Lock Row)}

/-- What is known when the event is recorded. -/
structure Reported (ext : External) (sent : Delivery → Prop) (attempt : PaymentAttempt) (order : Order)
    (event : ProviderEvent) (d : Delivery) (payment : ReportedPayment) (db : Database) : Prop where
  found : Found attempt order db
  active : AttemptStatus.active attempt.status = true
  attemptId : event.paymentAttemptId = attempt.id
  first : keyedEvents.find db (eventKey event) = none
  sent : sent d
  records : Records ext db event d payment

/-- An event that does not fit its attempt is only recorded. -/
theorem Reported.reject (h : Reported ext sent attempt order event d payment db)
    (hI : Credited ext agree sent db) :
    Credited ext agree sent (eventTable.add event db) ∧ Commits L db (eventTable.add event db) := by
  refine ⟨hI.addEvent h.first h.sent h.records, AppliedBy.commits (e := event)
    ⟨rfl, keyedEvents.find_none h.first, fun _ _ ha => .inl ha, fun _ _ ho => .inl ho⟩ ?_ ?_ ?_⟩
  · exact fun _ o ho => ⟨o, ho, .refl _⟩
  · exact fun _ a ha => ⟨a, ha, rfl⟩
  · exact fun a ha => ⟨a, ha, rfl, fun h => h⟩

/-- An event that reports a failure ends its attempt. -/
theorem Reported.failed (h : Reported ext sent attempt order event d payment db)
    (hI : Credited ext agree sent db) :
    Credited ext agree sent (settle attempt.id fail view (eventTable.add event db)) ∧
      Commits L db (settle attempt.id fail view (eventTable.add event db)) := by
  have hadded := hI.addEvent h.first h.sent h.records
  refine ⟨?_, AppliedBy.commits (e := event) ⟨rfl, keyedEvents.find_none h.first, ?_, ?_⟩ ?_ ?_ ?_⟩
  · refine hadded.settle h.found.attemptRow h.active keepsPlace_fail rfl rfl
      (fun _ o ho => ⟨o, ho, .refl _⟩) ⟨order, h.found.orderRow, fun hfailed => ?_⟩
    cases hfailed
  · intro id a' ha'
    obtain ⟨a, ha, rfl | ⟨rfl, rfl⟩⟩ := of_find_settle keepsPlace_fail ha'
    · exact .inl ha
    · obtain rfl := Option.some.inj (h.found.attemptRow.symm.trans ha)
      exact .inr ⟨h.attemptId.symm, _, h.found.attemptRow, h.active, .inr rfl⟩
  · exact fun _ o ho => .inl ho
  · exact fun _ o ho => ⟨o, ho, .refl _⟩
  · exact fun _ a ha => find_settle_provider keepsPlace_fail ha
  · intro a' ha'
    obtain ⟨a, ha, -, horder, hlive⟩ :=
      of_mem_settle hadded.attemptIds h.found.attemptRow h.active keepsPlace_fail ha'
    exact ⟨a, ha, horder, hlive⟩

/-- **An event that reports a payment** confirms its attempt and pays the order, if the order awaits
a payment. -/
theorem Reported.confirmed (h : Reported ext sent attempt order event d payment db)
    (hI : Credited ext agree sent db)
    (hview : orderTable.find view' attempt.orderId = some order)
    (hpays : agree → order.status = .awaitingPayment ∨ order.status.Paid) :
    Credited ext agree sent (setOrders (payable attempt.orderId) .paid view'
        (settle attempt.id confirm view (eventTable.add event db))) ∧
      Commits L db (setOrders (payable attempt.orderId) .paid view'
        (settle attempt.id confirm view (eventTable.add event db))) := by
  have hadded := hI.addEvent h.first h.sent h.records
  have horders : ∀ id o, orderTable.find db id = some o → ∃ o', orderTable.find (setOrders
      (payable attempt.orderId) .paid view' (settle attempt.id confirm view (eventTable.add event db)))
        id = some o' ∧ o.status.Leads o'.status :=
    (Progress.moveOrders (p := payable attempt.orderId) (s := .awaitingPayment)
      (fun o ho => of_decide_eq_true (Bool.and_eq_true_iff.mp ho).2) (.inr (.inl rfl))).orders
  have hid : order.id = attempt.orderId := (orderTable.find_mem h.found.orderRow).2
  refine ⟨?_, AppliedBy.commits (e := event) ⟨rfl, keyedEvents.find_none h.first, ?_, ?_⟩ horders
    ?_ ?_⟩
  · refine hadded.settle h.found.attemptRow h.active keepsPlace_confirm rfl rfl horders ?_
    by_cases hawaits : order.status = .awaitingPayment
    · have hmatch : payable attempt.orderId order = true := by simp [payable, hid, hawaits]
      refine ⟨_, orderTable.find_modify_of_find (f := ({ · with status := .paid })) (fun _ => rfl)
        h.found.orderRow hview hmatch, fun _ => ⟨?_, fun _ => .inl rfl⟩⟩
      exact (by decide : OrderStatus.paid ≠ .awaitingPayment)
    · -- the update matched nothing: the order stays as it is
      obtain ⟨o', ho', hlead⟩ := horders _ order h.found.orderRow
      refine ⟨o', ho', fun _ => ⟨leads_awaiting hlead hawaits, fun hagree => ?_⟩⟩
      exact ((hpays hagree).resolve_left hawaits).leads hlead
  · intro id a' ha'
    obtain ⟨a, ha, rfl | ⟨rfl, rfl⟩⟩ := of_find_settle keepsPlace_confirm ha'
    · exact .inl ha
    · obtain rfl := Option.some.inj (h.found.attemptRow.symm.trans ha)
      exact .inr ⟨h.attemptId.symm, _, h.found.attemptRow, h.active, .inl rfl⟩
  · intro id o' ho'
    rcases of_find_setOrders ho' with hold | ⟨o, ho, hp, -, rfl⟩
    · exact .inl hold
    · obtain ⟨horder, hstatus⟩ := Bool.and_eq_true_iff.mp hp
      obtain rfl : attempt.orderId = id :=
        (of_decide_eq_true horder).symm.trans (orderTable.find_mem ho).2
      refine .inr ⟨o, attempt, ho, of_decide_eq_true hstatus, rfl, ?_, rfl⟩
      rw [h.attemptId]
      exact h.found.attemptRow
  · exact fun _ a ha => find_settle_provider keepsPlace_confirm ha
  · intro a' ha'
    obtain ⟨a, ha, -, horder, hlive⟩ :=
      of_mem_settle hadded.attemptIds h.found.attemptRow h.active keepsPlace_confirm ha'
    exact ⟨a, ha, horder, hlive⟩

/-- From the insertion of the event on. -/
theorem recordEvent_outline {A : Database → Prop} {locks : List (Lock Row)} {eventId : Uuid}
    {reconciliationError : Option String}
    (ht : Track part (Credited ext agree sent) Commits L id A)
    (hfound : ∀ x, A x → Found attempt order x)
    (hactive : AttemptStatus.active attempt.status = true) (hsent : sent d)
    (hattemptId : event.paymentAttemptId = attempt.id)
    (hrecords : ∀ x, Found attempt order x → Records ext x event d payment)
    (hlock : ⟨.providerEvent event.provider event.providerEventId, .update⟩ ∈ locks) :
    Outline ext agree sent ((do
      Tx.insertRow .other eventTable locks
        (fun db => raise Orders.mapDatabaseError (eventViolation event db)) event
      match reconciliationError with
      | none =>
          applyOutcome attempt payment.outcome
          Tx.commit
          return ⟨.created, eventId⟩
      | some _ =>
          Tx.commit
          return ⟨.conflict, eventId⟩ : Handler Response) fun r => .ret (.ok r)) L id A := by
  refine safe_bind (ht.safe_insertRow fun db₂ A₂ _ _ hviolation h₂ => ?_)
  have hfirst := eventViolation_none (raise_none hviolation)
  have hreported (x : Database) (hx : A₂ x) : Reported ext sent attempt order event d payment x := by
    have hfoundx := hfound x (h₂.before x hx)
    refine ⟨hfoundx, hactive, hattemptId, ?_, hsent, hrecords x hfoundx⟩
    exact ((h₂.seen x hx).find eventLayout (i := eventKey event) (List.mem_append_right _ hlock) rfl).trans
      hfirst
  have ht₂ : Track part (Credited ext agree sent) Commits (L ++ locks) (eventTable.add event) A₂ :=
    h₂.track.add eventLayout (List.mem_append_right _ hlock)
  cases reconciliationError with
  | some error =>
    refine safe_bind (Lib.safe_commit (fun x hI hx => ?_) safe_ret)
    obtain ⟨hI', hcommits⟩ := (hreported x hx).reject hI
    exact ⟨hI', ht₂.framed x, hcommits⟩
  | none =>
    cases payment.outcome with
    | failed =>
      refine safe_bind (safe_bind (ht₂.safe_update fun db₃ A₃ _ _ _ h₃ => ?_))
      have ht₃ := h₃.track.modifyLocked attemptLayout (f := fail) keepsPlace_fail.id
        fun a => ⟨_, List.mem_cons_self, rfl, rfl⟩
      refine safe_bind (Lib.safe_commit (fun x hI hx => ?_) safe_ret)
      obtain ⟨hI', hcommits⟩ := (hreported x (h₃.before x hx)).failed hI
      exact ⟨hI', ht₃.framed x, hcommits⟩
    | confirmed =>
      refine safe_bind (safe_bind (ht₂.safe_update fun db₃ A₃ _ _ _ h₃ => ?_))
      have ht₃ := h₃.track.modifyLocked attemptLayout (f := confirm) keepsPlace_confirm.id
        fun a => ⟨_, List.mem_cons_self, rfl, rfl⟩
      refine safe_bind (ht₃.safe_update fun db₄ A₄ _ hA₄ hok h₄ => ?_)
      have ht₄ := h₄.track.modifyLocked orderLayout (f := ({ · with status := .paid })) (fun _ => rfl)
        fun o => ⟨_, List.mem_singleton.mpr rfl, rfl, rfl⟩
      -- the update of the order sees it as it was read
      have hview := (hreported db₄ (h₃.before db₄ hA₄)).found.orderRow
      refine safe_bind (Lib.safe_commit (fun x hI hx => ?_) safe_ret)
      obtain ⟨hI', hcommits⟩ := (hreported x (h₃.before x (h₄.before x hx))).confirmed hI hview
        fun hagree => hok hagree _ rfl order hview
      exact ⟨hI', ht₄.framed x, hcommits⟩

theorem recordPaymentEvent_outline (hsent : sent d) :
    Outline ext agree sent (d.request ext) [] id fun _ => True := by
  unfold Delivery.request Handler.request recordPaymentEvent
  refine safe_bind (safe_ofExcept fun payment hpayment => ?_)
  refine safe_bind (Track.start.safe_selectFor fun db₁ A₁ row _ _ hrow h₁ => ?_)
  refine safe_bind (safe_orElse fun pair hpair => ?_)
  obtain ⟨attempt, order⟩ := pair
  -- both rows are locked and stay as they were read
  have hboth : attemptWithOrder d.attemptId db₁ = some (attempt, order) := hrow.trans hpair
  obtain ⟨hattempt, horder⟩ := attemptWithOrder_eq hboth
  have hid : attempt.id = d.attemptId := (attemptTable.find_mem hattempt).2
  have hoid : order.id = attempt.orderId := (orderTable.find_mem horder).2
  have hlocks : attemptLocks d.attemptId db₁ =
      [⟨.attempt d.attemptId, .update⟩, ⟨.order attempt.orderId, .update⟩] := by
    rw [attemptLocks, hboth, ← hid, ← hoid]
    rfl
  have hfound (x : Database) (hx : A₁ x) : Found attempt order x := by
    have hseen := h₁.seen x hx
    rw [show attemptLocks d.attemptId (id db₁) = _ from hlocks] at hseen
    refine ⟨?_, (hseen.find orderLayout (m := .update) (by simp [orderTable]) rfl).trans horder⟩
    rw [hid]
    exact (hseen.find attemptLayout (m := .update) (by simp [attemptTable]) rfl).trans hattempt
  refine safe_bind (outline_requireEditor h₁.track ?_)
  refine safe_bind (safe_select h₁.track.stable fun _ existing _ _ _ => ?_)
  cases existing with
  | some existing =>
    refine safe_bind (safe_require fun _ => ?_)
    exact safe_bind (outline_nothing h₁.track safe_ret)
  | none =>
    refine safe_bind (safe_require fun hactive => ?_)
    refine recordEvent_outline h₁.track hfound hactive hsent ?_ (fun x hx => ?_) ?_
    · exact hid.symm
    · exact ⟨hpayment, rfl, rfl, ⟨attempt, hid ▸ hx.attemptRow, rfl⟩, rfl, rfl⟩
    · exact List.mem_cons_of_mem _ List.mem_cons_self

end Event

/-! ### Runs -/

/-- Orders, reservations, attempts and events. -/
def eventOperations : List Operation := sales ++ [.createPaymentAttempt, .recordPaymentEvent]

/-- The requests of these operations, where the deliveries are among those that are sent. -/
def Sends (ext : External) (sent : Delivery → Prop) (p : Prog Database Row Site Result) : Prop :=
  Requests ext (sales ++ [.createPaymentAttempt]) p ∨ ∃ d, sent d ∧ p = d.request ext

theorem outline {p : Prog Database Row Site Result} (h : Sends ext sent p) :
    Outline ext agree sent p [] id fun _ => True := by
  rcases h with h | ⟨d, hsent, rfl⟩
  · obtain ⟨operation, hmem, h⟩ := h
    rcases List.mem_append.mp hmem with hmem | hmem
    · exact sale_outline (confined_sale sells ⟨operation, hmem, h⟩)
    · cases h with
      | createPaymentAttempt actorUserId orderId body attemptId =>
          exact createPaymentAttempt_outline actorUserId orderId body attemptId
      | _ => simp at hmem
  · exact recordPaymentEvent_outline hsent

/-- The deliveries of a schedule. -/
def deliveredIn (ext : External) (actions : List (Action Database Row Site Result)) (d : Delivery) : Prop :=
  .spawn (d.request ext) ∈ actions

theorem sends_of_requests {p : Prog Database Row Site Result}
    {actions : List (Action Database Row Site Result)} (h : Requests ext eventOperations p)
    (hmem : .spawn p ∈ actions) : Sends ext (deliveredIn ext actions) p := by
  obtain ⟨operation, hop, h⟩ := h
  by_cases hevent : operation = .recordPaymentEvent
  · subst hevent
    cases h with
    | recordPaymentEvent actorUserId attemptId body eventId =>
        exact .inr ⟨⟨actorUserId, attemptId, body, eventId⟩, hmem, rfl⟩
  · refine .inl ⟨operation, ?_, h⟩
    simp only [eventOperations, List.mem_append, List.mem_cons, List.not_mem_nil, or_false] at hop ⊢
    rcases hop with hop | rfl | rfl
    · exact .inl hop
    · exact .inr rfl
    · exact absurd rfl hevent

/-- What a run starts is among its actions. -/
theorem run_sends {ok : Site → Database → Prop} {pool pool' : Pool Database Row Site Result}
    {actions : List (Action Database Row Site Result)}
    (hrun : Run (Pool.Step (Requests ext eventOperations) ok) pool actions pool') :
    Run (Pool.Step (Sends ext (deliveredIn ext actions)) ok) pool actions pool' := by
  refine (hrun.restrict (p := (· ∈ actions)) fun _ ha => ha).mono fun _ a _ hstep => ?_
  obtain ⟨⟨hadmits, hexec⟩, hmem⟩ := hstep
  refine ⟨?_, hexec⟩
  cases a with
  | spawn p => exact sends_of_requests hadmits hmem
  | step i => exact hadmits
  | kill i => trivial

/-- Nothing was paid yet; orders there may be. -/
structure NoPayments (db : Database) : Prop where
  attempts : db.attempts = []
  events : db.events = []

theorem NoPayments.credited {db : Database} (h : NoPayments db) : Credited ext agree sent db where
  attemptIds := by simp [h.attempts]
  keys := by simp [h.events]
  placed id a ha := by simp [attemptTable, Table.find, h.attempts] at ha
  alone a ha := by simp [h.attempts] at ha
  recorded e he := by simp [h.events] at he

theorem run_credited {ok : Site → Database → Prop} (hok : ∀ site db, ok site db → Condition agree site db)
    {db₀ : Database} (h₀ : NoPayments db₀) {pool : Pool Database Row Site Result}
    {actions : List (Action Database Row Site Result)}
    (hrun : Run (Pool.Step (Requests ext eventOperations) ok) (Pool.idle db₀) actions pool) :
    Healthy (Credited ext agree (deliveredIn ext actions)) (Forward part Commits) (Condition agree)
      pool :=
  run_healthy (fun _ => outline) ((run_sends hrun).mono fun _ _ _ h => h.mono (fun _ h => h) hok)
    (healthy_idle h₀.credited)

/-! ### Confirmed attempts -/

/-- Every confirmed attempt has a paid order. -/
def PaidUp (db : Database) : Prop :=
  ∀ a ∈ db.attempts, a.status = .confirmed →
    ∃ o, orderTable.find db a.orderId = some o ∧ o.status.Paid

/-- **Events and orders agree** in every run in which the events that confirm an attempt meet an
order that still awaits its payment. -/
theorem confirmed_attempts_paid {db₀ : Database} (h₀ : NoPayments db₀)
    {pool : Pool Database Row Site Result} {actions : List (Action Database Row Site Result)}
    (hrun : Run (Pool.Step (Requests ext eventOperations) EventsPay) (Pool.idle db₀) actions pool) :
    PaidUp pool.db := by
  have hpays (site : Site) (db : Database) : EventsPay site db → Condition True site db := fun h _ => h
  have hcredited := (run_credited hpays h₀ hrun).inv
  intro a ha hconfirmed
  have hfind := attemptTable.find_of_mem hcredited.attemptIds ha
  obtain ⟨o, ho, hsettles⟩ := hcredited.placed _ a hfind
  exact ⟨o, ho, (hsettles hconfirmed).2 trivial⟩

instance (site : Site) (db : Database) : Decidable (EventsPay site db) :=
  match site with
  | .eventOrder id =>
      decidable_of_iff ((orderTable.find db id).all fun o => o.status = .awaitingPayment || o.status.Paid)
        (by simp [EventsPay, Option.all_eq_true])
  | .sweepOrder _ | .releaseInventory .. | .holdings .. | .counting _ | .other =>
      isTrue (by simp [EventsPay])

/-- A provider reports that the payment of the seat arrived. -/
def paymentReport : RecordPaymentEventRequest where
  providerEventId := "e1"
  signatureVerified := true
  outcome := "confirmed"
  amountMinor := 1000000
  assetCode := "XLM"
  assetScale := 7
  assetIssuer := none
  payerAccount := none
  environment := "testnet"
  payload := .object []

def reportPayment : Delivery := ⟨3, 33, paymentReport, 60⟩

/-- A seat is reserved, an attempt is opened, and the event pays it. -/
def paidByEvent : List (Prog Database Row Site Result) :=
  [reserveSeat, openAttempt, reportPayment.request saleExternal]

/-- The same, but before the event arrives the hold runs out and another buyer comes. -/
def paidTooLate : List (Prog Database Row Site Result) :=
  [reserveSeat, openAttempt] ++ nextBuyer ++ [reportPayment.request saleExternal]

theorem paidTooLate_requests : ∀ p ∈ paidTooLate, Requests saleExternal eventOperations p := by
  simp only [paidTooLate, nextBuyer, List.forall_mem_append, List.forall_mem_cons]
  refine ⟨⟨⟨?_, ?_, ?_⟩, ?_, ?_, ?_⟩, ?_, ?_⟩
  · exact ⟨_, by decide, .createReservation 1 24 ⟨1, "k1"⟩ ⟨30, 31, 32⟩⟩
  · exact ⟨_, by decide, .createPaymentAttempt 3 30 ⟨"stellar", none, none⟩ 33⟩
  · exact fun p hp => by cases hp
  · exact ⟨_, by decide, .environment _ _⟩
  · exact ⟨_, by decide, .createReservation 2 24 ⟨1, "key2"⟩ ⟨40, 41, 42⟩⟩
  · exact fun p hp => by cases hp
  · exact ⟨_, by decide, .recordPaymentEvent 3 33 paymentReport 60⟩
  · exact fun p hp => by cases hp

theorem paidByEvent_requests : ∀ p ∈ paidByEvent, Requests saleExternal eventOperations p := by
  intro p hp
  refine paidTooLate_requests p ?_
  simp only [paidByEvent, paidTooLate, List.mem_cons, List.mem_append, List.not_mem_nil,
    or_false] at hp ⊢
  tauto

theorem shopDatabase_noPayments : NoPayments shopDatabase := ⟨rfl, rfl⟩

theorem paidByEvent_outcome : (Pool.serveAll EventsPay shopDatabase paidByEvent).any (fun sold =>
    sold.2.attempts.map (·.status) = [.confirmed] && sold.2.orders.map (·.status) = [.paid]) = true := by
  decide +kernel

/-- The attempt is confirmed, and its order is paid. -/
theorem paidByEvent_paid :
    ∃ (pool : Pool Database Row Site Result) (actions : List (Action Database Row Site Result)),
      Run (Pool.Step (Requests saleExternal eventOperations) EventsPay) (Pool.idle shopDatabase)
        actions pool ∧
      pool.db.attempts.map (·.status) = [.confirmed] ∧ PaidUp pool.db := by
  obtain ⟨sold, hsold, hall⟩ := (Option.any_eq_true _ _).mp paidByEvent_outcome
  simp only [Bool.and_eq_true, decide_eq_true_eq] at hall
  obtain ⟨actions, hrun⟩ := Pool.run_of_serveAll paidByEvent_requests hsold
  exact ⟨_, actions, hrun, hall.1, confirmed_attempts_paid shopDatabase_noPayments hrun⟩

theorem paidTooLate_outcome : (Pool.serveAll (fun _ _ => True) shopDatabase paidTooLate).any
    (fun sold => sold.1.getLast? = some (.ok ⟨.created, 60⟩) &&
      sold.2.attempts.map (fun a => (a.orderId, a.status)) = [(30, .confirmed)] &&
      sold.2.orders.map (fun o => (o.id, o.status)) = [(30, .expired), (40, .awaitingPayment)]) = true := by
  decide +kernel

/-- Without the condition, an event is applied to an order that has run out and stays so. -/
theorem confirmed_without_paid_order :
    ¬ ∀ (ext : External) (db₀ : Database), NoPayments db₀ →
      ∀ (pool : Pool Database Row Site Result) (actions : List (Action Database Row Site Result)),
        Run (Pool.Step (Requests ext eventOperations) fun _ _ => True) (Pool.idle db₀) actions pool →
        PaidUp pool.db := by
  intro h
  obtain ⟨sold, hsold, hall⟩ := (Option.any_eq_true _ _).mp paidTooLate_outcome
  simp only [Bool.and_eq_true, decide_eq_true_eq] at hall
  obtain ⟨⟨-, hattempts⟩, horders⟩ := hall
  obtain ⟨actions, hrun⟩ := Pool.run_of_serveAll paidTooLate_requests hsold
  have hmem : ((30, .confirmed) : Uuid × AttemptStatus) ∈
      sold.2.attempts.map fun a => (a.orderId, a.status) := by
    rw [hattempts]
    exact List.mem_cons_self
  obtain ⟨a, ha, hpair⟩ := List.mem_map.mp hmem
  obtain ⟨horder, hstatus⟩ := Prod.mk.inj hpair
  obtain ⟨o, ho, hpaid⟩ := h _ _ shopDatabase_noPayments _ _ hrun a ha hstatus
  obtain ⟨homem, hid⟩ := orderTable.find_mem ho
  have hin : (o.id, o.status) ∈ sold.2.orders.map fun o => (o.id, o.status) :=
    List.mem_map.mpr ⟨o, homem, rfl⟩
  rw [horders, show o.id = 30 from Eq.trans hid horder] at hin
  rcases List.mem_cons.mp hin with heq | hin
  · rw [(Prod.mk.inj heq).2] at hpaid
    exact absurd hpaid (by decide)
  · have := List.mem_singleton.mp hin
    exact absurd (Prod.mk.inj this).1 (by decide)

end CrownFi.Commerce.Credits
