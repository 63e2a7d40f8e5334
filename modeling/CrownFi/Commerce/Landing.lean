import CrownFi.Commerce.OpenIntents
import CrownFi.Commerce.Deliveries

/-!
# CrownFi.Commerce.Landing

**A payment that lands while its intent is open.** The hold of a reservation, the intent and the
transaction each have an end of their own, and nothing orders them: the sweep takes the order of a lapsed
hold although a signed payment for it is still good on the chain. Its evidence then meets an order that
awaits no payment any more, and is refused (`lapsed_hold_orphans_payment`). In a run whose sweeps
spare the orders with an open intent, a payment that lands is confirmed by its messages, wherever in the
run they come (`landed_payments_paid`).
-/

namespace CrownFi.Commerce.Landing

open Lib CrownFi.Api Orders Intents Reconciliation OpenIntents Deliveries

variable {ext : External} {pay : Payment} {observed : Observed} {x : ExpectedIntent} {db : Database}

/-- The intended payment, signed or submitted, is on the chain before the intent's own end. -/
structure Landed (ext : External) (pay : Payment) (observed : Observed) (x : ExpectedIntent)
    (db : Database) : Prop where
  found : expectedIntent pay.intentId db = some x
  sent : Signed x ∨ Submitted x
  agrees : Agrees ext pay observed x
  evidence : pay.evidence.validate db.directory.clock = .ok observed
  inTime : observed.closedAt ≤ x.intent.expiresAt

/-- A signed or submitted intent is open. -/
theorem Landed.open (h : Landed ext pay observed x db) : Open x.intent := by
  rcases h.sent with hsigned | hsubmitted
  · rw [Open, hsigned.1]
    rfl
  · rw [Open, hsubmitted.1]
    rfl

/-- **What an open intent awaits** is all that the confirmation of its payment asks for. -/
theorem Landed.reported (h : Landed ext pay observed x db) (hI : Awaited db)
    (horders : (db.orders.map (·.id)).Nodup) : Reported ext pay observed x db := by
  obtain ⟨hintent, -, hattempt, horder⟩ := expectedIntent_eq_some.mp h.found
  obtain ⟨⟨a, ha, -, hactive⟩, o, ho, hstatus⟩ := hI.awaits _ (intentTable.find_mem hintent).1 h.open
  obtain rfl := Option.some.inj (hattempt.symm.trans ha)
  obtain rfl := Option.some.inj (horder.symm.trans ho)
  refine ⟨⟨?_, h.agrees, rfl, h.evidence⟩, hactive, hstatus, h.sent⟩
  exact ⟨h.found, hI.intentIds, hI.transactionIds, hI.attemptIds, horders, rfl⟩

/-- The orders of a run keep different ids, whatever its sweeps do. -/
theorem run_orderIds {db₀ : Database} (h₀ : Initial db₀) {pool : Pool Database Row Site Result}
    {actions : List (Action Database Row Site Result)} {ok : Site → Database → Prop}
    (hrun : Run (Pool.Step (Requests ext landingOperations) ok) (Pool.idle db₀) actions pool) :
    (pool.db.orders.map (·.id)).Nodup := by
  have hrun' : Run (Pool.Step (Requests ext landingOperations) (Condition False False))
      (Pool.idle db₀) actions pool :=
    hrun.mono fun _ _ _ h => h.mono (fun _ h => h) fun _ _ _ => ⟨False.elim, False.elim⟩
  exact (run_healthy (fun _ => safe_request) hrun' (healthy_idle h₀.inv)).inv.orderIds

/-- **No payment is orphaned** in a run whose sweeps spare the orders with an open intent. In every state
that it reaches the order of an open intent awaits its payment, and the messages of a payment that
landed, delivered there, pay the order, unless the evidence comes before the receipt. -/
theorem landed_payments_paid {db₀ : Database} (h₀ : Initial db₀) (hattempts : db₀.attempts = [])
    (hintents : db₀.intents = []) (htransactions : db₀.transactions = [])
    {pool : Pool Database Row Site Result} {actions : List (Action Database Row Site Result)}
    (hrun : Run (Pool.Step (Requests ext landingOperations) SparesOpen) (Pool.idle db₀) actions pool) :
    (∀ i ∈ pool.db.intents, Open i →
      ∃ o, orderTable.find pool.db i.orderId = some o ∧ o.status = .awaitingPayment) ∧
    ∀ (pay : Payment) (observed : Observed) (x : ExpectedIntent),
      Landed ext pay observed x pool.db → ∀ ds : List Delivery,
        Complete pay observed x.intent.organizationId pool.db ds →
          (Paid pay.intentId (deliverAll ext pay pool.db ds) ↔
            Submitted x ∨ ds.head?.map (·.message) = some .receipt) := by
  have hawaited := run_awaited (awaited_of_empty hattempts hintents htransactions) hrun
  refine ⟨fun i hi hopen => (hawaited.awaits i hi hopen).order, ?_⟩
  intro pay observed x hlanded ds hds
  exact (hlanded.reported hawaited (run_orderIds h₀ hrun)).paid_iff hds

/-! ### A hold that lapses -/

instance (site : Site) (db : Database) : Decidable (SparesOpen site db) :=
  match site with
  | .sweepOrder id =>
      decidable_of_iff (∀ o ∈ db.orders, o.id = id → o.status = .awaitingPayment →
        ∀ i ∈ db.intents, i.orderId = id → ¬ Open i) (by simp [SparesOpen, NoneOf])
  | .eventOrder _ | .releaseInventory .. | .holdings .. | .counting _ | .other => isTrue (by simp [SparesOpen])

/-- The shop at the given time, before its first sale. -/
def shopAt (clock : Int) : Database := { shopDatabase with directory := shopDirectory clock }

def passTime (clock : Int) : Prog Database Row Site Result :=
  (environment (shopDirectory clock) shopCatalogue).request

/-- The seat is held until a minute after the intent is made, and the intent is good for five. -/
def signedLate : List (Prog Database Row Site Result) :=
  [reserveSeat, passTime 1800000000, openAttempt, openIntent, sendEnvelope]

/-- Forty seconds after the hold's end another buyer reserves a seat. -/
def sweptLate : List (Prog Database Row Site Result) :=
  [passTime 1800000100, (Ticketing.createReservation saleSha256 2 24 ⟨1, "key2"⟩ ⟨40, 41, 42⟩).request]

theorem passTime_request (clock : Int) : Requests saleExternal landingOperations (passTime clock) :=
  ⟨_, by decide, .environment _ _⟩

theorem signedLate_requests : ∀ p ∈ signedLate, Requests saleExternal landingOperations p := by
  have hsale (p : Prog Database Row Site Result) (hp : p ∈ sale) :
      Requests saleExternal landingOperations p := (sale_paid p hp).mono (by decide)
  simp only [signedLate, List.forall_mem_cons]
  refine ⟨hsale _ (by simp [sale]), passTime_request _, hsale _ (by simp [sale]), hsale _ (by simp [sale]),
    hsale _ (by simp [sale]), fun p hp => by cases hp⟩

theorem sweptLate_requests : ∀ p ∈ sweptLate, Requests saleExternal landingOperations p := by
  simp only [sweptLate, List.forall_mem_cons]
  exact ⟨passTime_request _, ⟨_, by decide, .createReservation 2 24 ⟨1, "key2"⟩ ⟨40, 41, 42⟩⟩,
    fun p hp => by cases hp⟩

/-- The sale's messages, the receipt first. -/
def lateDeliveries : List Delivery := saleDeliveries [.receipt, .evidence ⟨36, 37⟩]

/-- What the theorems below need of a state, as a test. -/
def landedTest (db : Database) (status : OrderStatus) : Bool :=
  decide (db.evidence = [] ∧ db.results = [] ∧ db.directory.clock ≤ seconds 1800000120 ∧
    db.directory.memberEditor 10 3 = true ∧
    salePayment.evidence.validate db.directory.clock = .ok saleObserved) &&
  (expectedIntent 34 db).any fun x =>
    decide (x.intent.organizationId = 10 ∧ x.intent.status = .signed ∧ x.transaction.status = .signed ∧
      x.order.status = status ∧ saleObserved.closedAt ≤ x.intent.expiresAt ∧
      salePayment.receipt.validate = .ok x.transaction.transactionHash ∧
      reconcile saleExternal.parseRfc3339 (submitted 0 x) saleObserved
        salePayment.evidence.rawTransaction salePayment.evidence.rawOperation = none)

theorem landed_of_test {status : OrderStatus} (h : landedTest db status = true) :
    ∃ x, Landed saleExternal salePayment saleObserved x db ∧
      Complete salePayment saleObserved x.intent.organizationId db lateDeliveries := by
  obtain ⟨hdb, hrows⟩ := Bool.and_eq_true_iff.mp h
  obtain ⟨x, hx, hsale⟩ := (Option.any_eq_true _ _).mp hrows
  obtain ⟨hevidence, hresults, hclock, heditor, hvalid⟩ := of_decide_eq_true hdb
  obtain ⟨horg, histatus, htstatus, -, htime, hreceipt, hnone⟩ := of_decide_eq_true hsale
  refine ⟨x, ⟨hx, .inl ⟨histatus, htstatus⟩, ⟨hreceipt, hnone⟩, hvalid, htime⟩, ?_⟩
  rw [horg]
  exact saleDeliveries_complete hevidence hresults hclock heditor (by simp)
    (show Message.evidence ⟨36, 37⟩ ∈ _ by simp)

theorem signedLate_outcome : (Pool.serveAll SparesOpen (shopAt 1799999160) signedLate).any (fun signed =>
    landedTest signed.2 .awaitingPayment &&
      (Pool.serveAll (fun _ _ => True) signed.2 sweptLate).any fun swept =>
        landedTest swept.2 .expired &&
          decide ((expectedIntent 34 (deliverAll saleExternal salePayment swept.2 lateDeliveries)).map
            (·.order.status) = some .expired)) = true := by
  rw [signedLate, sendEnvelope_eq]
  decide +kernel

/-- The sale up to the envelope, and the next buyer behind it. -/
theorem signedLate_runs : ∃ signed swept : Database,
    (∃ actions, Run (Pool.Step (Requests saleExternal landingOperations) SparesOpen)
      (Pool.idle (shopAt 1799999160)) actions (Pool.idle signed)) ∧
    landedTest signed .awaitingPayment = true ∧
    (∃ actions, Run (Pool.Step (Requests saleExternal landingOperations) fun _ _ => True)
      (Pool.idle signed) actions (Pool.idle swept)) ∧
    landedTest swept .expired = true ∧
    (expectedIntent 34 (deliverAll saleExternal salePayment swept lateDeliveries)).map
      (·.order.status) = some .expired := by
  obtain ⟨signed, hsigned, hall⟩ := (Option.any_eq_true _ _).mp signedLate_outcome
  obtain ⟨hlanded, hlater⟩ := Bool.and_eq_true_iff.mp hall
  obtain ⟨swept, hswept, hboth⟩ := (Option.any_eq_true _ _).mp hlater
  obtain ⟨hlate, horder⟩ := Bool.and_eq_true_iff.mp hboth
  exact ⟨signed.2, swept.2, Pool.run_of_serveAll signedLate_requests hsigned, hlanded,
    Pool.run_of_serveAll sweptLate_requests hswept, hlate, of_decide_eq_true horder⟩

/-- The signed payment of the late sale, delivered before the next buyer comes. -/
theorem signedLate_paid : ∃ (signed : Database) (x : ExpectedIntent),
    Landed saleExternal salePayment saleObserved x signed ∧
      Paid 34 (deliverAll saleExternal salePayment signed lateDeliveries) := by
  obtain ⟨signed, -, ⟨actions, hrun⟩, htest, -⟩ := signedLate_runs
  obtain ⟨x, hlanded, hcomplete⟩ := landed_of_test htest
  have hpaid := (landed_payments_paid (show Initial (shopAt 1799999160) from ⟨rfl, rfl⟩) rfl rfl rfl hrun).2
    salePayment saleObserved x hlanded lateDeliveries hcomplete
  exact ⟨signed, x, hlanded, hpaid.mpr (.inr rfl)⟩

/-- **The sweep orphans a payment**: it expires the order between the signature and the evidence, and the
evidence of a payment made in time, after its receipt, leaves the order expired. -/
theorem lapsed_hold_orphans_payment :
    ¬ ∀ (ext : External) (db₀ : Database), Initial db₀ → db₀.attempts = [] → db₀.intents = [] →
      db₀.transactions = [] →
      ∀ (pool : Pool Database Row Site Result) (actions : List (Action Database Row Site Result)),
        Run (Pool.Step (Requests ext landingOperations) fun _ _ => True) (Pool.idle db₀) actions pool →
        ∀ (pay : Payment) (observed : Observed) (x : ExpectedIntent), Landed ext pay observed x pool.db →
          ∀ ds : List Delivery, Complete pay observed x.intent.organizationId pool.db ds →
            ds.head?.map (·.message) = some .receipt →
            Paid pay.intentId (deliverAll ext pay pool.db ds) := by
  intro hall
  obtain ⟨signed, swept, ⟨actions, hrun⟩, -, ⟨actions', hrun'⟩, htest, hexpired⟩ := signedLate_runs
  obtain ⟨x, hlanded, hcomplete⟩ := landed_of_test htest
  have hfirst : Run (Pool.Step (Requests saleExternal landingOperations) fun _ _ => True)
      (Pool.idle (shopAt 1799999160)) actions (Pool.idle signed) :=
    hrun.mono fun _ _ _ h => h.mono (fun _ h => h) fun _ _ _ => trivial
  obtain ⟨y, hy, -, hpaid⟩ := hall saleExternal (shopAt 1799999160) ⟨rfl, rfl⟩ rfl rfl rfl _ _
    (hfirst.append hrun') salePayment saleObserved x hlanded lateDeliveries hcomplete rfl
  have hstatus : some y.order.status = some .expired := by
    rw [← hexpired]
    exact (congrArg (Option.map (·.order.status)) hy).symm
  rw [hpaid] at hstatus
  cases hstatus

end CrownFi.Commerce.Landing
