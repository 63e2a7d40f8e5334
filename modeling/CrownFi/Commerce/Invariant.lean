import CrownFi.Commerce.Requests
import CrownFi.Lib.Tracking

/-!
# CrownFi.Commerce.Invariant

**What holds of orders, reservations and intents in every interleaving of requests.**

An order's status moves only forward (`OrderStatus.Leads`): a paid order stays paid or
is fulfilled, an order that failed or expired stays so. Two facts hang on conditions
that the code does not enforce, and the invariant carries them as parameters: a
reservation that was released belongs to a dead order if the sweep spares paid orders
(`held`), and a paid order has evidence if no provider event pays it (`evidenced`).
-/

namespace CrownFi.Commerce

open Lib CrownFi.Api

/-! ### Statuses -/

namespace OrderStatus

/-- Where the status of an order can still go. -/
def Leads (s t : OrderStatus) : Prop :=
  s = t ∨ s = .awaitingPayment ∨ (s = .paid ∧ (t = .fulfilling ∨ t = .fulfilled)) ∨
    (s = .fulfilling ∧ t = .fulfilled)

instance (s t : OrderStatus) : Decidable (s.Leads t) :=
  inferInstanceAs (Decidable (_ ∨ _))

/-- Paid, or further on. -/
def Paid (s : OrderStatus) : Prop := s = .paid ∨ s = .fulfilling ∨ s = .fulfilled

instance (s : OrderStatus) : Decidable s.Paid := inferInstanceAs (Decidable (_ ∨ _))

/-- Neither paid nor payable. -/
def Dead (s : OrderStatus) : Prop := ¬ s.Paid ∧ s ≠ .awaitingPayment

instance (s : OrderStatus) : Decidable s.Dead := inferInstanceAs (Decidable (_ ∧ _))

theorem Leads.refl (s : OrderStatus) : s.Leads s := .inl rfl

theorem Leads.trans {s t u : OrderStatus} (h : s.Leads t) (h' : t.Leads u) : s.Leads u := by
  revert h h'
  cases s <;> cases t <;> cases u <;> decide

theorem Dead.leads {s t : OrderStatus} (h : s.Dead) (hst : s.Leads t) : t = s := by
  revert h hst
  cases s <;> cases t <;> decide

theorem Paid.leads {s t : OrderStatus} (h : s.Paid) (hst : s.Leads t) : t.Paid := by
  revert h hst
  cases s <;> cases t <;> decide

end OrderStatus

/-- The hold was given up. -/
def ReservationStatus.Released (s : ReservationStatus) : Prop :=
  s = .released ∨ s = .expired ∨ s = .cancelled

/-- A reservation and its order go together. -/
structure Fits (held : Prop) (reservation : ReservationStatus) (order : OrderStatus) : Prop where
  converted : reservation = .converted → order = .fulfilling ∨ order = .fulfilled
  released : held → reservation.Released → order.Dead

theorem Fits.leads {held : Prop} {r : ReservationStatus} {s t : OrderStatus} (h : Fits held r s)
    (hst : s.Leads t) : Fits held r t where
  converted hr := by
    have hs := h.converted hr
    revert hs hst
    cases s <;> cases t <;> decide
  released hheld hr := by
    have hs := h.released hheld hr
    rwa [hs.leads hst]

theorem fits_reserved {held : Prop} {s : OrderStatus} : Fits held .reserved s where
  converted h := by cases h
  released _ h := by rcases h with h | h | h <;> cases h

/-! ### The invariant -/

/-- An intent of the order is confirmed, by an accepted result. -/
def Evidenced (db : Database) (orderId : Uuid) : Prop :=
  ∃ id i, intentTable.find db id = some i ∧ i.orderId = orderId ∧ i.status = .confirmed ∧
    ∃ r ∈ db.results, r.transactionIntentId = id ∧ r.status = .accepted

structure Inv (held evidenced : Prop) (db : Database) : Prop where
  orderIds : (db.orders.map (·.id)).Nodup
  reservationIds : (db.reservations.map (·.id)).Nodup
  fits : ∀ id r, reservationTable.find db id = some r →
    ∃ o, orderTable.find db r.orderId = some o ∧ Fits held r.status o.status
  evidence : evidenced → ∀ id o, orderTable.find db id = some o → o.status.Paid → Evidenced db id

/-- **What every commit does**: orders move forward, what is confirmed or recorded stays. -/
structure Progress (db db' : Database) : Prop where
  orders : ∀ id o, orderTable.find db id = some o →
    ∃ o', orderTable.find db' id = some o' ∧ o.status.Leads o'.status
  intents : ∀ id i, intentTable.find db id = some i → i.status = .confirmed →
    intentTable.find db' id = some i
  results : ∀ r ∈ db.results, r ∈ db'.results

instance : IsPreorder Database Progress where
  refl db := ⟨fun _ o h => ⟨o, h, .refl _⟩, fun _ _ h _ => h, fun _ h => h⟩
  trans a b c h h' := by
    refine ⟨fun id o ho => ?_, fun id i hi hs => ?_, fun r hr => ?_⟩
    · obtain ⟨o', ho', hlead⟩ := h.orders id o ho
      obtain ⟨o'', ho'', hlead'⟩ := h'.orders id o' ho'
      exact ⟨o'', ho'', hlead.trans hlead'⟩
    · exact h'.intents id i (h.intents id i hi hs) hs
    · exact h'.results r (h.results r hr)

theorem Evidenced.progress {db db' : Database} {orderId : Uuid} (h : Evidenced db orderId)
    (hprog : Progress db db') : Evidenced db' orderId := by
  obtain ⟨id, i, hi, horder, hstatus, r, hr, hres⟩ := h
  exact ⟨id, i, hprog.intents id i hi hstatus, horder, hstatus, r, hprog.results r hr, hres⟩

/-! ### What locks protect -/

/-- The rows that the invariant speaks of and locks protect. -/
inductive Part
  | order (o : Option Order)
  | reservation (r : Option Reservation)
  | intent (i : Option TransactionIntent)
  | other

def part (db : Database) : Row → Part
  | .order id => .order (orderTable.find db id)
  | .reservation id => .reservation (reservationTable.find db id)
  | .intent id => .intent (intentTable.find db id)
  | _ => .other

theorem orderLayout : Layout part orderTable Part.order where
  row _ _ := rfl
  injective _ _ h := Part.order.inj h
  other db l k hk := by
    cases k with
    | order id => exact absurd rfl (hk id)
    | _ => rfl

theorem reservationLayout : Layout part reservationTable Part.reservation where
  row _ _ := rfl
  injective _ _ h := Part.reservation.inj h
  other db l k hk := by
    cases k with
    | reservation id => exact absurd rfl (hk id)
    | _ => rfl

theorem intentLayout : Layout part intentTable Part.intent where
  row _ _ := rfl
  injective _ _ h := Part.intent.inj h
  other db l k hk := by
    cases k with
    | intent id => exact absurd rfl (hk id)
    | _ => rfl

variable {held evidenced : Prop}

/-- A change that leaves orders, reservations, intents and results as they are. -/
theorem Inv.of_same {db db' : Database} (h : Inv held evidenced db) (ho : db'.orders = db.orders)
    (hr : db'.reservations = db.reservations) (hi : db'.intents = db.intents)
    (hs : db'.results = db.results) : Inv held evidenced db' ∧ Progress db db' := by
  have hof : ∀ id, orderTable.find db' id = orderTable.find db id := fun id => by
    show db'.orders.find? _ = db.orders.find? _
    rw [ho]
  have hrf : ∀ id, reservationTable.find db' id = reservationTable.find db id := fun id => by
    show db'.reservations.find? _ = db.reservations.find? _
    rw [hr]
  have hif : ∀ id, intentTable.find db' id = intentTable.find db id := fun id => by
    show db'.intents.find? _ = db.intents.find? _
    rw [hi]
  have hprog : Progress db db' :=
    { orders := fun id o h => ⟨o, (hof id).trans h, .refl _⟩
      intents := fun id i h _ => (hif id).trans h
      results := fun r h => by rwa [hs] }
  refine ⟨⟨by rw [ho]; exact h.orderIds, by rw [hr]; exact h.reservationIds, ?_, ?_⟩, hprog⟩
  · intro id r hfind
    rw [hrf] at hfind
    rw [hof]
    exact h.fits id r hfind
  · intro hev id o hfind hpaid
    rw [hof] at hfind
    exact (h.evidence hev id o hfind hpaid).progress hprog

/-! ### What the changes of the tables preserve -/

/-- The invariant after a change: what is new about reservations and paid orders is all
that is left to show. -/
theorem Inv.step {db db' : Database} (h : Inv held evidenced db)
    (horders : (db'.orders.map (·.id)).Nodup) (hreservations : (db'.reservations.map (·.id)).Nodup)
    (hprog : Progress db db')
    (hfits : ∀ id r', reservationTable.find db' id = some r' →
      (∃ r, reservationTable.find db id = some r ∧ r.orderId = r'.orderId ∧ r.status = r'.status) ∨
        ∃ o, orderTable.find db' r'.orderId = some o ∧ Fits held r'.status o.status)
    (hpaid : evidenced → ∀ id o', orderTable.find db' id = some o' → o'.status.Paid →
      (∃ o, orderTable.find db id = some o ∧ o.status.Paid) ∨ Evidenced db' id) :
    Inv held evidenced db' where
  orderIds := horders
  reservationIds := hreservations
  fits id r' hr' := by
    cases hfits id r' hr' with
    | inl hold =>
        obtain ⟨r, hr, horder, hstatus⟩ := hold
        obtain ⟨o, ho, hfit⟩ := h.fits id r hr
        obtain ⟨o', ho', hlead⟩ := hprog.orders _ o ho
        exact ⟨o', horder ▸ ho', hstatus ▸ hfit.leads hlead⟩
    | inr hnew => exact hnew
  evidence hev id o' ho' hp := by
    cases hpaid hev id o' ho' hp with
    | inl hold =>
        obtain ⟨o, ho, hpaid⟩ := hold
        exact (h.evidence hev id o ho hpaid).progress hprog
    | inr hnew => exact hnew

/-- The change of an `UPDATE orders SET status = ..`. -/
abbrev setOrders (p : Order → Bool) (target : OrderStatus) (view db : Database) : Database :=
  orderTable.modify p ({ · with status := target }) view db

theorem find_setOrders {p : Order → Bool} {target : OrderStatus} {view db : Database} (id : Uuid) :
    orderTable.find (setOrders p target view db) id = (orderTable.find db id).map fun o =>
      if (p o && decide (o.id ∈ (orderTable.matching p view).map (·.id))) = true then
        { o with status := target } else o :=
  orderTable.find_modify (f := ({ · with status := target })) (fun _ => rfl) id

/-- An order after such a change. -/
theorem of_find_setOrders {p : Order → Bool} {target : OrderStatus} {view db : Database} {id : Uuid}
    {o' : Order} (h : orderTable.find (setOrders p target view db) id = some o') :
    orderTable.find db id = some o' ∨
      ∃ o, orderTable.find db id = some o ∧ p o = true ∧
        o.id ∈ (orderTable.matching p view).map (·.id) ∧ o' = { o with status := target } := by
  rw [find_setOrders] at h
  obtain ⟨o, ho, rfl⟩ := Option.map_eq_some_iff.mp h
  split
  · rename_i hcond
    obtain ⟨hp, hmem⟩ := Bool.and_eq_true_iff.mp hcond
    exact .inr ⟨o, ho, hp, of_decide_eq_true hmem, rfl⟩
  · exact .inl ho

theorem Progress.moveOrders {p : Order → Bool} {s t : OrderStatus} {view db : Database}
    (hp : ∀ o, p o = true → o.status = s) (hlead : s.Leads t) :
    Progress db (setOrders p t view db) where
  orders id o ho := by
    rw [find_setOrders, ho, Option.map_some]
    refine ⟨_, rfl, ?_⟩
    split
    · rename_i hcond
      rw [hp o (Bool.and_eq_true_iff.mp hcond).1]
      exact hlead
    · exact .refl _
  intents _ _ h _ := h
  results _ h := h

theorem Inv.moveOrders {p : Order → Bool} {s t : OrderStatus} {view db : Database}
    (h : Inv held evidenced db) (hp : ∀ o, p o = true → o.status = s)
    (hlead : s.Leads t)
    (hev : evidenced → t.Paid → ¬ s.Paid →
      ∀ o ∈ orderTable.matching p view, Evidenced db o.id) :
    Inv held evidenced (setOrders p t view db) ∧ Progress db (setOrders p t view db) := by
  have hprog : Progress db (setOrders p t view db) := .moveOrders hp hlead
  refine ⟨h.step ?_ h.reservationIds hprog (fun id r' hr' => .inl ⟨r', hr', rfl, rfl⟩) ?_, hprog⟩
  · have hids : (setOrders p t view db).orders.map (·.id) = db.orders.map (·.id) :=
      orderTable.keys_modify fun _ => rfl
    exact hids ▸ h.orderIds
  · intro hevid id o' ho' hpaid
    cases of_find_setOrders ho' with
    | inl hold => exact .inl ⟨o', hold, hpaid⟩
    | inr hnew =>
        obtain ⟨o, ho, hpo, hmem, rfl⟩ := hnew
        by_cases hsource : s.Paid
        · exact .inl ⟨o, ho, by rwa [hp o hpo]⟩
        · obtain ⟨v, hv, hvid⟩ := List.mem_map.mp hmem
          have hid : o.id = id := (orderTable.find_mem ho).2
          have := hev hevid hpaid hsource v hv
          rw [hvid, hid] at this
          exact .inr (this.progress hprog)

theorem Inv.addOrder {o : Order} {db : Database} (h : Inv held evidenced db)
    (hnew : orderTable.find db o.id = none) (hstatus : o.status = .awaitingPayment) :
    Inv held evidenced (orderTable.add o db) ∧ Progress db (orderTable.add o db) := by
  have hprog : Progress db (orderTable.add o db) :=
    { orders := fun id o' ho' => ⟨o', orderTable.find_add_of_some ho', .refl _⟩
      intents := fun _ _ hi _ => hi
      results := fun _ hr => hr }
  refine ⟨h.step ?_ h.reservationIds hprog (fun id r' hr' => .inl ⟨r', hr', rfl, rfl⟩) ?_, hprog⟩
  · exact orderTable.nodup_add h.orderIds (orderTable.find_none hnew)
  · intro _ id o' ho' hpaid
    rw [orderTable.find_add] at ho'
    cases hold : orderTable.find db id with
    | some o'' =>
        rw [hold, Option.some_or] at ho'
        obtain rfl := Option.some.inj ho'
        exact .inl ⟨_, rfl, hpaid⟩
    | none =>
        rw [hold, Option.none_or] at ho'
        split at ho'
        · obtain rfl := Option.some.inj ho'
          rw [hstatus] at hpaid
          exact absurd hpaid (by decide)
        · cases ho'

theorem Inv.addReservation {r : Reservation} {db : Database} (h : Inv held evidenced db)
    (hnew : reservationTable.find db r.id = none) (hstatus : r.status = .reserved)
    (horder : ∃ o, orderTable.find db r.orderId = some o) :
    Inv held evidenced (reservationTable.add r db) ∧ Progress db (reservationTable.add r db) := by
  have hprog : Progress db (reservationTable.add r db) :=
    { orders := fun id o' ho' => ⟨o', ho', .refl _⟩
      intents := fun _ _ hi _ => hi
      results := fun _ hr => hr }
  refine ⟨h.step h.orderIds ?_ hprog ?_ (fun _ id o' ho' hpaid => .inl ⟨o', ho', hpaid⟩), hprog⟩
  · exact reservationTable.nodup_add h.reservationIds (reservationTable.find_none hnew)
  · intro id r' hr'
    rw [reservationTable.find_add] at hr'
    cases hold : reservationTable.find db id with
    | some r'' =>
        rw [hold, Option.some_or] at hr'
        obtain rfl := Option.some.inj hr'
        exact .inl ⟨_, rfl, rfl, rfl⟩
    | none =>
        rw [hold, Option.none_or] at hr'
        split at hr'
        · obtain rfl := Option.some.inj hr'
          obtain ⟨o, ho⟩ := horder
          exact .inr ⟨o, ho, hstatus ▸ fits_reserved⟩
        · cases hr'

/-- A change of orders and reservations alone, of intents and results nothing. -/
theorem Inv.changeIntents {db db' : Database} (h : Inv held evidenced db) (ho : db'.orders = db.orders)
    (hr : db'.reservations = db.reservations) (hprog : Progress db db') : Inv held evidenced db' := by
  have hof : ∀ id, orderTable.find db' id = orderTable.find db id := fun id => by
    show db'.orders.find? _ = db.orders.find? _
    rw [ho]
  have hrf : ∀ id, reservationTable.find db' id = reservationTable.find db id := fun id => by
    show db'.reservations.find? _ = db.reservations.find? _
    rw [hr]
  refine h.step (ho ▸ h.orderIds) (hr ▸ h.reservationIds) hprog ?_ ?_
  · exact fun id r' hr' => .inl ⟨r', (hrf id) ▸ hr', rfl, rfl⟩
  · exact fun _ id o' ho' hpaid => .inl ⟨o', (hof id) ▸ ho', hpaid⟩

theorem Inv.addIntent {i : TransactionIntent} {db : Database} (h : Inv held evidenced db) :
    Inv held evidenced (intentTable.add i db) ∧ Progress db (intentTable.add i db) := by
  have hprog : Progress db (intentTable.add i db) :=
    { orders := fun id o ho => ⟨o, ho, .refl _⟩
      intents := fun _ _ hi _ => intentTable.find_add_of_some hi
      results := fun _ hr => hr }
  exact ⟨h.changeIntents rfl rfl hprog, hprog⟩

/-- An update of intents none of which is confirmed. -/
theorem Inv.modifyIntents {p : TransactionIntent → Bool} {f : TransactionIntent → TransactionIntent}
    {view db : Database} (h : Inv held evidenced db) (hf : ∀ i, (f i).id = i.id)
    (hp : ∀ id i, intentTable.find db id = some i → p i = true → i.status ≠ .confirmed) :
    Inv held evidenced (intentTable.modify p f view db) ∧
      Progress db (intentTable.modify p f view db) := by
  have hprog : Progress db (intentTable.modify p f view db) :=
    { orders := fun id o ho => ⟨o, ho, .refl _⟩
      intents := fun id i hi hstatus => by
        rw [intentTable.find_modify hf, hi, Option.map_some, if_neg]
        intro hcond
        exact hp id i hi (Bool.and_eq_true_iff.mp hcond).1 hstatus
      results := fun _ hr => hr }
  exact ⟨h.changeIntents rfl rfl hprog, hprog⟩

theorem Inv.addResult {r : ReconciliationResult} {db : Database} (h : Inv held evidenced db) :
    Inv held evidenced (resultTable.add r db) ∧ Progress db (resultTable.add r db) := by
  have hprog : Progress db (resultTable.add r db) :=
    { orders := fun id o ho => ⟨o, ho, .refl _⟩
      intents := fun _ _ hi _ => hi
      results := fun _ hr => List.mem_append_left _ hr }
  exact ⟨h.changeIntents rfl rfl hprog, hprog⟩

/-- The change of an `UPDATE ticket_reservations SET status = ..`. -/
abbrev setReservations (p : Reservation → Bool) (status : ReservationStatus) (view db : Database) :
    Database :=
  reservationTable.modify p ({ · with status }) view db

theorem of_find_setReservations {p : Reservation → Bool} {status : ReservationStatus}
    {view db : Database} {id : Uuid} {r' : Reservation}
    (h : reservationTable.find (setReservations p status view db) id = some r') :
    reservationTable.find db id = some r' ∨
      ∃ r, reservationTable.find db id = some r ∧ p r = true ∧ r' = { r with status } := by
  rw [reservationTable.find_modify (f := ({ · with status })) fun _ => rfl] at h
  obtain ⟨r, hr, rfl⟩ := Option.map_eq_some_iff.mp h
  split
  · rename_i hcond
    exact .inr ⟨r, hr, (Bool.and_eq_true_iff.mp hcond).1, rfl⟩
  · exact .inl hr

/-- **A reservation and its order change together**: in between they need not fit. -/
theorem Inv.moveBoth {p : Reservation → Bool} {q : Order → Bool} {status : ReservationStatus}
    {s t : OrderStatus} {view view' db : Database} (h : Inv held evidenced db)
    (hq : ∀ o, q o = true → o.status = s) (hlead : s.Leads t)
    (hpaid : t.Paid → s.Paid)
    (hfits : ∀ id r, reservationTable.find db id = some r → p r = true →
      ∃ o, orderTable.find (setOrders q t view' db) r.orderId = some o ∧
        Fits held status o.status) :
    Inv held evidenced (setOrders q t view' (setReservations p status view db)) ∧
      Progress db (setOrders q t view' (setReservations p status view db)) := by
  have hfind : ∀ id, orderTable.find (setOrders q t view' (setReservations p status view db)) id =
      orderTable.find (setOrders q t view' db) id := fun id => rfl
  have hboth : Inv held evidenced (setOrders q t view' db) ∧ Progress db (setOrders q t view' db) :=
    h.moveOrders hq hlead fun _ htarget hsource => absurd (hpaid htarget) hsource
  obtain ⟨hinv, hmoved⟩ := hboth
  have hprog : Progress db (setOrders q t view' (setReservations p status view db)) :=
    ⟨hmoved.orders, hmoved.intents, hmoved.results⟩
  refine ⟨h.step hinv.orderIds ?_ hprog ?_ ?_, hprog⟩
  · have hids : (setReservations p status view db).reservations.map (·.id) =
        db.reservations.map (·.id) := reservationTable.keys_modify fun _ => rfl
    exact hids ▸ h.reservationIds
  · intro id r' hr'
    cases of_find_setReservations hr' with
    | inl hold => exact .inl ⟨r', hold, rfl, rfl⟩
    | inr hnew =>
        obtain ⟨r, hr, hpr, rfl⟩ := hnew
        exact .inr (hfits id r hr hpr)
  · intro hev id o' ho' hp
    exact .inr ((hinv.evidence hev id o' ho' hp).progress ⟨fun _ o ho => ⟨o, ho, .refl _⟩,
      fun _ _ hi _ => hi, fun _ hr => hr⟩)

end CrownFi.Commerce
