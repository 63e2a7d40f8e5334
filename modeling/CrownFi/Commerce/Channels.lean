import CrownFi.Commerce.Admission

/-!
# CrownFi.Commerce.Channels

**A ticket product that is sold through two channels.** `create_reservation` admits a buyer against
`per_user_limit`, the sale window and the status of the event. `create_order` sells the same product and
knows nothing of this: it looks at the catalogue and the stock only, and what it sells is not counted by
`create_reservation` either. As long as nothing of the product goes through `create_order`, the rules of
the sale are kept: each order of the product has its reservation, and what a buyer's live orders come to
is what the buyer is counted to hold (`Booked`).
-/

namespace CrownFi.Commerce.Channels

open Lib CrownFi.Api Ticketing Orders Stock

/-! ### Visits -/

/-- A call on one of the channels. -/
inductive SaleCall
  | order (actorUserId organizationId : Uuid) (body : CreateOrderRequest) (orderId itemId : Uuid)
  | reservation (buyerUserId ticketProductId : Uuid) (body : CreateReservationRequest) (ids : ReservationIds)

def SaleCall.request (sha256 : Sha256) : SaleCall → Prog Database Row Site Result
  | .order actorUserId organizationId body orderId itemId =>
      (createOrder sha256 actorUserId organizationId body orderId itemId).request
  | .reservation buyerUserId ticketProductId body ids =>
      (createReservation sha256 buyerUserId ticketProductId body ids).request

/-- A call, with the people, the catalogue and the time that it finds. -/
structure Visit where
  directory : Directory
  catalogue : Catalogue
  call : SaleCall

def Visit.finds (v : Visit) (db : Database) : Database :=
  { db with directory := v.directory, catalogue := v.catalogue }

def Visit.answer (sha256 : Sha256) (v : Visit) (db : Database) : Result :=
  (v.call.request sha256).result (v.finds db)

def Visit.after (sha256 : Sha256) (v : Visit) (db : Database) : Database :=
  (v.call.request sha256).leaves (v.finds db) (v.finds db)

/-- The call is for the ticket product. -/
def SaleCall.Sells (tp : TicketProduct) : SaleCall → Prop
  | .order _ _ body _ _ => body.productId = tp.productId
  | .reservation _ ticketProductId _ _ => ticketProductId = tp.id

/-- The catalogue keeps offering the ticket product as it is, and prices are positive. -/
structure Visit.Keeps (tp : TicketProduct) (v : Visit) : Prop where
  offered : Offered tp v.catalogue
  prices : ∀ pp ∈ v.catalogue.prices, 0 < pp.amountMinor

/-- One visit after the other. -/
def Visit.Step (sha256 : Sha256) (tp : TicketProduct) (db : Database) (v : Visit) (db' : Database) : Prop :=
  v.Keeps tp ∧ db' = v.after sha256 db

/-! ### The rules of the sale -/

def OrderStatus.Live (s : OrderStatus) : Prop := s = .awaitingPayment ∨ s.Paid

instance (s : OrderStatus) : Decidable (OrderStatus.Live s) := inferInstanceAs (Decidable (_ ∨ _))

/-- What the live orders of a buyer come to, of a product. -/
def liveQuantity (productId buyerUserId : Uuid) (db : Database) : Int :=
  ((db.orderItems.filter fun i => i.productId = productId && db.orders.any fun o =>
    o.id = i.orderId && o.buyerUserId = buyerUserId && decide (OrderStatus.Live o.status)).map
      (·.quantity)).sum

/-- The event is on sale, and it is the time of the sale. -/
structure Opened (tp : TicketProduct) (db : Database) : Prop where
  event : ∃ te, db.catalogue.ticketEvents.find? (·.id = tp.ticketEventId) = some te ∧ te.status = .onSale
  window : tp.saleStartsAt ≤ db.directory.clock ∧ db.directory.clock < tp.saleEndsAt

/-- No buyer has more than the limit. -/
def Limited (tp : TicketProduct) (db : Database) : Prop :=
  ∀ buyerUserId, liveQuantity tp.productId buyerUserId db ≤ tp.perUserLimit

/-- A visit that makes an order of the product finds the sale open. -/
def Timely (sha256 : Sha256) (tp : TicketProduct) (v : Visit) (db : Database) : Prop :=
  ∀ id, v.answer sha256 db = .ok ⟨.created, id⟩ → v.call.Sells tp → Opened tp (v.finds db)

/-! ### Orders behind reservations -/

/-- A reservation and its order, as long as nothing is paid. -/
structure Backed (db : Database) (r : Reservation) : Prop where
  status : r.status = .reserved ∨ r.status = .expired
  order : ∃ o ∈ db.orders, o.id = r.orderId
  orders : ∀ o ∈ db.orders, o.id = r.orderId →
    o.buyerUserId = r.buyerUserId ∧ (o.status = .awaitingPayment ∧ r.status = .reserved ∨ o.status = .expired)

/-- **Everything sold of the product is reserved**: each item has its reservation, of the same quantity. -/
structure Booked (tp : TicketProduct) (db : Database) : Prop where
  stocked : Stocked tp db
  sound : Buyers.Sound db
  backed : ∀ r ∈ db.reservations, r.ticketProductId = tp.id → Backed db r
  paired : ∀ i ∈ db.orderItems, i.productId = tp.productId →
    ∃ r ∈ db.reservations, r.ticketProductId = tp.id ∧ r.orderId = i.orderId ∧ r.quantity = i.quantity
  separate : ((db.orderItems.filter (·.productId = tp.productId)).map (·.orderId)).Nodup

variable {tp : TicketProduct} {db db' : Database} {sha256 : Sha256} {v : Visit}

/-- What is live is held. -/
theorem Booked.live_le (h : Booked tp db) (buyerUserId : Uuid) :
    liveQuantity tp.productId buyerUserId db ≤ existingQuantity tp.id buyerUserId db := by
  rw [existingQuantity_eq]
  rw [liveQuantity, ← total]
  refine total_le_of_paired (·.orderId) (·.orderId) ?_ (fun i hi => ?_) fun r hr => ?_
  · refine h.separate.sublist (List.Sublist.map _ ?_)
    refine List.monotone_filter_right _ fun i hi => ?_
    exact (Bool.and_eq_true_iff.mp hi).1
  · obtain ⟨hmem, hlive⟩ := List.mem_filter.mp hi
    obtain ⟨hproduct, hany⟩ := Bool.and_eq_true_iff.mp hlive
    obtain ⟨o, ho, horder⟩ := List.any_eq_true.mp hany
    simp only [Bool.and_eq_true, decide_eq_true_eq] at horder
    obtain ⟨⟨hid, hbuyer⟩, hstatus⟩ := horder
    obtain ⟨r, hr, htp, hsame, hquantity⟩ := h.paired i hmem (of_decide_eq_true hproduct)
    obtain ⟨hown, hstatuses⟩ := (h.backed r hr htp).orders o ho (hid.trans hsame.symm)
    rcases hstatuses with ⟨-, hreserved⟩ | hexpired
    · refine ⟨r, hr, hsame, ?_⟩
      rw [heldIn_of_live (.inl hreserved), if_pos ⟨htp, hown.symm.trans hbuyer⟩, hquantity]
    · rw [hexpired] at hstatus
      exact absurd hstatus (by decide)
  · exact heldIn_nonneg (h.sound.quantities r hr)

theorem Booked.limited (h : Booked tp db) : Limited tp db :=
  fun buyerUserId => (h.live_le buyerUserId).trans (h.stocked.holdings buyerUserId)

/-- What a visit finds is booked as before. -/
theorem Booked.finds (h : Booked tp db) (hkeeps : v.Keeps tp) : Booked tp (v.finds db) where
  stocked := (⟨fun _ => hkeeps.offered, rfl, rfl, rfl⟩ : Beside tp db (v.finds db)).stocked h.stocked
  sound := ⟨h.sound.reservationIds, h.sound.productIds, h.sound.counters, h.sound.quantities, hkeeps.prices⟩
  backed r hr htp := ⟨(h.backed r hr htp).status, (h.backed r hr htp).order, (h.backed r hr htp).orders⟩
  paired := h.paired
  separate := h.separate

/-! ### The sweep -/

/-- The hold is that of a reservation which is still reserved. -/
def Pending (tp : TicketProduct) (db : Database) (h : ExpiredHold) : Prop :=
  ∃ r, reservationTable.find db h.reservationId = some r ∧ r.status = .reserved ∧
    r.orderId = h.orderId ∧ r.quantity = h.quantity ∧
    (h.productId = tp.productId ↔ r.ticketProductId = tp.id)

theorem pending_of_mem {ticketProductId : Uuid} {now : Int} {h : ExpiredHold} (hbooked : Booked tp db)
    (hh : h ∈ expiredHolds ticketProductId now db) : Pending tp db h := by
  obtain ⟨r, hr, t, ht, htp, hstatus, rfl⟩ := Stock.mem_expiredHolds hh
  refine ⟨r, reservationTable.find_of_mem hbooked.stocked.reservationIds hr, hstatus, rfl, rfl, ?_⟩
  exact (hbooked.stocked.offered.productId_iff ht).trans (by rw [htp])

/-- The release of a hold leaves the other reservations as they are. -/
theorem find_released {h : ExpiredHold} {id : Uuid} (hne : id ≠ h.reservationId) :
    reservationTable.find (Buyers.released h db) id = reservationTable.find db id :=
  reservationTable.find_modify_of_ne (f := ({ · with status := .expired })) (fun _ => rfl)
    (fun _ hs => of_decide_eq_true hs) hne

/-- What the release of a hold makes of a reservation and its order. -/
theorem Backed.release {r s : Reservation} {h : ExpiredHold} (hr : reservationTable.find db r.id = some r)
    (hids : (db.reservations.map (·.id)).Nodup) (hid : h.reservationId = r.id) (horder : h.orderId = r.orderId)
    (hs : s ∈ db.reservations) (hbacked : Backed db s) :
    Backed (Buyers.released h db) (if s.id = r.id then { s with status := .expired } else s) := by
  have horders : (Buyers.released h db).orders = (orderTable.modify (fun o => o.id = h.orderId &&
      o.status = .awaitingPayment) ({ · with status := .expired }) db db).orders := rfl
  have hsame : (if s.id = r.id then { s with status := .expired } else s).orderId = s.orderId := by
    split <;> rfl
  have hbuyer : (if s.id = r.id then { s with status := .expired } else s).buyerUserId = s.buyerUserId := by
    split <;> rfl
  refine ⟨?_, ?_, fun o ho hoid => ?_⟩
  · split
    · exact .inr rfl
    · exact hbacked.status
  · obtain ⟨o, ho, hoid⟩ := hbacked.order
    rw [hsame, horders]
    refine ⟨_, mem_updateWhere.mpr ⟨o, ho, rfl⟩, ?_⟩
    split <;> exact hoid
  · rw [horders] at ho
    obtain ⟨o₀, ho₀, rfl⟩ := mem_updateWhere.mp ho
    rw [hsame] at hoid
    rw [hbuyer]
    split at hoid
    · rw [if_pos ‹_›]
      exact ⟨(hbacked.orders o₀ ho₀ hoid).1, .inr rfl⟩
    · rename_i hnot
      rw [if_neg hnot]
      obtain ⟨hown, hstatus⟩ := hbacked.orders o₀ ho₀ hoid
      refine ⟨hown, hstatus.imp (fun ⟨hawaiting, hreserved⟩ => ⟨hawaiting, ?_⟩) id⟩
      by_cases hsr : s.id = r.id
      · -- its order would have expired with it
        obtain rfl := List.inj_on_of_nodup_map hids hs (reservationTable.find_mem hr).1 hsr
        have hp : (decide (o₀.id = h.orderId) && decide (o₀.status = .awaitingPayment)) = true := by
          simp [hoid, horder, hawaiting]
        refine absurd ?_ hnot
        rw [Bool.and_eq_true]
        exact ⟨hp, decide_eq_true (List.mem_map_of_mem (orderTable.mem_matching.mpr ⟨ho₀, hp⟩))⟩
      · rw [if_neg hsr]
        exact hreserved

theorem Booked.release {h : ExpiredHold} (hbooked : Booked tp db) (hpending : Pending tp db h) :
    Booked tp (Buyers.released h db) := by
  obtain ⟨r, hr, hstatus, horder, hquantity, hproduct⟩ := hpending
  obtain ⟨hmem, hid⟩ := reservationTable.find_mem hr
  obtain ⟨reservationId, orderId, quantity, productId⟩ := h
  dsimp only at hr hid horder hquantity hproduct
  subst hid horder hquantity
  have hdue : Buyers.Due r.expiresAt db ⟨r.id, r.orderId, r.quantity, productId⟩ := by
    refine ⟨(hbooked.sound.quantities r hmem).le, fun s hs hsid => ?_⟩
    obtain rfl := List.inj_on_of_nodup_map hbooked.sound.reservationIds hs hmem hsid
    exact ⟨.inl hstatus, le_refl _⟩
  have hsweeps := Buyers.sweeps_released hbooked.sound hdue
  have hstocked : Stocked tp (Buyers.released ⟨r.id, r.orderId, r.quantity, productId⟩ db) := by
    refine (hbooked.stocked.release hr hstatus hr hproduct (fun hwhose i hi => ?_) rfl).1
    rw [hwhose]
    exact hi
  have hrows : (Buyers.released ⟨r.id, r.orderId, r.quantity, productId⟩ db).reservations =
      updateWhere (fun s => s.id = r.id) ({ · with status := .expired }) db.reservations :=
    congrArg Database.reservations
      (reservationTable.modify_self (p := fun s => s.id = r.id) (f := ({ · with status := .expired })))
  have hrow (s : Reservation) :
      s ∈ (Buyers.released ⟨r.id, r.orderId, r.quantity, productId⟩ db).reservations ↔
      ∃ s₀ ∈ db.reservations, s = if s₀.id = r.id then { s₀ with status := .expired } else s₀ := by
    rw [hrows, mem_updateWhere]
    simp only [decide_eq_true_eq]
  refine ⟨hstocked, hsweeps.sound hbooked.sound, fun s hs htp => ?_, fun i hi hwhose => ?_, ?_⟩
  · obtain ⟨s₀, hs₀, rfl⟩ := (hrow s).mp hs
    refine (hbooked.backed s₀ hs₀ ?_).release hr hbooked.sound.reservationIds rfl rfl hs₀
    split at htp <;> exact htp
  · obtain ⟨s, hs, htp, hsame, hq⟩ := hbooked.paired i (hsweeps.orderItems ▸ hi) hwhose
    refine ⟨_, (hrow _).mpr ⟨s, hs, rfl⟩, ?_⟩
    split <;> exact ⟨htp, hsame, hq⟩
  · exact hsweeps.orderItems ▸ hbooked.separate

/-- The releases of a sweep. -/
theorem ends_releaseHolds {holds : List ExpiredHold} (hbooked : Booked tp db)
    (hpending : ∀ h ∈ holds, Pending tp db h) (hdistinct : (holds.map (·.reservationId)).Nodup) :
    ∃ swept, (∀ k db₀, Prog.ends (releaseHolds holds k) db db₀ = (k ⟨⟩).ends swept db₀) ∧ Booked tp swept ∧
      swept.directory = db.directory ∧ swept.catalogue = db.catalogue := by
  induction holds generalizing db with
  | nil => exact ⟨db, fun _ _ => rfl, hbooked, rfl, rfl⟩
  | cons h rest ih =>
      obtain ⟨hnot, hrest⟩ := List.nodup_cons.mp (List.map_cons ▸ hdistinct)
      have hfirst := hpending h List.mem_cons_self
      obtain ⟨swept, hends, hswept, hdirectory, hcatalogue⟩ := ih (hbooked.release hfirst) (fun h' hh' => by
        obtain ⟨r, hr, hfacts⟩ := hpending h' (List.mem_cons_of_mem _ hh')
        refine ⟨r, (find_released ?_).trans hr, hfacts⟩
        intro heq
        exact hnot (heq ▸ List.mem_map_of_mem hh')) hrest
      obtain ⟨r, hr, -, -, hquantity, -⟩ := hfirst
      have hpositive := hbooked.sound.quantities r (reservationTable.find_mem hr).1
      refine ⟨swept, fun k db₀ => ?_, hswept, hdirectory, hcatalogue⟩
      exact (Buyers.ends_releaseHold hbooked.sound (by omega)).trans (hends k db₀)

theorem ends_sweep (ticketProductId : Uuid) (now : Int) (hbooked : Booked tp db) :
    ∃ swept, (∀ k db₀, Prog.ends (releaseExpiredForProduct ticketProductId now k) db db₀ =
        (k ⟨⟩).ends swept db₀) ∧ Booked tp swept ∧
      swept.directory = db.directory ∧ swept.catalogue = db.catalogue := by
  obtain ⟨swept, hends, hswept⟩ := ends_releaseHolds hbooked
    (fun h (hh : h ∈ expiredHolds ticketProductId now db) => pending_of_mem hbooked hh)
    (Stock.nodup_expiredHolds hbooked.stocked.reservationIds)
  refine ⟨swept, fun k db₀ => ?_, hswept⟩
  unfold releaseExpiredForProduct
  rw [ends_bind, ends_selectFor]
  exact hends k db₀

/-! ### New orders -/

section Write

variable {o : Order} {i : OrderItem} {productId : Uuid} {quantity : Int}

theorem admits_newOrder (h : Buyers.Admits o i productId quantity db) : ∀ p ∈ db.orders, p.id ≠ o.id := by
  intro p hp hid
  have hnone := h.order
  unfold orderViolation at hnone
  split at hnone
  · cases hnone
  · rename_i hany
    exact hany (List.any_eq_true.mpr ⟨p, hp, by simp [hid]⟩)

theorem admits_newItem (h : Buyers.Admits o i productId quantity db) :
    ∀ j ∈ db.orderItems, j.productId = i.productId → j.orderId ≠ i.orderId := by
  intro j hj hproduct horder
  have hnone := h.item
  unfold orderItemViolation at hnone
  split at hnone
  · cases hnone
  · rename_i hany
    exact hany (List.any_eq_true.mpr ⟨j, hj, by simp [hproduct, horder]⟩)

/-- A new order stands behind no reservation that is there. -/
theorem Backed.withOrder {r : Reservation} (h : Backed db r) (horders : db'.orders = db.orders ++ [o])
    (hnew : r.orderId ≠ o.id) : Backed db' r := by
  obtain ⟨hstatus, ⟨p, hp, hid⟩, hall⟩ := h
  refine ⟨hstatus, ⟨p, ?_, hid⟩, fun q hq hqid => ?_⟩
  · rw [horders]
    exact List.mem_append_left _ hp
  · rw [horders] at hq
    rcases List.mem_append.mp hq with hq | hq
    · exact hall q hq hqid
    · rw [List.mem_singleton.mp hq] at hqid
      exact absurd hqid.symm hnew

/-- **An order of another product** changes nothing of what is booked. -/
theorem Booked.withOrder (h : Booked tp db) (hadmits : Buyers.Admits o i productId quantity db)
    (hitem : i.productId = productId) (hother : productId ≠ tp.productId) :
    Booked tp (Buyers.withOrder o i productId quantity db) := by
  have hnew := admits_newOrder hadmits
  have hitems : (Buyers.withOrder o i productId quantity db).orderItems = db.orderItems ++ [i] := rfl
  have hnot : i.productId ≠ tp.productId := hitem ▸ hother
  have hwritten : Beside tp db (orderItemTable.add i (orderTable.add o db)) := ⟨id, rfl, rfl, rfl⟩
  have hbeside : Beside tp db (Buyers.withOrder o i productId quantity db) :=
    trans_of (Beside tp) hwritten (beside_inventory (f := reserve quantity) (fun _ => rfl)
      (fun _ hj => of_decide_eq_true (Bool.and_eq_true_iff.mp hj).1) hother)
  refine ⟨hbeside.stocked h.stocked, ⟨h.sound.reservationIds, ?_, fun j hj => ?_, h.sound.quantities,
    h.sound.prices⟩, fun r hr htp => ?_, fun j hj hproduct => ?_, ?_⟩
  · exact hbeside.productIds ▸ h.sound.productIds
  · obtain ⟨j₀, hj₀, rfl⟩ := mem_updateWhere.mp hj
    split
    · exact hadmits.raised j₀ hj₀ (Bool.and_eq_true_iff.mp ‹_›).1
    · exact h.sound.counters j₀ hj₀
  · refine (h.backed r hr htp).withOrder rfl fun hid => ?_
    obtain ⟨p, hp, hpid⟩ := (h.backed r hr htp).order
    exact hnew p hp (hpid.trans hid)
  · rw [hitems] at hj
    rcases List.mem_append.mp hj with hj | hj
    · exact h.paired j hj hproduct
    · rw [List.mem_singleton.mp hj] at hproduct
      exact absurd hproduct hnot
  · rw [hitems, List.filter_append, List.filter_cons_of_neg (by simpa using hnot), List.filter_nil,
      List.append_nil]
    exact h.separate

end Write

/-- What is held is reserved, as long as nothing is paid. -/
theorem Booked.held_le (h : Booked tp db) {j : Inventory} (hj : inventoryTable.find db tp.productId = some j)
    (buyerUserId : Uuid) : existingQuantity tp.id buyerUserId db ≤ j.reservedQuantity := by
  have hle : existingQuantity tp.id buyerUserId db ≤ quantityIn tp.id .reserved db := by
    rw [existingQuantity_eq, quantityIn_eq]
    refine total_mono fun r hr => ?_
    by_cases htp : r.ticketProductId = tp.id
    · have hpositive := h.sound.quantities r hr
      rcases (h.backed r hr htp).status with hreserved | hexpired
      · rw [heldIn_of_live (.inl hreserved), countIn_of_status hreserved, if_pos htp]
        split <;> omega
      · rw [heldIn_of_expired hexpired, countIn_of_ne (by rw [hexpired]; decide)]
    · rw [heldIn_of_other htp, countIn_of_other htp]
  rw [← h.stocked.reserved, counter_of_find hj] at hle
  exact hle

theorem Booked.held_nonneg (h : Booked tp db) (buyerUserId : Uuid) :
    0 ≤ existingQuantity tp.id buyerUserId db := by
  rw [existingQuantity_eq]
  exact total_nonneg fun r hr => heldIn_nonneg (h.sound.quantities r hr)

/-- **The check of the buyer's limit** is exact: what is held is reserved, and with the new quantity it is
still in range where the stock admits it. -/
theorem Booked.within {o : Order} {i : OrderItem} {productId buyerUserId : Uuid} {quantity limit : Int}
    {t : TicketProduct} (h : Booked tp db) (hadmits : Buyers.Admits o i productId quantity db)
    (hproduct : productId = tp.productId) (ht : db.catalogue.ticketProducts.find? (·.id = tp.id) = some t)
    (hlimit : limit = t.perUserLimit) (hpositive : 0 < quantity)
    (hpassed : decide (wrapI64 (existingQuantity tp.id buyerUserId db + quantity) ≤ limit) = true) :
    existingQuantity tp.id buyerUserId db + quantity ≤ tp.perUserLimit := by
  obtain ⟨j, hj, hrow, hrowLimit⟩ := hadmits.row
  have hfind : inventoryTable.find db tp.productId = some j := by
    rw [← hproduct, ← hrow]
    exact inventoryTable.find_of_mem h.sound.productIds hj
  have hheld := h.held_le hfind buyerUserId
  have hnonneg := h.held_nonneg buyerUserId
  have hraised := hadmits.raised j hj (Bool.and_eq_true_iff.mpr ⟨decide_eq_true hrow, hrowLimit⟩)
  have hrange : j.reservedQuantity + quantity < 2 ^ 63 := (Buyers.inventoryViolation_eq.mp hraised).1.1.2
  obtain rfl := Option.some.inj (h.stocked.offered.found.symm.trans ht)
  rw [wrapI64_of_inI64 ⟨by omega, by omega⟩, hlimit] at hpassed
  exact of_decide_eq_true hpassed

/-- **A new reservation** is booked, if it keeps to the limit. -/
theorem Booked.place {p : Buyers.Placement} {ids : ReservationIds} (h : Booked tp db)
    (hcoherent : p.Coherent ids) (hfits : p.Fits db) (hitem : p.item.productId = p.productId)
    (hstatus : p.reservation.status = .reserved) (hawaiting : p.order.status = .awaitingPayment)
    (hquantity : p.reservation.quantity = p.quantity) (hsame : p.item.quantity = p.quantity)
    (hproduct : p.productId = tp.productId ↔ p.reservation.ticketProductId = tp.id)
    (hbuyer : p.reservation.ticketProductId = tp.id →
      existingQuantity tp.id p.reservation.buyerUserId db + p.quantity ≤ tp.perUserLimit) :
    Booked tp (p.place db) := by
  have hnew := admits_newOrder hfits.order
  have hfresh := hfits.new
  have hitems : (p.place db).orderItems = db.orderItems ++ [p.item] := rfl
  have hreservations : (p.place db).reservations = db.reservations ++ [p.reservation] := rfl
  have horders : (p.place db).orders = db.orders ++ [p.order] := rfl
  have hwritten : Beside tp db (orderItemTable.add p.item (orderTable.add p.order db)) := ⟨id, rfl, rfl, rfl⟩
  refine ⟨?_, ?_, fun r hr htp => ?_, fun j hj hfor => ?_, ?_⟩
  · obtain ⟨j, hj, hrow, hlimit⟩ := hfits.order.row
    have hfind : inventoryTable.find db p.productId = some j := by
      rw [← hrow]
      exact inventoryTable.find_of_mem h.sound.productIds hj
    have hplace : reservationTable.add p.reservation (inventoryTable.modify p.admits
        (reserve p.reservation.quantity) (orderItemTable.add p.item (orderTable.add p.order db))
        (orderItemTable.add p.item (orderTable.add p.order db))) = p.place db := by
      rw [hquantity]
      rfl
    refine ((hwritten.stocked h.stocked).add ?_ hstatus hcoherent.positive hproduct hfind hfind hlimit
      (fun limit hsome => ?_) ?_ hplace).1
    · refine List.find?_eq_none.mpr fun r hr hid => ?_
      exact (hfresh r hr).1 (of_decide_eq_true hid)
    · rw [hquantity]
      rw [hsome] at hlimit
      exact of_decide_eq_true hlimit
    · rw [hquantity, hwritten.holdings]
      exact hbuyer
  · exact Buyers.sound_place h.sound hcoherent hfits.raised fun r hr => (hfresh r hr).1
  · rw [hreservations] at hr
    rcases List.mem_append.mp hr with hr | hr
    · refine (h.backed r hr htp).withOrder horders fun hid => (hfresh r hr).2 ?_
      rw [hid, hcoherent.order, hcoherent.reservation.2]
    · obtain rfl := List.mem_singleton.mp hr
      have hid : p.order.id = p.reservation.orderId := hcoherent.order.trans hcoherent.reservation.2.symm
      refine ⟨.inl hstatus, ⟨p.order, ?_, hid⟩, fun o ho hoid => ?_⟩
      · rw [horders]
        exact List.mem_append_right _ (List.mem_singleton_self _)
      · rw [horders] at ho
        rcases List.mem_append.mp ho with ho | ho
        · exact absurd (hoid.trans hid.symm) (hnew o ho)
        · rw [List.mem_singleton.mp ho]
          exact ⟨hcoherent.buyer, .inl ⟨hawaiting, hstatus⟩⟩
  · rw [hitems] at hj
    rw [hreservations]
    rcases List.mem_append.mp hj with hj | hj
    · obtain ⟨r, hr, hfacts⟩ := h.paired j hj hfor
      exact ⟨r, List.mem_append_left _ hr, hfacts⟩
    · rw [List.mem_singleton.mp hj] at hfor ⊢
      refine ⟨p.reservation, List.mem_append_right _ (List.mem_singleton_self _), ?_, ?_, ?_⟩
      · exact hproduct.mp (hitem.symm.trans hfor)
      · exact hcoherent.reservation.2.trans hcoherent.item.2.symm
      · exact hquantity.trans hsame.symm
  · rw [hitems, List.filter_append, List.map_append, List.nodup_append]
    refine ⟨h.separate, ?_, fun id hid id' hid' heq => ?_⟩
    · exact ((List.nodup_singleton p.item).filter _).map_on fun x hx y hy _ =>
        (List.mem_singleton.mp (List.mem_filter.mp hx).1).trans
          (List.mem_singleton.mp (List.mem_filter.mp hy).1).symm
    · obtain ⟨j, hj, rfl⟩ := List.mem_map.mp hid
      obtain ⟨j', hj', rfl⟩ := List.mem_map.mp hid'
      obtain ⟨hmem, hfor⟩ := List.mem_filter.mp hj
      obtain ⟨hmem', hfor'⟩ := List.mem_filter.mp hj'
      obtain rfl := List.mem_singleton.mp hmem'
      refine admits_newItem hfits.order j hmem ?_ heq
      exact (of_decide_eq_true hfor).trans (of_decide_eq_true hfor').symm

/-! ### The two handlers -/

section Handlers

variable {actorUserId organizationId orderId itemId : Uuid} {body : CreateOrderRequest}

/-- All the checks of `create_order` admit the order. -/
structure OrderAdmitted (actorUserId organizationId : Uuid) (body : CreateOrderRequest) (db : Database) :
    Prop where
  editor : db.directory.memberEditor organizationId actorUserId = true
  quantity : 0 < body.quantity
  environment : ∃ environment, validateEnvironment body.environment = .ok environment
  key : ∃ key, requiredChars body.idempotencyKey 200 "invalid_order_idempotency_key" = .ok key ∧
    db.orders.find? (fun o => o.organizationId = organizationId && o.idempotencyKey = key) = none
  entry : ∃ entry, catalogueEntry body.productId body.priceId db.directory.clock db = some entry ∧
    entry.organizationId = organizationId ∧ entry.status = .published ∧
    inI64 (entry.amountMinor * body.quantity) ∧
    (entry.supplyLimit.all fun limit =>
      wrapI64 (entry.reservedQuantity + entry.fulfilledQuantity + body.quantity) ≤ limit) = true

/-- **`create_order`** leaves the product alone, unless the order is for it and all checks admit it. -/
theorem createOrder_alone (h : Booked tp db)
    (hnot : ¬ (body.productId = tp.productId ∧ OrderAdmitted actorUserId organizationId body db)) :
    (createOrder sha256 actorUserId organizationId body orderId itemId).request.Alone
      (fun r db' => Booked tp db' ∧ ∀ id, r = .ok ⟨.created, id⟩ → body.productId ≠ tp.productId) db db := by
  have hrefused (e : ApiError) : Booked tp db ∧
      ∀ id, (.error e : Result) = .ok ⟨.created, id⟩ → body.productId ≠ tp.productId :=
    ⟨h, fun _ heq => by cases heq⟩
  unfold Handler.request createOrder requireEditor
  refine alone_bind (alone_bind (alone_select (alone_require (hrefused _) fun heditor => ?_)))
  refine alone_bind (alone_require (hrefused _) fun hquantity => ?_)
  refine alone_bind (alone_ofExcept (fun _ => hrefused _) fun environment henvironment => ?_)
  refine alone_bind (alone_ofExcept (fun _ => hrefused _) fun key hkey => ?_)
  refine alone_bind (alone_select (alone_bind (alone_selectFor ?_)))
  generalize hexisting : db.orders.find? _ = existing
  cases existing with
  | some existing =>
    refine alone_bind (alone_require (hrefused _) fun _ => ?_)
    exact alone_bind (alone_commit (alone_ret ⟨h, fun _ heq => by cases heq⟩))
  | none =>
    refine alone_bind (alone_selectFor (alone_bind (alone_orElse (hrefused _) fun entry hentry => ?_)))
    refine alone_bind (alone_require (hrefused _) fun horganization => ?_)
    refine alone_bind (alone_require (hrefused _) fun hstatus => ?_)
    refine alone_bind (alone_orElse (hrefused _) fun total htotal => ?_)
    refine alone_bind (alone_require (hrefused _) fun hsupply => ?_)
    have hother : body.productId ≠ tp.productId := by
      intro hproduct
      refine hnot ⟨hproduct, heditor, of_decide_eq_true hquantity, ⟨_, henvironment⟩, ⟨_, hkey, hexisting⟩,
        ⟨entry, hentry, of_decide_eq_true horganization, of_decide_eq_true hstatus, ?_, hsupply⟩⟩
      unfold checkedI64 at htotal
      split at htotal
      · assumption
      · cases htotal
    refine Buyers.order_alone (fun _ => hrefused _) (hrefused _) fun hadmits => ?_
    refine alone_bind (alone_commit (alone_ret ⟨?_, fun _ _ => hother⟩))
    exact h.withOrder hadmits rfl hother

/-- What the ticket product's availability tells of its event. -/
theorem opened_of_available {a : Availability} (hoffered : Offered tp db.catalogue)
    (ha : availability tp.id db = some a) (honSale : a.eventStatus = .onSale)
    (hstarts : a.saleStartsAt ≤ db.directory.clock) (hends : db.directory.clock < a.saleEndsAt) :
    Opened tp db := by
  simp only [availability, Option.bind_eq_bind, Option.bind_eq_some_iff, Option.pure_def,
    Option.some.injEq] at ha
  obtain ⟨t, ht, te, hte, p, -, pp, -, i, -, rfl⟩ := ha
  obtain rfl := Option.some.inj (hoffered.found.symm.trans ht)
  exact ⟨⟨te, hte, honSale⟩, hstarts, hends⟩

/-- **`create_reservation`** keeps the rules of the sale. -/
theorem createReservation_alone {c : Buyers.Call} (h : Booked tp db) :
    (c.request sha256).Alone (fun r db' => Booked tp db' ∧
      ∀ id, r = .ok ⟨.created, id⟩ → c.ticketProductId = tp.id → Opened tp db) db db := by
  have hrefused (e : ApiError) : Booked tp db ∧
      ∀ id, (.error e : Result) = .ok ⟨.created, id⟩ → c.ticketProductId = tp.id → Opened tp db :=
    ⟨h, fun _ heq => by cases heq⟩
  obtain ⟨view, hends, hview, hdirectory, hcatalogue⟩ :=
    ends_sweep c.ticketProductId db.directory.clock h
  unfold Buyers.Call.request Handler.request createReservation
  refine alone_bind (alone_require (hrefused _) fun hquantity => ?_)
  refine alone_bind (alone_ofExcept (fun _ => hrefused _) fun key hkey => ?_)
  refine alone_bind (alone_select (alone_bind (alone_ends (hends _ _) ?_)))
  refine alone_bind (alone_selectFor (alone_bind (alone_orElse (hrefused _) fun a ha => ?_)))
  refine alone_bind (alone_select (alone_bind (alone_require (hrefused _) fun hsale => ?_)))
  refine alone_bind (alone_select (alone_bind (alone_require (hrefused _) fun _ => ?_)))
  refine alone_bind (alone_selectFor ?_)
  dsimp only
  generalize view.reservations.find? _ = existing
  cases existing with
  | some existing =>
    refine alone_bind (alone_require (hrefused _) fun _ => ?_)
    exact alone_bind (alone_commit (alone_ret ⟨hview, fun _ heq => by cases heq⟩))
  | none =>
    refine alone_bind (alone_select (alone_bind (alone_require (hrefused _) fun _ => ?_)))
    refine alone_bind (alone_require (hrefused _) fun hheld => ?_)
    refine alone_bind (alone_require (hrefused _) fun _ => ?_)
    refine alone_bind (alone_orElse (hrefused _) fun total _ => ?_)
    obtain ⟨t, ht, hproductId, hlimit⟩ := Stock.availability_eq ha
    have hproduct : a.productId = tp.productId ↔ c.ticketProductId = tp.id := by
      rw [hproductId]
      exact hview.stocked.offered.productId_iff ht
    refine Buyers.placement_alone (p := c.placement sha256 a view.directory.clock key total)
      (fun _ => hrefused _) fun hfits => ⟨?_, fun _ _ hwhose => ?_⟩
    · refine hview.place (Buyers.coherent_placement (of_decide_eq_true hquantity)) hfits rfl rfl rfl rfl rfl
        hproduct fun hwhose => ?_
      exact hview.within hfits.order (hproduct.mpr hwhose) (hwhose ▸ ht) hlimit
        (of_decide_eq_true hquantity) (hwhose ▸ hheld)
    · simp only [Bool.and_eq_true, decide_eq_true_eq] at hsale
      obtain ⟨⟨⟨honSale, -⟩, hstarts⟩, hends⟩ := hsale
      have hopened : Opened tp view :=
        opened_of_available hview.stocked.offered (hwhose ▸ ha) honSale hstarts hends
      exact ⟨hcatalogue ▸ hopened.event, hdirectory ▸ hopened.window⟩

end Handlers

/-! ### Runs of visits -/

/-- The visit passes by the rules of the sale: an order of the product that all checks of `create_order`
admit. -/
def Visit.Sidesteps (tp : TicketProduct) (v : Visit) (db : Database) : Prop :=
  match v.call with
  | .order actorUserId organizationId body _ _ =>
      body.productId = tp.productId ∧ OrderAdmitted actorUserId organizationId body (v.finds db)
  | .reservation _ _ _ _ => False

/-- Nothing of the product is sold on any channel, and the tables keep their constraints. -/
structure Untouched (tp : TicketProduct) (db : Database) : Prop extends Unsold tp db where
  sound : Buyers.Sound db
  orderItems : ∀ i ∈ db.orderItems, i.productId ≠ tp.productId

theorem Untouched.booked (h : Untouched tp db) : Booked tp db where
  stocked := h.toUnsold.stocked
  sound := h.sound
  backed r hr htp := absurd htp (h.reservations r hr)
  paired i hi hproduct := absurd hproduct (h.orderItems i hi)
  separate := by
    have hnone : db.orderItems.filter (·.productId = tp.productId) = [] :=
      List.filter_eq_nil_iff.mpr fun i hi hproduct => h.orderItems i hi (of_decide_eq_true hproduct)
    rw [hnone]
    exact .nil

/-- **One visit** keeps the rules, unless it passes them by. -/
theorem Booked.visit (h : Booked tp db) (hkeeps : v.Keeps tp) (hnot : ¬ v.Sidesteps tp db) :
    Booked tp (v.after sha256 db) ∧ Timely sha256 tp v db := by
  have hfound := h.finds hkeeps
  obtain ⟨directory, catalogue, call⟩ := v
  cases call with
  | order actorUserId organizationId body orderId itemId =>
    have halone : (createOrder sha256 actorUserId organizationId body orderId itemId).request.Alone _ _ _ :=
      createOrder_alone hfound hnot
    exact ⟨halone.1, fun id hcreated hfor => absurd hfor (halone.2 id hcreated)⟩
  | reservation buyerUserId ticketProductId body ids =>
    have halone : (Buyers.Call.request sha256 ⟨0, buyerUserId, ticketProductId, body, ids⟩).Alone _ _ _ :=
      createReservation_alone hfound
    exact ⟨halone.1, halone.2⟩

/-- **The rules of the sale are kept** as long as no order of the product goes through `create_order`: no
buyer's live orders come to more than the limit, and the product is sold only while its sale is open. -/
theorem sale_rules_kept {db₀ : Database} (h₀ : Untouched tp db₀) {visits : List Visit}
    (hrun : Run (fun db v db' => v.Step sha256 tp db db' ∧ ¬ v.Sidesteps tp db) db₀ visits db) :
    Limited tp db ∧ ∀ v : Visit, v.Keeps tp → ¬ v.Sidesteps tp db → Timely sha256 tp v db := by
  have hbooked : Booked tp db := by
    refine hrun.invariant (fun db v db' h hstep => ?_) h₀.booked
    obtain ⟨⟨hkeeps, rfl⟩, hnot⟩ := hstep
    exact (h.visit hkeeps hnot).1
  exact ⟨hbooked.limited, fun v hkeeps hnot => (hbooked.visit hkeeps hnot).2⟩

/-! ### A seat beside the rules -/

theorem shopDatabase_untouched : Untouched seat shopDatabase where
  toUnsold := shopDatabase_unsold
  sound := Buyers.shopDatabase_sound
  orderItems i hi := by cases hi

theorem shopCatalogue_keeps (call : SaleCall) :
    Visit.Keeps seat ⟨shopDirectory 1800000000, shopCatalogue, call⟩ :=
  ⟨⟨rfl, show ∀ t ∈ shopCatalogue.ticketProducts, _ from by decide⟩,
    show ∀ pp ∈ shopCatalogue.prices, _ from by decide⟩

/-- A buyer reserves two seats. -/
def twoSeats : Visit :=
  ⟨shopDirectory 1800000000, shopCatalogue, .reservation 1 24 ⟨2, "key1"⟩ ⟨30, 31, 32⟩⟩

/-- An editor of the organization orders five. -/
def fiveSeats : Visit :=
  ⟨shopDirectory 1800000000, shopCatalogue, .order 3 10 ⟨20, 21, 5, "testnet", "key1"⟩ 30 32⟩

/-- Two seats are the limit, and nobody has more. -/
theorem twoSeats_kept : liveQuantity 20 1 (twoSeats.after saleSha256 shopDatabase) = 2 ∧
    Limited seat (twoSeats.after saleSha256 shopDatabase) := by
  refine ⟨by decide +kernel, ?_⟩
  have hrun : Run (fun db v db' => Visit.Step saleSha256 seat db v db' ∧ ¬ v.Sidesteps seat db) shopDatabase
      [twoSeats] (twoSeats.after saleSha256 shopDatabase) :=
    Run.single ⟨⟨shopCatalogue_keeps _, rfl⟩, fun hsidesteps => hsidesteps⟩
  exact (sale_rules_kept shopDatabase_untouched hrun).1

/-- **An order beside the rules**: five seats for one buyer, where two are the limit. -/
theorem not_sale_rules_kept :
    ¬ ∀ (sha256 : Sha256) (tp : TicketProduct) (db₀ : Database), Untouched tp db₀ →
      ∀ (visits : List Visit) (db : Database), Run (Visit.Step sha256 tp) db₀ visits db →
        Limited tp db ∧ ∀ v : Visit, v.Keeps tp → Timely sha256 tp v db := by
  intro h
  have hrun : Run (Visit.Step saleSha256 seat) shopDatabase [fiveSeats]
      (fiveSeats.after saleSha256 shopDatabase) := Run.single ⟨shopCatalogue_keeps _, rfl⟩
  have hlimited := (h saleSha256 seat shopDatabase shopDatabase_untouched _ _ hrun).1 3
  have hfive : liveQuantity seat.productId 3 (fiveSeats.after saleSha256 shopDatabase) = 5 := by
    decide +kernel
  rw [hfive] at hlimited
  exact absurd hlimited (by decide)

end CrownFi.Commerce.Channels
