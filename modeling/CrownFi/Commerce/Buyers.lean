import CrownFi.Commerce.Stock
import CrownFi.Lib.Twins

/-!
# CrownFi.Commerce.Buyers

**What a buyer's reservations depend on.** A call that reserves tickets reads the catalogue, the
stock and the buyer's own reservations, and it writes an order under a key that is unique in the
whole organization. The first three make up what the buyer sees (`sight`); a hold that ran out is
seen as expired, whether a sweep has been there or not. Calls of other buyers do not change it, and
as long as there is enough stock, the buyer's own calls are answered from it alone, unless an order
of somebody else has the key.
-/

namespace CrownFi.Commerce.Buyers

open Lib CrownFi.Api Ticketing

variable {b : Uuid} {now : Int} {db db' db'' : Database}

/-! ### What a buyer sees -/

/-- A hold that has run out counts as expired. -/
def settled (now : Int) (r : Reservation) : Reservation :=
  if r.status = .reserved ∧ r.expiresAt ≤ now then { r with status := .expired } else r

structure Sight where
  directory : Directory
  catalogue : Catalogue
  /-- Each product with its limit and what is fulfilled of it. -/
  stock : List (Uuid × Option Int × Int)
  reservations : List Reservation
  /-- The keys of the buyer's orders. -/
  orderKeys : List (Uuid × String)

def stocked (i : Inventory) : Uuid × Option Int × Int := (i.productId, i.supplyLimit, i.fulfilledQuantity)

def orderKey (o : Order) : Uuid × String := (o.organizationId, o.idempotencyKey)

def sight (b : Uuid) (db : Database) : Sight where
  directory := db.directory
  catalogue := db.catalogue
  stock := db.inventory.map stocked
  reservations := (db.reservations.map (settled db.directory.clock)).filter (·.buyerUserId = b)
  orderKeys := (db.orders.filter (·.buyerUserId = b)).map orderKey

/-- Constraints of the tables that calls rely on. -/
structure Sound (db : Database) : Prop where
  reservationIds : (db.reservations.map (·.id)).Nodup
  productIds : (db.inventory.map (·.productId)).Nodup
  counters : ∀ i ∈ db.inventory, inventoryViolation i = none
  quantities : ∀ r ∈ db.reservations, 0 < r.quantity
  prices : ∀ pp ∈ db.catalogue.prices, 0 < pp.amountMinor

/-- The ids that a call draws are new. -/
structure Unused (ids : ReservationIds) (db : Database) : Prop where
  orders : ∀ o ∈ db.orders, o.id ≠ ids.order
  orderItems : ∀ i ∈ db.orderItems, i.id ≠ ids.item ∧ i.orderId ≠ ids.order
  reservations : ∀ r ∈ db.reservations, r.id ≠ ids.reservation ∧ r.orderId ≠ ids.order

/-! ### Sweeps -/

/-- A hold that ran out may have been marked. -/
def RunsOut (now : Int) (r r' : Reservation) : Prop :=
  r' = r ∨ ((r.status = .reserved ∨ r.status = .expired) ∧ r.expiresAt ≤ now ∧
    r' = { r with status := .expired })

def Lowered (i i' : Inventory) : Prop :=
  ∃ n, n ≤ i.reservedQuantity ∧ (0 ≤ i.reservedQuantity → 0 ≤ n) ∧ i' = { i with reservedQuantity := n }

def Moved (o o' : Order) : Prop := ∃ status, o' = { o with status }

instance : IsPreorder Reservation (RunsOut now) where
  refl _ := .inl rfl
  trans r r' r'' h h' := by
    rcases h with rfl | ⟨hstatus, hexpires, rfl⟩
    · exact h'
    · rcases h' with rfl | ⟨-, -, rfl⟩
      · exact .inr ⟨hstatus, hexpires, rfl⟩
      · exact .inr ⟨hstatus, hexpires, rfl⟩

instance : IsPreorder Inventory Lowered where
  refl i := ⟨i.reservedQuantity, le_refl _, id, rfl⟩
  trans i i' i'' h h' := by
    obtain ⟨n, hle, hpos, rfl⟩ := h
    obtain ⟨m, hle', hpos', rfl⟩ := h'
    exact ⟨m, le_trans hle' hle, fun h => hpos' (hpos h), rfl⟩

instance : IsPreorder Order Moved where
  refl o := ⟨o.status, rfl⟩
  trans o o' o'' h h' := by
    obtain ⟨s, rfl⟩ := h
    obtain ⟨s', rfl⟩ := h'
    exact ⟨s', rfl⟩

/-- What sweeps do at a time, in short: they mark what ran out. -/
structure Sweeps (now : Int) (db db' : Database) : Prop where
  directory : db'.directory = db.directory
  catalogue : db'.catalogue = db.catalogue
  orderItems : db'.orderItems = db.orderItems
  orders : List.Forall₂ Moved db.orders db'.orders
  reservations : List.Forall₂ (RunsOut now) db.reservations db'.reservations
  inventory : List.Forall₂ Lowered db.inventory db'.inventory

theorem Sweeps.refl : Sweeps now db db :=
  ⟨rfl, rfl, rfl, List.forall₂_refl _, List.forall₂_refl _, List.forall₂_refl _⟩

theorem Sweeps.trans (h : Sweeps now db db') (h' : Sweeps now db' db'') : Sweeps now db db'' where
  directory := h'.directory.trans h.directory
  catalogue := h'.catalogue.trans h.catalogue
  orderItems := h'.orderItems.trans h.orderItems
  orders := forall₂_trans h.orders h'.orders
  reservations := forall₂_trans h.reservations h'.reservations
  inventory := forall₂_trans h.inventory h'.inventory

theorem settled_runsOut {r r' : Reservation} (h : RunsOut now r r') : settled now r' = settled now r := by
  rcases h with rfl | ⟨hstatus, hexpires, rfl⟩
  · rfl
  · rcases hstatus with hstatus | hstatus
    · simp [settled, hstatus, hexpires]
    · rw [← hstatus]

theorem inventoryViolation_eq {i : Inventory} : inventoryViolation i = none ↔
    (inI64 i.reservedQuantity ∧ inI64 i.fulfilledQuantity) ∧ 0 ≤ i.reservedQuantity ∧
      0 ≤ i.fulfilledQuantity ∧
      ∀ limit, i.supplyLimit = some limit → i.reservedQuantity + i.fulfilledQuantity ≤ limit := by
  unfold inventoryViolation
  split
  · rename_i hrange
    exact iff_of_false (by simp) fun h => hrange.elim (· h.1.1) (· h.1.2)
  · rename_i hrange
    rw [not_or, not_not, not_not] at hrange
    split
    · rename_i hnegative
      exact iff_of_false (by simp) fun h => by omega
    · rename_i hnegative
      cases i.supplyLimit with
      | none => exact iff_of_true rfl ⟨hrange, by omega, by omega, fun _ h => by cases h⟩
      | some limit =>
          simp only [Option.some.injEq, forall_eq']
          split
          · exact iff_of_false (by simp) fun h => by omega
          · exact iff_of_true rfl ⟨hrange, by omega, by omega, by omega⟩

theorem inventoryViolation_lowered {i i' : Inventory} (h : Lowered i i') (hi : inventoryViolation i = none) :
    inventoryViolation i' = none := by
  obtain ⟨n, hle, hpos, rfl⟩ := h
  rw [inventoryViolation_eq] at hi ⊢
  obtain ⟨⟨hreserved, hfulfilled⟩, hpositive, hpositive', hlimit⟩ := hi
  refine ⟨⟨⟨?_, lt_of_le_of_lt hle hreserved.2⟩, hfulfilled⟩, hpos hpositive, hpositive', ?_⟩
  · have := hpos hpositive
    show _ ≤ n
    omega
  · intro limit h
    have := hlimit limit h
    show n + i.fulfilledQuantity ≤ limit
    omega

theorem map_filter_moved {orders orders' : List Order} (h : List.Forall₂ Moved orders orders') :
    (orders'.filter (·.buyerUserId = b)).map orderKey = (orders.filter (·.buyerUserId = b)).map orderKey := by
  induction h with
  | nil => rfl
  | cons ho _ ih =>
      obtain ⟨status, rfl⟩ := ho
      rw [List.filter_cons, List.filter_cons]
      split
      · rw [List.map_cons, List.map_cons, ih]
        rfl
      · exact ih

/-- **A sweep changes nothing that a buyer sees.** -/
theorem Sweeps.sight (h : Sweeps db.directory.clock db db') : sight b db' = sight b db := by
  have hreservations : db'.reservations.map (settled db.directory.clock) =
      db.reservations.map (settled db.directory.clock) :=
    forall₂_map_eq h.reservations fun _ _ => settled_runsOut
  have hstock : db'.inventory.map stocked = db.inventory.map stocked :=
    forall₂_map_eq h.inventory fun i i' hi => by
      obtain ⟨n, -, -, rfl⟩ := hi
      rfl
  unfold Buyers.sight
  rw [h.directory, h.catalogue, hreservations, hstock, map_filter_moved h.orders]

theorem Sweeps.sound (h : Sweeps now db db') (hsound : Sound db) : Sound db' where
  reservationIds := by
    rw [forall₂_map_eq h.reservations fun r r' hr => ?_]
    · exact hsound.reservationIds
    · rcases hr with rfl | ⟨-, -, rfl⟩ <;> rfl
  productIds := by
    rw [forall₂_map_eq h.inventory fun i i' hi => ?_]
    · exact hsound.productIds
    · obtain ⟨n, -, -, rfl⟩ := hi
      rfl
  counters i' hi' := by
    obtain ⟨i, hi, hlowered⟩ := forall₂_exists h.inventory hi'
    exact inventoryViolation_lowered hlowered (hsound.counters i hi)
  quantities r' hr' := by
    obtain ⟨r, hr, hruns⟩ := forall₂_exists h.reservations hr'
    rcases hruns with rfl | ⟨-, -, rfl⟩
    · exact hsound.quantities _ hr
    · exact hsound.quantities r hr
  prices := by
    rw [h.catalogue]
    exact hsound.prices

theorem Sweeps.unused {ids : ReservationIds} (h : Sweeps now db db') (hunused : Unused ids db) :
    Unused ids db' where
  orders o' ho' := by
    obtain ⟨o, ho, status, rfl⟩ := forall₂_exists h.orders ho'
    exact hunused.orders o ho
  orderItems := by
    rw [h.orderItems]
    exact hunused.orderItems
  reservations r' hr' := by
    obtain ⟨r, hr, hruns⟩ := forall₂_exists h.reservations hr'
    rcases hruns with rfl | ⟨-, -, rfl⟩
    · exact hunused.reservations _ hr
    · exact hunused.reservations r hr

/-! ### The sweep of a call -/

/-- The release of a hold, in a state that it sees as it is. -/
def released (h : ExpiredHold) (db : Database) : Database :=
  let db := reservationTable.modify (·.id = h.reservationId) ({ · with status := .expired }) db db
  let db := orderTable.modify (fun o => o.id = h.orderId && o.status = .awaitingPayment)
    ({ · with status := .expired }) db db
  inventoryTable.modify (fun i => i.productId = h.productId && true)
    (fun i => { i with reservedQuantity := max 0 (i.reservedQuantity - h.quantity) }) db db

/-- What the reservations with this id are like, if there are any. -/
structure Due (now : Int) (db : Database) (h : ExpiredHold) : Prop where
  quantity : 0 ≤ h.quantity
  row : ∀ r ∈ db.reservations, r.id = h.reservationId →
    (r.status = .reserved ∨ r.status = .expired) ∧ r.expiresAt ≤ now

theorem lowered_release {i : Inventory} {quantity : Int} (h : 0 ≤ quantity) (hi : inventoryViolation i = none) :
    Lowered i { i with reservedQuantity := max 0 (i.reservedQuantity - quantity) } := by
  have hpositive := (inventoryViolation_eq.mp hi).2.1
  exact ⟨_, by omega, fun _ => le_max_left _ _, rfl⟩

theorem sweeps_released {h : ExpiredHold} (hsound : Sound db) (hdue : Due now db h) :
    Sweeps now db (released h db) where
  directory := rfl
  catalogue := rfl
  orderItems := rfl
  orders := forall₂_updateWhere (fun _ => refl_of Moved _) fun o _ _ => ⟨_, rfl⟩
  reservations := by
    refine forall₂_updateWhere (fun _ => refl_of (RunsOut now) _) fun r hr hp => ?_
    obtain ⟨hstatus, hexpires⟩ := hdue.row r hr (of_decide_eq_true (Bool.and_eq_true_iff.mp hp).1)
    exact .inr ⟨hstatus, hexpires, rfl⟩
  inventory :=
    forall₂_updateWhere (fun _ => refl_of Lowered _) fun i hi _ =>
      lowered_release hdue.quantity (hsound.counters i hi)

theorem released_expired {h : ExpiredHold} {r : Reservation} (hr : r ∈ (released h db).reservations)
    (hid : r.id = h.reservationId) : r.status = .expired := by
  obtain ⟨r₀, hr₀, rfl⟩ := mem_updateWhere.mp hr
  split at hid
  · rw [if_pos ‹_›]
  · rename_i hp
    refine absurd ?_ hp
    simp only [Bool.and_eq_true, decide_eq_true_eq]
    exact ⟨hid, List.mem_map.mpr ⟨r₀, reservationTable.mem_matching.mpr ⟨hr₀, decide_eq_true hid⟩, rfl⟩⟩

section Release

variable {k : PUnit → Prog Database Row Site Result} {db₀ : Database}

theorem ends_releaseHold {h : ExpiredHold} (hsound : Sound db) (hquantity : 0 ≤ h.quantity) :
    Prog.ends (releaseHold h k) db db₀ = (k ⟨⟩).ends (released h db) db₀ := by
  unfold releaseHold
  rw [ends_bind, ends_update fun _ _ => rfl, ends_bind, ends_update fun _ _ => rfl, ends_bind]
  unfold updateInventoryAt
  rw [ends_update fun i hi => ?_]
  · rfl
  · have hi := (inventoryTable.mem_matching.mp hi).1
    rw [inventoryViolation_lowered (lowered_release hquantity (hsound.counters i hi)) (hsound.counters i hi)]
    rfl

/-- The releases of a sweep, one after the other: what is left of the holds is expired. -/
theorem ends_releaseHolds {holds : List ExpiredHold} (hsound : Sound db)
    (hdue : ∀ h ∈ holds, Due now db h) :
    ∃ swept, (∀ k db₀, Prog.ends (releaseHolds holds k) db db₀ = (k ⟨⟩).ends swept db₀) ∧
      Sweeps now db swept ∧
      ∀ r ∈ swept.reservations, r.id ∈ holds.map (·.reservationId) → r.status = .expired := by
  induction holds generalizing db with
  | nil => exact ⟨db, fun _ _ => rfl, .refl, fun _ _ h => by cases h⟩
  | cons h rest ih =>
      have hfirst := hdue h List.mem_cons_self
      have hstep := sweeps_released hsound hfirst
      obtain ⟨swept, hends, hsweeps, hexpired⟩ := ih (hstep.sound hsound) fun h' hh' => by
        have hdue' := hdue h' (List.mem_cons_of_mem _ hh')
        refine ⟨hdue'.quantity, fun r' hr' hid => ?_⟩
        obtain ⟨r, hr, hruns⟩ := forall₂_exists hstep.reservations hr'
        rcases hruns with rfl | ⟨-, hexpires, rfl⟩
        · exact hdue'.row _ hr hid
        · exact ⟨.inr rfl, hexpires⟩
      refine ⟨swept, fun k db₀ => ?_, hstep.trans hsweeps, fun r' hr' hid => ?_⟩
      · exact (ends_releaseHold hsound hfirst.quantity).trans (hends k db₀)
      · rcases List.mem_cons.mp hid with hid | hid
        · -- released first, and left as it is by the others
          obtain ⟨r, hr, hruns⟩ := forall₂_exists hsweeps.reservations hr'
          rcases hruns with rfl | ⟨-, -, rfl⟩
          · exact released_expired hr hid
          · rfl
        · exact hexpired r' hr' hid

/-- After a sweep no hold of the ticket product has run out. -/
def Current (ticketProductId : Uuid) (db : Database) : Prop :=
  ∀ r ∈ db.reservations, r.ticketProductId = ticketProductId → settled db.directory.clock r = r

theorem due_of_mem {ticketProductId : Uuid} {h : ExpiredHold} (hsound : Sound db)
    (hh : h ∈ expiredHolds ticketProductId now db) : Due now db h := by
  obtain ⟨r₀, hr₀, hhold⟩ := List.mem_filterMap.mp hh
  obtain ⟨tp, -, rfl⟩ := Option.map_eq_some_iff.mp hhold
  obtain ⟨hmem, hout⟩ := List.mem_filter.mp hr₀
  simp only [Bool.and_eq_true, decide_eq_true_eq] at hout
  refine ⟨(hsound.quantities r₀ hmem).le, fun r hr hid => ?_⟩
  obtain rfl := List.inj_on_of_nodup_map hsound.reservationIds hr hmem hid
  exact ⟨.inl hout.1.2, hout.2⟩

/-- **The sweep of a call** ends, and leaves what a buyer sees. -/
theorem ends_releaseExpiredForProduct (ticketProductId : Uuid) (hsound : Sound db) :
    ∃ swept, (∀ k db₀, Prog.ends (releaseExpiredForProduct ticketProductId db.directory.clock k) db db₀ =
        (k ⟨⟩).ends swept db₀) ∧
      Sweeps db.directory.clock db swept ∧
      ((db.catalogue.ticketProducts.find? (·.id = ticketProductId)).isSome →
        Current ticketProductId swept) := by
  obtain ⟨swept, hends, hsweeps, hexpired⟩ := ends_releaseHolds hsound
    fun h hh => due_of_mem hsound hh
  refine ⟨swept, fun k db₀ => ?_, hsweeps, fun hproduct r' hr' hfor => ?_⟩
  · unfold releaseExpiredForProduct
    rw [ends_bind, ends_selectFor]
    exact hends k db₀
  · rw [hsweeps.directory]
    refine if_neg fun ⟨hreserved, hexpires⟩ => ?_
    obtain ⟨r, hr, hruns⟩ := forall₂_exists hsweeps.reservations hr'
    rcases hruns with rfl | ⟨-, -, rfl⟩
    · -- it would have been among the holds
      obtain ⟨tp, htp⟩ := Option.isSome_iff_exists.mp hproduct
      have hmem : (⟨r'.id, r'.orderId, r'.quantity, tp.productId⟩ : ExpiredHold) ∈
          expiredHolds ticketProductId db.directory.clock db := by
        refine List.mem_filterMap.mpr ⟨r', List.mem_filter.mpr ⟨hr, ?_⟩, ?_⟩
        · simp [hfor, hreserved, hexpires]
        · rw [htp]
          rfl
      have := hexpired r' hr' (List.mem_map.mpr ⟨_, hmem, rfl⟩)
      rw [this] at hreserved
      cases hreserved
    · cases hreserved

end Release

/-! ### What a call reads -/

/-- What a call reads of the catalogue and the stock, but for what is reserved. -/
def unreserved (a : Availability) : Availability := { a with reservedQuantity := 0 }

theorem find_stock (productId : Uuid) (h : db'.inventory.map stocked = db.inventory.map stocked) :
    (db'.inventory.find? (·.productId = productId)).map stocked =
      (db.inventory.find? (·.productId = productId)).map stocked := by
  have hfind (d : Database) : (d.inventory.find? (·.productId = productId)).map stocked =
      (d.inventory.map stocked).find? (·.1 = productId) := by
    rw [List.find?_map]
    rfl
  rw [hfind, hfind, h]

theorem availability_sight (ticketProductId : Uuid) (h : sight b db' = sight b db) :
    (availability ticketProductId db').map unreserved = (availability ticketProductId db).map unreserved := by
  have hcatalogue : db'.catalogue = db.catalogue := congrArg Sight.catalogue h
  have hstock : db'.inventory.map stocked = db.inventory.map stocked := congrArg Sight.stock h
  unfold availability
  rw [hcatalogue]
  cases db.catalogue.ticketProducts.find? (·.id = ticketProductId) with
  | none => rfl
  | some tp =>
    simp only [Option.bind_eq_bind, Option.bind_some]
    cases db.catalogue.ticketEvents.find? (·.id = tp.ticketEventId) with
    | none => rfl
    | some te =>
      simp only [Option.bind_some]
      cases db.catalogue.products.find? (·.id = tp.productId) with
      | none => rfl
      | some p =>
        simp only [Option.bind_some]
        cases db.catalogue.prices.find? fun pp => pp.productId = p.id && pp.isActive with
        | none => rfl
        | some pp =>
          simp only [Option.bind_some]
          have hfind := find_stock p.id hstock
          cases hi : db.inventory.find? (·.productId = p.id) with
          | none =>
              rw [hi, Option.map_none, Option.map_eq_none_iff] at hfind
              rw [hfind]
          | some i =>
              rw [hi, Option.map_some, Option.map_eq_some_iff] at hfind
              obtain ⟨i', hi', hsame⟩ := hfind
              obtain ⟨-, hsame⟩ := Prod.mk.inj hsame
              obtain ⟨hlimit, hfulfilled⟩ := Prod.mk.inj hsame
              rw [hi']
              simp only [Option.bind_some, Option.pure_def, Option.map_some, unreserved, hlimit, hfulfilled]

theorem settled_eq (now : Int) (r : Reservation) : ∃ status, settled now r = { r with status } := by
  unfold settled
  split
  · exact ⟨_, rfl⟩
  · exact ⟨r.status, rfl⟩

/-- The reservation under a key of the buyer. -/
def underKey (b organizationId : Uuid) (key : String) (r : Reservation) : Bool :=
  r.organizationId = organizationId && r.buyerUserId = b && r.idempotencyKey = key

theorem find_sight {organizationId : Uuid} {key : String} :
    (sight b db).reservations.find? (underKey b organizationId key) =
      (db.reservations.find? (underKey b organizationId key)).map (settled db.directory.clock) := by
  show ((db.reservations.map _).filter _).find? _ = _
  rw [List.find?_filter, List.find?_map]
  congr 2
  funext r
  obtain ⟨status, heq⟩ := settled_eq db.directory.clock r
  simp only [Function.comp, heq, underKey]
  by_cases hb : r.buyerUserId = b
  · simp [hb]
  · simp [hb]

theorem existingQuantity_sight {ticketProductId : Uuid} (h : Current ticketProductId db) :
    existingQuantity ticketProductId b db =
      total (Stock.heldIn ticketProductId b) (sight b db).reservations := by
  rw [Stock.existingQuantity_eq]
  have hsight : (sight b db).reservations =
      (db.reservations.map (settled db.directory.clock)).filter (·.buyerUserId = b) := rfl
  rw [hsight]
  unfold Current at h
  generalize db.reservations = rows at h ⊢
  induction rows with
  | nil => rfl
  | cons r rest ih =>
      have hrest := ih fun r' hr' => h r' (List.mem_cons_of_mem _ hr')
      have hr := h r List.mem_cons_self
      obtain ⟨status, heq⟩ := settled_eq db.directory.clock r
      rw [List.map_cons, List.filter_cons, total_cons, hrest]
      by_cases hb : r.buyerUserId = b
      · rw [if_pos (by simp [heq, hb]), total_cons]
        by_cases hfor : r.ticketProductId = ticketProductId
        · rw [hr hfor]
        · simp [Stock.heldIn, heq, hfor]
      · rw [if_neg (by simp [heq, hb])]
        simp [Stock.heldIn, hb]

/-! ### What a call writes -/

/-- The rows of a new reservation: an order, its item and the reservation, and what the product's
inventory is raised by. -/
structure Placement where
  order : Order
  item : OrderItem
  reservation : Reservation
  productId : Uuid
  quantity : Int

/-- The rows belong together, and their ids are those that were drawn. -/
structure Placement.Coherent (p : Placement) (ids : ReservationIds) : Prop where
  order : p.order.id = ids.order
  item : p.item.id = ids.item ∧ p.item.orderId = ids.order
  reservation : p.reservation.id = ids.reservation ∧ p.reservation.orderId = ids.order
  buyer : p.order.buyerUserId = p.reservation.buyerUserId
  positive : 0 < p.reservation.quantity

def Placement.raise (p : Placement) (i : Inventory) : Inventory :=
  { i with reservedQuantity := i.reservedQuantity + p.quantity }

def Placement.admits (p : Placement) (i : Inventory) : Bool :=
  i.productId = p.productId &&
    i.supplyLimit.all fun limit => i.reservedQuantity + i.fulfilledQuantity + p.quantity ≤ limit

/-- The state with the rows. -/
def Placement.place (p : Placement) (db : Database) : Database :=
  let db := orderTable.add p.order db
  let db := orderItemTable.add p.item db
  let db := inventoryTable.modify p.admits p.raise db db
  reservationTable.add p.reservation db

/-- The end of a call, from the insertion of the order on. -/
def Placement.handler (p : Placement) : Handler Response := do
  insertOrder mapDatabaseError p.order
  insertOrderItem mapDatabaseError p.item
  let updated ← reserveInventory mapDatabaseError p.productId p.quantity
  Tx.require (updated = 1) (.error (.conflict "ticket_inventory_unavailable"))
  insertReservation p.reservation
  Tx.commit
  return ⟨.created, p.reservation.id⟩

section Place

variable {p : Placement}

theorem sight_place : sight b (p.place db) =
    { sight b db with
      reservations := (sight b db).reservations ++
        [settled db.directory.clock p.reservation].filter (·.buyerUserId = b)
      orderKeys := (sight b db).orderKeys ++ ([p.order].filter (·.buyerUserId = b)).map orderKey } := by
  have hstock : (p.place db).inventory.map stocked = db.inventory.map stocked :=
    map_updateWhere (f := p.raise) fun _ => rfl
  have hreservations : (p.place db).reservations = db.reservations ++ [p.reservation] := rfl
  have horders : (p.place db).orders = db.orders ++ [p.order] := rfl
  unfold sight
  rw [hstock, hreservations, horders, List.map_append, List.filter_append, List.filter_append,
    List.map_append]
  rfl

/-- A reservation of somebody else is not seen. -/
theorem sight_place_other (horder : p.order.buyerUserId ≠ b) (hreservation : p.reservation.buyerUserId ≠ b) :
    sight b (p.place db) = sight b db := by
  have hstatus : (settled db.directory.clock p.reservation).buyerUserId ≠ b := by
    obtain ⟨status, heq⟩ := settled_eq db.directory.clock p.reservation
    rw [heq]
    exact hreservation
  rw [sight_place, List.filter_cons_of_neg (by simpa using hstatus),
    List.filter_cons_of_neg (by simpa using horder)]
  simp only [List.filter_nil, List.append_nil, List.map_nil]

theorem sight_place_same (h : sight b db' = sight b db) : sight b (p.place db') = sight b (p.place db) := by
  have hdirectory : db'.directory = db.directory := congrArg Sight.directory h
  rw [sight_place, sight_place, h, hdirectory]

theorem sound_place {ids : ReservationIds} (hsound : Sound db) (hcoherent : p.Coherent ids)
    (hraised : ∀ i ∈ db.inventory, p.admits i = true → inventoryViolation (p.raise i) = none)
    (hid : ∀ r ∈ db.reservations, r.id ≠ p.reservation.id) : Sound (p.place db) where
  reservationIds := by
    show ((db.reservations ++ [p.reservation]).map _).Nodup
    rw [List.map_append, List.map_singleton, List.nodup_append]
    refine ⟨hsound.reservationIds, List.nodup_singleton _, fun id hmem id' hmem' heq => ?_⟩
    obtain ⟨r, hr, rfl⟩ := List.mem_map.mp hmem
    exact hid r hr (heq.trans (List.mem_singleton.mp hmem'))
  productIds := by
    have hkeys : (p.place db).inventory.map (·.productId) = db.inventory.map (·.productId) :=
      map_updateWhere (f := p.raise) fun _ => rfl
    rw [hkeys]
    exact hsound.productIds
  counters i hi := by
    obtain ⟨i₀, hi₀, rfl⟩ := mem_updateWhere.mp hi
    split
    · exact hraised i₀ hi₀ (Bool.and_eq_true_iff.mp ‹_›).1
    · exact hsound.counters i₀ hi₀
  quantities r hr := by
    rcases List.mem_append.mp hr with hr | hr
    · exact hsound.quantities r hr
    · rw [List.mem_singleton.mp hr]
      exact hcoherent.positive
  prices := hsound.prices

/-- The ids of two calls. -/
structure Apart (ids ids' : ReservationIds) : Prop where
  order : ids.order ≠ ids'.order
  reservation : ids.reservation ≠ ids'.reservation
  item : ids.item ≠ ids'.item

theorem unused_place {ids ids' : ReservationIds} (hcoherent : p.Coherent ids) (hapart : Apart ids ids')
    (hunused : Unused ids' db) : Unused ids' (p.place db) where
  orders o ho := by
    rcases List.mem_append.mp ho with ho | ho
    · exact hunused.orders o ho
    · rw [List.mem_singleton.mp ho, hcoherent.order]
      exact hapart.order
  orderItems i hi := by
    rcases List.mem_append.mp hi with hi | hi
    · exact hunused.orderItems i hi
    · rw [List.mem_singleton.mp hi, hcoherent.item.1, hcoherent.item.2]
      exact ⟨hapart.item, hapart.order⟩
  reservations r hr := by
    rcases List.mem_append.mp hr with hr | hr
    · exact hunused.reservations r hr
    · rw [List.mem_singleton.mp hr, hcoherent.reservation.1, hcoherent.reservation.2]
      exact ⟨hapart.reservation, hapart.order⟩

/-- There is enough of the product for the quantity. -/
def Supplies (productId : Uuid) (quantity : Int) (db : Database) : Prop :=
  ∀ i ∈ db.inventory, i.productId = productId →
    (∀ limit, i.supplyLimit = some limit → i.reservedQuantity + i.fulfilledQuantity + quantity ≤ limit) ∧
      i.reservedQuantity + i.fulfilledQuantity + quantity < 2 ^ 63

/-- No order has the key. -/
def KeyFree (o : Order) (db : Database) : Prop :=
  ∀ o' ∈ db.orders, ¬ (o'.organizationId = o.organizationId ∧ o'.idempotencyKey = o.idempotencyKey)

theorem raise_violation {i : Inventory} (hsound : Sound db) (hi : i ∈ db.inventory)
    (hproduct : i.productId = p.productId) (hsupplies : Supplies p.productId p.quantity db)
    (hquantity : 0 < p.quantity) : inventoryViolation (p.raise i) = none := by
  obtain ⟨hlimit, hrange⟩ := hsupplies i hi hproduct
  obtain ⟨⟨hreserved, hfulfilled⟩, hpositive, hpositive', -⟩ :=
    inventoryViolation_eq.mp (hsound.counters i hi)
  refine inventoryViolation_eq.mpr ⟨⟨⟨?_, ?_⟩, hfulfilled⟩, ?_, hpositive', fun limit h => ?_⟩
  · show _ ≤ i.reservedQuantity + p.quantity
    omega
  · show i.reservedQuantity + p.quantity < _
    omega
  · show 0 ≤ i.reservedQuantity + p.quantity
    omega
  · have := hlimit limit h
    show i.reservedQuantity + p.quantity + i.fulfilledQuantity ≤ limit
    omega

theorem admits_of_supplies {i : Inventory} (hi : i ∈ db.inventory) (hproduct : i.productId = p.productId)
    (hsupplies : Supplies p.productId p.quantity db) : p.admits i = true := by
  obtain ⟨hlimit, -⟩ := hsupplies i hi hproduct
  unfold Placement.admits
  rw [Bool.and_eq_true, Option.all_eq_true]
  exact ⟨decide_eq_true hproduct, fun limit h => decide_eq_true (hlimit limit h)⟩

theorem orderViolation_none {ids : ReservationIds} {o : Order} (hid : o.id = ids.order)
    (hunused : Unused ids db) (hkey : KeyFree o db) (hamount : 0 < o.amountMinor) :
    orderViolation o db = none := by
  unfold orderViolation
  rw [if_neg, if_neg (by omega)]
  intro hany
  obtain ⟨o', ho', hclash⟩ := List.any_eq_true.mp hany
  simp only [Bool.or_eq_true, Bool.and_eq_true, decide_eq_true_eq] at hclash
  rcases hclash with hsame | hsame
  · exact hunused.orders o' ho' (hsame.trans hid)
  · exact hkey o' ho' hsame

theorem orderItemViolation_none {ids : ReservationIds} (hunused : Unused ids db)
    (hcoherent : p.Coherent ids) : orderItemViolation p.item (orderTable.add p.order db) = none := by
  unfold orderItemViolation
  rw [if_neg, if_neg]
  · rw [Option.isNone_iff_eq_none]
    intro hnone
    refine List.find?_eq_none.mp hnone p.order (List.mem_append_right _ (List.mem_singleton_self _)) ?_
    rw [hcoherent.order, hcoherent.item.2]
    exact decide_eq_true rfl
  · intro hany
    obtain ⟨i, hi, hclash⟩ := List.any_eq_true.mp hany
    obtain ⟨hid, horder⟩ := hunused.orderItems i hi
    simp only [Bool.or_eq_true, Bool.and_eq_true, decide_eq_true_eq] at hclash
    rcases hclash with hsame | ⟨hsame, -⟩
    · exact hid (hsame.trans hcoherent.item.1)
    · exact horder (hsame.trans hcoherent.item.2)

/-- Nothing but the keys of orders stands in the way of the rows. -/
structure Ready (p : Placement) (ids : ReservationIds) (db : Database) : Prop where
  sound : Sound db
  unused : Unused ids db
  coherent : p.Coherent ids
  amount : 0 < p.order.amountMinor
  first : ∀ r ∈ db.reservations, ¬ (r.organizationId = p.reservation.organizationId ∧
    r.buyerUserId = p.reservation.buyerUserId ∧ r.idempotencyKey = p.reservation.idempotencyKey)
  product : ∃ i ∈ db.inventory, i.productId = p.productId
  supplies : Supplies p.productId p.quantity db
  quantity : 0 < p.quantity

theorem Ready.reservationViolation {ids : ReservationIds} (h : Ready p ids db)
    (hreservations : db'.reservations = db.reservations) (hin : p.order ∈ db'.orders) :
    reservationViolation p.reservation db' = none := by
  unfold Ticketing.reservationViolation
  rw [hreservations, if_neg, if_neg, if_neg (by have := h.coherent.positive; omega)]
  · rw [Option.isNone_iff_eq_none]
    intro hnone
    refine List.find?_eq_none.mp hnone p.order hin ?_
    rw [h.coherent.order, h.coherent.reservation.2]
    exact decide_eq_true rfl
  · intro hany
    obtain ⟨r, hr, hclash⟩ := List.any_eq_true.mp hany
    obtain ⟨hid, horder⟩ := h.unused.reservations r hr
    simp only [Bool.or_eq_true, Bool.and_eq_true, decide_eq_true_eq] at hclash
    rcases hclash with (hsame | hsame) | ⟨⟨horg, hbuyer⟩, hkey⟩
    · exact hid (hsame.trans h.coherent.reservation.1)
    · exact horder (hsame.trans h.coherent.reservation.2)
    · exact h.first r hr ⟨horg, hbuyer, hkey⟩

theorem Ready.one_row {ids : ReservationIds} (h : Ready p ids db) :
    (inventoryTable.matching p.admits db).length = 1 := by
  obtain ⟨i, hi, hfor⟩ := h.product
  have hfind : inventoryTable.find db i.productId = some i :=
    inventoryTable.find_of_mem h.sound.productIds hi
  refine Eq.trans ?_ (inventoryTable.length_matching_key (p := p.admits) h.sound.productIds hfind
    (admits_of_supplies hi hfor h.supplies))
  congr 1
  refine List.filter_congr fun j _ => ?_
  show p.admits j = (decide (j.productId = i.productId) && p.admits j)
  rw [hfor]
  unfold Placement.admits
  cases decide (j.productId = p.productId) <;> rfl

theorem Ready.fits {ids : ReservationIds} (h : Ready p ids db) :
    ((inventoryTable.find db p.productId).all fun i => i.supplyLimit.all fun _ =>
      inI64 (i.reservedQuantity + i.fulfilledQuantity + p.quantity)) = true := by
  rw [Option.all_eq_true]
  intro i hi
  obtain ⟨hmem, hfor⟩ := inventoryTable.find_mem hi
  obtain ⟨-, hpositive, hpositive', -⟩ := inventoryViolation_eq.mp (h.sound.counters i hmem)
  have hrange := (h.supplies i hmem hfor).2
  have hquantity := h.quantity
  rw [Option.all_eq_true]
  exact fun _ _ => decide_eq_true ⟨by omega, hrange⟩

theorem raise_of_none {map : SqlError → ApiError} {e : Option SqlError} (h : e = none) :
    raise map e = none := by
  rw [h]
  rfl

/-- **A reservation is placed** if it is ready and no order has its key. -/
theorem ends_place {ids : ReservationIds} (db₀ : Database) (h : Ready p ids db)
    (hkey : KeyFree p.order db) :
    p.handler.request.ends db db₀ = some (.ok ⟨.created, p.reservation.id⟩, p.place db) := by
  unfold Handler.request Placement.handler insertOrder insertOrderItem reserveInventory updateInventory
    updateInventoryAt insertReservation
  rw [ends_bind, Tx.insertRow, ends_insert
      (by exact raise_of_none (orderViolation_none h.coherent.order h.unused hkey h.amount)), ends_bind,
    Tx.insertRow, ends_insert (by exact raise_of_none (orderItemViolation_none h.unused h.coherent)),
    ends_bind, ends_bind, ends_select, ends_bind, ends_require (by exact h.fits),
    ends_update fun j hj => ?_, ends_bind]
  · show Prog.ends (Tx.require (decide ((inventoryTable.matching p.admits _).length = 1)) _ _) _ _ = _
    have hnone : Ticketing.reservationViolation p.reservation (inventoryTable.modify p.admits p.raise
        (orderItemTable.add p.item (orderTable.add p.order db))
        (orderItemTable.add p.item (orderTable.add p.order db))) = none :=
      h.reservationViolation rfl (List.mem_append_right _ (List.mem_singleton_self _))
    have hone : (inventoryTable.matching p.admits (orderItemTable.add p.item
        (orderTable.add p.order db))).length = 1 := h.one_row
    rw [ends_require (decide_eq_true hone), ends_bind, Tx.insertRow,
      ends_insert (by exact raise_of_none hnone)]
    rfl
  · obtain ⟨hj, hadmits⟩ := inventoryTable.mem_matching.mp hj
    have hfor : j.productId = p.productId := of_decide_eq_true (Bool.and_eq_true_iff.mp hadmits).1
    have hnone : inventoryViolation (p.raise j) = none :=
      raise_violation h.sound hj hfor h.supplies h.quantity
    exact raise_of_none hnone

end Place

end CrownFi.Commerce.Buyers
