import CrownFi.Commerce.Buyers
import CrownFi.Commerce.Payments

/-!
# CrownFi.Commerce.BuyerKeys

**Buyers and the keys of other buyers.** Two histories of reservations differ only in the keys that
other buyers chose. A reservation's own key is unique for each buyer, but its order is written under
the same key, and there it is unique in the organization. So the buyer is answered alike in both
histories exactly when, at each of the calls that would be served if nobody else had an order, the
key is taken by others in both histories or in neither.
-/

namespace CrownFi.Commerce.Buyers

open Lib CrownFi.Api Ticketing

/-! ### Calls -/

/-- A call some time after the one before. -/
structure Call where
  delay : Nat
  buyerUserId : Uuid
  ticketProductId : Uuid
  body : CreateReservationRequest
  ids : ReservationIds
  deriving DecidableEq

def Call.request (sha256 : Sha256) (c : Call) : Prog Database Row Site Result :=
  (createReservation sha256 c.buyerUserId c.ticketProductId c.body c.ids).request

/-- Time passes. -/
def later (delay : Nat) (db : Database) : Database :=
  { db with directory := { db.directory with clock := db.directory.clock + delay } }

/-- The answer to a call. -/
def Call.answer (sha256 : Sha256) (c : Call) (db : Database) : Result :=
  (c.request sha256).result (later c.delay db)

/-- What a call leaves. -/
def Call.after (sha256 : Sha256) (c : Call) (db : Database) : Database :=
  (c.request sha256).leaves (later c.delay db) (later c.delay db)

/-- The answer that a new reservation gets. -/
def Call.created (c : Call) : Result := .ok ⟨.created, c.ids.reservation⟩

def alreadyExists : Result := .error (.conflict "ticket_resource_already_exists")

/-- There is enough for the call. -/
def Supplied (c : Call) (db : Database) : Prop :=
  ∀ tp, db.catalogue.ticketProducts.find? (·.id = c.ticketProductId) = some tp →
    Supplies tp.productId c.body.quantity db

/-- An order of another buyer of the organization has the key of the call. -/
def Taken (c : Call) (db : Database) : Prop :=
  ∃ a key, availability c.ticketProductId db = some a ∧
    requiredText c.body.idempotencyKey 200 "invalid_ticket_idempotency_key" = .ok key ∧
    ∃ o ∈ db.orders, o.buyerUserId ≠ c.buyerUserId ∧ o.organizationId = a.organizationId ∧
      o.idempotencyKey = key

/-- The shop without the orders of others. -/
def withoutOthers (b : Uuid) (db : Database) : Database :=
  { db with orders := db.orders.filter (·.buyerUserId = b) }

/-! ### What a call finds -/

variable {sha256 : Sha256} {b : Uuid} {db db' : Database} {c : Call}

/-- The rows that an availability is read from. -/
structure Read (ticketProductId : Uuid) (db : Database) (a : Availability) : Prop where
  product : ∃ tp, db.catalogue.ticketProducts.find? (·.id = ticketProductId) = some tp ∧
    tp.productId = a.productId
  price : ∃ pp ∈ db.catalogue.prices, a.amountMinor = pp.amountMinor
  inventory : ∃ i ∈ db.inventory, i.productId = a.productId ∧ i.supplyLimit = a.supplyLimit ∧
    i.reservedQuantity = a.reservedQuantity ∧ i.fulfilledQuantity = a.fulfilledQuantity

theorem availability_read {ticketProductId : Uuid} {a : Availability}
    (h : availability ticketProductId db = some a) : Read ticketProductId db a := by
  simp only [availability, Option.bind_eq_bind, Option.bind_eq_some_iff, Option.pure_def,
    Option.some.injEq] at h
  obtain ⟨tp, htp, te, hte, p, hp, pp, hpp, i, hi, rfl⟩ := h
  have hproduct : p.id = tp.productId := by simpa using List.find?_some hp
  have hrow : i.productId = p.id := by simpa using List.find?_some hi
  exact ⟨⟨tp, htp, hproduct.symm⟩, ⟨pp, List.mem_of_find?_eq_some hpp, rfl⟩,
    ⟨i, List.mem_of_find?_eq_some hi, hrow, rfl, rfl, rfl⟩⟩

theorem Sweeps.supplies {now : Int} {productId : Uuid} {quantity : Int} (h : Sweeps now db db')
    (hsupplies : Supplies productId quantity db) : Supplies productId quantity db' := by
  intro i' hi' hproduct
  obtain ⟨i, hi, n, hle, -, rfl⟩ := forall₂_exists h.inventory hi'
  obtain ⟨hlimit, hrange⟩ := hsupplies i hi hproduct
  refine ⟨fun limit h => ?_, ?_⟩
  · have := hlimit limit h
    show n + i.fulfilledQuantity + _ ≤ limit
    omega
  · show n + i.fulfilledQuantity + _ < _
    omega

/-- With enough of the product the call passes the check of the supply. -/
theorem supply_check {a : Availability} {quantity : Int} (hsound : Sound db)
    (hread : Read c.ticketProductId db a) (hquantity : 0 < quantity)
    (hsupplies : Supplies a.productId quantity db) :
    (a.supplyLimit.all fun limit =>
      wrapI64 (a.reservedQuantity + a.fulfilledQuantity + quantity) ≤ limit) = true := by
  obtain ⟨i, hi, hproduct, hlimit, hreserved, hfulfilled⟩ := hread.inventory
  obtain ⟨hfits, hrange⟩ := hsupplies i hi hproduct
  obtain ⟨-, hpositive, hpositive', -⟩ := inventoryViolation_eq.mp (hsound.counters i hi)
  rw [← hlimit, ← hreserved, ← hfulfilled, Option.all_eq_true]
  intro limit h
  rw [wrapI64_of_inI64 ⟨by omega, hrange⟩]
  exact decide_eq_true (hfits limit h)

/-- The rows that a call asks for. -/
def Call.placement (sha256 : Sha256) (c : Call) (a : Availability) (now : Int) (key : String) (total : Int) :
    Placement where
  order :=
    { id := c.ids.order, organizationId := a.organizationId, buyerUserId := c.buyerUserId
      status := .awaitingPayment, environment := .testnet, idempotencyKey := key
      requestSha256 := hashText sha256
        (reservationRequestText c.ticketProductId c.buyerUserId c.body.quantity key)
      amountMinor := total, asset := a.asset, expiresAt := some (now + seconds (60 * reservationMinutes)) }
  item :=
    { id := c.ids.item, orderId := c.ids.order, productId := a.productId, productName := a.productName
      quantity := c.body.quantity, unitAmountMinor := a.amountMinor, totalAmountMinor := total
      asset := a.asset }
  reservation :=
    { id := c.ids.reservation, organizationId := a.organizationId, ticketProductId := c.ticketProductId
      orderId := c.ids.order, buyerUserId := c.buyerUserId, quantity := c.body.quantity
      status := .reserved, idempotencyKey := key
      requestSha256 := hashText sha256
        (reservationRequestText c.ticketProductId c.buyerUserId c.body.quantity key)
      expiresAt := now + seconds (60 * reservationMinutes) }
  productId := a.productId
  quantity := c.body.quantity

theorem coherent_placement {a : Availability} {now total : Int} {key : String}
    (hquantity : 0 < c.body.quantity) : (c.placement sha256 a now key total).Coherent c.ids :=
  ⟨rfl, ⟨rfl, rfl⟩, ⟨rfl, rfl⟩, rfl, hquantity⟩

/-! ### A call alone -/

/-- What any call leaves: the constraints, what other buyers see, and the ids of other calls. -/
structure Leaves (b : Uuid) (c : Call) (db db' : Database) : Prop where
  sound : Sound db'
  sight : c.buyerUserId ≠ b → Buyers.sight b db' = Buyers.sight b db
  unused : ∀ ids, Apart c.ids ids → Unused ids db → Unused ids db'

/-- The constraints of the tables admit the rows of an order, and its product has an inventory row that
admits the quantity. -/
structure Admits (o : Order) (i : OrderItem) (productId : Uuid) (quantity : Int) (db : Database) : Prop where
  order : orderViolation o db = none
  item : orderItemViolation i (orderTable.add o db) = none
  row : ∃ j ∈ db.inventory, j.productId = productId ∧
    (j.supplyLimit.all fun limit => j.reservedQuantity + j.fulfilledQuantity + quantity ≤ limit) = true
  raised : ∀ j ∈ db.inventory, (j.productId = productId && j.supplyLimit.all fun limit =>
      j.reservedQuantity + j.fulfilledQuantity + quantity ≤ limit) = true →
    inventoryViolation { j with reservedQuantity := j.reservedQuantity + quantity } = none

/-- The state with an order, its item, and the quantity reserved. -/
def withOrder (o : Order) (i : OrderItem) (productId : Uuid) (quantity : Int) (db : Database) : Database :=
  let db := orderTable.add o db
  let db := orderItemTable.add i db
  inventoryTable.modify (fun j => j.productId = productId && j.supplyLimit.all fun limit =>
      j.reservedQuantity + j.fulfilledQuantity + quantity ≤ limit)
    (fun j => { j with reservedQuantity := j.reservedQuantity + quantity }) db db

theorem raised_alone {Q : Result → Database → Prop} {map : SqlError → ApiError} {e : Option SqlError}
    {r : Result} (refused : ∀ e, Q (.error (map e)) db') (h : raise map e = some r) : Q r db' := by
  obtain ⟨err, -, rfl⟩ := Option.map_eq_some_iff.mp h
  exact refused err

/-- **An order, its item and the stock** are written together, in either channel. -/
theorem order_alone {Q : Result → Database → Prop} {map : SqlError → ApiError} {o : Order} {i : OrderItem}
    {productId : Uuid} {quantity : Int} {e : ApiError} {k : PUnit → Prog Database Row Site Result}
    (refused : ∀ e, Q (.error (map e)) db') (short : Q (.error e) db')
    (next : Admits o i productId quantity db → (k ⟨⟩).Alone Q (withOrder o i productId quantity db) db') :
    Prog.Alone Q (insertOrder map o fun _ => insertOrderItem map i fun _ =>
      reserveInventory map productId quantity fun updated =>
        Tx.require (updated = 1) (.error e) k) db db' := by
  unfold insertOrder insertOrderItem reserveInventory updateInventory updateInventoryAt
  refine alone_insert (fun _ => raised_alone refused) fun horder => ?_
  refine alone_insert (fun _ => raised_alone refused) fun hitem => ?_
  refine alone_bind (alone_select (alone_bind (alone_require (refused _) fun _ => ?_)))
  refine alone_update (fun _ _ _ => raised_alone refused) fun hchecks => ?_
  refine alone_require short fun hone => ?_
  refine next ⟨raise_none horder, raise_none hitem, ?_, fun j hj hadmits => ?_⟩
  · obtain ⟨j, hj⟩ := List.length_eq_one_iff.mp (of_decide_eq_true hone)
    obtain ⟨hmem, hadmits⟩ := inventoryTable.mem_matching.mp (hj ▸ List.mem_singleton_self j)
    obtain ⟨hproduct, hlimit⟩ := Bool.and_eq_true_iff.mp hadmits
    exact ⟨j, hmem, of_decide_eq_true hproduct, hlimit⟩
  · exact raise_none (hchecks j (inventoryTable.mem_matching.mpr ⟨hj, hadmits⟩))

/-- The constraints admit all rows of a placement. -/
structure Placement.Fits (p : Placement) (db : Database) : Prop where
  order : Admits p.order p.item p.productId p.quantity db
  reservation : reservationViolation p.reservation (withOrder p.order p.item p.productId p.quantity db) = none

theorem Placement.Fits.raised {p : Placement} (h : p.Fits db) :
    ∀ i ∈ db.inventory, p.admits i = true → inventoryViolation (p.raise i) = none :=
  h.order.raised

theorem Placement.Fits.new {p : Placement} (h : p.Fits db) :
    ∀ r ∈ db.reservations, r.id ≠ p.reservation.id ∧ r.orderId ≠ p.reservation.orderId := by
  intro r hr
  have hnone := h.reservation
  unfold reservationViolation at hnone
  split at hnone
  · cases hnone
  · rename_i hany
    constructor
    · intro hid
      exact hany (List.any_eq_true.mpr ⟨r, hr, by simp [hid]⟩)
    · intro horder
      exact hany (List.any_eq_true.mpr ⟨r, hr, by simp [horder]⟩)

theorem placement_alone {p : Placement} {Q : Result → Database → Prop} (refused : ∀ e, Q (.error e) db')
    (placed : p.Fits db → Q (.ok ⟨.created, p.reservation.id⟩) (p.place db)) :
    p.handler.request.Alone Q db db' := by
  unfold Handler.request Placement.handler
  refine order_alone (fun _ => refused _) (refused _) fun hadmits => ?_
  unfold insertReservation
  refine alone_bind (alone_insert (fun _ => raised_alone fun _ => refused _) fun hviolation => ?_)
  exact alone_bind (alone_commit (alone_ret (placed ⟨hadmits, raise_none hviolation⟩)))

theorem call_alone (hsound : Sound db) :
    (c.request sha256).Alone (fun _ db' => Leaves b c db db') db db := by
  have hself : Leaves b c db db := ⟨hsound, fun _ => rfl, fun _ _ h => h⟩
  obtain ⟨v, hends, hsweeps, -⟩ := ends_releaseExpiredForProduct c.ticketProductId hsound
  have hswept : Leaves b c db v :=
    ⟨hsweeps.sound hsound, fun _ => hsweeps.sight, fun _ _ => hsweeps.unused⟩
  unfold Call.request Handler.request createReservation
  refine alone_bind (alone_require hself fun hquantity => ?_)
  refine alone_bind (alone_ofExcept (fun _ => hself) fun key _ => ?_)
  refine alone_bind (alone_select ?_)
  refine alone_bind (alone_ends (hends _ _) ?_)
  refine alone_bind (alone_selectFor ?_)
  refine alone_bind (alone_orElse hself fun a _ => ?_)
  refine alone_bind (alone_select ?_)
  refine alone_bind (alone_require hself fun _ => ?_)
  refine alone_bind (alone_select ?_)
  refine alone_bind (alone_require hself fun _ => ?_)
  refine alone_bind (alone_selectFor ?_)
  dsimp only
  generalize v.reservations.find? _ = existing
  cases existing with
  | some existing =>
    refine alone_bind (alone_require hself fun _ => ?_)
    exact alone_bind (alone_commit (alone_ret hswept))
  | none =>
    refine alone_bind (alone_select ?_)
    refine alone_bind (alone_require hself fun _ => ?_)
    refine alone_bind (alone_require hself fun _ => ?_)
    refine alone_bind (alone_require hself fun _ => ?_)
    refine alone_bind (alone_orElse hself fun total _ => ?_)
    have hcoherent : (c.placement sha256 a v.directory.clock key total).Coherent c.ids :=
      coherent_placement (of_decide_eq_true hquantity)
    refine placement_alone (p := c.placement sha256 a v.directory.clock key total) (fun _ => hself)
      fun hfits => ?_
    have hsound := sound_place hswept.sound hcoherent hfits.raised fun r hr => (hfits.new r hr).1
    refine ⟨hsound, fun hother => ?_, fun ids hapart hunused => ?_⟩
    · exact (sight_place_other hother hother).trans (hswept.sight hother)
    · exact unused_place hcoherent hapart (hswept.unused ids hapart hunused)

/-! ### Two calls of a buyer -/

/-- How a buyer's call is answered, beside the same call in a shop where the buyer sees the same and
nobody else has an order. -/
def Answers (c : Call) (db : Database) (x y : Result × Database) : Prop :=
  (¬ (Taken c db ∧ y.1 = c.created) ∧ x.1 = y.1 ∧
      sight c.buyerUserId x.2 = sight c.buyerUserId y.2) ∨
    (Taken c db ∧ y.1 = c.created ∧ x = (alreadyExists, db))

theorem unreserved_eq {a a' : Availability} (h : unreserved a = unreserved a') :
    a = { a' with reservedQuantity := a.reservedQuantity } := by
  cases a
  cases a'
  simp only [unreserved, Availability.mk.injEq] at h ⊢
  simp only [h, and_self]

/-- A key is free if neither the buyer's own orders nor those of others have it. -/
theorem keyFree_iff {o : Order} :
    KeyFree o db ↔ orderKey o ∉ (sight b db).orderKeys ∧ ∀ o' ∈ db.orders, o'.buyerUserId ≠ b →
      ¬ (o'.organizationId = o.organizationId ∧ o'.idempotencyKey = o.idempotencyKey) := by
  constructor
  · intro h
    refine ⟨fun hmem => ?_, fun o' ho' _ => h o' ho'⟩
    obtain ⟨o', ho', heq⟩ := List.mem_map.mp hmem
    exact h o' (List.mem_of_mem_filter ho') (Prod.mk.inj heq)
  · intro ⟨hown, hothers⟩ o' ho' hsame
    by_cases hb : o'.buyerUserId = b
    · refine hown (List.mem_map.mpr ⟨o', List.mem_filter.mpr ⟨ho', decide_eq_true hb⟩, ?_⟩)
      exact Prod.ext hsame.1 hsame.2
    · exact hothers o' ho' hb hsame

theorem ends_clash {p : Placement} {db₀ : Database} (h : ¬ KeyFree p.order db) :
    p.handler.request.ends db db₀ = some (alreadyExists, db₀) := by
  have hviolation : orderViolation p.order db = some .uniqueViolation := by
    unfold orderViolation
    refine if_pos (List.any_eq_true.mpr ?_)
    simp only [KeyFree, not_forall, not_not] at h
    obtain ⟨o, ho, hsame⟩ := h
    exact ⟨o, ho, by simp [hsame]⟩
  unfold Handler.request Placement.handler insertOrder
  rw [ends_bind, Tx.insertRow, ends_insertRefused (by rw [hviolation]; rfl)]
  rfl

theorem find_reservation_sight (organizationId : Uuid) (key : String) (h : sight b db' = sight b db) :
    Option.Rel (fun r r' => r.id = r'.id ∧ r.requestSha256 = r'.requestSha256)
      (db.reservations.find? (underKey b organizationId key))
      (db'.reservations.find? (underKey b organizationId key)) := by
  have hfind := congrArg (fun s => s.reservations.find? (underKey b organizationId key)) h
  simp only [find_sight] at hfind
  cases hr : db.reservations.find? (underKey b organizationId key) with
  | none =>
      rw [hr, Option.map_none, Option.map_eq_none_iff] at hfind
      rw [hfind]
      exact .none
  | some r =>
      rw [hr, Option.map_some, Option.map_eq_some_iff] at hfind
      obtain ⟨r', hr', heq⟩ := hfind
      obtain ⟨status, hsettled⟩ := settled_eq db.directory.clock r
      obtain ⟨status', hsettled'⟩ := settled_eq db'.directory.clock r'
      rw [hsettled, hsettled'] at heq
      rw [hr']
      simp only [Reservation.mk.injEq] at heq
      exact .some ⟨heq.1.symm, heq.2.2.2.2.2.2.2.2.1.symm⟩

theorem rel_of_map {α β : Type} {f : α → β} {o o' : Option α} (h : o.map f = o'.map f) :
    Option.Rel (fun a a' => f a = f a') o o' := by
  cases o with
  | none =>
      rw [Option.map_none, eq_comm, Option.map_eq_none_iff] at h
      rw [h]
      exact .none
  | some a =>
      rw [Option.map_some, eq_comm, Option.map_eq_some_iff] at h
      obtain ⟨a', rfl, heq⟩ := h
      exact .some heq.symm

/-- Whether the key is taken can be read after the sweep as well. -/
theorem taken_iff {a : Availability} {key : String} (h : Sweeps db.directory.clock db db')
    (ha : availability c.ticketProductId db' = some a)
    (hkey : requiredText c.body.idempotencyKey 200 "invalid_ticket_idempotency_key" = .ok key) :
    Taken c db ↔ ∃ o ∈ db'.orders, o.buyerUserId ≠ c.buyerUserId ∧
      (o.organizationId = a.organizationId ∧ o.idempotencyKey = key) := by
  have hsame := availability_sight c.ticketProductId (h.sight (b := c.buyerUserId))
  rw [ha, Option.map_some, eq_comm, Option.map_eq_some_iff] at hsame
  obtain ⟨a₀, ha₀, heq⟩ := hsame
  have horganization : a₀.organizationId = a.organizationId :=
    (congrArg Availability.organizationId heq : _)
  constructor
  · rintro ⟨a₁, key₁, ha₁, hkey₁, o, ho, hbuyer, horg, hsamekey⟩
    obtain rfl := Option.some.inj (ha₀.symm.trans ha₁)
    obtain rfl := Except.ok.inj (hkey.symm.trans hkey₁)
    obtain ⟨o', ho', status, rfl⟩ := forall₂_exists (List.Forall₂.flip (R := flip Moved) h.orders) ho
    exact ⟨_, ho', hbuyer, horg.trans horganization, hsamekey⟩
  · rintro ⟨o', ho', hbuyer, horg, hsamekey⟩
    obtain ⟨o, ho, status, rfl⟩ := forall₂_exists h.orders ho'
    exact ⟨a₀, key, ha₀, hkey, o, ho, hbuyer, Eq.trans horg horganization.symm, hsamekey⟩

/-- The end of a call in both shops. -/
theorem placement_twins {p : Placement} {v v' : Database} (hready : Ready p c.ids v)
    (hready' : Ready p c.ids v') (hsight : sight c.buyerUserId v' = sight c.buyerUserId v)
    (hown : ∀ o ∈ v'.orders, o.buyerUserId = c.buyerUserId)
    (htaken : Taken c db ↔ ∃ o ∈ v.orders, o.buyerUserId ≠ c.buyerUserId ∧
      (o.organizationId = p.order.organizationId ∧ o.idempotencyKey = p.order.idempotencyKey))
    (hrefuse : Answers c db (alreadyExists, db) (alreadyExists, db')) :
    p.handler.request.Twins (Answers c db) p.handler.request v db v' db' := by
  have hcreated : (.ok ⟨.created, p.reservation.id⟩ : Result) = c.created := by
    rw [hready.coherent.reservation.1]
    rfl
  by_cases hmine : orderKey p.order ∈ (sight c.buyerUserId v).orderKeys
  · -- the buyer has an order with the key already
    refine twins_of_ends (ends_clash ?_) (ends_clash ?_) hrefuse
    · exact fun hfree => (keyFree_iff.mp hfree).1 hmine
    · exact fun hfree => (keyFree_iff.mp hfree).1 (hsight ▸ hmine)
  · have hfree' : KeyFree p.order v' :=
      keyFree_iff.mpr ⟨hsight ▸ hmine, fun o ho hother => absurd (hown o ho) hother⟩
    have hends' := ends_place db' hready' hfree'
    by_cases hclash : Taken c db
    · obtain ⟨o, ho, -, hsame⟩ := htaken.mp hclash
      exact twins_of_ends (ends_clash fun hfree => hfree o ho hsame) hends' (.inr ⟨hclash, hcreated, rfl⟩)
    · have hfree : KeyFree p.order v := keyFree_iff.mpr
        ⟨hmine, fun o ho hother hsame => hclash (htaken.mpr ⟨o, ho, hother, hsame⟩)⟩
      refine twins_of_ends (ends_place db hready hfree) hends' (.inl ⟨fun h => hclash h.1, rfl, ?_⟩)
      exact (sight_place_same hsight).symm

/-- **A buyer's call is answered from what the buyer sees**, but for the keys of others. -/
theorem call_twins (hsame : sight c.buyerUserId db' = sight c.buyerUserId db) (hsound : Sound db)
    (hsound' : Sound db') (hunused : Unused c.ids db) (hunused' : Unused c.ids db')
    (hsupplied : Supplied c db) (hsupplied' : Supplied c db')
    (hown : ∀ o ∈ db'.orders, o.buyerUserId = c.buyerUserId) :
    (c.request sha256).Twins (Answers c db) (c.request sha256) db db db' db' := by
  have hrefuse (e : ApiError) : Answers c db (.error e, db) (.error e, db') :=
    .inl ⟨(fun h => by cases h.2), rfl, hsame.symm⟩
  obtain ⟨v, hends, hsweeps, hcurrent⟩ :=
    ends_releaseExpiredForProduct c.ticketProductId hsound
  obtain ⟨v', hends', hsweeps', hcurrent'⟩ :=
    ends_releaseExpiredForProduct c.ticketProductId hsound'
  have hsight : sight c.buyerUserId v' = sight c.buyerUserId v :=
    (hsweeps'.sight.trans hsame).trans hsweeps.sight.symm
  have hdirectory : v'.directory = v.directory := congrArg Sight.directory hsight
  have hcatalogue : db'.catalogue = db.catalogue := congrArg Sight.catalogue hsame
  unfold Call.request Handler.request createReservation
  refine twins_bind (twins_require rfl (hrefuse _) fun hquantity => ?_)
  refine twins_bind (twins_ofExcept (fun e _ => hrefuse e) fun key hkey => ?_)
  refine twins_bind (twins_select ?_)
  refine twins_bind (twins_ends (hends _ _) (hends' _ _) ?_)
  refine twins_bind (twins_selectFor ?_)
  have hrel : Option.Rel (fun a a' => unreserved a = unreserved a') (availability c.ticketProductId v)
      (availability c.ticketProductId v') := by
    exact rel_of_map (availability_sight _ hsight).symm
  refine twins_bind (twins_orElse hrel (hrefuse _) fun a a' ha ha' hsameRow => ?_)
  obtain ⟨n, rfl⟩ : ∃ n, a' = { a with reservedQuantity := n } := ⟨_, unreserved_eq hsameRow.symm⟩
  refine twins_bind (twins_select ?_)
  show Prog.Twins _ _ _ v db v' db'
  rw [hdirectory]
  refine twins_bind (twins_require rfl (hrefuse _) fun _ => ?_)
  refine twins_bind (twins_select ?_)
  refine twins_bind (twins_require (by rw [hdirectory]) (hrefuse _) fun _ => ?_)
  refine twins_bind (twins_selectFor ?_)
  have hexisting := find_reservation_sight a.organizationId key hsight
  unfold underKey at hexisting
  dsimp only
  generalize he : v.reservations.find? _ = existing at hexisting ⊢
  generalize he' : v'.reservations.find? _ = existing' at hexisting ⊢
  cases hexisting with
  | @some r r' h =>
    -- a call that was served before
    obtain ⟨hid, hsha⟩ := h
    refine twins_bind (twins_require (by rw [hsha]) (hrefuse _) fun _ => ?_)
    refine twins_bind (twins_commit ?_)
    exact .inl ⟨(fun h => by cases h.2), by rw [hid]; rfl, hsight.symm⟩
  | none =>
    have hread := availability_read ha
    have hread' := availability_read ha'
    have hquantity := of_decide_eq_true hquantity
    obtain ⟨tp, htp, hproduct⟩ := hread.product
    have hsupplies : Supplies a.productId c.body.quantity v := by
      rw [hsweeps.catalogue] at htp
      exact hproduct ▸ hsweeps.supplies (hsupplied tp htp)
    have hsupplies' : Supplies a.productId c.body.quantity v' := by
      rw [hsweeps.catalogue, ← hcatalogue] at htp
      exact hproduct ▸ hsweeps'.supplies (hsupplied' tp htp)
    have hheld : existingQuantity c.ticketProductId c.buyerUserId v' =
        existingQuantity c.ticketProductId c.buyerUserId v := by
      have hfound := Option.isSome_of_eq_some htp
      rw [existingQuantity_sight (hcurrent (hsweeps.catalogue ▸ hfound)),
        existingQuantity_sight (hcurrent' (hcatalogue ▸ hsweeps.catalogue ▸ hfound)), hsight]
    refine twins_bind (twins_select ?_)
    refine twins_bind (twins_require (by rw [hheld]) (hrefuse _) fun _ => ?_)
    refine twins_bind (twins_require (by rw [hheld]) (hrefuse _) fun _ => ?_)
    refine twins_bind (twins_require ?_ (hrefuse _) fun _ => ?_)
    · rw [supply_check (hsweeps.sound hsound) hread hquantity hsupplies]
      exact (supply_check (hsweeps'.sound hsound') hread' hquantity hsupplies').symm
    refine twins_bind (twins_orElse (S := Eq) ?_ (hrefuse _) fun total total' ht ht' hsum => ?_)
    · cases checkedI64 (a.amountMinor * c.body.quantity) with
      | none => exact .none
      | some total => exact .some rfl
    obtain rfl := hsum
    have hcoherent : (c.placement sha256 a v.directory.clock key total).Coherent c.ids :=
      coherent_placement hquantity
    have hamount : 0 < total := by
      obtain ⟨pp, hpp, hprice⟩ := hread.price
      have hpositive := (hsweeps.sound hsound).prices pp hpp
      unfold checkedI64 at ht
      split at ht
      · rw [← Option.some.inj ht]
        exact Int.mul_pos (hprice ▸ hpositive) hquantity
      · cases ht
    have hready (d : Database) (hsound : Sound d) (hunused : Unused c.ids d)
        (hnone : d.reservations.find? (underKey c.buyerUserId a.organizationId key) = none)
        (hin : ∃ i ∈ d.inventory, i.productId = a.productId)
        (hsupplies : Supplies a.productId c.body.quantity d) :
        Ready (c.placement sha256 a v.directory.clock key total) c.ids d := by
      refine ⟨hsound, hunused, hcoherent, hamount, ?_, hin, hsupplies, hquantity⟩
      intro r hr ⟨horg, hbuyer, hsamekey⟩
      refine List.find?_eq_none.mp hnone r hr ?_
      simp only [underKey, Bool.and_eq_true, decide_eq_true_eq]
      exact ⟨⟨horg, hbuyer⟩, hsamekey⟩
    obtain ⟨i, hi, hproduct, -⟩ := hread.inventory
    obtain ⟨i', hi', hproduct', -⟩ := hread'.inventory
    refine placement_twins (p := c.placement sha256 a v.directory.clock key total)
      (hready v (hsweeps.sound hsound) (hsweeps.unused hunused) he ⟨i, hi, hproduct⟩ hsupplies)
      (hready v' (hsweeps'.sound hsound') (hsweeps'.unused hunused') he' ⟨i', hi', hproduct'⟩ hsupplies')
      hsight (fun o ho => ?_) (taken_iff hsweeps ha hkey) (hrefuse _)
    obtain ⟨o₀, ho₀, status, rfl⟩ := forall₂_exists hsweeps'.orders ho
    exact hown o₀ ho₀

/-! ### Histories -/

/-- What a buyer is answered in a history of calls, one after the other. -/
def outcomes (sha256 : Sha256) (b : Uuid) : Database → List Call → List Result
  | _, [] => []
  | db, c :: rest =>
      if c.buyerUserId = b then c.answer sha256 db :: outcomes sha256 b (c.after sha256 db) rest
      else outcomes sha256 b (c.after sha256 db) rest

/-- No call of a history meets a shortage. -/
def NoShortage (sha256 : Sha256) : Database → List Call → Prop
  | _, [] => True
  | db, c :: rest => Supplied c db ∧ NoShortage sha256 (c.after sha256 db) rest

/-- Two calls that differ at most in a key that another buyer chose. -/
structure SameBut (b : Uuid) (c c' : Call) : Prop where
  call : ∃ key, c' = { c with body := { c.body with idempotencyKey := key } }
  own : c.buyerUserId = b → c' = c

/-- The call would be served if nobody else had an order. -/
def Served (sha256 : Sha256) (c : Call) (db : Database) : Prop :=
  c.answer sha256 (withoutOthers c.buyerUserId db) = c.created

/-- At each of the buyer's calls that would be served if nobody else had an order, others have taken
the key in both histories or in neither. -/
def KeysAgree (sha256 : Sha256) (b : Uuid) : Database → Database → List Call → List Call → Prop
  | db, db', c :: rest, c' :: rest' =>
      (c.buyerUserId = b → Served sha256 c db → (Taken c db ↔ Taken c' db')) ∧
        KeysAgree sha256 b (c.after sha256 db) (c'.after sha256 db') rest rest'
  | _, _, _, _ => True

/-- The ids that are drawn in a history are new. -/
structure Fresh (db : Database) (calls : List Call) : Prop where
  unused : ∀ c ∈ calls, Unused c.ids db
  apart : calls.Pairwise fun c c' => Apart c.ids c'.ids

theorem settled_later {now now' : Int} (h : now ≤ now') (r : Reservation) :
    settled now' (settled now r) = settled now' r := by
  by_cases hout : r.status = .reserved ∧ r.expiresAt ≤ now
  · have hlater : r.status = .reserved ∧ r.expiresAt ≤ now' := ⟨hout.1, le_trans hout.2 h⟩
    have hfirst : settled now r = { r with status := .expired } := if_pos hout
    rw [hfirst, settled, settled, if_pos hlater]
    exact if_neg fun h => by cases h.1
  · have hfirst : settled now r = r := if_neg hout
    rw [hfirst]

theorem sight_reservations {now : Int} {rows : List Reservation} :
    (rows.map (settled now)).filter (·.buyerUserId = b) =
      (rows.filter (·.buyerUserId = b)).map (settled now) := by
  rw [List.filter_map]
  congr 1
  refine List.filter_congr fun r _ => ?_
  obtain ⟨status, heq⟩ := settled_eq now r
  simp only [Function.comp, heq]

/-- Who sees the same sees the same later. -/
theorem sight_later (delay : Nat) (h : sight b db' = sight b db) :
    sight b (later delay db') = sight b (later delay db) := by
  have hdirectory : db'.directory = db.directory := congrArg Sight.directory h
  have hafter (d : Database) : (sight b (later delay d)).reservations =
      (sight b d).reservations.map (settled (d.directory.clock + delay)) := by
    have hnow : d.directory.clock ≤ d.directory.clock + delay := by omega
    show (d.reservations.map _).filter _ = ((d.reservations.map _).filter _).map _
    rw [sight_reservations, sight_reservations, List.map_map]
    refine List.map_congr_left fun r _ => ?_
    exact (settled_later hnow r).symm
  have hreservations : (sight b (later delay db')).reservations = (sight b (later delay db)).reservations := by
    rw [hafter, hafter, h, hdirectory]
  have hrest (d : Database) : sight b (later delay d) = { sight b d with
      directory := { d.directory with clock := d.directory.clock + delay }
      reservations := (sight b (later delay d)).reservations } := rfl
  rw [hrest db', hrest db, hreservations, h, hdirectory]

theorem sight_withoutOthers : sight b (withoutOthers b db) = sight b db := by
  unfold sight withoutOthers
  rw [List.filter_filter]
  simp only [Bool.and_self]

/-! ### Two histories -/

/-- Two histories that a buyer cannot tell apart. -/
structure Beside (b : Uuid) (db db' : Database) (calls calls' : List Call) : Prop where
  same : sight b db' = sight b db
  sound : Sound db
  sound' : Sound db'
  fresh : Fresh db calls
  fresh' : Fresh db' calls'

theorem Sound.later {delay : Nat} (h : Sound db) : Sound (later delay db) :=
  ⟨h.reservationIds, h.productIds, h.counters, h.quantities, h.prices⟩

theorem Fresh.after {calls : List Call} (h : Fresh db (c :: calls)) (hsound : Sound db) :
    Sound (c.after sha256 db) ∧ Fresh (c.after sha256 db) calls := by
  have hleaves : Leaves c.buyerUserId c (later c.delay db) (c.after sha256 db) := call_alone hsound.later
  obtain ⟨hapart, hpairwise⟩ := List.pairwise_cons.mp h.apart
  refine ⟨hleaves.sound, fun c' hc' => ?_, hpairwise⟩
  have hunused := h.unused c' (List.mem_cons_of_mem _ hc')
  exact hleaves.unused c'.ids (hapart c' hc') ⟨hunused.orders, hunused.orderItems, hunused.reservations⟩

variable (sha256) in
/-- **A call of the buyer** is answered alike in both, and seen alike afterwards, exactly if the key is
taken in both or in neither where it matters. -/
theorem own_step {calls calls' : List Call} (h : Beside c.buyerUserId db db' (c :: calls) (c :: calls'))
    (hsupplied : Supplied c db) (hsupplied' : Supplied c db') :
    (c.answer sha256 db = c.answer sha256 db' ↔ (Served sha256 c db → (Taken c db ↔ Taken c db'))) ∧
      (c.answer sha256 db = c.answer sha256 db' →
        sight c.buyerUserId (c.after sha256 db') = sight c.buyerUserId (c.after sha256 db)) := by
  have hlater := sight_later c.delay h.same
  have hunused (d : Database) (hd : Unused c.ids d) : Unused c.ids (later c.delay d) :=
    ⟨hd.orders, hd.orderItems, hd.reservations⟩
  have hfirst := hunused db (h.fresh.unused c List.mem_cons_self)
  have hfirst' := hunused db' (h.fresh'.unused c List.mem_cons_self)
  have hown : ∀ o ∈ (later c.delay (withoutOthers c.buyerUserId db)).orders,
      o.buyerUserId = c.buyerUserId :=
    fun o ho => of_decide_eq_true (List.mem_filter.mp ho).2
  have halone : sight c.buyerUserId (later c.delay (withoutOthers c.buyerUserId db)) =
      sight c.buyerUserId (later c.delay db) := sight_later _ sight_withoutOthers
  have hsound : Sound (later c.delay (withoutOthers c.buyerUserId db)) :=
    ⟨h.sound.reservationIds, h.sound.productIds, h.sound.counters, h.sound.quantities, h.sound.prices⟩
  have hunusedAlone : Unused c.ids (later c.delay (withoutOthers c.buyerUserId db)) :=
    ⟨fun o ho => hfirst.orders o (List.mem_of_mem_filter ho), hfirst.orderItems, hfirst.reservations⟩
  have htwins : Answers c (later c.delay db) (c.answer sha256 db, c.after sha256 db)
      (c.answer sha256 (withoutOthers c.buyerUserId db), c.after sha256 (withoutOthers c.buyerUserId db)) :=
    call_twins halone h.sound.later hsound hfirst hunusedAlone hsupplied hsupplied hown
  have htwins' : Answers c (later c.delay db') (c.answer sha256 db', c.after sha256 db')
      (c.answer sha256 (withoutOthers c.buyerUserId db), c.after sha256 (withoutOthers c.buyerUserId db)) :=
    call_twins (halone.trans hlater.symm) h.sound'.later hsound hfirst' hunusedAlone hsupplied' hsupplied hown
  have hne : alreadyExists ≠ c.created := fun heq => by cases heq
  rcases htwins with ⟨hno, heq, hsight⟩ | ⟨htaken, hserved, heq⟩
  · rcases htwins' with ⟨hno', heq', hsight'⟩ | ⟨htaken', hserved, heq'⟩
    · refine ⟨iff_of_true (Eq.trans heq heq'.symm) fun hserved => ?_, fun _ => Eq.trans hsight' hsight.symm⟩
      exact iff_of_false (fun htaken => hno ⟨htaken, hserved⟩) fun htaken => hno' ⟨htaken, hserved⟩
    · have hdiffer : c.answer sha256 db ≠ c.answer sha256 db' := fun hsame =>
        hne (((Prod.mk.inj heq').1.symm.trans hsame.symm).trans (Eq.trans heq hserved))
      refine ⟨iff_of_false hdiffer fun hagree => ?_, fun hsame => absurd hsame hdiffer⟩
      exact hno ⟨(hagree hserved).mpr htaken', hserved⟩
  · obtain ⟨hanswer, hafter⟩ := Prod.mk.inj heq
    rcases htwins' with ⟨hno', heq', -⟩ | ⟨htaken', -, heq'⟩
    · have hdiffer : c.answer sha256 db ≠ c.answer sha256 db' := fun hsame =>
        hne ((hanswer.symm.trans hsame).trans (Eq.trans heq' hserved))
      refine ⟨iff_of_false hdiffer fun hagree => ?_, fun hsame => absurd hsame hdiffer⟩
      exact hno' ⟨(hagree hserved).mp htaken, hserved⟩
    · obtain ⟨hanswer', hafter'⟩ := Prod.mk.inj heq'
      refine ⟨iff_of_true (hanswer.trans hanswer'.symm) fun _ => iff_of_true htaken htaken', fun _ => ?_⟩
      rw [hafter, hafter']
      exact hlater

/-- A call of somebody else is not seen. -/
theorem other_step (hsound : Sound db) (hother : c.buyerUserId ≠ b) :
    sight b (c.after sha256 db) = sight b (later c.delay db) := by
  have hleaves : Leaves b c (later c.delay db) (c.after sha256 db) := call_alone hsound.later
  exact hleaves.sight hother

theorem outcomes_eq_iff {calls calls' : List Call} (h : Beside b db db' calls calls')
    (hcalls : List.Forall₂ (SameBut b) calls calls')
    (hsupplies : NoShortage sha256 db calls) (hsupplies' : NoShortage sha256 db' calls') :
    outcomes sha256 b db calls = outcomes sha256 b db' calls' ↔ KeysAgree sha256 b db db' calls calls' := by
  induction hcalls generalizing db db' with
  | nil => exact iff_of_true rfl trivial
  | @cons c c' calls calls' hsame hrest ih =>
    obtain ⟨hsupplied, hsupplies⟩ := hsupplies
    obtain ⟨hsupplied', hsupplies'⟩ := hsupplies'
    obtain ⟨hsound, hfresh⟩ : Sound (c.after sha256 db) ∧ Fresh (c.after sha256 db) calls :=
      h.fresh.after h.sound
    obtain ⟨hsound', hfresh'⟩ : Sound (c'.after sha256 db') ∧ Fresh (c'.after sha256 db') calls' :=
      h.fresh'.after h.sound'
    obtain ⟨⟨key, hcall⟩, hownCall⟩ := hsame
    have hbuyer : c'.buyerUserId = c.buyerUserId := by rw [hcall]
    by_cases hown : c.buyerUserId = b
    · obtain rfl := hownCall hown
      subst hown
      obtain ⟨hiff, hsight⟩ := own_step sha256 h hsupplied hsupplied'
      simp only [outcomes, if_true, List.cons.injEq]
      constructor
      · intro ⟨hanswer, houtcomes⟩
        refine ⟨fun _ => hiff.mp hanswer, ?_⟩
        exact (ih ⟨hsight hanswer, hsound, hsound', hfresh, hfresh'⟩ hsupplies hsupplies').mp houtcomes
      · intro ⟨hagree, hkeys⟩
        have hanswer := hiff.mpr (hagree rfl)
        refine ⟨hanswer, ?_⟩
        exact (ih ⟨hsight hanswer, hsound, hsound', hfresh, hfresh'⟩ hsupplies hsupplies').mpr hkeys
    · have hdelay : c'.delay = c.delay := by rw [hcall]
      have hsight : sight b (c'.after sha256 db') = sight b (c.after sha256 db) := by
        rw [other_step h.sound hown, other_step h.sound' (hbuyer ▸ hown), hdelay]
        exact sight_later _ h.same
      have hnext := ih ⟨hsight, hsound, hsound', hfresh, hfresh'⟩ hsupplies hsupplies'
      simp only [outcomes, hbuyer, if_neg hown]
      exact hnext.trans ⟨fun hkeys => ⟨fun heq => absurd heq hown, hkeys⟩, fun hkeys => hkeys.2⟩

/-- **A buyer is answered alike in two histories** that differ only in keys that others chose exactly
if, at each of the buyer's calls that would be served if nobody else had an order, others have taken
its key in both or in neither. -/
theorem outcomes_undisturbed_iff (hsound : Sound db) {calls calls' : List Call}
    (hcalls : List.Forall₂ (SameBut b) calls calls') (hfresh : Fresh db calls)
    (hsupplies : NoShortage sha256 db calls) (hsupplies' : NoShortage sha256 db calls') :
    outcomes sha256 b db calls = outcomes sha256 b db calls' ↔ KeysAgree sha256 b db db calls calls' := by
  have hids : calls'.map (·.ids) = calls.map (·.ids) := forall₂_map_eq hcalls fun c c' hsame => by
    obtain ⟨⟨key, rfl⟩, -⟩ := hsame
    rfl
  have hfresh' : Fresh db calls' := by
    constructor
    · intro c' hc'
      have hmem : c'.ids ∈ calls.map (·.ids) := hids ▸ List.mem_map_of_mem hc'
      obtain ⟨c, hc, heq⟩ := List.mem_map.mp hmem
      exact heq ▸ hfresh.unused c hc
    · have hpairwise := hfresh.apart
      rw [← List.pairwise_map (R := Apart), ← hids, List.pairwise_map] at hpairwise
      exact hpairwise
  exact outcomes_eq_iff ⟨rfl, hsound, hsound, hfresh, hfresh'⟩ hcalls hsupplies hsupplies'

/-! ### A key that another buyer has -/

/-- The sale's digests, with those of the requests below that have other keys. -/
def keysSha256 : Sha256 := fun value =>
  if value.size = 114 ∧ value.data[93]? = some 49 then
    bytesOf 0x8d5768081b519c65ddd313050df5541246e395c3a07cd0dad081ad8b01130084
  else if value.size = 113 then
    bytesOf 0xf16569afe73a50b02ff9dc1d3563876c036f32c2ab170f39d1060301d3930a19
  else saleSha256 value

/-- Two buyers reserve a seat each, the first under a key of its choice. -/
def twoBuyers (key : String) : List Call :=
  [⟨0, 1, 24, ⟨1, key⟩, ⟨30, 31, 32⟩⟩, ⟨0, 2, 24, ⟨1, "key2"⟩, ⟨40, 41, 42⟩⟩]

theorem twoBuyers_sameBut (key key' : String) :
    List.Forall₂ (SameBut 2) (twoBuyers key) (twoBuyers key') :=
  .cons ⟨⟨key', rfl⟩, fun h => absurd h (show ¬ (1 : Uuid) = 2 by decide)⟩ (.cons ⟨⟨"key2", rfl⟩, fun _ => rfl⟩ .nil)

theorem shopDatabase_sound : Sound shopDatabase where
  reservationIds := by decide
  productIds := by decide
  counters := by decide
  quantities := fun _ h => by cases h
  prices := by decide

theorem twoBuyers_fresh (key : String) : Fresh shopDatabase (twoBuyers key) where
  unused _ _ := ⟨fun _ h => (by cases h), fun _ h => (by cases h), fun _ h => (by cases h)⟩
  apart := .cons (fun c' hc' => by
    rw [List.mem_singleton.mp hc']
    exact ⟨show (30 : Uuid) ≠ 40 by decide, show (31 : Uuid) ≠ 41 by decide,
      show (32 : Uuid) ≠ 42 by decide⟩) (.cons (fun _ h => by cases h) .nil)

instance (productId : Uuid) (quantity : Int) (db : Database) :
    Decidable (Supplies productId quantity db) :=
  inferInstanceAs (Decidable (∀ i ∈ db.inventory, i.productId = productId →
    (∀ limit ∈ i.supplyLimit, i.reservedQuantity + i.fulfilledQuantity + quantity ≤ limit) ∧
      i.reservedQuantity + i.fulfilledQuantity + quantity < 2 ^ 63))

instance (c : Call) (db : Database) : Decidable (Supplied c db) :=
  inferInstanceAs (Decidable (∀ tp ∈ db.catalogue.ticketProducts.find? (·.id = c.ticketProductId),
    Supplies tp.productId c.body.quantity db))

instance decidableNoShortage (sha256 : Sha256) :
    (db : Database) → (calls : List Call) → Decidable (NoShortage sha256 db calls)
  | _, [] => .isTrue trivial
  | db, c :: rest =>
    have := decidableNoShortage sha256 (c.after sha256 db) rest
    inferInstanceAs (Decidable (Supplied c db ∧ NoShortage sha256 (c.after sha256 db) rest))

theorem twoBuyers_supplied :
    NoShortage keysSha256 shopDatabase (twoBuyers "k1") ∧
      NoShortage keysSha256 shopDatabase (twoBuyers "key") ∧
      NoShortage keysSha256 shopDatabase (twoBuyers "key2") := by
  decide +kernel

/-- The second buyer is served next to another key, and refused next to its own. -/
theorem twoBuyers_outcomes :
    outcomes keysSha256 2 shopDatabase (twoBuyers "k1") = [.ok ⟨.created, 41⟩] ∧
      outcomes keysSha256 2 shopDatabase (twoBuyers "key") = [.ok ⟨.created, 41⟩] ∧
      outcomes keysSha256 2 shopDatabase (twoBuyers "key2") = [alreadyExists] := by
  decide +kernel

/-- **A buyer whose key another buyer chose too** is refused. -/
theorem other_key_refuses :
    ¬ ∀ (sha256 : Sha256) (b : Uuid) (db : Database) (calls calls' : List Call), Sound db →
      List.Forall₂ (SameBut b) calls calls' → Fresh db calls →
        NoShortage sha256 db calls → NoShortage sha256 db calls' →
          outcomes sha256 b db calls = outcomes sha256 b db calls' := by
  intro h
  have heq := h keysSha256 2 shopDatabase _ _ shopDatabase_sound (twoBuyers_sameBut "k1" "key2")
    (twoBuyers_fresh "k1") twoBuyers_supplied.1 twoBuyers_supplied.2.2
  rw [twoBuyers_outcomes.1, twoBuyers_outcomes.2.2] at heq
  cases heq

/-- Two keys of the first buyer leave the second alone, a third does not. -/
theorem keys_agree_or_not :
    KeysAgree keysSha256 2 shopDatabase shopDatabase (twoBuyers "k1") (twoBuyers "key") ∧
      ¬ KeysAgree keysSha256 2 shopDatabase shopDatabase (twoBuyers "k1") (twoBuyers "key2") := by
  obtain ⟨hfirst, hother, hsame⟩ := twoBuyers_supplied
  obtain ⟨hserved, hserved', hrefused⟩ := twoBuyers_outcomes
  constructor
  · refine (outcomes_undisturbed_iff shopDatabase_sound (twoBuyers_sameBut "k1" "key")
      (twoBuyers_fresh "k1") hfirst hother).mp ?_
    rw [hserved, hserved']
  · intro hagree
    have heq := (outcomes_undisturbed_iff shopDatabase_sound (twoBuyers_sameBut "k1" "key2")
      (twoBuyers_fresh "k1") hfirst hsame).mpr hagree
    rw [hserved, hrefused] at heq
    cases heq

end CrownFi.Commerce.Buyers
