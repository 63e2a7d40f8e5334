import CrownFi.Api.Validation
import CrownFi.Commerce.Schema

/-!
# CrownFi.Commerce.Ticketing

Ticket reservations (`ticketing.rs`): the request that holds tickets for a buyer,
and the sweep it begins with, which releases the holds that ran out. `now()` in a
query is the time at which the transaction began, `now_utc()` the time of the call.
-/

namespace CrownFi.Commerce.Ticketing

open Lib CrownFi.Api

/-- `map_database_error`. -/
def mapDatabaseError : SqlError → ApiError
  | .uniqueViolation => .conflict "ticket_resource_already_exists"
  | .foreignKeyViolation => .invalidRequest "ticket_related_resource_not_found"
  | .checkViolation => .invalidRequest "ticket_constraint_failed"
  | .outOfRange => .database

def reservationMinutes : Int := 15

/-! ### Statements on orders and inventory

They stand in `orders.rs` as well. -/

/-- The constraints of `orders`. -/
def orderViolation (o : Order) (db : Database) : Option SqlError :=
  if db.orders.any fun p => p.id = o.id ||
      (p.organizationId = o.organizationId && p.idempotencyKey = o.idempotencyKey) then
    some .uniqueViolation
  else if o.amountMinor ≤ 0 then some .checkViolation
  else none

def insertOrder (map : SqlError → ApiError) (o : Order) : Handler PUnit :=
  Tx.insertRow .other orderTable
    [⟨.order o.id, .update⟩, ⟨.orderKey o.organizationId o.idempotencyKey, .update⟩]
    (fun db => raise map (orderViolation o db)) o

/-- The constraints of `order_items`. -/
def orderItemViolation (i : OrderItem) (db : Database) : Option SqlError :=
  if db.orderItems.any fun j => j.id = i.id || (j.orderId = i.orderId && j.productId = i.productId) then
    some .uniqueViolation
  else if (db.orders.find? (·.id = i.orderId)).isNone then some .foreignKeyViolation
  else none

def insertOrderItem (map : SqlError → ApiError) (i : OrderItem) : Handler PUnit :=
  Tx.insertRow .other orderItemTable
    [⟨.orderItem i.orderId i.productId, .update⟩, ⟨.order i.orderId, .keyShare⟩]
    (fun db => raise map (orderItemViolation i db)) i

/-- The constraints of `product_inventory`, on the row that an update makes. -/
def inventoryViolation (i : Inventory) : Option SqlError :=
  if ¬ inI64 i.reservedQuantity ∨ ¬ inI64 i.fulfilledQuantity then some .outOfRange
  else if i.reservedQuantity < 0 ∨ i.fulfilledQuantity < 0 then some .checkViolation
  else
    match i.supplyLimit with
    | some limit =>
        if limit < i.reservedQuantity + i.fulfilledQuantity then some .checkViolation else none
    | none => none

/-- `UPDATE product_inventory .. WHERE product_id = .. AND ..`: the number of rows changed. -/
def updateInventoryAt (site : Site) (map : SqlError → ApiError) (productId : Uuid)
    (admits : Inventory → Bool) (change : Inventory → Inventory) : Handler Nat :=
  Tx.update site inventoryTable (fun i => [⟨.inventory i.productId, .noKeyUpdate⟩])
    (fun i => i.productId = productId && admits i) change
    fun _ i => raise map (inventoryViolation i)

/-- The same at a statement that no condition speaks about. -/
def updateInventory (map : SqlError → ApiError) (productId : Uuid) (admits : Inventory → Bool)
    (change : Inventory → Inventory) : Handler Nat :=
  updateInventoryAt .other map productId admits change

/-- The reservation of a quantity, if the limit admits it. Under a limit the condition computes the
sum, and a sum that is no `BIGINT` is an error of the statement. -/
def reserveInventory (map : SqlError → ApiError) (productId : Uuid) (quantity : Int) : Handler Nat := do
  let row ← Tx.select .other (inventoryTable.find · productId)
  Tx.require (row.all fun i => i.supplyLimit.all fun _ =>
    inI64 (i.reservedQuantity + i.fulfilledQuantity + quantity)) (.error (map .outOfRange))
  updateInventory map productId
    (fun i => i.supplyLimit.all fun limit => i.reservedQuantity + i.fulfilledQuantity + quantity ≤ limit)
    fun i => { i with reservedQuantity := i.reservedQuantity + quantity }

/-! ### The expiry sweep -/

structure ExpiredHold where
  reservationId : Uuid
  orderId : Uuid
  quantity : Int
  productId : Uuid
  deriving DecidableEq, Repr

/-- The reservations of a product that ran out, joined with the product. -/
def expiredHolds (ticketProductId : Uuid) (now : Int) (db : Database) : List ExpiredHold :=
  (db.reservations.filter fun r =>
      r.ticketProductId = ticketProductId && r.status = .reserved && r.expiresAt ≤ now).filterMap
    fun r => (db.catalogue.ticketProducts.find? (·.id = ticketProductId)).map fun tp =>
      ⟨r.id, r.orderId, r.quantity, tp.productId⟩

def releaseHold (h : ExpiredHold) : Handler PUnit := do
  let _ ← Tx.update .other reservationTable (fun r => [⟨.reservation r.id, .noKeyUpdate⟩])
    (·.id = h.reservationId) ({ · with status := .expired }) fun _ _ => none
  let _ ← Tx.update (.sweepOrder h.orderId) orderTable (fun o => [⟨.order o.id, .noKeyUpdate⟩])
    (fun o => o.id = h.orderId && o.status = .awaitingPayment) ({ · with status := .expired })
    fun _ _ => none
  let _ ← updateInventoryAt (.releaseInventory h.productId h.quantity) mapDatabaseError h.productId
    (fun _ => true) fun i => { i with reservedQuantity := max 0 (i.reservedQuantity - h.quantity) }

def releaseHolds : List ExpiredHold → Handler PUnit
  | [] => pure ⟨⟩
  | h :: rest => do
      releaseHold h
      releaseHolds rest

/-- `release_expired_for_product`, in a transaction that began at `now`. -/
def releaseExpiredForProduct (ticketProductId : Uuid) (now : Int) : Handler PUnit := do
  let expired ← Tx.selectFor .other
    (fun db => (expiredHolds ticketProductId now db).map fun h => ⟨.reservation h.reservationId, .update⟩)
    (expiredHolds ticketProductId now)
  releaseHolds expired

/-! ### Reservations -/

structure Availability where
  organizationId : Uuid
  eventStatus : EventStatus
  productId : Uuid
  productName : String
  productStatus : ProductStatus
  perUserLimit : Int
  saleStartsAt : Int
  saleEndsAt : Int
  amountMinor : Int
  asset : Asset
  supplyLimit : Option Int
  reservedQuantity : Int
  fulfilledQuantity : Int
  /-- The rows of the event and of the price, which are locked with the others. -/
  ticketEventId : Uuid
  priceId : Uuid
  deriving DecidableEq, Repr

/-- The ticket product joined with its event, product, active price and inventory. -/
def availability (ticketProductId : Uuid) (db : Database) : Option Availability := do
  let tp ← db.catalogue.ticketProducts.find? (·.id = ticketProductId)
  let te ← db.catalogue.ticketEvents.find? (·.id = tp.ticketEventId)
  let p ← db.catalogue.products.find? (·.id = tp.productId)
  let pp ← db.catalogue.prices.find? fun pp => pp.productId = p.id && pp.isActive
  let inv ← db.inventory.find? (·.productId = p.id)
  return { organizationId := te.organizationId, eventStatus := te.status, productId := p.id
           productName := p.name, productStatus := p.status, perUserLimit := tp.perUserLimit
           saleStartsAt := tp.saleStartsAt, saleEndsAt := tp.saleEndsAt
           amountMinor := pp.amountMinor, asset := pp.asset, supplyLimit := inv.supplyLimit
           reservedQuantity := inv.reservedQuantity, fulfilledQuantity := inv.fulfilledQuantity
           ticketEventId := te.id, priceId := pp.id }

/-- `FOR UPDATE OF tp, te, p, pp, pi`. -/
def Availability.locks (a : Availability) (ticketProductId : Uuid) : List (Lock Row) :=
  [⟨.ticketProduct ticketProductId, .update⟩, ⟨.ticketEvent a.ticketEventId, .update⟩,
    ⟨.product a.productId, .update⟩, ⟨.price a.priceId, .update⟩, ⟨.inventory a.productId, .update⟩]

structure CreateReservationRequest where
  quantity : Int
  idempotencyKey : String
  deriving DecidableEq, Repr

def reservationRequestText (ticketProductId buyerUserId : Uuid) (quantity : Int) (key : String) : String :=
  "ticket_product=" ++ ticketProductId.text ++ ";buyer=" ++ buyerUserId.text ++ ";quantity=" ++
    toString quantity ++ ";key=" ++ key

/-- The constraints of `ticket_reservations`. -/
def reservationViolation (r : Reservation) (db : Database) : Option SqlError :=
  if db.reservations.any fun s => s.id = r.id || s.orderId = r.orderId ||
      (s.organizationId = r.organizationId && s.buyerUserId = r.buyerUserId &&
        s.idempotencyKey = r.idempotencyKey) then
    some .uniqueViolation
  else if (db.orders.find? (·.id = r.orderId)).isNone then some .foreignKeyViolation
  else if r.quantity ≤ 0 then some .checkViolation
  else none

def insertReservation (r : Reservation) : Handler PUnit :=
  Tx.insertRow .other reservationTable
    [⟨.reservation r.id, .update⟩, ⟨.reservationOf r.orderId, .update⟩,
      ⟨.reservationKey r.organizationId r.buyerUserId r.idempotencyKey, .update⟩,
      ⟨.order r.orderId, .keyShare⟩]
    (fun db => raise mapDatabaseError (reservationViolation r db)) r

/-- The tickets of a product that a buyer holds. -/
def existingQuantity (ticketProductId buyerUserId : Uuid) (db : Database) : Int :=
  ((db.reservations.filter fun r => r.ticketProductId = ticketProductId &&
    r.buyerUserId = buyerUserId && (r.status = .reserved || r.status = .converted)).map (·.quantity)).sum

/-- The ids a request draws. -/
structure ReservationIds where
  order : Uuid
  reservation : Uuid
  item : Uuid
  deriving DecidableEq, Repr

def createReservation (sha256 : Sha256) (buyerUserId ticketProductId : Uuid)
    (body : CreateReservationRequest) (ids : ReservationIds) : Handler Response := do
  Tx.require (0 < body.quantity) (.error (.invalidRequest "invalid_ticket_quantity"))
  let idempotencyKey ← valid
    (requiredText body.idempotencyKey 200 "invalid_ticket_idempotency_key")
  let began ← Tx.select .other (·.directory.clock)
  releaseExpiredForProduct ticketProductId began
  let row ← Tx.selectFor .other
    (fun db => ((availability ticketProductId db).map (·.locks ticketProductId)).getD [])
    (availability ticketProductId)
  let available ← Tx.orElse row (.error .notFound)
  let now ← Tx.select .other (·.directory.clock)
  Tx.require (available.eventStatus = .onSale && available.productStatus = .published &&
    available.saleStartsAt ≤ now && now < available.saleEndsAt) (.error (.conflict "ticket_not_on_sale"))
  let buyerValid ← Tx.select .other fun db =>
    db.directory.userActive buyerUserId && db.directory.verifiedOn .testnet buyerUserId
  Tx.require buyerValid (.error .forbidden)
  let requestSha256 := hashText sha256
    (reservationRequestText ticketProductId buyerUserId body.quantity idempotencyKey)
  let sameKey (db : Database) := db.reservations.find? fun r =>
    r.organizationId = available.organizationId && r.buyerUserId = buyerUserId &&
      r.idempotencyKey = idempotencyKey
  let existing ← Tx.selectFor .other
    (fun db => (sameKey db).toList.map fun r => ⟨.reservation r.id, .update⟩) sameKey
  match existing with
  | some existing =>
      Tx.require (existing.requestSha256 = requestSha256)
        (.error (.conflict "ticket_idempotency_key_reused"))
      Tx.commit
      return ⟨.ok, existing.id⟩
  | none =>
      let held ← Tx.select (.holdings ticketProductId buyerUserId body.quantity)
        (existingQuantity ticketProductId buyerUserId)
      -- the query casts the sum to a `BIGINT`
      Tx.require (inI64 held) (.error .database)
      Tx.require (wrapI64 (held + body.quantity) ≤ available.perUserLimit)
        (.error (.conflict "ticket_per_user_limit_exceeded"))
      Tx.require (available.supplyLimit.all fun limit =>
          wrapI64 (available.reservedQuantity + available.fulfilledQuantity + body.quantity) ≤ limit)
        (.error (.conflict "ticket_inventory_unavailable"))
      let totalAmountMinor ← Tx.orElse (checkedI64 (available.amountMinor * body.quantity))
        (.error (.invalidRequest "ticket_amount_overflow"))
      let expiresAt := now + seconds (60 * reservationMinutes)
      insertOrder mapDatabaseError
        { id := ids.order, organizationId := available.organizationId, buyerUserId
          status := .awaitingPayment, environment := .testnet, idempotencyKey, requestSha256
          amountMinor := totalAmountMinor, asset := available.asset, expiresAt := some expiresAt }
      insertOrderItem mapDatabaseError
        { id := ids.item, orderId := ids.order, productId := available.productId
          productName := available.productName, quantity := body.quantity
          unitAmountMinor := available.amountMinor, totalAmountMinor, asset := available.asset }
      let updated ← reserveInventory mapDatabaseError available.productId body.quantity
      Tx.require (updated = 1) (.error (.conflict "ticket_inventory_unavailable"))
      insertReservation
        { id := ids.reservation, organizationId := available.organizationId, ticketProductId
          orderId := ids.order, buyerUserId, quantity := body.quantity, status := .reserved
          idempotencyKey, requestSha256, expiresAt }
      Tx.commit
      return ⟨.created, ids.reservation⟩

end CrownFi.Commerce.Ticketing
