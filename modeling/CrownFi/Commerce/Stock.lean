import CrownFi.Commerce.Bystanders
import CrownFi.Commerce.Invariant
import CrownFi.Lib.Sums

/-!
# CrownFi.Commerce.Stock

**The stock of a ticket product against its reservations.** The inventory of a product carries two
counters, and reservations, issuance and the expiry sweep move them by hand. For a product that is
sold only through reservations of one ticket product, the counters are the sums over the
reservations in the statuses `reserved` and `converted`, and neither the supply limit nor the limit
of any buyer is exceeded (`Stocked`). Here is what each of the three operations does to these sums,
taken as one change of reservations and inventory together.
-/

namespace CrownFi.Commerce.Stock

open Lib CrownFi.Api Ticketing

variable {tp : TicketProduct} {db db' view : Database}

/-! ### What is counted -/

/-- The quantity of the reservations of a ticket product in a status. -/
def quantityIn (ticketProductId : Uuid) (status : ReservationStatus) (db : Database) : Int :=
  ((db.reservations.filter fun r => r.ticketProductId = ticketProductId && r.status = status).map
    (·.quantity)).sum

/-- What a reservation adds to the quantity in a status. -/
def countIn (ticketProductId : Uuid) (status : ReservationStatus) (r : Reservation) : Int :=
  if r.ticketProductId = ticketProductId && r.status = status then r.quantity else 0

/-- What a reservation adds to what a buyer holds. -/
def heldIn (ticketProductId buyerUserId : Uuid) (r : Reservation) : Int :=
  if r.ticketProductId = ticketProductId && r.buyerUserId = buyerUserId &&
    (r.status = .reserved || r.status = .converted) then r.quantity else 0

theorem quantityIn_eq {ticketProductId : Uuid} {status : ReservationStatus} :
    quantityIn ticketProductId status db = total (countIn ticketProductId status) db.reservations :=
  sum_filter

theorem existingQuantity_eq {ticketProductId buyerUserId : Uuid} :
    existingQuantity ticketProductId buyerUserId db =
      total (heldIn ticketProductId buyerUserId) db.reservations :=
  sum_filter

/-- A counter of a product's inventory; a product without a row has nothing. -/
def counter (count : Inventory → Int) (productId : Uuid) (db : Database) : Int :=
  ((inventoryTable.find db productId).map count).getD 0

/-! ### The invariant -/

/-- The catalogue has the ticket product, and no other ticket product is for its product. -/
structure Offered (tp : TicketProduct) (catalogue : Catalogue) : Prop where
  found : catalogue.ticketProducts.find? (·.id = tp.id) = some tp
  unique : ∀ t ∈ catalogue.ticketProducts, t.productId = tp.productId → t = tp

/-- Both counters are the sums that they stand for, and the limits are kept. -/
structure Stocked (tp : TicketProduct) (db : Database) : Prop where
  offered : Offered tp db.catalogue
  reservationIds : (db.reservations.map (·.id)).Nodup
  productIds : (db.inventory.map (·.productId)).Nodup
  quantities : ∀ r ∈ db.reservations, 0 < r.quantity
  reserved : counter (·.reservedQuantity) tp.productId db = quantityIn tp.id .reserved db
  fulfilled : counter (·.fulfilledQuantity) tp.productId db = quantityIn tp.id .converted db
  within : ∀ i, inventoryTable.find db tp.productId = some i →
    ∀ limit, i.supplyLimit = some limit → i.reservedQuantity + i.fulfilledQuantity ≤ limit
  holdings : ∀ buyerUserId, existingQuantity tp.id buyerUserId db ≤ tp.perUserLimit

/-- A ticket product of the catalogue is for the product exactly if it is the one. -/
theorem Offered.productId_iff {catalogue : Catalogue} (h : Offered tp catalogue) {id : Uuid}
    {t : TicketProduct} (ht : catalogue.ticketProducts.find? (·.id = id) = some t) :
    t.productId = tp.productId ↔ id = tp.id := by
  have hid : t.id = id := by simpa using List.find?_some ht
  constructor
  · intro hproduct
    obtain rfl := h.unique t (List.mem_of_find?_eq_some ht) hproduct
    exact hid.symm
  · rintro rfl
    rw [h.found] at ht
    rw [Option.some.inj ht]

/-- What a transaction can do to what buyers hold, unless the ticket product is its own. -/
def Moves (tp : TicketProduct) (own : Prop) (db db' : Database) : Prop :=
  own ∨ ∀ buyerUserId,
    existingQuantity tp.id buyerUserId db' ≤ existingQuantity tp.id buyerUserId db

instance {own : Prop} : IsPreorder Database (Moves tp own) where
  refl _ := .inr fun _ => le_refl _
  trans _ _ _ h h' := by
    rcases h with hown | hle
    · exact .inl hown
    · rcases h' with hown | hle'
      · exact .inl hown
      · exact .inr fun buyer => (hle' buyer).trans (hle buyer)

/-- Holdings grow only under the lock of the ticket product. -/
def Rely (tp : TicketProduct) (L : List (Lock Row)) (db db' : Database) : Prop :=
  NotWritten L (.ticketProduct tp.id) → ∀ buyerUserId,
    existingQuantity tp.id buyerUserId db' ≤ existingQuantity tp.id buyerUserId db

theorem Moves.rely {own : Prop} {L : List (Lock Row)} (h : Moves tp own db db')
    (hown : own → Written L (.ticketProduct tp.id)) : Rely tp L db db' := by
  intro hfree
  rcases h with h | h
  · exact absurd (hown h) hfree.not_written
  · exact h

/-- What no product of its own is needed for. -/
theorem Moves.owned {own : Prop} (h : Moves tp False db db') : Moves tp own db db' := by
  rcases h with hfalse | hle
  · exact hfalse.elim
  · exact .inr hle

/-! ### Changes of other rows -/

/-- Nothing happens to the reservations, nor to the inventory of the product. -/
structure Beside (tp : TicketProduct) (db db' : Database) : Prop where
  offered : Offered tp db.catalogue → Offered tp db'.catalogue
  reservations : db'.reservations = db.reservations
  productIds : db'.inventory.map (·.productId) = db.inventory.map (·.productId)
  inventory : inventoryTable.find db' tp.productId = inventoryTable.find db tp.productId

instance : IsPreorder Database (Beside tp) where
  refl _ := ⟨fun h => h, rfl, rfl, rfl⟩
  trans _ _ _ h h' := ⟨fun ho => h'.offered (h.offered ho), h'.reservations.trans h.reservations,
    h'.productIds.trans h.productIds, h'.inventory.trans h.inventory⟩

theorem Beside.stocked (h : Beside tp db db') (hS : Stocked tp db) : Stocked tp db' := by
  have hcounter (count : Inventory → Int) :
      counter count tp.productId db' = counter count tp.productId db := by
    rw [counter, h.inventory, counter]
  have hquantity (status : ReservationStatus) :
      quantityIn tp.id status db' = quantityIn tp.id status db := by
    rw [quantityIn, h.reservations, quantityIn]
  refine ⟨h.offered hS.offered, ?_, ?_, ?_, ?_, ?_, ?_, fun buyer => ?_⟩
  · exact h.reservations ▸ hS.reservationIds
  · exact h.productIds ▸ hS.productIds
  · exact h.reservations ▸ hS.quantities
  · rw [hcounter, hquantity, hS.reserved]
  · rw [hcounter, hquantity, hS.fulfilled]
  · rw [h.inventory]
    exact hS.within
  · rw [existingQuantity, h.reservations]
    exact hS.holdings buyer

theorem Beside.holdings (h : Beside tp db db') (buyerUserId : Uuid) :
    existingQuantity tp.id buyerUserId db' = existingQuantity tp.id buyerUserId db := by
  rw [existingQuantity, h.reservations, existingQuantity]

theorem Beside.moves {own : Prop} (h : Beside tp db db') : Moves tp own db db' :=
  .inr fun buyer => (h.holdings buyer).le

/-- An update of the inventory of another product. -/
theorem beside_inventory {p : Inventory → Bool} {f : Inventory → Inventory} {productId : Uuid}
    (hf : ∀ i, (f i).productId = i.productId) (hp : ∀ i, p i = true → i.productId = productId)
    (hne : productId ≠ tp.productId) : Beside tp db (inventoryTable.modify p f view db) where
  offered h := h
  reservations := rfl
  productIds := inventoryTable.keys_modify hf
  inventory := inventoryTable.find_modify_of_ne hf hp hne.symm

/-! ### Changes of the stock -/

/-- The counter of a row that is there. -/
theorem counter_of_find {count : Inventory → Int} {productId : Uuid} {i : Inventory}
    (h : inventoryTable.find db productId = some i) : counter count productId db = count i := by
  rw [counter, h, Option.map_some, Option.getD_some]

theorem counter_congr {count : Inventory → Int} {productId : Uuid}
    (h : inventoryTable.find db' productId = inventoryTable.find db productId) :
    counter count productId db' = counter count productId db := by
  rw [counter, h, counter]

/-- The counters of the product move by these amounts, and stay within the limit. -/
def Shifts (productId : Uuid) (reserved fulfilled : Int) (db db' : Database) : Prop :=
  (reserved = 0 ∧ fulfilled = 0 ∧
      inventoryTable.find db' productId = inventoryTable.find db productId) ∨
    ∃ i i', inventoryTable.find db productId = some i ∧ inventoryTable.find db' productId = some i' ∧
      i'.reservedQuantity = i.reservedQuantity + reserved ∧
      i'.fulfilledQuantity = i.fulfilledQuantity + fulfilled ∧
      ∀ limit, i'.supplyLimit = some limit → i'.reservedQuantity + i'.fulfilledQuantity ≤ limit

/-- **A change of reservations and inventory together**: the counters move as the sums do. -/
theorem Stocked.change (h : Stocked tp db) (reserved fulfilled : Int)
    (hcatalogue : db'.catalogue = db.catalogue) (hids : (db'.reservations.map (·.id)).Nodup)
    (hproducts : db'.inventory.map (·.productId) = db.inventory.map (·.productId))
    (hquantities : ∀ r ∈ db'.reservations, 0 < r.quantity)
    (hreserved : quantityIn tp.id .reserved db' = quantityIn tp.id .reserved db + reserved)
    (hconverted : quantityIn tp.id .converted db' = quantityIn tp.id .converted db + fulfilled)
    (hshifts : Shifts tp.productId reserved fulfilled db db')
    (hholdings : ∀ buyerUserId, existingQuantity tp.id buyerUserId db' ≤ tp.perUserLimit) :
    Stocked tp db' := by
  have hbase := hcatalogue ▸ h.offered
  have hproductIds : (db'.inventory.map (·.productId)).Nodup := hproducts ▸ h.productIds
  rcases hshifts with ⟨rfl, rfl, hsame⟩ | ⟨i, i', hi, hi', hres, hful, hwithin⟩
  · refine ⟨hbase, hids, hproductIds, hquantities, ?_, ?_, hsame ▸ h.within, hholdings⟩
    · rw [counter_congr hsame, h.reserved, hreserved, add_zero]
    · rw [counter_congr hsame, h.fulfilled, hconverted, add_zero]
  · refine ⟨hbase, hids, hproductIds, hquantities, ?_, ?_, fun j hj => ?_, hholdings⟩
    · rw [counter_of_find hi', hres, hreserved, ← h.reserved, counter_of_find hi]
    · rw [counter_of_find hi', hful, hconverted, ← h.fulfilled, counter_of_find hi]
    · rw [hi'] at hj
      obtain rfl := Option.some.inj hj
      exact hwithin

/-- Something is reserved, so there is a row, and the counter covers it. -/
theorem Stocked.covers (h : Stocked tp db) {r : Reservation} (hr : r ∈ db.reservations)
    (hstatus : r.status = .reserved) (htp : r.ticketProductId = tp.id) :
    ∃ i, inventoryTable.find db tp.productId = some i ∧ r.quantity ≤ i.reservedQuantity := by
  have hle : r.quantity ≤ quantityIn tp.id .reserved db := by
    rw [quantityIn_eq]
    have hone : countIn tp.id .reserved r ≤ total (countIn tp.id .reserved) db.reservations :=
      total_le_of_mem (fun s hs => ?_) hr
    · rwa [countIn, htp, hstatus, if_pos (by simp)] at hone
    · unfold countIn
      split
      · exact (h.quantities s hs).le
      · exact le_refl _
  have hpos := h.quantities r hr
  rw [← h.reserved] at hle
  cases hi : inventoryTable.find db tp.productId with
  | some i => exact ⟨i, rfl, by rwa [counter_of_find hi] at hle⟩
  | none =>
      rw [counter, hi, Option.map_none, Option.getD_none] at hle
      omega

/-! ### One reservation -/

section Reservation

variable {r : Reservation} {ticketProductId buyerUserId : Uuid}

theorem countIn_of_status {status : ReservationStatus} (h : r.status = status) :
    countIn ticketProductId status r = if r.ticketProductId = ticketProductId then r.quantity else 0 := by
  simp [countIn, h]

theorem countIn_of_ne {status : ReservationStatus} (h : r.status ≠ status) :
    countIn ticketProductId status r = 0 := by
  simp [countIn, h]

/-- What is held depends on whether the reservation is live. -/
theorem heldIn_of_live (h : r.status = .reserved ∨ r.status = .converted) :
    heldIn ticketProductId buyerUserId r =
      if r.ticketProductId = ticketProductId ∧ r.buyerUserId = buyerUserId then r.quantity else 0 := by
  rcases h with h | h <;> simp [heldIn, h]

theorem heldIn_of_expired (h : r.status = .expired) : heldIn ticketProductId buyerUserId r = 0 := by
  simp [heldIn, h]

theorem countIn_of_other {status : ReservationStatus} (h : r.ticketProductId ≠ ticketProductId) :
    countIn ticketProductId status r = 0 := by
  simp [countIn, h]

theorem heldIn_of_other (h : r.ticketProductId ≠ ticketProductId) :
    heldIn ticketProductId buyerUserId r = 0 := by
  simp [heldIn, h]

theorem heldIn_nonneg (h : 0 < r.quantity) : 0 ≤ heldIn ticketProductId buyerUserId r := by
  unfold heldIn
  split
  · exact h.le
  · exact le_refl _

/-- A sum over the reservations after one of them changed its status. -/
theorem total_setStatus {weight : Reservation → Int} {p : Reservation → Bool}
    {status : ReservationStatus} (hids : (db.reservations.map (·.id)).Nodup)
    (hr : reservationTable.find db r.id = some r) (hview : reservationTable.find view r.id = some r)
    (hp : p r = true) (honly : ∀ s, p s = true → s.id = r.id) :
    total weight (setReservations p status view db).reservations =
      total weight db.reservations - weight r + weight { r with status } :=
  reservationTable.total_modify_of_find (f := ({ · with status })) hids hr hview hp honly

theorem nodup_setStatus {p : Reservation → Bool} {status : ReservationStatus}
    (hids : (db.reservations.map (·.id)).Nodup) :
    ((setReservations p status view db).reservations.map (·.id)).Nodup := by
  have hmap : (setReservations p status view db).reservations.map (·.id) =
      db.reservations.map (·.id) := reservationTable.keys_modify fun _ => rfl
  exact hmap ▸ hids

theorem quantities_setStatus {p : Reservation → Bool} {status : ReservationStatus}
    (h : ∀ r ∈ db.reservations, 0 < r.quantity) :
    ∀ r ∈ (setReservations p status view db).reservations, 0 < r.quantity := by
  intro r hr
  rcases reservationTable.mem_modify hr with hr | ⟨r₀, hr₀, -, rfl⟩
  · exact h r hr
  · exact h r₀ hr₀

end Reservation

/-! ### The row of the product -/

/-- The update of a row that the statement saw as it is, and admits. -/
theorem find_updateInventory {productId : Uuid} (admits : Inventory → Bool)
    {f : Inventory → Inventory} (hf : ∀ i, (f i).productId = i.productId) {i : Inventory}
    (hdb : inventoryTable.find db productId = some i)
    (hview : inventoryTable.find view productId = some i) (hadmits : admits i = true) :
    inventoryTable.find
      (inventoryTable.modify (fun i => i.productId = productId && admits i) f view db) productId =
        some (f i) := by
  refine inventoryTable.find_modify_of_find hf hdb hview ?_
  have hkey : i.productId = productId := (inventoryTable.find_mem hview).2
  rw [hkey, decide_eq_true rfl, hadmits, Bool.and_self]

/-- An update of the inventory of another product. -/
theorem find_updateInventory_of_ne {productId : Uuid} {admits : Inventory → Bool}
    {f : Inventory → Inventory} (hf : ∀ i, (f i).productId = i.productId)
    (hne : productId ≠ tp.productId) :
    inventoryTable.find
      (inventoryTable.modify (fun i => i.productId = productId && admits i) f view db) tp.productId =
        inventoryTable.find db tp.productId :=
  inventoryTable.find_modify_of_ne hf (fun _ hi => of_decide_eq_true (Bool.and_eq_true_iff.mp hi).1)
    hne.symm

/-- What the three operations make of an inventory. -/
def reserve (quantity : Int) (i : Inventory) : Inventory :=
  { i with reservedQuantity := i.reservedQuantity + quantity }

def giveBack (quantity : Int) (i : Inventory) : Inventory :=
  { i with reservedQuantity := max 0 (i.reservedQuantity - quantity) }

def fulfil (quantity : Int) (i : Inventory) : Inventory :=
  { i with
    reservedQuantity := i.reservedQuantity - quantity
    fulfilledQuantity := i.fulfilledQuantity + quantity }

/-! ### The three operations -/

/-- What is left of a quantity if the reservation is one of the ticket product. -/
def share (tp : TicketProduct) (r : Reservation) : Int :=
  if r.ticketProductId = tp.id then r.quantity else 0

/-- What a buyer holds after a reservation expired. -/
theorem holdings_expired {r : Reservation} (hids : (db.reservations.map (·.id)).Nodup)
    (hr : reservationTable.find db r.id = some r) (hview : reservationTable.find view r.id = some r)
    (hreservations : db'.reservations = (setReservations (·.id = r.id) .expired view db).reservations)
    (buyerUserId : Uuid) :
    existingQuantity tp.id buyerUserId db' =
      existingQuantity tp.id buyerUserId db - heldIn tp.id buyerUserId r := by
  have hafter : heldIn tp.id buyerUserId { r with status := .expired } = 0 := heldIn_of_expired rfl
  rw [existingQuantity_eq, existingQuantity_eq, hreservations,
    total_setStatus hids hr hview (decide_eq_true rfl) fun s hs => of_decide_eq_true hs, hafter,
    add_zero]

/-- **The expiry sweep** returns a reservation that is still held. -/
theorem Stocked.release (h : Stocked tp db) {r : Reservation} {productId : Uuid}
    {viewR viewO viewI : Database} {q : Order → Bool}
    (hr : reservationTable.find db r.id = some r) (hstatus : r.status = .reserved)
    (hviewR : reservationTable.find viewR r.id = some r)
    (hproduct : productId = tp.productId ↔ r.ticketProductId = tp.id)
    (hviewI : productId = tp.productId → ∀ i, inventoryTable.find db tp.productId = some i →
      inventoryTable.find viewI productId = some i)
    (hdb' : inventoryTable.modify (fun i => i.productId = productId && true)
      (giveBack r.quantity) viewI
      (setOrders q .expired viewO (setReservations (·.id = r.id) .expired viewR db)) = db') :
    Stocked tp db' ∧ Moves tp False db db' := by
  have htotal (weight : Reservation → Int) :
      total weight (setReservations (·.id = r.id) .expired viewR db).reservations =
        total weight db.reservations - weight r + weight { r with status := .expired } :=
    total_setStatus h.reservationIds hr hviewR (decide_eq_true rfl) fun s hs => of_decide_eq_true hs
  have hmem := (reservationTable.find_mem hr).1
  have hpos := h.quantities r hmem
  have hreservations : db'.reservations =
      (setReservations (·.id = r.id) .expired viewR db).reservations := by rw [← hdb']; rfl
  have hholdings (buyer : Uuid) :
      existingQuantity tp.id buyer db' ≤ existingQuantity tp.id buyer db := by
    have hheld : 0 ≤ heldIn tp.id buyer r := heldIn_nonneg hpos
    rw [holdings_expired h.reservationIds hr hviewR hreservations]
    omega
  refine ⟨h.change (- share tp r) 0 (by rw [← hdb']; rfl) ?_ ?_ ?_ ?_ ?_ ?_
    fun buyer => (hholdings buyer).trans (h.holdings buyer), .inr hholdings⟩
  · rw [hreservations]
    exact nodup_setStatus h.reservationIds
  · rw [← hdb']
    exact inventoryTable.keys_modify fun _ => rfl
  · rw [hreservations]
    exact quantities_setStatus h.quantities
  · rw [quantityIn_eq, quantityIn_eq, hreservations, htotal, countIn_of_status hstatus,
      countIn_of_ne (show ReservationStatus.expired ≠ .reserved by decide), add_zero, share]
    omega
  · rw [quantityIn_eq, quantityIn_eq, hreservations, htotal,
      countIn_of_ne (show r.status ≠ .converted by rw [hstatus]; decide),
      countIn_of_ne (show ReservationStatus.expired ≠ .converted by decide)]
    omega
  · rw [share]
    by_cases hwhose : productId = tp.productId
    · -- the counter covers the reservation, so nothing is cut off at zero
      obtain ⟨i, hi, hcovers⟩ := h.covers hmem hstatus (hproduct.mp hwhose)
      have hi' : inventoryTable.find db' productId = some (giveBack r.quantity i) := by
        rw [← hdb']
        refine find_updateInventory (fun _ => true) (f := giveBack r.quantity) (fun _ => rfl) ?_
          (hviewI hwhose i hi) rfl
        show inventoryTable.find db productId = some i
        rw [hwhose]
        exact hi
      rw [hwhose] at hi'
      refine .inr ⟨i, _, hi, hi', ?_, ?_, fun limit hlimit => ?_⟩
      · rw [if_pos (hproduct.mp hwhose)]
        show max 0 (i.reservedQuantity - r.quantity) = _
        omega
      · exact (add_zero _).symm
      · have := h.within i hi limit hlimit
        show max 0 (i.reservedQuantity - r.quantity) + i.fulfilledQuantity ≤ limit
        omega
    · refine .inl ⟨by rw [if_neg fun htp => hwhose (hproduct.mpr htp), neg_zero], rfl, ?_⟩
      rw [← hdb']
      exact find_updateInventory_of_ne (f := giveBack r.quantity) (fun _ => rfl) hwhose

/-- **A new reservation**, with its quantity reserved. -/
theorem Stocked.add (h : Stocked tp db) {r : Reservation} {productId : Uuid} {admits : Inventory → Bool}
    {view : Database} {i : Inventory} (hnew : reservationTable.find db r.id = none)
    (hstatus : r.status = .reserved) (hpos : 0 < r.quantity)
    (hproduct : productId = tp.productId ↔ r.ticketProductId = tp.id)
    (hi : inventoryTable.find db productId = some i)
    (hview : inventoryTable.find view productId = some i) (hadmits : admits i = true)
    (hlimit : ∀ limit, i.supplyLimit = some limit →
      i.reservedQuantity + i.fulfilledQuantity + r.quantity ≤ limit)
    (hbuyer : r.ticketProductId = tp.id →
      existingQuantity tp.id r.buyerUserId db + r.quantity ≤ tp.perUserLimit)
    (hdb' : reservationTable.add r (inventoryTable.modify (fun i => i.productId = productId && admits i)
      (reserve r.quantity) view db) = db') :
    Stocked tp db' ∧ Moves tp (r.ticketProductId = tp.id) db db' := by
  have hreservations : db'.reservations = db.reservations ++ [r] := by rw [← hdb']; rfl
  have hfind (id : Uuid) : inventoryTable.find db' id = inventoryTable.find
      (inventoryTable.modify (fun i => i.productId = productId && admits i) (reserve r.quantity) view db)
      id := by rw [← hdb']; rfl
  have hheld (buyer : Uuid) : existingQuantity tp.id buyer db' = existingQuantity tp.id buyer db +
      if r.ticketProductId = tp.id ∧ r.buyerUserId = buyer then r.quantity else 0 := by
    rw [existingQuantity_eq, existingQuantity_eq, hreservations, total_concat,
      heldIn_of_live (.inl hstatus)]
  refine ⟨h.change (share tp r) 0 (by rw [← hdb']; rfl) ?_ ?_ ?_ ?_ ?_ ?_
    fun buyer => ?_, ?_⟩
  · rw [← hdb']
    exact reservationTable.nodup_add h.reservationIds (reservationTable.find_none hnew)
  · rw [← hdb']
    exact inventoryTable.keys_modify fun _ => rfl
  · intro s hs
    rw [hreservations] at hs
    rcases List.mem_append.mp hs with hs | hs
    · exact h.quantities s hs
    · rwa [List.mem_singleton.mp hs]
  · rw [quantityIn_eq, quantityIn_eq, hreservations, total_concat, countIn_of_status hstatus, share]
  · rw [quantityIn_eq, quantityIn_eq, hreservations, total_concat,
      countIn_of_ne (by rw [hstatus]; decide)]
  · by_cases hwhose : productId = tp.productId
    · have hi' := (hfind productId).trans
        (find_updateInventory admits (f := reserve r.quantity) (fun _ => rfl) hi hview hadmits)
      rw [hwhose] at hi hi'
      refine .inr ⟨i, _, hi, hi', ?_, (add_zero _).symm, fun limit hlim => ?_⟩
      · rw [share, if_pos (hproduct.mp hwhose)]
        rfl
      · have := hlimit limit hlim
        show i.reservedQuantity + r.quantity + i.fulfilledQuantity ≤ limit
        omega
    · refine .inl ⟨by rw [share, if_neg fun htp => hwhose (hproduct.mpr htp)], rfl, ?_⟩
      rw [hfind]
      exact find_updateInventory_of_ne (fun _ => rfl) hwhose
  · rw [hheld]
    split
    · rename_i hwhose
      obtain ⟨htp, rfl⟩ := hwhose
      exact hbuyer htp
    · rw [add_zero]
      exact h.holdings buyer
  · by_cases htp : r.ticketProductId = tp.id
    · exact .inl htp
    · refine .inr fun buyer => ?_
      rw [hheld, if_neg fun hwhose => htp hwhose.1, add_zero]

/-- **The issuance** of a reservation that is still held. -/
theorem Stocked.convert (h : Stocked tp db) {r : Reservation} {productId : Uuid}
    {admits : Inventory → Bool} {viewI viewR viewO : Database} {i : Inventory}
    {p : Reservation → Bool} {q : Order → Bool}
    (hr : reservationTable.find db r.id = some r) (hstatus : r.status = .reserved)
    (hviewR : reservationTable.find viewR r.id = some r) (hp : p r = true)
    (honly : ∀ s, p s = true → s.id = r.id)
    (hproduct : productId = tp.productId ↔ r.ticketProductId = tp.id)
    (hi : inventoryTable.find db productId = some i)
    (hviewI : inventoryTable.find viewI productId = some i) (hadmits : admits i = true)
    (hdb' : setOrders q .fulfilling viewO (setReservations p .converted viewR
      (inventoryTable.modify (fun i => i.productId = productId && admits i) (fulfil r.quantity) viewI
        db)) = db') :
    Stocked tp db' ∧ Moves tp False db db' := by
  have htotal (weight : Reservation → Int) :
      total weight (setReservations p .converted viewR db).reservations =
        total weight db.reservations - weight r + weight { r with status := .converted } :=
    total_setStatus h.reservationIds hr hviewR hp honly
  have hreservations : db'.reservations = (setReservations p .converted viewR db).reservations := by
    rw [← hdb']; rfl
  have hfind (id : Uuid) : inventoryTable.find db' id = inventoryTable.find
      (inventoryTable.modify (fun i => i.productId = productId && admits i) (fulfil r.quantity) viewI
        db) id := by rw [← hdb']; rfl
  have hheld (buyer : Uuid) : existingQuantity tp.id buyer db' = existingQuantity tp.id buyer db := by
    have hafter : heldIn tp.id buyer { r with status := .converted } = heldIn tp.id buyer r :=
      (heldIn_of_live (.inr rfl)).trans (heldIn_of_live (.inl hstatus)).symm
    rw [existingQuantity_eq, existingQuantity_eq, hreservations, htotal, hafter, sub_add_cancel]
  refine ⟨h.change (- share tp r) (share tp r) (by rw [← hdb']; rfl)
    ?_ ?_ ?_ ?_ ?_ ?_ fun buyer => (hheld buyer).trans_le (h.holdings buyer),
    .inr fun buyer => (hheld buyer).le⟩
  · rw [hreservations]
    exact nodup_setStatus h.reservationIds
  · rw [← hdb']
    exact inventoryTable.keys_modify fun _ => rfl
  · rw [hreservations]
    exact quantities_setStatus h.quantities
  · rw [quantityIn_eq, quantityIn_eq, hreservations, htotal, countIn_of_status hstatus,
      countIn_of_ne (show ReservationStatus.converted ≠ .reserved by decide), add_zero, share]
    omega
  · rw [quantityIn_eq, quantityIn_eq, hreservations, htotal,
      countIn_of_ne (show r.status ≠ .converted by rw [hstatus]; decide),
      countIn_of_status (r := { r with status := .converted }) rfl, sub_zero, share]
  · rw [share]
    by_cases hwhose : productId = tp.productId
    · have hi' := (hfind productId).trans
        (find_updateInventory admits (f := fulfil r.quantity) (fun _ => rfl) hi hviewI hadmits)
      rw [hwhose] at hi hi'
      rw [if_pos (hproduct.mp hwhose)]
      refine .inr ⟨i, _, hi, hi', sub_eq_add_neg _ _, rfl, fun limit hlimit => ?_⟩
      have := h.within i hi limit hlimit
      show i.reservedQuantity - r.quantity + (i.fulfilledQuantity + r.quantity) ≤ limit
      omega
    · rw [if_neg fun htp => hwhose (hproduct.mpr htp), neg_zero]
      refine .inl ⟨rfl, rfl, ?_⟩
      rw [hfind]
      exact find_updateInventory_of_ne (fun _ => rfl) hwhose

end CrownFi.Commerce.Stock
