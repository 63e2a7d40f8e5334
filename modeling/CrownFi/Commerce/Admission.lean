import CrownFi.Commerce.BuyerKeys
import CrownFi.Commerce.StockLevels

/-!
# CrownFi.Commerce.Admission

**What the checks of the limits decide.** An order is admitted against the supply of its product, a
reservation against what its buyer may hold and against the supply. Both checks add in `i64`, and a
release build wraps: a sum from `2 ^ 63` on becomes negative and is below every limit. So a request
is refused exactly if some sum is above its limit and fits, and the decision is that of unbounded
integers exactly if every sum fits, or one that fits refuses the request anyway. Behind the check of
the supply there is the condition of the update, where the database refuses to add; behind the check
of the buyer's limit there is nothing.
-/

namespace CrownFi.Commerce.Admission

open Lib CrownFi.Api Ticketing Orders Buyers

/-! ### Sums against limits -/

/-- What there would be, and how much there may be. -/
structure Check where
  sum : Int
  limit : Int

def Check.Exceeded (c : Check) : Prop := c.limit < c.sum

def Check.Fits (c : Check) : Prop := c.sum < 2 ^ 63

instance (c : Check) : Decidable c.Exceeded := inferInstanceAs (Decidable (_ < _))

instance (c : Check) : Decidable c.Fits := inferInstanceAs (Decidable (_ < _))

/-- The check as it is computed. -/
def Check.passes (c : Check) : Bool := wrapI64 c.sum ≤ c.limit

/-- A check whose numbers are what the columns and the request admit. -/
structure Check.Ranged (c : Check) : Prop where
  low : -2 ^ 63 ≤ c.sum
  high : c.sum < 2 ^ 64
  limit : 0 ≤ c.limit ∧ c.limit < 2 ^ 63

theorem wrapI64_high {n : Int} (hlow : 2 ^ 63 ≤ n) (hhigh : n < 2 ^ 64) : wrapI64 n = n - 2 ^ 64 := by
  have hwrap : wrapI64 n = wrapI64 (n - 2 ^ 64) := by
    rw [wrapI64, wrapI64, BitVec.toInt_ofInt, BitVec.toInt_ofInt]
    exact (Int.sub_bmod_right n (2 ^ 64)).symm
  rw [hwrap, wrapI64_of_inI64 ⟨by omega, by omega⟩]

/-- A check fails exactly if its sum fits and is above the limit. -/
theorem Check.Ranged.passes_iff {c : Check} (h : c.Ranged) :
    c.passes = false ↔ c.Exceeded ∧ c.Fits := by
  obtain ⟨hlow, hhigh, hlimit⟩ := h
  unfold Check.passes Check.Exceeded Check.Fits
  rw [decide_eq_false_iff_not]
  by_cases hfits : c.sum < 2 ^ 63
  · rw [wrapI64_of_inI64 ⟨hlow, hfits⟩]
    omega
  · rw [wrapI64_high (by omega) hhigh]
    omega

/-- The answer is a refusal exactly if one of the checks fails. -/
def Decides (checks : List Check) (refused : Result → Prop) (r : Result) : Prop :=
  refused r ↔ ∃ c ∈ checks, c.passes = false

/-- Checks that decide as they are computed decide as over unbounded integers exactly if every sum
fits, or one that fits refuses. -/
theorem Decides.exact_iff {checks : List Check} {refused : Result → Prop} {r : Result}
    (hranged : ∀ c ∈ checks, c.Ranged) (h : Decides checks refused r) :
    (refused r ↔ ∃ c ∈ checks, c.Exceeded) ↔
      (∀ c ∈ checks, c.Fits) ∨ ∃ c ∈ checks, c.Exceeded ∧ c.Fits := by
  have hrefused : refused r ↔ ∃ c ∈ checks, c.Exceeded ∧ c.Fits := by
    refine h.trans ?_
    constructor
    · rintro ⟨c, hc, hpasses⟩
      exact ⟨c, hc, (hranged c hc).passes_iff.mp hpasses⟩
    · rintro ⟨c, hc, hboth⟩
      exact ⟨c, hc, (hranged c hc).passes_iff.mpr hboth⟩
  rw [hrefused]
  constructor
  · intro hsame
    by_cases hall : ∀ c ∈ checks, c.Fits
    · exact .inl hall
    · -- a sum that does not fit is above every limit
      simp only [not_forall] at hall
      obtain ⟨c, hc, hnot⟩ := hall
      have hlimit := (hranged c hc).limit.2
      exact .inr (hsame.mpr ⟨c, hc, by unfold Check.Fits at hnot; unfold Check.Exceeded; omega⟩)
  · rintro (hall | hsome)
    · constructor
      · rintro ⟨c, hc, hexceeded, -⟩
        exact ⟨c, hc, hexceeded⟩
      · rintro ⟨c, hc, hexceeded⟩
        exact ⟨c, hc, hexceeded, hall c hc⟩
    · refine iff_of_true hsome ?_
      obtain ⟨c, hc, hexceeded, -⟩ := hsome
      exact ⟨c, hc, hexceeded⟩

/-! ### The constraints of the tables -/

/-- The constraints of the columns that the checks read. -/
structure Constrained (db : Database) : Prop extends Buyers.Sound db where
  supply : ∀ i ∈ db.inventory, ∀ limit, i.supplyLimit = some limit → 0 < limit ∧ limit < 2 ^ 63
  perUser : ∀ tp ∈ db.catalogue.ticketProducts, 1 ≤ tp.perUserLimit ∧ tp.perUserLimit ≤ 20

variable {db view : Database}

theorem Constrained.swept {now : Int} (h : Constrained db) (hsweeps : Sweeps now db view) :
    Constrained view where
  toSound := hsweeps.sound h.toSound
  supply i' hi' := by
    obtain ⟨i, hi, n, -, -, rfl⟩ := forall₂_exists hsweeps.inventory hi'
    exact h.supply i hi
  perUser := by
    rw [hsweeps.catalogue]
    exact h.perUser

/-- The check of the supply, if there is a limit. -/
def supplyChecks (i : Inventory) (quantity : Int) : List Check :=
  i.supplyLimit.toList.map fun limit => ⟨i.reservedQuantity + i.fulfilledQuantity + quantity, limit⟩

theorem Constrained.ranged (h : Constrained db) {i : Inventory} (hi : i ∈ db.inventory) {quantity : Int}
    (hquantity : 0 < quantity ∧ quantity < 2 ^ 63) : ∀ c ∈ supplyChecks i quantity, c.Ranged := by
  intro c hc
  obtain ⟨limit, hlimit, rfl⟩ := List.mem_map.mp hc
  rw [Option.mem_toList] at hlimit
  obtain ⟨-, hpositive, hpositive', hwithin⟩ := inventoryViolation_eq.mp (h.counters i hi)
  have hwithin := hwithin limit hlimit
  obtain ⟨hlow, hhigh⟩ := h.supply i hi limit hlimit
  refine ⟨?_, ?_, hlow.le, hhigh⟩
  · show _ ≤ i.reservedQuantity + i.fulfilledQuantity + quantity
    omega
  · show i.reservedQuantity + i.fulfilledQuantity + quantity < _
    omega

theorem supplyChecks_passed {i : Inventory} {quantity : Int} :
    (i.supplyLimit.all fun limit =>
      wrapI64 (i.reservedQuantity + i.fulfilledQuantity + quantity) ≤ limit) = true ↔
    ¬ ∃ c ∈ supplyChecks i quantity, c.passes = false := by
  unfold supplyChecks
  cases i.supplyLimit with
  | none => simp
  | some limit => simp [Check.passes]

/-! ### Behind the checks -/

section Reserve

variable {Q : Result → Database → Prop} {map : SqlError → ApiError} {quantity : Int} {i : Inventory}

theorem raised {P : Result → Prop} {e : Option SqlError} {r : Result} (refused : ∀ e, P (.error (map e)))
    (h : raise map e = some r) : P r := by
  obtain ⟨err, -, rfl⟩ := Option.map_eq_some_iff.mp h
  exact refused err

/-- **A supply that passed its check is reserved**, or the database refuses to add. -/
theorem alone_reserve {productId : Uuid} {k : Nat → Prog Database Row Site Result}
    (hids : (view.inventory.map (·.productId)).Nodup)
    (hi : inventoryTable.find view productId = some i)
    (hranged : ∀ c ∈ supplyChecks i quantity, c.Ranged)
    (hpassed : ¬ ∃ c ∈ supplyChecks i quantity, c.passes = false)
    (refused : ∀ e, Q (.error (map e)) db) (next : ∀ view', (k 1).Alone Q view' db) :
    Prog.Alone Q (reserveInventory map productId quantity k) view db := by
  unfold reserveInventory updateInventory updateInventoryAt
  refine alone_bind (alone_select (alone_bind (alone_require (refused .outOfRange) fun hfits => ?_)))
  refine alone_update (fun _ _ _ h => raised (P := fun r => Q r db) refused h) fun _ => ?_
  have hadmits : (i.supplyLimit.all fun limit =>
      i.reservedQuantity + i.fulfilledQuantity + quantity ≤ limit) = true := by
    rw [hi, Option.all_some] at hfits
    rw [Option.all_eq_true] at hfits ⊢
    intro limit hlimit
    have hmem : (⟨i.reservedQuantity + i.fulfilledQuantity + quantity, limit⟩ : Check) ∈
        supplyChecks i quantity := List.mem_map.mpr ⟨limit, Option.mem_toList.mpr hlimit, rfl⟩
    have hinside : ¬ (limit < i.reservedQuantity + i.fulfilledQuantity + quantity ∧
        i.reservedQuantity + i.fulfilledQuantity + quantity < 2 ^ 63) := fun h =>
      hpassed ⟨_, hmem, (hranged _ hmem).passes_iff.mpr h⟩
    have hrange := (of_decide_eq_true (hfits limit hlimit)).2
    exact decide_eq_true (by omega)
  have hone : (inventoryTable.matching (fun j => j.productId = productId &&
      j.supplyLimit.all fun limit => j.reservedQuantity + j.fulfilledQuantity + quantity ≤ limit)
      view).length = 1 := by
    obtain rfl : i.productId = productId := (inventoryTable.find_mem hi).2
    exact inventoryTable.length_matching_key hids hi hadmits
  rw [hone]
  exact next _

end Reserve

/-! ### Orders -/

section Orders

variable {sha256 : Sha256} {actorUserId organizationId orderId itemId : Uuid} {body : CreateOrderRequest}
  {i : Inventory}

/-- The request comes to the check of the supply, which finds the inventory like this. -/
structure OrderChecked (actorUserId organizationId : Uuid) (body : CreateOrderRequest) (db : Database)
    (i : Inventory) : Prop where
  editor : db.directory.memberEditor organizationId actorUserId = true
  quantity : 0 < body.quantity ∧ body.quantity < 2 ^ 63
  environment : ∃ environment, validateEnvironment body.environment = .ok environment
  key : ∃ key, requiredChars body.idempotencyKey 200 "invalid_order_idempotency_key" = .ok key ∧
    db.orders.find? (fun o => o.organizationId = organizationId && o.idempotencyKey = key) = none
  entry : ∃ entry, catalogueEntry body.productId body.priceId db.directory.clock db = some entry ∧
    entry.organizationId = organizationId ∧ entry.status = .published ∧
    inI64 (entry.amountMinor * body.quantity)
  inventory : inventoryTable.find db body.productId = some i

/-- What `create_order` answers if the supply is too small. -/
def orderRefused (r : Result) : Prop := r = .error (.conflict "insufficient_inventory")

theorem catalogueEntry_row {productId priceId : Uuid} {now : Int} {entry : CatalogueEntry}
    (h : catalogueEntry productId priceId now db = some entry)
    (hi : inventoryTable.find db productId = some i) :
    entry.supplyLimit = i.supplyLimit ∧ entry.reservedQuantity = i.reservedQuantity ∧
      entry.fulfilledQuantity = i.fulfilledQuantity := by
  simp only [catalogueEntry, Option.bind_eq_bind, Option.bind_eq_some_iff, Option.pure_def,
    Option.some.injEq] at h
  obtain ⟨p, hp, pp, -, j, hj, rfl⟩ := h
  have hid : p.id = productId := by simpa using List.find?_some hp
  subst hid
  obtain rfl : i = j := Option.some.inj (hi.symm.trans hj)
  exact ⟨rfl, rfl, rfl⟩

theorem order_decided (hdb : Constrained db) (h : OrderChecked actorUserId organizationId body db i) :
    Decides (supplyChecks i body.quantity) orderRefused
      ((createOrder sha256 actorUserId organizationId body orderId itemId).request.result db) := by
  obtain ⟨environment, henvironment⟩ := h.environment
  obtain ⟨key, hkey, hnew⟩ := h.key
  obtain ⟨entry, hentry, horganization, hstatus, hamount⟩ := h.entry
  obtain ⟨hlimit, hreserved, hfulfilled⟩ := catalogueEntry_row hentry h.inventory
  have hranged := hdb.ranged (inventoryTable.find_mem h.inventory).1 h.quantity
  have htotal : checkedI64 (entry.amountMinor * body.quantity) =
      some (entry.amountMinor * body.quantity) := if_pos hamount
  generalize hchecks : supplyChecks i body.quantity = checks
  show Prog.Alone (fun r _ => Decides checks orderRefused r) _ db db
  unfold Handler.request createOrder requireEditor insertOrder insertOrderItem
  refine alone_bind (alone_bind (alone_select (alone_passed h.editor ?_)))
  refine alone_bind (alone_passed (decide_eq_true h.quantity.1) ?_)
  refine alone_bind (alone_valid henvironment ?_)
  refine alone_bind (alone_valid hkey ?_)
  refine alone_bind (alone_select (alone_bind (alone_selectFor ?_)))
  simp only [hnew]
  refine alone_bind (alone_selectFor (alone_bind (alone_found hentry ?_)))
  refine alone_bind (alone_passed (decide_eq_true horganization) ?_)
  refine alone_bind (alone_passed (decide_eq_true hstatus) ?_)
  refine alone_bind (alone_found htotal (alone_bind ?_))
  rw [hlimit, hreserved, hfulfilled]
  by_cases hpassed : ∃ c ∈ checks, c.passes = false
  · refine alone_refused ?_ (iff_of_true rfl hpassed)
    exact Bool.eq_false_iff.mpr fun hall => supplyChecks_passed.mp hall (hchecks ▸ hpassed)
  · have hother (e : SqlError) : Decides checks orderRefused (.error (Orders.mapDatabaseError e)) :=
      iff_of_false (fun h => absurd (Except.error.inj h) (by cases e <;> decide)) hpassed
    subst hchecks
    refine alone_passed (supplyChecks_passed.mpr hpassed) ?_
    refine alone_bind (alone_insert (fun _ => raised hother) fun _ => ?_)
    refine alone_bind (alone_insert (fun _ => raised hother) fun _ => ?_)
    refine alone_bind (alone_reserve hdb.productIds h.inventory hranged hpassed hother fun view' => ?_)
    refine alone_bind (alone_passed rfl (alone_bind (alone_commit (alone_ret ?_))))
    exact iff_of_false (fun h => by cases h) hpassed

end Orders

/-! ### Reservations -/

section Reservations

variable {sha256 : Sha256} {buyerUserId ticketProductId : Uuid} {body : CreateReservationRequest}
  {ids : ReservationIds} {a : Availability} {i : Inventory}

/-- What a reservation sees after the sweep that it begins with. -/
def swept (ticketProductId : Uuid) (db : Database) : Database :=
  Prog.leaves (releaseExpiredForProduct ticketProductId db.directory.clock fun _ =>
    .commit (.ret (.ok ⟨.ok, ticketProductId⟩))) db db

theorem swept_of_ends {view : Database} (h : ∀ k db₀, Prog.ends
      (releaseExpiredForProduct ticketProductId db.directory.clock k) db db₀ = (k ⟨⟩).ends view db₀) :
    swept ticketProductId db = view :=
  (result_of_ends (h (fun _ => .commit (.ret (.ok ⟨.ok, ticketProductId⟩))) db)).2

/-- The request comes to the checks of the limits, which find the ticket product and the inventory
like this. -/
structure ReservationChecked (buyerUserId ticketProductId : Uuid) (body : CreateReservationRequest)
    (db : Database) (a : Availability) (i : Inventory) : Prop where
  quantity : 0 < body.quantity ∧ body.quantity < 2 ^ 63
  available : availability ticketProductId (swept ticketProductId db) = some a
  key : ∃ key, requiredText body.idempotencyKey 200 "invalid_ticket_idempotency_key" = .ok key ∧
    (swept ticketProductId db).reservations.find? (underKey buyerUserId a.organizationId key) = none
  onSale : a.eventStatus = .onSale ∧ a.productStatus = .published ∧
    a.saleStartsAt ≤ db.directory.clock ∧ db.directory.clock < a.saleEndsAt
  buyer : db.directory.userActive buyerUserId = true ∧ db.directory.verifiedOn .testnet buyerUserId = true
  /-- The query for what the buyer holds has an answer. -/
  held : inI64 (existingQuantity ticketProductId buyerUserId (swept ticketProductId db))
  inventory : inventoryTable.find (swept ticketProductId db) a.productId = some i

/-- What `create_reservation` answers if one of the limits is too small. -/
def reservationRefused (r : Result) : Prop :=
  r = .error (.conflict "ticket_per_user_limit_exceeded") ∨
    r = .error (.conflict "ticket_inventory_unavailable")

/-- The check of what the buyer may hold, and that of the supply. -/
def reservationChecks (a : Availability) (i : Inventory) (held quantity : Int) : List Check :=
  ⟨held + quantity, a.perUserLimit⟩ :: supplyChecks i quantity

theorem availability_row (h : availability ticketProductId view = some a)
    (hi : inventoryTable.find view a.productId = some i) :
    a.supplyLimit = i.supplyLimit ∧ a.reservedQuantity = i.reservedQuantity ∧
      a.fulfilledQuantity = i.fulfilledQuantity := by
  simp only [availability, Option.bind_eq_bind, Option.bind_eq_some_iff, Option.pure_def,
    Option.some.injEq] at h
  obtain ⟨tp, -, te, -, p, -, pp, -, j, hj, rfl⟩ := h
  obtain rfl : i = j := Option.some.inj (hi.symm.trans hj)
  exact ⟨rfl, rfl, rfl⟩

theorem reservation_ranged (hview : Constrained view) (h : availability ticketProductId view = some a)
    (hi : inventoryTable.find view a.productId = some i) {held quantity : Int} (hheld : inI64 held)
    (hquantity : 0 < quantity ∧ quantity < 2 ^ 63) :
    ∀ c ∈ reservationChecks a i held quantity, c.Ranged := by
  obtain ⟨tp, htp, -, hlimit⟩ := Stock.availability_eq h
  obtain ⟨hlow, hhigh⟩ := hview.perUser tp (List.mem_of_find?_eq_some htp)
  obtain ⟨hmin, hmax⟩ := hheld
  refine List.forall_mem_cons.mpr ⟨⟨?_, ?_, ?_, ?_⟩, ?_⟩
  · show _ ≤ held + quantity
    omega
  · show held + quantity < _
    omega
  · show 0 ≤ a.perUserLimit
    omega
  · show a.perUserLimit < _
    omega
  · exact hview.ranged (inventoryTable.find_mem hi).1 hquantity

/-- What the buyer holds once the sweep is over. -/
def heldQuantity (ticketProductId buyerUserId : Uuid) (db : Database) : Int :=
  existingQuantity ticketProductId buyerUserId (swept ticketProductId db)

theorem reservation_decided (hdb : Constrained db)
    (h : ReservationChecked buyerUserId ticketProductId body db a i) :
    Decides (reservationChecks a i (heldQuantity ticketProductId buyerUserId db) body.quantity)
      reservationRefused
      ((createReservation sha256 buyerUserId ticketProductId body ids).request.result db) := by
  obtain ⟨view, hends, hsweeps, -⟩ := ends_releaseExpiredForProduct ticketProductId hdb.toSound
  have hview := hdb.swept hsweeps
  obtain ⟨hquantity, havailable, ⟨key, hkey, hnew⟩, hsale, hbuyer, hheld, hi⟩ := h
  rw [swept_of_ends hends] at havailable hnew hheld hi
  rw [heldQuantity, swept_of_ends hends]
  rw [← hsweeps.directory] at hsale hbuyer
  obtain ⟨hlimit, hreserved, hfulfilled⟩ := availability_row havailable hi
  have hranged := reservation_ranged hview havailable hi hheld hquantity
  generalize hchecks : reservationChecks a i _ _ = checks at hranged ⊢
  show Prog.Alone (fun r _ => Decides checks reservationRefused r) _ db db
  unfold Handler.request createReservation insertOrder insertOrderItem insertReservation
  refine alone_bind (alone_passed (decide_eq_true hquantity.1) ?_)
  refine alone_bind (alone_valid hkey (alone_bind (alone_select ?_)))
  refine alone_bind (alone_ends (hends _ _) (alone_bind (alone_selectFor ?_)))
  refine alone_bind (alone_found havailable (alone_bind (alone_select ?_)))
  refine alone_bind (alone_passed (by simpa [and_assoc] using hsale) (alone_bind (alone_select ?_)))
  refine alone_bind (alone_passed (by simpa using hbuyer) (alone_bind (alone_selectFor ?_)))
  dsimp only
  generalize hexisting : view.reservations.find? _ = existing
  obtain rfl := hnew.symm.trans hexisting
  refine alone_bind (alone_select (alone_bind (alone_passed (decide_eq_true hheld) (alone_bind ?_))))
  rw [hlimit, hreserved, hfulfilled]
  subst hchecks
  by_cases hpassed : ∃ c ∈ reservationChecks a i
      (existingQuantity ticketProductId buyerUserId view) body.quantity, c.passes = false
  · -- one of the two checks answers
    cases hown : (⟨existingQuantity ticketProductId buyerUserId view + body.quantity,
        a.perUserLimit⟩ : Check).passes with
    | false => exact alone_refused hown (iff_of_true (.inl rfl) hpassed)
    | true =>
        refine alone_passed hown (alone_bind (alone_refused ?_ (iff_of_true (.inr rfl) hpassed)))
        refine Bool.eq_false_iff.mpr fun hall => supplyChecks_passed.mp hall ?_
        obtain ⟨c, hc, hfails⟩ := hpassed
        rcases List.mem_cons.mp hc with rfl | hc
        · exact absurd (hown.symm.trans hfails) (by decide)
        · exact ⟨c, hc, hfails⟩
  · have hother (e : SqlError) : Decides (reservationChecks a i
        (existingQuantity ticketProductId buyerUserId view) body.quantity) reservationRefused
          (.error (Ticketing.mapDatabaseError e)) := by
      refine iff_of_false (fun h => ?_) hpassed
      rcases h with h | h
      · exact absurd (Except.error.inj h) (by cases e <;> decide)
      · exact absurd (Except.error.inj h) (by cases e <;> decide)
    obtain ⟨hown, hsupply⟩ : _ ∧ ¬ ∃ c ∈ supplyChecks i body.quantity, c.passes = false := by
      simpa only [reservationChecks, List.exists_mem_cons_iff, not_or, Bool.not_eq_false] using hpassed
    refine alone_passed hown (alone_bind (alone_passed (supplyChecks_passed.mpr hsupply) ?_))
    refine alone_bind (alone_orElse (iff_of_false (fun h => ?_) hpassed) fun total _ => ?_)
    · rcases h with h | h <;> cases h
    refine alone_bind (alone_insert (fun _ => raised hother) fun _ => ?_)
    refine alone_bind (alone_insert (fun _ => raised hother) fun _ => ?_)
    refine alone_bind (alone_reserve hview.productIds hi
      (fun c hc => hranged c (List.mem_cons_of_mem _ hc)) hsupply hother fun view' => ?_)
    refine alone_bind (alone_passed rfl (alone_bind (alone_insert (fun _ => raised hother) fun _ => ?_)))
    refine alone_bind (alone_commit (alone_ret (iff_of_false (fun h => ?_) hpassed)))
    rcases h with h | h <;> cases h

end Reservations

/-! ### The result -/

/-- The answer of `create_order` about the supply is that of unbounded integers. -/
def OrdersExact (db : Database) : Prop :=
  ∀ (sha256 : Sha256) (actorUserId organizationId : Uuid) (body : CreateOrderRequest)
    (orderId itemId : Uuid) (i : Inventory), OrderChecked actorUserId organizationId body db i →
      (orderRefused ((createOrder sha256 actorUserId organizationId body orderId itemId).request.result db) ↔
        ∃ c ∈ supplyChecks i body.quantity, c.Exceeded)

/-- The answer of `create_reservation` about the limits is that of unbounded integers. -/
def ReservationsExact (db : Database) : Prop :=
  ∀ (sha256 : Sha256) (buyerUserId ticketProductId : Uuid) (body : CreateReservationRequest)
    (ids : ReservationIds) (a : Availability) (i : Inventory),
    ReservationChecked buyerUserId ticketProductId body db a i →
      (reservationRefused
          ((createReservation sha256 buyerUserId ticketProductId body ids).request.result db) ↔
        ∃ c ∈ reservationChecks a i (heldQuantity ticketProductId buyerUserId db) body.quantity, c.Exceeded)

/-- **When the checks decide as over unbounded integers**: an order's exactly if its sum fits, a
reservation's exactly if both sums fit or one that fits is above its limit. -/
theorem admission_exact_iff {db : Database} (hdb : Constrained db) :
    (∀ (sha256 : Sha256) (actorUserId organizationId : Uuid) (body : CreateOrderRequest)
      (orderId itemId : Uuid) (i : Inventory), OrderChecked actorUserId organizationId body db i →
        ((orderRefused
            ((createOrder sha256 actorUserId organizationId body orderId itemId).request.result db) ↔
          ∃ c ∈ supplyChecks i body.quantity, c.Exceeded) ↔
        ∀ c ∈ supplyChecks i body.quantity, c.Fits)) ∧
    ∀ (sha256 : Sha256) (buyerUserId ticketProductId : Uuid) (body : CreateReservationRequest)
      (ids : ReservationIds) (a : Availability) (i : Inventory),
      ReservationChecked buyerUserId ticketProductId body db a i →
        ((reservationRefused
            ((createReservation sha256 buyerUserId ticketProductId body ids).request.result db) ↔
          ∃ c ∈ reservationChecks a i (heldQuantity ticketProductId buyerUserId db) body.quantity,
            c.Exceeded) ↔
        (∀ c ∈ reservationChecks a i (heldQuantity ticketProductId buyerUserId db) body.quantity, c.Fits) ∨
          ∃ c ∈ reservationChecks a i (heldQuantity ticketProductId buyerUserId db) body.quantity,
            c.Exceeded ∧ c.Fits) := by
  constructor
  · intro sha256 actorUserId organizationId body orderId itemId i h
    have hranged := hdb.ranged (inventoryTable.find_mem h.inventory).1 h.quantity
    refine ((order_decided hdb h).exact_iff hranged).trans (or_iff_left_of_imp ?_)
    -- there is only one sum
    rintro ⟨c, hc, -, hfits⟩ c' hc'
    obtain ⟨limit, hlimit, rfl⟩ := List.mem_map.mp hc
    obtain ⟨limit', hlimit', rfl⟩ := List.mem_map.mp hc'
    exact hfits
  · intro sha256 buyerUserId ticketProductId body ids a i h
    have hview : Constrained (swept ticketProductId db) := by
      obtain ⟨view, hends, hsweeps, -⟩ := ends_releaseExpiredForProduct ticketProductId hdb.toSound
      exact swept_of_ends hends ▸ hdb.swept hsweeps
    exact (reservation_decided hdb h).exact_iff
      (reservation_ranged hview h.available h.inventory h.held h.quantity)

/-! ### The most that can be asked for -/

theorem shopDatabase_constrained : Constrained shopDatabase where
  toSound := shopDatabase_sound
  supply i hi limit hlimit := by
    obtain rfl := List.mem_singleton.mp hi
    obtain rfl := Option.some.inj hlimit
    decide
  perUser := by decide

/-- The ticket product of the shop, as a request finds it. -/
def seatAvailability (price : Int) (i : Inventory) : Availability where
  organizationId := 10
  eventStatus := .onSale
  productId := 20
  productName := "Seat"
  productStatus := .published
  perUserLimit := 2
  saleStartsAt := 0
  saleEndsAt := seconds 2000000000
  amountMinor := price
  asset := ⟨"XLM", 7, none⟩
  supplyLimit := i.supplyLimit
  reservedQuantity := i.reservedQuantity
  fulfilledQuantity := i.fulfilledQuantity
  ticketEventId := 22
  priceId := 21

/-- A request for every ticket that a number can count. -/
def allSeats : CreateReservationRequest := ⟨2 ^ 63 - 1, "k9"⟩

/-- The sale's digests, with that of the request. -/
def allSha256 : Sha256 := fun value =>
  if value.size = 130 then bytesOf 0x9c854141d525fee9d73cc651f1a258b727d836352c6ba99f6e4fb956e5064a37
  else saleSha256 value

theorem allSeats_key : requiredText allSeats.idempotencyKey 200 "invalid_ticket_idempotency_key" =
    .ok "k9" := by
  decide +kernel

/-- A buyer without tickets may not have them all. -/
theorem allSeats_refused : reservationRefused
    ((createReservation allSha256 1 24 allSeats ⟨60, 61, 62⟩).request.result shopDatabase) := by
  have hchecked : ReservationChecked 1 24 allSeats shopDatabase (seatAvailability 1000000 ⟨20, some 5, 0, 0⟩)
      ⟨20, some 5, 0, 0⟩ :=
    ⟨by decide, rfl, ⟨_, allSeats_key, rfl⟩, by decide, by decide, by decide +kernel, rfl⟩
  refine (((admission_exact_iff shopDatabase_constrained).2 allSha256 1 24 allSeats ⟨60, 61, 62⟩ _ _
    hchecked).mpr (.inr ?_)).mpr ?_
  · exact ⟨_, List.mem_cons_self, by decide +kernel, by decide +kernel⟩
  · exact ⟨_, List.mem_cons_self, by decide +kernel⟩

/-- Later a seat costs the smallest amount, and there are any number of them. -/
def cheapCatalogue : Catalogue :=
  { shopCatalogue with prices := [⟨21, 20, 1, ⟨"XLM", 7, none⟩, true, none, none⟩] }

/-- A buyer has one ticket of a product without a limit. -/
def unlimitedSale : List (Prog Database Row Site Result) :=
  sale ++ [(Issuance.prepareIssuance 30 fun _ => 50).request,
    (environment (shopDirectory 1800000000) cheapCatalogue).request, (setSupplyLimit 20 none).request]

theorem unlimitedSale_requests : ∀ p ∈ unlimitedSale, ∃ operation, Request saleExternal operation p := by
  simp only [unlimitedSale, List.forall_mem_append, List.forall_mem_cons]
  refine ⟨fun p hp => ?_, ⟨_, .prepareIssuance 30 _⟩, ⟨_, .environment _ _⟩, ⟨_, .setSupplyLimit 20 none⟩,
    fun p hp => by cases hp⟩
  obtain ⟨operation, -, h⟩ := sale_paid p hp
  exact ⟨operation, h⟩

theorem unlimitedSale_outcome : (Pool.serveAll (fun _ _ => True) shopDatabase unlimitedSale).any (fun sold =>
    availability 24 (swept 24 sold.2) = some (seatAvailability 1 ⟨20, none, 0, 1⟩) &&
      (swept 24 sold.2).reservations.find? (underKey 1 10 "k9") = none &&
      sold.2.directory = shopDirectory 1800000000 && heldQuantity 24 1 sold.2 = 1 &&
      inventoryTable.find (swept 24 sold.2) 20 = some ⟨20, none, 0, 1⟩ &&
      (createReservation allSha256 1 24 allSeats ⟨60, 61, 62⟩).request.result sold.2 =
        .ok ⟨.created, 61⟩) = true := by
  rw [unlimitedSale, sale, sendEnvelope_eq]
  decide +kernel

/-- **One ticket, and all that a number can count on top of it**: the sum wraps, and the request is
served, with a limit of two for each buyer. -/
theorem wrapped_sum_admits :
    ¬ ∀ (ext : Reconciliation.External) (db₀ : Database) (pool : Pool Database Row Site Result)
      (actions : List (Action Database Row Site Result)), Constrained db₀ →
      Run (Pool.Step (fun p => ∃ operation, Request ext operation p) fun _ _ => True) (Pool.idle db₀)
        actions pool → OrdersExact pool.db ∧ ReservationsExact pool.db := by
  intro h
  obtain ⟨sold, hsold, hall⟩ := (Option.any_eq_true _ _).mp unlimitedSale_outcome
  simp only [Bool.and_eq_true, decide_eq_true_eq] at hall
  obtain ⟨⟨⟨⟨⟨havailable, hnew⟩, hdirectory⟩, hheld⟩, hi⟩, hresult⟩ := hall
  obtain ⟨actions, hrun⟩ := Pool.run_of_serveAll unlimitedSale_requests hsold
  have hchecked : ReservationChecked 1 24 allSeats sold.2 (seatAvailability 1 ⟨20, none, 0, 1⟩)
      ⟨20, none, 0, 1⟩ := by
    refine ⟨by decide, havailable, ⟨_, allSeats_key, hnew⟩, ?_, ?_, ?_, hi⟩
    · rw [hdirectory]
      decide
    · rw [hdirectory]
      decide
    · rw [show existingQuantity 24 1 (swept 24 sold.2) = 1 from hheld]
      decide
  have hexact : ReservationsExact sold.2 := (h _ _ _ _ shopDatabase_constrained hrun).2
  have hexact := hexact allSha256 1 24 allSeats ⟨60, 61, 62⟩ _ _ hchecked
  rw [hresult, hheld] at hexact
  have hrefused := hexact.mpr ⟨_, List.mem_cons_self, by decide⟩
  rcases hrefused with h | h <;> cases h

end CrownFi.Commerce.Admission
