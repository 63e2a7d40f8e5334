import CrownFi.Commerce.Payments
import CrownFi.Commerce.StockOutlines

/-!
# CrownFi.Commerce.StockLevels

**The counters of a ticket product are exact** in every state that requests can reach in any
interleaving, from a database in which nothing of it is sold, and releases never cut anything off
at zero.
-/

namespace CrownFi.Commerce.Stock

open Lib CrownFi.Api Ticketing Reconciliation

variable {ext : External} {tp : TicketProduct}

/-- The operations that a sale through reservations is made of. -/
def saleOperations : List Operation :=
  payments ++ [.createReservation, .prepareIssuance, .acceptOwnershipEvidence]

/-- The requests on a shop in which the product of `tp` is sold only through reservations: orders
are for other products, the catalogue keeps offering the ticket product, and limits are positive. -/
inductive OnlyReserved (ext : External) (tp : TicketProduct) : Prog Database Row Site Result → Prop
  | sale {p : Prog Database Row Site Result} (h : Requests ext saleOperations p) : OnlyReserved ext tp p
  | order (actorUserId organizationId : Uuid) (body : Orders.CreateOrderRequest)
      (orderId itemId : Uuid) (hother : body.productId ≠ tp.productId) :
      OnlyReserved ext tp
        (Orders.createOrder ext.sha256 actorUserId organizationId body orderId itemId).request
  | environment (directory : Directory) (catalogue : Catalogue) (hoffered : Offered tp catalogue) :
      OnlyReserved ext tp (environment directory catalogue).request
  | limit (productId : Uuid) (supplyLimit : Option Int)
      (hpos : ∀ limit, supplyLimit = some limit → 0 < limit) :
      OnlyReserved ext tp (setSupplyLimit productId supplyLimit).request

theorem outline {p : Prog Database Row Site Result} (h : OnlyReserved ext tp p) :
    Outline tp p [] id fun _ => True := by
  cases h with
  | sale h =>
      obtain ⟨operation, hmem, h⟩ := h
      rcases List.mem_append.mp hmem with hmem | hmem
      · exact aside_outline (bounded_payment spares_aside ⟨operation, hmem, h⟩)
      · cases h with
        | createReservation buyer product body ids => exact createReservation_outline _ buyer product body ids
        | prepareIssuance order ids => exact prepareIssuance_outline order ids
        | acceptOwnershipEvidence issuance body evidence =>
            exact aside_outline (bounded_acceptOwnershipEvidence issuance body evidence)
        | _ => simp at hmem
  | order actor organization body order item hother => exact aside_outline (bounded_createOrder hother)
  | environment directory catalogue hoffered => exact aside_outline (bounded_environment hoffered)
  | limit productId supplyLimit hpos =>
      exact setSupplyLimit_outline productId fun limit hlimit => (hpos limit hlimit).le

/-! ### The result -/

/-- Nothing of the ticket product is sold yet. -/
structure Unsold (tp : TicketProduct) (db : Database) : Prop where
  offered : Offered tp db.catalogue
  limit : 0 ≤ tp.perUserLimit
  reservationIds : (db.reservations.map (·.id)).Nodup
  productIds : (db.inventory.map (·.productId)).Nodup
  quantities : ∀ r ∈ db.reservations, 0 < r.quantity
  reservations : ∀ r ∈ db.reservations, r.ticketProductId ≠ tp.id
  counters : ∀ i, inventoryTable.find db tp.productId = some i →
    i.reservedQuantity = 0 ∧ i.fulfilledQuantity = 0 ∧ ∀ limit, i.supplyLimit = some limit → 0 < limit

theorem Unsold.stocked {db : Database} (h : Unsold tp db) : Stocked tp db := by
  have hquantity (status : ReservationStatus) : quantityIn tp.id status db = 0 := by
    rw [quantityIn_eq]
    exact total_zero fun r hr => countIn_of_other (h.reservations r hr)
  have hcounter (count : Inventory → Int)
      (hzero : ∀ i, inventoryTable.find db tp.productId = some i → count i = 0) :
      counter count tp.productId db = 0 := by
    cases hi : inventoryTable.find db tp.productId with
    | none => rw [counter, hi, Option.map_none, Option.getD_none]
    | some i => rw [counter_of_find hi, hzero i hi]
  refine ⟨h.offered, h.reservationIds, h.productIds, h.quantities, ?_, ?_, fun i hi limit hlimit => ?_,
    fun buyer => ?_⟩
  · rw [hquantity, hcounter _ fun i hi => (h.counters i hi).1]
  · rw [hquantity, hcounter _ fun i hi => (h.counters i hi).2.1]
  · obtain ⟨hreserved, hfulfilled, hpos⟩ := h.counters i hi
    have := hpos limit hlimit
    omega
  · rw [existingQuantity_eq, total_zero fun r hr => heldIn_of_other (h.reservations r hr)]
    exact h.limit

/-- Both counters are exact, and both limits are kept. -/
structure Exact (tp : TicketProduct) (db : Database) : Prop where
  reserved : ∀ i, inventoryTable.find db tp.productId = some i →
    i.reservedQuantity = quantityIn tp.id .reserved db
  fulfilled : ∀ i, inventoryTable.find db tp.productId = some i →
    i.fulfilledQuantity = quantityIn tp.id .converted db
  within : ∀ i, inventoryTable.find db tp.productId = some i →
    ∀ limit, i.supplyLimit = some limit → i.reservedQuantity + i.fulfilledQuantity ≤ limit
  holdings : ∀ buyerUserId, existingQuantity tp.id buyerUserId db ≤ tp.perUserLimit

theorem Stocked.exact {db : Database} (h : Stocked tp db) : Exact tp db where
  reserved i hi := by rw [← h.reserved, counter_of_find hi]
  fulfilled i hi := by rw [← h.fulfilled, counter_of_find hi]
  within := h.within
  holdings := h.holdings

/-- No thread is about to release more than is reserved: what the release writes is the difference,
not zero in its place. -/
def NeverClamped (tp : TicketProduct) (pool : Pool Database Row Site Result) : Prop :=
  ∀ t ∈ pool.threads, ∀ quantity, t.prog.label? = some (.releaseInventory tp.productId quantity) →
    ∀ i, inventoryTable.find (t.pending pool.db) tp.productId = some i →
      max 0 (i.reservedQuantity - quantity) = i.reservedQuantity - quantity

/-- **The stock of a ticket product is exact**, whatever happens in whatever order. -/
theorem ticket_stock_exact {db₀ : Database} (h₀ : Unsold tp db₀)
    {pool : Pool Database Row Site Result} {actions : List (Action Database Row Site Result)}
    (hrun : Run (Pool.Step (OnlyReserved ext tp) (SumsFit tp.id)) (Pool.idle db₀) actions pool) :
    Exact tp pool.db ∧ NeverClamped tp pool := by
  have hrunning := run_running (fun _ h => outline h) hrun (healthy_idle h₀.stocked)
  refine ⟨hrunning.inv.exact, fun t ht quantity hlabel i hi => ?_⟩
  have hcovered := hrunning.sees ht hlabel trivial rfl i hi
  omega

/-! ### A sale -/

instance (ticketProductId : Uuid) (site : Site) (db : Database) :
    Decidable (SumsFit ticketProductId site db) := by
  unfold SumsFit
  split <;> infer_instance

/-- The ticket product of the shop. -/
def seat : TicketProduct := ⟨24, 22, 20, 2, 0, seconds 2000000000⟩

/-- A seat is sold and issued, and later another buyer reserves one. -/
def issuedSale : List (Prog Database Row Site Result) :=
  sale ++ (Issuance.prepareIssuance 30 fun _ => 50).request :: nextBuyer

theorem issuedSale_requests : ∀ p ∈ issuedSale, OnlyReserved saleExternal seat p := by
  simp only [issuedSale, nextBuyer, List.forall_mem_append, List.forall_mem_cons]
  refine ⟨fun p hp => .sale ((sale_paid p hp).mono (by decide)), ?_, ?_, ?_, fun p hp => by cases hp⟩
  · exact .sale ⟨_, by decide, .prepareIssuance 30 _⟩
  · exact .environment _ _ ⟨rfl, by decide⟩
  · exact .sale ⟨_, by decide, .createReservation 2 24 ⟨1, "key2"⟩ ⟨40, 41, 42⟩⟩

theorem shopDatabase_unsold : Unsold seat shopDatabase where
  offered := ⟨rfl, by decide⟩
  limit := by decide
  reservationIds := .nil
  productIds := by decide
  quantities r hr := by cases hr
  reservations r hr := by cases hr
  counters i hi := by
    obtain rfl := Option.some.inj hi
    exact ⟨rfl, rfl, fun limit hlimit => by obtain rfl := Option.some.inj hlimit; decide⟩

theorem issuedSale_outcome : (Pool.serveAll (SumsFit seat.id) shopDatabase issuedSale).any (fun sold =>
    sold.2.reservations.map (fun r => (r.id, r.status)) = [(31, .converted), (41, .reserved)] &&
      sold.2.inventory = [⟨20, some 5, 1, 1⟩]) = true := by
  rw [issuedSale, sale, sendEnvelope_eq]
  decide +kernel

/-- One seat is issued and one reserved, and so the counters say. -/
theorem issuedSale_stock_exact :
    ∃ (pool : Pool Database Row Site Result) (actions : List (Action Database Row Site Result)),
      Run (Pool.Step (OnlyReserved saleExternal seat) (SumsFit seat.id)) (Pool.idle shopDatabase)
        actions pool ∧
      pool.db.inventory = [⟨20, some 5, 1, 1⟩] ∧ Exact seat pool.db ∧ NeverClamped seat pool := by
  obtain ⟨sold, hsold, hall⟩ := (Option.any_eq_true _ _).mp issuedSale_outcome
  simp only [Bool.and_eq_true, decide_eq_true_eq] at hall
  obtain ⟨actions, hrun⟩ := Pool.run_of_serveAll issuedSale_requests hsold
  exact ⟨_, actions, hrun, hall.2, ticket_stock_exact shopDatabase_unsold hrun⟩

end CrownFi.Commerce.Stock
