import CrownFi.Commerce.BuyerKeys

/-!
# CrownFi.Commerce.Retries

**A reservation that is asked for again.** A request that was accepted and comes again, at any time
later, should be answered with the reservation that it made. `create_reservation` looks for it, but
behind the checks that the product is on sale and that the buyer may buy: a retry that comes after the
sale has ended, or after the buyer was suspended, is refused as a new request would be. `create_order`
has its lookup in front of such checks.

Whatever it is answered, a retry makes no second reservation and no second order: reservations are
never removed, only their status changes (`Retains`), so that the lookup finds the first.
-/

namespace CrownFi.Commerce.Retries

open Lib CrownFi.Api Ticketing Buyers

variable {ext : Reconciliation.External} {db db' : Database} {c : Call} {r : Reservation}

/-! ### Reservations are retained -/

/-- Every reservation is still there, in some status. -/
def Retains (db db' : Database) : Prop :=
  ∀ r ∈ db.reservations, ∃ status, { r with status } ∈ db'.reservations

instance : IsPreorder Database Retains where
  refl _ r hr := ⟨r.status, hr⟩
  trans _ _ _ h h' r hr := by
    obtain ⟨_, hr'⟩ := h r hr
    obtain ⟨status, hr''⟩ := h' _ hr'
    exact ⟨status, hr''⟩

theorem Retains.of_same (h : db'.reservations = db.reservations) : Retains db db' :=
  fun r hr => ⟨r.status, h ▸ hr⟩

theorem retains_modify {p : Reservation → Bool} {status : ReservationStatus} {view : Database} :
    Retains db (reservationTable.modify p ({ · with status := status }) view db) := by
  intro r hr
  have hmem := mem_updateWhere (p := fun r => p r && decide (r.id ∈ (reservationTable.matching p view).map (·.id)))
    (f := ({ · with status := status })).mpr ⟨r, hr, rfl⟩
  split at hmem
  · exact ⟨status, hmem⟩
  · exact ⟨r.status, hmem⟩

theorem retains_add : Retains db (reservationTable.add r db) :=
  fun r hr => ⟨r.status, List.mem_append_left _ hr⟩

theorem spares : Spares (fun _ _ => True) fun _ => Retains where
  other _ := trivial
  event _ _ := trivial
  attempts _ _ _ := .of_same rfl
  events _ _ _ := .of_same rfl
  intents _ _ _ := .of_same rfl
  transactions _ _ _ := .of_same rfl
  evidence _ _ _ := .of_same rfl
  results _ _ _ := .of_same rfl
  cursors _ _ _ := .of_same rfl
  pays _ _ _ := .of_same rfl

theorem sells : Sells fun _ => Retains where
  environment _ _ _ _ := .of_same rfl
  inventory _ _ _ := .of_same rfl
  releases _ _ _ _ := retains_modify
  reserves _ _ _ := retains_add
  orderItems _ _ _ := .of_same rfl
  opens _ _ _ := .of_same rfl
  expires _ _ _ := .of_same rfl

theorem issues : Issues fun _ => Retains where
  inventory _ _ _ := .of_same rfl
  converts _ _ _ _ := retains_modify
  issuances _ _ _ := .of_same rfl
  ownership _ _ _ := .of_same rfl
  prepares _ _ _ := .of_same rfl
  finishes _ _ _ := .of_same rfl

/-- Any request of the shop. -/
abbrev Shop (ext : Reconciliation.External) (p : Prog Database Row Site Result) : Prop :=
  ∃ operation, Request ext operation p

/-- **Every request retains the reservations.** -/
theorem confined_shop {p : Prog Database Row Site Result} (h : Shop ext p) :
    p.Confined (fun _ _ => True) fun _ => Retains := by
  obtain ⟨operation, hp⟩ := h
  have hkind : operation ∈ payments ∨ operation ∈ sales ∨ operation ∈ issuing := by
    cases operation <;> decide
  rcases hkind with hmem | hmem | hmem
  · exact bounded_payment spares ⟨operation, hmem, hp⟩
  · exact confined_sale sells ⟨operation, hmem, hp⟩
  · exact confined_issuance issues ⟨operation, hmem, hp⟩

theorem safe_shop {p : Prog Database Row Site Result} (h : Shop ext p) :
    SafeRequest (fun _ => True) (fun _ => Retains) (fun _ _ => True) p :=
  (confined_shop h).safeRequest (fun _ _ _ _ _ => trivial) fun _ _ _ hretains _ => hretains

/-- So does every run. -/
theorem run_retains {db₀ : Database} {pool pool' : Pool Database Row Site Result}
    {actions actions' : List (Action Database Row Site Result)}
    (hrun : Run (Pool.Step (Shop ext) fun _ _ => True) (Pool.idle db₀) actions pool)
    (hlater : Run (Pool.Step (Shop ext) fun _ _ => True) pool actions' pool') :
    Retains pool.db pool'.db :=
  run_moved (fun _ => safe_shop) (refl_of Retains) (fun _ _ _ => trans_of Retains)
    (fun _ _ _ _ _ h => h) hlater
    (run_healthy (fun _ => safe_shop) hrun (healthy_idle trivial))

/-! ### The reservation of a request -/

/-- A reservation that a request of this kind has made, whatever ids it drew. -/
structure Made (sha256 : Sha256) (c : Call) (r : Reservation) : Prop where
  positive : 0 < c.body.quantity
  buyer : r.buyerUserId = c.buyerUserId
  key : requiredText c.body.idempotencyKey 200 "invalid_ticket_idempotency_key" = .ok r.idempotencyKey
  hash : r.requestSha256 = hashText sha256
    (reservationRequestText c.ticketProductId c.buyerUserId c.body.quantity r.idempotencyKey)

def reservationKey (r : Reservation) : Uuid × Uuid × String :=
  (r.organizationId, r.buyerUserId, r.idempotencyKey)

/-- The constraints of the tables, with the unique key of `ticket_reservations`. -/
structure Keyed (db : Database) : Prop extends Buyers.Sound db where
  keys : (db.reservations.map reservationKey).Nodup

theorem find_keyed (h : Keyed db) (hr : r ∈ db.reservations) :
    db.reservations.find? (underKey r.buyerUserId r.organizationId r.idempotencyKey) = some r := by
  rw [← find?_key h.keys hr]
  congr 1
  funext r'
  simp only [underKey, reservationKey, Prod.mk.injEq, Bool.decide_and, Bool.and_assoc]

/-- The sale and the buyer are still as they must be, and the product is still the organization's. -/
def Readmitted (c : Call) (r : Reservation) (db : Database) : Prop :=
  ∃ a, availability c.ticketProductId db = some a ∧ a.organizationId = r.organizationId ∧
    (a.eventStatus = .onSale ∧ a.productStatus = .published ∧ a.saleStartsAt ≤ db.directory.clock ∧
      db.directory.clock < a.saleEndsAt) ∧
    db.directory.userActive c.buyerUserId = true ∧ db.directory.verifiedOn .testnet c.buyerUserId = true

/-- The same reservations and orders, in some status. -/
structure NothingNew (db db' : Database) : Prop where
  reservations : db'.reservations.map (·.id) = db.reservations.map (·.id)
  orders : db'.orders.map (·.id) = db.orders.map (·.id)

/-- The request is answered with the reservation, and makes nothing new. -/
def Replays (sha256 : Sha256) (c : Call) (r : Reservation) (db : Database) : Prop :=
  (c.request sha256).result db = .ok ⟨.ok, r.id⟩ ∧ NothingNew db ((c.request sha256).leaves db db)

/-! ### What a sweep leaves -/

section Sweep

variable {now : Int} {view : Database}

theorem keyed_swept (h : Keyed db) (hsweeps : Sweeps now db view) : Keyed view where
  toSound := hsweeps.sound h.toSound
  keys := by
    rw [forall₂_map_eq hsweeps.reservations fun r r' hr => ?_]
    · exact h.keys
    · rcases hr with rfl | ⟨-, -, rfl⟩ <;> rfl

theorem nothingNew_swept (hsweeps : Sweeps now db view) : NothingNew db view where
  reservations := forall₂_map_eq hsweeps.reservations fun r r' hr => by
    rcases hr with rfl | ⟨-, -, rfl⟩ <;> rfl
  orders := forall₂_map_eq hsweeps.orders fun o o' ho => by
    obtain ⟨status, rfl⟩ := ho
    rfl

/-- The reservation of the request is found in what a sweep leaves. -/
theorem find_swept (h : Keyed db) (hr : r ∈ db.reservations) (hsweeps : Sweeps now db view) :
    ∃ status, view.reservations.find? (underKey r.buyerUserId r.organizationId r.idempotencyKey) =
      some { r with status } := by
  obtain ⟨r', hr', hruns⟩ := forall₂_exists hsweeps.reservations.flip hr
  rcases hruns with rfl | ⟨-, -, rfl⟩
  · exact ⟨r'.status, find_keyed (keyed_swept h hsweeps) hr'⟩
  · exact ⟨.expired, find_keyed (keyed_swept h hsweeps) hr'⟩

/-- What the request reads of the sale is what is there. -/
theorem availability_swept {ticketProductId : Uuid} (hsweeps : Sweeps db.directory.clock db view) {a : Availability}
    (h : availability ticketProductId view = some a) :
    ∃ a', availability ticketProductId db = some a' ∧ unreserved a = unreserved a' := by
  have hsame := availability_sight ticketProductId (hsweeps.sight (b := 0))
  rw [h, Option.map_some, eq_comm, Option.map_eq_some_iff] at hsame
  obtain ⟨a', ha', heq⟩ := hsame
  exact ⟨a', ha', heq.symm⟩

end Sweep

/-! ### The retry -/

/-- A request that is still admitted finds the reservation. -/
theorem replays_of_readmitted {sha256 : Sha256} (hkeyed : Keyed db) (hr : r ∈ db.reservations)
    (hmade : Made sha256 c r) (h : Readmitted c r db) : Replays sha256 c r db := by
  obtain ⟨view, hends, hsweeps, -⟩ := ends_releaseExpiredForProduct c.ticketProductId hkeyed.toSound
  obtain ⟨a₀, ha₀, horganization, hsale, hbuyer⟩ := h
  have hsame := availability_sight c.ticketProductId (hsweeps.sight (b := 0))
  rw [ha₀, Option.map_some, Option.map_eq_some_iff] at hsame
  obtain ⟨a, ha, heq⟩ := hsame
  rw [← hsweeps.directory] at hsale hbuyer
  obtain ⟨status, hfind⟩ := find_swept hkeyed hr hsweeps
  have hread := unreserved_eq heq
  show Prog.Alone (fun (result : Result) (db' : Database) => result = .ok ⟨.ok, r.id⟩ ∧ NothingNew db db')
    (c.request sha256) db db
  unfold Call.request Handler.request createReservation
  refine alone_bind (alone_passed (decide_eq_true hmade.positive) ?_)
  refine alone_bind (alone_valid hmade.key (alone_bind (alone_select ?_)))
  refine alone_bind (alone_ends (hends _ _) (alone_bind (alone_selectFor ?_)))
  refine alone_bind (alone_found ha (alone_bind (alone_select ?_)))
  rw [hread]
  refine alone_bind (alone_passed (by simpa [and_assoc] using hsale) (alone_bind (alone_select ?_)))
  refine alone_bind (alone_passed (by simpa using hbuyer) (alone_bind (alone_selectFor ?_)))
  dsimp only
  generalize hexisting : view.reservations.find? _ = existing
  rw [horganization, ← hmade.buyer] at hexisting
  obtain rfl := hfind.symm.trans hexisting
  refine alone_bind (alone_passed (decide_eq_true ?_) ?_)
  · rw [hmade.buyer]
    exact hmade.hash
  · exact alone_bind (alone_commit (alone_ret ⟨rfl, nothingNew_swept hsweeps⟩))

/-- What any answer tells: the reservation is not returned unless the request was readmitted, and as long
as the product is the organization's nothing new is made. -/
theorem retry_alone {sha256 : Sha256} (hkeyed : Keyed db) (hr : r ∈ db.reservations)
    (hmade : Made sha256 c r) :
    ((c.request sha256).result db = .ok ⟨.ok, r.id⟩ → Readmitted c r db) ∧
      ((∀ a, availability c.ticketProductId db = some a → a.organizationId = r.organizationId) →
        NothingNew db ((c.request sha256).leaves db db)) := by
  obtain ⟨view, hends, hsweeps, -⟩ := ends_releaseExpiredForProduct c.ticketProductId hkeyed.toSound
  show Prog.Alone (fun (result : Result) (db' : Database) => (result = .ok ⟨.ok, r.id⟩ → Readmitted c r db) ∧
    ((∀ a, availability c.ticketProductId db = some a → a.organizationId = r.organizationId) →
      NothingNew db db')) (c.request sha256) db db
  have hrefused (e : ApiError) : ((.error e : Result) = .ok ⟨.ok, r.id⟩ → Readmitted c r db) ∧
      ((∀ a, availability c.ticketProductId db = some a → a.organizationId = r.organizationId) →
        NothingNew db db) := ⟨(fun heq => by cases heq), fun _ => ⟨rfl, rfl⟩⟩
  unfold Call.request Handler.request createReservation
  refine alone_bind (alone_require (hrefused _) fun hquantity => ?_)
  refine alone_bind (alone_valid hmade.key (alone_bind (alone_select ?_)))
  refine alone_bind (alone_ends (hends _ _) (alone_bind (alone_selectFor ?_)))
  refine alone_bind (alone_orElse (hrefused _) fun a ha => ?_)
  obtain ⟨a₀, ha₀, heq⟩ := availability_swept hsweeps ha
  have hread := unreserved_eq heq
  refine alone_bind (alone_select (alone_bind (alone_require (hrefused _) fun hsale => ?_)))
  refine alone_bind (alone_select (alone_bind (alone_require (hrefused _) fun hbuyer => ?_)))
  refine alone_bind (alone_selectFor ?_)
  obtain ⟨status, hfind⟩ := find_swept hkeyed hr hsweeps
  rw [hmade.buyer] at hfind
  dsimp only
  have horganization : a.organizationId = a₀.organizationId := by rw [hread]
  generalize hexisting : view.reservations.find? _ = existing
  cases existing with
  | some existing =>
    refine alone_bind (alone_require (hrefused _) fun _ => ?_)
    refine alone_bind (alone_commit (alone_ret ⟨fun hanswer => ?_, fun _ => nothingNew_swept hsweeps⟩))
    -- the reservation that was found has the id of the first, so it is in the same organization
    have hid : existing.id = r.id := congrArg Response.id (Except.ok.inj hanswer)
    have hexists := List.mem_of_find?_eq_some hexisting
    have hfirst := List.mem_of_find?_eq_some hfind
    have hsame := List.inj_on_of_nodup_map (hsweeps.sound hkeyed.toSound).reservationIds hexists hfirst hid
    have hunder := List.find?_some hexisting
    rw [hsame] at hunder
    simp only [Bool.and_eq_true, decide_eq_true_eq] at hunder
    rw [hread, hsweeps.directory] at hsale
    rw [hsweeps.directory] at hbuyer
    simp only [Bool.and_eq_true, decide_eq_true_eq] at hsale hbuyer
    exact ⟨a₀, ha₀, horganization.symm.trans hunder.1.1.symm,
      ⟨hsale.1.1.1, hsale.1.1.2, hsale.1.2, hsale.2⟩, hbuyer⟩
  | none =>
    -- the organization is another one
    have hother : ¬ ∀ a, availability c.ticketProductId db = some a → a.organizationId = r.organizationId := by
      intro hstays
      rw [horganization, hstays a₀ ha₀] at hexisting
      cases hfind.symm.trans hexisting
    refine alone_bind (alone_select ?_)
    refine alone_bind (alone_require (hrefused _) fun _ => ?_)
    refine alone_bind (alone_require (hrefused _) fun _ => ?_)
    refine alone_bind (alone_require (hrefused _) fun _ => ?_)
    refine alone_bind (alone_orElse (hrefused _) fun total _ => ?_)
    exact placement_alone (p := c.placement sha256 a view.directory.clock r.idempotencyKey total)
      (fun e => hrefused e) fun _ => ⟨(fun heq => by cases heq), fun hstays => absurd hstays hother⟩

/-- What an accepted request names is a reservation that it made. -/
theorem made_of_accepted {sha256 : Sha256} (hkeyed : Keyed db) {status : HttpStatus} {id : Uuid}
    (h : (c.request sha256).result db = .ok ⟨status, id⟩) :
    ∃ r ∈ ((c.request sha256).leaves db db).reservations, r.id = id ∧ Made sha256 c r := by
  obtain ⟨view, hends, hsweeps, -⟩ := ends_releaseExpiredForProduct c.ticketProductId hkeyed.toSound
  have hall : Prog.Alone (fun result db' => result = .ok ⟨status, id⟩ →
      ∃ r ∈ db'.reservations, r.id = id ∧ Made sha256 c r) (c.request sha256) db db := by
    have hrefused (e : ApiError) : (.error e : Result) = .ok ⟨status, id⟩ →
        ∃ r ∈ db.reservations, r.id = id ∧ Made sha256 c r := fun heq => by cases heq
    unfold Call.request Handler.request createReservation
    refine alone_bind (alone_require (hrefused _) fun hquantity => ?_)
    refine alone_bind (alone_ofExcept (fun _ => hrefused _) fun key hkey => alone_bind (alone_select ?_))
    refine alone_bind (alone_ends (hends _ _) (alone_bind (alone_selectFor ?_)))
    refine alone_bind (alone_orElse (hrefused _) fun a ha => ?_)
    refine alone_bind (alone_select (alone_bind (alone_require (hrefused _) fun _ => ?_)))
    refine alone_bind (alone_select (alone_bind (alone_require (hrefused _) fun _ => ?_)))
    refine alone_bind (alone_selectFor ?_)
    dsimp only
    generalize hexisting : view.reservations.find? _ = existing
    cases existing with
    | some existing =>
      refine alone_bind (alone_require (hrefused _) fun hhash => ?_)
      refine alone_bind (alone_commit (alone_ret fun hanswer => ?_))
      have hunder := List.find?_some hexisting
      simp only [Bool.and_eq_true, decide_eq_true_eq] at hunder
      obtain ⟨⟨-, hbuyer⟩, rfl⟩ := hunder
      exact ⟨existing, List.mem_of_find?_eq_some hexisting, congrArg Response.id (Except.ok.inj hanswer),
        of_decide_eq_true hquantity, hbuyer, hkey, of_decide_eq_true hhash⟩
    | none =>
      refine alone_bind (alone_select ?_)
      refine alone_bind (alone_require (hrefused _) fun _ => ?_)
      refine alone_bind (alone_require (hrefused _) fun _ => ?_)
      refine alone_bind (alone_require (hrefused _) fun _ => ?_)
      refine alone_bind (alone_orElse (hrefused _) fun total _ => ?_)
      refine placement_alone (p := c.placement sha256 a view.directory.clock key total) (fun e => hrefused e)
        fun _ hanswer => ?_
      exact ⟨_, List.mem_append_right _ (List.mem_singleton_self _),
        congrArg Response.id (Except.ok.inj hanswer), of_decide_eq_true hquantity, rfl, hkey, rfl⟩
  exact hall h

/-- **A retry returns the reservation exactly if it is readmitted.** A request that is accepted leaves a
reservation that it made; whenever the request comes again, after any run, it is answered with that
reservation if and only if it is readmitted. It makes nothing new, whatever it is answered, as long as the
product is the organization's. -/
theorem retry_replays_iff {db₀ : Database} {pool : Pool Database Row Site Result}
    {actions : List (Action Database Row Site Result)}
    (hrun : Run (Pool.Step (Shop ext) fun _ _ => True) (Pool.idle db₀) actions pool) :
    (∀ (c : Call) (status : HttpStatus) (id : Uuid), Keyed pool.db →
      (c.request ext.sha256).result pool.db = .ok ⟨status, id⟩ →
      ∃ r ∈ ((c.request ext.sha256).leaves pool.db pool.db).reservations, r.id = id ∧ Made ext.sha256 c r) ∧
    ∀ (c : Call), ∀ r ∈ pool.db.reservations, Made ext.sha256 c r →
      ∀ (pool' : Pool Database Row Site Result) (actions' : List (Action Database Row Site Result)),
      Run (Pool.Step (Shop ext) fun _ _ => True) pool actions' pool' → Keyed pool'.db →
      (Replays ext.sha256 c r pool'.db ↔ Readmitted c r pool'.db) ∧
        ((∀ a, availability c.ticketProductId pool'.db = some a → a.organizationId = r.organizationId) →
          NothingNew pool'.db ((c.request ext.sha256).leaves pool'.db pool'.db)) := by
  refine ⟨fun c status id hkeyed h => made_of_accepted hkeyed h, ?_⟩
  intro c r hr hmade pool' actions' hlater hkeyed
  obtain ⟨status, hr'⟩ := run_retains hrun hlater r hr
  have hmade' : Made ext.sha256 c { r with status } := ⟨hmade.positive, hmade.buyer, hmade.key, hmade.hash⟩
  obtain ⟨hreturned, hnothing⟩ := retry_alone hkeyed hr' hmade'
  exact ⟨⟨fun h => hreturned h.1, fun h => replays_of_readmitted (r := { r with status }) hkeyed hr' hmade' h⟩,
    hnothing⟩

/-! ### The same request in time and too late -/

/-- The request of the sample sale. -/
def firstSeat : Call := ⟨0, 1, 24, ⟨1, "k1"⟩, ⟨30, 31, 32⟩⟩

/-- The same request, with the ids that it would draw now. -/
def sameSeat : Call := { firstSeat with ids := ⟨40, 41, 42⟩ }

def seatRow (status : ReservationStatus) : Reservation :=
  ⟨31, 10, 24, 30, 1, 1, status, "k1",
    "b4ead21900e80d9bf2b9a9439ac3929abaeccbbbb4d636994596e804ad5aac10", seconds 1800000900⟩

/-- The shop with the reservation, at some time. -/
def seatDatabase (clock : Int) : Database :=
  { shopDatabase with
    directory := shopDirectory clock
    inventory := [⟨20, some 5, 1, 0⟩]
    orders := [⟨30, 10, 1, .awaitingPayment, .testnet, "k1",
      "b4ead21900e80d9bf2b9a9439ac3929abaeccbbbb4d636994596e804ad5aac10", 1000000, ⟨"XLM", 7, none⟩,
      some (seconds 1800000900)⟩]
    orderItems := [⟨32, 30, 20, "Seat", 1, 1000000, 1000000, ⟨"XLM", 7, none⟩⟩]
    reservations := [seatRow .reserved] }

theorem firstSeat_accepted : (firstSeat.request saleSha256).result shopDatabase = .ok ⟨.created, 31⟩ ∧
    (firstSeat.request saleSha256).leaves shopDatabase shopDatabase = seatDatabase 1800000000 := by
  decide +kernel

theorem firstSeat_run : ∃ actions, Run (Pool.Step (Shop saleExternal) fun _ _ => True)
    (Pool.idle shopDatabase) actions (Pool.idle (seatDatabase 1800000000)) := by
  have hserved : (Pool.serveAll (fun _ _ => True) shopDatabase [firstSeat.request saleSha256]).map (·.2) =
      some (seatDatabase 1800000000) := by decide +kernel
  obtain ⟨all, hall, hdb⟩ := Option.map_eq_some_iff.mp hserved
  rw [← hdb]
  refine Pool.run_of_serveAll (fun p hp => ?_) hall
  rw [List.mem_singleton.mp hp]
  exact ⟨_, .createReservation 1 24 ⟨1, "k1"⟩ ⟨30, 31, 32⟩⟩

/-- Then the clock moves on. -/
theorem clock_run (clock : Int) : ∃ actions, Run (Pool.Step (Shop saleExternal) fun _ _ => True)
    (Pool.idle (seatDatabase 1800000000)) actions (Pool.idle (seatDatabase clock)) := by
  have hserved : Pool.serveAll (fun _ _ => True) (seatDatabase 1800000000)
      [(environment (shopDirectory clock) shopCatalogue).request] = some ([.ok ⟨.ok, 0⟩], seatDatabase clock) := rfl
  refine Pool.run_of_serveAll (fun p hp => ?_) hserved
  rw [List.mem_singleton.mp hp]
  exact ⟨_, .environment _ _⟩

theorem seatDatabase_keyed (clock : Int) : Keyed (seatDatabase clock) where
  reservationIds := List.nodup_singleton _
  productIds := List.nodup_singleton _
  counters := show ∀ i ∈ [(⟨20, some 5, 1, 0⟩ : Inventory)], inventoryViolation i = none by decide
  quantities := show ∀ r ∈ [seatRow .reserved], 0 < r.quantity by decide
  prices := shopDatabase_sound.prices
  keys := List.nodup_singleton _

theorem sameSeat_made : Made saleSha256 sameSeat (seatRow .reserved) where
  positive := by decide
  buyer := rfl
  key := by decide +kernel
  hash := by decide +kernel

/-- After sixteen minutes the reservation has expired, and is returned as such. -/
theorem sameSeat_replayed : ∃ (pool pool' : Pool Database Row Site Result)
    (actions actions' : List (Action Database Row Site Result)),
    Run (Pool.Step (Shop saleExternal) fun _ _ => True) (Pool.idle shopDatabase) actions pool ∧
      Run (Pool.Step (Shop saleExternal) fun _ _ => True) pool actions' pool' ∧
      Replays saleSha256 sameSeat (seatRow .reserved) pool'.db := by
  obtain ⟨actions, hrun⟩ := firstSeat_run
  obtain ⟨actions', hlater⟩ := clock_run 1800000960
  have hreturns := (retry_replays_iff hrun).2 sameSeat (seatRow .reserved) (List.mem_singleton_self _)
    sameSeat_made _ _ hlater (seatDatabase_keyed _)
  refine ⟨_, _, actions, actions', hrun, hlater, hreturns.1.mpr ?_⟩
  exact ⟨_, rfl, rfl, by decide, by decide⟩

/-- **At the end of the sale the request that was accepted is refused.** -/
theorem ended_sale_refuses :
    ¬ ∀ (ext : Reconciliation.External) (db : Database) (c : Call) (status : HttpStatus) (id : Uuid),
      Keyed db → (c.request ext.sha256).result db = .ok ⟨status, id⟩ →
      ∀ (pool : Pool Database Row Site Result) (actions : List (Action Database Row Site Result))
        (ids : ReservationIds),
      Run (Pool.Step (Shop ext) fun _ _ => True) (Pool.idle ((c.request ext.sha256).leaves db db)) actions
        pool → Keyed pool.db →
      ({ c with ids }.request ext.sha256).result pool.db = .ok ⟨.ok, id⟩ ∧
        NothingNew pool.db (({ c with ids }.request ext.sha256).leaves pool.db pool.db) := by
  intro h
  obtain ⟨haccepted, hleaves⟩ := firstSeat_accepted
  obtain ⟨actions, hrun⟩ := clock_run 2000000000
  rw [← hleaves] at hrun
  have hkeyed : Keyed shopDatabase := { toSound := shopDatabase_sound, keys := by decide }
  have hreturned := (h saleExternal shopDatabase firstSeat .created 31 hkeyed haccepted _ _ ⟨40, 41, 42⟩ hrun
    (seatDatabase_keyed _)).1
  have hrefused : (sameSeat.request saleSha256).result (seatDatabase 2000000000) =
      .error (.conflict "ticket_not_on_sale") := by decide +kernel
  cases hrefused.symm.trans hreturned

end CrownFi.Commerce.Retries
