import CrownFi.Commerce.Bystanders
import CrownFi.Commerce.Payments
import CrownFi.Lib.Numbering

/-!
# CrownFi.Commerce.Serials

**The serial numbers of tickets.** An order is prepared with itself, its reservation and the event
of its tickets locked: what has the highest serial number of the event when it is read still has it
at the commit, and nobody else prepares the same order meanwhile. So the tickets of an event are
numbered from 1 on without a gap, and those of an order in a row, in any interleaving
(`tickets_numbered`).
-/

namespace CrownFi.Commerce.Serials

open Lib CrownFi.Api Ticketing Issuance

/-! ### The tickets of an event, and of an order -/

/-- The serial numbers of the tickets of an event. -/
def serialsOf (ticketEventId : Uuid) (db : Database) : List Int :=
  (db.issuances.filter (·.ticketEventId = ticketEventId)).map (·.serialNumber)

/-- The tickets of an order: their events and their serial numbers. -/
def ticketsOf (orderId : Uuid) (db : Database) : List (Uuid × Int) :=
  (db.issuances.filter (·.orderId = orderId)).map fun i => (i.ticketEventId, i.serialNumber)

/-- These are so many tickets of one event, in a row. -/
def InARow (tickets : List (Uuid × Int)) (quantity : Int) : Prop :=
  ∃ (ticketEventId : Uuid) (last : Int),
    tickets = (following last quantity.toNat).map fun serial => (ticketEventId, serial)

theorem InARow.length {tickets : List (Uuid × Int)} {quantity : Int} (h : InARow tickets quantity) :
    tickets.length = quantity.toNat := by
  obtain ⟨event, last, rfl⟩ := h
  rw [List.length_map, following_length]

/-- What the tickets of an event and of prepared orders are like. The catalogue has the event all
the time, so that there is a row to lock. -/
structure Numbered (ev : Uuid) (db : Database) : Prop where
  listed : ∃ te ∈ db.catalogue.ticketEvents, te.id = ev
  reservationIds : (db.reservations.map (·.id)).Nodup
  reservationOrders : (db.reservations.map (·.orderId)).Nodup
  quantities : ∀ r ∈ db.reservations, 0 < r.quantity
  serials : ∃ count, serialsOf ev db = following 0 count
  prepared : ∀ r ∈ db.reservations, r.status = .converted → InARow (ticketsOf r.orderId db) r.quantity

/-! ### What locks protect -/

inductive Part
  | serials (l : List Int)
  | tickets (l : List (Uuid × Int))
  | reservation (r : Option Reservation)
  | taken (b : Bool)
  | other

def part (ev : Uuid) (db : Database) : Row → Part
  | .ticketEvent id => if id = ev then .serials (serialsOf ev db) else .other
  | .order id => .tickets (ticketsOf id db)
  | .reservation id => .reservation (reservationTable.find db id)
  | .reservationOf id => .taken (db.reservations.any (·.orderId = id))
  | _ => .other

variable {ev : Uuid}

/-- The tickets of an order that has some stay as they are. -/
def Lasting (db db' : Database) : Prop :=
  ∀ id, ticketsOf id db ≠ [] → ticketsOf id db' = ticketsOf id db

instance : IsPreorder Database Lasting where
  refl _ _ _ := rfl
  trans a b c h h' id hid := by
    have hsame := h id hid
    exact (h' id (hsame ▸ hid)).trans hsame

abbrev Outline (ev : Uuid) :
    Prog Database Row Site Result → List (Lock Row) → (Database → Database) → (Database → Prop) → Prop :=
  Safe (Numbered ev) (Forward (part ev) fun _ => Lasting) fun _ _ => True

abbrev Tracks (ev : Uuid) : List (Lock Row) → (Database → Database) → (Database → Prop) → Prop :=
  Track (part ev) (Numbered ev) fun _ => Lasting

abbrev Sound (ev : Uuid) : (Database → Database) → (Database → Prop) → Prop := Keeps (Numbered ev) Lasting

/-! ### Changes of other rows -/

/-- Nothing happens to the reservations, nor to the numbers of the tickets. -/
structure Beside (ev : Uuid) (db db' : Database) : Prop where
  listed : (∃ te ∈ db.catalogue.ticketEvents, te.id = ev) → ∃ te ∈ db'.catalogue.ticketEvents, te.id = ev
  reservations : db'.reservations = db.reservations
  serials : serialsOf ev db' = serialsOf ev db
  tickets : ∀ id, ticketsOf id db' = ticketsOf id db

instance : IsPreorder Database (Beside ev) where
  refl _ := ⟨fun h => h, rfl, rfl, fun _ => rfl⟩
  trans _ _ _ h h' := ⟨fun hl => h'.listed (h.listed hl), h'.reservations.trans h.reservations,
    h'.serials.trans h.serials, fun id => (h'.tickets id).trans (h.tickets id)⟩

section Beside

variable {db db' : Database}

theorem Beside.part (h : Beside ev db db') (k : Row) : part ev db' k = part ev db k := by
  cases k with
  | ticketEvent id =>
      show (if id = ev then _ else _) = if id = ev then _ else _
      rw [h.serials]
  | order id => exact congrArg Part.tickets (h.tickets id)
  | reservation id => exact congrArg Part.reservation (congrArg (List.find? _) h.reservations)
  | reservationOf id => exact congrArg Part.taken (congrArg (List.any · _) h.reservations)
  | _ => rfl

theorem Beside.numbered (h : Beside ev db db') (hI : Numbered ev db) : Numbered ev db' where
  listed := h.listed hI.listed
  reservationIds := h.reservations ▸ hI.reservationIds
  reservationOrders := h.reservations ▸ hI.reservationOrders
  quantities := h.reservations ▸ hI.quantities
  serials := h.serials ▸ hI.serials
  prepared r hr hs := by
    rw [h.tickets]
    exact hI.prepared r (h.reservations ▸ hr) hs

theorem Beside.lasting (h : Beside ev db db') : Lasting db db' := fun id _ => h.tickets id

/-- The tables that have nothing to do with tickets. -/
theorem beside_of_same (hc : db'.catalogue = db.catalogue) (hr : db'.reservations = db.reservations)
    (hi : db'.issuances = db.issuances) : Beside ev db db' where
  listed h := hc ▸ h
  reservations := hr
  serials := by rw [serialsOf, hi, serialsOf]
  tickets id := by rw [ticketsOf, hi, ticketsOf]

end Beside

theorem hidden {ι α : Type} {T : Table Database Row ι α}
    (h : ∀ db l, (T.put db l).catalogue = db.catalogue ∧ (T.put db l).reservations = db.reservations ∧
      (T.put db l).issuances = db.issuances) : Hidden (part ev) (Numbered ev) Lasting T where
  part_put db l k := by
    obtain ⟨hc, hr, hi⟩ := h db l
    exact (beside_of_same hc hr hi).part k
  keeps db l hI := by
    obtain ⟨hc, hr, hi⟩ := h db l
    have hbeside : Beside ev db (T.put db l) := beside_of_same hc hr hi
    exact ⟨hbeside.numbered hI, hbeside.lasting⟩

/-! ### The requests beside reservations and tickets -/

theorem spares_beside : Spares (fun _ _ => True) fun _ => Beside ev where
  other _ := trivial
  event _ _ := trivial
  attempts _ _ _ := beside_of_same rfl rfl rfl
  events _ _ _ := beside_of_same rfl rfl rfl
  intents _ _ _ := beside_of_same rfl rfl rfl
  transactions _ _ _ := beside_of_same rfl rfl rfl
  evidence _ _ _ := beside_of_same rfl rfl rfl
  results _ _ _ := beside_of_same rfl rfl rfl
  cursors _ _ _ := beside_of_same rfl rfl rfl
  pays _ _ _ := beside_of_same rfl rfl rfl

theorem places_beside : Places fun _ => Beside ev where
  inventory _ _ _ := beside_of_same rfl rfl rfl
  orderItems _ _ _ := beside_of_same rfl rfl rfl
  opens _ _ _ := beside_of_same rfl rfl rfl

theorem beside_outline {p : Prog Database Row Site Result}
    (h : p.Confined (fun _ _ => True) fun _ => Beside ev) : Outline ev p [] id fun _ => True :=
  h.safeRequest (fun _ _ _ hb hI => hb.numbered hI) fun _ _ _ hb _ => ⟨fun k _ => hb.part k, hb.lasting⟩

/-- A mint leaves the numbers of a ticket as they are. -/
theorem beside_mint {db view : Database} {p : TicketIssuance → Bool} {f : TicketIssuance → TicketIssuance}
    (hf : ∀ i, (f i).orderId = i.orderId ∧ (f i).ticketEventId = i.ticketEventId ∧
      (f i).serialNumber = i.serialNumber) : Beside ev db (issuanceTable.modify p f view db) := by
  have hsame {β : Type} (q : TicketIssuance → Bool) (key : TicketIssuance → β)
      (hq : ∀ i, q (f i) = q i) (hkey : ∀ i, key (f i) = key i) :
      ((issuanceTable.modify p f view db).issuances.filter q).map key =
        (db.issuances.filter q).map key := by
    show ((updateWhere _ f db.issuances).filter q).map key = _
    rw [filter_updateWhere hq, map_updateWhere hkey]
  refine ⟨fun h => h, rfl, ?_, fun id => ?_⟩
  · exact hsame _ _ (fun i => by rw [(hf i).2.1]) fun i => (hf i).2.2
  · exact hsame _ _ (fun i => by rw [(hf i).1]) fun i => by rw [(hf i).2.1, (hf i).2.2]

theorem confined_acceptOwnershipEvidence (issuanceId : Uuid) (body : OwnershipEvidenceRequest)
    (evidenceId : Uuid) : (acceptOwnershipEvidence issuanceId body evidenceId).request.Confined
      (fun _ _ => True) fun _ => Beside ev := by
  refine bounded_request ?_
  refine .bind .ofExcept fun _ => .bind .select fun _ => .bind .orElse fun _ => ?_
  refine .bind .select fun existing => ?_
  cases existing with
  | some existing => exact .bind .require fun _ => .bind .commit fun _ => .pure
  | none =>
      refine .bind .require fun _ => .bind .select fun _ => .bind .orElse fun _ => ?_
      refine .bind .require fun _ => .bind (.insertRow fun _ => beside_of_same rfl rfl rfl) fun _ => ?_
      refine .bind (.update fun _ _ _ => beside_mint fun _ => ⟨rfl, rfl, rfl⟩) fun _ => ?_
      have rest : Tx.Confined (fun _ _ => True) (fun _ => Beside ev) (do
          let view ← Tx.select .other (loadOwnership issuanceId)
          Tx.require view.isSome (.error .notFound)
          Tx.commit
          return ⟨.created, issuanceId⟩ : Handler Response) :=
        .bind .select fun _ => .bind .require fun _ => .bind .commit fun _ => .pure
      refine .bind .select fun _ => .ite ?_ ?_
      · exact .bind (.update fun _ _ _ => beside_of_same rfl rfl rfl) fun _ => rest
      · exact rest

theorem confined_environment {directory : Directory} {catalogue : Catalogue}
    (hlisted : ∃ te ∈ catalogue.ticketEvents, te.id = ev) :
    (environment directory catalogue).request.Confined (fun _ _ => True) fun _ => Beside ev := by
  refine bounded_request ?_
  refine .bind (.write fun _ _ => ⟨fun _ => hlisted, rfl, rfl, fun _ => rfl⟩) fun _ => ?_
  exact .bind .commit fun _ => .pure

/-! ### Changes of reservations -/

section Reservations

variable {L : List (Lock Row)} {p : Reservation → Bool} {status : ReservationStatus}
  {view db : Database} {r : Reservation}

theorem any_setReservations (id : Uuid) :
    (setReservations p status view db).reservations.any (·.orderId = id) =
      db.reservations.any (·.orderId = id) := by
  have horders : (setReservations p status view db).reservations.map (·.orderId) =
      db.reservations.map (·.orderId) := map_updateWhere fun _ => rfl
  have hany (l : List Reservation) :
      l.any (·.orderId = id) = (l.map (·.orderId)).any (decide <| · = id) := by
    rw [List.any_map]
    rfl
  rw [hany, hany, horders]

theorem framed_setReservations
    (hlocks : ∀ r ∈ reservationTable.matching p view, Written L (.reservation r.id)) :
    Framed (part ev) L db (setReservations p status view db) := by
  intro k hk
  cases k with
  | reservation id =>
      refine congrArg Part.reservation
        (reservationTable.find_modify_of_not_mem (f := ({ · with status })) (fun _ => rfl) ?_)
      intro hmem
      obtain ⟨r, hr, rfl⟩ := List.mem_map.mp hmem
      exact hk.not_written (hlocks r hr)
  | reservationOf id => exact congrArg Part.taken (any_setReservations id)
  | _ => rfl

theorem rowwise_setReservations : Rowwise (part ev) (setReservations p status view) := by
  intro k db db' heq
  cases k with
  | reservation id =>
      refine congrArg Part.reservation ?_
      rw [reservationTable.find_modify (f := ({ · with status })) fun _ => rfl,
        reservationTable.find_modify (f := ({ · with status })) fun _ => rfl, Part.reservation.inj heq]
  | reservationOf id =>
      refine congrArg Part.taken ?_
      rw [any_setReservations, any_setReservations, Part.taken.inj heq]
  | _ => exact heq

theorem framed_addReservation (hrow : Written L (.reservation r.id))
    (horder : Written L (.reservationOf r.orderId)) :
    Framed (part ev) L db (reservationTable.add r db) := by
  intro k hk
  cases k with
  | reservation id =>
      refine congrArg Part.reservation (reservationTable.find_add_of_ne ?_)
      rintro rfl
      exact hk.not_written hrow
  | reservationOf id =>
      have hne : r.orderId ≠ id := by
        rintro rfl
        exact hk.not_written horder
      refine congrArg Part.taken ?_
      show (db.reservations ++ [r]).any _ = _
      simp [hne]
  | _ => rfl

theorem rowwise_addReservation : Rowwise (part ev) (reservationTable.add r) := by
  intro k db db' heq
  cases k with
  | reservation id =>
      refine congrArg Part.reservation ?_
      rw [reservationTable.find_add, reservationTable.find_add, Part.reservation.inj heq]
  | reservationOf id =>
      refine congrArg Part.taken ?_
      show (db.reservations ++ [r]).any _ = (db'.reservations ++ [r]).any _
      rw [List.any_append, List.any_append, Part.taken.inj heq]
  | _ => exact heq

/-- Reservations change their status; those that are converted have their tickets. -/
theorem Numbered.setReservations (h : Numbered ev db) (hprepared : status = .converted →
      ∀ r ∈ db.reservations, p r = true → InARow (ticketsOf r.orderId db) r.quantity) :
    Numbered ev (Commerce.setReservations p status view db) where
  listed := h.listed
  reservationIds := by
    have hids : (Commerce.setReservations p status view db).reservations.map (·.id) =
        db.reservations.map (·.id) := map_updateWhere fun _ => rfl
    exact hids ▸ h.reservationIds
  reservationOrders := by
    have hids : (Commerce.setReservations p status view db).reservations.map (·.orderId) =
        db.reservations.map (·.orderId) := map_updateWhere fun _ => rfl
    exact hids ▸ h.reservationOrders
  quantities r hr := by
    rcases reservationTable.mem_modify hr with hr | ⟨r₀, hr₀, -, rfl⟩
    · exact h.quantities r hr
    · exact h.quantities r₀ hr₀
  serials := h.serials
  prepared r hr hconverted := by
    rcases reservationTable.mem_modify hr with hr | ⟨r₀, hr₀, hp, rfl⟩
    · exact h.prepared r hr hconverted
    · exact hprepared hconverted r₀ hr₀ hp

theorem Numbered.addReservation (h : Numbered ev db) (hid : reservationTable.find db r.id = none)
    (horder : db.reservations.any (·.orderId = r.orderId) = false) (hquantity : 0 < r.quantity)
    (hstatus : r.status ≠ .converted) : Numbered ev (reservationTable.add r db) where
  listed := h.listed
  reservationIds := reservationTable.nodup_add h.reservationIds (reservationTable.find_none hid)
  reservationOrders := by
    show ((db.reservations ++ [r]).map (·.orderId)).Nodup
    rw [List.map_append, List.map_singleton]
    refine h.reservationOrders.append (List.nodup_singleton _) fun id hmem hnew => ?_
    obtain ⟨s, hs, hsid⟩ := List.mem_map.mp hmem
    have hsr : s.orderId = r.orderId := hsid.trans (List.mem_singleton.mp hnew)
    exact List.any_eq_false.mp horder s hs (decide_eq_true hsr)
  quantities s hs := by
    rcases List.mem_append.mp hs with hs | hs
    · exact h.quantities s hs
    · rwa [List.mem_singleton.mp hs]
  serials := h.serials
  prepared s hs hconverted := by
    rcases List.mem_append.mp hs with hs | hs
    · exact h.prepared s hs hconverted
    · rw [List.mem_singleton.mp hs] at hconverted
      exact absurd hconverted hstatus

end Reservations

/-! ### Reservations -/

section Statements

variable {ext : Reconciliation.External} {L : List (Lock Row)} {pending : Database → Database}
  {A : Database → Prop}

/-- After an update of the status of reservations. -/
theorem track_setReservations {p : Reservation → Bool} (status : ReservationStatus) {view : Database}
    (h : Tracks ev (L ++ (reservationTable.matching p view).flatMap fun r =>
      [⟨.reservation r.id, .noKeyUpdate⟩]) pending A) :
    Tracks ev (L ++ (reservationTable.matching p view).flatMap fun r =>
      [⟨.reservation r.id, .noKeyUpdate⟩]) (fun db => setReservations p status view (pending db)) A := by
  refine h.change (fun db => framed_setReservations fun r hr => ?_) rowwise_setReservations
  exact ⟨_, List.mem_append_right _ (List.mem_flatMap.mpr ⟨r, hr, List.mem_singleton.mpr rfl⟩), rfl, rfl⟩

theorem safe_updateInventory {map : SqlError → ApiError} {productId : Uuid} {admits : Inventory → Bool}
    {change : Inventory → Inventory} {k : Nat → Prog Database Row Site Result}
    (ht : Tracks ev L pending A) (hk : Sound ev pending A)
    (next : ∀ n L' pending' B,
      Track.Hides (part ev) (Numbered ev) (fun _ => Lasting) Lasting L pending A L' pending' B →
      Outline ev (k n) L' pending' B) :
    Outline ev (updateInventory map productId admits change k) L pending A := by
  unfold updateInventory updateInventoryAt
  exact ht.safe_updateHidden hk (hidden fun _ _ => ⟨rfl, rfl, rfl⟩) next

theorem safe_reserveInventory {map : SqlError → ApiError} {productId : Uuid} {quantity : Int}
    {k : Nat → Prog Database Row Site Result} (ht : Tracks ev L pending A) (hk : Sound ev pending A)
    (next : ∀ n L' pending' B,
      Track.Hides (part ev) (Numbered ev) (fun _ => Lasting) Lasting L pending A L' pending' B →
      Outline ev (k n) L' pending' B) :
    Outline ev (reserveInventory map productId quantity k) L pending A := by
  unfold reserveInventory
  refine safe_bind (safe_select ht.stable fun _ _ _ _ _ => ?_)
  exact safe_bind (safe_require fun _ => safe_updateInventory ht hk next)

theorem safe_releaseHolds {holds : List ExpiredHold} {k : PUnit → Prog Database Row Site Result}
    (ht : Tracks ev L pending A) (hk : Sound ev pending A)
    (next : ∀ L' pending' B, Tracks ev L' pending' B → Sound ev pending' B →
      Outline ev (k ⟨⟩) L' pending' B) : Outline ev (releaseHolds holds k) L pending A := by
  induction holds generalizing L pending A with
  | nil => exact next _ _ _ ht hk
  | cons hold rest ih =>
      have hrelease {k : PUnit → Prog Database Row Site Result}
          (next : ∀ L' pending' B, Tracks ev L' pending' B → Sound ev pending' B →
            Outline ev (k ⟨⟩) L' pending' B) : Outline ev (releaseHold hold k) L pending A := by
        unfold releaseHold
        refine safe_bind (ht.safe_update fun db B _ _ _ h => ?_)
        have hk₁ : Sound ev (fun d => setReservations (·.id = hold.reservationId) .expired (pending db)
            (pending d)) B :=
          (hk.mono h.before).change fun d _ _ hI => ⟨hI.setReservations fun h => absurd h (by decide), fun _ _ => rfl⟩
        refine safe_bind ((track_setReservations _ h.track).safe_updateHidden hk₁
          (hidden fun _ _ => ⟨rfl, rfl, rfl⟩) fun _ L₂ p₂ A₂ h₂ => ?_)
        refine safe_bind (h₂.track.safe_updateHidden h₂.keeps (hidden fun _ _ => ⟨rfl, rfl, rfl⟩)
          fun _ L₃ p₃ A₃ h₃ => ?_)
        exact next _ _ _ h₃.track h₃.keeps
      exact safe_bind (hrelease fun _ _ _ ht' hk' => ih ht' hk')

theorem reservationViolation_eq {r : Reservation} {db : Database} (h : reservationViolation r db = none) :
    reservationTable.find db r.id = none ∧ db.reservations.any (·.orderId = r.orderId) = false ∧
      0 < r.quantity := by
  refine ⟨reservationViolation_new h, ?_, ?_⟩
  all_goals
    unfold reservationViolation at h
    split at h
    · cases h
  · rename_i hany
    refine List.any_eq_false.mpr fun s hs horder => hany (List.any_eq_true.mpr ⟨s, hs, ?_⟩)
    simp only [Bool.or_eq_true]
    exact .inl (.inr horder)
  · split at h
    · cases h
    · split at h
      · cases h
      · omega

theorem safe_insertReservation {r : Reservation} {k : PUnit → Prog Database Row Site Result}
    (hstatus : r.status = .reserved) (ht : Tracks ev L pending A) (hk : Sound ev pending A)
    (next : ∀ L' pending' B, Tracks ev L' pending' B → Sound ev pending' B →
      Outline ev (k ⟨⟩) L' pending' B) : Outline ev (insertReservation r k) L pending A := by
  unfold insertReservation
  refine ht.safe_insertRow fun db B hI hA hv h => ?_
  obtain ⟨hid, horder, hquantity⟩ := reservationViolation_eq (raise_none hv)
  refine next _ _ _ (h.track.change (fun db => framed_addReservation ?_ ?_) rowwise_addReservation) ?_
  · exact written_of_mem (m := .update) (by simp) rfl
  · exact written_of_mem (m := .update) (by simp) rfl
  refine (hk.mono h.before).change fun d _ hd hIp => ⟨?_, fun _ _ => rfl⟩
  -- no reservation of the order, nor one with the id, has come in between
  have hfind := h.seen d hd ⟨.reservation r.id, .update⟩ (by simp) rfl
  have hany := h.seen d hd ⟨.reservationOf r.orderId, .update⟩ (by simp) rfl
  refine hIp.addReservation ((Part.reservation.inj hfind).trans hid)
    ((Part.taken.inj hany).trans horder) hquantity ?_
  rw [hstatus]
  decide

theorem createReservation_outline (buyerUserId ticketProductId : Uuid) (body : CreateReservationRequest)
    (ids : ReservationIds) :
    Outline ev (createReservation ext.sha256 buyerUserId ticketProductId body ids).request [] id
      fun _ => True := by
  unfold Handler.request createReservation
  refine safe_bind (safe_require fun _ => ?_)
  refine safe_bind (safe_ofExcept fun key _ => ?_)
  refine safe_bind (safe_select stable_true fun _ _ _ _ _ => ?_)
  refine safe_bind (safe_bind (Track.start.safe_selectFor fun db₀ A₀ holds _ _ _ h₀ => ?_))
  have hk₀ := (Keeps.start (I := Numbered ev) (R := Lasting)).mono h₀.before
  refine safe_releaseHolds h₀.track hk₀ fun L₁ p₁ A₁ ht₁ hk₁ => ?_
  refine safe_bind (ht₁.safe_selectFor fun db₂ A₂ _ _ _ _ h₂ => ?_)
  have hk₂ := hk₁.mono h₂.before
  refine safe_bind (safe_orElse fun available _ => ?_)
  refine safe_bind (safe_select h₂.track.stable fun _ _ _ _ _ => ?_)
  refine safe_bind (safe_require fun _ => ?_)
  refine safe_bind (safe_select h₂.track.stable fun _ _ _ _ _ => ?_)
  refine safe_bind (safe_require fun _ => ?_)
  refine safe_bind (h₂.track.safe_selectFor fun db₃ A₃ existing _ _ _ h₃ => ?_)
  have hk₃ := hk₂.mono h₃.before
  cases existing with
  | some existing =>
      refine safe_bind (safe_require fun _ => ?_)
      exact safe_bind (h₃.track.safe_commit hk₃ safe_ret)
  | none =>
      refine safe_bind (safe_select h₃.track.stable fun _ _ _ _ _ => ?_)
      refine safe_bind (safe_require fun _ => ?_)
      refine safe_bind (safe_require fun _ => ?_)
      refine safe_bind (safe_require fun _ => ?_)
      refine safe_bind (safe_orElse fun total _ => ?_)
      refine safe_bind (h₃.track.safe_insertHidden hk₃ (hidden fun _ _ => ⟨rfl, rfl, rfl⟩)
        fun L₄ p₄ A₄ h₄ => ?_)
      refine safe_bind (h₄.track.safe_insertHidden h₄.keeps (hidden fun _ _ => ⟨rfl, rfl, rfl⟩)
        fun L₅ p₅ A₅ h₅ => ?_)
      refine safe_bind (safe_reserveInventory h₅.track h₅.keeps fun n L₆ p₆ A₆ h₆ => ?_)
      refine safe_bind (safe_require fun _ => ?_)
      refine safe_bind (safe_insertReservation rfl h₆.track h₆.keeps fun L₇ p₇ A₇ ht₇ hk₇ => ?_)
      exact safe_bind (ht₇.safe_commit hk₇ safe_ret)

/-! ### Issuances -/

/-- New rows after the tickets there are. -/
def addTickets (tickets : List TicketIssuance) (db : Database) : Database :=
  { db with issuances := db.issuances ++ tickets }

/-- The tickets that are made for an order, numbered after `last`. -/
structure Batch (orderId ticketEventId : Uuid) (last : Int) (count : Nat)
    (tickets : List TicketIssuance) : Prop where
  order : ∀ i ∈ tickets, i.orderId = orderId
  event : ∀ i ∈ tickets, i.ticketEventId = ticketEventId
  numbers : tickets.map (·.serialNumber) = following last count

section Batch

variable {orderId ticketEventId : Uuid} {last : Int} {count : Nat} {tickets : List TicketIssuance}
  {db : Database}

theorem Batch.cons {i : TicketIssuance} (h : Batch orderId ticketEventId (last + 1) count tickets)
    (horder : i.orderId = orderId) (hevent : i.ticketEventId = ticketEventId)
    (hserial : i.serialNumber = last + 1) :
    Batch orderId ticketEventId last (count + 1) (i :: tickets) where
  order := List.forall_mem_cons.mpr ⟨horder, h.order⟩
  event := List.forall_mem_cons.mpr ⟨hevent, h.event⟩
  numbers := by rw [List.map_cons, h.numbers, hserial, following]

theorem addTickets_cons {i : TicketIssuance} :
    addTickets tickets (addTickets [i] db) = addTickets (i :: tickets) db := by
  simp [addTickets]

theorem serialsOf_addTickets (id : Uuid) :
    serialsOf id (addTickets tickets db) =
      serialsOf id db ++ (tickets.filter (·.ticketEventId = id)).map (·.serialNumber) := by
  rw [serialsOf, addTickets, List.filter_append, List.map_append, serialsOf]

theorem ticketsOf_addTickets (id : Uuid) :
    ticketsOf id (addTickets tickets db) = ticketsOf id db ++
      (tickets.filter (·.orderId = id)).map fun i => (i.ticketEventId, i.serialNumber) := by
  rw [ticketsOf, addTickets, List.filter_append, List.map_append, ticketsOf]

theorem Batch.serialsOf (h : Batch orderId ticketEventId last count tickets) :
    serialsOf ticketEventId (addTickets tickets db) =
      Serials.serialsOf ticketEventId db ++ following last count := by
  rw [serialsOf_addTickets, List.filter_eq_self.mpr fun i hi => decide_eq_true (h.event i hi), h.numbers]

theorem Batch.serialsOf_of_ne (h : Batch orderId ticketEventId last count tickets) {id : Uuid}
    (hne : ticketEventId ≠ id) :
    Serials.serialsOf id (addTickets tickets db) = Serials.serialsOf id db := by
  have hnone : tickets.filter (·.ticketEventId = id) = [] :=
    List.filter_eq_nil_iff.mpr fun i hi hid => hne ((h.event i hi).symm.trans (of_decide_eq_true hid))
  rw [serialsOf_addTickets, hnone, List.map_nil, List.append_nil]

theorem Batch.ticketsOf (h : Batch orderId ticketEventId last count tickets) :
    ticketsOf orderId (addTickets tickets db) =
      Serials.ticketsOf orderId db ++ (following last count).map fun serial => (ticketEventId, serial) := by
  rw [ticketsOf_addTickets, List.filter_eq_self.mpr fun i hi => decide_eq_true (h.order i hi),
    ← h.numbers, List.map_map]
  congr 1
  refine List.map_congr_left fun i hi => ?_
  rw [h.event i hi]
  rfl

theorem Batch.ticketsOf_of_ne (h : Batch orderId ticketEventId last count tickets) {id : Uuid}
    (hne : orderId ≠ id) :
    Serials.ticketsOf id (addTickets tickets db) = Serials.ticketsOf id db := by
  have hnone : tickets.filter (·.orderId = id) = [] :=
    List.filter_eq_nil_iff.mpr fun i hi hid => hne ((h.order i hi).symm.trans (of_decide_eq_true hid))
  rw [ticketsOf_addTickets, hnone, List.map_nil, List.append_nil]

/-- **New tickets keep the numbers in a row**, if the order had none, and those of the event go on
where they ended. -/
theorem Batch.numbered (h : Batch orderId ticketEventId last count tickets) (hI : Numbered ev db)
    (hnone : Serials.ticketsOf orderId db = []) {issued : Nat}
    (hissued : ticketEventId = ev → Serials.serialsOf ev db = following 0 issued ∧ last = issued) :
    Numbered ev (addTickets tickets db) where
  listed := hI.listed
  reservationIds := hI.reservationIds
  reservationOrders := hI.reservationOrders
  quantities := hI.quantities
  serials := by
    by_cases hevent : ticketEventId = ev
    · obtain ⟨hserials, hlast⟩ := hissued hevent
      subst hevent
      refine ⟨issued + count, ?_⟩
      rw [h.serialsOf, hserials, hlast, following_add, Int.zero_add]
    · rw [h.serialsOf_of_ne hevent]
      exact hI.serials
  prepared r hr hconverted := by
    have hrow := hI.prepared r hr hconverted
    have hne : orderId ≠ r.orderId := by
      -- a converted reservation has tickets
      rintro rfl
      have hlength := hrow.length
      rw [hnone, List.length_nil] at hlength
      have := hI.quantities r hr
      omega
    rwa [h.ticketsOf_of_ne hne]

theorem Batch.lasting (h : Batch orderId ticketEventId last count tickets)
    (hnone : Serials.ticketsOf orderId db = []) : Lasting db (addTickets tickets db) := by
  intro id hid
  refine h.ticketsOf_of_ne ?_
  rintro rfl
  exact hid hnone

end Batch

theorem framed_addTicket {L : List (Lock Row)} {i : TicketIssuance} {db : Database}
    (horder : Written L (.order i.orderId))
    (hevent : i.ticketEventId = ev → Written L (.ticketEvent ev)) :
    Framed (part ev) L db (issuanceTable.add i db) := by
  have hbatch : Batch i.orderId i.ticketEventId (i.serialNumber - 1) 1 [i] :=
    { order := by simp, event := by simp, numbers := by simp [following] }
  intro k hk
  cases k with
  | order id =>
      refine congrArg Part.tickets (hbatch.ticketsOf_of_ne ?_)
      rintro rfl
      exact hk.not_written horder
  | ticketEvent id =>
      by_cases hid : id = ev
      · subst hid
        have hne : i.ticketEventId ≠ id := fun heq => hk.not_written (hevent heq)
        show (if id = id then Part.serials _ else _) = if id = id then Part.serials _ else _
        rw [if_pos rfl, if_pos rfl]
        exact congrArg Part.serials (hbatch.serialsOf_of_ne hne)
      · show (if id = ev then Part.serials _ else _) = if id = ev then Part.serials _ else _
        rw [if_neg hid, if_neg hid]
  | _ => rfl

theorem rowwise_addTicket {i : TicketIssuance} : Rowwise (part ev) (issuanceTable.add i) := by
  intro k db db' heq
  cases k with
  | order id =>
      refine congrArg Part.tickets ?_
      show ticketsOf id (addTickets [i] db) = ticketsOf id (addTickets [i] db')
      rw [ticketsOf_addTickets, ticketsOf_addTickets, Part.tickets.inj heq]
  | ticketEvent id =>
      have hevents (d : Database) : part ev d (.ticketEvent id) =
          if id = ev then Part.serials (serialsOf ev d) else .other := rfl
      rw [hevents, hevents] at heq ⊢
      split at heq
      · rename_i hid
        rw [if_pos hid, if_pos hid]
        show Part.serials (serialsOf ev (addTickets [i] db)) =
          Part.serials (serialsOf ev (addTickets [i] db'))
        rw [serialsOf_addTickets, serialsOf_addTickets, Part.serials.inj heq]
      · rename_i hid
        rw [if_neg hid, if_neg hid]
  | _ => exact heq

theorem safe_insertIssuance {i : TicketIssuance} {k : PUnit → Prog Database Row Site Result}
    (ht : Tracks ev L pending A) (horder : Written L (.order i.orderId))
    (hevent : i.ticketEventId = ev → Written L (.ticketEvent ev))
    (next : ∀ L' B, Tracks ev L' (fun d => addTickets [i] (pending d)) B → (∀ d, B d → A d) →
      L ⊆ L' → Outline ev (k ⟨⟩) L' (fun d => addTickets [i] (pending d)) B) :
    Outline ev (insertIssuance i k) L pending A := by
  unfold insertIssuance
  refine ht.safe_insertRow fun db B _ _ _ h => ?_
  have hsub {locks : List (Lock Row)} : L ⊆ L ++ locks := List.subset_append_left _ _
  refine next _ B (h.track.change (fun _ => framed_addTicket ?_ ?_) rowwise_addTicket) h.before hsub
  · exact horder.mono hsub
  · exact fun he => (hevent he).mono hsub

/-- **The loop** adds as many tickets as it counts. -/
theorem safe_insertIssuances {context : PaidOrderContext} {orderId owner : Uuid} {serial : Int}
    {idOf : Int → Uuid} {offset : Int} {count : Nat} {k : PUnit → Prog Database Row Site Result}
    (ht : Tracks ev L pending A) (horder : Written L (.order orderId))
    (hevent : context.ticketEventId = ev → Written L (.ticketEvent ev))
    (next : ∀ L' pending' B tickets, Tracks ev L' pending' B → (∀ d, B d → A d) →
      (∀ d, pending' d = addTickets tickets (pending d)) →
      Batch orderId context.ticketEventId (serial + offset - 1) count tickets →
      Outline ev (k ⟨⟩) L' pending' B) :
    Outline ev (insertIssuances context orderId owner serial idOf offset count k) L pending A := by
  induction count generalizing L pending A offset with
  | zero =>
      refine next L pending A [] ht (fun _ h => h) (fun d => ?_) ⟨by simp, by simp, rfl⟩
      simp [addTickets]
  | succ count ih =>
      refine safe_bind (safe_orElse fun serialNumber hserial => ?_)
      have hserial : serialNumber = serial + offset := checkedI64_eq_some hserial
      refine safe_bind (safe_insertIssuance ht horder hevent fun L' B ht' hB hsub => ?_)
      refine ih ht' (horder.mono hsub) (fun he => (hevent he).mono hsub)
        fun L'' pending' B' tickets ht'' hB' hpending hbatch => ?_
      refine next L'' pending' B' _ ht'' (fun d hd => hB d (hB' d hd))
        (fun d => (hpending d).trans addTickets_cons) (Batch.cons ?_ rfl rfl ?_)
      · have hlast : serial + (offset + 1) - 1 = serial + offset - 1 + 1 := by omega
        rwa [hlast] at hbatch
      · show serialNumber = _
        omega

theorem ticketsOf_nil {orderId : Uuid} {db : Database} (h : (issuancesOf orderId db).isEmpty = true) :
    ticketsOf orderId db = [] := by
  have hlength : (issuancesOf orderId db).length = (db.issuances.filter (·.orderId = orderId)).length :=
    List.length_insertionSort _ _
  rw [List.isEmpty_iff.mp h, List.length_nil] at hlength
  rw [ticketsOf, List.length_eq_zero_iff.mp hlength.symm, List.map_nil]

/-- The highest number of an event whose tickets are numbered from 1 on. -/
theorem currentSerial_eq {db : Database} {count : Nat} (h : serialsOf ev db = following 0 count) :
    currentSerial ev db = count := by
  have hserial : currentSerial ev db = (serialsOf ev db).max?.getD 0 := rfl
  rw [hserial, h, following_max]

/-- **The tickets of an order are numbered** under the locks of the order, its reservation and the
event. -/
theorem prepareIssuance_outline (orderId : Uuid) (ids : Int → Uuid) :
    Outline ev (prepareIssuance orderId ids).request [] id fun _ => True := by
  unfold Handler.request prepareIssuance
  refine safe_bind (Track.start.safe_selectFor fun db₁ A₁ row hI₁ _ hrow h₁ => ?_)
  have hk₁ := (Keeps.start (I := Numbered ev) (R := Lasting)).mono h₁.before
  refine safe_bind (safe_orElse fun context hcontext => ?_)
  -- the order and its reservation are locked from here on
  have hpaid : paidOrderContext orderId db₁ = some context := hrow.trans hcontext
  obtain ⟨o, r, tp, -, hr, hro, -, hc⟩ := paidOrderContext_eq hI₁.reservationIds hpaid
  have hid : r.id = context.reservationId := by rw [hc]
  have hquantity : r.quantity = context.quantity := by rw [hc]
  have hlocks : ((paidOrderContext orderId (id db₁)).map (·.locks orderId)).getD [] =
      context.locks orderId := by
    rw [id, hpaid]
    rfl
  have htickets (d : Database) (hd : A₁ d) : ticketsOf orderId d = ticketsOf orderId db₁ := by
    refine Part.tickets.inj (h₁.seen d hd ⟨.order orderId, .update⟩ ?_ rfl)
    rw [hlocks]
    exact List.mem_cons_self
  have hreservation (d : Database) (hd : A₁ d) :
      reservationTable.find d context.reservationId = some r := by
    refine (Part.reservation.inj (h₁.seen d hd ⟨.reservation context.reservationId, .update⟩ ?_ rfl)).trans hr
    rw [hlocks]
    exact List.mem_cons_of_mem _ List.mem_cons_self
  refine safe_bind (safe_select h₁.track.stable fun db₂ existing _ hA₂ hexisting => ?_)
  refine safe_ite (fun hempty => ?_) fun _ => safe_bind (h₁.track.safe_commit hk₁ safe_ret)
  have hnone (d : Database) (hd : A₁ d) : ticketsOf orderId d = [] := by
    have hempty₂ : ticketsOf orderId db₂ = [] := ticketsOf_nil (hexisting ▸ hempty)
    rw [htickets d hd, ← htickets db₂ hA₂, hempty₂]
  refine safe_bind (safe_require fun hready => ?_)
  refine safe_bind (safe_select h₁.track.stable fun _ _ _ _ _ => ?_)
  refine safe_bind (safe_require fun _ => ?_)
  refine safe_bind (safe_select h₁.track.stable fun _ _ _ _ _ => ?_)
  refine safe_bind (safe_orElse fun owner _ => ?_)
  refine safe_bind (h₁.track.safe_selectFor fun db₃ A₃ _ hI₃ _ _ h₃ => ?_)
  -- and so is the event
  have hevent {held : List (Lock Row)} : context.ticketEventId = ev → ⟨.ticketEvent ev, .update⟩ ∈ held ++
      ((id db₃).catalogue.ticketEvents.filter (·.id = context.ticketEventId)).map fun te =>
        (⟨.ticketEvent te.id, .update⟩ : Lock Row) := by
    intro he
    obtain ⟨te, hte, hid⟩ := hI₃.listed
    refine List.mem_append_right _ (List.mem_map.mpr ⟨te, List.mem_filter.mpr ⟨hte, ?_⟩, by rw [hid]⟩)
    exact decide_eq_true (hid.trans he.symm)
  refine safe_bind (safe_select h₃.track.stable fun db₄ serial hI₄ hA₄ hserial => ?_)
  obtain ⟨issued, hissued₄⟩ := hI₄.serials
  have hissued (d : Database) (hd : A₃ d) (he : context.ticketEventId = ev) :
      serialsOf ev d = following 0 issued ∧ serial = issued := by
    have hsame (d : Database) (hd : A₃ d) : serialsOf ev d = serialsOf ev db₃ := by
      have hpart := h₃.seen d hd ⟨.ticketEvent ev, .update⟩ (hevent he) rfl
      exact Part.serials.inj (by simpa only [part, if_true, id] using hpart)
    refine ⟨?_, ?_⟩
    · rw [hsame d hd, ← hsame db₄ hA₄, hissued₄]
    · rw [← hserial, he]
      exact currentSerial_eq hissued₄
  refine safe_bind (safe_insertIssuances h₃.track ?_ (fun he => written_of_mem (hevent he) rfl)
    fun L₅ p₅ A₅ tickets ht₅ hbefore₅ hpending hbatch => ?_)
  · refine written_of_mem (m := .update) (List.mem_append_left _ ?_) rfl
    rw [hlocks]
    exact List.mem_cons_self
  rw [add_sub_cancel_right] at hbatch
  have hpending₅ (d : Database) : p₅ d = addTickets tickets d := hpending d
  have hd₁ (d : Database) (hd : A₅ d) : A₁ d := h₃.before d (hbefore₅ d hd)
  have hk₅ : Sound ev p₅ A₅ := by
    intro d hI hd
    rw [hpending₅]
    exact ⟨hbatch.numbered hI (hnone d (hd₁ d hd)) (hissued d (hbefore₅ d hd)),
      hbatch.lasting (hnone d (hd₁ d hd))⟩
  refine safe_bind (safe_updateInventory ht₅ hk₅ fun n L₆ p₆ A₆ h₆ => ?_)
  refine safe_bind (safe_require fun _ => ?_)
  -- the reservation is converted once the order has its tickets
  have hrow₆ (d : Database) (hd : A₆ d) : InARow (ticketsOf orderId (p₆ d)) r.quantity := by
    refine ⟨context.ticketEventId, serial, ?_⟩
    have hsame : ticketsOf orderId (p₆ d) = ticketsOf orderId (p₅ d) :=
      Part.tickets.inj (h₆.same d (.order orderId))
    rw [hsame, hpending₅, hbatch.ticketsOf, hnone d (hd₁ d (h₆.before d hd)), List.nil_append, hquantity]
  have hfind₆ (d : Database) (hd : A₆ d) :
      reservationTable.find (p₆ d) context.reservationId = some r := by
    refine (Part.reservation.inj (h₆.same d (.reservation context.reservationId))).trans ?_
    rw [hpending₅]
    exact hreservation d (hd₁ d (h₆.before d hd))
  refine safe_bind (h₆.track.safe_update fun db₇ A₇ _ _ _ h₇ => ?_)
  have ht₇ := track_setReservations .converted h₇.track
  refine safe_bind (ht₇.safe_updateHidden (R := Lasting) ?_ (hidden fun _ _ => ⟨rfl, rfl, rfl⟩)
    fun _ L₈ p₈ A₈ h₈ => ?_)
  · refine (h₆.keeps.mono h₇.before).change fun d _ hd hI => ⟨?_, fun _ _ => rfl⟩
    refine hI.setReservations fun _ s hs hp => ?_
    have hsid : s.id = context.reservationId := of_decide_eq_true (Bool.and_eq_true_iff.mp hp).1
    have hfind := reservationTable.find_of_mem hI.reservationIds hs
    obtain rfl := Option.some.inj (hfind.symm.trans (hsid ▸ hfind₆ d (h₇.before d hd)))
    exact hro ▸ hrow₆ d (h₇.before d hd)
  exact safe_bind (h₈.track.safe_commit h₈.keeps safe_ret)

end Statements

/-! ### The result -/

variable {ext : Reconciliation.External}

/-- The requests of the shop, while the catalogue has the event. -/
inductive Listing (ext : Reconciliation.External) (ev : Uuid) : Prog Database Row Site Result → Prop
  | request {operation : Operation} {p : Prog Database Row Site Result}
      (h : Request ext operation p) (hother : operation ≠ .environment) : Listing ext ev p
  | environment (directory : Directory) (catalogue : Catalogue)
      (hlisted : ∃ te ∈ catalogue.ticketEvents, te.id = ev) :
      Listing ext ev (environment directory catalogue).request

theorem outline {p : Prog Database Row Site Result} (h : Listing ext ev p) :
    Outline ev p [] id fun _ => True := by
  cases h with
  | environment directory catalogue hlisted => exact beside_outline (confined_environment hlisted)
  | request h hother =>
      cases h with
      | createReservation buyer product body ids => exact createReservation_outline buyer product body ids
      | createOrder actor organization body order item =>
          exact beside_outline (confined_createOrder places_beside actor organization body order item)
      | prepareIssuance order ids => exact prepareIssuance_outline order ids
      | acceptOwnershipEvidence issuance body evidence =>
          exact beside_outline (confined_acceptOwnershipEvidence issuance body evidence)
      | setSupplyLimit product limit =>
          exact beside_outline (confined_setSupplyLimit places_beside product limit)
      | environment => exact absurd rfl hother
      | createPaymentAttempt actor order body attempt =>
          exact beside_outline (bounded_createPaymentAttempt spares_beside actor order body attempt)
      | recordPaymentEvent actor attempt body event =>
          exact beside_outline (bounded_recordPaymentEvent spares_beside.toPays actor attempt body event)
      | createTransactionIntent actor order body intent =>
          exact beside_outline
            (bounded_createTransactionIntent spares_beside.toPays actor order body intent)
      | acceptSignedEnvelope actor intent xdr transaction =>
          exact beside_outline
            (bounded_acceptSignedEnvelope spares_beside.toPays actor intent xdr transaction)
      | recordSubmissionReceipt actor intent body =>
          exact beside_outline (bounded_recordSubmissionReceipt spares_beside.toPays actor intent body)
      | recordChainEvidence actor intent body ids =>
          exact beside_outline (bounded_recordChainEvidence spares_beside.toPays actor intent body ids)

/-- No ticket is issued yet. -/
structure Unissued (ev : Uuid) (db : Database) : Prop where
  listed : ∃ te ∈ db.catalogue.ticketEvents, te.id = ev
  reservationIds : (db.reservations.map (·.id)).Nodup
  reservationOrders : (db.reservations.map (·.orderId)).Nodup
  quantities : ∀ r ∈ db.reservations, 0 < r.quantity
  issuances : db.issuances = []
  reservations : ∀ r ∈ db.reservations, r.status ≠ .converted

theorem Unissued.numbered {db : Database} (h : Unissued ev db) : Numbered ev db where
  listed := h.listed
  reservationIds := h.reservationIds
  reservationOrders := h.reservationOrders
  quantities := h.quantities
  serials := ⟨0, by rw [serialsOf, h.issuances]; rfl⟩
  prepared r hr hconverted := absurd hconverted (h.reservations r hr)

/-- **The tickets of an event are numbered** from 1 on without a gap, those of a converted
reservation are as many as it is for and in a row, and no later request adds to them or takes any
away. -/
theorem tickets_numbered {db₀ : Database} (h₀ : Unissued ev db₀)
    {pool : Pool Database Row Site Result} {actions : List (Action Database Row Site Result)}
    (hrun : Run (Pool.Step (Listing ext ev) fun _ _ => True) (Pool.idle db₀) actions pool) :
    (∃ count, serialsOf ev pool.db = following 0 count) ∧
    (∀ r ∈ pool.db.reservations, r.status = .converted →
      InARow (ticketsOf r.orderId pool.db) r.quantity ∧
        ((ticketsOf r.orderId pool.db).length : Int) = r.quantity) ∧
    ∀ (pool' : Pool Database Row Site Result) (later : List (Action Database Row Site Result)),
      Run (Pool.Step (Listing ext ev) fun _ _ => True) pool later pool' →
      ∀ r ∈ pool.db.reservations, r.status = .converted →
        ticketsOf r.orderId pool'.db = ticketsOf r.orderId pool.db := by
  have hhealthy := run_healthy (fun _ h => outline h) hrun (healthy_idle h₀.numbered)
  have hprepared (r : Reservation) (hr : r ∈ pool.db.reservations) (hconverted : r.status = .converted) :
      InARow (ticketsOf r.orderId pool.db) r.quantity ∧
        ((ticketsOf r.orderId pool.db).length : Int) = r.quantity := by
    have hrow := hhealthy.inv.prepared r hr hconverted
    have hpos := hhealthy.inv.quantities r hr
    refine ⟨hrow, ?_⟩
    rw [hrow.length]
    omega
  refine ⟨hhealthy.inv.serials, hprepared, fun pool' later hlater r hr hconverted => ?_⟩
  have hlasting : Lasting pool.db pool'.db :=
    run_moved (fun _ h => outline h) (refl_of Lasting) (fun _ _ _ => trans_of Lasting)
      (fun _ _ _ _ _ hG => hG.moved) hlater hhealthy
  refine hlasting _ fun hnone => ?_
  -- a converted reservation has tickets
  have hlength := (hprepared r hr hconverted).2
  rw [hnone, List.length_nil] at hlength
  have := hhealthy.inv.quantities r hr
  omega

/-! ### A sale -/

def prepareSeat : Prog Database Row Site Result := (prepareIssuance 30 fun offset => 49 + offset.toNat).request

theorem prepared_requests : ∀ p ∈ sale ++ [prepareSeat], Listing saleExternal 22 p := by
  intro p hp
  rcases List.mem_append.mp hp with hp | hp
  · obtain ⟨operation, hmem, h⟩ := sale_paid p hp
    refine .request h ?_
    rintro rfl
    simp [paidOperations] at hmem
  · rw [List.mem_singleton.mp hp]
    exact .request (.prepareIssuance 30 _) (by decide)

theorem prepared_outcome : (Pool.serveAll (fun _ _ => True) shopDatabase (sale ++ [prepareSeat])).any
    (fun sold => sold.2.reservations.map (fun r => (r.orderId, r.status)) = [(30, .converted)] &&
      serialsOf 22 sold.2 = [1] &&
      (Pool.serveAll (fun _ _ => True) sold.2 [prepareSeat]).isSome) = true := by
  rw [sale, sendEnvelope_eq]
  decide +kernel

theorem shopDatabase_unissued : Unissued 22 shopDatabase where
  listed := by decide
  reservationIds := .nil
  reservationOrders := .nil
  quantities r hr := by cases hr
  issuances := rfl
  reservations r hr := by cases hr

/-- A seat is sold and its ticket prepared, and prepared again. -/
theorem preparedTwice_numbered : ∃ (pool pool' : Pool Database Row Site Result)
    (actions later : List (Action Database Row Site Result)),
    Run (Pool.Step (Listing saleExternal 22) fun _ _ => True) (Pool.idle shopDatabase) actions pool ∧
    Run (Pool.Step (Listing saleExternal 22) fun _ _ => True) pool later pool' ∧
    serialsOf 22 pool.db = [1] ∧
    (∃ r ∈ pool.db.reservations, r.status = .converted ∧ r.orderId = 30) ∧
    ticketsOf 30 pool'.db = ticketsOf 30 pool.db := by
  obtain ⟨sold, hsold, hall⟩ := (Option.any_eq_true _ _).mp prepared_outcome
  simp only [Bool.and_eq_true, decide_eq_true_eq] at hall
  obtain ⟨⟨hreservations, hserials⟩, hagain⟩ := hall
  obtain ⟨again, hagain⟩ := Option.isSome_iff_exists.mp hagain
  obtain ⟨actions, hrun⟩ := Pool.run_of_serveAll prepared_requests hsold
  obtain ⟨later, hlater⟩ := Pool.run_of_serveAll
    (fun p hp => prepared_requests p (List.mem_append_right _ hp)) hagain
  obtain ⟨r, hr, hpair⟩ := List.mem_map.mp (hreservations ▸ List.mem_singleton.mpr rfl)
  obtain ⟨horder, hconverted⟩ := Prod.mk.inj hpair
  refine ⟨_, _, actions, later, hrun, hlater, hserials, ⟨r, hr, hconverted, horder⟩, ?_⟩
  rw [← horder]
  exact (tickets_numbered shopDatabase_unissued hrun).2.2 _ later hlater r hr hconverted

end CrownFi.Commerce.Serials
