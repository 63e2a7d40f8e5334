import CrownFi.Commerce.Stock
import CrownFi.Commerce.Sweep

/-!
# CrownFi.Commerce.StockOutlines

**Every request keeps the stock of a ticket product right**, in any interleaving with the others.
The sweep changes a reservation first and the inventory two statements later; in between the
counters do not fit the sums, and only the three updates taken together keep them. A new
reservation reads what its buyer holds under the lock of the ticket product, so that nobody adds to
it before the request commits.
-/

namespace CrownFi.Commerce.Stock

open Lib CrownFi.Api Ticketing

variable {tp : TicketProduct}

/-! ### What is assumed, and what every release must see -/

/-- The quantity that is held and the quantity that is asked for have a sum in 64 bits. -/
def SumsFit (ticketProductId : Uuid) : Site → Database → Prop
  | .holdings id buyerUserId quantity, db =>
      id = ticketProductId → inI64 (existingQuantity id buyerUserId db + quantity)
  | _, _ => True

/-- A release takes off no more than is reserved, so that nothing is cut off at zero. -/
def Covered (productId : Uuid) : Site → Database → Prop
  | .releaseInventory id quantity, db =>
      id = productId → ∀ i, inventoryTable.find db id = some i → quantity ≤ i.reservedQuantity
  | _, _ => True

section Evident

variable {productId : Uuid} {db : Database}

instance : Evident (Covered productId .other db) := ⟨trivial⟩

instance {orderId : Uuid} : Evident (Covered productId (.sweepOrder orderId) db) := ⟨trivial⟩

instance {orderId : Uuid} : Evident (Covered productId (.counting orderId) db) := ⟨trivial⟩

instance {ticketProductId buyerUserId : Uuid} {quantity : Int} :
    Evident (Covered productId (.holdings ticketProductId buyerUserId quantity) db) := ⟨trivial⟩

end Evident

/-! ### What locks protect -/

/-- The rows that the sums are made of. -/
inductive Part
  | inventory (i : Option Inventory)
  | reservation (r : Option Reservation)
  | other

def part (db : Database) : Row → Part
  | .inventory id => .inventory (inventoryTable.find db id)
  | .reservation id => .reservation (reservationTable.find db id)
  | _ => .other

theorem inventoryLayout : Layout part inventoryTable Part.inventory where
  row _ _ := rfl
  injective _ _ h := Part.inventory.inj h
  other db l k hk := by
    cases k with
    | inventory id => exact absurd rfl (hk id)
    | _ => rfl

theorem reservationLayout : Layout part reservationTable Part.reservation where
  row _ _ := rfl
  injective _ _ h := Part.reservation.inj h
  other db l k hk := by
    cases k with
    | reservation id => exact absurd rfl (hk id)
    | _ => rfl

/-- An outline of the rest of a request. -/
abbrev Outline (tp : TicketProduct) :
    Prog Database Row Site Result → List (Lock Row) → (Database → Database) → (Database → Prop) → Prop :=
  Outlined (Stocked tp) (Forward part (Rely tp)) (Forward part (Rely tp)) (SumsFit tp.id)
    (Covered tp.productId)

abbrev Tracks (tp : TicketProduct) :
    List (Lock Row) → (Database → Database) → (Database → Prop) → Prop :=
  Track part (Stocked tp) (Rely tp)

/-- To commit now would keep the sums, and let no buyer hold more. -/
abbrev Sound (tp : TicketProduct) : (Database → Database) → (Database → Prop) → Prop :=
  Keeps (Stocked tp) (Moves tp False)

/-- The tables that the sums do not depend on. -/
theorem hidden {ι α : Type} {T : Table Database Row ι α}
    (h : ∀ db l, (T.put db l).catalogue = db.catalogue ∧ (T.put db l).reservations = db.reservations ∧
      (T.put db l).inventory = db.inventory) :
    Hidden part (Stocked tp) (Moves tp False) T where
  part_put db l k := by
    obtain ⟨-, hr, hi⟩ := h db l
    cases k with
    | inventory id =>
        show Part.inventory ((T.put db l).inventory.find? _) = Part.inventory (db.inventory.find? _)
        rw [hi]
    | reservation id =>
        show Part.reservation ((T.put db l).reservations.find? _) =
          Part.reservation (db.reservations.find? _)
        rw [hr]
    | _ => rfl
  keeps db l hS := by
    obtain ⟨hc, hr, hi⟩ := h db l
    have hbeside : Beside tp db (T.put db l) :=
      ⟨fun ho => hc ▸ ho, hr, by rw [hi], congrArg (List.find? _) hi⟩
    exact ⟨hbeside.stocked hS, hbeside.moves⟩

/-- The sums do not depend on orders. -/
theorem track_setOrders {L : List (Lock Row)} {pending : Database → Database} {A : Database → Prop}
    {p : Order → Bool} {target : OrderStatus} {view : Database} (h : Tracks tp L pending A) :
    Tracks tp L (fun d => setOrders p target view (pending d)) A :=
  h.hide fun _ k => by cases k <;> rfl

/-! ### The expiry sweep -/

section Sweep

variable {L : List (Lock Row)} {pending : Database → Database} {A : Database → Prop}

/-- The hold is still one. -/
def Held (tp : TicketProduct) (db : Database) (h : ExpiredHold) : Prop :=
  ∃ r, reservationTable.find db h.reservationId = some r ∧ r.status = .reserved ∧
    r.quantity = h.quantity ∧ (h.productId = tp.productId ↔ r.ticketProductId = tp.id)

theorem Held.congr {db db' : Database} {h : ExpiredHold} (hh : Held tp db h)
    (heq : reservationTable.find db' h.reservationId = reservationTable.find db h.reservationId) :
    Held tp db' h := by
  obtain ⟨r, hr, hrest⟩ := hh
  exact ⟨r, heq.trans hr, hrest⟩

/-- A hold is covered by the counter of its product. -/
theorem Held.covered {db : Database} {h : ExpiredHold} (hh : Held tp db h) (hS : Stocked tp db)
    (hproduct : h.productId = tp.productId) :
    ∃ i, inventoryTable.find db h.productId = some i ∧ h.quantity ≤ i.reservedQuantity := by
  obtain ⟨r, hr, hstatus, hquantity, hiff⟩ := hh
  obtain ⟨i, hi, hcovers⟩ := hS.covers (reservationTable.find_mem hr).1 hstatus (hiff.mp hproduct)
  exact ⟨i, hproduct ▸ hi, hquantity ▸ hcovers⟩

/-- How far the holdings that the transaction sees differ from the committed ones is settled by the
rows that it has locked. -/
def Offset (tp : TicketProduct) (pending : Database → Database) (A : Database → Prop) : Prop :=
  ∃ less : Uuid → Int, ∀ d, Stocked tp d → A d → ∀ buyerUserId,
    existingQuantity tp.id buyerUserId (pending d) =
      existingQuantity tp.id buyerUserId d - less buyerUserId

theorem Offset.mono {B : Database → Prop} (h : Offset tp pending A) (hBA : ∀ d, B d → A d) :
    Offset tp pending B := by
  obtain ⟨less, hless⟩ := h
  exact ⟨less, fun d hd hB => hless d hd (hBA d hB)⟩

theorem safe_releaseHold {h : ExpiredHold} {k : PUnit → Prog Database Row Site Result}
    (ht : Tracks tp L pending A) (hk : Sound tp pending A)
    (ho : Offset tp pending A) (hh : ∀ d, A d → Held tp (pending d) h)
    (next : ∀ L' pending' B, Tracks tp L' pending' B → Sound tp pending' B →
      Offset tp pending' B → (∀ d, B d → A d) →
      (∀ d, B d → ∀ id, id ≠ h.reservationId →
        reservationTable.find (pending' d) id = reservationTable.find (pending d) id) →
      Outline tp (k ⟨⟩) L' pending' B) :
    Outline tp (releaseHold h k) L pending A := by
  obtain ⟨reservationId, orderId, quantity, productId⟩ := h
  unfold releaseHold
  refine safe_bind (ht.safe_update fun db₁ A₁ hI₁ hA₁ _ h₁ => ?_)
  -- the reservation is locked from here on
  obtain ⟨r, hr, hstatus, hquantity, hproduct⟩ := hh db₁ hA₁
  obtain ⟨hmem, hid⟩ := reservationTable.find_mem hr
  obtain rfl : r.id = reservationId := hid
  obtain rfl : r.quantity = quantity := hquantity
  have hsame (d : Database) (hd : A₁ d) : reservationTable.find (pending d) r.id = some r := by
    refine ((h₁.seen d hd).find reservationLayout (m := .noKeyUpdate) ?_ rfl).trans hr
    refine List.mem_append_right _ (List.mem_flatMap.mpr ⟨r, ?_, List.mem_singleton.mpr rfl⟩)
    exact reservationTable.mem_matching.mpr ⟨hmem, decide_eq_true rfl⟩
  have ht₁ := h₁.track.modifyLocked reservationLayout (f := ({ · with status := .expired }))
    (fun _ => rfl) fun r => ⟨_, List.mem_singleton.mpr rfl, rfl, rfl⟩
  refine safe_bind (ht₁.safe_update fun db₂ A₂ _ _ _ h₂ => ?_)
  -- the row of the product, as far as it is there
  have hcovered (d : Database) (hI : Stocked tp d) (hd : A₂ d) (hwhose : productId = tp.productId) :
      ∃ i, inventoryTable.find (pending d) productId = some i ∧ r.quantity ≤ i.reservedQuantity := by
    have hheld := hh d (h₁.before d (h₂.before d hd))
    exact hheld.covered (hk d hI (h₁.before d (h₂.before d hd))).1 hwhose
  refine safe_bind ((track_setOrders h₂.track).safe_updateSeeing (fun db₃ A₃ hI₃ hA₃ _ h₃ => ?_)
    fun d hI hd _ hwhose i hi => ?_)
  · have hbefore (d : Database) (hd : A₃ d) : A d := h₁.before d (h₂.before d (h₃.before d hd))
    refine next _ _ _ (h₃.track.modifyLocked inventoryLayout (f := giveBack r.quantity) (fun _ => rfl)
      fun i => ⟨_, List.mem_singleton.mpr rfl, rfl, rfl⟩) ?_ ?_ hbefore fun d _ id hne => ?_
    · -- the three updates together keep the sums
      refine (hk.mono hbefore).change (f := fun x => inventoryTable.modify _ (giveBack r.quantity) _
        (setOrders _ .expired _ (setReservations _ .expired _ x))) fun d _ hd hS => ?_
      refine hS.release (hsame d (h₂.before d (h₃.before d hd))) hstatus hr hproduct
        (fun hwhose i hi => ?_) rfl
      obtain ⟨i₃, hi₃, -⟩ := hcovered db₃ hI₃ hA₃ hwhose
      obtain ⟨hmem₃, hkey₃⟩ := inventoryTable.find_mem hi₃
      refine (((h₃.seen d hd).find inventoryLayout (m := .noKeyUpdate) ?_ rfl).symm.trans ?_)
      · refine List.mem_append_right _ (List.mem_flatMap.mpr ⟨i₃, ?_, ?_⟩)
        · exact inventoryTable.mem_matching.mpr
            ⟨hmem₃, by rw [Bool.and_true]; exact decide_eq_true hkey₃⟩
        · exact hkey₃ ▸ List.mem_singleton.mpr rfl
      · exact hwhose ▸ hi
    · obtain ⟨less, hless⟩ := ho
      refine ⟨fun buyer => less buyer + heldIn tp.id buyer r, fun d hI hd buyer => ?_⟩
      refine (holdings_expired (hk d hI (hbefore d hd)).1.reservationIds
        (hsame d (h₂.before d (h₃.before d hd))) hr (by rfl) buyer).trans ?_
      rw [hless d hI (hbefore d hd)]
      exact sub_sub _ _ _
    · exact reservationTable.find_modify_of_ne (f := ({ · with status := .expired })) (fun _ => rfl)
        (fun _ hs => of_decide_eq_true hs) hne
  · obtain ⟨i', hi', hle⟩ := hcovered d hI hd hwhose
    obtain rfl := Option.some.inj (hi'.symm.trans hi)
    exact hle

theorem safe_releaseHolds {holds : List ExpiredHold} {k : PUnit → Prog Database Row Site Result}
    (ht : Tracks tp L pending A) (hk : Sound tp pending A)
    (ho : Offset tp pending A) (hh : ∀ h ∈ holds, ∀ d, A d → Held tp (pending d) h)
    (hdistinct : (holds.map (·.reservationId)).Nodup)
    (next : ∀ L' pending' B, Tracks tp L' pending' B → Sound tp pending' B → Offset tp pending' B →
      Outline tp (k ⟨⟩) L' pending' B) :
    Outline tp (releaseHolds holds k) L pending A := by
  induction holds generalizing L pending A with
  | nil => exact next _ _ _ ht hk ho
  | cons h rest ih =>
      obtain ⟨hnot, hrest⟩ := List.nodup_cons.mp (List.map_cons ▸ hdistinct)
      refine safe_bind (safe_releaseHold ht hk ho (hh h List.mem_cons_self)
        fun L' pending' B ht' hk' ho' hbefore hothers => ?_)
      refine ih ht' hk' ho' (fun h' hmem d hd => ?_) hrest
      -- the other reservations are as they were
      refine (hh h' (List.mem_cons_of_mem _ hmem) d (hbefore d hd)).congr (hothers d hd _ ?_)
      intro heq
      exact hnot (heq ▸ List.mem_map_of_mem hmem)

theorem mem_expiredHolds {ticketProductId : Uuid} {now : Int} {db : Database} {h : ExpiredHold}
    (hh : h ∈ expiredHolds ticketProductId now db) :
    ∃ r ∈ db.reservations, ∃ t, db.catalogue.ticketProducts.find? (·.id = ticketProductId) = some t ∧
      r.ticketProductId = ticketProductId ∧ r.status = .reserved ∧
        h = ⟨r.id, r.orderId, r.quantity, t.productId⟩ := by
  simp only [expiredHolds, List.mem_filterMap, List.mem_filter, Option.map_eq_some_iff,
    Bool.and_eq_true, decide_eq_true_eq] at hh
  obtain ⟨r, ⟨hr, ⟨htp, hstatus⟩, -⟩, t, ht, rfl⟩ := hh
  exact ⟨r, hr, t, ht, htp, hstatus, rfl⟩

/-- No reservation is released twice. -/
theorem nodup_expiredHolds {ticketProductId : Uuid} {now : Int} {db : Database}
    (hids : (db.reservations.map (·.id)).Nodup) :
    ((expiredHolds ticketProductId now db).map (·.reservationId)).Nodup := by
  unfold expiredHolds
  cases db.catalogue.ticketProducts.find? (·.id = ticketProductId) with
  | none => simp
  | some t =>
      simp only [Option.map_some, List.filterMap_eq_map', List.map_map]
      exact hids.sublist (List.Sublist.map _ List.filter_sublist)

theorem safe_releaseExpiredForProduct {ticketProductId : Uuid} {now : Int}
    {k : PUnit → Prog Database Row Site Result}
    (next : ∀ L' pending' B, Tracks tp L' pending' B → Sound tp pending' B → Offset tp pending' B →
      Outline tp (k ⟨⟩) L' pending' B) :
    Outline tp (releaseExpiredForProduct ticketProductId now k) [] id fun _ => True := by
  unfold releaseExpiredForProduct
  refine safe_bind (Track.start.safe_selectFor fun db B expired hI _ hexpired h => ?_)
  subst hexpired
  refine safe_releaseHolds h.track (Keeps.start.mono h.before)
    ⟨fun _ => 0, fun _ _ _ _ => (sub_zero _).symm⟩ (fun e he d hd => ?_)
    (nodup_expiredHolds hI.reservationIds) next
  obtain ⟨r, hr, t, ht, htp, hstatus, rfl⟩ := mem_expiredHolds he
  refine ⟨r, ?_, hstatus, rfl, (hI.offered.productId_iff ht).trans (by rw [htp])⟩
  refine ((h.seen d hd).find reservationLayout (m := .update) ?_ rfl).trans
    (reservationTable.find_of_mem hI.reservationIds hr)
  exact List.mem_append_right _ (List.mem_map.mpr ⟨_, he, rfl⟩)

end Sweep

/-! ### New reservations -/

/-- What the availability of a ticket product says about it. -/
theorem availability_eq {ticketProductId : Uuid} {db : Database} {a : Availability}
    (h : availability ticketProductId db = some a) :
    ∃ t, db.catalogue.ticketProducts.find? (·.id = ticketProductId) = some t ∧
      a.productId = t.productId ∧ a.perUserLimit = t.perUserLimit := by
  simp only [availability, Option.bind_eq_bind, Option.bind_eq_some_iff] at h
  obtain ⟨t, ht, te, -, p, hp, pp, -, i, -, heq⟩ := h
  obtain rfl := Option.some.inj heq
  have hid : p.id = t.productId := by simpa using List.find?_some hp
  exact ⟨t, ht, hid, rfl⟩

section Reservations

variable {L : List (Lock Row)} {pending : Database → Database}
  {A : Database → Prop}

/-- With the ticket product locked, nobody else adds to what a buyer holds of it. -/
theorem stable_holdings {buyerUserId ticketProductId : Uuid} {bound : Int}
    (ht : Tracks tp L pending A) (ho : Offset tp pending A)
    (hlock : ⟨.ticketProduct ticketProductId, .update⟩ ∈ L) :
    Stable (Stocked tp) (Forward part (Rely tp)) L fun d => A d ∧ (ticketProductId = tp.id →
      existingQuantity tp.id buyerUserId (pending d) ≤ bound) := by
  obtain ⟨less, hless⟩ := ho
  intro L' d d' hcompat hI hI' hA hG
  obtain ⟨hAd, hbound⟩ := hA
  have hAd' := ht.stable L' d d' hcompat hI hI' hAd hG
  refine ⟨hAd', fun hwhose => ?_⟩
  have hle := hG.moved (hcompat.not_writes (hwhose ▸ hlock) rfl) buyerUserId
  have hbound := hbound hwhose
  rw [hless d hI hAd] at hbound
  rw [hless d' hI' hAd']
  omega

/-- An update that changed the inventory of a product: its row is there, it was admitted, and it is
locked from here on. -/
theorem updated_row {productId : Uuid} {admits : Inventory → Bool} {db : Database} {B : Database → Prop}
    (hS : Stocked tp (pending db))
    (hone : ((inventoryTable.matching (fun i => i.productId = productId && admits i)
      (pending db)).length = 1 : Bool) = true)
    (h : Track.After part (Stocked tp) (Rely tp) L pending A
      ((inventoryTable.matching (fun i => i.productId = productId && admits i) (pending db)).flatMap
        fun i => [⟨.inventory i.productId, .noKeyUpdate⟩]) (pending db) B) :
    ∃ i, inventoryTable.find (pending db) productId = some i ∧ admits i = true ∧
      ∀ d, B d → inventoryTable.find (pending d) productId = some i := by
  have hlength := of_decide_eq_true hone
  obtain ⟨i, hi⟩ := List.exists_mem_of_length_pos (by rw [hlength]; exact Nat.one_pos)
  obtain ⟨hrow, hmatch⟩ := inventoryTable.mem_matching.mp hi
  obtain ⟨hkey, hadmits⟩ := Bool.and_eq_true_iff.mp hmatch
  have hkey : i.productId = productId := of_decide_eq_true hkey
  have hfind : inventoryTable.find (pending db) productId = some i :=
    hkey ▸ inventoryTable.find_of_mem hS.productIds hrow
  refine ⟨i, hfind, hadmits, fun d hd => ?_⟩
  refine ((h.seen d hd).find inventoryLayout (m := .noKeyUpdate) ?_ rfl).trans hfind
  exact List.mem_append_right _ (List.mem_flatMap.mpr ⟨i, hi, hkey ▸ List.mem_singleton.mpr rfl⟩)

/-- The statements of a new reservation, once its buyer's limit is checked. -/
theorem insertReservation_outline {r : Reservation} {productId : Uuid} {o : Order} {item : OrderItem}
    {map : SqlError → ApiError} (ht : Tracks tp L pending A) (hk : Sound tp pending A)
    (hstatus : r.status = .reserved)
    (hpos : 0 < r.quantity) (hproduct : productId = tp.productId ↔ r.ticketProductId = tp.id)
    (hlock : ⟨.ticketProduct r.ticketProductId, .update⟩ ∈ L)
    (hbuyer : r.ticketProductId = tp.id → ∀ d, A d →
      existingQuantity tp.id r.buyerUserId (pending d) + r.quantity ≤ tp.perUserLimit) :
    Outline tp ((do
      insertOrder map o
      insertOrderItem map item
      let updated ← reserveInventory map productId r.quantity
      Tx.require (updated = 1) (.error (.conflict "ticket_inventory_unavailable"))
      insertReservation r
      Tx.commit
      return ⟨.created, r.id⟩ : Handler Response) fun r => .ret (.ok r)) L pending A := by
  refine safe_bind (ht.safe_insertHidden hk (hidden fun _ _ => ⟨rfl, rfl, rfl⟩) fun L₁ p₁ A₁ h₁ => ?_)
  refine safe_bind (h₁.track.safe_insertHidden h₁.keeps (hidden fun _ _ => ⟨rfl, rfl, rfl⟩)
    fun L₂ p₂ A₂ h₂ => ?_)
  have hboth := h₁.trans h₂
  unfold reserveInventory updateInventory updateInventoryAt
  refine safe_bind (safe_bind (safe_select h₂.track.stable fun _ _ _ _ _ => ?_))
  refine safe_bind (safe_require fun _ => ?_)
  refine safe_bind (h₂.track.safe_update fun db₃ A₃ hI₃ hA₃ _ h₃ => ?_)
  refine safe_bind (safe_require fun hone => ?_)
  obtain ⟨i, hfind, hadmits, hsame⟩ := updated_row (h₂.keeps db₃ hI₃ hA₃).1 hone h₃
  have ht₃ := h₃.track.modifyLocked inventoryLayout (f := reserve r.quantity) (fun _ => rfl)
    fun i => ⟨_, List.mem_singleton.mpr rfl, rfl, rfl⟩
  refine safe_bind (ht₃.safe_insertRow fun db₄ A₄ hI₄ hA₄ hviolation h₄ => ?_)
  have hnew (d : Database) (hd : A₄ d) : reservationTable.find (p₂ d) r.id = none :=
    ((h₄.seen d hd).find reservationLayout (m := .update) (by simp [reservationTable]) rfl).trans
      (reservationViolation_new (raise_none hviolation))
  have hlimit (limit : Int) (hlim : i.supplyLimit = some limit) :
      i.reservedQuantity + i.fulfilledQuantity + r.quantity ≤ limit := by
    have hall : i.supplyLimit.all (fun limit =>
        i.reservedQuantity + i.fulfilledQuantity + r.quantity ≤ limit) = true := hadmits
    rw [hlim, Option.all_some] at hall
    exact of_decide_eq_true hall
  have htracked := h₄.track.add reservationLayout (r := r) (by simp [reservationTable])
  refine safe_bind (htracked.safe_commitWithin (R := Moves tp (r.ticketProductId = tp.id))
    (fun d hI hd => ?_) (fun _ _ hm => hm.rely fun hown => ?_) safe_ret)
  · have hd₂ := h₃.before d (h₄.before d hd)
    obtain ⟨hS, hmoved⟩ := h₂.keeps d hI hd₂
    refine And.imp_right (trans_of (Moves tp _) hmoved.owned) (hS.add (hnew d hd) hstatus hpos hproduct
      (hsame d (h₄.before d hd)) hfind hadmits hlimit (fun htp => ?_) rfl)
    -- the inserts before have not raised what the buyer holds
    have hbound := hbuyer htp d (hboth.before d hd₂)
    rcases hboth.moved d hI hd₂ with hfalse | hle
    · exact hfalse.elim
    · have := hle r.buyerUserId
      omega
  · refine written_of_mem (m := .update) (hown ▸ ?_) rfl
    exact List.mem_append_left _ (List.mem_append_left _ (hboth.locks hlock))

theorem createReservation_outline (sha256 : Sha256) (buyerUserId ticketProductId : Uuid)
    (body : CreateReservationRequest) (ids : ReservationIds) :
    Outline tp (createReservation sha256 buyerUserId ticketProductId body ids).request [] id
      fun _ => True := by
  unfold Handler.request createReservation
  refine safe_bind (safe_require fun hquantity => ?_)
  refine safe_bind (safe_ofExcept fun key _ => ?_)
  refine safe_bind (safe_select stable_true fun _ began _ _ _ => ?_)
  refine safe_bind (safe_releaseExpiredForProduct fun L₀ p₀ A₀ ht₀ hk₀ ho₀ => ?_)
  refine safe_bind (ht₀.safe_selectFor fun db₁ A₁ row hI₁ hA₁ hrow h₁ => ?_)
  have hk₁ := hk₀.mono h₁.before
  refine safe_bind (safe_orElse fun available havailable => ?_)
  obtain ⟨t, ht, hproductId, hlimit⟩ := availability_eq (hrow.trans havailable)
  have hoffered := (hk₀ db₁ hI₁ hA₁).1.offered
  have hproduct : available.productId = tp.productId ↔ ticketProductId = tp.id := by
    rw [hproductId]
    exact hoffered.productId_iff ht
  have hlock : (⟨.ticketProduct ticketProductId, .update⟩ : Lock Row) ∈ L₀ ++
      ((availability ticketProductId (p₀ db₁)).map (·.locks ticketProductId)).getD [] := by
    rw [show availability ticketProductId (p₀ db₁) = some available from hrow.trans havailable]
    exact List.mem_append_right _ List.mem_cons_self
  refine safe_bind (safe_select h₁.track.stable fun _ now _ _ _ => ?_)
  refine safe_bind (safe_require fun _ => ?_)
  refine safe_bind (safe_select h₁.track.stable fun _ _ _ _ _ => ?_)
  refine safe_bind (safe_require fun _ => ?_)
  refine safe_bind (h₁.track.safe_selectFor fun db₂ A₂ existing _ _ _ h₂ => ?_)
  have hk₂ := hk₁.mono h₂.before
  have ho₂ := ho₀.mono fun d hd => h₁.before d (h₂.before d hd)
  cases existing with
  | some existing =>
    refine safe_bind (safe_require fun _ => ?_)
    exact safe_bind (h₂.track.safe_commitWithin hk₂ (fun _ _ hm => hm.rely False.elim) safe_ret)
  | none =>
    refine safe_bind (safe_step fun db₃ hI₃ hA₃ hfits => ?_)
    -- what the buyer holds is at most what was read, from here on
    obtain ⟨A₃, hA₃, h₃, hheld⟩ := h₂.track.afterKnowing (L := []) hA₃
      ⟨hA₃, fun _ => le_refl (existingQuantity tp.id buyerUserId (p₀ db₃))⟩
      (stable_holdings h₂.track ho₂ (List.mem_append_left _ hlock)).weaken
    refine ⟨A₃, hA₃, h₃.track.stable, ?_⟩
    refine safe_bind (safe_require fun _ => ?_)
    refine safe_bind (safe_require fun hwithin => ?_)
    refine safe_bind (safe_require fun _ => ?_)
    refine safe_bind (safe_orElse fun total _ => ?_)
    generalize hr : Reservation.mk _ _ _ _ _ _ _ _ _ _ = r
    have hid : ids.reservation = r.id := by rw [← hr]
    have hquantity' : body.quantity = r.quantity := by rw [← hr]
    have htp : ticketProductId = r.ticketProductId := by rw [← hr]
    rw [hid, hquantity']
    refine insertReservation_outline h₃.track (hk₂.mono h₃.before) (by rw [← hr]) ?_ ?_ ?_ ?_
    · rw [← hquantity']
      exact of_decide_eq_true hquantity
    · exact htp ▸ hproduct
    · exact htp ▸ List.mem_append_left _ (List.mem_append_left _ hlock)
    · intro hwhose d hd
      subst hr
      have hwhose : ticketProductId = tp.id := hwhose
      have hbound : existingQuantity tp.id buyerUserId (p₀ d) ≤
          existingQuantity tp.id buyerUserId (p₀ db₃) := (hheld d hd).2 hwhose
      have hsum : inI64 (existingQuantity ticketProductId buyerUserId (p₀ db₃) + body.quantity) :=
        hfits hwhose
      have hwithin : wrapI64 (existingQuantity ticketProductId buyerUserId (p₀ db₃) + body.quantity) ≤
          available.perUserLimit := of_decide_eq_true hwithin
      obtain rfl : t = tp := hoffered.unique t (List.mem_of_find?_eq_some ht)
        ((hoffered.productId_iff ht).mpr hwhose)
      rw [wrapI64_of_inI64 hsum, hlimit, hwhose] at hwithin
      show existingQuantity t.id buyerUserId (p₀ d) + body.quantity ≤ t.perUserLimit
      omega

end Reservations

/-! ### Issuance -/

section Issuance

variable {L : List (Lock Row)} {pending : Database → Database} {A : Database → Prop}

theorem safe_insertIssuances {context : Issuance.PaidOrderContext} {orderId owner : Uuid}
    {serial : Int} {idOf : Int → Uuid} {offset : Int} {count : Nat}
    {k : PUnit → Prog Database Row Site Result} (ht : Tracks tp L pending A) (hk : Sound tp pending A)
    (next : ∀ L' pending' B,
      Track.Hides part (Stocked tp) (Rely tp) (Moves tp False) L pending A L' pending' B →
      Outline tp (k ⟨⟩) L' pending' B) :
    Outline tp (Issuance.insertIssuances context orderId owner serial idOf offset count k) L pending A := by
  induction count generalizing L pending A offset with
  | zero => exact next _ _ _ (Track.hides_refl ht hk)
  | succ count ih =>
      refine safe_bind (safe_orElse fun _ _ => ?_)
      refine safe_bind (ht.safe_insertHidden hk (hidden fun _ _ => ⟨rfl, rfl, rfl⟩)
        fun L₁ p₁ A₁ h₁ => ?_)
      exact ih h₁.track h₁.keeps fun L' p' B h' => next L' p' B (h₁.trans h')

theorem prepareIssuance_outline (orderId : Uuid) (ids : Int → Uuid) :
    Outline tp (Issuance.prepareIssuance orderId ids).request [] id fun _ => True := by
  unfold Handler.request Issuance.prepareIssuance
  refine safe_bind (Track.start.safe_selectFor fun db₁ A₁ row hI₁ _ hrow h₁ => ?_)
  have hk₁ := (Keeps.start (I := Stocked tp) (R := Moves tp False)).mono h₁.before
  refine safe_bind (safe_orElse fun context hcontext => ?_)
  -- the reservation is locked from here on
  have hpaid : Issuance.paidOrderContext orderId db₁ = some context := hrow.trans hcontext
  obtain ⟨o, r, t, ho, hr, -, ht, hc⟩ := Issuance.paidOrderContext_eq hI₁.reservationIds hpaid
  have hid : r.id = context.reservationId := by rw [hc]
  have hrs : r.status = context.reservationStatus := by rw [hc]
  have hquantity : r.quantity = context.quantity := by rw [hc]
  have hproductId : context.productId = t.productId := by rw [hc]
  have hproduct : context.productId = tp.productId ↔ r.ticketProductId = tp.id := by
    rw [hproductId]
    exact hI₁.offered.productId_iff ht
  have hreservation (d : Database) (hd : A₁ d) :
      reservationTable.find d context.reservationId = some r := by
    refine ((h₁.seen d hd).find reservationLayout (m := .update) ?_ rfl).trans hr
    rw [List.nil_append]
    show _ ∈ ((Issuance.paidOrderContext orderId db₁).map (·.locks orderId)).getD []
    rw [hpaid]
    exact List.mem_cons_of_mem _ List.mem_cons_self
  refine safe_bind (safe_select h₁.track.stable fun _ _ _ _ _ => ?_)
  refine safe_ite (fun _ => ?_) fun _ =>
    safe_bind (h₁.track.safe_commitWithin hk₁ (fun _ _ hm => hm.rely False.elim) safe_ret)
  refine safe_bind (safe_require fun hready => ?_)
  simp only [Bool.and_eq_true, decide_eq_true_eq] at hready
  refine safe_bind (safe_select h₁.track.stable fun _ _ _ _ _ => ?_)
  refine safe_bind (safe_require fun _ => ?_)
  refine safe_bind (safe_select h₁.track.stable fun _ _ _ _ _ => ?_)
  refine safe_bind (safe_orElse fun owner _ => ?_)
  refine safe_bind (h₁.track.safe_selectFor fun db₂ A₂ _ _ _ _ h₂ => ?_)
  refine safe_bind (safe_select h₂.track.stable fun _ _ _ _ _ => ?_)
  refine safe_bind (safe_insertIssuances h₂.track (hk₁.mono h₂.before) fun L₃ p₃ A₃ h₃ => ?_)
  unfold updateInventory updateInventoryAt
  refine safe_bind (h₃.track.safe_update fun db₄ A₄ hI₄ hA₄ _ h₄ => ?_)
  refine safe_bind (safe_require fun hone => ?_)
  obtain ⟨i, hi, hadmits, hsame⟩ := updated_row (h₃.keeps db₄ hI₄ hA₄).1 hone h₄
  have ht₄ := h₄.track.modifyLocked inventoryLayout (f := fulfil context.quantity) (fun _ => rfl)
    fun i => ⟨_, List.mem_singleton.mpr rfl, rfl, rfl⟩
  refine safe_bind (ht₄.safe_update fun db₅ A₅ _ hA₅ _ h₅ => ?_)
  have ht₅ := h₅.track.modifyLocked reservationLayout (f := ({ · with status := .converted }))
    (fun _ => rfl) fun r => ⟨_, List.mem_singleton.mpr rfl, rfl, rfl⟩
  unfold Issuance.moveOrder
  refine safe_bind (ht₅.safe_update fun db₆ A₆ _ _ _ h₆ => ?_)
  have hbefore (d : Database) (hd : A₆ d) : A₄ d := h₅.before d (h₆.before d hd)
  have hfind (d : Database) (hd : A₄ d) : reservationTable.find (p₃ d) r.id = some r :=
    (h₃.find reservationLayout d _).trans
      (hid ▸ hreservation d (h₂.before d (h₃.before d (h₄.before d hd))))
  -- inventory, reservation and order change in one commit
  refine safe_bind ((track_setOrders h₆.track).safe_commitWithin (R := Moves tp False) ?_
    (fun _ _ hm => hm.rely False.elim) safe_ret)
  refine (h₃.keeps.mono fun d hd => h₄.before d (hbefore d hd)).change
    (f := fun x => setOrders _ .fulfilling _ (setReservations _ .converted _
      (inventoryTable.modify _ (fulfil context.quantity) _ x))) fun d _ hd hS => ?_
  have hcond : (fun s : Reservation => s.id = context.reservationId && s.status = .reserved) r = true := by
    simp [hid, hrs, hready.2]
  rw [← hquantity] at hadmits ⊢
  refine hS.convert (hfind d (hbefore d hd)) (hrs.trans hready.2) (hfind db₅ hA₅) hcond
    (fun s hs => ?_) hproduct (hsame d (hbefore d hd)) hi hadmits rfl
  have hkey : s.id = context.reservationId := of_decide_eq_true (Bool.and_eq_true_iff.mp hs).1
  rw [hkey, hid]

end Issuance

/-! ### Everything else -/

/-- What the other requests do. -/
structure Aside (tp : TicketProduct) (L : List (Lock Row)) (db db' : Database) : Prop where
  framed : Framed part L db db'
  beside : Beside tp db db'

instance : Widening (Aside tp) where
  refl _ db := ⟨.refl, refl_of (Beside tp) db⟩
  trans _ _ _ _ h h' := ⟨h.framed.trans h'.framed, trans_of (Beside tp) h.beside h'.beside⟩
  mono _ _ _ _ hsub h := ⟨h.framed.mono hsub, h.beside⟩

/-- A change of other tables. -/
theorem Aside.hidden {L : List (Lock Row)} {db db' : Database}
    (hoffered : Offered tp db.catalogue → Offered tp db'.catalogue)
    (hreservations : db'.reservations = db.reservations) (hinventory : db'.inventory = db.inventory) :
    Aside tp L db db' where
  framed k _ := by
    cases k with
    | inventory id => exact congrArg Part.inventory (congrArg (List.find? _) hinventory)
    | reservation id => exact congrArg Part.reservation (congrArg (List.find? _) hreservations)
    | _ => rfl
  beside := ⟨hoffered, hreservations, by rw [hinventory], congrArg (List.find? _) hinventory⟩

theorem spares_aside : Spares (Covered tp.productId) (Aside tp) where
  other _ := trivial
  event _ _ := trivial
  attempts _ _ _ := .hidden (fun h => h) rfl rfl
  events _ _ _ := .hidden (fun h => h) rfl rfl
  intents _ _ _ := .hidden (fun h => h) rfl rfl
  transactions _ _ _ := .hidden (fun h => h) rfl rfl
  evidence _ _ _ := .hidden (fun h => h) rfl rfl
  results _ _ _ := .hidden (fun h => h) rfl rfl
  cursors _ _ _ := .hidden (fun h => h) rfl rfl
  pays _ _ _ := .hidden (fun h => h) rfl rfl

/-- A request whose changes are aside. -/
theorem aside_outline {p : Prog Database Row Site Result}
    (h : p.Bounded (SumsFit tp.id) (Covered tp.productId) (Aside tp)) :
    Outline tp p [] id fun _ => True :=
  h.safeRequest (fun _ _ _ ha hS => ha.beside.stocked hS)
    fun _ _ _ ha _ => ⟨ha.framed, fun _ buyer => (ha.beside.holdings buyer).le⟩

section Aside

variable {ok : Site → Database → Prop}

/-- An update of the inventory of another product. -/
theorem bounded_updateInventory {map : SqlError → ApiError} {productId : Uuid}
    {admits : Inventory → Bool} {change : Inventory → Inventory}
    (hchange : ∀ i, (change i).productId = i.productId) (hne : productId ≠ tp.productId) :
    Tx.Bounded ok (Covered tp.productId) (Aside tp) (updateInventory map productId admits change) := by
  unfold updateInventory updateInventoryAt
  refine .update fun view _ db => ⟨inventoryLayout.framed_modify hchange fun i hi => ?_, ?_⟩
  · exact ⟨_, List.mem_flatMap.mpr ⟨i, hi, List.mem_singleton.mpr rfl⟩, rfl, rfl⟩
  · exact beside_inventory hchange
      (fun i hi => of_decide_eq_true (Bool.and_eq_true_iff.mp hi).1) hne

theorem bounded_createOrder {sha256 : Sha256} {actorUserId organizationId : Uuid}
    {body : Orders.CreateOrderRequest} {orderId itemId : Uuid} (hne : body.productId ≠ tp.productId) :
    (Orders.createOrder sha256 actorUserId organizationId body orderId itemId).request.Bounded ok
      (Covered tp.productId) (Aside tp) := by
  refine bounded_request ?_
  refine .bind spares_aside.toPays.requireEditor fun _ => .bind .require fun _ => .bind .ofExcept fun _ => ?_
  refine .bind .ofExcept fun _ => .bind .select fun _ => .bind .select fun existing => ?_
  cases existing with
  | some existing => exact .bind .require fun _ => .bind .commit fun _ => .pure
  | none =>
      refine .bind .select fun _ => .bind .orElse fun _ => .bind .require fun _ => ?_
      refine .bind .require fun _ => .bind .orElse fun _ => .bind .require fun _ => ?_
      refine .bind (.insertRow fun _ => .hidden (fun h => h) rfl rfl) fun _ => ?_
      refine .bind (.insertRow fun _ => .hidden (fun h => h) rfl rfl) fun _ => ?_
      refine .bind (.bind .select fun _ => .bind .require fun _ =>
        bounded_updateInventory (fun _ => rfl) hne) fun _ => ?_
      exact .bind .require fun _ => .bind .commit fun _ => .pure

theorem bounded_acceptOwnershipEvidence (issuanceId : Uuid) (body : Issuance.OwnershipEvidenceRequest)
    (evidenceId : Uuid) :
    (Issuance.acceptOwnershipEvidence issuanceId body evidenceId).request.Bounded ok
      (Covered tp.productId) (Aside tp) := by
  refine bounded_request ?_
  refine .bind .ofExcept fun _ => .bind .select fun _ => .bind .orElse fun _ => ?_
  refine .bind .select fun existing => ?_
  cases existing with
  | some existing => exact .bind .require fun _ => .bind .commit fun _ => .pure
  | none =>
      refine .bind .require fun _ => .bind .select fun _ => .bind .orElse fun _ => ?_
      refine .bind .require fun _ => ?_
      refine .bind (.insertRow fun _ => .hidden (fun h => h) rfl rfl) fun _ => ?_
      refine .bind (.update fun _ _ _ => .hidden (fun h => h) rfl rfl) fun _ => ?_
      have rest : Tx.Bounded ok (Covered tp.productId) (Aside tp) (do
          let view ← Tx.select .other (Issuance.loadOwnership issuanceId)
          Tx.require view.isSome (.error .notFound)
          Tx.commit
          return ⟨.created, issuanceId⟩ : Handler Response) :=
        .bind .select fun _ => .bind .require fun _ => .bind .commit fun _ => .pure
      refine .bind .select fun _ => .ite ?_ ?_
      · exact .bind (.update fun _ _ _ => .hidden (fun h => h) rfl rfl) fun _ => rest
      · exact rest

theorem bounded_environment {directory : Directory} {catalogue : Catalogue}
    (hoffered : Offered tp catalogue) :
    (environment directory catalogue).request.Bounded ok (Covered tp.productId) (Aside tp) := by
  refine bounded_request ?_
  refine .bind (.write fun _ _ => .hidden (fun _ => hoffered) rfl rfl) fun _ => ?_
  exact .bind .commit fun _ => .pure

end Aside

/-- The new row of an inventory violates nothing, so it is within its limit. -/
theorem inventoryViolation_within {i : Inventory} (h : inventoryViolation i = none) (limit : Int)
    (hlimit : i.supplyLimit = some limit) : i.reservedQuantity + i.fulfilledQuantity ≤ limit := by
  unfold inventoryViolation at h
  split at h
  · cases h
  · split at h
    · cases h
    · simp only [hlimit] at h
      split at h
      · cases h
      · omega

/-- A new limit of the product that covers what is reserved and fulfilled. -/
theorem Stocked.setLimit {db view : Database} (h : Stocked tp db) {productId : Uuid}
    {supplyLimit : Option Int} {i : Inventory} (hi : inventoryTable.find db productId = some i)
    (hview : inventoryTable.find view productId = some i)
    (hwithin : ∀ limit, supplyLimit = some limit → i.reservedQuantity + i.fulfilledQuantity ≤ limit) :
    Stocked tp (inventoryTable.modify (fun i => i.productId = productId && true)
      ({ · with supplyLimit }) view db) := by
  refine h.change 0 0 rfl h.reservationIds
    (inventoryTable.keys_modify fun _ => rfl) h.quantities (add_zero _).symm (add_zero _).symm ?_
    h.holdings
  by_cases hwhose : productId = tp.productId
  · subst hwhose
    have hi' := find_updateInventory (fun _ => true) (f := ({ · with supplyLimit })) (fun _ => rfl) hi
      hview rfl
    exact .inr ⟨i, _, hi, hi', (add_zero _).symm, (add_zero _).symm, hwithin⟩
  · exact .inl ⟨rfl, rfl, find_updateInventory_of_ne (f := ({ · with supplyLimit })) (fun _ => rfl) hwhose⟩

/-- A product gets its inventory. -/
theorem Stocked.addInventory {db : Database} (h : Stocked tp db) {i : Inventory}
    (hnew : inventoryTable.find db i.productId = none) (hreserved : i.reservedQuantity = 0)
    (hfulfilled : i.fulfilledQuantity = 0) (hlimit : ∀ limit, i.supplyLimit = some limit → 0 ≤ limit) :
    Stocked tp (inventoryTable.add i db) := by
  have hcounter (count : Inventory → Int) (hzero : count i = 0) :
      counter count tp.productId (inventoryTable.add i db) = counter count tp.productId db := by
    by_cases hwhose : i.productId = tp.productId
    · rw [counter, counter, ← hwhose, inventoryTable.find_add, hnew, Option.none_or,
        show inventoryTable.key i = i.productId from rfl, if_pos rfl, Option.map_some,
        Option.getD_some, hzero]
      rfl
    · exact counter_congr (inventoryTable.find_add_of_ne hwhose)
  refine ⟨h.offered, h.reservationIds,
    inventoryTable.nodup_add h.productIds (inventoryTable.find_none hnew), h.quantities, ?_, ?_,
    fun j hj limit hlim => ?_, h.holdings⟩
  · rw [hcounter _ hreserved]
    exact h.reserved
  · rw [hcounter _ hfulfilled]
    exact h.fulfilled
  · rcases inventoryTable.of_find_add hj with hold | ⟨-, -, rfl⟩
    · exact h.within j hold limit hlim
    · rw [hreserved, hfulfilled]
      exact hlimit limit hlim

theorem setSupplyLimit_outline (productId : Uuid) {supplyLimit : Option Int}
    (hlimit : ∀ limit, supplyLimit = some limit → 0 ≤ limit) :
    Outline tp (setSupplyLimit productId supplyLimit).request [] id fun _ => True := by
  unfold Handler.request setSupplyLimit
  refine safe_bind (Track.start.safe_selectFor fun db₁ A₁ row hI₁ _ hrow h₁ => ?_)
  cases row with
  | some i =>
    have hrow : inventoryTable.find db₁ productId = some i := hrow
    obtain ⟨hmem, hkey⟩ := inventoryTable.find_mem hrow
    have hkey : i.productId = productId := hkey
    have hsame (d : Database) (hd : A₁ d) : inventoryTable.find d productId = some i := by
      refine ((h₁.seen d hd).find inventoryLayout (m := .update) ?_ rfl).trans hrow
      rw [List.nil_append]
      show _ ∈ (inventoryTable.find db₁ productId).toList.map _
      rw [hrow, ← hkey]
      exact List.mem_singleton.mpr rfl
    unfold updateInventory updateInventoryAt
    refine safe_bind (h₁.track.safe_updateChecked fun db₂ A₂ _ hA₂ hcheck h₂ => ?_)
    have hmatch : i ∈ inventoryTable.matching (fun i => i.productId = productId && true) db₂ := by
      refine inventoryTable.mem_matching.mpr ⟨(inventoryTable.find_mem (hsame db₂ hA₂)).1, ?_⟩
      rw [Bool.and_true]
      exact decide_eq_true hkey
    have hwithin := inventoryViolation_within (raise_none (hcheck i hmatch))
    have ht₂ := h₂.track.modifyLocked inventoryLayout (f := ({ · with supplyLimit })) (fun _ => rfl)
      fun i => ⟨_, List.mem_singleton.mpr rfl, rfl, rfl⟩
    refine safe_bind (ht₂.safe_commitWithin (R := Moves tp False) (fun d hI hd => ?_)
      (fun _ _ hm => hm.rely False.elim) safe_ret)
    exact ⟨hI.setLimit (hsame d (h₂.before d hd)) (hsame db₂ hA₂) hwithin, .inr fun _ => le_refl _⟩
  | none =>
    refine safe_bind (h₁.track.safe_insertRow fun db₂ A₂ _ hA₂ hviolation h₂ => ?_)
    have hnew (d : Database) (hd : A₂ d) : inventoryTable.find d productId = none := by
      refine ((h₂.seen d hd).find inventoryLayout (m := .update)
        (List.mem_append_right _ List.mem_cons_self) rfl).trans ?_
      show inventoryTable.find db₂ productId = none
      cases hfound : inventoryTable.find db₂ productId with
      | none => rfl
      | some j => simp [hfound] at hviolation
    refine safe_bind ((h₂.track.add inventoryLayout
      (List.mem_append_right _ List.mem_cons_self)).safe_commitWithin (R := Moves tp False)
      (fun d hI hd => ?_) (fun _ _ hm => hm.rely False.elim) safe_ret)
    exact ⟨hI.addInventory (hnew d hd) rfl rfl hlimit, .inr fun _ => le_refl _⟩

end CrownFi.Commerce.Stock
