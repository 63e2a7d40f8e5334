import CrownFi.Commerce.Invariant

/-!
# CrownFi.Commerce.Sweep

**Outlines of the statements that move orders and reservations**: the expiry sweep, the
insertion of orders and reservations, and the updates of an order's status.
-/

namespace CrownFi.Commerce

open Lib CrownFi.Api Ticketing

/-! ### The conditions -/

/-- When the sweep updates an order, the order is not paid. -/
def SweepsUnpaid (site : Site) (db : Database) : Prop :=
  ∀ id, site = .sweepOrder id → ∀ o, orderTable.find db id = some o → ¬ o.status.Paid

/-- When a provider event updates an order, the order does not await a payment. -/
def EventsUnpayable (site : Site) (db : Database) : Prop :=
  ∀ id, site = .eventOrder id → ∀ o, orderTable.find db id = some o → o.status ≠ .awaitingPayment

/-- The conditions, as far as they are assumed. -/
def Condition (held evidenced : Prop) (site : Site) (db : Database) : Prop :=
  (held → SweepsUnpaid site db) ∧ (evidenced → EventsUnpayable site db)

variable {held evidenced : Prop}

/-- An outline of the rest of a request. -/
abbrev Outline (held evidenced : Prop) :
    Prog Database Row Site Result → List (Lock Row) → (Database → Database) → (Database → Prop) → Prop :=
  Safe (Inv held evidenced) (Forward part fun _ => Progress) (Condition held evidenced)

abbrev Tracks (held evidenced : Prop) :
    List (Lock Row) → (Database → Database) → (Database → Prop) → Prop :=
  Track part (Inv held evidenced) fun _ => Progress

abbrev Sound (held evidenced : Prop) : (Database → Database) → (Database → Prop) → Prop :=
  Keeps (Inv held evidenced) Progress

/-- The tables that the invariant does not speak of. -/
theorem hidden {ι α : Type} {T : Table Database Row ι α}
    (h : ∀ db l, (T.put db l).orders = db.orders ∧ (T.put db l).reservations = db.reservations ∧
      (T.put db l).intents = db.intents ∧ (T.put db l).results = db.results) :
    Hidden part (Inv held evidenced) Progress T where
  part_put db l k := by
    obtain ⟨ho, hr, hi, -⟩ := h db l
    cases k with
    | order id =>
        show Part.order ((T.put db l).orders.find? _) = Part.order (db.orders.find? _)
        rw [ho]
    | reservation id =>
        show Part.reservation ((T.put db l).reservations.find? _) =
          Part.reservation (db.reservations.find? _)
        rw [hr]
    | intent id =>
        show Part.intent ((T.put db l).intents.find? _) = Part.intent (db.intents.find? _)
        rw [hi]
    | _ => rfl
  keeps db l hI := by
    obtain ⟨ho, hr, hi, hs⟩ := h db l
    exact hI.of_same ho hr hi hs

section Statements

variable {L : List (Lock Row)} {pending : Database → Database} {A : Database → Prop}

theorem safe_updateInventoryAt {site : Site} {map : SqlError → ApiError} {productId : Uuid}
    {admits : Inventory → Bool} {change : Inventory → Inventory} {k : Nat → Prog Database Row Site Result}
    (ht : Tracks held evidenced L pending A) (hk : Sound held evidenced pending A)
    (next : ∀ n L' pending' B,
      Track.Hides part (Inv held evidenced) (fun _ => Progress) Progress L pending A L' pending' B →
      Outline held evidenced (k n) L' pending' B) :
    Outline held evidenced (updateInventoryAt site map productId admits change k) L pending A :=
  ht.safe_updateHidden hk (hidden fun _ _ => ⟨rfl, rfl, rfl, rfl⟩) next

theorem safe_updateInventory {map : SqlError → ApiError} {productId : Uuid} {admits : Inventory → Bool}
    {change : Inventory → Inventory} {k : Nat → Prog Database Row Site Result}
    (ht : Tracks held evidenced L pending A) (hk : Sound held evidenced pending A)
    (next : ∀ n L' pending' B,
      Track.Hides part (Inv held evidenced) (fun _ => Progress) Progress L pending A L' pending' B →
      Outline held evidenced (k n) L' pending' B) :
    Outline held evidenced (updateInventory map productId admits change k) L pending A :=
  safe_updateInventoryAt ht hk next

theorem safe_reserveInventory {map : SqlError → ApiError} {productId : Uuid} {quantity : Int}
    {k : Nat → Prog Database Row Site Result}
    (ht : Tracks held evidenced L pending A) (hk : Sound held evidenced pending A)
    (next : ∀ n L' pending' B,
      Track.Hides part (Inv held evidenced) (fun _ => Progress) Progress L pending A L' pending' B →
      Outline held evidenced (k n) L' pending' B) :
    Outline held evidenced (reserveInventory map productId quantity k) L pending A := by
  unfold reserveInventory
  refine safe_bind (safe_select ht.stable fun _ _ _ _ _ => ?_)
  exact safe_bind (safe_require fun _ => safe_updateInventory ht hk next)

/-! ### The expiry sweep -/

/-- A dead order stays dead, locked or not. -/
theorem stable_dead (ht : Tracks held evidenced L pending A) (id : Uuid) :
    Stable (Inv held evidenced) (Forward part fun _ => Progress) L fun db =>
      ∃ o, orderTable.find (pending db) id = some o ∧ o.status.Dead := by
  intro L' db db' hcompat _ _ hdead hG
  obtain ⟨o, ho, hdead⟩ := hdead
  by_cases hwritten : NotWritten L (.order id)
  · -- the transaction has not written the order: it sees what is committed
    rw [orderLayout.find_eq (ht.framed db _ hwritten)] at ho
    obtain ⟨o', ho', hlead⟩ := hG.moved.orders id o ho
    refine ⟨o', ?_, ?_⟩
    · rw [orderLayout.find_eq (ht.framed db' _ hwritten), ho']
    · rwa [hdead.leads hlead]
  · -- the transaction holds a write lock on the order
    simp only [NotWritten, not_forall] at hwritten
    obtain ⟨l, hl, hkey, hwrites⟩ := hwritten
    have hprotects : l.mode.protects = true := by
      revert hwrites
      cases l.mode <;> decide
    have hsame := ht.rowwise _ _ _ (hG.framed.locked hcompat hl hprotects)
    rw [hkey] at hsame
    exact ⟨o, (orderLayout.find_eq hsame).trans ho, hdead⟩

end Statements

/-- An order that an update matches is locked by it. -/
theorem mem_orderLocks {p : Order → Bool} {view : Database} {L : List (Lock Row)} {id : Uuid}
    {o : Order} (ho : orderTable.find view id = some o) (hp : p o = true) :
    ⟨.order id, .noKeyUpdate⟩ ∈
      L ++ (orderTable.matching p view).flatMap fun o => [⟨.order o.id, .noKeyUpdate⟩] := by
  obtain ⟨hmem, rfl⟩ := orderTable.find_mem ho
  exact List.mem_append_right _ (List.mem_flatMap.mpr
    ⟨o, orderTable.mem_matching.mpr ⟨hmem, hp⟩, List.mem_singleton.mpr rfl⟩)

/-- What the sweep knows of a hold: the reservation, and its order. -/
def Holds (db : Database) (h : ExpiredHold) : Prop :=
  ∃ r, reservationTable.find db h.reservationId = some r ∧ r.orderId = h.orderId

theorem Holds.setReservations {p : Reservation → Bool} {status : ReservationStatus}
    {view db : Database} {h : ExpiredHold} (hh : Holds db h) :
    Holds (setReservations p status view db) h := by
  obtain ⟨r, hr, horder⟩ := hh
  rw [Holds, reservationTable.find_modify (f := ({ · with status })) fun _ => rfl, hr,
    Option.map_some]
  refine ⟨_, rfl, ?_⟩
  split
  · exact horder
  · exact horder

/-- The orders that the sweep updates. -/
abbrev sweepMatches (orderId : Uuid) (o : Order) : Bool :=
  o.id = orderId && o.status = .awaitingPayment

theorem sweepMatches_iff {orderId : Uuid} {o : Order} :
    sweepMatches orderId o = true ↔ o.id = orderId ∧ o.status = .awaitingPayment := by
  simp [sweepMatches]

theorem fits_expired {s : OrderStatus} (h : held → s.Dead) : Fits held .expired s where
  converted hr := by cases hr
  released hheld _ := h hheld

/-- **The order of a released hold is dead** in the end, whatever happens in between: either
it awaited payment and the sweep has it locked, or it was dead and stays so. -/
theorem fate {L : List (Lock Row)} {pending : Database → Database} {A : Database → Prop}
    (ht : Tracks held evidenced L pending A) {id : Uuid} {o : Order} (db : Database)
    (ho : orderTable.find (pending db) id = some o) (hunpaid : held → ¬ o.status.Paid)
    (hlock : o.status = .awaitingPayment → ⟨.order id, .noKeyUpdate⟩ ∈ L) :
    ∃ B : Database → Prop, B db ∧ Stable (Inv held evidenced) (Forward part fun _ => Progress) L B ∧
      ∀ d, B d → (∃ o, orderTable.find (pending d) id = some o) → ∃ o,
        orderTable.find (setOrders (sweepMatches id) .expired (pending db) (pending d)) id = some o ∧
          Fits held .expired o.status := by
  by_cases hstatus : o.status = .awaitingPayment
  · refine ⟨_, .refl, ht.stable_seen (pending db), fun d hseen _ => ?_⟩
    have hfind := (hseen.find orderLayout (hlock hstatus) rfl).trans ho
    have hid : o.id = id := (orderTable.find_mem ho).2
    have hmatch : o ∈ orderTable.matching (sweepMatches id) (pending db) := by
      exact orderTable.mem_matching.mpr ⟨(orderTable.find_mem ho).1, sweepMatches_iff.mpr ⟨hid, hstatus⟩⟩
    have hmem : o.id ∈ (orderTable.matching (sweepMatches id) (pending db)).map (·.id) :=
      List.mem_map.mpr ⟨o, hmatch, rfl⟩
    rw [find_setOrders, hfind, Option.map_some, if_pos]
    · exact ⟨_, rfl, fits_expired fun _ => (by decide : OrderStatus.Dead .expired)⟩
    · simp only [Bool.and_eq_true, decide_eq_true_eq]
      exact ⟨⟨hid, hstatus⟩, hmem⟩
  · have hprog (d : Database) : Progress (pending d)
        (setOrders (sweepMatches id) .expired (pending db) (pending d)) :=
      .moveOrders (fun o ho => (sweepMatches_iff.mp ho).2) (.inr (.inl rfl))
    by_cases hheld : held
    · refine ⟨_, ⟨o, ho, hunpaid hheld, hstatus⟩, stable_dead ht id, fun d hdead _ => ?_⟩
      obtain ⟨o', ho', hdead⟩ := hdead
      obtain ⟨o'', ho'', hlead⟩ := (hprog d).orders id o' ho'
      refine ⟨o'', ho'', fits_expired fun _ => ?_⟩
      rwa [hdead.leads hlead]
    · refine ⟨fun _ => True, trivial, stable_true, fun d _ hfound => ?_⟩
      obtain ⟨o', ho'⟩ := hfound
      obtain ⟨o'', ho'', -⟩ := (hprog d).orders id o' ho'
      exact ⟨o'', ho'', fits_expired fun h => absurd h hheld⟩

theorem safe_releaseHold {L : List (Lock Row)} {pending : Database → Database}
    {A : Database → Prop} {h : ExpiredHold} {k : PUnit → Prog Database Row Site Result}
    (ht : Tracks held evidenced L pending A) (hk : Sound held evidenced pending A)
    (hh : ∀ d, A d → Holds (pending d) h)
    (next : ∀ L' pending' B, Tracks held evidenced L' pending' B →
      Sound held evidenced pending' B →
      (∀ d h', B d → (∀ d, A d → Holds (pending d) h') → Holds (pending' d) h') →
      Outline held evidenced (k ⟨⟩) L' pending' B) :
    Outline held evidenced (releaseHold h k) L pending A := by
  unfold releaseHold
  refine safe_bind (ht.safe_update fun db₀ B₀ _ _ _ h₀ => ?_)
  have ht₁ := h₀.track.modifyLocked reservationLayout (f := ({ · with status := .expired }))
    (fun _ => rfl) fun r => ⟨_, List.mem_singleton.mpr rfl, rfl, rfl⟩
  refine safe_bind (Lib.safe_update fun db₁ hI₁ hB₁ hok₁ => ?_)
  -- the order that the second statement sees
  obtain ⟨r, hr, horder⟩ := hh db₁ (h₀.before db₁ hB₁)
  obtain ⟨o, ho, -⟩ := (hk db₁ hI₁ (h₀.before db₁ hB₁)).1.fits _ r hr
  rw [horder] at ho
  have hlocked := ht₁.lock (L := (orderTable.matching (sweepMatches h.orderId)
    (setReservations (·.id = h.reservationId) .expired (pending db₀) (pending db₁))).flatMap
      fun o => [⟨.order o.id, .noKeyUpdate⟩])
  obtain ⟨F, hF, hstable, hfate⟩ := fate hlocked db₁ ho
    (fun hheld => hok₁.1 hheld _ rfl o ho) fun hstatus =>
      mem_orderLocks ho (sweepMatches_iff.mpr ⟨(orderTable.find_mem ho).2, hstatus⟩)
  have ht₂ := (hlocked.and hstable).modifyLocked orderLayout
    (f := ({ · with status := .expired })) (fun _ => rfl)
    fun o => ⟨_, List.mem_singleton.mpr rfl, rfl, rfl⟩
  refine ⟨_, ⟨hB₁, hF⟩, ht₂.stable, ?_⟩
  -- the two updates together keep the invariant
  have hk₂ : Sound held evidenced (fun d => setOrders (sweepMatches h.orderId) .expired
      (setReservations (·.id = h.reservationId) .expired (pending db₀) (pending db₁))
      (setReservations (·.id = h.reservationId) .expired (pending db₀) (pending d)))
      fun d => B₀ d ∧ F d := by
    refine (hk.mono fun d hd => h₀.before d hd.1).change
      (f := fun x => setOrders _ _ _ (setReservations _ _ _ x)) fun d hI hd hIp => ?_
    refine hIp.moveBoth (s := .awaitingPayment) (fun o ho => (sweepMatches_iff.mp ho).2)
      (.inr (.inl rfl)) (by decide) fun id r hr hid => ?_
    obtain ⟨r', hr', horder'⟩ := hh d (h₀.before d hd.1)
    have hrid : r.id = id := (reservationTable.find_mem hr).2
    obtain rfl : id = h.reservationId := hrid.symm.trans (of_decide_eq_true hid)
    obtain rfl := Option.some.inj (hr.symm.trans hr')
    obtain ⟨o', ho', -⟩ := hIp.fits _ r hr
    rw [horder'] at ho' ⊢
    exact hfate d hd.2 ⟨o', ho'⟩
  refine safe_bind (safe_updateInventoryAt ht₂ hk₂ fun n L' pending' B h₃ => ?_)
  refine next _ _ _ h₃.track h₃.keeps fun d h' hd hh' => ?_
  have hmoved : Holds (setReservations (·.id = h.reservationId) .expired (pending db₀) (pending d)) h' :=
    (hh' d (h₀.before d (h₃.before d hd).1)).setReservations
  obtain ⟨r', hr', horder'⟩ := hmoved
  exact ⟨r', (h₃.find reservationLayout d _).trans hr', horder'⟩

theorem safe_releaseHolds {holds : List ExpiredHold} {L : List (Lock Row)}
    {pending : Database → Database} {A : Database → Prop} {k : PUnit → Prog Database Row Site Result}
    (ht : Tracks held evidenced L pending A) (hk : Sound held evidenced pending A)
    (hh : ∀ h ∈ holds, ∀ d, A d → Holds (pending d) h)
    (next : ∀ L' pending' B, Tracks held evidenced L' pending' B →
      Sound held evidenced pending' B → Outline held evidenced (k ⟨⟩) L' pending' B) :
    Outline held evidenced (releaseHolds holds k) L pending A := by
  induction holds generalizing L pending A with
  | nil => exact next _ _ _ ht hk
  | cons h rest ih =>
      refine safe_bind (safe_releaseHold ht hk (hh h (by simp)) fun L' pending' B ht' hk' hholds => ?_)
      refine ih ht' hk' fun h' hmem d hd => ?_
      exact hholds d h' hd (hh h' (List.mem_cons_of_mem _ hmem))

theorem mem_expiredHolds {ticketProductId : Uuid} {now : Int} {db : Database} {h : ExpiredHold}
    (hh : h ∈ expiredHolds ticketProductId now db) :
    ∃ r ∈ db.reservations, r.id = h.reservationId ∧ r.orderId = h.orderId := by
  simp only [expiredHolds, List.mem_filterMap, List.mem_filter, Option.map_eq_some_iff] at hh
  obtain ⟨r, ⟨hr, -⟩, tp, -, rfl⟩ := hh
  exact ⟨r, hr, rfl, rfl⟩

theorem safe_releaseExpiredForProduct {ticketProductId : Uuid} {now : Int}
    {k : PUnit → Prog Database Row Site Result}
    (next : ∀ L' pending' B, Tracks held evidenced L' pending' B →
      Sound held evidenced pending' B → Outline held evidenced (k ⟨⟩) L' pending' B) :
    Outline held evidenced (releaseExpiredForProduct ticketProductId now k) [] id fun _ => True := by
  unfold releaseExpiredForProduct
  refine safe_bind (Track.start.safe_selectFor fun db B expired hI _ hexpired h => ?_)
  refine safe_releaseHolds h.track (Keeps.start.mono h.before) (fun e he d hd => ?_) next
  subst hexpired
  obtain ⟨r, hr, hid, horder⟩ := mem_expiredHolds he
  have hfind : reservationTable.find db e.reservationId = some r := by
    rw [← hid]
    exact reservationTable.find_of_mem hI.reservationIds hr
  refine ⟨r, ?_, horder⟩
  refine ((h.seen d hd).find reservationLayout (m := .update) ?_ rfl).trans hfind
  exact List.mem_append_right _ (List.mem_map.mpr ⟨e, he, rfl⟩)

/-! ### New orders and reservations -/

section Inserts

variable {L : List (Lock Row)} {pending : Database → Database} {A : Database → Prop}
  {k : PUnit → Prog Database Row Site Result}

theorem orderViolation_new {o : Order} {db : Database} (h : orderViolation o db = none) :
    orderTable.find db o.id = none := by
  unfold orderViolation at h
  split at h
  · cases h
  · rename_i hany
    refine List.find?_eq_none.mpr fun p hp hid => hany (List.any_eq_true.mpr ⟨p, hp, ?_⟩)
    simp only [Bool.or_eq_true]
    exact .inl hid

theorem raise_none {map : SqlError → ApiError} {e : Option SqlError} (h : raise map e = none) :
    e = none := Option.map_eq_none_iff.mp h

theorem safe_insertOrder {map : SqlError → ApiError} {o : Order} (hstatus : o.status = .awaitingPayment)
    (ht : Tracks held evidenced L pending A) (hk : Sound held evidenced pending A)
    (next : ∀ L' pending' B, Tracks held evidenced L' pending' B →
      Sound held evidenced pending' B → (∀ d, B d → orderTable.find (pending' d) o.id = some o) →
      Outline held evidenced (k ⟨⟩) L' pending' B) :
    Outline held evidenced (insertOrder map o k) L pending A := by
  unfold insertOrder
  refine ht.safe_insertRow fun db B hI hA hv h => ?_
  have hnone (d : Database) (hd : B d) : orderTable.find (pending d) o.id = none :=
    ((h.seen d hd).find orderLayout (m := .update) (by simp [orderTable]) rfl).trans
      (orderViolation_new (raise_none hv))
  refine next _ _ _ (h.track.add orderLayout (by simp [orderTable])) ?_ fun d hd => ?_
  · exact (hk.mono h.before).change fun d _ hd hIp => hIp.addOrder (hnone d hd) hstatus
  · rw [orderTable.find_add, hnone d hd, Option.none_or]
    exact if_pos rfl

theorem reservationViolation_new {r : Reservation} {db : Database}
    (h : reservationViolation r db = none) : reservationTable.find db r.id = none := by
  unfold reservationViolation at h
  split at h
  · cases h
  · rename_i hany
    refine List.find?_eq_none.mpr fun s hs hid => hany (List.any_eq_true.mpr ⟨s, hs, ?_⟩)
    simp only [Bool.or_eq_true]
    exact .inl (.inl hid)

theorem safe_insertReservation {r : Reservation} (hstatus : r.status = .reserved)
    (ht : Tracks held evidenced L pending A) (hk : Sound held evidenced pending A)
    (horder : ∀ d, A d → ∃ o, orderTable.find (pending d) r.orderId = some o)
    (next : ∀ L' pending' B, Tracks held evidenced L' pending' B →
      Sound held evidenced pending' B → Outline held evidenced (k ⟨⟩) L' pending' B) :
    Outline held evidenced (insertReservation r k) L pending A := by
  unfold insertReservation
  refine ht.safe_insertRow fun db B hI hA hv h => ?_
  refine next _ _ _ (h.track.add reservationLayout (by simp [reservationTable])) ?_
  refine (hk.mono h.before).change fun d _ hd hIp => ?_
  refine hIp.addReservation ?_ hstatus (horder d (h.before d hd))
  exact ((h.seen d hd).find reservationLayout (m := .update) (by simp [reservationTable]) rfl).trans
    (reservationViolation_new (raise_none hv))

/-- An update of an order's status that does not pay the order. -/
theorem safe_moveOrder {orderId : Uuid} {source target : OrderStatus}
    {k : Nat → Prog Database Row Site Result} (hlead : source.Leads target)
    (hpaid : target.Paid → source.Paid)
    (ht : Tracks held evidenced L pending A) (hk : Sound held evidenced pending A)
    (next : ∀ n L' pending' B, Tracks held evidenced L' pending' B →
      Sound held evidenced pending' B → Outline held evidenced (k n) L' pending' B) :
    Outline held evidenced (Issuance.moveOrder orderId source target k) L pending A := by
  unfold Issuance.moveOrder
  refine ht.safe_update fun db B _ _ _ h => ?_
  refine next _ _ _ _ (h.track.modifyLocked orderLayout (f := ({ · with status := target }))
    (fun _ => rfl) fun o => ⟨_, List.mem_singleton.mpr rfl, rfl, rfl⟩) ?_
  refine (hk.mono h.before).change fun d _ _ hIp => ?_
  refine hIp.moveOrders (s := source) (fun o ho => ?_) hlead fun _ htarget hsource =>
    absurd (hpaid htarget) hsource
  simpa using (Bool.and_eq_true_iff.mp ho).2

end Inserts

end CrownFi.Commerce
