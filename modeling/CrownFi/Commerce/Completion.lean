import CrownFi.Commerce.Payments
import CrownFi.Lib.Locking
import CrownFi.Lib.Tracking

/-!
# CrownFi.Commerce.Completion

**Orders for several tickets.** The evidence of a mint issues one ticket, counts the tickets of the
order that are not issued, and fulfils the order if there is none. The count leaves out the mints of
transactions that are still running. So two of them may each count the ticket of the other, and the
order stays unfulfilled although all of its tickets are issued. For this both have to count before
either of them ends: in every schedule that is also possible if counting locked the order until the
end of the transaction, an order is fulfilled once all of its tickets are issued
(`orders_complete`).
-/

namespace CrownFi.Commerce.Completion

open Lib CrownFi.Api Issuance

/-! ### The condition -/

/-- The lock that the handler would need: on the order, from the counting of its tickets to the end
of the request. -/
def orderLocks : Site → List (Lock Row)
  | .counting orderId => [⟨.order orderId, .update⟩]
  | _ => []

/-- The evidence of mints. -/
inductive Mints : Prog Database Row Site Result → Prop
  | acceptOwnershipEvidence (issuanceId : Uuid) (body : OwnershipEvidenceRequest) (evidenceId : Uuid) :
      Mints (acceptOwnershipEvidence issuanceId body evidenceId).request

/-! ### Orders with tickets -/

/-- The tickets of an order. -/
def ticketsOf (orderId : Uuid) (db : Database) : List TicketIssuance :=
  db.issuances.filter (·.orderId = orderId)

/-- What orders with tickets are like: they are being fulfilled, or they are fulfilled; and they are
if all of their tickets are issued. -/
structure Converted (db : Database) : Prop where
  issuanceIds : (db.issuances.map (·.id)).Nodup
  served : ∀ i ∈ db.issuances, ∃ o, orderTable.find db i.orderId = some o ∧
    (o.status = .fulfilling ∨ o.status = .fulfilled)
  complete : ∀ i ∈ db.issuances, (∀ j ∈ ticketsOf i.orderId db, j.status = .issued) →
    ∀ o, orderTable.find db i.orderId = some o → o.status = .fulfilled

variable {db db' d view : Database} {issuanceId orderId : Uuid} {L : List (Lock Row)}

theorem remainingIssuances_eq_zero :
    remainingIssuances orderId db = 0 ↔ ∀ i ∈ ticketsOf orderId db, i.status = .issued := by
  rw [remainingIssuances, List.length_eq_zero_iff, List.filter_eq_nil_iff]
  simp only [ticketsOf, List.mem_filter, decide_eq_true_eq, Bool.and_eq_true, decide_not,
    Bool.not_eq_true', decide_eq_false_iff_not, not_and, not_not, and_imp]

/-- What a mint writes to its ticket. -/
def minted (mint : OwnershipClaim) (evidenceId : Uuid) (i : TicketIssuance) : TicketIssuance :=
  { i with status := .issued, tokenId := some mint.tokenId
           issuanceTxHash := some mint.transactionHash, acceptedEvidenceId := some evidenceId }

section Mint

variable {mint : OwnershipClaim} {evidenceId : Uuid} {i : TicketIssuance}

/-- The tickets of an order after a mint. -/
theorem ticketsOf_minted (hissuances : db'.issuances =
      updateWhere (·.id = issuanceId) (minted mint evidenceId) db.issuances) :
    ticketsOf orderId db' =
      updateWhere (·.id = issuanceId) (minted mint evidenceId) (ticketsOf orderId db) := by
  rw [ticketsOf, hissuances]
  exact filter_updateWhere (f := minted mint evidenceId) fun _ => rfl

/-- Another order's tickets are the same. -/
theorem Converted.ticketsOf_other (h : Converted db) (hi : issuanceTable.find db issuanceId = some i)
    (hissuances : db'.issuances =
      updateWhere (·.id = issuanceId) (minted mint evidenceId) db.issuances)
    (hne : orderId ≠ i.orderId) : ticketsOf orderId db' = ticketsOf orderId db := by
  rw [ticketsOf_minted hissuances]
  refine updateWhere_eq_self fun j hj => decide_eq_false fun hid => hne ?_
  obtain ⟨hmem, horder⟩ := List.mem_filter.mp hj
  obtain ⟨hi, hiid⟩ := issuanceTable.find_mem hi
  obtain rfl : j = i := List.inj_on_of_nodup_map h.issuanceIds hmem hi (hid.trans hiid.symm)
  exact (of_decide_eq_true horder).symm

/-- **A ticket is issued**, and its order is fulfilled if it was the last. -/
theorem Converted.issue (h : Converted db) (hi : issuanceTable.find db issuanceId = some i)
    (hissuances : db'.issuances =
      updateWhere (·.id = issuanceId) (minted mint evidenceId) db.issuances)
    (hothers : ∀ id, id ≠ i.orderId → orderTable.find db' id = orderTable.find db id)
    (horder : ∃ o, orderTable.find db' i.orderId = some o ∧
      (o.status = .fulfilling ∨ o.status = .fulfilled) ∧
      (remainingIssuances i.orderId db' = 0 → o.status = .fulfilled)) : Converted db' := by
  obtain ⟨o, ho, hstatus, hlast⟩ := horder
  -- every ticket was there before, with its order
  have hbefore (j : TicketIssuance) (hj : j ∈ db'.issuances) :
      ∃ k ∈ db.issuances, k.orderId = j.orderId := by
    rw [hissuances] at hj
    obtain ⟨k, hk, rfl⟩ := mem_updateWhere.mp hj
    refine ⟨k, hk, ?_⟩
    split <;> rfl
  refine ⟨?_, fun j hj => ?_, fun j hj hall p hp => ?_⟩
  · rw [hissuances, map_updateWhere (f := minted mint evidenceId) fun _ => rfl]
    exact h.issuanceIds
  · obtain ⟨k, hk, hkj⟩ := hbefore j hj
    by_cases hsame : j.orderId = i.orderId
    · exact ⟨o, hsame ▸ ho, hstatus⟩
    · obtain ⟨p, hp, hpstatus⟩ := h.served k hk
      exact ⟨p, (hothers _ hsame).trans (hkj ▸ hp), hpstatus⟩
  · obtain ⟨k, hk, hkj⟩ := hbefore j hj
    by_cases hsame : j.orderId = i.orderId
    · rw [hsame] at hp hall
      obtain rfl := Option.some.inj (ho.symm.trans hp)
      exact hlast (remainingIssuances_eq_zero.mpr hall)
    · rw [h.ticketsOf_other hi hissuances hsame, ← hkj] at hall
      rw [hothers _ hsame, ← hkj] at hp
      exact h.complete k hk hall p hp

end Mint

/-! ### What locks protect -/

inductive Part
  | order (o : Option Order)
  | issuance (i : Option TicketIssuance)
  | other

def part (db : Database) : Row → Part
  | .order id => .order (orderTable.find db id)
  | .issuance id => .issuance (issuanceTable.find db id)
  | _ => .other

theorem orderLayout : Layout part orderTable Part.order where
  row _ _ := rfl
  injective _ _ h := Part.order.inj h
  other db l k hk := by
    cases k with
    | order id => exact absurd rfl (hk id)
    | _ => rfl

theorem issuanceLayout : Layout part issuanceTable Part.issuance where
  row _ _ := rfl
  injective _ _ h := Part.issuance.inj h
  other db l k hk := by
    cases k with
    | issuance id => exact absurd rfl (hk id)
    | _ => rfl

/-- The tickets of an order change only under a write lock on the order. -/
def Rely (L : List (Lock Row)) (db db' : Database) : Prop :=
  ∀ id, ¬ Written L (.order id) → ticketsOf id db' = ticketsOf id db

theorem stable_tickets {tickets : List TicketIssuance} (hlock : ⟨.order orderId, .update⟩ ∈ L) :
    Stable Converted (Forward part Rely) L fun d => ticketsOf orderId d = tickets :=
  fun _ _ _ hcompat _ _ htickets hG =>
    (hG.moved orderId (hcompat.not_writes hlock rfl).not_written).trans htickets

abbrev Outline :
    Prog Database Row Site Result → List (Lock Row) → (Database → Database) → (Database → Prop) → Prop :=
  Safe Converted (Forward part Rely) fun _ _ => True

/-! ### The outline -/

section Outline

variable {pending : Database → Database} {A : Database → Prop} {mint : OwnershipClaim} {evidenceId : Uuid}
  {issuance : TicketIssuance} {evidence : OwnershipEvidence}

/-- The changes of a mint up to the counting. -/
def issue (mint : OwnershipClaim) (evidence : OwnershipEvidence) (issuanceId evidenceId : Uuid)
    (view db : Database) : Database :=
  issuanceTable.modify (·.id = issuanceId) (minted mint evidenceId) (ownershipTable.add evidence view)
    (ownershipTable.add evidence db)

theorem issuances_issue (hview : issuanceTable.find db issuanceId = some issuance) :
    (issue mint evidence issuanceId evidenceId db d).issuances =
      updateWhere (·.id = issuanceId) (minted mint evidenceId) d.issuances := by
  refine congrArg Database.issuances (issuanceTable.modify_eq fun j _ hj => ?_)
  obtain ⟨hmem, hid⟩ := issuanceTable.find_mem hview
  refine List.mem_map.mpr ⟨issuance, issuanceTable.mem_matching.mpr ⟨hmem, decide_eq_true hid⟩, ?_⟩
  exact hid.trans (of_decide_eq_true hj).symm

theorem remaining_congr (h : ticketsOf orderId db = ticketsOf orderId d) :
    remainingIssuances orderId db = remainingIssuances orderId d := by
  have hfilter (db : Database) : remainingIssuances orderId db =
      ((ticketsOf orderId db).filter (·.status ≠ .issued)).length := by
    rw [ticketsOf, List.filter_filter, remainingIssuances]
    simp only [Bool.and_comm]
  rw [hfilter, hfilter, h]

/-- What is left after a mint depends on the tickets of the order alone. -/
theorem remaining_issue (hview : issuanceTable.find view issuanceId = some issuance)
    (h : ticketsOf orderId db = ticketsOf orderId d) :
    remainingIssuances orderId (issue mint evidence issuanceId evidenceId view db) =
      remainingIssuances orderId (issue mint evidence issuanceId evidenceId view d) := by
  refine remaining_congr ?_
  rw [ticketsOf_minted (issuances_issue hview), ticketsOf_minted (issuances_issue hview), h]

/-- The end of a request whose changes keep the invariant and the tickets of other orders. -/
theorem safe_end {r : Response} (ht : Track part Converted Rely L pending A)
    (hlock : ⟨.order orderId, .update⟩ ∈ L)
    (hinv : ∀ d, Converted d → A d → Converted (pending d))
    (htickets : ∀ d, Converted d → A d → ∀ id, id ≠ orderId → ticketsOf id (pending d) = ticketsOf id d) :
    Outline (((do
      let view ← Tx.select .other (loadOwnership issuanceId)
      Tx.require view.isSome (.error .notFound)
      Tx.commit
      return r : Handler Response) fun r => .ret (.ok r)).locking orderLocks) L pending A := by
  refine safe_plain (Tx.plain_stmt rfl) (safe_select ht.stable fun _ _ _ _ _ => ?_)
  refine safe_plain Tx.plain_require (safe_require fun _ => ?_)
  refine safe_plain Tx.plain_commit (Lib.safe_commit (fun d hI hd => ?_) safe_lockingRet)
  refine ⟨hinv d hI hd, ht.framed d, fun id hid => htickets d hI hd id fun heq => hid ?_⟩
  rw [heq]
  exact written_of_mem hlock rfl

/-- **From the counting to the end**: with the order locked, what is counted is what is left. -/
theorem safe_count {r : Response}
    (ht : Track part Converted Rely L (issue mint evidence issuanceId evidenceId view) A)
    (hview : issuanceTable.find view issuanceId = some issuance)
    (hissuance : ∀ d, A d → issuanceTable.find d issuanceId = some issuance) :
    Outline (((do
      let remaining ← Tx.select (.counting issuance.orderId) (remainingIssuances issuance.orderId)
      let _ ← if remaining = 0 then moveOrder issuance.orderId .fulfilling .fulfilled else pure 0
      let view ← Tx.select .other (loadOwnership issuanceId)
      Tx.require view.isSome (.error .notFound)
      Tx.commit
      return r : Handler Response) fun r => .ret (.ok r)).locking orderLocks) L
        (issue mint evidence issuanceId evidenceId view) A := by
  refine safe_lockingBind (safe_lockingStmt fun db hI hA _ => ?_)
  obtain ⟨B, hB, h, hcounted⟩ := ht.afterKnowing hA (L := [] ++ orderLocks (.counting issuance.orderId))
    (C := fun d => ticketsOf issuance.orderId d = ticketsOf issuance.orderId db) rfl
    (stable_tickets (List.mem_append_right _ (List.mem_singleton.mpr rfl)))
  refine ⟨B, hB, h.track.stable, ?_⟩
  have hlock : (⟨.order issuance.orderId, .update⟩ : Lock Row) ∈
      L ++ ([] ++ orderLocks (.counting issuance.orderId)) :=
    List.mem_append_right _ (List.mem_singleton.mpr rfl)
  have htickets (d : Database) (hI : Converted d) (hd : B d) (id : Uuid) (hne : id ≠ issuance.orderId) :
      ticketsOf id (issue mint evidence issuanceId evidenceId view d) = ticketsOf id d :=
    hI.ticketsOf_other (hissuance d (h.before d hd)) (issuances_issue hview) hne
  have hserved (d : Database) (hI : Converted d) (hd : B d) :=
    hI.served issuance (issuanceTable.find_mem (hissuance d (h.before d hd))).1
  generalize hn : remainingIssuances issuance.orderId
    (issue mint evidence issuanceId evidenceId view db) = n
  have hremaining (d : Database) (hd : B d) : remainingIssuances issuance.orderId
      (issue mint evidence issuanceId evidenceId view d) = n :=
    (remaining_issue hview (hcounted d hd)).trans hn
  by_cases hzero : n = 0
  · simp only [hzero, if_true]
    refine safe_plain (Tx.plain_update rfl) (h.track.safe_update fun db₅ A₅ _ _ _ h₅ => ?_)
    have ht₅ := h₅.track.modifyLocked orderLayout (f := ({ · with status := .fulfilled })) (fun _ => rfl)
      fun o => ⟨_, List.mem_singleton.mpr rfl, rfl, rfl⟩
    refine safe_end ht₅ (List.mem_append_left _ hlock) (fun d hI hd => ?_)
      fun d hI hd => htickets d hI (h₅.before d hd)
    have hd' := h₅.before d hd
    obtain ⟨o, ho, hstatus⟩ := hserved d hI hd'
    have hseen : orderTable.find (issue mint evidence issuanceId evidenceId view db₅) issuance.orderId =
        some o :=
      ((h₅.seen d hd).find orderLayout (List.mem_append_left _ hlock) rfl).symm.trans ho
    refine hI.issue (hissuance d (h.before d hd')) (issuances_issue hview) (fun id hne => ?_) ?_
    · exact orderTable.find_modify_of_ne (f := ({ · with status := .fulfilled })) (fun _ => rfl)
        (fun o ho => of_decide_eq_true (Bool.and_eq_true_iff.mp ho).1) hne
    · have hid : o.id = issuance.orderId := (orderTable.find_mem ho).2
      rcases hstatus with hstatus | hstatus
      · refine ⟨{ o with status := .fulfilled }, ?_, .inr rfl, fun _ => rfl⟩
        exact orderTable.find_modify_of_find (f := ({ · with status := .fulfilled })) (fun _ => rfl) ho
          hseen (by simp [hid, hstatus])
      · refine ⟨o, ?_, .inr hstatus, fun _ => hstatus⟩
        refine (orderTable.find_modify (f := ({ · with status := .fulfilled })) (fun _ => rfl) _).trans ?_
        rw [show orderTable.find (issue mint evidence issuanceId evidenceId view d) issuance.orderId =
          some o from ho, Option.map_some, if_neg (by simp [hstatus])]
  · simp only [hzero, if_false]
    refine safe_end h.track hlock (fun d hI hd => ?_) htickets
    obtain ⟨o, ho, hstatus⟩ := hserved d hI hd
    refine hI.issue (hissuance d (h.before d hd)) (issuances_issue hview) (fun _ _ => rfl)
      ⟨o, ho, hstatus, fun hnone => absurd ((hremaining d hd).symm.trans hnone) hzero⟩

theorem acceptOwnershipEvidence_outline (issuanceId : Uuid) (body : OwnershipEvidenceRequest)
    (evidenceId : Uuid) :
    SafeRequest Converted (Forward part Rely) (fun _ _ => True)
      ((acceptOwnershipEvidence issuanceId body evidenceId).request.locking orderLocks) := by
  unfold SafeRequest OutlinedRequest Handler.request acceptOwnershipEvidence
  refine safe_plain Tx.plain_ofExcept (safe_ofExcept fun mint _ => ?_)
  refine safe_plain (Tx.plain_stmt rfl) (Track.start.safe_selectFor fun db₁ A₁ row _ _ hrow h₁ => ?_)
  refine safe_plain Tx.plain_orElse (safe_orElse fun issuance hissuance => ?_)
  have hfound : issuanceTable.find db₁ issuanceId = some issuance := hrow.trans hissuance
  have hid : issuance.id = issuanceId := (issuanceTable.find_mem hfound).2
  have hlock : (⟨.issuance issuanceId, .update⟩ : Lock Row) ∈
      [] ++ (issuanceTable.find (id db₁) issuanceId).toList.map fun i => ⟨.issuance i.id, .update⟩ := by
    rw [show issuanceTable.find (id db₁) issuanceId = some issuance from hfound]
    subst hid
    exact List.mem_singleton_self _
  have hknown (d : Database) (hd : A₁ d) : issuanceTable.find d issuanceId = some issuance :=
    ((h₁.seen d hd).find issuanceLayout hlock rfl).trans hfound
  refine safe_plain (Tx.plain_stmt rfl) (safe_select h₁.track.stable fun _ existing _ _ _ => ?_)
  cases existing with
  | some existing =>
    refine safe_plain Tx.plain_require (safe_require fun _ => ?_)
    refine safe_plain Tx.plain_commit (Lib.safe_commit (fun d hI _ => ?_) safe_lockingRet)
    exact ⟨hI, .refl, fun _ _ => rfl⟩
  | none =>
    refine safe_plain Tx.plain_require (safe_require fun _ => ?_)
    refine safe_plain (Tx.plain_stmt rfl) (safe_select h₁.track.stable fun _ owner _ _ _ => ?_)
    refine safe_plain Tx.plain_orElse (safe_orElse fun owner _ => ?_)
    refine safe_plain Tx.plain_require (safe_require fun _ => ?_)
    refine safe_plain (Tx.plain_insert rfl) (h₁.track.safe_insertRow fun db₂ A₂ _ _ _ h₂ => ?_)
    generalize hevidence : OwnershipEvidence.mk _ _ _ _ _ _ _ _ = evidence
    have ht₂ := h₂.track.hide (f := ownershipTable.add evidence) fun _ k => by cases k <;> rfl
    refine safe_plain (Tx.plain_update rfl) (ht₂.safe_update fun db₃ A₃ _ hA₃ _ h₃ => ?_)
    have ht₃ := h₃.track.modifyLocked issuanceLayout (f := minted mint evidenceId) (fun _ => rfl)
      fun i => ⟨_, List.mem_cons_self, rfl, rfl⟩
    exact safe_count ht₃ (hknown db₃ (h₂.before db₃ hA₃)) fun d hd =>
      hknown d (h₂.before d (h₃.before d hd))

end Outline

/-! ### Every schedule -/

/-- An order is fulfilled if it has tickets and all of them are issued. -/
def Complete (db : Database) : Prop :=
  ∀ orderId, ticketsOf orderId db ≠ [] → (∀ i ∈ ticketsOf orderId db, i.status = .issued) →
    ∃ o, orderTable.find db orderId = some o ∧ o.status = .fulfilled

theorem Converted.toComplete (h : Converted db) : Complete db := by
  intro id hsome hall
  obtain ⟨i, hi⟩ := List.exists_mem_of_ne_nil _ hsome
  obtain ⟨hmem, hid⟩ := List.mem_filter.mp hi
  obtain rfl : i.orderId = id := of_decide_eq_true hid
  obtain ⟨o, ho, -⟩ := h.served i hmem
  exact ⟨o, ho, h.complete i hmem hall o ho⟩

/-- **Orders for several tickets are fulfilled** once all of their tickets are issued, in every run of
mints whose schedule the locks allow. -/
theorem orders_complete {db₀ : Database} (h₀ : Converted db₀) {pool : Pool Database Row Site Result}
    {actions : List (Action Database Row Site Result)}
    (hrun : Run (Pool.Step Mints fun _ _ => True) (Pool.idle db₀) actions pool)
    (hlockable : Lockable orderLocks db₀ actions) : Complete pool.db := by
  obtain ⟨locked, hlocked, hdb⟩ := hrun.locking hlockable
  have hsafe (p : Prog Database Row Site Result) (hp : Locking orderLocks Mints p) :
      SafeRequest Converted (Forward part Rely) (fun _ _ => True) p := by
    obtain ⟨q, hq, rfl⟩ := hp
    cases hq with
    | acceptOwnershipEvidence issuanceId body evidenceId =>
        exact acceptOwnershipEvidence_outline issuanceId body evidenceId
  rw [← hdb]
  exact (run_healthy hsafe hlocked (healthy_idle h₀)).inv.toComplete

/-! ### Two seats -/

def pendingTicket (id : Uuid) (serialNumber : Int) : TicketIssuance :=
  ⟨id, 10, 22, 24, 30, 1, 4, serialNumber, .pending, none, none, none⟩

/-- An order for two seats, whose tickets are prepared. -/
def preparedSeats : Database :=
  { shopDatabase with
    inventory := [⟨20, some 5, 0, 2⟩]
    orders := [⟨30, 10, 1, .fulfilling, .testnet, "key", "hash", 2000000, ⟨"XLM", 7, none⟩, none⟩]
    orderItems := [⟨32, 30, 20, "Seat", 2, 1000000, 2000000, ⟨"XLM", 7, none⟩⟩]
    reservations := [⟨31, 10, 24, 30, 1, 2, .converted, "key", "hash", seconds 1800000900⟩]
    issuances := [pendingTicket 51 1, pendingTicket 52 2] }

/-- The evidence of the mint of a ticket. -/
def mintSeat (issuanceId : Uuid) (token : String) (digit : Char) (evidenceId : Uuid) :
    Prog Database Row Site Result :=
  (acceptOwnershipEvidence issuanceId
    ⟨token, String.ofList (List.replicate 64 digit), 6, token, payerAddress, .object []⟩ evidenceId).request

def mintFirst : Prog Database Row Site Result := mintSeat 51 "seat-1" 'a' 61

def mintSecond : Prog Database Row Site Result := mintSeat 52 "seat-2" 'b' 62

/-- One after the other. -/
def mintedInTurn : List (Action Database Row Site Result) :=
  .spawn mintFirst :: List.replicate 9 (.step 0) ++ .spawn mintSecond :: List.replicate 10 (.step 0)

/-- Both count before either ends. -/
def mintedTogether : List (Action Database Row Site Result) :=
  [.spawn mintFirst, .spawn mintSecond] ++ List.replicate 6 (.step 0) ++ List.replicate 9 (.step 1) ++
    List.replicate 3 (.step 0)

theorem mint_requests {p : Prog Database Row Site Result} (hp : p = mintFirst ∨ p = mintSecond) :
    Mints p := by
  rcases hp with rfl | rfl
  · exact .acceptOwnershipEvidence 51 _ 61
  · exact .acceptOwnershipEvidence 52 _ 62

theorem mintedInTurn_outcome :
    ((Pool.idle preparedSeats).replay (fun _ _ => True) mintedInTurn).any (fun pool =>
      pool.threads.length = 0 && pool.db.orders.map (·.status) = [.fulfilled] &&
        pool.db.issuances.map (·.status) = [.issued, .issued]) = true ∧
    ((Pool.idle preparedSeats).replay (fun _ _ => True)
      (mintedInTurn.map (Action.locking orderLocks))).isSome = true := by
  decide +kernel

theorem mintedTogether_outcome :
    ((Pool.idle preparedSeats).replay (fun _ _ => True) mintedTogether).any (fun pool =>
      pool.threads.length = 0 && pool.db.orders.map (·.status) = [.fulfilling] &&
        pool.db.issuances.map (fun i => (i.orderId, i.status)) = [(30, .issued), (30, .issued)]) = true := by
  decide +kernel

theorem preparedSeats_converted : Converted preparedSeats where
  issuanceIds := by decide
  served := by decide
  complete := by decide

theorem spawned_inTurn {p : Prog Database Row Site Result} (hp : .spawn p ∈ mintedInTurn) : Mints p := by
  refine mint_requests ?_
  simpa only [mintedInTurn, List.cons_append, List.mem_cons, List.mem_append, List.mem_replicate,
    Action.spawn.injEq, reduceCtorEq, and_false, or_false, false_or] using hp

theorem spawned_together {p : Prog Database Row Site Result} (hp : .spawn p ∈ mintedTogether) : Mints p := by
  refine mint_requests ?_
  simpa only [mintedTogether, List.cons_append, List.nil_append, List.mem_cons, List.mem_append,
    List.mem_replicate, Action.spawn.injEq, reduceCtorEq, and_false, or_false, false_or] using hp

/-- Two mints in turn fulfil their order. -/
theorem mintedInTurn_complete :
    ∃ (pool : Pool Database Row Site Result) (actions : List (Action Database Row Site Result)),
      Run (Pool.Step Mints fun _ _ => True) (Pool.idle preparedSeats) actions pool ∧
      Lockable orderLocks preparedSeats actions ∧ pool.threads.length = 0 ∧
      pool.db.issuances.map (·.status) = [.issued, .issued] ∧ Complete pool.db := by
  obtain ⟨hplain, hlocked⟩ := mintedInTurn_outcome
  obtain ⟨pool, hpool, hall⟩ := (Option.any_eq_true _ _).mp hplain
  simp only [Bool.and_eq_true, decide_eq_true_eq] at hall
  obtain ⟨locked, hlocked⟩ := Option.isSome_iff_exists.mp hlocked
  have hrun := Pool.run_of_replay (fun _ => spawned_inTurn) hpool
  have hlockable : Lockable orderLocks preparedSeats mintedInTurn :=
    ⟨locked, Pool.run_of_replay (fun _ _ => trivial) hlocked⟩
  exact ⟨pool, mintedInTurn, hrun, hlockable, hall.1.1, hall.2,
    orders_complete preparedSeats_converted hrun hlockable⟩

/-- Each of two mints counts the ticket of the other: both tickets are issued, nothing is running any
more, and the order is not fulfilled. -/
theorem mintedTogether_incomplete :
    ¬ ∀ db₀ : Database, Converted db₀ →
      ∀ (pool : Pool Database Row Site Result) (actions : List (Action Database Row Site Result)),
        Run (Pool.Step Mints fun _ _ => True) (Pool.idle db₀) actions pool →
        pool.threads.length = 0 → Complete pool.db := by
  intro h
  obtain ⟨pool, hpool, hall⟩ := (Option.any_eq_true _ _).mp mintedTogether_outcome
  simp only [Bool.and_eq_true, decide_eq_true_eq] at hall
  obtain ⟨⟨hidle, horders⟩, hissuances⟩ := hall
  have hcomplete := h preparedSeats preparedSeats_converted pool mintedTogether
    (Pool.run_of_replay (fun _ => spawned_together) hpool) hidle
  -- every ticket is issued, and of the order
  have htickets (i : TicketIssuance) (hi : i ∈ pool.db.issuances) : i.orderId = 30 ∧ i.status = .issued := by
    have hmem : (i.orderId, i.status) ∈ pool.db.issuances.map fun i => (i.orderId, i.status) :=
      List.mem_map_of_mem hi
    rw [hissuances] at hmem
    simpa using hmem
  have hsome : ticketsOf 30 pool.db ≠ [] := by
    cases hall : pool.db.issuances with
    | nil => simp [hall] at hissuances
    | cons i rest =>
        have hi : i ∈ pool.db.issuances := hall ▸ List.mem_cons_self
        exact List.ne_nil_of_mem (List.mem_filter.mpr ⟨hi, decide_eq_true (htickets i hi).1⟩)
  obtain ⟨o, ho, hfulfilled⟩ :=
    hcomplete 30 hsome fun i hi => (htickets i (List.mem_filter.mp hi).1).2
  have hstatus : o.status ∈ pool.db.orders.map (·.status) := List.mem_map_of_mem (orderTable.find_mem ho).1
  rw [horders, hfulfilled] at hstatus
  simp at hstatus

end CrownFi.Commerce.Completion
