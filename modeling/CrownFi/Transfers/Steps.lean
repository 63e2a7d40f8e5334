import CrownFi.Transfers.Lives

/-!
# CrownFi.Transfers.Steps

**Every ticket lives its own life.** The tables of the shop and those of transfers and check-ins hold
a file about each ticket (`fileOf`). One commit moves every file by one of the moves there are
(`Step`): the requests of the shop prepare and mint, the others ask for transfers, follow them,
hand tickets over or check them in. So whatever is so of one ticket's life is so of every ticket in
the database.
-/

namespace CrownFi.Transfers

open Lib CrownFi.Api
open CrownFi.Commerce (Response Result TicketIssuance OwnershipEvidence)
open CrownFi.Commerce.Tickets (Unminted Keyed TicketMove Handles KeepsBuyers Bought evidenceOf)

/-! ### The files -/

def transfersOf (issuanceId : Uuid) (db : Database) : List TransferRequest :=
  db.transfers.filter (·.ticketIssuanceId = issuanceId)

def checkInsOf (issuanceId : Uuid) (db : Database) : List CheckIn :=
  db.checkIns.filter (·.ticketIssuanceId = issuanceId)

/-- The user whose order the ticket is of. -/
def buyerOf (issuanceId : Uuid) (shop : Commerce.Database) : Option Uuid := do
  let i ← Commerce.issuanceTable.find shop issuanceId
  let o ← Commerce.orderTable.find shop i.orderId
  return o.buyerUserId

def fileOf (issuanceId : Uuid) (db : Database) : TicketFile where
  buyerUserId := buyerOf issuanceId db.shop
  issuance := issuanceTable.find db issuanceId
  evidence := evidenceOf issuanceId db.shop
  transfers := transfersOf issuanceId db
  checkIns := checkInsOf issuanceId db

/-- The invariant: of keys, and of each ticket. -/
structure Ticketed (db : Database) : Prop where
  keyed : Keyed db.shop
  transferIds : (db.transfers.map (·.id)).Nodup
  transferKeys : (db.transfers.map (·.key)).Nodup
  sound : ∀ id, Sound (fileOf id db)

/-- What stays of a ticket unless it is locked: its evidence, who was checked in, and that no
transfer is on its way. -/
structure Quiet (f f' : TicketFile) : Prop where
  evidence : f'.evidence = f.evidence
  checkIns : f'.checkIns = f.checkIns
  idle : f.Idle → f'.Idle

theorem Quiet.refl {f : TicketFile} : Quiet f f := ⟨rfl, rfl, id⟩

/-- What a commit under the locks `L` does. -/
structure Step (L : List (Lock Row)) (db db' : Database) : Prop where
  moves : ∀ id, Move (fileOf id db) (fileOf id db')
  quiet : ∀ id, ¬ Written L (.shop (.issuance id)) → Quiet (fileOf id db) (fileOf id db')
  tokens : ∀ token, ¬ Written L (.shop (.token token)) → ∀ j ∈ db'.shop.issuances,
    j.tokenId = some token → ∃ i ∈ db.shop.issuances, i.id = j.id ∧ i.tokenId = some token
  buyers : KeepsBuyers db.shop db'.shop
  keys : ∀ organizationId userId key, ¬ Written L (.transferKey organizationId userId key) →
    (organizationId, userId, key) ∈ db'.transfers.map (·.key) →
    (organizationId, userId, key) ∈ db.transfers.map (·.key)

variable {db db' : Database} {shop : Commerce.Database} {L : List (Lock Row)} {id : Uuid}

theorem Ticketed.of_moves (h : Ticketed db) (hkeyed : Keyed db'.shop)
    (hids : (db'.transfers.map (·.id)).Nodup) (hkeys : (db'.transfers.map (·.key)).Nodup)
    (hmoves : ∀ id, Move (fileOf id db) (fileOf id db')) : Ticketed db' :=
  ⟨hkeyed, hids, hkeys, fun id => (h.sound id).move (hmoves id)⟩

/-- Nothing that the files are of changes. -/
theorem Step.of_same (hshop : db'.shop = db.shop) (htransfers : db'.transfers = db.transfers)
    (hcheckIns : db'.checkIns = db.checkIns) (hI : Ticketed db) : Ticketed db' ∧ Step L db db' := by
  have hsame (id : Uuid) : fileOf id db' = fileOf id db := by
    simp only [fileOf, transfersOf, checkInsOf, issuanceTable, Table.within, Table.find, shopView, hshop,
      htransfers, hcheckIns]
  have hmoves (id : Uuid) : Move (fileOf id db) (fileOf id db') := by
    rw [hsame id]
    exact .rest _
  refine ⟨hI.of_moves (hshop ▸ hI.keyed) (htransfers ▸ hI.transferIds) (htransfers ▸ hI.transferKeys)
    hmoves, hmoves, fun id _ => hsame id ▸ .refl, fun token _ j hj hhas => ⟨j, hshop ▸ hj, rfl, hhas⟩,
    hshop ▸ .refl, fun _ _ _ _ => htransfers ▸ fun hmem => hmem⟩

/-- The tables of transfers and check-ins change for one ticket. -/
theorem Step.of_file (id : Uuid) (hI : Ticketed db) (hshop : db'.shop = db.shop)
    (hids : (db'.transfers.map (·.id)).Nodup) (hnodup : (db'.transfers.map (·.key)).Nodup)
    (hkeys : ∀ organizationId userId key, ¬ Written L (.transferKey organizationId userId key) →
      (organizationId, userId, key) ∈ db'.transfers.map (·.key) →
      (organizationId, userId, key) ∈ db.transfers.map (·.key))
    (hmove : Move (fileOf id db) (fileOf id db'))
    (hother : ∀ other, other ≠ id → fileOf other db' = fileOf other db)
    (hquiet : Written L (.shop (.issuance id)) ∨ Quiet (fileOf id db) (fileOf id db')) :
    Ticketed db' ∧ Step L db db' := by
  have hmoves (other : Uuid) : Move (fileOf other db) (fileOf other db') := by
    by_cases heq : other = id
    · exact heq ▸ hmove
    · rw [hother other heq]
      exact .rest _
  refine ⟨hI.of_moves (hshop ▸ hI.keyed) hids hnodup hmoves, hmoves, fun other hnot => ?_,
    fun token _ j hj hhas => ⟨j, hshop ▸ hj, rfl, hhas⟩, hshop ▸ .refl, hkeys⟩
  by_cases heq : other = id
  · subst heq
    exact hquiet.resolve_left hnot
  · rw [hother other heq]
    exact .refl

/-! ### The shop -/

/-- The buyer of a ticket of an order that there is. -/
theorem buyerOf_eq {s s' : Commerce.Database} {i i' : TicketIssuance} {buyerUserId : Uuid}
    (hbuyers : KeepsBuyers s s') (hi : Commerce.issuanceTable.find s id = some i)
    (hbuyer : buyerOf id s = some buyerUserId) (hi' : Commerce.issuanceTable.find s' id = some i')
    (horder : i'.orderId = i.orderId) : buyerOf id s' = some buyerUserId := by
  simp only [buyerOf, hi, Option.bind_eq_bind, Option.bind_some, Option.bind_eq_some_iff] at hbuyer
  obtain ⟨o, ho, hsome⟩ := hbuyer
  obtain ⟨o', ho', hsame⟩ := hbuyers i.orderId o ho
  simp only [buyerOf, hi', Option.bind_eq_bind, Option.bind_some, horder, ho', hsame]
  exact hsome

theorem Ticketed.buyer (h : Ticketed db) {i : TicketIssuance} (hi : issuanceTable.find db id = some i) :
    ∃ buyerUserId, buyerOf id db.shop = some buyerUserId := by
  by_cases hstatus : i.status = .issued
  · obtain ⟨first, token, last, hissued⟩ := (h.sound id).issued hi hstatus
    exact ⟨_, hissued.buyer⟩
  · exact ⟨_, ((h.sound id).waiting hi hstatus).2.1⟩

/-- A ticket that the shop leaves as it is. -/
theorem fileOf_put (h : Ticketed db) (hbuyers : KeepsBuyers db.shop shop)
    (hissuance : Commerce.issuanceTable.find shop id = issuanceTable.find db id)
    (hevidence : evidenceOf id shop = evidenceOf id db.shop) :
    fileOf id (shopView.put db shop) = fileOf id db := by
  have hbuyer : buyerOf id shop = buyerOf id db.shop := by
    cases hi : issuanceTable.find db id with
    | none =>
        have hi₀ : Commerce.issuanceTable.find db.shop id = none := hi
        simp only [buyerOf, hissuance, hi, hi₀, Option.bind_eq_bind, Option.bind_none]
    | some i =>
        obtain ⟨buyerUserId, hbuyer⟩ := h.buyer hi
        rw [hbuyer]
        exact buyerOf_eq hbuyers hi hbuyer (hissuance.trans hi) rfl
  show TicketFile.mk (buyerOf id shop) (Commerce.issuanceTable.find shop id) (evidenceOf id shop) _ _ = _
  rw [hbuyer, hissuance, hevidence]
  rfl

/-- **What the shop does** is a move of each ticket. -/
theorem move_of_shop (h : Ticketed db) (hbuyers : KeepsBuyers db.shop shop)
    (hmove : TicketMove db.shop shop) : Move (fileOf id db) (fileOf id (shopView.put db shop)) := by
  cases hmove with
  | same hissuances hownership =>
      rw [fileOf_put h hbuyers (congrArg (List.find? _) hissuances)
        (by rw [evidenceOf, hownership, evidenceOf])]
      exact .rest _
  | prepared tickets hissuances hownership hnew hunminted hbought =>
      have hevidence : evidenceOf id shop = evidenceOf id db.shop := by
        rw [evidenceOf, hownership, evidenceOf]
      have hfind : Commerce.issuanceTable.find shop id =
          (issuanceTable.find db id).or (tickets.find? (·.id = id)) := by
        show shop.issuances.find? _ = _
        rw [hissuances, List.find?_append]
        rfl
      cases hi : issuanceTable.find db id with
      | some i =>
          rw [hi, Option.some_or] at hfind
          rw [fileOf_put h hbuyers (hfind.trans hi.symm) hevidence]
          exact .rest _
      | none =>
          rw [hi, Option.none_or] at hfind
          cases hticket : tickets.find? (·.id = id) with
          | none =>
              rw [fileOf_put h hbuyers ((hfind.trans hticket).trans hi.symm) hevidence]
              exact .rest _
          | some i =>
              rw [hticket] at hfind
              have hmem := List.mem_of_find?_eq_some hticket
              obtain ⟨o, ho, hbuyer⟩ := hbought i hmem
              obtain ⟨o', ho', hsame⟩ := hbuyers i.orderId o ho
              have hbuyerOf : buyerOf id shop = some i.ownerUserId := by
                simp only [buyerOf, hfind, Option.bind_eq_bind, Option.bind_some, ho', hsame, hbuyer]
                rfl
              have hfile : fileOf id (shopView.put db shop) =
                  { fileOf id db with issuance := some i, buyerUserId := some i.ownerUserId } := by
                show TicketFile.mk (buyerOf id shop) (Commerce.issuanceTable.find shop id)
                  (evidenceOf id shop) _ _ = _
                rw [hbuyerOf, hfind, hevidence]
                rfl
              rw [hfile]
              exact .prepared _ i hi (hunminted i hmem)
  | minted i claim e hi hstatus hissuances hownership hticket howner htoken hhash =>
      have hfind : Commerce.issuanceTable.find shop id = (issuanceTable.find db id).map fun j =>
          if i.id = id then Commerce.Completion.minted claim e.id i else j := by
        show shop.issuances.find? _ = _
        rw [hissuances]
        exact find?_replaceRow id
      have hevidence : evidenceOf id shop =
          evidenceOf id db.shop ++ if i.id = id then [e] else [] := by
        rw [evidenceOf, hownership, List.filter_append, evidenceOf, List.filter_singleton, hticket]
        by_cases heq : i.id = id <;> simp [heq]
      by_cases heq : i.id = id
      · subst heq
        rw [show issuanceTable.find db i.id = some i from hi, Option.map_some, if_pos rfl] at hfind
        rw [if_pos rfl] at hevidence
        obtain ⟨buyerUserId, hbuyer⟩ := h.buyer hi
        have hbuyer' := buyerOf_eq hbuyers hi hbuyer hfind rfl
        have hfile : fileOf i.id (shopView.put db shop) =
            { fileOf i.id db with
              issuance := some (Commerce.Completion.minted claim e.id i)
              evidence := evidenceOf i.id db.shop ++ [e] } := by
          show TicketFile.mk (buyerOf i.id shop) (Commerce.issuanceTable.find shop i.id)
            (evidenceOf i.id shop) _ _ = _
          rw [hbuyer', hfind, hevidence, ← hbuyer]
          rfl
        rw [hfile]
        exact .minted (fileOf i.id db) i claim e hi hstatus howner htoken
      · simp only [if_neg heq, Option.map_id'] at hfind
        rw [if_neg heq, List.append_nil] at hevidence
        rw [fileOf_put h hbuyers hfind hevidence]
        exact .rest _

theorem written_within {L : List (Lock Commerce.Row)} {k : Commerce.Row} (h : Written L k) :
    Written (L.map (Lock.within Row.shop)) (.shop k) := by
  obtain ⟨l, hl, hkey, hwrites⟩ := h
  exact ⟨_, List.mem_map_of_mem hl, congrArg Row.shop hkey, hwrites⟩

/-- **A commit of the shop** is a step. -/
theorem Step.of_shop {L : List (Lock Commerce.Row)} (hI : Ticketed db) (hkeyed : Keyed shop)
    (h : Handles L db.shop shop) :
    Ticketed (shopView.put db shop) ∧ Step (L.map (Lock.within Row.shop)) db (shopView.put db shop) := by
  have hmoves (id : Uuid) : Move (fileOf id db) (fileOf id (shopView.put db shop)) :=
    move_of_shop hI h.rely.buyers h.move
  refine ⟨hI.of_moves hkeyed hI.transferIds hI.transferKeys hmoves, hmoves, fun id hnot => ?_,
    fun token hnot => ?_, h.rely.buyers, fun _ _ _ _ hmem => hmem⟩
  · exact ⟨h.rely.evidence id fun hw => hnot (written_within hw), rfl, fun hidle => hidle⟩
  · exact h.rely.tokens token fun hw => hnot (written_within hw)

/-! ### Transfers -/

section Changes

variable {i : TicketIssuance} {t t' : TransferRequest} {e : OwnershipEvidence} {c : CheckIn}

/-- A new transfer of an issued ticket that has no other on its way. -/
theorem Step.asked (hI : Ticketed db) (hnew : transferTable.find db t.id = none)
    (hkey : t.key ∉ db.transfers.map (·.key))
    (hi : issuanceTable.find db t.ticketIssuanceId = some i) (hstatus : i.status = .issued)
    (htoken : i.tokenId = some t.tokenId) (hproper : t.Proper t.tokenId) (hchecked : t.checked = true)
    (hsource : t.source = holderOf i) (hopen : t.active = true) (hidle : (fileOf t.ticketIssuanceId db).Idle)
    (hcheckIns : checkInsOf t.ticketIssuanceId db = [])
    (hlock : Written L (.shop (.issuance t.ticketIssuanceId)))
    (hkeyLock : Written L (.transferKey t.organizationId t.fromUserId t.idempotencyKey)) :
    Ticketed (transferTable.add t db) ∧ Step L db (transferTable.add t db) := by
  have hids := transferTable.nodup_add (r := t) hI.transferIds (transferTable.find_none hnew)
  have htransfers (id : Uuid) : transfersOf id (transferTable.add t db) =
      transfersOf id db ++ if t.ticketIssuanceId = id then [t] else [] := by
    rw [transfersOf, transfersOf, show (transferTable.add t db).transfers = db.transfers ++ [t] from rfl,
      List.filter_append, List.filter_singleton]
    by_cases heq : t.ticketIssuanceId = id <;> simp [heq]
  have hkeys : (transferTable.add t db).transfers.map (·.key) = db.transfers.map (·.key) ++ [t.key] := by
    rw [show (transferTable.add t db).transfers = db.transfers ++ [t] from rfl, List.map_append,
      List.map_singleton]
  have hnodup : ((transferTable.add t db).transfers.map (·.key)).Nodup := by
    rw [hkeys, ← List.concat_eq_append]
    exact hI.transferKeys.concat hkey
  refine Step.of_file t.ticketIssuanceId hI rfl hids hnodup (fun organization user key hnot hmem => ?_) ?_
    (fun other hother => ?_) (.inl hlock)
  · rw [hkeys] at hmem
    refine (List.mem_append.mp hmem).resolve_right fun hmem => hnot ?_
    obtain ⟨rfl, rfl, rfl⟩ : organization = t.organizationId ∧ user = t.fromUserId ∧ key = t.idempotencyKey := by
      simpa [TransferRequest.key] using hmem
    exact hkeyLock
  · have hfile : fileOf t.ticketIssuanceId (transferTable.add t db) =
        { fileOf t.ticketIssuanceId db with
          transfers := (fileOf t.ticketIssuanceId db).transfers ++ [t] } := by
      have hmine := htransfers t.ticketIssuanceId
      rw [if_pos rfl] at hmine
      rw [fileOf, hmine]
      rfl
    rw [hfile]
    exact .asked _ i t hi hstatus htoken hproper hchecked hsource hopen hidle hcheckIns
  · have hmine := htransfers other
    rw [if_neg fun heq => hother heq.symm, List.append_nil] at hmine
    rw [fileOf, hmine]
    rfl

/-- The transfers of a ticket after one of them, the last, became another. -/
theorem transfersOf_replaceRow (hI : Ticketed db) (ht : transferTable.find db t.id = some t)
    (hactive : t.active = true) (hsame : SameRequest t t') :
    ∃ earlier, transfersOf t.ticketIssuanceId db = earlier ++ [t] ∧
      ((replaceRow (·.id) t' db.transfers).filter (·.ticketIssuanceId = t.ticketIssuanceId)) =
        earlier ++ [t'] := by
  obtain ⟨hmem, -⟩ := transferTable.find_mem ht
  have hmine : t ∈ transfersOf t.ticketIssuanceId db :=
    List.mem_filter.mpr ⟨hmem, decide_eq_true rfl⟩
  obtain ⟨earlier, hsplit⟩ := (hI.sound t.ticketIssuanceId).last_of_active hmine hactive
  have hsplit : transfersOf t.ticketIssuanceId db = earlier ++ [t] := hsplit
  refine ⟨earlier, hsplit, ?_⟩
  rw [filter_replaceRow hI.transferIds hmem hsame.id (by rw [hsame.ticket]), ← transfersOf, hsplit]
  refine replaceRow_concat ?_ hsame.id
  rw [← hsplit]
  exact hI.transferIds.sublist (List.filter_sublist.map _)

/-- The transfers of other tickets. -/
theorem transfersOf_replaceRow_of_ne (hI : Ticketed db) (ht : transferTable.find db t.id = some t)
    (hsame : SameRequest t t') (hne : t.ticketIssuanceId ≠ id) :
    (replaceRow (·.id) t' db.transfers).filter (·.ticketIssuanceId = id) = transfersOf id db := by
  obtain ⟨hmem, -⟩ := transferTable.find_mem ht
  rw [filter_replaceRow hI.transferIds hmem hsame.id (by rw [hsame.ticket]), ← transfersOf]
  refine replaceRow_of_not_mem fun u hu heq => hne ?_
  obtain ⟨hu, hticket⟩ := List.mem_filter.mp hu
  obtain rfl : u = t := List.inj_on_of_nodup_map hI.transferIds hu hmem (heq.trans hsame.id)
  exact of_decide_eq_true hticket

theorem keys_replaceRow (hI : Ticketed db) (ht : transferTable.find db t.id = some t)
    (hsame : SameRequest t t') :
    (replaceRow (·.id) t' db.transfers).map (·.key) = db.transfers.map (·.key) :=
  map_replaceRow hI.transferIds (transferTable.find_mem ht).1 hsame.id hsame.keys

theorem transferIds_replaceRow (hI : Ticketed db) (ht : transferTable.find db t.id = some t)
    (hsame : SameRequest t t') : ((replaceRow (·.id) t' db.transfers).map (·.id)).Nodup := by
  rw [map_replaceRow hI.transferIds (transferTable.find_mem ht).1 hsame.id hsame.id]
  exact hI.transferIds

/-- A transfer that goes on. -/
theorem Step.followed (hI : Ticketed db) (ht : transferTable.find db t.id = some t)
    (h : TransferStep t t') :
    Ticketed { db with transfers := replaceRow (·.id) t' db.transfers } ∧
      Step L db { db with transfers := replaceRow (·.id) t' db.transfers } := by
  obtain ⟨earlier, hsplit, hafter⟩ := transfersOf_replaceRow hI ht h.active h.same
  have hkeys := keys_replaceRow hI ht h.same
  refine Step.of_file t.ticketIssuanceId hI rfl (transferIds_replaceRow hI ht h.same)
    (hkeys.symm ▸ hI.transferKeys) (fun _ _ _ _ hmem => hkeys ▸ hmem) ?_ (fun other hother => ?_)
    (.inr ⟨rfl, rfl, fun hidle => ?_⟩)
  · have hfile : fileOf t.ticketIssuanceId { db with transfers := replaceRow (·.id) t' db.transfers } =
        { fileOf t.ticketIssuanceId db with transfers := earlier ++ [t'] } := by
      rw [fileOf, transfersOf, hafter]
      rfl
    rw [hfile]
    exact .followed _ earlier t t' hsplit h
  · rw [fileOf, transfersOf, transfersOf_replaceRow_of_ne hI ht h.same fun heq => hother heq.symm]
    rfl
  · -- the transfer was on its way
    have hended := hidle t (List.mem_filter.mpr ⟨(transferTable.find_mem ht).1, decide_eq_true rfl⟩)
    rw [h.active] at hended
    cases hended

/-- The database after the evidence of a transfer. -/
def handed (i' : TicketIssuance) (e : OwnershipEvidence) (t' : TransferRequest) (db : Database) : Database :=
  { db with
    shop := { db.shop with
      issuances := replaceRow (·.id) i' db.shop.issuances
      ownership := db.shop.ownership ++ [e] }
    transfers := replaceRow (·.id) t' db.transfers }

/-- The keys after a ticket changed hands. -/
theorem keyed_handed (hI : Ticketed db) (hi : issuanceTable.find db i.id = some i)
    (hnew : ownershipTable.find db e.id = none) :
    Keyed (handed (t.handOver e.id i) e t' db).shop := by
  obtain ⟨hmem, -⟩ := issuanceTable.find_mem hi
  have hbefore {j : TicketIssuance} (hj : j ∈ (handed (t.handOver e.id i) e t' db).shop.issuances) :
      ∃ k ∈ db.shop.issuances, k.tokenId = j.tokenId ∧ (k = i ∧ j = t.handOver e.id i ∨ k = j ∧ j.id ≠ i.id) := by
    rcases mem_replaceRow hj with rfl | ⟨hj, hne⟩
    · exact ⟨i, hmem, rfl, .inl ⟨rfl, rfl⟩⟩
    · exact ⟨j, hj, rfl, .inr ⟨rfl, hne⟩⟩
  refine ⟨?_, Commerce.ownershipTable.nodup_add hI.keyed.ownershipIds
    (Commerce.ownershipTable.find_none hnew), fun j hj k hk hsome heq => ?_⟩
  · have hids : (replaceRow (·.id) (t.handOver e.id i) db.shop.issuances).map (·.id) =
        db.shop.issuances.map (·.id) := map_replaceRow hI.keyed.issuanceIds hmem rfl rfl
    exact hids ▸ hI.keyed.issuanceIds
  · obtain ⟨j₀, hj₀, htoken, hj⟩ := hbefore hj
    obtain ⟨k₀, hk₀, htoken', hk⟩ := hbefore hk
    have hsame := hI.keyed.tokens j₀ hj₀ k₀ hk₀ (htoken ▸ hsome) ((htoken.trans heq).trans htoken'.symm)
    rcases hj with ⟨rfl, rfl⟩ | ⟨rfl, hne⟩ <;> rcases hk with ⟨hk', rfl⟩ | ⟨rfl, hne'⟩
    · rfl
    · exact absurd (congrArg (·.id) hsame.symm) hne'
    · exact absurd (congrArg (·.id) (hsame.trans hk')) hne
    · exact hsame

section Handed

variable {i' : TicketIssuance}

theorem find_handed : issuanceTable.find (handed i' e t' db) id =
    (issuanceTable.find db id).map fun j => if i'.id = id then i' else j := by
  show List.find? _ (replaceRow (·.id) i' db.shop.issuances) = _
  exact find?_replaceRow id

theorem evidenceOf_handed : evidenceOf id (handed i' e t' db).shop =
    evidenceOf id db.shop ++ if e.ticketIssuanceId = id then [e] else [] := by
  show (db.shop.ownership ++ [e]).filter _ = _
  rw [List.filter_append, evidenceOf, List.filter_singleton]
  by_cases heq : e.ticketIssuanceId = id <;> simp [heq]

theorem keepsBuyers_handed : KeepsBuyers db.shop (handed i' e t' db).shop := .of_find fun _ => rfl

/-- The other tickets stay as they are. -/
theorem fileOf_handed_of_ne (hI : Ticketed db) (ht : transferTable.find db t.id = some t)
    (hsame : SameRequest t t') (hi' : i'.id ≠ id) (he : e.ticketIssuanceId ≠ id)
    (hticket : t.ticketIssuanceId ≠ id) : fileOf id (handed i' e t' db) = fileOf id db := by
  have hmine : issuanceTable.find (handed i' e t' db) id = issuanceTable.find db id := by
    simp only [find_handed, if_neg hi', Option.map_id']
  have hevidence : evidenceOf id (handed i' e t' db).shop = evidenceOf id db.shop := by
    rw [evidenceOf_handed, if_neg he, List.append_nil]
  have hbuyers : KeepsBuyers db.shop (handed i' e t' db).shop := keepsBuyers_handed
  have hput : fileOf id (shopView.put db (handed i' e t' db).shop) = fileOf id db :=
    fileOf_put hI hbuyers hmine hevidence
  rw [fileOf, show transfersOf id (handed i' e t' db) = transfersOf id db from
    transfersOf_replaceRow_of_ne hI ht hsame hticket]
  exact hput

end Handed

/-- **The evidence of a transfer** makes the ticket change hands. -/
theorem Step.handed (hI : Ticketed db) (ht : transferTable.find db t.id = some t)
    (hi : issuanceTable.find db i.id = some i) (hticket : t.ticketIssuanceId = i.id)
    (hstatus : t.status = .submitted) (hhash : t.submittedTxHash = some e.transactionHash)
    (htoken : e.tokenId = t.tokenId) (howner : e.ownerStellarAccountId = t.toStellarAccountId)
    (habout : e.ticketIssuanceId = i.id) (hnew : ownershipTable.find db e.id = none) (now : Int)
    (hlock : Written L (.shop (.issuance i.id))) :
    Ticketed (handed (t.handOver e.id i) e (t.confirm e.id now) db) ∧
      Step L db (handed (t.handOver e.id i) e (t.confirm e.id now) db) := by
  obtain ⟨t', ht'⟩ : ∃ t', t' = t.confirm e.id now := ⟨_, rfl⟩
  obtain ⟨i', hi'⟩ : ∃ i', i' = t.handOver e.id i := ⟨_, rfl⟩
  have hsame : SameRequest t t' := ht' ▸ sameRequest_confirm
  obtain ⟨earlier, hsplit, hafter⟩ :=
    transfersOf_replaceRow hI ht (TransferRequest.active_of_submitted hstatus) hsame
  rw [hticket] at hsplit hafter
  have hkeyed : Keyed (Transfers.handed (t.handOver e.id i) e t' db).shop := keyed_handed hI hi hnew
  rw [← hi'] at hkeyed
  rw [← ht', ← hi']
  have hid : i'.id = i.id := hi' ▸ rfl
  have hother (id : Uuid) (hne : id ≠ i.id) : fileOf id (Transfers.handed i' e t' db) = fileOf id db :=
    fileOf_handed_of_ne hI ht hsame (fun heq => hne (heq.symm.trans hid))
      (fun heq => hne (heq.symm.trans habout)) fun heq => hne (heq.symm.trans hticket)
  have hmoves (id : Uuid) : Move (fileOf id db) (fileOf id (Transfers.handed i' e t' db)) := by
    by_cases heq : id = i.id
    · subst heq
      obtain ⟨buyerUserId, hbuyer⟩ := hI.buyer hi
      have hmine : issuanceTable.find (Transfers.handed i' e t' db) i.id = some i' := by
        rw [find_handed, hi, Option.map_some, if_pos hid]
      have hfile : fileOf i.id (Transfers.handed i' e t' db) =
          { fileOf i.id db with
            issuance := some i'
            evidence := (fileOf i.id db).evidence ++ [e]
            transfers := earlier ++ [t'] } := by
        rw [fileOf, buyerOf_eq keepsBuyers_handed hi hbuyer hmine (hi' ▸ rfl), hmine, evidenceOf_handed,
          if_pos habout, show transfersOf i.id (Transfers.handed i' e t' db) = earlier ++ [t'] from hafter,
          ← hbuyer]
        rfl
      rw [hfile, ht', hi']
      exact .handed _ i earlier t e now hi hsplit hstatus hhash htoken howner
    · rw [hother id heq]
      exact .rest _
  have hkeys : (Transfers.handed i' e t' db).transfers.map (·.key) = db.transfers.map (·.key) :=
    keys_replaceRow hI ht hsame
  refine ⟨hI.of_moves hkeyed (transferIds_replaceRow hI ht hsame) (hkeys.symm ▸ hI.transferKeys) hmoves,
    hmoves, fun id hnot => ?_, fun token _ j hj hhas => ?_, keepsBuyers_handed,
    fun _ _ _ _ hmem => hkeys ▸ hmem⟩
  · rw [hother id fun heq => hnot (heq ▸ hlock)]
    exact .refl
  · rcases mem_replaceRow hj with rfl | ⟨hj, -⟩
    · exact ⟨i, (issuanceTable.find_mem hi).1, hid.symm, by rw [← hhas, hi']; rfl⟩
    · exact ⟨j, hj, rfl, hhas⟩

/-! ### Check-ins -/

theorem Step.checkedIn (hI : Ticketed db) (hi : issuanceTable.find db c.ticketIssuanceId = some i)
    (hstatus : i.status = .issued) (hnone : checkInsOf c.ticketIssuanceId db = [])
    (hlock : Written L (.shop (.issuance c.ticketIssuanceId))) :
    Ticketed (checkInTable.add c db) ∧ Step L db (checkInTable.add c db) := by
  have hcheckIns (id : Uuid) : checkInsOf id (checkInTable.add c db) =
      checkInsOf id db ++ if c.ticketIssuanceId = id then [c] else [] := by
    rw [checkInsOf, checkInsOf, show (checkInTable.add c db).checkIns = db.checkIns ++ [c] from rfl,
      List.filter_append, List.filter_singleton]
    by_cases heq : c.ticketIssuanceId = id <;> simp [heq]
  refine Step.of_file c.ticketIssuanceId hI rfl hI.transferIds hI.transferKeys (fun _ _ _ _ hmem => hmem) ?_
    (fun other hother => ?_) (.inl hlock)
  · have hfile : fileOf c.ticketIssuanceId (checkInTable.add c db) =
        { fileOf c.ticketIssuanceId db with checkIns := [c] } := by
      have hmine := hcheckIns c.ticketIssuanceId
      rw [if_pos rfl, hnone, List.nil_append] at hmine
      rw [fileOf, hmine]
      rfl
    rw [hfile]
    exact .checkedIn _ i c hi hstatus hnone
  · have hmine := hcheckIns other
    rw [if_neg fun heq => hother heq.symm, List.append_nil] at hmine
    rw [fileOf, hmine]
    rfl

end Changes

end CrownFi.Transfers
