import CrownFi.Commerce.Payments
import CrownFi.Lib.Custody
import CrownFi.Lib.Serial
import CrownFi.Transfers.Outlines

/-!
# CrownFi.Transfers.Ownership

**Who owns a ticket, over whole runs.** Requests of the shop, of owners, organizers, workers and of
the staff at the door run side by side in any order. In every state of every run each issued ticket
has a history from its buyer to its owner (`histories_chained`); what happened stays, and a transfer
that ended stays ended (`tickets_kept`); a ticket that was checked in goes on to no one but whom its
transfer on the way then was for (`checkedIn_closed`); and a token is verified as its ticket's
present owner's (`ownership_verified`).
-/

namespace CrownFi.Transfers

open Lib CrownFi.Api
open CrownFi.Commerce (Response Result TicketIssuance OwnershipEvidence)
open CrownFi.Commerce.Tickets (evidenceOf)

variable {ext : Commerce.Reconciliation.External} {db₀ : Database}
  {pool pool' : Pool Database Row Site Result} {actions more : List (Action Database Row Site Result)}

/-! ### Runs -/

/-- No ticket yet. -/
structure Fresh (db : Database) : Prop where
  issuances : db.shop.issuances = []
  ownership : db.shop.ownership = []
  transfers : db.transfers = []
  checkIns : db.checkIns = []

theorem Fresh.ticketed (h : Fresh db₀) : Ticketed db₀ where
  keyed :=
    { issuanceIds := h.issuances ▸ List.nodup_nil
      ownershipIds := h.ownership ▸ List.nodup_nil
      tokens := fun i hi => absurd (h.issuances ▸ hi) List.not_mem_nil }
  transferIds := h.transfers ▸ List.nodup_nil
  transferKeys := h.transfers ▸ List.nodup_nil
  sound id := by
    have htransfers : (fileOf id db₀).transfers = [] := by
      rw [show (fileOf id db₀).transfers = db₀.transfers.filter _ from rfl, h.transfers, List.filter_nil]
    refine ⟨htransfers ▸ List.Pairwise.nil, .unknown ?_ ?_ htransfers ?_⟩
    · rw [show (fileOf id db₀).issuance = db₀.shop.issuances.find? _ from rfl, h.issuances, List.find?_nil]
    · rw [show (fileOf id db₀).evidence = db₀.shop.ownership.filter _ from rfl, h.ownership,
        List.filter_nil]
    · rw [show (fileOf id db₀).checkIns = db₀.checkIns.filter _ from rfl, h.checkIns, List.filter_nil]

abbrev Sane : Pool Database Row Site Result → Prop := Healthy Ticketed (Forward part Step) fun _ _ => True

theorem Fresh.running (h₀ : Fresh db₀)
    (hrun : Run (Pool.Step (Requests ext) fun _ _ => True) (Pool.idle db₀) actions pool) : Sane pool :=
  run_healthy (fun _ => requests_outline) hrun (healthy_idle h₀.ticketed)

/-- **Across a run** every ticket lives on. -/
theorem later_of_run (h : Sane pool)
    (hrun : Run (Pool.Step (Requests ext) fun _ _ => True) pool more pool') (id : Uuid) :
    Later (fileOf id pool.db) (fileOf id pool'.db) :=
  hrun.relation (P := Sane) (R := fun p q => Later (fileOf id p.db) (fileOf id q.db))
    (fun _ _ _ hp hs => (hp.step (fun _ => requests_outline) hs).1) (fun _ => .refl)
    (fun _ _ _ => Later.trans)
    (fun p _ q hp hs => by
      obtain ⟨-, hsame | ⟨L, hL⟩⟩ := hp.step (fun _ => requests_outline) hs
      · rw [hsame]
        exact .refl
      · exact .of_move (hp.inv.sound id) (hL.moved.moves id)) h

/-! ### A ticket that changes hands -/

def mintedHash : String := String.ofList (List.replicate 64 'a')

def transferHash : String := String.ofList (List.replicate 64 'b')

def receiverAccount : StellarAccount := ⟨5, 2, .testnet, Commerce.shopAddress, true, true, 0⟩

/-- A paid order of one ticket, which may be transferred when an organizer approves it. -/
def doorDatabase : Database where
  shop :=
    { Commerce.shopDatabase with
      directory := { Commerce.shopDirectory 1800000000 with
        stellarAccounts := [⟨4, 1, .testnet, Commerce.payerAddress, true, true, 0⟩,
          receiverAccount] }
      inventory := [⟨20, some 5, 1, 0⟩]
      orders := [⟨30, 10, 1, .paid, .testnet, "k", "", 1000000, ⟨"XLM", 7, none⟩, none⟩]
      orderItems := [⟨32, 30, 20, "Seat", 1, 1000000, 1000000, ⟨"XLM", 7, none⟩⟩]
      reservations := [⟨31, 10, 24, 30, 1, 1, .reserved, "k", "", seconds 1800000900⟩]
      intents := [⟨34, 10, 30, 33, 3, "", "", 8, 100, 1000000, ⟨"XLM", 7, none⟩, "", "i1", "", "", "", "",
        .confirmed, 0, none⟩]
      results := [⟨37, 34, 36, .accepted, none, 3, 0⟩] }
  policies := [⟨24, .organizerApproved⟩]
  transfers := []
  checkIns := []

theorem doorDatabase_fresh : Fresh doorDatabase := ⟨rfl, rfl, rfl, rfl⟩

/-- SHA-256 of what the requests below hash, found by its length. -/
def doorSha256 : Sha256 := fun value => bytesOf <|
  match value.size with
  | 209 => 0x0955b40d49f6ce4f080af87fb2332f874ece541f4a2b3e3fcbf56e68bd473ba6
  | 66 => 0xe6b5bec76fb839b9ad1e789789a5e8b5fa4b6315c597daae32a1471b518172c2
  | _ => 0

def doorExternal : Commerce.Reconciliation.External := { Commerce.saleExternal with sha256 := doorSha256 }

def prepareSeat : Prog Database Row Site Result :=
  (Commerce.Issuance.prepareIssuance 30 fun _ => 51).request.within shopView Row.shop Site.shop

def seatEvidence : Commerce.Issuance.OwnershipEvidenceRequest :=
  ⟨"seat-1", mintedHash, 6, "mint-1", Commerce.payerAddress, .object []⟩

def mintSeat : Prog Database Row Site Result :=
  (Commerce.Issuance.acceptOwnershipEvidence 51 seatEvidence 61).request.within shopView Row.shop Site.shop

def askTransfer : Prog Database Row Site Result :=
  (createTransfer doorSha256 1 51 ⟨Commerce.shopAddress, "t1", "gift"⟩ 71).request

def approveTransfer : Prog Database Row Site Result :=
  (reviewTransfer 3 71 ⟨"approve", "fine"⟩).request

def submitTransfer : Prog Database Row Site Result := (recordTransferSubmission 71 transferHash).request

def enterDoor : Prog Database Row Site Result :=
  (checkInTicket doorSha256 3 51 ⟨"n1", none, .object []⟩ 81).request

def handingEvidence : TransferEvidenceRequest :=
  ⟨transferHash, 7, "transfer-1", "seat-1", Commerce.payerAddress, Commerce.shopAddress, .object []⟩

def handSeat (evidenceId : Uuid) : Prog Database Row Site Result :=
  (acceptTransferEvidence 71 handingEvidence evidenceId).request

/-- A ticket is minted and checked in, with a transfer of it on the way. -/
def entering : List (Prog Database Row Site Result) :=
  [prepareSeat, mintSeat, askTransfer, approveTransfer, submitTransfer, enterDoor]

/-- Then it changes hands, and the evidence comes once more. -/
def handing : List (Prog Database Row Site Result) := [handSeat 62, handSeat 63]

theorem entering_requests : ∀ p ∈ entering, Requests doorExternal p := by
  simp only [entering, List.forall_mem_cons]
  refine ⟨?_, ?_, ?_, ?_, ?_, ?_, fun p hp => by cases hp⟩
  · exact .shop (.prepareIssuance 30 _)
  · exact .shop (.acceptOwnershipEvidence 51 seatEvidence 61)
  · exact .createTransfer 1 51 _ 71
  · exact .reviewTransfer 3 71 _
  · exact .recordTransferSubmission 71 transferHash
  · exact .checkInTicket 3 51 _ 81

theorem handing_requests : ∀ p ∈ handing, Requests doorExternal p := by
  simp only [handing, List.forall_mem_cons]
  exact ⟨.acceptTransferEvidence 71 handingEvidence 62, .acceptTransferEvidence 71 handingEvidence 63,
    fun p hp => by cases hp⟩

/-- The buyer's ticket, checked in with a transfer on its way, and then the receiver's. -/
def enteredThenHanded (db db' : Database) : Bool :=
  db.shop.issuances.map (fun i => (i.id, i.status, holderOf i)) = [(51, .issued, ⟨1, 4⟩)] ∧
    db.transfers.map (fun t => (t.id, t.status)) = [(71, .submitted)] ∧
    db.checkIns.map (·.ticketIssuanceId) = [51] ∧
    db'.shop.issuances.map (fun i => (i.id, i.status, holderOf i)) = [(51, .issued, ⟨2, 5⟩)] ∧
    db'.transfers.map (fun t => (t.id, t.status)) = [(71, .confirmed)] ∧
    db'.shop.issuances.map (·.tokenId) = [some "seat-1"] ∧
    db'.shop.directory.stellarAccounts.find? (·.id = 5) = some receiverAccount

theorem entering_served : (Pool.serveAll (fun _ _ => True) doorDatabase entering).any (fun all =>
    (Pool.serveAll (fun _ _ => True) all.2 handing).any fun all' =>
      enteredThenHanded all.2 all'.2) = true := by
  decide +kernel

theorem entering_runs : ∃ (db db' : Database) (actions more : List (Action Database Row Site Result)),
    Run (Pool.Step (Requests doorExternal) fun _ _ => True) (Pool.idle doorDatabase) actions
        (Pool.idle db) ∧
      Run (Pool.Step (Requests doorExternal) fun _ _ => True) (Pool.idle db) more (Pool.idle db') ∧
      db.shop.issuances.map (fun i => (i.id, i.status, holderOf i)) = [(51, .issued, ⟨1, 4⟩)] ∧
      db.transfers.map (fun t => (t.id, t.status)) = [(71, .submitted)] ∧
      db.checkIns.map (·.ticketIssuanceId) = [51] ∧
      db'.shop.issuances.map (fun i => (i.id, i.status, holderOf i)) = [(51, .issued, ⟨2, 5⟩)] ∧
      db'.transfers.map (fun t => (t.id, t.status)) = [(71, .confirmed)] ∧
      db'.shop.issuances.map (·.tokenId) = [some "seat-1"] ∧
      db'.shop.directory.stellarAccounts.find? (·.id = 5) = some receiverAccount := by
  obtain ⟨db, db', actions, more, hrun, hmore, htest⟩ :=
    Pool.runs_of_serveAll enteredThenHanded entering_requests handing_requests entering_served
  exact ⟨db, db', actions, more, hrun, hmore, of_decide_eq_true htest⟩

/-! ### Histories -/

theorem Ticketed.find {db : Database} (h : Ticketed db) {i : TicketIssuance} (hi : i ∈ db.shop.issuances) :
    (fileOf i.id db).issuance = some i := issuanceTable.find_of_mem h.keyed.issuanceIds hi

/-- The order of a ticket. -/
theorem order_of_buyerOf {db : Database} {i : TicketIssuance} {buyerUserId : Uuid}
    (hi : issuanceTable.find db i.id = some i) (h : buyerOf i.id db.shop = some buyerUserId) :
    ∃ o, Commerce.orderTable.find db.shop i.orderId = some o ∧ o.buyerUserId = buyerUserId := by
  have hi : Commerce.issuanceTable.find db.shop i.id = some i := hi
  simp only [buyerOf, hi, Option.bind_eq_bind, Option.bind_some, Option.bind_eq_some_iff] at h
  obtain ⟨o, ho, hsome⟩ := h
  exact ⟨o, ho, Option.some.inj hsome⟩

/-- **The history of a ticket is a chain** from its buyer to its owner, and the ticket points at its
last link. -/
theorem histories_chained (h₀ : Fresh db₀)
    (hrun : Run (Pool.Step (Requests ext) fun _ _ => True) (Pool.idle db₀) actions pool) :
    ∀ i ∈ pool.db.shop.issuances,
      (i.status ≠ .issued → i.tokenId = none ∧ i.acceptedEvidenceId = none ∧
        evidenceOf i.id pool.db.shop = [] ∧ transfersOf i.id pool.db = []) ∧
      (i.status = .issued → ∃ first token last,
        (∃ o, Commerce.orderTable.find pool.db.shop i.orderId = some o ∧ o.buyerUserId = first.userId) ∧
        i.tokenId = some token ∧ i.acceptedEvidenceId = some last ∧
        History first token (evidenceOf i.id pool.db.shop)
          ((transfersOf i.id pool.db).filter (·.confirmed)) (holderOf i) last) := by
  intro i hi
  have hI := (h₀.running hrun).inv
  have hfound := hI.find hi
  refine ⟨fun hstatus => ?_, fun hstatus => ?_⟩
  · obtain ⟨hunminted, -, hevidence, htransfers, -⟩ := (hI.sound i.id).waiting hfound hstatus
    exact ⟨hunminted.token, hunminted.evidence, hevidence, htransfers⟩
  · obtain ⟨first, token, last, hissued⟩ := (hI.sound i.id).issued hfound hstatus
    exact ⟨first, token, last, order_of_buyerOf hfound hissued.buyer, hissued.hasToken, hissued.accepted,
      hissued.history⟩

/-- The one ticket there is. -/
theorem mem_of_issuances {db : Database} {id : Uuid} {status : Commerce.IssuanceStatus} {holder : Holder}
    (h : db.shop.issuances.map (fun i => (i.id, i.status, holderOf i)) = [(id, status, holder)]) :
    ∃ i ∈ db.shop.issuances, i.id = id ∧ i.status = status ∧ holderOf i = holder := by
  obtain ⟨i, hissuances, hi⟩ := List.map_eq_singleton_iff.mp h
  simp only [Prod.mk.injEq] at hi
  exact ⟨i, hissuances ▸ List.mem_singleton_self i, hi⟩

theorem handing_chained : ∃ (pool : Pool Database Row Site Result)
    (actions : List (Action Database Row Site Result)), ∃ i ∈ pool.db.shop.issuances,
      Run (Pool.Step (Requests doorExternal) fun _ _ => True) (Pool.idle doorDatabase) actions pool ∧
      holderOf i = ⟨2, 5⟩ ∧ ∃ first token last,
        (∃ o, Commerce.orderTable.find pool.db.shop i.orderId = some o ∧ o.buyerUserId = first.userId) ∧
        i.tokenId = some token ∧ i.acceptedEvidenceId = some last ∧
        History first token (evidenceOf i.id pool.db.shop)
          ((transfersOf i.id pool.db).filter (·.confirmed)) (holderOf i) last := by
  obtain ⟨db, db', actions, more, hrun, hmore, -, -, -, hissuances, -⟩ := entering_runs
  obtain ⟨i, hi, -, hstatus, hholder⟩ := mem_of_issuances hissuances
  exact ⟨_, _, i, hi, hrun.append hmore, hholder,
    (histories_chained doorDatabase_fresh (hrun.append hmore) i hi).2 hstatus⟩

/-! ### Transfers on their way -/

theorem Ticketed.transfer {db : Database} (h : Ticketed db) {t : TransferRequest} (ht : t ∈ db.transfers) :
    transferTable.find db t.id = some t := transferTable.find_of_mem h.transferIds ht

/-- A transfer among those of its ticket. -/
theorem mem_transfersOf {db : Database} {t : TransferRequest} (ht : t ∈ db.transfers) :
    t ∈ (fileOf t.ticketIssuanceId db).transfers := List.mem_filter.mpr ⟨ht, decide_eq_true rfl⟩

/-- A transfer on its way starts where its ticket is. -/
theorem Ticketed.open (h : Ticketed db₀) {t : TransferRequest} (ht : t ∈ db₀.transfers) :
    ∃ i, issuanceTable.find db₀ t.ticketIssuanceId = some i ∧ i.status = .issued ∧
      i.tokenId = some t.tokenId ∧ t.checked = true ∧ (t.active = true → t.source = holderOf i) := by
  obtain ⟨i, first, token, last, hissued⟩ :=
    (h.sound t.ticketIssuanceId).issued_of_transfer (mem_transfersOf ht)
  refine ⟨i, hissued.issuance, hissued.status, ?_, hissued.checked t (mem_transfersOf ht),
    hissued.active t (mem_transfersOf ht)⟩
  rw [(hissued.proper t (mem_transfersOf ht)).token]
  exact hissued.hasToken

/-- **A transfer on its way** is the only one of its ticket, of the ticket's token and from its present
owner; and no two transfers came with one key. -/
theorem transfers_open (h₀ : Fresh db₀)
    (hrun : Run (Pool.Step (Requests ext) fun _ _ => True) (Pool.idle db₀) actions pool) :
    (∀ t ∈ pool.db.transfers, t.active = true →
        (∃ i ∈ pool.db.shop.issuances, i.id = t.ticketIssuanceId ∧ i.status = .issued ∧
          i.tokenId = some t.tokenId ∧ t.source = holderOf i) ∧
        ∀ u ∈ pool.db.transfers, u.ticketIssuanceId = t.ticketIssuanceId → u.active = true → u = t) ∧
      ∀ t ∈ pool.db.transfers, ∀ u ∈ pool.db.transfers, u.organizationId = t.organizationId →
        u.fromUserId = t.fromUserId → u.idempotencyKey = t.idempotencyKey → u = t := by
  have hI := (h₀.running hrun).inv
  refine ⟨fun t ht hactive => ⟨?_, fun u hu hticket hopen => ?_⟩, fun t ht u hu horganization huser hkey => ?_⟩
  · obtain ⟨i, hi, hstatus, htoken, -, hsource⟩ := hI.open ht
    obtain ⟨hmem, hid⟩ := issuanceTable.find_mem hi
    exact ⟨i, hmem, hid, hstatus, htoken, hsource hactive⟩
  · have hsound := hI.sound t.ticketIssuanceId
    obtain ⟨earlier, hlast⟩ := hsound.last_of_active (mem_transfersOf ht) hactive
    have hu' : u ∈ earlier ++ [t] := by
      rw [← hlast]
      exact List.mem_filter.mpr ⟨hu, decide_eq_true hticket⟩
    rcases List.mem_append.mp hu' with hu' | hu'
    · rw [(hsound.last hlast).1 u hu'] at hopen
      cases hopen
    · exact List.mem_singleton.mp hu'
  · exact List.inj_on_of_nodup_map hI.transferKeys hu ht
      (Prod.ext horganization (Prod.ext huser hkey))

theorem entering_open : ∃ (pool : Pool Database Row Site Result)
    (actions : List (Action Database Row Site Result)), ∃ t ∈ pool.db.transfers,
      Run (Pool.Step (Requests doorExternal) fun _ _ => True) (Pool.idle doorDatabase) actions pool ∧
      t.status = .submitted ∧ ∃ i ∈ pool.db.shop.issuances, i.id = t.ticketIssuanceId ∧
        i.status = .issued ∧ i.tokenId = some t.tokenId ∧ t.source = holderOf i := by
  obtain ⟨db, db', actions, more, hrun, -, -, htransfers, -⟩ := entering_runs
  obtain ⟨t, hsingle, ht⟩ := List.map_eq_singleton_iff.mp htransfers
  have hstatus : t.status = .submitted := congrArg Prod.snd ht
  have hmem : t ∈ db.transfers := hsingle ▸ List.mem_singleton_self t
  exact ⟨_, _, t, hmem, hrun, hstatus, ((transfers_open doorDatabase_fresh hrun).1 t hmem
    (TransferRequest.active_of_submitted hstatus)).1⟩

/-! ### What stays -/

/-- **What happened to a ticket stays**: its token, its evidence and its transfers that were
confirmed; and a transfer goes on, for the same ticket between the same parties, until it ended. -/
theorem tickets_kept (h₀ : Fresh db₀)
    (hrun : Run (Pool.Step (Requests ext) fun _ _ => True) (Pool.idle db₀) actions pool)
    (hmore : Run (Pool.Step (Requests ext) fun _ _ => True) pool more pool') :
    (∀ i ∈ pool.db.shop.issuances, i.tokenId.isSome →
        ∃ i' ∈ pool'.db.shop.issuances, i'.id = i.id ∧ i'.tokenId = i.tokenId) ∧
      (∀ id, evidenceOf id pool.db.shop <+: evidenceOf id pool'.db.shop ∧
        (transfersOf id pool.db).filter (·.confirmed) <+: (transfersOf id pool'.db).filter (·.confirmed)) ∧
      ∀ t ∈ pool.db.transfers, ∃ t' ∈ pool'.db.transfers, Follows t t' := by
  have hpool := h₀.running hrun
  have hlater := later_of_run hpool hmore
  refine ⟨fun i hi hsome => ?_, fun id => ⟨(hlater id).evidence, (hlater id).confirmed⟩, fun t ht => ?_⟩
  · obtain ⟨token, htoken⟩ := Option.isSome_iff_exists.mp hsome
    obtain ⟨i', hi', htoken'⟩ := (hlater i.id).token i token (hpool.inv.find hi) htoken
    obtain ⟨hmem, hid⟩ := issuanceTable.find_mem hi'
    exact ⟨i', hmem, hid, htoken'.trans htoken.symm⟩
  · obtain ⟨n, hn, hget⟩ := List.getElem_of_mem (mem_transfersOf ht)
    obtain ⟨t', ht', hfollows⟩ :=
      (hlater t.ticketIssuanceId).transfers n t (by rw [List.getElem?_eq_getElem hn, hget])
    exact ⟨t', (List.mem_filter.mp (List.mem_of_getElem? ht')).1, hfollows⟩

theorem handing_kept : ∃ (pool pool' : Pool Database Row Site Result)
    (actions more : List (Action Database Row Site Result)), ∃ t ∈ pool.db.transfers,
      ∃ t' ∈ pool'.db.transfers,
      Run (Pool.Step (Requests doorExternal) fun _ _ => True) (Pool.idle doorDatabase) actions pool ∧
      Run (Pool.Step (Requests doorExternal) fun _ _ => True) pool more pool' ∧
      t.status = .submitted ∧ t'.status = .confirmed ∧ Follows t t' := by
  obtain ⟨db, db', actions, more, hrun, hmore, -, hbefore, -, -, hafter, -⟩ := entering_runs
  obtain ⟨t, hsingle, ht⟩ := List.map_eq_singleton_iff.mp hbefore
  obtain ⟨u, hsingle', hu⟩ := List.map_eq_singleton_iff.mp hafter
  have hmem : t ∈ db.transfers := hsingle ▸ List.mem_singleton_self t
  obtain ⟨t', ht', hfollows⟩ := (tickets_kept doorDatabase_fresh hrun hmore).2.2 t hmem
  refine ⟨_, _, actions, more, t, hmem, t', ht', hrun, hmore, congrArg Prod.snd ht, ?_, hfollows⟩
  have hmem' : t' ∈ db'.transfers := ht'
  rw [hsingle', List.mem_singleton] at hmem'
  exact hmem' ▸ congrArg Prod.snd hu

/-! ### Check-ins -/

/-- **A ticket that was checked in** stays checked in and is transferred no more: it stays with its
owner, or goes to whom the transfer was for that was on its way then, and to nobody after. -/
theorem checkedIn_closed (h₀ : Fresh db₀)
    (hrun : Run (Pool.Step (Requests ext) fun _ _ => True) (Pool.idle db₀) actions pool)
    (hmore : Run (Pool.Step (Requests ext) fun _ _ => True) pool more pool') :
    ∀ c ∈ pool.db.checkIns,
      c ∈ pool'.db.checkIns ∧
      (∀ k ∈ pool'.db.checkIns, k.ticketIssuanceId = c.ticketIssuanceId → k = c) ∧
      (transfersOf c.ticketIssuanceId pool'.db).map (·.id) =
        (transfersOf c.ticketIssuanceId pool.db).map (·.id) ∧
      ∃ i ∈ pool.db.shop.issuances, ∃ i' ∈ pool'.db.shop.issuances,
        i.id = c.ticketIssuanceId ∧ i'.id = c.ticketIssuanceId ∧ i.status = .issued ∧ i'.status = .issued ∧
        (i' = i ∨ ∃ t ∈ transfersOf c.ticketIssuanceId pool.db, t.active = true ∧
          holderOf i' = t.target ∧ ∀ u ∈ transfersOf c.ticketIssuanceId pool'.db, u.active = false) := by
  intro c hc
  have hpool := h₀.running hrun
  have hI' := (run_healthy (fun _ => requests_outline) hmore hpool).inv
  have hlater := later_of_run hpool hmore c.ticketIssuanceId
  have hmine : c ∈ (fileOf c.ticketIssuanceId pool.db).checkIns :=
    List.mem_filter.mpr ⟨hc, decide_eq_true rfl⟩
  have hchecked : (fileOf c.ticketIssuanceId pool.db).checkIns ≠ [] := List.ne_nil_of_mem hmine
  have hmine' := hlater.checkIns.subset hmine
  refine ⟨(List.mem_filter.mp hmine').1, fun k hk hticket => ?_, ?_, ?_⟩
  · have hk' : k ∈ (fileOf c.ticketIssuanceId pool'.db).checkIns :=
      List.mem_filter.mpr ⟨hk, decide_eq_true hticket⟩
    obtain ⟨i, first, token, last, hissued⟩ :=
      (hI'.sound c.ticketIssuanceId).issued_of_checkIn (List.ne_nil_of_mem hk')
    obtain ⟨d, hd⟩ := List.length_eq_one_iff.mp
      (Nat.le_antisymm hissued.checkIns (List.length_pos_of_mem hk'))
    rw [hd, List.mem_singleton] at hk' hmine'
    exact hk'.trans hmine'.symm
  · refine List.ext_getElem? fun n => ?_
    rw [List.getElem?_map, List.getElem?_map]
    cases hn : (transfersOf c.ticketIssuanceId pool.db)[n]? with
    | none =>
        have hlength : (transfersOf c.ticketIssuanceId pool'.db).length =
            (transfersOf c.ticketIssuanceId pool.db).length := hlater.closed hchecked
        have hnone : (transfersOf c.ticketIssuanceId pool'.db)[n]? = none :=
          List.getElem?_eq_none_iff.mpr (hlength ▸ List.getElem?_eq_none_iff.mp hn)
        rw [hnone]
    | some t =>
        obtain ⟨t', ht', hfollows⟩ := hlater.transfers n t hn
        rw [show (transfersOf c.ticketIssuanceId pool'.db)[n]? = some t' from ht', Option.map_some,
          Option.map_some, hfollows.same.id]
  · obtain ⟨i, first, token, last, hissued⟩ :=
      (hpool.inv.sound c.ticketIssuanceId).issued_of_checkIn hchecked
    obtain ⟨i', hi', howner⟩ := hlater.handedOn hchecked i hissued.issuance
    obtain ⟨j, _, _, _, hissued'⟩ :=
      (hI'.sound c.ticketIssuanceId).issued_of_checkIn (hlater.checked hchecked)
    obtain rfl := Option.some.inj (hi'.symm.trans hissued'.issuance)
    obtain ⟨hmem, hid⟩ := issuanceTable.find_mem hissued.issuance
    obtain ⟨hmem', hid'⟩ := issuanceTable.find_mem hi'
    exact ⟨i, hmem, i', hmem', hid, hid', hissued.status, hissued'.status, howner⟩

theorem entering_closed : ∃ (pool pool' : Pool Database Row Site Result)
    (actions more : List (Action Database Row Site Result)), ∃ c ∈ pool.db.checkIns,
      Run (Pool.Step (Requests doorExternal) fun _ _ => True) (Pool.idle doorDatabase) actions pool ∧
      Run (Pool.Step (Requests doorExternal) fun _ _ => True) pool more pool' ∧
      c ∈ pool'.db.checkIns ∧ ∃ i ∈ pool.db.shop.issuances, ∃ i' ∈ pool'.db.shop.issuances,
        i.id = c.ticketIssuanceId ∧ i'.id = c.ticketIssuanceId ∧ i.status = .issued ∧ i'.status = .issued ∧
        (i' = i ∨ ∃ t ∈ transfersOf c.ticketIssuanceId pool.db, t.active = true ∧
          holderOf i' = t.target ∧ ∀ u ∈ transfersOf c.ticketIssuanceId pool'.db, u.active = false) := by
  obtain ⟨db, db', actions, more, hrun, hmore, -, -, hcheckIns, -⟩ := entering_runs
  obtain ⟨c, hsingle, -⟩ := List.map_eq_singleton_iff.mp hcheckIns
  have hmem : c ∈ db.checkIns := hsingle ▸ List.mem_singleton_self c
  obtain ⟨hstays, -, -, howner⟩ := checkedIn_closed doorDatabase_fresh hrun hmore c hmem
  exact ⟨_, _, actions, more, c, hmem, hrun, hmore, hstays, howner⟩

/-! ### Verification -/

/-- What is answered about an issued ticket. -/
def viewOf (i : TicketIssuance) (e : OwnershipEvidence) (a : StellarAccount) : TicketOwnershipView where
  issuanceId := i.id
  organizationId := i.organizationId
  ticketEventId := i.ticketEventId
  ticketProductId := i.ticketProductId
  tokenId := e.tokenId
  ownerAddress := a.address
  transactionHash := e.transactionHash
  ledgerSequence := e.ledgerSequence
  contractEventId := e.contractEventId
  issuanceStatus := i.status
  serialNumber := i.serialNumber

/-- Evidence that an issued ticket points at. -/
theorem Ticketed.accepted {db : Database} (h : Ticketed db) {i : TicketIssuance} {e : OwnershipEvidence}
    (hi : i ∈ db.shop.issuances) (he : e ∈ db.shop.ownership) (hticket : i.id = e.ticketIssuanceId)
    (hstatus : i.status = .issued) : i.tokenId = some e.tokenId := by
  obtain ⟨first, token, last, hissued⟩ := (h.sound i.id).issued (h.find hi) hstatus
  rw [hissued.hasToken, hissued.history.tokens e (List.mem_filter.mpr ⟨he, decide_eq_true hticket.symm⟩)]

theorem verify_eq {text token : String} {db : Database}
    (htext : requiredText text 240 "invalid_ticket_token_id" = .ok token) :
    verifyTicketOwnership text db = okOr (ownershipViews token db).head? .notFound := by
  rw [verifyTicketOwnership, htext]
  rfl

/-- **A token is verified as its present owner's**: the answer is about the ticket that has the token,
with the account of its owner and the evidence by which the ticket came there. No other token is
verified. -/
theorem ownership_verified (h₀ : Fresh db₀)
    (hrun : Run (Pool.Step (Requests ext) fun _ _ => True) (Pool.idle db₀) actions pool)
    {text token : String} (htext : requiredText text 240 "invalid_ticket_token_id" = .ok token) :
    (∀ i ∈ pool.db.shop.issuances, i.tokenId = some token → ∀ a,
        pool.db.shop.directory.stellarAccounts.find? (·.id = i.ownerStellarAccountId) = some a →
        ∃ e ∈ evidenceOf i.id pool.db.shop, i.acceptedEvidenceId = some e.id ∧
          e.ownerStellarAccountId = i.ownerStellarAccountId ∧ e.tokenId = token ∧
          verifyTicketOwnership text pool.db = .ok (viewOf i e a)) ∧
      ((∀ i ∈ pool.db.shop.issuances, i.tokenId ≠ some token) →
        verifyTicketOwnership text pool.db = .error .notFound) := by
  have hI := (h₀.running hrun).inv
  refine ⟨fun i hi htoken a ha => ?_, fun hnone => ?_⟩
  · have hstatus : i.status = .issued := by
      by_contra hopen
      obtain ⟨hunminted, -⟩ := (hI.sound i.id).waiting (hI.find hi) hopen
      rw [hunminted.token] at htoken
      cases htoken
    obtain ⟨first, token', last, hissued⟩ := (hI.sound i.id).issued (hI.find hi) hstatus
    obtain ⟨e, he, hlast, howner⟩ := hissued.history.present
    have haccepted : i.acceptedEvidenceId = some e.id := hlast ▸ hissued.accepted
    obtain ⟨hmem, hticket⟩ := List.mem_filter.mp he
    have hticket : e.ticketIssuanceId = i.id := of_decide_eq_true hticket
    have hetoken : e.tokenId = token := Option.some.inj ((hI.accepted hi hmem hticket.symm hstatus).symm.trans htoken)
    refine ⟨e, he, haccepted, howner, hetoken, ?_⟩
    -- the join finds this evidence, this ticket and the account
    have hnodup : (pool.db.shop.ownership.filter (·.tokenId = token)).Nodup :=
      (List.Nodup.of_map _ hI.keyed.ownershipIds).filter _
    have hnodup' : (pool.db.shop.issuances.filter fun j => j.id = e.ticketIssuanceId &&
        j.acceptedEvidenceId = some e.id && j.status = .issued).Nodup :=
      (List.Nodup.of_map _ hI.keyed.issuanceIds).filter _
    rw [verify_eq htext, ownershipViews, flatMap_of_only (a := e) _ hnodup ?_ ?_,
      flatMap_of_only (a := i) _ hnodup' ?_ ?_, List.head?_map, List.head?_filter, howner]
    · rw [show (holderOf i).stellarAccountId = i.ownerStellarAccountId from rfl, ha]
      rfl
    · refine List.mem_filter.mpr ⟨hi, ?_⟩
      simp [hticket, haccepted, hstatus]
    · intro j hj hne
      simp only [List.mem_filter, Bool.and_eq_true, decide_eq_true_eq] at hj
      exact absurd (List.inj_on_of_nodup_map hI.keyed.issuanceIds hj.1 hi (hj.2.1.1.trans hticket)) hne
    · exact List.mem_filter.mpr ⟨hmem, decide_eq_true hetoken⟩
    · intro f hf hne
      obtain ⟨hf, hftoken⟩ := List.mem_filter.mp hf
      have hftoken : f.tokenId = token := of_decide_eq_true hftoken
      refine List.flatMap_eq_nil_iff.mpr fun j hj => ?_
      simp only [List.mem_filter, Bool.and_eq_true, decide_eq_true_eq] at hj
      obtain ⟨hj, ⟨hjid, hjaccepted⟩, hjstatus⟩ := hj
      have hjtoken := hI.accepted hj hf hjid hjstatus
      obtain rfl := hI.keyed.tokens j hj i hi (by rw [hjtoken]; rfl) (by rw [hjtoken, htoken, hftoken])
      refine absurd (List.inj_on_of_nodup_map hI.keyed.ownershipIds hf hmem ?_) hne
      exact Option.some.inj (hjaccepted.symm.trans haccepted)
  · rw [verify_eq htext, show ownershipViews token pool.db = [] from ?_]
    · rfl
    · refine List.flatMap_eq_nil_iff.mpr fun f hf => List.flatMap_eq_nil_iff.mpr fun j hj => ?_
      obtain ⟨hf, hftoken⟩ := List.mem_filter.mp hf
      simp only [List.mem_filter, Bool.and_eq_true, decide_eq_true_eq] at hj
      obtain ⟨hj, ⟨hjid, -⟩, hjstatus⟩ := hj
      refine absurd ?_ (hnone j hj)
      rw [hI.accepted hj hf hjid hjstatus, show f.tokenId = token from of_decide_eq_true hftoken]

theorem handing_verified : ∃ (pool : Pool Database Row Site Result)
    (actions : List (Action Database Row Site Result)), ∃ i ∈ pool.db.shop.issuances,
      ∃ e ∈ evidenceOf i.id pool.db.shop,
      Run (Pool.Step (Requests doorExternal) fun _ _ => True) (Pool.idle doorDatabase) actions pool ∧
      holderOf i = ⟨2, 5⟩ ∧
      verifyTicketOwnership " seat-1 " pool.db = .ok (viewOf i e receiverAccount) := by
  obtain ⟨db, db', actions, more, hrun, hmore, -, -, -, hissuances, -, htokens, haccount⟩ := entering_runs
  obtain ⟨i, hsingle, hi⟩ := List.map_eq_singleton_iff.mp hissuances
  simp only [Prod.mk.injEq] at hi
  have hmem : i ∈ db'.shop.issuances := hsingle ▸ List.mem_singleton_self i
  have htoken : i.tokenId = some "seat-1" := by simpa [hsingle] using htokens
  have howner : i.ownerStellarAccountId = 5 := congrArg Holder.stellarAccountId hi.2.2
  have htext : requiredText " seat-1 " 240 "invalid_ticket_token_id" = .ok "seat-1" := rfl
  obtain ⟨e, he, -, -, -, hverified⟩ := (ownership_verified doorDatabase_fresh (hrun.append hmore)
    htext).1 i hmem htoken receiverAccount (by rw [howner]; exact haccount)
  exact ⟨_, _, i, hmem, e, he, hrun.append hmore, hi.2.2, hverified⟩

end CrownFi.Transfers
