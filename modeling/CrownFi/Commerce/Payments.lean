import CrownFi.Commerce.Outlines
import CrownFi.Lib.Serial

/-!
# CrownFi.Commerce.Payments

**Paid orders.** Two results about every interleaving of the shop's requests: a paid
order keeps its reservation, as long as the sweep spares paid orders, and a paid order
has accepted chain evidence, as long as no provider event pays one. The code enforces
neither condition: a serial run of ordinary requests breaks each result without it.
-/

namespace CrownFi.Commerce

open Lib CrownFi.Api CrownFi.Stellar Reconciliation

variable {ext : External} {operations : List Operation}

/-- The shop before its first order. -/
structure Initial (db : Database) : Prop where
  orders : db.orders = []
  reservations : db.reservations = []

theorem Initial.inv {held evidenced : Prop} {db : Database} (h : Initial db) :
    Inv held evidenced db where
  orderIds := by simp [h.orders]
  reservationIds := by simp [h.reservations]
  fits id r hr := by simp [reservationTable, Table.find, h.reservations] at hr
  evidence _ id o ho := by simp [orderTable, Table.find, h.orders] at ho

theorem condition_held : Condition True False = SweepsUnpaid := by
  funext site db
  simp [Condition]

theorem condition_evidenced : Condition False True = EventsUnpayable := by
  funext site db
  simp [Condition]

/-! ### A sale -/

instance (site : Site) (db : Database) : Decidable (SweepsUnpaid site db) :=
  match site with
  | .sweepOrder id =>
      decidable_of_iff ((orderTable.find db id).all fun o => ¬ o.status.Paid)
        (by simp [SweepsUnpaid, Option.all_eq_true])
  | .eventOrder _ | .releaseInventory .. | .holdings .. | .counting _ | .other =>
      isTrue (by simp [SweepsUnpaid])

instance (site : Site) (db : Database) : Decidable (EventsUnpayable site db) :=
  match site with
  | .eventOrder id =>
      decidable_of_iff ((orderTable.find db id).all fun o => o.status ≠ .awaitingPayment)
        (by simp [EventsUnpayable, Option.all_eq_true])
  | .sweepOrder _ | .releaseInventory .. | .holdings .. | .counting _ | .other =>
      isTrue (by simp [EventsUnpayable])

def payerAddress : String := "GAAQCAIBAEAQCAIBAEAQCAIBAEAQCAIBAEAQCAIBAEAQCAIBAEAQDZ7H"

def shopAddress : String := "GABAEAQCAIBAEAQCAIBAEAQCAIBAEAQCAIBAEAQCAIBAEAQCAIBAEJXA"

/-- Two buyers, `1` and `2`, and an editor, `3`, of the organization `10`. -/
def shopDirectory (clock : Int) : Directory where
  clock := seconds clock
  users := [⟨1, .active⟩, ⟨2, .active⟩, ⟨3, .active⟩]
  stellarAccounts :=
    [⟨4, 1, .testnet, payerAddress, true, true, 0⟩, ⟨5, 2, .testnet, "GOTHER", true, true, 0⟩]
  siteAdministrators := []
  organizationMembers := [⟨10, 3, .owner, .active⟩]

/-- One ticket product, for a tenth of a lumen. -/
def shopCatalogue : Catalogue where
  products := [⟨20, 10, "Seat", .published⟩]
  prices := [⟨21, 20, 1000000, ⟨"XLM", 7, none⟩, true, none, none⟩]
  ticketEvents := [⟨22, 10, 23, .onSale⟩]
  ticketProducts := [⟨24, 22, 20, 2, 0, seconds 2000000000⟩]

def shopDatabase : Database where
  directory := shopDirectory 1800000000
  catalogue := shopCatalogue
  inventory := [⟨20, some 5, 0, 0⟩]
  orders := []
  orderItems := []
  reservations := []
  attempts := []
  events := []
  intents := []
  transactions := []
  evidence := []
  results := []
  cursors := []
  issuances := []
  ownership := []

theorem shopDatabase_initial : Initial shopDatabase := ⟨rfl, rfl⟩

/-- The body of the payment's transaction. -/
def saleBody : List UInt8 :=
  [0, 0, 0, 0] ++ List.replicate 32 1 ++ [0, 0, 0, 100, 0, 0, 0, 0, 0, 0, 0, 8, 0, 0, 0, 1] ++
    List.replicate 12 0 ++ [107, 73, 211, 44, 0, 0, 0, 1, 0, 0, 0, 24, 67, 70, 73, 45] ++
    List.replicate 20 48 ++ [0, 0, 0, 1, 0, 0, 0, 0, 0, 0, 0, 1, 0, 0, 0, 0] ++
    List.replicate 32 2 ++ List.replicate 9 0 ++ [15, 66, 64, 0, 0, 0, 0]

/-- The envelope with one signature, as the buyer sends it. -/
def saleEnvelope : Intents.SignedEnvelope where
  bytes := [0, 0, 0, 2] ++ saleBody ++ [0, 0, 0, 1, 1, 1, 1, 1, 0, 0, 0, 64] ++ List.replicate 64 7
  xdr := encodeBase64
    ([0, 0, 0, 2] ++ saleBody ++ [0, 0, 0, 1, 1, 1, 1, 1, 0, 0, 0, 64] ++ List.replicate 64 7)
  parsed :=
    { transactionBody := saleBody, sourceAccount := List.replicate 32 1, sequence := 8, fee := 100
      maxTime := some 1800000300, memoText := some "CFI-00000000000000000000"
      destinationAccount := List.replicate 32 2, assetCode := "XLM", assetIssuer := none
      amount := 1000000, signatureCount := 1 }

/-- SHA-256 of what the requests below hash, found by its length. -/
def saleSha256 : Sha256 := fun value => bytesOf <|
  match value.size with
  | 33 => 0xcee0302d59844d32bdca915c8203dd44b33fbb7edc19051ea37abedf28ecd472
  | 38 => 0xe8966664a06ddee6a99d08d42635fbf9c2e1ecd98e94305fd589369b1ea1908b
  | 112 => 0xb4ead21900e80d9bf2b9a9439ac3929abaeccbbbb4d636994596e804ad5aac10
  | 114 => 0x6a43d0927be84905c723bec6c4ac3f9d680899596f3c29564bc9374383163372
  | 164 => 0xb466c40236f40bb15d62e244e26ae3990703c65e3027179b262fc1bcc5e266f3
  | 172 => 0xd316b421c7b59c48e0c76af7d87b9c70240802541508b21742c24080f86e960c
  | 200 => 0x066d629aa2a1f9e398987e2a1e673075be6e965602f0c7c099a50afa7a2a18ac
  | 211 => 0xc22fc45b866d0f8206e9335ec1d7714dcba979b66b902ca94e601e8099409229
  | 244 => 0x5ea38866e90ef3ecf6df4d6d29502ae91c9e85571f5b31889391aee3efc848ba
  | 341 => 0xc94fbc1fe5ccfe94331a352fa3264d1fcbe2ac24716af2df2cb6ef5b1c1b66da
  | 1033 => 0x9fb52036eb34dfe7648fe52b55786608b3540ec02f3d3fd06e041c421b39b4c4
  | _ => 0

def saleHash : String := "066d629aa2a1f9e398987e2a1e673075be6e965602f0c7c099a50afa7a2a18ac"

def saleTransaction : Json := .object
  [("hash", .string saleHash), ("successful", .bool true), ("ledger", .int 77),
    ("memo_type", .string "text"), ("memo", .string "CFI-00000000000000000000"),
    ("created_at", .string "2027-01-15T08:01:00Z")]

def saleOperation : Json := .object
  [("type", .string "payment"), ("transaction_hash", .string saleHash),
    ("paging_token", .string "330712481793"), ("source_account", .string payerAddress),
    ("to", .string shopAddress), ("amount", .string "0.1000000"), ("asset_type", .string "native")]

/-- The evidence as it is written to be hashed: keys in order, the instant as its parts. -/
def saleEvidenceText : String :=
  "\x7b\"amount_minor\":1000000,\"asset_code\":\"XLM\",\"asset_issuer\":null,\"asset_scale\":7," ++
    "\"closed_at\":[2027,15,8,1,0,0,0,0,0],\"destination_account\":\"" ++ shopAddress ++
    "\",\"ledger_sequence\":77,\"memo_text\":\"CFI-00000000000000000000\",\"operation_index\":0," ++
    "\"paging_token\":\"330712481793\",\"raw_operation\":\x7b\"amount\":\"0.1000000\"," ++
    "\"asset_type\":\"native\",\"paging_token\":\"330712481793\",\"source_account\":\"" ++
    payerAddress ++ "\",\"to\":\"" ++ shopAddress ++ "\",\"transaction_hash\":\"" ++ saleHash ++
    "\",\"type\":\"payment\"\x7d,\"raw_transaction\":\x7b\"created_at\":\"2027-01-15T08:01:00Z\"," ++
    "\"hash\":\"" ++ saleHash ++ "\",\"ledger\":77,\"memo\":\"CFI-00000000000000000000\"," ++
    "\"memo_type\":\"text\",\"successful\":true\x7d,\"source_account\":\"" ++ payerAddress ++
    "\",\"successful\":true,\"transaction_hash\":\"" ++ saleHash ++ "\"\x7d"

def saleExternal : External where
  sha256 := saleSha256
  toVec
    | .object [] => "\x7b\x7d".toUTF8
    | _ => saleEvidenceText.toUTF8
  parseRfc3339 text := if text = "2027-01-15T08:01:00Z" then some (seconds 1800000060) else none
  timeJson _ := .array [.int 2027, .int 15, .int 8, .int 1, .int 0, .int 0, .int 0, .int 0, .int 0]

def saleEvidence : ChainEvidenceRequest where
  transactionHash := saleHash
  ledgerSequence := 77
  operationIndex := 0
  pagingToken := "330712481793"
  sourceAccount := payerAddress
  destinationAccount := shopAddress
  amountMinor := 1000000
  assetCode := "XLM"
  assetScale := 7
  assetIssuer := none
  memoText := "CFI-00000000000000000000"
  transactionSuccessful := true
  closedAt := seconds 1800000060
  rawTransaction := saleTransaction
  rawOperation := saleOperation

def reserveSeat : Prog Database Row Site Result :=
  (Ticketing.createReservation saleSha256 1 24 ⟨1, "k1"⟩ ⟨30, 31, 32⟩).request

def openAttempt : Prog Database Row Site Result :=
  (Orders.createPaymentAttempt 3 30 ⟨"stellar", none, none⟩ 33).request

def openIntent : Prog Database Row Site Result :=
  (Intents.createTransactionIntent saleSha256 3 30
    ⟨33, payerAddress, shopAddress, 7, none, none, "i1"⟩ 34).request

def sendEnvelope : Prog Database Row Site Result :=
  (Intents.acceptSignedEnvelope saleSha256 3 34 saleEnvelope.xdr 35).request

def sendReceipt : Prog Database Row Site Result :=
  (recordSubmissionReceipt 3 34 ⟨saleHash, 200, .object [("hash", .string saleHash)]⟩).request

def sendEvidence : Prog Database Row Site Result :=
  (recordChainEvidence saleExternal 3 34 saleEvidence ⟨36, 37⟩).request

/-- The requests of a sale, one after the other. -/
def sale : List (Prog Database Row Site Result) :=
  [reserveSeat, openAttempt, openIntent, sendEnvelope, sendReceipt, sendEvidence]

/-- The operations from a reservation to its tickets. -/
def ticketOperations : List Operation :=
  [.createReservation, .createPaymentAttempt, .createTransactionIntent, .acceptSignedEnvelope,
    .recordSubmissionReceipt, .recordChainEvidence, .prepareIssuance, .environment]

/-- The operations of the sale itself. -/
def paidOperations : List Operation :=
  [.createReservation, .createPaymentAttempt, .createTransactionIntent, .acceptSignedEnvelope,
    .recordSubmissionReceipt, .recordChainEvidence]

theorem Requests.mono {ext : External} {operations operations' : List Operation}
    {p : Prog Database Row Site Result} (h : Requests ext operations p)
    (hsub : operations ⊆ operations') : Requests ext operations' p := by
  obtain ⟨operation, hmem, hp⟩ := h
  exact ⟨operation, hsub hmem, hp⟩

theorem sale_paid : ∀ p ∈ sale, Requests saleExternal paidOperations p := by
  simp only [sale, List.forall_mem_cons]
  refine ⟨?_, ?_, ?_, ?_, ?_, ?_, fun p hp => by cases hp⟩
  · exact ⟨_, by decide, .createReservation 1 24 ⟨1, "k1"⟩ ⟨30, 31, 32⟩⟩
  · exact ⟨_, by decide, .createPaymentAttempt 3 30 ⟨"stellar", none, none⟩ 33⟩
  · exact ⟨_, by decide, .createTransactionIntent 3 30
      ⟨33, payerAddress, shopAddress, 7, none, none, "i1"⟩ 34⟩
  · exact ⟨_, by decide, .acceptSignedEnvelope 3 34 saleEnvelope.xdr 35⟩
  · exact ⟨_, by decide, .recordSubmissionReceipt 3 34
      ⟨saleHash, 200, .object [("hash", .string saleHash)]⟩⟩
  · exact ⟨_, by decide, .recordChainEvidence 3 34 saleEvidence ⟨36, 37⟩⟩

theorem sale_requests : ∀ p ∈ sale, Requests saleExternal ticketOperations p :=
  fun p hp => (sale_paid p hp).mono (by decide)

theorem requiredChars_ofList {cs : List Char} {max : Nat} {code : String} (htrim : trimChars cs = cs)
    (hne : cs ≠ []) (hmax : cs.length ≤ max) :
    requiredChars (String.ofList cs) max code = .ok (String.ofList cs) := by
  unfold requiredChars
  simp only [String.toList_ofList, htrim]
  exact if_neg (not_or.mpr ⟨hne, by omega⟩)

theorem decodeBase64_ofList {cs : List Char} (hne : cs ≠ []) (hlen : byteLength cs % 4 = 0) :
    decodeBase64 (String.ofList cs) = decodeChars cs := by
  unfold decodeBase64
  simp only [String.toList_ofList]
  exact if_neg (not_or.mpr ⟨hne, not_not.mpr hlen⟩)

theorem readSignedEnvelope_eq {text xdr : String} {bytes : List UInt8} {parsed : ParsedEnvelope}
    (htext : requiredChars text 100000 "invalid_signed_envelope_xdr" = .ok xdr)
    (hbytes : decodeBase64 xdr = .ok bytes) (hparsed : parsePaymentEnvelope bytes = .ok parsed)
    (hsigned : parsed.signatureCount ≠ 0) :
    Intents.readSignedEnvelope text = .ok ⟨xdr, bytes, parsed⟩ := by
  unfold Intents.readSignedEnvelope
  simp only [htext, bind, Except.bind, hbytes, hparsed, if_neg hsigned, pure, Except.pure]

theorem acceptSignedEnvelope_eq {sha256 : Sha256} {actorUserId intentId transactionId : Uuid}
    {text : String} {envelope : Intents.SignedEnvelope}
    (h : Intents.readSignedEnvelope text = .ok envelope) :
    Intents.acceptSignedEnvelope sha256 actorUserId intentId text transactionId =
      Intents.acceptEnvelope sha256 actorUserId intentId envelope transactionId := by
  funext k
  show valid (Intents.readSignedEnvelope text) _ = _
  rw [h]
  rfl

theorem saleEnvelope_read : Intents.readSignedEnvelope saleEnvelope.xdr = .ok saleEnvelope := by
  refine readSignedEnvelope_eq ?_ ?_ (by decide +kernel) (by decide)
  · exact requiredChars_ofList (by decide +kernel) (by decide +kernel) (by decide +kernel)
  · exact (decodeBase64_ofList (by decide +kernel) (by decide +kernel)).trans (by decide +kernel)

theorem sendEnvelope_eq :
    sendEnvelope = (Intents.acceptEnvelope saleSha256 3 34 saleEnvelope 35).request :=
  congrArg Handler.request (acceptSignedEnvelope_eq saleEnvelope_read)

/-- Sixteen minutes later another buyer reserves a seat. -/
def nextBuyer : List (Prog Database Row Site Result) :=
  [(environment (shopDirectory 1800000960) shopCatalogue).request,
    (Ticketing.createReservation saleSha256 2 24 ⟨1, "key2"⟩ ⟨40, 41, 42⟩).request]

theorem nextBuyer_requests : ∀ p ∈ nextBuyer, Requests saleExternal ticketOperations p := by
  simp only [nextBuyer, List.forall_mem_cons]
  refine ⟨?_, ?_, fun p hp => by cases hp⟩
  · exact ⟨_, by decide, .environment _ _⟩
  · exact ⟨_, by decide, .createReservation 2 24 ⟨1, "key2"⟩ ⟨40, 41, 42⟩⟩

def bothConditions (site : Site) (db : Database) : Prop := SweepsUnpaid site db ∧ EventsUnpayable site db

instance (site : Site) (db : Database) : Decidable (bothConditions site db) :=
  inferInstanceAs (Decidable (_ ∧ _))

theorem sale_outcome : (Pool.serveAll bothConditions shopDatabase sale).any (fun sold =>
    sold.2.orders.map (·.status) = [.paid] && sold.2.reservations.map (·.status) = [.reserved] &&
      (Pool.serveAll (fun _ _ => True) sold.2 nextBuyer).any fun later =>
        later.2.orders.map (fun o => (o.id, o.status)) = [(30, .paid), (40, .awaitingPayment)] &&
          later.2.reservations.map (fun r => (r.orderId, r.status)) =
            [(30, .expired), (40, .reserved)]) = true := by
  rw [sale, sendEnvelope_eq]
  decide +kernel

/-- The sale as a run, and the visit of the next buyer as a run behind it. -/
theorem sale_runs : ∃ sold later : Database,
    (∃ actions, Run (Pool.Step (Requests saleExternal ticketOperations) bothConditions)
      (Pool.idle shopDatabase) actions (Pool.idle sold)) ∧
    sold.orders.map (·.status) = [.paid] ∧ sold.reservations.map (·.status) = [.reserved] ∧
    (∃ actions, Run (Pool.Step (Requests saleExternal ticketOperations) fun _ _ => True)
      (Pool.idle sold) actions (Pool.idle later)) ∧
    later.orders.map (fun o => (o.id, o.status)) = [(30, .paid), (40, .awaitingPayment)] ∧
    later.reservations.map (fun r => (r.orderId, r.status)) =
      [(30, .expired), (40, .reserved)] := by
  obtain ⟨sold, hsold, hall⟩ := (Option.any_eq_true _ _).mp sale_outcome
  simp only [Bool.and_eq_true, decide_eq_true_eq] at hall
  obtain ⟨⟨horders, hreservations⟩, hlater⟩ := hall
  obtain ⟨later, hserved, hstatuses⟩ := (Option.any_eq_true _ _).mp hlater
  simp only [Bool.and_eq_true, decide_eq_true_eq] at hstatuses
  exact ⟨sold.2, later.2, Pool.run_of_serveAll sale_requests hsold, horders, hreservations,
    Pool.run_of_serveAll nextBuyer_requests hserved, hstatuses⟩

/-! ### Paid orders keep their reservations -/

/-- The reservation behind a paid order is reserved or converted, and reserved if the order
is paid and not moved on: `prepare_issuance` does not refuse the order for its reservation. -/
structure PaidKept (db : Database) : Prop where
  reservation : ∀ r ∈ db.reservations, ∀ o ∈ db.orders, o.id = r.orderId → o.status.Paid →
    r.status = .reserved ∨ r.status = .converted
  ready : ∀ orderId c, Issuance.paidOrderContext orderId db = some c → c.orderStatus = .paid →
    c.reservationStatus = .reserved

theorem Fits.paid {r : ReservationStatus} {s : OrderStatus} (h : Fits True r s) (hs : s.Paid) :
    r = .reserved ∨ (r = .converted ∧ s ≠ .paid) := by
  cases r with
  | reserved => exact .inl rfl
  | converted =>
      refine .inr ⟨rfl, ?_⟩
      rcases h.converted rfl with rfl | rfl <;> decide
  | released => exact absurd hs (h.released trivial (.inl rfl)).1
  | expired => exact absurd hs (h.released trivial (.inr (.inl rfl))).1
  | cancelled => exact absurd hs (h.released trivial (.inr (.inr rfl))).1

theorem Inv.paidKept {evidenced : Prop} {db : Database} (h : Inv True evidenced db) : PaidKept db where
  reservation r hr o ho hid hpaid := by
    obtain ⟨o', ho', hfit⟩ := h.fits _ r (reservationTable.find_of_mem h.reservationIds hr)
    have hfind : orderTable.find db r.orderId = some o := by
      rw [← hid]
      exact orderTable.find_of_mem h.orderIds ho
    obtain rfl := Option.some.inj (ho'.symm.trans hfind)
    exact (hfit.paid hpaid).imp_right And.left
  ready orderId c hc hpaid := by
    obtain ⟨o, r, tp, ho, hr, hro, -, heq⟩ := Issuance.paidOrderContext_eq h.reservationIds hc
    have hos : o.status = c.orderStatus := by rw [heq]
    have hrs : r.status = c.reservationStatus := by rw [heq]
    obtain ⟨o', ho', hfit⟩ := h.fits _ r hr
    rw [hro] at ho'
    obtain rfl := Option.some.inj (ho'.symm.trans ho)
    have hos' : o'.status = .paid := hos.trans hpaid
    rw [hos', hrs] at hfit
    exact (hfit.paid (.inl rfl)).resolve_right fun h => h.2 rfl

/-- **Paid orders keep their reservations** in every run whose sweeps meet no paid order. -/
theorem paid_reservations_kept {db₀ : Database} (h₀ : Initial db₀)
    {pool : Pool Database Row Site Result} {actions : List (Action Database Row Site Result)}
    (hrun : Run (Pool.Step (Requests ext operations) SweepsUnpaid) (Pool.idle db₀) actions pool) :
    PaidKept pool.db := by
  rw [← condition_held] at hrun
  exact (run_healthy (fun _ => safe_request) hrun (healthy_idle h₀.inv)).inv.paidKept

/-- The sale's order is paid, and its reservation kept. -/
theorem sale_reservation_kept :
    ∃ (pool : Pool Database Row Site Result) (actions : List (Action Database Row Site Result)),
      Run (Pool.Step (Requests saleExternal ticketOperations) SweepsUnpaid) (Pool.idle shopDatabase)
        actions pool ∧
      pool.db.orders.map (·.status) = [.paid] ∧ PaidKept pool.db := by
  obtain ⟨sold, -, ⟨actions, hrun⟩, horders, -⟩ := sale_runs
  have hrun' : Run (Pool.Step (Requests saleExternal ticketOperations) SweepsUnpaid)
      (Pool.idle shopDatabase) actions (Pool.idle sold) :=
    hrun.mono fun _ _ _ h => h.mono (fun _ h => h) fun _ _ h => h.1
  exact ⟨_, actions, hrun', horders, paid_reservations_kept shopDatabase_initial hrun'⟩

/-- Without the condition, the next buyer's sweep releases the seat of a paid order. -/
theorem paid_reservation_swept :
    ¬ ∀ (ext : External) (db₀ : Database), Initial db₀ →
      ∀ (pool : Pool Database Row Site Result) (actions : List (Action Database Row Site Result)),
        Run (Pool.Step (Requests ext ticketOperations) fun _ _ => True) (Pool.idle db₀) actions pool →
        PaidKept pool.db := by
  intro h
  obtain ⟨sold, later, ⟨actions, hrun⟩, -, -, ⟨actions', hrun'⟩, horders, hreservations⟩ := sale_runs
  have hfirst : Run (Pool.Step (Requests saleExternal ticketOperations) fun _ _ => True)
      (Pool.idle shopDatabase) actions (Pool.idle sold) :=
    hrun.mono fun _ _ _ h => h.mono (fun _ h => h) fun _ _ _ => trivial
  have hkept := h _ _ shopDatabase_initial _ _ (hfirst.append hrun')
  have ho : ((30, .paid) : Uuid × OrderStatus) ∈ later.orders.map fun o => (o.id, o.status) := by
    rw [horders]
    decide
  have hr : ((30, .expired) : Uuid × ReservationStatus) ∈
      later.reservations.map fun r => (r.orderId, r.status) := by
    rw [hreservations]
    decide
  obtain ⟨o, homem, hoeq⟩ := List.mem_map.mp ho
  obtain ⟨r, hrmem, hreq⟩ := List.mem_map.mp hr
  obtain ⟨hoid, hostatus⟩ := Prod.mk.inj hoeq
  obtain ⟨hroid, hrstatus⟩ := Prod.mk.inj hreq
  have hpaid : o.status.Paid := .inl hostatus
  have := hkept.reservation r hrmem o homem (hoid.trans hroid.symm) hpaid
  rw [hrstatus] at this
  exact absurd this (by decide)

/-! ### Paid orders have evidence -/

/-- Every paid order has a confirmed intent with an accepted reconciliation result. -/
def PaidEvidenced (db : Database) : Prop :=
  ∀ o ∈ db.orders, o.status.Paid → ∃ i ∈ db.intents, i.orderId = o.id ∧ i.status = .confirmed ∧
    ∃ r ∈ db.results, r.transactionIntentId = i.id ∧ r.status = .accepted

theorem Inv.paidEvidenced {held : Prop} {db : Database} (h : Inv held True db) : PaidEvidenced db := by
  intro o ho hpaid
  obtain ⟨id, i, hi, horder, hstatus, r, hr, hri, hrs⟩ :=
    h.evidence trivial _ o (orderTable.find_of_mem h.orderIds ho) hpaid
  obtain ⟨hmem, hid⟩ := intentTable.find_mem hi
  exact ⟨i, hmem, horder, hstatus, r, hr, hri.trans hid.symm, hrs⟩

/-- **Paid orders have evidence** in every run whose provider events meet no payable order. -/
theorem paid_orders_evidenced {db₀ : Database} (h₀ : Initial db₀)
    {pool : Pool Database Row Site Result} {actions : List (Action Database Row Site Result)}
    (hrun : Run (Pool.Step (Requests ext operations) EventsUnpayable) (Pool.idle db₀) actions pool) :
    PaidEvidenced pool.db := by
  rw [← condition_evidenced] at hrun
  exact (run_healthy (fun _ => safe_request) hrun (healthy_idle h₀.inv)).inv.paidEvidenced

/-- The sale's order is paid, with its evidence. -/
theorem sale_evidenced :
    ∃ (pool : Pool Database Row Site Result) (actions : List (Action Database Row Site Result)),
      Run (Pool.Step (Requests saleExternal ticketOperations) EventsUnpayable)
        (Pool.idle shopDatabase) actions pool ∧
      pool.db.orders.map (·.status) = [.paid] ∧ PaidEvidenced pool.db := by
  obtain ⟨sold, -, ⟨actions, hrun⟩, horders, -⟩ := sale_runs
  have hrun' : Run (Pool.Step (Requests saleExternal ticketOperations) EventsUnpayable)
      (Pool.idle shopDatabase) actions (Pool.idle sold) :=
    hrun.mono fun _ _ _ h => h.mono (fun _ h => h) fun _ _ h => h.2
  exact ⟨_, actions, hrun', horders, paid_orders_evidenced shopDatabase_initial hrun'⟩

/-- The operations on an order up to its payment. -/
def orderOperations : List Operation :=
  [.createOrder, .createPaymentAttempt, .recordPaymentEvent, .createTransactionIntent,
    .acceptSignedEnvelope, .recordSubmissionReceipt, .recordChainEvidence]

/-- An order, an attempt to pay it, and the event of a provider that reports the payment. -/
def reportedSale : List (Prog Database Row Site Result) :=
  [(Orders.createOrder saleSha256 3 10 ⟨20, 21, 1, "testnet", "k1"⟩ 50 51).request,
    (Orders.createPaymentAttempt 3 50 ⟨"stellar", none, none⟩ 52).request,
    (Orders.recordPaymentEvent saleSha256 saleExternal.toVec 3 52
      { providerEventId := "e1", signatureVerified := true, outcome := "confirmed"
        amountMinor := 1000000, assetCode := "XLM", assetScale := 7, assetIssuer := none
        payerAccount := none, environment := "testnet", payload := .object [] } 53).request]

theorem reportedSale_requests : ∀ p ∈ reportedSale, Requests saleExternal orderOperations p := by
  simp only [reportedSale, List.forall_mem_cons]
  refine ⟨?_, ?_, ?_, fun p hp => by cases hp⟩
  · exact ⟨_, by decide, .createOrder 3 10 _ 50 51⟩
  · exact ⟨_, by decide, .createPaymentAttempt 3 50 _ 52⟩
  · exact ⟨_, by decide, .recordPaymentEvent 3 52 _ 53⟩

theorem reportedSale_outcome : (Pool.serveAll (fun _ _ => True) shopDatabase reportedSale).any
    (fun sold => sold.2.orders.map (·.status) = [.paid] && sold.2.intents.isEmpty) = true := by
  decide +kernel

/-- Without the condition, a provider event pays an order that has no intent at all. -/
theorem paid_without_evidence :
    ¬ ∀ (ext : External) (db₀ : Database), Initial db₀ →
      ∀ (pool : Pool Database Row Site Result) (actions : List (Action Database Row Site Result)),
        Run (Pool.Step (Requests ext orderOperations) fun _ _ => True) (Pool.idle db₀) actions pool →
        PaidEvidenced pool.db := by
  intro h
  obtain ⟨sold, hsold, hall⟩ := (Option.any_eq_true _ _).mp reportedSale_outcome
  simp only [Bool.and_eq_true, decide_eq_true_eq, List.isEmpty_iff] at hall
  obtain ⟨horders, hintents⟩ := hall
  obtain ⟨actions, hrun⟩ := Pool.run_of_serveAll reportedSale_requests hsold
  have ho : OrderStatus.paid ∈ sold.2.orders.map (·.status) := by
    rw [horders]
    exact List.mem_cons_self
  obtain ⟨o, homem, hostatus⟩ := List.mem_map.mp ho
  obtain ⟨i, himem, -⟩ := h _ _ shopDatabase_initial _ _ hrun o homem (.inl hostatus)
  rw [show (Pool.idle sold.2).db.intents = [] from hintents] at himem
  cases himem

end CrownFi.Commerce
