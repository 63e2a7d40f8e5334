import CrownFi.Commerce.Payments
import CrownFi.Lib.Serial
import CrownFi.Payouts.Outlines

/-!
# CrownFi.Payouts.Batches

**Payout batches balance.** In every interleaving of the requests on payouts, and whatever
happens in the shop, a batch counts its confirmed transfers and is confirmed when all three are;
each accepted operation on the chain confirms one transfer and is for its amount, asset and
destination; and a confirmed batch has paid out exactly its amount.
-/

namespace CrownFi.Payouts

open Lib CrownFi.Api

variable {ext : External}

/-- Every request on payouts has its outline. -/
theorem safe_requests (p : Prog Database Row Site Commerce.Result) (hp : Requests ext p) :
    SafeRequest (Kept fun _ => True) (Forward part Rely) (fun _ _ => True) p := by
  cases hp with
  | createPayoutRule actor organization product body ruleId =>
      exact safe_createPayoutRule actor organization product body ruleId fun _ _ _ _ => trivial
  | createPayoutBatch actor order body ids =>
      exact safe_createPayoutBatch ext.sha256 actor order body ids fun _ _ _ _ => trivial
  | recordPayoutSubmission actor batch body =>
      exact safe_recordPayoutSubmission actor batch body fun _ _ _ _ _ _ _ _ => trivial
  | recordTransferEvidence actor batch body evidenceId =>
      exact safe_recordTransferEvidence ext actor batch body evidenceId
        (fun _ _ _ _ _ _ _ _ _ _ _ => trivial) fun _ _ _ _ _ _ _ _ _ _ _ _ => trivial
  | recordPayoutFailure actor batch code =>
      exact safe_recordPayoutFailure actor batch code fun _ _ _ _ _ _ _ _ _ => trivial
  | elsewhere shop => exact safe_shop shop fun _ _ _ _ => trivial

/-- The payouts before the first batch. -/
structure Unpaid (db : Database) : Prop where
  batches : db.batches = []
  transfers : db.transfers = []
  evidence : db.evidence = []

theorem Unpaid.inv {db : Database} (h : Unpaid db) : Inv db where
  batchIds := by simp [h.batches]
  transferIds := by simp [h.transfers]
  operations := by simp [h.evidence]
  owned t ht := by simp [h.transfers] at ht
  about e he := by simp [h.evidence] at he
  exact bid b hb := by
    have hmem : b ∈ db.batches := (batchTable.find_mem hb).1
    simp [h.batches] at hmem
  evidenced t ht := by simp [h.transfers] at ht

/-- What the accepted evidence of a batch adds up to. -/
def paidOut (db : Database) (batchId : Uuid) : Int :=
  total (fun t => total (·.amountMinor) (acceptedOf db t.id)) (transfersOf db batchId)

/-- A batch, its transfers, and the evidence of them. -/
structure Balanced (db : Database) (b : PayoutBatch) : Prop where
  roles : (transfersOf db b.id).map (·.role) = [.candidate, .organizer, .platform]
  counted : b.confirmedTransferCount =
    ((transfersOf db b.id).filter (·.status = .confirmed)).length
  complete : b.status = .confirmed ↔ ∀ t ∈ transfersOf db b.id, t.status = .confirmed
  paid : b.status = .confirmed → paidOut db b.id = b.amountMinor

/-- An accepted operation on the chain pays one transfer, and no other. -/
def PaysOne (db : Database) (e : PayoutEvidence) : Prop :=
  ∃ t ∈ db.transfers, ∃ b ∈ db.batches, t.id = e.payoutTransferId ∧ t.payoutBatchId = b.id ∧
    t.status = .confirmed ∧ Pays b.asset t e ∧
    ∀ t' ∈ db.transfers, t'.status = .confirmed → t'.transactionHash = some e.transactionHash →
      t'.operationIndex = some e.operationIndex → t' = t

theorem Inv.paidOut {db : Database} {b : PayoutBatch} (h : Inv db) (hb : b ∈ db.batches)
    (hall : ∀ t ∈ transfersOf db b.id, t.status = .confirmed) :
    Payouts.paidOut db b.id = b.amountMinor := by
  have hfind : batchTable.find db b.id = some b := batchTable.find_of_mem h.batchIds hb
  rw [← (h.exact b.id b hfind).amount]
  refine total_congr fun t ht => ?_
  obtain ⟨hmem, hof⟩ := mem_transfersOf.mp ht
  rcases h.evidenced t hmem b (hof ▸ hfind) with ⟨hopen, -⟩ | ⟨-, e, hone, hpays⟩
  · exact absurd (hall t ht) hopen
  · rw [hone, total_cons, total_nil, add_zero, hpays.amount]

theorem Inv.balanced {db : Database} {b : PayoutBatch} (h : Inv db) (hb : b ∈ db.batches) :
    Balanced db b := by
  have hexact := h.exact b.id b (batchTable.find_of_mem h.batchIds hb)
  exact ⟨hexact.roles, hexact.counted, hexact.complete, fun hs => h.paidOut hb (hexact.complete.mp hs)⟩

theorem Inv.paysOne {db : Database} {e : PayoutEvidence} (h : Inv db) (he : e ∈ db.evidence)
    (haccepted : e.processingStatus = .accepted) : PaysOne db e := by
  obtain ⟨t, ht, hid⟩ := h.about e he
  obtain ⟨b, hb⟩ := h.owned t ht
  obtain ⟨hbmem, hbid⟩ := batchTable.find_mem hb
  have hmem : e ∈ acceptedOf db t.id := mem_acceptedOf.mpr ⟨he, hid.symm, haccepted⟩
  rcases h.evidenced t ht b hb with ⟨-, hnone⟩ | ⟨hconfirmed, f, hone, hpays⟩
  · rw [hnone] at hmem
    cases hmem
  rw [hone] at hmem
  obtain rfl : e = f := by simpa using hmem
  refine ⟨t, ht, b, hbmem, hid, hbid.symm, hconfirmed, hpays, fun t' ht' hs' hhash hindex => ?_⟩
  -- the evidence of the other transfer is about the same operation, so it is the same
  obtain ⟨b', hb'⟩ := h.owned t' ht'
  rcases h.evidenced t' ht' b' hb' with ⟨hopen, -⟩ | ⟨-, f, hone', hpays'⟩
  · exact absurd hs' hopen
  have hf : f ∈ acceptedOf db t'.id := by
    rw [hone']
    exact List.mem_singleton_self f
  obtain ⟨hf, hfid, -⟩ := mem_acceptedOf.mp hf
  have heq : f = e := by
    refine List.inj_on_of_nodup_map h.operations hf he ?_
    rw [Option.some.inj (hpays'.hash.symm.trans hhash), Option.some.inj (hpays'.index.symm.trans hindex)]
  exact h.transfer_eq ht' ht (hfid.symm.trans (heq ▸ hid.symm))

/-- **Payout batches balance** in every state of every run. -/
theorem payout_batches_balanced {db₀ : Database} (h₀ : Unpaid db₀)
    {pool : Pool Database Row Site Commerce.Result}
    {actions : List (Action Database Row Site Commerce.Result)}
    (hrun : Run (Pool.Step (Requests ext) fun _ _ => True) (Pool.idle db₀) actions pool) :
    (∀ b ∈ pool.db.batches, Balanced pool.db b) ∧
      ∀ e ∈ pool.db.evidence, e.processingStatus = .accepted → PaysOne pool.db e := by
  have hinv : Inv pool.db :=
    (run_healthy safe_requests hrun (healthy_idle ⟨h₀.inv, trivial⟩)).inv.inv
  exact ⟨fun b hb => hinv.balanced hb, fun e he hs => hinv.paysOne he hs⟩

/-! ### A payout -/

/-- The account that pays, and those that are paid. -/
def sourceAddress : String := "GABAEAQCAIBAEAQCAIBAEAQCAIBAEAQCAIBAEAQCAIBAEAQCAIBAEJXA"

def recipientAddress : PayoutRole → String
  | .candidate => "GABQGAYDAMBQGAYDAMBQGAYDAMBQGAYDAMBQGAYDAMBQGAYDAMBQHGPC"
  | .organizer => "GACAIBAEAQCAIBAEAQCAIBAEAQCAIBAEAQCAIBAEAQCAIBAEAQCAJJHP"
  | .platform => "GACQKBIFAUCQKBIFAUCQKBIFAUCQKBIFAUCQKBIFAUCQKBIFAUCQKG7N"

def payoutHash : String := String.ofList (List.replicate 64 'b')

def shareMinor : PayoutRole → Int
  | .candidate => 900000
  | .organizer => 95000
  | .platform => 5000

def shareText : PayoutRole → String
  | .candidate => "0.0900000"
  | .organizer => "0.0095000"
  | .platform => "0.0005000"

def shareIndex : PayoutRole → Int
  | .candidate => 0
  | .organizer => 1
  | .platform => 2

/-- A fulfilled order for one seat, paid on the chain. -/
def fulfilledShop : Commerce.Database :=
  { Commerce.shopDatabase with
    orders := [⟨30, 10, 1, .fulfilled, .testnet, "k", "", 1000000, ⟨"XLM", 7, none⟩, none⟩]
    orderItems := [⟨31, 30, 20, "Seat", 1, 1000000, 1000000, ⟨"XLM", 7, none⟩⟩]
    intents := [⟨34, 10, 30, 33, 3, "", "", 8, 100, 1000000, ⟨"XLM", 7, none⟩, "", "i1", "", "", "", "",
      .confirmed, 0, none⟩]
    results := [⟨37, 34, 36, .accepted, none, 3, 0⟩] }

def payoutRule : PayoutRule where
  id := 40
  organizationId := 10
  productId := 20
  candidateAccount := recipientAddress .candidate
  organizerAccount := recipientAddress .organizer
  platformAccount := recipientAddress .platform
  candidateBps := 9000
  organizerBps := 950
  platformBps := 50
  status := .active
  createdByUserId := 3
  sourceAccount := sourceAddress

/-- The order waits for its payout. -/
def payoutDatabase : Database where
  shop := fulfilledShop
  rules := [payoutRule]
  batches := []
  transfers := []
  evidence := []

/-- The operation of one transfer, as the ledger has it. -/
def payoutOperation (role : PayoutRole) : Json := .object
  [("type", .string "payment"), ("transaction_hash", .string payoutHash),
    ("operation_index", .int (shareIndex role)), ("ledger_sequence", .int 90),
    ("source_account", .string sourceAddress), ("to", .string (recipientAddress role)),
    ("amount", .string (shareText role)), ("asset_type", .string "native")]

def payoutEvidence (role : PayoutRole) : TransferEvidenceRequest where
  role := role.text
  transactionHash := payoutHash
  operationIndex := shareIndex role
  sourceAccount := sourceAddress
  recipientAccount := recipientAddress role
  amountMinor := shareMinor role
  assetCode := "XLM"
  assetScale := 7
  assetIssuer := none
  ledgerSequence := 90
  successful := true
  rawOperation := payoutOperation role

/-- The evidence as it is written to be hashed: keys in order. -/
def payoutEvidenceText (role : PayoutRole) : String :=
  "\x7b\"amount_minor\":" ++ toString (shareMinor role) ++ ",\"asset_code\":\"XLM\"," ++
    "\"asset_issuer\":null,\"asset_scale\":7,\"ledger_sequence\":90,\"operation_index\":" ++
    toString (shareIndex role) ++ ",\"raw_operation\":\x7b\"amount\":\"" ++ shareText role ++
    "\",\"asset_type\":\"native\",\"ledger_sequence\":90,\"operation_index\":" ++
    toString (shareIndex role) ++ ",\"source_account\":\"" ++ sourceAddress ++ "\",\"to\":\"" ++
    recipientAddress role ++ "\",\"transaction_hash\":\"" ++ payoutHash ++
    "\",\"type\":\"payment\"\x7d,\"recipient_account\":\"" ++ recipientAddress role ++
    "\",\"role\":\"" ++ role.text ++ "\",\"source_account\":\"" ++ sourceAddress ++
    "\",\"successful\":true,\"transaction_hash\":\"" ++ payoutHash ++ "\"\x7d"

/-- SHA-256 of what the requests below hash, found by its length. -/
def payoutSha256 : Sha256 := fun value => bytesOf <|
  match value.size with
  | 209 => 0xd607d3d29f640127e04f4f9f84c9cde8375e9c4e017bf4bdc1f89c3f02efd529
  | 739 => 0xe24abb2cc2613de6cca174556150af13c6ccfb0781263d819c8960de3ac190f0
  | 741 => 0x400011a79656bd7711cc860475977aaa6c873919e9b2944d7991c86d8b8bc534
  | 742 => 0xf01f91d5745a59aafa0a21212c95c037b20da9d3ac3629c04d4937c50d6a5157
  | _ => 0

def payoutExternal : External where
  sha256 := payoutSha256
  toVec value :=
    match value.getStr "role" with
    | some "candidate" => (payoutEvidenceText .candidate).toUTF8
    | some "organizer" => (payoutEvidenceText .organizer).toUTF8
    | some "platform" => (payoutEvidenceText .platform).toUTF8
    | _ => "\x7b\x7d".toUTF8

def prepareBatch : Prog Database Row Site Commerce.Result :=
  (createPayoutBatch payoutSha256 3 30 ⟨40, "p1"⟩ ⟨50, 51, 52, 53⟩).request

def submitBatch : Prog Database Row Site Commerce.Result :=
  (recordPayoutSubmission 3 50 ⟨payoutHash, .object [("hash", .string payoutHash)]⟩).request

def sendEvidence (role : PayoutRole) (evidenceId : Uuid) : Prog Database Row Site Commerce.Result :=
  (recordTransferEvidence payoutExternal 3 50 (payoutEvidence role) evidenceId).request

def reportFailure : Prog Database Row Site Commerce.Result :=
  (recordPayoutFailure 3 50 "timeout").request

/-- A payout, with some evidence twice. -/
def payout : List (Prog Database Row Site Commerce.Result) :=
  [prepareBatch, submitBatch, sendEvidence .candidate 61, sendEvidence .organizer 62,
    sendEvidence .candidate 63, sendEvidence .platform 64]

theorem payout_requests : ∀ p ∈ payout, Requests payoutExternal p := by
  simp only [payout, List.forall_mem_cons]
  refine ⟨?_, ?_, ?_, ?_, ?_, ?_, fun p hp => by cases hp⟩
  · exact .createPayoutBatch 3 30 ⟨40, "p1"⟩ ⟨50, 51, 52, 53⟩
  · exact .recordPayoutSubmission 3 50 ⟨payoutHash, .object [("hash", .string payoutHash)]⟩
  · exact .recordTransferEvidence 3 50 (payoutEvidence .candidate) 61
  · exact .recordTransferEvidence 3 50 (payoutEvidence .organizer) 62
  · exact .recordTransferEvidence 3 50 (payoutEvidence .candidate) 63
  · exact .recordTransferEvidence 3 50 (payoutEvidence .platform) 64

theorem payout_unpaid : Unpaid payoutDatabase := ⟨rfl, rfl, rfl⟩

theorem payout_served : (Pool.serveAll (fun _ _ => True) payoutDatabase payout).any
    (fun all => decide (all.2.batches.map (fun b => (b.status, b.confirmedTransferCount)) =
      [(.confirmed, 3)] ∧ all.2.evidence.length = 3)) = true := by
  decide +kernel

/-- The payout, once it is confirmed. -/
theorem payout_balanced : ∃ (pool : Pool Database Row Site Commerce.Result)
    (actions : List (Action Database Row Site Commerce.Result)),
    Run (Pool.Step (Requests payoutExternal) fun _ _ => True) (Pool.idle payoutDatabase) actions pool ∧
      pool.db.batches.map (fun b => (b.status, b.confirmedTransferCount)) = [(.confirmed, 3)] ∧
      (∀ b ∈ pool.db.batches, Balanced pool.db b) ∧
        ∀ e ∈ pool.db.evidence, e.processingStatus = .accepted → PaysOne pool.db e := by
  obtain ⟨all, hall, hconfirmed⟩ := (Option.any_eq_true _ _).mp payout_served
  obtain ⟨actions, hrun⟩ := Pool.run_of_serveAll payout_requests hall
  exact ⟨_, actions, hrun, (of_decide_eq_true hconfirmed).1,
    payout_batches_balanced payout_unpaid hrun⟩

end CrownFi.Payouts
