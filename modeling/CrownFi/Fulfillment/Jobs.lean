import CrownFi.Commerce.Payments
import CrownFi.Fulfillment.Outlines
import CrownFi.Lib.Serial

/-!
# CrownFi.Fulfillment.Jobs

**The jobs of collectibles, over whole runs.** Any number of workers claim, submit and fail jobs,
and evidence of mints arrives in any order. In every state of every run a job keeps within its
attempts, is locked exactly while it runs, and only the worker who holds it reports on it; its mint,
its order, the accepted evidence and the owner of what was made agree with its status, and the
inventory has moved by what was fulfilled. A job in flight can only be fulfilled
(`flights_kept`). Evidence that was rejected stays rejected, so **a mint whose event was reported
too early is never confirmed** (`rejections_final`).
-/

namespace CrownFi.Fulfillment

open Lib CrownFi.Api
open CrownFi.Commerce (Response Result Order OrderItem OrderStatus Inventory)

variable {ext : External} {ok : Site → Database → Prop} {K : CollectibleMint → Prop}
  {E : MintEvidence → Prop} {db₀ : Database} {pool pool' : Pool Database Row Site Result}
  {actions more : List (Action Database Row Site Result)}

/-! ### Runs -/

/-- Runs from a state of the invariant. -/
theorem running (hK : Marks K E ok) (h₀ : Kept K E db₀)
    (hrun : Run (Pool.Step (Requests ext) ok) (Pool.idle db₀) actions pool) :
    Running (Kept K E) (Forward part Rely) ok Owned pool :=
  run_running (safe_requests hK) hrun (healthy_idle h₀)

theorem marks_true : Marks (fun _ => True) (fun _ => True) ok where
  waiting _ _ := trivial
  confirm _ _ _ := trivial
  submit _ _ _ _ _ := trivial
  evidence _ _ _ := trivial

theorem Fresh.running (h₀ : Fresh db₀)
    (hrun : Run (Pool.Step (Requests ext) ok) (Pool.idle db₀) actions pool) :
    Running (Kept (fun _ => True) fun _ => True) (Forward part Rely) ok Owned pool :=
  Fulfillment.running marks_true ⟨h₀.machine, fun _ _ => trivial, fun _ _ => trivial⟩ hrun

/-- What no commit undoes. -/
structure Later (db db' : Database) : Prop where
  items : db'.shop.orderItems = db.shop.orderItems
  jobs : jobTable.Grows Leads db db'
  stock : ∀ productId, unfulfilled productId db' = unfulfilled productId db
  evidence : db.evidence <+: db'.evidence

theorem Rely.later {L : List (Lock Row)} {db db' : Database} (h : Rely L db db') : Later db db' :=
  ⟨h.items, h.jobs, h.stock, h.evidence⟩

theorem Later.trans {db db' db'' : Database} (h : Later db db') (h' : Later db' db'') :
    Later db db'' where
  items := h'.items.trans h.items
  jobs := h.jobs.trans h'.jobs
  stock productId := (h'.stock productId).trans (h.stock productId)
  evidence := h.evidence.trans h'.evidence

/-- **Across a run** jobs take steps, the inventory follows them, and evidence stays. -/
theorem later_of_run (hK : Marks K E ok)
    (h : Running (Kept K E) (Forward part Rely) ok Owned pool)
    (hrun : Run (Pool.Step (Requests ext) ok) pool more pool') : Later pool.db pool'.db := by
  refine hrun.relation (P := Running (Kept K E) (Forward part Rely) ok Owned)
    (R := fun p q => Later p.db q.db) (fun _ _ _ hp hs => (hp.step (safe_requests hK) hs).1)
    (fun p => (Rely.refl (L := [])).later) (fun _ _ _ => Later.trans) (fun p _ q hp hs => ?_) h
  obtain ⟨-, hsame | ⟨L, hL⟩⟩ := hp.step (safe_requests hK) hs
  · rw [hsame]
    exact (Rely.refl (L := [])).later
  · exact hL.moved.later

/-! ### A collectible that is minted -/

def mintContract : String := "CADAMBQGAYDAMBQGAYDAMBQGAYDAMBQGAYDAMBQGAYDAMBQGAYDAMSST"

def mintHash : String := String.ofList (List.replicate 64 'd')

def mintMetadata : String := String.ofList (List.replicate 64 'c')

/-- A paid order of one collectible. -/
def mintShop : Commerce.Database :=
  { Commerce.shopDatabase with
    inventory := [⟨20, some 5, 1, 0⟩]
    orders := [⟨30, 10, 1, .paid, .testnet, "k", "", 1000000, ⟨"XLM", 7, none⟩, none⟩]
    orderItems := [⟨31, 30, 20, "Seat", 1, 1000000, 1000000, ⟨"XLM", 7, none⟩⟩]
    intents := [⟨34, 10, 30, 33, 3, "", "", 8, 100, 1000000, ⟨"XLM", 7, none⟩, "", "i1", "", "", "", "",
      .confirmed, 0, none⟩]
    results := [⟨37, 34, 36, .accepted, none, 3, 0⟩] }

def mintDatabase : Database where
  shop := mintShop
  kinds := [⟨20, .collectible⟩]
  collections := [⟨40, some mintContract, some mintMetadata⟩]
  editions := [⟨41, 40, 20, none, none, .onPurchase⟩]
  jobs := []
  mints := []
  evidence := []
  projections := []

/-- The event of the mint, as the ledger has it. -/
def mintEvent : Json := .object
  [("event_type", .string "mint"), ("transaction_hash", .string mintHash),
    ("contract_id", .string mintContract), ("token_id", .string "7"),
    ("owner_account", .string Commerce.payerAddress), ("ledger_sequence", .int 95),
    ("successful", .bool true)]

/-- The payload of the job as it is written to be hashed: keys in order. -/
def payloadText : String :=
  "\x7b\"collectible_edition_id\":\"00000000-0000-0000-0000-000000000029\",\"contract_id\":\"" ++
    mintContract ++ "\",\"metadata_sha256\":\"" ++ mintMetadata ++
    "\",\"network\":\"testnet\",\"order_id\":\"00000000-0000-0000-0000-00000000001e\"," ++
    "\"order_item_id\":\"00000000-0000-0000-0000-00000000001f\"," ++
    "\"product_id\":\"00000000-0000-0000-0000-000000000014\",\"quantity\":1," ++
    "\"recipient_account\":\"" ++ Commerce.payerAddress ++ "\"\x7d"

def mintEvidenceText : String :=
  "\x7b\"contract_id\":\"" ++ mintContract ++ "\",\"event_index\":0,\"ledger_sequence\":95," ++
    "\"owner_account\":\"" ++ Commerce.payerAddress ++ "\",\"raw_event\":\x7b\"contract_id\":\"" ++
    mintContract ++ "\",\"event_type\":\"mint\",\"ledger_sequence\":95,\"owner_account\":\"" ++
    Commerce.payerAddress ++ "\",\"successful\":true,\"token_id\":\"7\",\"transaction_hash\":\"" ++
    mintHash ++ "\"\x7d,\"successful\":true,\"token_id\":\"7\",\"transaction_hash\":\"" ++ mintHash ++
    "\"\x7d"

/-- SHA-256 of what the requests below hash, found by its length. -/
def mintSha256 : Sha256 := fun value => bytesOf <|
  match value.size with
  | 315 => 0x7efbac0e50f44a6db82e9ba97356ae361c9adf8f4b8ea54a5982a427470365c4
  | 492 => 0x2cb98bd43b4c8743e245e31e8f53ec9d46c4c990f62b225eb16b99a7cbe9571a
  | 627 => 0x6ffba1a7f579fbafabe999457df1dd755e7982c25d4a32c1ef4e7b3492b8321d
  | _ => 0

def mintExternal : External where
  sha256 := mintSha256
  toVec value := if (value.get "raw_event").isSome then mintEvidenceText.toUTF8 else payloadText.toUTF8

def createJob : Prog Database Row Site Result :=
  (createFulfillmentJob mintExternal 3 30 ⟨Commerce.payerAddress, "j1", none⟩ ⟨50, 51⟩).request

def claimJob (workerId : String) : Prog Database Row Site Result :=
  (claimFulfillmentJob 3 50 workerId).request

def reportSubmission (workerId : String) : Prog Database Row Site Result :=
  (recordMintSubmission 3 50 ⟨workerId, mintHash, "7"⟩).request

/-- A failure after which the job can be claimed again at once. -/
def reportFailure (workerId : String) : Prog Database Row Site Result :=
  (recordFulfillmentFailure 3 50 ⟨workerId, "timeout", true, some 0⟩).request

def mintReport : MintEvidenceRequest :=
  ⟨mintHash, mintContract, "7", Commerce.payerAddress, 95, 0, true, mintEvent⟩

def reportMint (ids : EvidenceIds) : Prog Database Row Site Result :=
  (recordMintEvidence mintExternal 3 50 mintReport ids).request

/-- A job that one worker fails and another submits. -/
def minting : List (Prog Database Row Site Result) :=
  [createJob, claimJob "w1", reportFailure "w1", claimJob "w2", reportSubmission "w2"]

/-- A failure that comes too late, and the evidence. -/
def minted : List (Prog Database Row Site Result) := [reportFailure "w2", reportMint ⟨60, 61⟩]

/-- A job whose evidence comes before its submission. -/
def mintedEarly : List (Prog Database Row Site Result) := [createJob, claimJob "w1", reportMint ⟨60, 61⟩]

def submittedLate : List (Prog Database Row Site Result) := [reportSubmission "w1", reportMint ⟨62, 63⟩]

theorem minting_requests : ∀ p ∈ minting, Requests mintExternal p := by
  simp only [minting, List.forall_mem_cons]
  refine ⟨?_, ?_, ?_, ?_, ?_, fun p hp => by cases hp⟩
  · exact .createFulfillmentJob 3 30 ⟨Commerce.payerAddress, "j1", none⟩ ⟨50, 51⟩
  · exact .claimFulfillmentJob 3 50 "w1"
  · exact .recordFulfillmentFailure 3 50 ⟨"w1", "timeout", true, some 0⟩
  · exact .claimFulfillmentJob 3 50 "w2"
  · exact .recordMintSubmission 3 50 ⟨"w2", mintHash, "7"⟩

theorem minted_requests : ∀ p ∈ minted, Requests mintExternal p := by
  simp only [minted, List.forall_mem_cons]
  refine ⟨?_, ?_, fun p hp => by cases hp⟩
  · exact .recordFulfillmentFailure 3 50 ⟨"w2", "timeout", true, some 0⟩
  · exact .recordMintEvidence 3 50 mintReport ⟨60, 61⟩

theorem mintDatabase_fresh : Fresh mintDatabase where
  jobs := rfl
  mints := rfl
  evidence := rfl
  projections := rfl
  orderIds := by decide
  products := by decide

/-- The job is submitted by its second worker, then fulfilled. -/
def submittedThenFulfilled (db db' : Database) : Bool :=
  db.jobs.map (fun j => (j.id, j.status, j.attempts)) = [(50, .awaitingChain, 2)] ∧
    db'.jobs.map (fun j => (j.id, j.status, j.attempts)) = [(50, .fulfilled, 2)] ∧
    db'.shop.inventory = [⟨20, some 5, 0, 1⟩]

theorem minting_served : (Pool.serveAll (fun _ _ => True) mintDatabase minting).any (fun all =>
    (Pool.serveAll (fun _ _ => True) all.2 minted).any fun all' =>
      submittedThenFulfilled all.2 all'.2) = true := by
  decide +kernel

theorem minting_runs : ∃ (db db' : Database) (actions more : List (Action Database Row Site Result)),
    Run (Pool.Step (Requests mintExternal) fun _ _ => True) (Pool.idle mintDatabase) actions
        (Pool.idle db) ∧
      Run (Pool.Step (Requests mintExternal) fun _ _ => True) (Pool.idle db) more (Pool.idle db') ∧
      db.jobs.map (fun j => (j.id, j.status, j.attempts)) = [(50, .awaitingChain, 2)] ∧
      db'.jobs.map (fun j => (j.id, j.status, j.attempts)) = [(50, .fulfilled, 2)] ∧
      db'.shop.inventory = [⟨20, some 5, 0, 1⟩] := by
  obtain ⟨db, db', actions, more, hrun, hmore, htest⟩ :=
    Pool.runs_of_serveAll submittedThenFulfilled minting_requests minted_requests minting_served
  exact ⟨db, db', actions, more, hrun, hmore, of_decide_eq_true htest⟩

/-! ### Attempts and owners -/

/-- **A job keeps within its attempts, is locked exactly while it runs, and only the worker who
holds it reports on it.** -/
theorem jobs_owned (h₀ : Fresh db₀)
    (hrun : Run (Pool.Step (Requests ext) fun _ _ => True) (Pool.idle db₀) actions pool) :
    (∀ j ∈ pool.db.jobs, j.attempts ≤ j.maxAttempts ∧
        (j.status = .queued ∨ j.status = .failed → j.attempts < j.maxAttempts) ∧
        (j.lockedAt.isSome ↔ j.status = .running) ∧ (j.lockedBy.isSome ↔ j.status = .running)) ∧
      ∀ t ∈ pool.threads, ∀ jobId workerId txHash, t.prog.label? = some (.submission jobId workerId txHash) ∨
          t.prog.label? = some (.failure jobId workerId) →
        ∃ j, jobTable.find (t.pending pool.db) jobId = some j ∧ j.status = .running ∧
          j.lockedBy = some workerId := by
  have hpool := h₀.running hrun
  refine ⟨fun j hj => ?_, fun t ht jobId workerId txHash hlabel => ?_⟩
  · have hsound := hpool.inv.machine.sound j hj
    exact ⟨hsound.bounded, hsound.claimable, hsound.lockedAt, hsound.lockedBy⟩
  · obtain ⟨j, hj, howned⟩ : ∃ j, jobTable.find (t.pending pool.db) jobId = some j ∧
        j.ownedBy workerId = true := by
      rcases hlabel with hlabel | hlabel
      · exact hpool.sees ht hlabel trivial
      · exact hpool.sees ht hlabel trivial
    simp only [FulfillmentJob.ownedBy, Bool.and_eq_true, decide_eq_true_eq] at howned
    exact ⟨j, hj, howned⟩

theorem minted_owned : ∃ (pool : Pool Database Row Site Result)
    (actions : List (Action Database Row Site Result)),
    Run (Pool.Step (Requests mintExternal) fun _ _ => True) (Pool.idle mintDatabase) actions pool ∧
      pool.db.jobs.map (fun j => (j.id, j.status, j.attempts)) = [(50, .fulfilled, 2)] ∧
      ∀ j ∈ pool.db.jobs, j.attempts ≤ j.maxAttempts ∧
        (j.status = .queued ∨ j.status = .failed → j.attempts < j.maxAttempts) ∧
        (j.lockedAt.isSome ↔ j.status = .running) ∧ (j.lockedBy.isSome ↔ j.status = .running) := by
  obtain ⟨db, db', actions, more, hrun, hmore, -, hjobs, -⟩ := minting_runs
  exact ⟨_, _, hrun.append hmore, hjobs, (jobs_owned mintDatabase_fresh (hrun.append hmore)).1⟩

/-! ### Effects -/

/-- **A job, its mint, its order, the evidence and the owner agree**, no order has two jobs, and the
inventory has moved by what was fulfilled. -/
theorem jobs_accounted (h₀ : Fresh db₀)
    (hrun : Run (Pool.Step (Requests ext) fun _ _ => True) (Pool.idle db₀) actions pool) :
    (∀ j ∈ pool.db.jobs, ∃ m o, mintOf j.id pool.db = some m ∧ m.status = j.status.mint ∧
        orderTable.find pool.db j.orderId = some o ∧ o.status = j.status.order ∧
        Proven m (acceptedOf m.id pool.db) (projectionsOf m.id pool.db)) ∧
      (pool.db.jobs.map (·.orderId)).Nodup ∧
      ∀ productId, inventoryTable.find pool.db productId =
        (inventoryTable.find db₀ productId).map
          (fulfilInventory (unitsFulfilled productId pool.db)) := by
  have hpool := h₀.running hrun
  have hI := hpool.inv.machine
  refine ⟨fun j hj => ?_, hI.jobOrders, fun productId => ?_⟩
  · obtain ⟨m, hm, hmint⟩ := hI.minted j hj
    obtain ⟨o, ho, horder⟩ := hI.ordered j hj
    exact ⟨m, o, hm, hmint, ho, horder, hI.proven m (mintOf_mem hm).1⟩
  · have hidle : Running (Kept (fun _ => True) fun _ => True) (Forward part Rely) (fun _ _ => True) Owned
        (Pool.idle db₀ : Pool Database Row Site Result) := healthy_idle ⟨h₀.machine, fun _ _ => trivial, fun _ _ => trivial⟩
    have hstock := (later_of_run marks_true hidle hrun).stock productId
    have hnone : unitsFulfilled productId db₀ = 0 := by rw [unitsFulfilled, h₀.jobs]; rfl
    -- nothing was fulfilled before the first job
    have hbefore : unfulfilled productId db₀ = inventoryTable.find db₀ productId := by
      rw [unfulfilled, hnone, neg_zero, show fulfilInventory 0 = id from funext fulfilInventory_zero,
        Option.map_id, id]
    have hafter : unfulfilled productId pool.db = inventoryTable.find db₀ productId :=
      hstock.trans hbefore
    rw [← hafter, unfulfilled, Option.map_map]
    have hinverse : fulfilInventory (unitsFulfilled productId pool.db) ∘
        fulfilInventory (-unitsFulfilled productId pool.db) = id := by
      funext i
      rw [Function.comp, fulfilInventory_add, add_neg_cancel, fulfilInventory_zero, id]
    rw [hinverse, Option.map_id, id]

theorem minted_accounted : ∃ (pool : Pool Database Row Site Result)
    (actions : List (Action Database Row Site Result)),
    Run (Pool.Step (Requests mintExternal) fun _ _ => True) (Pool.idle mintDatabase) actions pool ∧
      pool.db.jobs.map (fun j => (j.id, j.status, j.attempts)) = [(50, .fulfilled, 2)] ∧
      (∀ j ∈ pool.db.jobs, ∃ m o, mintOf j.id pool.db = some m ∧ m.status = j.status.mint ∧
        orderTable.find pool.db j.orderId = some o ∧ o.status = j.status.order ∧
        Proven m (acceptedOf m.id pool.db) (projectionsOf m.id pool.db)) ∧
      pool.db.shop.inventory = [⟨20, some 5, 0, 1⟩] := by
  obtain ⟨db, db', actions, more, hrun, hmore, -, hjobs, hinventory⟩ := minting_runs
  have haccounted := jobs_accounted mintDatabase_fresh (hrun.append hmore)
  exact ⟨_, _, hrun.append hmore, hjobs, haccounted.1, hinventory⟩

/-! ### Jobs in flight -/

/-- A job in flight stays, or is fulfilled. -/
theorem Leads.of_awaiting {j j' : FulfillmentJob} (h : Leads j j') (hj : j.status = .awaitingChain) :
    j' = j ∨ j' = j.fulfil := by
  induction h with
  | refl => exact .inl rfl
  | tail _ hstep ih =>
      rcases ih with rfl | rfl
      · cases hstep with
        | claim _ _ hstatus =>
            rw [hj] at hstatus
            rcases hstatus with hs | hs <;> cases hs
        | submit hstatus => exact absurd (hj.symm.trans hstatus) JobStatus.noConfusion
        | retry _ _ hstatus => exact absurd (hj.symm.trans hstatus) JobStatus.noConfusion
        | bury _ _ hstatus => exact absurd (hj.symm.trans hstatus) JobStatus.noConfusion
        | fulfil => exact .inr rfl
      · exact .inr (Leads.of_fulfilled (.single hstep) rfl)

/-- **A job in flight can only be fulfilled, and a fulfilled job is done**: whatever is reported of
it, and whatever evidence arrives. -/
theorem flights_kept (h₀ : Fresh db₀)
    (hrun : Run (Pool.Step (Requests ext) fun _ _ => True) (Pool.idle db₀) actions pool)
    (hmore : Run (Pool.Step (Requests ext) fun _ _ => True) pool more pool') {jobId : Uuid}
    {j : FulfillmentJob} (hj : jobTable.find pool.db jobId = some j)
    (hflight : j.status = .awaitingChain ∨ j.status = .fulfilled) :
    ∃ j' o, jobTable.find pool'.db jobId = some j' ∧ orderTable.find pool'.db j.orderId = some o ∧
      (j' = j ∨ (j.status = .awaitingChain ∧ j' = j.fulfil)) ∧ o.status = j'.status.order := by
  have hpool := h₀.running hrun
  obtain ⟨j', hj', hleads⟩ := (later_of_run marks_true hpool hmore).jobs jobId j hj
  have hlater : Kept (fun _ => True) (fun _ => True) pool'.db :=
    (run_running (safe_requests marks_true) hmore hpool).inv
  obtain ⟨o, ho, hstatus⟩ := hlater.machine.ordered j' (jobTable.find_mem hj').1
  rw [hleads.same.order] at ho
  refine ⟨j', o, hj', ho, ?_, hstatus⟩
  rcases hflight with hawaiting | hfulfilled
  · rcases hleads.of_awaiting hawaiting with heq | heq
    · exact .inl heq
    · exact .inr ⟨hawaiting, heq⟩
  · exact .inl (hleads.of_fulfilled hfulfilled)

/-- The job in flight, then fulfilled. -/
theorem minting_kept : ∃ (pool pool' : Pool Database Row Site Result)
    (actions more : List (Action Database Row Site Result)) (j j' : FulfillmentJob) (o : Order),
    Run (Pool.Step (Requests mintExternal) fun _ _ => True) (Pool.idle mintDatabase) actions pool ∧
      Run (Pool.Step (Requests mintExternal) fun _ _ => True) pool more pool' ∧
      jobTable.find pool.db 50 = some j ∧ j.status = .awaitingChain ∧
      jobTable.find pool'.db 50 = some j' ∧ j' = j.fulfil ∧
      orderTable.find pool'.db j.orderId = some o ∧ o.status = .fulfilled := by
  obtain ⟨db, db', actions, more, hrun, hmore, hbefore, hafter, -⟩ := minting_runs
  obtain ⟨j, hjobs, hj⟩ := List.map_eq_singleton_iff.mp hbefore
  obtain ⟨k, hjobs', hk⟩ := List.map_eq_singleton_iff.mp hafter
  simp only [Prod.mk.injEq] at hj hk
  have hfind : jobTable.find db 50 = some j := by
    rw [Table.find, show jobTable.rows db = [j] from hjobs]
    exact List.find?_cons_of_pos (decide_eq_true hj.1)
  have hfind' : jobTable.find db' 50 = some k := by
    rw [Table.find, show jobTable.rows db' = [k] from hjobs']
    exact List.find?_cons_of_pos (decide_eq_true hk.1)
  obtain ⟨j', o, hj', ho, hfulfilled, hstatus⟩ :=
    flights_kept mintDatabase_fresh hrun hmore hfind (.inl hj.2.1)
  obtain rfl : j' = k := Option.some.inj (hj'.symm.trans hfind')
  rw [hk.2.1] at hstatus
  refine ⟨_, _, actions, more, j, j', o, hrun, hmore, hfind, hj.2.1, hfind', ?_, ho, hstatus⟩
  rcases hfulfilled with rfl | hfulfilled
  · exact absurd (hj.2.1.symm.trans hk.2.1) JobStatus.noConfusion
  · exact hfulfilled.2

/-! ### Rejected evidence -/

/-- Two rows of evidence about one event are one row. -/
theorem Machine.event_unique {db : Database} (h : Machine db) {e e' : MintEvidence}
    (he : e ∈ db.evidence) (he' : e' ∈ db.evidence) (hhash : e'.transactionHash = e.transactionHash)
    (hindex : e'.eventIndex = e.eventIndex) : e' = e :=
  List.inj_on_of_nodup_map h.events he' he (Prod.ext hhash hindex)

/-- The evidence and the owner of a confirmed mint. -/
theorem Machine.of_confirmed {db : Database} (h : Machine db) {m : CollectibleMint}
    (hm : m ∈ db.mints) (hconfirmed : m.status = .confirmed) :
    ∃ e ∈ db.evidence, ∃ p ∈ db.projections, e.processingStatus = .accepted ∧ Shows m e ∧
      Named e p ∧ projectionsOf m.id db = [p] := by
  have hproven := h.proven m hm
  generalize haccepted : acceptedOf m.id db = accepted at hproven
  generalize hprojections : projectionsOf m.id db = projections at hproven
  cases hproven with
  | unconfirmed hother => exact absurd hconfirmed hother
  | confirmed e p _ shown named =>
      have hmem : e ∈ acceptedOf m.id db := haccepted ▸ List.mem_singleton_self e
      obtain ⟨he, hcond⟩ := List.mem_filter.mp hmem
      have hp : p ∈ projectionsOf m.id db := hprojections ▸ List.mem_singleton_self p
      exact ⟨e, he, p, (List.mem_filter.mp hp).1,
        of_decide_eq_true (Bool.and_eq_true_iff.mp hcond).2, shown, named, rfl⟩

/-- Whatever has an owner was minted, and its mint is confirmed. -/
theorem Machine.of_projection {db : Database} (h : Machine db) {p : OwnershipProjection}
    (hp : p ∈ db.projections) :
    ∃ m ∈ db.mints, m.id = p.collectibleMintId ∧ m.status = .confirmed ∧
      ∃ e ∈ db.evidence, e.processingStatus = .accepted ∧ Shows m e ∧ Named e p := by
  obtain ⟨m, hm, hid⟩ := h.traced p hp
  have hmine : p ∈ projectionsOf m.id db := List.mem_filter.mpr ⟨hp, decide_eq_true hid.symm⟩
  have hconfirmed : m.status = .confirmed := by
    by_contra hother
    rw [((h.proven m hm).none hother).2] at hmine
    exact List.not_mem_nil hmine
  obtain ⟨e, he, q, -, haccepted, shown, named, hsingle⟩ := h.of_confirmed hm hconfirmed
  rw [hsingle] at hmine
  obtain rfl := List.mem_singleton.mp hmine
  exact ⟨m, hm, hid, hconfirmed, e, he, haccepted, shown, named⟩

/-- **A rejected event stays rejected.** Whatever is reported later, it keeps its row, no owner ever
comes of it, and a mint of its transaction is confirmed only by another event of that transaction. -/
theorem rejections_final (h₀ : Fresh db₀)
    (hrun : Run (Pool.Step (Requests ext) fun _ _ => True) (Pool.idle db₀) actions pool)
    (hmore : Run (Pool.Step (Requests ext) fun _ _ => True) pool more pool') {e : MintEvidence}
    (he : e ∈ pool.db.evidence) (hrejected : e.processingStatus = .rejected) :
    (∀ e' ∈ pool'.db.evidence, e'.transactionHash = e.transactionHash →
        e'.eventIndex = e.eventIndex → e' = e) ∧
      (∀ p ∈ pool'.db.projections, p.sourceTransactionHash = e.transactionHash →
        p.eventIndex ≠ e.eventIndex) ∧
      ∀ m ∈ pool'.db.mints, m.transactionHash = some e.transactionHash → m.status = .confirmed →
        ∃ e' ∈ pool'.db.evidence, e'.transactionHash = e.transactionHash ∧
          e'.eventIndex ≠ e.eventIndex ∧ e'.processingStatus = .accepted := by
  have hpool := h₀.running hrun
  have hI : Machine pool'.db := (run_running (safe_requests marks_true) hmore hpool).inv.machine
  have he' : e ∈ pool'.db.evidence := (later_of_run marks_true hpool hmore).evidence.subset he
  -- no accepted row is about this event
  have hother {a : MintEvidence} (ha : a ∈ pool'.db.evidence) (haccepted : a.processingStatus = .accepted)
      (hhash : a.transactionHash = e.transactionHash) : a.eventIndex ≠ e.eventIndex := by
    intro hindex
    obtain rfl := hI.event_unique he' ha hhash hindex
    exact absurd (haccepted.symm.trans hrejected) EvidenceStatus.noConfusion
  refine ⟨fun a ha => hI.event_unique he' ha, fun p hp hsource => ?_, fun m hm hhash hconfirmed => ?_⟩
  · obtain ⟨m, -, -, -, a, ha, haccepted, -, named⟩ := hI.of_projection hp
    rw [named.event]
    exact hother ha haccepted (named.hash.symm.trans hsource)
  · obtain ⟨a, ha, -, -, haccepted, shown, -⟩ := hI.of_confirmed hm hconfirmed
    have ha' : a.transactionHash = e.transactionHash := Option.some.inj (shown.hash.symm.trans hhash)
    exact ⟨a, ha, ha', hother ha haccepted ha', haccepted⟩

theorem mintedEarly_requests : ∀ p ∈ mintedEarly, Requests mintExternal p := by
  simp only [mintedEarly, List.forall_mem_cons]
  refine ⟨?_, ?_, ?_, fun p hp => by cases hp⟩
  · exact .createFulfillmentJob 3 30 ⟨Commerce.payerAddress, "j1", none⟩ ⟨50, 51⟩
  · exact .claimFulfillmentJob 3 50 "w1"
  · exact .recordMintEvidence 3 50 mintReport ⟨60, 61⟩

theorem submittedLate_requests : ∀ p ∈ submittedLate, Requests mintExternal p := by
  simp only [submittedLate, List.forall_mem_cons]
  refine ⟨?_, ?_, fun p hp => by cases hp⟩
  · exact .recordMintSubmission 3 50 ⟨"w1", mintHash, "7"⟩
  · exact .recordMintEvidence 3 50 mintReport ⟨62, 63⟩

/-- The evidence is rejected, and the mint stays in flight. -/
def rejectedThenSubmitted (db db' : Database) : Bool :=
  db.evidence.map (fun e => (e.transactionHash, e.processingStatus)) = [(mintHash, .rejected)] ∧
    db'.mints.map (fun m => (m.transactionHash, m.status)) = [(some mintHash, .submitted)]

theorem mintedEarly_served : (Pool.serveAll (fun _ _ => True) mintDatabase mintedEarly).any (fun all =>
    (Pool.serveAll (fun _ _ => True) all.2 submittedLate).any fun all' =>
      rejectedThenSubmitted all.2 all'.2) = true := by
  decide +kernel

/-- The evidence that came early, and the mint that waits. -/
theorem mintedEarly_final : ∃ (pool pool' : Pool Database Row Site Result)
    (actions more : List (Action Database Row Site Result)) (e : MintEvidence),
    Run (Pool.Step (Requests mintExternal) fun _ _ => True) (Pool.idle mintDatabase) actions pool ∧
      Run (Pool.Step (Requests mintExternal) fun _ _ => True) pool more pool' ∧
      pool.db.evidence = [e] ∧ e.transactionHash = mintHash ∧ e.processingStatus = .rejected ∧
      pool'.db.mints.map (fun m => (m.transactionHash, m.status)) = [(some mintHash, .submitted)] ∧
      ∀ e' ∈ pool'.db.evidence, e'.transactionHash = e.transactionHash →
        e'.eventIndex = e.eventIndex → e' = e := by
  obtain ⟨db, db', actions, more, hrun, hmore, htest⟩ :=
    Pool.runs_of_serveAll rejectedThenSubmitted mintedEarly_requests submittedLate_requests
      mintedEarly_served
  obtain ⟨hbefore, hafter⟩ := of_decide_eq_true htest
  obtain ⟨e, hevidence, he⟩ := List.map_eq_singleton_iff.mp hbefore
  simp only [Prod.mk.injEq] at he
  have hmem : e ∈ (Pool.idle db : Pool Database Row Site Result).db.evidence :=
    hevidence ▸ List.mem_singleton_self e
  exact ⟨_, _, actions, more, e, hrun, hmore, hevidence, he.1, he.2, hafter,
    (rejections_final mintDatabase_fresh hrun hmore hmem he.2).1⟩

/-! ### Where transactions come from -/

/-- Every recorded submission names a transaction of one kind, and evidence is of events of one
kind. -/
def Reports (P : String → Prop) (Q : String → Int → Prop) : Site → Database → Prop
  | .submission _ _ txHash, _ => P txHash
  | .evidence txHash index, _ => Q txHash index
  | _, _ => True

instance {P : String → Prop} {Q : String → Int → Prop} [DecidablePred P]
    [∀ txHash index, Decidable (Q txHash index)] (site : Site) (db : Database) :
    Decidable (Reports P Q site db) :=
  match site with
  | .submission _ _ txHash => inferInstanceAs (Decidable (P txHash))
  | .evidence txHash index => inferInstanceAs (Decidable (Q txHash index))
  | .failure .. | .other => inferInstanceAs (Decidable True)

/-- The transaction of a mint in flight, or confirmed, is of this kind. -/
def SubmittedAs (P : String → Prop) (m : CollectibleMint) : Prop :=
  m.status = .submitted ∨ m.status = .confirmed → ∃ txHash, m.transactionHash = some txHash ∧ P txHash

theorem marks_reports {P : String → Prop} {Q : String → Int → Prop} :
    Marks (SubmittedAs P) (fun e => Q e.transactionHash e.eventIndex) (Reports P Q) where
  waiting m hm hsubmitted := by
    rcases hm with hm | hm <;> rw [hm] at hsubmitted <;> rcases hsubmitted with hs | hs <;> cases hs
  confirm m hsubmitted hm _ := hm (.inl hsubmitted)
  submit m s jobId view hok _ := ⟨s.txHash, rfl, hok⟩
  evidence _ _ hok := hok

/-- **Nothing is made up on the way to the chain and back.** The transaction of a mint in flight or
confirmed was reported as its submission, and the event that an owner comes of was reported as
evidence, of that very transaction. -/
theorem transactions_traced {P : String → Prop} {Q : String → Int → Prop} (h₀ : Fresh db₀)
    (hrun : Run (Pool.Step (Requests ext) (Reports P Q)) (Pool.idle db₀) actions pool) :
    (∀ m ∈ pool.db.mints, m.status = .submitted ∨ m.status = .confirmed →
        ∃ txHash, m.transactionHash = some txHash ∧ P txHash) ∧
      ∀ p ∈ pool.db.projections, P p.sourceTransactionHash ∧ Q p.sourceTransactionHash p.eventIndex ∧
        ∃ m ∈ pool.db.mints, m.id = p.collectibleMintId ∧ m.status = .confirmed ∧
          m.transactionHash = some p.sourceTransactionHash ∧ m.recipientAccount = p.ownerAccount ∧
          m.tokenId = some p.tokenId ∧ m.contractId = p.contractId := by
  have hkept : Kept (SubmittedAs P) (fun e => Q e.transactionHash e.eventIndex) db₀ :=
    ⟨h₀.machine, fun m hm => by simp [h₀.mints] at hm, fun e he => by simp [h₀.evidence] at he⟩
  have hpool := (running marks_reports hkept hrun).inv
  refine ⟨hpool.mints, fun p hp => ?_⟩
  obtain ⟨m, hm, hid, hconfirmed, e, he, -, shown, named⟩ := hpool.machine.of_projection hp
  obtain ⟨txHash, hhash, hP⟩ := hpool.mints m hm (.inr hconfirmed)
  have htx : m.transactionHash = some p.sourceTransactionHash := shown.hash.trans (congrArg _ named.hash.symm)
  obtain rfl : txHash = p.sourceTransactionHash := Option.some.inj (hhash.symm.trans htx)
  refine ⟨hP, ?_, m, hm, hid, hconfirmed, htx, ?_, ?_, ?_⟩
  · rw [named.hash, named.event]
    exact hpool.evidence e he
  · rw [named.owner, shown.owner]
  · rw [named.token, shown.token]
  · rw [named.contract, shown.contract]

theorem minted_served : (Pool.serveAll (Reports (· = mintHash) fun h i => h = mintHash ∧ i = 0)
    mintDatabase (minting ++ minted)).any
      (fun all => decide (all.2.projections.map (·.tokenId) = ["7"])) = true := by
  decide +kernel

/-- The owner of what was minted, and the transaction it comes of. -/
theorem minted_traced : ∃ (pool : Pool Database Row Site Result)
    (actions : List (Action Database Row Site Result)),
    Run (Pool.Step (Requests mintExternal) (Reports (· = mintHash) fun h i => h = mintHash ∧ i = 0))
        (Pool.idle mintDatabase) actions pool ∧
      pool.db.projections.map (·.tokenId) = ["7"] ∧
      ∀ p ∈ pool.db.projections, p.sourceTransactionHash = mintHash ∧ p.eventIndex = 0 := by
  obtain ⟨all, hall, hprojections⟩ := (Option.any_eq_true _ _).mp minted_served
  have hrequests : ∀ p ∈ minting ++ minted, Requests mintExternal p := fun p hp =>
    (List.mem_append.mp hp).elim (minting_requests p) (minted_requests p)
  obtain ⟨actions, hrun⟩ := Pool.run_of_serveAll hrequests hall
  refine ⟨_, actions, hrun, of_decide_eq_true hprojections, fun p hp => ?_⟩
  obtain ⟨hhash, hevent, -⟩ := (transactions_traced mintDatabase_fresh hrun).2 p hp
  exact ⟨hhash, hevent.2⟩

end CrownFi.Fulfillment
