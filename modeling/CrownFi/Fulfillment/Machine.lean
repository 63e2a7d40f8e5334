import CrownFi.Fulfillment.Handlers
import CrownFi.Lib.Sums

/-!
# CrownFi.Fulfillment.Machine

**What holds of the jobs of collectibles.** A job keeps within its attempts and is locked exactly
while it runs (`FulfillmentJob.Sound`). Its mint and its order follow its status, and what was minted
has one owner as soon as the mint is confirmed (`Machine`). A request moves one job, with its mint
and its order (`Turn`), along the steps of a job (`JobStep`), or creates one (`Machine.create`).
-/

namespace CrownFi.Fulfillment

open Lib CrownFi.Api
open CrownFi.Commerce (Order OrderItem OrderStatus Inventory)

/-! ### One job -/

/-- The status of the mint of a job. -/
def JobStatus.mint : JobStatus → MintStatus
  | .queued | .running => .queued
  | .awaitingChain => .submitted
  | .fulfilled => .confirmed
  | .failed | .deadLetter => .failed

/-- The status of the order of a job. -/
def JobStatus.order : JobStatus → OrderStatus
  | .queued | .running | .awaitingChain | .failed => .fulfilling
  | .fulfilled => .fulfilled
  | .deadLetter => .failed

structure FulfillmentJob.Sound (j : FulfillmentJob) : Prop where
  bounded : j.attempts ≤ j.maxAttempts
  claimable : j.status = .queued ∨ j.status = .failed → j.attempts < j.maxAttempts
  lockedAt : j.lockedAt.isSome ↔ j.status = .running
  lockedBy : j.lockedBy.isSome ↔ j.status = .running

/-- What a request can do to a job. -/
inductive JobStep : FulfillmentJob → FulfillmentJob → Prop
  | claim (j : FulfillmentJob) (workerId : String) (now : Int)
      (hstatus : j.status = .queued ∨ j.status = .failed) (hleft : j.attempts < j.maxAttempts) :
      JobStep j (j.claim workerId now)
  | submit (j : FulfillmentJob) (hstatus : j.status = .running) : JobStep j j.submit
  | retry (j : FulfillmentJob) (availableAt : Int) (code : String) (hstatus : j.status = .running)
      (hleft : j.attempts < j.maxAttempts) : JobStep j (j.fail .failed availableAt code)
  | bury (j : FulfillmentJob) (availableAt : Int) (code : String) (hstatus : j.status = .running) :
      JobStep j (j.fail .deadLetter availableAt code)
  | fulfil (j : FulfillmentJob) (hstatus : j.status = .awaitingChain) : JobStep j j.fulfil

variable {j j' : FulfillmentJob}

theorem JobStep.sound (hstep : JobStep j j') (h : j.Sound) : j'.Sound := by
  cases hstep with
  | claim workerId now hstatus hleft =>
      refine ⟨?_, fun hs => ?_, ?_, ?_⟩
      · show j.attempts + 1 ≤ j.maxAttempts
        omega
      · rcases hs with hs | hs <;> cases hs
      · exact iff_of_true rfl rfl
      · exact iff_of_true rfl rfl
  | submit hstatus =>
      refine ⟨h.bounded, fun hs => ?_, ?_, ?_⟩
      · rcases hs with hs | hs <;> cases hs
      · exact iff_of_false Bool.false_ne_true JobStatus.noConfusion
      · exact iff_of_false Bool.false_ne_true JobStatus.noConfusion
  | retry availableAt code hstatus hleft =>
      refine ⟨h.bounded, fun _ => hleft, ?_, ?_⟩
      · exact iff_of_false Bool.false_ne_true JobStatus.noConfusion
      · exact iff_of_false Bool.false_ne_true JobStatus.noConfusion
  | bury availableAt code hstatus =>
      refine ⟨h.bounded, fun hs => ?_, ?_, ?_⟩
      · rcases hs with hs | hs <;> cases hs
      · exact iff_of_false Bool.false_ne_true JobStatus.noConfusion
      · exact iff_of_false Bool.false_ne_true JobStatus.noConfusion
  | fulfil hstatus =>
      refine ⟨h.bounded, fun hs => ?_, ?_, ?_⟩
      · rcases hs with hs | hs <;> cases hs
      · exact iff_of_false Bool.false_ne_true JobStatus.noConfusion
      · exact iff_of_false Bool.false_ne_true JobStatus.noConfusion

/-- What a job is for stays. -/
structure FulfillmentJob.Same (j j' : FulfillmentJob) : Prop where
  id : j'.id = j.id
  order : j'.orderId = j.orderId
  item : j'.orderItemId = j.orderItemId

theorem JobStep.same (hstep : JobStep j j') : j.Same j' := by
  cases hstep <;> exact ⟨rfl, rfl, rfl⟩

/-- Any number of steps. -/
abbrev Leads : FulfillmentJob → FulfillmentJob → Prop := Relation.ReflTransGen JobStep

theorem Leads.same (h : Leads j j') : j.Same j' := by
  induction h with
  | refl => exact ⟨rfl, rfl, rfl⟩
  | tail _ hstep ih =>
      obtain ⟨hid, horder, hitem⟩ := hstep.same
      exact ⟨hid.trans ih.id, horder.trans ih.order, hitem.trans ih.item⟩

theorem Leads.sound (h : Leads j j') (hj : j.Sound) : j'.Sound := by
  induction h with
  | refl => exact hj
  | tail _ hstep ih => exact hstep.sound ih

/-- A fulfilled job is done. -/
theorem Leads.of_fulfilled (h : Leads j j') (hj : j.status = .fulfilled) : j' = j := by
  induction h with
  | refl => rfl
  | tail _ hstep ih =>
      subst ih
      cases hstep with
      | claim _ _ hstatus =>
          rw [hj] at hstatus
          rcases hstatus with hs | hs <;> cases hs
      | submit hstatus => exact absurd (hj.symm.trans hstatus) JobStatus.noConfusion
      | retry _ _ hstatus => exact absurd (hj.symm.trans hstatus) JobStatus.noConfusion
      | bury _ _ hstatus => exact absurd (hj.symm.trans hstatus) JobStatus.noConfusion
      | fulfil hstatus => exact absurd (hj.symm.trans hstatus) JobStatus.noConfusion

/-! ### The invariant -/

/-- Who owns what a mint made. -/
def projectionsOf (mintId : Uuid) (db : Database) : List OwnershipProjection :=
  db.projections.filter (·.collectibleMintId = mintId)

/-- The evidence is about the mint, and was accepted. -/
def acceptedFor (mintId : Uuid) (e : MintEvidence) : Bool :=
  e.collectibleMintId = mintId && e.processingStatus = .accepted

/-- The evidence that was accepted for a mint. -/
def acceptedOf (mintId : Uuid) (db : Database) : List MintEvidence :=
  db.evidence.filter (acceptedFor mintId)

/-- The evidence shows the mint: its transaction, its token, its recipient. -/
structure Shows (m : CollectibleMint) (e : MintEvidence) : Prop where
  hash : m.transactionHash = some e.transactionHash
  contract : e.contractId = m.contractId
  token : m.tokenId = some e.tokenId
  owner : e.ownerAccount = m.recipientAccount
  successful : e.successful = true

/-- The owner is who the evidence names. -/
structure Named (e : MintEvidence) (p : OwnershipProjection) : Prop where
  contract : p.contractId = e.contractId
  token : p.tokenId = e.tokenId
  owner : p.ownerAccount = e.ownerAccount
  hash : p.sourceTransactionHash = e.transactionHash
  ledger : p.ledgerSequence = e.ledgerSequence
  event : p.eventIndex = e.eventIndex

/-- A mint with its accepted evidence and the owners of what it made: one of each once the mint is
confirmed, and none before. -/
inductive Proven (m : CollectibleMint) : List MintEvidence → List OwnershipProjection → Prop
  | unconfirmed (h : m.status ≠ .confirmed) : Proven m [] []
  | confirmed (e : MintEvidence) (p : OwnershipProjection) (h : m.status = .confirmed)
      (shown : Shows m e) (named : Named e p) : Proven m [e] [p]

structure Machine (db : Database) : Prop where
  jobIds : (db.jobs.map (·.id)).Nodup
  jobOrders : (db.jobs.map (·.orderId)).Nodup
  mintIds : (db.mints.map (·.id)).Nodup
  mintJobs : (db.mints.map (·.fulfillmentJobId)).Nodup
  orderIds : (db.shop.orders.map (·.id)).Nodup
  products : (db.shop.inventory.map (·.productId)).Nodup
  sound : ∀ j ∈ db.jobs, j.Sound
  minted : ∀ j ∈ db.jobs, ∃ m, mintOf j.id db = some m ∧ m.status = j.status.mint
  ordered : ∀ j ∈ db.jobs, ∃ o, orderTable.find db j.orderId = some o ∧ o.status = j.status.order
  worked : ∀ m ∈ db.mints, ∃ j ∈ db.jobs, j.id = m.fulfillmentJobId
  events : (db.evidence.map fun e => (e.transactionHash, e.eventIndex)).Nodup
  proven : ∀ m ∈ db.mints, Proven m (acceptedOf m.id db) (projectionsOf m.id db)
  about : ∀ e ∈ db.evidence, ∃ m ∈ db.mints, m.id = e.collectibleMintId
  traced : ∀ p ∈ db.projections, ∃ m ∈ db.mints, m.id = p.collectibleMintId

/-- Tables without a job. -/
structure Fresh (db : Database) : Prop where
  jobs : db.jobs = []
  mints : db.mints = []
  evidence : db.evidence = []
  projections : db.projections = []
  orderIds : (db.shop.orders.map (·.id)).Nodup
  products : (db.shop.inventory.map (·.productId)).Nodup

variable {db : Database} {m m' : CollectibleMint} {o o' : Order} {inventory : List Inventory}
  {evidence : List MintEvidence} {projections : List OwnershipProjection}

theorem Fresh.machine (h : Fresh db) : Machine db where
  jobIds := by simp [h.jobs]
  jobOrders := by simp [h.jobs]
  mintIds := by simp [h.mints]
  mintJobs := by simp [h.mints]
  orderIds := h.orderIds
  products := h.products
  sound j hj := by simp [h.jobs] at hj
  minted j hj := by simp [h.jobs] at hj
  ordered j hj := by simp [h.jobs] at hj
  worked m hm := by simp [h.mints] at hm
  events := by simp [h.evidence]
  proven m hm := by simp [h.mints] at hm
  about e he := by simp [h.evidence] at he
  traced p hp := by simp [h.projections] at hp

theorem mintOf_mem {jobId : Uuid} (h : mintOf jobId db = some m) :
    m ∈ db.mints ∧ m.fulfillmentJobId = jobId :=
  ⟨List.mem_of_find?_eq_some h, by simpa using List.find?_some h⟩

theorem Machine.find_job (h : Machine db) (hj : j ∈ db.jobs) : jobTable.find db j.id = some j :=
  jobTable.find_of_mem h.jobIds hj

/-! ### What was fulfilled -/

/-- The units of a product that an order item is for. -/
def itemUnits (items : List OrderItem) (itemId productId : Uuid) : Int :=
  match items.find? (·.id = itemId) with
  | some item => if item.productId = productId then item.quantity else 0
  | none => 0

/-- The units of a product that a job has fulfilled. -/
def unitsOf (items : List OrderItem) (productId : Uuid) (j : FulfillmentJob) : Int :=
  if j.status = .fulfilled then itemUnits items j.orderItemId productId else 0

def unitsFulfilled (productId : Uuid) (db : Database) : Int :=
  total (unitsOf db.shop.orderItems productId) db.jobs

/-- The inventory of a product without what the jobs have fulfilled. -/
def unfulfilled (productId : Uuid) (db : Database) : Option Inventory :=
  (inventoryTable.find db productId).map (fulfilInventory (-unitsFulfilled productId db))

theorem fulfilInventory_add (a b : Int) (i : Inventory) :
    fulfilInventory a (fulfilInventory b i) = fulfilInventory (a + b) i := by
  obtain ⟨productId, supplyLimit, reserved, fulfilled⟩ := i
  simp only [fulfilInventory, Inventory.mk.injEq, true_and]
  omega

theorem fulfilInventory_zero (i : Inventory) : fulfilInventory 0 i = i := by
  simp [fulfilInventory]

/-! ### A turn of one job -/

/-- A job, its mint and its order are replaced; what is known of the chain, and of who owns what,
grows. -/
def turn (j' : FulfillmentJob) (m' : CollectibleMint) (o' : Order) (inventory : List Inventory)
    (evidence : List MintEvidence) (projections : List OwnershipProjection) (db : Database) :
    Database :=
  { db with
    shop := { db.shop with orders := replaceRow (·.id) o' db.shop.orders, inventory }
    jobs := replaceRow (·.id) j' db.jobs
    mints := replaceRow (·.fulfillmentJobId) m' db.mints
    evidence := db.evidence ++ evidence
    projections := db.projections ++ projections }

/-- A turn that the machine admits. -/
structure Turn (db : Database) (j j' : FulfillmentJob) (m m' : CollectibleMint) (o o' : Order)
    (inventory : List Inventory) (evidence : List MintEvidence)
    (projections : List OwnershipProjection) : Prop where
  job : jobTable.find db j.id = some j
  mint : mintOf j.id db = some m
  order : orderTable.find db j.orderId = some o
  leads : Leads j j'
  mintId : m'.id = m.id
  mintJob : m'.fulfillmentJobId = m.fulfillmentJobId
  mintStatus : m'.status = j'.status.mint
  orderId : o'.id = o.id
  orderStatus : o'.status = j'.status.order
  products : inventory.map (·.productId) = db.shop.inventory.map (·.productId)
  stock : ∀ productId, inventory.find? (·.productId = productId) =
    (inventoryTable.find db productId).map (fulfilInventory
      (unitsOf db.shop.orderItems productId j' - unitsOf db.shop.orderItems productId j))
  events : ((db.evidence ++ evidence).map fun e => (e.transactionHash, e.eventIndex)).Nodup
  about : ∀ e ∈ evidence, e.collectibleMintId = m.id
  mine : ∀ p ∈ projections, p.collectibleMintId = m.id
  proven : Proven m' (acceptedOf m.id db ++ evidence.filter (acceptedFor m.id))
    (projectionsOf m.id db ++ projections)

namespace Turn

section

variable (h : Machine db) (t : Turn db j j' m m' o o' inventory evidence projections)

include t in
theorem find_mint (jobId : Uuid) : mintOf jobId (turn j' m' o' inventory evidence projections db) =
    if jobId = j.id then some m' else mintOf jobId db := by
  obtain ⟨-, hmjob⟩ := mintOf_mem t.mint
  have hkey : m'.fulfillmentJobId = j.id := t.mintJob.trans hmjob
  by_cases hjob : jobId = j.id
  · subst hjob
    rw [if_pos rfl]
    exact find?_replaceRow_self CollectibleMint.fulfillmentJobId hkey t.mint
  · rw [if_neg hjob]
    exact find?_replaceRow_of_ne CollectibleMint.fulfillmentJobId
      fun heq => hjob (heq.symm.trans hkey)

include t in
theorem find_order (orderId : Uuid) :
    orderTable.find (turn j' m' o' inventory evidence projections db) orderId =
      if orderId = j.orderId then some o' else orderTable.find db orderId := by
  have hkey : o'.id = j.orderId := t.orderId.trans (orderTable.find_mem t.order).2
  by_cases horder : orderId = j.orderId
  · subst horder
    rw [if_pos rfl]
    exact find?_replaceRow_self Order.id hkey t.order
  · rw [if_neg horder]
    exact find?_replaceRow_of_ne Order.id fun heq => horder (heq.symm.trans hkey)

include t in
theorem find_job (jobId : Uuid) :
    jobTable.find (turn j' m' o' inventory evidence projections db) jobId =
      if jobId = j.id then some j' else jobTable.find db jobId := by
  have hkey : j'.id = j.id := t.leads.same.id
  by_cases hjob : jobId = j.id
  · subst hjob
    rw [if_pos rfl]
    exact find?_replaceRow_self FulfillmentJob.id hkey t.job
  · rw [if_neg hjob]
    exact find?_replaceRow_of_ne FulfillmentJob.id fun heq => hjob (heq.symm.trans hkey)

include t in
/-- The jobs after a turn. -/
theorem mem_jobs {k : FulfillmentJob}
    (hk : k ∈ (turn j' m' o' inventory evidence projections db).jobs) :
    k = j' ∨ (k ∈ db.jobs ∧ k.id ≠ j.id) := by
  have hkey : j'.id = j.id := t.leads.same.id
  rcases mem_replaceRow hk with rfl | ⟨hk, hne⟩
  · exact .inl rfl
  · exact .inr ⟨hk, hkey ▸ hne⟩

include t in
theorem mem_mints {n : CollectibleMint}
    (hn : n ∈ (turn j' m' o' inventory evidence projections db).mints) :
    n = m' ∨ (n ∈ db.mints ∧ n.fulfillmentJobId ≠ j.id) := by
  have hkey : m'.fulfillmentJobId = j.id := t.mintJob.trans (mintOf_mem t.mint).2
  rcases mem_replaceRow hn with rfl | ⟨hn, hne⟩
  · exact .inl rfl
  · exact .inr ⟨hn, hkey ▸ hne⟩

include h t in
theorem map_mints : (turn j' m' o' inventory evidence projections db).mints.map (·.id) =
    db.mints.map (·.id) :=
  map_replaceRow h.mintJobs (mintOf_mem t.mint).1 t.mintJob t.mintId

include h t in
/-- A mint with this id is still there. -/
theorem still_mint {n : CollectibleMint} {mintId : Uuid} (hn : n ∈ db.mints) (hid : n.id = mintId) :
    ∃ n' ∈ (turn j' m' o' inventory evidence projections db).mints, n'.id = mintId := by
  have hmem := List.mem_map_of_mem (f := CollectibleMint.id) hn
  rw [← t.map_mints h] at hmem
  obtain ⟨n', hn', heq⟩ := List.mem_map.mp hmem
  exact ⟨n', hn', heq.trans hid⟩

include h t in
/-- **A turn keeps the invariant.** -/
theorem machine : Machine (turn j' m' o' inventory evidence projections db) := by
  obtain ⟨hid, horder, -⟩ := t.leads.same
  obtain ⟨hj, -⟩ := jobTable.find_mem t.job
  obtain ⟨hm, hmjob⟩ := mintOf_mem t.mint
  obtain ⟨ho, -⟩ := orderTable.find_mem t.order
  constructor
  · show ((replaceRow _ j' db.jobs).map _).Nodup
    rw [map_replaceRow h.jobIds hj hid hid]
    exact h.jobIds
  · show ((replaceRow _ j' db.jobs).map _).Nodup
    rw [map_replaceRow h.jobIds hj hid horder]
    exact h.jobOrders
  · rw [t.map_mints h]
    exact h.mintIds
  · show ((replaceRow _ m' db.mints).map _).Nodup
    rw [map_replaceRow h.mintJobs hm t.mintJob t.mintJob]
    exact h.mintJobs
  · show ((replaceRow _ o' db.shop.orders).map _).Nodup
    rw [map_replaceRow h.orderIds ho t.orderId t.orderId]
    exact h.orderIds
  · show (inventory.map _).Nodup
    rw [t.products]
    exact h.products
  · intro k hk
    rcases t.mem_jobs hk with rfl | ⟨hk, -⟩
    · exact t.leads.sound (h.sound j hj)
    · exact h.sound k hk
  · intro k hk
    rw [t.find_mint]
    rcases t.mem_jobs hk with rfl | ⟨hk, hne⟩
    · rw [if_pos hid]
      exact ⟨m', rfl, t.mintStatus⟩
    · rw [if_neg hne]
      exact h.minted k hk
  · intro k hk
    rw [t.find_order]
    rcases t.mem_jobs hk with rfl | ⟨hk, hne⟩
    · rw [if_pos horder]
      exact ⟨o', rfl, t.orderStatus⟩
    · -- no two jobs are for one order
      rw [if_neg fun heq => hne (congrArg _ (List.inj_on_of_nodup_map h.jobOrders hk hj heq))]
      exact h.ordered k hk
  · intro n hn
    rcases t.mem_mints hn with rfl | ⟨hn, hne⟩
    · exact ⟨j', mem_replaceRow_self hj hid, hid.trans (hmjob.symm.trans t.mintJob.symm)⟩
    · obtain ⟨k, hk, hkid⟩ := h.worked n hn
      exact ⟨k, mem_replaceRow_of_ne hk fun heq => hne (hkid.symm.trans (heq.trans hid)), hkid⟩
  · exact t.events
  · intro n hn
    have hprojections : projectionsOf n.id (turn j' m' o' inventory evidence projections db) =
        projectionsOf n.id db ++ projections.filter (·.collectibleMintId = n.id) :=
      List.filter_append _ _
    have haccepted : acceptedOf n.id (turn j' m' o' inventory evidence projections db) =
        acceptedOf n.id db ++ evidence.filter (acceptedFor n.id) := List.filter_append _ _
    rw [hprojections, haccepted]
    rcases t.mem_mints hn with rfl | ⟨hn, hne⟩
    · rw [t.mintId, List.filter_eq_self.mpr fun p hp => decide_eq_true (t.mine p hp)]
      exact t.proven
    · have hother : n.id ≠ m.id := by
        intro heq
        obtain rfl := List.inj_on_of_nodup_map h.mintIds hn hm heq
        exact hne hmjob
      have hnone : evidence.filter (acceptedFor n.id) = [] := by
        refine List.filter_eq_nil_iff.mpr fun e he hcond => hother ?_
        rw [← t.about e he]
        exact (of_decide_eq_true (Bool.and_eq_true_iff.mp hcond).1).symm
      rw [hnone, List.append_nil, List.filter_eq_nil_iff.mpr fun p hp heq =>
        hother ((of_decide_eq_true heq).symm.trans (t.mine p hp)), List.append_nil]
      exact h.proven n hn
  · intro e he
    obtain ⟨n, hn, hnid⟩ : ∃ n ∈ db.mints, n.id = e.collectibleMintId := by
      rcases List.mem_append.mp he with he | he
      · exact h.about e he
      · exact ⟨m, hm, (t.about e he).symm⟩
    exact t.still_mint h hn hnid
  · intro p hp
    obtain ⟨n, hn, hnid⟩ : ∃ n ∈ db.mints, n.id = p.collectibleMintId := by
      rcases List.mem_append.mp hp with hp | hp
      · exact h.traced p hp
      · exact ⟨m, hm, (t.mine p hp).symm⟩
    exact t.still_mint h hn hnid

include t in
theorem grows : jobTable.Grows Leads db (turn j' m' o' inventory evidence projections db) := by
  intro i k hk
  rw [t.find_job]
  by_cases hi : i = j.id
  · subst hi
    obtain rfl := Option.some.inj (t.job.symm.trans hk)
    rw [if_pos rfl]
    exact ⟨j', rfl, t.leads⟩
  · rw [if_neg hi]
    exact ⟨k, hk, .refl⟩

include h t in
/-- A turn moves from reserved to fulfilled what its job has fulfilled with it. -/
theorem unfulfilled_eq (productId : Uuid) :
    unfulfilled productId (turn j' m' o' inventory evidence projections db) =
      unfulfilled productId db := by
  have hunits : unitsFulfilled productId (turn j' m' o' inventory evidence projections db) =
      unitsFulfilled productId db - unitsOf db.shop.orderItems productId j +
        unitsOf db.shop.orderItems productId j' :=
    total_replaceRow h.jobIds (jobTable.find_mem t.job).1 t.leads.same.id
  have hfind : inventoryTable.find (turn j' m' o' inventory evidence projections db) productId = _ :=
    t.stock productId
  rw [unfulfilled, unfulfilled, hunits, hfind, Option.map_map]
  congr 1
  funext i
  simp only [Function.comp, fulfilInventory_add]
  congr 1
  omega

end

end Turn

/-! ### A new job -/

/-- A job with its mint, for an order that becomes this one. -/
def create (j : FulfillmentJob) (m : CollectibleMint) (o' : Order) (db : Database) : Database :=
  { db with
    shop := { db.shop with orders := replaceRow (·.id) o' db.shop.orders }
    jobs := db.jobs ++ [j]
    mints := db.mints ++ [m] }

/-- **A new job keeps the invariant** if its order was paid for. -/
theorem Machine.create (h : Machine db) (hj : jobTable.find db j.id = none)
    (hm : mintTable.find db m.id = none) (ho : orderTable.find db j.orderId = some o)
    (hpaid : o.status = .paid) (hsound : j.Sound) (hqueued : j.status = .queued)
    (hmjob : m.fulfillmentJobId = j.id) (hmqueued : m.status = .queued) (hid : o'.id = o.id)
    (hfulfilling : o'.status = .fulfilling) : Machine (Fulfillment.create j m o' db) := by
  have hjid := jobTable.find_none hj
  have hmid := mintTable.find_none hm
  have hoid : o.id = j.orderId := (orderTable.find_mem ho).2
  -- a job's order is not paid any more
  have horder : ∀ k ∈ db.jobs, k.orderId ≠ j.orderId := by
    intro k hk heq
    obtain ⟨o₀, ho₀, hstatus⟩ := h.ordered k hk
    rw [heq, ho] at ho₀
    obtain rfl := Option.some.inj ho₀
    rw [hpaid] at hstatus
    cases hk : k.status <;> rw [hk] at hstatus <;> cases hstatus
  have hjobs : ∀ n ∈ db.mints, n.fulfillmentJobId ≠ j.id := by
    intro n hn heq
    obtain ⟨k, hk, hkid⟩ := h.worked n hn
    exact hjid k hk (hkid.trans heq)
  have hmint (jobId : Uuid) : mintOf jobId (Fulfillment.create j m o' db) =
      (mintOf jobId db).or (if m.fulfillmentJobId = jobId then some m else none) := by
    rw [mintOf, Fulfillment.create, List.find?_append, List.find?_singleton]
    simp only [mintOf, decide_eq_true_eq]
  have hfind (orderId : Uuid) (hne : orderId ≠ j.orderId) :
      orderTable.find (Fulfillment.create j m o' db) orderId = orderTable.find db orderId :=
    find?_replaceRow_of_ne Order.id fun heq => hne (heq.symm.trans (hid.trans hoid))
  have hself : orderTable.find (Fulfillment.create j m o' db) j.orderId = some o' :=
    find?_replaceRow_self Order.id (hid.trans hoid) ho
  have hnone : projectionsOf m.id db = [] := by
    refine List.filter_eq_nil_iff.mpr fun p hp heq => ?_
    obtain ⟨n, hn, hnid⟩ := h.traced p hp
    exact hmid n hn (hnid.trans (of_decide_eq_true heq))
  have hunknown : acceptedOf m.id db = [] := by
    refine List.filter_eq_nil_iff.mpr fun e he hcond => ?_
    obtain ⟨n, hn, hnid⟩ := h.about e he
    exact hmid n hn (hnid.trans (of_decide_eq_true (Bool.and_eq_true_iff.mp hcond).1))
  constructor
  · exact jobTable.nodup_add h.jobIds hjid
  · show ((db.jobs ++ [j]).map _).Nodup
    rw [List.map_append]
    refine List.nodup_append.mpr ⟨h.jobOrders, List.nodup_singleton _, fun a ha b hb heq => ?_⟩
    obtain ⟨k, hk, rfl⟩ := List.mem_map.mp ha
    obtain rfl := List.mem_singleton.mp hb
    exact horder k hk heq
  · exact mintTable.nodup_add h.mintIds hmid
  · show ((db.mints ++ [m]).map _).Nodup
    rw [List.map_append]
    refine List.nodup_append.mpr ⟨h.mintJobs, List.nodup_singleton _, fun a ha b hb heq => ?_⟩
    obtain ⟨n, hn, rfl⟩ := List.mem_map.mp ha
    obtain rfl := List.mem_singleton.mp hb
    exact hjobs n hn (heq.trans hmjob)
  · show ((replaceRow _ o' db.shop.orders).map _).Nodup
    rw [map_replaceRow h.orderIds (orderTable.find_mem ho).1 hid hid]
    exact h.orderIds
  · exact h.products
  · intro k hk
    rcases List.mem_append.mp hk with hk | hk
    · exact h.sound k hk
    · obtain rfl := List.mem_singleton.mp hk
      exact hsound
  · intro k hk
    rw [hmint]
    rcases List.mem_append.mp hk with hk | hk
    · obtain ⟨n, hn, hstatus⟩ := h.minted k hk
      exact ⟨n, by rw [hn, Option.some_or], hstatus⟩
    · obtain rfl := List.mem_singleton.mp hk
      have hno : mintOf k.id db = none :=
        List.find?_eq_none.mpr fun n hn heq => hjobs n hn (of_decide_eq_true heq)
      refine ⟨m, by rw [hno, Option.none_or, if_pos hmjob], ?_⟩
      rw [hmqueued, hqueued]
      rfl
  · intro k hk
    rcases List.mem_append.mp hk with hk | hk
    · rw [hfind k.orderId (horder k hk)]
      exact h.ordered k hk
    · obtain rfl := List.mem_singleton.mp hk
      refine ⟨o', hself, ?_⟩
      rw [hfulfilling, hqueued]
      rfl
  · intro n hn
    rcases List.mem_append.mp hn with hn | hn
    · obtain ⟨k, hk, hkid⟩ := h.worked n hn
      exact ⟨k, List.mem_append_left _ hk, hkid⟩
    · obtain rfl := List.mem_singleton.mp hn
      exact ⟨j, List.mem_append_right _ (List.mem_singleton_self _), hmjob.symm⟩
  · exact h.events
  · intro n hn
    rcases List.mem_append.mp hn with hn | hn
    · exact h.proven n hn
    · obtain rfl := List.mem_singleton.mp hn
      show Proven n (acceptedOf n.id db) (projectionsOf n.id db)
      rw [hnone, hunknown]
      exact .unconfirmed (by rw [hmqueued]; exact MintStatus.noConfusion)
  · intro e he
    obtain ⟨n, hn, hnid⟩ := h.about e he
    exact ⟨n, List.mem_append_left _ hn, hnid⟩
  · intro p hp
    obtain ⟨n, hn, hnid⟩ := h.traced p hp
    exact ⟨n, List.mem_append_left _ hn, hnid⟩

/-- A new job has fulfilled nothing. -/
theorem unfulfilled_create (hqueued : j.status = .queued) (productId : Uuid) :
    unfulfilled productId (create j m o' db) = unfulfilled productId db := by
  have hunits : unitsFulfilled productId (create j m o' db) = unitsFulfilled productId db := by
    show total (unitsOf db.shop.orderItems productId) (db.jobs ++ [j]) = _
    rw [total_concat, unitsOf, hqueued, if_neg JobStatus.noConfusion, add_zero]
    rfl
  rw [unfulfilled, unfulfilled, hunits]
  rfl

end CrownFi.Fulfillment
