import CrownFi.Fulfillment.Machine
import CrownFi.Lib.Confined
import CrownFi.Lib.Tracking

/-!
# CrownFi.Fulfillment.Outlines

**The outlines of the requests on jobs.** Whatever changes a job, its mint or its order locks the job
first. From then on the job and its mint are as they were read (`Known`), and at the commit each
request has made one turn of the job, or none. The update that records a submission or a failure
sees the job in the hands of the worker who reports it (`Owned`).
-/

namespace CrownFi.Fulfillment

open Lib CrownFi.Api
open CrownFi.Commerce (Response Result Order OrderItem OrderStatus Inventory)

/-! ### What locks protect -/

/-- The rows that the invariant speaks of and locks protect. -/
inductive Part
  | job (j : Option FulfillmentJob)
  | mint (m : Option CollectibleMint)
  | order (o : Option Order)
  | inventory (i : Option Inventory)
  | evidence (e : Option MintEvidence)
  | other

def part (db : Database) : Row → Part
  | .job id => .job (jobTable.find db id)
  | .mint id => .mint (mintTable.find db id)
  | .order id => .order (orderTable.find db id)
  | .inventory productId => .inventory (inventoryTable.find db productId)
  | .event hash index => .evidence (evidenceTable.find db (hash, index))
  | _ => .other

theorem jobLayout : Layout part jobTable Part.job where
  row _ _ := rfl
  injective _ _ h := Part.job.inj h
  other db l k hk := by
    cases k with
    | job id => exact absurd rfl (hk id)
    | _ => rfl

theorem mintLayout : Layout part mintTable Part.mint where
  row _ _ := rfl
  injective _ _ h := Part.mint.inj h
  other db l k hk := by
    cases k with
    | mint id => exact absurd rfl (hk id)
    | _ => rfl

theorem orderLayout : Layout part orderTable Part.order where
  row _ _ := rfl
  injective _ _ h := Part.order.inj h
  other db l k hk := by
    cases k with
    | order id => exact absurd rfl (hk id)
    | _ => rfl

theorem inventoryLayout : Layout part inventoryTable Part.inventory where
  row _ _ := rfl
  injective _ _ h := Part.inventory.inj h
  other db l k hk := by
    cases k with
    | inventory id => exact absurd rfl (hk id)
    | _ => rfl

theorem evidenceLayout : Layout part evidenceTable Part.evidence where
  row _ _ := rfl
  injective _ _ h := Part.evidence.inj h
  other db l k hk := by
    cases k with
    | event hash index => exact absurd rfl (hk (hash, index))
    | _ => rfl

/-- What a commit may do: the mint of a job changes under a write lock on the job, jobs take steps,
the inventory follows them, and evidence stays. -/
structure Rely (L : List (Lock Row)) (db db' : Database) : Prop where
  items : db'.shop.orderItems = db.shop.orderItems
  mints : ∀ jobId, ¬ Written L (.job jobId) → mintOf jobId db' = mintOf jobId db
  jobs : jobTable.Grows Leads db db'
  stock : ∀ productId, unfulfilled productId db' = unfulfilled productId db
  evidence : db.evidence <+: db'.evidence

theorem Rely.refl {L : List (Lock Row)} {db : Database} : Rely L db db where
  items := rfl
  mints _ _ := rfl
  jobs := .refl
  stock _ := rfl
  evidence := List.prefix_refl _

/-- The invariant, and what else holds of every mint and of all evidence. -/
structure Kept (K : CollectibleMint → Prop) (E : MintEvidence → Prop) (db : Database) : Prop where
  machine : Machine db
  mints : ∀ m ∈ db.mints, K m
  evidence : ∀ e ∈ db.evidence, E e

/-- What holds of mints depends on their submissions, and what holds of evidence on what is sent. -/
structure Marks (K : CollectibleMint → Prop) (E : MintEvidence → Prop) (ok : Site → Database → Prop) :
    Prop where
  waiting : ∀ m, m.status = .queued ∨ m.status = .failed → K m
  confirm : ∀ m, m.status = .submitted → K m → K m.confirm
  submit : ∀ (m : CollectibleMint) (s : Submission) (jobId : Uuid) (view : Database),
    ok (.submission jobId s.workerId s.txHash) view → K (m.submit s)
  evidence : ∀ (e : MintEvidence) (view : Database),
    ok (.evidence e.transactionHash e.eventIndex) view → E e

/-- The job is in the hands of the worker who reports on it. -/
def Owned : Site → Database → Prop
  | .submission jobId workerId _, db | .failure jobId workerId, db =>
      ∃ j, jobTable.find db jobId = some j ∧ j.ownedBy workerId = true
  | .evidence _ _, _ | .other, _ => True

instance {db : Database} : Evident (Owned .other db) := ⟨trivial⟩

instance {hash : String} {index : Int} {db : Database} : Evident (Owned (.evidence hash index) db) :=
  ⟨trivial⟩

abbrev Outline (K : CollectibleMint → Prop) (E : MintEvidence → Prop)
    (ok : Site → Database → Prop) :
    Prog Database Row Site Result → List (Lock Row) → (Database → Database) →
      (Database → Prop) → Prop :=
  Outlined (Kept K E) (Forward part Rely) (Forward part Rely) ok Owned

abbrev Tracks (K : CollectibleMint → Prop) (E : MintEvidence → Prop) :
    List (Lock Row) → (Database → Database) → (Database → Prop) → Prop :=
  Track part (Kept K E) Rely

abbrev SafeHandler (K : CollectibleMint → Prop) (E : MintEvidence → Prop)
    (ok : Site → Database → Prop) (h : Handler Response) : Prop :=
  OutlinedRequest (Kept K E) (Forward part Rely) (Forward part Rely) ok Owned h.request

variable {K : CollectibleMint → Prop} {E : MintEvidence → Prop} {ok : Site → Database → Prop}
  {ext : External} {L : List (Lock Row)} {pending : Database → Database} {A : Database → Prop}
  {jobId : Uuid} {j : FulfillmentJob} {m : CollectibleMint}

/-! ### Statements -/

theorem safe_valid {α : Type} {e : Except ApiError α} {k : α → Prog Database Row Site Result}
    (next : ∀ a, e = .ok a → Outline K E ok (k a) L pending A) : Outline K E ok (valid e k) L pending A :=
  safe_ofExcept next

theorem safe_requireEditor {organizationId userId : Uuid} {k : PUnit → Prog Database Row Site Result}
    (ht : Tracks K E L pending A) (next : Outline K E ok (k ⟨⟩) L pending A) :
    Outline K E ok (requireEditor organizationId userId k) L pending A :=
  safe_bind (safe_select ht.stable fun _ _ _ _ _ => safe_require fun _ => next)

/-- The answer after the commit. -/
theorem safe_answer {r : Response} :
    Outline K E ok ((do loadFulfillment jobId; return r : Handler Response).request) [] id
      fun _ => True := by
  refine safe_bind (safe_bind (safe_select stable_true fun _ _ _ _ _ => ?_))
  refine safe_bind (safe_orElse fun _ _ => safe_bind (safe_select stable_true fun _ _ _ _ _ => ?_))
  refine safe_bind (safe_orElse fun _ _ => safe_bind (safe_select stable_true fun _ _ _ _ _ => ?_))
  exact safe_bind (safe_orElse fun _ _ => safe_ret)

/-- The job and its mint are as they were read, and so are the order items. -/
structure Known (jobId : Uuid) (j : FulfillmentJob) (m : CollectibleMint) (items : List OrderItem)
    (d : Database) : Prop where
  job : jobTable.find d jobId = some j
  mint : mintOf jobId d = some m
  items : d.shop.orderItems = items

variable {items : List OrderItem}

theorem stable_known (hlock : ⟨.job jobId, .update⟩ ∈ L) :
    Stable (Kept K E) (Forward part Rely) L (Known jobId j m items) := by
  intro L' db db' hcompat _ _ hknown hG
  refine ⟨?_, ?_, ?_⟩
  · exact (jobLayout.find_eq (hG.framed.locked hcompat hlock rfl)).trans hknown.job
  · exact (hG.moved.mints jobId (hcompat.not_writes hlock rfl).not_written).trans hknown.mint
  · exact hG.moved.items.trans hknown.items

/-- From here on the job is locked. -/
theorem safe_loadJobForUpdate {k : FulfillmentJob → Prog Database Row Site Result}
    (next : ∀ j m items, j.id = jobId → j.Sound → m.status = j.status.mint →
      Tracks K E [⟨.job jobId, .update⟩] id (Known jobId j m items) →
      Outline K E ok (k j) [⟨.job jobId, .update⟩] id (Known jobId j m items)) :
    Outline K E ok (loadJobForUpdate jobId k) [] id fun _ => True := by
  refine safe_bind (safe_selectFor fun db row hI _ hrow => ?_)
  have hrow : jobTable.find db jobId = row := hrow
  cases row with
  | none => exact ⟨fun _ => True, trivial, stable_true, safe_orElse fun _ ho => nomatch ho⟩
  | some j =>
      obtain ⟨hj, hid⟩ := jobTable.find_mem hrow
      have hid : j.id = jobId := hid
      obtain ⟨m, hm, hstatus⟩ := hI.machine.minted j hj
      rw [hid] at hm
      have hlocks : ([] : List (Lock Row)) ++ (jobTable.find (id db) jobId).toList.map
          (fun j => (⟨.job j.id, .update⟩ : Lock Row)) = [⟨.job jobId, .update⟩] := by
        rw [show jobTable.find (id db) jobId = some j from hrow]
        simp [hid]
      rw [hlocks]
      refine ⟨Known jobId j m db.shop.orderItems, ⟨hrow, hm, rfl⟩,
        stable_known (List.mem_singleton_self _), ?_⟩
      refine safe_orElse fun j' hj' => ?_
      obtain rfl := Option.some.inj hj'
      exact next j m _ hid (hI.machine.sound j hj) hstatus
        ⟨fun _ => .refl, .id, stable_known (List.mem_singleton_self _)⟩

/-- The mint of the known job. -/
theorem safe_loadMintForUpdate {k : CollectibleMint → Prog Database Row Site Result}
    (ht : Tracks K E L id (Known jobId j m items))
    (next : Tracks K E (L ++ [⟨.mint m.id, .update⟩]) id (Known jobId j m items) →
      Outline K E ok (k m) (L ++ [⟨.mint m.id, .update⟩]) id (Known jobId j m items)) :
    Outline K E ok (loadMintForUpdate jobId k) L id (Known jobId j m items) := by
  refine safe_bind (safe_selectFor fun db row _ hknown hrow => ?_)
  have hmint : mintOf jobId (id db) = some m := hknown.mint
  obtain rfl : row = some m := hrow.symm.trans hmint
  have hlocks : (mintOf jobId (id db)).toList.map (fun m => (⟨.mint m.id, .update⟩ : Lock Row)) =
      [⟨.mint m.id, .update⟩] := by
    rw [hmint]
    rfl
  rw [hlocks]
  refine ⟨Known jobId j m items, hknown, ht.lock.stable, safe_orElse fun n hn => ?_⟩
  obtain rfl := Option.some.inj hn
  exact next ht.lock

/-- The end of a transaction that changed nothing. -/
theorem safe_commitNothing {k : PUnit → Prog Database Row Site Result} (ht : Tracks K E L id A)
    (next : Outline K E ok (k ⟨⟩) [] id fun _ => True) : Outline K E ok (Tx.commit k) L id A :=
  safe_commit (fun d hI _ => ⟨hI, ht.framed d, .refl⟩) next

/-- The end of a transaction that made a turn of its job. -/
theorem safe_commitTurn {k : PUnit → Prog Database Row Site Result} (m : CollectibleMint)
    (j' : FulfillmentJob) (m' : CollectibleMint) (evidence : List MintEvidence)
    (projections : List OwnershipProjection) (ht : Tracks K E L pending A)
    (hlock : ⟨.job jobId, .update⟩ ∈ L) (hid : j.id = jobId) (hE : ∀ e ∈ evidence, E e)
    (hturn : ∀ d, Kept K E d → A d → ∃ o o' inventory,
      Turn d j j' m m' o o' inventory evidence projections ∧ K m' ∧
        pending d = turn j' m' o' inventory evidence projections d)
    (next : Outline K E ok (k ⟨⟩) [] id fun _ => True) :
    Outline K E ok (Tx.commit k) L pending A := by
  refine safe_commit (fun d hI hA => ?_) next
  obtain ⟨o, o', inventory, t, hK, hpending⟩ := hturn d hI hA
  have hframed := ht.framed d
  rw [hpending] at hframed ⊢
  refine ⟨⟨t.machine hI.machine, fun n hn => ?_, fun e he => ?_⟩, hframed, rfl,
    fun other hother => ?_, t.grows, t.unfulfilled_eq hI.machine, List.prefix_append _ _⟩
  · rcases t.mem_mints hn with rfl | ⟨hn, -⟩
    · exact hK
    · exact hI.mints n hn
  · rcases List.mem_append.mp he with he | he
    · exact hI.evidence e he
    · exact hE e he
  · rw [t.find_mint, if_neg]
    intro heq
    refine hother ?_
    rw [heq, hid]
    exact written_of_mem hlock rfl

/-! ### What the updates come to -/

section Updates

variable {view d : Database} {o : Order}

/-- The updates of a known job and of its mint. -/
theorem modify_both {p : FulfillmentJob → Bool} {f : FulfillmentJob → FulfillmentJob}
    {q : CollectibleMint → Bool} {g : CollectibleMint → CollectibleMint} {view' : Database}
    (hview : jobTable.find view jobId = some j) (hview' : mintOf jobId view' = some m)
    (hjobs : (d.jobs.map (·.id)).Nodup) (hmints : (d.mints.map (·.fulfillmentJobId)).Nodup)
    (hknown : Known jobId j m items d) (hp : ∀ k, p k = true → k.id = jobId)
    (hq : ∀ n ∈ d.mints, q n = true → n.fulfillmentJobId = jobId) (hf : (f j).id = j.id)
    (hg : (g m).fulfillmentJobId = m.fulfillmentJobId) :
    mintTable.modify q g view' (jobTable.modify p f view d) =
      { d with
        jobs := replaceRow (·.id) (if p j then f j else j) d.jobs
        mints := replaceRow (·.fulfillmentJobId) (if q m then g m else m) d.mints } := by
  obtain ⟨hj, hid⟩ := jobTable.find_mem hknown.job
  obtain ⟨hm, hjob⟩ := mintOf_mem hknown.mint
  have hid : j.id = jobId := hid
  rw [jobTable.modify_eq_replaceRow hjobs hj (fun k _ hk => (hp k hk).trans hid.symm) hf fun hpj =>
    List.mem_map_of_mem (Table.mem_matching.mpr ⟨(jobTable.find_mem hview).1, hpj⟩)]
  refine mintTable.modify_eq_replaceRow (g := CollectibleMint.fulfillmentJobId) (r := m) hmints hm
    (fun n hn hqn => (hq n hn hqn).trans hjob.symm) hg fun hqm => ?_
  exact List.mem_map_of_mem (Table.mem_matching.mpr ⟨(mintOf_mem hview').1, hqm⟩)

/-- The update of an order that had the same status when it was seen. -/
theorem modify_order {source target : OrderStatus} {orderId : Uuid} {o₁ : Order}
    (hnodup : (d.shop.orders.map (·.id)).Nodup) (hview : orderTable.find view orderId = some o₁)
    (hd : orderTable.find d orderId = some o) (hsource : o₁.status = source)
    (hnow : o.status = source) :
    orderTable.modify (fun o => o.id = orderId && o.status = source) ({ · with status := target })
        view d =
      { d with shop := { d.shop with
          orders := replaceRow (·.id) { o with status := target } d.shop.orders } } := by
  obtain ⟨ho, hid⟩ := orderTable.find_mem hd
  obtain ⟨ho₁, hid₁⟩ := orderTable.find_mem hview
  have hid : o.id = orderId := hid
  have hid₁ : o₁.id = orderId := hid₁
  have hp : (decide (o.id = orderId) && decide (o.status = source)) = true := by simp [hid, hnow]
  refine (orderTable.modify_eq_replaceRow hnodup ho (fun k _ hk => ?_) rfl fun _ => ?_).trans ?_
  · simp only [Bool.and_eq_true, decide_eq_true_eq] at hk
    exact hk.1.trans hid.symm
  · refine List.mem_map.mpr ⟨o₁, Table.mem_matching.mpr ⟨ho₁, by simp [hid₁, hsource]⟩, ?_⟩
    exact hid₁.trans hid.symm
  · rw [if_pos hp]
    rfl

theorem JobStatus.mint_confirmed {s : JobStatus} : s.mint = .confirmed ↔ s = .fulfilled := by
  cases s <;> decide

/-- An unconfirmed mint has no evidence yet. -/
theorem Proven.none {accepted : List MintEvidence} {projections : List OwnershipProjection}
    (h : Proven m accepted projections) (hm : m.status ≠ .confirmed) :
    accepted = [] ∧ projections = [] := by
  cases h with
  | unconfirmed => exact ⟨rfl, rfl⟩
  | confirmed _ _ hconfirmed => exact absurd hconfirmed hm

/-- A turn by which nothing is fulfilled: the job and its mint stay, or are not fulfilled before or
after it. What evidence it brings was rejected. -/
theorem Turn.of_same {j' : FulfillmentJob} {m' : CollectibleMint} {o' : Order}
    {evidence : List MintEvidence} (h : Machine d) (hknown : Known jobId j m items d)
    (hid : j.id = jobId) (hleads : Leads j j') (hmintId : m'.id = m.id)
    (hmintJob : m'.fulfillmentJobId = m.fulfillmentJobId) (hmint : m'.status = j'.status.mint)
    (ho : orderTable.find d j.orderId = some o) (horderId : o'.id = o.id)
    (horder : o'.status = j'.status.order)
    (hsame : (j' = j ∧ m' = m) ∨ (j.status ≠ .fulfilled ∧ j'.status ≠ .fulfilled))
    (hevents : ((d.evidence ++ evidence).map fun e => (e.transactionHash, e.eventIndex)).Nodup)
    (habout : ∀ e ∈ evidence, e.collectibleMintId = m.id)
    (hrejected : evidence.filter (acceptedFor m.id) = []) :
    Turn d j j' m m' o o' d.shop.inventory evidence [] where
  job := hid ▸ hknown.job
  mint := hid ▸ hknown.mint
  order := ho
  leads := hleads
  mintId := hmintId
  mintJob := hmintJob
  mintStatus := hmint
  orderId := horderId
  orderStatus := horder
  products := rfl
  stock productId := by
    have hunits : unitsOf d.shop.orderItems productId j' = unitsOf d.shop.orderItems productId j := by
      rcases hsame with ⟨rfl, -⟩ | ⟨hbefore, hafter⟩
      · rfl
      · rw [unitsOf, unitsOf, if_neg hbefore, if_neg hafter]
    rw [hunits, sub_self]
    show inventoryTable.find d productId = _
    cases inventoryTable.find d productId with
    | none => rfl
    | some i => rw [Option.map_some, fulfilInventory_zero]
  events := hevents
  about := habout
  mine p hp := nomatch hp
  proven := by
    obtain ⟨hm, -⟩ := mintOf_mem hknown.mint
    rw [hrejected, List.append_nil, List.append_nil]
    rcases hsame with ⟨-, rfl⟩ | ⟨hbefore, hafter⟩
    · exact h.proven m' hm
    · obtain ⟨n, hn, hstatus⟩ := h.minted j (jobTable.find_mem hknown.job).1
      rw [hid, hknown.mint] at hn
      obtain rfl := Option.some.inj hn
      have hopen : m.status ≠ .confirmed := by
        rw [hstatus]
        exact fun heq => hbefore (JobStatus.mint_confirmed.mp heq)
      obtain ⟨haccepted, hprojections⟩ := (h.proven m hm).none hopen
      rw [haccepted, hprojections]
      refine .unconfirmed ?_
      rw [hmint]
      exact fun heq => hafter (JobStatus.mint_confirmed.mp heq)

theorem Machine.events_none (h : Machine d) :
    ((d.evidence ++ []).map fun e : MintEvidence => (e.transactionHash, e.eventIndex)).Nodup := by
  rw [List.append_nil]
  exact h.events

end Updates

/-! ### Claims -/

theorem safe_claimFulfillmentJob (hK : Marks K E ok) (actorUserId jobId : Uuid) (workerId : String) :
    SafeHandler K E ok (claimFulfillmentJob actorUserId jobId workerId) := by
  refine safe_bind (safe_valid fun workerId _ => ?_)
  refine safe_bind (safe_select stable_true fun _ began _ _ _ => ?_)
  refine safe_bind (safe_loadJobForUpdate fun j m items hid hsound hmint ht => ?_)
  refine safe_bind (safe_requireEditor ht ?_)
  refine safe_ite (fun _ => safe_bind (safe_commitNothing ht safe_answer)) fun _ => ?_
  refine safe_bind (safe_require fun hclaimable => ?_)
  have hstatus : j.status = .queued ∨ j.status = .failed := by simpa using hclaimable
  have hleft := hsound.claimable hstatus
  refine safe_bind (safe_select ht.stable fun _ now _ _ _ => ?_)
  refine safe_bind (safe_require fun _ => ?_)
  refine safe_ite (fun hspent => absurd hleft (not_lt.mpr hspent)) fun _ => ?_
  refine safe_bind (ht.safe_update fun db₁ A₁ _ hA₁ _ h₁ => ?_)
  have ht₁ := h₁.track.modifyLocked jobLayout (f := (·.claim workerId began)) (fun _ => rfl)
    fun c => ⟨_, List.mem_singleton_self _, rfl, rfl⟩
  refine safe_bind (ht₁.safe_update fun db₂ A₂ _ hA₂ _ h₂ => ?_)
  have ht₂ := h₂.track.modifyLocked mintLayout (f := (·.requeue)) (fun _ => rfl)
    fun c => ⟨_, List.mem_singleton_self _, rfl, rfl⟩
  have hlock : (⟨.job jobId, .update⟩ : Lock Row) ∈ [⟨.job jobId, .update⟩] :=
    List.mem_singleton_self _
  refine safe_bind (safe_commitTurn m (j.claim workerId began)
    (if m.status = .failed then m.requeue else m) [] [] ht₂
    (List.mem_append_left _ (List.mem_append_left _ hlock)) hid (List.forall_mem_nil _)
    (fun d hI hd => ?_)
    (by exact safe_answer))
  have hknown := h₁.before d (h₂.before d hd)
  have hview := h₁.before db₂ hA₂
  obtain ⟨o, ho, horder⟩ := hI.machine.ordered j (jobTable.find_mem hknown.job).1
  have hnot : j.status ≠ .fulfilled := by
    rcases hstatus with hs | hs <;> rw [hs] <;> exact JobStatus.noConfusion
  have hqueued : (if m.status = .failed then m.requeue else m).status = .queued := by
    rcases hstatus with hs | hs
    · have hm : m.status = .queued := by rw [hmint, hs]; rfl
      rw [if_neg (by rw [hm]; exact MintStatus.noConfusion)]
      exact hm
    · have hm : m.status = .failed := by rw [hmint, hs]; rfl
      rw [if_pos hm]
      rfl
  refine ⟨o, o, d.shop.inventory, .of_same hI.machine hknown hid
    (.single (.claim j workerId began hstatus hleft)) ?_ ?_ hqueued ho rfl ?_
    (.inr ⟨hnot, JobStatus.noConfusion⟩) hI.machine.events_none (List.forall_mem_nil _) rfl, ?_, ?_⟩
  · split <;> rfl
  · split <;> rfl
  · rw [horder]
    rcases hstatus with hs | hs <;> rw [hs] <;> rfl
  · exact hK.waiting _ (.inl hqueued)
  · show mintTable.modify _ _ (jobTable.modify _ _ db₁ db₂) (jobTable.modify _ _ db₁ d) = _
    rw [modify_both hA₁.job ?_ hI.machine.jobIds hI.machine.mintJobs hknown
      (fun k hk => of_decide_eq_true hk) (fun n _ hn => ?_) rfl rfl]
    · have hmjob := (mintOf_mem hknown.mint).2
      simp only [turn, hid, hmjob, decide_true, if_true, Bool.true_and, decide_eq_true_eq,
        List.append_nil, replaceRow_self hI.machine.orderIds (orderTable.find_mem ho).1]
    · exact hview.mint
    · simp only [Bool.and_eq_true, decide_eq_true_eq] at hn
      exact hn.1

/-! ### Submissions -/

theorem safe_recordMintSubmission (hK : Marks K E ok) (actorUserId jobId : Uuid)
    (body : MintSubmissionRequest) :
    SafeHandler K E ok (recordMintSubmission actorUserId jobId body) := by
  refine safe_bind (safe_valid fun s _ => ?_)
  refine safe_bind (safe_loadJobForUpdate fun j m items hid hsound hmint ht => ?_)
  refine safe_bind (safe_requireEditor ht ?_)
  refine safe_bind (safe_loadMintForUpdate ht fun ht => ?_)
  refine safe_ite (fun _ => safe_bind (safe_commitNothing ht safe_answer)) fun _ => ?_
  refine safe_bind (safe_require fun howned => ?_)
  have hrunning : j.status = .running := by
    simp only [FulfillmentJob.ownedBy, Bool.and_eq_true, decide_eq_true_eq] at howned
    exact howned.1
  have hnot : j.status ≠ .fulfilled := by rw [hrunning]; exact JobStatus.noConfusion
  refine safe_bind (safe_require fun hqueued => ?_)
  have hqueued : m.status = .queued := of_decide_eq_true hqueued
  refine safe_bind (ht.safe_update fun db₁ A₁ _ hA₁ _ h₁ => ?_)
  have ht₁ := h₁.track.modifyLocked mintLayout (f := (·.submit s)) (fun _ => rfl)
    fun c => ⟨_, List.mem_singleton_self _, rfl, rfl⟩
  refine safe_bind (ht₁.safe_updateSeeing (fun db₂ A₂ _ hA₂ hok h₂ => ?_) fun db₂ _ hA₂ _ => ?_)
  · have ht₂ := h₂.track.modifyLocked jobLayout (f := (·.submit)) (fun _ => rfl)
      fun c => ⟨_, List.mem_singleton_self _, rfl, rfl⟩
    have hlock : (⟨.job jobId, .update⟩ : Lock Row) ∈ [⟨.job jobId, .update⟩] :=
      List.mem_singleton_self _
    refine safe_bind (safe_commitTurn m j.submit (m.submit s) [] [] ht₂
      (List.mem_append_left _ (List.mem_append_left _ (List.mem_append_left _ hlock))) hid
      (List.forall_mem_nil _) (fun d hI hd => ?_) (by exact safe_answer))
    have hknown := h₁.before d (h₂.before d hd)
    have hview := h₁.before db₂ hA₂
    obtain ⟨o, ho, horder⟩ := hI.machine.ordered j (jobTable.find_mem hknown.job).1
    refine ⟨o, o, d.shop.inventory, .of_same hI.machine hknown hid
      (.single (.submit j hrunning)) rfl rfl rfl ho rfl ?_ (.inr ⟨hnot, JobStatus.noConfusion⟩)
      hI.machine.events_none (List.forall_mem_nil _) rfl, ?_, ?_⟩
    · rw [horder, hrunning]
      rfl
    · exact hK.submit m s jobId _ hok
    · show mintTable.modify _ _ db₁ (jobTable.modify _ _ (mintTable.modify _ _ db₁ db₂) d) = _
      obtain ⟨hm, hmjob⟩ := mintOf_mem hknown.mint
      rw [modify_both ?_ hA₁.mint hI.machine.jobIds hI.machine.mintJobs hknown (fun k hk => ?_)
        (fun n hn hp => ?_) rfl rfl]
      · simp only [turn, hid, hrunning, hqueued, decide_true, Bool.and_self, if_true, List.append_nil,
          replaceRow_self hI.machine.orderIds (orderTable.find_mem ho).1]
      · exact hview.job
      · simp only [Bool.and_eq_true, decide_eq_true_eq] at hk
        exact hk.1
      · simp only [Bool.and_eq_true, decide_eq_true_eq] at hp
        rw [List.inj_on_of_nodup_map hI.machine.mintIds hn hm hp.1, hmjob]
  · exact ⟨j, (h₁.before db₂ hA₂).job, howned⟩

/-! ### Failures -/

/-- What a failure makes of a job. -/
theorem JobStep.fail {status : JobStatus} {availableAt : Int} {code : String}
    (hrunning : j.status = .running)
    (hnext : (status = .failed ∧ j.attempts < j.maxAttempts) ∨ status = .deadLetter) :
    JobStep j (j.fail status availableAt code) := by
  rcases hnext with ⟨rfl, hleft⟩ | rfl
  · exact .retry j availableAt code hrunning hleft
  · exact .bury j availableAt code hrunning

theorem safe_recordFulfillmentFailure (hK : Marks K E ok) (actorUserId jobId : Uuid)
    (body : FulfillmentFailureRequest) :
    SafeHandler K E ok (recordFulfillmentFailure actorUserId jobId body) := by
  refine safe_bind (safe_valid fun r _ => ?_)
  refine safe_bind (safe_loadJobForUpdate fun j m items hid hsound hmint ht => ?_)
  refine safe_bind (safe_requireEditor ht ?_)
  refine safe_bind (safe_require fun howned => ?_)
  have hrunning : j.status = .running := by
    simp only [FulfillmentJob.ownedBy, Bool.and_eq_true, decide_eq_true_eq] at howned
    exact howned.1
  have hqueued : m.status = .queued := by rw [hmint, hrunning]; rfl
  have hnot : j.status ≠ .fulfilled := by rw [hrunning]; exact JobStatus.noConfusion
  refine safe_bind (safe_select ht.stable fun _ now _ _ _ => ?_)
  generalize hretry : (r.retryable && decide (j.attempts < j.maxAttempts)) = retry
  generalize hstatus : (if retry = true then JobStatus.failed else .deadLetter) = status
  have hnext : (status = .failed ∧ j.attempts < j.maxAttempts) ∨ status = .deadLetter := by
    cases retry with
    | false => exact .inr hstatus.symm
    | true => exact .inl ⟨hstatus.symm, of_decide_eq_true (Bool.and_eq_true_iff.mp hretry).2⟩
  have hfailed : MintStatus.failed = status.mint := by
    rcases hnext with ⟨rfl, -⟩ | rfl <;> rfl
  refine safe_bind (ht.safe_updateSeeing (fun db₁ A₁ _ hA₁ _ h₁ => ?_) fun db₁ _ hA₁ _ => ?_)
  · have ht₁ := h₁.track.modifyLocked jobLayout
      (f := (·.fail status (now + seconds r.retryAfter) r.errorCode)) (fun _ => rfl)
      fun c => ⟨_, List.mem_singleton_self _, rfl, rfl⟩
    refine safe_bind (ht₁.safe_update fun db₂ A₂ _ hA₂ _ h₂ => ?_)
    have ht₂ := h₂.track.modifyLocked mintLayout (f := (·.fail r.errorCode)) (fun _ => rfl)
      fun c => ⟨_, List.mem_singleton_self _, rfl, rfl⟩
    have hlock : (⟨.job jobId, .update⟩ : Lock Row) ∈ [⟨.job jobId, .update⟩] :=
      List.mem_singleton_self _
    -- the job and its mint after the two updates
    have hboth (d : Database) (hI : Machine d) (hd : A₂ d) :
        mintTable.modify (fun m => m.fulfillmentJobId = jobId && m.status = .queued)
            (·.fail r.errorCode) (jobTable.modify (·.id = jobId)
              (·.fail status (now + seconds r.retryAfter) r.errorCode) db₁ db₂)
            (jobTable.modify (·.id = jobId) (·.fail status (now + seconds r.retryAfter) r.errorCode)
              db₁ d) =
          { d with
            jobs := replaceRow (·.id) (j.fail status (now + seconds r.retryAfter) r.errorCode) d.jobs
            mints := replaceRow (·.fulfillmentJobId) (m.fail r.errorCode) d.mints } := by
      have hknown := h₁.before d (h₂.before d hd)
      have hmjob := (mintOf_mem hknown.mint).2
      rw [modify_both hA₁.job ?_ hI.jobIds hI.mintJobs hknown (fun k hk => of_decide_eq_true hk)
        (fun n _ hn => ?_) rfl rfl]
      · simp only [hid, hmjob, hqueued, decide_true, Bool.and_self, if_true]
      · exact (h₁.before db₂ hA₂).mint
      · simp only [Bool.and_eq_true, decide_eq_true_eq] at hn
        exact hn.1
    have hturn (d : Database) (hI : Machine d) (hd : A₂ d) {o o' : Order}
        (ho : orderTable.find d j.orderId = some o) (hoid : o'.id = o.id)
        (horder : o'.status = status.order) :
        Turn d j (j.fail status (now + seconds r.retryAfter) r.errorCode) m (m.fail r.errorCode) o o'
          d.shop.inventory [] [] := by
      refine .of_same hI (h₁.before d (h₂.before d hd)) hid (.single (.fail hrunning hnext)) rfl rfl
        hfailed ho hoid horder (.inr ⟨hnot, ?_⟩) hI.events_none (List.forall_mem_nil _) rfl
      rcases hnext with ⟨rfl, -⟩ | rfl <;> exact JobStatus.noConfusion
    refine safe_ite (fun hwill => ?_) fun hwill => ?_
    · refine safe_bind (safe_commitTurn m
        (j.fail status (now + seconds r.retryAfter) r.errorCode) (m.fail r.errorCode) [] [] ht₂
        (List.mem_append_left _ (List.mem_append_left _ hlock)) hid (List.forall_mem_nil _)
        (fun d hI hd => ?_) (by exact safe_answer))
      have hknown := h₁.before d (h₂.before d hd)
      obtain ⟨o, ho, horder⟩ := hI.machine.ordered j (jobTable.find_mem hknown.job).1
      rw [if_pos hwill] at hstatus
      refine ⟨o, o, d.shop.inventory, hturn d hI.machine hd ho rfl ?_,
        hK.waiting (m.fail r.errorCode) (.inr rfl), ?_⟩
      · rw [horder, hrunning, ← hstatus]
        rfl
      · refine (hboth d hI.machine hd).trans ?_
        simp only [turn, List.append_nil,
          replaceRow_self hI.machine.orderIds (orderTable.find_mem ho).1]
    · rw [if_neg hwill] at hstatus
      refine safe_bind (ht₂.safe_update fun db₃ A₃ hI₃ hA₃ _ h₃ => ?_)
      have ht₃ := h₃.track.modifyLocked orderLayout (f := ({ · with status := .failed }))
        (fun _ => rfl) fun c => ⟨_, List.mem_singleton_self _, rfl, rfl⟩
      refine safe_bind (safe_commitTurn m
        (j.fail status (now + seconds r.retryAfter) r.errorCode) (m.fail r.errorCode) [] [] ht₃
        (List.mem_append_left _ (List.mem_append_left _ (List.mem_append_left _ hlock))) hid
        (List.forall_mem_nil _) (fun d hI hd => ?_) (by exact safe_answer))
      have hknown := h₁.before d (h₂.before d (h₃.before d hd))
      have hview := h₁.before db₃ (h₂.before db₃ hA₃)
      obtain ⟨o, ho, horder⟩ := hI.machine.ordered j (jobTable.find_mem hknown.job).1
      obtain ⟨o₁, ho₁, horder₁⟩ := hI₃.machine.ordered j (jobTable.find_mem hview.job).1
      rw [hrunning] at horder horder₁
      have hfulfilling : o.status = .fulfilling := horder
      have hfulfilling₁ : o₁.status = .fulfilling := horder₁
      refine ⟨o, { o with status := .failed }, d.shop.inventory,
        hturn d hI.machine (h₃.before d hd) ho rfl ?_,
        hK.waiting (m.fail r.errorCode) (.inr rfl), ?_⟩
      · rw [← hstatus]
        rfl
      · refine (congrArg (orderTable.modify _ _ _) (hboth d hI.machine (h₃.before d hd))).trans ?_
        refine (modify_order ?_ ?_ ?_ hfulfilling₁ hfulfilling).trans ?_
        · exact hI.machine.orderIds
        · exact ho₁
        · exact ho
        · simp only [turn, List.append_nil]
  · exact ⟨j, hA₁.job, howned⟩

/-! ### Evidence -/

section Evidence

variable {d : Database} {o : Order} {seen : Observed} {raw : Json} {i : Inventory} {item : OrderItem}

/-- Accepted evidence is about a mint in flight, and shows it. -/
theorem of_reconcileMintEvidence (h : reconcileMintEvidence j m seen raw = none) :
    j.status = .awaitingChain ∧ m.status = .submitted ∧ ∀ evidenceId,
      Shows m.confirm (evidenceRow ext seen raw evidenceId m.id none) := by
  unfold reconcileMintEvidence at h
  split at h
  · cases h
  rename_i hinFlight
  split at h
  · cases h
  rename_i hhash
  split at h
  · cases h
  rename_i hcontract
  split at h
  · cases h
  rename_i htoken
  split at h
  · cases h
  rename_i howner
  split at h
  · cases h
  rename_i hsuccessful
  simp only [not_or, not_not] at hinFlight hhash hcontract htoken howner
  have hsuccessful : seen.successful = true := by simpa using hsuccessful
  exact ⟨hinFlight.1, hinFlight.2, fun _ => ⟨hhash, hcontract.symm, htoken, howner.symm,
    hsuccessful⟩⟩

/-- The turn that fulfils a job: its item moves from reserved to fulfilled, and what it made has an
owner. -/
theorem Turn.of_fulfilled {e : MintEvidence} {p : OwnershipProjection} (h : Machine d)
    (hknown : Known jobId j m items d) (hid : j.id = jobId) (hawaiting : j.status = .awaitingChain)
    (hsubmitted : m.status = .submitted) (ho : orderTable.find d j.orderId = some o)
    (hitem : d.shop.orderItems.find? (·.id = j.orderItemId) = some item)
    (hi : inventoryTable.find d item.productId = some i)
    (hfresh : evidenceTable.find d (e.transactionHash, e.eventIndex) = none)
    (haccepted : acceptedFor m.id e = true) (hshown : Shows m.confirm e) (hnamed : Named e p)
    (hmine : p.collectibleMintId = m.id) :
    Turn d j j.fulfil m m.confirm o { o with status := .fulfilled }
      (replaceRow (·.productId) (fulfilInventory item.quantity i) d.shop.inventory) [e] [p] where
  job := hid ▸ hknown.job
  mint := hid ▸ hknown.mint
  order := ho
  leads := .single (.fulfil j hawaiting)
  mintId := rfl
  mintJob := rfl
  mintStatus := rfl
  orderId := rfl
  orderStatus := rfl
  products := map_replaceRow h.products (inventoryTable.find_mem hi).1 rfl rfl
  stock productId := by
    have hbefore : unitsOf d.shop.orderItems productId j = 0 := by
      rw [unitsOf, hawaiting, if_neg JobStatus.noConfusion]
    have hafter : unitsOf d.shop.orderItems productId j.fulfil =
        if item.productId = productId then item.quantity else 0 := by
      have hfulfilled : j.fulfil.status = .fulfilled := rfl
      have hsame : j.fulfil.orderItemId = j.orderItemId := rfl
      rw [unitsOf, if_pos hfulfilled, itemUnits, hsame, hitem]
    have hkey : (fulfilInventory item.quantity i).productId = item.productId :=
      (inventoryTable.find_mem hi).2
    rw [hbefore, hafter, sub_zero]
    by_cases hproduct : item.productId = productId
    · subst hproduct
      rw [if_pos rfl, hi, Option.map_some]
      exact find?_replaceRow_self Inventory.productId hkey hi
    · rw [if_neg hproduct]
      refine (find?_replaceRow_of_ne Inventory.productId ?_).trans ?_
      · rwa [hkey]
      · show inventoryTable.find d productId = _
        cases inventoryTable.find d productId with
        | none => rfl
        | some _ => rw [Option.map_some, fulfilInventory_zero]
  events := evidenceTable.nodup_add (r := e) h.events (evidenceTable.find_none hfresh)
  about f hf := by
    obtain rfl := List.mem_singleton.mp hf
    exact of_decide_eq_true (Bool.and_eq_true_iff.mp haccepted).1
  mine q hq := by
    obtain rfl := List.mem_singleton.mp hq
    exact hmine
  proven := by
    have hopen : m.status ≠ .confirmed := by rw [hsubmitted]; exact MintStatus.noConfusion
    obtain ⟨hnone, hnone'⟩ := (h.proven m (mintOf_mem hknown.mint).1).none hopen
    rw [hnone, hnone', List.filter_cons_of_pos haccepted, List.filter_nil]
    exact .confirmed e p rfl hshown hnamed

end Evidence

/-- The update of an inventory that is as it was seen. -/
theorem modify_inventory {view d : Database} {i : Inventory} {item : OrderItem}
    (hnodup : (d.shop.inventory.map (·.productId)).Nodup) (hview : i ∈ view.shop.inventory)
    (hd : inventoryTable.find d item.productId = some i) (hq : item.quantity ≤ i.reservedQuantity) :
    inventoryTable.modify
        (fun i => i.productId = item.productId && item.quantity ≤ i.reservedQuantity)
        (fulfilInventory item.quantity) view d =
      { d with shop := { d.shop with
          inventory := replaceRow (·.productId) (fulfilInventory item.quantity i)
            d.shop.inventory } } := by
  obtain ⟨hi, hproduct⟩ := inventoryTable.find_mem hd
  have hproduct : i.productId = item.productId := hproduct
  have hp : (decide (i.productId = item.productId) &&
      decide (item.quantity ≤ i.reservedQuantity)) = true := by simp [hproduct, hq]
  refine (inventoryTable.modify_eq_replaceRow hnodup hi (fun k _ hk => ?_) rfl fun _ => ?_).trans ?_
  · simp only [Bool.and_eq_true, decide_eq_true_eq] at hk
    exact hk.1.trans hproduct.symm
  · exact List.mem_map_of_mem (Table.mem_matching.mpr ⟨hview, hp⟩)
  · rw [if_pos hp]
    rfl

/-- Who owns what is neither locked nor seen again. -/
theorem part_addProjection {p : OwnershipProjection} (d : Database) (k : Row) :
    part (projectionTable.add p d) k = part d k := by
  cases k <;> rfl

/-- The jobs of an order are one job. -/
theorem remainingJobs_fulfil {d : Database} (h : Machine d) (hj : jobTable.find d jobId = some j) :
    ((replaceRow (·.id) j.fulfil d.jobs).filter fun k =>
      k.orderId = j.orderId && k.status ≠ .fulfilled).length = 0 := by
  rw [List.length_eq_zero_iff, List.filter_eq_nil_iff]
  intro k hk hopen
  simp only [Bool.and_eq_true, decide_eq_true_eq] at hopen
  rcases mem_replaceRow hk with rfl | ⟨hk, hne⟩
  · exact hopen.2 rfl
  · obtain rfl := List.inj_on_of_nodup_map h.jobOrders hk (jobTable.find_mem hj).1 hopen.1
    exact hne rfl

/-- A new event. -/
theorem fresh_of_unique {e : MintEvidence} {db : Database}
    (h : unique (db.evidence.any fun f => f.id = e.id ||
      (f.transactionHash = e.transactionHash && f.eventIndex = e.eventIndex) ||
      (f.collectibleMintId = e.collectibleMintId && f.processingStatus = .accepted &&
        e.processingStatus = .accepted)) = none) :
    evidenceTable.find db (e.transactionHash, e.eventIndex) = none := by
  refine evidenceTable.find_none_of_any (unique_eq_none.mp h) fun f hf => ?_
  obtain ⟨hhash, hindex⟩ := Prod.mk.inj (show (f.transactionHash, f.eventIndex) = _ from hf)
  simp [hhash, hindex]

/-- The record of evidence; its event was new. -/
theorem safe_insertEvidence (hK : Marks K E ok) {e : MintEvidence}
    {k : PUnit → Prog Database Row Site Result} (ht : Tracks K E L id A)
    (next : ∀ L' B, Tracks K E L' (evidenceTable.add e) B → L ⊆ L' → E e → (∀ d, B d → A d ∧
      evidenceTable.find d (e.transactionHash, e.eventIndex) = none) →
      Outline K E ok (k ⟨⟩) L' (evidenceTable.add e) B) :
    Outline K E ok (insertEvidence e k) L id A := by
  refine Lib.safe_insertRow fun db _ hA hok hv => ?_
  have hlock : (⟨.event e.transactionHash e.eventIndex, .update⟩ : Lock Row) ∈ L ++
      ([⟨.evidence e.id, .update⟩, ⟨.event e.transactionHash e.eventIndex, .update⟩,
        ⟨.mint e.collectibleMintId, .keyShare⟩] ++
      if e.processingStatus = .accepted then [⟨.acceptedEvidenceOf e.collectibleMintId, .update⟩]
      else []) := by simp
  obtain ⟨B, hB, h⟩ := ht.after (L := [⟨.evidence e.id, .update⟩,
    ⟨.event e.transactionHash e.eventIndex, .update⟩, ⟨.mint e.collectibleMintId, .keyShare⟩] ++
      if e.processingStatus = .accepted then [⟨.acceptedEvidenceOf e.collectibleMintId, .update⟩]
      else []) hA
  refine ⟨B, hB, h.track.stable, ?_⟩
  refine next _ B (h.track.add evidenceLayout hlock) (List.subset_append_left _ _)
    (hK.evidence e _ hok) fun d hd => ⟨h.before d hd, ?_⟩
  exact ((h.seen d hd).find evidenceLayout (i := (e.transactionHash, e.eventIndex)) hlock rfl).trans
    (fresh_of_unique hv)

theorem safe_confirmMint (hK : Marks K E ok) {e : MintEvidence} {o : Observed} {projectionId : Uuid}
    {r : Response} (ht : Tracks K E L (evidenceTable.add e) A) (hlock : ⟨.job jobId, .update⟩ ∈ L)
    (hid : j.id = jobId) (hA' : ∀ d, A d → Known jobId j m items d ∧
      evidenceTable.find d (e.transactionHash, e.eventIndex) = none)
    (hE : E e) (hawaiting : j.status = .awaitingChain) (hsubmitted : m.status = .submitted)
    (haccepted : acceptedFor m.id e = true) (hshown : Shows m.confirm e)
    (hnamed : Named e (projectionRow o projectionId m.id)) :
    Outline K E ok ((do
      confirmMint j m o projectionId
      Tx.commit
      loadFulfillment jobId
      return r : Handler Response).request) L (evidenceTable.add e) A := by
  have hA (d : Database) (hd : A d) := (hA' d hd).1
  refine safe_bind (safe_bind (ht.safe_update fun db₁ A₁ _ hA₁ _ h₁ => ?_))
  have ht₁ := h₁.track.modifyLocked mintLayout (f := (·.confirm)) (fun _ => rfl)
    fun c => ⟨_, List.mem_singleton_self _, rfl, rfl⟩
  refine safe_bind (ht₁.safe_update fun db₂ A₂ _ hA₂ _ h₂ => ?_)
  have ht₂ := h₂.track.modifyLocked jobLayout (f := (·.fulfil)) (fun _ => rfl)
    fun c => ⟨_, List.mem_singleton_self _, rfl, rfl⟩
  -- the job and its mint after the two updates
  have hboth (d : Database) (hI : Machine d) (hd : A₂ d) :
      mintTable.modify (fun n => n.id = m.id && n.status = .submitted) (·.confirm)
          (evidenceTable.add e db₁)
          (jobTable.modify (fun k => k.id = j.id && k.status = .awaitingChain) (·.fulfil)
            (mintTable.modify (fun n => n.id = m.id && n.status = .submitted) (·.confirm)
              (evidenceTable.add e db₁) (evidenceTable.add e db₂)) (evidenceTable.add e d)) =
        { d with
          evidence := d.evidence ++ [e]
          jobs := replaceRow (·.id) j.fulfil d.jobs
          mints := replaceRow (·.fulfillmentJobId) m.confirm d.mints } := by
    have hknown := hA d (h₁.before d (h₂.before d hd))
    obtain ⟨hm, hmjob⟩ := mintOf_mem hknown.mint
    have hadded : Known jobId j m items (evidenceTable.add e d) :=
      ⟨hknown.job, hknown.mint, hknown.items⟩
    rw [modify_both ?_ ?_ ?_ ?_ hadded (fun k hk => ?_) (fun n hn hp => ?_) rfl rfl]
    · simp only [hawaiting, hsubmitted, decide_true, Bool.and_self, if_true]
      rfl
    · exact (hA db₂ (h₁.before db₂ hA₂)).job
    · exact (hA db₁ hA₁).mint
    · exact hI.jobIds
    · exact hI.mintJobs
    · simp only [Bool.and_eq_true, decide_eq_true_eq] at hk
      exact hk.1.trans hid
    · simp only [Bool.and_eq_true, decide_eq_true_eq] at hp
      rw [List.inj_on_of_nodup_map hI.mintIds hn hm hp.1, hmjob]
  refine safe_bind (safe_require fun _ => ?_)
  refine safe_bind (ht₂.safe_insertRow fun db₃ A₃ _ hA₃ _ h₃ => ?_)
  have ht₃ := h₃.track.hide (f := projectionTable.add (projectionRow o projectionId m.id))
    part_addProjection
  refine safe_bind (safe_bind (safe_select ht₃.stable fun db₄ item _ hA₄ hitem => ?_))
  cases item with
  | none => exact safe_require fun hmoved => absurd hmoved (by decide)
  | some item =>
      refine safe_bind (ht₃.safe_update fun db₅ A₅ hI₅ hA₅ _ h₅ => ?_)
      have ht₅ := h₅.track.modifyLocked inventoryLayout (f := fulfilInventory item.quantity)
        (fun _ => rfl) fun c => ⟨_, List.mem_singleton_self _, rfl, rfl⟩
      refine safe_require fun hmoved => ?_
      obtain ⟨i, hmatching⟩ := List.length_eq_one_iff.mp (of_decide_eq_true hmoved)
      obtain ⟨hi, hcond⟩ := Table.mem_matching.mp (hmatching ▸ List.mem_singleton_self i)
      simp only [Bool.and_eq_true, decide_eq_true_eq] at hcond
      have hA₂' (d : Database) (hd : A₅ d) : A₂ d := h₃.before d (h₅.before d hd)
      have hknown (d : Database) (hd : A₅ d) : Known jobId j m items d :=
        hA d (h₁.before d (h₂.before d (hA₂' d hd)))
      -- the inventory is locked
      have hfind (d : Database) (hd : A₅ d) : inventoryTable.find d item.productId = some i := by
        have hview : inventoryTable.find db₅ item.productId = some i :=
          hcond.1 ▸ inventoryTable.find_of_mem hI₅.machine.products hi
        refine Eq.trans ?_ hview
        refine (h₅.seen d hd).find inventoryLayout (i := item.productId) ?_ rfl (m := .noKeyUpdate)
        rw [hmatching, ← hcond.1]
        exact List.mem_append_right _ (List.mem_singleton_self _)
      have hitem' (d : Database) (hd : A₅ d) :
          d.shop.orderItems.find? (·.id = j.orderItemId) = some item := by
        have hitem : db₄.shop.orderItems.find? (·.id = j.orderItemId) = some item := hitem
        rw [(hA db₄ (h₁.before _ (h₂.before _ (h₃.before _ hA₄)))).items] at hitem
        rw [(hknown d hd).items]
        exact hitem
      refine safe_bind (safe_select ht₅.stable fun db₆ remaining hI₆ hA₆ hremaining => ?_)
      have hnone : remaining = 0 := by
        refine hremaining.symm.trans (Eq.trans ?_ (remainingJobs_fulfil hI₆.machine (hknown db₆ hA₆).job))
        have hjobs := congrArg Database.jobs (hboth db₆ hI₆.machine (hA₂' db₆ hA₆))
        exact congrArg (fun jobs : List FulfillmentJob =>
          (jobs.filter fun k => k.orderId = j.orderId && k.status ≠ .fulfilled).length) hjobs
      refine safe_ite (fun _ => ?_) fun hsome => absurd hnone hsome
      refine safe_bind (ht₅.safe_update fun db₇ A₇ hI₇ hA₇ _ h₇ => ?_)
      have ht₇ := h₇.track.modifyLocked orderLayout (f := ({ · with status := .fulfilled }))
        (fun _ => rfl) fun c => ⟨_, List.mem_singleton_self _, rfl, rfl⟩
      refine safe_require fun _ => ?_
      refine safe_bind (safe_commitTurn m j.fulfil m.confirm [e]
        [projectionRow o projectionId m.id] ht₇ ?_ hid (fun f hf => ?_) (fun d hI hd => ?_)
        (by exact safe_answer))
      · simp only [List.mem_append, hlock, true_or]
      · obtain rfl := List.mem_singleton.mp hf
        exact hE
      · have hd := h₇.before d hd
        obtain ⟨k, hk, hstatus⟩ := hI.machine.ordered j (jobTable.find_mem (hknown d hd).job).1
        obtain ⟨k₁, hk₁, hstatus₁⟩ :=
          hI₇.machine.ordered j (jobTable.find_mem (hknown db₇ hA₇).job).1
        rw [hawaiting] at hstatus hstatus₁
        have hfulfilling : k.status = .fulfilling := hstatus
        have hfulfilling₁ : k₁.status = .fulfilling := hstatus₁
        refine ⟨k, { k with status := .fulfilled }, _, .of_fulfilled hI.machine (hknown d hd) hid
          hawaiting hsubmitted hk (hitem' d hd) (hfind d hd)
          (hA' d (h₁.before d (h₂.before d (hA₂' d hd)))).2 haccepted hshown hnamed rfl,
          hK.confirm m hsubmitted (hI.mints m (mintOf_mem (hknown d hd).mint).1), ?_⟩
        refine (congrArg (fun x => orderTable.modify _ _ _ (inventoryTable.modify _ _ _
          (projectionTable.add _ x))) (hboth d hI.machine (hA₂' d hd))).trans ?_
        refine (congrArg (orderTable.modify _ _ _) (modify_inventory (i := i) ?_ ?_ ?_ ?_)).trans ?_
        · exact hI.machine.products
        · exact hi
        · exact hfind d hd
        · exact hcond.2
        · refine (modify_order ?_ ?_ ?_ hfulfilling₁ hfulfilling).trans ?_
          · exact hI.machine.orderIds
          · exact hk₁
          · exact hk
          · rfl

theorem safe_recordMintEvidence (hK : Marks K E ok) (actorUserId jobId : Uuid)
    (body : MintEvidenceRequest) (ids : EvidenceIds) :
    SafeHandler K E ok (recordMintEvidence ext actorUserId jobId body ids) := by
  refine safe_bind (safe_valid fun o _ => ?_)
  refine safe_bind (safe_loadJobForUpdate fun j m items hid hsound hmint ht => ?_)
  refine safe_bind (safe_requireEditor ht ?_)
  refine safe_bind (safe_loadMintForUpdate ht fun ht => ?_)
  have hlock : (⟨.job jobId, .update⟩ : Lock Row) ∈
      [⟨.job jobId, .update⟩] ++ [⟨.mint m.id, .update⟩] := List.mem_cons_self
  refine safe_bind (safe_select ht.stable fun _ existing _ _ _ => ?_)
  cases existing with
  | some existing =>
      exact safe_bind (safe_require fun _ => safe_bind (safe_commitNothing ht safe_answer))
  | none =>
      generalize hfailure : reconcileMintEvidence j m o body.rawEvent = failure
      refine safe_bind (safe_insertEvidence hK ht fun L₁ A₁ ht₁ hsub hE hA => ?_)
      cases failure with
      | none =>
          obtain ⟨hawaiting, hsubmitted, hshown⟩ := of_reconcileMintEvidence hfailure
          refine safe_bind (safe_select ht₁.stable fun _ _ _ _ _ => safe_bind (safe_require fun _ => ?_))
          exact safe_confirmMint hK ht₁ (hsub hlock) hid hA hE hawaiting hsubmitted
            (by simp [acceptedFor, evidenceRow]) (hshown ids.evidence) ⟨rfl, rfl, rfl, rfl, rfl, rfl⟩
      | some failure =>
          -- rejected evidence is kept, and changes nothing else
          refine safe_bind (safe_commitTurn m j m
            [evidenceRow ext o body.rawEvent ids.evidence m.id (some failure)] [] ht₁ (hsub hlock) hid
            (fun f hf => ?_) (fun d hI hd => ?_) (by exact safe_answer))
          · obtain rfl := List.mem_singleton.mp hf
            exact hE
          · obtain ⟨hknown, hfresh⟩ := hA d hd
            obtain ⟨hj, -⟩ := jobTable.find_mem hknown.job
            obtain ⟨hm, -⟩ := mintOf_mem hknown.mint
            obtain ⟨k, hk, hstatus⟩ := hI.machine.ordered j hj
            refine ⟨k, k, d.shop.inventory, .of_same hI.machine hknown hid .refl rfl rfl hmint hk rfl
              hstatus (.inl ⟨rfl, rfl⟩) ?_ (fun f hf => ?_) ?_, hI.mints m hm, ?_⟩
            · exact evidenceTable.nodup_add hI.machine.events (evidenceTable.find_none hfresh)
            · obtain rfl := List.mem_singleton.mp hf
              rfl
            · simp [acceptedFor, evidenceRow]
            · simp only [turn, replaceRow_self hI.machine.jobIds hj, List.append_nil,
                replaceRow_self hI.machine.mintJobs hm,
                replaceRow_self hI.machine.orderIds (orderTable.find_mem hk).1]
              rfl

/-! ### New jobs -/

theorem mem_fulfillmentSources {orderId : Uuid} {db : Database} {s : FulfillmentSource}
    (hs : s ∈ fulfillmentSources orderId db) :
    ∃ o, orderTable.find db orderId = some o ∧ s.orderStatus = o.status := by
  simp only [fulfillmentSources, List.mem_flatMap, List.mem_map, Option.mem_toList] at hs
  obtain ⟨o, ho, oi, -, p, -, ce, -, cc, -, rfl⟩ := hs
  exact ⟨o, ho, rfl⟩

/-- The constraints of the validated number of attempts. -/
theorem CreateFulfillmentRequest.attempts_pos {body : CreateFulfillmentRequest} {fulfil : Fulfil}
    (h : body.validate = .ok fulfil) : 0 < fulfil.maxAttempts := by
  simp only [CreateFulfillmentRequest.validate, bind_eq_ok] at h
  obtain ⟨recipientAccount, -, idempotencyKey, -, h⟩ := h
  split at h
  · cases h
  · rename_i hbounds
    rw [not_not] at hbounds
    obtain rfl := (Except.ok.inj h).symm
    exact hbounds.1

/-- A job as it is created, with its mint. -/
structure NewJob (orderId : Uuid) (j : FulfillmentJob) (m : CollectibleMint) : Prop where
  order : j.orderId = orderId
  queued : j.status = .queued
  sound : j.Sound
  mint : m.fulfillmentJobId = j.id
  mintQueued : m.status = .queued

/-- **The end of a transaction that created a job** for an order that was paid. -/
theorem NewJob.commit {orderId : Uuid} (hnew : NewJob orderId j m) (hK : Marks K E ok) {d : Database}
    {o : Order} (hI : Kept K E d) (hj : jobTable.find d j.id = none)
    (hm : mintTable.find d m.id = none) (ho : orderTable.find d orderId = some o)
    (hpaid : o.status = .paid)
    (hframed : Framed part L d (create j m { o with status := .fulfilling } d))
    (hlock : (⟨.job j.id, .update⟩ : Lock Row) ∈ L) :
    Kept K E (create j m { o with status := .fulfilling } d) ∧
      Forward part Rely L d (create j m { o with status := .fulfilling } d) := by
  obtain ⟨rfl, hqueued, hsound, hmjob, hmqueued⟩ := hnew
  refine ⟨⟨hI.machine.create hj hm ho hpaid hsound hqueued hmjob hmqueued rfl rfl, fun n hn => ?_,
    hI.evidence⟩, hframed, rfl, fun other hother => ?_, Table.Grows.add (T := jobTable) (r := j),
    fun productId => unfulfilled_create hqueued productId, List.prefix_refl _⟩
  · rcases List.mem_append.mp hn with hn | hn
    · exact hI.mints n hn
    · obtain rfl := List.mem_singleton.mp hn
      exact hK.waiting n (.inl hmqueued)
  · have hne : m.fulfillmentJobId ≠ other := by
      rintro rfl
      rw [hmjob] at hother
      exact hother (written_of_mem hlock rfl)
    show (d.mints ++ [m]).find? _ = _
    rw [List.find?_append, List.find?_singleton, decide_eq_false hne]
    exact Option.or_none

theorem sound_queuedJob {s : FulfillmentSource} {orderId actorUserId jobId : Uuid} {fulfil : Fulfil}
    {payloadSha256 : String} {began : Int} (h : 0 < fulfil.maxAttempts) :
    (queuedJob s orderId actorUserId jobId fulfil payloadSha256 began).Sound where
  bounded := h.le
  claimable _ := h
  lockedAt := iff_of_false Bool.false_ne_true JobStatus.noConfusion
  lockedBy := iff_of_false Bool.false_ne_true JobStatus.noConfusion

theorem safe_createFulfillmentJob (hK : Marks K E ok) (actorUserId orderId : Uuid)
    (body : CreateFulfillmentRequest) (ids : JobIds) :
    SafeHandler K E ok (createFulfillmentJob ext actorUserId orderId body ids) := by
  refine safe_bind (safe_valid fun fulfil hvalid => ?_)
  refine safe_bind (safe_select stable_true fun _ began _ _ _ => ?_)
  refine safe_bind (Track.start.safe_selectFor fun db₀ A₀ sources _ _ hsources h₀ => ?_)
  have ht₀ := h₀.track
  refine safe_bind (safe_orElse fun s hs => safe_bind (safe_require fun _ => ?_))
  have hmem : s ∈ fulfillmentSources orderId db₀ := by
    rw [show fulfillmentSources orderId db₀ = sources from hsources]
    exact List.mem_of_mem_head? hs
  obtain ⟨o, ho, hstatus⟩ := mem_fulfillmentSources hmem
  -- the order is locked
  have hordered (d : Database) (hd : A₀ d) : orderTable.find d orderId = some o := by
    refine Eq.trans ?_ ho
    refine (h₀.seen d hd).find orderLayout (i := orderId) ?_ rfl (m := .update)
    refine List.mem_append_right _ (List.mem_flatMap.mpr ⟨s, hmem, List.mem_cons_self⟩)
  refine safe_bind (safe_requireEditor ht₀ (safe_bind (safe_valid fun made _ => ?_)))
  refine safe_bind (safe_select ht₀.stable fun _ _ _ _ _ => safe_bind (safe_require fun _ => ?_))
  refine safe_bind (safe_select ht₀.stable fun _ _ _ _ _ => safe_bind (safe_require fun _ => ?_))
  refine safe_bind (ht₀.safe_selectFor fun db₁ A₁ existing _ _ _ h₁ => ?_)
  have ht₁ := h₁.track
  cases existing with
  | some existing =>
      exact safe_bind (safe_require fun _ => safe_bind (safe_commitNothing ht₁ safe_answer))
  | none =>
      refine safe_bind (safe_require fun hpaid => ?_)
      have hpaid : o.status = .paid := hstatus.symm.trans (of_decide_eq_true hpaid)
      generalize hashJson ext _ = payloadSha256
      generalize hashText ext.sha256 _ = mintReferenceSha256
      obtain ⟨j, hj⟩ : ∃ j, j = queuedJob s orderId actorUserId ids.job fulfil payloadSha256 began :=
        ⟨_, rfl⟩
      obtain ⟨m, hm⟩ : ∃ m, m = queuedMint s ids made.1 made.2 fulfil.recipientAccount
        mintReferenceSha256 := ⟨_, rfl⟩
      have hnew : NewJob orderId j m := by
        subst hj hm
        exact ⟨rfl, rfl, sound_queuedJob (CreateFulfillmentRequest.attempts_pos hvalid), rfl, rfl⟩
      refine safe_bind ?_
      rw [← hj]
      refine ht₁.safe_insertRow fun db₂ A₂ _ _ hjob h₂ => ?_
      have ht₂ := h₂.track.add jobLayout (r := j) (List.mem_append_right _ List.mem_cons_self)
      refine safe_bind ?_
      rw [← hm]
      refine ht₂.safe_insertRow fun db₃ A₃ _ _ hmint h₃ => ?_
      have ht₃ := h₃.track.add mintLayout (r := m) (List.mem_append_right _ List.mem_cons_self)
      refine safe_bind (ht₃.safe_update fun db₄ A₄ _ hA₄ _ h₄ => ?_)
      have ht₄ := h₄.track.modifyLocked orderLayout (f := ({ · with status := .fulfilling }))
        (fun _ => rfl) fun c => ⟨_, List.mem_singleton_self _, rfl, rfl⟩
      refine safe_bind (safe_require fun _ => ?_)
      refine safe_bind (safe_commit (fun d hI hd => ?_) (by exact safe_answer))
      have hA₃ := h₄.before d hd
      have hA₂ := h₃.before d hA₃
      have hjfree : jobTable.find d j.id = none := by
        refine ((h₂.seen d hA₂).find jobLayout (i := j.id) (m := .update)
          (List.mem_append_right _ List.mem_cons_self) rfl).trans ?_
        exact jobTable.find_none_of_any (unique_eq_none.mp hjob) fun k hk => by
          simp [show k.id = j.id from hk]
      have hmfree : mintTable.find d m.id = none := by
        refine ((h₃.seen d hA₃).find mintLayout (i := m.id) (m := .update)
          (List.mem_append_right _ List.mem_cons_self) rfl).trans ?_
        exact mintTable.find_none_of_any (unique_eq_none.mp hmint) fun n hn => by
          simp [show n.id = m.id from hn]
      have hfound := hordered d (h₁.before d (h₂.before d hA₂))
      have hpending : orderTable.modify (fun k => k.id = orderId && k.status = .paid)
          ({ · with status := .fulfilling }) (mintTable.add m (jobTable.add j db₄))
          (mintTable.add m (jobTable.add j d)) = create j m { o with status := .fulfilling } d := by
        refine (modify_order ?_ ?_ ?_ hpaid hpaid).trans ?_
        · exact hI.machine.orderIds
        · exact hordered db₄ (h₁.before db₄ (h₂.before db₄ (h₃.before db₄ hA₄)))
        · exact hfound
        · rfl
      have hframed := ht₄.framed d
      refine (congrArg (fun x => Kept K E x ∧ Forward part Rely _ d x) hpending).mpr
        (hnew.commit hK hI hjfree hmfree hfound hpaid (hpending ▸ hframed) ?_)
      simp only [List.mem_append, List.mem_cons, true_or, or_true]

/-! ### Requests on other tables -/

theorem Machine.surround {db : Database} (h : Machine db) (s : Surroundings) :
    Machine (Fulfillment.surround s db) :=
  ⟨h.jobIds, h.jobOrders, h.mintIds, h.mintJobs, h.orderIds, h.products, h.sound, h.minted, h.ordered,
    h.worked, h.events, h.proven, h.about, h.traced⟩

theorem part_surround (s : Surroundings) (db : Database) (k : Row) :
    part (surround s db) k = part db k := by
  cases k <;> rfl

theorem safe_elsewhere (s : Surroundings) : SafeHandler K E ok (elsewhere s) := by
  refine safe_bind (safe_write fun _ _ _ _ => ⟨fun _ => True, trivial, stable_true, ?_⟩)
  refine safe_bind (safe_commit (fun d hI _ => ?_) (by exact safe_ret))
  refine ⟨⟨hI.machine.surround s, hI.mints, hI.evidence⟩, fun k _ => part_surround s d k, ?_⟩
  exact ⟨rfl, fun _ _ => rfl, .of_find fun _ => rfl, fun _ => rfl, List.prefix_refl _⟩

/-- **Every request has its outline.** -/
theorem safe_requests (hK : Marks K E ok) (p : Prog Database Row Site Result) (hp : Requests ext p) :
    OutlinedRequest (Kept K E) (Forward part Rely) (Forward part Rely) ok Owned p := by
  cases hp with
  | createFulfillmentJob actor order body ids => exact safe_createFulfillmentJob hK actor order body ids
  | claimFulfillmentJob actor job worker => exact safe_claimFulfillmentJob hK actor job worker
  | recordMintSubmission actor job body => exact safe_recordMintSubmission hK actor job body
  | recordFulfillmentFailure actor job body => exact safe_recordFulfillmentFailure hK actor job body
  | recordMintEvidence actor job body ids => exact safe_recordMintEvidence hK actor job body ids
  | elsewhere s => exact safe_elsewhere s

end CrownFi.Fulfillment
