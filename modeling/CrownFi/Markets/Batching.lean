import CrownFi.Markets.LogCheck

/-!
# CrownFi.Markets.Batching

**Settlements by transactions that pay several items.** A transaction may pay items of a run by
several operations; evidence is told apart by transaction and operation. Items are not: no two of
them may name the same submitted transaction. So the submissions and the evidence of a run are all
taken, and confirm the run, exactly if each transaction pays a single item (`settles_iff_apart`).
-/

namespace CrownFi.Markets

open Lib CrownFi.Api Settlement

variable {ext : External}

/-! ### The payments of a run -/

/-- How the items of a run are paid, by their ids: the hash that is submitted, the evidence that
follows, also as it is validated, and the ids that are drawn for it. -/
structure Payments where
  submission : Uuid → String
  evidence : Uuid → SettlementEvidenceRequest
  observed : Uuid → ObservedPayout
  ids : Uuid → SettlementIds

namespace Payments

/-- The transaction that pays an item. -/
def hash (pay : Payments) (itemId : Uuid) : String := (pay.observed itemId).transactionHash

/-- The operation that pays an item. -/
def operation (pay : Payments) (itemId : Uuid) : String × Int :=
  (pay.hash itemId, (pay.observed itemId).operationIndex)

/-- The items of the run are paid as planned, each by an operation of its own, and nothing is known
of these transactions yet. -/
structure Pay (pay : Payments) (runId : Uuid) (db : Database) : Prop where
  submitted : ∀ i ∈ itemsOf db runId, hexString (pay.submission i.id) 64
    "invalid_market_settlement_transaction_hash" = .ok (pay.hash i.id)
  valid : ∀ i ∈ itemsOf db runId, (pay.evidence i.id).validate = .ok (pay.observed i.id)
  recipient : ∀ i ∈ itemsOf db runId, ∃ a,
    db.directory.stellarAccounts.find? (·.id = i.recipientStellarAccountId) = some a ∧
      a.address = (pay.observed i.id).recipientAddress
  amount : ∀ i ∈ itemsOf db runId, i.payoutMinor = (pay.observed i.id).amountMinor
  operations : ∀ i ∈ itemsOf db runId, ∀ j ∈ itemsOf db runId,
    pay.operation i.id = pay.operation j.id → i.id = j.id
  references : ∀ i ∈ itemsOf db runId, ∀ j ∈ itemsOf db runId,
    (pay.observed i.id).eventReference = (pay.observed j.id).eventReference → i.id = j.id
  drawn : ∀ i ∈ itemsOf db runId, ∀ j ∈ itemsOf db runId,
    (pay.ids i.id).evidence = (pay.ids j.id).evidence → i.id = j.id
  unknown : ∀ i ∈ itemsOf db runId, ∀ f ∈ db.settlementEvidence, f.id ≠ (pay.ids i.id).evidence ∧
    f.settlementItemId ≠ i.id ∧ f.eventReference ≠ (pay.observed i.id).eventReference ∧
    (f.transactionHash, f.operationIndex) ≠ pay.operation i.id
  unused : ∀ i ∈ itemsOf db runId, ∀ j ∈ db.items, j.submittedTxHash ≠ some (pay.hash i.id)
  events : ∀ i ∈ itemsOf db runId, ∀ e ∈ db.governance, e.id ≠ (pay.ids i.id).event

/-- Each transaction pays a single item. -/
def Apart (pay : Payments) (runId : Uuid) (db : Database) : Prop :=
  ∀ i ∈ itemsOf db runId, ∀ j ∈ itemsOf db runId, pay.hash i.id = pay.hash j.id → i.id = j.id

end Payments

/-- The run and its items are planned, and nothing has happened since. -/
structure JustPlanned (r : SettlementRun) (db : Database) : Prop where
  run : runTable.find db r.id = some r
  status : r.status = .planned
  itemIds : (db.items.map (·.id)).Nodup
  stocked : itemsOf db r.id ≠ []
  planned : ∀ i ∈ itemsOf db r.id,
    i.status = .planned ∧ i.submittedTxHash = none ∧ i.acceptedEvidenceId = none

/-! ### The notices about them -/

/-- What is recorded of an item. -/
inductive Notice
  | submission (itemId : Uuid)
  | evidence (itemId : Uuid)
  deriving DecidableEq, Repr

namespace Notice

def item : Notice → Uuid
  | submission itemId => itemId
  | evidence itemId => itemId

def request (ext : External) (pay : Payments) : Notice → Prog Database Row Site Result
  | submission itemId => (recordSubmission itemId (pay.submission itemId)).request
  | evidence itemId =>
      (acceptSettlementEvidence ext itemId (pay.evidence itemId) (pay.ids itemId)).request

end Notice

/-- Every item is submitted and evidenced once, the submission first. -/
structure InOrder (itemIds : List Uuid) (notices : List Notice) : Prop where
  nodup : notices.Nodup
  known : ∀ n ∈ notices, n.item ∈ itemIds
  complete : ∀ itemId ∈ itemIds, .evidence itemId ∈ notices
  ordered : ∀ itemId before after, notices = before ++ .evidence itemId :: after →
    .submission itemId ∈ before

/-- The same state at another time. -/
def atTime (now : Int) (db : Database) : Database :=
  { db with directory := { db.directory with clock := now } }

/-- A notice that arrives at a time, handled alone. -/
def deliver (ext : External) (pay : Payments) (now : Int) (n : Notice) (db : Database) :
    Option (Result × Database) :=
  (n.request ext pay).ends (atTime now db) (atTime now db)

/-- The notices are all taken, one after the other, and the run is confirmed at the end. -/
def Settles (ext : External) (pay : Payments) (runId : Uuid) : List (Int × Notice) → Database → Prop
  | [], db => ∃ r, runTable.find db runId = some r ∧ r.status = .confirmed
  | (now, n) :: rest, db => ∃ response db', deliver ext pay now n db = some (.ok response, db') ∧
      Settles ext pay runId rest db'

/-- The action that has to be allowed for a run of this kind. -/
def RunKind.action : RunKind → PolicyAction
  | .refund => .refund
  | .payout => .settle

/-! ### The run underway -/

section Underway

variable {pay : Payments} {r : SettlementRun} {db₀ db : Database} {done : List Notice}
  {i i' j : SettlementItem} {rest : List (Int × Notice)}

/-- The status of an item after these notices. -/
def stage (done : List Notice) (itemId : Uuid) : ItemStatus :=
  if .evidence itemId ∈ done then .confirmed
  else if .submission itemId ∈ done then .submitted
  else .planned

/-- An item of the run as it is planned, and as it is after these notices. -/
structure Staged (pay : Payments) (done : List Notice) (i i' : SettlementItem) : Prop where
  same : i' = { i with
    status := stage done i.id
    submittedTxHash := if .submission i.id ∈ done then some (pay.hash i.id) else none
    acceptedEvidenceId := i'.acceptedEvidenceId
    confirmedAt := i'.confirmedAt }
  unaccepted : .evidence i.id ∉ done → i'.acceptedEvidenceId = none

/-- An item after these notices: those of other runs stay. -/
def Follows (pay : Payments) (runId : Uuid) (done : List Notice) (i i' : SettlementItem) : Prop :=
  if i.settlementRunId = runId then Staged pay done i i' else i' = i

/-- The evidence that was recorded of an item. -/
structure RecordedFor (pay : Payments) (itemId : Uuid) (f : SettlementEvidence) : Prop where
  id : f.id = (pay.ids itemId).evidence
  item : f.settlementItemId = itemId
  reference : f.eventReference = (pay.observed itemId).eventReference
  operation : (f.transactionHash, f.operationIndex) = pay.operation itemId

/-- The run after these notices, as long as it is not confirmed. -/
structure Underway (pay : Payments) (r : SettlementRun) (db₀ : Database) (done : List Notice)
    (db : Database) : Prop where
  accounts : db.directory.stellarAccounts = db₀.directory.stellarAccounts
  decisions : db.decisions = db₀.decisions
  governance : db.governance = db₀.governance
  run : ∃ status, (status = .planned ∨ status = .submitting) ∧
    runTable.find db r.id = some { r with status }
  items : List.Forall₂ (Follows pay r.id done) db₀.items db.items
  evidence : ∀ f ∈ db.settlementEvidence, f ∈ db₀.settlementEvidence ∨
    ∃ i ∈ itemsOf db₀ r.id, .evidence i.id ∈ done ∧ RecordedFor pay i.id f

theorem stage_nil {itemId : Uuid} : stage [] itemId = .planned := by simp [stage]

theorem JustPlanned.underway (h : JustPlanned r db) : Underway pay r db [] db where
  accounts := rfl
  decisions := rfl
  governance := rfl
  run := ⟨.planned, .inl rfl, by rw [h.run, ← h.status]⟩
  items := by
    refine List.forall₂_same.mpr fun i hi => ?_
    unfold Follows
    split
    · rename_i hrun
      obtain ⟨hstatus, hhash, haccepted⟩ := h.planned i (mem_itemsOf.mpr ⟨hi, hrun⟩)
      refine ⟨?_, fun _ => haccepted⟩
      rw [stage_nil, if_neg List.not_mem_nil, ← hstatus, ← hhash]
    · rfl
  evidence f hf := .inl hf

theorem Underway.later (h : Underway pay r db₀ done db) (now : Int) :
    Underway pay r db₀ done (atTime now db) :=
  { h with }

theorem Follows.id (h : Follows pay r.id done i i') : i'.id = i.id := by
  unfold Follows at h
  split at h
  · rw [h.same]
  · rw [h]

theorem Follows.run (h : Follows pay r.id done i i') : i'.settlementRunId = i.settlementRunId := by
  unfold Follows at h
  split at h
  · rw [h.same]
  · rw [h]

theorem Underway.ids (h : Underway pay r db₀ done db) :
    db.items.map (·.id) = db₀.items.map (·.id) :=
  forall₂_map_eq h.items fun _ _ hf => hf.id

/-- The row of an item of the run. -/
theorem Underway.item (h : Underway pay r db₀ done db) (hids : (db₀.items.map (·.id)).Nodup)
    (hi : i ∈ itemsOf db₀ r.id) : ∃ i', itemTable.find db i.id = some i' ∧ Staged pay done i i' := by
  obtain ⟨hmem, hrun⟩ := mem_itemsOf.mp hi
  obtain ⟨i', hi', hfollows⟩ := forall₂_becomes h.items hmem
  have hids' : (db.items.map (·.id)).Nodup := h.ids ▸ hids
  have hfound : itemTable.find db i'.id = some i' := itemTable.find_of_mem hids' hi'
  rw [hfollows.id] at hfound
  unfold Follows at hfollows
  rw [if_pos hrun] at hfollows
  exact ⟨i', hfound, hfollows⟩

/-- What a request about an item finds. -/
structure Finds (pay : Payments) (r : SettlementRun) (done : List Notice) (i : SettlementItem)
    (c : SettlementItemContext) : Prop where
  run : c.settlementRunId = r.id
  organization : c.organizationId = r.organizationId
  market : c.marketId = r.marketId
  kind : c.runKind = r.kind
  runStatus : c.runStatus = .planned ∨ c.runStatus = .submitting
  address : c.recipientAddress = (pay.observed i.id).recipientAddress
  payout : c.payoutMinor = (pay.observed i.id).amountMinor
  status : c.itemStatus = stage done i.id
  hash : .submission i.id ∈ done → c.submittedTxHash = some (pay.hash i.id)
  unaccepted : .evidence i.id ∉ done → c.acceptedEvidenceId = none

/-- The context of an item, by its rows. -/
def contextOf (i : SettlementItem) (r : SettlementRun) (a : StellarAccount) : SettlementItemContext where
  itemId := i.id
  settlementRunId := i.settlementRunId
  organizationId := r.organizationId
  marketId := r.marketId
  runKind := r.kind
  runStatus := r.status
  requestedByUserId := r.requestedByUserId
  recipientStellarAccountId := i.recipientStellarAccountId
  recipientAddress := a.address
  payoutMinor := i.payoutMinor
  itemStatus := i.status
  submittedTxHash := i.submittedTxHash
  acceptedEvidenceId := i.acceptedEvidenceId

theorem context_of {itemId : Uuid} {a : StellarAccount} (hi : itemTable.find db itemId = some i)
    (hr : runTable.find db i.settlementRunId = some r)
    (ha : db.directory.stellarAccounts.find? (·.id = i.recipientStellarAccountId) = some a) :
    settlementItemContext itemId db = some (contextOf i r a) := by
  simp only [settlementItemContext, Option.bind_eq_bind, hi, Option.bind_some, hr, ha]
  rfl

theorem Underway.context (h : Underway pay r db₀ done db) (hplanned : JustPlanned r db₀)
    (hpay : pay.Pay r.id db₀) (hi : i ∈ itemsOf db₀ r.id) :
    ∃ c, settlementItemContext i.id db = some c ∧ Finds pay r done i c := by
  obtain ⟨i', hfound, hstaged⟩ := h.item hplanned.itemIds hi
  obtain ⟨status, hstatus, hrun⟩ := h.run
  obtain ⟨a, ha, haddress⟩ := hpay.recipient i hi
  have hof : i'.settlementRunId = r.id := by rw [hstaged.same, ← (mem_itemsOf.mp hi).2]
  have hrecipient : i'.recipientStellarAccountId = i.recipientStellarAccountId := by rw [hstaged.same]
  refine ⟨contextOf i' { r with status } a, ?_, ?_⟩
  · refine context_of hfound (hof ▸ hrun) ?_
    rw [h.accounts, hrecipient]
    exact ha
  · refine ⟨hof, rfl, rfl, rfl, hstatus, haddress, ?_, ?_, ?_, hstaged.unaccepted⟩
    · rw [hstaged.same]
      exact hpay.amount i hi
    · rw [hstaged.same]
      rfl
    · intro hdone
      rw [hstaged.same, if_pos hdone]
      rfl

/-- A check of the policy that passes. -/
theorem ends_policy {c : SettlementItemContext} {began : Int} {view d : Database}
    {k : PUnit → Prog Database Row Site Result}
    (h : policyAllows c.marketId (RunKind.action c.runKind) began view = true) :
    Prog.ends (requireSettlementPolicy c began k) view d = (k ⟨⟩).ends view d := by
  unfold requireSettlementPolicy
  refine ends_bind.trans ?_
  refine ends_select.trans ?_
  refine ends_require ?_
  cases hkind : c.runKind with
  | refund => rwa [hkind] at h
  | payout => rwa [hkind] at h

/-- The context of an item, read with its locks. -/
theorem ends_context {itemId : Uuid} {c : SettlementItemContext} {view d : Database}
    {k : SettlementItemContext → Prog Database Row Site Result}
    (h : settlementItemContext itemId view = some c) :
    Prog.ends (loadContextTx itemId k) view d = (k c).ends view d := by
  unfold loadContextTx
  refine ends_bind.trans ?_
  refine ends_selectFor.trans ?_
  exact ends_orElse h

/-! ### A submission -/

/-- A submission that is due, up to its writes. -/
theorem ends_submission {itemId : Uuid} {text hash : String} {c : SettlementItemContext}
    {db : Database} (htext : hexString text 64 "invalid_market_settlement_transaction_hash" = .ok hash)
    (hcontext : settlementItemContext itemId db = some c)
    (hpolicy : policyAllows c.marketId (RunKind.action c.runKind) db.directory.clock db = true)
    (haccepted : c.acceptedEvidenceId = none) (hstatus : c.itemStatus = .planned)
    (hrun : c.runStatus = .planned ∨ c.runStatus = .submitting) :
    (recordSubmission itemId text).request.ends db db =
      ((do
        submitItem itemId hash
        updateRun c.settlementRunId (·.status = .planned) .submitting
        Tx.commit
        return ⟨.ok, itemId⟩ : Handler Response) fun r => .ret (.ok r)).ends db db := by
  unfold Handler.request recordSubmission
  refine (ends_ofExcept htext).trans ?_
  refine ends_select.trans ?_
  refine (ends_context hcontext).trans ?_
  refine (ends_policy hpolicy).trans ?_
  refine (ends_require ?_).trans ?_
  · simp [haccepted, hstatus]
  · rw [if_neg (by simp [hstatus])]
    refine ends_require ?_
    rcases hrun with hrun | hrun
    · simp [hstatus, hrun]
    · simp [hstatus, hrun]

/-- Items of other runs are other items. -/
theorem JustPlanned.id_ne (h : JustPlanned r db₀) (hi : i ∈ itemsOf db₀ r.id) (hj : j ∈ db₀.items)
    (hother : j.settlementRunId ≠ r.id) : j.id ≠ i.id := by
  intro hid
  obtain ⟨hmem, hrun⟩ := mem_itemsOf.mp hi
  obtain rfl := List.inj_on_of_nodup_map h.itemIds hj hmem hid
  exact hother hrun

theorem mem_done {n n' : Notice} (hne : n ≠ n') : n ∈ done ++ [n'] ↔ n ∈ done := by
  simp [hne]

theorem stage_other {n : Notice} {itemId : Uuid} (hne : itemId ≠ n.item) :
    stage (done ++ [n]) itemId = stage done itemId := by
  have hevidence : Notice.evidence itemId ≠ n := by
    rintro rfl
    exact hne rfl
  have hsubmission : Notice.submission itemId ≠ n := by
    rintro rfl
    exact hne rfl
  simp only [stage, mem_done hevidence, mem_done hsubmission]

/-- A notice about another item. -/
theorem Staged.other {n : Notice} (h : Staged pay done i i') (hne : i.id ≠ n.item) :
    Staged pay (done ++ [n]) i i' := by
  have hevidence : Notice.evidence i.id ≠ n := by
    rintro rfl
    exact hne rfl
  have hsubmission : Notice.submission i.id ≠ n := by
    rintro rfl
    exact hne rfl
  refine ⟨?_, ?_⟩
  · simp only [stage_other hne, mem_done hsubmission]
    exact h.same
  · rw [mem_done hevidence]
    exact h.unaccepted

/-- The items, after an update of the one that the notice is about. -/
theorem Underway.follows (h : Underway pay r db₀ done db) (hplanned : JustPlanned r db₀)
    (hi : i ∈ itemsOf db₀ r.id) {n : Notice} (hn : n.item = i.id) {p : SettlementItem → Bool}
    {f : SettlementItem → SettlementItem} (hp : ∀ j, p j = true → j.id = i.id)
    (hstaged : ∀ i', Staged pay done i i' → Staged pay (done ++ [n]) i (if p i' then f i' else i')) :
    List.Forall₂ (Follows pay r.id (done ++ [n])) db₀.items (updateWhere p f db.items) := by
  refine forall₂_updateWhere_right h.items fun j hj j' hfollows => ?_
  have hid := hfollows.id
  unfold Follows at hfollows ⊢
  by_cases hrun : j.settlementRunId = r.id
  · rw [if_pos hrun] at hfollows ⊢
    by_cases hsame : j.id = i.id
    · obtain rfl := List.inj_on_of_nodup_map hplanned.itemIds hj (mem_itemsOf.mp hi).1 hsame
      exact hstaged j' hfollows
    · rw [if_neg fun hmatch => hsame (hid ▸ hp j' hmatch)]
      exact hfollows.other (hn ▸ hsame)
  · rw [if_neg hrun] at hfollows ⊢
    rw [if_neg fun hmatch => hplanned.id_ne hi hj hrun (hid ▸ hp j' hmatch)]
    exact hfollows

/-- A submission as it is written. -/
def named (hash : String) (i : SettlementItem) : SettlementItem :=
  { i with status := .submitted, submittedTxHash := some hash }

theorem Staged.submit (h : Staged pay done i i') (hsubmission : .submission i.id ∉ done)
    (hevidence : .evidence i.id ∉ done) :
    Staged pay (done ++ [.submission i.id]) i
      (if (i'.id = i.id && i'.status = .planned : Bool) then named (pay.hash i.id) i' else i') := by
  have hstage : stage done i.id = .planned := by rw [stage, if_neg hevidence, if_neg hsubmission]
  have hnow : stage (done ++ [.submission i.id]) i.id = .submitted := by
    simp [stage, hevidence]
  have hsame := h.same
  rw [hstage] at hsame
  rw [if_pos (by rw [hsame]; simp)]
  refine ⟨?_, fun _ => h.unaccepted hevidence⟩
  rw [hnow, if_pos (by simp), named, hsame]

/-- No item of the run was submitted with the transaction that pays this one. -/
def Unshared (pay : Payments) (runId : Uuid) (db₀ : Database) (done : List Notice) (itemId : Uuid) : Prop :=
  ∀ j ∈ itemsOf db₀ runId, .submission j.id ∈ done → pay.hash j.id ≠ pay.hash itemId

/-- The key on submitted transactions, as the update of a submission finds it. -/
theorem Underway.shared_iff (h : Underway pay r db₀ done db) (hpay : pay.Pay r.id db₀)
    (hi : i ∈ itemsOf db₀ r.id) (hsubmission : .submission i.id ∉ done) :
    db.items.any (fun j => j.id ≠ i.id && j.submittedTxHash = some (pay.hash i.id)) = false ↔
      Unshared pay r.id db₀ done i.id := by
  rw [List.any_eq_false]
  constructor
  · intro hnone j hj hdone hhash
    obtain ⟨hmem, hrun⟩ := mem_itemsOf.mp hj
    obtain ⟨j', hj', hfollows⟩ := forall₂_becomes h.items hmem
    have hid := hfollows.id
    unfold Follows at hfollows
    rw [if_pos hrun] at hfollows
    refine hnone j' hj' ?_
    have hne : j.id ≠ i.id := by
      intro heq
      exact hsubmission (heq ▸ hdone)
    rw [hid, decide_eq_true hne, Bool.true_and, hfollows.same, if_pos hdone, hhash]
    exact decide_eq_true rfl
  · intro hunshared j' hj' hmatch
    obtain ⟨j, hj, hfollows⟩ := forall₂_exists h.items hj'
    obtain ⟨-, hhash⟩ := Bool.and_eq_true_iff.mp hmatch
    have hhash := of_decide_eq_true hhash
    unfold Follows at hfollows
    by_cases hrun : j.settlementRunId = r.id
    · rw [if_pos hrun] at hfollows
      rw [hfollows.same] at hhash
      by_cases hdone : .submission j.id ∈ done
      · rw [if_pos hdone, Option.some.injEq] at hhash
        exact hunshared j (mem_itemsOf.mpr ⟨hj, hrun⟩) hdone hhash
      · rw [if_neg hdone] at hhash
        cases hhash
    · rw [if_neg hrun] at hfollows
      exact hpay.unused i hi j hj (hfollows ▸ hhash)

/-- What a submission leaves. -/
def afterSubmission (itemId runId : Uuid) (hash : String) (db : Database) : Database :=
  let written := itemTable.put db
    (updateWhere (fun i => i.id = itemId && i.status = .planned) (named hash) db.items)
  runTable.put written
    (updateWhere (fun r => r.id = runId && r.status = .planned) ({ · with status := .submitting }) db.runs)

theorem Underway.submit (h : Underway pay r db₀ done db) (hplanned : JustPlanned r db₀)
    (hi : i ∈ itemsOf db₀ r.id) (hsubmission : .submission i.id ∉ done)
    (hevidence : .evidence i.id ∉ done) :
    Underway pay r db₀ (done ++ [.submission i.id]) (afterSubmission i.id r.id (pay.hash i.id) db) where
  accounts := h.accounts
  decisions := h.decisions
  governance := h.governance
  run := by
    obtain ⟨status, hstatus, hrun⟩ := h.run
    refine ⟨.submitting, .inr rfl, ?_⟩
    have hfound : runTable.find (afterSubmission i.id r.id (pay.hash i.id) db) r.id =
        (runTable.find db r.id).map fun s =>
          if (s.id = r.id && s.status = .planned : Bool) then { s with status := .submitting } else s :=
      find?_updateWhere fun _ => rfl
    rw [hfound, hrun, Option.map_some]
    rcases hstatus with rfl | rfl
    · rw [if_pos (by simp)]
    · rw [if_neg (by simp)]
  items := h.follows hplanned hi rfl
    (fun j hj => of_decide_eq_true (Bool.and_eq_true_iff.mp hj).1)
    fun i' hstaged => hstaged.submit hsubmission hevidence
  evidence f hf := (h.evidence f hf).imp_right fun ⟨j, hj, hdone, hrecorded⟩ =>
    ⟨j, hj, List.mem_append_left _ hdone, hrecorded⟩

/-- The writes of a submission. -/
theorem ends_submitted {itemId runId : Uuid} {hash : String}
    (hfree : db.items.any (fun j => j.id ≠ itemId && j.submittedTxHash = some hash) = false) :
    ((do
      submitItem itemId hash
      updateRun runId (·.status = .planned) .submitting
      Tx.commit
      return ⟨.ok, itemId⟩ : Handler Response) fun r => .ret (.ok r)).ends db db =
      some (.ok ⟨.ok, itemId⟩, afterSubmission itemId runId hash db) := by
  unfold submitItem updateRun
  refine (ends_update fun i hi => ?_).trans ?_
  · have hid : i.id = itemId :=
      of_decide_eq_true (Bool.and_eq_true_iff.mp (itemTable.mem_matching.mp hi).2).1
    rw [raise_eq_none, if_neg]
    rw [hid, hfree]
    exact Bool.false_ne_true
  · refine (ends_update fun _ _ => rfl).trans ?_
    rw [itemTable.modify_self, runTable.modify_self]
    rfl

/-- A submission that another item stands against is refused. -/
theorem ends_submissionRefused {itemId runId : Uuid} {hash : String} (hi : itemTable.find db itemId = some i)
    (hstatus : i.status = .planned)
    (htaken : db.items.any (fun j => j.id ≠ itemId && j.submittedTxHash = some hash) = true) :
    ((do
      submitItem itemId hash
      updateRun runId (·.status = .planned) .submitting
      Tx.commit
      return ⟨.ok, itemId⟩ : Handler Response) fun r => .ret (.ok r)).ends db db =
      some (.error (.conflict "market_settlement_operation_already_exists"), db) := by
  obtain ⟨hmem, hid⟩ := itemTable.find_mem hi
  have hmatch : i ∈ itemTable.matching (fun i => i.id = itemId && i.status = .planned) db := by
    refine itemTable.mem_matching.mpr ⟨hmem, ?_⟩
    rw [decide_eq_true (show i.id = itemId from hid), decide_eq_true hstatus]
    rfl
  unfold submitItem
  refine ends_updateRefused hmatch fun row hrow => ?_
  have hid : row.id = itemId :=
    of_decide_eq_true (Bool.and_eq_true_iff.mp (itemTable.mem_matching.mp hrow).2).1
  rw [hid, if_pos htaken]
  rfl

/-- **A submission** is taken if no item of the run was submitted with the same transaction, and
refused otherwise. -/
theorem Underway.deliver_submission (h : Underway pay r db₀ done db) (hplanned : JustPlanned r db₀)
    (hpay : pay.Pay r.id db₀) (hi : i ∈ itemsOf db₀ r.id) {now : Int}
    (hpolicy : policyAllows r.marketId (RunKind.action r.kind) now db₀ = true)
    (hsubmission : .submission i.id ∉ done) (hevidence : .evidence i.id ∉ done) :
    (Unshared pay r.id db₀ done i.id → ∃ response db', deliver ext pay now (.submission i.id) db =
      some (.ok response, db') ∧ Underway pay r db₀ (done ++ [.submission i.id]) db') ∧
    (¬ Unshared pay r.id db₀ done i.id → ∃ error db', deliver ext pay now (.submission i.id) db =
      some (.error error, db')) := by
  have hnow := h.later now
  obtain ⟨c, hcontext, hfinds⟩ := hnow.context hplanned hpay hi
  have hstage : stage done i.id = .planned := by rw [stage, if_neg hevidence, if_neg hsubmission]
  have hallowed : policyAllows c.marketId (RunKind.action c.runKind) now (atTime now db) = true := by
    rw [hfinds.market, hfinds.kind, policyAllows, hnow.decisions]
    exact hpolicy
  have hends := ends_submission (hpay.submitted i hi) hcontext hallowed (hfinds.unaccepted hevidence)
    (hfinds.status.trans hstage) hfinds.runStatus
  rw [hfinds.run] at hends
  constructor
  · intro hunshared
    refine ⟨_, _, hends.trans (ends_submitted ((hnow.shared_iff hpay hi hsubmission).mpr hunshared)), ?_⟩
    exact hnow.submit hplanned hi hsubmission hevidence
  · intro hshared
    obtain ⟨i', hfound, hstaged⟩ := hnow.item hplanned.itemIds hi
    have htaken := (hnow.shared_iff hpay hi hsubmission).not.mpr hshared
    rw [Bool.not_eq_false] at htaken
    refine ⟨_, _, hends.trans (ends_submissionRefused hfound ?_ htaken)⟩
    rw [hstaged.same]
    exact hstage

/-! ### Evidence -/

/-- Nothing that is recorded stands against the evidence of an item that has none. -/
theorem Underway.unrecorded (h : Underway pay r db₀ done db) (hpay : pay.Pay r.id db₀)
    (hi : i ∈ itemsOf db₀ r.id) (hevidence : .evidence i.id ∉ done) :
    ∀ f ∈ db.settlementEvidence, f.id ≠ (pay.ids i.id).evidence ∧ f.settlementItemId ≠ i.id ∧
      f.eventReference ≠ (pay.observed i.id).eventReference ∧
      (f.transactionHash, f.operationIndex) ≠ pay.operation i.id := by
  intro f hf
  rcases h.evidence f hf with hold | ⟨j, hj, hdone, hrecorded⟩
  · exact hpay.unknown i hi f hold
  · have hne : j.id ≠ i.id := by
      intro heq
      exact hevidence (heq ▸ hdone)
    refine ⟨?_, ?_, ?_, ?_⟩
    · rw [hrecorded.id]
      exact fun heq => hne (hpay.drawn j hj i hi heq)
    · rw [hrecorded.item]
      exact hne
    · rw [hrecorded.reference]
      exact fun heq => hne (hpay.references j hj i hi heq)
    · rw [hrecorded.operation]
      exact fun heq => hne (hpay.operations j hj i hi heq)

/-- Items are outstanding until all have evidence. -/
theorem remaining_eq_zero (hitems : List.Forall₂ (Follows pay r.id done) db₀.items db.items) :
    remainingItems r.id db = 0 ↔ ∀ j ∈ itemsOf db₀ r.id, .evidence j.id ∈ done := by
  rw [remainingItems, List.length_eq_zero_iff, List.filter_eq_nil_iff]
  constructor
  · intro hnone j hj
    obtain ⟨hmem, hrun⟩ := mem_itemsOf.mp hj
    obtain ⟨j', hj', hfollows⟩ := forall₂_becomes hitems hmem
    have hrun' := hfollows.run
    unfold Follows at hfollows
    rw [if_pos hrun] at hfollows
    have hconfirmed := hnone j' hj'
    rw [hrun', hrun, decide_eq_true rfl, Bool.true_and, hfollows.same] at hconfirmed
    by_contra hopen
    refine hconfirmed (decide_eq_true ?_)
    rw [stage, if_neg hopen]
    split <;> simp
  · intro hall j' hj' hopen
    obtain ⟨j, hj, hfollows⟩ := forall₂_exists hitems hj'
    obtain ⟨hrun', hstatus⟩ := Bool.and_eq_true_iff.mp hopen
    have hrun : j.settlementRunId = r.id := by
      rw [← hfollows.run]
      exact of_decide_eq_true hrun'
    unfold Follows at hfollows
    rw [if_pos hrun] at hfollows
    refine of_decide_eq_true hstatus ?_
    rw [hfollows.same, stage, if_pos (hall j (mem_itemsOf.mpr ⟨hj, hrun⟩))]

/-- An item as its evidence leaves it. -/
def confirmedBy (evidenceId : Uuid) (acceptedAt : Int) (i : SettlementItem) : SettlementItem :=
  { i with status := .confirmed, acceptedEvidenceId := some evidenceId, confirmedAt := some acceptedAt }

theorem Staged.confirm (h : Staged pay done i i') {evidenceId : Uuid} {acceptedAt : Int} :
    Staged pay (done ++ [.evidence i.id]) i
      (if (decide (i'.id = i.id)) then confirmedBy evidenceId acceptedAt i' else i') := by
  have hid : i'.id = i.id := by rw [h.same]
  have hnow : stage (done ++ [.evidence i.id]) i.id = .confirmed := by simp [stage]
  have hsubmission : Notice.submission i.id ≠ .evidence i.id := by simp
  rw [if_pos (decide_eq_true hid)]
  refine ⟨?_, fun hopen => absurd (by simp) hopen⟩
  rw [hnow]
  simp only [mem_done hsubmission]
  rw [confirmedBy, h.same]

/-- What evidence leaves, unless it is the last of its run. -/
def afterEvidence (e : SettlementEvidence) (acceptedAt : Int) (db : Database) : Database :=
  itemTable.put (settlementEvidenceTable.add e db)
    (updateWhere (·.id = e.settlementItemId) (confirmedBy e.id acceptedAt) db.items)

theorem Underway.confirm (h : Underway pay r db₀ done db) (hplanned : JustPlanned r db₀)
    (hi : i ∈ itemsOf db₀ r.id) {e : SettlementEvidence} (he : RecordedFor pay i.id e) (acceptedAt : Int) :
    Underway pay r db₀ (done ++ [.evidence i.id]) (afterEvidence e acceptedAt db) where
  accounts := h.accounts
  decisions := h.decisions
  governance := h.governance
  run := h.run
  items := by
    rw [show (afterEvidence e acceptedAt db).items = updateWhere (·.id = e.settlementItemId)
      (confirmedBy e.id acceptedAt) db.items from rfl, he.item]
    exact h.follows hplanned hi rfl (fun j hj => of_decide_eq_true hj) fun i' hstaged => hstaged.confirm
  evidence f hf := by
    rcases List.mem_append.mp hf with hf | hf
    · rcases h.evidence f hf with hold | ⟨j, hj, hdone, hrecorded⟩
      · exact .inl hold
      · exact .inr ⟨j, hj, List.mem_append_left _ hdone, hrecorded⟩
    · obtain rfl := List.mem_singleton.mp hf
      exact .inr ⟨i, hi, List.mem_append_right _ (List.mem_singleton_self _), he⟩

/-- The run is confirmed, and its market closed. -/
def afterRun (c : SettlementItemContext) (event : GovernanceEvent) (db : Database) : Database :=
  governanceTable.add event <|
    { db with
      runs := updateWhere (fun r => r.id = c.settlementRunId && true) ({ · with status := .confirmed }) db.runs
      positions := updateWhere (fun p => p.marketId = c.marketId && p.status = .active)
        ({ · with status := RunKind.closes c.runKind }) db.positions
      markets := updateWhere (fun m => m.id = c.marketId && m.status = .settling)
        ({ · with status := .settled }) db.markets }

/-- The event of a confirmed run. -/
def confirmedEvent (c : SettlementItemContext) (eventId : Uuid) : GovernanceEvent where
  id := eventId
  organizationId := c.organizationId
  marketId := c.marketId
  actorUserId := c.requestedByUserId
  action := RunKind.confirmedAction c.runKind
  previousStatus := some .settling
  newStatus := some .settled
  reason := RunKind.confirmedReason c.runKind

theorem ends_finalizeOpen {c : SettlementItemContext} {eventId : Uuid} {view d : Database}
    {k : PUnit → Prog Database Row Site Result} (hopen : remainingItems c.settlementRunId view ≠ 0) :
    Prog.ends (finalizeIfComplete ext c eventId k) view d = (k ⟨⟩).ends view d := by
  unfold finalizeIfComplete
  refine ends_bind.trans ?_
  refine ends_select.trans ?_
  rw [if_pos hopen]
  rfl

/-- The check of the log allows the event. -/
theorem event_allowed {c : SettlementItemContext} {eventId : Uuid} {view : Database}
    (hnew : ∀ e ∈ view.governance, e.id ≠ eventId) :
    governanceViolation governanceAction (confirmedEvent c eventId) view = none := by
  have hgoverned : governanceAction (RunKind.confirmedAction c.runKind) = true := by
    cases c.runKind <;> decide
  have hreason : 3 ≤ (btrim (RunKind.confirmedReason c.runKind)).length ∧
      (btrim (RunKind.confirmedReason c.runKind)).length ≤ 1000 := by
    cases c.runKind <;> decide
  unfold governanceViolation
  rw [if_neg, if_neg]
  · rw [Bool.not_eq_true, List.any_eq_false]
    intro e he hid
    exact hnew e he (of_decide_eq_true hid)
  · rintro (hrefused | hlength)
    · rw [show (confirmedEvent c eventId).action = RunKind.confirmedAction c.runKind from rfl,
        hgoverned] at hrefused
      cases hrefused
    · exact hlength hreason

theorem ends_finalizeComplete {c : SettlementItemContext} {eventId : Uuid} {view d : Database}
    {k : PUnit → Prog Database Row Site Result} (hclosed : remainingItems c.settlementRunId view = 0)
    (hnew : ∀ e ∈ view.governance, e.id ≠ eventId) :
    Prog.ends (finalizeIfComplete ext.checked c eventId k) view d =
      (k ⟨⟩).ends (afterRun c (confirmedEvent c eventId) view) d := by
  unfold finalizeIfComplete updateRun closePositions settleMarket insertGovernance
  refine ends_bind.trans ?_
  refine ends_select.trans ?_
  rw [if_neg (not_not.mpr hclosed)]
  refine (ends_update fun _ _ => rfl).trans ?_
  rw [runTable.modify_self]
  refine (ends_update fun _ _ => rfl).trans ?_
  rw [positionTable.modify_self]
  refine (ends_update fun _ _ => rfl).trans ?_
  rw [marketTable.modify_self]
  refine (ends_insertRow ?_).trans ?_
  · rw [raise_eq_none]
    exact event_allowed hnew
  · rfl

/-- The row that is inserted for evidence. -/
def evidenceRow (c : SettlementItemContext) (o : ObservedPayout) (acceptedAt : Int) (itemId evidenceId : Uuid) :
    SettlementEvidence where
  id := evidenceId
  organizationId := c.organizationId
  settlementRunId := c.settlementRunId
  settlementItemId := itemId
  recipientStellarAccountId := c.recipientStellarAccountId
  transactionHash := o.transactionHash
  ledgerSequence := o.ledgerSequence
  operationIndex := o.operationIndex
  eventReference := o.eventReference
  amountMinor := o.amountMinor
  acceptedAt := acceptedAt

/-- Evidence that is due, up to its writes. -/
theorem ends_evidence {itemId : Uuid} {body : SettlementEvidenceRequest} {o : ObservedPayout}
    {ids : SettlementIds} {c : SettlementItemContext} (hvalid : body.validate = .ok o)
    (hcontext : settlementItemContext itemId db = some c)
    (hpolicy : policyAllows c.marketId (RunKind.action c.runKind) db.directory.clock db = true)
    (hnew : settlementEvidenceTable.find db itemId = none) (hstatus : c.itemStatus = .submitted)
    (hhash : c.submittedTxHash = some o.transactionHash)
    (hrecipient : c.recipientAddress = o.recipientAddress) (hamount : c.payoutMinor = o.amountMinor) :
    (acceptSettlementEvidence ext itemId body ids).request.ends db db =
      Prog.ends (acceptPayout ext c o db.directory.clock itemId ids fun r => .ret (.ok r)) db db := by
  unfold Handler.request acceptSettlementEvidence loadEvidenceTx
  refine (ends_ofExcept hvalid).trans ?_
  refine ends_select.trans ?_
  refine (ends_context hcontext).trans ?_
  refine (ends_policy hpolicy).trans ?_
  refine ends_selectFor.trans ?_
  rw [hnew]
  refine (ends_require ?_).trans ?_
  · simp [hstatus, hhash]
  refine (ends_require ?_).trans ?_
  · simp [hrecipient, hamount]
  rfl

/-- The writes of evidence, up to the end of its run. -/
theorem ends_payout {itemId : Uuid} {o : ObservedPayout} {ids : SettlementIds}
    {c : SettlementItemContext} {acceptedAt : Int}
    (hfree : settlementEvidenceViolation (evidenceRow c o acceptedAt itemId ids.evidence) db = none)
    (hitem : settlementEvidenceTable.find db itemId = none) (after : Database)
    (hfinal : ∀ k : PUnit → Prog Database Row Site Result,
      Prog.ends (finalizeIfComplete ext c ids.event k)
        (afterEvidence (evidenceRow c o acceptedAt itemId ids.evidence) acceptedAt db) db =
      (k ⟨⟩).ends after db)
    (hevidence : after.settlementEvidence =
      db.settlementEvidence ++ [evidenceRow c o acceptedAt itemId ids.evidence]) :
    Prog.ends (acceptPayout ext c o acceptedAt itemId ids fun r => .ret (.ok r)) db db =
      some (.ok ⟨.created, ids.evidence⟩, after) := by
  unfold acceptPayout insertSettlementEvidence confirmItem loadEvidenceTx
  refine (ends_insertRow ?_).trans ?_
  · rw [raise_eq_none]
    exact hfree
  refine (ends_update fun _ _ => rfl).trans ?_
  rw [itemTable.modify_self]
  refine (hfinal _).trans ?_
  have hfound : settlementEvidenceTable.find after itemId =
      some (evidenceRow c o acceptedAt itemId ids.evidence) := by
    show after.settlementEvidence.find? _ = _
    rw [hevidence, List.find?_append, show db.settlementEvidence.find? _ = none from hitem,
      Option.none_or]
    simp [evidenceRow, settlementEvidenceTable]
  refine ends_selectFor.trans ?_
  refine (ends_orElse hfound).trans ?_
  rfl

/-- All items of the run have their evidence. -/
def Evidenced (runId : Uuid) (db₀ : Database) (done : List Notice) : Prop :=
  ∀ j ∈ itemsOf db₀ runId, .evidence j.id ∈ done

theorem find_afterRun {c : SettlementItemContext} {event : GovernanceEvent} {s : SettlementRun}
    (hrun : c.settlementRunId = r.id) (hfound : runTable.find db r.id = some s) :
    ∃ s', runTable.find (afterRun c event db) r.id = some s' ∧ s'.status = .confirmed := by
  have hafter : runTable.find (afterRun c event db) r.id = (runTable.find db r.id).map fun s =>
      if (s.id = c.settlementRunId && true : Bool) then { s with status := .confirmed } else s :=
    find?_updateWhere fun _ => rfl
  have hid : s.id = r.id := (runTable.find_mem hfound).2
  rw [hafter, hfound, Option.map_some, if_pos (by simp [hid, hrun])]
  exact ⟨_, rfl, rfl⟩

/-- **Evidence of a submitted item** is taken, and the last of the run confirms it. -/
theorem Underway.deliver_evidence (ext : External) (h : Underway pay r db₀ done db) (hplanned : JustPlanned r db₀)
    (hpay : pay.Pay r.id db₀) (hi : i ∈ itemsOf db₀ r.id) {now : Int}
    (hpolicy : policyAllows r.marketId (RunKind.action r.kind) now db₀ = true)
    (hsubmission : .submission i.id ∈ done) (hevidence : .evidence i.id ∉ done) :
    ∃ response db', deliver ext.checked pay now (.evidence i.id) db = some (.ok response, db') ∧
      (¬ Evidenced r.id db₀ (done ++ [.evidence i.id]) →
        Underway pay r db₀ (done ++ [.evidence i.id]) db') ∧
      (Evidenced r.id db₀ (done ++ [.evidence i.id]) →
        ∃ s, runTable.find db' r.id = some s ∧ s.status = .confirmed) := by
  have hnow := h.later now
  obtain ⟨c, hcontext, hfinds⟩ := hnow.context hplanned hpay hi
  have hstage : stage done i.id = .submitted := by rw [stage, if_neg hevidence, if_pos hsubmission]
  have hallowed : policyAllows c.marketId (RunKind.action c.runKind) now (atTime now db) = true := by
    rw [hfinds.market, hfinds.kind, policyAllows, hnow.decisions]
    exact hpolicy
  have hunrecorded := hnow.unrecorded hpay hi hevidence
  have hitem : settlementEvidenceTable.find (atTime now db) i.id = none :=
    List.find?_eq_none.mpr fun f hf hid => (hunrecorded f hf).2.1 (of_decide_eq_true hid)
  generalize he : evidenceRow c (pay.observed i.id) now i.id (pay.ids i.id).evidence = e
  have hrecorded : RecordedFor pay i.id e := by
    subst he
    exact ⟨rfl, rfl, rfl, rfl⟩
  have hfree : settlementEvidenceViolation e (atTime now db) = none := by
    rw [settlementEvidenceViolation, if_neg]
    rw [Bool.not_eq_true, List.any_eq_false]
    intro f hf hclash
    obtain ⟨hid, hof, hreference, hoperation⟩ := hunrecorded f hf
    simp only [Bool.or_eq_true, Bool.and_eq_true, decide_eq_true_eq] at hclash
    rcases hclash with ((hclash | hclash) | hclash) | ⟨hhash, hindex⟩
    · exact hid (hclash.trans hrecorded.id)
    · exact hof (hclash.trans hrecorded.item)
    · exact hreference (hclash.trans hrecorded.reference)
    · exact hoperation ((Prod.ext hhash hindex : (f.transactionHash, f.operationIndex) =
        (e.transactionHash, e.operationIndex)).trans hrecorded.operation)
  have hconfirmed := hnow.confirm hplanned hi hrecorded now
  have hends : deliver ext.checked pay now (.evidence i.id) db =
      Prog.ends (acceptPayout ext.checked c (pay.observed i.id) now i.id (pay.ids i.id)
        fun r => .ret (.ok r)) (atTime now db) (atTime now db) :=
    ends_evidence (hpay.valid i hi) hcontext hallowed hitem (hfinds.status.trans hstage)
      (hfinds.hash hsubmission) hfinds.address hfinds.payout
  have hremaining : remainingItems c.settlementRunId (afterEvidence e now (atTime now db)) = 0 ↔
      Evidenced r.id db₀ (done ++ [.evidence i.id]) := by
    rw [hfinds.run]
    exact remaining_eq_zero hconfirmed.items
  by_cases hall : Evidenced r.id db₀ (done ++ [.evidence i.id])
  · have hdone := hends.trans (ends_payout (he ▸ hfree) hitem
      (afterRun c (confirmedEvent c (pay.ids i.id).event) (afterEvidence e now (atTime now db)))
      (fun k => ?_) (he ▸ rfl))
    · refine ⟨_, _, hdone, fun hopen => absurd hall hopen, fun _ => ?_⟩
      obtain ⟨status, -, hrun⟩ := hnow.run
      exact find_afterRun hfinds.run hrun
    · rw [he]
      refine ends_finalizeComplete (hremaining.mpr hall) fun event hevent => ?_
      exact hpay.events i hi event (hnow.governance ▸ hevent)
  · have hdone := hends.trans (ends_payout (he ▸ hfree) hitem (afterEvidence e now (atTime now db))
      (fun k => ?_) (he ▸ rfl))
    · exact ⟨_, _, hdone, fun _ => hconfirmed, fun hclosed => absurd hclosed hall⟩
    · rw [he]
      exact ends_finalizeOpen (hremaining.not.mpr hall)

/-! ### Every order of notices -/

/-- What has evidence was submitted. -/
theorem InOrder.submitted {itemIds : List Uuid} {rest : List Notice} {itemId : Uuid}
    (h : InOrder itemIds (done ++ rest)) (hevidence : .evidence itemId ∈ done) :
    .submission itemId ∈ done := by
  obtain ⟨before, after, rfl⟩ := List.append_of_mem hevidence
  refine List.mem_append_left _ (h.ordered itemId before (after ++ rest) ?_)
  rw [List.append_assoc, List.cons_append]

/-- A notice is not one of those before it. -/
theorem InOrder.fresh {itemIds : List Uuid} {n : Notice} {rest : List Notice}
    (h : InOrder itemIds (done ++ n :: rest)) : n ∉ done := by
  intro hn
  exact (List.nodup_append.mp h.nodup).2.2 n hn n List.mem_cons_self rfl

/-- Once every item has evidence no notice is left. -/
theorem InOrder.finished {notices : List Notice} (h : InOrder ((itemsOf db₀ r.id).map (·.id)) (done ++ notices))
    (hall : Evidenced r.id db₀ done) : notices = [] := by
  cases notices with
  | nil => rfl
  | cons n rest =>
      obtain ⟨i, hi, hid⟩ := List.mem_map.mp (h.known n (by simp))
      have hevidence := hall i hi
      rw [hid] at hevidence
      cases n with
      | submission itemId => exact absurd (h.submitted hevidence) h.fresh
      | evidence itemId => exact absurd hevidence h.fresh

theorem settles_cons {pay : Payments} {runId : Uuid} {now : Int} {n : Notice} {response : Response}
    {db' : Database} (hdeliver : deliver ext pay now n db = some (.ok response, db')) :
    Settles ext pay runId ((now, n) :: rest) db ↔ Settles ext pay runId rest db' := by
  constructor
  · rintro ⟨_, _, hdeliver', hrest⟩
    obtain ⟨-, rfl⟩ := Prod.mk.inj (Option.some.inj (hdeliver.symm.trans hdeliver'))
    exact hrest
  · exact fun hrest => ⟨response, db', hdeliver, hrest⟩

/-- The rest of the notices are in order behind those that are done. -/
theorem settles_iff (hplanned : JustPlanned r db₀) (hpay : pay.Pay r.id db₀)
    (horder : InOrder ((itemsOf db₀ r.id).map (·.id)) (done ++ rest.map (·.2)))
    (hallowed : ∀ now ∈ rest.map (·.1), policyAllows r.marketId (RunKind.action r.kind) now db₀ = true)
    (hopen : ¬ Evidenced r.id db₀ done) (h : Underway pay r db₀ done db)
    (hapart : ∀ i ∈ itemsOf db₀ r.id, ∀ j ∈ itemsOf db₀ r.id, .submission i.id ∈ done →
      .submission j.id ∈ done → pay.hash i.id = pay.hash j.id → i.id = j.id) :
    Settles ext.checked pay r.id rest db ↔ pay.Apart r.id db₀ := by
  induction rest generalizing done db with
  | nil =>
      -- not every item has its evidence, although no notice is left
      refine absurd (fun j hj => ?_) hopen
      have hcomplete := horder.complete j.id (List.mem_map_of_mem hj)
      simpa using hcomplete
  | cons first rest ih =>
      obtain ⟨now, n⟩ := first
      rw [List.map_cons] at horder
      obtain ⟨i, hi, hid⟩ := List.mem_map.mp (horder.known n (by simp))
      have hpolicy := hallowed now (by simp)
      have hallowed' : ∀ t ∈ rest.map (·.1),
          policyAllows r.marketId (RunKind.action r.kind) t db₀ = true :=
        fun t ht => hallowed t (List.mem_cons_of_mem _ ht)
      have horder' : InOrder ((itemsOf db₀ r.id).map (·.id)) (done ++ [n] ++ rest.map (·.2)) := by
        rwa [List.append_assoc, List.singleton_append]
      cases n with
      | submission itemId =>
          obtain rfl : i.id = itemId := hid
          have hsubmission := horder.fresh
          have hevidence : Notice.evidence i.id ∉ done := fun hdone =>
            hsubmission (horder.submitted hdone)
          obtain ⟨htaken, hrefused⟩ := h.deliver_submission hplanned hpay hi hpolicy hsubmission hevidence
          by_cases hunshared : Unshared pay r.id db₀ done i.id
          · obtain ⟨response, db', hdeliver, hnext⟩ := htaken hunshared
            rw [settles_cons hdeliver]
            refine ih horder' hallowed' (fun hall => hopen fun j hj => ?_) hnext ?_
            · simpa using hall j hj
            · intro j hj k hk hjdone hkdone hhash
              simp only [List.mem_append, List.mem_singleton, Notice.submission.injEq] at hjdone hkdone
              rcases hjdone with hjdone | hji
              · rcases hkdone with hkdone | hki
                · exact hapart j hj k hk hjdone hkdone hhash
                · exact absurd (hhash.trans (by rw [hki])) (hunshared j hj hjdone)
              · rcases hkdone with hkdone | hki
                · exact absurd (hhash.symm.trans (by rw [hji])) (hunshared k hk hkdone)
                · rw [hji, hki]
          · obtain ⟨error, db', hdeliver⟩ := hrefused hunshared
            constructor
            · rintro ⟨_, _, hdeliver', -⟩
              have := (Prod.mk.inj (Option.some.inj (hdeliver.symm.trans hdeliver'))).1
              cases this
            · intro hall
              refine absurd (fun j hj hjdone hhash => ?_) hunshared
              exact hsubmission (hall j hj i hi hhash ▸ hjdone)
      | evidence itemId =>
          obtain rfl : i.id = itemId := hid
          have hsubmission := horder.ordered i.id done (rest.map (·.2)) rfl
          obtain ⟨response, db', hdeliver, hgoes, hends⟩ :=
            h.deliver_evidence ext hplanned hpay hi hpolicy hsubmission horder.fresh
          rw [settles_cons hdeliver]
          by_cases hall : Evidenced r.id db₀ (done ++ [.evidence i.id])
          · -- this was the last notice, and every item was submitted before it
            obtain rfl := List.map_eq_nil_iff.mp (horder'.finished hall)
            have hsubmitted (j : SettlementItem) (hj : j ∈ itemsOf db₀ r.id) : .submission j.id ∈ done := by
              simpa using horder'.submitted (hall j hj)
            refine ⟨fun _ j hj k hk hhash => ?_, fun _ => hends hall⟩
            exact hapart j hj k hk (hsubmitted j hj) (hsubmitted k hk) hhash
          · refine ih horder' hallowed' hall (hgoes hall) fun j hj k hk hjdone hkdone hhash => ?_
            exact hapart j hj k hk (by simpa using hjdone) (by simpa using hkdone) hhash

theorem JustPlanned.unevidenced (h : JustPlanned r db) : ¬ Evidenced r.id db [] := by
  intro hall
  obtain ⟨i, hi⟩ := List.exists_mem_of_ne_nil _ h.stocked
  cases hall i hi

/-- **The notices of a run settle it exactly if each transaction pays a single item**, whatever the
run, the transactions and the order of the notices. -/
theorem settles_iff_apart (hplanned : JustPlanned r db) (hpay : pay.Pay r.id db)
    {notices : List (Int × Notice)}
    (horder : InOrder ((itemsOf db r.id).map (·.id)) (notices.map (·.2)))
    (hallowed : ∀ now ∈ notices.map (·.1),
      policyAllows r.marketId (RunKind.action r.kind) now db = true) :
    Settles ext.checked pay r.id notices db ↔ pay.Apart r.id db :=
  settles_iff hplanned hpay horder hallowed hplanned.unevidenced hplanned.underway
    fun _ _ _ _ hdone => by cases hdone

end Underway

/-! ### Two items -/

/-- A planned payout of two items, to users `2` and `3`. -/
def payoutRun : SettlementRun where
  id := 70
  organizationId := 10
  marketId := 20
  kind := .payout
  status := .planned
  winningOutcomeId := some 21
  idempotencyKey := "plan"
  totalStakeMinor := 1000
  feeMinor := 25
  distributableMinor := 975
  totalPlannedMinor := 975
  requestedByUserId := 1
  createdAt := 0

def payoutItem (id positionId stellarAccountId : Uuid) (principalMinor payoutMinor : Int) :
    SettlementItem where
  id := id
  settlementRunId := 70
  positionId := positionId
  recipientStellarAccountId := stellarAccountId
  principalMinor := principalMinor
  payoutMinor := payoutMinor
  status := .planned
  submittedTxHash := none
  acceptedEvidenceId := none
  confirmedAt := none

def plannedMarket : Database :=
  { resolvedMarket with
    runs := [payoutRun]
    items := [payoutItem 71 50 4 600 585, payoutItem 72 51 5 400 390] }

/-- The two items are paid by the first two operations of these transactions. -/
def twoPayments (first second : Char) : Payments where
  submission id := stakeHash (if id = 71 then first else second)
  evidence id :=
    if id = 71 then ⟨stakeHash first, 6, 0, "payout-1", stakerAddress 'A', 585, .object []⟩
    else ⟨stakeHash second, 6, 1, "payout-2", stakerAddress 'B', 390, .object []⟩
  observed id :=
    if id = 71 then ⟨stakeHash first, 6, 0, "payout-1", stakerAddress 'A', 585⟩
    else ⟨stakeHash second, 6, 1, "payout-2", stakerAddress 'B', 390⟩
  ids id := if id = 71 then ⟨90, 81⟩ else ⟨91, 82⟩

/-- Both items are submitted before either has evidence. -/
def twoNotices : List (Int × Notice) :=
  [(seconds 1800000000, .submission 71), (seconds 1800000010, .submission 72),
    (seconds 1800000020, .evidence 72), (seconds 1800000030, .evidence 71)]

theorem plannedMarket_planned : JustPlanned payoutRun plannedMarket where
  run := by decide
  status := rfl
  itemIds := by decide
  stocked := by decide
  planned := by decide

theorem plannedItem {i : SettlementItem} (hi : i ∈ itemsOf plannedMarket payoutRun.id) :
    i = payoutItem 71 50 4 600 585 ∨ i = payoutItem 72 51 5 400 390 := by
  have hitems : itemsOf plannedMarket payoutRun.id =
      [payoutItem 71 50 4 600 585, payoutItem 72 51 5 400 390] := by decide
  simpa [hitems] using hi

theorem twoPayments_pay {second : Char} (h : second = 'c' ∨ second = 'd') :
    (twoPayments 'c' second).Pay payoutRun.id plannedMarket where
  submitted i hi := by
    rcases h with rfl | rfl <;> rcases plannedItem hi with rfl | rfl <;> decide +kernel
  valid i hi := by
    rcases h with rfl | rfl <;> rcases plannedItem hi with rfl | rfl <;> decide +kernel
  recipient i hi := by
    rcases plannedItem hi with rfl | rfl
    · exact ⟨⟨4, 2, .testnet, stakerAddress 'A', true, true, 0⟩, by decide, rfl⟩
    · exact ⟨⟨5, 3, .testnet, stakerAddress 'B', true, true, 0⟩, by decide, rfl⟩
  amount i hi := by rcases plannedItem hi with rfl | rfl <;> rfl
  operations i hi j hj hsame := by
    have hindex := (Prod.mk.inj hsame).2
    rcases plannedItem hi with rfl | rfl <;> rcases plannedItem hj with rfl | rfl
    · rfl
    · cases hindex
    · cases hindex
    · rfl
  references i hi j hj hsame := by
    have hne : "payout-1" ≠ "payout-2" := by decide
    rcases plannedItem hi with rfl | rfl <;> rcases plannedItem hj with rfl | rfl
    · rfl
    · exact absurd hsame hne
    · exact absurd hsame hne.symm
    · rfl
  drawn i hi j hj hsame := by
    have hne : (90 : Uuid) ≠ 91 := by decide
    rcases plannedItem hi with rfl | rfl <;> rcases plannedItem hj with rfl | rfl
    · rfl
    · exact absurd hsame hne
    · exact absurd hsame hne.symm
    · rfl
  unknown i hi f hf := by cases hf
  unused i hi j hj := by
    have hnone : j.submittedTxHash = none := by
      rcases List.mem_cons.mp hj with rfl | hj
      · rfl
      · obtain rfl := List.mem_singleton.mp hj
        rfl
    rw [hnone]
    exact fun heq => by cases heq
  events i hi e he := by cases he

theorem twoNotices_map :
    twoNotices.map (·.2) = [.submission 71, .submission 72, .evidence 72, .evidence 71] := rfl

theorem twoNotices_order :
    InOrder ((itemsOf plannedMarket payoutRun.id).map (·.id)) (twoNotices.map (·.2)) := by
  rw [twoNotices_map, show (itemsOf plannedMarket payoutRun.id).map (·.id) = [71, 72] by decide]
  refine ⟨by decide, by decide, by simp, fun itemId before after h => ?_⟩
  -- the first two notices are submissions
  match before with
  | [] => cases h
  | [_] => cases h
  | first :: second :: before =>
      simp only [List.cons_append, List.cons.injEq] at h
      obtain ⟨rfl, rfl, h⟩ := h
      have hknown : .evidence itemId ∈ [Notice.evidence 72, .evidence 71] := by
        rw [h]
        simp
      simp only [List.mem_cons, Notice.evidence.injEq, List.not_mem_nil, or_false] at hknown
      rcases hknown with rfl | rfl <;> simp

theorem twoNotices_allowed : ∀ now ∈ twoNotices.map (·.1),
    policyAllows payoutRun.marketId (RunKind.action payoutRun.kind) now plannedMarket = true := by
  decide

/-- Two transactions that pay an item each. -/
theorem twoPayments_settle :
    (Settles marketExternal.checked (twoPayments 'c' 'd') payoutRun.id twoNotices plannedMarket ↔
      (twoPayments 'c' 'd').Apart payoutRun.id plannedMarket) ∧
    (twoPayments 'c' 'd').Apart payoutRun.id plannedMarket := by
  refine ⟨settles_iff_apart plannedMarket_planned (twoPayments_pay (.inr rfl)) twoNotices_order
    twoNotices_allowed, ?_⟩
  intro i hi j hj hsame
  rcases plannedItem hi with rfl | rfl <;> rcases plannedItem hj with rfl | rfl
  · rfl
  · exact absurd hsame (by decide)
  · exact absurd hsame (by decide)
  · rfl

/-- One transaction that pays both items is refused for the second of them. -/
theorem one_transaction_refused :
    ¬ ∀ (ext : External) (r : SettlementRun) (db : Database) (pay : Payments)
        (notices : List (Int × Notice)), JustPlanned r db → pay.Pay r.id db →
      InOrder ((itemsOf db r.id).map (·.id)) (notices.map (·.2)) →
      (∀ now ∈ notices.map (·.1), policyAllows r.marketId (RunKind.action r.kind) now db = true) →
      Settles ext.checked pay r.id notices db := by
  intro h
  have hsettles := h marketExternal payoutRun plannedMarket (twoPayments 'c' 'c') twoNotices
    plannedMarket_planned (twoPayments_pay (.inl rfl)) twoNotices_order twoNotices_allowed
  have hapart := (settles_iff plannedMarket_planned (twoPayments_pay (.inl rfl)) twoNotices_order
    twoNotices_allowed plannedMarket_planned.unevidenced plannedMarket_planned.underway
    fun _ _ _ _ hdone => by cases hdone).mp hsettles
  have hsame := hapart (payoutItem 71 50 4 600 585) (by decide) (payoutItem 72 51 5 400 390) (by decide) rfl
  exact absurd (show (71 : Uuid) = 72 from hsame) (by decide)

end CrownFi.Markets
