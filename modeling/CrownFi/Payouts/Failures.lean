import CrownFi.Payouts.Batches

/-!
# CrownFi.Payouts.Failures

**Reports of failure, and the evidence that follows.** The chain transaction of a batch has
succeeded, with its three transfers as planned. Its submission, reports of its failure and the
evidence of its transfers arrive in any order. Evidence that finds the batch not submitted, or
its transfer failed, is recorded as rejected, and evidence that comes again is answered from the
record. So a full redelivery confirms the batch as long as **no evidence came before the
submission, and no failure was reported while the batch was in flight** (`redelivery_confirms`).
-/

namespace CrownFi.Payouts

open Lib CrownFi.Api
open CrownFi.Commerce (Result Response)

/-! ### The transaction on the chain -/

/-- A transaction that pays a batch: its hash, and for each role the message with the evidence of
the transfer, also as it is validated. -/
structure Plan where
  hash : String
  evidence : PayoutRole → TransferEvidenceRequest
  observed : PayoutRole → Observed

/-- The operation of a role. -/
def Plan.operation (plan : Plan) (role : PayoutRole) : String × Int :=
  (plan.hash, (plan.observed role).operationIndex)

/-- The transaction pays this batch as planned, by operations of its own: once the batch is
submitted, the evidence agrees with it. -/
structure Plan.Pays (plan : Plan) (b : PayoutBatch) (rule : PayoutRule) (ts : List PayoutTransfer) :
    Prop where
  valid : ∀ role, (plan.evidence role).validate = .ok (plan.observed role)
  role : ∀ role, (plan.observed role).role = role
  hash : ∀ role, (plan.observed role).txHash = plan.hash
  apart : ∀ role role', (plan.observed role).operationIndex = (plan.observed role').operationIndex →
    role = role'
  agrees : ∀ t ∈ ts, reconcileTransfer (b.submit plan.hash) rule (t.submit plan.hash)
    (plan.observed t.role) (plan.evidence t.role).rawOperation = none

/-- The messages about a batch: its submission, reports of failure, and the evidence. -/
inductive Messages (ext : External) (plan : Plan) (batchId : Uuid) :
    Prog Database Row Site Result → Prop
  | submission (actorUserId : Uuid) (body : PayoutSubmissionRequest)
      (hash : body.validate = .ok plan.hash) :
      Messages ext plan batchId (recordPayoutSubmission actorUserId batchId body).request
  | failure (actorUserId : Uuid) (failureCode : String) :
      Messages ext plan batchId (recordPayoutFailure actorUserId batchId failureCode).request
  | evidence (actorUserId : Uuid) (role : PayoutRole) (evidenceId : Uuid) :
      Messages ext plan batchId
        (recordTransferEvidence ext actorUserId batchId (plan.evidence role) evidenceId).request

/-- No evidence is handled before the submission, and no failure is recorded in flight. -/
def Orderly : Site → Database → Prop
  | .evidence batchId, db => ∀ b ∈ batchTable.find db batchId, b.status ≠ .prepared
  | .failure batchId, db => ∀ b ∈ batchTable.find db batchId, b.status.inFlight = false
  | .other, _ => True

instance (site : Site) (db : Database) : Decidable (Orderly site db) :=
  match site with
  | .evidence batchId =>
      inferInstanceAs (Decidable (∀ b ∈ batchTable.find db batchId, b.status ≠ .prepared))
  | .failure batchId =>
      inferInstanceAs (Decidable (∀ b ∈ batchTable.find db batchId, b.status.inFlight = false))
  | .other => inferInstanceAs (Decidable True)

/-- The batch is prepared, and nothing is recorded of its transaction. -/
structure Prepared (plan : Plan) (b : PayoutBatch) (rule : PayoutRule) (db : Database) : Prop where
  inv : Inv db
  batch : batchTable.find db b.id = some b
  status : b.status = .prepared
  ruled : ruleTable.find db b.payoutRuleId = some rule
  pending : ∀ t ∈ transfersOf db b.id, t.status = .pending
  unrecorded : ∀ role, evidenceTable.find db (plan.operation role) = none
  pays : plan.Pays b rule (transfersOf db b.id)

/-! ### What is kept -/

variable {ext : External} {plan : Plan} {b₀ b : PayoutBatch} {rule₀ rule : PayoutRule} {db₀ db : Database}
  {t : PayoutTransfer}

/-- What identifies a transfer, and what it is to pay. -/
def share (t : PayoutTransfer) : Uuid × PayoutRole × String × Int :=
  (t.id, t.role, t.recipientAccount, t.expectedAmountMinor)

/-- The evidence of the transfer was accepted. -/
def Accepted (ext : External) (plan : Plan) (db : Database) (t : PayoutTransfer) : Prop :=
  ∃ e, evidenceTable.find db (plan.operation t.role) = some e ∧ e.payoutTransferId = t.id ∧
    e.evidenceSha256 = evidenceHash ext (plan.observed t.role) (plan.evidence t.role).rawOperation

/-- A transfer of a submitted batch: its evidence is still to come, or was accepted. -/
def Due (ext : External) (plan : Plan) (db : Database) (t : PayoutTransfer) : Prop :=
  (t.status = .submitted ∧ evidenceTable.find db (plan.operation t.role) = none) ∨
    (t.status = .confirmed ∧ Accepted ext plan db t)

/-- Nothing has happened yet. -/
structure Waiting (plan : Plan) (b : PayoutBatch) (db : Database) : Prop where
  status : b.status = .prepared
  pending : ∀ t ∈ transfersOf db b.id, t.status = .pending
  unrecorded : ∀ role, evidenceTable.find db (plan.operation role) = none

/-- The batch is submitted. -/
structure Sent (ext : External) (plan : Plan) (b : PayoutBatch) (db : Database) : Prop where
  status : b.status.wasSubmitted = true
  hash : b.submittedTransactionHash = some plan.hash
  due : ∀ t ∈ transfersOf db b.id, Due ext plan db t

/-- The batch on its way from `db₀`. -/
structure Underway (ext : External) (plan : Plan) (b₀ : PayoutBatch) (db₀ db : Database) : Prop where
  shop : db.shop = db₀.shop
  rules : db.rules = db₀.rules
  shares : (transfersOf db b₀.id).map share = (transfersOf db₀ b₀.id).map share
  batch : ∃ b, batchTable.find db b₀.id = some b ∧ b.payoutRuleId = b₀.payoutRuleId ∧
    b.asset = b₀.asset ∧ (Waiting plan b db ∨ Sent ext plan b db)

theorem Prepared.underway (h : Prepared plan b₀ rule db₀) : Underway ext plan b₀ db₀ db₀ where
  shop := rfl
  rules := rfl
  shares := rfl
  batch := ⟨b₀, h.batch, rfl, rfl, .inl ⟨h.status, h.pending, h.unrecorded⟩⟩

/-- Whether evidence agrees is read off the share of the transfer, as long as it is in flight. -/
theorem reconcileTransfer_congr {b b' : PayoutBatch} {t t' : PayoutTransfer} {o : Observed} {raw : Json}
    (hb : b.status.inFlight = true) (hb' : b'.status.inFlight = true) (ht : t.status = .submitted)
    (ht' : t'.status = .submitted) (hhash : b.submittedTransactionHash = b'.submittedTransactionHash)
    (hasset : b.asset = b'.asset) (hshare : share t = share t') :
    reconcileTransfer b rule t o raw = reconcileTransfer b' rule t' o raw := by
  obtain ⟨-, -, hrecipient, hamount⟩ : _ ∧ _ ∧ _ ∧ _ := by simpa only [share, Prod.mk.injEq] using hshare
  unfold reconcileTransfer
  rw [hb, hb', ht, ht', hhash, hasset, hrecipient, hamount]

/-- The roles of a batch's transfers differ. -/
theorem Inv.role_eq {bid : Uuid} {t' : PayoutTransfer} (h : Inv db) (hb : batchTable.find db bid = some b)
    (ht : t ∈ transfersOf db bid) (ht' : t' ∈ transfersOf db bid) (hrole : t.role = t'.role) : t = t' := by
  refine List.inj_on_of_nodup_map (f := (·.role)) ?_ ht ht' hrole
  rw [(h.exact bid b hb).roles]
  decide

/-- A transfer of a batch that is not confirmed leaves the batch in flight. -/
theorem Sent.inFlight {bid : Uuid} (h : Sent ext plan b db) (hI : Inv db)
    (hb : batchTable.find db bid = some b) (ht : t ∈ transfersOf db bid) (hopen : t.status ≠ .confirmed) :
    b.status.inFlight = true := by
  have hstatus := h.status
  rw [BatchStatus.wasSubmitted, Bool.or_eq_true, decide_eq_true_eq] at hstatus
  rcases hstatus with hflight | hconfirmed
  · exact hflight
  · exact absurd ((hI.exact bid b hb).complete.mp hconfirmed t ht) hopen

/-- **The evidence agrees** with a transfer of the submitted batch. -/
theorem Underway.reconciles (h : Underway ext plan b₀ db₀ db) (hpays : plan.Pays b₀ rule (transfersOf db₀ b₀.id))
    (hasset : b.asset = b₀.asset) (hhash : b.submittedTransactionHash = some plan.hash)
    (hflight : b.status.inFlight = true) (ht : t ∈ transfersOf db b₀.id) (hstatus : t.status = .submitted) :
    reconcileTransfer b rule t (plan.observed t.role) (plan.evidence t.role).rawOperation = none := by
  have hmem : share t ∈ (transfersOf db₀ b₀.id).map share := by
    rw [← h.shares]
    exact List.mem_map_of_mem ht
  obtain ⟨t₀, ht₀, hshare⟩ := List.mem_map.mp hmem
  have hrole : t₀.role = t.role := by
    have := congrArg (fun s => s.2.1) hshare
    exact this
  rw [← hpays.agrees t₀ ht₀, hrole]
  exact reconcileTransfer_congr hflight (by rfl) hstatus rfl hhash hasset hshare.symm

/-! ### The steps -/

section Settle

variable {fb : PayoutBatch → PayoutBatch} {p : PayoutTransfer → Bool}
  {ft : PayoutTransfer → PayoutTransfer} {new : Option PayoutEvidence}

/-- A change of the batch that keeps what the transfers are to pay. -/
theorem Underway.settle (h : Underway ext plan b₀ db₀ db) (hkeys : KeepsKeys fb ft)
    (hshare : ∀ t, share (ft t) = share t) (hrule : ∀ b, (fb b).payoutRuleId = b.payoutRuleId)
    (hb : batchTable.find db b₀.id = some b)
    (hstage : Sent ext plan (fb b) (Payouts.settle b₀.id fb p ft new db)) :
    Underway ext plan b₀ db₀ (Payouts.settle b₀.id fb p ft new db) := by
  obtain ⟨b', hb', hrule', hasset, -⟩ := h.batch
  obtain rfl := Option.some.inj (hb.symm.trans hb')
  refine ⟨h.shop, h.rules, ?_, fb b, ?_, (hrule b).trans hrule', (hkeys.asset b).trans hasset,
    .inr hstage⟩
  · rw [transfersOf_settle_self hkeys, map_updateWhere hshare]
    exact h.shares
  · have hid : b.id = b₀.id := (batchTable.find_mem hb).2
    rw [find_settle hkeys, hb, Option.map_some, if_pos hid]

theorem find_evidence_settle {k : String × Int} :
    evidenceTable.find (Payouts.settle b₀.id fb p ft none db) k = evidenceTable.find db k := by
  show (db.evidence ++ []).find? _ = _
  rw [List.append_nil]
  rfl

theorem find_evidence_settle_some {e : PayoutEvidence} {k : String × Int} :
    evidenceTable.find (Payouts.settle b₀.id fb p ft (some e) db) k = (evidenceTable.find db k).or
      (if (e.transactionHash, e.operationIndex) = k then some e else none) :=
  evidenceTable.find_add (r := e) k

end Settle

/-- The submission of a batch that waits. -/
theorem Underway.submitAll (h : Underway ext plan b₀ db₀ db)
    (hb : batchTable.find db b₀.id = some b) (hstatus : b.status = .prepared) :
    Underway ext plan b₀ db₀ (submitAll b₀.id plan.hash db) := by
  have hid : b.id = b₀.id := (batchTable.find_mem hb).2
  have hkeys : KeepsKeys (·.submit plan.hash) (·.submit plan.hash) :=
    ⟨fun _ => rfl, fun _ => rfl, fun _ => rfl, fun _ => rfl⟩
  obtain ⟨b', hb', -, -, hstage⟩ := h.batch
  obtain rfl := Option.some.inj (hb.symm.trans hb')
  refine h.settle hkeys (fun _ => rfl) (fun _ => rfl) hb ⟨rfl, rfl, fun t ht => ?_⟩
  rcases hstage with hwaiting | hsent
  · -- every transfer was pending
    replace ht : t ∈ transfersOf (Payouts.submitAll b₀.id plan.hash db) b₀.id := hid ▸ ht
    rw [Payouts.submitAll, transfersOf_settle_self hkeys] at ht
    obtain ⟨t₀, ht₀, rfl⟩ := mem_updateWhere.mp ht
    have hpending : t₀.status = .pending := hwaiting.pending t₀ (hid.symm ▸ ht₀)
    rw [if_pos (by simp [hpending, (mem_transfersOf.mp ht₀).2])]
    exact .inl ⟨rfl, find_evidence_settle.trans (hwaiting.unrecorded _)⟩
  · have hsubmitted := hsent.status
    rw [hstatus] at hsubmitted
    cases hsubmitted

/-- What a request with evidence of the transaction finds, once the batch is submitted. -/
theorem Underway.reports (h : Underway ext plan b₀ db₀ db) (hI : Inv db)
    (hpays : plan.Pays b₀ rule₀ (transfersOf db₀ b₀.id))
    (hrule : ruleTable.find db₀ b₀.payoutRuleId = some rule₀) {role : PayoutRole}
    (hreports : Reports (Underway ext plan b₀ db₀) Orderly b₀.id (plan.observed role) b rule t db) :
    Sent ext plan b db ∧ t.role = role ∧ t.status = .submitted ∧
      reconcileTransfer b rule t (plan.observed role) (plan.evidence role).rawOperation = none := by
  have hrole : t.role = role := hreports.role.trans (hpays.role role)
  obtain ⟨b', hb', hruleId, hasset, hstage⟩ := h.batch
  obtain rfl := Option.some.inj (hreports.batch.symm.trans hb')
  have hid : b.id = b₀.id := (batchTable.find_mem hb').2
  have hsent : Sent ext plan b db := by
    refine hstage.resolve_left fun hwaiting => ?_
    obtain ⟨view, hok, hview⟩ := hreports.allowed
    exact hok b hview hwaiting.status
  have hsubmitted : t.status = .submitted := by
    rcases hsent.due t (hid.symm ▸ hreports.transfer) with ⟨hsubmitted, -⟩ | ⟨-, e, he, -⟩
    · exact hsubmitted
    · -- the evidence is new
      rw [hrole] at he
      have hfresh := hreports.fresh
      rw [hpays.hash role] at hfresh
      rw [Plan.operation, hfresh] at he
      cases he
  obtain ⟨view, hview, hfound⟩ := hreports.rule
  have hrule' : rule = rule₀ := by
    rw [hruleId] at hfound
    have hsame : ruleTable.find view b₀.payoutRuleId = ruleTable.find db₀ b₀.payoutRuleId :=
      congrArg (·.find? fun r => r.id = b₀.payoutRuleId) hview.rules
    exact Option.some.inj ((hsame.symm.trans hfound).symm.trans hrule)
  refine ⟨hsent, hrole, hsubmitted, ?_⟩
  have hopen : t.status ≠ .confirmed := by
    rw [hsubmitted]
    decide
  rw [hrule', ← hrole]
  exact h.reconciles hpays hasset hsent.hash (hsent.inFlight hI hb' hreports.transfer hopen)
    hreports.transfer hsubmitted

theorem statusOfCount_wasSubmitted {n : Nat} {status : BatchStatus} (h : statusOfCount n = some status) :
    status.wasSubmitted = true := by
  unfold statusOfCount at h
  split at h <;> cases h <;> rfl

/-- The acceptance of the evidence of a transfer. -/
theorem Underway.accept (h : Underway ext plan b₀ db₀ db) (hI : Inv db)
    (hpays : plan.Pays b₀ rule₀ (transfersOf db₀ b₀.id)) (evidenceId : Uuid) {status : BatchStatus}
    (hb : batchTable.find db b₀.id = some b) (hsent : Sent ext plan b db) (ht : t ∈ transfersOf db b₀.id)
    (hsubmitted : t.status = .submitted)
    (hstatus : statusOfCount (confirmedCount
      (confirmIn (plan.observed t.role) t.id (transfersOf db b₀.id))) = some status) :
    Underway ext plan b₀ db₀ (accept ext b₀.id (plan.observed t.role)
      (plan.evidence t.role).rawOperation evidenceId t.id status db) := by
  have hid : b.id = b₀.id := (batchTable.find_mem hb).2
  have hkey : ((plan.observed t.role).txHash, (plan.observed t.role).operationIndex) =
      plan.operation t.role := by rw [Plan.operation, hpays.hash]
  refine h.settle keepsKeys_confirm (fun _ => rfl) (fun _ => rfl) hb
    ⟨statusOfCount_wasSubmitted hstatus, hsent.hash, fun s hs => ?_⟩
  replace hs : s ∈ transfersOf (Payouts.accept ext b₀.id (plan.observed t.role)
    (plan.evidence t.role).rawOperation evidenceId t.id status db) b₀.id := hid ▸ hs
  rw [transfersOf_accept] at hs
  obtain ⟨s₀, hs₀, rfl⟩ := mem_updateWhere.mp hs
  by_cases hsame : s₀.id = t.id
  · -- this is the transfer that the evidence is about
    obtain rfl := hI.transfer_eq (mem_transfersOf.mp hs₀).1 (mem_transfersOf.mp ht).1 hsame
    rw [if_pos (by simp [hsubmitted])]
    have hnone : evidenceTable.find db (plan.operation s₀.role) = none := by
      rcases hsent.due s₀ (hid.symm ▸ hs₀) with ⟨-, hnone⟩ | ⟨hconfirmed, -⟩
      · exact hnone
      · rw [hsubmitted] at hconfirmed
        cases hconfirmed
    refine .inr ⟨rfl, evidenceRow ext (plan.observed s₀.role) (plan.evidence s₀.role).rawOperation
      evidenceId s₀.id none, ?_, rfl, rfl⟩
    refine find_evidence_settle_some.trans ?_
    show (evidenceTable.find db (plan.operation s₀.role)).or _ = _
    rw [hnone, Option.none_or]
    exact if_pos hkey
  · have hrole : s₀.role ≠ t.role := fun heq => hsame (congrArg (·.id) (hI.role_eq hb hs₀ ht heq))
    have hother : evidenceTable.find (Payouts.accept ext b₀.id (plan.observed t.role)
        (plan.evidence t.role).rawOperation evidenceId t.id status db) (plan.operation s₀.role) =
        evidenceTable.find db (plan.operation s₀.role) := by
      refine find_evidence_settle_some.trans ?_
      rw [if_neg, Option.or_none]
      intro heq
      have hindex := (Prod.mk.inj (hkey.symm.trans heq)).2
      exact hrole (hpays.apart _ _ hindex.symm)
    rw [if_neg (by simp [hsame])]
    rcases hsent.due s₀ (hid.symm ▸ hs₀) with ⟨hopen, hnone⟩ | ⟨hconfirmed, e, he, hof⟩
    · exact .inl ⟨hopen, hother.trans hnone⟩
    · exact .inr ⟨hconfirmed, e, hother.trans he, hof⟩

/-- Each message keeps the batch on its way, under the condition. -/
theorem safe_messages (hpays : plan.Pays b₀ rule₀ (transfersOf db₀ b₀.id))
    (hrule : ruleTable.find db₀ b₀.payoutRuleId = some rule₀) (p : Prog Database Row Site Result)
    (hp : Messages ext plan b₀.id p) :
    SafeRequest (Kept (Underway ext plan b₀ db₀)) (Forward part Rely) Orderly p := by
  cases hp with
  | submission actor body hvalid =>
      refine safe_recordPayoutSubmission actor b₀.id body fun hash db b hhash hI hJ hb hstatus => ?_
      obtain rfl : plan.hash = hash := by simpa [hvalid] using hhash
      exact hJ.submitAll hb hstatus
  | failure actor code =>
      refine safe_recordPayoutFailure actor b₀.id code fun _ _ db b hI hJ hb hflight hok => ?_
      obtain ⟨view, hok, hview⟩ := hok
      have hnot := hok b hview
      rw [hflight] at hnot
      cases hnot
  | evidence actor role evidenceId =>
      have hobserved {o : Observed} (hvalid : (plan.evidence role).validate = .ok o) :
          o = plan.observed role := by simpa [hpays.valid role] using hvalid.symm
      refine safe_recordTransferEvidence ext actor b₀.id (plan.evidence role) evidenceId
        (fun o b rule t failure db hvalid hI hJ hreports hfailure => ?_)
        fun o b rule t status db hvalid hI hJ hreports hreconciled hstatus => ?_
      · obtain rfl := hobserved hvalid
        obtain ⟨-, -, -, hreconciled⟩ := hJ.reports hI hpays hrule hreports
        rw [hfailure] at hreconciled
        cases hreconciled
      · obtain rfl := hobserved hvalid
        obtain ⟨hsent, rfl, hsubmitted, -⟩ := hJ.reports hI hpays hrule hreports
        exact hJ.accept hI hpays evidenceId hreports.batch hsent hreports.transfer hsubmitted hstatus

/-! ### A redelivery -/

/-- The worker that acts is a user. -/
def Works (db : Database) (userId : Uuid) : Prop := db.shop.directory.users.any (·.id = userId) = true

instance (userId : Uuid) : Decidable (Works db userId) :=
  inferInstanceAs (Decidable (db.shop.directory.users.any (·.id = userId) = true))

section Leaves

variable {view : Database} {bid actorUserId evidenceId : Uuid} {r : Response} {role : PayoutRole}

theorem leaves_ensureUser {k : PUnit → Prog Database Row Site Result} (h : Works view actorUserId) :
    Prog.leaves (ensureUser actorUserId k) view db = (k ⟨⟩).leaves view db := by
  unfold ensureUser
  rw [leaves_bind, leaves_select, leaves_require h]

theorem leaves_loadBatchForUpdate {site : Site} {k : PayoutBatch → Prog Database Row Site Result}
    (h : batchTable.find view bid = some b) :
    Prog.leaves (loadBatchForUpdate site bid k) view db = (k b).leaves view db := by
  unfold loadBatchForUpdate
  rw [leaves_bind, leaves_selectFor, leaves_orElse h]

/-- What is read after the commit changes nothing. -/
theorem leaves_answer :
    ((do loadBatch bid; return r : Handler Response).request).leaves view db = db := by
  show Prog.leaves (Tx.require _ _ _) view db = db
  unfold Tx.require
  split <;> rfl

/-- The transfer of a role. -/
theorem find_ofRole (hI : Inv db) (hb : batchTable.find db bid = some b) (ht : t ∈ transfersOf db bid) :
    (db.transfers.find? fun s => s.payoutBatchId = bid && s.role = t.role) = some t := by
  obtain ⟨hmem, hof⟩ := mem_transfersOf.mp ht
  cases hfind : db.transfers.find? fun s => s.payoutBatchId = bid && s.role = t.role with
  | none => exact absurd (by simp [hof]) (List.find?_eq_none.mp hfind t hmem)
  | some s =>
      have hcond := List.find?_some hfind
      simp only [Bool.and_eq_true, decide_eq_true_eq] at hcond
      have hs := mem_transfersOf.mpr ⟨List.mem_of_find?_eq_some hfind, hcond.1⟩
      rw [hI.role_eq hb hs ht hcond.2]

/-- Evidence of the transaction that comes again. -/
theorem leaves_evidence_again (hI : Inv db) (huser : Works db actorUserId)
    (hpays : plan.Pays b₀ rule₀ (transfersOf db₀ b₀.id)) (hb : batchTable.find db bid = some b)
    (hrule : ruleTable.find db b.payoutRuleId = some rule) (ht : t ∈ transfersOf db bid)
    (haccepted : Accepted ext plan db t) :
    (recordTransferEvidence ext actorUserId bid (plan.evidence t.role) evidenceId).request.leaves
      db db = db := by
  obtain ⟨e, he, hof, hhash⟩ := haccepted
  have hrole : (plan.observed t.role).role = t.role := hpays.role t.role
  have hfound : evidenceTable.find db
      ((plan.observed t.role).txHash, (plan.observed t.role).operationIndex) = some e := by
    rw [hpays.hash]
    exact he
  unfold Handler.request recordTransferEvidence
  rw [leaves_bind, leaves_ensureUser huser, leaves_bind, valid, leaves_ofExcept (hpays.valid _),
    leaves_bind, leaves_loadBatchForUpdate hb, leaves_bind, leaves_select, leaves_bind,
    leaves_orElse hrule, leaves_bind, leaves_selectFor, hrole, leaves_bind,
    leaves_orElse (find_ofRole hI hb ht), leaves_bind, leaves_select, hfound]
  rw [leaves_bind, leaves_require (by simp [hof, hhash]), leaves_bind, leaves_commit]
  exact leaves_answer

/-- The id of new evidence is new. -/
def NewEvidence (evidenceId : Uuid) (db : Database) : Prop := ∀ e ∈ db.evidence, e.id ≠ evidenceId

instance : Decidable (NewEvidence evidenceId db) :=
  inferInstanceAs (Decidable (∀ e ∈ db.evidence, e.id ≠ evidenceId))

/-- The evidence violates no unique key. -/
theorem unique_evidence {o : Observed} {raw : Json} (hI : Inv db) (hb : batchTable.find db bid = some b)
    (ht : t ∈ transfersOf db bid) (hopen : t.status ≠ .confirmed) (hid : NewEvidence evidenceId db)
    (hnone : evidenceTable.find db (o.txHash, o.operationIndex) = none) {failure : Option String} :
    unique (db.evidence.any fun f => f.id = (evidenceRow ext o raw evidenceId t.id failure).id ||
      (f.transactionHash = (evidenceRow ext o raw evidenceId t.id failure).transactionHash &&
        f.operationIndex = (evidenceRow ext o raw evidenceId t.id failure).operationIndex) ||
      (f.payoutTransferId = (evidenceRow ext o raw evidenceId t.id failure).payoutTransferId &&
        f.processingStatus = .accepted &&
        (evidenceRow ext o raw evidenceId t.id failure).processingStatus = .accepted)) = none := by
  refine unique_eq_none.mpr (List.any_eq_false.mpr fun f hf => ?_)
  have hnot : f ∉ acceptedOf db t.id := by
    obtain ⟨hmem, hof⟩ := mem_transfersOf.mp ht
    rcases hI.evidenced t hmem b (hof ▸ hb) with ⟨-, hempty⟩ | ⟨hconfirmed, -⟩
    · rw [hempty]
      exact List.not_mem_nil
    · exact absurd hconfirmed hopen
  have hoperation := evidenceTable.find_none hnone f hf
  simp only [evidenceTable, ne_eq, Prod.mk.injEq] at hoperation
  simp only [mem_acceptedOf, hf, true_and] at hnot
  simp only [evidenceRow, Bool.or_eq_true, Bool.and_eq_true, decide_eq_true_eq]
  rintro ((hsame | hsame) | ⟨⟨hof, haccepted⟩, -⟩)
  · exact hid f hf (of_decide_eq_true hsame)
  · exact hoperation ⟨of_decide_eq_true hsame.1, of_decide_eq_true hsame.2⟩
  · exact hnot ⟨of_decide_eq_true hof, haccepted⟩

variable (ext) in
/-- Evidence of the transaction that is new confirms its transfer. -/
theorem leaves_evidence_new (hI : Inv db) (huser : Works db actorUserId)
    (hpays : plan.Pays b₀ rule₀ (transfersOf db₀ b₀.id)) (hb : batchTable.find db bid = some b)
    (hrule : ruleTable.find db b.payoutRuleId = some rule) (ht : t ∈ transfersOf db bid)
    (hsubmitted : t.status = .submitted) (hid : NewEvidence evidenceId db)
    (hnone : evidenceTable.find db (plan.operation t.role) = none)
    (hreconciled : reconcileTransfer b rule t (plan.observed t.role)
      (plan.evidence t.role).rawOperation = none) :
    ∃ status, statusOfCount (confirmedCount
        (confirmIn (plan.observed t.role) t.id (transfersOf db bid))) = some status ∧
      (recordTransferEvidence ext actorUserId bid (plan.evidence t.role) evidenceId).request.leaves
        db db = accept ext bid (plan.observed t.role) (plan.evidence t.role).rawOperation evidenceId
          t.id status db := by
  have hrole : (plan.observed t.role).role = t.role := hpays.role t.role
  have hopen : t.status ≠ .confirmed := by
    rw [hsubmitted]
    decide
  have hfresh : evidenceTable.find db
      ((plan.observed t.role).txHash, (plan.observed t.role).operationIndex) = none := by
    rw [hpays.hash]
    exact hnone
  obtain ⟨status, hstatus⟩ : ∃ status, statusOfCount (confirmedCount
      (confirmIn (plan.observed t.role) t.id (transfersOf db bid))) = some status := by
    have hthree : (confirmIn (plan.observed t.role) t.id (transfersOf db bid)).length = 3 := by
      rw [confirmIn, updateWhere, List.length_map, ← List.length_map (·.role), (hI.exact bid b hb).roles]
      rfl
    have hle := List.length_filter_le (fun s : PayoutTransfer => decide (s.status = .confirmed))
      (confirmIn (plan.observed t.role) t.id (transfersOf db bid))
    rw [hthree] at hle
    generalize hn : confirmedCount _ = n
    have hle : n ≤ 3 := hn ▸ hle
    obtain rfl | rfl | rfl | rfl : n = 0 ∨ n = 1 ∨ n = 2 ∨ n = 3 := by omega
    · exact ⟨_, rfl⟩
    · exact ⟨_, rfl⟩
    · exact ⟨_, rfl⟩
    · exact ⟨_, rfl⟩
  refine ⟨status, hstatus, ?_⟩
  have hids : ((transferTable.rows (evidenceTable.add (evidenceRow ext (plan.observed t.role)
      (plan.evidence t.role).rawOperation evidenceId t.id none) db)).map transferTable.key).Nodup :=
    hI.transferIds
  have hmatching := transferTable.length_matching_key (p := fun s => decide (s.status = .submitted)) hids
    (transferTable.find_of_mem hI.transferIds (mem_transfersOf.mp ht).1) (decide_eq_true hsubmitted)
  have hkeys : KeepsKeys id (·.confirm (plan.observed t.role)) :=
    ⟨fun _ => rfl, fun _ => rfl, fun _ => rfl, fun _ => rfl⟩
  -- the database when the batch is counted again
  generalize hd : settle bid id (fun s => s.id = t.id && s.status = .submitted)
    (·.confirm (plan.observed t.role)) (some (evidenceRow ext (plan.observed t.role)
      (plan.evidence t.role).rawOperation evidenceId t.id none)) db = d
  have hcount : ((transfersOf d bid).filter (·.status = .confirmed)).length =
      confirmedCount (confirmIn (plan.observed t.role) t.id (transfersOf db bid)) := by
    rw [← hd, transfersOf_settle_self hkeys]
    rfl
  have hfind : batchTable.find d bid = some b := by
    rw [← hd, settle, updateWhere_id]
    exact hb
  have hrecount : batchTable.modify (fun c => c.id = bid) (recount status (confirmedCount
      (confirmIn (plan.observed t.role) t.id (transfersOf db bid)))) d d =
      accept ext bid (plan.observed t.role) (plan.evidence t.role).rawOperation evidenceId t.id
        status db := by
    rw [← hd]
    exact modify_recount hI hb (hd.symm ▸ hfind)
  unfold Handler.request recordTransferEvidence
  rw [leaves_bind, leaves_ensureUser huser, leaves_bind, valid, leaves_ofExcept (hpays.valid _),
    leaves_bind, leaves_loadBatchForUpdate hb, leaves_bind, leaves_select, leaves_bind,
    leaves_orElse hrule, leaves_bind, leaves_selectFor, hrole, leaves_bind,
    leaves_orElse (find_ofRole hI hb ht), leaves_bind, leaves_select, hfresh]
  rw [leaves_bind, leaves_require (decide_eq_true hopen), hreconciled, leaves_bind, insertEvidence,
    Tx.insertRow, leaves_insert (by exact unique_evidence hI hb ht hopen hid hfresh)]
  rw [leaves_bind, updateTransfers, leaves_update, modify_confirm hI ht rfl, hd, leaves_bind,
    leaves_require (by exact decide_eq_true hmatching), leaves_bind, refreshBatchStatus, leaves_bind,
    leaves_select, hcount, leaves_bind, leaves_orElse hstatus, leaves_bind, updateBatch, leaves_update]
  exact leaves_answer.trans hrecount

end Leaves

/-- The evidence of a transfer, delivered again. -/
structure Redelivery where
  actorUserId : Uuid
  role : PayoutRole
  evidenceId : Uuid
  deriving DecidableEq, Repr

def Redelivery.request (ext : External) (plan : Plan) (batchId : Uuid) (d : Redelivery) :
    Prog Database Row Site Result :=
  (recordTransferEvidence ext d.actorUserId batchId (plan.evidence d.role) d.evidenceId).request

/-- One message, handled alone. -/
def redeliver (ext : External) (plan : Plan) (batchId : Uuid) (db : Database) (d : Redelivery) :
    Database := (d.request ext plan batchId).leaves db db

def redeliverAll (ext : External) (plan : Plan) (batchId : Uuid) (db : Database)
    (ds : List Redelivery) : Database := ds.foldl (redeliver ext plan batchId) db

/-- The submission of the batch is recorded. -/
def Submitted (batchId : Uuid) (db : Database) : Prop :=
  ∃ b, batchTable.find db batchId = some b ∧ b.status ≠ .prepared

/-- The transfer of the role is confirmed. -/
def Paid (batchId : Uuid) (role : PayoutRole) (db : Database) : Prop :=
  ∃ t ∈ transfersOf db batchId, t.role = role ∧ t.status = .confirmed

/-- What one message needs and leaves. -/
structure Ready (ext : External) (plan : Plan) (b₀ : PayoutBatch) (db₀ db : Database) : Prop where
  inv : Inv db
  underway : Underway ext plan b₀ db₀ db
  submitted : Submitted b₀.id db

/-- A batch has a transfer for each role. -/
theorem Inv.of_role {bid : Uuid} (hI : Inv db) (hb : batchTable.find db bid = some b) (role : PayoutRole) :
    ∃ t ∈ transfersOf db bid, t.role = role := by
  have hmem : role ∈ (transfersOf db bid).map (·.role) := by
    rw [(hI.exact bid b hb).roles]
    cases role <;> decide
  obtain ⟨t, ht, hrole⟩ := List.mem_map.mp hmem
  exact ⟨t, ht, hrole⟩

/-- A transfer that is confirmed stays confirmed when another is. -/
theorem paid_accept {bid evidenceId : Uuid} {o : Observed} {raw : Json} {status : BatchStatus} {role : PayoutRole}
    (hpaid : Paid bid role db) : Paid bid role (accept ext bid o raw evidenceId t.id status db) := by
  obtain ⟨s, hs, hrole, hconfirmed⟩ := hpaid
  have hnot : (decide (s.id = t.id) && decide (s.status = .submitted)) = false := by simp [hconfirmed]
  refine ⟨s, ?_, hrole, hconfirmed⟩
  rw [transfersOf_accept]
  refine mem_updateWhere.mpr ⟨s, hs, ?_⟩
  rw [hnot, if_neg Bool.false_ne_true]

/-- The transfer is confirmed by its evidence. -/
theorem paid_accept_self {bid evidenceId : Uuid} {o : Observed} {raw : Json} {status : BatchStatus}
    (ht : t ∈ transfersOf db bid) (hsubmitted : t.status = .submitted) :
    Paid bid t.role (accept ext bid o raw evidenceId t.id status db) := by
  refine ⟨t.confirm o, ?_, rfl, rfl⟩
  rw [transfersOf_accept]
  exact mem_updateWhere.mpr ⟨t, ht, by simp [hsubmitted]⟩

/-- **One message of the redelivery** confirms its transfer, or finds it confirmed. -/
theorem Ready.redeliver (h : Ready ext plan b₀ db₀ db) (hpays : plan.Pays b₀ rule₀ (transfersOf db₀ b₀.id))
    (hrule : ruleTable.find db₀ b₀.payoutRuleId = some rule₀) {d : Redelivery}
    (huser : Works db₀ d.actorUserId) (hid : NewEvidence d.evidenceId db) :
    Ready ext plan b₀ db₀ (redeliver ext plan b₀.id db d) ∧
      Paid b₀.id d.role (redeliver ext plan b₀.id db d) ∧
      (∀ role, Paid b₀.id role db → Paid b₀.id role (redeliver ext plan b₀.id db d)) ∧
      ∀ e ∈ (redeliver ext plan b₀.id db d).evidence, e ∈ db.evidence ∨ e.id = d.evidenceId := by
  obtain ⟨b', hb', hstatus⟩ := h.submitted
  obtain ⟨b, hb, hruleId, hasset, hstage⟩ := h.underway.batch
  obtain rfl := Option.some.inj (hb.symm.trans hb')
  have hbid : b.id = b₀.id := (batchTable.find_mem hb).2
  have hsent : Sent ext plan b db := hstage.resolve_left fun hwaiting => hstatus hwaiting.status
  have hfound : ruleTable.find db b.payoutRuleId = some rule₀ := by
    rw [hruleId, ← hrule]
    exact congrArg (·.find? fun r => r.id = b₀.payoutRuleId) h.underway.rules
  have hworks : Works db d.actorUserId := by
    rw [Works, h.underway.shop]
    exact huser
  obtain ⟨t, ht, hrole⟩ := h.inv.of_role hb d.role
  rcases hsent.due t (hbid.symm ▸ ht) with ⟨hsubmitted, hnone⟩ | ⟨hconfirmed, haccepted⟩
  · have hopen : t.status ≠ .confirmed := by
      rw [hsubmitted]
      decide
    have hreconciled := h.underway.reconciles hpays hasset hsent.hash
      (hsent.inFlight h.inv hb ht hopen) ht hsubmitted
    obtain ⟨status, hcount, hleaves⟩ := leaves_evidence_new ext h.inv hworks hpays hb hfound ht hsubmitted hid
      hnone hreconciled
    have heq : Payouts.redeliver ext plan b₀.id db d = accept ext b₀.id (plan.observed t.role)
        (plan.evidence t.role).rawOperation d.evidenceId t.id status db := by
      rw [Payouts.redeliver, Redelivery.request, ← hrole]
      exact hleaves
    have hfresh : evidenceTable.find db
        ((plan.observed t.role).txHash, (plan.observed t.role).operationIndex) = none := by
      rw [hpays.hash]
      exact hnone
    have hunderway := h.underway.accept h.inv hpays d.evidenceId hb hsent ht hsubmitted hcount
    rw [heq]
    refine ⟨⟨inv_accepted h.inv hb ht hreconciled hfresh hcount, hunderway, ?_⟩, ?_,
      fun role => paid_accept, fun e he => ?_⟩
    · refine ⟨recount status (confirmedCount
          (confirmIn (plan.observed t.role) t.id (transfersOf db b₀.id))) b, ?_, ?_⟩
      · rw [accept, find_settle keepsKeys_confirm, hb, Option.map_some, if_pos hbid]
      · intro hprepared
        have hsubmitted := statusOfCount_wasSubmitted hcount
        rw [show status = .prepared from hprepared] at hsubmitted
        cases hsubmitted
    · rw [← hrole]
      exact paid_accept_self ht hsubmitted
    · rcases List.mem_append.mp he with he | he
      · exact .inl he
      · obtain rfl := List.mem_singleton.mp he
        exact .inr rfl
  · have heq : Payouts.redeliver ext plan b₀.id db d = db := by
      rw [Payouts.redeliver, Redelivery.request, ← hrole]
      exact leaves_evidence_again h.inv hworks hpays hb hfound ht haccepted
    rw [heq]
    exact ⟨h, ⟨t, ht, hrole, hconfirmed⟩, fun _ hpaid => hpaid, fun _ he => .inl he⟩

/-- The redelivery as a whole. -/
theorem Ready.redeliverAll (hpays : plan.Pays b₀ rule₀ (transfersOf db₀ b₀.id))
    (hrule : ruleTable.find db₀ b₀.payoutRuleId = some rule₀) {ds : List Redelivery}
    (h : Ready ext plan b₀ db₀ db) (husers : ∀ d ∈ ds, Works db₀ d.actorUserId)
    (hids : ∀ d ∈ ds, NewEvidence d.evidenceId db) (hnodup : (ds.map (·.evidenceId)).Nodup) :
    Ready ext plan b₀ db₀ (redeliverAll ext plan b₀.id db ds) ∧
      ∀ role, (Paid b₀.id role db ∨ ∃ d ∈ ds, d.role = role) →
        Paid b₀.id role (redeliverAll ext plan b₀.id db ds) := by
  induction ds generalizing db with
  | nil => exact ⟨h, fun _ hpaid => hpaid.resolve_right fun ⟨_, hd, _⟩ => nomatch hd⟩
  | cons d rest ih =>
      obtain ⟨hready, hpaid, hkept, hevidence⟩ := h.redeliver hpays hrule
        (husers d List.mem_cons_self) (hids d List.mem_cons_self)
      obtain ⟨hnot, hrest⟩ := List.nodup_cons.mp hnodup
      -- the ids drawn so far are not drawn again
      have hdrawn : ∀ d' ∈ rest, NewEvidence d'.evidenceId (Payouts.redeliver ext plan b₀.id db d) := by
        intro d' hd' e he heq
        rcases hevidence e he with hold | hnew
        · exact hids d' (List.mem_cons_of_mem _ hd') e hold heq
        · exact hnot (List.mem_map.mpr ⟨d', hd', heq.symm.trans hnew⟩)
      obtain ⟨hlast, hall⟩ := ih hready (fun d' hd' => husers d' (List.mem_cons_of_mem _ hd'))
        hdrawn hrest
      refine ⟨hlast, fun role hrole => hall role ?_⟩
      rcases hrole with hbefore | ⟨d', hd', rfl⟩
      · exact .inl (hkept role hbefore)
      · rcases List.mem_cons.mp hd' with rfl | hd'
        · exact .inl hpaid
        · exact .inr ⟨d', hd', rfl⟩

/-- A batch whose transfers are all confirmed. -/
theorem Inv.confirmed {bid : Uuid} (hI : Inv db) (hb : batchTable.find db bid = some b)
    (hpaid : ∀ role, Paid bid role db) : b.status = .confirmed ∧ b.confirmedTransferCount = 3 := by
  have hexact := hI.exact bid b hb
  have hall : ∀ t ∈ transfersOf db bid, t.status = .confirmed := by
    intro t ht
    obtain ⟨s, hs, hrole, hconfirmed⟩ := hpaid t.role
    rw [← hI.role_eq hb hs ht hrole]
    exact hconfirmed
  refine ⟨hexact.complete.mpr hall, ?_⟩
  rw [hexact.counted, confirmedCount, List.filter_eq_self.mpr fun t ht => decide_eq_true (hall t ht),
    ← List.length_map (·.role), hexact.roles]
  rfl

/-- **A full redelivery confirms the batch**, after every interleaving of the messages in which no
evidence is handled before the submission, and no failure is recorded in flight. -/
theorem redelivery_confirms (h₀ : Prepared plan b₀ rule₀ db₀)
    {pool : Pool Database Row Site Result} {actions : List (Action Database Row Site Result)}
    (hrun : Run (Pool.Step (Messages ext plan b₀.id) Orderly) (Pool.idle db₀) actions pool)
    (hsubmitted : Submitted b₀.id pool.db) {ds : List Redelivery} (hfull : ∀ role, ∃ d ∈ ds, d.role = role)
    (husers : ∀ d ∈ ds, Works db₀ d.actorUserId)
    (hids : ∀ d ∈ ds, NewEvidence d.evidenceId pool.db) (hnodup : (ds.map (·.evidenceId)).Nodup) :
    ∃ b, batchTable.find (redeliverAll ext plan b₀.id pool.db ds) b₀.id = some b ∧
      b.status = .confirmed ∧ b.confirmedTransferCount = 3 := by
  have hkept : Kept (Underway ext plan b₀ db₀) pool.db :=
    (run_healthy (safe_messages h₀.pays h₀.ruled) hrun (healthy_idle ⟨h₀.inv, h₀.underway⟩)).inv
  obtain ⟨hready, hall⟩ := Ready.redeliverAll h₀.pays h₀.ruled ⟨hkept.inv, hkept.also, hsubmitted⟩
    husers hids hnodup
  obtain ⟨b, hb, -⟩ := hready.submitted
  exact ⟨b, hb, hready.inv.confirmed hb fun role => hall role (.inr (hfull role))⟩

/-! ### A payout that a failure report hides -/

/-- The batch of the order, prepared. -/
def preparedBatch : PayoutBatch where
  id := 50
  organizationId := 10
  orderId := 30
  payoutRuleId := 40
  status := .prepared
  amountMinor := 1000000
  asset := ⟨"XLM", 7, none⟩
  idempotencyKey := "p1"
  requestSha256 := "d607d3d29f640127e04f4f9f84c9cde8375e9c4e017bf4bdc1f89c3f02efd529"
  confirmedTransferCount := 0
  submittedTransactionHash := none
  failureCode := none
  createdByUserId := 3

def preparedTransfers : List PayoutTransfer :=
  BatchIds.transfers ⟨50, 51, 52, 53⟩ payoutRule ⟨900000, 95000, 5000⟩

def preparedDatabase : Database := prepare preparedBatch preparedTransfers payoutDatabase

def payoutPlan : Plan where
  hash := payoutHash
  evidence := payoutEvidence
  observed role :=
    { role, txHash := payoutHash, operationIndex := shareIndex role, source := sourceAddress
      recipient := recipientAddress role, amountMinor := shareMinor role, asset := ⟨"XLM", 7, none⟩
      ledgerSequence := 90, successful := true }

/-- The batch is what its preparation leaves. -/
example : prepareBatch.leaves payoutDatabase payoutDatabase = preparedDatabase := by decide +kernel

theorem payout_prepared : Prepared payoutPlan preparedBatch payoutRule preparedDatabase where
  inv := by
    refine payout_unpaid.inv.prepare rfl (by decide) (fun t ht => ?_) rfl (by decide) rfl (by decide)
    exact ⟨(by decide : ∀ t ∈ preparedTransfers, t.payoutBatchId = 50) t ht,
      (by decide : ∀ t ∈ preparedTransfers, t.status = .pending) t ht, rfl⟩
  batch := rfl
  status := rfl
  ruled := rfl
  pending := by decide
  unrecorded _ := rfl
  pays :=
    { valid := by
        intro role
        cases role <;> decide +kernel
      role := fun _ => rfl
      hash := fun _ => rfl
      apart := by
        intro role role' h
        cases role <;> cases role' <;> first | rfl | (revert h; decide)
      agrees := by decide +kernel }

/-- All the evidence once more. -/
def fullRedelivery : List Redelivery := [⟨3, .candidate, 71⟩, ⟨3, .organizer, 72⟩, ⟨3, .platform, 73⟩]

theorem full_redelivery (role : PayoutRole) : ∃ d ∈ fullRedelivery, d.role = role := by
  cases role <;> decide

theorem message_submitted : Messages payoutExternal payoutPlan 50 submitBatch :=
  .submission 3 ⟨payoutHash, .object [("hash", .string payoutHash)]⟩ (by decide +kernel)

/-- The submission, and then a report that it failed. -/
def reported : List (Prog Database Row Site Result) := [submitBatch, reportFailure]

theorem reported_messages : ∀ p ∈ reported, Messages payoutExternal payoutPlan 50 p := by
  simp only [reported, List.forall_mem_cons]
  exact ⟨message_submitted, .failure 3 "timeout", fun p hp => by cases hp⟩

/-- The batch by its status and its count. -/
def standing (db : Database) : Option (BatchStatus × Int) :=
  (batchTable.find db 50).map fun b => (b.status, b.confirmedTransferCount)

theorem reported_served : (Pool.serveAll (fun _ _ => True) preparedDatabase reported).any
    (fun all => decide (standing all.2 = some (.failed, 0) ∧
      standing (redeliverAll payoutExternal payoutPlan 50 all.2 fullRedelivery) =
        some (.failed, 0))) = true := by
  decide +kernel

/-- **A payout that succeeded stays failed** once its failure was reported. -/
theorem reported_payout_stays_failed : Prepared payoutPlan preparedBatch payoutRule preparedDatabase ∧
    (∀ role, ∃ d ∈ fullRedelivery, d.role = role) ∧
    ∃ (pool : Pool Database Row Site Result) (actions : List (Action Database Row Site Result)),
      Run (Pool.Step (Messages payoutExternal payoutPlan 50) fun _ _ => True)
        (Pool.idle preparedDatabase) actions pool ∧ pool.threads = [] ∧ Submitted 50 pool.db ∧
      standing (redeliverAll payoutExternal payoutPlan 50 pool.db fullRedelivery) = some (.failed, 0) := by
  obtain ⟨all, hall, hfailed⟩ := (Option.any_eq_true _ _).mp reported_served
  obtain ⟨hbefore, hafter⟩ := of_decide_eq_true hfailed
  obtain ⟨actions, hrun⟩ := Pool.run_of_serveAll reported_messages hall
  refine ⟨payout_prepared, full_redelivery, _, actions, hrun, rfl, ?_, hafter⟩
  obtain ⟨b, hb, hstatus⟩ := Option.map_eq_some_iff.mp hbefore
  refine ⟨b, hb, ?_⟩
  rw [(Prod.mk.inj hstatus).1]
  decide

/-- The submission, and some evidence. -/
def undisturbed : List (Prog Database Row Site Result) := [submitBatch, sendEvidence .organizer 61]

theorem undisturbed_messages : ∀ p ∈ undisturbed, Messages payoutExternal payoutPlan 50 p := by
  simp only [undisturbed, List.forall_mem_cons]
  exact ⟨message_submitted, .evidence 3 .organizer 61, fun p hp => by cases hp⟩

theorem undisturbed_served : (Pool.serveAll Orderly preparedDatabase undisturbed).any
    (fun all => decide (standing all.2 = some (.partially, 1) ∧
      ∀ d ∈ fullRedelivery, NewEvidence d.evidenceId all.2)) = true := by
  decide +kernel

/-- The rest of the evidence arrives with the redelivery. -/
theorem undisturbed_confirmed :
    ∃ (pool : Pool Database Row Site Result) (actions : List (Action Database Row Site Result)),
      Run (Pool.Step (Messages payoutExternal payoutPlan 50) Orderly)
        (Pool.idle preparedDatabase) actions pool ∧
      ∃ b, batchTable.find (redeliverAll payoutExternal payoutPlan 50 pool.db fullRedelivery) 50 =
        some b ∧ b.status = .confirmed ∧ b.confirmedTransferCount = 3 := by
  obtain ⟨all, hall, hserved⟩ := (Option.any_eq_true _ _).mp undisturbed_served
  obtain ⟨hstanding, hids⟩ := of_decide_eq_true hserved
  obtain ⟨actions, hrun⟩ := Pool.run_of_serveAll undisturbed_messages hall
  obtain ⟨b, hb, hstatus⟩ := Option.map_eq_some_iff.mp hstanding
  have hsubmitted : Submitted 50 all.2 := by
    refine ⟨b, hb, ?_⟩
    rw [(Prod.mk.inj hstatus).1]
    decide
  exact ⟨_, actions, hrun, redelivery_confirms payout_prepared hrun hsubmitted full_redelivery
    (by decide) hids (by decide)⟩

end CrownFi.Payouts
