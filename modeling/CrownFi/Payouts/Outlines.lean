import CrownFi.Lib.Confined
import CrownFi.Lib.Tracking
import CrownFi.Payouts.Invariant

/-!
# CrownFi.Payouts.Outlines

**The outlines of the requests on payouts.** Whatever changes a batch or its transfers locks the
batch first. From then on the batch and its transfers are as they were read (`Known`), so at the
commit each request has changed one batch, in a way that the reads determine. What else such
changes keep may be added to the invariant (`Kept`).
-/

namespace CrownFi.Payouts

open Lib CrownFi.Api
open CrownFi.Commerce (Asset Response Result)

/-! ### What locks protect -/

/-- The rows that the invariant speaks of and locks protect. -/
inductive Part
  | batch (b : Option PayoutBatch)
  | transfer (t : Option PayoutTransfer)
  | evidence (e : Option PayoutEvidence)
  | other

def part (db : Database) : Row → Part
  | .batch id => .batch (batchTable.find db id)
  | .transfer id => .transfer (transferTable.find db id)
  | .operation hash index => .evidence (evidenceTable.find db (hash, index))
  | _ => .other

theorem batchLayout : Layout part batchTable Part.batch where
  row _ _ := rfl
  injective _ _ h := Part.batch.inj h
  other db l k hk := by
    cases k with
    | batch id => exact absurd rfl (hk id)
    | _ => rfl

theorem transferLayout : Layout part transferTable Part.transfer where
  row _ _ := rfl
  injective _ _ h := Part.transfer.inj h
  other db l k hk := by
    cases k with
    | transfer id => exact absurd rfl (hk id)
    | _ => rfl

theorem evidenceLayout : Layout part evidenceTable Part.evidence where
  row _ _ := rfl
  injective _ _ h := Part.evidence.inj h
  other db l k hk := by
    cases k with
    | operation hash index => exact absurd rfl (hk (hash, index))
    | _ => rfl

/-- The transfers of a batch change only under a write lock on the batch. -/
def Rely (L : List (Lock Row)) (db db' : Database) : Prop :=
  ∀ bid, ¬ Written L (.batch bid) → transfersOf db' bid = transfersOf db bid

/-- The invariant, and what else is kept with it. -/
structure Kept (J : Database → Prop) (db : Database) : Prop where
  inv : Inv db
  also : J db

abbrev Outline (J : Database → Prop) (ok : Site → Database → Prop) :
    Prog Database Row Site Result → List (Lock Row) → (Database → Database) →
      (Database → Prop) → Prop :=
  Safe (Kept J) (Forward part Rely) ok

abbrev Tracks (J : Database → Prop) :
    List (Lock Row) → (Database → Database) → (Database → Prop) → Prop :=
  Track part (Kept J) Rely

abbrev SafeHandler (J : Database → Prop) (ok : Site → Database → Prop) (h : Handler Response) : Prop :=
  SafeRequest (Kept J) (Forward part Rely) ok h.request

variable {J : Database → Prop} {ok : Site → Database → Prop} {ext : External} {L : List (Lock Row)}
  {pending : Database → Database} {A : Database → Prop} {bid : Uuid} {b : PayoutBatch}
  {ts : List PayoutTransfer}

/-! ### Requests on other tables -/

/-- The tables of the payouts are the same. -/
def Same (db db' : Database) : Prop :=
  db'.batches = db.batches ∧ db'.transfers = db.transfers ∧ db'.evidence = db.evidence

instance : IsPreorder Database Same where
  refl _ := ⟨rfl, rfl, rfl⟩
  trans _ _ _ h h' := ⟨h'.1.trans h.1, h'.2.1.trans h.2.1, h'.2.2.trans h.2.2⟩

theorem Same.inv {db db' : Database} (h : Same db db') (hI : Inv db) : Inv db' := by
  obtain ⟨shop, rules, batches, transfers, evidence⟩ := db
  obtain ⟨shop', rules', batches', transfers', evidence'⟩ := db'
  obtain ⟨rfl, rfl, rfl⟩ := h
  exact ⟨hI.batchIds, hI.transferIds, hI.operations, hI.owned, hI.about, hI.exact, hI.evidenced⟩

theorem Same.forward {db db' : Database} (h : Same db db') : Forward part Rely L db db' := by
  obtain ⟨shop, rules, batches, transfers, evidence⟩ := db
  obtain ⟨shop', rules', batches', transfers', evidence'⟩ := db'
  obtain ⟨rfl, rfl, rfl⟩ := h
  refine ⟨fun k _ => ?_, fun _ _ => rfl⟩
  cases k <;> rfl

/-- A request that writes other tables only. -/
theorem safe_elsewhere {h : Handler Response} (hJ : ∀ db db', Same db db' → J db → J db')
    (hc : Tx.Confined ok (fun _ => Same) h) : SafeHandler J ok h :=
  (hc.request _).safeRequest (fun _ _ _ hsame hI => ⟨hsame.inv hI.inv, hJ _ _ hsame hI.also⟩)
    fun _ _ _ hsame _ => hsame.forward

theorem confined_requireEditor {organizationId userId : Uuid} :
    Tx.Confined ok (fun _ => Same) (requireEditor organizationId userId) :=
  .bind .select fun _ => .require

theorem safe_createPayoutRule (actorUserId organizationId productId : Uuid)
    (body : CreatePayoutRuleRequest) (ruleId : Uuid) (hJ : ∀ db db', Same db db' → J db → J db') :
    SafeHandler J ok (createPayoutRule actorUserId organizationId productId body ruleId) := by
  refine safe_elsewhere hJ ?_
  refine .bind confined_requireEditor fun _ => .bind .select fun _ => .bind .orElse fun _ => ?_
  refine .bind .require fun _ => .bind .ofExcept fun _ => .bind confined_requireEditor fun _ => ?_
  exact .bind (.insertRow fun _ => ⟨rfl, rfl, rfl⟩) fun _ => .bind .commit fun _ => .pure

theorem safe_shop (shop : Commerce.Database) (hJ : ∀ db db', Same db db' → J db → J db') :
    SafeHandler J ok (elsewhere shop) :=
  safe_elsewhere hJ (.bind (.write fun _ _ => ⟨rfl, rfl, rfl⟩) fun _ => .bind .commit fun _ => .pure)

/-! ### Statements -/

theorem safe_valid {α : Type} {e : Except ApiError α} {k : α → Prog Database Row Site Result}
    (next : ∀ a, e = .ok a → Outline J ok (k a) L pending A) : Outline J ok (valid e k) L pending A :=
  safe_ofExcept next

theorem safe_ensureUser {userId : Uuid} {k : PUnit → Prog Database Row Site Result}
    (next : Outline J ok (k ⟨⟩) [] id fun _ => True) :
    Outline J ok (ensureUser userId k) [] id fun _ => True :=
  safe_bind (safe_select stable_true fun _ _ _ _ _ => safe_require fun _ => next)

theorem safe_requireEditor {organizationId userId : Uuid} {k : PUnit → Prog Database Row Site Result}
    (ht : Tracks J L pending A) (next : Outline J ok (k ⟨⟩) L pending A) :
    Outline J ok (requireEditor organizationId userId k) L pending A :=
  safe_bind (safe_select ht.stable fun _ _ _ _ _ => safe_require fun _ => next)

/-- The answer after the commit. -/
theorem safe_answer {r : Response} :
    Outline J ok ((do loadBatch bid; return r : Handler Response).request) [] id fun _ => True :=
  safe_bind (safe_bind (safe_select stable_true fun _ _ _ _ _ => safe_require fun _ => safe_ret))

/-- The batch and its transfers are as they were read. -/
structure Known (bid : Uuid) (b : PayoutBatch) (ts : List PayoutTransfer) (d : Database) : Prop where
  batch : batchTable.find d bid = some b
  transfers : transfersOf d bid = ts

theorem stable_known (hlock : ⟨.batch bid, .update⟩ ∈ L) :
    Stable (Kept J) (Forward part Rely) L (Known bid b ts) := by
  intro L' db db' hcompat _ _ hknown hG
  refine ⟨?_, ?_⟩
  · exact (batchLayout.find_eq (hG.framed.locked hcompat hlock rfl)).trans hknown.batch
  · exact (hG.moved bid (hcompat.not_writes hlock rfl).not_written).trans hknown.transfers

/-- From here on the batch is locked. -/
theorem safe_loadBatchForUpdate {site : Site} {k : PayoutBatch → Prog Database Row Site Result}
    (next : ∀ b ts, b.id = bid → (∃ view, ok site view ∧ batchTable.find view bid = some b) →
      Tracks J [⟨.batch bid, .update⟩] id (Known bid b ts) →
      Outline J ok (k b) [⟨.batch bid, .update⟩] id (Known bid b ts)) :
    Outline J ok (loadBatchForUpdate site bid k) [] id fun _ => True := by
  refine safe_bind (safe_step fun db _ _ hok => ?_)
  beta_reduce
  generalize hrow : batchTable.find (id db) bid = row
  cases row with
  | none => exact ⟨fun _ => True, trivial, stable_true, safe_orElse fun _ ho => nomatch ho⟩
  | some b =>
      have hfind : batchTable.find db bid = some b := hrow
      have hid : b.id = bid := (batchTable.find_mem hfind).2
      have hlocks : ([] : List (Lock Row)) ++ (some b).toList.map
          (fun b => (⟨.batch b.id, .update⟩ : Lock Row)) = [⟨.batch bid, .update⟩] := by
        simp [hid]
      refine ⟨Known bid b (transfersOf db bid), ⟨hfind, rfl⟩, ?_, ?_⟩
      · rw [hlocks]
        exact stable_known (List.mem_singleton_self _)
      · rw [hlocks]
        refine safe_orElse fun b' hb' => ?_
        obtain rfl := Option.some.inj hb'
        exact next b _ hid ⟨db, hok, hfind⟩
          ⟨fun d => .refl, .id, stable_known (List.mem_singleton_self _)⟩

/-! ### What the updates come to -/

/-- The update of a known batch. -/
theorem modify_batch {f : PayoutBatch → PayoutBatch} {p : PayoutBatch → Bool} {view d : Database}
    (hd : (d.batches.map (·.id)).Nodup) (hview : batchTable.find view bid = some b) (hb : batchTable.find d bid = some b)
    (hp : ∀ c, p c = true → c.id = bid) (hpb : p b = true) :
    batchTable.modify p f view d = { d with batches := updateWhere (·.id = bid) f d.batches } := by
  have hid : b.id = bid := (batchTable.find_mem hb).2
  have hone : ∀ c ∈ d.batches, c.id = bid → c = b := fun c hc hcid =>
    List.inj_on_of_nodup_map hd hc (batchTable.find_mem hb).1 (hcid.trans hid.symm)
  rw [Table.modify_eq fun c hc hpc => ?_]
  · refine congrArg (batchTable.put d) (updateWhere_congr fun c hc => ?_)
    by_cases hcid : c.id = bid
    · rw [hone c hc hcid, hpb, hid, decide_eq_true rfl]
    · have hnot : p c = false := by
        by_contra hpc
        exact hcid (hp c (by simpa using hpc))
      rw [hnot, decide_eq_false hcid]
  · refine List.mem_map.mpr ⟨b, Table.mem_matching.mpr ⟨(batchTable.find_mem hview).1, hpb⟩, ?_⟩
    exact hid.trans (hp c hpc).symm

/-- An update of known transfers. -/
theorem modify_transfers {f : PayoutTransfer → PayoutTransfer} {p : PayoutTransfer → Bool}
    {view d : Database} (hview : transfersOf view bid = transfersOf d bid)
    (hp : ∀ t ∈ d.transfers, p t = true → t.payoutBatchId = bid) :
    transferTable.modify p f view d =
      { d with transfers := updateWhere (fun t => t.payoutBatchId = bid && p t) f d.transfers } := by
  rw [Table.modify_eq fun t ht hpt => ?_]
  · refine congrArg (transferTable.put d) (updateWhere_congr fun t ht => ?_)
    by_cases hpt : p t = true
    · rw [hpt, hp t ht hpt, decide_eq_true rfl, Bool.true_and]
    · rw [Bool.eq_false_iff.mpr hpt, Bool.and_false]
  · have hmem : t ∈ transfersOf view bid := by
      rw [hview]
      exact mem_transfersOf.mpr ⟨ht, hp t ht hpt⟩
    exact List.mem_map_of_mem (Table.mem_matching.mpr ⟨(mem_transfersOf.mp hmem).1, hpt⟩)

/-- The end of a transaction that changed one batch. -/
theorem safe_commitBatch {fb : PayoutBatch → PayoutBatch} {p : PayoutTransfer → Bool}
    {ft : PayoutTransfer → PayoutTransfer} {e : Option PayoutEvidence}
    {k : PUnit → Prog Database Row Site Result} (ht : Tracks J L pending A)
    (hlock : ⟨.batch bid, .update⟩ ∈ L) (hkeys : KeepsKeys fb ft)
    (hpending : ∀ d, Inv d → A d → pending d = settle bid fb p ft e d)
    (hinv : ∀ d, Inv d → A d → Inv (settle bid fb p ft e d))
    (halso : ∀ d, Inv d → J d → A d → J (settle bid fb p ft e d))
    (next : Outline J ok (k ⟨⟩) [] id fun _ => True) : Outline J ok (Tx.commit k) L pending A := by
  refine safe_commit (fun d hI hA => ⟨?_, ht.framed d, fun other hother => ?_⟩) next
  · rw [hpending d hI.inv hA]
    exact ⟨hinv d hI.inv hA, halso d hI.inv hI.also hA⟩
  · rw [hpending d hI.inv hA]
    refine transfersOf_settle_ne hkeys fun heq => hother ?_
    rw [heq]
    exact written_of_mem hlock rfl

/-- The end of a transaction that changed nothing. -/
theorem safe_commitNothing {k : PUnit → Prog Database Row Site Result} (ht : Tracks J L id A)
    (next : Outline J ok (k ⟨⟩) [] id fun _ => True) : Outline J ok (Tx.commit k) L id A :=
  safe_commit (fun d hI _ => ⟨hI, ht.framed d, fun _ _ => rfl⟩) next

/-! ### Submissions and failures -/

section Open

variable {fb : PayoutBatch → PayoutBatch} {p : PayoutTransfer → Bool}
  {ft : PayoutTransfer → PayoutTransfer} {d : Database}

/-- The change touches open transfers only, and leaves them open. -/
structure LeavesOpen (fb : PayoutBatch → PayoutBatch) (p : PayoutTransfer → Bool)
    (ft : PayoutTransfer → PayoutTransfer) : Prop extends KeepsKeys fb ft where
  count : ∀ b, (fb b).confirmedTransferCount = b.confirmedTransferCount
  total : ∀ b, (fb b).amountMinor = b.amountMinor
  role : ∀ t, (ft t).role = t.role
  amount : ∀ t, (ft t).expectedAmountMinor = t.expectedAmountMinor
  before : ∀ t, p t = true → t.status ≠ .confirmed
  after : ∀ t, (ft t).status ≠ .confirmed

theorem LeavesOpen.exact (h : LeavesOpen fb p ft) (hexact : Exact b ts) (hb : b.status ≠ .confirmed)
    (hfb : (fb b).status ≠ .confirmed) : Exact (fb b) (updateWhere p ft ts) := by
  have hsame : (updateWhere p ft ts).filter (·.status = .confirmed) =
      ts.filter (·.status = .confirmed) := by
    refine filter_updateWhere_of_not fun t _ hp => ?_
    exact ⟨decide_eq_false (h.before t hp), decide_eq_false (h.after t)⟩
  constructor
  · rw [map_updateWhere h.role]
    exact hexact.roles
  · rw [total_updateWhere_eq fun t _ _ => h.amount t, h.total]
    exact hexact.amount
  · rw [h.count, confirmedCount, hsame]
    exact hexact.counted
  · refine ⟨fun heq => absurd heq hfb, fun hall => absurd (hexact.complete.mpr fun t ht => ?_) hb⟩
    have hafter := hall _ (mem_updateWhere.mpr ⟨t, ht, rfl⟩)
    by_cases hp : p t = true
    · rw [if_pos hp] at hafter
      exact absurd hafter (h.after t)
    · rwa [if_neg hp] at hafter

/-- Such a change keeps the invariant. -/
theorem LeavesOpen.inv (h : LeavesOpen fb p ft) (hI : Inv d) (hb : batchTable.find d bid = some b)
    (hopen : b.status ≠ .confirmed) (hfb : (fb b).status ≠ .confirmed) :
    Inv (settle bid fb p ft none d) := by
  refine hI.settle h.toKeepsKeys hb (fun _ he => nomatch he) (h.exact (hI.exact bid b hb) hopen hfb)
    fun t ht => ?_
  obtain ⟨hmem, hof⟩ := mem_transfersOf.mp ht
  have hbefore := hI.evidenced t hmem b (hof ▸ hb)
  simp only [Option.toList_none, List.filter_nil, List.append_nil]
  by_cases hp : p t = true
  · rw [if_pos hp]
    rcases hbefore with ⟨-, hnone⟩ | ⟨hconfirmed, -⟩
    · exact .inl ⟨h.after t, hnone⟩
    · exact absurd hconfirmed (h.before t hp)
  · rw [if_neg hp]
    exact hbefore

end Open

/-- The updates of a batch and of its transfers with one status, to the end. -/
theorem safe_updateBoth {site : Site} {pb : PayoutBatch → Bool} {fb : PayoutBatch → PayoutBatch}
    {s : TransferStatus} {ft : PayoutTransfer → PayoutTransfer} {r : Response}
    (ht : Tracks J L id (Known bid b ts)) (hlock : ⟨.batch bid, .update⟩ ∈ L)
    (hleaves : LeavesOpen fb (fun t => t.payoutBatchId = bid && t.status = s) ft)
    (hpb : ∀ c, pb c = true → c.id = bid) (hb : pb b = true) (hopen : b.status ≠ .confirmed)
    (hfb : (fb b).status ≠ .confirmed)
    (halso : ∀ d, Inv d → J d → batchTable.find d bid = some b →
      (∃ view, ok site view ∧ batchTable.find view bid = some b) →
      J (settle bid fb (fun t => t.payoutBatchId = bid && t.status = s) ft none d)) :
    Outline J ok ((do
      let _ ← updateBatch site pb fb
      let _ ← updateTransfers (fun t => t.payoutBatchId = bid && t.status = s) ft
      Tx.commit
      loadBatch bid
      return r : Handler Response).request) L id (Known bid b ts) := by
  refine safe_bind (ht.safe_update fun db₁ A₁ _ hA₁ hok h₁ => ?_)
  have ht₁ := h₁.track.modifyLocked batchLayout hleaves.batch
    fun c => ⟨_, List.mem_singleton_self _, rfl, rfl⟩
  refine safe_bind (ht₁.safe_update fun db₂ A₂ _ hA₂ _ h₂ => ?_)
  have ht₂ := h₂.track.modifyLocked transferLayout hleaves.transfer
    fun t => ⟨_, List.mem_singleton_self _, rfl, rfl⟩
  have hknown (d : Database) (hd : A₂ d) : Known bid b ts d := h₁.before d (h₂.before d hd)
  have hview : transfersOf (batchTable.modify pb fb db₁ db₂) bid = ts :=
    (h₁.before db₂ hA₂).transfers
  refine safe_bind (safe_commitBatch (e := none) ht₂
    (List.mem_append_left _ (List.mem_append_left _ hlock)) hleaves.toKeepsKeys (fun d hI hd => ?_)
    (fun d hI hd => hleaves.inv hI (hknown d hd).batch hopen hfb)
    (fun d hI hJ hd => halso d hI hJ (hknown d hd).batch ⟨_, hok, hA₁.batch⟩) (by exact safe_answer))
  have htransfers : transfersOf (batchTable.modify pb fb db₁ d) bid = ts := (hknown d hd).transfers
  show transferTable.modify _ ft (batchTable.modify pb fb db₁ db₂) (batchTable.modify pb fb db₁ d) = _
  rw [modify_transfers (hview.trans htransfers.symm) fun t _ hp => ?_,
    modify_batch hI.batchIds hA₁.batch (hknown d hd).batch hpb hb]
  · simp only [settle, Option.toList_none, List.append_nil]
  · simp only [Bool.and_eq_true, decide_eq_true_eq] at hp
    exact hp.1

theorem leavesOpen_submit {hash : String} : LeavesOpen (·.submit hash)
    (fun t => t.payoutBatchId = bid && t.status = .pending) (·.submit hash) where
  batch _ := rfl
  asset _ := rfl
  transfer _ := rfl
  owner _ := rfl
  count _ := rfl
  total _ := rfl
  role _ := rfl
  amount _ := rfl
  before t hp heq := by
    simp only [Bool.and_eq_true, decide_eq_true_eq] at hp
    rw [hp.2] at heq
    cases heq
  after _ := by
    show TransferStatus.submitted ≠ .confirmed
    decide

/-- A batch with its transfers, submitted. -/
def submitAll (batchId : Uuid) (hash : String) (db : Database) : Database :=
  settle batchId (·.submit hash) (fun t => t.payoutBatchId = batchId && t.status = .pending)
    (·.submit hash) none db

theorem safe_recordPayoutSubmission (actorUserId batchId : Uuid) (body : PayoutSubmissionRequest)
    (hJ : ∀ hash db b, body.validate = .ok hash → Inv db → J db →
      batchTable.find db batchId = some b → b.status = .prepared → J (submitAll batchId hash db)) :
    SafeHandler J ok (recordPayoutSubmission actorUserId batchId body) := by
  refine safe_bind (safe_ensureUser ?_)
  refine safe_bind (safe_valid fun hash hvalid => ?_)
  refine safe_bind (safe_loadBatchForUpdate fun b ts hid _ ht => ?_)
  refine safe_ite (fun _ => ?_) fun _ => ?_
  · exact safe_bind (safe_require fun _ => safe_bind (safe_commitNothing ht safe_answer))
  · refine safe_bind (safe_require fun hprepared => ?_)
    have hstatus : b.status = .prepared := of_decide_eq_true hprepared
    refine safe_updateBoth ht (List.mem_singleton_self _) leavesOpen_submit (fun c hc => ?_) ?_ ?_ ?_
      fun d hI hd hb _ => hJ hash d b hvalid hI hd hb hstatus
    · simp only [Bool.and_eq_true, decide_eq_true_eq] at hc
      exact hc.1
    · simp only [hid, hstatus, decide_true, Bool.and_self]
    · rw [hstatus]
      decide
    · show BatchStatus.submitted ≠ .confirmed
      decide

theorem leavesOpen_fail {code : String} {next : BatchStatus} : LeavesOpen
    (fun b => { b with status := next, failureCode := some code })
    (fun t => t.payoutBatchId = bid && t.status = .submitted) (·.fail code) where
  batch _ := rfl
  asset _ := rfl
  transfer _ := rfl
  owner _ := rfl
  count _ := rfl
  total _ := rfl
  role _ := rfl
  amount _ := rfl
  before t hp heq := by
    simp only [Bool.and_eq_true, decide_eq_true_eq] at hp
    rw [hp.2] at heq
    cases heq
  after _ := by
    show TransferStatus.failed ≠ .confirmed
    decide

theorem BatchStatus.open_of_inFlight {s : BatchStatus} (h : s.inFlight = true) : s ≠ .confirmed := by
  intro heq
  rw [heq] at h
  cases h

/-- A batch with its transfers, failed. -/
def failAll (batchId : Uuid) (code : String) (next : BatchStatus) (db : Database) : Database :=
  settle batchId (fun b => { b with status := next, failureCode := some code })
    (fun t => t.payoutBatchId = batchId && t.status = .submitted) (·.fail code) none db

theorem safe_recordPayoutFailure (actorUserId batchId : Uuid) (failureCode : String)
    (hJ : ∀ code next db b, Inv db → J db → batchTable.find db batchId = some b →
      b.status.inFlight = true →
      (∃ view, ok (.failure batchId) view ∧ batchTable.find view batchId = some b) →
      J (failAll batchId code next db)) :
    SafeHandler J ok (recordPayoutFailure actorUserId batchId failureCode) := by
  refine safe_bind (safe_ensureUser ?_)
  refine safe_bind (safe_valid fun code _ => ?_)
  refine safe_bind (safe_loadBatchForUpdate fun b ts hid _ ht => ?_)
  refine safe_bind (safe_require fun hflight => ?_)
  refine safe_updateBoth ht (List.mem_singleton_self _) leavesOpen_fail
    (fun c hc => of_decide_eq_true hc) (decide_eq_true hid) (BatchStatus.open_of_inFlight hflight) ?_
    fun d hI hd hb => hJ code _ d b hI hd hb hflight
  show (if 0 < b.confirmedTransferCount then BatchStatus.partially else BatchStatus.failed) ≠ _
  split <;> decide

/-! ### Evidence -/

section Evidence

variable {d : Database} {t : PayoutTransfer} {o : Observed} {rule : PayoutRule} {raw : Json}
  {evidenceId : Uuid}

/-- What accepted evidence agrees with. -/
theorem of_reconcileTransfer (h : reconcileTransfer b rule t o raw = none) :
    t.status = .submitted ∧ o.recipient = t.recipientAccount ∧ o.amountMinor = t.expectedAmountMinor ∧
      o.asset = b.asset ∧ o.successful = true := by
  unfold reconcileTransfer at h
  split at h
  · cases h
  rename_i hsubmitted
  split at h
  · cases h
  split at h
  · cases h
  split at h
  · cases h
  rename_i hrecipient
  split at h
  · cases h
  rename_i hamount
  split at h
  · cases h
  rename_i hasset
  split at h
  · cases h
  rename_i hsuccessful
  simp only [not_or, not_not] at hsubmitted hrecipient hamount hasset
  exact ⟨hsubmitted.2, hrecipient, hamount, hasset, by simpa using hsuccessful⟩

/-- Rejected evidence changes no batch. -/
theorem inv_rejected {e : PayoutEvidence} (hI : Inv d) (hb : batchTable.find d bid = some b)
    (hfresh : evidenceTable.find d (e.transactionHash, e.operationIndex) = none)
    (habout : ∃ t ∈ transfersOf d bid, t.id = e.payoutTransferId)
    (hrejected : e.processingStatus = .rejected) :
    Inv (settle bid id (fun _ => false) id (some e) d) := by
  have hnone (tid : Uuid) : (some e).toList.filter (fun e => e.payoutTransferId = tid &&
      e.processingStatus = .accepted) = [] := by
    simp [hrejected]
  have hsame : updateWhere (fun _ => false) id (transfersOf d bid) = transfersOf d bid :=
    updateWhere_eq_self fun _ _ => rfl
  refine hI.settle ⟨fun _ => rfl, fun _ => rfl, fun _ => rfl, fun _ => rfl⟩ hb
    (fun f hf => ?_) ?_ fun t ht => ?_
  · obtain rfl := Option.some.inj hf
    exact ⟨hfresh, habout⟩
  · rw [hsame]
    exact hI.exact bid b hb
  · obtain ⟨hmem, hof⟩ := mem_transfersOf.mp ht
    rw [hnone, List.append_nil, if_neg Bool.false_ne_true]
    exact hI.evidenced t hmem b (hof ▸ hb)

/-- The evidence is recorded, and changes nothing else. -/
def reject (ext : External) (batchId : Uuid) (o : Observed) (raw : Json) (evidenceId transferId : Uuid)
    (failure : String) (db : Database) : Database :=
  settle batchId id (fun _ => false) id
    (some (evidenceRow ext o raw evidenceId transferId (some failure))) db

/-- The batch with its transfers counted again. -/
def recount (status : BatchStatus) (confirmed : Nat) (b : PayoutBatch) : PayoutBatch :=
  { b with status, confirmedTransferCount := confirmed, failureCode := none }

/-- The status of a batch in flight, and its count. -/
theorem statusOfCount_confirmed {ts : List PayoutTransfer} {status : BatchStatus}
    (h : statusOfCount (confirmedCount ts) = some status) (hthree : ts.length = 3) :
    status = .confirmed ↔ ∀ t ∈ ts, t.status = .confirmed := by
  have hall : confirmedCount ts = 3 ↔ ∀ t ∈ ts, t.status = .confirmed := by
    rw [confirmedCount, ← hthree, List.length_filter_eq_length_iff]
    simp only [decide_eq_true_eq]
  rw [← hall]
  unfold statusOfCount at h
  split at h
  · rename_i hzero
    rw [hzero]
    obtain rfl := Option.some.inj h
    decide
  · rename_i hone
    rw [hone]
    obtain rfl := Option.some.inj h
    decide
  · rename_i htwo
    rw [htwo]
    obtain rfl := Option.some.inj h
    decide
  · rename_i hfull
    rw [hfull]
    obtain rfl := Option.some.inj h
    decide
  · cases h

/-- The transfers of a batch once one of them is confirmed. -/
def confirmIn (o : Observed) (transferId : Uuid) (ts : List PayoutTransfer) : List PayoutTransfer :=
  updateWhere (fun s => s.id = transferId && s.status = .submitted) (·.confirm o) ts

/-- The evidence is recorded, and confirms its transfer. -/
def accept (ext : External) (batchId : Uuid) (o : Observed) (raw : Json) (evidenceId transferId : Uuid)
    (status : BatchStatus) (db : Database) : Database :=
  settle batchId (recount status (confirmedCount (confirmIn o transferId (transfersOf db batchId))))
    (fun s => s.id = transferId && s.status = .submitted) (·.confirm o)
    (some (evidenceRow ext o raw evidenceId transferId none)) db

theorem keepsKeys_confirm {status : BatchStatus} {n : Nat} :
    KeepsKeys (recount status n) (·.confirm o) :=
  ⟨fun _ => rfl, fun _ => rfl, fun _ => rfl, fun _ => rfl⟩

theorem transfersOf_accept {transferId : Uuid} {status : BatchStatus} :
    transfersOf (accept ext bid o raw evidenceId transferId status d) bid =
      confirmIn o transferId (transfersOf d bid) := transfersOf_settle_self keepsKeys_confirm

/-- **Accepted evidence** confirms its transfer, and the batch is counted again. -/
theorem inv_accepted {status : BatchStatus} (hI : Inv d) (hb : batchTable.find d bid = some b)
    (ht : t ∈ transfersOf d bid) (hreconciled : reconcileTransfer b rule t o raw = none)
    (hfresh : evidenceTable.find d (o.txHash, o.operationIndex) = none)
    (hstatus : statusOfCount (confirmedCount (confirmIn o t.id (transfersOf d bid))) = some status) :
    Inv (accept ext bid o raw evidenceId t.id status d) := by
  obtain ⟨hsubmitted, hrecipient, hamount, hasset, hsuccessful⟩ := of_reconcileTransfer hreconciled
  obtain ⟨hmem, hof⟩ := mem_transfersOf.mp ht
  have hexact := hI.exact bid b hb
  have hthree : (transfersOf d bid).length = 3 := by
    rw [← List.length_map (·.role), hexact.roles]
    rfl
  refine hI.settle ⟨fun _ => rfl, fun _ => rfl, fun _ => rfl, fun _ => rfl⟩ hb
    (fun f hf => ?_) ?_ fun s hs => ?_
  · obtain rfl := Option.some.inj hf
    exact ⟨hfresh, t, ht, rfl⟩
  · refine ⟨?_, ?_, rfl, statusOfCount_confirmed hstatus ?_⟩
    · exact (map_updateWhere (f := (·.confirm o)) fun _ => rfl).trans hexact.roles
    · exact (total_updateWhere_eq (f := (·.confirm o)) fun _ _ _ => rfl).trans hexact.amount
    · rw [updateWhere, List.length_map, hthree]
  · obtain ⟨hsmem, hsof⟩ := mem_transfersOf.mp hs
    have hbefore := hI.evidenced s hsmem b (hsof ▸ hb)
    by_cases hst : s.id = t.id
    · obtain rfl := hI.transfer_eq hsmem hmem hst
      have hnone : acceptedOf d s.id = [] := by
        rcases hbefore with ⟨-, hnone⟩ | ⟨hconfirmed, -⟩
        · exact hnone
        · rw [hsubmitted] at hconfirmed
          cases hconfirmed
      rw [if_pos (by simp [hsubmitted]), hnone]
      refine .inr ⟨rfl, evidenceRow ext o raw evidenceId s.id none, by simp [evidenceRow], ?_⟩
      exact ⟨rfl, rfl, hamount, hasset, hrecipient, hsuccessful⟩
    · have hother : ¬ t.id = s.id := fun heq => hst heq.symm
      have hnone : (some (evidenceRow ext o raw evidenceId t.id none)).toList.filter (fun e =>
          e.payoutTransferId = s.id && e.processingStatus = .accepted) = [] := by
        simp [evidenceRow, hother]
      rw [if_neg (by simp [hst]), hnone, List.append_nil]
      exact hbefore

/-- The update that confirms a transfer, once its evidence is recorded. -/
theorem modify_confirm {view : Database} {e : PayoutEvidence} (hI : Inv d) (ht : t ∈ transfersOf d bid)
    (hview : transfersOf view bid = transfersOf d bid) :
    transferTable.modify (fun s => s.id = t.id && s.status = .submitted) (·.confirm o)
        (evidenceTable.add e view) (evidenceTable.add e d) =
      settle bid id (fun s => s.id = t.id && s.status = .submitted) (·.confirm o) (some e) d := by
  rw [settle, updateWhere_id]
  refine modify_transfers hview fun s hs hp => ?_
  simp only [Bool.and_eq_true, decide_eq_true_eq] at hp
  obtain ⟨hmem, howner⟩ := mem_transfersOf.mp ht
  have heq : s = t := hI.transfer_eq hs hmem hp.1
  rw [heq]
  exact howner

/-- The update that counts again after that. -/
theorem modify_recount {view : Database} {status : BatchStatus} (hI : Inv d)
    (hb : batchTable.find d bid = some b) (hview : batchTable.find view bid = some b) :
    batchTable.modify (fun c => c.id = bid)
        (recount status (confirmedCount (confirmIn o t.id (transfersOf d bid)))) view
        (settle bid id (fun s => s.id = t.id && s.status = .submitted) (·.confirm o)
          (some (evidenceRow ext o raw evidenceId t.id none)) d) =
      accept ext bid o raw evidenceId t.id status d := by
  have hid : b.id = bid := (batchTable.find_mem hb).2
  refine (modify_batch (b := b) ?_ hview ?_ (fun c hc => of_decide_eq_true hc)
    (decide_eq_true hid)).trans ?_
  · rw [settle, updateWhere_id]
    exact hI.batchIds
  · rw [settle, updateWhere_id]
    exact hb
  · rw [accept, settle, settle, updateWhere_id]

end Evidence

/-- A new operation. -/
theorem fresh_of_unique {e : PayoutEvidence} {db : Database}
    (h : unique (db.evidence.any fun f => f.id = e.id ||
      (f.transactionHash = e.transactionHash && f.operationIndex = e.operationIndex) ||
      (f.payoutTransferId = e.payoutTransferId && f.processingStatus = .accepted &&
        e.processingStatus = .accepted)) = none) :
    evidenceTable.find db (e.transactionHash, e.operationIndex) = none := by
  refine evidenceTable.find_none_of_any (unique_eq_none.mp h) fun f hf => ?_
  obtain ⟨hhash, hindex⟩ := Prod.mk.inj (show (f.transactionHash, f.operationIndex) = _ from hf)
  simp [hhash, hindex]

/-- The record of evidence about one of the batch's transfers; its operation was new. -/
theorem safe_insertEvidence {e : PayoutEvidence} {k : PUnit → Prog Database Row Site Result}
    (ht : Tracks J L id A)
    (next : ∀ L' B, Tracks J L' (evidenceTable.add e) B → L ⊆ L' → (∀ d, B d → A d ∧
      evidenceTable.find d (e.transactionHash, e.operationIndex) = none) →
      Outline J ok (k ⟨⟩) L' (evidenceTable.add e) B) :
    Outline J ok (insertEvidence e k) L id A := by
  refine ht.safe_insertRow fun db B _ _ hv h => ?_
  have hlock : (⟨.operation e.transactionHash e.operationIndex, .update⟩ : Lock Row) ∈ L ++
      ([⟨.evidence e.id, .update⟩, ⟨.operation e.transactionHash e.operationIndex, .update⟩,
        ⟨.transfer e.payoutTransferId, .keyShare⟩] ++
      if e.processingStatus = .accepted then [⟨.acceptedEvidenceOf e.payoutTransferId, .update⟩]
      else []) := by simp
  refine next _ B (h.track.add evidenceLayout hlock) (List.subset_append_left _ _) fun d hd => ?_
  exact ⟨h.before d hd, ((h.seen d hd).find evidenceLayout
    (i := (e.transactionHash, e.operationIndex)) hlock rfl).trans (fresh_of_unique hv)⟩

/-- The confirmation of a transfer in flight, once its evidence is recorded. -/
theorem safe_confirmTransfer {t : PayoutTransfer} {o : Observed} {rule : PayoutRule} {raw : Json}
    {evidenceId : Uuid} {r : Response}
    (ht : Tracks J L (evidenceTable.add (evidenceRow ext o raw evidenceId t.id none)) A)
    (hlock : ⟨.batch bid, .update⟩ ∈ L) (hid : b.id = bid)
    (hA : ∀ d, A d → Known bid b ts d ∧ evidenceTable.find d (o.txHash, o.operationIndex) = none)
    (hof : t ∈ ts) (hreconciled : reconcileTransfer b rule t o raw = none)
    (halso : ∀ status d, Inv d → J d → Known bid b ts d →
      evidenceTable.find d (o.txHash, o.operationIndex) = none →
      statusOfCount (confirmedCount (confirmIn o t.id (transfersOf d bid))) = some status →
      J (accept ext bid o raw evidenceId t.id status d)) :
    Outline J ok ((do
      let updated ← updateTransfers (fun s => s.id = t.id && s.status = .submitted) (·.confirm o)
      Tx.require (updated = 1) (.error (.conflict "payout_transfer_state_changed"))
      refreshBatchStatus bid
      Tx.commit
      loadBatch bid
      return r : Handler Response).request) L
        (evidenceTable.add (evidenceRow ext o raw evidenceId t.id none)) A := by
  refine safe_bind (ht.safe_update fun db₁ A₁ hI₁ hA₁ _ h₁ => ?_)
  have ht₁ := h₁.track.modifyLocked transferLayout (f := (·.confirm o)) (fun _ => rfl)
    fun t => ⟨_, List.mem_singleton_self _, rfl, rfl⟩
  have hA' (d : Database) (hd : A₁ d) := hA d (h₁.before d hd)
  -- the transfers after the update, in every state that the locks admit
  have hconfirmed (d : Database) (hI : Inv d) (hd : A₁ d) :
      transferTable.modify (fun s => s.id = t.id && s.status = .submitted) (·.confirm o)
          (evidenceTable.add (evidenceRow ext o raw evidenceId t.id none) db₁)
          (evidenceTable.add (evidenceRow ext o raw evidenceId t.id none) d) =
        settle bid id (fun s => s.id = t.id && s.status = .submitted) (·.confirm o)
          (some (evidenceRow ext o raw evidenceId t.id none)) d :=
    modify_confirm hI ((hA' d hd).1.transfers ▸ hof)
      ((hA db₁ hA₁).1.transfers.trans (hA' d hd).1.transfers.symm)
  have hts (d : Database) (hI : Inv d) (hd : A₁ d) :
      transfersOf (transferTable.modify (fun s => s.id = t.id && s.status = .submitted) (·.confirm o)
          (evidenceTable.add (evidenceRow ext o raw evidenceId t.id none) db₁)
          (evidenceTable.add (evidenceRow ext o raw evidenceId t.id none) d)) bid =
        updateWhere (fun s => s.id = t.id && s.status = .submitted) (·.confirm o) ts := by
    rw [hconfirmed d hI hd, ← (hA' d hd).1.transfers]
    exact transfersOf_settle_self ⟨fun _ => rfl, fun _ => rfl, fun _ => rfl, fun _ => rfl⟩
  refine safe_bind (safe_require fun _ => ?_)
  refine safe_bind (safe_bind (safe_select ht₁.stable fun db₂ n hI₂ hA₂ hn => ?_))
  have hcount : n = confirmedCount (confirmIn o t.id ts) := by
    rw [confirmIn, ← hts db₂ hI₂.inv hA₂]
    exact hn.symm
  refine safe_bind (safe_orElse fun status hstatus => ?_)
  refine safe_bind (ht₁.safe_update fun db₃ A₃ hI₃ hA₃ _ h₃ => ?_)
  have ht₃ := h₃.track.modifyLocked batchLayout (f := recount status n) (fun _ => rfl)
    fun c => ⟨_, List.mem_singleton_self _, rfl, rfl⟩
  have hA₂' (d : Database) (hd : A₃ d) := h₃.before d hd
  have hkeys : KeepsKeys (recount status n) (·.confirm o) := keepsKeys_confirm
  refine safe_bind (safe_commitBatch (e := some (evidenceRow ext o raw evidenceId t.id none))
    (p := fun s => s.id = t.id && s.status = .submitted) ht₃
    (List.mem_append_left _ (List.mem_append_left _ hlock)) hkeys (fun d hI hd => ?_)
    (fun d hI hd => ?_) (fun d hI hJ hd => ?_) (by exact safe_answer))
  · have hview := (hA' db₃ hA₃).1.batch
    have hnow := hA' d (hA₂' d hd)
    show batchTable.modify _ (recount status n) _ _ = _
    rw [hconfirmed d hI (hA₂' d hd)]
    rw [← hnow.1.transfers] at hcount
    subst hcount
    exact modify_recount hI hnow.1.batch hview
  · have hknown := (hA' d (hA₂' d hd)).1
    rw [← hknown.transfers] at hof hcount
    subst hcount
    exact inv_accepted hI hknown.batch hof hreconciled (hA' d (hA₂' d hd)).2 hstatus
  · obtain ⟨hknown, hfresh⟩ := hA' d (hA₂' d hd)
    rw [← hknown.transfers] at hcount
    subst hcount
    exact halso status d hI hJ hknown hfresh hstatus

/-- New evidence about a transfer of a batch, as the request finds them. -/
structure Reports (J : Database → Prop) (ok : Site → Database → Prop) (bid : Uuid) (o : Observed)
    (b : PayoutBatch) (rule : PayoutRule) (t : PayoutTransfer) (db : Database) : Prop where
  batch : batchTable.find db bid = some b
  transfer : t ∈ transfersOf db bid
  role : t.role = o.role
  fresh : evidenceTable.find db (o.txHash, o.operationIndex) = none
  rule : ∃ view, J view ∧ ruleTable.find view b.payoutRuleId = some rule
  allowed : ∃ view, ok (.evidence bid) view ∧ batchTable.find view bid = some b

theorem safe_recordTransferEvidence (ext : External) (actorUserId batchId : Uuid)
    (body : TransferEvidenceRequest) (evidenceId : Uuid)
    (hrejects : ∀ o b rule t failure db, body.validate = .ok o → Inv db → J db →
      Reports J ok batchId o b rule t db →
      reconcileTransfer b rule t o body.rawOperation = some failure →
      J (reject ext batchId o body.rawOperation evidenceId t.id failure db))
    (haccepts : ∀ o b rule t status db, body.validate = .ok o → Inv db → J db →
      Reports J ok batchId o b rule t db → reconcileTransfer b rule t o body.rawOperation = none →
      statusOfCount (confirmedCount (confirmIn o t.id (transfersOf db batchId))) = some status →
      J (accept ext batchId o body.rawOperation evidenceId t.id status db)) :
    SafeHandler J ok (recordTransferEvidence ext actorUserId batchId body evidenceId) := by
  refine safe_bind (safe_ensureUser ?_)
  refine safe_bind (safe_valid fun o hvalid => ?_)
  refine safe_bind (safe_loadBatchForUpdate fun b ts hid hallowed ht => ?_)
  refine safe_bind (safe_select ht.stable fun view rule hview _ hrule =>
    safe_bind (safe_orElse fun rule hfound => ?_))
  refine safe_bind (ht.safe_selectFor fun db₁ A₁ t _ hA₁ hrow h₁ => ?_)
  refine safe_bind (safe_orElse fun t htrow => ?_)
  have hfound' := hrow.trans htrow
  have hcond := List.find?_some hfound'
  simp only [Bool.and_eq_true, decide_eq_true_eq] at hcond
  have hof : t ∈ ts := by
    rw [← hA₁.transfers]
    exact mem_transfersOf.mpr ⟨List.mem_of_find?_eq_some hfound', hcond.1⟩
  have hreports (d : Database) (hd : Known batchId b ts d)
      (hfresh : evidenceTable.find d (o.txHash, o.operationIndex) = none) :
      Reports J ok batchId o b rule t d :=
    ⟨hd.batch, hd.transfers ▸ hof, hcond.2, hfresh, ⟨view, hview.also, hrule.trans hfound⟩, hallowed⟩
  refine safe_bind (safe_select h₁.track.stable fun _ existing _ _ _ => ?_)
  cases existing with
  | some existing =>
      exact safe_bind (safe_require fun _ => safe_bind (safe_commitNothing h₁.track safe_answer))
  | none =>
      refine safe_bind (safe_require fun _ => ?_)
      refine safe_bind (safe_insertEvidence h₁.track fun L' B htB hL hB => ?_)
      have hknown (d : Database) (hd : B d) : Known batchId b ts d ∧
          evidenceTable.find d (o.txHash, o.operationIndex) = none :=
        ⟨h₁.before d (hB d hd).1, (hB d hd).2⟩
      have hlock : (⟨.batch batchId, .update⟩ : Lock Row) ∈ L' :=
        hL (List.mem_append_left _ (List.mem_singleton_self _))
      cases hfailure : reconcileTransfer b rule t o body.rawOperation with
      | none =>
          rw [hfailure] at htB
          exact safe_confirmTransfer htB hlock hid hknown hof hfailure fun status d hI hJ hd hfresh =>
            haccepts o b rule t status d hvalid hI hJ (hreports d hd hfresh) hfailure
      | some failure =>
          rw [hfailure] at htB
          have hkeys : KeepsKeys id id := ⟨fun _ => rfl, fun _ => rfl, fun _ => rfl, fun _ => rfl⟩
          refine safe_bind (safe_commitBatch (p := fun _ => false)
            (e := some (evidenceRow ext o body.rawOperation evidenceId t.id (some failure))) htB hlock
            hkeys (fun d _ _ => ?_) (fun d hI hd => ?_) (fun d hI hJ hd => ?_) (by exact safe_answer))
          · rw [settle, updateWhere_id, updateWhere_id]
            rfl
          · obtain ⟨hb, hts⟩ := (hknown d hd).1
            refine inv_rejected hI hb (hknown d hd).2 ⟨t, ?_, rfl⟩ rfl
            rw [hts]
            exact hof
          · exact hrejects o b rule t failure d hvalid hI hJ
              (hreports d (hknown d hd).1 (hknown d hd).2) hfailure

/-! ### New batches -/

section Prepare

variable {d db : Database} {t : PayoutTransfer}

theorem fresh_of_batch (h : unique (db.batches.any fun c => c.id = b.id || c.orderId = b.orderId ||
    (c.organizationId = b.organizationId && c.idempotencyKey = b.idempotencyKey)) = none) :
    batchTable.find db b.id = none := by
  refine batchTable.find_none_of_any (unique_eq_none.mp h) fun c hc => ?_
  have hid : c.id = b.id := hc
  simp [hid]

theorem fresh_of_transfer (h : unique (db.transfers.any fun s => s.id = t.id ||
    (s.payoutBatchId = t.payoutBatchId && s.role = t.role)) = none) :
    transferTable.find db t.id = none := by
  refine transferTable.find_none_of_any (unique_eq_none.mp h) fun s hs => ?_
  have hid : s.id = t.id := hs
  simp [hid]

/-- New transfers: their ids are their own. -/
structure Fresh (ts : List PayoutTransfer) (d : Database) : Prop where
  ids : (ts.map (·.id)).Nodup
  new : ∀ t ∈ ts, transferTable.find d t.id = none

theorem Fresh.concat (h : Fresh ts d)
    (hnot : ∀ s ∈ d.transfers ++ ts, s.id ≠ t.id) :
    Fresh (ts ++ [t]) d := by
  constructor
  · rw [List.map_append, List.nodup_append]
    refine ⟨h.ids, by simp, ?_⟩
    intro k hk k' hk' heq
    obtain ⟨s, hs, rfl⟩ := List.mem_map.mp hk
    obtain rfl : k' = t.id := by simpa using hk'
    exact hnot s (List.mem_append_right _ hs) heq
  · intro s hs
    rcases List.mem_append.mp hs with hs | hs
    · exact h.new s hs
    · obtain rfl : s = t := by simpa using hs
      refine List.find?_eq_none.mpr fun r hr heq => ?_
      exact hnot r (List.mem_append_left _ hr) (of_decide_eq_true heq)

/-- One more transfer of a new batch. -/
theorem safe_insertTransfer {k : PUnit → Prog Database Row Site Result}
    (ht : Tracks J L (prepare b ts) A) (hA : ∀ d, A d → batchTable.find d b.id = none ∧ Fresh ts d)
    (next : ∀ L' B, Tracks J L' (prepare b (ts ++ [t])) B → L ⊆ L' →
      (∀ d, B d → batchTable.find d b.id = none ∧ Fresh (ts ++ [t]) d) →
      Outline J ok (k ⟨⟩) L' (prepare b (ts ++ [t])) B) :
    Outline J ok (insertTransfer t k) L (prepare b ts) A := by
  refine ht.safe_insertRow fun db B _ _ hv h => ?_
  have hlock : (⟨.transfer t.id, .update⟩ : Lock Row) ∈ L ++ [⟨.transfer t.id, .update⟩,
      ⟨.transferOf t.payoutBatchId t.role, .update⟩, ⟨.batch t.payoutBatchId, .keyShare⟩] := by simp
  have hchange : (fun d => transferTable.add t (prepare b ts d)) = prepare b (ts ++ [t]) := by
    funext d
    simp only [Table.add, transferTable, prepare, List.append_assoc]
  have htrack := h.track.add transferLayout hlock
  rw [hchange] at htrack ⊢
  refine next _ B htrack (List.subset_append_left _ _) fun d hd => ?_
  obtain ⟨hnone, hfresh⟩ := hA d (h.before d hd)
  have hnew : transferTable.find (prepare b ts d) t.id = none :=
    ((h.seen d hd).find transferLayout (i := t.id) hlock rfl).trans (fresh_of_transfer hv)
  exact ⟨hnone, hfresh.concat (transferTable.find_none hnew)⟩

/-- A new batch, without its transfers so far. -/
theorem safe_insertBatch {k : PUnit → Prog Database Row Site Result} (ht : Tracks J L id A)
    (next : ∀ L' B, Tracks J L' (prepare b []) B → ⟨.batch b.id, .update⟩ ∈ L' →
      (∀ d, B d → batchTable.find d b.id = none ∧ Fresh [] d) →
      Outline J ok (k ⟨⟩) L' (prepare b []) B) :
    Outline J ok (insertBatch b k) L id A := by
  refine ht.safe_insertRow fun db B _ _ hv h => ?_
  have hlock : (⟨.batch b.id, .update⟩ : Lock Row) ∈ L ++ [⟨.batch b.id, .update⟩,
      ⟨.batchOf b.orderId, .update⟩, ⟨.batchKey b.organizationId b.idempotencyKey, .update⟩,
      ⟨.order b.orderId, .keyShare⟩, ⟨.rule b.payoutRuleId, .keyShare⟩] := by simp
  have hchange : (fun d => batchTable.add b (id d)) = prepare b [] := by
    funext d
    simp only [Table.add, batchTable, prepare, id, List.append_nil]
  have htrack := h.track.add batchLayout hlock
  rw [hchange] at htrack ⊢
  refine next _ B htrack hlock fun d hd => ⟨?_, by simp, fun t ht => nomatch ht⟩
  exact ((h.seen d hd).find batchLayout (i := b.id) hlock rfl).trans (fresh_of_batch hv)

/-- A new batch with its three transfers, to the end. -/
theorem safe_prepareBatch {t₁ t₂ t₃ : PayoutTransfer} {r : Response} (ht : Tracks J L id A)
    (hts : ∀ t ∈ [t₁, t₂, t₃], t.payoutBatchId = b.id ∧ t.status = .pending)
    (hroles : [t₁, t₂, t₃].map (·.role) = [.candidate, .organizer, .platform])
    (hcount : b.confirmedTransferCount = 0)
    (hamount : t₁.expectedAmountMinor + t₂.expectedAmountMinor + t₃.expectedAmountMinor = b.amountMinor)
    (hstatus : b.status ≠ .confirmed) (halso : ∀ d, J d → J (prepare b [t₁, t₂, t₃] d)) :
    Outline J ok ((do
      insertBatch b
      insertTransfer t₁
      insertTransfer t₂
      insertTransfer t₃
      Tx.commit
      loadBatch bid
      return r : Handler Response).request) L id A := by
  refine safe_bind (safe_insertBatch ht fun L₀ B₀ ht₀ hlock₀ h₀ => ?_)
  refine safe_bind (safe_insertTransfer ht₀ h₀ fun L₁ B₁ ht₁ hL₁ h₁ => ?_)
  refine safe_bind (safe_insertTransfer ht₁ h₁ fun L₂ B₂ ht₂ hL₂ h₂ => ?_)
  refine safe_bind (safe_insertTransfer ht₂ h₂ fun L₃ B₃ ht₃ hL₃ h₃ => ?_)
  refine safe_bind (safe_commit (fun d hI hd => ?_) (by exact safe_answer))
  obtain ⟨hnone, hfresh⟩ := h₃ d hd
  refine ⟨?_, ht₃.framed d, fun other hother => ?_⟩
  · refine ⟨hI.inv.prepare hnone hfresh.ids (fun t ht => ?_) hroles ?_ hcount hstatus, halso d hI.also⟩
    · exact ⟨(hts t ht).1, (hts t ht).2, hfresh.new t ht⟩
    · show total (·.expectedAmountMinor) [t₁, t₂, t₃] = _
      rw [← hamount]
      simp only [total_cons, total_nil, add_zero, add_assoc]
  · -- the transfers of other batches are the same
    have hne : b.id ≠ other := fun heq =>
      hother (heq ▸ written_of_mem (hL₃ (hL₂ (hL₁ hlock₀))) rfl)
    have hothers : [t₁, t₂, t₃].filter (·.payoutBatchId = other) = [] :=
      List.filter_eq_nil_iff.mpr fun t ht heq =>
        hne ((hts t ht).1.symm.trans (of_decide_eq_true heq))
    show (d.transfers ++ [t₁, t₂, t₃]).filter (·.payoutBatchId = other) = _
    rw [List.filter_append, hothers, List.append_nil]
    rfl

end Prepare

/-- The shares of a split add up. -/
theorem split_total {total candidateBps organizerBps platformBps : Int} {split : Split}
    (h : calculateSplit total candidateBps organizerBps platformBps = .ok split) :
    split.candidate + split.organizer + split.platform = total := by
  unfold calculateSplit at h
  simp only [throw_bind, bind_eq_ok, guard_eq_ok, pure_eq_ok, okOr_eq_ok,
    Option.bind_eq_some_iff] at h
  obtain ⟨-, -, -, c, -, o, -, p, ⟨rest, hrest, hp⟩, c', hc', o', ho', p', hp', rfl⟩ := h
  rw [checkedI64_eq_some hc', checkedI64_eq_some ho', checkedI64_eq_some hp', of_checkedI128 hp, of_checkedI128 hrest]
  show c.tdiv 10000 + o.tdiv 10000 + (total - c.tdiv 10000 - o.tdiv 10000) = total
  omega

theorem safe_createPayoutBatch (sha256 : Sha256) (actorUserId orderId : Uuid)
    (body : CreatePayoutBatchRequest) (ids : BatchIds) (hJ : ∀ b ts db, J db → J (prepare b ts db)) :
    SafeHandler J ok (createPayoutBatch sha256 actorUserId orderId body ids) := by
  refine safe_bind (safe_valid fun key _ => ?_)
  refine safe_bind (Track.start.safe_selectFor fun db₁ A₁ rows _ _ _ h₁ => ?_)
  refine safe_bind (safe_orElse fun order _ => safe_bind (safe_require fun _ => ?_))
  refine safe_bind (safe_requireEditor h₁.track ?_)
  refine safe_bind (safe_require fun _ => safe_bind (safe_require fun _ => ?_))
  refine safe_bind (safe_select h₁.track.stable fun _ _ _ _ _ => safe_bind (safe_require fun _ => ?_))
  refine safe_bind (h₁.track.safe_selectFor fun db₂ A₂ rule _ _ _ h₂ => ?_)
  refine safe_bind (safe_orElse fun rule _ => safe_bind (safe_require fun _ => ?_))
  refine safe_bind (safe_require fun _ => safe_bind (safe_valid fun _ _ => ?_))
  refine safe_bind (safe_valid fun split hsplit => safe_bind (safe_require fun _ => ?_))
  refine safe_bind (h₂.track.safe_selectFor fun db₃ A₃ existing _ _ _ h₃ => ?_)
  cases existing with
  | some existing =>
      exact safe_bind (safe_require fun _ => safe_bind (safe_commitNothing h₃.track safe_answer))
  | none =>
      refine safe_prepareBatch h₃.track (fun t hmem => ?_) (by rfl) (by rfl) ?_ ?_ fun d => hJ _ _ d
      · simp only [List.mem_cons, List.not_mem_nil, or_false] at hmem
        rcases hmem with rfl | rfl | rfl <;> exact ⟨rfl, rfl⟩
      · exact split_total hsplit
      · show BatchStatus.prepared ≠ .confirmed
        decide

end CrownFi.Payouts
