import CrownFi.Lib.Sums
import CrownFi.Payouts.Handlers

/-!
# CrownFi.Payouts.Invariant

**What holds of payout batches.** A batch has one transfer for each role, and they add up to its
amount; it counts its confirmed transfers, and is confirmed when all are (`Exact`). A transfer is
confirmed by exactly one accepted evidence, which agrees with it, and evidence that is accepted
confirms its transfer (`Evidenced`). A request changes one batch at a time (`settle`), and
keeps all this as soon as it does so for this batch (`Inv.settle`).
-/

namespace CrownFi.Payouts

open Lib CrownFi.Api
open CrownFi.Commerce (Asset)

/-! ### The invariant -/

/-- The evidence pays the transfer: its operation, its amount, its asset, its destination. -/
structure Pays (asset : Asset) (t : PayoutTransfer) (e : PayoutEvidence) : Prop where
  hash : t.transactionHash = some e.transactionHash
  index : t.operationIndex = some e.operationIndex
  amount : e.amountMinor = t.expectedAmountMinor
  asset : e.asset = asset
  destination : e.recipientAccount = t.recipientAccount
  successful : e.successful = true

/-- A transfer with its accepted evidence. -/
def Evidenced (asset : Asset) (t : PayoutTransfer) (accepted : List PayoutEvidence) : Prop :=
  (t.status ≠ .confirmed ∧ accepted = []) ∨
    (t.status = .confirmed ∧ ∃ e, accepted = [e] ∧ Pays asset t e)

/-- The number of confirmed transfers. -/
def confirmedCount (ts : List PayoutTransfer) : Nat := (ts.filter (·.status = .confirmed)).length

/-- A batch with its transfers. -/
structure Exact (b : PayoutBatch) (ts : List PayoutTransfer) : Prop where
  roles : ts.map (·.role) = [.candidate, .organizer, .platform]
  amount : total (·.expectedAmountMinor) ts = b.amountMinor
  counted : b.confirmedTransferCount = confirmedCount ts
  complete : b.status = .confirmed ↔ ∀ t ∈ ts, t.status = .confirmed

structure Inv (db : Database) : Prop where
  batchIds : (db.batches.map (·.id)).Nodup
  transferIds : (db.transfers.map (·.id)).Nodup
  operations : (db.evidence.map fun e => (e.transactionHash, e.operationIndex)).Nodup
  owned : ∀ t ∈ db.transfers, ∃ b, batchTable.find db t.payoutBatchId = some b
  about : ∀ e ∈ db.evidence, ∃ t ∈ db.transfers, t.id = e.payoutTransferId
  exact : ∀ bid b, batchTable.find db bid = some b → Exact b (transfersOf db bid)
  evidenced : ∀ t ∈ db.transfers, ∀ b, batchTable.find db t.payoutBatchId = some b →
    Evidenced b.asset t (acceptedOf db t.id)

/-! ### Rows of a batch -/

variable {db : Database} {bid : Uuid} {b : PayoutBatch} {t : PayoutTransfer} {e : PayoutEvidence}

theorem mem_transfersOf : t ∈ transfersOf db bid ↔ t ∈ db.transfers ∧ t.payoutBatchId = bid := by
  simp [transfersOf]

theorem mem_acceptedOf {tid : Uuid} : e ∈ acceptedOf db tid ↔
    e ∈ db.evidence ∧ e.payoutTransferId = tid ∧ e.processingStatus = .accepted := by
  simp [acceptedOf]

/-- A transfer by its id. -/
theorem Inv.transfer_eq (h : Inv db) {t' : PayoutTransfer} (ht : t ∈ db.transfers)
    (ht' : t' ∈ db.transfers) (hid : t.id = t'.id) : t = t' :=
  List.inj_on_of_nodup_map h.transferIds ht ht' hid

/-! ### Changing one batch -/

/-- A change of one batch: its row, some of its transfers, and perhaps new evidence. -/
def settle (bid : Uuid) (fb : PayoutBatch → PayoutBatch) (p : PayoutTransfer → Bool)
    (ft : PayoutTransfer → PayoutTransfer) (e : Option PayoutEvidence) (db : Database) : Database :=
  { db with
    batches := updateWhere (·.id = bid) fb db.batches
    transfers := updateWhere (fun t => t.payoutBatchId = bid && p t) ft db.transfers
    evidence := db.evidence ++ e.toList }

/-- The change keeps what identifies the rows. -/
structure KeepsKeys (fb : PayoutBatch → PayoutBatch) (ft : PayoutTransfer → PayoutTransfer) : Prop where
  batch : ∀ b, (fb b).id = b.id
  asset : ∀ b, (fb b).asset = b.asset
  transfer : ∀ t, (ft t).id = t.id
  owner : ∀ t, (ft t).payoutBatchId = t.payoutBatchId

section Settle

variable {fb : PayoutBatch → PayoutBatch} {p : PayoutTransfer → Bool}
  {ft : PayoutTransfer → PayoutTransfer} {new : Option PayoutEvidence}

theorem transfersOf_settle (hkeys : KeepsKeys fb ft) (other : Uuid) :
    transfersOf (settle bid fb p ft new db) other =
      updateWhere (fun t => t.payoutBatchId = bid && p t) ft (transfersOf db other) :=
  filter_updateWhere fun t => by rw [hkeys.owner]

theorem transfersOf_settle_self (hkeys : KeepsKeys fb ft) :
    transfersOf (settle bid fb p ft new db) bid = updateWhere p ft (transfersOf db bid) := by
  rw [transfersOf_settle hkeys]
  refine updateWhere_congr fun t ht => ?_
  rw [(mem_transfersOf.mp ht).2, decide_eq_true rfl, Bool.true_and]

theorem transfersOf_settle_ne (hkeys : KeepsKeys fb ft) {other : Uuid} (hne : other ≠ bid) :
    transfersOf (settle bid fb p ft new db) other = transfersOf db other := by
  rw [transfersOf_settle hkeys]
  refine updateWhere_eq_self fun t ht => ?_
  rw [(mem_transfersOf.mp ht).2, decide_eq_false hne, Bool.false_and]

theorem find_settle (hkeys : KeepsKeys fb ft) (other : Uuid) :
    batchTable.find (settle bid fb p ft new db) other =
      (batchTable.find db other).map fun b => if b.id = bid then fb b else b := by
  refine (find?_updateWhere (p := fun c : PayoutBatch => decide (c.id = bid))
    (q := fun c => decide (c.id = other)) fun c => ?_).trans ?_
  · rw [hkeys.batch]
  · simp only [decide_eq_true_eq]
    rfl

theorem acceptedOf_settle {tid : Uuid} : acceptedOf (settle bid fb p ft new db) tid =
    acceptedOf db tid ++ new.toList.filter fun e =>
      e.payoutTransferId = tid && e.processingStatus = .accepted := by
  rw [acceptedOf, acceptedOf, settle, List.filter_append]

theorem mem_settle_transfers (h : t ∈ (settle bid fb p ft new db).transfers) :
    ∃ t₀ ∈ db.transfers, t = if t₀.payoutBatchId = bid ∧ p t₀ = true then ft t₀ else t₀ := by
  obtain ⟨t₀, ht₀, heq⟩ := mem_updateWhere.mp h
  refine ⟨t₀, ht₀, heq.trans ?_⟩
  simp only [Bool.and_eq_true, decide_eq_true_eq]

/-- **A change of one batch keeps the invariant** if it does for this batch. -/
theorem Inv.settle (h : Inv db) (hkeys : KeepsKeys fb ft) (hb : batchTable.find db bid = some b)
    (hnew : ∀ e ∈ new, evidenceTable.find db (e.transactionHash, e.operationIndex) = none ∧
      ∃ t ∈ transfersOf db bid, t.id = e.payoutTransferId)
    (hexact : Exact (fb b) (updateWhere p ft (transfersOf db bid)))
    (hevidenced : ∀ t ∈ transfersOf db bid, Evidenced b.asset (if p t = true then ft t else t)
      (acceptedOf db t.id ++ new.toList.filter fun e =>
        e.payoutTransferId = t.id && e.processingStatus = .accepted)) :
    Inv (Payouts.settle bid fb p ft new db) where
  batchIds := by
    show ((updateWhere _ fb db.batches).map _).Nodup
    rw [map_updateWhere hkeys.batch]
    exact h.batchIds
  transferIds := by
    show ((updateWhere _ ft db.transfers).map _).Nodup
    rw [map_updateWhere hkeys.transfer]
    exact h.transferIds
  operations := by
    show ((db.evidence ++ new.toList).map _).Nodup
    cases new with
    | none => simpa using h.operations
    | some e =>
        exact evidenceTable.nodup_add (r := e) h.operations
          (evidenceTable.find_none (hnew e rfl).1)
  owned t ht := by
    obtain ⟨t₀, ht₀, rfl⟩ := mem_settle_transfers ht
    have howner : (if t₀.payoutBatchId = bid ∧ p t₀ = true then ft t₀ else t₀).payoutBatchId =
        t₀.payoutBatchId := by
      split
      · exact hkeys.owner t₀
      · rfl
    obtain ⟨c, hc⟩ := h.owned t₀ ht₀
    rw [howner, find_settle hkeys, hc]
    exact ⟨_, rfl⟩
  about e he := by
    obtain ⟨t, ht, hid⟩ : ∃ t ∈ db.transfers, t.id = e.payoutTransferId := by
      rcases List.mem_append.mp he with he | he
      · exact h.about e he
      · obtain ⟨-, t, ht, hid⟩ := hnew e (Option.mem_toList.mp he)
        exact ⟨t, (mem_transfersOf.mp ht).1, hid⟩
    refine ⟨_, mem_updateWhere.mpr ⟨t, ht, rfl⟩, ?_⟩
    split
    · exact (hkeys.transfer t).trans hid
    · exact hid
  exact other c hc := by
    rw [find_settle hkeys] at hc
    obtain ⟨c₀, hc₀, rfl⟩ := Option.map_eq_some_iff.mp hc
    have hid : c₀.id = other := (batchTable.find_mem hc₀).2
    by_cases hother : other = bid
    · subst hother
      obtain rfl := Option.some.inj (hb.symm.trans hc₀)
      rw [if_pos hid, transfersOf_settle_self hkeys]
      exact hexact
    · rw [if_neg (hid ▸ hother), transfersOf_settle_ne hkeys hother]
      exact h.exact other c₀ hc₀
  evidenced t ht c hc := by
    obtain ⟨t₀, ht₀, rfl⟩ := mem_settle_transfers ht
    by_cases hmine : t₀.payoutBatchId = bid
    · have hof := mem_transfersOf.mpr ⟨ht₀, hmine⟩
      have hid : (if t₀.payoutBatchId = bid ∧ p t₀ = true then ft t₀ else t₀).id = t₀.id := by
        split
        · exact hkeys.transfer t₀
        · rfl
      have howner : (if t₀.payoutBatchId = bid ∧ p t₀ = true then ft t₀ else t₀).payoutBatchId =
          bid := by
        split
        · exact (hkeys.owner t₀).trans hmine
        · exact hmine
      rw [howner, find_settle hkeys, hb] at hc
      obtain rfl := Option.some.inj hc
      have hasset : (if b.id = bid then fb b else b).asset = b.asset := by
        split
        · exact hkeys.asset b
        · rfl
      rw [hid, acceptedOf_settle, hasset]
      simpa only [hmine, true_and] using hevidenced t₀ hof
    · -- new evidence is about a transfer of the other batch
      have hnone : new.toList.filter (fun e => e.payoutTransferId = t₀.id &&
          e.processingStatus = .accepted) = [] := by
        refine List.filter_eq_nil_iff.mpr fun e he hcond => ?_
        obtain ⟨-, s, hs, hid⟩ := hnew e (Option.mem_toList.mp he)
        obtain ⟨hs, hsb⟩ := mem_transfersOf.mp hs
        simp only [Bool.and_eq_true, decide_eq_true_eq] at hcond
        exact hmine (h.transfer_eq hs ht₀ (hid.trans hcond.1) ▸ hsb)
      rw [if_neg fun hboth => hmine hboth.1] at hc ⊢
      rw [acceptedOf_settle, hnone, List.append_nil]
      rw [find_settle hkeys] at hc
      obtain ⟨c₀, hc₀, rfl⟩ := Option.map_eq_some_iff.mp hc
      have hne : ¬ c₀.id = bid := by
        intro heq
        exact hmine ((batchTable.find_mem hc₀).2.symm.trans heq)
      rw [if_neg hne]
      exact h.evidenced t₀ ht₀ c₀ hc₀

end Settle

/-! ### A new batch -/

/-- A new batch with its transfers. -/
def prepare (b : PayoutBatch) (ts : List PayoutTransfer) (db : Database) : Database :=
  { db with batches := db.batches ++ [b], transfers := db.transfers ++ ts }

/-- Nobody has transfers before there is a batch. -/
theorem Inv.transfersOf_none (h : Inv db) (hb : batchTable.find db bid = none) :
    transfersOf db bid = [] := by
  refine List.filter_eq_nil_iff.mpr fun t ht hcond => ?_
  obtain ⟨c, hc⟩ := h.owned t ht
  rw [of_decide_eq_true hcond, hb] at hc
  cases hc

theorem Inv.acceptedOf_none (h : Inv db) {tid : Uuid} (ht : transferTable.find db tid = none) :
    acceptedOf db tid = [] := by
  refine List.filter_eq_nil_iff.mpr fun e he hcond => ?_
  simp only [Bool.and_eq_true, decide_eq_true_eq] at hcond
  obtain ⟨t, hmem, hid⟩ := h.about e he
  exact transferTable.find_none ht t hmem (hid.trans hcond.1)

/-- **A new batch** whose transfers are all of its own and pending. -/
theorem Inv.prepare (h : Inv db) {ts : List PayoutTransfer}
    (hb : batchTable.find db b.id = none) (hids : (ts.map (·.id)).Nodup)
    (hts : ∀ t ∈ ts, t.payoutBatchId = b.id ∧ t.status = .pending ∧
      transferTable.find db t.id = none)
    (hroles : ts.map (·.role) = [.candidate, .organizer, .platform])
    (hamount : total (·.expectedAmountMinor) ts = b.amountMinor)
    (hcount : b.confirmedTransferCount = 0) (hstatus : b.status ≠ .confirmed) :
    Inv (Payouts.prepare b ts db) := by
  have hof (other : Uuid) : transfersOf (Payouts.prepare b ts db) other =
      transfersOf db other ++ ts.filter (·.payoutBatchId = other) := List.filter_append _ _
  have hfind (other : Uuid) : batchTable.find (Payouts.prepare b ts db) other =
      (batchTable.find db other).or (if b.id = other then some b else none) :=
    batchTable.find_add (r := b) other
  have hself : ts.filter (·.payoutBatchId = b.id) = ts :=
    List.filter_eq_self.mpr fun t ht => decide_eq_true (hts t ht).1
  constructor
  · exact batchTable.nodup_add h.batchIds (batchTable.find_none hb)
  · show ((db.transfers ++ ts).map _).Nodup
    rw [List.map_append]
    refine List.nodup_append.mpr ⟨h.transferIds, hids, ?_⟩
    intro k hk k' hk' heq
    obtain ⟨s, hs, rfl⟩ := List.mem_map.mp hk
    obtain ⟨t, ht, rfl⟩ := List.mem_map.mp hk'
    exact transferTable.find_none (hts t ht).2.2 s hs heq
  · exact h.operations
  · intro t ht
    rw [hfind]
    rcases List.mem_append.mp ht with ht | ht
    · obtain ⟨c, hc⟩ := h.owned t ht
      exact ⟨c, by rw [hc, Option.some_or]⟩
    · refine ⟨b, ?_⟩
      rw [(hts t ht).1, hb, Option.none_or, if_pos rfl]
  · intro e he
    obtain ⟨t, ht, hid⟩ := h.about e he
    exact ⟨t, List.mem_append_left _ ht, hid⟩
  · intro other c hc
    rw [hfind] at hc
    rw [hof]
    by_cases hother : b.id = other
    · subst hother
      rw [hb, Option.none_or, if_pos rfl] at hc
      obtain rfl := Option.some.inj hc
      rw [h.transfersOf_none hb, List.nil_append, hself]
      have hpending : ∀ t ∈ ts, t.status ≠ .confirmed := by
        intro t ht heq
        rw [(hts t ht).2.1] at heq
        cases heq
      refine ⟨hroles, hamount, ?_, fun heq => absurd heq hstatus, fun hall => ?_⟩
      · rw [hcount, confirmedCount, List.filter_eq_nil_iff.mpr, List.length_nil]
        · rfl
        · exact fun t ht heq => hpending t ht (of_decide_eq_true heq)
      · cases ts with
        | nil => cases hroles
        | cons t rest => exact absurd (hall t List.mem_cons_self) (hpending t List.mem_cons_self)
    · have hnone : ts.filter (·.payoutBatchId = other) = [] :=
        List.filter_eq_nil_iff.mpr fun t ht heq =>
          hother ((hts t ht).1.symm.trans (of_decide_eq_true heq))
      rw [if_neg hother, Option.or_none] at hc
      rw [hnone, List.append_nil]
      exact h.exact other c hc
  · intro t ht c hc
    rw [hfind] at hc
    rcases List.mem_append.mp ht with ht | ht
    · obtain ⟨c₀, hc₀⟩ := h.owned t ht
      rw [hc₀, Option.some_or] at hc
      exact h.evidenced t ht c (hc₀.trans hc)
    · refine .inl ⟨?_, h.acceptedOf_none (hts t ht).2.2⟩
      rw [(hts t ht).2.1]
      decide

end CrownFi.Payouts
