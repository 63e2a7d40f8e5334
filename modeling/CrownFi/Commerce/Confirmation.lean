import CrownFi.Commerce.Payments

/-!
# CrownFi.Commerce.Confirmation

**The confirmation of a payment is all or nothing.** An intent, its transaction and its
accepted result are written by statements of one transaction, each of which could find its
row changed. `Consistent` says what holds of every committed state: an intent is confirmed
exactly when its transaction is, by exactly one accepted result, and no operation on the
chain is recorded twice. Midway through a confirmation it fails for the one intent that is
being confirmed (`Midway`), whose rows are locked from the start.
-/

namespace CrownFi.Commerce.Confirmation

open Lib CrownFi.Api Reconciliation

/-! ### The states between confirmations -/

/-- The accepted results of an intent. -/
def accepted (db : Database) (intentId : Uuid) : List ReconciliationResult :=
  db.results.filter fun r => r.transactionIntentId = intentId && r.status = .accepted

/-- The transaction of an intent is confirmed. -/
def TransactionConfirmed (db : Database) (intentId : Uuid) : Prop :=
  ∃ t ∈ db.transactions, t.transactionIntentId = intentId ∧ t.status = .confirmed

/-- An intent is confirmed with its transaction and one accepted result, or it has neither. -/
structure Settled (db : Database) (i : TransactionIntent) : Prop where
  confirmed : i.status = .confirmed →
    TransactionConfirmed db i.id ∧ (accepted db i.id).length = 1
  pending : i.status ≠ .confirmed → ¬ TransactionConfirmed db i.id ∧ accepted db i.id = []

/-- The operation on the chain that evidence is about. -/
def operation (e : ChainEvidence) : String × Int := (e.transactionHash, e.operationIndex)

/-- Every intent is settled, except those that are skipped. -/
structure Consistent (skip : Uuid → Prop) (db : Database) : Prop where
  intentIds : (db.intents.map (·.id)).Nodup
  transactionIds : (db.transactions.map (·.id)).Nodup
  operations : (db.evidence.map operation).Nodup
  resultOf : (db.results.map (·.chainEvidenceId)).Nodup
  settled : ∀ i ∈ db.intents, ¬ skip i.id → Settled db i

/-- The invariant. -/
abbrev Inv : Database → Prop := Consistent fun _ => False

variable {skip : Uuid → Prop} {db : Database} {i : TransactionIntent} {t : StellarTransaction}
  {r : ReconciliationResult}

theorem Settled.congr {db' : Database} (h : Settled db i)
    (ht : TransactionConfirmed db' i.id ↔ TransactionConfirmed db i.id)
    (hr : accepted db' i.id = accepted db i.id) : Settled db' i := by
  constructor
  · rw [ht, hr]
    exact h.confirmed
  · rw [ht, hr]
    exact h.pending

theorem Consistent.weaken (h : Inv db) : Consistent skip db :=
  ⟨h.intentIds, h.transactionIds, h.operations, h.resultOf, fun i hi _ => h.settled i hi id⟩

/-- A change of other tables. -/
theorem Consistent.of_same {db' : Database} (h : Consistent skip db) (hi : db'.intents = db.intents)
    (ht : db'.transactions = db.transactions) (he : db'.evidence = db.evidence)
    (hr : db'.results = db.results) : Consistent skip db' where
  intentIds := by rw [hi]; exact h.intentIds
  transactionIds := by rw [ht]; exact h.transactionIds
  operations := by rw [he]; exact h.operations
  resultOf := by rw [hr]; exact h.resultOf
  settled i hmem hskip := by
    rw [hi] at hmem
    refine (h.settled i hmem hskip).congr ?_ ?_
    · rw [TransactionConfirmed, TransactionConfirmed, ht]
    · rw [accepted, accepted, hr]

theorem Consistent.addEvidence {e : ChainEvidence} (h : Consistent skip db)
    (hnew : operation e ∉ db.evidence.map operation) :
    Consistent skip (evidenceTable.add e db) where
  intentIds := h.intentIds
  transactionIds := h.transactionIds
  operations := by
    show ((db.evidence ++ [e]).map operation).Nodup
    rw [List.map_append, List.map_singleton, ← List.concat_eq_append]
    exact h.operations.concat hnew
  resultOf := h.resultOf
  settled i hi hskip := (h.settled i hi hskip).congr Iff.rfl rfl

theorem accepted_addResult (intentId : Uuid) : accepted (resultTable.add r db) intentId =
    accepted db intentId ++
      if r.transactionIntentId = intentId ∧ r.status = .accepted then [r] else [] := by
  show (db.results ++ [r]).filter _ = _
  rw [List.filter_append, List.filter_singleton]
  by_cases hr : r.transactionIntentId = intentId ∧ r.status = .accepted
  · simp [hr, accepted]
  · rw [if_neg hr]
    have : (decide (r.transactionIntentId = intentId) && decide (r.status = .accepted)) = false := by
      simpa using hr
    rw [this]
    rfl

theorem Consistent.addResult (h : Consistent skip db)
    (hnew : r.chainEvidenceId ∉ db.results.map (·.chainEvidenceId))
    (hskip : r.status = .accepted → skip r.transactionIntentId) :
    Consistent skip (resultTable.add r db) where
  intentIds := h.intentIds
  transactionIds := h.transactionIds
  operations := h.operations
  resultOf := by
    show ((db.results ++ [r]).map (·.chainEvidenceId)).Nodup
    rw [List.map_append, List.map_singleton, ← List.concat_eq_append]
    exact h.resultOf.concat hnew
  settled i hi hi' := by
    refine (h.settled i hi hi').congr Iff.rfl ?_
    have hother : ¬ (r.transactionIntentId = i.id ∧ r.status = .accepted) := by
      intro ⟨hof, hstatus⟩
      exact hi' (hof ▸ hskip hstatus)
    rw [accepted_addResult, if_neg hother, List.append_nil]

/-- An update that neither meets nor leaves a confirmed transaction of an intent that counts. -/
theorem Consistent.modifyTransactions {p : StellarTransaction → Bool}
    {f : StellarTransaction → StellarTransaction} {view : Database} (h : Consistent skip db)
    (hid : ∀ t, (f t).id = t.id) (hof : ∀ t, (f t).transactionIntentId = t.transactionIntentId)
    (hopen : ∀ t ∈ db.transactions, p t = true → skip t.transactionIntentId ∨
      (t.status ≠ .confirmed ∧ (f t).status ≠ .confirmed)) :
    Consistent skip (transactionTable.modify p f view db) where
  intentIds := h.intentIds
  transactionIds := by
    have hids : (transactionTable.modify p f view db).transactions.map (·.id) =
        db.transactions.map (·.id) := transactionTable.keys_modify hid
    exact hids ▸ h.transactionIds
  operations := h.operations
  resultOf := h.resultOf
  settled i hi hskip := by
    refine (h.settled i hi hskip).congr ⟨?_, ?_⟩ rfl
    · intro ⟨t, ht, hti, hts⟩
      rcases transactionTable.mem_modify ht with hold | ⟨t₀, ht₀, hp, rfl⟩
      · exact ⟨t, hold, hti, hts⟩
      · rw [hof] at hti
        rcases hopen t₀ ht₀ hp with hsk | ⟨-, hnot⟩
        · exact absurd (hti ▸ hsk) hskip
        · exact absurd hts hnot
    · intro ⟨t, ht, hti, hts⟩
      refine ⟨t, transactionTable.mem_modify_of_not ht ?_, hti, hts⟩
      by_contra hp
      rcases hopen t ht (by simpa using hp) with hsk | ⟨hnot, -⟩
      · exact hskip (hti ▸ hsk)
      · exact hnot hts

theorem Consistent.modifyIntents {p : TransactionIntent → Bool}
    {f : TransactionIntent → TransactionIntent} {view : Database} (h : Consistent skip db)
    (hid : ∀ i, (f i).id = i.id)
    (hopen : ∀ i, p i = true → skip i.id ∨ (i.status ≠ .confirmed ∧ (f i).status ≠ .confirmed)) :
    Consistent skip (intentTable.modify p f view db) where
  intentIds := by
    have hids : (intentTable.modify p f view db).intents.map (·.id) = db.intents.map (·.id) :=
      intentTable.keys_modify hid
    exact hids ▸ h.intentIds
  transactionIds := h.transactionIds
  operations := h.operations
  resultOf := h.resultOf
  settled i hi hskip := by
    rcases intentTable.mem_modify hi with hold | ⟨i₀, hi₀, hp, rfl⟩
    · exact (h.settled i hold hskip).congr Iff.rfl rfl
    · rw [hid] at hskip
      rcases hopen i₀ hp with hsk | ⟨hnot, hnot'⟩
      · exact absurd hsk hskip
      · -- neither the old row nor the new one is confirmed
        have hpending := (h.settled i₀ hi₀ hskip).pending hnot
        refine ⟨fun hc => absurd hc hnot', fun _ => ?_⟩
        rw [hid]
        exact hpending

/-! ### Midway through a confirmation -/

/-- The rows of the intent that is being confirmed; all others are settled. -/
structure Midway (i : TransactionIntent) (t : StellarTransaction) (results : List ReconciliationResult)
    (db : Database) : Prop where
  consistent : Consistent (· = i.id) db
  intent : intentTable.find db i.id = some i
  transaction : transactionTable.find db t.id = some t
  results : accepted db i.id = results

/-- Before the first change. -/
theorem Consistent.midway (h : Inv db) (hi : intentTable.find db i.id = some i)
    (ht : transactionTable.find db t.id = some t) (hopen : i.status ≠ .confirmed) :
    Midway i t [] db where
  consistent := h.weaken
  intent := hi
  transaction := ht
  results := ((h.settled i (intentTable.find_mem hi).1 id).pending hopen).2

theorem Midway.addResult (h : Midway i t [] db)
    (hnew : r.chainEvidenceId ∉ db.results.map (·.chainEvidenceId))
    (hof : r.transactionIntentId = i.id) (hstatus : r.status = .accepted) :
    Midway i t [r] (resultTable.add r db) where
  consistent := h.consistent.addResult hnew fun _ => hof
  intent := h.intent
  transaction := h.transaction
  results := by rw [accepted_addResult, h.results, if_pos ⟨hof, hstatus⟩, List.nil_append]

theorem Midway.confirmTransaction {results : List ReconciliationResult} {p : StellarTransaction → Bool}
    {f : StellarTransaction → StellarTransaction} {view : Database} (h : Midway i t results db)
    (hview : Midway i t results view) (hid : ∀ t, (f t).id = t.id)
    (hof : ∀ t, (f t).transactionIntentId = t.transactionIntentId)
    (hti : t.transactionIntentId = i.id) (hone : ∀ s, p s = true → s.id = t.id) (hp : p t = true) :
    Midway i (f t) results (transactionTable.modify p f view db) where
  consistent := by
    refine h.consistent.modifyTransactions hid hof fun s hs hps => .inl ?_
    have hfind : transactionTable.find db s.id = some s :=
      transactionTable.find_of_mem h.consistent.transactionIds hs
    rw [hone s hps, h.transaction] at hfind
    rw [← Option.some.inj hfind, hti]
  intent := h.intent
  transaction := by
    rw [hid]
    exact transactionTable.find_modify_of_find hid h.transaction hview.transaction hp
  results := h.results

theorem Midway.confirmIntent {results : List ReconciliationResult} {p : TransactionIntent → Bool}
    {f : TransactionIntent → TransactionIntent} {view : Database} (h : Midway i t results db)
    (hview : Midway i t results view) (hid : ∀ i, (f i).id = i.id)
    (hopen : ∀ j, p j = true → j.id = i.id) (hp : p i = true) :
    Midway (f i) t results (intentTable.modify p f view db) where
  consistent := by
    rw [hid]
    exact h.consistent.modifyIntents hid fun j hj => .inl (hopen j hj)
  intent := by
    rw [hid]
    exact intentTable.find_modify_of_find hid h.intent hview.intent hp
  transaction := h.transaction
  results := by
    rw [hid]
    exact h.results

/-- **After the last change** every intent is settled again. -/
theorem Midway.inv (h : Midway i t [r] db) (hi : i.status = .confirmed) (ht : t.status = .confirmed)
    (hof : t.transactionIntentId = i.id) : Inv db where
  intentIds := h.consistent.intentIds
  transactionIds := h.consistent.transactionIds
  operations := h.consistent.operations
  resultOf := h.consistent.resultOf
  settled j hj _ := by
    by_cases hid : j.id = i.id
    · have hfind : intentTable.find db j.id = some j :=
        intentTable.find_of_mem h.consistent.intentIds hj
      rw [hid, h.intent] at hfind
      obtain rfl := Option.some.inj hfind
      refine ⟨fun _ => ⟨⟨t, (transactionTable.find_mem h.transaction).1, hof, ht⟩, ?_⟩, ?_⟩
      · rw [h.results]
        rfl
      · exact fun hnot => absurd hi hnot
    · exact h.consistent.settled j hj hid

/-! ### What locks protect -/

inductive Part
  | intent (i : Option TransactionIntent)
  | transaction (t : Option StellarTransaction)
  | evidence (rows : List ChainEvidence)
  | results (rows : List ReconciliationResult)
  | other

def part (db : Database) : Row → Part
  | .intent id => .intent (intentTable.find db id)
  | .transaction id => .transaction (transactionTable.find db id)
  | .operation hash index => .evidence (db.evidence.filter (operation · = (hash, index)))
  | .resultOf evidenceId => .results (db.results.filter (·.chainEvidenceId = evidenceId))
  | _ => .other

theorem intentLayout : Layout part intentTable Part.intent where
  row _ _ := rfl
  injective _ _ h := Part.intent.inj h
  other db l k hk := by
    cases k with
    | intent id => exact absurd rfl (hk id)
    | _ => rfl

theorem transactionLayout : Layout part transactionTable Part.transaction where
  row _ _ := rfl
  injective _ _ h := Part.transaction.inj h
  other db l k hk := by
    cases k with
    | transaction id => exact absurd rfl (hk id)
    | _ => rfl

/-- No statement needs more than the invariant of its neighbours. -/
def Anything (_ _ : Database) : Prop := True

instance : IsPreorder Database Anything where
  refl _ := trivial
  trans _ _ _ _ _ := trivial

abbrev Outline : Prog Database Row Site Result → List (Lock Row) → (Database → Database) →
    (Database → Prop) → Prop :=
  Safe Inv (Forward part fun _ => Anything) fun _ _ => True

abbrev Tracks : List (Lock Row) → (Database → Database) → (Database → Prop) → Prop :=
  Track part Inv fun _ => Anything

abbrev Sound : (Database → Database) → (Database → Prop) → Prop := Keeps Inv Anything

/-- The tables that the invariant does not speak of. -/
theorem hidden {ι α : Type} {T : Table Database Row ι α}
    (h : ∀ db l, (T.put db l).intents = db.intents ∧ (T.put db l).transactions = db.transactions ∧
      (T.put db l).evidence = db.evidence ∧ (T.put db l).results = db.results) :
    Hidden part Inv Anything T where
  part_put db l k := by
    obtain ⟨hi, ht, he, hr⟩ := h db l
    cases k with
    | intent id =>
        show Part.intent ((T.put db l).intents.find? _) = Part.intent (db.intents.find? _)
        rw [hi]
    | transaction id =>
        show Part.transaction ((T.put db l).transactions.find? _) =
          Part.transaction (db.transactions.find? _)
        rw [ht]
    | operation hash index =>
        show Part.evidence ((T.put db l).evidence.filter _) = Part.evidence (db.evidence.filter _)
        rw [he]
    | resultOf evidenceId =>
        show Part.results ((T.put db l).results.filter _) = Part.results (db.results.filter _)
        rw [hr]
    | _ => rfl
  keeps db l hI := by
    obtain ⟨hi, ht, he, hr⟩ := h db l
    exact ⟨hI.of_same hi ht he hr, trivial⟩

section Statements

variable {L : List (Lock Row)} {pending : Database → Database} {A : Database → Prop}
  {e : ChainEvidence}

theorem track_addEvidence (ht : Tracks L pending A)
    (hlock : ⟨.operation e.transactionHash e.operationIndex, .update⟩ ∈ L) :
    Tracks L (fun d => evidenceTable.add e (pending d)) A := by
  refine ht.change (fun d k hk => ?_) fun k d d' heq => ?_
  · cases k with
    | operation hash index =>
        by_cases hop : operation e = (hash, index)
        · obtain ⟨rfl, rfl⟩ := Prod.mk.inj hop
          cases hk _ hlock rfl
        · show Part.evidence ((d.evidence ++ [e]).filter _) = Part.evidence (d.evidence.filter _)
          simp [List.filter_append, hop]
    | _ => rfl
  · cases k with
    | operation hash index =>
        have hsame := Part.evidence.inj heq
        show Part.evidence ((d.evidence ++ [e]).filter _) = Part.evidence ((d'.evidence ++ [e]).filter _)
        rw [List.filter_append, List.filter_append, hsame]
    | _ => exact heq

theorem track_addResult (ht : Tracks L pending A) (hlock : ⟨.resultOf r.chainEvidenceId, .update⟩ ∈ L) :
    Tracks L (fun d => resultTable.add r (pending d)) A := by
  refine ht.change (fun d k hk => ?_) fun k d d' heq => ?_
  · cases k with
    | resultOf evidenceId =>
        by_cases hof : r.chainEvidenceId = evidenceId
        · subst hof
          cases hk _ hlock rfl
        · show Part.results ((d.results ++ [r]).filter _) = Part.results (d.results.filter _)
          simp [List.filter_append, hof]
    | _ => rfl
  · cases k with
    | resultOf evidenceId =>
        have hsame := Part.results.inj heq
        show Part.results ((d.results ++ [r]).filter _) = Part.results ((d'.results ++ [r]).filter _)
        rw [List.filter_append, List.filter_append, hsame]
    | _ => exact heq

theorem safe_insertEvidence {k : PUnit → Prog Database Row Site Result} (ht : Tracks L pending A)
    (hk : Sound pending A)
    (next : ∀ L' B, Tracks L' (fun d => evidenceTable.add e (pending d)) B →
      Sound (fun d => evidenceTable.add e (pending d)) B → (∀ d, B d → A d) →
      Outline (k ⟨⟩) L' (fun d => evidenceTable.add e (pending d)) B) :
    Outline (insertEvidence e k) L pending A := by
  unfold insertEvidence
  refine ht.safe_insertRow fun db B _ _ hnew h => ?_
  have hlock : ⟨.operation e.transactionHash e.operationIndex, .update⟩ ∈
      L ++ [⟨Row.evidence e.id, .update⟩, ⟨.operation e.transactionHash e.operationIndex, .update⟩,
        ⟨.intent e.transactionIntentId, .keyShare⟩,
        ⟨.transaction e.stellarTransactionId, .keyShare⟩] :=
    List.mem_append_right _ (List.mem_cons_of_mem _ List.mem_cons_self)
  refine next _ B (track_addEvidence h.track hlock) ?_ h.before
  refine (hk.mono h.before).change fun d _ hd hIp => ⟨hIp.addEvidence ?_, trivial⟩
  -- the operation was new when the statement saw it, and its key is locked
  have hseen := Part.evidence.inj (h.seen d hd _ hlock rfl)
  intro hmem
  obtain ⟨f, hf, hop⟩ := List.mem_map.mp hmem
  have hin : f ∈ (pending d).evidence.filter (operation · = (e.transactionHash, e.operationIndex)) :=
    List.mem_filter.mpr ⟨hf, decide_eq_true hop⟩
  rw [hseen] at hin
  obtain ⟨hf', hop'⟩ := List.mem_filter.mp hin
  obtain ⟨hhash, hindex⟩ := Prod.mk.inj (of_decide_eq_true hop')
  rw [evidenceViolation, raise] at hnew
  have hany : (pending db).evidence.any (fun f => f.id = e.id ||
      (f.transactionHash = e.transactionHash && f.operationIndex = e.operationIndex)) = true :=
    List.any_eq_true.mpr ⟨f, hf', by simp [hhash, hindex]⟩
  rw [if_pos hany] at hnew
  cases hnew

theorem safe_insertResult {k : PUnit → Prog Database Row Site Result} (ht : Tracks L pending A)
    (next : ∀ L' B, Tracks L' (fun d => resultTable.add r (pending d)) B → (∀ d, B d → A d) →
      (∀ d, B d → r.chainEvidenceId ∉ (pending d).results.map (·.chainEvidenceId)) →
      Outline (k ⟨⟩) L' (fun d => resultTable.add r (pending d)) B) :
    Outline (insertResult r k) L pending A := by
  unfold insertResult
  refine ht.safe_insertRow fun db B _ _ hnew h => ?_
  have hlock : ⟨Row.resultOf r.chainEvidenceId, .update⟩ ∈
      L ++ ([⟨.result r.id, .update⟩, ⟨.resultOf r.chainEvidenceId, .update⟩,
          ⟨.intent r.transactionIntentId, .keyShare⟩, ⟨.evidence r.chainEvidenceId, .keyShare⟩] ++
        if r.status = .accepted then [⟨.acceptedResultOf r.transactionIntentId, .update⟩] else []) :=
    List.mem_append_right _ (List.mem_append_left _ (List.mem_cons_of_mem _ List.mem_cons_self))
  refine next _ B (track_addResult h.track hlock) h.before fun d hd hmem => ?_
  have hseen := Part.results.inj (h.seen d hd _ hlock rfl)
  obtain ⟨s, hs, hof⟩ := List.mem_map.mp hmem
  have hin : s ∈ (pending d).results.filter (·.chainEvidenceId = r.chainEvidenceId) :=
    List.mem_filter.mpr ⟨hs, decide_eq_true hof⟩
  rw [hseen] at hin
  obtain ⟨hs', -⟩ := List.mem_filter.mp hin
  rw [resultViolation, raise] at hnew
  have hany : (pending db).results.any (fun s => s.id = r.id ||
      s.chainEvidenceId = r.chainEvidenceId || (s.transactionIntentId = r.transactionIntentId &&
        s.status = .accepted && r.status = .accepted)) = true :=
    List.any_eq_true.mpr ⟨s, hs', by simp [hof]⟩
  rw [if_pos hany] at hnew
  cases hnew

theorem safe_requireEditor {organizationId userId : Uuid} {k : PUnit → Prog Database Row Site Result}
    (ht : Tracks L pending A) (next : Outline (k ⟨⟩) L pending A) :
    Outline (requireEditor organizationId userId k) L pending A := by
  unfold requireEditor
  refine safe_bind (safe_select ht.stable fun _ _ _ _ _ => ?_)
  exact safe_require fun _ => next

theorem safe_loadResponse {intentId : Uuid}
    {k : Option ReconciliationResult → Prog Database Row Site Result}
    (next : ∀ r, Outline (k r) [] id fun _ => True) :
    Outline (loadResponse intentId k) [] id fun _ => True := by
  unfold loadResponse
  refine safe_bind (safe_select stable_true fun _ _ _ _ _ => ?_)
  refine safe_bind (safe_require fun _ => ?_)
  exact safe_select stable_true fun _ r _ _ _ => next r

theorem expectedIntent_rows {intentId : Uuid} {db : Database} {e : ExpectedIntent} (hI : Inv db)
    (h : expectedIntent intentId db = some e) :
    intentTable.find db e.intent.id = some e.intent ∧
      transactionTable.find db e.transaction.id = some e.transaction ∧ e.intent.id = intentId ∧
        e.transaction.transactionIntentId = e.intent.id := by
  simp only [expectedIntent, Option.bind_eq_bind, Option.bind_eq_some_iff] at h
  obtain ⟨i, hi, t, ht, a, -, o, -, heq⟩ := h
  obtain rfl := Option.some.inj heq
  have hid : i.id = intentId := (intentTable.find_mem hi).2
  have hof : t.transactionIntentId = i.id := by simpa using List.find?_some ht
  have hfind : transactionTable.find db t.id = some t :=
    transactionTable.find_of_mem hI.transactionIds (List.mem_of_find?_eq_some ht)
  exact ⟨hid ▸ hi, hfind, hid, hof⟩

/-- The intent and its transaction are locked from the beginning. -/
theorem safe_expectedForUpdate {intentId : Uuid} {k : ExpectedIntent → Prog Database Row Site Result}
    (next : ∀ e L B, Tracks L id B → Sound id B → e.intent.id = intentId →
      e.transaction.transactionIntentId = e.intent.id →
      (∀ d, B d → intentTable.find d e.intent.id = some e.intent) →
      (∀ d, B d → transactionTable.find d e.transaction.id = some e.transaction) →
      Outline (k e) L id B) :
    Outline (expectedForUpdate intentId k) [] id fun _ => True := by
  unfold expectedForUpdate
  refine safe_bind (Track.start.safe_selectFor fun db B row hI _ hrow h => ?_)
  refine safe_orElse fun e he => ?_
  have hexpected : expectedIntent intentId db = some e := hrow.trans he
  obtain ⟨hintent, htransaction, hid, hof⟩ := expectedIntent_rows hI hexpected
  have hlocks : [] ++ ((expectedIntent intentId db).map (·.locks)).getD [] = e.locks := by
    rw [hexpected]
    rfl
  refine next e _ B h.track (Keeps.start.mono h.before) hid hof (fun d hd => ?_) fun d hd => ?_
  · refine ((h.seen d hd).find intentLayout (m := .update) ?_ rfl).trans hintent
    simp only [id, hlocks]
    exact List.mem_cons_self
  · refine ((h.seen d hd).find transactionLayout (m := .update) ?_ rfl).trans htransaction
    simp only [id, hlocks]
    exact List.mem_cons_of_mem _ List.mem_cons_self

/-- An update of an intent that is not being confirmed. -/
theorem safe_updateIntent {intentId : Uuid} {admits : TransactionIntent → Bool}
    {change : TransactionIntent → TransactionIntent} {k : Nat → Prog Database Row Site Result}
    (hid : ∀ i, (change i).id = i.id) (ht : Tracks L pending A)
    (next : ∀ n db L' B, Inv db → A db →
      Tracks L' (fun d => intentTable.modify (fun i => decide (i.id = intentId) && admits i) change
        (pending db) (pending d)) B → (∀ d, B d → A d) →
      Outline (k n) L' (fun d => intentTable.modify (fun i => decide (i.id = intentId) && admits i)
        change (pending db) (pending d)) B) :
    Outline (Intents.updateIntent intentId admits change k) L pending A := by
  unfold Intents.updateIntent
  refine ht.safe_update fun db B hI hA _ h => ?_
  exact next _ db _ B hI hA (h.track.modifyLocked intentLayout hid
    fun i => ⟨_, List.mem_cons_self, rfl, rfl⟩) h.before

theorem safe_updateTransaction {p : StellarTransaction → Bool}
    {change : StellarTransaction → StellarTransaction} {k : Nat → Prog Database Row Site Result}
    (hid : ∀ t, (change t).id = t.id) (ht : Tracks L pending A)
    (next : ∀ n db L' B, Inv db → A db →
      Tracks L' (fun d => transactionTable.modify p change (pending db) (pending d)) B →
      (∀ d, B d → A d) →
      Outline (k n) L' (fun d => transactionTable.modify p change (pending db) (pending d)) B) :
    Outline (updateTransaction p change k) L pending A := by
  unfold updateTransaction
  refine ht.safe_update fun db B hI hA _ h => ?_
  exact next _ db _ B hI hA (h.track.modifyLocked transactionLayout hid
    fun t => ⟨_, List.mem_singleton.mpr rfl, rfl, rfl⟩) h.before

end Statements

/-! ### The requests -/

theorem safe_recordSubmissionReceipt (actorUserId intentId : Uuid) (body : SubmissionReceiptRequest) :
    Outline (recordSubmissionReceipt actorUserId intentId body).request [] id fun _ => True := by
  unfold Handler.request recordSubmissionReceipt
  refine safe_bind (safe_ofExcept fun txHash _ => ?_)
  refine safe_bind (safe_expectedForUpdate fun expected L₁ A₁ ht₁ hk₁ _ _ _ _ => ?_)
  refine safe_bind (safe_requireEditor ht₁ ?_)
  refine safe_bind (safe_require fun _ => ?_)
  refine safe_ite (fun _ => ?_) fun _ => ?_
  · refine safe_bind (ht₁.safe_commit hk₁ ?_)
    exact safe_bind (safe_loadResponse fun _ => safe_ret)
  · refine safe_bind (safe_require fun _ => ?_)
    refine safe_bind (safe_updateTransaction (fun _ => rfl) ht₁ fun n₂ db₂ L₂ A₂ _ _ ht₂ h₂ => ?_)
    refine safe_bind (safe_updateIntent (fun _ => rfl) ht₂ fun n₃ db₃ L₃ A₃ _ _ ht₃ h₃ => ?_)
    -- what was signed is submitted, neither of which is confirmed
    refine safe_bind (ht₃.safe_commit ?_ (safe_bind (safe_loadResponse fun _ => safe_ret)))
    refine ((hk₁.mono fun d hd => h₂ d (h₃ d hd)).change fun d _ _ hIp => ?_).change
      fun d _ _ hIp => ?_
    · refine ⟨hIp.modifyTransactions (fun _ => rfl) (fun _ => rfl) fun t _ hp => .inr ?_, trivial⟩
      obtain ⟨-, hsigned⟩ := Bool.and_eq_true_iff.mp hp
      rw [of_decide_eq_true hsigned]
      simp
    · refine ⟨hIp.modifyIntents (fun _ => rfl) fun i hp => .inr ?_, trivial⟩
      obtain ⟨-, hsigned⟩ := Bool.and_eq_true_iff.mp hp
      rw [of_decide_eq_true hsigned]
      simp

/-- **The confirmation**: once the transaction and the intent are confirmed, the intent is
settled again. -/
theorem safe_confirmPaymentState {L : List (Lock Row)} {pending : Database → Database}
    {A : Database → Prop} {expected : ExpectedIntent} {k : PUnit → Prog Database Row Site Result}
    (ht : Tracks L pending A)
    (hmid : ∀ d, Inv d → A d → Midway expected.intent expected.transaction [r] (pending d))
    (hof : expected.transaction.transactionIntentId = expected.intent.id)
    (hi : expected.intent.status = .submitted) (hts : expected.transaction.status = .submitted)
    (next : ∀ L' pending' B, Tracks L' pending' B → Sound pending' B →
      Outline (k ⟨⟩) L' pending' B) :
    Outline (confirmPaymentState expected k) L pending A := by
  unfold confirmPaymentState
  refine safe_bind (safe_updateTransaction (fun _ => rfl) ht
    fun n₁ db₁ L₁ A₁ hI₁ hA₁ ht₁ h₁ => ?_)
  refine safe_bind (safe_updateIntent (fun _ => rfl) ht₁
    fun n₂ db₂ L₂ A₂ hI₂ hA₂ ht₂ h₂ => ?_)
  have hmid₁ (d : Database) (hI : Inv d) (hd : A₁ d) := (hmid d hI (h₁ d hd)).confirmTransaction
    (f := fun t => { t with status := .confirmed, failureCode := none })
    (p := fun t => t.id = expected.transaction.id && t.status = .submitted)
    (hmid db₁ hI₁ hA₁) (fun _ => rfl) (fun _ => rfl) hof
    (fun t hp => of_decide_eq_true (Bool.and_eq_true_iff.mp hp).1) (by simp [hts])
  have hmid₂ (d : Database) (hI : Inv d) (hd : A₂ d) := (hmid₁ d hI (h₂ d hd)).confirmIntent
    (f := fun i => { i with status := .confirmed, failureCode := none })
    (p := fun i => decide (i.id = expected.intent.id) && decide (i.status = .submitted))
    (hmid₁ db₂ hI₂ hA₂) (fun _ => rfl) (fun j hp => of_decide_eq_true (Bool.and_eq_true_iff.mp hp).1)
    (by simp [hi])
  have hk₂ : Sound _ A₂ := fun d hI hd => ⟨(hmid₂ d hI hd).inv rfl rfl hof, trivial⟩
  refine safe_bind (ht₂.safe_updateHidden hk₂ (hidden fun _ _ => ⟨rfl, rfl, rfl, rfl⟩)
    fun n₃ L₃ p₃ A₃ h₃ => ?_)
  refine safe_bind (h₃.track.safe_updateHidden h₃.keeps (hidden fun _ _ => ⟨rfl, rfl, rfl, rfl⟩)
    fun n₄ L₄ p₄ A₄ h₄ => ?_)
  exact safe_require fun _ => next L₄ p₄ A₄ h₄.track h₄.keeps

theorem reconcile_submitted {parseRfc3339 : String → Option Int} {e : ExpectedIntent} {o : Observed}
    {rawTx rawOp : Json} (h : reconcile parseRfc3339 e o rawTx rawOp = none) :
    e.intent.status = .submitted ∧ e.transaction.status = .submitted := by
  unfold reconcile at h
  split at h
  · cases h
  · rename_i hstatus
    obtain ⟨hintent, htransaction⟩ := not_or.mp hstatus
    exact ⟨not_not.mp hintent, not_not.mp htransaction⟩

variable {ext : External}

theorem safe_reconcileEvidence (actorUserId intentId : Uuid) (observed : Observed)
    (rawTx rawOp : Json) (ids : EvidenceIds) :
    Outline (reconcileEvidence ext actorUserId intentId observed rawTx rawOp ids).request [] id
      fun _ => True := by
  unfold Handler.request reconcileEvidence
  refine safe_bind (safe_select stable_true fun _ _ _ _ _ => ?_)
  refine safe_bind (safe_expectedForUpdate
    fun expected L₁ A₁ ht₁ hk₁ hid hof hintent htransaction => ?_)
  refine safe_bind (safe_requireEditor ht₁ ?_)
  refine safe_bind (safe_select ht₁.stable fun _ existing _ _ _ => ?_)
  cases existing with
  | some existing =>
    refine safe_bind (safe_require fun _ => ?_)
    refine safe_bind (ht₁.safe_commit hk₁ ?_)
    exact safe_bind (safe_loadResponse fun _ => safe_ret)
  | none =>
    refine safe_bind (safe_select ht₁.stable fun _ _ _ _ _ => ?_)
    refine safe_bind (safe_require fun _ => ?_)
    generalize hfailure : reconcile ext.parseRfc3339 expected observed rawTx rawOp = failure
    refine safe_bind (safe_insertEvidence ht₁ hk₁ fun L₂ A₂ ht₂ hk₂ h₂ => ?_)
    refine safe_bind (safe_insertResult ht₂ fun L₃ A₃ ht₃ h₃ hnew₃ => ?_)
    cases failure with
    | some _ =>
      -- a rejected result settles nothing
      refine safe_bind (ht₃.safe_commit ?_ (safe_bind (safe_loadResponse fun _ => safe_ret)))
      refine (hk₂.mono h₃).change fun d _ hd hIp => ⟨hIp.addResult (hnew₃ d hd) ?_, trivial⟩
      intro haccepted
      cases haccepted
    | none =>
      obtain ⟨hsubmitted, htsubmitted⟩ := reconcile_submitted hfailure
      have hopen : expected.intent.status ≠ .confirmed := by
        rw [hsubmitted]
        decide
      have hmid (d : Database) (hI : Inv d) (hd : A₃ d) :=
        ((hk₂ d hI (h₃ d hd)).1.midway (hintent d (h₂ d (h₃ d hd)))
          (htransaction d (h₂ d (h₃ d hd))) hopen).addResult (hnew₃ d hd) hid.symm rfl
      refine safe_bind (safe_confirmPaymentState ht₃ hmid hof hsubmitted htsubmitted
        fun L₄ p₄ A₄ ht₄ hk₄ => ?_)
      refine safe_bind (ht₄.safe_writeHidden hk₄ ?_ ?_ fun L₅ p₅ A₅ h₅ => ?_)
      · exact fun db k => by cases k <;> rfl
      · exact fun db hI => ⟨hI.of_same rfl rfl rfl rfl, trivial⟩
      refine safe_bind (h₅.track.safe_commit h₅.keeps ?_)
      exact safe_bind (safe_loadResponse fun _ => safe_ret)

theorem safe_recordChainEvidence (actorUserId intentId : Uuid) (body : ChainEvidenceRequest)
    (ids : EvidenceIds) :
    Outline (recordChainEvidence ext actorUserId intentId body ids).request [] id
      fun _ => True := by
  unfold Handler.request recordChainEvidence
  refine safe_bind (safe_select stable_true fun _ now _ _ _ => ?_)
  refine safe_bind (safe_ofExcept fun observed _ => ?_)
  exact safe_reconcileEvidence actorUserId intentId observed _ _ ids

theorem safe_environment (directory : Directory) (catalogue : Catalogue) :
    Outline (environment directory catalogue).request [] id fun _ => True := by
  unfold Handler.request environment
  refine safe_bind (Track.start.safe_writeHidden (R := Anything) .start ?_ ?_ fun L₁ p₁ A₁ h₁ => ?_)
  · exact fun db k => by cases k <;> rfl
  · exact fun db hI => ⟨hI.of_same rfl rfl rfl rfl, trivial⟩
  · exact safe_bind (h₁.track.safe_commit h₁.keeps safe_ret)

/-- The requests that deliver what happened on the chain, and the people, catalogue and clock. -/
def chainOperations : List Operation := [.recordSubmissionReceipt, .recordChainEvidence, .environment]

theorem safe_request {p : Prog Database Row Site Result} (h : Requests ext chainOperations p) :
    SafeRequest Inv (Forward part fun _ => Anything) (fun _ _ => True) p := by
  obtain ⟨op, hop, hrequest⟩ := h
  cases hrequest with
  | recordSubmissionReceipt => exact safe_recordSubmissionReceipt _ _ _
  | recordChainEvidence => exact safe_recordChainEvidence _ _ _ _
  | environment => exact safe_environment _ _
  | _ => simp [chainOperations] at hop

/-! ### Refusals -/

/-- The answer when one of the expected rows did not move. -/
def refused : Result := .error (.conflict "stellar_confirmation_state_changed")

open Tx in
theorem discards_loadResponse {intentId : Uuid} {created : Bool} :
    Prog.Avoids (· = refused) ((do
      let result ← loadResponse intentId
      return ⟨reconciliationHttpStatus result created, intentId⟩ : Handler Response).request) := by
  intro view
  show Prog.Avoids (· = refused) (Tx.require _ _ _)
  unfold Tx.require
  split
  · intro view'
    show ¬ _ = refused
    simp [refused]
  · show ¬ _ = refused
    simp [refused]

open Tx in
/-- **A refused confirmation commits nothing**, whatever its statements saw. -/
theorem discards_recordChainEvidence (ext : External) (actorUserId intentId : Uuid)
    (body : ChainEvidenceRequest) (ids : EvidenceIds) :
    (recordChainEvidence ext actorUserId intentId body ids).request.Discards (· = refused) := by
  unfold Handler.request recordChainEvidence
  refine discards_bind (discards_stmt fun now => ?_)
  refine discards_bind (discards_ofExcept fun observed => ?_)
  unfold reconcileEvidence
  refine discards_bind (discards_stmt fun began => ?_)
  refine discards_bind (discards_bind (discards_stmt fun row => discards_orElse fun expected => ?_))
  refine discards_bind (discards_bind (discards_stmt fun allowed => discards_require ?_))
  refine discards_bind (discards_stmt fun existing => ?_)
  cases existing with
  | some existing =>
      refine discards_bind (discards_require ?_)
      exact discards_bind (discards_commit discards_loadResponse)
  | none =>
      refine discards_bind (discards_stmt fun reconciled => ?_)
      refine discards_bind (discards_require ?_)
      unfold insertEvidence insertResult Tx.insertRow
      refine discards_bind (discards_insert ?_)
      refine discards_bind (discards_insert ?_)
      generalize reconcile ext.parseRfc3339 expected observed body.rawTransaction body.rawOperation =
        failure
      cases failure with
      | some _ => exact discards_bind (discards_commit discards_loadResponse)
      | none =>
          refine discards_bind ?_
          unfold confirmPaymentState
          refine discards_bind (discards_update fun n₁ => ?_)
          refine discards_bind (discards_update fun n₂ => ?_)
          refine discards_bind (discards_update fun n₃ => ?_)
          refine discards_bind (discards_update fun n₄ => ?_)
          refine discards_require ?_
          unfold advanceCursor Tx.write
          refine discards_bind (discards_stmt fun _ => ?_)
          exact discards_bind (discards_commit discards_loadResponse)

/-! ### All or nothing -/

/-- Nothing is confirmed yet, and the unique keys are. -/
structure Unreconciled (db : Database) : Prop where
  intentIds : (db.intents.map (·.id)).Nodup
  transactionIds : (db.transactions.map (·.id)).Nodup
  operations : (db.evidence.map operation).Nodup
  resultOf : (db.results.map (·.chainEvidenceId)).Nodup
  intents : ∀ i ∈ db.intents, i.status ≠ .confirmed
  transactions : ∀ t ∈ db.transactions, t.status ≠ .confirmed
  results : ∀ r ∈ db.results, r.status ≠ .accepted

theorem Unreconciled.inv (h : Unreconciled db) : Inv db where
  intentIds := h.intentIds
  transactionIds := h.transactionIds
  operations := h.operations
  resultOf := h.resultOf
  settled i hi _ := by
    refine ⟨fun hc => absurd hc (h.intents i hi), fun _ => ⟨?_, ?_⟩⟩
    · intro ⟨t, ht, _, hts⟩
      exact h.transactions t ht hts
    · refine List.filter_eq_nil_iff.mpr fun r hr => ?_
      have hrejected := h.results r hr
      simp [hrejected]

/-- The operation on the chain is credited to the intent, by an accepted result. -/
def Credited (db : Database) (hash : String) (index : Int) (intentId : Uuid) : Prop :=
  ∃ e ∈ db.evidence, operation e = (hash, index) ∧
    ∃ r ∈ db.results, r.chainEvidenceId = e.id ∧ r.status = .accepted ∧
      r.transactionIntentId = intentId

structure AllOrNothing (db : Database) : Prop where
  confirmed : ∀ i ∈ db.intents, i.status = .confirmed ↔
    TransactionConfirmed db i.id ∧ (accepted db i.id).length = 1
  credited : ∀ hash index a b, Credited db hash index a → Credited db hash index b → a = b

theorem Consistent.allOrNothing (h : Inv db) : AllOrNothing db where
  confirmed i hi := by
    have hsettled := h.settled i hi id
    constructor
    · exact hsettled.confirmed
    · intro ⟨ht, _⟩
      by_contra hopen
      exact (hsettled.pending hopen).1 ht
  credited hash index a b ha hb := by
    obtain ⟨e, he, hop, r, hr, hre, -, rfl⟩ := ha
    obtain ⟨e', he', hop', r', hr', hre', -, rfl⟩ := hb
    obtain rfl := List.inj_on_of_nodup_map h.operations he he' (hop.trans hop'.symm)
    obtain rfl := List.inj_on_of_nodup_map h.resultOf hr hr' (hre.trans hre'.symm)
    rfl

/-- **Chain confirmation is all or nothing**: after any sequence of receipts and evidence, in any
interleaving, an intent is confirmed exactly when its transaction is confirmed and one accepted
result refers to it, and an operation is credited to one intent at most. A confirmation that is
refused because a row did not move commits nothing, and leaves the database as it was. -/
theorem confirmation_all_or_nothing {db₀ : Database} (h₀ : Unreconciled db₀)
    {pool : Pool Database Row Site Result} {actions : List (Action Database Row Site Result)}
    (hrun : Run (Pool.Step (Requests ext chainOperations) fun _ _ => True) (Pool.idle db₀) actions
      pool) :
    AllOrNothing pool.db ∧
    ∀ (actorUserId intentId : Uuid) (body : ChainEvidenceRequest) (ids : EvidenceIds),
      (recordChainEvidence ext actorUserId intentId body ids).request.Discards (· = refused) ∧
      ∀ db db', (recordChainEvidence ext actorUserId intentId body ids).request.serve
        (fun _ _ => True) db db = some (refused, db') → db' = db := by
  constructor
  · exact (run_healthy (fun _ => safe_request) hrun (healthy_idle h₀.inv)).inv.allOrNothing
  · intro actorUserId intentId body ids
    have hdiscards := discards_recordChainEvidence ext actorUserId intentId body ids
    exact ⟨hdiscards, fun db db' hserve => hdiscards.serve hserve rfl⟩

/-! ### The confirmation of a sale -/

/-- The sale up to the signed envelope, then what the chain says of it. -/
theorem sale_confirmed : (Pool.serveAll (fun _ _ => True) shopDatabase
      [reserveSeat, openAttempt, openIntent, sendEnvelope]).any (fun signed =>
    signed.2.intents.map (fun i => (i.id, i.status)) = [(34, .signed)] &&
      signed.2.transactions.map (fun t => (t.id, t.status)) = [(35, .signed)] &&
      signed.2.evidence = [] && signed.2.results = [] &&
      (Pool.serveAll (fun _ _ => True) signed.2 [sendReceipt, sendEvidence, sendReceipt]).any
        fun later => later.2.intents.map (·.status) = [.confirmed]) = true := by
  rw [sendEnvelope_eq]
  decide +kernel

theorem unreconciled_of_signed {db : Database} {intentId transactionId : Uuid}
    (hi : db.intents.map (fun i => (i.id, i.status)) = [(intentId, .signed)])
    (ht : db.transactions.map (fun t => (t.id, t.status)) = [(transactionId, .signed)])
    (he : db.evidence = []) (hr : db.results = []) : Unreconciled db := by
  obtain ⟨i, hi', hieq⟩ := List.map_eq_singleton_iff.mp hi
  obtain ⟨t, ht', hteq⟩ := List.map_eq_singleton_iff.mp ht
  obtain ⟨-, histatus⟩ := Prod.mk.inj hieq
  obtain ⟨-, htstatus⟩ := Prod.mk.inj hteq
  constructor <;> simp [hi', ht', he, hr, histatus, htstatus]

/-- The sale's payment is confirmed, and nothing is left halfway. -/
theorem sale_all_or_nothing :
    ∃ (db₀ : Database) (pool : Pool Database Row Site Result)
      (actions : List (Action Database Row Site Result)), Unreconciled db₀ ∧
      Run (Pool.Step (Requests saleExternal chainOperations) fun _ _ => True) (Pool.idle db₀)
        actions pool ∧
      pool.db.intents.map (·.status) = [.confirmed] ∧ AllOrNothing pool.db := by
  obtain ⟨signed, -, hall⟩ := (Option.any_eq_true _ _).mp sale_confirmed
  simp only [Bool.and_eq_true, decide_eq_true_eq] at hall
  obtain ⟨⟨⟨⟨hi, ht⟩, he⟩, hr⟩, hlater⟩ := hall
  obtain ⟨later, hserved, hstatus⟩ := (Option.any_eq_true _ _).mp hlater
  have hstart := unreconciled_of_signed hi ht he hr
  have hreceipt : Requests saleExternal chainOperations sendReceipt :=
    ⟨_, by decide, .recordSubmissionReceipt 3 34 ⟨saleHash, 200, .object [("hash", .string saleHash)]⟩⟩
  have hevidence : Requests saleExternal chainOperations sendEvidence :=
    ⟨_, by decide, .recordChainEvidence 3 34 saleEvidence ⟨36, 37⟩⟩
  have hrequests : ∀ p ∈ [sendReceipt, sendEvidence, sendReceipt],
      Requests saleExternal chainOperations p := by
    simp [hreceipt, hevidence]
  obtain ⟨actions, hrun⟩ := Pool.run_of_serveAll hrequests hserved
  exact ⟨signed.2, _, actions, hstart, hrun, of_decide_eq_true hstatus,
    (confirmation_all_or_nothing hstart hrun).1⟩

end CrownFi.Commerce.Confirmation
