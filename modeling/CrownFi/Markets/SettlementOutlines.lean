import CrownFi.Markets.PlanOutlines
import CrownFi.Markets.StakeOutlines

/-!
# CrownFi.Markets.SettlementOutlines

**The outlines of submissions and of settlement evidence.** Both lock the item and its run
before they read anything else, so the items of the run stay as the transaction saw them:
the count of those that remain is exact when the transaction commits.
-/

namespace CrownFi.Markets

open Lib CrownFi.Api Settlement

variable {strict fixed : Prop} {ext : External}

/-! ### The rows of an item -/

/-- The context is that of the item and its run. -/
structure Describes (c : SettlementItemContext) (i : SettlementItem) (r : SettlementRun) : Prop where
  runId : c.settlementRunId = i.settlementRunId
  marketId : c.marketId = r.marketId
  kind : c.runKind = r.kind
  runStatus : c.runStatus = r.status
  recipient : c.recipientStellarAccountId = i.recipientStellarAccountId
  payout : c.payoutMinor = i.payoutMinor
  status : c.itemStatus = i.status
  transaction : c.submittedTxHash = i.submittedTxHash

theorem describes_of_context {itemId : Uuid} {db : Database} {c : SettlementItemContext}
    (h : settlementItemContext itemId db = some c) :
    ∃ i r, itemTable.find db itemId = some i ∧ runTable.find db i.settlementRunId = some r ∧
      c.itemId = itemId ∧ Describes c i r := by
  simp only [settlementItemContext, Option.bind_eq_bind, Option.bind_eq_some_iff] at h
  obtain ⟨i, hi, r, hr, a, -, heq⟩ := h
  obtain rfl := Option.some.inj heq
  exact ⟨i, r, hi, hr, (itemTable.find_mem hi).2, ⟨rfl, rfl, rfl, rfl, rfl, rfl, rfl, rfl⟩⟩

section Statements

variable {L : List (Lock Row)} {A : Database → Prop}

/-- From here on the item and its run are locked, and as they were read. -/
theorem safe_loadContextTx {itemId : Uuid} {k : SettlementItemContext → Prog Database Row Site Result}
    (next : ∀ c i r L A, Tracks strict fixed L id A → Describes c i r →
      ⟨.item itemId, .update⟩ ∈ L → ⟨.run i.settlementRunId, .update⟩ ∈ L →
      (∀ d, A d → itemTable.find d itemId = some i ∧ runTable.find d i.settlementRunId = some r) →
      Outline strict fixed (k c) L id A) :
    Outline strict fixed (loadContextTx itemId k) [] id fun _ => True := by
  refine safe_bind (Track.start.safe_selectFor fun db₁ A₁ row _ _ hrow h₁ => ?_)
  refine safe_orElse fun c hc => ?_
  have hcontext : settlementItemContext itemId db₁ = some c := hrow.trans hc
  obtain ⟨i, r, hi, hr, hid, hdescribes⟩ := describes_of_context hcontext
  have hlocks : (settlementItemContext itemId db₁).toList.flatMap (fun c =>
      [(⟨.item c.itemId, .update⟩ : Lock Row), ⟨.run c.settlementRunId, .update⟩]) =
      [⟨.item itemId, .update⟩, ⟨.run i.settlementRunId, .update⟩] := by
    rw [hcontext]
    simp [hid, hdescribes.runId]
  have hitem : (⟨.item itemId, .update⟩ : Lock Row) ∈ [] ++
      (settlementItemContext itemId (id db₁)).toList.flatMap fun c =>
        [⟨.item c.itemId, .update⟩, ⟨.run c.settlementRunId, .update⟩] := by
    rw [id, hlocks]
    simp
  have hrun : (⟨.run i.settlementRunId, .update⟩ : Lock Row) ∈ [] ++
      (settlementItemContext itemId (id db₁)).toList.flatMap fun c =>
        [⟨.item c.itemId, .update⟩, ⟨.run c.settlementRunId, .update⟩] := by
    rw [id, hlocks]
    simp
  refine next c i r _ A₁ h₁.track hdescribes hitem hrun fun d hd => ⟨?_, ?_⟩
  · exact ((h₁.seen d hd).find itemLayout hitem rfl).trans hi
  · exact ((h₁.seen d hd).find runLayout hrun rfl).trans hr

theorem safe_requireSettlementPolicy {c : SettlementItemContext} {began : Int}
    {k : PUnit → Prog Database Row Site Result} {pending : Database → Database}
    (ht : Tracks strict fixed L pending A) (next : Outline strict fixed (k ⟨⟩) L pending A) :
    Outline strict fixed (requireSettlementPolicy c began k) L pending A := by
  unfold requireSettlementPolicy
  exact safe_allowed ht next

/-- The end of a transaction that touches the items of one run, which it has locked. -/
theorem safe_commitRun {rid : Uuid} {pending : Database → Database}
    {k : PUnit → Prog Database Row Site Result} (ht : Tracks strict fixed L pending A)
    (hk : Sound strict fixed nothing (· = rid) pending A) (hlock : ⟨.run rid, .update⟩ ∈ L)
    (next : Outline strict fixed (k ⟨⟩) [] id fun _ => True) :
    Outline strict fixed (Tx.commit k) L pending A :=
  ht.safe_commitWithin hk (fun _ _ h => h.mono (fun _ h => h.elim)
    fun _ heq => heq ▸ written_of_mem hlock rfl) next

/-! ### Submissions -/

theorem keeps_submitted {hash : String} :
    Books.Keeps fun i => { i with status := .submitted, submittedTxHash := some hash } :=
  ⟨fun _ => rfl, fun _ => rfl, fun _ => rfl⟩

/-- An item that is planned becomes submitted. -/
theorem sound_submitItem {itemId : Uuid} {i : SettlementItem} (hash : String) (view : Database)
    (hknown : ∀ d, A d → itemTable.find d itemId = some i) :
    Sound strict fixed nothing (· = i.settlementRunId)
      (itemTable.modify (fun i => i.id = itemId && i.status = .planned)
        ({ · with status := .submitted, submittedTxHash := some hash }) view) A := by
  intro d hI hd
  have hopen (j : SettlementItem) (hj : (decide (j.id = itemId) && decide (j.status = .planned)) = true) :
      j.status ≠ .confirmed := by
    simp only [Bool.and_eq_true, decide_eq_true_eq] at hj
    rw [hj.2]
    decide
  have hprog : Progress strict fixed nothing (· = i.settlementRunId) d
      (itemTable.modify (fun i => i.id = itemId && i.status = .planned)
        ({ · with status := .submitted, submittedTxHash := some hash }) view d) := by
    refine .modifyItems keeps_submitted (fun j hj => ⟨rfl, rfl, rfl, fun hs => absurd hs (hopen j hj)⟩)
      fun j hj hp => ?_
    simp only [Bool.and_eq_true, decide_eq_true_eq] at hp
    have hfind : itemTable.find d j.id = some j := find?_key hI.books.itemIds hj
    rw [hp.1, hknown d hd] at hfind
    rw [Option.some.inj hfind]
  exact ⟨hI.ofBooks hprog (hI.books.modifyOpen keeps_submitted hopen fun _ hs => by cases hs) rfl rfl
    (List.Subset.refl _) fun rid r hr => ⟨r, hr, id⟩, hprog⟩

end Statements

theorem safe_recordSettlementSubmission (itemId : Uuid) (transactionHash : String) :
    SafeHandler strict fixed (recordSubmission itemId transactionHash) := by
  unfold SafeHandler SafeRequest Handler.request recordSubmission
  refine safe_bind (safe_valid fun hash _ => ?_)
  refine safe_bind (safe_select stable_true fun _ began _ _ _ => ?_)
  refine safe_bind (safe_loadContextTx fun c i r L A ht hdescribes hitem hrun hknown => ?_)
  have hk : Sound strict fixed nothing nothing id A := sound_start.mono fun _ _ => trivial
  refine safe_bind (safe_requireSettlementPolicy ht ?_)
  refine safe_bind (safe_require fun _ => ?_)
  refine safe_ite (fun _ => ?_) fun _ => ?_
  · refine safe_bind (safe_require fun _ => ?_)
    exact safe_bind (safe_commitNothing ht hk safe_ret)
  · refine safe_bind (safe_require fun _ => ?_)
    refine safe_bind (safe_bind (ht.safe_update fun db₁ A₁ _ _ _ h₁ => ?_))
    have ht₁ := h₁.track.modifyLocked itemLayout
      (f := ({ · with status := .submitted, submittedTxHash := some hash })) (fun _ => rfl)
      fun i => ⟨_, List.mem_cons_self, rfl, rfl⟩
    have hk₁ : Sound strict fixed nothing (· = i.settlementRunId) _ A₁ :=
      sound_submitItem hash db₁ fun d hd => (hknown d (h₁.before d hd)).1
    refine safe_bind (safe_bind (ht₁.safe_update fun db₂ A₂ _ _ _ h₂ => ?_))
    have ht₂ := h₂.track.modifyLocked runLayout (f := ({ · with status := .submitting }))
      (fun _ => rfl) fun r => ⟨_, List.mem_singleton.mpr rfl, rfl, rfl⟩
    refine safe_bind (safe_commitRun ht₂ ((hk₁.mono h₂.before).change fun _ _ _ hIp =>
      hIp.moveRuns (fun r hr => ?_) (by decide))
      (List.mem_append_left _ (List.mem_append_left _ hrun)) safe_ret)
    simp only [Bool.and_eq_true, decide_eq_true_eq] at hr
    rw [hr.2]
    decide

/-! ### Evidence -/

/-- An item that waits for its evidence, among the items of its run. -/
structure Awaits (itemId : Uuid) (i : SettlementItem) (r : SettlementRun) (items : List SettlementItem)
    (d : Database) : Prop where
  item : itemTable.find d itemId = some i
  run : runTable.find d i.settlementRunId = some r
  fresh : settlementEvidenceTable.find d itemId = none
  items : itemsOf d i.settlementRunId = items

section Evidence

open CrownFi.Markets.Inv (confirmedItem closedPositions)

variable {L : List (Lock Row)} {A : Database → Prop} {itemId : Uuid} {i : SettlementItem}
  {r : SettlementRun} {items : List SettlementItem} {e : SettlementEvidence}
  {f : SettlementItem → SettlementItem} {view : Database}

/-- Evidence of an item, and what it makes of the item. -/
structure Accepts (e : SettlementEvidence) (f : SettlementItem → SettlementItem) (itemId : Uuid)
    (i : SettlementItem) (view : Database) : Prop where
  keeps : Books.Keeps f
  found : itemTable.find view itemId = some i
  «open» : i.status ≠ .confirmed
  confirms : Confirms e (f i)
  lead : ∀ i, (f i).positionId = i.positionId ∧ (f i).status = .confirmed

theorem itemsOf_confirmedItem {d d' : Database} {rid : Uuid} (hf : Books.Keeps f)
    (h : itemsOf d rid = itemsOf d' rid) :
    itemsOf (confirmedItem e f itemId view d) rid = itemsOf (confirmedItem e f itemId view d') rid := by
  rw [Books.itemsOf_modify hf.run, Books.itemsOf_modify hf.run]
  exact congrArg _ h

/-- **The end of a run**: the item was the last one of its run that was not confirmed. -/
theorem safe_finalize {c : SettlementItemContext} {eventId : Uuid}
    {k : PUnit → Prog Database Row Site Result}
    (ht : Tracks strict fixed L (confirmedItem e f itemId view) A) (haccepts : Accepts e f itemId i view)
    (hawaits : ∀ d, A d → Awaits itemId i r items d)
    (hall : ∀ d, A d → ∀ j ∈ itemsOf (confirmedItem e f itemId view d) i.settlementRunId,
      j.status = .confirmed)
    (next : ∀ L' pending' B, Tracks strict fixed L' pending' B →
      Sound strict fixed nothing (· = i.settlementRunId) pending' B → L ⊆ L' →
      Outline strict fixed (k ⟨⟩) L' pending' B) :
    Outline strict fixed ((do
      updateRun i.settlementRunId (fun _ => true) .confirmed
      Settlement.closePositions r.marketId (RunKind.closes r.kind)
      settleMarket r.marketId
      insertGovernance ext.governed mapDatabaseError
        { id := eventId, organizationId := c.organizationId, marketId := r.marketId
          actorUserId := c.requestedByUserId, action := RunKind.confirmedAction r.kind
          previousStatus := some .settling, newStatus := some .settled
          reason := RunKind.confirmedReason r.kind } : Handler PUnit) k)
      L (confirmedItem e f itemId view) A := by
  refine safe_bind (safe_bind (ht.safe_update fun db₁ A₁ _ hA₁ _ h₁ => ?_))
  have hview₁ : runTable.find (confirmedItem e f itemId view db₁) i.settlementRunId = some r :=
    (hawaits db₁ hA₁).run
  generalize confirmedItem e f itemId view db₁ = view₁ at h₁ hview₁ ⊢
  have ht₁ := h₁.track.modifyLocked runLayout (f := ({ · with status := .confirmed }))
    (fun _ => rfl) fun r => ⟨_, List.mem_singleton.mpr rfl, rfl, rfl⟩
  -- a run is there already, so no position is added from here on
  refine safe_bind (safe_bind (ht₁.safe_updateKnowing (fun view d => Closing strict i.settlementRunId
    r.marketId ((positionTable.matching (fun p => p.marketId = r.marketId && p.status = .active)
      view).map (·.id)) d) ?_ (fun _ => stable_closing) fun db₂ A₂ _ _ h₂ hclosing => ?_))
  · intro d _ hd
    refine ⟨⟨r, (hawaits d (h₁.before d hd)).run, rfl⟩, fun _ pid p hp hmarket hs => ?_⟩
    obtain ⟨hmem, hid⟩ := positionTable.find_mem hp
    refine List.mem_map.mpr ⟨p, positionTable.mem_matching.mpr ⟨hmem, ?_⟩, hid⟩
    simp [hmarket, hs]
  have ht₂ := h₂.track.modifyLocked positionLayout
    (f := fun p => { p with status := RunKind.closes r.kind }) (fun _ => rfl)
    fun p => ⟨_, List.mem_singleton.mpr rfl, rfl, rfl⟩
  have hclosing (d : Database) (hd : A₂ d) : Closing strict i.settlementRunId r.marketId
      ((positionTable.matching (fun p => p.marketId = r.marketId && p.status = .active)
        (runTable.modify (fun s => s.id = i.settlementRunId && true) ({ · with status := .confirmed })
          view₁ (confirmedItem e f itemId view db₂))).map (·.id)) d := hclosing d hd
  generalize runTable.modify _ _ view₁ (confirmedItem e f itemId view db₂) = view₂ at ht₂ h₂ hclosing ⊢
  have hk₂ : Sound strict fixed nothing (· = i.settlementRunId)
      (fun d => closedPositions r.marketId (RunKind.closes r.kind) view₂
        (setRuns (fun s => s.id = i.settlementRunId && true) .confirmed view₁
          (confirmedItem e f itemId view d))) A₂ := by
    intro d hI hd
    have hd₀ := h₁.before d (h₂.before d hd)
    exact hI.confirmRun haccepts.keeps (hawaits d hd₀).item haccepts.found haccepts.open
      (hawaits d hd₀).fresh haccepts.confirms haccepts.lead (by rfl) (hawaits d hd₀).run
      hview₁ (hall d hd₀) (hclosing d hd).2
  have hrun (d : Database) (hI : Inv strict fixed d) (hd : A₂ d) : ConfirmedRun
      (closedPositions r.marketId (RunKind.closes r.kind) view₂
        (setRuns (fun s => s.id = i.settlementRunId && true) .confirmed view₁
          (confirmedItem e f itemId view d))) r.marketId := by
    have hd₀ := h₁.before d (h₂.before d hd)
    obtain ⟨hI', hprog⟩ := hk₂ d hI hd
    obtain ⟨r', hr', hlead⟩ := hprog.runs _ r (hawaits d hd₀).run
    exact ⟨_, r', hr', hlead.market, (hI'.books.complete _ r' hr' id).mpr (hall d hd₀)⟩
  refine safe_bind (safe_bind (ht₂.safe_update fun db₃ A₃ _ _ _ h₃ => ?_))
  have ht₃ := h₃.track.modifyLocked marketLayout (f := ({ · with status := .settled }))
    (fun _ => rfl) fun m => ⟨_, List.mem_singleton.mpr rfl, rfl, rfl⟩
  refine safe_insertGovernance ht₃ ((hk₂.mono h₃.before).change fun d hI hd hIp =>
    hIp.settleMarkets fun id m hm hp => ?_) fun L₄ p₄ A₄ h₄ => ?_
  · simp only [Bool.and_eq_true, decide_eq_true_eq] at hp
    have hid : id = r.marketId := (marketTable.find_mem hm).2.symm.trans hp.1
    exact hid ▸ hrun d hI (h₃.before d hd)
  · refine next L₄ p₄ A₄ h₄.track h₄.keeps fun _ hl => h₄.locks ?_
    exact List.mem_append_left _ (List.mem_append_left _ (List.mem_append_left _ hl))

theorem safe_finalizeIfComplete {c : SettlementItemContext} {eventId : Uuid}
    {k : PUnit → Prog Database Row Site Result}
    (ht : Tracks strict fixed L (confirmedItem e f itemId view) A) (haccepts : Accepts e f itemId i view)
    (hawaits : ∀ d, A d → Awaits itemId i r items d) (hdescribes : Describes c i r)
    (next : ∀ L' pending' B, Tracks strict fixed L' pending' B →
      Sound strict fixed nothing (· = i.settlementRunId) pending' B → L ⊆ L' →
      Outline strict fixed (k ⟨⟩) L' pending' B) :
    Outline strict fixed (finalizeIfComplete ext c eventId k) L (confirmedItem e f itemId view) A := by
  unfold finalizeIfComplete
  rw [hdescribes.runId, hdescribes.marketId, hdescribes.kind]
  refine safe_bind (safe_select ht.stable fun db₁ remaining _ hA₁ hremaining => ?_)
  -- the items of the run are the same at the commit
  have hsame (d : Database) (hd : A d) :
      itemsOf (confirmedItem e f itemId view d) i.settlementRunId =
        itemsOf (confirmedItem e f itemId view db₁) i.settlementRunId :=
    itemsOf_confirmedItem haccepts.keeps ((hawaits d hd).items.trans (hawaits db₁ hA₁).items.symm)
  refine safe_ite (fun hsome => ?_) fun hnone => ?_
  · have hne : (confirmedItem e f itemId view db₁).items.filter
        (fun j => j.settlementRunId = i.settlementRunId && j.status ≠ .confirmed) ≠ [] := by
      intro hnil
      rw [← hremaining, remainingItems, hnil] at hsome
      exact hsome rfl
    obtain ⟨j, hj⟩ := List.exists_mem_of_ne_nil _ hne
    simp only [List.mem_filter, Bool.and_eq_true, decide_eq_true_eq] at hj
    refine next L _ A ht (fun d hI hd => ?_) (List.Subset.refl _)
    have hmem : j ∈ itemsOf (confirmedItem e f itemId view d) i.settlementRunId := by
      rw [hsame d hd]
      exact mem_itemsOf.mpr ⟨hj.1, hj.2.1⟩
    exact hI.confirmItem haccepts.keeps (hawaits d hd).item haccepts.found haccepts.open
      (hawaits d hd).fresh haccepts.confirms haccepts.lead (by rfl) hmem hj.2.2
  · refine safe_finalize (c := c) ht haccepts hawaits (fun d hd j hj => ?_) next
    rw [hsame d hd] at hj
    obtain ⟨hmem, hrun⟩ := mem_itemsOf.mp hj
    by_contra hopen
    have hmem' : j ∈ (confirmedItem e f itemId view db₁).items.filter
        (fun j => j.settlementRunId = i.settlementRunId && j.status ≠ .confirmed) := by
      simp only [List.mem_filter, Bool.and_eq_true, decide_eq_true_eq]
      exact ⟨hmem, hrun, hopen⟩
    rw [← hremaining, remainingItems, ne_eq, not_not] at hnone
    rw [List.eq_nil_of_length_eq_zero hnone] at hmem'
    cases hmem'

theorem find_of_settlementEvidenceViolation {e : SettlementEvidence} {db : Database}
    (h : settlementEvidenceViolation e db = none) :
    settlementEvidenceTable.find db e.settlementItemId = none := by
  unfold settlementEvidenceViolation at h
  split at h
  · cases h
  · rename_i hany
    refine settlementEvidenceTable.find_none_of_any (Bool.not_eq_true _ ▸ hany) fun g hg => ?_
    have hitem : g.settlementItemId = e.settlementItemId := hg
    simp [hitem]

/-- The item of accepted evidence. -/
theorem accepts_confirmed {acceptedAt : Int} (hitem : itemTable.find view itemId = some i)
    (hstatus : i.status = .submitted) (he : e.settlementItemId = itemId)
    (hrun : e.settlementRunId = i.settlementRunId)
    (hrecipient : e.recipientStellarAccountId = i.recipientStellarAccountId)
    (htransaction : i.submittedTxHash = some e.transactionHash) (hamount : e.amountMinor = i.payoutMinor) :
    Accepts e (fun i => { i with status := .confirmed, acceptedEvidenceId := some e.id
                                 confirmedAt := some acceptedAt }) itemId i view where
  keeps := ⟨fun _ => rfl, fun _ => rfl, fun _ => rfl⟩
  found := hitem
  «open» := by rw [hstatus]; decide
  confirms := ⟨rfl, he.trans (itemTable.find_mem hitem).2.symm, rfl, hrun, hrecipient, htransaction,
    hamount⟩
  lead _ := ⟨rfl, rfl⟩

end Evidence

section Payout

variable {L : List (Lock Row)} {A : Database → Prop}

theorem safe_acceptPayout {c : SettlementItemContext} {payout : ObservedPayout} {acceptedAt : Int}
    {itemId : Uuid} {ids : SettlementIds} {i : SettlementItem} {r : SettlementRun}
    (ht : Tracks strict fixed L id A) (hdescribes : Describes c i r)
    (hrun : ⟨.run i.settlementRunId, .update⟩ ∈ L)
    (hknown : ∀ d, A d → itemTable.find d itemId = some i ∧ runTable.find d i.settlementRunId = some r)
    (hstatus : i.status = .submitted) (htransaction : i.submittedTxHash = some payout.transactionHash)
    (hamount : payout.amountMinor = i.payoutMinor) :
    Outline strict fixed (acceptPayout ext c payout acceptedAt itemId ids fun r => .ret (.ok r)) L id A := by
  unfold acceptPayout
  refine safe_bind (ht.safe_insertRow fun db₁ A₁ _ hA₁ hv h₁ => ?_)
  generalize he : (SettlementEvidence.mk ids.evidence _ _ _ _ _ _ _ _ _ _) = e at *
  have hitem : e.settlementItemId = itemId := by rw [← he]
  have hnone (d : Database) (hd : A₁ d) : settlementEvidenceTable.find d itemId = none := by
    have hseen := (h₁.seen d hd).find settlementEvidenceLayout (i := itemId) (m := .update)
      (by simp [settlementEvidenceTable, hitem]) rfl
    exact hseen.trans (hitem ▸ find_of_settlementEvidenceViolation (raise_eq_none.mp hv))
  have ht₁ := h₁.track.add settlementEvidenceLayout (r := e) (by simp [settlementEvidenceTable])
  -- the items of the run, from here to the commit
  refine safe_bind (safe_bind (ht₁.safe_updateKnowing
    (fun db d => itemsOf d i.settlementRunId = itemsOf db i.settlementRunId) (fun _ _ _ => rfl)
    (fun db => stable_items (List.mem_append_left _ hrun) rfl _) fun db₂ A₂ _ hA₂ h₂ hitems => ?_))
  have hfound : itemTable.find (settlementEvidenceTable.add e db₂) itemId = some i :=
    (hknown db₂ (h₁.before db₂ hA₂)).1
  have haccepts : Accepts e (fun i => { i with
      status := .confirmed, acceptedEvidenceId := some ids.evidence
      confirmedAt := some acceptedAt }) itemId i (settlementEvidenceTable.add e db₂) := by
    have hid : e.id = ids.evidence := by rw [← he]
    rw [← hid]
    refine accepts_confirmed hfound hstatus hitem ?_ ?_ ?_ ?_
    · rw [← he, hdescribes.runId]
    · rw [← he, hdescribes.recipient]
    · rw [← he, htransaction]
    · rw [← he, hamount]
  have ht₂ := h₂.track.modifyLocked itemLayout (f := fun i => { i with
      status := .confirmed, acceptedEvidenceId := some ids.evidence
      confirmedAt := some acceptedAt }) (fun _ => rfl) fun i => ⟨_, List.mem_singleton.mpr rfl, rfl, rfl⟩
  have hawaits (d : Database) (hd : A₂ d) : Awaits itemId i r (itemsOf db₂ i.settlementRunId) d := by
    obtain ⟨hi, hr⟩ := hknown d (h₁.before d (h₂.before d hd))
    exact ⟨hi, hr, hnone d (h₂.before d hd), hitems d hd⟩
  refine safe_bind (safe_finalizeIfComplete ht₂ haccepts hawaits hdescribes
    fun L₃ p₃ A₃ ht₃ hk₃ hsub => ?_)
  refine safe_bind (ht₃.safe_selectFor fun db₄ A₄ evidence _ _ _ h₄ => ?_)
  refine safe_bind (safe_orElse fun evidence _ => ?_)
  refine safe_bind (safe_commitRun h₄.track (hk₃.mono h₄.before) (List.mem_append_left _ (hsub ?_))
    safe_ret)
  exact List.mem_append_left _ (List.mem_append_left _ hrun)

end Payout

theorem safe_acceptSettlementEvidence (itemId : Uuid) (body : SettlementEvidenceRequest)
    (ids : SettlementIds) :
    SafeHandler strict fixed (acceptSettlementEvidence ext itemId body ids) := by
  unfold SafeHandler SafeRequest Handler.request acceptSettlementEvidence
  refine safe_bind (safe_valid fun payout _ => ?_)
  refine safe_bind (safe_select stable_true fun _ began _ _ _ => ?_)
  refine safe_bind (safe_loadContextTx fun c i r L A ht hdescribes _ hrun hknown => ?_)
  have hk : Sound strict fixed nothing nothing id A := sound_start.mono fun _ _ => trivial
  refine safe_bind (safe_requireSettlementPolicy ht ?_)
  refine safe_bind (ht.safe_selectFor fun db₁ A₁ existing _ _ _ h₁ => ?_)
  cases existing with
  | some existing =>
    refine safe_bind (safe_require fun _ => ?_)
    exact safe_bind (safe_commitNothing h₁.track (hk.mono h₁.before) safe_ret)
  | none =>
    refine safe_bind (safe_require fun hsubmitted => ?_)
    refine safe_bind (safe_require fun hmatches => ?_)
    simp only [Bool.and_eq_true, decide_eq_true_eq] at hsubmitted hmatches
    refine safe_bind (safe_select h₁.track.stable fun _ acceptedAt _ _ _ => ?_)
    refine safe_acceptPayout h₁.track hdescribes (List.mem_append_left _ hrun)
      (fun d hd => hknown d (h₁.before d hd)) ?_ ?_ ?_
    · rw [← hdescribes.status, hsubmitted.1]
    · rw [← hdescribes.transaction, hsubmitted.2]
    · rw [← hdescribes.payout, hmatches.2]

/-! ### Every request -/

/-- **Every request of the markets keeps the invariant.** -/
theorem safe_request {operations : List Operation} (hfixed : fixed → .transitionMarket ∉ operations)
    {p : Prog Database Row Site Result} (h : Requests ext operations p) :
    SafeRequest (Inv strict fixed) (Forward part (Rely strict fixed)) (Condition strict fixed) p := by
  obtain ⟨operation, hmem, hp⟩ := h
  cases hp with
  | createMarket => exact safe_createMarket _ _ _
  | recordPolicyDecision => exact safe_recordPolicyDecision _ _ _ _
  | transitionMarket => exact safe_transitionMarket (fun hf => hfixed hf hmem) _ _ _ _
  | createStakeIntent => exact safe_createStakeIntent _ _ _ _ _
  | getMarketIntent => exact safe_getMarketIntent _ _
  | recordStakeSubmission => exact safe_recordStakeSubmission _ _ _
  | acceptPositionEvidence => exact safe_acceptPositionEvidence _ _ _
  | createSettlementPlan => exact safe_createSettlementPlan _ _ _ _
  | recordSettlementSubmission => exact safe_recordSettlementSubmission _ _
  | acceptSettlementEvidence => exact safe_acceptSettlementEvidence _ _ _
  | environment => exact safe_environment _ _ _

end CrownFi.Markets
