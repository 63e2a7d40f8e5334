import CrownFi.Markets.Requests

/-!
# CrownFi.Markets.Books

**The books of the settlements**: runs, their items, and the evidence of the items. Every
run has items, whose payouts add up to what it distributes; every confirmed item has its
own evidence, and every evidence its item; a run is confirmed when all its items are. The
last of these is broken while the evidence of a last item is written, so the runs it does
not have to hold for (`except`) are a parameter.
-/

namespace CrownFi.Markets

open Lib CrownFi.Api

/-- The items of a run. -/
def itemsOf (db : Database) (runId : Uuid) : List SettlementItem :=
  db.items.filter (·.settlementRunId = runId)

theorem mem_itemsOf {db : Database} {runId : Uuid} {i : SettlementItem} :
    i ∈ itemsOf db runId ↔ i ∈ db.items ∧ i.settlementRunId = runId := by
  simp [itemsOf]

/-- The change of an `UPDATE .. SET status = ..` on runs. -/
abbrev setRuns (p : SettlementRun → Bool) (status : RunStatus) (view db : Database) : Database :=
  runTable.modify p ({ · with status }) view db

theorem of_find_setRuns {p : SettlementRun → Bool} {status : RunStatus} {view : Database} {rid : Uuid}
    {r' : SettlementRun} (h : runTable.find (setRuns p status view db) rid = some r') :
    ∃ r, runTable.find db rid = some r ∧ (r' = r ∨ (p r = true ∧
      rid ∈ (runTable.matching p view).map (·.id) ∧ r' = { r with status })) :=
  runTable.of_find_modify (f := ({ · with status })) (fun _ => rfl) h

/-- The evidence confirms the item: it is the item's own, and says what the item says. -/
structure Confirms (e : SettlementEvidence) (i : SettlementItem) : Prop where
  status : i.status = .confirmed
  item : e.settlementItemId = i.id
  accepted : i.acceptedEvidenceId = some e.id
  run : e.settlementRunId = i.settlementRunId
  recipient : e.recipientStellarAccountId = i.recipientStellarAccountId
  transaction : i.submittedTxHash = some e.transactionHash
  amount : e.amountMinor = i.payoutMinor

structure Books (except : Uuid → Prop) (db : Database) : Prop where
  runIds : (db.runs.map (·.id)).Nodup
  itemIds : (db.items.map (·.id)).Nodup
  evidenceItems : (db.settlementEvidence.map (·.settlementItemId)).Nodup
  owned : ∀ i ∈ db.items, ∃ r, runTable.find db i.settlementRunId = some r
  stocked : ∀ rid r, runTable.find db rid = some r → itemsOf db rid ≠ []
  balanced : ∀ rid r, runTable.find db rid = some r →
    ((itemsOf db rid).map (·.payoutMinor)).sum = r.distributableMinor
  confirmed : ∀ i ∈ db.items, i.status = .confirmed → ∃ e ∈ db.settlementEvidence, Confirms e i
  used : ∀ e ∈ db.settlementEvidence, ∃ i ∈ db.items, Confirms e i
  complete : ∀ rid r, runTable.find db rid = some r → ¬ except rid →
    (r.status = .confirmed ↔ ∀ i ∈ itemsOf db rid, i.status = .confirmed)

namespace Books

variable {except : Uuid → Prop} {db db' : Database}

/-- A change that leaves runs, items and their evidence as they are. -/
theorem of_same (h : Books except db) (hr : db'.runs = db.runs) (hi : db'.items = db.items)
    (he : db'.settlementEvidence = db.settlementEvidence) : Books except db' := by
  have hfind : ∀ rid, runTable.find db' rid = runTable.find db rid := fun rid => by
    show db'.runs.find? _ = db.runs.find? _
    rw [hr]
  have hitems : ∀ rid, itemsOf db' rid = itemsOf db rid := fun rid => by rw [itemsOf, hi, itemsOf]
  constructor
  · rw [hr]; exact h.runIds
  · rw [hi]; exact h.itemIds
  · rw [he]; exact h.evidenceItems
  · rw [hi]; simpa only [hfind] using h.owned
  · simpa only [hfind, hitems] using h.stocked
  · simpa only [hfind, hitems] using h.balanced
  · rw [hi, he]; exact h.confirmed
  · rw [hi, he]; exact h.used
  · simpa only [hfind, hitems] using h.complete

theorem mono {except' : Uuid → Prop} (h : Books except db) (hsub : ∀ rid, except rid → except' rid) :
    Books except' db :=
  { h with complete := fun rid r hr hnot => h.complete rid r hr fun he => hnot (hsub rid he) }

/-! ### Changes of runs -/

/-- A change of statuses keeps all but the last field. -/
theorem ofSetRuns (h : Books except db) {p : SettlementRun → Bool} {status : RunStatus}
    {view : Database} {except' : Uuid → Prop}
    (hcomplete : ∀ rid r, runTable.find (setRuns p status view db) rid = some r → ¬ except' rid →
      (r.status = .confirmed ↔ ∀ i ∈ itemsOf db rid, i.status = .confirmed)) :
    Books except' (setRuns p status view db) where
  runIds := by
    have hkeys : (setRuns p status view db).runs.map (·.id) = db.runs.map (·.id) :=
      runTable.keys_modify fun _ => rfl
    exact hkeys.symm ▸ h.runIds
  itemIds := h.itemIds
  evidenceItems := h.evidenceItems
  owned i hi := by
    obtain ⟨r, hr⟩ := h.owned i hi
    rw [runTable.find_modify (f := ({ · with status })) fun _ => rfl, hr]
    exact ⟨_, rfl⟩
  stocked rid r' hr' := by
    obtain ⟨r, hr, -⟩ := of_find_setRuns hr'
    exact h.stocked rid r hr
  balanced rid r' hr' := by
    obtain ⟨r, hr, rfl | ⟨-, -, rfl⟩⟩ := of_find_setRuns hr'
    · exact h.balanced rid r' hr
    · exact h.balanced rid r hr
  confirmed := h.confirmed
  used := h.used
  complete := hcomplete

/-- Neither from `confirmed` nor to it. -/
theorem moveRun (h : Books except db) {p : SettlementRun → Bool} {status : RunStatus}
    {view : Database} (hp : ∀ r, p r = true → r.status ≠ .confirmed) (hstatus : status ≠ .confirmed) :
    Books except (setRuns p status view db) := by
  refine h.ofSetRuns fun rid r' hr' hexcept => ?_
  obtain ⟨r, hr, rfl | ⟨hpr, -, rfl⟩⟩ := of_find_setRuns hr'
  · exact h.complete rid r' hr hexcept
  · refine ⟨fun hs => absurd hs hstatus, fun hall => ?_⟩
    exact absurd ((h.complete rid r hr hexcept).mpr hall) (hp r hpr)

/-- A run whose items are all confirmed is confirmed. -/
theorem closeRun {rid : Uuid} (h : Books (· = rid) db) {view : Database}
    (hall : ∀ i ∈ itemsOf db rid, i.status = .confirmed) {r₀ : SettlementRun}
    (hview : runTable.find view rid = some r₀) :
    Books (fun _ => False) (setRuns (fun r => r.id = rid && true) .confirmed view db) := by
  refine h.ofSetRuns fun rid' r' hr' _ => ?_
  obtain ⟨r, hr, rfl | ⟨hp, -, rfl⟩⟩ := of_find_setRuns hr'
  · by_cases hrid : rid' = rid
    · -- the run was matched
      subst hrid
      refine ⟨fun _ => hall, fun _ => ?_⟩
      obtain ⟨hmem, hid⟩ := runTable.find_mem hview
      have hid' : r'.id = rid' := (runTable.find_mem hr).2
      rw [runTable.find_modify (f := ({ · with status := RunStatus.confirmed })) fun _ => rfl, hr,
        Option.map_some, if_pos] at hr'
      · exact (congrArg SettlementRun.status (Option.some.inj hr')).symm
      · refine Bool.and_eq_true_iff.mpr ⟨by simp [hid'], decide_eq_true (List.mem_map.mpr
          ⟨r₀, runTable.mem_matching.mpr ⟨hmem, ?_⟩, hid.trans hid'.symm⟩)⟩
        simp only [Bool.and_true, decide_eq_true_eq]
        exact hid
    · exact h.complete rid' r' hr hrid
  · have hrid : rid' = rid := by
      simp only [Bool.and_true, decide_eq_true_eq] at hp
      exact (runTable.find_mem hr).2.symm.trans hp
    subst hrid
    exact ⟨fun _ => hall, fun _ => rfl⟩

/-- A run with an item that is not confirmed stays open. -/
theorem keepOpen {rid : Uuid} (h : Books (· = rid) db)
    (hopen : ∀ r, runTable.find db rid = some r → r.status ≠ .confirmed) {i : SettlementItem}
    (hi : i ∈ itemsOf db rid) (hstatus : i.status ≠ .confirmed) : Books (fun _ => False) db :=
  { h with
    complete := fun rid' r hr _ => by
      by_cases hrid : rid' = rid
      · subst hrid
        exact ⟨fun hs => absurd hs (hopen r hr), fun hall => absurd (hall i hi) hstatus⟩
      · exact h.complete rid' r hr hrid }

/-! ### Changes of items -/

/-- The items of a run after an update that keeps their runs. -/
theorem itemsOf_modify {p : SettlementItem → Bool} {f : SettlementItem → SettlementItem}
    {view : Database} (hrun : ∀ i, (f i).settlementRunId = i.settlementRunId) (rid : Uuid) :
    itemsOf (itemTable.modify p f view db) rid =
      updateWhere (fun i => p i && decide (i.id ∈ (itemTable.matching p view).map (·.id))) f
        (itemsOf db rid) := by
  rw [itemsOf, show (itemTable.modify p f view db).items = _ from itemTable.rows_modify, updateWhere,
    updateWhere, List.filter_map, itemsOf]
  congr 1
  refine List.filter_congr fun i _ => ?_
  simp only [Function.comp]
  split
  · rw [hrun]
  · rfl

/-- What an update of items must leave alone. -/
structure Keeps (f : SettlementItem → SettlementItem) : Prop where
  id : ∀ i, (f i).id = i.id
  run : ∀ i, (f i).settlementRunId = i.settlementRunId
  payout : ∀ i, (f i).payoutMinor = i.payoutMinor

theorem payouts_modify {p : SettlementItem → Bool} {f : SettlementItem → SettlementItem}
    {view : Database} (hf : Keeps f) (rid : Uuid) :
    (itemsOf (itemTable.modify p f view db) rid).map (·.payoutMinor) =
      (itemsOf db rid).map (·.payoutMinor) := by
  rw [itemsOf_modify hf.run]
  exact map_updateWhere hf.payout

theorem itemsOf_modify_ne_nil {p : SettlementItem → Bool} {f : SettlementItem → SettlementItem}
    {view : Database} (hf : Keeps f) (rid : Uuid) :
    itemsOf (itemTable.modify p f view db) rid ≠ [] ↔ itemsOf db rid ≠ [] := by
  rw [itemsOf_modify hf.run, updateWhere, ne_eq, List.map_eq_nil_iff]

/-- An update of items that are not confirmed, and do not become so. -/
theorem modifyOpen (h : Books except db) {p : SettlementItem → Bool}
    {f : SettlementItem → SettlementItem} {view : Database} (hf : Keeps f)
    (hp : ∀ i, p i = true → i.status ≠ .confirmed) (hopen : ∀ i, (f i).status ≠ .confirmed) :
    Books except (itemTable.modify p f view db) := by
  have hkeep : ∀ i ∈ db.items, i.status = .confirmed → i ∈ (itemTable.modify p f view db).items := by
    intro i hi hs
    refine itemTable.mem_modify_of_not hi ?_
    cases hpi : p i with
    | true => exact absurd hs (hp i hpi)
    | false => rfl
  have hback : ∀ i ∈ (itemTable.modify p f view db).items, i.status = .confirmed → i ∈ db.items := by
    intro i hi hs
    rcases itemTable.mem_modify hi with hi | ⟨i₀, -, -, rfl⟩
    · exact hi
    · exact absurd hs (hopen i₀)
  exact
    { runIds := h.runIds
      itemIds := by
        have hkeys : (itemTable.modify p f view db).items.map (·.id) = db.items.map (·.id) :=
          itemTable.keys_modify hf.id
        exact hkeys.symm ▸ h.itemIds
      evidenceItems := h.evidenceItems
      owned := fun i hi => by
        rcases itemTable.mem_modify hi with hi | ⟨i₀, hi₀, -, rfl⟩
        · exact h.owned i hi
        · rw [hf.run]
          exact h.owned i₀ hi₀
      stocked := fun rid r hr => (itemsOf_modify_ne_nil hf rid).mpr (h.stocked rid r hr)
      balanced := fun rid r hr => by
        rw [payouts_modify hf]
        exact h.balanced rid r hr
      confirmed := fun i hi hs => h.confirmed i (hback i hi hs) hs
      used := fun e he => by
        obtain ⟨i, hi, hconf⟩ := h.used e he
        exact ⟨i, hkeep i hi hconf.status, hconf⟩
      complete := fun rid r hr hexcept => by
        rw [h.complete rid r hr hexcept]
        refine ⟨fun hall i hi => ?_, fun hall i hi => ?_⟩
        · obtain ⟨hi, hrun⟩ := mem_itemsOf.mp hi
          rcases itemTable.mem_modify hi with hi | ⟨i₀, hi₀, hp₀, rfl⟩
          · exact hall i (mem_itemsOf.mpr ⟨hi, hrun⟩)
          · rw [hf.run] at hrun
            exact absurd (hall i₀ (mem_itemsOf.mpr ⟨hi₀, hrun⟩)) (hp i₀ hp₀)
        · obtain ⟨hi, hrun⟩ := mem_itemsOf.mp hi
          cases hm : p i && decide (i.id ∈ (itemTable.matching p view).map (·.id)) with
          | true =>
              have hmem : f i ∈ (itemTable.modify p f view db).items :=
                itemTable.mem_rows_modify.mpr ⟨i, hi, (if_pos hm).symm⟩
              exact absurd (hall (f i) (mem_itemsOf.mpr ⟨hmem, (hf.run i).trans hrun⟩)) (hopen i)
          | false =>
              have hmem : i ∈ (itemTable.modify p f view db).items :=
                itemTable.mem_rows_modify.mpr
                  ⟨i, hi, (if_neg fun hcond => Bool.false_ne_true (hm.symm.trans hcond)).symm⟩
              exact hall i (mem_itemsOf.mpr ⟨hmem, hrun⟩) }

/-! ### A confirmation -/

section Confirm

variable {f : SettlementItem → SettlementItem} {view : Database} {itemId : Uuid} {i i' : SettlementItem}

/-- The items after an update of one of them. -/
theorem mem_modify_one (hids : (db.items.map (·.id)).Nodup)
    (hi : itemTable.find db itemId = some i) (hview : itemTable.find view itemId = some i')
    {j : SettlementItem} :
    j ∈ (itemTable.modify (·.id = itemId) f view db).items ↔
      (j ∈ db.items ∧ j.id ≠ itemId) ∨ j = f i := by
  obtain ⟨hmem, hid⟩ := itemTable.find_mem hi
  obtain ⟨hmem', hid'⟩ := itemTable.find_mem hview
  have hmatched : itemId ∈ (itemTable.matching (·.id = itemId) view).map (·.id) :=
    List.mem_map.mpr ⟨i', itemTable.mem_matching.mpr ⟨hmem', decide_eq_true hid'⟩, hid'⟩
  rw [show j ∈ (itemTable.modify (·.id = itemId) f view db).items ↔ _ from itemTable.mem_rows_modify]
  constructor
  · rintro ⟨j₀, hj₀, rfl⟩
    split
    · rename_i hcond
      have hj : j₀.id = itemId := of_decide_eq_true (Bool.and_eq_true_iff.mp hcond).1
      have := itemTable.find_of_mem hids hj₀
      rw [show itemTable.key j₀ = itemId from hj, hi] at this
      exact .inr (congrArg f (Option.some.inj this).symm)
    · rename_i hcond
      refine .inl ⟨hj₀, fun hj => hcond ?_⟩
      exact Bool.and_eq_true_iff.mpr ⟨decide_eq_true hj, decide_eq_true (hj.symm ▸ hmatched)⟩
  · rintro (⟨hj, hne⟩ | rfl)
    · exact ⟨j, hj, by rw [if_neg]; simp [hne]⟩
    · refine ⟨i, hmem, (if_pos (Bool.and_eq_true_iff.mpr ⟨decide_eq_true hid, ?_⟩)).symm⟩
      exact decide_eq_true ((show itemTable.key i = itemId from hid).symm ▸ hmatched)

/-- Evidence for an item that had none confirms it; whether its run is complete is open. -/
theorem confirmItem (h : Books except db) (hf : Keeps f) {e : SettlementEvidence}
    (hi : itemTable.find db itemId = some i) (hview : itemTable.find view itemId = some i')
    (hopen : i.status ≠ .confirmed) (hnone : settlementEvidenceTable.find db itemId = none)
    (hconfirms : Confirms e (f i)) :
    Books (fun rid => except rid ∨ rid = i.settlementRunId)
      (itemTable.modify (·.id = itemId) f view (settlementEvidenceTable.add e db)) := by
  obtain ⟨hmem, hid⟩ := itemTable.find_mem hi
  have hitem : e.settlementItemId = itemId := by rw [hconfirms.item, hf.id, ← hid]; rfl
  have hrows (j : SettlementItem) :
      j ∈ (itemTable.modify (·.id = itemId) f view (settlementEvidenceTable.add e db)).items ↔
        (j ∈ db.items ∧ j.id ≠ itemId) ∨ j = f i := mem_modify_one h.itemIds hi hview
  have hold {j : SettlementItem} (hj : j ∈ db.items) (hs : j.status = .confirmed) : j.id ≠ itemId := by
    intro hjid
    have := itemTable.find_of_mem h.itemIds hj
    rw [show itemTable.key j = itemId from hjid, hi] at this
    obtain rfl := Option.some.inj this
    exact hopen hs
  exact
    { runIds := h.runIds
      itemIds := by
        have hkeys : (itemTable.modify (·.id = itemId) f view (settlementEvidenceTable.add e db)).items.map
            (·.id) = db.items.map (·.id) := itemTable.keys_modify hf.id
        exact hkeys.symm ▸ h.itemIds
      evidenceItems := by
        refine settlementEvidenceTable.nodup_add h.evidenceItems fun e' he' => ?_
        rw [show settlementEvidenceTable.key e = itemId from hitem]
        exact settlementEvidenceTable.find_none hnone e' he'
      owned := fun j hj => by
        cases (hrows j).mp hj with
        | inl hj => exact h.owned j hj.1
        | inr hj =>
            rw [hj, hf.run]
            exact h.owned i hmem
      stocked := fun rid r hr => (itemsOf_modify_ne_nil hf rid).mpr (h.stocked rid r hr)
      balanced := fun rid r hr => by
        rw [payouts_modify hf]
        exact h.balanced rid r hr
      confirmed := fun j hj hs => by
        cases (hrows j).mp hj with
        | inl hj =>
            obtain ⟨e', he', hconf⟩ := h.confirmed j hj.1 hs
            exact ⟨e', List.mem_append_left _ he', hconf⟩
        | inr hj => exact ⟨e, List.mem_append_right _ (List.mem_singleton.mpr rfl), hj ▸ hconfirms⟩
      used := fun e' he' => by
        cases List.mem_append.mp he' with
        | inl he' =>
            obtain ⟨j, hj, hconf⟩ := h.used e' he'
            exact ⟨j, (hrows j).mpr (.inl ⟨hj, hold hj hconf.status⟩), hconf⟩
        | inr he' =>
            obtain rfl := List.mem_singleton.mp he'
            exact ⟨f i, (hrows _).mpr (.inr rfl), hconfirms⟩
      complete := fun rid r hr hexcept => by
        obtain ⟨hexcept, hrid⟩ := not_or.mp hexcept
        rw [h.complete rid r hr hexcept]
        -- the items of other runs are the same
        have hsame (j : SettlementItem) : j ∈ itemsOf
            (itemTable.modify (·.id = itemId) f view (settlementEvidenceTable.add e db)) rid ↔
            j ∈ itemsOf db rid := by
          rw [mem_itemsOf, mem_itemsOf, hrows]
          constructor
          · rintro ⟨⟨hj, -⟩ | rfl, hrun⟩
            · exact ⟨hj, hrun⟩
            · exact absurd (hrun.symm.trans (hf.run i)) hrid
          · rintro ⟨hj, hrun⟩
            refine ⟨.inl ⟨hj, fun hjid => hrid ?_⟩, hrun⟩
            have := itemTable.find_of_mem h.itemIds hj
            rw [show itemTable.key j = itemId from hjid, hi] at this
            rw [← hrun, ← Option.some.inj this]
        simp only [hsame] }

end Confirm

/-! ### A plan -/

/-- The change of the insertions of items. -/
def addItems (items : List SettlementItem) (db : Database) : Database :=
  { db with items := db.items ++ items }

theorem addItems_nil : addItems [] db = db := by simp [addItems]

theorem addItems_cons {i : SettlementItem} {items : List SettlementItem} :
    addItems (i :: items) db = addItems items (itemTable.add i db) := by
  simp [addItems, itemTable, Table.add]

/-- Items with ids of their own. -/
structure FreshItems (items : List SettlementItem) (db : Database) : Prop where
  ids : (items.map (·.id)).Nodup
  new : ∀ i ∈ items, itemTable.find db i.id = none

/-- A new run, with its items. -/
theorem addRun (h : Books except db) {r : SettlementRun} {items : List SettlementItem}
    (hnew : runTable.find db r.id = none) (hstatus : r.status ≠ .confirmed) (hnonempty : items ≠ [])
    (hrun : ∀ i ∈ items, i.settlementRunId = r.id) (hopen : ∀ i ∈ items, i.status ≠ .confirmed)
    (hfresh : FreshItems items db)
    (hsum : (items.map (·.payoutMinor)).sum = r.distributableMinor) :
    Books except (addItems items (runTable.add r db)) := by
  have hother {rid : Uuid} (hrid : rid ≠ r.id) :
      itemsOf (addItems items (runTable.add r db)) rid = itemsOf db rid := by
    have hnone : items.filter (·.settlementRunId = rid) = [] := by
      refine List.filter_eq_nil_iff.mpr fun i hi => ?_
      simp only [hrun i hi, decide_eq_true_eq]
      exact fun heq => hrid heq.symm
    show (db.items ++ items).filter _ = _
    rw [List.filter_append, hnone, List.append_nil]
    rfl
  -- before the insertions the new run has no items
  have hown : itemsOf (addItems items (runTable.add r db)) r.id = items := by
    have hnone : db.items.filter (·.settlementRunId = r.id) = [] := by
      refine List.filter_eq_nil_iff.mpr fun i hi => ?_
      intro heq
      obtain ⟨r', hr'⟩ := h.owned i hi
      rw [of_decide_eq_true heq, hnew] at hr'
      cases hr'
    have hall : items.filter (·.settlementRunId = r.id) = items :=
      List.filter_eq_self.mpr fun i hi => decide_eq_true (hrun i hi)
    show (db.items ++ items).filter _ = _
    rw [List.filter_append, hnone, hall, List.nil_append]
  have hcases {rid : Uuid} {s : SettlementRun}
      (hs : runTable.find (addItems items (runTable.add r db)) rid = some s) :
      (runTable.find db rid = some s ∧ rid ≠ r.id) ∨ (rid = r.id ∧ s = r) := by
    have hs : runTable.find (runTable.add r db) rid = some s := hs
    cases runTable.of_find_add hs with
    | inl hold =>
        refine .inl ⟨hold, fun heq => ?_⟩
        rw [heq, hnew] at hold
        cases hold
    | inr hadded => exact .inr ⟨hadded.2.1.symm, hadded.2.2⟩
  exact
    { runIds := runTable.nodup_add h.runIds (runTable.find_none hnew)
      itemIds := by
        show ((db.items ++ items).map (·.id)).Nodup
        rw [List.map_append, List.nodup_append]
        refine ⟨h.itemIds, hfresh.ids, fun k hk k' hk' heq => ?_⟩
        obtain ⟨i, hi, rfl⟩ := List.mem_map.mp hk
        obtain ⟨j, hj, rfl⟩ := List.mem_map.mp hk'
        exact itemTable.find_none (hfresh.new j hj) i hi heq
      evidenceItems := h.evidenceItems
      owned := fun i hi => by
        cases List.mem_append.mp hi with
        | inl hold =>
            obtain ⟨s, hs⟩ := h.owned i hold
            exact ⟨s, runTable.find_add_of_some hs⟩
        | inr hadded =>
            refine ⟨r, ?_⟩
            rw [hrun i hadded]
            show runTable.find (runTable.add r db) r.id = some r
            rw [runTable.find_add, hnew, Option.none_or]
            exact if_pos rfl
      stocked := fun rid s hs => by
        cases hcases hs with
        | inl hold =>
            rw [hother hold.2]
            exact h.stocked rid s hold.1
        | inr hadded =>
            rw [hadded.1, hown]
            exact hnonempty
      balanced := fun rid s hs => by
        cases hcases hs with
        | inl hold =>
            rw [hother hold.2]
            exact h.balanced rid s hold.1
        | inr hadded =>
            rw [hadded.1, hown, hadded.2]
            exact hsum
      confirmed := fun i hi hs => by
        cases List.mem_append.mp hi with
        | inl hold => exact h.confirmed i hold hs
        | inr hadded => exact absurd hs (hopen i hadded)
      used := fun e he => by
        obtain ⟨i, hi, hconf⟩ := h.used e he
        exact ⟨i, List.mem_append_left _ hi, hconf⟩
      complete := fun rid s hs hexcept => by
        cases hcases hs with
        | inl hold =>
            rw [hother hold.2]
            exact h.complete rid s hold.1 hexcept
        | inr hadded =>
            rw [hadded.1, hown, hadded.2]
            obtain ⟨i, hi⟩ := List.exists_mem_of_ne_nil items hnonempty
            exact ⟨fun hr => absurd hr hstatus, fun hall => absurd (hall i hi) (hopen i hi)⟩ }

end Books

end CrownFi.Markets
