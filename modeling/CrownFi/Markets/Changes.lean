import CrownFi.Markets.Invariant

/-!
# CrownFi.Markets.Changes

**What each change of the tables does to the invariant.** A plan writes a run with its
items, and the last evidence of a run writes an item, the run and the positions of the
market: in between the invariant does not hold, so each is one change here.
-/

namespace CrownFi.Markets

open Lib CrownFi.Api

variable {strict fixed : Prop} {adds touches : Uuid → Prop} {db db' : Database}

/-! ### Progress, change by change -/

namespace Progress

/-- A change that leaves markets, positions, runs and items as they are. -/
theorem of_same (hm : db'.markets = db.markets) (hp : db'.positions = db.positions)
    (hr : db'.runs = db.runs) (hi : db'.items = db.items) :
    Progress strict fixed adds touches db db' := by
  have hpf : ∀ pid, positionTable.find db' pid = positionTable.find db pid := fun pid => by
    show db'.positions.find? _ = db.positions.find? _
    rw [hp]
  have hrf : ∀ rid, runTable.find db' rid = runTable.find db rid := fun rid => by
    show db'.runs.find? _ = db.runs.find? _
    rw [hr]
  exact
    { markets := .of_find fun id => by
        show db'.markets.find? _ = db.markets.find? _
        rw [hm]
      positions := .of_find hpf
      runs := .of_find hrf
      items := .of_find fun id => by
        show db'.items.find? _ = db.items.find? _
        rw [hi]
      keptPositions := fun pid p h _ => ⟨p, (hpf pid).symm.trans h⟩
      keptRuns := fun rid r h _ => ⟨r, (hrf rid).symm.trans h⟩
      untouched := fun rid _ => by rw [itemsOf, hi, itemsOf]
      timely := fun _ pid p h => .inl ⟨p, (hpf pid).symm.trans h⟩ }

theorem addMarket {m : Market} : Progress strict fixed adds touches db (marketTable.add m db) where
  markets := .add
  positions := .refl
  runs := .refl
  items := .refl
  keptPositions _ p hp _ := ⟨p, hp⟩
  keptRuns _ r hr _ := ⟨r, hr⟩
  untouched _ _ := rfl
  timely _ _ p hp := .inl ⟨p, hp⟩

theorem modifyMarkets {p : Market → Bool} {f : Market → Market} {view : Database}
    (hf : ∀ m, (f m).id = m.id)
    (hwinner : fixed → ∀ m, p m = true → (f m).winningOutcomeId = m.winningOutcomeId) :
    Progress strict fixed adds touches db (marketTable.modify p f view db) where
  markets := .modify hf fun m hm hfixed => hwinner hfixed m hm
  positions := .refl
  runs := .refl
  items := .refl
  keptPositions _ p hp _ := ⟨p, hp⟩
  keptRuns _ r hr _ := ⟨r, hr⟩
  untouched _ _ := rfl
  timely _ _ p hp := .inl ⟨p, hp⟩

/-- The change of an `UPDATE .. SET status = ..` on active positions. -/
theorem closePositions {p : Position → Bool} {status : PositionStatus} {view : Database}
    (hp : ∀ q, p q = true → q.status = .active) :
    Progress strict fixed adds touches db (positionTable.modify p ({ · with status }) view db) where
  markets := .refl
  positions := .modify (fun _ => rfl) fun q hq =>
    ⟨rfl, rfl, rfl, fun hne => absurd (hp q hq) hne⟩
  runs := .refl
  items := .refl
  keptPositions pid q hq _ := by
    obtain ⟨q₀, hq₀, -⟩ := positionTable.of_find_modify (f := ({ · with status })) (fun _ => rfl) hq
    exact ⟨q₀, hq₀⟩
  keptRuns _ r hr _ := ⟨r, hr⟩
  untouched _ _ := rfl
  timely _ pid q hq := by
    obtain ⟨q₀, hq₀, -⟩ := positionTable.of_find_modify (f := ({ · with status })) (fun _ => rfl) hq
    exact .inl ⟨q₀, hq₀⟩

theorem addPosition {p : Position} (hadds : adds p.marketId) (hnew : strict → NoRun db p.marketId) :
    Progress strict fixed adds touches db (positionTable.add p db) where
  markets := .refl
  positions := .add
  runs := .refl
  items := .refl
  keptPositions pid q hq hnot := by
    cases positionTable.of_find_add hq with
    | inl hold => exact ⟨q, hold⟩
    | inr hadded => exact absurd (hadded.2.2 ▸ hadds) hnot
  keptRuns _ r hr _ := ⟨r, hr⟩
  untouched _ _ := rfl
  timely hstrict pid q hq := by
    cases positionTable.of_find_add hq with
    | inl hold => exact .inl ⟨q, hold⟩
    | inr hadded => exact .inr (hadded.2.2 ▸ hnew hstrict)

theorem setRuns {p : SettlementRun → Bool} {status : RunStatus} {view : Database}
    (hp : ∀ r, p r = true → r.status = .confirmed → status = .confirmed) :
    Progress strict fixed adds touches db (Markets.setRuns p status view db) where
  markets := .refl
  positions := .refl
  runs := .modify (fun _ => rfl) fun r hr => ⟨rfl, rfl, rfl, hp r hr⟩
  items := .refl
  keptPositions _ q hq _ := ⟨q, hq⟩
  keptRuns rid r hr _ := by
    obtain ⟨r₀, hr₀, -⟩ := of_find_setRuns hr
    exact ⟨r₀, hr₀⟩
  untouched _ _ := rfl
  timely _ _ q hq := .inl ⟨q, hq⟩

theorem addRun {r : SettlementRun} (hadds : adds r.marketId) :
    Progress strict fixed adds touches db (runTable.add r db) where
  markets := .refl
  positions := .refl
  runs := .add
  items := .refl
  keptPositions _ q hq _ := ⟨q, hq⟩
  keptRuns rid s hs hnot := by
    cases runTable.of_find_add hs with
    | inl hold => exact ⟨s, hold⟩
    | inr hadded => exact absurd (hadded.2.2 ▸ hadds) hnot
  untouched _ _ := rfl
  timely _ _ q hq := .inl ⟨q, hq⟩

theorem addItems {items : List SettlementItem} (htouches : ∀ i ∈ items, touches i.settlementRunId) :
    Progress strict fixed adds touches db (Books.addItems items db) where
  markets := .refl
  positions := .refl
  runs := .refl
  items id i hi := by
    refine ⟨i, ?_, refl_of SettlementItem.Leads i⟩
    show (db.items ++ items).find? _ = some i
    rw [List.find?_append, show db.items.find? _ = some i from hi, Option.some_or]
  keptPositions _ q hq _ := ⟨q, hq⟩
  keptRuns _ r hr _ := ⟨r, hr⟩
  untouched rid hnot := by
    have hnone : items.filter (·.settlementRunId = rid) = [] := by
      refine List.filter_eq_nil_iff.mpr fun i hi heq => hnot ?_
      exact of_decide_eq_true heq ▸ htouches i hi
    show (db.items ++ items).filter _ = _
    rw [List.filter_append, hnone, List.append_nil]
    rfl
  timely _ _ q hq := .inl ⟨q, hq⟩

/-- An update of items of runs that may be touched. -/
theorem modifyItems {p : SettlementItem → Bool} {f : SettlementItem → SettlementItem} {view : Database}
    (hf : Books.Keeps f) (hlead : ∀ i : SettlementItem, p i = true → i.Leads (f i))
    (htouches : ∀ i ∈ db.items, p i = true → touches i.settlementRunId) :
    Progress strict fixed adds touches db (itemTable.modify p f view db) where
  markets := .refl
  positions := .refl
  runs := .refl
  items := .modify hf.id hlead
  keptPositions _ q hq _ := ⟨q, hq⟩
  keptRuns _ r hr _ := ⟨r, hr⟩
  untouched rid hnot := by
    rw [Books.itemsOf_modify hf.run]
    refine updateWhere_eq_self fun i hi => ?_
    obtain ⟨hmem, hrun⟩ := mem_itemsOf.mp hi
    cases hpi : p i with
    | false => rfl
    | true => exact absurd (hrun ▸ htouches i hmem hpi) hnot
  timely _ _ q hq := .inl ⟨q, hq⟩

end Progress

/-! ### The invariant, change by change -/

namespace Inv

/-- A change of evidence of positions and of the books: what it confirms is all that is new. -/
theorem ofBooks (h : Inv strict fixed db) (hprog : Progress strict fixed adds touches db db')
    (hbooks : Books (fun _ => False) db') (hm : db'.markets = db.markets)
    (hp : db'.positions = db.positions) (he : db.positionEvidence ⊆ db'.positionEvidence)
    (hr : ∀ rid r', runTable.find db' rid = some r' →
      ∃ r, runTable.find db rid = some r ∧ (r'.status = .confirmed → r.status = .confirmed)) :
    Inv strict fixed db' := by
  have hmf : ∀ id, marketTable.find db' id = marketTable.find db id := fun id => by
    show db'.markets.find? _ = db.markets.find? _
    rw [hm]
  have hpf : ∀ pid, positionTable.find db' pid = positionTable.find db pid := fun pid => by
    show db'.positions.find? _ = db.positions.find? _
    rw [hp]
  refine h.step hprog hbooks (hm ▸ h.marketIds) (hp ▸ h.positionIds) ?_ ?_ ?_ ?_ ?_ ?_ ?_
  · rw [hp]
    intro p hmem
    obtain ⟨e, hmem', heq⟩ := h.evidenced p hmem
    exact ⟨e, he hmem', heq⟩
  · exact fun _ id m hfind hstatus => .inl ⟨m, (hmf id).symm.trans hfind, hstatus⟩
  · intro hstrict id m hfind hfinal pid p hpfind
    rw [hmf] at hfind
    rw [hpf] at hpfind
    exact h.final hstrict id m hfind hfinal pid p hpfind
  · intro _ rid r' hfind _
    obtain ⟨r, hr, -⟩ := hr rid r' hfind
    exact .inl ⟨r, hr⟩
  · intro _ rid r' hfind
    obtain ⟨r, hr, -⟩ := hr rid r' hfind
    exact .inl ⟨r, hr⟩
  · intro _ rid r' hfind hstatus
    obtain ⟨r, hr, hconfirmed⟩ := hr rid r' hfind
    exact .inl ⟨r, hr, hconfirmed hstatus⟩
  · exact fun _ pid p kind hfind _ => .inl ⟨p, (hpf pid).symm.trans hfind, rfl⟩

/-- A change of none of these, but for more evidence of positions. -/
theorem of_same (h : Inv strict fixed db) (hm : db'.markets = db.markets)
    (hp : db'.positions = db.positions) (he : db.positionEvidence ⊆ db'.positionEvidence)
    (hr : db'.runs = db.runs) (hi : db'.items = db.items)
    (hs : db'.settlementEvidence = db.settlementEvidence) :
    Inv strict fixed db' ∧ Progress strict fixed adds touches db db' := by
  have hprog : Progress strict fixed adds touches db db' := .of_same hm hp hr hi
  refine ⟨h.ofBooks hprog (h.books.of_same hr hi hs) hm hp he fun rid r hfind => ⟨r, ?_, id⟩, hprog⟩
  show db.runs.find? _ = some r
  rw [← hr]
  exact hfind

/-- Runs that move on, neither from `confirmed` nor to it. -/
theorem moveRuns (h : Inv strict fixed db) {p : SettlementRun → Bool} {status : RunStatus}
    {view : Database} (hp : ∀ r, p r = true → r.status ≠ .confirmed) (hstatus : status ≠ .confirmed) :
    Inv strict fixed (setRuns p status view db) ∧
      Progress strict fixed adds touches db (setRuns p status view db) := by
  have hprog : Progress strict fixed adds touches db (setRuns p status view db) :=
    .setRuns fun r hr hs => absurd hs (hp r hr)
  refine ⟨h.ofBooks hprog (h.books.moveRun hp hstatus) rfl rfl (List.Subset.refl _)
    fun rid r' hr' => ?_, hprog⟩
  obtain ⟨r, hr, rfl | ⟨-, -, rfl⟩⟩ := of_find_setRuns hr'
  · exact ⟨_, hr, id⟩
  · exact ⟨r, hr, fun hs => absurd hs hstatus⟩

theorem addMarket (h : Inv strict fixed db) {m : Market} (hnew : marketTable.find db m.id = none)
    (hstatus : m.status = .draft) :
    Inv strict fixed (marketTable.add m db) ∧
      Progress strict fixed adds touches db (marketTable.add m db) := by
  have hprog : Progress strict fixed adds touches db (marketTable.add m db) := .addMarket
  refine ⟨h.step hprog (h.books.of_same rfl rfl rfl) ?_ h.positionIds h.evidenced ?_ ?_
    (fun _ rid r hfind _ => .inl ⟨r, hfind⟩) (fun _ rid r hfind => .inl ⟨r, hfind⟩)
    (fun _ rid r hfind hs => .inl ⟨r, hfind, hs⟩) (fun _ pid p kind hfind _ => .inl ⟨p, hfind, rfl⟩),
    hprog⟩
  · exact marketTable.nodup_add h.marketIds (marketTable.find_none hnew)
  · intro _ id m' hfind hs
    cases marketTable.of_find_add hfind with
    | inl hold => exact .inl ⟨m', hold, hs⟩
    | inr hadded =>
        rw [hadded.2.2, hstatus] at hs
        cases hs
  · intro hstrict id m' hfind hfinal
    cases marketTable.of_find_add hfind with
    | inl hold => exact h.final hstrict id m' hold hfinal
    | inr hadded =>
        rw [hadded.2.2, hstatus] at hfinal
        exact absurd hfinal (by decide)

/-- Markets move: to an end only when a run is confirmed and nothing is active. -/
theorem modifyMarkets (h : Inv strict fixed db) {p : Market → Bool} {f : Market → Market}
    {view : Database} (hf : ∀ m, (f m).id = m.id)
    (hwinner : fixed → ∀ m, p m = true → (f m).winningOutcomeId = m.winningOutcomeId)
    (hsettled : strict → ∀ id m, marketTable.find db id = some m → p m = true →
      id ∈ (marketTable.matching p view).map (·.id) → (f m).status = .settled → ConfirmedRun db id)
    (hfinal : strict → ∀ id m, marketTable.find db id = some m → p m = true →
      id ∈ (marketTable.matching p view).map (·.id) → (f m).status.Final → NoActive db id) :
    Inv strict fixed (marketTable.modify p f view db) ∧
      Progress strict fixed adds touches db (marketTable.modify p f view db) := by
  have hprog : Progress strict fixed adds touches db (marketTable.modify p f view db) :=
    .modifyMarkets hf hwinner
  refine ⟨h.step hprog (h.books.of_same rfl rfl rfl) ?_ h.positionIds h.evidenced ?_ ?_
    (fun _ rid r hfind _ => .inl ⟨r, hfind⟩) (fun _ rid r hfind => .inl ⟨r, hfind⟩)
    (fun _ rid r hfind hs => .inl ⟨r, hfind, hs⟩) (fun _ pid p kind hfind _ => .inl ⟨p, hfind, rfl⟩),
    hprog⟩
  · have hkeys : (marketTable.modify p f view db).markets.map (·.id) = db.markets.map (·.id) :=
      marketTable.keys_modify hf
    exact hkeys.symm ▸ h.marketIds
  · intro hstrict id m' hfind hs
    obtain ⟨m, hm, rfl | ⟨hp, hmem, rfl⟩⟩ := marketTable.of_find_modify hf hfind
    · exact .inl ⟨_, hm, hs⟩
    · exact .inr (hsettled hstrict id m hm hp hmem hs)
  · intro hstrict id m' hfind hs
    obtain ⟨m, hm, rfl | ⟨hp, hmem, rfl⟩⟩ := marketTable.of_find_modify hf hfind
    · exact h.final hstrict id _ hm hs
    · exact hfinal hstrict id m hm hp hmem hs

/-- Markets that begin to settle. -/
theorem beginSettling (h : Inv strict fixed db) {p : Market → Bool} {view : Database} :
    Inv strict fixed (marketTable.modify p ({ · with status := .settling }) view db) ∧
      Progress strict fixed adds touches db
        (marketTable.modify p ({ · with status := .settling }) view db) := by
  refine h.modifyMarkets (fun _ => rfl) (fun _ _ _ => rfl) ?_ ?_
  · intro _ id m _ _ _ hs
    cases hs
  · intro _ id m _ _ _ hs
    exact absurd hs (by simp [MarketStatus.Final])

/-- Markets that are settled by a confirmed run. -/
theorem settleMarkets (h : Inv strict fixed db) {p : Market → Bool} {view : Database}
    (hrun : ∀ id m, marketTable.find db id = some m → p m = true → ConfirmedRun db id) :
    Inv strict fixed (marketTable.modify p ({ · with status := .settled }) view db) ∧
      Progress strict fixed adds touches db
        (marketTable.modify p ({ · with status := .settled }) view db) := by
  refine h.modifyMarkets (fun _ => rfl) (fun _ _ _ => rfl) ?_ ?_
  · exact fun _ id m hm hp _ _ => hrun id m hm hp
  · intro hstrict id m hm hp _ _
    obtain ⟨rid, r, hr, hmarket, hconfirmed⟩ := hrun id m hm hp
    exact hmarket ▸ h.closed hstrict rid r hr hconfirmed

theorem addPosition (h : Inv strict fixed db) {p : Position} (hnew : positionTable.find db p.id = none)
    (hstatus : p.status = .active) (hadds : adds p.marketId)
    (hevidence : ∃ e ∈ db.positionEvidence, e.stakeIntentId = p.stakeIntentId)
    (hrun : strict → NoRun db p.marketId)
    (hfinal : strict → ∀ m, marketTable.find db p.marketId = some m → ¬ m.status.Final) :
    Inv strict fixed (positionTable.add p db) ∧
      Progress strict fixed adds touches db (positionTable.add p db) := by
  have hprog : Progress strict fixed adds touches db (positionTable.add p db) :=
    .addPosition hadds hrun
  refine ⟨h.step hprog (h.books.of_same rfl rfl rfl) h.marketIds ?_ ?_
    (fun _ id m hfind hs => .inl ⟨m, hfind, hs⟩) ?_ (fun _ rid r hfind _ => .inl ⟨r, hfind⟩)
    (fun _ rid r hfind => .inl ⟨r, hfind⟩) (fun _ rid r hfind hs => .inl ⟨r, hfind, hs⟩) ?_, hprog⟩
  · exact positionTable.nodup_add h.positionIds (positionTable.find_none hnew)
  · intro q hq
    cases List.mem_append.mp hq with
    | inl hold => exact h.evidenced q hold
    | inr hadded =>
        rw [List.mem_singleton.mp hadded]
        exact hevidence
  · intro hstrict id m hfind hmfinal pid q hq hmarket
    cases positionTable.of_find_add hq with
    | inl hold => exact h.final hstrict id m hfind hmfinal pid q hold hmarket
    | inr hadded =>
        rw [hadded.2.2] at hmarket
        exact absurd hmfinal (hfinal hstrict m (hmarket ▸ hfind))
  · intro _ pid q kind hq hs
    cases positionTable.of_find_add hq with
    | inl hold => exact .inl ⟨q, hold, rfl⟩
    | inr hadded =>
        rw [hadded.2.2, hstatus] at hs
        cases kind <;> cases hs

/-- A plan: a run with its items. -/
theorem addPlan (h : Inv strict fixed db) {r : SettlementRun} {items : List SettlementItem}
    (hnew : runTable.find db r.id = none) (hstatus : r.status ≠ .confirmed) (hnonempty : items ≠ [])
    (hrun : ∀ i ∈ items, i.settlementRunId = r.id) (hopen : ∀ i ∈ items, i.status ≠ .confirmed)
    (hfresh : Books.FreshItems items db)
    (hsum : (items.map (·.payoutMinor)).sum = r.distributableMinor) (hadds : adds r.marketId)
    (htouches : touches r.id)
    (hagreed : r.kind = .payout → ∃ m, marketTable.find db r.marketId = some m ∧
      m.winningOutcomeId = r.winningOutcomeId)
    (hplanned : ∀ pid p, positionTable.find db pid = some p → p.marketId = r.marketId →
      p.status = .active → r.kind = .refund ∨ r.winningOutcomeId = some p.outcomeId →
        ∃ i ∈ items, i.positionId = pid ∧ (r.kind = .refund → i.payoutMinor = p.amountMinor)) :
    Inv strict fixed (Books.addItems items (runTable.add r db)) ∧
      Progress strict fixed adds touches db (Books.addItems items (runTable.add r db)) := by
  have hprog : Progress strict fixed adds touches db (Books.addItems items (runTable.add r db)) :=
    trans_of _ (Progress.addRun hadds) (.addItems fun i hi => (hrun i hi).symm ▸ htouches)
  have hbooks := h.books.addRun hnew hstatus hnonempty hrun hopen hfresh hsum
  have hcases {rid : Uuid} {s : SettlementRun}
      (hs : runTable.find (runTable.add r db) rid = some s) :
      runTable.find db rid = some s ∨ (rid = r.id ∧ s = r) := by
    cases runTable.of_find_add hs with
    | inl hold => exact .inl hold
    | inr hadded => exact .inr ⟨hadded.2.1.symm, hadded.2.2⟩
  refine ⟨h.step hprog hbooks h.marketIds h.positionIds h.evidenced
    (fun _ id m hfind hs => .inl ⟨m, hfind, hs⟩) h.final ?_ ?_ ?_
    (fun _ pid p kind hfind _ => .inl ⟨p, hfind, rfl⟩), hprog⟩
  · intro _ rid s hs hkind
    cases hcases hs with
    | inl hold => exact .inl ⟨s, hold⟩
    | inr hadded =>
        rw [hadded.2] at hkind ⊢
        exact .inr (hagreed hkind)
  · intro _ rid s hs
    cases hcases hs with
    | inl hold => exact .inl ⟨s, hold⟩
    | inr hadded =>
        refine .inr fun pid p hp hmarket hactive howes => ?_
        rw [hadded.2] at hmarket howes ⊢
        obtain ⟨i, hi, hposition, hpayout⟩ := hplanned pid p hp hmarket hactive howes
        have hfind : itemTable.find (Books.addItems items (runTable.add r db)) i.id = some i :=
          find?_key hbooks.itemIds (List.mem_append_right _ hi)
        exact ⟨i.id, i, hfind, (hrun i hi).trans hadded.1.symm, hposition, hpayout⟩
  · intro _ rid s hs hconfirmed
    cases hcases hs with
    | inl hold => exact .inl ⟨s, hold, hconfirmed⟩
    | inr hadded => exact absurd (hadded.2 ▸ hconfirmed) hstatus

/-! ### Evidence of an item -/

section Evidence

variable {e : SettlementEvidence} {f : SettlementItem → SettlementItem} {itemId : Uuid}
  {i i' : SettlementItem} {view : Database}

/-- The change of a confirmed item. -/
abbrev confirmedItem (e : SettlementEvidence) (f : SettlementItem → SettlementItem) (itemId : Uuid)
    (view db : Database) : Database :=
  itemTable.modify (·.id = itemId) f view (settlementEvidenceTable.add e db)

theorem progress_confirmedItem (h : Inv strict fixed db) (hf : Books.Keeps f)
    (hi : itemTable.find db itemId = some i) (hlead : ∀ i, (f i).positionId = i.positionId ∧ (f i).status = .confirmed)
    (htouches : touches i.settlementRunId) :
    Progress strict fixed adds touches db (confirmedItem e f itemId view db) := by
  refine trans_of _ (.of_same rfl rfl rfl rfl : Progress strict fixed adds touches db
    (settlementEvidenceTable.add e db)) (.modifyItems hf (fun j hj => ?_) fun j hj hp => ?_)
  · exact ⟨hf.run j, (hlead j).1, hf.payout j, fun _ => (hlead j).2⟩
  · have hfind := itemTable.find_of_mem h.books.itemIds hj
    rw [show itemTable.key j = itemId from of_decide_eq_true hp, hi] at hfind
    exact Option.some.inj hfind ▸ htouches

/-- Evidence for an item of a run that other items keep open. -/
theorem confirmItem (h : Inv strict fixed db) (hf : Books.Keeps f)
    (hi : itemTable.find db itemId = some i) (hview : itemTable.find view itemId = some i')
    (hopen : i.status ≠ .confirmed) (hnone : settlementEvidenceTable.find db itemId = none)
    (hconfirms : Confirms e (f i))
    (hlead : ∀ i, (f i).positionId = i.positionId ∧ (f i).status = .confirmed)
    (htouches : touches i.settlementRunId) {j : SettlementItem}
    (hj : j ∈ itemsOf (confirmedItem e f itemId view db) i.settlementRunId)
    (hjopen : j.status ≠ .confirmed) :
    Inv strict fixed (confirmedItem e f itemId view db) ∧
      Progress strict fixed adds touches db (confirmedItem e f itemId view db) := by
  have hprog : Progress strict fixed adds touches db (confirmedItem e f itemId view db) :=
    progress_confirmedItem h hf hi hlead htouches
  have hbooks := (h.books.confirmItem hf hi hview hopen hnone hconfirms).mono fun rid hrid =>
    hrid.resolve_left id
  refine ⟨h.ofBooks hprog (hbooks.keepOpen (fun r hr hconfirmed => ?_) hj hjopen) rfl rfl
    (List.Subset.refl _) fun rid r hr => ⟨r, hr, id⟩, hprog⟩
  -- the run was not confirmed before, because this item was not
  exact hopen ((h.books.complete _ r hr id).mp hconfirmed i
    (mem_itemsOf.mpr ⟨(itemTable.find_mem hi).1, rfl⟩))

/-- The change of the positions of a market at the end of a run. -/
abbrev closedPositions (marketId : Uuid) (status : PositionStatus) (view db : Database) : Database :=
  positionTable.modify (fun p => p.marketId = marketId && p.status = .active) ({ · with status }) view db

/-- A position is as it was, or was active in the market and is closed. -/
theorem of_find_closedPositions {marketId : Uuid} {status : PositionStatus} {pid : Uuid}
    {p' : Position} (h : positionTable.find (closedPositions marketId status view db) pid = some p') :
    ∃ p, positionTable.find db pid = some p ∧
      ((p' = p ∧ (p.marketId = marketId → p.status = .active →
          pid ∉ (positionTable.matching (fun p => p.marketId = marketId && p.status = .active) view).map
            (·.id))) ∨
        (p.marketId = marketId ∧ p.status = .active ∧ p' = { p with status })) := by
  rw [positionTable.find_modify (f := fun q => { q with status }) fun _ => rfl] at h
  obtain ⟨p, hp, rfl⟩ := Option.map_eq_some_iff.mp h
  have hkey : positionTable.key p = pid := (positionTable.find_mem hp).2
  refine ⟨p, hp, ?_⟩
  rw [hkey]
  split
  · rename_i hcond
    simp only [Bool.and_eq_true, decide_eq_true_eq] at hcond
    exact .inr ⟨hcond.1.1, hcond.1.2, rfl⟩
  · rename_i hcond
    refine .inl ⟨rfl, fun hmarket hs hmem => hcond ?_⟩
    simp only [hmarket, hs, decide_true, Bool.and_self, Bool.true_and, decide_eq_true_eq]
    exact hmem

theorem closes_ne_active (kind : RunKind) : Settlement.RunKind.closes kind ≠ .active := by
  cases kind <;> decide

theorem closes_injective {kind kind' : RunKind}
    (h : Settlement.RunKind.closes kind = Settlement.RunKind.closes kind') : kind = kind' := by
  cases kind <;> cases kind' <;> first | rfl | cases h

/-- **The last evidence of a run** confirms it and closes the positions of its market. -/
theorem confirmRun (h : Inv strict fixed db) (hf : Books.Keeps f)
    (hi : itemTable.find db itemId = some i) (hview : itemTable.find view itemId = some i')
    (hopen : i.status ≠ .confirmed) (hnone : settlementEvidenceTable.find db itemId = none)
    (hconfirms : Confirms e (f i))
    (hlead : ∀ i, (f i).positionId = i.positionId ∧ (f i).status = .confirmed)
    (htouches : touches i.settlementRunId) {runView positionView : Database} {r r₀ : SettlementRun}
    (hr : runTable.find db i.settlementRunId = some r)
    (hrunView : runTable.find runView i.settlementRunId = some r₀)
    (hall : ∀ j ∈ itemsOf (confirmedItem e f itemId view db) i.settlementRunId, j.status = .confirmed)
    (hactive : strict → ∀ pid p, positionTable.find db pid = some p → p.marketId = r.marketId →
      p.status = .active → pid ∈ (positionTable.matching
        (fun p => p.marketId = r.marketId && p.status = .active) positionView).map (·.id)) :
    Inv strict fixed (closedPositions r.marketId (Settlement.RunKind.closes r.kind) positionView
        (setRuns (fun s => s.id = i.settlementRunId && true) .confirmed runView
          (confirmedItem e f itemId view db))) ∧
      Progress strict fixed adds touches db
        (closedPositions r.marketId (Settlement.RunKind.closes r.kind) positionView
          (setRuns (fun s => s.id = i.settlementRunId && true) .confirmed runView
            (confirmedItem e f itemId view db))) := by
  generalize hdb₁ : confirmedItem e f itemId view db = db₁ at *
  generalize hdb₂ : setRuns (fun s => s.id = i.settlementRunId && true) .confirmed runView db₁ = db₂
  generalize hdb₃ : closedPositions r.marketId (Settlement.RunKind.closes r.kind) positionView db₂ = db₃
  have hprog₁ : Progress strict fixed adds touches db db₁ :=
    hdb₁ ▸ progress_confirmedItem h hf hi hlead htouches
  have hprog₂ : Progress strict fixed adds touches db db₂ :=
    trans_of _ hprog₁ (hdb₂ ▸ .setRuns fun _ _ _ => rfl)
  have hprog : Progress strict fixed adds touches db db₃ := by
    refine trans_of _ hprog₂ (hdb₃ ▸ .closePositions fun q hq => ?_)
    exact of_decide_eq_true (Bool.and_eq_true_iff.mp hq).2
  have hbooks : Books (fun _ => False) db₃ := by
    have hopen₁ : Books (· = i.settlementRunId) db₁ := hdb₁ ▸
      (h.books.confirmItem hf hi hview hopen hnone hconfirms).mono fun rid hrid => hrid.resolve_left id
    have hclosed : Books (fun _ => False) db₂ := hdb₂ ▸ hopen₁.closeRun hall hrunView
    exact hdb₃ ▸ hclosed.of_same rfl rfl rfl
  have hmarkets : db₃.markets = db.markets := by
    subst hdb₃ hdb₂ hdb₁
    rfl
  have hevidence : db₃.positionEvidence = db.positionEvidence := by
    subst hdb₃ hdb₂ hdb₁
    rfl
  have hfind₂ (pid : Uuid) : positionTable.find db₂ pid = positionTable.find db pid := by
    subst hdb₂ hdb₁
    rfl
  have hitems₃ (rid : Uuid) : itemsOf db₃ rid = itemsOf db₁ rid := by
    subst hdb₃ hdb₂
    rfl
  have hposition (pid : Uuid) (p' : Position) (hp' : positionTable.find db₃ pid = some p') :
      ∃ p, positionTable.find db pid = some p ∧
        ((p' = p ∧ (strict → p.marketId = r.marketId → p.status ≠ .active)) ∨
          (p.marketId = r.marketId ∧ p.status = .active ∧
            p' = { p with status := Settlement.RunKind.closes r.kind })) := by
    obtain ⟨p, hp, hcase⟩ := of_find_closedPositions (hdb₃ ▸ hp')
    rw [hfind₂] at hp
    exact ⟨p, hp, hcase.imp_left fun hsame => ⟨hsame.1, fun hstrict hmarket hs =>
      hsame.2 hmarket hs (hactive hstrict pid p hp hmarket hs)⟩⟩
  have hrun (rid : Uuid) (r' : SettlementRun) (hr' : runTable.find db₃ rid = some r') :
      ∃ r₁, runTable.find db rid = some r₁ ∧ (r' = r₁ ∨ rid = i.settlementRunId) := by
    have hr₂ : runTable.find db₂ rid = some r' := by
      subst hdb₃
      exact hr'
    subst hdb₂
    obtain ⟨r₁, hr₁, heq | ⟨hp, -, -⟩⟩ := of_find_setRuns hr₂
    · refine ⟨r₁, ?_, .inl heq⟩
      subst hdb₁
      exact hr₁
    · refine ⟨r₁, ?_, .inr ?_⟩
      · subst hdb₁
        exact hr₁
      · simp only [Bool.and_true, decide_eq_true_eq] at hp
        exact (runTable.find_mem hr₁).2.symm.trans hp
  have hnone₃ (hstrict : strict) : NoActive db₃ r.marketId := by
    intro pid p' hp' hmarket hs
    obtain ⟨p, hp, ⟨rfl, hclosed⟩ | ⟨-, -, rfl⟩⟩ := hposition pid p' hp'
    · exact hclosed hstrict hmarket hs
    · exact closes_ne_active r.kind hs
  refine ⟨h.step hprog hbooks (hmarkets ▸ h.marketIds) ?_ ?_ ?_ ?_ ?_ ?_ ?_ ?_, hprog⟩
  · subst hdb₃ hdb₂ hdb₁
    have hkeys : (closedPositions r.marketId (Settlement.RunKind.closes r.kind) positionView
        db).positions.map (·.id) = db.positions.map (·.id) := positionTable.keys_modify fun _ => rfl
    exact hkeys.symm ▸ h.positionIds
  · intro p' hp'
    have hmem : ∃ p ∈ db.positions, p'.stakeIntentId = p.stakeIntentId := by
      subst hdb₃ hdb₂ hdb₁
      cases positionTable.mem_modify hp' with
      | inl hold => exact ⟨p', hold, rfl⟩
      | inr hclosed =>
          obtain ⟨p, hp, -, rfl⟩ := hclosed
          exact ⟨p, hp, rfl⟩
    obtain ⟨p, hp, hintent⟩ := hmem
    rw [hevidence, hintent]
    exact h.evidenced p hp
  · intro _ id m hfind hs
    refine .inl ⟨m, ?_, hs⟩
    show db.markets.find? _ = some m
    rw [← hmarkets]
    exact hfind
  · intro hstrict id m hfind hfinal pid p' hp' hmarket hs
    obtain ⟨p, hp, ⟨rfl, -⟩ | ⟨-, -, rfl⟩⟩ := hposition pid p' hp'
    · refine h.final hstrict id m ?_ hfinal pid _ hp hmarket hs
      show db.markets.find? _ = some m
      rw [← hmarkets]
      exact hfind
    · exact closes_ne_active r.kind hs
  · intro _ rid r' hr' _
    obtain ⟨r₁, hr₁, -⟩ := hrun rid r' hr'
    exact .inl ⟨r₁, hr₁⟩
  · intro _ rid r' hr'
    obtain ⟨r₁, hr₁, -⟩ := hrun rid r' hr'
    exact .inl ⟨r₁, hr₁⟩
  · intro hstrict rid r' hr' hs
    obtain ⟨r₁, hr₁, rfl | rfl⟩ := hrun rid r' hr'
    · exact .inl ⟨_, hr₁, hs⟩
    · rw [(hprog.run_before hr' hr).market]
      exact .inr (hnone₃ hstrict)
  · intro hstrict pid p' kind hp' hs
    obtain ⟨p, hp, ⟨rfl, -⟩ | ⟨hmarket, hactive', rfl⟩⟩ := hposition pid p' hp'
    · exact .inl ⟨_, hp, rfl⟩
    · -- the position was planned for, and the run is confirmed now
      obtain ⟨r', hr', hlead⟩ := hprog.runs _ r hr
      have hconfirmed : r'.status = .confirmed := by
        rw [hbooks.complete _ r' hr' id, hitems₃]
        exact hall
      refine .inr ⟨_, r', hr', hlead.market.trans hmarket.symm,
        hlead.kind.trans (closes_injective hs), hconfirmed, ?_⟩
      exact (h.planned hstrict _ r hr pid p hp hmarket hactive').progress hprog.items hlead
        (hprog.position_before hp' hp)

end Evidence

end Inv

end CrownFi.Markets
