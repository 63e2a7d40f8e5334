import CrownFi.Markets.MarketCap

/-!
# CrownFi.Markets.OutcomeTotals

**The stored total of an outcome and its active positions.** An accepted stake adds its amount to
the total of its outcome, in the transaction that makes its position active. Nothing ever
subtracts from a total: the end of a settlement closes the positions of its market and leaves the
totals. So the stored totals are the sums of the active positions, which is what the summary of
positions presents, exactly as long as no settlement closes an active position.
-/

namespace CrownFi.Markets

open Lib CrownFi.Api Positions

variable {ext : External}

/-! ### The totals -/

/-- What a position counts towards its outcome. -/
def activeOnOutcome (outcomeId : Uuid) (p : Position) : Int :=
  if p.outcomeId = outcomeId && p.status = .active then p.amountMinor else 0

theorem sum_activeOn {outcomeId : Uuid} {db : Database} :
    ((activeOn outcomeId db).map (·.amountMinor)).sum = total (activeOnOutcome outcomeId) db.positions := by
  rw [activeOn, sum_filter]
  rfl

/-- Exact books of stakes, with exact totals. -/
structure TotalBooks (db : Database) : Prop where
  books : StakeBooks db
  totals : ∀ o ∈ db.outcomes, o.totalActiveMinor = total (activeOnOutcome o.id) db.positions

/-- A settlement closes positions only where none is active. -/
def NothingActive : Site → Database → Prop
  | .closePositions marketId, db => ∀ p ∈ db.positions, p.marketId = marketId → p.status ≠ .active
  | _, _ => True

instance (site : Site) (db : Database) : Decidable (NothingActive site db) := by
  unfold NothingActive
  split <;> infer_instance

section Changes

variable {db db' : Database} {L : List (Lock Row)}

theorem Aside.same_positions (ha : Aside Eq L db db') : db'.positions = db.positions :=
  (List.forall₂_eq_eq_eq ▸ ha.positions : db.positions = db'.positions).symm

theorem TotalBooks.aside (h : TotalBooks db) (ha : Aside Eq L db db') : TotalBooks db' where
  books := h.books.aside ha fun p p' heq => by rw [← heq]
  totals := by
    rw [ha.outcomes, ha.same_positions]
    exact h.totals

/-- An accepted stake adds the same amount to a total and to the active positions. -/
theorem TotalBooks.accepts (h : TotalBooks db) (hbooks : StakeBooks db') {own : StakeIntent → PositionEvidence → Prop}
    (ha : AcceptsStake own db db') :
    TotalBooks db' where
  books := hbooks
  totals := by
    rcases ha with rfl | ⟨i, limit, e, p, acceptedAt, ha, -, rfl⟩
    · exact h.totals
    · intro o' ho'
      obtain ⟨o, ho, rfl⟩ := mem_updateWhere.mp ho'
      show _ = total _ (db.positions ++ [p])
      have hold := h.totals o ho
      by_cases hid : o.id = i.outcomeId
      · rw [if_pos (decide_eq_true hid), total_concat, activeOnOutcome, ha.outcome, ha.active,
          ha.amount]
        simp only [hid, decide_true, Bool.and_self, if_true] at hold ⊢
        rw [hold]
      · rw [if_neg (by simp [hid]), total_concat, activeOnOutcome, ha.outcome,
          decide_eq_false (Ne.symm hid), Bool.false_and, if_neg Bool.false_ne_true, add_zero]
        exact hold

/-- A settlement that finds nothing active closes nothing. -/
theorem sparesClosing_nothing : SparesClosing NothingActive (Aside Eq) := by
  intro marketId kind L view db hnothing
  have hnone : positionTable.matching (fun p => p.marketId = marketId && p.status = .active) view = [] := by
    refine List.filter_eq_nil_iff.mpr fun p hp hactive => ?_
    simp only [Bool.and_eq_true, decide_eq_true_eq] at hactive
    exact hnothing p hp hactive.1 hactive.2
  rw [positionTable.modify_none hnone]
  exact Widening.refl L db

end Changes

/-! ### The requests -/

theorem safe_totalRequest {p : Prog Database Row Site Result} (hp : Requests ext stakeOperations p) :
    SafeRequest TotalBooks StakeGuarantee NothingActive p := by
  obtain ⟨operation, hmem, hp⟩ := hp
  rcases List.mem_cons.mp hmem with rfl | hmem
  · cases hp with
    | acceptPositionEvidence marketId body ids =>
        refine (acceptPositionEvidence_outline owns_any marketId body ids).refine (fun _ h => h.books)
          (fun _ _ _ hG => hG) fun L db db' hI hbooks hG => ?_
        exact ⟨hI.accepts hbooks hG.2, hG.1⟩
  · refine (confined_aside sparesClosing_nothing ⟨operation, hmem, hp⟩).safeRequest ?_ ?_
    · exact fun L db db' ha hI => hI.aside ha
    · intro L db db' ha hI
      refine ⟨ha.framed, fun id _ => ?_, congrArg _ ha.outcomes⟩
      rw [activeTotal, ha.same_positions, activeTotal]

/-! ### The totals of every run -/

/-- The stored totals are the sums of the active positions, also as the summary presents them. -/
structure TotalsAgree (db : Database) : Prop where
  stored : ∀ o ∈ db.outcomes, o.totalActiveMinor = ((activeOn o.id db).map (·.amountMinor)).sum
  presented : ∀ marketId entries, summaryEntries marketId db = some entries → ∀ entry ∈ entries,
    ∃ o ∈ db.outcomes, o.marketId = marketId ∧ entry.outcomeId = o.id ∧
      entry.totalActiveMinor = o.totalActiveMinor

theorem mem_mapM {α β : Type} {f : α → Option β} {l : List α} {l' : List β} (h : l.mapM f = some l')
    {b : β} (hb : b ∈ l') : ∃ a ∈ l, f a = some b := by
  induction l generalizing l' with
  | nil =>
      obtain rfl := Option.some.inj h
      cases hb
  | cons a rest ih =>
      simp only [List.mapM_cons, Option.bind_eq_bind, Option.bind_eq_some_iff, Option.pure_def,
        Option.some.injEq] at h
      obtain ⟨first, hfirst, others, hothers, rfl⟩ := h
      rcases List.mem_cons.mp hb with rfl | hb
      · exact ⟨a, List.mem_cons_self, hfirst⟩
      · obtain ⟨c, hc, hfc⟩ := ih hothers hb
        exact ⟨c, List.mem_cons_of_mem _ hc, hfc⟩

theorem TotalBooks.agree {db : Database} (h : TotalBooks db) : TotalsAgree db where
  stored o ho := by rw [h.totals o ho, sum_activeOn]
  presented marketId entries hentries entry hentry := by
    obtain ⟨o, ho, hsummary⟩ := mem_mapM hentries hentry
    obtain ⟨ho, hmarket⟩ := List.mem_filter.mp ((List.mem_insertionSort _).mp ho)
    simp only [Outcome.summary, Option.bind_eq_bind, Option.bind_eq_some_iff, Option.pure_def,
      Option.some.injEq] at hsummary
    obtain ⟨sum, hsum, rfl⟩ := hsummary
    refine ⟨o, ho, of_decide_eq_true hmarket, rfl, ?_⟩
    rw [h.totals o ho, ← sum_activeOn]
    exact checkedI64_eq_some hsum

/-- **The totals agree with the positions**, in every run in which no settlement closes an active
position. -/
theorem outcome_totals_agree {db₀ : Database} (h₀ : TotalBooks db₀)
    {pool : Pool Database Row Site Result} {actions : List (Action Database Row Site Result)}
    (hrun : Run (Pool.Step (Requests ext stakeOperations) NothingActive) (Pool.idle db₀) actions pool) :
    TotalsAgree pool.db :=
  (run_healthy (fun _ => safe_totalRequest) hrun (healthy_idle h₀)).inv.agree

theorem resolvedMarket_totals : TotalBooks resolvedMarket where
  books := resolvedMarket_capped.books
  totals := by decide

theorem planned_outcome :
    (Pool.serveAll NothingActive resolvedMarket [stakeLate, planIt]).any
      (fun served => served.2.outcomes.map (·.totalActiveMinor) = [1500, 0]) = true := by
  decide +kernel

/-- A stake is accepted, and a settlement is planned. -/
theorem planned_agree :
    ∃ (pool : Pool Database Row Site Result) (actions : List (Action Database Row Site Result)),
      Run (Pool.Step (Requests marketExternal stakeOperations) NothingActive)
        (Pool.idle resolvedMarket) actions pool ∧
      pool.db.outcomes.map (·.totalActiveMinor) = [1500, 0] ∧ TotalsAgree pool.db := by
  obtain ⟨served, hserved, htotals⟩ := (Option.any_eq_true _ _).mp planned_outcome
  have hrequests : ∀ p ∈ [stakeLate, planIt], Requests marketExternal stakeOperations p := by
    simp only [List.forall_mem_cons]
    refine ⟨?_, ?_, fun p hp => by cases hp⟩
    · exact ⟨_, by decide, .acceptPositionEvidence 20 lateStakeRequest ⟨61, 51⟩⟩
    · exact ⟨_, by decide, .createSettlementPlan 1 20 planRequest planIds⟩
  obtain ⟨actions, hrun⟩ := Pool.run_of_serveAll hrequests hserved
  exact ⟨_, actions, hrun, of_decide_eq_true htotals, outcome_totals_agree resolvedMarket_totals hrun⟩

theorem paid_outcome :
    (Pool.serveAll (fun _ _ => True) resolvedMarket [planIt, submitIt, payIt]).any
      (fun served => served.2.outcomes.map (·.totalActiveMinor) = [1000, 0] &&
        served.2.positions.map (·.status) = [.settled]) = true := by
  decide +kernel

/-- A settlement leaves its outcome with a total of positions that are closed. -/
theorem settled_total_stale :
    ¬ ∀ (ext : External) (db₀ : Database), TotalBooks db₀ →
      ∀ (pool : Pool Database Row Site Result) (actions : List (Action Database Row Site Result)),
        Run (Pool.Step (Requests ext payoutOperations) fun _ _ => True) (Pool.idle db₀) actions pool →
        TotalsAgree pool.db := by
  intro h
  obtain ⟨served, hserved, hall⟩ := (Option.any_eq_true _ _).mp paid_outcome
  simp only [Bool.and_eq_true, decide_eq_true_eq] at hall
  obtain ⟨htotals, hclosed⟩ := hall
  have hrequests : ∀ p ∈ [planIt, submitIt, payIt], Requests marketExternal payoutOperations p := by
    intro p hp
    simp only [List.mem_cons, List.not_mem_nil, or_false] at hp
    rcases hp with rfl | rfl | rfl
    · exact planIt_request
    · exact submitIt_request
    · exact payIt_request
  obtain ⟨actions, hrun⟩ := Pool.run_of_serveAll hrequests hserved
  have hagree : TotalsAgree served.2 := h _ _ resolvedMarket_totals _ _ hrun
  have hmem : (1000 : Int) ∈ served.2.outcomes.map (·.totalActiveMinor) := by
    rw [htotals]
    exact List.mem_cons_self
  obtain ⟨o, ho, hthousand⟩ := List.mem_map.mp hmem
  have hstored := hagree.stored o ho
  -- no position is active any more
  have hnone : activeOn o.id served.2 = [] := by
    refine List.filter_eq_nil_iff.mpr fun p hp hactive => ?_
    have hstatus : p.status ∈ served.2.positions.map (·.status) := List.mem_map_of_mem hp
    rw [hclosed, List.mem_singleton] at hstatus
    simp [hstatus] at hactive
  rw [hnone, hthousand] at hstored
  cases hstored

end CrownFi.Markets
