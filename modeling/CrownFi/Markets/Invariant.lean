import CrownFi.Lib.Tracking
import CrownFi.Markets.Books
import CrownFi.Markets.Plans

/-!
# CrownFi.Markets.Invariant

**What holds of markets, positions and settlements in every interleaving of requests.**

Rows only move forward (`Leads`): a closed position stays closed, a confirmed run or item
stays confirmed. The books of the settlements hold whatever happens. The rest hangs on two
parameters. Under `strict`, evidence adds no position to a market that has a settlement run
or is over, and a transition ends no market that still owes something; then every position
that a run closes has its item in it. Under `fixed`, nothing changes a winning outcome.
-/

namespace CrownFi.Markets

open Lib CrownFi.Api

/-- The end of a market, one way or the other. -/
def MarketStatus.Final (s : MarketStatus) : Prop := s = .settled ∨ s = .archived

instance (s : MarketStatus) : Decidable s.Final := inferInstanceAs (Decidable (_ ∨ _))

/-! ### Where rows can go -/

def Market.Leads (fixed : Prop) (m m' : Market) : Prop :=
  fixed → m'.winningOutcomeId = m.winningOutcomeId

structure Position.Leads (p p' : Position) : Prop where
  market : p'.marketId = p.marketId
  outcome : p'.outcomeId = p.outcomeId
  amount : p'.amountMinor = p.amountMinor
  closed : p.status ≠ .active → p'.status = p.status

structure SettlementRun.Leads (r r' : SettlementRun) : Prop where
  market : r'.marketId = r.marketId
  kind : r'.kind = r.kind
  winner : r'.winningOutcomeId = r.winningOutcomeId
  confirmed : r.status = .confirmed → r'.status = .confirmed

structure SettlementItem.Leads (i i' : SettlementItem) : Prop where
  run : i'.settlementRunId = i.settlementRunId
  position : i'.positionId = i.positionId
  payout : i'.payoutMinor = i.payoutMinor
  confirmed : i.status = .confirmed → i'.status = .confirmed

instance (fixed : Prop) : IsPreorder Market (Market.Leads fixed) where
  refl _ _ := rfl
  trans _ _ _ h h' hfixed := (h' hfixed).trans (h hfixed)

instance : IsPreorder Position Position.Leads where
  refl _ := ⟨rfl, rfl, rfl, fun _ => rfl⟩
  trans a b c h h' := by
    refine ⟨h'.market.trans h.market, h'.outcome.trans h.outcome, h'.amount.trans h.amount,
      fun ha => ?_⟩
    have hb := h.closed ha
    exact (h'.closed (by rwa [hb])).trans hb

instance : IsPreorder SettlementRun SettlementRun.Leads where
  refl _ := ⟨rfl, rfl, rfl, fun h => h⟩
  trans _ _ _ h h' := ⟨h'.market.trans h.market, h'.kind.trans h.kind, h'.winner.trans h.winner,
    fun ha => h'.confirmed (h.confirmed ha)⟩

instance : IsPreorder SettlementItem SettlementItem.Leads where
  refl _ := ⟨rfl, rfl, rfl, fun h => h⟩
  trans _ _ _ h h' := ⟨h'.run.trans h.run, h'.position.trans h.position, h'.payout.trans h.payout,
    fun ha => h'.confirmed (h.confirmed ha)⟩

/-- An active position was active before. -/
theorem Position.Leads.active {p p' : Position} (h : p.Leads p') (hp : p'.status = .active) :
    p.status = .active := by
  by_contra hne
  exact hne ((h.closed hne).symm.trans hp)

/-! ### What a commit does -/

/-- The market has no settlement run. -/
def NoRun (db : Database) (marketId : Uuid) : Prop :=
  ∀ rid r, runTable.find db rid = some r → r.marketId ≠ marketId

/-- No position of the market is active. -/
def NoActive (db : Database) (marketId : Uuid) : Prop :=
  ∀ pid p, positionTable.find db pid = some p → p.marketId = marketId → p.status ≠ .active

/-- **What a commit does** that adds positions and runs to the markets `adds` only, and
changes the items of the runs `touches` only. -/
structure Progress (strict fixed : Prop) (adds touches : Uuid → Prop) (db db' : Database) : Prop where
  markets : marketTable.Grows (Market.Leads fixed) db db'
  positions : positionTable.Grows Position.Leads db db'
  runs : runTable.Grows SettlementRun.Leads db db'
  items : itemTable.Grows SettlementItem.Leads db db'
  keptPositions : ∀ pid p, positionTable.find db' pid = some p → ¬ adds p.marketId →
    ∃ p₀, positionTable.find db pid = some p₀
  keptRuns : ∀ rid r, runTable.find db' rid = some r → ¬ adds r.marketId →
    ∃ r₀, runTable.find db rid = some r₀
  untouched : ∀ rid, ¬ touches rid → itemsOf db' rid = itemsOf db rid
  timely : strict → ∀ pid p, positionTable.find db' pid = some p →
    (∃ p₀, positionTable.find db pid = some p₀) ∨ NoRun db p.marketId

variable {strict fixed : Prop} {adds touches : Uuid → Prop}

/-- A market that had no run before a commit had none in the beginning. -/
theorem NoRun.before {db db' : Database} {marketId : Uuid} (h : NoRun db' marketId)
    (hruns : runTable.Grows SettlementRun.Leads db db') : NoRun db marketId := by
  intro rid r hr
  obtain ⟨r', hr', hlead⟩ := hruns rid r hr
  rw [← hlead.market]
  exact h rid r' hr'

namespace Progress

variable {db db' db'' : Database}

/-- A position of the second state that was there in the first. -/
theorem position_before (h : Progress strict fixed adds touches db db') {pid : Uuid} {p' : Position}
    (hp' : positionTable.find db' pid = some p') {p : Position}
    (hp : positionTable.find db pid = some p) : p.Leads p' := by
  obtain ⟨p'', hp'', hlead⟩ := h.positions pid p hp
  obtain rfl := Option.some.inj (hp''.symm.trans hp')
  exact hlead

theorem run_before (h : Progress strict fixed adds touches db db') {rid : Uuid} {r' : SettlementRun}
    (hr' : runTable.find db' rid = some r') {r : SettlementRun}
    (hr : runTable.find db rid = some r) : r.Leads r' := by
  obtain ⟨r'', hr'', hlead⟩ := h.runs rid r hr
  obtain rfl := Option.some.inj (hr''.symm.trans hr')
  exact hlead

theorem market_before (h : Progress strict fixed adds touches db db') {id : Uuid} {m' : Market}
    (hm' : marketTable.find db' id = some m') {m : Market}
    (hm : marketTable.find db id = some m) : m.Leads fixed m' := by
  obtain ⟨m'', hm'', hlead⟩ := h.markets id m hm
  obtain rfl := Option.some.inj (hm''.symm.trans hm')
  exact hlead

instance : IsPreorder Database (Progress strict fixed adds touches) where
  refl db :=
    { markets := .refl, positions := .refl, runs := .refl, items := .refl
      keptPositions := fun _ p hp _ => ⟨p, hp⟩
      keptRuns := fun _ r hr _ => ⟨r, hr⟩
      untouched := fun _ _ => rfl
      timely := fun _ _ p hp => .inl ⟨p, hp⟩ }
  trans a b c h h' :=
    { markets := h.markets.trans h'.markets
      positions := h.positions.trans h'.positions
      runs := h.runs.trans h'.runs
      items := h.items.trans h'.items
      keptPositions := fun pid p hp hadds => by
        obtain ⟨p₁, hp₁⟩ := h'.keptPositions pid p hp hadds
        rw [(h'.position_before hp hp₁).market] at hadds
        exact h.keptPositions pid p₁ hp₁ hadds
      keptRuns := fun rid r hr hadds => by
        obtain ⟨r₁, hr₁⟩ := h'.keptRuns rid r hr hadds
        rw [(h'.run_before hr hr₁).market] at hadds
        exact h.keptRuns rid r₁ hr₁ hadds
      untouched := fun rid htouches => (h'.untouched rid htouches).trans (h.untouched rid htouches)
      timely := fun hstrict pid p hp => by
        cases h'.timely hstrict pid p hp with
        | inl hold =>
            obtain ⟨p₁, hp₁⟩ := hold
            rw [(h'.position_before hp hp₁).market]
            exact h.timely hstrict pid p₁ hp₁
        | inr hnew => exact .inr (hnew.before h.runs) }

theorem mono {adds' touches' : Uuid → Prop} (h : Progress strict fixed adds touches db db')
    (hadds : ∀ m, adds m → adds' m) (htouches : ∀ r, touches r → touches' r) :
    Progress strict fixed adds' touches' db db' :=
  { h with
    keptPositions := fun pid p hp hnot => h.keptPositions pid p hp fun ha => hnot (hadds _ ha)
    keptRuns := fun rid r hr hnot => h.keptRuns rid r hr fun ha => hnot (hadds _ ha)
    untouched := fun rid hnot => h.untouched rid fun ht => hnot (htouches _ ht) }

end Progress

/-- A commit under the locks `L` adds to markets and changes items of runs that it locked. -/
def Rely (strict fixed : Prop) (L : List (Lock Row)) : Database → Database → Prop :=
  Progress strict fixed (fun m => Written L (.market m)) fun r => Written L (.run r)

/-- What was closed stays closed once there is a run. -/
theorem NoActive.progress {db db' : Database} {marketId rid : Uuid} {r : SettlementRun}
    (h : NoActive db marketId) (hstrict : strict) (hprog : Progress strict fixed adds touches db db')
    (hr : runTable.find db rid = some r) (hmarket : r.marketId = marketId) : NoActive db' marketId := by
  intro pid p hp hpm hactive
  cases hprog.timely hstrict pid p hp with
  | inl hold =>
      obtain ⟨p₀, hp₀⟩ := hold
      have hlead := hprog.position_before hp hp₀
      exact h pid p₀ hp₀ (hlead.market.symm.trans hpm) (hlead.active hactive)
  | inr hnew => exact hnew rid r hr (hmarket.trans hpm.symm)

/-- What was closed stays closed as long as nothing is added. -/
theorem NoActive.kept {db db' : Database} {marketId : Uuid} (h : NoActive db marketId)
    (hprog : Progress strict fixed adds touches db db') (hadds : ¬ adds marketId) :
    NoActive db' marketId := by
  intro pid p hp hpm hactive
  obtain ⟨p₀, hp₀⟩ := hprog.keptPositions pid p hp (hpm ▸ hadds)
  have hlead := hprog.position_before hp hp₀
  exact h pid p₀ hp₀ (hlead.market.symm.trans hpm) (hlead.active hactive)

/-! ### The invariant -/

/-- The run has an item for the position, if it owes it one: a refund for every position, a
payout for the winners. -/
def Planned (db : Database) (rid : Uuid) (r : SettlementRun) (pid : Uuid) (p : Position) : Prop :=
  r.kind = .refund ∨ r.winningOutcomeId = some p.outcomeId →
    ∃ id i, itemTable.find db id = some i ∧ i.settlementRunId = rid ∧ i.positionId = pid ∧
      (r.kind = .refund → i.payoutMinor = p.amountMinor)

theorem Planned.progress {db db' : Database} {rid pid : Uuid} {r r' : SettlementRun} {p p' : Position}
    (h : Planned db rid r pid p) (hitems : itemTable.Grows SettlementItem.Leads db db')
    (hr : r.Leads r') (hp : p.Leads p') : Planned db' rid r' pid p' := by
  intro howes
  rw [hr.kind, hr.winner, hp.outcome] at howes
  obtain ⟨id, i, hi, hrun, hposition, hpayout⟩ := h howes
  obtain ⟨i', hi', hlead⟩ := hitems id i hi
  refine ⟨id, i', hi', hlead.run.trans hrun, hlead.position.trans hposition, fun hkind => ?_⟩
  rw [hr.kind] at hkind
  rw [hlead.payout, hp.amount, hpayout hkind]

/-- A confirmed run of the market. -/
def ConfirmedRun (db : Database) (marketId : Uuid) : Prop :=
  ∃ rid r, runTable.find db rid = some r ∧ r.marketId = marketId ∧ r.status = .confirmed

theorem ConfirmedRun.progress {db db' : Database} {marketId : Uuid} (h : ConfirmedRun db marketId)
    (hruns : runTable.Grows SettlementRun.Leads db db') : ConfirmedRun db' marketId := by
  obtain ⟨rid, r, hr, hmarket, hconfirmed⟩ := h
  obtain ⟨r', hr', hlead⟩ := hruns rid r hr
  exact ⟨rid, r', hr', hlead.market.trans hmarket, hlead.confirmed hconfirmed⟩

/-- A confirmed run of this kind closed the position. -/
def PaidBy (db : Database) (kind : RunKind) (pid : Uuid) (p : Position) : Prop :=
  ∃ rid r, runTable.find db rid = some r ∧ r.marketId = p.marketId ∧ r.kind = kind ∧
    r.status = .confirmed ∧ Planned db rid r pid p

theorem PaidBy.progress {db db' : Database} {kind : RunKind} {pid : Uuid} {p p' : Position}
    (h : PaidBy db kind pid p) (hprog : Progress strict fixed adds touches db db') (hp : p.Leads p') :
    PaidBy db' kind pid p' := by
  obtain ⟨rid, r, hr, hmarket, hkind, hconfirmed, hplanned⟩ := h
  obtain ⟨r', hr', hlead⟩ := hprog.runs rid r hr
  exact ⟨rid, r', hr', (hlead.market.trans hmarket).trans hp.market.symm, hlead.kind.trans hkind,
    hlead.confirmed hconfirmed, hplanned.progress hprog.items hlead hp⟩

structure Inv (strict fixed : Prop) (db : Database) : Prop where
  books : Books (fun _ => False) db
  marketIds : (db.markets.map (·.id)).Nodup
  positionIds : (db.positions.map (·.id)).Nodup
  evidenced : ∀ p ∈ db.positions, ∃ e ∈ db.positionEvidence, e.stakeIntentId = p.stakeIntentId
  settled : strict → ∀ id m, marketTable.find db id = some m → m.status = .settled →
    ConfirmedRun db id
  final : strict → ∀ id m, marketTable.find db id = some m → m.status.Final → NoActive db id
  agreed : fixed → ∀ rid r, runTable.find db rid = some r → r.kind = .payout →
    ∃ m, marketTable.find db r.marketId = some m ∧ m.winningOutcomeId = r.winningOutcomeId
  planned : strict → ∀ rid r, runTable.find db rid = some r →
    ∀ pid p, positionTable.find db pid = some p → p.marketId = r.marketId → p.status = .active →
      Planned db rid r pid p
  closed : strict → ∀ rid r, runTable.find db rid = some r → r.status = .confirmed →
    NoActive db r.marketId
  paid : strict → ∀ pid p kind, positionTable.find db pid = some p →
    p.status = Settlement.RunKind.closes kind → PaidBy db kind pid p

/-- **The invariant after a change**: what the change made new is left to show. -/
theorem Inv.step {db db' : Database} (h : Inv strict fixed db)
    (hprog : Progress strict fixed adds touches db db') (hbooks : Books (fun _ => False) db')
    (hmarkets : (db'.markets.map (·.id)).Nodup) (hpositions : (db'.positions.map (·.id)).Nodup)
    (hevidenced : ∀ p ∈ db'.positions, ∃ e ∈ db'.positionEvidence, e.stakeIntentId = p.stakeIntentId)
    (hsettled : strict → ∀ id m', marketTable.find db' id = some m' → m'.status = .settled →
      (∃ m, marketTable.find db id = some m ∧ m.status = .settled) ∨ ConfirmedRun db' id)
    (hfinal : strict → ∀ id m', marketTable.find db' id = some m' → m'.status.Final → NoActive db' id)
    (hagreed : fixed → ∀ rid r', runTable.find db' rid = some r' → r'.kind = .payout →
      (∃ r, runTable.find db rid = some r) ∨
        ∃ m, marketTable.find db' r'.marketId = some m ∧ m.winningOutcomeId = r'.winningOutcomeId)
    (hplanned : strict → ∀ rid r', runTable.find db' rid = some r' →
      (∃ r, runTable.find db rid = some r) ∨ ∀ pid p', positionTable.find db' pid = some p' →
        p'.marketId = r'.marketId → p'.status = .active → Planned db' rid r' pid p')
    (hclosed : strict → ∀ rid r', runTable.find db' rid = some r' → r'.status = .confirmed →
      (∃ r, runTable.find db rid = some r ∧ r.status = .confirmed) ∨ NoActive db' r'.marketId)
    (hpaid : strict → ∀ pid p' kind, positionTable.find db' pid = some p' →
      p'.status = Settlement.RunKind.closes kind →
        (∃ p, positionTable.find db pid = some p ∧ p.status = p'.status) ∨ PaidBy db' kind pid p') :
    Inv strict fixed db' where
  books := hbooks
  marketIds := hmarkets
  positionIds := hpositions
  evidenced := hevidenced
  settled hstrict id m' hm' hs' := by
    cases hsettled hstrict id m' hm' hs' with
    | inl hold =>
        obtain ⟨m, hm, hs⟩ := hold
        exact (h.settled hstrict id m hm hs).progress hprog.runs
    | inr hnew => exact hnew
  final := hfinal
  agreed hfixed rid r' hr' hkind := by
    cases hagreed hfixed rid r' hr' hkind with
    | inl hold =>
        obtain ⟨r, hr⟩ := hold
        have hlead := hprog.run_before hr' hr
        obtain ⟨m, hm, hwinner⟩ := h.agreed hfixed rid r hr (hlead.kind.symm.trans hkind)
        obtain ⟨m', hm', hmlead⟩ := hprog.markets _ m hm
        exact ⟨m', hlead.market ▸ hm', (hmlead hfixed).trans (hwinner.trans hlead.winner.symm)⟩
    | inr hnew => exact hnew
  planned hstrict rid r' hr' pid p' hp' hmarket hactive := by
    cases hplanned hstrict rid r' hr' with
    | inl hold =>
        obtain ⟨r, hr⟩ := hold
        have hlead := hprog.run_before hr' hr
        cases hprog.timely hstrict pid p' hp' with
        | inl hold =>
            obtain ⟨p, hp⟩ := hold
            have hplead := hprog.position_before hp' hp
            refine (h.planned hstrict rid r hr pid p hp ?_ (hplead.active hactive)).progress
              hprog.items hlead hplead
            exact hplead.market.symm.trans (hmarket.trans hlead.market)
        | inr hnew => exact absurd (hlead.market.symm.trans hmarket.symm) (hnew rid r hr)
    | inr hnew => exact hnew pid p' hp' hmarket hactive
  closed hstrict rid r' hr' hconfirmed := by
    cases hclosed hstrict rid r' hr' hconfirmed with
    | inl hold =>
        obtain ⟨r, hr, hc⟩ := hold
        have hlead := hprog.run_before hr' hr
        rw [hlead.market]
        exact (h.closed hstrict rid r hr hc).progress hstrict hprog hr rfl
    | inr hnew => exact hnew
  paid hstrict pid p' kind hp' hs' := by
    cases hpaid hstrict pid p' kind hp' hs' with
    | inl hold =>
        obtain ⟨p, hp, hs⟩ := hold
        exact (h.paid hstrict pid p kind hp (hs.trans hs')).progress hprog
          (hprog.position_before hp' hp)
    | inr hnew => exact hnew

end CrownFi.Markets
