import CrownFi.Lib.Serial
import CrownFi.Markets.SettlementOutlines

/-!
# CrownFi.Markets.Settled

**Settled markets.** Three results about every interleaving of the requests on markets.
The books of settlement runs are exact, whatever happens. A settled market is settled by a
confirmed run, as long as transitions leave that to the evidence. Every position that a run
closes has its item, as long as no stake is accepted once a settlement was planned. The code
enforces neither condition: serial runs of ordinary requests break the last two results.
-/

namespace CrownFi.Markets

open Lib CrownFi.Api

variable {ext : External} {operations : List Operation}

/-- The markets before their first settlement. -/
structure Unsettled (db : Database) : Prop where
  marketIds : (db.markets.map (·.id)).Nodup
  positionIds : (db.positions.map (·.id)).Nodup
  evidenced : ∀ p ∈ db.positions, ∃ e ∈ db.positionEvidence, e.stakeIntentId = p.stakeIntentId
  unsettled : ∀ m ∈ db.markets, m.status ≠ .settled
  archived : ∀ m ∈ db.markets, m.status = .archived → ∀ p ∈ db.positions, p.marketId = m.id →
    p.status ≠ .active
  unpaid : ∀ p ∈ db.positions, p.status ≠ .settled ∧ p.status ≠ .refunded
  runs : db.runs = []
  items : db.items = []
  settlementEvidence : db.settlementEvidence = []

namespace Unsettled

variable {strict fixed : Prop} {db : Database}

theorem no_run (h : Unsettled db) {rid : Uuid} {r : SettlementRun}
    (hr : runTable.find db rid = some r) : False := by
  simp [runTable, Table.find, h.runs] at hr

theorem books (h : Unsettled db) : Books (fun _ => False) db where
  runIds := by simp [h.runs]
  itemIds := by simp [h.items]
  evidenceItems := by simp [h.settlementEvidence]
  owned i hi := by simp [h.items] at hi
  stocked _ _ hr := (h.no_run hr).elim
  balanced _ _ hr := (h.no_run hr).elim
  confirmed i hi := by simp [h.items] at hi
  used e he := by simp [h.settlementEvidence] at he
  complete _ _ hr := (h.no_run hr).elim

theorem inv (h : Unsettled db) : Inv strict fixed db where
  books := h.books
  marketIds := h.marketIds
  positionIds := h.positionIds
  evidenced := h.evidenced
  settled _ id m hm hs := absurd hs (h.unsettled m (marketTable.find_mem hm).1)
  final _ id m hm hs := by
    obtain ⟨hmem, hid⟩ := marketTable.find_mem hm
    intro pid p hp hmarket
    refine h.archived m hmem (hs.resolve_left (h.unsettled m hmem)) p (positionTable.find_mem hp).1 ?_
    exact hmarket.trans hid.symm
  agreed _ _ _ hr := (h.no_run hr).elim
  planned _ _ _ hr := (h.no_run hr).elim
  closed _ _ _ hr := (h.no_run hr).elim
  paid _ pid p kind hp hs := by
    obtain ⟨hsettled, hrefunded⟩ := h.unpaid p (positionTable.find_mem hp).1
    cases kind with
    | payout => exact absurd hs hsettled
    | refund => exact absurd hs hrefunded

end Unsettled

/-! ### A market and its settlement -/

/-- Stakes come before settlements, and transitions leave a settlement to its evidence. -/
def SettlesOrderly (site : Site) (db : Database) : Prop := StakesEarly site db ∧ EndsOrderly site db

instance (site : Site) (db : Database) : Decidable (SettlesOrderly site db) :=
  inferInstanceAs (Decidable (_ ∧ _))

/-- The account of user `2`, who has staked, and of user `3`, who is about to. -/
def stakerAddress (c : Char) : String := String.ofList ('G' :: List.replicate 55 c)

def stakeHash (c : Char) : String := String.ofList (List.replicate 64 c)

def stakeIntentOf (id userId stellarAccountId : Uuid) (amountMinor : Int)
    (status : StakeIntentStatus) (hash : String) : StakeIntent where
  id := id
  organizationId := 10
  marketId := 20
  outcomeId := 21
  userId := userId
  stellarAccountId := stellarAccountId
  amountMinor := amountMinor
  idempotencyKey := "k"
  requestSha256 := ""
  status := status
  submittedTxHash := some hash
  expiresAt := 0
  confirmedAt := none

/-- A resolved market with one position, on the winning outcome, and a stake on the same
outcome whose evidence has not come yet. User `1` administers the site. -/
def resolvedMarket : Database where
  directory :=
    { clock := seconds 1800000000
      users := [⟨1, .active⟩, ⟨2, .active⟩, ⟨3, .active⟩]
      stellarAccounts :=
        [⟨4, 2, .testnet, stakerAddress 'A', true, true, 0⟩,
          ⟨5, 3, .testnet, stakerAddress 'B', true, true, 0⟩]
      siteAdministrators := [⟨1, .owner, .active⟩]
      organizationMembers := [] }
  organizations := [10]
  pageants := []
  markets :=
    [{ id := 20, organizationId := 10, pageantId := none, slug := "crown"
       question := "Who wins?", description := none, status := .resolved, assetCode := "XLM"
       assetScale := 7, assetIssuer := none, feeBps := 250, minStakeMinor := 1
       maxStakeMinor := 1000, maxUserExposureMinor := 1000, maxMarketExposureMinor := 10000
       opensAt := 0, closesAt := seconds 1700000000, resolutionSource := "The jury"
       policyVersion := "1", winningOutcomeId := some 21 }]
  outcomes := [⟨21, 20, "A", "First", 0, 1000⟩, ⟨22, 20, "B", "Second", 1, 0⟩]
  decisions := [⟨30, 10, 20, none, .settle, .allow, "Settle", "1", 1, none, 0⟩]
  governance := []
  stakeIntents :=
    [stakeIntentOf 40 2 4 1000 .confirmed (stakeHash 'a'), stakeIntentOf 41 3 5 500 .submitted (stakeHash 'b')]
  positionEvidence := [⟨60, 10, 20, 40, 21, 4, stakeHash 'a', 5, "stake-1", 1000, 0⟩]
  positions := [⟨50, 10, 20, 21, 2, 4, 40, 1000, .active, some 60, some 0, 0⟩]
  runs := []
  items := []
  settlementEvidence := []

theorem resolvedMarket_unsettled : Unsettled resolvedMarket where
  marketIds := by decide
  positionIds := by decide
  evidenced := by decide
  unsettled := by decide
  archived := by decide
  unpaid := by decide
  runs := rfl
  items := rfl
  settlementEvidence := rfl

def marketExternal : External where
  sha256 _ := Vector.replicate 32 0
  parseRfc3339 _ := none
  governed _ := true

def planRequest : Positions.CreateSettlementPlanRequest := ⟨"plan", "Pay the winners."⟩

def planIds : Positions.PlanIds := ⟨70, fun n => .ofNat 128 (71 + n), 80⟩

def payoutRequest : Settlement.SettlementEvidenceRequest :=
  ⟨stakeHash 'c', 6, 0, "payout-1", stakerAddress 'A', 975, .object []⟩

def lateStakeRequest : Positions.AcceptPositionEvidenceRequest :=
  ⟨41, stakeHash 'b', 6, "stake-2", stakerAddress 'B', 500, .object []⟩

def transitionRequest (target : String) : Governance.TransitionMarketRequest :=
  ⟨target, "It is over.", none, .null⟩

def planIt : Prog Database Row Site Result :=
  (Positions.createSettlementPlan marketExternal 1 20 planRequest planIds).request

def submitIt : Prog Database Row Site Result :=
  (Settlement.recordSubmission 71 (stakeHash 'c')).request

def payIt : Prog Database Row Site Result :=
  (Settlement.acceptSettlementEvidence marketExternal 71 payoutRequest ⟨90, 81⟩).request

def stakeLate : Prog Database Row Site Result :=
  (Positions.acceptPositionEvidence 20 lateStakeRequest ⟨61, 51⟩).request

def moveTo (target : String) (eventId : Uuid) : Prog Database Row Site Result :=
  (Governance.transitionMarket marketExternal 1 20 (transitionRequest target) eventId).request

/-- The operations that pay a market out. -/
def payoutOperations : List Operation :=
  [.acceptPositionEvidence, .createSettlementPlan, .recordSettlementSubmission,
    .acceptSettlementEvidence, .environment]

/-- The operations on a market. -/
def marketOperations : List Operation :=
  [.createMarket, .recordPolicyDecision, .transitionMarket, .createStakeIntent, .getMarketIntent,
    .recordStakeSubmission] ++ payoutOperations

theorem planIt_request : Requests marketExternal payoutOperations planIt :=
  ⟨_, by decide, .createSettlementPlan 1 20 planRequest planIds⟩

theorem submitIt_request : Requests marketExternal payoutOperations submitIt :=
  ⟨_, by decide, .recordSettlementSubmission 71 (stakeHash 'c')⟩

theorem payIt_request : Requests marketExternal payoutOperations payIt :=
  ⟨_, by decide, .acceptSettlementEvidence 71 payoutRequest ⟨90, 81⟩⟩

theorem stakeLate_request : Requests marketExternal payoutOperations stakeLate :=
  ⟨_, by decide, .acceptPositionEvidence 20 lateStakeRequest ⟨61, 51⟩⟩

/-- The market is settled, its run confirmed and its position closed. -/
def ClosedOut (db : Database) : Prop :=
  db.markets.map (·.status) = [.settled] ∧ db.runs.map (·.status) = [.confirmed] ∧
    db.positions.map (·.status) = [.settled]

instance (db : Database) : Decidable (ClosedOut db) := inferInstanceAs (Decidable (_ ∧ _))

theorem settlement_outcome :
    (Pool.serveAll SettlesOrderly resolvedMarket [planIt, submitIt, payIt]).any (fun paid =>
      decide (ClosedOut paid.2) && (Pool.serveAll (fun _ _ => True) paid.2 [payIt]).isSome) = true := by
  decide +kernel

/-- The settlement as a run, and its last message sent again as a run behind it. -/
theorem settlement_runs : ∃ paid later : Database,
    (∃ actions, Run (Pool.Step (Requests marketExternal payoutOperations) SettlesOrderly)
      (Pool.idle resolvedMarket) actions (Pool.idle paid)) ∧
    ClosedOut paid ∧
    (∃ actions, Run (Pool.Step (Requests marketExternal payoutOperations) fun _ _ => True)
      (Pool.idle paid) actions (Pool.idle later)) := by
  obtain ⟨paid, hpaid, hall⟩ := (Option.any_eq_true _ _).mp settlement_outcome
  obtain ⟨hclosed, hlater⟩ := (Bool.and_eq_true _ _).mp hall
  obtain ⟨later, hserved⟩ := Option.isSome_iff_exists.mp hlater
  refine ⟨paid.2, later.2, Pool.run_of_serveAll ?_ hpaid, of_decide_eq_true hclosed,
    Pool.run_of_serveAll ?_ hserved⟩
  · intro p hp
    simp only [List.mem_cons, List.not_mem_nil, or_false] at hp
    obtain rfl | rfl | rfl := hp
    · exact planIt_request
    · exact submitIt_request
    · exact payIt_request
  · intro p hp
    obtain rfl := List.mem_singleton.mp hp
    exact payIt_request

/-! ### Runs are exact -/

/-- The books of the settlement runs. -/
structure RunsExact (db : Database) : Prop where
  stocked : ∀ r ∈ db.runs, ∃ i ∈ db.items, i.settlementRunId = r.id
  complete : ∀ r ∈ db.runs, r.status = .confirmed ↔
    ∀ i ∈ db.items, i.settlementRunId = r.id → i.status = .confirmed
  evidenced : ∀ i ∈ db.items, i.status = .confirmed →
    ∃ e ∈ db.settlementEvidence, Confirms e i ∧ ∀ e' ∈ db.settlementEvidence,
      e'.settlementItemId = i.id → e' = e
  used : ∀ e ∈ db.settlementEvidence, ∃ i ∈ db.items, Confirms e i ∧
    ∀ i' ∈ db.items, Confirms e i' → i' = i
  balanced : ∀ r ∈ db.runs, r.status = .confirmed →
    ((db.items.filter (·.settlementRunId = r.id)).map (·.payoutMinor)).sum = r.distributableMinor

theorem Books.exact {db : Database} (h : Books (fun _ => False) db) : RunsExact db where
  stocked r hr := by
    obtain ⟨i, hi⟩ := List.exists_mem_of_ne_nil _ (h.stocked r.id r (find?_key h.runIds hr))
    obtain ⟨hmem, hrun⟩ := mem_itemsOf.mp hi
    exact ⟨i, hmem, hrun⟩
  complete r hr := by
    rw [h.complete r.id r (find?_key h.runIds hr) id]
    refine ⟨fun hall i hi hrun => hall i (mem_itemsOf.mpr ⟨hi, hrun⟩), fun hall i hi => ?_⟩
    obtain ⟨hmem, hrun⟩ := mem_itemsOf.mp hi
    exact hall i hmem hrun
  evidenced i hi hs := by
    obtain ⟨e, he, hconfirms⟩ := h.confirmed i hi hs
    refine ⟨e, he, hconfirms, fun e' he' hitem => ?_⟩
    exact List.inj_on_of_nodup_map h.evidenceItems he' he (hitem.trans hconfirms.item.symm)
  used e he := by
    obtain ⟨i, hi, hconfirms⟩ := h.used e he
    refine ⟨i, hi, hconfirms, fun i' hi' hconfirms' => ?_⟩
    exact List.inj_on_of_nodup_map h.itemIds hi' hi (hconfirms'.item.symm.trans hconfirms.item)
  balanced r hr _ := h.balanced r.id r (find?_key h.runIds hr)

theorem condition_free : Condition False False = fun _ _ => True := by
  funext site db
  simp [Condition]

theorem condition_stakes : Condition True True = StakesEarly := by
  funext site db
  simp [Condition]

/-- **Settlement runs are exact** in every state of every run of the markets, and a run that
is confirmed stays confirmed from then on. -/
theorem settlement_runs_exact {db₀ : Database} (h₀ : Unsettled db₀)
    {pool pool' : Pool Database Row Site Result} {actions actions' : List (Action Database Row Site Result)}
    (hrun : Run (Pool.Step (Requests ext operations) fun _ _ => True) (Pool.idle db₀) actions pool)
    (hlater : Run (Pool.Step (Requests ext operations) fun _ _ => True) pool actions' pool') :
    RunsExact pool.db ∧ ∀ r ∈ pool.db.runs, r.status = .confirmed →
      ∃ r' ∈ pool'.db.runs, r'.id = r.id ∧ r'.status = .confirmed := by
  rw [← condition_free] at hrun hlater
  have hsafe (p : Prog Database Row Site Result) (hp : Requests ext operations p) :
      SafeRequest (Inv False False) (Forward part (Rely False False)) (Condition False False) p :=
    safe_request (fun h => h.elim) hp
  have hhealthy := run_healthy hsafe hrun (healthy_idle h₀.inv)
  have hruns : runTable.Grows SettlementRun.Leads pool.db pool'.db :=
    run_moved hsafe (R := runTable.Grows SettlementRun.Leads) (fun _ => .refl) (fun _ _ _ => .trans)
      (fun _ _ _ _ _ hG => hG.moved.runs) hlater hhealthy
  refine ⟨hhealthy.inv.books.exact, fun r hr hs => ?_⟩
  obtain ⟨r', hr', hlead⟩ := hruns r.id r (find?_key hhealthy.inv.books.runIds hr)
  obtain ⟨hmem, hid⟩ := runTable.find_mem hr'
  exact ⟨r', hmem, hid, hlead.confirmed hs⟩

/-- The run of the settlement is exact, also after its evidence was sent once more. -/
theorem settlement_exact :
    ∃ (pool pool' : Pool Database Row Site Result)
      (actions actions' : List (Action Database Row Site Result)),
      Run (Pool.Step (Requests marketExternal payoutOperations) fun _ _ => True)
        (Pool.idle resolvedMarket) actions pool ∧
      Run (Pool.Step (Requests marketExternal payoutOperations) fun _ _ => True) pool actions' pool' ∧
      pool.db.runs.map (·.status) = [.confirmed] ∧
      RunsExact pool.db ∧ ∀ r ∈ pool.db.runs, r.status = .confirmed →
        ∃ r' ∈ pool'.db.runs, r'.id = r.id ∧ r'.status = .confirmed := by
  obtain ⟨paid, later, ⟨actions, hrun⟩, hclosed, actions', hrun'⟩ := settlement_runs
  have hfirst : Run (Pool.Step (Requests marketExternal payoutOperations) fun _ _ => True)
      (Pool.idle resolvedMarket) actions (Pool.idle paid) :=
    hrun.mono fun _ _ _ h => h.mono (fun _ h => h) fun _ _ _ => trivial
  exact ⟨_, _, actions, actions', hfirst, hrun', hclosed.2.1,
    settlement_runs_exact resolvedMarket_unsettled hfirst hrun'⟩

/-! ### Settled markets -/

/-- A settled market has a confirmed run, all of whose items are confirmed by evidence, and no
market that is over has an active position. -/
structure TrulySettled (db : Database) : Prop where
  settled : ∀ m ∈ db.markets, m.status = .settled →
    ∃ r ∈ db.runs, r.marketId = m.id ∧ r.status = .confirmed ∧
      ∀ i ∈ db.items, i.settlementRunId = r.id → ∃ e ∈ db.settlementEvidence, Confirms e i
  closed : ∀ m ∈ db.markets, m.status = .settled ∨ m.status = .archived →
    ∀ p ∈ db.positions, p.marketId = m.id → p.status ≠ .active

theorem Inv.trulySettled {fixed : Prop} {db : Database} (h : Inv True fixed db) : TrulySettled db where
  settled m hm hs := by
    obtain ⟨rid, r, hr, hmarket, hconfirmed⟩ := h.settled trivial m.id m (find?_key h.marketIds hm) hs
    obtain ⟨hmem, hid⟩ := runTable.find_mem hr
    refine ⟨r, hmem, hmarket, hconfirmed, fun i hi hrun => h.books.confirmed i hi ?_⟩
    exact (h.books.exact.complete r hmem).mp hconfirmed i hi hrun
  closed m hm hs p hp hmarket :=
    h.final trivial m.id m (find?_key h.marketIds hm) hs p.id p (find?_key h.positionIds hp) hmarket

theorem condition_orderly : Condition True False = SettlesOrderly := by
  funext site db
  simp [Condition, SettlesOrderly]

/-- **A settled market has really been settled**, in every run whose transitions and stakes are
orderly. -/
theorem settled_markets_settled {db₀ : Database} (h₀ : Unsettled db₀)
    {pool : Pool Database Row Site Result} {actions : List (Action Database Row Site Result)}
    (hrun : Run (Pool.Step (Requests ext operations) SettlesOrderly) (Pool.idle db₀) actions pool) :
    TrulySettled pool.db := by
  rw [← condition_orderly] at hrun
  have hsafe (p : Prog Database Row Site Result) (hp : Requests ext operations p) :
      SafeRequest (Inv True False) (Forward part (Rely True False)) (Condition True False) p :=
    safe_request (fun h => h.elim) hp
  exact (run_healthy hsafe hrun (healthy_idle h₀.inv)).inv.trulySettled

/-- The market is settled by its run. -/
theorem settlement_settled :
    ∃ (pool : Pool Database Row Site Result) (actions : List (Action Database Row Site Result)),
      Run (Pool.Step (Requests marketExternal payoutOperations) SettlesOrderly)
        (Pool.idle resolvedMarket) actions pool ∧
      pool.db.markets.map (·.status) = [.settled] ∧ TrulySettled pool.db := by
  obtain ⟨paid, -, ⟨actions, hrun⟩, hclosed, -⟩ := settlement_runs
  exact ⟨_, actions, hrun, hclosed.1, settled_markets_settled resolvedMarket_unsettled hrun⟩

theorem moves_outcome :
    (Pool.serveAll (fun _ _ => True) resolvedMarket [moveTo "settling" 82, moveTo "settled" 83]).any
      (fun moved => moved.2.markets.map (·.status) = [.settled] && moved.2.runs.isEmpty) = true := by
  decide +kernel

/-- Without the condition, two transitions settle a market that has no settlement run. -/
theorem settled_without_run :
    ¬ ∀ (ext : External) (db₀ : Database), Unsettled db₀ →
      ∀ (pool : Pool Database Row Site Result) (actions : List (Action Database Row Site Result)),
        Run (Pool.Step (Requests ext marketOperations) fun _ _ => True) (Pool.idle db₀) actions pool →
        TrulySettled pool.db := by
  intro h
  obtain ⟨moved, hmoved, hall⟩ := (Option.any_eq_true _ _).mp moves_outcome
  simp only [Bool.and_eq_true, decide_eq_true_eq, List.isEmpty_iff] at hall
  obtain ⟨hmarkets, hruns⟩ := hall
  have hmoves : ∀ p ∈ [moveTo "settling" 82, moveTo "settled" 83],
      Requests marketExternal marketOperations p := by
    simp only [List.forall_mem_cons]
    refine ⟨?_, ?_, fun p hp => by cases hp⟩
    · exact ⟨_, by decide, .transitionMarket 1 20 _ 82⟩
    · exact ⟨_, by decide, .transitionMarket 1 20 _ 83⟩
  obtain ⟨actions, hrun⟩ := Pool.run_of_serveAll hmoves hmoved
  have hm : MarketStatus.settled ∈ moved.2.markets.map (·.status) := by
    rw [hmarkets]
    exact List.mem_cons_self
  obtain ⟨m, hmem, hstatus⟩ := List.mem_map.mp hm
  obtain ⟨r, hr, -⟩ := (h _ _ resolvedMarket_unsettled _ _ hrun).settled m hmem hstatus
  rw [show (Pool.idle moved.2).db.runs = [] from hruns] at hr
  cases hr

/-! ### Closed positions -/

/-- Every position that a settlement closed was paid, and none is left behind. -/
structure PaidOut (db : Database) : Prop where
  refunded : ∀ p ∈ db.positions, p.status = .refunded →
    ∃ i ∈ db.items, i.positionId = p.id ∧ i.status = .confirmed ∧ i.payoutMinor = p.amountMinor
  settled : ∀ p ∈ db.positions, p.status = .settled → ∀ m ∈ db.markets, m.id = p.marketId →
    m.winningOutcomeId = some p.outcomeId → ∃ i ∈ db.items, i.positionId = p.id ∧ i.status = .confirmed
  confirmed : ∀ r ∈ db.runs, r.status = .confirmed → ∀ p ∈ db.positions, p.marketId = r.marketId →
    p.status ≠ .active
  ended : ∀ m ∈ db.markets, m.status = .settled → ∀ p ∈ db.positions, p.marketId = m.id →
    p.status ≠ .active

/-- The item that a confirmed run has for a position. -/
theorem Inv.item_of_paidBy {strict fixed : Prop} {db : Database} (h : Inv strict fixed db)
    {rid pid : Uuid} {r : SettlementRun} {p : Position} (hr : runTable.find db rid = some r)
    (hconfirmed : r.status = .confirmed) (hplanned : Planned db rid r pid p)
    (howes : r.kind = .refund ∨ r.winningOutcomeId = some p.outcomeId) :
    ∃ i ∈ db.items, i.positionId = pid ∧ i.status = .confirmed ∧
      (r.kind = .refund → i.payoutMinor = p.amountMinor) := by
  obtain ⟨id, i, hi, hrun, hposition, hpayout⟩ := hplanned howes
  have hmem := (itemTable.find_mem hi).1
  exact ⟨i, hmem, hposition, (h.books.complete rid r hr fun h => h).mp hconfirmed i
    (mem_itemsOf.mpr ⟨hmem, hrun⟩), hpayout⟩

theorem Inv.paidOut {db : Database} (h : Inv True True db) : PaidOut db where
  refunded p hp hs := by
    obtain ⟨rid, r, hr, -, hkind, hconfirmed, hplanned⟩ :=
      h.paid trivial p.id p .refund (find?_key h.positionIds hp) hs
    obtain ⟨i, hi, hposition, hstatus, hpayout⟩ :=
      h.item_of_paidBy hr hconfirmed hplanned (.inl hkind)
    exact ⟨i, hi, hposition, hstatus, hpayout hkind⟩
  settled p hp hs m hm hmarket hwinner := by
    obtain ⟨rid, r, hr, hrmarket, hkind, hconfirmed, hplanned⟩ :=
      h.paid trivial p.id p .payout (find?_key h.positionIds hp) hs
    obtain ⟨m', hm', hagreed⟩ := h.agreed trivial rid r hr hkind
    have hfind : marketTable.find db r.marketId = some m := by
      rw [hrmarket, ← hmarket]
      exact find?_key h.marketIds hm
    obtain rfl := Option.some.inj (hm'.symm.trans hfind)
    obtain ⟨i, hi, hposition, hstatus, -⟩ :=
      h.item_of_paidBy hr hconfirmed hplanned (.inr (hagreed.symm.trans hwinner))
    exact ⟨i, hi, hposition, hstatus⟩
  confirmed r hr hs p hp :=
    h.closed trivial r.id r (find?_key h.books.runIds hr) hs p.id p (find?_key h.positionIds hp)
  ended m hm hs := h.trulySettled.closed m hm (.inl hs)

/-- **Every position closed by a settlement was paid**, in every run that accepts no stake once
its market has a settlement run or is over. -/
theorem closed_positions_paid {db₀ : Database} (h₀ : Unsettled db₀)
    (hops : .transitionMarket ∉ operations) {pool : Pool Database Row Site Result}
    {actions : List (Action Database Row Site Result)}
    (hrun : Run (Pool.Step (Requests ext operations) StakesEarly) (Pool.idle db₀) actions pool) :
    PaidOut pool.db := by
  rw [← condition_stakes] at hrun
  have hsafe (p : Prog Database Row Site Result) (hp : Requests ext operations p) :
      SafeRequest (Inv True True) (Forward part (Rely True True)) (Condition True True) p :=
    safe_request (fun _ => hops) hp
  exact (run_healthy hsafe hrun (healthy_idle h₀.inv)).inv.paidOut

/-- The position of the settlement was paid. -/
theorem settlement_paid :
    ∃ (pool : Pool Database Row Site Result) (actions : List (Action Database Row Site Result)),
      Run (Pool.Step (Requests marketExternal payoutOperations) StakesEarly)
        (Pool.idle resolvedMarket) actions pool ∧
      pool.db.positions.map (·.status) = [.settled] ∧ PaidOut pool.db := by
  obtain ⟨paid, -, ⟨actions, hrun⟩, hclosed, -⟩ := settlement_runs
  have hrun' : Run (Pool.Step (Requests marketExternal payoutOperations) StakesEarly)
      (Pool.idle resolvedMarket) actions (Pool.idle paid) :=
    hrun.mono fun _ _ _ h => h.mono (fun _ h => h) fun _ _ h => h.1
  exact ⟨_, actions, hrun', hclosed.2.2,
    closed_positions_paid resolvedMarket_unsettled (by decide) hrun'⟩

theorem lateStake_outcome :
    (Pool.serveAll (fun _ _ => True) resolvedMarket [planIt, stakeLate, submitIt, payIt]).any
      (fun paid => paid.2.positions.map (fun p => (p.id, p.status, p.outcomeId, p.marketId)) =
          [(50, .settled, 21, 20), (51, .settled, 21, 20)] &&
        paid.2.markets.map (fun m => (m.id, m.winningOutcomeId)) = [(20, some 21)] &&
        paid.2.items.map (·.positionId) = [50]) = true := by
  decide +kernel

/-- Without the condition, a stake accepted after the plan is closed without an item. -/
theorem late_stake_unpaid :
    ¬ ∀ (ext : External) (db₀ : Database), Unsettled db₀ →
      ∀ (pool : Pool Database Row Site Result) (actions : List (Action Database Row Site Result)),
        Run (Pool.Step (Requests ext payoutOperations) fun _ _ => True) (Pool.idle db₀) actions pool →
        PaidOut pool.db := by
  intro h
  obtain ⟨paid, hpaid, hall⟩ := (Option.any_eq_true _ _).mp lateStake_outcome
  simp only [Bool.and_eq_true, decide_eq_true_eq] at hall
  obtain ⟨⟨hpositions, hmarkets⟩, hitems⟩ := hall
  have hrequests : ∀ p ∈ [planIt, stakeLate, submitIt, payIt],
      Requests marketExternal payoutOperations p := by
    simp only [List.forall_mem_cons]
    exact ⟨planIt_request, stakeLate_request, submitIt_request, payIt_request,
      fun p hp => by cases hp⟩
  obtain ⟨actions, hrun⟩ := Pool.run_of_serveAll hrequests hpaid
  have hp : ((51, .settled, 21, 20) : Uuid × PositionStatus × Uuid × Uuid) ∈
      paid.2.positions.map fun p => (p.id, p.status, p.outcomeId, p.marketId) := by
    rw [hpositions]
    decide
  have hm : ((20, some 21) : Uuid × Option Uuid) ∈
      paid.2.markets.map fun m => (m.id, m.winningOutcomeId) := by
    rw [hmarkets]
    decide
  obtain ⟨p, hpmem, hpeq⟩ := List.mem_map.mp hp
  obtain ⟨m, hmmem, hmeq⟩ := List.mem_map.mp hm
  simp only [Prod.mk.injEq] at hpeq hmeq
  obtain ⟨hpid, hstatus, houtcome, hmarket⟩ := hpeq
  obtain ⟨hmid, hwinner⟩ := hmeq
  obtain ⟨i, hi, hposition, -⟩ := (h _ _ resolvedMarket_unsettled _ _ hrun).settled p hpmem hstatus m
    hmmem (hmid.trans hmarket.symm) (by rw [hwinner, houtcome])
  have hitem : i.positionId ∈ paid.2.items.map (·.positionId) := List.mem_map_of_mem hi
  rw [hitems, hposition, hpid] at hitem
  exact absurd hitem (by decide)

end CrownFi.Markets
