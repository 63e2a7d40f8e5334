import CrownFi.Lib.Confined
import CrownFi.Markets.Settled
import Mathlib.Data.List.Chain

/-!
# CrownFi.Markets.GovernanceChain

**The governance log of a market as a chain.** A transition reads the status of a market, checks
that it may move to the target, and then writes the target into whatever row it finds. The event
that it logs says where the market was when it was read. So the log is a chain, and the market
moves along the transition table, exactly as long as the update finds the market in the status
that was read: two transitions that read the same status and both commit break the log, and may
reopen a cancelled market.
-/

namespace CrownFi.Markets

open Lib CrownFi.Api

variable {ext : External}

/-! ### The chain -/

/-- The events of a market, in the order of their commits. -/
def history (id : Uuid) (db : Database) : List GovernanceEvent :=
  db.governance.filter (·.marketId = id)

/-- A step of the transition table, or the creation of a draft. -/
def GovernanceEvent.Allowed (e : GovernanceEvent) : Prop :=
  match e.previousStatus, e.newStatus with
  | some source, some target => Governance.validTransition source target = true
  | none, some target => target = .draft
  | _, none => False

/-- The log of a market: each event goes on where the one before ended, by a step of the
transition table, and the market is where the last one ended. -/
structure Chained (id : Uuid) (db : Database) : Prop where
  linked : (history id db).IsChain fun e e' => e'.previousStatus = e.newStatus
  allowed : ∀ e ∈ history id db, e.Allowed
  current : ∀ e, (history id db).getLast? = some e → ∀ m, marketTable.find db id = some m →
    e.newStatus = some m.status

/-- What a market may become: a market further along the transition table. -/
def Market.Onward (m m' : Market) : Prop :=
  Relation.ReflTransGen (fun s t => Governance.validTransition s t = true) m.status m'.status

instance : IsPreorder Market Market.Onward where
  refl _ := .refl
  trans _ _ _ h h' := h.trans h'

/-- Cancelled markets are archived at most. -/
theorem Market.Onward.cancelled {m m' : Market} (h : m.Onward m') (hm : m.status = .cancelled) :
    m'.status = .cancelled ∨ m'.status = .archived := by
  have hstep (s t : MarketStatus) (hs : s = .cancelled ∨ s = .archived)
      (hvalid : Governance.validTransition s t = true) : t = .cancelled ∨ t = .archived := by
    rcases hs with rfl | rfl
    · revert hvalid
      cases t <;> decide
    · revert hvalid
      cases t <;> decide
  unfold Market.Onward at h
  generalize m'.status = last at h ⊢
  induction h with
  | refl => exact .inl hm
  | tail _ hvalid ih => exact hstep _ _ ih hvalid

/-- An update of a transition finds its market in the status that the request read. -/
def TransitionsCurrent : Site → Database → Prop
  | .transition id source _, db => (marketTable.find db id).map (·.status) = some source
  | _, _ => True

instance (site : Site) (db : Database) : Decidable (TransitionsCurrent site db) := by
  unfold TransitionsCurrent
  split <;> infer_instance

/-! ### One transition -/

section Step

variable {db : Database} {e : GovernanceEvent} {view : Database} {id : Uuid} {m : Market}
  {target : MarketStatus} {winningOutcomeId : Option Uuid}

/-- The change of a transition: the market enters its status, and the event is logged. -/
def entered (market : Uuid) (target : MarketStatus) (winningOutcomeId : Option Uuid)
    (e : GovernanceEvent) (view db : Database) : Database :=
  governanceTable.add e
    (marketTable.modify (·.id = market) (Governance.Market.enter target winningOutcomeId) view db)

theorem history_entered :
    history id (entered e.marketId target winningOutcomeId e view db) =
      history id db ++ if e.marketId = id then [e] else [] := by
  show (db.governance ++ [e]).filter _ = _
  rw [List.filter_append, history]
  congr 1
  by_cases h : e.marketId = id <;> simp [h]

theorem find_entered_of_ne (h : e.marketId ≠ id) :
    marketTable.find (entered e.marketId target winningOutcomeId e view db) id =
      marketTable.find db id := by
  have hnot : id ∉ (marketTable.matching (·.id = e.marketId) view).map marketTable.key := by
    intro hmem
    obtain ⟨n, hn, rfl⟩ := List.mem_map.mp hmem
    exact h (of_decide_eq_true (marketTable.mem_matching.mp hn).2).symm
  exact marketTable.find_modify_of_not_mem
    (f := Governance.Market.enter target winningOutcomeId) (fun _ => rfl) hnot

/-- The market that the update saw. -/
theorem find_entered (target : MarketStatus) (winningOutcomeId : Option Uuid)
    (hview : marketTable.find view e.marketId = some m)
    (hdb : (marketTable.find db e.marketId).map (·.status) = some m.status) :
    (marketTable.find (entered e.marketId target winningOutcomeId e view db) e.marketId).map
      (·.status) = some target := by
  obtain ⟨n, hn, -⟩ := Option.map_eq_some_iff.mp hdb
  obtain ⟨hmem, hid⟩ := marketTable.find_mem hview
  have hkey : n.id = e.marketId := (marketTable.find_mem hn).2
  have hmatched : marketTable.key n ∈
      (marketTable.matching (·.id = e.marketId) view).map marketTable.key :=
    List.mem_map.mpr ⟨m, marketTable.mem_matching.mpr ⟨hmem, decide_eq_true hid⟩, hid.trans hkey.symm⟩
  show (marketTable.find (marketTable.modify _ _ view db) e.marketId).map _ = _
  rw [marketTable.find_modify (f := Governance.Market.enter target winningOutcomeId) (fun _ => rfl),
    hn, Option.map_some, if_pos]
  · rfl
  · exact Bool.and_eq_true_iff.mpr ⟨decide_eq_true hkey, decide_eq_true hmatched⟩

/-- **A transition that finds its market where it was read** goes on with the chain. -/
theorem Chained.entered (h : Chained id db) (hview : marketTable.find view e.marketId = some m)
    (hdb : (marketTable.find db e.marketId).map (·.status) = some m.status)
    (hprevious : e.previousStatus = some m.status) (hnew : e.newStatus = some target)
    (hvalid : Governance.validTransition m.status target = true) :
    Chained id (entered e.marketId target winningOutcomeId e view db) := by
  by_cases hid : e.marketId = id
  · subst hid
    obtain ⟨n, hn, hstatus⟩ := Option.map_eq_some_iff.mp hdb
    constructor
    · rw [history_entered, if_pos rfl, List.isChain_append]
      refine ⟨h.linked, List.isChain_singleton _, fun last hlast first hfirst => ?_⟩
      obtain rfl : e = first := by simpa using hfirst
      rw [hprevious, h.current last hlast n hn, hstatus]
    · rw [history_entered, if_pos rfl, List.forall_mem_append]
      refine ⟨h.allowed, fun e' he' => ?_⟩
      obtain rfl := List.mem_singleton.mp he'
      rw [GovernanceEvent.Allowed, hprevious, hnew]
      exact hvalid
    · intro last hlast n' hn'
      rw [history_entered, if_pos rfl, List.getLast?_concat] at hlast
      obtain rfl := Option.some.inj hlast
      have hentered := find_entered target winningOutcomeId hview hdb
      rw [hn', Option.map_some] at hentered
      rw [hnew, hentered]
  · constructor
    · rw [history_entered, if_neg hid, List.append_nil]
      exact h.linked
    · rw [history_entered, if_neg hid, List.append_nil]
      exact h.allowed
    · rw [history_entered, if_neg hid, List.append_nil, find_entered_of_ne hid]
      exact h.current

theorem Chained.of_same {db' : Database} (h : Chained id db) (hmarkets : db'.markets = db.markets)
    (hgovernance : db'.governance = db.governance) : Chained id db' := by
  have hhistory : history id db' = history id db := by rw [history, hgovernance, history]
  have hfind : marketTable.find db' id = marketTable.find db id := by
    show db'.markets.find? _ = db.markets.find? _
    rw [hmarkets]
  exact ⟨hhistory ▸ h.linked, hhistory ▸ h.allowed, hhistory ▸ hfind ▸ h.current⟩

end Step

/-! ### The outlines -/

/-- The log of every market is a chain. -/
def AllChained (db : Database) : Prop := ∀ id, Chained id db

/-- Markets stay, and move along the transition table. -/
abbrev Advances : Database → Database → Prop := marketTable.Grows Market.Onward

/-- A request that keeps the chains. -/
abbrev KeepsChains (p : Prog Database Row Site Result) : Prop :=
  SafeRequest AllChained (Forward part fun _ => Advances) TransitionsCurrent p

/-- A locked market stays in its status. -/
theorem stable_status {L : List (Lock Row)} {marketId : Uuid} {status : MarketStatus} {m : LockMode}
    (hlock : ⟨.market marketId, m⟩ ∈ L) (hmode : m.protects = true) :
    Stable AllChained (Forward part fun _ => Advances) L
      fun db => (marketTable.find db marketId).map (·.status) = some status := by
  intro L' db db' hcompat _ _ hA hG
  rw [marketLayout.find_eq (hG.framed.locked hcompat hlock hmode)]
  exact hA

theorem onward_entered {e : GovernanceEvent} {view db : Database} {source target : MarketStatus}
    {winningOutcomeId : Option Uuid}
    (hdb : (marketTable.find db e.marketId).map (·.status) = some source)
    (hvalid : Governance.validTransition source target = true) :
    Advances db (entered e.marketId target winningOutcomeId e view db) := by
  intro id m hm
  obtain ⟨m', hm', hcases⟩ : ∃ m', marketTable.find
      (entered e.marketId target winningOutcomeId e view db) id = some m' ∧
      (m' = m ∨ (m.id = e.marketId ∧ m' = Governance.Market.enter target winningOutcomeId m)) := by
    refine ⟨_, (marketTable.find_modify (f := Governance.Market.enter target winningOutcomeId)
      (fun _ => rfl) id).trans (congrArg _ hm), ?_⟩
    beta_reduce
    split
    · rename_i hcond
      exact .inr ⟨of_decide_eq_true (Bool.and_eq_true_iff.mp hcond).1, rfl⟩
    · exact .inl rfl
  refine ⟨m', hm', ?_⟩
  rcases hcases with rfl | ⟨hid, rfl⟩
  · exact refl_of Market.Onward m'
  · obtain rfl : id = e.marketId := (marketTable.find_mem hm).2.symm.trans hid
    rw [hm, Option.map_some, Option.some.injEq] at hdb
    exact .single (hdb ▸ hvalid)

theorem part_addGovernance (e : GovernanceEvent) (db : Database) (k : Row) :
    part (governanceTable.add e db) k = part db k := by
  cases k <;> rfl

theorem enterStatus_keepsChains {actorUserId : Uuid} {market : Market} {target : MarketStatus}
    {winningOutcomeId : Option Uuid} {reason : String} {eventId : Uuid}
    (hvalid : Governance.validTransition market.status target = true) :
    KeepsChains
      (Governance.enterStatus ext actorUserId market target winningOutcomeId reason eventId).request := by
  unfold KeepsChains SafeRequest Handler.request Governance.enterStatus
  refine safe_bind (Lib.safe_update fun db₁ hI₁ hA₁ hok => ?_)
  obtain ⟨m, hm, hstatus⟩ := Option.map_eq_some_iff.mp hok
  have hkey : market.id ∈ (marketTable.matching (·.id = market.id) db₁).map (·.id) := by
    obtain ⟨hmem, hid⟩ := marketTable.find_mem hm
    exact List.mem_map.mpr ⟨m, marketTable.mem_matching.mpr ⟨hmem, decide_eq_true hid⟩, hid⟩
  -- the update locks the market, which therefore stays where it was read
  obtain ⟨B, hB, h₁, hread⟩ := Track.start.afterKnowing hA₁ hok
    (stable_status (mem_matching_id (L := []) hkey) rfl)
  refine ⟨B, hB, h₁.track.stable, ?_⟩
  have ht₁ := h₁.track.modifyLocked marketLayout (f := Governance.Market.enter target winningOutcomeId)
    (fun _ => rfl) fun m => ⟨_, List.mem_singleton.mpr rfl, rfl, rfl⟩
  refine safe_bind (ht₁.safe_insertRow fun db₂ B₂ _ _ _ h₂ => ?_)
  refine safe_bind ((h₂.track.hide (part_addGovernance _)).safe_commit (fun db hI hdb => ?_) safe_ret)
  have hdb := hread db (h₂.before db hdb)
  constructor
  · intro id
    exact (hI id).entered (m := m) hm (hstatus.symm ▸ hdb) (congrArg some hstatus.symm) rfl
      (hstatus.symm ▸ hvalid)
  · exact onward_entered hdb hvalid

/-! ### The checks before it -/

theorem reads_requireTarget {market : Market} {body : Governance.TransitionMarketRequest}
    {target : MarketStatus} {now : Int} :
    Tx.Reads (Governance.requireTarget market body target now) fun _ => True := by
  cases target with
  | «open» => exact .bind .require fun _ _ => .check
  | resolutionPending => exact .bind .require fun _ _ => .check
  | resolved =>
      refine .bind .check fun _ _ => .bind .orElse fun _ _ => ?_
      exact .bind .check fun _ _ => Tx.Reads.require.weaken fun _ _ => trivial
  | settling => exact .check
  | _ => exact .pure trivial

theorem transitionMarket_keepsChains (actorUserId marketId : Uuid)
    (body : Governance.TransitionMarketRequest) (eventId : Uuid) :
    KeepsChains (Governance.transitionMarket ext actorUserId marketId body eventId).request := by
  unfold KeepsChains SafeRequest Handler.request Governance.transitionMarket
  refine safe_bind (safe_bind (safe_select stable_true fun _ found _ _ _ => ?_))
  refine safe_orElse fun market _ => safe_bind (safe_ofExcept fun reason _ => ?_)
  have rest : Safe AllChained (Forward part fun _ => Advances) TransitionsCurrent ((do
      let target ← Tx.orElse ((MarketStatus.ofText (String.ofList (trimLower body.targetStatus))).filter
        (Governance.validTransition market.status)) (.error (.conflict "invalid_market_transition"))
      let now ← Tx.select .other (·.directory.clock)
      Governance.requireTarget market body target now
      Tx.require (Governance.isNull body.evidence || body.evidence.isObject)
        (.error (.invalidRequest "transition_evidence_must_be_object"))
      Governance.enterStatus ext actorUserId market target body.winningOutcomeId reason eventId :
      Handler Response) fun r => .ret (.ok r)) [] id fun _ => True := by
    refine safe_bind (safe_orElse fun target htarget => ?_)
    refine safe_bind (safe_select stable_true fun _ now _ _ _ => ?_)
    refine safe_bind (reads_requireTarget.safe stable_true fun _ _ => ?_)
    refine safe_bind (safe_require fun _ => ?_)
    exact enterStatus_keepsChains (Option.filter_eq_some_iff.mp htarget).2
  refine safe_ite (fun _ => ?_) fun _ => ?_
  · exact safe_bind (Tx.Reads.check.safe stable_true fun _ _ => rest)
  · exact safe_bind (Tx.Reads.check.safe stable_true fun _ _ => rest)

/-! ### The other requests -/

/-- The rows that locks protect, the markets and the log are the same. -/
structure SameMarkets (db db' : Database) : Prop where
  part : ∀ k, part db' k = part db k
  markets : db'.markets = db.markets
  governance : db'.governance = db.governance

instance : IsPreorder Database SameMarkets where
  refl _ := ⟨fun _ => rfl, rfl, rfl⟩
  trans _ _ _ h h' := ⟨fun k => (h'.part k).trans (h.part k), h'.markets.trans h.markets,
    h'.governance.trans h.governance⟩

theorem confined_keepsChains {p : Prog Database Row Site Result}
    (h : p.Confined TransitionsCurrent fun _ => SameMarkets) :
    KeepsChains p := by
  refine h.safeRequest (fun _ db db' hsame hI id => ?_) fun L db db' hsame _ => ?_
  · exact (hI id).of_same hsame.markets hsame.governance
  · exact ⟨fun k _ => hsame.part k, .of_find fun id => marketLayout.find_eq (hsame.part _)⟩

theorem recordPolicyDecision_keepsChains (actorUserId marketId : Uuid)
    (body : Governance.PolicyDecisionRequest) (decisionId : Uuid) :
    KeepsChains
      (Governance.recordPolicyDecision ext actorUserId marketId body decisionId).request := by
  refine confined_keepsChains (Tx.Bounded.request ?_ _)
  refine .bind (.bind .select fun _ => .require) fun _ => ?_
  refine .bind (.bind .select fun _ => .orElse) fun _ => ?_
  refine .bind .select fun _ => .bind .ofExcept fun _ => ?_
  refine .bind .select fun _ => .bind .require fun _ => .bind .select fun _ => ?_
  refine .bind (.insertRow fun db => ⟨fun k => ?_, rfl, rfl⟩) fun _ => .bind .commit fun _ => .pure
  cases k <;> rfl

theorem environment_keepsChains (directory : Directory) (organizations : List Uuid)
    (pageants : List Pageant) : KeepsChains (environment directory organizations pageants).request := by
  refine confined_keepsChains (Tx.Bounded.request ?_ _)
  refine .bind (.write fun _ db => ⟨fun k => ?_, rfl, rfl⟩) fun _ => .bind .commit fun _ => .pure
  cases k <;> rfl

/-! ### The log of every run -/

/-- Transitions, and what they depend on. -/
def transitionOperations : List Operation := [.transitionMarket, .recordPolicyDecision, .environment]

theorem transitions_keepChains {p : Prog Database Row Site Result}
    (h : Requests ext transitionOperations p) : KeepsChains p := by
  obtain ⟨operation, hmem, hp⟩ := h
  cases hp with
  | transitionMarket actorUserId marketId body eventId =>
      exact transitionMarket_keepsChains actorUserId marketId body eventId
  | recordPolicyDecision actorUserId marketId body decisionId =>
      exact recordPolicyDecision_keepsChains actorUserId marketId body decisionId
  | environment directory organizations pageants =>
      exact environment_keepsChains directory organizations pageants
  | _ => simp [transitionOperations] at hmem

/-- **The log of every market is a chain**, and a cancelled market is archived at most, in every
run whose transitions find their markets in the status that they read. -/
theorem governance_chained {db₀ : Database} (h₀ : AllChained db₀)
    {pool : Pool Database Row Site Result} {actions : List (Action Database Row Site Result)}
    (hrun : Run (Pool.Step (Requests ext transitionOperations) TransitionsCurrent) (Pool.idle db₀)
      actions pool) :
    AllChained pool.db ∧
      ∀ (pool' : Pool Database Row Site Result) (actions' : List (Action Database Row Site Result)),
        Run (Pool.Step (Requests ext transitionOperations) TransitionsCurrent) pool actions' pool' →
        ∀ id m, marketTable.find pool.db id = some m → m.status = .cancelled →
          ∃ m', marketTable.find pool'.db id = some m' ∧
            (m'.status = .cancelled ∨ m'.status = .archived) := by
  have hhealthy := run_healthy (fun p hp => transitions_keepChains hp) hrun (healthy_idle h₀)
  refine ⟨hhealthy.inv, fun pool' actions' hrun' id m hm hcancelled => ?_⟩
  have hadvances : Advances pool.db pool'.db := by
    refine run_moved (R := Advances) (fun p hp => transitions_keepChains hp) (fun _ => .refl)
      (fun _ _ _ h h' => h.trans h') (fun _ _ _ _ _ hG => hG.moved) hrun' hhealthy
  obtain ⟨m', hm', honward⟩ := hadvances id m hm
  exact ⟨m', hm', honward.cancelled hcancelled⟩

/-! ### A paused market -/

def pausing : GovernanceEvent :=
  ⟨79, 10, 20, 1, "market.transition", some .open, some .paused, "A question came up."⟩

/-- A market that was paused, and may be opened again. -/
def pausedMarket : Database :=
  { resolvedMarket with
    markets := resolvedMarket.markets.map fun m =>
      { m with status := .paused, closesAt := seconds 1900000000, winningOutcomeId := none }
    decisions := [⟨30, 10, 20, none, .marketOpen, .allow, "Open", "1", 1, none, 0⟩]
    governance := [pausing] }

theorem pausedMarket_chained : AllChained pausedMarket := by
  intro id
  by_cases hid : id = 20
  · subst hid
    have hhistory : history 20 pausedMarket = [pausing] := by decide
    constructor
    · rw [hhistory]
      exact List.isChain_singleton _
    · rw [hhistory, List.forall_mem_singleton]
      rfl
    · intro e he m hm
      rw [hhistory] at he
      obtain rfl := Option.some.inj he
      obtain ⟨hmem, -⟩ := marketTable.find_mem hm
      obtain rfl := List.mem_singleton.mp hmem
      rfl
  · have hhistory : history id pausedMarket = [] := by
      refine List.filter_eq_nil_iff.mpr fun e he hmarket => hid ?_
      obtain rfl := List.mem_singleton.mp he
      exact (of_decide_eq_true hmarket).symm
    constructor
    · rw [hhistory]
      exact List.isChain_nil
    · rw [hhistory]
      exact List.forall_mem_nil _
    · intro e he
      rw [hhistory] at he
      cases he

theorem cancelling_outcome :
    (Pool.serveAll TransitionsCurrent pausedMarket [moveTo "cancelled" 82]).any
      (fun served => served.2.markets.map (·.status) = [.cancelled]) = true := by
  decide +kernel

/-- The market is cancelled, and its log goes on. -/
theorem cancelling_chained :
    ∃ (pool : Pool Database Row Site Result) (actions : List (Action Database Row Site Result)),
      Run (Pool.Step (Requests marketExternal transitionOperations) TransitionsCurrent)
        (Pool.idle pausedMarket) actions pool ∧
      pool.db.markets.map (·.status) = [.cancelled] ∧ AllChained pool.db := by
  obtain ⟨served, hserved, hstatus⟩ := (Option.any_eq_true _ _).mp cancelling_outcome
  have hrequests : ∀ p ∈ [moveTo "cancelled" 82],
      Requests marketExternal transitionOperations p := by
    rw [List.forall_mem_singleton]
    exact ⟨_, by decide, .transitionMarket 1 20 _ 82⟩
  obtain ⟨actions, hrun⟩ := Pool.run_of_serveAll hrequests hserved
  exact ⟨_, actions, hrun, of_decide_eq_true hstatus,
    (governance_chained pausedMarket_chained hrun).1⟩

/-- A request to reopen reads the paused market, another one cancels it, and the first goes on. -/
def reopening : List (Action Database Row Site Result) :=
  [.spawn (moveTo "open" 83), .spawn (moveTo "cancelled" 82), .step 0] ++
    List.replicate 7 (.step 1) ++ List.replicate 7 (.step 0)

theorem reopening_outcome :
    ((Pool.idle pausedMarket).replay (fun _ _ => True) reopening).any (fun pool =>
      pool.db.markets.map (·.status) = [.open] &&
        (history 20 pool.db).map (fun e => (e.previousStatus, e.newStatus)) =
          [(some .open, some .paused), (some .paused, some .cancelled), (some .paused, some .open)]) =
      true := by
  decide +kernel

/-- Without the condition a cancelled market is reopened, and its log is no chain. -/
theorem cancelled_market_reopened :
    ¬ ∀ (ext : External) (db₀ : Database), (∀ action, ext.governed action = true) → AllChained db₀ →
      ∀ (pool : Pool Database Row Site Result) (actions : List (Action Database Row Site Result)),
        Run (Pool.Step (Requests ext [.transitionMarket]) fun _ _ => True) (Pool.idle db₀) actions pool →
        AllChained pool.db := by
  intro h
  obtain ⟨pool, hpool, hall⟩ := (Option.any_eq_true _ _).mp reopening_outcome
  simp only [Bool.and_eq_true, decide_eq_true_eq] at hall
  have hspawn (p : Prog Database Row Site Result) (hp : .spawn p ∈ reopening) :
      Requests marketExternal [.transitionMarket] p := by
    simp only [reopening, List.cons_append, List.nil_append, List.mem_cons, Action.spawn.injEq,
      List.mem_append, List.mem_replicate, reduceCtorEq, and_false, or_false] at hp
    rcases hp with rfl | rfl
    · exact ⟨_, by decide, .transitionMarket 1 20 _ 83⟩
    · exact ⟨_, by decide, .transitionMarket 1 20 _ 82⟩
  have hchained := h _ _ (fun _ => rfl) pausedMarket_chained _ _ (Pool.run_of_replay hspawn hpool) 20
  have hlinked := List.isChain_map_of_isChain
    (S := fun (step step' : Option MarketStatus × Option MarketStatus) => step'.1 = step.2)
    (fun e : GovernanceEvent => (e.previousStatus, e.newStatus)) (fun _ _ h => h) hchained.linked
  rw [hall.2, List.isChain_cons_cons, List.isChain_cons_cons] at hlinked
  exact absurd hlinked.2.1 (by decide)

end CrownFi.Markets
