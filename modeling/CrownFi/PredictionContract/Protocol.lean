import CrownFi.PredictionContract.Payouts

/-!
# CrownFi.PredictionContract.Protocol

**How a market is resolved.** A market's record moves forward only: its status along the
arrows of `MarketStatus.Arrow`, its stakes before the close time, its proposal once. The
calls behind a resolved market stand in the trace of the run that led to it, the proposal
after the close time and the finalization after the delay. Nothing here needs the time to go
forward: every operation checks the time of its own call.
-/

namespace CrownFi.PredictionContract

open Lib

variable {w w' : World} {m : Nat} {x y z : Account} {trace : List (Env × Call)}

/-! ### One operation -/

/-- The ways a status can change. -/
inductive MarketStatus.Arrow : MarketStatus → MarketStatus → Prop
  | propose : Arrow .open .resolutionPending
  | finalize : Arrow .resolutionPending .resolved
  | cancelOpen : Arrow .open .cancelled
  | cancelPending : Arrow .resolutionPending .cancelled

/-- What was agreed on when the market was created. -/
structure Account.SameTerms (x y : Account) : Prop where
  numOptions : y.info.numOptions = x.info.numOptions
  closeTime : y.info.closeTime = x.info.closeTime
  resolutionDelay : y.info.resolutionDelay = x.info.resolutionDelay

structure Account.SameProposal (x y : Account) : Prop where
  winningOption : y.info.winningOption = x.info.winningOption
  resultHash : y.info.resultHash = x.info.resultHash
  proposedAt : y.info.proposedAt = x.info.proposedAt

structure Account.SameStakes (x y : Account) : Prop where
  pool : y.book.pool = x.book.pool
  position : y.book.position = x.book.position
  totalPool : y.info.totalPool = x.info.totalPool

/-- `y` is a later state of the account `x`. -/
structure Account.Later (x y : Account) : Prop where
  status : Relation.ReflTransGen MarketStatus.Arrow x.info.status y.info.status
  terms : x.SameTerms y
  proposal : x.info.status ≠ .open → x.SameProposal y

namespace Account

theorem SameTerms.refl (x : Account) : x.SameTerms x := ⟨rfl, rfl, rfl⟩

theorem SameTerms.trans (h : x.SameTerms y) (h' : y.SameTerms z) : x.SameTerms z :=
  ⟨h'.numOptions.trans h.numOptions, h'.closeTime.trans h.closeTime,
    h'.resolutionDelay.trans h.resolutionDelay⟩

theorem SameProposal.refl (x : Account) : x.SameProposal x := ⟨rfl, rfl, rfl⟩

theorem SameProposal.trans (h : x.SameProposal y) (h' : y.SameProposal z) : x.SameProposal z :=
  ⟨h'.winningOption.trans h.winningOption, h'.resultHash.trans h.resultHash,
    h'.proposedAt.trans h.proposedAt⟩

theorem SameStakes.refl (x : Account) : x.SameStakes x := ⟨rfl, rfl, rfl⟩

theorem SameStakes.trans (h : x.SameStakes y) (h' : y.SameStakes z) : x.SameStakes z :=
  ⟨h'.pool.trans h.pool, h'.position.trans h.position, h'.totalPool.trans h.totalPool⟩

/-- No status leads back to an open market. -/
theorem not_open_of_arrows {s t : MarketStatus} (h : Relation.ReflTransGen MarketStatus.Arrow s t)
    (hs : s ≠ .open) : t ≠ .open := by
  induction h with
  | refl => exact hs
  | tail _ harrow _ => cases harrow <;> decide

/-- Resolved and cancelled markets stay so. -/
theorem eq_of_arrows {s t : MarketStatus} (h : Relation.ReflTransGen MarketStatus.Arrow s t)
    (hs : s = .resolved ∨ s = .cancelled) : t = s := by
  induction h with
  | refl => rfl
  | tail _ harrow ih =>
      rw [← ih] at hs
      rcases hs with rfl | rfl <;> cases harrow

theorem Later.refl (x : Account) : x.Later x := ⟨.refl, .refl x, fun _ => .refl x⟩

theorem Later.trans (h : x.Later y) (h' : y.Later z) : x.Later z where
  status := h.status.trans h'.status
  terms := h.terms.trans h'.terms
  proposal hs := (h.proposal hs).trans (h'.proposal (not_open_of_arrows h.status hs))

variable {op : Op}

/-- One operation moves the status along one arrow, or not at all. -/
theorem arrow_apply (hop : x.Allowed op) :
    (x.apply op).info.status = x.info.status ∨ x.info.status.Arrow (x.apply op).info.status := by
  cases op with
  | stake | unstake | claim | refund => exact .inl rfl
  | propose o hash t =>
      obtain ⟨hopen, -, -⟩ := hop
      rw [hopen]
      exact .inr .propose
  | finalize =>
      rw [show x.info.status = .resolutionPending from hop]
      exact .inr .finalize
  | cancel =>
      rcases hop with hopen | hpending
      · rw [hopen]
        exact .inr .cancelOpen
      · rw [hpending]
        exact .inr .cancelPending

theorem later_apply (hop : x.Allowed op) : x.Later (x.apply op) where
  status := by
    rcases arrow_apply hop with hsame | harrow
    · rw [hsame]
    · exact .single harrow
  terms := by cases op <;> exact ⟨rfl, rfl, rfl⟩
  proposal hs := by
    cases op with
    | propose => exact absurd hop.1 hs
    | stake | unstake | finalize | cancel | claim | refund => exact ⟨rfl, rfl, rfl⟩

/-- From the close time on nothing moves a stake. -/
theorem sameStakes_apply {t : Nat} (htime : x.Timely t op) (hclosed : x.info.closeTime ≤ t) :
    x.SameStakes (x.apply op) := by
  cases op with
  | stake | unstake => exact absurd htime (not_lt.mpr hclosed)
  | propose | finalize | cancel | claim | refund => exact ⟨rfl, rfl, rfl⟩

end Account

/-! ### One step -/

/-- What a step does to an account that is there. -/
theorem Step.account {l : Env × Call} (h : Step w l w') (hw : Sound w) (hx : w.account m = some x) :
    w'.account m = some x ∨ ∃ op, l.2.operation l.1 = some (m, op) ∧ x.Allowed op ∧
      x.Timely l.1.timestamp op ∧ w'.account m = some (x.apply op) := by
  cases hcall : l.2.operation l.1 with
  | none =>
      refine .inl ?_
      rw [← hx]
      rcases step_still hw.admin hcall h with hq | ⟨mk, hc⟩
      · exact (World.owed_congr (by rw [hq.market]) (by rw [hq.book])).1
      · have hle := hw.le_marketCount hx
        refine (World.owed_congr ?_ (by rw [hc.book])).1
        rw [hc.market]
        exact World.writeMarket_of_ne (by omega) mk
  | some moved =>
      obtain ⟨m', op⟩ := moved
      obtain ⟨x', hm, htime⟩ := step_moves hcall h
      by_cases heq : m = m'
      · subst heq
        obtain rfl := Option.some.inj (hm.before.symm.trans hx)
        exact .inr ⟨op, rfl, hm.allowed, htime, hm.after⟩
      · refine .inl ?_
        rw [← hx]
        exact (World.owed_congr (hm.market m heq) (hm.book m heq)).1

/-- An account that was not there is new, and open. -/
theorem Step.account_new {l : Env × Call} (h : Step w l w') (hw : Sound w) (hx : w.account m = none)
    (hy : w'.account m = some y) : y.info.status = .open := by
  rcases step_cases hw.admin h with hq | ⟨mk, hc⟩ | ⟨m', x', op, hm⟩
  · have hsame : w'.account m = w.account m :=
      (World.owed_congr (by rw [hq.market]) (by rw [hq.book])).1
    rw [hsame, hx] at hy
    cases hy
  · have hmarket := (World.account_eq_some.mp hy).1
    rw [hc.market] at hmarket
    by_cases hid : m = w.marketCount + 1
    · subst hid
      rw [World.writeMarket_self] at hmarket
      rw [← Option.some.inj hmarket]
      exact hc.isOpen
    · rw [World.writeMarket_of_ne hid] at hmarket
      simp [World.account, hmarket] at hx
  · by_cases heq : m = m'
    · subst heq
      rw [hm.before] at hx
      cases hx
    · have hsame : w'.account m = w.account m :=
        (World.owed_congr (hm.market m heq) (hm.book m heq)).1
      rw [hsame, hx] at hy
      cases hy

theorem Step.later {l : Env × Call} (h : Step w l w') (hw : Sound w) (hx : w.account m = some x) :
    ∃ y, w'.account m = some y ∧ x.Later y := by
  rcases h.account hw hx with hsame | ⟨op, -, hop, -, hafter⟩
  · exact ⟨x, hsame, .refl x⟩
  · exact ⟨_, hafter, Account.later_apply hop⟩

theorem Step.sameStakes {l : Env × Call} (h : Step w l w') (hw : Sound w)
    (hx : w.account m = some x) (hclosed : x.info.closeTime ≤ l.1.timestamp) :
    ∃ y, w'.account m = some y ∧ x.SameTerms y ∧ x.SameStakes y := by
  rcases h.account hw hx with hsame | ⟨op, -, hop, htime, hafter⟩
  · exact ⟨x, hsame, .refl x, .refl x⟩
  · exact ⟨_, hafter, (Account.later_apply hop).terms, Account.sameStakes_apply htime hclosed⟩

/-! ### Runs -/

theorem run_later (hrun : Run Step w trace w') (hw : Sound w) (hx : w.account m = some x) :
    ∃ y, w'.account m = some y ∧ x.Later y := by
  have hinv := hrun.invariant
    (P := fun v => Sound v ∧ ∃ y, v.account m = some y ∧ x.Later y)
    (fun v l v' ⟨hv, y, hy, hxy⟩ hstep => by
      obtain ⟨z, hz, hyz⟩ := hstep.later hv hy
      exact ⟨hstep.sound hv, z, hz, hxy.trans hyz⟩)
    ⟨hw, x, hx, .refl x⟩
  exact hinv.2

/-- After the close time a run leaves the stakes alone. -/
theorem run_sameStakes (hrun : Run Step w trace w') (hw : Sound w) (hx : w.account m = some x)
    (hclosed : ∀ l ∈ trace, x.info.closeTime ≤ l.1.timestamp) :
    ∃ y, w'.account m = some y ∧ x.SameTerms y ∧ x.SameStakes y := by
  have hinv := (hrun.restrict hclosed).invariant
    (P := fun v => Sound v ∧ ∃ y, v.account m = some y ∧ x.SameTerms y ∧ x.SameStakes y)
    (fun v l v' ⟨hv, y, hy, hterms, hstakes⟩ ⟨hstep, htime⟩ => by
      obtain ⟨z, hz, hterms', hstakes'⟩ := hstep.sameStakes hv hy (hterms.closeTime ▸ htime)
      exact ⟨hstep.sound hv, z, hz, hterms.trans hterms', hstakes.trans hstakes'⟩)
    ⟨hw, x, hx, .refl x, .refl x⟩
  exact hinv.2

/-! ### The calls behind a market's record -/

/-- The trace holds the proposal that the record speaks of, made after the close time. -/
def ProposedIn (trace : List (Env × Call)) (m : Nat) (mk : MarketInfo) : Prop :=
  ∃ e, (e, Call.proposeResolution m mk.winningOption mk.resultHash) ∈ trace ∧
    e.timestamp = mk.proposedAt ∧ mk.closeTime ≤ e.timestamp

/-- Behind that proposal it holds the finalization, at least the delay later. -/
def ResolvedIn (trace : List (Env × Call)) (m : Nat) (mk : MarketInfo) : Prop :=
  ∃ before e between e' after,
    trace = before ++ (e, Call.proposeResolution m mk.winningOption mk.resultHash) :: between ++
      (e', Call.finalizeResolution m) :: after ∧
    e.timestamp = mk.proposedAt ∧ mk.closeTime ≤ e.timestamp ∧
    e.timestamp + mk.resolutionDelay ≤ e'.timestamp

theorem ProposedIn.finalized {mk : MarketInfo} (h : ProposedIn trace m mk) {e' : Env}
    (htime : mk.proposedAt + mk.resolutionDelay ≤ e'.timestamp) :
    ResolvedIn (trace ++ [(e', .finalizeResolution m)]) m mk := by
  obtain ⟨e, hmem, hat, hclose⟩ := h
  obtain ⟨before, between, rfl⟩ := List.append_of_mem hmem
  exact ⟨before, e, between, e', [], by simp, hat, hclose, hat ▸ htime⟩

theorem ProposedIn.append {mk : MarketInfo} (h : ProposedIn trace m mk) (more : List (Env × Call)) :
    ProposedIn (trace ++ more) m mk := by
  obtain ⟨e, hmem, hrest⟩ := h
  exact ⟨e, List.mem_append_left _ hmem, hrest⟩

theorem ResolvedIn.append {mk : MarketInfo} (h : ResolvedIn trace m mk) (more : List (Env × Call)) :
    ResolvedIn (trace ++ more) m mk := by
  obtain ⟨before, e, between, e', after, rfl, hrest⟩ := h
  exact ⟨before, e, between, e', after ++ more, by simp, hrest⟩

/-- The part of a record that a proposal writes. -/
theorem proposedIn_congr (h : x.SameProposal y) (h' : x.SameTerms y) :
    ProposedIn trace m y.info ↔ ProposedIn trace m x.info := by
  unfold ProposedIn
  rw [h.winningOption, h.resultHash, h.proposedAt, h'.closeTime]

theorem resolvedIn_congr (h : x.SameProposal y) (h' : x.SameTerms y) :
    ResolvedIn trace m y.info ↔ ResolvedIn trace m x.info := by
  unfold ResolvedIn
  rw [h.winningOption, h.resultHash, h.proposedAt, h'.closeTime, h'.resolutionDelay]

/-- **What a trace tells of a market.** -/
structure Recorded (trace : List (Env × Call)) (m : Nat) (x : Account) : Prop where
  opened : Relation.ReflTransGen MarketStatus.Arrow .open x.info.status
  proposed : x.info.status = .resolutionPending → ProposedIn trace m x.info
  resolved : x.info.status = .resolved → ResolvedIn trace m x.info

theorem Recorded.append (h : Recorded trace m x) (more : List (Env × Call)) :
    Recorded (trace ++ more) m x :=
  ⟨h.opened, fun hs => (h.proposed hs).append more, fun hs => (h.resolved hs).append more⟩

theorem Recorded.apply (h : Recorded trace m x) {l : Env × Call} {op : Account.Op}
    (hcall : l.2.operation l.1 = some (m, op)) (hop : x.Allowed op)
    (htime : x.Timely l.1.timestamp op) : Recorded (trace ++ [l]) m (x.apply op) := by
  have hlater := Account.later_apply hop
  have hopened := h.opened.trans hlater.status
  have hold := h.append [l]
  obtain ⟨e, c⟩ := l
  cases op with
  | stake | unstake =>
      obtain ⟨hopen, -⟩ := hop
      exact ⟨hopened, fun hs => by simp [Account.apply, hopen] at hs,
        fun hs => by simp [Account.apply, hopen] at hs⟩
  | propose o hash t =>
      obtain ⟨rfl, hclose⟩ := htime
      refine ⟨hopened, fun _ => ⟨e, ?_, rfl, hclose⟩, fun hs => by simp [Account.apply] at hs⟩
      cases c <;> simp_all [Call.operation, Account.apply]
  | finalize =>
      have hpending : x.info.status = .resolutionPending := hop
      refine ⟨hopened, fun hs => by simp [Account.apply] at hs, fun _ => ?_⟩
      have hlast : c = .finalizeResolution m := by
        cases c <;> simp_all [Call.operation]
      rw [hlast]
      exact ((proposedIn_congr (hlater.proposal (by simp [hpending])) hlater.terms).mpr
        (h.proposed hpending)).finalized htime
  | cancel =>
      exact ⟨hopened, fun hs => by simp [Account.apply] at hs, fun hs => by simp [Account.apply] at hs⟩
  | claim u =>
      obtain ⟨hres, -⟩ := hop
      have hproposal := hlater.proposal (by simp [hres])
      exact ⟨hopened, fun hs => by simp [Account.apply, hres] at hs,
        fun _ => (resolvedIn_congr hproposal hlater.terms).mpr (hold.resolved hres)⟩
  | refund u =>
      obtain ⟨hcan, -⟩ := hop
      exact ⟨hopened, fun hs => by simp [Account.apply, hcan] at hs,
        fun hs => by simp [Account.apply, hcan] at hs⟩

/-- Whoever paid out a market left it resolved or cancelled. -/
structure PaidIn (trace : List (Env × Call)) (w : World) : Prop where
  claims : ∀ m e u, (e, Call.claim u m) ∈ trace → ∃ x, w.account m = some x ∧ x.info.status = .resolved
  refunds : ∀ m e u, (e, Call.refund u m) ∈ trace → ∃ x, w.account m = some x ∧ x.info.status = .cancelled

/-- A market that is resolved or cancelled keeps that status. -/
theorem Step.status_kept {l : Env × Call} (h : Step w l w') (hw : Sound w) {s : MarketStatus}
    (hs : s = .resolved ∨ s = .cancelled) (hx : ∃ x, w.account m = some x ∧ x.info.status = s) :
    ∃ y, w'.account m = some y ∧ y.info.status = s := by
  obtain ⟨x, hx, rfl⟩ := hx
  obtain ⟨y, hy, hlater⟩ := h.later hw hx
  exact ⟨y, hy, Account.eq_of_arrows hlater.status hs⟩

theorem Step.paidIn {l : Env × Call} (h : Step w l w') (hw : Sound w) (hpaid : PaidIn trace w) :
    PaidIn (trace ++ [l]) w' where
  claims m e u hmem := by
    rcases List.mem_append.mp hmem with hold | hlast
    · exact h.status_kept hw (.inl rfl) (hpaid.claims m e u hold)
    · obtain rfl := List.mem_singleton.mp hlast
      obtain ⟨x, hm, -⟩ := step_moves rfl h
      exact ⟨_, hm.after, hm.allowed.1⟩
  refunds m e u hmem := by
    rcases List.mem_append.mp hmem with hold | hlast
    · exact h.status_kept hw (.inr rfl) (hpaid.refunds m e u hold)
    · obtain rfl := List.mem_singleton.mp hlast
      obtain ⟨x, hm, -⟩ := step_moves rfl h
      exact ⟨_, hm.after, hm.allowed.1⟩

/-- The trace tells of every market, and of every payment. -/
structure Chronicle (trace : List (Env × Call)) (w : World) : Prop where
  sound : Sound w
  recorded : ∀ m x, w.account m = some x → Recorded trace m x
  paid : PaidIn trace w

theorem Step.chronicle {l : Env × Call} (h : Step w l w') (hc : Chronicle trace w) :
    Chronicle (trace ++ [l]) w' where
  sound := h.sound hc.sound
  recorded m y hy := by
    cases hx : w.account m with
    | none =>
        have hopen := h.account_new hc.sound hx hy
        exact ⟨by rw [hopen], fun hs => by simp [hopen] at hs, fun hs => by simp [hopen] at hs⟩
    | some x =>
        have hold := hc.recorded m x hx
        rcases h.account hc.sound hx with hsame | ⟨op, hcall, hop, htime, hafter⟩
        · obtain rfl := Option.some.inj (hsame.symm.trans hy)
          exact hold.append [l]
        · obtain rfl := Option.some.inj (hafter.symm.trans hy)
          exact hold.apply hcall hop htime
  paid := h.paidIn hc.sound hc.paid

/-- Initialisation creates no market. -/
theorem Fresh.account_none {admin token : Address} (h : Fresh w)
    (hinit : initializeContract w admin token = .ok w') (m : Nat) : w'.account m = none := by
  simp only [initializeContract, bind_eq_ok, panicIf_eq_ok, pure_eq_ok] at hinit
  obtain ⟨_, -, rfl⟩ := hinit
  simp [World.account, h.market m]

theorem run_chronicle {w₀ w₁ : World} {admin token : Address} (hfresh : Fresh w₀)
    (hinit : initializeContract w₀ admin token = .ok w₁) (hrun : Run Step w₁ trace w) :
    Chronicle trace w := by
  have hstart : Chronicle [] w₁ := by
    refine ⟨hfresh.sound hinit, fun m x hx => ?_,
      ⟨(fun _ _ _ h => by cases h), fun _ _ _ h => by cases h⟩⟩
    rw [hfresh.account_none hinit m] at hx
    cases hx
  exact Run.history hstart (fun _ _ _ _ _ hc hstep => hstep.chronicle hc) hrun

/-! ### All of it -/

/-- The resolution protocol, seen from a market `x` of the world that the trace led to. -/
structure Protocol (trace : List (Env × Call)) (w : World) (m : Nat) (x : Account) : Prop where
  /-- The market was opened, and its status took these arrows. -/
  opened : Relation.ReflTransGen MarketStatus.Arrow .open x.info.status
  /-- A step takes one arrow, or none. -/
  moves : ∀ l w', Step w l w' → ∃ y, w'.account m = some y ∧
    (y.info.status = x.info.status ∨ x.info.status.Arrow y.info.status)
  resolved : x.info.status = .resolved → ResolvedIn trace m x.info ∧
    x.info.winningOption < x.info.numOptions ∧ 0 < x.book.pool x.info.winningOption
  /-- From the close time on the stakes stay. -/
  closed : ∀ more w', Run Step w more w' → (∀ l ∈ more, x.info.closeTime ≤ l.1.timestamp) →
    ∃ y, w'.account m = some y ∧ x.SameTerms y ∧ x.SameStakes y
  /-- From the proposal on the winner and the evidence stay. -/
  proposed : x.info.status ≠ .open → ∀ more w', Run Step w more w' →
    ∃ y, w'.account m = some y ∧ y.info.status ≠ .open ∧ x.SameProposal y
  exclusive : ∀ e u e' u', (e, Call.claim u m) ∈ trace → (e', Call.refund u' m) ∉ trace

/-- **The resolution protocol** holds of every market in every run. -/
theorem resolution_protocol {w₀ w₁ : World} {admin token : Address} (hfresh : Fresh w₀)
    (hinit : initializeContract w₀ admin token = .ok w₁) (hrun : Run Step w₁ trace w)
    (hx : w.account m = some x) : Protocol trace w m x := by
  have hc := run_chronicle hfresh hinit hrun
  have hrecorded := hc.recorded m x hx
  have hb := hc.sound.balanced m x hx
  exact {
    opened := hrecorded.opened
    moves := fun l w' hstep => by
      rcases hstep.account hc.sound hx with hsame | ⟨op, -, hop, -, hafter⟩
      · exact ⟨x, hsame, .inl rfl⟩
      · exact ⟨_, hafter, Account.arrow_apply hop⟩
    resolved := fun hs => ⟨hrecorded.resolved hs, hb.winner_lt, hb.won (.inr hs)⟩
    closed := fun more w' hmore hclosed => run_sameStakes hmore hc.sound hx hclosed
    proposed := fun hs more w' hmore => by
      obtain ⟨y, hy, hlater⟩ := run_later hmore hc.sound hx
      exact ⟨y, hy, Account.not_open_of_arrows hlater.status hs, hlater.proposal hs⟩
    exclusive := fun e u e' u' hclaim hrefund => by
      obtain ⟨y, hy, hres⟩ := hc.paid.claims m e u hclaim
      obtain ⟨z, hz, hcan⟩ := hc.paid.refunds m e' u' hrefund
      obtain rfl := Option.some.inj (hy.symm.trans hz)
      rw [hres] at hcan
      cases hcan }

/-- The first market of the sample world, proposed at its close time. -/
theorem sampleWorld_protocol :
    ∃ x, sampleWorld.account 1 = some x ∧ x.info.status = .resolved ∧
      Protocol sampleTrace sampleWorld 1 x := by
  have hfresh : Fresh genesis := ⟨rfl, rfl, fun _ => rfl, fun _ => rfl, rfl, le_rfl⟩
  have hrun : Run Step sampleStart sampleTrace sampleWorld :=
    execAll_run (by decide) (by decide) sampleTrace_ok
  obtain ⟨x, hx⟩ : ∃ x, sampleWorld.account 1 = some x := ⟨_, rfl⟩
  obtain rfl := Option.some.inj hx
  have hinit : initializeContract genesis 9 5 = .ok sampleStart := rfl
  exact ⟨_, rfl, rfl, resolution_protocol hfresh hinit hrun rfl⟩

end CrownFi.PredictionContract
