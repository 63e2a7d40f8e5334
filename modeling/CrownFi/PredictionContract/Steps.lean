import CrownFi.Lib.Run
import CrownFi.PredictionContract.Specs

/-!
# CrownFi.PredictionContract.Steps

**The contract as a transition system**: what a step is, which worlds are
reachable, and what one step can do.

A successful invocation does one of three things (`step_cases`): it leaves every
market alone, it creates a market under the next id, or it performs *one*
operation on *one* account, with the balance of the contract following the
account's inflow. The invariants of the contract are proved from this case
analysis and the account's own lemmas.
-/

namespace CrownFi.PredictionContract

open Lib

namespace World

variable {w : World}

def book (w : World) (m : Nat) : Book := ⟨w.pool m, w.position m, w.claimed m⟩

def account (w : World) (m : Nat) : Option Account := (w.market m).map fun mk => ⟨mk, w.book m⟩

theorem account_eq_some {m : Nat} {x : Account} :
    w.account m = some x ↔ w.market m = some x.info ∧ w.book m = x.book := by
  rw [account, Option.map_eq_some_iff]
  constructor
  · rintro ⟨mk, hmk, rfl⟩
    exact ⟨hmk, rfl⟩
  · rintro ⟨hmk, hb⟩
    exact ⟨x.info, hmk, by rw [hb]⟩

/-! ### What the storage writes leave -/

@[simp] theorem publish_market (ev : Event) : (w.publish ev).market = w.market := rfl
@[simp] theorem publish_book (ev : Event) : (w.publish ev).book = w.book := rfl
@[simp] theorem publish_balance (ev : Event) : (w.publish ev).balance = w.balance := rfl
@[simp] theorem moveBalance_market (s d : Address) (a : Int) :
    (w.moveBalance s d a).market = w.market := rfl
@[simp] theorem moveBalance_book (s d : Address) (a : Int) :
    (w.moveBalance s d a).book = w.book := rfl
@[simp] theorem writeMarket_book (m : Nat) (mk : MarketInfo) :
    (w.writeMarket m mk).book = w.book := rfl
@[simp] theorem writeMarket_balance (m : Nat) (mk : MarketInfo) :
    (w.writeMarket m mk).balance = w.balance := rfl
@[simp] theorem writeClaimed_market (m : Nat) (u : Address) :
    (w.writeClaimed m u).market = w.market := rfl
@[simp] theorem writeClaimed_balance (m : Nat) (u : Address) :
    (w.writeClaimed m u).balance = w.balance := rfl

@[simp] theorem writeMarket_self (m : Nat) (mk : MarketInfo) :
    (w.writeMarket m mk).market m = some mk := by
  simp [writeMarket]

theorem writeMarket_of_ne {m m' : Nat} (h : m' ≠ m) (mk : MarketInfo) :
    (w.writeMarket m mk).market m' = w.market m' := by
  simp [writeMarket, h]

@[simp] theorem afterFee_market (t : Address) (f : Int) : (w.afterFee t f).market = w.market := by
  unfold afterFee
  split <;> rfl

@[simp] theorem afterFee_book (t : Address) (f : Int) : (w.afterFee t f).book = w.book := by
  unfold afterFee
  split <;> rfl

@[simp] theorem afterFee_frame (t : Address) (f : Int) :
    (w.afterFee t f).self = w.self ∧ (w.afterFee t f).admin = w.admin ∧
      (w.afterFee t f).token = w.token ∧ (w.afterFee t f).marketCount = w.marketCount ∧
      (w.afterFee t f).events = w.events := by
  unfold afterFee
  split <;> exact ⟨rfl, rfl, rfl, rfl, rfl⟩

theorem sub_le_afterFee {t a : Address} {f : Int} (hf : 0 ≤ f) :
    w.balance a - f ≤ (w.afterFee t f).balance a := by
  unfold afterFee
  split
  · exact sub_le_moveBalance hf
  · linarith

/-- A pool and a position written together move one stake. -/
theorem book_writeStake (m o : Nat) (u : Address) (d : Int) :
    ((w.writePool m o (w.pool m o + d)).writePosition m u o (w.position m u o + d)).book m =
      (w.book m).move u o d := by
  simp only [book, writePool, writePosition, Book.move, true_and]

theorem book_writeStake_of_ne {m m' : Nat} (h : m' ≠ m) (o : Nat) (u : Address) (p q : Int) :
    ((w.writePool m o p).writePosition m u o q).book m' = w.book m' := by
  simp [book, writePool, writePosition, h]

theorem book_writeClaimed (m : Nat) (u : Address) :
    (w.writeClaimed m u).book m = (w.book m).mark u := by
  simp only [book, writeClaimed, Book.mark, true_and]

theorem book_writeClaimed_of_ne {m m' : Nat} (h : m' ≠ m) (u : Address) :
    (w.writeClaimed m u).book m' = w.book m' := by
  simp [book, writeClaimed, h]

end World

/-! ### Steps and reachable worlds -/

/-- One successful invocation. The contract's own address never authorises
anything: it holds no key, and the contract makes no call that asks for it. -/
def Step (w : World) (l : Env × Call) (w' : World) : Prop :=
  l.1.auth w.self = false ∧ exec l.1 w l.2 = .ok w'

/-- A contract that was never called; its address may already hold tokens. -/
structure Fresh (w : World) : Prop where
  admin : w.admin = none
  marketCount : w.marketCount = 0
  market : ∀ m, w.market m = none
  book : ∀ m, w.book m = Book.empty
  events : w.events = []
  balance : 0 ≤ w.balance w.self

/-- The worlds that runs from an initialised contract lead to. -/
def Reachable (w : World) : Prop :=
  ∃ w₀ admin token w₁ trace, Fresh w₀ ∧ initializeContract w₀ admin token = .ok w₁ ∧
    Run Step w₁ trace w

/-- A sequence of invocations, given up at the first failure. -/
def execAll (w : World) : List (Env × Call) → Except Failure World
  | [] => .ok w
  | (e, c) :: rest => do
      let w ← exec e w c
      execAll w rest

theorem Reachable.run {w w' : World} {trace : List (Env × Call)} (h : Reachable w)
    (hrun : Run Step w trace w') : Reachable w' := by
  obtain ⟨w₀, admin, token, w₁, t, hfresh, hinit, ht⟩ := h
  exact ⟨w₀, admin, token, w₁, _, hfresh, hinit, ht.append hrun⟩

/-! ### What a step can do -/

variable {e : Env} {w w' : World}

/-- What no step changes. -/
structure Frame (w w' : World) : Prop where
  self : w'.self = w.self
  token : w'.token = w.token
  admin : w.admin ≠ none → w'.admin ≠ none

/-- Every market is left alone, and the contract's balance does not fall. -/
structure Quiet (w w' : World) : Prop extends Frame w w' where
  market : w'.market = w.market
  book : w'.book = w.book
  marketCount : w'.marketCount = w.marketCount
  events : w'.events = w.events
  balance : w.balance w.self ≤ w'.balance w.self

/-- A market is created under the next id, open and with nothing booked in its record. -/
structure Creates (w w' : World) (mk : MarketInfo) : Prop extends Frame w w' where
  market : w'.market = (w.writeMarket (w.marketCount + 1) mk).market
  book : w'.book = w.book
  marketCount : w'.marketCount = w.marketCount + 1
  balance : w'.balance = w.balance
  events : w'.events = .create (w.marketCount + 1) mk.numOptions :: w.events
  isOpen : mk.status = .open
  options : 2 ≤ mk.numOptions
  fee : mk.feeBps ≤ maxFeeBps
  blank : mk.totalPool = 0 ∧ mk.claimedGross = 0 ∧ mk.claimedWinningStake = 0 ∧
    mk.winningOption = 0

/-- The event an operation publishes. -/
def Account.event (x : Account) (m : Nat) : Op → Event
  | .stake u o a => .stake m u o a
  | .unstake u o => .unstake m u o (x.book.position u o)
  | .propose o hash _ => .proposal m o hash
  | .finalize => .finalize m x.info.winningOption x.info.resultHash
  | .cancel => .cancel m
  | .claim u => .claim m u (x.gross u) (x.fee u) (x.gross u - x.fee u)
  | .refund u => .refund m u (x.book.stakes u x.info.numOptions)

/-- One operation on the account of market `m`. -/
structure Moves (w w' : World) (m : Nat) (x : Account) (op : Account.Op) : Prop
    extends Frame w w' where
  before : w.account m = some x
  allowed : x.Allowed op
  after : w'.account m = some (x.apply op)
  market : ∀ m', m' ≠ m → w'.market m' = w.market m'
  book : ∀ m', m' ≠ m → w'.book m' = w.book m'
  marketCount : w'.marketCount = w.marketCount
  events : w'.events = x.event m op :: w.events
  balance : x.Balanced → w.balance w.self + x.inflow op ≤ w'.balance w.self

theorem stake_moves {u : Address} {m o : Nat} {a : Int} (hself : e.auth w.self = false)
    (h : stake e w u m o a = .ok w') : ∃ x, Moves w w' m x (.stake u o a) := by
  obtain ⟨mk, hmk, hauth, ha, hopen, -, ho, htotal, rfl⟩ := stake_ok h
  have hne : u ≠ w.self := by rintro rfl; simp [hself] at hauth
  refine ⟨⟨mk, w.book m⟩, ?_⟩
  exact {
    self := rfl, token := rfl, admin := id, marketCount := rfl, events := rfl
    before := World.account_eq_some.mpr ⟨hmk, rfl⟩
    allowed := ⟨hopen, ho, ha, htotal.2⟩
    after := World.account_eq_some.mpr
      ⟨by simp [Account.apply], World.book_writeStake (w := w.moveBalance u w.self a) m o u a⟩
    market := fun m' hm' => World.writeMarket_of_ne hm' _
    book := fun m' hm' => World.book_writeStake_of_ne (w := w.moveBalance u w.self a) hm' o u _ _
    balance := fun _ => (World.moveBalance_dst hne a).ge }

theorem unstake_moves {u : Address} {m o : Nat} {p : Int} (h : unstake e w u m o = .ok (w', p)) :
    ∃ x, Moves w w' m x (.unstake u o) ∧ p = x.book.position u o := by
  obtain ⟨mk, hmk, -, rfl, hp, hopen, -, ho, rfl⟩ := unstake_ok h
  have hbook := World.book_writeStake (w := w) m o u (-w.position m u o)
  rw [add_neg_cancel, ← sub_eq_add_neg] at hbook
  refine ⟨⟨mk, w.book m⟩, ?_, rfl⟩
  exact {
    self := rfl, token := rfl, admin := id, marketCount := rfl, events := rfl
    before := World.account_eq_some.mpr ⟨hmk, rfl⟩
    allowed := ⟨hopen, ho, hp⟩
    after := World.account_eq_some.mpr ⟨by simp [Account.apply, World.book], hbook⟩
    market := fun m' hm' => World.writeMarket_of_ne hm' _
    book := fun m' hm' => World.book_writeStake_of_ne hm' o u _ _
    balance := fun _ => World.sub_le_moveBalance hp.le }

/-- An operation that only rewrites the market's record. -/
theorem record_moves {m : Nat} {mk mk' : MarketInfo} {op : Account.Op} {ev : Event}
    (hmk : w.market m = some mk) (hop : Account.Allowed ⟨mk, w.book m⟩ op)
    (happly : Account.apply ⟨mk, w.book m⟩ op = ⟨mk', w.book m⟩)
    (hev : Account.event ⟨mk, w.book m⟩ m op = ev) (hflow : Account.inflow ⟨mk, w.book m⟩ op = 0) :
    Moves w ((w.writeMarket m mk').publish ev) m ⟨mk, w.book m⟩ op where
  self := rfl
  token := rfl
  admin := id
  marketCount := rfl
  events := by rw [hev]; rfl
  before := World.account_eq_some.mpr ⟨hmk, rfl⟩
  allowed := hop
  after := by
    rw [happly]
    exact World.account_eq_some.mpr ⟨by simp, rfl⟩
  market m' hm' := World.writeMarket_of_ne hm' _
  book m' hm' := rfl
  balance _ := by simp [hflow]

theorem proposeResolution_moves {m o : Nat} {hash : Hash}
    (h : proposeResolution e w m o hash = .ok w') :
    ∃ x, Moves w w' m x (.propose o hash e.timestamp) := by
  obtain ⟨mk, hmk, hopen, -, ho, hpool, rfl⟩ := proposeResolution_ok h
  exact ⟨_, record_moves hmk ⟨hopen, ho, hpool⟩ rfl rfl rfl⟩

theorem finalizeResolution_moves {m : Nat} (h : finalizeResolution e w m = .ok w') :
    ∃ x, Moves w w' m x .finalize := by
  obtain ⟨mk, hmk, hpending, -, rfl⟩ := finalizeResolution_ok h
  exact ⟨_, record_moves hmk hpending rfl rfl rfl⟩

theorem cancelMarket_moves {m : Nat} (h : cancelMarket e w m = .ok w') :
    ∃ x, Moves w w' m x .cancel := by
  obtain ⟨mk, hmk, hs, rfl⟩ := cancelMarket_ok h
  exact ⟨_, record_moves hmk hs rfl rfl rfl⟩

theorem claim_moves {u : Address} {m : Nat} {net : Int} (h : claim e w u m = .ok (w', net)) :
    ∃ x, Moves w w' m x (.claim u) ∧ net = x.gross u - x.fee u := by
  obtain ⟨mk, stake, gross, fee, hmk, -, hres, hclaimed, hst, hpos, hgross, hfee, rfl, rfl⟩ :=
    claim_ok h
  let x : Account := ⟨mk, w.book m⟩
  have hst' : x.winningStake u = stake := hst.symm
  have hgross' : x.gross u = gross := by
    rw [hgross, ← hst']
    rfl
  have hfee' : x.fee u = fee := by
    rw [hfee, ← hgross', ← hst']
    rfl
  have hop : x.Allowed (.claim u) := ⟨hres, hclaimed, hst'.symm ▸ hpos⟩
  obtain ⟨hself, hadmin, htoken, hcount, hevents⟩ :=
    World.afterFee_frame (w := w.recordClaim m mk u stake gross) mk.treasury fee
  refine ⟨x, ?_, by rw [hgross', hfee']⟩
  exact {
    self := hself
    token := htoken
    admin := fun ha hnone => ha (hadmin.symm.trans hnone)
    marketCount := hcount
    events := by
      rw [Account.event, hgross', hfee']
      exact congrArg (_ :: ·) hevents
    before := World.account_eq_some.mpr ⟨hmk, rfl⟩
    allowed := hop
    after := World.account_eq_some.mpr
      ⟨by simp [World.recordClaim, Account.apply, hst', hgross', x],
        by simpa [World.recordClaim, Account.apply] using World.book_writeClaimed m u⟩
    market := fun m' hm' => by
      simp [World.recordClaim, World.writeMarket_of_ne hm']
    book := fun m' hm' => by
      simpa [World.recordClaim] using World.book_writeClaimed_of_ne hm' u
    balance := fun hb => by
      obtain ⟨-, -, hnonneg, hle⟩ := hb.claim_amounts hop
      rw [hfee', hgross', hst'] at hle
      rw [hfee'] at hnonneg
      have h₁ := World.sub_le_afterFee (w := w.recordClaim m mk u stake gross) (t := mk.treasury)
        (a := w.self) hnonneg
      have h₂ : ∀ v : World, v.balance w.self - (gross - fee) ≤
          (v.moveBalance w.self u (gross - fee)).balance w.self := fun v =>
        World.sub_le_moveBalance (by linarith)
      have h₂ := h₂ ((w.recordClaim m mk u stake gross).afterFee mk.treasury fee)
      have h₃ : (w.recordClaim m mk u stake gross).balance w.self = w.balance w.self := rfl
      rw [Account.inflow, hgross']
      simp only [World.publish_balance]
      linarith }

theorem refund_moves {u : Address} {m : Nat} {t : Int} (h : refund e w u m = .ok (w', t)) :
    ∃ x, Moves w w' m x (.refund u) ∧ t = x.book.stakes u x.info.numOptions := by
  obtain ⟨mk, hmk, -, hcan, hclaimed, ht, hpos, rfl⟩ := refund_ok h
  have ht' : (w.book m).stakes u mk.numOptions = t := ht.symm
  refine ⟨⟨mk, w.book m⟩, ?_, ht'.symm⟩
  exact {
    self := rfl, token := rfl, admin := id, marketCount := rfl
    events := by
      rw [Account.event, ht']
      rfl
    before := World.account_eq_some.mpr ⟨hmk, rfl⟩
    allowed := ⟨hcan, hclaimed, by rw [ht']; exact hpos⟩
    after := World.account_eq_some.mpr
      ⟨by simpa [Account.apply] using hmk, World.book_writeClaimed (w := w) m u⟩
    market := fun m' hm' => rfl
    book := fun m' hm' => World.book_writeClaimed_of_ne (w := w) hm' u
    balance := fun _ => by
      rw [Account.inflow, ht']
      exact World.sub_le_moveBalance hpos.le }

theorem createMarket_creates {question category : String} {n close delay fee id : Nat}
    {resolver treasury : Address}
    (h : createMarket e w question category n close delay fee resolver treasury = .ok (w', id)) :
    ∃ mk, Creates w w' mk := by
  obtain ⟨hn, -, -, hfee, rfl, rfl⟩ := createMarket_ok h
  refine ⟨{ question, category, numOptions := n, closeTime := close, resolutionDelay := delay,
            feeBps := fee, resolver, treasury, status := .open, winningOption := 0,
            resultHash := 0, proposedAt := 0, totalPool := 0, claimedGross := 0,
            claimedWinningStake := 0 }, ?_⟩
  exact {
    self := rfl, token := rfl, admin := id, market := rfl, book := rfl, marketCount := rfl
    balance := rfl, events := rfl, isOpen := rfl, options := hn, fee := hfee
    blank := ⟨rfl, rfl, rfl, rfl⟩ }

/-- The operation that a call asks for, and the market. -/
def Call.operation (e : Env) : Call → Option (Nat × Account.Op)
  | .stake u m o a => some (m, .stake u o a)
  | .unstake u m o => some (m, .unstake u o)
  | .proposeResolution m o hash => some (m, .propose o hash e.timestamp)
  | .finalizeResolution m => some (m, .finalize)
  | .cancelMarket m => some (m, .cancel)
  | .claim u m => some (m, .claim u)
  | .refund u m => some (m, .refund u)
  | .createMarket .. | .pauseStaking | .unpauseStaking | .transferAdmin _ | .initializeContract ..
  | .tokenTransfer .. => none

/-- When an operation is in time. -/
def Account.Timely (x : Account) (t : Nat) : Account.Op → Prop
  | .stake .. | .unstake .. => t < x.info.closeTime
  | .propose _ _ proposedAt => proposedAt = t ∧ x.info.closeTime ≤ t
  | .finalize => x.info.proposedAt + x.info.resolutionDelay ≤ t
  | .cancel | .claim _ | .refund _ => True

/-- The record that a move starts from. -/
theorem Moves.info_eq {m : Nat} {x : Account} {op : Account.Op} {mk : MarketInfo}
    (h : Moves w w' m x op) (hmk : w.market m = some mk) : x.info = mk :=
  Option.some.inj ((World.account_eq_some.mp h.before).1.symm.trans hmk)

/-- A call for an operation performs it, in time. -/
theorem step_moves {c : Call} {m : Nat} {op : Account.Op} (hop : c.operation e = some (m, op))
    (h : Step w (e, c) w') : ∃ x, Moves w w' m x op ∧ x.Timely e.timestamp op := by
  obtain ⟨hself : e.auth w.self = false, hexec⟩ := h
  cases c with
  | stake u m o a =>
      obtain ⟨rfl, rfl⟩ := Prod.mk.inj (Option.some.inj hop)
      obtain ⟨x, hx⟩ := stake_moves hself hexec
      obtain ⟨mk, hmk, -, -, -, htime, -⟩ := stake_ok hexec
      exact ⟨x, hx, by rwa [Account.Timely, hx.info_eq hmk]⟩
  | unstake u m o =>
      obtain ⟨rfl, rfl⟩ := Prod.mk.inj (Option.some.inj hop)
      obtain ⟨⟨w₁, p⟩, hc, rfl⟩ := map_eq_ok.mp hexec
      obtain ⟨x, hx, -⟩ := unstake_moves hc
      obtain ⟨mk, hmk, -, -, -, -, htime, -⟩ := unstake_ok hc
      exact ⟨x, hx, by rwa [Account.Timely, hx.info_eq hmk]⟩
  | proposeResolution m o hash =>
      obtain ⟨rfl, rfl⟩ := Prod.mk.inj (Option.some.inj hop)
      obtain ⟨x, hx⟩ := proposeResolution_moves hexec
      obtain ⟨mk, hmk, -, htime, -⟩ := proposeResolution_ok hexec
      exact ⟨x, hx, rfl, by rwa [hx.info_eq hmk]⟩
  | finalizeResolution m =>
      obtain ⟨rfl, rfl⟩ := Prod.mk.inj (Option.some.inj hop)
      obtain ⟨x, hx⟩ := finalizeResolution_moves hexec
      obtain ⟨mk, hmk, -, htime, -⟩ := finalizeResolution_ok hexec
      exact ⟨x, hx, by rwa [Account.Timely, hx.info_eq hmk]⟩
  | cancelMarket m =>
      obtain ⟨rfl, rfl⟩ := Prod.mk.inj (Option.some.inj hop)
      obtain ⟨x, hx⟩ := cancelMarket_moves hexec
      exact ⟨x, hx, trivial⟩
  | claim u m =>
      obtain ⟨rfl, rfl⟩ := Prod.mk.inj (Option.some.inj hop)
      obtain ⟨⟨w₁, net⟩, hc, rfl⟩ := map_eq_ok.mp hexec
      obtain ⟨x, hx, -⟩ := claim_moves hc
      exact ⟨x, hx, trivial⟩
  | refund u m =>
      obtain ⟨rfl, rfl⟩ := Prod.mk.inj (Option.some.inj hop)
      obtain ⟨⟨w₁, t⟩, hc, rfl⟩ := map_eq_ok.mp hexec
      obtain ⟨x, hx, -⟩ := refund_moves hc
      exact ⟨x, hx, trivial⟩
  | createMarket | pauseStaking | unpauseStaking | transferAdmin | initializeContract | tokenTransfer =>
      cases hop

/-- Every other call leaves the markets that are there alone. -/
theorem step_still {c : Call} (hinit : w.admin ≠ none) (hop : c.operation e = none)
    (h : Step w (e, c) w') : Quiet w w' ∨ ∃ mk, Creates w w' mk := by
  obtain ⟨hself : e.auth w.self = false, hexec⟩ := h
  have hquiet : ∀ w₁ : World, w₁.admin ≠ none →
      { w with admin := w₁.admin, paused := w₁.paused } = w' → Quiet w w' := by
    rintro w₁ hadmin rfl
    exact {
      self := rfl, token := rfl, admin := fun _ => hadmin, market := rfl, book := rfl
      marketCount := rfl, events := rfl, balance := le_rfl }
  cases c with
  | createMarket =>
      obtain ⟨⟨w₁, id⟩, hc, rfl⟩ := map_eq_ok.mp hexec
      exact .inr (createMarket_creates hc)
  | pauseStaking =>
      simp only [exec, pauseStaking, bind_eq_ok, pure_eq_ok] at hexec
      obtain ⟨_, -, hw⟩ := hexec
      exact .inl (hquiet { w with paused := true } hinit hw)
  | unpauseStaking =>
      simp only [exec, unpauseStaking, bind_eq_ok, pure_eq_ok] at hexec
      obtain ⟨_, -, hw⟩ := hexec
      exact .inl (hquiet { w with paused := false } hinit hw)
  | transferAdmin a =>
      simp only [exec, transferAdmin, bind_eq_ok, pure_eq_ok] at hexec
      obtain ⟨_, -, hw⟩ := hexec
      exact .inl (hquiet { w with admin := some a } (by simp) hw)
  | initializeContract a t =>
      simp only [exec, initializeContract, bind_eq_ok, panicIf_eq_ok, exists_const] at hexec
      exact absurd hinit hexec.1
  | tokenTransfer s d a =>
      simp only [exec, bind_eq_ok, requireAuth_eq_ok, World.tokenTransfer_eq_ok, exists_const]
        at hexec
      obtain ⟨hauth, ha, -, rfl⟩ := hexec
      have hne : w.self ≠ s := by rintro rfl; simp [hself] at hauth
      exact .inl {
        self := rfl, token := rfl, admin := id, market := rfl, book := rfl, marketCount := rfl
        events := rfl, balance := World.le_moveBalance ha hne }
  | stake | unstake | proposeResolution | finalizeResolution | cancelMarket | claim | refund =>
      cases hop

/-- **What one step can do**, once the contract is initialised. -/
theorem step_cases {l : Env × Call} (hinit : w.admin ≠ none) (h : Step w l w') :
    Quiet w w' ∨ (∃ mk, Creates w w' mk) ∨ ∃ m x op, Moves w w' m x op := by
  cases hop : l.2.operation l.1 with
  | none =>
      rcases step_still hinit hop h with hq | hc
      · exact .inl hq
      · exact .inr (.inl hc)
  | some moved =>
      obtain ⟨m, op⟩ := moved
      obtain ⟨x, hx, -⟩ := step_moves hop h
      exact .inr (.inr ⟨m, x, op, hx⟩)

theorem Step.frame {l : Env × Call} (hinit : w.admin ≠ none) (h : Step w l w') : Frame w w' := by
  rcases step_cases hinit h with hq | ⟨_, hc⟩ | ⟨_, _, _, hm⟩
  · exact hq.toFrame
  · exact hc.toFrame
  · exact hm.toFrame

/-- Evaluating a sequence of invocations gives a run. -/
theorem execAll_run {trace : List (Env × Call)} (hinit : w.admin ≠ none)
    (hauth : ∀ l ∈ trace, l.1.auth w.self = false) (h : execAll w trace = .ok w') :
    Run Step w trace w' := by
  induction trace generalizing w with
  | nil =>
      obtain rfl := Except.ok.inj h
      exact .refl w
  | cons l trace ih =>
      simp only [execAll, bind_eq_ok] at h
      obtain ⟨w₁, hexec, hrest⟩ := h
      have hstep : Step w l w₁ := ⟨hauth l (by simp), hexec⟩
      have hframe := hstep.frame hinit
      have hrun := ih (hframe.admin hinit)
        (fun l' hl' => by rw [hframe.self]; exact hauth l' (by simp [hl'])) hrest
      exact (Run.single hstep).append hrun

end CrownFi.PredictionContract
