import CrownFi.PredictionContract.Steps

/-!
# CrownFi.PredictionContract.Accounting

**Accounting and solvency of the contract.** `Sound` says that every market's
account is balanced and that the contract's token balance covers what all markets
together still owe. It holds after initialisation and every step keeps it: a
step moves one account, whose own books stay balanced (`Account.Balanced.apply`),
and the balance follows that account's debt (`Account.Balanced.owed_apply`). So
every payout is covered by the market that makes it.
-/

namespace CrownFi.PredictionContract

open Lib

variable {w w' : World}

/-- What market `m` still owes its users. -/
noncomputable def World.owed (w : World) (m : Nat) : Int :=
  match w.account m with
  | some x => x.owed
  | none => 0

theorem World.owed_congr {m : Nat} (hm : w'.market m = w.market m) (hb : w'.book m = w.book m) :
    w'.account m = w.account m ∧ w'.owed m = w.owed m := by
  have h : w'.account m = w.account m := by rw [account, account, hm, hb]
  exact ⟨h, by rw [owed, owed, h]⟩

/-- **The invariant of the contract.** -/
structure Sound (w : World) : Prop where
  balanced : ∀ m x, w.account m = some x → x.Balanced
  blank : ∀ m, w.market m = none → w.book m = Book.empty
  ids : ∀ m, w.marketCount < m → w.market m = none
  admin : w.admin ≠ none
  token : w.token ≠ none
  solvent : ∑ m ∈ Finset.range (w.marketCount + 1), w.owed m ≤ w.balance w.self

namespace Sound

theorem owed_nonneg (h : Sound w) (m : Nat) : 0 ≤ w.owed m := by
  unfold World.owed
  split
  · rename_i x hx
    exact (h.balanced m x hx).owed_nonneg
  · exact le_rfl

theorem le_marketCount (h : Sound w) {m : Nat} {x : Account} (hx : w.account m = some x) :
    m ≤ w.marketCount := by
  by_contra hlt
  have := (World.account_eq_some.mp hx).1
  rw [h.ids m (by omega)] at this
  cases this

/-- The contract holds at least what any one market owes. -/
theorem owed_le_balance (h : Sound w) {m : Nat} {x : Account} (hx : w.account m = some x) :
    x.owed ≤ w.balance w.self := by
  have hm : m ∈ Finset.range (w.marketCount + 1) :=
    Finset.mem_range.mpr (Nat.lt_succ_of_le (h.le_marketCount hx))
  have hle := Finset.single_le_sum (fun m _ => h.owed_nonneg m) hm
  have howed : w.owed m = x.owed := by rw [World.owed, hx]
  rw [howed] at hle
  exact hle.trans h.solvent

/-- An operation's payout is covered. -/
theorem payout_le_balance (h : Sound w) {m : Nat} {x : Account} {op : Account.Op}
    (hx : w.account m = some x) (hop : x.Allowed op) : -x.inflow op ≤ w.balance w.self :=
  ((h.balanced m x hx).payout_le hop).trans (h.owed_le_balance hx)

end Sound

/-- A new account has nothing booked. -/
theorem Creates.balanced {mk : MarketInfo} (h : Creates w w' mk) :
    Account.Balanced ⟨mk, Book.empty⟩ := by
  obtain ⟨htotal, hgross, hstake, hwin⟩ := h.blank
  have hb : Account.Booked ⟨mk, Book.empty⟩ := {
    finite := fun o => Set.finite_empty.subset fun u hu => absurd rfl hu
    nonneg := fun u o => le_rfl
    outside := fun u o _ => rfl
    pool_eq := fun o => finsum_zero.symm
    total_eq := by simp [Book.empty, htotal]
    total_le := by simp [htotal, i128Max]
    winner_lt := by
      have := h.options
      simp only [hwin]
      omega
    fee_le := h.fee }
  exact { hb with
    fresh := fun _ u => rfl
    unpaid := fun _ => ⟨hgross, hstake⟩
    won := fun hs => by simp [h.isOpen] at hs
    paid := fun hs => by simp [h.isOpen] at hs }

theorem Quiet.sound (h : Quiet w w') (hw : Sound w) : Sound w' := by
  have hsame : ∀ m, w'.account m = w.account m ∧ w'.owed m = w.owed m := fun m =>
    World.owed_congr (by rw [h.market]) (by rw [h.book])
  exact {
    balanced := fun m x hx => hw.balanced m x ((hsame m).1 ▸ hx)
    blank := fun m hm => by
      rw [h.book]
      exact hw.blank m (by rwa [h.market] at hm)
    ids := fun m hm => by
      rw [h.market]
      exact hw.ids m (by rwa [h.marketCount] at hm)
    admin := h.admin hw.admin
    token := by rw [h.token]; exact hw.token
    solvent := by
      rw [h.marketCount, Finset.sum_congr rfl fun m _ => (hsame m).2, h.self]
      exact hw.solvent.trans h.balance }

theorem Creates.sound {mk : MarketInfo} (h : Creates w w' mk) (hw : Sound w) : Sound w' := by
  have hnew : w'.account (w.marketCount + 1) = some ⟨mk, Book.empty⟩ := by
    rw [World.account_eq_some, h.market, h.book]
    exact ⟨World.writeMarket_self .., hw.blank _ (hw.ids _ (Nat.lt_succ_self _))⟩
  have hmarket : ∀ m, m ≠ w.marketCount + 1 → w'.market m = w.market m := fun m hm => by
    rw [h.market]
    exact World.writeMarket_of_ne hm mk
  have hsame : ∀ m, m ≠ w.marketCount + 1 →
      w'.account m = w.account m ∧ w'.owed m = w.owed m := fun m hm =>
    World.owed_congr (hmarket m hm) (by rw [h.book])
  exact {
    balanced := fun m x hx => by
      by_cases hm : m = w.marketCount + 1
      · subst hm
        obtain rfl := Option.some.inj (hnew.symm.trans hx)
        exact h.balanced
      · exact hw.balanced m x ((hsame m hm).1 ▸ hx)
    blank := fun m hm => by
      rw [h.book]
      refine hw.blank m ?_
      by_cases hid : m = w.marketCount + 1
      · exact hw.ids m (by omega)
      · rwa [hmarket m hid] at hm
    ids := fun m hm => by
      rw [h.marketCount] at hm
      rw [hmarket m (by omega)]
      exact hw.ids m (by omega)
    admin := h.admin hw.admin
    token := by rw [h.token]; exact hw.token
    solvent := by
      have hzero : w'.owed (w.marketCount + 1) = 0 := by
        rw [World.owed, hnew]
        simp [Account.owed, h.isOpen, h.blank.1]
      have hold : ∑ m ∈ Finset.range (w.marketCount + 1), w'.owed m =
          ∑ m ∈ Finset.range (w.marketCount + 1), w.owed m :=
        Finset.sum_congr rfl fun m hm => (hsame m (Finset.mem_range.mp hm).ne).2
      rw [h.marketCount, Finset.sum_range_succ, hzero, hold, add_zero, h.self, h.balance]
      exact hw.solvent }

/-- Only the moved market's debt changes, and by exactly its inflow. -/
theorem Moves.owed {m : Nat} {x : Account} {op : Account.Op} (h : Moves w w' m x op)
    (hb : x.Balanced) :
    w'.owed m = w.owed m + x.inflow op ∧ ∀ m', m' ≠ m → w'.owed m' = w.owed m' := by
  refine ⟨?_, fun m' hm' => (World.owed_congr (h.market m' hm') (h.book m' hm')).2⟩
  rw [World.owed, World.owed, h.before, h.after]
  exact hb.owed_apply h.allowed

theorem Moves.sound {m : Nat} {x : Account} {op : Account.Op} (h : Moves w w' m x op)
    (hw : Sound w) : Sound w' := by
  have hx := hw.balanced m x h.before
  have hafter := World.account_eq_some.mp h.after
  obtain ⟨hmoved, hothers⟩ := h.owed hx
  have hm : m ∈ Finset.range (w.marketCount + 1) :=
    Finset.mem_range.mpr (Nat.lt_succ_of_le (hw.le_marketCount h.before))
  exact {
    balanced := fun m' y hy => by
      by_cases hm' : m' = m
      · subst hm'
        obtain rfl := Option.some.inj (h.after.symm.trans hy)
        exact hx.apply h.allowed
      · exact hw.balanced m' y
          ((World.owed_congr (h.market m' hm') (h.book m' hm')).1 ▸ hy)
    blank := fun m' hnone => by
      by_cases hm' : m' = m
      · subst hm'
        rw [hafter.1] at hnone
        cases hnone
      · rw [h.book m' hm']
        exact hw.blank m' (by rwa [h.market m' hm'] at hnone)
    ids := fun m' hlt => by
      rw [h.marketCount] at hlt
      have hle := hw.le_marketCount h.before
      rw [h.market m' (by omega)]
      exact hw.ids m' hlt
    admin := h.admin hw.admin
    token := by rw [h.token]; exact hw.token
    solvent := by
      have hrest : ∑ m' ∈ (Finset.range (w.marketCount + 1)).erase m, w'.owed m' =
          ∑ m' ∈ (Finset.range (w.marketCount + 1)).erase m, w.owed m' :=
        Finset.sum_congr rfl fun m' hm' => hothers m' (Finset.ne_of_mem_erase hm')
      have hold := hw.solvent
      rw [← Finset.add_sum_erase _ _ hm] at hold
      rw [h.marketCount, ← Finset.add_sum_erase _ _ hm, hrest, hmoved, h.self]
      linarith [h.balance hx] }

/-- **Every step keeps the contract sound.** -/
theorem Step.sound {l : Env × Call} (h : Step w l w') (hw : Sound w) : Sound w' := by
  rcases step_cases hw.admin h with hq | ⟨mk, hc⟩ | ⟨m, x, op, hm⟩
  · exact hq.sound hw
  · exact hc.sound hw
  · exact hm.sound hw

theorem Fresh.sound {admin token : Address} (h : Fresh w)
    (hinit : initializeContract w admin token = .ok w') : Sound w' := by
  simp only [initializeContract, bind_eq_ok, panicIf_eq_ok, pure_eq_ok, exists_const] at hinit
  obtain ⟨-, rfl⟩ := hinit
  have hnone : ∀ m, World.account w m = none := fun m => by simp [World.account, h.market m]
  exact {
    balanced := fun m x hx => by
      have : w.account m = some x := hx
      rw [hnone] at this
      cases this
    blank := fun m _ => h.book m
    ids := fun m _ => h.market m
    admin := by simp [World.publish]
    token := by simp [World.publish]
    solvent := by
      refine le_trans (le_of_eq (Finset.sum_eq_zero fun m _ => ?_)) h.balance
      have : World.owed w m = 0 := by rw [World.owed, hnone]
      exact this }

theorem Reachable.sound (h : Reachable w) : Sound w := by
  obtain ⟨w₀, admin, token, w₁, trace, hfresh, hinit, hrun⟩ := h
  exact hrun.invariant (fun _ _ _ hs ht => ht.sound hs) (hfresh.sound hinit)

/-! ### Payouts -/

theorem Sound.unstake_funded (h : Sound w) (e : Env) (u : Address) (m o : Nat) :
    unstake e w u m o ≠ .error .insufficientFunds := by
  intro herr
  obtain ⟨mk, hmk, hopen, ho, hpos, hlt⟩ := unstake_insufficientFunds herr
  have hx : w.account m = some ⟨mk, w.book m⟩ := World.account_eq_some.mpr ⟨hmk, rfl⟩
  have hallowed : Account.Allowed ⟨mk, w.book m⟩ (.unstake u o) := ⟨hopen, ho, hpos⟩
  have hle := h.payout_le_balance hx hallowed
  simp only [Account.inflow, neg_neg] at hle
  exact absurd hlt (not_lt.mpr hle)

theorem Sound.refund_funded (h : Sound w) (e : Env) (u : Address) (m : Nat) :
    refund e w u m ≠ .error .insufficientFunds := by
  intro herr
  obtain ⟨mk, hmk, hcan, hclaimed, hpos, hlt⟩ := refund_insufficientFunds herr
  have hx : w.account m = some ⟨mk, w.book m⟩ := World.account_eq_some.mpr ⟨hmk, rfl⟩
  have hallowed : Account.Allowed ⟨mk, w.book m⟩ (.refund u) := ⟨hcan, hclaimed, hpos⟩
  have hle := h.payout_le_balance hx hallowed
  simp only [Account.inflow, neg_neg] at hle
  exact absurd hlt (not_lt.mpr hle)

theorem Sound.claim_funded (h : Sound w) (e : Env) (u : Address) (m : Nat) :
    claim e w u m ≠ .error .insufficientFunds := by
  intro herr
  obtain ⟨mk, stake, gross, fee, hmk, hres, hclaimed, hst, hpos, hgross, hfee, hlack⟩ :=
    claim_insufficientFunds herr
  let x : Account := ⟨mk, w.book m⟩
  have hx : w.account m = some x := World.account_eq_some.mpr ⟨hmk, rfl⟩
  have hop : x.Allowed (.claim u) := ⟨hres, hclaimed, by rw [hst] at hpos; exact hpos⟩
  have hgross' : x.gross u = gross := by rw [hgross, hst]; rfl
  have hfee' : x.fee u = fee := by rw [hfee, ← hgross', hst]; rfl
  have hstake' : x.winningStake u = stake := hst.symm
  obtain ⟨-, -, hnonneg, hle⟩ := (h.balanced m x hx).claim_amounts hop
  have hcover := h.payout_le_balance hx hop
  simp only [Account.inflow, neg_neg] at hcover
  rw [hgross'] at hcover hle
  rw [hfee'] at hnonneg hle
  rw [hstake'] at hle
  have hafter := World.sub_le_afterFee (w := w.recordClaim m mk u stake gross) (t := mk.treasury)
    (a := w.self) hnonneg
  have hsame : (w.recordClaim m mk u stake gross).balance w.self = w.balance w.self := rfl
  rcases hlack with hlt | hlt | hlt <;> linarith

/-- A step that takes tokens out of the contract takes them out of one market's debt. -/
theorem Sound.spends_own (h : Sound w) {l : Env × Call} (hstep : Step w l w')
    (hless : w'.balance w.self < w.balance w.self) :
    ∃ m, w.balance w.self - w'.balance w.self ≤ w.owed m - w'.owed m ∧
      ∀ m', m' ≠ m → w'.owed m' = w.owed m' := by
  rcases step_cases h.admin hstep with hq | ⟨mk, hc⟩ | ⟨m, x, op, hm⟩
  · exact absurd hq.balance (not_le.mpr hless)
  · rw [hc.balance] at hless
    exact absurd hless (lt_irrefl _)
  · have hx := h.balanced m x hm.before
    obtain ⟨hmoved, hothers⟩ := hm.owed hx
    exact ⟨m, by linarith [hm.balance hx], hothers⟩

/-- **Accounting and solvency**, in every reachable world: the pools are the sums
of the positions, `total_pool` is the sum of the pools, the token balance covers
what all markets owe, and no payout is refused for lack of funds or paid at
another market's expense. -/
theorem reachable_accounting (hw : Reachable w) :
    (∀ m mk, w.market m = some mk →
      (∀ o, (Function.support fun u => w.position m u o).Finite ∧
        w.pool m o = ∑ᶠ u, w.position m u o) ∧
      (∀ o, mk.numOptions ≤ o → w.pool m o = 0) ∧
      mk.totalPool = ∑ o ∈ Finset.range mk.numOptions, w.pool m o) ∧
    (∀ m, w.marketCount < m → w.market m = none) ∧
    ∑ m ∈ Finset.range (w.marketCount + 1), w.owed m ≤ w.balance w.self ∧
    (∀ e u m, claim e w u m ≠ .error .insufficientFunds) ∧
    (∀ e u m, refund e w u m ≠ .error .insufficientFunds) ∧
    (∀ e u m o, unstake e w u m o ≠ .error .insufficientFunds) ∧
    (∀ l w', Step w l w' → w'.balance w.self < w.balance w.self →
      ∃ m, w.balance w.self - w'.balance w.self ≤ w.owed m - w'.owed m ∧
        ∀ m', m' ≠ m → w'.owed m' = w.owed m') := by
  have h := hw.sound
  refine ⟨fun m mk hmk => ?_, h.ids, h.solvent, h.claim_funded, h.refund_funded, h.unstake_funded,
    fun l w' hstep hless => h.spends_own hstep hless⟩
  have hb := h.balanced m ⟨mk, w.book m⟩ (World.account_eq_some.mpr ⟨hmk, rfl⟩)
  refine ⟨fun o => ⟨hb.finite o, hb.pool_eq o⟩, fun o ho => ?_, hb.total_eq⟩
  have hzero : ∀ u, (w.book m).position u o = 0 := fun u => hb.outside u o ho
  refine (hb.pool_eq o).trans ?_
  simp only [hzero, finsum_zero]

/-! ### An example world

Market 1 is resolved with two winners, market 2 is cancelled with one stake in it.
-/

/-- A contract at address 0 that was never called; everybody else holds 1000. -/
def genesis : World where
  self := 0
  balance := fun a => if a = 0 then 0 else 1000
  admin := none
  token := none
  paused := false
  marketCount := 0
  market := fun _ => none
  pool := fun _ _ => 0
  position := fun _ _ _ => 0
  claimed := fun _ _ => false
  events := []

/-- An invocation at time `t` that everybody but the contract authorises. -/
def signedAt (t : Nat) : Env := ⟨t, fun a => a != 0⟩

def sampleTrace : List (Env × Call) :=
  [(signedAt 0, .createMarket "Who wins the crown?" "pageant" 2 100 10 250 7 8),
    (signedAt 1, .createMarket "Who wins the gown?" "pageant" 3 100 10 0 7 8),
    (signedAt 2, .stake 1 1 0 100),
    (signedAt 3, .stake 2 1 0 101),
    (signedAt 4, .stake 3 1 1 50),
    (signedAt 5, .stake 3 2 2 40),
    (signedAt 6, .cancelMarket 2),
    (signedAt 100, .proposeResolution 1 0 7),
    (signedAt 110, .finalizeResolution 1)]

def sampleStart : World := { genesis with admin := some 9, token := some 5, events := [.init 9] }

def sampleWorld : World := (execAll sampleStart sampleTrace).toOption.getD genesis

theorem sampleTrace_ok : execAll sampleStart sampleTrace = .ok sampleWorld := rfl

theorem sampleWorld_reachable : Reachable sampleWorld := by
  refine ⟨genesis, 9, 5, sampleStart, sampleTrace, ?_, rfl, ?_⟩
  · exact ⟨rfl, rfl, fun _ => rfl, fun _ => rfl, rfl, le_rfl⟩
  · exact execAll_run (by decide) (by decide) sampleTrace_ok

theorem sampleWorld_accounting :
    sampleWorld.pool 1 0 = 201 ∧ sampleWorld.pool 1 0 = ∑ᶠ u, sampleWorld.position 1 u 0 ∧
      sampleWorld.balance 0 = 291 ∧
      ∑ m ∈ Finset.range 3, sampleWorld.owed m ≤ sampleWorld.balance 0 := by
  obtain ⟨hbooks, -, hsolvent, -⟩ := reachable_accounting sampleWorld_reachable
  obtain ⟨mk, hmk⟩ : ∃ mk, sampleWorld.market 1 = some mk := ⟨_, rfl⟩
  exact ⟨rfl, ((hbooks 1 mk hmk).1 0).2, rfl, hsolvent⟩

end CrownFi.PredictionContract
