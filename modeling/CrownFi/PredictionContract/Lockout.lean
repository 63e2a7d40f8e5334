import CrownFi.PredictionContract.Protocol

/-!
# CrownFi.PredictionContract.Lockout

**Winners who cannot claim.** A claim multiplies a stake by the whole pool, and a profit by
the fee rate, in the machine type; the stakes themselves are only checked against their
sums. Where one of these products does not fit, the claim fails, and a resolved market has
no other way to pay. Everything that the products are made of is frozen by the
finalization, so a market is safe once and for all if it is finalized when they fit
(`Account.Payable`).
-/

namespace CrownFi.PredictionContract

open Lib

variable {w w' : World} {m : Nat} {x y : Account} {u : Address} {e : Env}
  {trace : List (Env × Call)}

namespace Account

/-- What is left for a winner whom all others were paid before. -/
noncomputable def lastShare (x : Account) (u : Address) : Int :=
  x.info.totalPool - ∑ᶠ v ∈ x.winnerSet \ {u}, x.floorShare v

/-- The products of every claim fit: of a winner who is not the last one, and of the last. -/
structure Payable (x : Account) : Prop where
  shared : ∀ u ∈ x.winnerSet, (∃ v ∈ x.winnerSet, v ≠ u) →
    x.winningStake u * x.info.totalPool ≤ i128Max ∧
      (x.floorShare u - x.winningStake u) * x.info.feeBps ≤ i128Max
  last : ∀ u ∈ x.winnerSet, (x.lastShare u - x.winningStake u) * x.info.feeBps ≤ i128Max

theorem Payable.congr (h : x.Payable) (hoption : y.info.winningOption = x.info.winningOption)
    (htotal : y.info.totalPool = x.info.totalPool) (hfee : y.info.feeBps = x.info.feeBps)
    (hpool : y.book.pool = x.book.pool) (hposition : y.book.position = x.book.position) :
    y.Payable := by
  have hstake : y.winningStake = x.winningStake := by
    funext u
    rw [winningStake, winningStake, hoption, hposition]
  have hset : y.winnerSet = x.winnerSet := by
    rw [winnerSet, winnerSet, hstake]
  have hshare : y.floorShare = x.floorShare := by
    funext u
    rw [floorShare, floorShare, winningPool, winningPool, hstake, htotal, hoption, hpool]
  have hlast : y.lastShare = x.lastShare := by
    funext u
    rw [lastShare, lastShare, htotal, hset, hshare]
  constructor
  · rw [hset, hstake, htotal, hfee, hshare]
    exact h.shared
  · rw [hset, hlast, hstake, hfee]
    exact h.last

theorem Payable.frozen (h : x.Payable) (hfrozen : x.Frozen y) : y.Payable :=
  h.congr hfrozen.winningOption hfrozen.totalPool hfrozen.feeBps hfrozen.pool hfrozen.position

/-- The last winner is paid what the others' shares leave. -/
theorem Balanced.gross_eq_lastShare (h : x.Balanced) (hop : x.Allowed (.claim u)) (hlast : x.Last u) :
    x.gross u = x.lastShare u := by
  rw [h.gross_of_last hop hlast]
  obtain ⟨hres, hu, hstake⟩ := hop
  have hin : u ∈ h.pot.parts := h.mem_winners.mpr hstake
  have hne : h.settled ≠ h.pot.parts := Pot.ne_parts hin (h.not_mem_settled hu)
  have hsettled : h.settled = h.pot.parts.erase u := (h.settled_eq_erase_iff hu).mpr hlast
  have hset : x.winnerSet \ {u} = ((h.pot.parts.erase u : Finset Address) : Set Address) := by
    rw [Finset.coe_erase]
    exact congrArg (· \ {u}) h.coe_winners.symm
  rw [lastShare, (h.paid hres).2.2, Pot.paid, if_neg hne, hsettled, hset, finsum_mem_coe_finset]
  exact congrArg _ (Finset.sum_congr rfl fun v _ => h.shareOf_pot v)

/-- The products of a claim fit when the market is payable. -/
theorem Payable.claim (h : x.Payable) (hb : x.Balanced) (hop : x.Allowed (.claim u)) :
    (x.info.claimedWinningStake + x.winningStake u ≠ x.winningPool →
      x.winningStake u * x.info.totalPool ≤ i128Max) ∧
    (x.gross u - x.winningStake u) * x.info.feeBps ≤ i128Max := by
  obtain ⟨hres, hu, hstake⟩ := id hop
  by_cases hlast : x.Last u
  · constructor
    · intro hne
      exact absurd ((hb.completes_iff hop).mpr hlast) hne
    · rw [hb.gross_eq_lastShare hop hlast]
      exact h.last u hstake
  · -- another winner has not been paid
    have hother : ∃ v ∈ x.winnerSet, v ≠ u := by
      unfold Last at hlast
      push Not at hlast
      obtain ⟨v, hv, hne, -⟩ := hlast
      exact ⟨v, hv, hne⟩
    obtain ⟨hprod, hfee⟩ := h.shared u hstake hother
    rw [hb.gross_of_not_last hop hlast]
    exact ⟨fun _ => hprod, hfee⟩

/-- A pool whose square fits is payable. -/
theorem Balanced.payable (h : x.Balanced) (hpending : x.info.status = .resolutionPending)
    (hsquare : x.info.totalPool * x.info.totalPool ≤ i128Max)
    (hfee : x.info.totalPool * x.info.feeBps ≤ i128Max) : x.Payable := by
  have hpool : 0 < x.winningPool := h.won (.inl hpending)
  have hle : x.winningPool ≤ x.info.totalPool := h.pool_le h.winner_lt
  have hstake (u : Address) : 0 ≤ x.winningStake u ∧ x.winningStake u ≤ x.winningPool :=
    ⟨h.nonneg u _, h.position_le u _⟩
  have hshare (u : Address) : 0 ≤ x.floorShare u ∧ x.floorShare u ≤ x.info.totalPool := by
    obtain ⟨hnonneg, hbound⟩ := hstake u
    constructor
    · exact Int.ediv_nonneg (mul_nonneg hnonneg (by linarith)) hpool.le
    · refine Int.ediv_le_of_le_mul hpool ?_
      rw [mul_comm x.info.totalPool]
      exact mul_le_mul_of_nonneg_right hbound (by linarith)
  -- a profit is at most the pool
  have hprofit (u : Address) {a : Int} (ha : a ≤ x.info.totalPool) :
      (a - x.winningStake u) * x.info.feeBps ≤ i128Max := by
    obtain ⟨hnonneg, -⟩ := hstake u
    exact (mul_le_mul_of_nonneg_right (by linarith) (Int.natCast_nonneg _)).trans hfee
  constructor
  · intro u _ _
    obtain ⟨-, hbound⟩ := hstake u
    refine ⟨le_trans ?_ hsquare, hprofit u (hshare u).2⟩
    exact mul_le_mul_of_nonneg_right (by linarith) (by linarith)
  · intro u _
    refine hprofit u ?_
    have hothers : 0 ≤ ∑ᶠ v ∈ x.winnerSet \ {u}, x.floorShare v :=
      finsum_nonneg fun v => finsum_nonneg fun _ => (hshare v).1
    rw [lastShare]
    linarith

end Account

/-- A claim goes through exactly when its products fit. -/
theorem Sound.claim_succeeds_iff (h : Sound w) (hx : w.account m = some x)
    (hop : x.Allowed (.claim u)) (hauth : e.auth u = true) :
    (∃ w' net, claim e w u m = .ok (w', net)) ↔
      (x.info.claimedWinningStake + x.winningStake u ≠ x.winningPool →
        x.winningStake u * x.info.totalPool ≤ i128Max) ∧
      (x.gross u - x.winningStake u) * x.info.feeBps ≤ i128Max := by
  constructor
  · rintro ⟨w', net, hclaim⟩
    obtain ⟨hmk, hbook⟩ := World.account_eq_some.mp hx
    simp only [claim, bind_eq_ok, World.readMarket_eq_ok, checkedAdd_eq_ok, checkedSub_eq_ok,
      checkedMul_eq_ok] at hclaim
    obtain ⟨-, -, mk, hmk', -, -, -, -, -, -, -, -, _, ⟨-, rfl⟩, gross, hgross, _, ⟨-, rfl⟩, _,
      ⟨hfee, rfl⟩, -⟩ := hclaim
    obtain rfl := Option.some.inj (hmk.symm.trans hmk')
    have hposition : w.position m u x.info.winningOption = x.winningStake u := by
      rw [Account.winningStake, ← hbook]
      rfl
    have hpool : w.pool m x.info.winningOption = x.winningPool := by
      rw [Account.winningPool, ← hbook]
      rfl
    rw [hposition, hpool] at hgross
    rw [hposition, claimGross_ok hgross] at hfee
    constructor
    · intro hne
      unfold claimGross at hgross
      rw [if_neg hne, bind_eq_ok] at hgross
      obtain ⟨product, hproduct, -⟩ := hgross
      exact (checkedMul_eq_ok.mp hproduct).1.2
    · exact hfee.2
  · rintro ⟨hprod, hfee⟩
    exact h.claim_succeeds hx hop hauth hprod hfee

/-! ### Runs -/

/-- A finalization happens only when the claims that it opens can be computed. -/
def FinalizesPayable (w : World) (l : Env × Call) : Prop :=
  ∀ m x, l.2 = .finalizeResolution m → w.account m = some x → x.Payable

/-- Every resolved market can be claimed from. -/
def ResolvedPayable (w : World) : Prop :=
  ∀ m x, w.account m = some x → x.info.status = .resolved → x.Payable

theorem Step.resolvedPayable {l : Env × Call} (h : Step w l w') (hw : Sound w)
    (hl : FinalizesPayable w l) (hp : ResolvedPayable w) : ResolvedPayable w' := by
  intro m y hy hres
  cases hx : w.account m with
  | none =>
      rw [h.account_new hw hx hy] at hres
      cases hres
  | some x =>
      rcases h.account hw hx with hsame | ⟨op, hcall, hop, -, hafter⟩
      · obtain rfl := Option.some.inj (hsame.symm.trans hy)
        exact hp m x hx hres
      · obtain rfl := Option.some.inj (hafter.symm.trans hy)
        cases op with
        | finalize =>
            have hlast : l.2 = .finalizeResolution m := by
              obtain ⟨e, c⟩ := l
              cases c <;> simp_all [Call.operation]
            exact (hl m x hlast hx).congr rfl rfl rfl rfl rfl
        | claim v => exact (hp m x hx hop.1).frozen (Account.frozen_apply hop.1 hop)
        | stake | unstake => simp [Account.apply, hop.1] at hres
        | refund v => simp [Account.apply, hop.1] at hres
        | propose | cancel => cases hres

/-- **No winner is locked out** of a market that was finalized when its claims fit. -/
theorem winners_can_claim {w₀ w₁ : World} {admin token : Address} (hfresh : Fresh w₀)
    (hinit : initializeContract w₀ admin token = .ok w₁)
    (hrun : Run (fun w l w' => Step w l w' ∧ FinalizesPayable w l) w₁ trace w)
    (hx : w.account m = some x) (hres : x.info.status = .resolved) (hu : u ∈ x.winnerSet)
    (hfree : x.book.claimed u = false) (hauth : e.auth u = true) :
    ∃ w' net, claim e w u m = .ok (w', net) := by
  have hsound := hfresh.sound hinit
  have hstart : ResolvedPayable w₁ := by
    intro m x hx
    rw [hfresh.account_none hinit m] at hx
    cases hx
  obtain ⟨hw, hp⟩ := hrun.invariant (P := fun v => Sound v ∧ ResolvedPayable v)
    (fun v l v' ⟨hv, hpv⟩ ⟨hstep, hl⟩ => ⟨hstep.sound hv, hstep.resolvedPayable hv hl hpv⟩)
    ⟨hsound, hstart⟩
  have hop : x.Allowed (.claim u) := ⟨hres, hfree, hu⟩
  obtain ⟨hprod, hfee⟩ := (hp m x hx hres).claim (hw.balanced m x hx) hop
  exact hw.claim_succeeds hx hop hauth hprod hfee

/-- The sample world before its finalization. -/
def samplePending : World := (execAll sampleStart (sampleTrace.take 8)).toOption.getD genesis

theorem samplePending_run :
    Run (fun w l w' => Step w l w' ∧ FinalizesPayable w l) sampleStart (sampleTrace.take 8)
      samplePending := by
  have hexec : execAll sampleStart (sampleTrace.take 8) = .ok samplePending := rfl
  have hcalls : ∀ l ∈ sampleTrace.take 8, ∀ m, l.2 ≠ .finalizeResolution m := by
    simp [sampleTrace]
  refine ((execAll_run (by decide) (by decide) hexec).restrict hcalls).mono ?_
  exact fun v l v' ⟨hstep, hl⟩ => ⟨hstep, fun m x hlast => absurd hlast (hl m)⟩

/-- The first winner of the sample world can claim. -/
theorem sampleWorld_claimable :
    ∃ w' net, claim (signedAt 120) sampleWorld 1 1 = .ok (w', net) := by
  have hfresh : Fresh genesis := ⟨rfl, rfl, fun _ => rfl, fun _ => rfl, rfl, le_rfl⟩
  have hinit : initializeContract genesis 9 5 = .ok sampleStart := rfl
  have hstep : Step samplePending (signedAt 110, .finalizeResolution 1) sampleWorld := ⟨rfl, rfl⟩
  have hsound := (run_chronicle hfresh hinit (samplePending_run.mono fun _ _ _ h => h.1)).sound
  have hlast : FinalizesPayable samplePending (signedAt 110, .finalizeResolution 1) := by
    intro m x hm hx
    obtain rfl : 1 = m := by simpa using hm
    obtain ⟨y, hy⟩ : ∃ y, samplePending.account 1 = some y := ⟨_, rfl⟩
    obtain rfl := Option.some.inj (hy.symm.trans hx)
    have hb := hsound.balanced 1 _ hy
    obtain rfl := Option.some.inj hy
    exact hb.payable rfl (by decide) (by decide)
  have hrun := samplePending_run.append (Run.single ⟨hstep, hlast⟩)
  obtain ⟨x, hx⟩ : ∃ x, sampleWorld.account 1 = some x := ⟨_, rfl⟩
  obtain rfl := Option.some.inj hx
  exact winners_can_claim (u := 1) hfresh hinit hrun rfl rfl (show (0 : Int) < 100 by decide) rfl rfl

/-! ### A market that locks its winners out -/

/-- Everybody but the contract holds `2 ^ 63`. -/
def richGenesis : World := { genesis with balance := fun a => if a = 0 then 0 else 2 ^ 63 }

def richStart : World := { richGenesis with admin := some 9, token := some 5, events := [.init 9] }

/-- Two winners with `2 ^ 63` each: a stake times the pool is `2 ^ 127`. -/
def richTrace : List (Env × Call) :=
  [(signedAt 0, .createMarket "Who wins the crown?" "pageant" 2 100 10 250 7 8),
    (signedAt 2, .stake 1 1 0 (2 ^ 63)),
    (signedAt 3, .stake 2 1 0 (2 ^ 63)),
    (signedAt 100, .proposeResolution 1 0 7),
    (signedAt 110, .finalizeResolution 1)]

def richWorld : World := (execAll richStart richTrace).toOption.getD genesis

theorem winner_locked_out :
    ¬ ∀ (w₀ w₁ w : World) (admin token : Address) (trace : List (Env × Call)) (m : Nat) (x : Account)
      (u : Address) (e : Env), Fresh w₀ → initializeContract w₀ admin token = .ok w₁ →
      Run Step w₁ trace w → w.account m = some x → x.info.status = .resolved → u ∈ x.winnerSet →
      x.book.claimed u = false → e.auth u = true → ∃ w' net, claim e w u m = .ok (w', net) := by
  intro h
  have hfresh : Fresh richGenesis := ⟨rfl, rfl, fun _ => rfl, fun _ => rfl, rfl, le_rfl⟩
  have hrun : Run Step richStart richTrace richWorld :=
    execAll_run (by decide) (by decide) (show execAll richStart richTrace = .ok richWorld from rfl)
  obtain ⟨x, hx⟩ : ∃ x, richWorld.account 1 = some x := ⟨_, rfl⟩
  obtain rfl := Option.some.inj hx
  obtain ⟨w', net, hclaim⟩ := h richGenesis richStart richWorld 9 5 richTrace 1 _ 1 (signedAt 120)
    hfresh rfl hrun rfl rfl (show (0 : Int) < 2 ^ 63 by decide) rfl rfl
  have hfails : claim (signedAt 120) richWorld 1 1 = .error (.contract .arithmetic) := rfl
  rw [hfails] at hclaim
  cases hclaim

end CrownFi.PredictionContract
