import CrownFi.PredictionContract.Ledger

/-!
# CrownFi.PredictionContract.Specs

One **inversion lemma** for each entry point: what a successful invocation
checked, and the world it left. Everything proved later about the contract is
read off these lemmas; no later proof unfolds an entry point.
-/

namespace CrownFi.PredictionContract

open Lib

variable {e : Env} {w w' : World}

/-! ### Guards, arithmetic and the token -/

@[simp] theorem requireAuth_eq_ok {a : Address} {u : Unit} :
    requireAuth e a = .ok u ↔ e.auth a = true := by
  simp [requireAuth]

@[simp] theorem panicIf_eq_ok {c : Prop} [Decidable c] {err : Error} {u : Unit} :
    panicIf c err = .ok u ↔ ¬ c := by
  simp [panicIf]

@[simp] theorem requireAuth_eq_error {a : Address} {f : Failure} :
    requireAuth e a = .error f ↔ e.auth a = false ∧ .unauthorized = f := by
  simp [requireAuth]

@[simp] theorem panicIf_eq_error {c : Prop} [Decidable c] {err : Error} {f : Failure} :
    panicIf c err = .error f ↔ c ∧ .contract err = f := by
  simp [panicIf]

/-- A value fits the machine type `i128`. -/
def InI128 (x : Int) : Prop := i128Min ≤ x ∧ x ≤ i128Max

theorem i128_eq_ok {x y : Int} : i128 x = .ok y ↔ InI128 x ∧ x = y := by
  simp [i128, InI128]

theorem checkedAdd_eq_ok {l r y : Int} : checkedAdd l r = .ok y ↔ InI128 (l + r) ∧ l + r = y :=
  i128_eq_ok

theorem checkedSub_eq_ok {l r y : Int} : checkedSub l r = .ok y ↔ InI128 (l - r) ∧ l - r = y :=
  i128_eq_ok

theorem checkedMul_eq_ok {l r y : Int} : checkedMul l r = .ok y ↔ InI128 (l * r) ∧ l * r = y :=
  i128_eq_ok

theorem i128_ne_insufficientFunds {x : Int} : i128 x ≠ .error .insufficientFunds := by
  simp [i128]

namespace World

theorem tokenTransfer_eq_ok {src dst : Address} {amount : Int} :
    w.tokenTransfer src dst amount = .ok w' ↔
      0 ≤ amount ∧ amount ≤ w.balance src ∧ w' = w.moveBalance src dst amount := by
  simp [tokenTransfer, and_assoc, eq_comm (a := w')]

theorem transfer_eq_ok {src dst : Address} {amount : Int} :
    w.transfer src dst amount = .ok w' ↔
      (∃ t, w.token = some t) ∧ 0 ≤ amount ∧ amount ≤ w.balance src ∧
        w' = w.moveBalance src dst amount := by
  simp [transfer, tokenTransfer_eq_ok]

theorem transfer_eq_insufficientFunds {src dst : Address} {amount : Int} :
    w.transfer src dst amount = .error .insufficientFunds ↔
      (∃ t, w.token = some t) ∧ (amount < 0 ∨ w.balance src < amount) := by
  simp [transfer, tokenTransfer]

theorem requireAdmin_eq_ok {u : Unit} :
    w.requireAdmin e = .ok u ↔ ∃ a, w.admin = some a ∧ e.auth a = true := by
  simp [requireAdmin, readAdmin]

@[simp] theorem readMarket_eq_ok {m : Nat} {mk : MarketInfo} :
    w.readMarket m = .ok mk ↔ w.market m = some mk := by
  simp [readMarket]

/-- What a transfer leaves at an account that sent it to somebody else. -/
theorem moveBalance_src {src dst : Address} (h : src ≠ dst) (amount : Int) :
    (w.moveBalance src dst amount).balance src = w.balance src - amount := by
  simp [moveBalance, h]

theorem moveBalance_dst {src dst : Address} (h : src ≠ dst) (amount : Int) :
    (w.moveBalance src dst amount).balance dst = w.balance dst + amount := by
  simp [moveBalance, h.symm]

/-- A transfer takes at most its amount from any account. -/
theorem sub_le_moveBalance {src dst a : Address} {amount : Int} (h : 0 ≤ amount) :
    w.balance a - amount ≤ (w.moveBalance src dst amount).balance a := by
  simp only [moveBalance]
  split <;> split <;> omega

/-- An account other than the source never loses by a transfer. -/
theorem le_moveBalance {src dst a : Address} {amount : Int} (h : 0 ≤ amount) (ha : a ≠ src) :
    w.balance a ≤ (w.moveBalance src dst amount).balance a := by
  simp only [moveBalance, if_neg ha]
  split <;> omega

end World

/-! ### Entry points -/

theorem createMarket_ok {question category : String} {n close delay fee id : Nat}
    {resolver treasury : Address}
    (h : createMarket e w question category n close delay fee resolver treasury = .ok (w', id)) :
    2 ≤ n ∧ n ≤ maxOptions ∧ e.timestamp < close ∧ fee ≤ maxFeeBps ∧ id = w.marketCount + 1 ∧
      w' = ({ w.writeMarket id
              { question, category, numOptions := n, closeTime := close, resolutionDelay := delay,
                feeBps := fee, resolver, treasury, status := .open, winningOption := 0,
                resultHash := 0, proposedAt := 0, totalPool := 0, claimedGross := 0,
                claimedWinningStake := 0 } with marketCount := id }
            |>.publish (.create id n)) := by
  simp only [createMarket, bind_eq_ok, World.requireAdmin_eq_ok, panicIf_eq_ok, pure_eq_ok,
    Prod.mk.injEq, exists_const, not_or, not_lt, not_le] at h
  obtain ⟨-, ⟨h2, hmax, hclose, hfee⟩, -, hw, hid⟩ := h
  subst hid
  exact ⟨h2, hmax, hclose, hfee, rfl, hw.symm⟩

theorem stake_ok {u : Address} {m o : Nat} {a : Int} (h : stake e w u m o a = .ok w') :
    ∃ mk, w.market m = some mk ∧ e.auth u = true ∧ 0 < a ∧ mk.status = .open ∧
      e.timestamp < mk.closeTime ∧ o < mk.numOptions ∧ InI128 (mk.totalPool + a) ∧
      w' = (w.moveBalance u w.self a
        |>.writePool m o (w.pool m o + a)
        |>.writePosition m u o (w.position m u o + a)
        |>.writeMarket m { mk with totalPool := mk.totalPool + a }
        |>.publish (.stake m u o a)) := by
  simp only [stake, bind_eq_ok, requireAuth_eq_ok, panicIf_eq_ok, World.readMarket_eq_ok,
    World.transfer_eq_ok, checkedAdd_eq_ok, pure_eq_ok, not_or, not_le, not_not] at h
  obtain ⟨-, hauth, -, -, -, ha, mk, hmk, -, ⟨hopen, htime⟩, -, ho, w₁, ⟨-, -, -, rfl⟩,
    _, ⟨-, rfl⟩, _, ⟨-, rfl⟩, _, ⟨htotal, rfl⟩, hw⟩ := h
  exact ⟨mk, hmk, hauth, ha, hopen, htime, ho, htotal, hw.symm⟩

theorem unstake_ok {u : Address} {m o : Nat} {p : Int} (h : unstake e w u m o = .ok (w', p)) :
    ∃ mk, w.market m = some mk ∧ e.auth u = true ∧ p = w.position m u o ∧ 0 < p ∧
      mk.status = .open ∧ e.timestamp < mk.closeTime ∧ o < mk.numOptions ∧
      w' = ((w.writePool m o (w.pool m o - p)
          |>.writePosition m u o 0
          |>.writeMarket m { mk with totalPool := mk.totalPool - p }).moveBalance w.self u p
        |>.publish (.unstake m u o p)) := by
  simp only [unstake, bind_eq_ok, requireAuth_eq_ok, panicIf_eq_ok, World.readMarket_eq_ok,
    World.transfer_eq_ok, checkedSub_eq_ok, pure_eq_ok, not_or, not_le, not_not, Prod.mk.injEq] at h
  obtain ⟨-, hauth, mk, hmk, -, ⟨hopen, htime⟩, -, ho, -, hp, _, ⟨-, rfl⟩, _, ⟨-, rfl⟩,
    w₁, ⟨-, -, -, rfl⟩, hw, rfl⟩ := h
  exact ⟨mk, hmk, hauth, rfl, hp, hopen, htime, ho, hw.symm⟩

theorem proposeResolution_ok {m o : Nat} {hash : Hash}
    (h : proposeResolution e w m o hash = .ok w') :
    ∃ mk, w.market m = some mk ∧ mk.status = .open ∧ mk.closeTime ≤ e.timestamp ∧
      o < mk.numOptions ∧ 0 < w.pool m o ∧
      w' = (w.writeMarket m
          { mk with status := .resolutionPending, winningOption := o, resultHash := hash,
                    proposedAt := e.timestamp }
        |>.publish (.proposal m o hash)) := by
  simp only [proposeResolution, bind_eq_ok, requireAuth_eq_ok, panicIf_eq_ok,
    World.readMarket_eq_ok, pure_eq_ok, not_lt, not_le, not_not] at h
  obtain ⟨mk, hmk, -, -, -, hopen, -, hclose, -, ho, -, hpool, hw⟩ := h
  exact ⟨mk, hmk, hopen, hclose, ho, hpool, hw.symm⟩

theorem finalizeResolution_ok {m : Nat} (h : finalizeResolution e w m = .ok w') :
    ∃ mk, w.market m = some mk ∧ mk.status = .resolutionPending ∧
      mk.proposedAt + mk.resolutionDelay ≤ e.timestamp ∧
      w' = (w.writeMarket m { mk with status := .resolved }
        |>.publish (.finalize m mk.winningOption mk.resultHash)) := by
  simp only [finalizeResolution, bind_eq_ok, requireAuth_eq_ok, panicIf_eq_ok,
    World.readMarket_eq_ok, pure_eq_ok, not_lt, not_not] at h
  obtain ⟨mk, hmk, -, -, -, hpending, -, -, -, htime, hw⟩ := h
  exact ⟨mk, hmk, hpending, htime, hw.symm⟩

theorem cancelMarket_ok {m : Nat} (h : cancelMarket e w m = .ok w') :
    ∃ mk, w.market m = some mk ∧ (mk.status = .open ∨ mk.status = .resolutionPending) ∧
      w' = (w.writeMarket m { mk with status := .cancelled } |>.publish (.cancel m)) := by
  simp only [cancelMarket, bind_eq_ok, World.requireAdmin_eq_ok, panicIf_eq_ok,
    World.readMarket_eq_ok, pure_eq_ok, not_or] at h
  obtain ⟨-, -, mk, hmk, -, ⟨hres, hcan⟩, hw⟩ := h
  refine ⟨mk, hmk, ?_, hw.symm⟩
  cases hs : mk.status <;> simp_all

theorem claimGross_ok {mk : MarketInfo} {stake pool gross : Int}
    (h : claimGross mk stake pool (mk.claimedWinningStake + stake) = .ok gross) :
    gross = grossOf mk stake pool := by
  unfold claimGross at h
  unfold grossOf
  split at h
  · rename_i hlast
    rw [if_pos hlast]
    exact (checkedSub_eq_ok.mp h).2.symm
  · rename_i hlast
    rw [if_neg hlast]
    simp only [bind_eq_ok, checkedMul_eq_ok, pure_eq_ok] at h
    obtain ⟨_, ⟨-, rfl⟩, rfl⟩ := h
    rfl

/-- The world after the fee has been paid, if there is any. -/
def World.afterFee (w : World) (treasury : Address) (fee : Int) : World :=
  if 0 < fee then w.moveBalance w.self treasury fee else w

theorem payFee_ok {treasury : Address} {fee : Int} (h : payFee w treasury fee = .ok w') :
    w' = w.afterFee treasury fee := by
  unfold payFee at h
  unfold World.afterFee
  split at h
  · rename_i hfee
    rw [if_pos hfee]
    exact (World.transfer_eq_ok.mp h).2.2.2
  · rename_i hfee
    rw [if_neg hfee]
    exact (Except.ok.inj h).symm

/-- The storage writes of a claim. -/
def World.recordClaim (w : World) (m : Nat) (mk : MarketInfo) (u : Address) (stake gross : Int) :
    World :=
  w.writeClaimed m u
    |>.writeMarket m
      { mk with claimedWinningStake := mk.claimedWinningStake + stake,
                claimedGross := mk.claimedGross + gross }

theorem claim_ok {u : Address} {m : Nat} {net : Int} (h : claim e w u m = .ok (w', net)) :
    ∃ mk stake gross fee, w.market m = some mk ∧ e.auth u = true ∧ mk.status = .resolved ∧
      w.claimed m u = false ∧ stake = w.position m u mk.winningOption ∧ 0 < stake ∧
      gross = grossOf mk stake (w.pool m mk.winningOption) ∧ fee = feeOf mk gross stake ∧
      net = gross - fee ∧
      w' = (w.recordClaim m mk u stake gross
        |>.afterFee mk.treasury fee
        |>.moveBalance w.self u net
        |>.publish (.claim m u gross fee net)) := by
  simp only [claim, bind_eq_ok, requireAuth_eq_ok, panicIf_eq_ok, World.readMarket_eq_ok,
    World.transfer_eq_ok, checkedAdd_eq_ok, checkedSub_eq_ok, checkedMul_eq_ok, pure_eq_ok,
    exists_const, not_le, not_not, Bool.not_eq_true, Prod.mk.injEq] at h
  obtain ⟨hauth, mk, hmk, hres, hclaimed, hstake, -, _, ⟨-, rfl⟩, gross, hgross,
    _, ⟨-, rfl⟩, _, ⟨-, rfl⟩, _, ⟨-, rfl⟩, _, ⟨-, rfl⟩, w₁, hfee, w₂, ⟨-, -, -, rfl⟩, hw, rfl⟩ := h
  have hself : w₁.self = w.self := by
    rw [payFee_ok hfee, World.afterFee]
    split <;> rfl
  refine ⟨mk, _, gross, _, hmk, hauth, hres, hclaimed, rfl, hstake, claimGross_ok hgross, rfl, rfl,
    ?_⟩
  rw [← hw, hself, payFee_ok hfee]
  rfl

theorem refundTotal_ok {u : Address} {m n : Nat} {t : Int} (h : refundTotal w u m n = .ok t) :
    t = ∑ o ∈ Finset.range n, w.position m u o := by
  induction n generalizing t with
  | zero => simpa [refundTotal, eq_comm] using h
  | succ n ih =>
      simp only [refundTotal, bind_eq_ok, checkedAdd_eq_ok] at h
      obtain ⟨t', ht', -, rfl⟩ := h
      rw [Finset.sum_range_succ, ← ih ht']

theorem refund_ok {u : Address} {m : Nat} {t : Int} (h : refund e w u m = .ok (w', t)) :
    ∃ mk, w.market m = some mk ∧ e.auth u = true ∧ mk.status = .cancelled ∧
      w.claimed m u = false ∧ t = ∑ o ∈ Finset.range mk.numOptions, w.position m u o ∧ 0 < t ∧
      w' = ((w.writeClaimed m u).moveBalance w.self u t |>.publish (.refund m u t)) := by
  simp only [refund, bind_eq_ok, requireAuth_eq_ok, panicIf_eq_ok, World.readMarket_eq_ok,
    World.transfer_eq_ok, pure_eq_ok, not_le, not_not, Bool.not_eq_true, Prod.mk.injEq] at h
  obtain ⟨-, hauth, mk, hmk, -, hcan, -, hclaimed, t', ht', -, hpos, w₁, ⟨-, -, -, rfl⟩, hw, rfl⟩ := h
  exact ⟨mk, hmk, hauth, hcan, hclaimed, refundTotal_ok ht', hpos, hw.symm⟩

/-! ### Refused payouts

When the token refuses a payout, the guards before it have passed.
-/

theorem readMarket_ne_insufficientFunds {m : Nat} :
    w.readMarket m ≠ .error .insufficientFunds := by
  simp [World.readMarket]

theorem claimGross_ne_insufficientFunds {mk : MarketInfo} {s p n : Int} :
    claimGross mk s p n ≠ .error .insufficientFunds := by
  unfold claimGross
  split <;> simp [checkedSub, checkedMul, i128]

theorem refundTotal_ne_insufficientFunds {u : Address} {m n : Nat} :
    refundTotal w u m n ≠ .error .insufficientFunds := by
  induction n with
  | zero => simp [refundTotal]
  | succ n ih => simp [refundTotal, ih, checkedAdd, i128]

theorem payFee_insufficientFunds {treasury : Address} {fee : Int}
    (h : payFee w treasury fee = .error .insufficientFunds) : w.balance w.self < fee := by
  unfold payFee at h
  split at h
  · rename_i hpos
    exact (World.transfer_eq_insufficientFunds.mp h).2.resolve_left (by omega)
  · cases h

theorem unstake_insufficientFunds {u : Address} {m o : Nat}
    (h : unstake e w u m o = .error .insufficientFunds) :
    ∃ mk, w.market m = some mk ∧ mk.status = .open ∧ o < mk.numOptions ∧
      0 < w.position m u o ∧ w.balance w.self < w.position m u o := by
  simp only [unstake, bind_eq_error, requireAuth_eq_error, panicIf_eq_error, requireAuth_eq_ok,
    panicIf_eq_ok, readMarket_ne_insufficientFunds, World.readMarket_eq_ok, reduceCtorEq, and_false,
    false_or, checkedSub, i128_ne_insufficientFunds, World.transfer_eq_insufficientFunds,
    pure_ne_error, exists_false, or_false, exists_const, not_or, not_not, not_le] at h
  obtain ⟨-, mk, hmk, ⟨hopen, -⟩, ho, hpos, _, -, _, -, hlt⟩ := h
  exact ⟨mk, hmk, hopen, ho, hpos, hlt.2.resolve_left (by omega)⟩

theorem refund_insufficientFunds {u : Address} {m : Nat}
    (h : refund e w u m = .error .insufficientFunds) :
    ∃ mk, w.market m = some mk ∧ mk.status = .cancelled ∧ w.claimed m u = false ∧
      0 < ∑ o ∈ Finset.range mk.numOptions, w.position m u o ∧
      w.balance w.self < ∑ o ∈ Finset.range mk.numOptions, w.position m u o := by
  simp only [refund, bind_eq_error, requireAuth_eq_error, panicIf_eq_error, requireAuth_eq_ok,
    panicIf_eq_ok, readMarket_ne_insufficientFunds, World.readMarket_eq_ok, reduceCtorEq, and_false,
    false_or, refundTotal_ne_insufficientFunds, World.transfer_eq_insufficientFunds,
    pure_ne_error, exists_false, or_false, exists_const, not_not, not_le, Bool.not_eq_true] at h
  obtain ⟨-, mk, hmk, hcan, hclaimed, t, ht, hpos, hlt⟩ := h
  refine ⟨mk, hmk, hcan, hclaimed, ?_⟩
  rw [← refundTotal_ok ht]
  exact ⟨hpos, hlt.2.resolve_left (by omega)⟩

/-- A claim that the token refuses lacks the fee, or what is left of the gross after it. -/
theorem claim_insufficientFunds {u : Address} {m : Nat}
    (h : claim e w u m = .error .insufficientFunds) :
    ∃ mk stake gross fee, w.market m = some mk ∧ mk.status = .resolved ∧
      w.claimed m u = false ∧ stake = w.position m u mk.winningOption ∧ 0 < stake ∧
      gross = grossOf mk stake (w.pool m mk.winningOption) ∧ fee = feeOf mk gross stake ∧
      (w.balance w.self < fee ∨ gross - fee < 0 ∨
        ((w.recordClaim m mk u stake gross).afterFee mk.treasury fee).balance w.self < gross - fee)
    := by
  simp only [claim, bind_eq_error, requireAuth_eq_error, panicIf_eq_error, requireAuth_eq_ok,
    panicIf_eq_ok, readMarket_ne_insufficientFunds, World.readMarket_eq_ok, reduceCtorEq, and_false,
    false_or, claimGross_ne_insufficientFunds, checkedSub, checkedAdd, checkedMul,
    i128_ne_insufficientFunds, i128_eq_ok, World.transfer_eq_insufficientFunds,
    pure_ne_error, exists_false, or_false, exists_const, not_not, not_le, Bool.not_eq_true] at h
  obtain ⟨-, mk, hmk, hres, hclaimed, hpos, -, _, ⟨-, rfl⟩, gross, hgross, _, ⟨-, rfl⟩, _, ⟨-, rfl⟩,
    _, ⟨-, rfl⟩, _, ⟨-, rfl⟩, h⟩ := h
  refine ⟨mk, _, gross, _, hmk, hres, hclaimed, rfl, hpos, claimGross_ok hgross, rfl, ?_⟩
  rcases h with h | ⟨w₁, hfee, -, h⟩
  · exact Or.inl <| payFee_insufficientFunds
      (w := w.recordClaim m mk u (w.position m u mk.winningOption) gross) h
  · have hself : w₁.self = w.self := by
      rw [payFee_ok hfee, World.afterFee]
      split <;> rfl
    rw [hself, payFee_ok hfee] at h
    exact Or.inr h

end CrownFi.PredictionContract
