import CrownFi.PredictionContract.Accounting
import Mathlib.Data.Set.Card

/-!
# CrownFi.PredictionContract.Payouts

**What the winners of a resolved market are paid**, in whatever order they claim
and whatever else happens in between.

Resolution freezes everything a share is computed from (`Account.Frozen`), so a
claim anywhere in a run is a payment out of one and the same pot. The event log
records every payment; `Logged` says that it holds at most one for each address
and market, each within the bounds the pot gives.
-/

namespace CrownFi.PredictionContract

open Lib

variable {e : Env} {w w' : World} {m : Nat}

namespace Account

variable {x y : Account} {u : Address}

/-- Those who staked on the winning option. -/
def winnerSet (x : Account) : Set Address := {u | 0 < x.winningStake u}

/-- The winner's proportion of the total pool, rounded down. -/
def floorShare (x : Account) (u : Address) : Int :=
  x.winningStake u * x.info.totalPool / x.winningPool

/-- Every other winner has been paid. -/
def Last (x : Account) (u : Address) : Prop :=
  ∀ v ∈ x.winnerSet, v ≠ u → x.book.claimed v = true

/-- Above the rounded-down share by less than the number of winners. -/
def InRange (x : Account) (u : Address) (gross : Int) : Prop :=
  x.floorShare u ≤ gross ∧ gross < x.floorShare u + x.winnerSet.ncard

namespace Booked

theorem coe_winners (h : Booked x) : (h.winners : Set Address) = x.winnerSet := by
  ext u
  exact h.mem_winners

theorem card_winners (h : Booked x) : h.winners.card = x.winnerSet.ncard := by
  rw [← h.coe_winners, Set.ncard_coe_finset]

theorem shareOf_pot (h : Booked x) (u : Address) : h.pot.shareOf u = x.floorShare u := by
  rw [Pot.shareOf, share, h.pot_weightOf]
  rfl

/-- The paid winners are all but `u` exactly when `u` comes last. -/
theorem settled_eq_erase_iff (h : Booked x) (hu : x.book.claimed u = false) :
    h.settled = h.pot.parts.erase u ↔ x.Last u := by
  constructor
  · intro heq v hv hne
    have hmem : v ∈ h.settled := by
      rw [heq]
      exact Finset.mem_erase.mpr ⟨hne, h.mem_winners.mpr hv⟩
    exact (Finset.mem_filter.mp hmem).2
  · intro hlast
    ext v
    rw [Finset.mem_erase, settled, Finset.mem_filter]
    constructor
    · rintro ⟨hv, hclaimed⟩
      refine ⟨?_, hv⟩
      rintro rfl
      simp [hu] at hclaimed
    · rintro ⟨hne, hv⟩
      exact ⟨hv, hlast v (h.mem_winners.mp hv) hne⟩

end Booked

namespace Balanced

/-- The summed-stake test of `claim` recognises the last winner. -/
theorem completes_iff (h : Balanced x) (hop : x.Allowed (.claim u)) :
    x.info.claimedWinningStake + x.winningStake u = x.winningPool ↔ x.Last u := by
  obtain ⟨hres, hu, hstake⟩ := hop
  rw [(h.paid hres).2.1, ← h.pot_weightOf, ← h.settled_eq_erase_iff hu]
  exact Pot.completes_iff h.settled_subset (h.mem_winners.mpr hstake) (h.not_mem_settled hu)

theorem gross_of_not_last (h : Balanced x) (hop : x.Allowed (.claim u)) (hlast : ¬ x.Last u) :
    x.gross u = x.floorShare u := by
  have hne := mt (h.completes_iff hop).mp hlast
  obtain ⟨hres, -, hstake⟩ := hop
  rw [h.gross_eq_due hres hstake, Pot.due, h.pot_weightOf, ← (h.paid hres).2.1, h.shareOf_pot,
    if_neg]
  exact hne

theorem gross_of_last (h : Balanced x) (hop : x.Allowed (.claim u)) (hlast : x.Last u) :
    x.gross u = x.info.totalPool - x.info.claimedGross := by
  rw [gross, grossOf, if_pos ((h.completes_iff hop).mpr hlast)]

theorem gross_inRange (h : Balanced x) (hop : x.Allowed (.claim u)) :
    x.InRange u (x.gross u) := by
  obtain ⟨hres, hu, hstake⟩ := hop
  have hbounds := Pot.due_bounds h.settled_subset (h.mem_winners.mpr hstake) (h.not_mem_settled hu)
  rw [← h.gross_eq_due hres hstake, h.shareOf_pot] at hbounds
  have hcard : h.pot.parts.card = x.winnerSet.ncard := h.card_winners
  rw [hcard] at hbounds
  exact hbounds

theorem claimedGross_le (h : Balanced x) (hres : x.info.status = .resolved) :
    x.info.claimedGross ≤ x.info.totalPool := by
  rw [(h.paid hres).2.2]
  exact Pot.paid_le h.settled_subset

/-- Once every winner has been paid the whole pool has been paid out. -/
theorem claimedGross_eq (h : Balanced x) (hres : x.info.status = .resolved)
    (hall : ∀ v ∈ x.winnerSet, x.book.claimed v = true) :
    x.info.claimedGross = x.info.totalPool := by
  have hset : h.settled = h.pot.parts :=
    Finset.filter_true_of_mem fun v hv => hall v (h.mem_winners.mp hv)
  rw [(h.paid hres).2.2, hset, Pot.paid, if_pos rfl]
  rfl

end Balanced

/-! ### Resolution freezes the shares -/

/-- `y` is a later state of the resolved account `x`. -/
structure Frozen (x y : Account) : Prop where
  status : y.info.status = .resolved
  totalPool : y.info.totalPool = x.info.totalPool
  winningOption : y.info.winningOption = x.info.winningOption
  feeBps : y.info.feeBps = x.info.feeBps
  pool : y.book.pool = x.book.pool
  position : y.book.position = x.book.position

theorem Frozen.inRange_iff (h : Frozen x y) {g : Int} : y.InRange u g ↔ x.InRange u g := by
  unfold InRange floorShare winnerSet winningPool winningStake
  rw [h.totalPool, h.winningOption, h.pool, h.position]

/-- The only operation a resolved account allows is a claim, which freezes it further. -/
theorem frozen_apply {op : Op} (hres : x.info.status = .resolved) (hop : x.Allowed op) :
    x.Frozen (x.apply op) := by
  cases op with
  | claim u => exact ⟨hres, rfl, rfl, rfl, rfl, rfl⟩
  | stake | unstake | propose | refund => simp [Allowed, hres] at hop
  | finalize | cancel => simp [Allowed, hres] at hop

end Account

/-- A resolved market stays resolved, with its shares frozen. -/
theorem Step.frozen {l : Env × Call} (h : Step w l w') (hw : Sound w) {x : Account}
    (hx : w.account m = some x) (hres : x.info.status = .resolved) :
    ∃ y, w'.account m = some y ∧ x.Frozen y := by
  have hrefl : x.Frozen x := ⟨hres, rfl, rfl, rfl, rfl, rfl⟩
  rcases step_cases hw.admin h with hq | ⟨mk, hc⟩ | ⟨m', x', op, hm⟩
  · refine ⟨x, ?_, hrefl⟩
    rw [← hx]
    exact (World.owed_congr (by rw [hq.market]) (by rw [hq.book])).1
  · refine ⟨x, ?_, hrefl⟩
    rw [← hx]
    have hle := hw.le_marketCount hx
    refine (World.owed_congr ?_ (by rw [hc.book])).1
    rw [hc.market]
    exact World.writeMarket_of_ne (by omega) mk
  · by_cases heq : m = m'
    · subst heq
      obtain rfl := Option.some.inj (hm.before.symm.trans hx)
      exact ⟨_, hm.after, Account.frozen_apply hres hm.allowed⟩
    · refine ⟨x, ?_, hrefl⟩
      rw [← hx]
      exact (World.owed_congr (hm.market m heq) (hm.book m heq)).1

theorem Account.Frozen.trans {x y z : Account} (h : x.Frozen y) (h' : y.Frozen z) : x.Frozen z :=
  ⟨h'.status, h'.totalPool.trans h.totalPool, h'.winningOption.trans h.winningOption,
    h'.feeBps.trans h.feeBps, h'.pool.trans h.pool, h'.position.trans h.position⟩

/-- The same over a whole run. -/
theorem run_frozen {trace : List (Env × Call)} (hrun : Run Step w trace w') (hw : Sound w)
    {x : Account} (hx : w.account m = some x) (hres : x.info.status = .resolved) :
    ∃ y, w'.account m = some y ∧ x.Frozen y := by
  have hinv := hrun.invariant
    (P := fun v => Sound v ∧ ∃ y, v.account m = some y ∧ x.Frozen y)
    (fun v l v' ⟨hv, y, hy, hxy⟩ hstep => by
      obtain ⟨z, hz, hyz⟩ := hstep.frozen hv hy hxy.status
      exact ⟨hstep.sound hv, z, hz, hxy.trans hyz⟩)
    ⟨hw, x, hx, hres, rfl, rfl, rfl, rfl, rfl⟩
  exact hinv.2

/-! ### A winner's claim goes through -/

theorem inI128_of_le {z T : Int} (h₀ : 0 ≤ z) (h₁ : z ≤ T) (hT : T ≤ i128Max) : InI128 z :=
  ⟨le_trans (by decide) h₀, h₁.trans hT⟩

/-- The arithmetic of a claim stays inside the machine type, step by step. -/
structure Account.ClaimFits (x : Account) (u : Address) : Prop where
  next : InI128 (x.info.claimedWinningStake + x.winningStake u)
  gross : claimGross x.info (x.winningStake u) x.winningPool
    (x.info.claimedWinningStake + x.winningStake u) = .ok (x.gross u)
  profit : InI128 (x.gross u - x.winningStake u)
  feeProduct : InI128 ((x.gross u - x.winningStake u) * x.info.feeBps)
  net : InI128 (x.gross u - x.fee u)
  claimedGross : InI128 (x.info.claimedGross + x.gross u)

/-- What a claim pays comes out of the pool. -/
theorem Account.Balanced.gross_le {x : Account} {u : Address} (h : x.Balanced)
    (hop : x.Allowed (.claim u)) :
    0 ≤ x.info.claimedGross ∧ x.info.claimedGross + x.gross u ≤ x.info.totalPool := by
  have hafter := h.apply hop
  obtain ⟨hres, -, -⟩ := hop
  refine ⟨?_, hafter.claimedGross_le hres⟩
  rw [(h.paid hres).2.2]
  exact Pot.paid_nonneg h.settled_subset

/-- Everything a claim computes lies between zero and the total pool, but for two products. -/
theorem Account.Balanced.claim_fits {x : Account} {u : Address} (h : x.Balanced)
    (hop : x.Allowed (.claim u))
    (hprod : x.info.claimedWinningStake + x.winningStake u ≠ x.winningPool →
      x.winningStake u * x.info.totalPool ≤ i128Max)
    (hfee : (x.gross u - x.winningStake u) * x.info.feeBps ≤ i128Max) : x.ClaimFits u := by
  obtain ⟨hge, -, hfee₀, hfee₁⟩ := h.claim_amounts hop
  obtain ⟨hpaid₀, hgross_le⟩ := h.gross_le hop
  have hafter := h.apply hop
  obtain ⟨hres, -, hpos⟩ := hop
  have hstake₀ : 0 ≤ x.info.claimedWinningStake := by
    rw [(h.paid hres).2.1]
    exact Finset.sum_nonneg fun v hv => (h.pot.weight_pos v (h.settled_subset hv)).le
  have hnext : x.info.claimedWinningStake + x.winningStake u ≤ x.winningPool := by
    have hle := Pot.weightOf_le hafter.settled_subset
    rw [hafter.pot_weightOf, ← (hafter.paid hres).2.1] at hle
    exact hle
  have hpool : x.winningPool ≤ x.info.totalPool := h.pool_le h.winner_lt
  have htotal := h.total_le
  have hfits : ∀ {z : Int}, 0 ≤ z → z ≤ x.info.totalPool → InI128 z := fun h₀ h₁ =>
    inI128_of_le h₀ h₁ htotal
  exact {
    next := hfits (by linarith) (by linarith)
    gross := by
      unfold claimGross Account.gross grossOf
      split
      · exact checkedSub_eq_ok.mpr ⟨hfits (by linarith) (by linarith), rfl⟩
      · rename_i hlast
        simp only [bind_eq_ok, checkedMul_eq_ok, pure_eq_ok]
        have hnonneg : 0 ≤ x.winningStake u * x.info.totalPool :=
          mul_nonneg hpos.le (by linarith)
        exact ⟨_, ⟨inI128_of_le hnonneg le_rfl (hprod hlast), rfl⟩, rfl⟩
    profit := hfits (by linarith) (by linarith)
    feeProduct :=
      inI128_of_le (mul_nonneg (by linarith) (Int.natCast_nonneg _)) le_rfl hfee
    net := hfits (by linarith) (by linarith)
    claimedGross := hfits (by linarith) hgross_le }

theorem payFee_succeeds {treasury : Address} {fee : Int} (htoken : w.token ≠ none)
    (hfee : fee ≤ w.balance w.self) : payFee w treasury fee = .ok (w.afterFee treasury fee) := by
  unfold payFee World.afterFee
  split
  · rename_i hpos
    exact World.transfer_eq_ok.mpr ⟨Option.ne_none_iff_exists'.mp htoken, hpos.le, hfee, rfl⟩
  · rfl

theorem World.claimed_eq {x : Account} (hx : w.account m = some x) (u : Address) :
    w.claimed m u = x.book.claimed u := by
  rw [← (World.account_eq_some.mp hx).2]
  rfl

/-- A winner who has not been paid can claim, as long as the products of `claim` fit. -/
theorem Sound.claim_succeeds (h : Sound w) {x : Account} {u : Address} (hx : w.account m = some x)
    (hop : x.Allowed (.claim u)) (hauth : e.auth u = true)
    (hprod : x.info.claimedWinningStake + x.winningStake u ≠ x.winningPool →
      x.winningStake u * x.info.totalPool ≤ i128Max)
    (hfee : (x.gross u - x.winningStake u) * x.info.feeBps ≤ i128Max) :
    ∃ w' net, claim e w u m = .ok (w', net) := by
  have hb := h.balanced m x hx
  have hfits := hb.claim_fits hop hprod hfee
  obtain ⟨hge, -, hfee₀, hfee₁⟩ := hb.claim_amounts hop
  have hcover := h.payout_le_balance hx hop
  simp only [Account.inflow, neg_neg] at hcover
  obtain ⟨hres, hclaimed, hpos⟩ := hop
  obtain ⟨hmk, hbook⟩ := World.account_eq_some.mp hx
  have hposition : w.position m u x.info.winningOption = x.winningStake u := by
    rw [Account.winningStake, ← hbook]
    rfl
  have hpool : w.pool m x.info.winningOption = x.winningPool := by
    rw [Account.winningPool, ← hbook]
    rfl
  have hwin : 0 < x.winningPool := hb.won (Or.inr hres)
  -- the token: the balance covers the fee, and after it the net
  let w₁ := w.recordClaim m x.info u (x.winningStake u) (x.gross u)
  let w₂ := w₁.afterFee x.info.treasury (x.fee u)
  have hsame : w₁.balance w.self = w.balance w.self := rfl
  have hleft := World.sub_le_afterFee (w := w₁) (t := x.info.treasury) (a := w.self) hfee₀
  obtain ⟨hself, -, htoken, -, -⟩ := World.afterFee_frame (w := w₁) x.info.treasury (x.fee u)
  have hpayFee : payFee w₁ x.info.treasury (x.fee u) = .ok w₂ :=
    payFee_succeeds (w := w₁) h.token (by change _ ≤ w.balance w.self; linarith)
  have htransfer : w₂.transfer w₂.self u (x.gross u - x.fee u) =
      .ok (w₂.moveBalance w₂.self u (x.gross u - x.fee u)) := by
    refine World.transfer_eq_ok.mpr ⟨?_, by linarith, ?_, rfl⟩
    · exact Option.ne_none_iff_exists'.mp (htoken ▸ h.token)
    · rw [hself]
      change _ ≤ w₂.balance w.self
      linarith
  -- every guard passes
  have hg₁ : requireAuth e u = .ok () := requireAuth_eq_ok.mpr hauth
  have hg₂ : w.readMarket m = .ok x.info := World.readMarket_eq_ok.mpr hmk
  have hg₃ : panicIf (x.info.status ≠ .resolved) .invalidStatus = .ok () :=
    panicIf_eq_ok.mpr (not_not.mpr hres)
  have hg₄ : panicIf (w.claimed m u = true) .alreadyClaimed = .ok () :=
    panicIf_eq_ok.mpr (by rw [World.claimed_eq hx, hclaimed]; simp)
  have hg₅ : panicIf (x.winningStake u ≤ 0) .nothingToClaim = .ok () :=
    panicIf_eq_ok.mpr (not_le.mpr hpos)
  have hg₆ : panicIf (x.winningPool ≤ 0) .noWinningStake = .ok () :=
    panicIf_eq_ok.mpr (not_le.mpr hwin)
  have hfeeDef : ((x.gross u - x.winningStake u) * x.info.feeBps).tdiv bpsDenominator = x.fee u :=
    rfl
  refine ⟨w₂.moveBalance w₂.self u (x.gross u - x.fee u)
    |>.publish (.claim m u (x.gross u) (x.fee u) (x.gross u - x.fee u)), x.gross u - x.fee u, ?_⟩
  simp only [claim, hg₁, hg₂, hg₃, hg₄, hposition, hpool, hg₅, hg₆, hfits.gross, ok_bind,
    checkedAdd_eq_ok.mpr ⟨hfits.next, rfl⟩, checkedSub_eq_ok.mpr ⟨hfits.profit, rfl⟩,
    checkedMul_eq_ok.mpr ⟨hfits.feeProduct, rfl⟩, hfeeDef,
    checkedSub_eq_ok.mpr ⟨hfits.net, rfl⟩, checkedAdd_eq_ok.mpr ⟨hfits.claimedGross, rfl⟩]
  change payFee w₁ x.info.treasury (x.fee u) >>= _ = _
  rw [hpayFee, ok_bind, htransfer]
  rfl

/-! ### The log of payments -/

/-- The event records a payment to `u` on the account of market `m`. -/
def Event.pays (m : Nat) (u : Address) : Event → Bool
  | .claim m' u' _ _ _ => m' == m && u' == u
  | .refund m' u' _ => m' == m && u' == u
  | _ => false

namespace Account

/-- Whom an operation pays once and for all. -/
def Op.payee : Op → Option Address
  | .claim u => some u
  | .refund u => some u
  | _ => none

variable {x : Account} {u : Address} {op : Op}

theorem pays_event {m' : Nat} :
    (x.event m op).pays m' u = true ↔ m = m' ∧ op.payee = some u := by
  cases op <;> simp [event, Event.pays, Op.payee]

theorem apply_claimed :
    (x.apply op).book.claimed u = true ↔ op.payee = some u ∨ x.book.claimed u = true := by
  cases op with
  | claim v | refund v =>
      simp only [apply, Op.payee, Option.some.injEq]
      by_cases hu : u = v
      · simp [hu]
      · simp [Book.mark_claimed_of_ne _ hu, Ne.symm hu]
  | stake | unstake | propose | finalize | cancel => simp [apply, Op.payee, Book.move]

theorem unclaimed_of_payee (hop : x.Allowed op) (hu : op.payee = some u) :
    x.book.claimed u = false := by
  cases op with
  | claim v =>
      obtain rfl := Option.some.inj hu
      exact hop.2.1
  | refund v =>
      obtain rfl := Option.some.inj hu
      exact hop.2.1
  | stake | unstake | propose | finalize | cancel => simp [Op.payee] at hu

end Account

/-- A move marks exactly the address it pays, which was not marked before. -/
theorem Moves.marks {x : Account} {op : Account.Op} (h : Moves w w' m x op) (m' : Nat)
    (u : Address) :
    (w'.claimed m' u = true ↔ (x.event m op).pays m' u = true ∨ w.claimed m' u = true) ∧
      ((x.event m op).pays m' u = true → w.claimed m' u = false) := by
  rw [Account.pays_event]
  by_cases hm : m = m'
  · subst hm
    rw [World.claimed_eq h.after, World.claimed_eq h.before, Account.apply_claimed]
    exact ⟨by simp, fun hp => Account.unclaimed_of_payee h.allowed hp.2⟩
  · have hsame : w'.claimed m' = w.claimed m' :=
      congrArg Book.claimed (h.book m' (Ne.symm hm))
    simp [hsame, hm]

/-- **The invariant of the event log**: no payment without its flag, none twice,
and every claim within its range. -/
structure Logged (w : World) : Prop where
  unpaid : ∀ m u, w.claimed m u = false → ∀ ev ∈ w.events, ev.pays m u = false
  once : ∀ m u, w.events.countP (Event.pays m u) ≤ 1
  claims : ∀ m u g f n, .claim m u g f n ∈ w.events →
    ∃ x, w.account m = some x ∧ x.info.status = .resolved ∧ x.InRange u g

theorem Step.claims_kept {l : Env × Call} (h : Step w l w') (hw : Sound w) {u : Address} {g : Int}
    (hx : ∃ x, w.account m = some x ∧ x.info.status = .resolved ∧ x.InRange u g) :
    ∃ y, w'.account m = some y ∧ y.info.status = .resolved ∧ y.InRange u g := by
  obtain ⟨x, hx, hres, hg⟩ := hx
  obtain ⟨y, hy, hfrozen⟩ := h.frozen hw hx hres
  exact ⟨y, hy, hfrozen.status, hfrozen.inRange_iff.mpr hg⟩

theorem Step.logged {l : Env × Call} (h : Step w l w') (hw : Sound w) (hlog : Logged w) :
    Logged w' := by
  have hkept := fun m u g hx => h.claims_kept (m := m) (u := u) (g := g) hw hx
  rcases step_cases hw.admin h with hq | ⟨mk, hc⟩ | ⟨m₀, x, op, hm⟩
  · have hclaimed : w'.claimed = w.claimed := by
      funext m
      exact congrArg Book.claimed (congrFun hq.book m)
    exact {
      unpaid := by rw [hclaimed, hq.events]; exact hlog.unpaid
      once := by rw [hq.events]; exact hlog.once
      claims := fun m u g f n hev =>
        hkept m u g (hlog.claims m u g f n (by rwa [hq.events] at hev)) }
  · have hclaimed : w'.claimed = w.claimed := by
      funext m
      exact congrArg Book.claimed (congrFun hc.book m)
    exact {
      unpaid := fun m u hu ev hev => by
        rw [hc.events] at hev
        rcases List.mem_cons.mp hev with rfl | hev
        · rfl
        · exact hlog.unpaid m u (by rwa [hclaimed] at hu) ev hev
      once := fun m u => by
        rw [hc.events, List.countP_cons_of_neg (by simp [Event.pays])]
        exact hlog.once m u
      claims := fun m u g f n hev => by
        rw [hc.events] at hev
        rcases List.mem_cons.mp hev with heq | hev
        · cases heq
        · exact hkept m u g (hlog.claims m u g f n hev) }
  · exact {
      unpaid := fun m u hu ev hev => by
        obtain ⟨hflag, -⟩ := hm.marks m u
        rw [hu] at hflag
        rw [hm.events] at hev
        rcases List.mem_cons.mp hev with rfl | hev
        · by_contra hp
          simpa using hflag.mpr (Or.inl (by simpa using hp))
        · refine hlog.unpaid m u ?_ ev hev
          by_contra hc
          simpa using hflag.mpr (Or.inr (by simpa using hc))
      once := fun m u => by
        rw [hm.events]
        by_cases hp : (x.event m₀ op).pays m u = true
        · -- the flag was not set, so the log held no payment
          have hnone := hlog.unpaid m u ((hm.marks m u).2 hp)
          have hzero : w.events.countP (Event.pays m u) = 0 :=
            List.countP_eq_zero.mpr fun ev hev => by simp [hnone ev hev]
          rw [List.countP_cons_of_pos hp, hzero]
        · rw [List.countP_cons_of_neg hp]
          exact hlog.once m u
      claims := fun m u g f n hev => by
        rw [hm.events] at hev
        rcases List.mem_cons.mp hev with heq | hev
        · cases op with
          | claim v =>
              simp only [Account.event, Event.claim.injEq] at heq
              obtain ⟨rfl, rfl, rfl, -, -⟩ := heq
              exact hkept _ _ _ ⟨x, hm.before, hm.allowed.1,
                (hw.balanced _ x hm.before).gross_inRange hm.allowed⟩
          | stake | unstake | propose | finalize | cancel | refund => cases heq
        · exact hkept m u g (hlog.claims m u g f n hev) }

theorem Reachable.logged (h : Reachable w) : Logged w := by
  obtain ⟨w₀, admin, token, w₁, trace, hfresh, hinit, hrun⟩ := h
  have hstart : Logged w₁ := by
    simp only [initializeContract, bind_eq_ok, panicIf_eq_ok, pure_eq_ok] at hinit
    obtain ⟨_, -, rfl⟩ := hinit
    have hevents : w₀.events = [] := hfresh.events
    exact {
      unpaid := fun m u _ ev hev => by
        simp only [World.publish, hevents, List.mem_singleton] at hev
        subst hev
        rfl
      once := fun m u => by simp [World.publish, hevents, Event.pays]
      claims := fun m u g f n hev => by simp [World.publish, hevents] at hev }
  exact (hrun.invariant (P := fun v => Sound v ∧ Logged v)
    (fun _ _ _ hs ht => ⟨ht.sound hs.1, ht.logged hs.1 hs.2⟩) ⟨hfresh.sound hinit, hstart⟩).2

/-! ### All of it -/

/-- **The payouts of a resolved market**, in every reachable world.

A claim that goes through pays the rounded-down share, unless every other winner
has been paid: then it pays the remainder, which is less than the number of
winners above the share. The summed-stake test recognises that case exactly. No
claim pays less than the stake, before or after the fee, the pool is never
overdrawn and empty in the end, nobody is paid twice, every winner can claim
when the products fit, and the order of the claims moves an amount by less than
the number of winners. -/
theorem claim_payouts {x : Account} (hw : Reachable w) (hx : w.account m = some x)
    (hres : x.info.status = .resolved) :
    (∀ e u w' net, claim e w u m = .ok (w', net) →
      w'.events = .claim m u (x.gross u) (x.fee u) net :: w.events ∧
      (x.info.claimedWinningStake + x.winningStake u = x.winningPool ↔ x.Last u) ∧
      (¬ x.Last u → x.gross u = x.floorShare u) ∧
      (x.Last u → x.gross u = x.info.totalPool - x.info.claimedGross ∧
        x.floorShare u ≤ x.gross u ∧ x.gross u < x.floorShare u + x.winnerSet.ncard) ∧
      x.winningStake u ≤ x.gross u ∧
      x.fee u = (x.gross u - x.winningStake u) * x.info.feeBps / 10000 ∧
      net = x.gross u - x.fee u ∧ x.winningStake u ≤ net) ∧
    (x.winnerSet.Finite ∧ x.info.claimedGross ≤ x.info.totalPool ∧
      ((∀ u ∈ x.winnerSet, x.book.claimed u = true) →
        x.info.claimedGross = x.info.totalPool)) ∧
    (∀ u, w.events.countP (Event.pays m u) ≤ 1) ∧
    (∀ e u, u ∈ x.winnerSet → x.book.claimed u = false → e.auth u = true →
      x.winningStake u * x.info.totalPool ≤ i128Max →
      x.info.totalPool * x.info.feeBps ≤ i128Max → ∃ w' net, claim e w u m = .ok (w', net)) ∧
    (∀ trace w', Run Step w trace w' → ∃ y, w'.account m = some y ∧ x.Frozen y) ∧
    (∀ t₁ w₁ t₂ w₂, Run Step w t₁ w₁ → Run Step w t₂ w₂ → ∀ u g₁ f₁ n₁ g₂ f₂ n₂,
      .claim m u g₁ f₁ n₁ ∈ w₁.events → .claim m u g₂ f₂ n₂ ∈ w₂.events →
      |g₁ - g₂| < (x.winnerSet.ncard : Int)) := by
  have hs := hw.sound
  have hb := hs.balanced m x hx
  refine ⟨fun e u w' net hclaim => ?_, ⟨?_, hb.claimedGross_le hres, hb.claimedGross_eq hres⟩,
    hw.logged.once m, fun e u hu hfree hauth hprod hfee => ?_,
    fun trace w' hrun => run_frozen hrun hs hx hres, ?_⟩
  · obtain ⟨x', hmoves, hnet⟩ := claim_moves hclaim
    obtain rfl := Option.some.inj (hmoves.before.symm.trans hx)
    obtain ⟨hge, hfloor, -, hle⟩ := hb.claim_amounts hmoves.allowed
    refine ⟨by rw [hmoves.events, Account.event, hnet], hb.completes_iff hmoves.allowed,
      hb.gross_of_not_last hmoves.allowed, fun hlast =>
        ⟨hb.gross_of_last hmoves.allowed hlast, hb.gross_inRange hmoves.allowed⟩,
      hge, hfloor, hnet, ?_⟩
    rw [hnet]
    linarith
  · rw [← hb.coe_winners]
    exact hb.winners.finite_toSet
  · have hop : x.Allowed (.claim u) := ⟨hres, hfree, hu⟩
    obtain ⟨hpaid₀, hgross_le⟩ := hb.gross_le hop
    refine hs.claim_succeeds hx hop hauth (fun _ => hprod) (le_trans ?_ hfee)
    have hstake : 0 < x.winningStake u := hu
    exact mul_le_mul_of_nonneg_right (by linarith) (Int.natCast_nonneg _)
  · intro t₁ w₁ t₂ w₂ hrun₁ hrun₂ u g₁ f₁ n₁ g₂ f₂ n₂ hev₁ hev₂
    -- both runs keep the shares of `x`, and both logs keep the payment within its range
    have hrange : ∀ {t : List (Env × Call)} {v : World} {g f n : Int}, Run Step w t v →
        .claim m u g f n ∈ v.events → x.InRange u g := by
      intro t v g f n hrun hev
      obtain ⟨y, hy, hfrozen⟩ := run_frozen hrun hs hx hres
      obtain ⟨y', hy', -, hg⟩ := (hw.run hrun).logged.claims m u g f n hev
      obtain rfl := Option.some.inj (hy.symm.trans hy')
      exact hfrozen.inRange_iff.mp hg
    obtain ⟨hlo₁, hhi₁⟩ := hrange hrun₁ hev₁
    obtain ⟨hlo₂, hhi₂⟩ := hrange hrun₂ hev₂
    rw [abs_lt]
    constructor <;> linarith

/-- The first winner of the sample world can claim, and is paid more than the stake. -/
theorem sampleWorld_claim :
    ∃ w' net, claim (signedAt 120) sampleWorld 1 1 = .ok (w', net) ∧ 100 ≤ net := by
  obtain ⟨x, hx⟩ : ∃ x, sampleWorld.account 1 = some x := ⟨_, rfl⟩
  obtain rfl := Option.some.inj hx
  obtain ⟨hclaims, -, -, hprogress, -⟩ := claim_payouts (m := 1) sampleWorld_reachable rfl rfl
  obtain ⟨w', net, h⟩ := hprogress (signedAt 120) 1 (by change (0 : Int) < 100; decide) rfl rfl
    (by decide) (by decide)
  exact ⟨w', net, h, (hclaims _ _ _ _ h).2.2.2.2.2.2.2⟩

end CrownFi.PredictionContract
