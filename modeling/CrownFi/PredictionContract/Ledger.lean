import CrownFi.Lib.FinSum
import CrownFi.Lib.ProRata
import CrownFi.PredictionContract.Contract
import Mathlib.Algebra.BigOperators.Intervals
import Mathlib.Data.Int.Order.Basic

/-!
# CrownFi.PredictionContract.Ledger

**One market as an account**, apart from storage keys, authorisation and the
token: what the market's record and its books are, which operations move them,
and what always holds between them.

`Account.Balanced` is the accounting invariant. It ties the three stored
aggregates (the pools, `total_pool` and the `claimed_*` counters) to the
individual positions and claim flags. A balanced account *is* a pro-rata pot
(`Balanced.pot`), so what a winner is due is read off the pot.
-/

namespace CrownFi.PredictionContract

open Lib

/-- The stored values under one market id, without the record. -/
structure Book where
  pool : Nat → Int
  position : Address → Nat → Int
  claimed : Address → Bool

namespace Book

def empty : Book := ⟨fun _ => 0, fun _ _ => 0, fun _ => false⟩

/-- Move `d` into a position and its pool. -/
def move (b : Book) (u : Address) (o : Nat) (d : Int) : Book :=
  { b with
    pool := fun o' => if o' = o then b.pool o + d else b.pool o'
    position := fun u' o' => if u' = u ∧ o' = o then b.position u o + d else b.position u' o' }

def mark (b : Book) (u : Address) : Book :=
  { b with claimed := fun u' => if u' = u then true else b.claimed u' }

/-- All stakes of one user. -/
def stakes (b : Book) (u : Address) (n : Nat) : Int := ∑ o ∈ Finset.range n, b.position u o

@[simp] theorem mark_claimed_self (b : Book) (u : Address) : (b.mark u).claimed u = true := by
  simp [mark]

theorem mark_claimed_of_ne (b : Book) {u v : Address} (h : v ≠ u) :
    (b.mark u).claimed v = b.claimed v := by
  simp [mark, h]

@[simp] theorem mark_stakes (b : Book) (u v : Address) (n : Nat) :
    (b.mark u).stakes v n = b.stakes v n := rfl

end Book

/-- A market: its record and its books. -/
structure Account where
  info : MarketInfo
  book : Book

/-- The amount `claim` pays out of the pool before the fee. -/
def grossOf (mk : MarketInfo) (stake winningPool : Int) : Int :=
  if mk.claimedWinningStake + stake = winningPool then mk.totalPool - mk.claimedGross
  else (stake * mk.totalPool).tdiv winningPool

/-- The fee `claim` charges on the profit. -/
def feeOf (mk : MarketInfo) (gross stake : Int) : Int :=
  ((gross - stake) * mk.feeBps).tdiv bpsDenominator

namespace Account

variable {x y : Account}

/-- The stake of `u` on the winning option. -/
def winningStake (x : Account) (u : Address) : Int := x.book.position u x.info.winningOption

def winningPool (x : Account) : Int := x.book.pool x.info.winningOption

/-- What a claim of `u` pays before the fee. -/
def gross (x : Account) (u : Address) : Int := grossOf x.info (x.winningStake u) x.winningPool

/-- The fee of that claim. -/
def fee (x : Account) (u : Address) : Int := feeOf x.info (x.gross u) (x.winningStake u)

inductive Op
  | stake (u : Address) (o : Nat) (a : Int)
  | unstake (u : Address) (o : Nat)
  | propose (o : Nat) (hash : Hash) (t : Nat)
  | finalize
  | cancel
  | claim (u : Address)
  | refund (u : Address)

/-- What an operation leaves of the account. -/
def apply (x : Account) : Op → Account
  | .stake u o a => ⟨{ x.info with totalPool := x.info.totalPool + a }, x.book.move u o a⟩
  | .unstake u o =>
      ⟨{ x.info with totalPool := x.info.totalPool - x.book.position u o },
        x.book.move u o (-x.book.position u o)⟩
  | .propose o hash t =>
      { x with info := { x.info with
          status := .resolutionPending, winningOption := o, resultHash := hash, proposedAt := t } }
  | .finalize => { x with info := { x.info with status := .resolved } }
  | .cancel => { x with info := { x.info with status := .cancelled } }
  | .claim u =>
      ⟨{ x.info with
          claimedWinningStake := x.info.claimedWinningStake + x.winningStake u
          claimedGross := x.info.claimedGross + x.gross u },
        x.book.mark u⟩
  | .refund u => { x with book := x.book.mark u }

/-- When an operation is allowed. -/
def Allowed (x : Account) : Op → Prop
  | .stake _ o a =>
      x.info.status = .open ∧ o < x.info.numOptions ∧ 0 < a ∧ x.info.totalPool + a ≤ i128Max
  | .unstake u o => x.info.status = .open ∧ o < x.info.numOptions ∧ 0 < x.book.position u o
  | .propose o _ _ => x.info.status = .open ∧ o < x.info.numOptions ∧ 0 < x.book.pool o
  | .finalize => x.info.status = .resolutionPending
  | .cancel => x.info.status = .open ∨ x.info.status = .resolutionPending
  | .claim u => x.info.status = .resolved ∧ x.book.claimed u = false ∧ 0 < x.winningStake u
  | .refund u =>
      x.info.status = .cancelled ∧ x.book.claimed u = false ∧
        0 < x.book.stakes u x.info.numOptions

/-- What an operation brings into the contract's token balance (a payout is negative). -/
def inflow (x : Account) : Op → Int
  | .stake _ _ a => a
  | .unstake u o => -x.book.position u o
  | .claim u => -x.gross u
  | .refund u => -x.book.stakes u x.info.numOptions
  | _ => 0

/-! ### The accounting invariant -/

/-- The stored aggregates agree with the positions they stand for. -/
structure Booked (x : Account) : Prop where
  finite : ∀ o, (fun u => x.book.position u o).HasFiniteSupport
  nonneg : ∀ u o, 0 ≤ x.book.position u o
  outside : ∀ u o, x.info.numOptions ≤ o → x.book.position u o = 0
  pool_eq : ∀ o, x.book.pool o = ∑ᶠ u, x.book.position u o
  total_eq : x.info.totalPool = ∑ o ∈ Finset.range x.info.numOptions, x.book.pool o
  total_le : x.info.totalPool ≤ i128Max
  winner_lt : x.info.winningOption < x.info.numOptions
  fee_le : x.info.feeBps ≤ maxFeeBps

namespace Booked

theorem pool_nonneg (h : Booked x) (o : Nat) : 0 ≤ x.book.pool o := by
  rw [h.pool_eq]
  exact finsum_nonneg fun u => h.nonneg u o

theorem pool_le (h : Booked x) {o : Nat} (ho : o < x.info.numOptions) :
    x.book.pool o ≤ x.info.totalPool := by
  rw [h.total_eq]
  exact Finset.single_le_sum (fun o _ => h.pool_nonneg o) (Finset.mem_range.mpr ho)

theorem position_le (h : Booked x) (u : Address) (o : Nat) :
    x.book.position u o ≤ x.book.pool o := by
  rw [h.pool_eq]
  exact single_le_finsum u (h.finite o) fun u => h.nonneg u o

theorem finite_support (h : Booked x) : (Function.support x.winningStake).Finite :=
  h.finite x.info.winningOption

/-- Those who hold a stake on the winning option. -/
noncomputable def winners (h : Booked x) : Finset Address := h.finite_support.toFinset

theorem mem_winners (h : Booked x) {u : Address} : u ∈ h.winners ↔ 0 < x.winningStake u := by
  rw [winners, Set.Finite.mem_toFinset, Function.mem_support, Account.winningStake]
  have := h.nonneg u x.info.winningOption
  omega

theorem sum_winners (h : Booked x) : ∑ u ∈ h.winners, x.winningStake u = x.winningPool := by
  rw [Account.winningPool, h.pool_eq, finsum_eq_sum _ (h.finite _)]
  rfl

/-- A booked account is a pot: the total pool, to be divided by the winning stakes. -/
noncomputable def pot (h : Booked x) : Pot Address where
  parts := h.winners
  weight := x.winningStake
  total := x.info.totalPool
  weight_pos _ hu := h.mem_winners.mp hu
  weight_le_total := by
    rw [h.sum_winners]
    exact h.pool_le h.winner_lt

theorem pot_weightOf (h : Booked x) : h.pot.weightOf h.pot.parts = x.winningPool := h.sum_winners

/-- The winners who have been paid. -/
noncomputable def settled (h : Booked x) : Finset Address :=
  h.winners.filter fun u => x.book.claimed u = true

theorem settled_subset (h : Booked x) : h.settled ⊆ h.pot.parts := Finset.filter_subset ..

theorem not_mem_settled (h : Booked x) {u : Address} (hu : x.book.claimed u = false) :
    u ∉ h.settled := by
  simp [settled, hu]

/-- Moving a stake keeps the aggregates in step with the positions. -/
theorem move (h : Booked x) {u : Address} {o : Nat} {d : Int} (ho : o < x.info.numOptions)
    (hd : 0 ≤ x.book.position u o + d) (hle : x.info.totalPool + d ≤ i128Max) :
    Booked ⟨{ x.info with totalPool := x.info.totalPool + d }, x.book.move u o d⟩ where
  finite o' := by
    refine hasFiniteSupport_of_eq_off (h.finite o') (a := u) fun u' hu' => ?_
    simp [Book.move, hu']
  nonneg u' o' := by
    simp only [Book.move]
    split
    · exact hd
    · exact h.nonneg u' o'
  outside u' o' ho' := by
    have hne : o' ≠ o := by rintro rfl; exact absurd ho (not_lt.mpr ho')
    simpa [Book.move, hne] using h.outside u' o' ho'
  pool_eq o' := by
    by_cases ho' : o' = o
    · subst ho'
      rw [finsum_eq_off (h.finite o') (a := u) (fun u' hu' => by simp [Book.move, hu']),
        ← h.pool_eq o']
      simp only [Book.move, and_self, if_true]
      ring
    · simp [Book.move, ho', h.pool_eq o']
  total_eq := by
    have hmem : o ∈ Finset.range x.info.numOptions := Finset.mem_range.mpr ho
    have hoff : ∑ o' ∈ (Finset.range x.info.numOptions).erase o, (x.book.move u o d).pool o' =
        ∑ o' ∈ (Finset.range x.info.numOptions).erase o, x.book.pool o' :=
      Finset.sum_congr rfl fun o' ho' => by simp [Book.move, Finset.ne_of_mem_erase ho']
    rw [← Finset.add_sum_erase _ _ hmem, hoff, h.total_eq, ← Finset.add_sum_erase _ _ hmem]
    simp only [Book.move, if_true]
    ring
  total_le := hle
  winner_lt := h.winner_lt
  fee_le := h.fee_le

/-- The bookings do not depend on the status, the proposal, the counters and the flags. -/
theorem congr (h : Booked x) (hpool : y.book.pool = x.book.pool)
    (hpos : y.book.position = x.book.position) (hn : y.info.numOptions = x.info.numOptions)
    (ht : y.info.totalPool = x.info.totalPool) (hf : y.info.feeBps = x.info.feeBps)
    (hwin : y.info.winningOption < x.info.numOptions) : Booked y where
  finite := by rw [hpos]; exact h.finite
  nonneg := by rw [hpos]; exact h.nonneg
  outside := by rw [hpos, hn]; exact h.outside
  pool_eq := by rw [hpos, hpool]; exact h.pool_eq
  total_eq := by rw [hpool, hn, ht]; exact h.total_eq
  total_le := by rw [ht]; exact h.total_le
  winner_lt := by rw [hn]; exact hwin
  fee_le := by rw [hf]; exact h.fee_le

end Booked

/-- **The accounting invariant of a market.** -/
structure Balanced (x : Account) : Prop extends Booked x where
  fresh : x.info.status = .open ∨ x.info.status = .resolutionPending →
    ∀ u, x.book.claimed u = false
  unpaid : x.info.status ≠ .resolved →
    x.info.claimedGross = 0 ∧ x.info.claimedWinningStake = 0
  won : x.info.status = .resolutionPending ∨ x.info.status = .resolved → 0 < x.winningPool
  paid : x.info.status = .resolved →
    (∀ u, x.book.claimed u = true → u ∈ toBooked.winners) ∧
    x.info.claimedWinningStake = toBooked.pot.weightOf toBooked.settled ∧
    x.info.claimedGross = toBooked.pot.paid toBooked.settled

namespace Balanced

/-- A claim pays exactly what the pot owes the claimant next. -/
theorem gross_eq_due (h : Balanced x) (hres : x.info.status = .resolved) {u : Address}
    (hu : 0 < x.winningStake u) : x.gross u = h.pot.due h.settled u := by
  obtain ⟨-, hstake, hgross⟩ := h.paid hres
  have hT : 0 ≤ x.info.totalPool := (h.pool_nonneg _).trans (h.pool_le h.winner_lt)
  unfold Account.gross grossOf Pot.due
  rw [hstake, hgross, h.pot_weightOf]
  congr 1
  rw [Int.tdiv_eq_ediv_of_nonneg (mul_nonneg hu.le hT)]
  show _ = share _ _ _
  rw [h.pot_weightOf]
  rfl

/-- The claimant's stake is covered, and the fee is a rounded-down part of the profit. -/
theorem claim_amounts (h : Balanced x) {u : Address} (hop : x.Allowed (.claim u)) :
    x.winningStake u ≤ x.gross u ∧
      x.fee u = (x.gross u - x.winningStake u) * x.info.feeBps / bpsDenominator ∧
      0 ≤ x.fee u ∧ x.fee u ≤ x.gross u - x.winningStake u := by
  obtain ⟨hres, hu, hstake⟩ := hop
  have hge : x.winningStake u ≤ x.gross u := by
    rw [h.gross_eq_due hres hstake]
    exact Pot.weight_le_due h.settled_subset (h.mem_winners.mpr hstake) (h.not_mem_settled hu)
  have hprofit : 0 ≤ x.gross u - x.winningStake u := sub_nonneg.mpr hge
  have hbps : (x.info.feeBps : Int) ≤ bpsDenominator := by
    have := h.fee_le
    simp only [maxFeeBps, bpsDenominator] at this ⊢
    omega
  have hprod : 0 ≤ (x.gross u - x.winningStake u) * x.info.feeBps :=
    mul_nonneg hprofit (Int.natCast_nonneg _)
  have hfloor : x.fee u = (x.gross u - x.winningStake u) * x.info.feeBps / bpsDenominator :=
    Int.tdiv_eq_ediv_of_nonneg hprod
  refine ⟨hge, hfloor, ?_, ?_⟩
  · rw [hfloor]
    exact Int.ediv_nonneg hprod (by decide)
  · rw [hfloor]
    refine Int.ediv_le_of_le_mul (by decide) ?_
    exact mul_le_mul_of_nonneg_left hbps hprofit

theorem mark_settled (h : Balanced x) {u : Address} (hu : 0 < x.winningStake u)
    (h' : Booked (x.apply (.claim u))) : h'.settled = insert u h.settled := by
  ext v
  have hw : v ∈ h'.winners ↔ v ∈ h.winners := by
    rw [h'.mem_winners, h.mem_winners]
    rfl
  simp only [Booked.settled, Finset.mem_filter, Finset.mem_insert, hw]
  by_cases hv : v = u
  · subst hv
    simp [Account.apply, Book.mark, h.mem_winners, hu]
  · simp [Account.apply, Book.mark, hv]

/-- **Every operation keeps the account balanced.** -/
theorem apply (h : Balanced x) {op : Op} (hop : x.Allowed op) : Balanced (x.apply op) := by
  cases op with
  | stake u o a =>
      obtain ⟨hopen, ho, ha, hle⟩ := hop
      have hb : Booked (x.apply (.stake u o a)) :=
        h.toBooked.move ho (by have := h.nonneg u o; omega) hle
      exact { hb with
        fresh := fun _ => h.fresh (Or.inl hopen)
        unpaid := fun _ => h.unpaid (by simp [hopen])
        won := fun hs => by simp [Account.apply, hopen] at hs
        paid := fun hs => by simp [Account.apply, hopen] at hs }
  | unstake u o =>
      obtain ⟨hopen, ho, hpos⟩ := hop
      have hb : Booked (x.apply (.unstake u o)) :=
        h.toBooked.move ho (by omega) (by have := h.total_le; omega)
      exact { hb with
        fresh := fun _ => h.fresh (Or.inl hopen)
        unpaid := fun _ => h.unpaid (by simp [hopen])
        won := fun hs => by simp [Account.apply, hopen] at hs
        paid := fun hs => by simp [Account.apply, hopen] at hs }
  | propose o hash t =>
      obtain ⟨hopen, ho, hpool⟩ := hop
      have hb : Booked (x.apply (.propose o hash t)) := h.toBooked.congr rfl rfl rfl rfl rfl ho
      exact { hb with
        fresh := fun _ => h.fresh (Or.inl hopen)
        unpaid := fun _ => h.unpaid (by simp [hopen])
        won := fun _ => hpool
        paid := fun hs => by simp [Account.apply] at hs }
  | finalize =>
      have hpending : x.info.status = .resolutionPending := hop
      have hb : Booked (x.apply .finalize) := h.toBooked.congr rfl rfl rfl rfl rfl h.winner_lt
      have hfresh := h.fresh (Or.inr hpending)
      obtain ⟨hgross, hstake⟩ := h.unpaid (by simp [hpending])
      -- nobody has claimed yet, so the pot is untouched
      have hnone : hb.settled = ∅ := by
        simp [Booked.settled, Account.apply, hfresh]
      have hwon : hb.pot.parts ≠ ∅ := by
        intro hempty
        have hsum := hb.pot_weightOf
        rw [hempty] at hsum
        have hpos : 0 < (x.apply .finalize).winningPool := h.won (Or.inl hpending)
        exact absurd hsum.symm (by simpa [Pot.weightOf] using hpos.ne')
      exact { hb with
        fresh := fun hs => by simp [Account.apply] at hs
        unpaid := fun hs => by simp [Account.apply] at hs
        won := fun _ => h.won (Or.inl hpending)
        paid := fun _ => by
          refine ⟨fun u hu => ?_, ?_, ?_⟩
          · simp [Account.apply, hfresh] at hu
          · rw [hnone]
            simpa [Pot.weightOf, Account.apply] using hstake
          · rw [hnone, Pot.paid, if_neg hwon.symm]
            simpa [Account.apply] using hgross }
  | cancel =>
      have hb : Booked (x.apply .cancel) := h.toBooked.congr rfl rfl rfl rfl rfl h.winner_lt
      have hne : x.info.status ≠ .resolved := by
        rcases hop with hs | hs <;> simp [hs]
      exact { hb with
        fresh := fun hs => by simp [Account.apply] at hs
        unpaid := fun _ => h.unpaid hne
        won := fun hs => by simp [Account.apply] at hs
        paid := fun hs => by simp [Account.apply] at hs }
  | claim u =>
      obtain ⟨hres, hu, hstake⟩ := hop
      have hb : Booked (x.apply (.claim u)) := h.toBooked.congr rfl rfl rfl rfl rfl h.winner_lt
      have hin : u ∈ h.pot.parts := h.mem_winners.mpr hstake
      have hout := h.not_mem_settled hu
      have hset := h.mark_settled hstake hb
      obtain ⟨hmem, hsum, hpaid⟩ := h.paid hres
      exact { hb with
        fresh := fun hs => by simp [Account.apply, hres] at hs
        unpaid := fun hs => absurd hres hs
        won := fun _ => h.won (Or.inr hres)
        paid := fun _ => by
          refine ⟨fun v hv => ?_, ?_, ?_⟩
          · by_cases hvu : v = u
            · subst hvu
              exact hb.mem_winners.mpr hstake
            · exact hmem v (by simpa [Account.apply, Book.mark, hvu] using hv)
          · rw [hset]
            exact (congrArg (· + x.winningStake u) hsum).trans (Pot.weightOf_insert hout).symm
          · rw [hset]
            refine Eq.trans ?_ (Pot.paid_insert h.settled_subset hin hout).symm
            rw [← h.gross_eq_due hres hstake, ← hpaid]
            rfl }
  | refund u =>
      obtain ⟨hcan, -, -⟩ := hop
      have hb : Booked (x.apply (.refund u)) := h.toBooked.congr rfl rfl rfl rfl rfl h.winner_lt
      exact { hb with
        fresh := fun hs => by simp [Account.apply, hcan] at hs
        unpaid := fun _ => h.unpaid (by simp [hcan])
        won := fun hs => by simp [Account.apply, hcan] at hs
        paid := fun hs => by simp [Account.apply, hcan] at hs }

end Balanced

/-! ### What a market owes -/

/-- The part of the contract's token balance that a market still owes its users. -/
noncomputable def owed (x : Account) : Int :=
  match x.info.status with
  | .open | .resolutionPending => x.info.totalPool
  | .resolved => x.info.totalPool - x.info.claimedGross
  | .cancelled =>
      ∑ᶠ u, if x.book.claimed u = true then 0 else x.book.stakes u x.info.numOptions

theorem Booked.finite_stakes (h : Booked x) (n : Nat) :
    (fun u => x.book.stakes u n).HasFiniteSupport := by
  refine ((Finset.range n).finite_toSet.biUnion fun o _ => h.finite o).subset fun u hu => ?_
  by_contra hout
  simp only [Set.mem_iUnion, Function.mem_support, not_exists, not_not] at hout
  exact hu (Finset.sum_eq_zero fun o ho => hout o ho)

/-- The refunds still open are a sum of finitely many terms. -/
theorem Booked.finite_open_stakes (h : Booked x) :
    (fun u => if x.book.claimed u = true then 0
      else x.book.stakes u x.info.numOptions).HasFiniteSupport :=
  hasFiniteSupport_of_imp (h.finite_stakes x.info.numOptions) fun u hu => by simp [hu]

theorem Booked.stakes_nonneg (h : Booked x) (u : Address) (n : Nat) : 0 ≤ x.book.stakes u n :=
  Finset.sum_nonneg fun o _ => h.nonneg u o

/-- Added up over the users, the stakes are the total pool. -/
theorem Booked.finsum_stakes (h : Booked x) :
    ∑ᶠ u, x.book.stakes u x.info.numOptions = x.info.totalPool := by
  rw [h.total_eq]
  unfold Book.stakes
  rw [finsum_sum_comm _ _ fun o _ => h.finite o]
  exact Finset.sum_congr rfl fun o _ => (h.pool_eq o).symm

theorem Balanced.owed_nonneg (h : Balanced x) : 0 ≤ x.owed := by
  have hT : 0 ≤ x.info.totalPool := (h.pool_nonneg _).trans (h.pool_le h.winner_lt)
  unfold owed
  cases hs : x.info.status with
  | «open» => exact hT
  | resolutionPending => exact hT
  | resolved =>
      have := Pot.paid_le h.settled_subset
      rw [← (h.paid hs).2.2] at this
      exact sub_nonneg.mpr this
  | cancelled =>
      refine finsum_nonneg fun u => ?_
      split
      · exact le_rfl
      · exact h.stakes_nonneg u _

/-- **What a market owes moves exactly with the money**, whatever the operation. -/
theorem Balanced.owed_apply (h : Balanced x) {op : Op} (hop : x.Allowed op) :
    (x.apply op).owed = x.owed + x.inflow op := by
  cases op with
  | stake u o a => simp [owed, Account.apply, inflow, hop.1]
  | unstake u o =>
      simp only [owed, Account.apply, inflow, hop.1]
      ring
  | propose o hash t => simp [owed, Account.apply, inflow, hop.1]
  | finalize =>
      have hpending : x.info.status = .resolutionPending := hop
      simp [owed, Account.apply, inflow, hpending, (h.unpaid (by simp [hpending])).1]
  | cancel =>
      have hopen : x.owed = x.info.totalPool := by
        rcases hop with hs | hs <;> simp [owed, hs]
      rw [hopen, ← h.finsum_stakes]
      simp [owed, Account.apply, inflow, h.fresh hop]
  | claim u =>
      simp only [owed, Account.apply, inflow, hop.1]
      ring
  | refund u =>
      obtain ⟨hcan, hu, -⟩ := hop
      simp only [owed, Account.apply, inflow, hcan]
      rw [finsum_eq_off h.finite_open_stakes (a := u) fun v hv => by
        simp [Book.mark_claimed_of_ne _ hv]]
      simp [hu, sub_eq_add_neg]

/-- No operation pays out more than its market owes. -/
theorem Balanced.payout_le (h : Balanced x) {op : Op} (hop : x.Allowed op) :
    -x.inflow op ≤ x.owed := by
  have hnn := (h.apply hop).owed_nonneg
  rw [h.owed_apply hop] at hnn
  linarith

end Account

end CrownFi.PredictionContract
