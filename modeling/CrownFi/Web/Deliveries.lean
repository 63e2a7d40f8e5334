import CrownFi.Lib.Ranked
import CrownFi.Web.BuyRoutes

/-!
# CrownFi.Web.Deliveries

**What becomes of a paid purchase.** `confirm-buy` consumes the intent before it
submits the payment. From then on nothing remembers the intent: a confirmation
that fails later cannot be repeated, whatever the chain says about its payment.
So a purchase that is paid for is delivered, or can be delivered by repeating
the request, exactly if the lookups fail, before the intent is consumed, or
every later step succeeds up to the row of the sale.

A confirmation is followed here to its end, alone: every step is progress
(`ranked_step`), so that it has one.
-/

namespace CrownFi.Web

open Lib

variable {net : Network} {o : Outcomes} {c : Confirm} {s : State}

/-! ### A confirmation to its end -/

def Confirm.step (net : Network) (o : Outcomes) (p : Confirm × State) : Confirm × State :=
  p.1.advance net o p.2

/-- A bound on the steps that are left. -/
def Confirm.rank : Confirm → Nat
  | .lookingUp _ => 36
  | .submitting _ _ _ => 35
  | .polling _ _ left => left + 4
  | .minting _ _ => 3
  | .recording _ _ => 2
  | .rewarding _ => 1
  | .answered _ | .lost => 0

/-- The confirmation at its end. -/
def Confirm.finish (net : Network) (o : Outcomes) (c : Confirm) (s : State) : Confirm × State :=
  Lib.finish (Confirm.step net o) (·.1.rank) (c, s)

theorem rank_step {α : Type} {call : Outcome α} {next : α → Confirm} {n : Nat} (hn : 0 < n)
    (hnext : ∀ a, (next a).rank < n) : (call.step next s).1.rank < n := by
  cases call with
  | answers a => exact hnext a
  | throws done => exact hn
  | restarts done => exact hn

theorem rank_lookUp {body : ConfirmBuy} : (lookUp o body s).1.rank < 36 := by
  unfold lookUp
  split
  · split
    · unfold consumeFor
      dsimp only
      split <;> simp [Confirm.rank]
    · simp [Confirm.rank]
  · simp [Confirm.rank]
  · simp [Confirm.rank]

theorem rank_submitSignedXdr {order : Order} {signedXdr : String} {txHash : TxHash} :
    (submitSignedXdr net o order signedXdr txHash s).1.rank < 35 := by
  unfold submitSignedXdr
  split
  · simp [Confirm.rank]
  · split
    · simp [Confirm.rank]
    · split
      · simp [Confirm.rank]
      · refine rank_step (by decide) fun status => ?_
        split <;> simp [Confirm.rank]

/-- **Every step is progress.** -/
theorem rank_advance (h : c.rank ≠ 0) : (c.advance net o s).1.rank < c.rank := by
  cases c with
  | lookingUp body => exact rank_lookUp
  | submitting order signedXdr txHash => exact rank_submitSignedXdr
  | polling order txHash left =>
      refine rank_step (Nat.succ_pos _) fun status => ?_
      cases status with
      | notFound => cases left <;> simp [Confirm.rank]
      | success => simp [Confirm.rank]
      | failed => simp [Confirm.rank]
  | minting order txHash => exact rank_step (Nat.succ_pos _) fun mint => by simp [Confirm.rank]
  | recording order mint =>
      refine rank_step (Nat.succ_pos _) fun _ => ?_
      split <;> simp [Confirm.rank]
  | rewarding fanId => exact rank_step (Nat.succ_pos _) fun _ => by simp [Confirm.rank]
  | answered response => exact absurd rfl h
  | lost => exact absurd rfl h

theorem advance_ended (h : c.rank = 0) : c.advance net o s = (c, s) := by
  cases c with
  | answered response => rfl
  | lost => rfl
  | lookingUp body => cases h
  | submitting order signedXdr txHash => cases h
  | polling order txHash left => cases h
  | minting order txHash => cases h
  | recording order mint => cases h
  | rewarding fanId => cases h

theorem ranked_step : Ranked (Confirm.step net o) (·.1.rank) :=
  ⟨fun _ h => advance_ended h, fun _ h => rank_advance h⟩

theorem finish_advance : c.finish net o s = (c.advance net o s).1.finish net o (c.advance net o s).2 :=
  ranked_step.finish_step (c, s)

@[simp] theorem finish_answered {response : Response} :
    (Confirm.answered response).finish net o s = (.answered response, s) := rfl

@[simp] theorem finish_lost : Confirm.lost.finish net o s = (.lost, s) := rfl

/-- **A confirmation ends**: it answers, or the server restarts. -/
theorem finish_ends : (∃ response, (c.finish net o s).1 = .answered response) ∨
    (c.finish net o s).1 = .lost := by
  have hended : (c.finish net o s).1.rank = 0 := ranked_step.rank_finish (c, s)
  cases hlast : (c.finish net o s).1 with
  | answered response => exact .inl ⟨response, rfl⟩
  | lost => exact .inr rfl
  | lookingUp body => rw [hlast] at hended; cases hended
  | submitting order signedXdr txHash => rw [hlast] at hended; cases hended
  | polling order txHash left => rw [hlast] at hended; cases hended
  | minting order txHash => rw [hlast] at hended; cases hended
  | recording order mint => rw [hlast] at hended; cases hended
  | rewarding fanId => rw [hlast] at hended; cases hended

/-! ### What a confirmation forgets -/

theorem intents_step {α : Type} {call : Outcome α} {next : α → Confirm} :
    (call.step next s).2.intents.Sublist s.intents := by
  cases call with
  | answers a => exact .refl _
  | throws done => exact .refl _
  | restarts done => exact List.nil_sublist _

theorem intents_lookUp {body : ConfirmBuy} : (lookUp o body s).2.intents.Sublist s.intents := by
  unfold lookUp
  split
  · split
    · unfold consumeFor
      dsimp only
      split
      · exact List.filter_sublist
      · exact List.filter_sublist
    · exact .refl _
  · exact .refl _
  · exact List.nil_sublist _

/-- No confirmation brings an intent back. -/
theorem intents_advance : (c.advance net o s).2.intents.Sublist s.intents := by
  cases c with
  | lookingUp body => exact intents_lookUp
  | submitting order signedXdr txHash =>
      simp only [Confirm.advance, submitSignedXdr]
      split
      · exact .refl _
      · split
        · exact .refl _
        · split
          · exact .refl _
          · exact intents_step
  | polling order txHash left => exact intents_step
  | minting order txHash =>
      refine intents_step.trans ?_
      split <;> exact .refl _
  | recording order mint =>
      refine intents_step.trans ?_
      unfold State.sold
      split
      · split <;> exact .refl _
      · exact .refl _
  | rewarding fanId =>
      refine intents_step.trans ?_
      split <;> exact .refl _
  | answered response => exact .refl _
  | lost => exact .refl _

theorem findIntent_sublist {id : String} {intents intents' : List TxIntent}
    (h : findIntent id intents = none) (hsub : intents'.Sublist intents) :
    findIntent id intents' = none := by
  rw [findIntent, List.find?_eq_none] at h ⊢
  exact fun i hi => h i (hsub.subset hi)

theorem findIntent_finish {id : String} (h : findIntent id s.intents = none) :
    findIntent id (c.finish net o s).2.intents = none :=
  Ranked.finish_induction (P := fun p : Confirm × State => findIntent id p.2.intents = none)
    (fun _ hp => findIntent_sublist hp intents_advance) h

/-! ### What a confirmation sells -/

/-- The rows of all sales. -/
def State.sales (s : State) : List Ticket × List Purchase := (s.tickets, s.purchases)

/-- The sales after an awaited call: those of the next stage, if there is one. -/
theorem sales_step {α : Type} {call : Outcome α} {next : α → Confirm} {sales : List Ticket × List Purchase}
    (hnext : ∀ a, call = .answers a → ((next a).finish net o s).2.sales = sales)
    (hfailed : (∀ a, call ≠ .answers a) → s.sales = sales) :
    ((call.step next s).1.finish net o (call.step next s).2).2.sales = sales := by
  cases call with
  | answers a => exact hnext a rfl
  | throws done => exact hfailed fun a h => by cases h
  | restarts done => exact hfailed fun a h => by cases h

theorem sales_rewarding {fanId : String} : ((Confirm.rewarding fanId).finish net o s).2.sales = s.sales := by
  have hpoints : (if o.reward.done then s.rewarded fanId else s).sales = s.sales := by split <;> rfl
  rw [finish_advance]
  exact sales_step (fun _ _ => hpoints) fun _ => hpoints

theorem sales_recording {order : Order} {mint : MintResult} :
    ((Confirm.recording order mint).finish net o s).2.sales =
      (if o.record.done then s.sold order mint else s).sales := by
  rw [finish_advance]
  refine sales_step (fun _ _ => ?_) fun _ => rfl
  split
  · rfl
  · exact sales_rewarding

/-- The sales once the payment is found. -/
theorem sales_minting {order : Order} {txHash : TxHash} :
    ((Confirm.minting order txHash).finish net o s).2.sales =
      match o.mint with
      | .answers mint => (if o.record.done then s.sold order mint else s).sales
      | _ => s.sales := by
  have hminted : (if o.mint.done then { s with
      minted := s.minted ++ [⟨order.goods, order.wallet, txHash⟩] } else s).sales = s.sales := by
    split <;> rfl
  rw [finish_advance]
  refine sales_step (fun mint hmint => ?_) fun hfailed => ?_
  · rw [sales_recording, hmint]
    dsimp only
    split
    · simp only [State.sold, Outcome.done, if_true]
      split <;> rfl
    · rfl
  · rw [hminted]
    cases hmint : o.mint with
    | answers mint => exact absurd hmint (hfailed mint)
    | throws done => rfl
    | restarts done => rfl

/-- The payment is found, with so many further attempts left. -/
def Outcomes.Included (o : Outcomes) (left : Nat) : Prop :=
  ∃ k ≤ left, o.poll k = .answers .success ∧ ∀ m ≤ left, k < m → o.poll m = .answers .notFound

/-- **Every step from the submission to the row of the sale succeeds.** -/
structure Outcomes.Completes (o : Outcomes) : Prop where
  submitted : ∃ status, o.send = .answers status ∧ status ≠ .error
  included : o.Included 30
  minted : ∃ mint, o.mint = .answers mint
  recorded : o.record.done = true

theorem included_zero : o.Included 0 ↔ o.poll 0 = .answers .success := by
  constructor
  · rintro ⟨k, hk, hfound, -⟩
    rwa [Nat.le_zero.mp hk] at hfound
  · exact fun h => ⟨0, Nat.le_refl 0, h, fun m hm hpos => absurd hm (Nat.not_le_of_lt hpos)⟩

theorem included_succ {left : Nat} : o.Included (left + 1) ↔
    o.poll (left + 1) = .answers .success ∨ o.poll (left + 1) = .answers .notFound ∧ o.Included left := by
  constructor
  · rintro ⟨k, hk, hfound, hearlier⟩
    rcases Nat.lt_or_ge left k with hlast | hlater
    · obtain rfl : k = left + 1 := by omega
      exact .inl hfound
    · refine .inr ⟨hearlier _ (Nat.le_refl _) (by omega), k, hlater, hfound, fun m hm hkm => ?_⟩
      exact hearlier m (by omega) hkm
  · rintro (hfound | ⟨hmissed, k, hk, hfound, hearlier⟩)
    · exact ⟨left + 1, Nat.le_refl _, hfound, fun m hm hlt => absurd hm (Nat.not_le_of_lt hlt)⟩
    · refine ⟨k, by omega, hfound, fun m hm hkm => ?_⟩
      rcases Nat.lt_or_ge left m with hlast | hlater
      · obtain rfl : m = left + 1 := by omega
        exact hmissed
      · exact hearlier m hlater hkm

/-- The sales while the payment is looked for. -/
theorem sales_polling {order : Order} {txHash : TxHash} {left : Nat} :
    (o.Included left → ((Confirm.polling order txHash left).finish net o s).2.sales =
        ((Confirm.minting order txHash).finish net o s).2.sales) ∧
      (¬ o.Included left → ((Confirm.polling order txHash left).finish net o s).2.sales = s.sales) := by
  induction left with
  | zero =>
      rw [included_zero, finish_advance]
      constructor
      · intro hfound
        simp only [Confirm.advance, pollTransaction, hfound, Outcome.step]
      · intro hmissed
        refine sales_step (fun status hstatus => ?_) fun _ => rfl
        cases status with
        | success => exact absurd hstatus hmissed
        | failed => rfl
        | notFound => rfl
  | succ left ih =>
      rw [included_succ, finish_advance]
      constructor
      · rintro (hfound | ⟨hnotFound, hlater⟩)
        · simp only [Confirm.advance, pollTransaction, hfound, Outcome.step]
        · simp only [Confirm.advance, pollTransaction, hnotFound, Outcome.step]
          exact ih.1 hlater
      · intro hmissed
        refine sales_step (fun status hstatus => ?_) fun _ => rfl
        cases status with
        | success => exact absurd (.inl hstatus) hmissed
        | failed => rfl
        | notFound => exact ih.2 fun hlater => hmissed (.inr ⟨hstatus, hlater⟩)

/-- **The sales of a confirmation** whose signed transaction is the prepared one. -/
theorem sales_submitting {order : Order} {signedXdr : String} {txHash : TxHash} {tx : Transaction}
    (hparsed : net.fromXDR signedXdr = some tx) (hsource : tx.source = order.wallet)
    (hhash : net.hash tx = txHash) :
    (o.Completes → ∃ mint, ((Confirm.submitting order signedXdr txHash).finish net o s).2.sales =
        (s.sold order mint).sales) ∧
      (¬ o.Completes → ((Confirm.submitting order signedXdr txHash).finish net o s).2.sales = s.sales) := by
  have hadvance : (Confirm.submitting order signedXdr txHash).advance net o s =
      o.send.step (fun status => if status = .error then .answered .failed else .polling order txHash 30)
        { s with sent := if accepted o.send then txHash :: s.sent else s.sent } := by
    simp only [Confirm.advance, submitSignedXdr, hparsed, hsource, hhash, ne_eq, not_true, if_false]
  rw [finish_advance, hadvance]
  constructor
  · intro h
    obtain ⟨status, hsent, hstatus⟩ := h.submitted
    obtain ⟨mint, hmint⟩ := h.minted
    refine ⟨mint, sales_step (fun status' hsent' => ?_) fun hfailed => absurd hsent (hfailed status)⟩
    obtain rfl : status = status' := by simpa [hsent] using hsent'
    rw [if_neg hstatus, sales_polling.1 h.included, sales_minting, hmint]
    simp only [h.recorded, if_true, State.sold]
    split <;> rfl
  · intro h
    refine sales_step (fun status hsent => ?_) fun _ => rfl
    by_cases herror : status = .error
    · rw [if_pos herror]
      rfl
    · rw [if_neg herror]
      by_cases hincluded : o.Included 30
      · rw [sales_polling.1 hincluded, sales_minting]
        cases hmint : o.mint with
        | answers mint =>
            have hrecord : ¬ o.record.done = true := fun hdone =>
              h ⟨⟨status, hsent, herror⟩, hincluded, ⟨mint, hmint⟩, hdone⟩
            simp only [if_neg hrecord]
            rfl
        | throws done => rfl
        | restarts done => rfl
      · exact sales_polling.2 hincluded

/-! ### Delivered, or to be repeated -/

variable {body : ConfirmBuy} {intent : TxIntent} {order : Order}

/-- A request, alone. -/
def ConfirmBuy.handle (net : Network) (o : Outcomes) (body : ConfirmBuy) (s : State) : Confirm × State :=
  (confirmBuy body).finish net o s

/-- The row of the sale has come into being. -/
def Delivered (body : ConfirmBuy) (s s' : State) : Prop :=
  match body.item with
  | .ticket tier _ => ∃ t, s'.tickets = s.tickets ++ [t] ∧ t.fanId = body.fanId ∧ t.tier = tier
  | .collectible collectibleId =>
      ∃ p, s'.purchases = s.purchases ++ [p] ∧ p.fanId = body.fanId ∧ p.collectibleId = collectibleId

/-- The request is not refused for its intent, and can deliver. -/
def Repeatable (net : Network) (body : ConfirmBuy) (s : State) : Prop :=
  (∀ o, (body.handle net o s).1 ≠ .answered invalidOrExpiredIntent) ∧
    ∃ o, Delivered body s (body.handle net o s).2

/-- The order of a request, its intent, and the prepared transaction signed. -/
structure Matches (net : Network) (body : ConfirmBuy) (intent : TxIntent) (order : Order) : Prop where
  isFor : intent.isFor order = true
  signed : ∃ tx, net.fromXDR body.signedXdr = some tx ∧ tx.source = order.wallet ∧
    net.hash tx = intent.txHash

/-- **A prepared purchase**, and the request that confirms it. -/
structure Prepared (net : Network) (s : State) (body : ConfirmBuy) (intent : TxIntent) : Prop where
  complete : body.missingFields = false
  stored : findIntent body.intentId s.intents = some intent
  live : s.clock ≤ intent.expiresAt
  order : ∃ order, s.order body = .ok order ∧ Matches net body intent order

theorem Prepared.later (h : Prepared net s body intent) {later : Nat} (hlife : later ≤ intent.expiresAt) :
    Prepared net { s with clock := later } body intent :=
  { complete := h.complete, stored := h.stored, live := hlife, order := h.order }

theorem handle_eq (h : body.missingFields = false) :
    body.handle net o s = (Confirm.lookingUp body).finish net o s := by
  rw [ConfirmBuy.handle, confirmBuy, h]
  rfl

/-- The first step of a prepared confirmation. -/
theorem Prepared.advance (h : Prepared net s body intent) (horder : s.order body = .ok order)
    (hmatches : Matches net body intent order) {a : Unit} (hlookup : o.lookup = .answers a) :
    (Confirm.lookingUp body).advance net o s =
      (.submitting order body.signedXdr intent.txHash,
        { s with intents := withoutIntent body.intentId s.intents }) := by
  have hlive : liveIntent body.intentId s.clock s.intents = some intent :=
    liveIntent_eq_some.mpr ⟨h.stored, h.live⟩
  simp only [Confirm.advance, lookUp, hlookup, horder, consumeFor, hlive, Option.filter, hmatches.isFor,
    if_true]

/-- Without its intent, a confirmation sells nothing. -/
theorem sales_forgotten (h : findIntent body.intentId s.intents = none) :
    ((Confirm.lookingUp body).finish net o s).2.sales = s.sales := by
  rw [finish_advance]
  simp only [Confirm.advance, lookUp]
  split
  · split
    · simp only [consumeFor, liveIntent_of_find h, Option.filter_none]
      rfl
    · rfl
  · rfl
  · rfl

/-- A confirmation that has its intent. -/
def Confirm.HasIntent : Confirm → Prop
  | .lookingUp _ => False
  | .answered response => response = .ok ∨ response = .failed
  | _ => True

theorem hasIntent_step {α : Type} {call : Outcome α} {next : α → Confirm} (h : ∀ a, (next a).HasIntent) :
    (call.step next s).1.HasIntent := by
  cases call with
  | answers a => exact h a
  | throws done => exact .inr rfl
  | restarts done => trivial

theorem hasIntent_advance (h : c.HasIntent) : (c.advance net o s).1.HasIntent := by
  cases c with
  | lookingUp body => exact h.elim
  | submitting order signedXdr txHash =>
      simp only [Confirm.advance, submitSignedXdr]
      split
      · exact .inr rfl
      · split
        · exact .inr rfl
        · split
          · exact .inr rfl
          · refine hasIntent_step fun status => ?_
            split
            · exact .inr rfl
            · trivial
  | polling order txHash left =>
      refine hasIntent_step fun status => ?_
      cases status with
      | success => trivial
      | failed => exact .inr rfl
      | notFound =>
          cases left with
          | zero => exact .inr rfl
          | succ left => trivial
  | minting order txHash => exact hasIntent_step fun _ => trivial
  | recording order mint =>
      refine hasIntent_step fun _ => ?_
      split
      · exact .inl rfl
      · trivial
  | rewarding fanId => exact hasIntent_step fun _ => .inl rfl
  | answered response => exact h
  | lost => trivial

/-- Past its lookup, no confirmation is refused for its intent. -/
theorem not_refused (h : c.HasIntent) : (c.finish net o s).1 ≠ .answered invalidOrExpiredIntent := by
  have hlast : (c.finish net o s).1.HasIntent :=
    Ranked.finish_induction (P := fun p : Confirm × State => p.1.HasIntent)
      (fun _ hp => hasIntent_advance hp) h
  intro hrefused
  rw [hrefused] at hlast
  rcases hlast with hok | hfailed
  · cases hok
  · cases hfailed

/-- The goods of an order are those the request names. -/
theorem order_eq_ok (h : s.order body = .ok order) :
    order.fanId = body.fanId ∧ s.goods body.item = some order.goods := by
  unfold State.order at h
  split at h
  · rename_i fan goods hfan hgoods
    split at h
    · obtain rfl := Except.ok.inj h
      have hid := List.find?_some hfan
      exact ⟨by simpa using hid, hgoods⟩
    · cases h
  · cases h

theorem delivered_of_sold {s' : State} {mint : MintResult} (horder : s.order body = .ok order)
    (h : s'.sales = (s.sold order mint).sales) : Delivered body s s' := by
  obtain ⟨hfan, hgoods⟩ := order_eq_ok horder
  obtain ⟨htickets, hpurchases⟩ := Prod.mk.inj h
  unfold Delivered
  cases hitem : body.item with
  | ticket tier seat =>
      rw [hitem] at hgoods
      obtain ⟨t, ht, hgoods⟩ := Option.map_eq_some_iff.mp hgoods
      have hname : t.name = tier := by simpa using List.find?_some ht
      simp only [State.sold, ← hgoods] at htickets
      exact ⟨_, htickets, hfan, hname⟩
  | collectible collectibleId =>
      rw [hitem] at hgoods
      obtain ⟨c, hc, hgoods⟩ := Option.map_eq_some_iff.mp hgoods
      have hid : c.id = collectibleId := by simpa using List.find?_some hc
      simp only [State.sold, ← hgoods] at hpurchases
      exact ⟨_, hpurchases, hfan, hid⟩

theorem not_delivered {s' : State} (h : s'.sales = s.sales) : ¬ Delivered body s s' := by
  obtain ⟨htickets, hpurchases⟩ := Prod.mk.inj h
  unfold Delivered
  split
  · rintro ⟨t, ht, -⟩
    rw [htickets] at ht
    simpa using congrArg List.length ht
  · rintro ⟨p, hp, -⟩
    rw [hpurchases] at hp
    simpa using congrArg List.length hp

/-- Outcomes with which everything succeeds. -/
def smoothly : Outcomes where
  lookup := .answers ()
  account := .answers ()
  prepare := .answers ()
  intentId := ""
  send := .answers .pending
  poll _ := .answers .success
  mint := .answers ⟨"", ""⟩
  record := .answers ()
  reward := .answers ()

theorem smoothly_completes : smoothly.Completes where
  submitted := ⟨.pending, rfl, by decide⟩
  included := ⟨30, Nat.le_refl _, rfl, fun m hm hlt => absurd hm (Nat.not_le_of_lt hlt)⟩
  minted := ⟨_, rfl⟩
  recorded := rfl

/-- What a prepared confirmation sells. -/
theorem Prepared.sales (h : Prepared net s body intent) (horder : s.order body = .ok order)
    (hmatches : Matches net body intent order) {a : Unit} (hlookup : o.lookup = .answers a) :
    (o.Completes → Delivered body s (body.handle net o s).2) ∧
      (¬ o.Completes → (body.handle net o s).2.sales = s.sales) := by
  obtain ⟨tx, hparsed, hsource, hhash⟩ := hmatches.signed
  rw [handle_eq h.complete, finish_advance, h.advance horder hmatches hlookup]
  constructor
  · intro hcompletes
    obtain ⟨mint, hsales⟩ := (sales_submitting hparsed hsource hhash).1 hcompletes
    have hsame : ({ s with intents := withoutIntent body.intentId s.intents }.sold order mint).sales =
        (s.sold order mint).sales := by
      unfold State.sold
      split <;> rfl
    exact delivered_of_sold horder (hsales.trans hsame)
  · intro hfails
    exact (sales_submitting hparsed hsource hhash).2 hfails

/-- A prepared confirmation can be made. -/
theorem Prepared.repeatable (h : Prepared net s body intent) : Repeatable net body s := by
  obtain ⟨order, horder, hmatches⟩ := h.order
  constructor
  · intro o
    rw [handle_eq h.complete, finish_advance]
    cases hlookup : o.lookup with
    | answers a =>
        rw [h.advance horder hmatches hlookup]
        exact not_refused trivial
    | throws done =>
        simp only [Confirm.advance, lookUp, hlookup]
        exact not_refused (.inr rfl)
    | restarts done =>
        simp only [Confirm.advance, lookUp, hlookup]
        exact not_refused trivial
  · exact ⟨smoothly, (h.sales horder hmatches (a := ()) rfl).1 smoothly_completes⟩

/-- A confirmation whose intent is forgotten cannot be made. -/
theorem not_repeatable (hcomplete : body.missingFields = false)
    (h : findIntent body.intentId s.intents = none) : ¬ Repeatable net body s := by
  rintro ⟨-, o, hdelivered⟩
  rw [handle_eq hcomplete] at hdelivered
  exact not_delivered (sales_forgotten h) hdelivered

/-- **When a paid purchase is delivered**, at once or by repeating the request within the lifetime of its
intent: the confirmation fails before it consumes the intent, or every later step succeeds. -/
theorem purchase_delivered_iff (h : Prepared net s body intent) {later : Nat}
    (hlife : later ≤ intent.expiresAt) (ledger : List TxHash) :
    (intent.txHash ∈ ledger → Delivered body s (body.handle net o s).2 ∨
        Repeatable net body { (body.handle net o s).2 with clock := later }) ↔
      (intent.txHash ∈ ledger →
        (∃ done, o.lookup = .throws done) ∨ (∃ a, o.lookup = .answers a) ∧ o.Completes) := by
  obtain ⟨order, horder, hmatches⟩ := h.order
  refine imp_congr_right fun _ => ?_
  cases hlookup : o.lookup with
  | answers a =>
      obtain ⟨hsold, hkept⟩ := h.sales horder hmatches hlookup
      constructor
      · rintro (hdelivered | hrepeatable)
        · by_contra hfails
          exact not_delivered (hkept fun hcompletes => hfails (.inr ⟨⟨a, rfl⟩, hcompletes⟩)) hdelivered
        · refine absurd hrepeatable (not_repeatable h.complete ?_)
          change findIntent body.intentId (body.handle net o s).2.intents = none
          rw [handle_eq h.complete, finish_advance, h.advance horder hmatches hlookup]
          exact findIntent_finish findIntent_withoutIntent
      · rintro (⟨done, hthrows⟩ | ⟨-, hcompletes⟩)
        · cases hthrows
        · exact .inl (hsold hcompletes)
  | throws done =>
      have hsame : (body.handle net o s).2 = s := by
        rw [handle_eq h.complete, finish_advance]
        simp only [Confirm.advance, lookUp, hlookup, finish_answered]
      rw [hsame]
      exact ⟨fun _ => .inl ⟨done, rfl⟩, fun _ => .inr (h.later hlife).repeatable⟩
  | restarts done =>
      have hlost : (body.handle net o s).2 = s.restarted := by
        rw [handle_eq h.complete, finish_advance]
        simp only [Confirm.advance, lookUp, hlookup, finish_lost]
      rw [hlost]
      constructor
      · rintro (hdelivered | hrepeatable)
        · exact absurd hdelivered (not_delivered rfl)
        · exact absurd hrepeatable (not_repeatable h.complete rfl)
      · rintro (⟨done, hthrows⟩ | ⟨⟨a, hanswers⟩, -⟩)
        · cases hthrows
        · cases hanswers

/-! A gold ticket, prepared for a fan whose wallet signs it. -/

def goldPayment : Transaction :=
  buildTransaction "GFAN" 7 60000 (buyOperations "GFAN" 102)

def testNetwork : Network where
  hash tx := BitVec.ofNat 256 (tx.sequence * 1000000 + tx.maxTime)
  fromXDR text := if text = "signed" then some goldPayment else none
  demoContestantPayout := "GCONTESTANT"
  eventTreasuryPayout := "GTREASURY"

def goldIntent : TxIntent where
  id := "first"
  kind := .ticketBuy "fan" "Gold" 102
  txHash := testNetwork.hash goldPayment
  expectedSource := "GFAN"
  expiresAt := 60000 + intentTtlMs

def shop : State where
  clock := 60000
  intents := [goldIntent]
  fans := [⟨"fan", some "GFAN", 0⟩]
  collectibles := []
  tickets := []
  purchases := []
  sequence _ := 7
  sent := []
  successful := []
  prepared := [goldIntent.txHash]
  minted := []

def goldTicket : ConfirmBuy where
  item := .ticket "Gold" ""
  fanId := "fan"
  signedXdr := "signed"
  intentId := "first"

theorem goldTicket_prepared : Prepared testNetwork shop goldTicket goldIntent where
  complete := by decide
  stored := by decide
  live := by decide
  order := ⟨⟨"fan", "GFAN", .ticket ⟨"Gold", 102, 100⟩ "Unassigned"⟩, by decide, by decide,
    goldPayment, by decide, by decide, by decide⟩

theorem goldTicket_delivered :
    Delivered goldTicket shop (goldTicket.handle testNetwork smoothly shop).2 ∨
      Repeatable testNetwork goldTicket
        { (goldTicket.handle testNetwork smoothly shop).2 with clock := shop.clock } :=
  (purchase_delivered_iff goldTicket_prepared (by decide) [goldIntent.txHash]).2
    (fun _ => .inr ⟨⟨(), rfl⟩, smoothly_completes⟩) (List.mem_singleton_self _)

/-- **A paid ticket is lost** when its mint fails. -/
theorem paid_ticket_lost : ∃ o : Outcomes, Prepared testNetwork shop goldTicket goldIntent ∧
    goldIntent.txHash ∈ [goldIntent.txHash] ∧
    ¬ (Delivered goldTicket shop (goldTicket.handle testNetwork o shop).2 ∨
      Repeatable testNetwork goldTicket
        { (goldTicket.handle testNetwork o shop).2 with clock := shop.clock }) := by
  refine ⟨{ smoothly with mint := .throws false }, goldTicket_prepared, List.mem_singleton_self _, ?_⟩
  rintro (hdelivered | hrepeatable)
  · exact not_delivered (by decide) hdelivered
  · exact not_repeatable (by decide) (by decide) hrepeatable

end CrownFi.Web
