import CrownFi.Lib.Custody
import CrownFi.Lib.Run
import CrownFi.Web.Deliveries

/-!
# CrownFi.Web.OnePayment

**One payment, one ticket**, over every interleaving of preparations and
confirmations of tickets and collectibles, with the chain and the clock moving
between them.

A confirmation is tied to its payment by the hash in its intent. An intent is
consumed once, so what has to be excluded is that two intents carry one hash. A
hash has a *claim* to a ticket while a live ticket intent carries it, while a
confirmation that has consumed such an intent has not minted yet, and once a
ticket has been minted for it. Claims are tokens in custody: a confirmation
takes the claim of the intent it consumes, and minting takes the claim of the
confirmation. So they stay distinct as long as no intent is stored for a hash
that has a claim already, and that is the condition. Two preparations within one
second build one transaction and store two intents for it
(`two_tickets_for_one_payment`).
-/

namespace CrownFi.Web

open Lib

/-! ### The system -/

inductive Process
  | prepare (p : Prepare)
  | confirm (c : Confirm)
  deriving DecidableEq

structure World where
  state : State
  processes : List Process

inductive Move
  | prepareBuy (body : PrepareBuy)
  | confirmBuy (body : ConfirmBuy)
  | go (process : Nat) (o : Outcomes)
  /-- The chain includes a transaction. -/
  | included (tx : Transaction) (success : Bool)
  | tick (elapsed : Nat)
  | restart

/-- What the chain can answer: a pending or included transaction is not refused, and only a successful one
is reported as such. -/
def Confirm.Possible (o : Outcomes) (s : State) : Confirm → Prop
  | .submitting _ _ txHash => o.send = .answers .error → txHash ∉ s.sent ∧ txHash ∉ s.successful
  | .polling _ txHash left => o.poll left = .answers .success → txHash ∈ s.successful
  | _ => True

instance (o : Outcomes) (s : State) : (c : Confirm) → Decidable (c.Possible o s)
  | .submitting _ _ txHash =>
      inferInstanceAs (Decidable (o.send = .answers .error → txHash ∉ s.sent ∧ txHash ∉ s.successful))
  | .polling _ txHash left =>
      inferInstanceAs (Decidable (o.poll left = .answers .success → txHash ∈ s.successful))
  | .lookingUp _ | .minting _ _ | .recording _ _ | .rewarding _ | .answered _ | .lost => .isTrue trivial

/-- The chain includes the next transaction of an account, within its time bounds. -/
def State.Includable (s : State) (tx : Transaction) : Prop :=
  tx.sequence = s.sequence tx.source + 1 ∧ s.clock / 1000 ≤ tx.maxTime

instance (s : State) (tx : Transaction) : Decidable (s.Includable tx) :=
  inferInstanceAs (Decidable (_ ∧ _))

def State.includes (s : State) (txHash : TxHash) (tx : Transaction) (success : Bool) : State :=
  { s with
    sequence := fun source => if source = tx.source then tx.sequence else s.sequence source
    sent := txHash :: s.sent
    successful := if success then txHash :: s.successful else s.successful }

variable (net : Network) (mode : Mode)

/-- The step of one process; a restart of the server ends them all. -/
def World.go (w : World) (process : Nat) (o : Outcomes) : Option World :=
  match w.processes[process]? with
  | none => none
  | some (.prepare p) =>
      let after := p.advance net mode o w.state
      some ⟨after.2, w.processes.set process (.prepare after.1)⟩
  | some (.confirm c) =>
      let after := c.advance net o w.state
      if ¬ c.Possible o w.state then none
      else if after.1 = .lost then some ⟨after.2, []⟩
      else some ⟨after.2, w.processes.set process (.confirm after.1)⟩

def World.step (w : World) : Move → Option World
  | .prepareBuy body => some { w with processes := w.processes ++ [.prepare (prepareBuy net mode body)] }
  | .confirmBuy body => some { w with processes := w.processes ++ [.confirm (confirmBuy body)] }
  | .go process o => w.go net mode process o
  | .included tx success =>
      if w.state.Includable tx then some { w with state := w.state.includes (net.hash tx) tx success }
      else none
  | .tick elapsed => some { w with state := { w.state with clock := w.state.clock + elapsed } }
  | .restart => some ⟨w.state.restarted, []⟩

/-! ### Claims to a ticket -/

/-- Claims of intents that are not consumed yet. -/
def State.liveTickets (s : State) : List TxHash :=
  (s.intents.filter fun i => i.kind.isTicket && s.clock ≤ i.expiresAt).map (·.txHash)

/-- Claims of minted tickets. -/
def State.ticketsMinted (s : State) : List TxHash :=
  (s.minted.filter (·.goods.isTicket)).map (·.payment)

def Order.claims (order : Order) (txHash : TxHash) : List TxHash :=
  if order.goods.isTicket then [txHash] else []

/-- The claim of a confirmation between its intent and its mint. -/
def Confirm.claims : Confirm → List TxHash
  | .submitting order _ txHash | .polling order txHash _ | .minting order txHash => order.claims txHash
  | .lookingUp _ | .recording _ _ | .rewarding _ | .answered _ | .lost => []

def Process.claims : Process → List TxHash
  | .prepare _ => []
  | .confirm c => c.claims

def World.claims (w : World) : List TxHash :=
  w.state.liveTickets ++ (w.processes.flatMap Process.claims ++ w.state.ticketsMinted)

/-- The ticket transaction for which a step of a preparation stores an intent. -/
def Prepare.stores (o : Outcomes) (s : State) : Prepare → Option TxHash
  | .fetchingAccount preparation =>
      match o.account with
      | .answers _ =>
          if preparation.kind.isTicket && !preparation.simulated then
            some (net.hash (buildTransaction preparation.buyerAddress (s.sequence preparation.buyerAddress)
              s.clock preparation.operations))
          else none
      | _ => none
  | .simulating preparation tx =>
      match o.prepare with
      | .answers _ => if preparation.kind.isTicket then some (net.hash tx) else none
      | _ => none
  | .lookingUp _ | .answered _ => none

def World.stores (w : World) (process : Nat) (o : Outcomes) : Option TxHash :=
  match w.processes[process]? with
  | some (.prepare p) => p.stores net o w.state
  | _ => none

/-- No claim stands for the transaction. -/
def Unclaimed (claims : List TxHash) : Option TxHash → Prop
  | some txHash => txHash ∉ claims
  | none => True

instance (claims : List TxHash) : (stored : Option TxHash) → Decidable (Unclaimed claims stored)
  | some txHash => inferInstanceAs (Decidable (txHash ∉ claims))
  | none => .isTrue trivial

/-- **The condition**: an intent is stored for a transaction that has no claim to a ticket yet. -/
def Fresh (w : World) : Move → Prop
  | .go process o => Unclaimed w.claims (w.stores net process o)
  | _ => True

instance (w : World) : (m : Move) → Decidable (Fresh net w m)
  | .go process o => inferInstanceAs (Decidable (Unclaimed w.claims (w.stores net process o)))
  | .prepareBuy _ | .confirmBuy _ | .included _ _ | .tick _ | .restart => .isTrue trivial

def World.Step (w : World) (m : Move) (w' : World) : Prop := w.step net mode m = some w' ∧ Fresh net w m

/-- The distinct payments for tickets that have succeeded. -/
def State.payments (s : State) : List TxHash := (s.successful.filter (· ∈ s.prepared)).dedup

/-! ### What one step does to the claims -/

variable {net : Network} {mode : Mode} {o : Outcomes} {s s' : State} {c : Confirm}

/-- The claims that a confirmation can touch. -/
def Confirm.held (c : Confirm) (s : State) : List TxHash :=
  s.liveTickets ++ (c.claims ++ s.ticketsMinted)

/-- A consumed intent leaves the store for the confirmation. -/
theorem consumed_subperm {id : String} {intents : List TxIntent} {intent : TxIntent}
    (h : findIntent id intents = some intent) : (withoutIntent id intents ++ [intent]).Subperm intents := by
  have hmem : intent ∈ intents.filter fun i => !decide (i.id ≠ id) := by
    have hid : intent.id = id := by simpa using List.find?_some h
    exact List.mem_filter.mpr ⟨List.mem_of_find?_eq_some h, by simp [hid]⟩
  have hsplit := List.filter_append_perm (fun i : TxIntent => decide (i.id ≠ id)) intents
  exact (((List.singleton_sublist.mpr hmem).append_left _).subperm).trans hsplit.subperm

theorem liveTickets_subperm {intents : List TxIntent} (h : intents.Subperm s.intents) :
    ({ s with intents } : State).liveTickets.Subperm s.liveTickets :=
  map_subperm (h.filter _)

theorem held_dropped : (s.liveTickets ++ s.ticketsMinted).Subperm (c.held s) :=
  ((List.sublist_append_right c.claims s.ticketsMinted).append_left s.liveTickets).subperm

/-- The claims after an awaited call. -/
theorem held_step {α : Type} {call : Outcome α} {next : α → Confirm} {held : List TxHash}
    (hnext : ∀ a, ((next a).held s').Subperm held)
    (hfailed : (s'.liveTickets ++ s'.ticketsMinted).Subperm held) :
    ((call.step next s').1.held (call.step next s').2).Subperm held := by
  cases call with
  | answers a => exact hnext a
  | throws done => exact hfailed
  | restarts done => exact ((List.sublist_append_right s'.liveTickets s'.ticketsMinted).subperm).trans hfailed

theorem isTicket_of_isFor {intent : TxIntent} {order : Order} (h : intent.isFor order = true) :
    intent.kind.isTicket = order.goods.isTicket := by
  unfold TxIntent.isFor at h
  split at h <;> simp_all [IntentKind.isTicket, Goods.isTicket]

/-- **Consuming an intent** takes its claim over. -/
theorem held_consumeFor {body : ConfirmBuy} {order : Order} :
    ((consumeFor body order s).1.held (consumeFor body order s).2).Subperm
      (s.liveTickets ++ s.ticketsMinted) := by
  simp only [consumeFor]
  cases hconsumed : (liveIntent body.intentId s.clock s.intents).filter (·.isFor order) with
  | none =>
      have hfewer : (withoutIntent body.intentId s.intents).Subperm s.intents :=
        List.filter_sublist.subperm
      exact (liveTickets_subperm hfewer).append (.refl _)
  | some intent =>
      obtain ⟨hlive, hfor⟩ := Option.filter_eq_some_iff.mp hconsumed
      obtain ⟨hfound, hunexpired⟩ := liveIntent_eq_some.mp hlive
      have hkind := isTicket_of_isFor hfor
      have hmoved := liveTickets_subperm (consumed_subperm hfound)
      have hsplit : ({ s with intents := withoutIntent body.intentId s.intents ++ [intent] } : State).liveTickets =
          ({ s with intents := withoutIntent body.intentId s.intents } : State).liveTickets ++
            order.claims intent.txHash := by
        cases hticket : order.goods.isTicket <;>
          simp [State.liveTickets, Order.claims, hkind, hticket, hunexpired]
      rw [hsplit] at hmoved
      have hall := hmoved.append (List.Subperm.refl s.ticketsMinted)
      rwa [List.append_assoc] at hall

/-- **Minting** uses the claim of the confirmation up. -/
theorem held_minted {order : Order} {txHash : TxHash} :
    (({ s with minted := s.minted ++ [⟨order.goods, order.wallet, txHash⟩] } : State).liveTickets ++
      ({ s with minted := s.minted ++ [⟨order.goods, order.wallet, txHash⟩] } : State).ticketsMinted).Perm
        ((Confirm.minting order txHash).held s) := by
  have hminted : ({ s with minted := s.minted ++ [⟨order.goods, order.wallet, txHash⟩] } : State).ticketsMinted =
      s.ticketsMinted ++ order.claims txHash := by
    cases hticket : order.goods.isTicket <;> simp [State.ticketsMinted, Order.claims, hticket]
  rw [hminted]
  exact List.perm_append_comm.append_left _

/-- **One step of a confirmation** makes no claims. -/
theorem held_advance : ((c.advance net o s).1.held (c.advance net o s).2).Subperm (c.held s) := by
  cases c with
  | lookingUp body =>
      simp only [Confirm.advance, lookUp]
      split
      · split
        · exact held_consumeFor
        · exact .refl _
      · exact .refl _
      · exact (List.sublist_append_right _ _).subperm
  | submitting order signedXdr txHash =>
      simp only [Confirm.advance, submitSignedXdr]
      split
      · exact held_dropped
      · split
        · exact held_dropped
        · split
          · exact held_dropped
          · refine held_step (fun status => ?_) held_dropped
            split
            · exact held_dropped
            · exact .refl _
  | polling order txHash left =>
      refine held_step (fun status => ?_) held_dropped
      cases status with
      | success => exact .refl _
      | failed => exact held_dropped
      | notFound =>
          cases left with
          | zero => exact held_dropped
          | succ left => exact .refl _
  | minting order txHash =>
      have hminted : ∀ s', s' = (if o.mint.done then
          { s with minted := s.minted ++ [⟨order.goods, order.wallet, txHash⟩] } else s) →
          (s'.liveTickets ++ s'.ticketsMinted).Subperm ((Confirm.minting order txHash).held s) := by
        rintro s' rfl
        split
        · exact held_minted.subperm
        · exact held_dropped
      exact held_step (fun mint => hminted _ rfl) (hminted _ rfl)
  | recording order mint =>
      have hsold : ((if o.record.done then s.sold order mint else s).liveTickets ++
          (if o.record.done then s.sold order mint else s).ticketsMinted).Subperm
            ((Confirm.recording order mint).held s) := by
        unfold State.sold
        split
        · split <;> exact .refl _
        · exact .refl _
      refine held_step (fun _ => ?_) hsold
      split <;> exact hsold
  | rewarding fanId =>
      have hrewarded : ((if o.reward.done then s.rewarded fanId else s).liveTickets ++
          (if o.reward.done then s.rewarded fanId else s).ticketsMinted).Subperm
            ((Confirm.rewarding fanId).held s) := by
        split <;> exact .refl _
      exact held_step (fun _ => hrewarded) hrewarded
  | answered response => exact .refl _
  | lost => exact .refl _

/-! ### What one step does to the payments -/

/-- The payment that a confirmation has found. -/
def Confirm.found : Confirm → List TxHash
  | .minting _ txHash => [txHash]
  | _ => []

/-- The histories are those of the preparations and of the chain. -/
def SameChain (s s' : State) : Prop := s'.prepared = s.prepared ∧ s'.successful = s.successful

theorem sameChain_step {α : Type} {call : Outcome α} {next : α → Confirm} (h : SameChain s s') :
    SameChain s (call.step next s').2 := by
  cases call <;> exact h

theorem sameChain_advance : SameChain s (c.advance net o s).2 := by
  cases c with
  | lookingUp body =>
      simp only [Confirm.advance, lookUp]
      split
      · split
        · simp only [consumeFor]
          split <;> exact ⟨rfl, rfl⟩
        · exact ⟨rfl, rfl⟩
      · exact ⟨rfl, rfl⟩
      · exact ⟨rfl, rfl⟩
  | submitting order signedXdr txHash =>
      simp only [Confirm.advance, submitSignedXdr]
      split
      · exact ⟨rfl, rfl⟩
      · split
        · exact ⟨rfl, rfl⟩
        · split
          · exact ⟨rfl, rfl⟩
          · exact sameChain_step ⟨rfl, rfl⟩
  | polling order txHash left => exact sameChain_step ⟨rfl, rfl⟩
  | minting order txHash =>
      refine sameChain_step ?_
      split <;> exact ⟨rfl, rfl⟩
  | recording order mint =>
      refine sameChain_step ?_
      unfold State.sold
      split
      · split <;> exact ⟨rfl, rfl⟩
      · exact ⟨rfl, rfl⟩
  | rewarding fanId =>
      refine sameChain_step ?_
      split <;> exact ⟨rfl, rfl⟩
  | answered response => exact ⟨rfl, rfl⟩
  | lost => exact ⟨rfl, rfl⟩

theorem found_step {α : Type} {call : Outcome α} {next : α → Confirm} {txHash : TxHash}
    (h : txHash ∈ (call.step next s).1.found) : ∃ a, call = .answers a ∧ txHash ∈ (next a).found := by
  cases call with
  | answers a => exact ⟨a, rfl, h⟩
  | throws done => cases h
  | restarts done => cases h

/-- **A payment found** is one of the successful ones. -/
theorem found_advance (hpossible : c.Possible o s) {txHash : TxHash}
    (h : txHash ∈ (c.advance net o s).1.found) : txHash ∈ s.successful := by
  cases c with
  | polling order payment left =>
      obtain ⟨status, hstatus, hfound⟩ := found_step h
      cases status with
      | success =>
          obtain rfl := List.mem_singleton.mp hfound
          exact hpossible hstatus
      | failed => cases hfound
      | notFound => cases left <;> cases hfound
  | lookingUp body =>
      simp only [Confirm.advance, lookUp] at h
      split at h
      · split at h
        · simp only [consumeFor] at h
          split at h <;> cases h
        · cases h
      · cases h
      · cases h
  | submitting order signedXdr payment =>
      simp only [Confirm.advance, submitSignedXdr] at h
      split at h
      · cases h
      · split at h
        · cases h
        · split at h
          · cases h
          · obtain ⟨status, -, hfound⟩ := found_step h
            split at hfound <;> cases hfound
  | minting order payment =>
      obtain ⟨mint, -, hfound⟩ := found_step h
      cases hfound
  | recording order mint =>
      obtain ⟨_, -, hfound⟩ := found_step h
      split at hfound <;> cases hfound
  | rewarding fanId =>
      obtain ⟨_, -, hfound⟩ := found_step h
      cases hfound
  | answered response => cases h
  | lost => cases h

theorem minted_step {α : Type} {call : Outcome α} {next : α → Confirm} :
    (call.step next s).2.ticketsMinted = s.ticketsMinted := by
  cases call <;> rfl

/-- **A ticket is minted** for a payment found. -/
theorem minted_advance {txHash : TxHash} (h : txHash ∈ (c.advance net o s).2.ticketsMinted) :
    txHash ∈ s.ticketsMinted ∨ txHash ∈ c.found := by
  cases c with
  | minting order payment =>
      simp only [Confirm.advance, mintGoods, minted_step] at h
      split at h
      · simp only [State.ticketsMinted, List.filter_append, List.map_append, List.mem_append] at h
        rcases h with hbefore | hnow
        · exact .inl hbefore
        · obtain ⟨minted, hminted, rfl⟩ := List.mem_map.mp hnow
          obtain rfl := List.mem_singleton.mp (List.mem_filter.mp hminted).1
          exact .inr (List.mem_singleton_self _)
      · exact .inl h
  | lookingUp body =>
      refine .inl ?_
      simp only [Confirm.advance, lookUp] at h
      split at h
      · split at h
        · simp only [consumeFor] at h
          split at h <;> exact h
        · exact h
      · exact h
      · exact h
  | submitting order signedXdr payment =>
      refine .inl ?_
      simp only [Confirm.advance, submitSignedXdr] at h
      split at h
      · exact h
      · split at h
        · exact h
        · split at h
          · exact h
          · rwa [minted_step] at h
  | polling order payment left =>
      simp only [Confirm.advance, pollTransaction, minted_step] at h
      exact .inl h
  | recording order mint =>
      refine .inl ?_
      simp only [Confirm.advance, recordSale, minted_step, State.sold] at h
      split at h
      · split at h <;> exact h
      · exact h
  | rewarding fanId =>
      refine .inl ?_
      simp only [Confirm.advance, rewardFan, minted_step] at h
      split at h <;> exact h
  | answered response => exact .inl h
  | lost => exact .inl h

/-! ### What a preparation does -/

/-- What one step of a preparation does to the claims: `stored` gets one. -/
structure Stores (stored : Option TxHash) (s s' : State) : Prop where
  live : s'.liveTickets.Subperm (s.liveTickets ++ stored.toList)
  minted : s'.ticketsMinted = s.ticketsMinted
  successful : s'.successful = s.successful
  prepared : s'.prepared = stored.toList ++ s.prepared

theorem stores_nothing : Stores none s s :=
  ⟨by simpa using List.Subperm.refl s.liveTickets, rfl, rfl, rfl⟩

theorem stores_keepIntent {id : String} {preparation : Preparation} {tx : Transaction} :
    Stores (if preparation.kind.isTicket then some (net.hash tx) else none) s
      (s.keepIntent net id preparation tx) := by
  have hfewer : ({ s with intents := withoutIntent id s.intents } : State).liveTickets.Subperm s.liveTickets :=
    liveTickets_subperm List.filter_sublist.subperm
  have hadded : (s.keepIntent net id preparation tx).liveTickets =
      ({ s with intents := withoutIntent id s.intents } : State).liveTickets ++
        (if preparation.kind.isTicket then some (net.hash tx) else none).toList := by
    cases hticket : preparation.kind.isTicket <;>
      simp [State.liveTickets, State.keepIntent, createTxIntent, withoutIntent, hticket]
  constructor
  · rw [hadded]
    exact hfewer.append (.refl _)
  · rfl
  · rfl
  · simp only [State.keepIntent]
    split <;> rfl

theorem stores_advance {p : Prepare} : Stores (p.stores net o s) s (p.advance net mode o s).2 := by
  cases p with
  | lookingUp body =>
      simp only [Prepare.advance, Prepare.stores]
      split <;> exact stores_nothing
  | fetchingAccount preparation =>
      simp only [Prepare.advance, Prepare.stores]
      cases o.account with
      | answers _ =>
          cases preparation.simulated with
          | true =>
              simp only [Bool.not_true, Bool.and_false, Bool.false_eq_true, if_false, if_true]
              exact stores_nothing
          | false =>
              simp only [Bool.not_false, Bool.and_true, Bool.false_eq_true, if_false]
              exact stores_keepIntent
      | throws _ => exact stores_nothing
      | restarts _ => exact stores_nothing
  | simulating preparation tx =>
      simp only [Prepare.advance, Prepare.stores]
      cases o.prepare with
      | answers _ => exact stores_keepIntent
      | throws _ => exact stores_nothing
      | restarts _ => exact stores_nothing
  | answered response => exact stores_nothing

/-! ### Runs -/

/-- Claims are distinct, stand for prepared transactions, and are used up by payments that have succeeded. -/
structure Inv (w : World) : Prop where
  distinct : w.claims.Nodup
  prepared : ∀ txHash ∈ w.claims, txHash ∈ w.state.prepared
  paid : ∀ txHash ∈ w.state.ticketsMinted, txHash ∈ w.state.successful
  found : ∀ c, .confirm c ∈ w.processes → ∀ txHash ∈ c.found, txHash ∈ w.state.successful

variable {w w' : World}

/-- Fewer claims. -/
theorem Inv.fewer (h : Inv w) (hclaims : w'.claims.Subperm w.claims)
    (hprepared : w'.state.prepared = w.state.prepared)
    (hpaid : ∀ txHash ∈ w'.state.ticketsMinted, txHash ∈ w'.state.successful)
    (hfound : ∀ c, .confirm c ∈ w'.processes → ∀ txHash ∈ c.found, txHash ∈ w'.state.successful) : Inv w' where
  distinct := nodup_subperm hclaims h.distinct
  prepared := by
    intro txHash ht
    rw [hprepared]
    exact h.prepared txHash (hclaims.subset ht)
  paid := hpaid
  found := hfound

/-- One process's claims, and everybody else's. -/
theorem claims_perm {live minted mine others : List TxHash} :
    (live ++ ((mine ++ others) ++ minted)).Perm ((live ++ (mine ++ minted)) ++ others) := by
  rw [List.append_assoc, List.append_assoc, List.append_assoc]
  exact ((List.perm_append_comm.append_left mine)).append_left live

/-- **A confirmation steps.** -/
theorem Inv.go_confirm (h : Inv w) {i : Nat} (hi : w.processes[i]? = some (.confirm c))
    (hpossible : c.Possible o w.state) :
    Inv ⟨(c.advance net o w.state).2, w.processes.set i (.confirm (c.advance net o w.state).1)⟩ := by
  obtain ⟨others, hhere, hset⟩ := exists_custody Process.claims hi
  have hchain : SameChain w.state (c.advance net o w.state).2 := sameChain_advance
  obtain ⟨hprepared, hsuccessful⟩ := hchain
  have hmine : .confirm c ∈ w.processes := List.mem_of_getElem? hi
  refine h.fewer ?_ hprepared (fun txHash ht => ?_) fun c' hc' txHash ht => ?_
  · have hold : w.claims.Perm (c.held w.state ++ others) :=
      ((hhere.append_right _).append_left _).trans claims_perm
    have hnew := ((hset (.confirm (c.advance net o w.state).1)).append_right
      (c.advance net o w.state).2.ticketsMinted).append_left (c.advance net o w.state).2.liveTickets
    exact ((hnew.trans claims_perm).subperm.trans (held_advance.append (.refl others))).trans hold.symm.subperm
  · rw [hsuccessful]
    rcases minted_advance ht with hbefore | hfound
    · exact h.paid txHash hbefore
    · exact h.found c hmine txHash hfound
  · rw [hsuccessful]
    rcases List.mem_or_eq_of_mem_set hc' with hbefore | hnow
    · exact h.found c' hbefore txHash ht
    · obtain rfl := Process.confirm.inj hnow
      exact found_advance hpossible ht

/-- **The server restarts**, with the state that a step has left. -/
theorem Inv.go_lost (h : Inv w) {i : Nat} (hi : w.processes[i]? = some (.confirm c))
    (hpossible : c.Possible o w.state) : Inv ⟨(c.advance net o w.state).2, []⟩ := by
  have hstepped : Inv ⟨(c.advance net o w.state).2,
      w.processes.set i (.confirm (c.advance net o w.state).1)⟩ := h.go_confirm hi hpossible
  refine hstepped.fewer ?_ rfl hstepped.paid fun c' hc' => by cases hc'
  exact ((List.sublist_append_right _ _).append_left _).subperm

/-- **A preparation steps**, and stores an intent for a fresh transaction only. -/
theorem Inv.go_prepare (h : Inv w) {i : Nat} {p : Prepare} (hi : w.processes[i]? = some (.prepare p))
    (hfresh : Unclaimed w.claims (p.stores net o w.state)) :
    Inv ⟨(p.advance net mode o w.state).2, w.processes.set i (.prepare (p.advance net mode o w.state).1)⟩ := by
  obtain ⟨others, hhere, hset⟩ := exists_custody Process.claims hi
  have hstores : Stores (p.stores net o w.state) w.state (p.advance net mode o w.state).2 := stores_advance
  have hclaims : (World.mk (p.advance net mode o w.state).2
      (w.processes.set i (.prepare (p.advance net mode o w.state).1))).claims.Subperm
        ((p.stores net o w.state).toList ++ w.claims) := by
    have hprocesses := (hset (.prepare (p.advance net mode o w.state).1)).trans hhere.symm
    have hall := hstores.live.append (hprocesses.append_right w.state.ticketsMinted).subperm
    rw [World.claims, hstores.minted]
    refine hall.trans ((List.perm_append_comm.append_right _).trans ?_).subperm
    rw [List.append_assoc]
    exact .refl _
  constructor
  · refine nodup_subperm hclaims ?_
    cases hstored : p.stores net o w.state with
    | none => exact h.distinct
    | some txHash =>
        rw [hstored] at hfresh
        exact List.nodup_cons.mpr ⟨hfresh, h.distinct⟩
  · intro txHash ht
    rw [hstores.prepared]
    rcases List.mem_append.mp (hclaims.subset ht) with hnow | hbefore
    · exact List.mem_append_left _ hnow
    · exact List.mem_append_right _ (h.prepared txHash hbefore)
  · intro txHash ht
    rw [hstores.minted] at ht
    rw [hstores.successful]
    exact h.paid txHash ht
  · intro c hc
    rw [hstores.successful]
    rcases List.mem_or_eq_of_mem_set hc with hbefore | hnow
    · exact h.found c hbefore
    · cases hnow

/-- A request arrives, without claims. -/
theorem Inv.arrives (h : Inv w) {p : Process} (hclaims : p.claims = [])
    (hfound : ∀ c, p = .confirm c → c.found = []) : Inv { w with processes := w.processes ++ [p] } := by
  have hsame : World.claims { w with processes := w.processes ++ [p] } = w.claims := by
    simp [World.claims, hclaims]
  refine h.fewer (hsame ▸ .refl _) rfl h.paid fun c hc txHash ht => ?_
  rcases List.mem_append.mp hc with hbefore | hnow
  · exact h.found c hbefore txHash ht
  · rw [hfound c (List.mem_singleton.mp hnow).symm] at ht
    cases ht

/-- Time passes, and intents expire. -/
theorem Inv.tick (h : Inv w) {elapsed : Nat} :
    Inv { w with state := { w.state with clock := w.state.clock + elapsed } } := by
  refine h.fewer ?_ rfl h.paid h.found
  refine List.Subperm.append (List.Sublist.map _ ?_).subperm (.refl _)
  refine List.monotone_filter_right _ fun i hi => ?_
  simp only [Bool.and_eq_true, decide_eq_true_eq] at hi ⊢
  exact ⟨hi.1, by omega⟩

/-- The chain goes on. -/
theorem Inv.included (h : Inv w) {txHash : TxHash} {tx : Transaction} {success : Bool} :
    Inv { w with state := w.state.includes txHash tx success } := by
  have hmore : ∀ t ∈ w.state.successful, t ∈ (w.state.includes txHash tx success).successful := by
    intro t ht
    simp only [State.includes]
    split
    · exact List.mem_cons_of_mem _ ht
    · exact ht
  exact h.fewer (.refl _) rfl (fun t ht => hmore t (h.paid t ht)) fun c hc t ht => hmore t (h.found c hc t ht)

theorem Inv.restart (h : Inv w) : Inv ⟨w.state.restarted, []⟩ := by
  refine h.fewer ?_ rfl h.paid fun c hc => by cases hc
  exact ((List.sublist_append_right _ _).trans (List.sublist_append_right _ _)).subperm

/-- **Every step keeps the invariant.** -/
theorem Inv.step {m : Move} (h : Inv w) (hs : w.Step net mode m w') : Inv w' := by
  obtain ⟨hstep, hfresh⟩ := hs
  cases m with
  | prepareBuy body =>
      obtain rfl := Option.some.inj hstep
      exact h.arrives rfl fun c hc => by cases hc
  | confirmBuy body =>
      obtain rfl := Option.some.inj hstep
      have hbegins : (confirmBuy body).claims = [] ∧ (confirmBuy body).found = [] := by
        unfold confirmBuy
        split <;> exact ⟨rfl, rfl⟩
      refine h.arrives hbegins.1 fun c hc => ?_
      rw [← Process.confirm.inj hc]
      exact hbegins.2
  | go i o =>
      simp only [World.step, World.go] at hstep
      cases hi : w.processes[i]? with
      | none => simp [hi] at hstep
      | some process =>
          cases process with
          | prepare p =>
              simp only [hi] at hstep
              obtain rfl := Option.some.inj hstep
              simp only [Fresh, World.stores, hi] at hfresh
              exact h.go_prepare hi hfresh
          | confirm c =>
              simp only [hi] at hstep
              by_cases hpossible : c.Possible o w.state
              · rw [if_neg (not_not.mpr hpossible)] at hstep
                split at hstep
                · obtain rfl := Option.some.inj hstep
                  exact h.go_lost hi hpossible
                · obtain rfl := Option.some.inj hstep
                  exact h.go_confirm hi hpossible
              · rw [if_pos hpossible] at hstep
                cases hstep
  | included tx success =>
      simp only [World.step] at hstep
      split at hstep
      · obtain rfl := Option.some.inj hstep
        exact h.included
      · cases hstep
  | tick elapsed =>
      obtain rfl := Option.some.inj hstep
      exact h.tick
  | restart =>
      obtain rfl := Option.some.inj hstep
      exact h.restart

/-- The server before its first request. -/
structure World.Initial (w : World) : Prop where
  intents : w.state.intents = []
  prepared : w.state.prepared = []
  minted : w.state.minted = []
  processes : w.processes = []

theorem inv_initial (h : w.Initial) : Inv w := by
  have hclaims : w.claims = [] := by
    simp [World.claims, State.liveTickets, State.ticketsMinted, h.intents, h.minted, h.processes]
  have hminted : w.state.ticketsMinted = [] := by simp [State.ticketsMinted, h.minted]
  constructor
  · rw [hclaims]
    exact List.nodup_nil
  · rw [hclaims]
    exact fun txHash ht => by cases ht
  · rw [hminted]
    exact fun txHash ht => by cases ht
  · rw [h.processes]
    exact fun c hc => by cases hc

/-- **One payment, one ticket**: over every run, no more tickets are minted than payments for them have
succeeded. -/
theorem tickets_le_payments {w₀ : World} (h₀ : w₀.Initial) {moves : List Move}
    (hrun : Run (World.Step net mode) w₀ moves w) :
    w.state.ticketsMinted.length ≤ w.state.payments.length := by
  have h : Inv w := hrun.invariant (fun _ _ _ hw hs => hw.step hs) (inv_initial h₀)
  have hminted : w.state.ticketsMinted.Nodup :=
    h.distinct.sublist ((List.sublist_append_right _ _).trans (List.sublist_append_right _ _))
  refine length_le_of_custody hminted fun txHash ht => List.mem_filter.mpr ⟨h.paid txHash ht, ?_⟩
  exact decide_eq_true (h.prepared txHash (List.mem_append_right _ (List.mem_append_right _ ht)))

/-! A fan who buys a gold ticket, once or twice. -/

def opened : World := ⟨{ shop with intents := [], prepared := [] }, []⟩

/-- A preparation under the given identifier, by the process of the given number. -/
def prepareGold (process : Nat) (id : String) : List Move :=
  [.prepareBuy ⟨.ticket "Gold" "", "fan", "GFAN", "usdc"⟩, .go process { smoothly with intentId := id },
    .go process { smoothly with intentId := id }]

/-- The confirmation of that intent, up to the submission. -/
def submitGold (process : Nat) (id : String) (status : SendStatus) : List Move :=
  [.confirmBuy { goldTicket with intentId := id }, .go process smoothly,
    .go process { smoothly with send := .answers status }]

/-- The rest of it. -/
def completeGold (process : Nat) : List Move :=
  [.go process smoothly, .go process smoothly, .go process smoothly]

def buyOnce : List Move :=
  prepareGold 0 "first" ++ submitGold 1 "first" .pending ++ [.included goldPayment true] ++ completeGold 1

def buyTwice : List Move :=
  prepareGold 0 "first" ++ prepareGold 1 "second" ++ submitGold 2 "first" .pending ++
    [.included goldPayment true] ++ completeGold 2 ++ submitGold 3 "second" .duplicate ++ completeGold 3

def liveMode : Mode := ⟨true, true⟩

theorem one_ticket_for_one_payment : ∃ w : World, w.state.ticketsMinted.length = 1 ∧
    w.state.ticketsMinted.length ≤ w.state.payments.length := by
  have h : (buyOnce.foldlM (fun w m => if Fresh testNetwork w m then w.step testNetwork liveMode m else none)
      opened).any (fun w => w.state.ticketsMinted.length = 1) = true := by decide +kernel
  obtain ⟨w, hw, hminted⟩ := (Option.any_eq_true _ _).mp h
  exact ⟨w, of_decide_eq_true hminted, tickets_le_payments ⟨rfl, rfl, rfl, rfl⟩ (Run.of_foldlM hw)⟩

/-- **Two tickets for one payment**: prepared within one second, confirmed one after the other. -/
theorem two_tickets_for_one_payment : ∃ w : World,
    Run (fun w m w' => w.step testNetwork liveMode m = some w') opened buyTwice w ∧
      w.state.ticketsMinted.length = 2 ∧ w.state.payments.length = 1 := by
  have h : (buyTwice.foldlM (fun w m => if True then w.step testNetwork liveMode m else none)
      opened).any (fun w => w.state.ticketsMinted.length = 2 && w.state.payments.length = 1) = true := by
    decide +kernel
  obtain ⟨w, hw, hminted⟩ := (Option.any_eq_true _ _).mp h
  simp only [Bool.and_eq_true, decide_eq_true_eq] at hminted
  exact ⟨w, (Run.of_foldlM hw).mono fun _ _ _ hstep => hstep.1, hminted⟩

end CrownFi.Web
