import CrownFi.Commerce.Confirmation
import CrownFi.Commerce.Bystanders

/-!
# CrownFi.Commerce.OpenIntents

**What an open intent relies on.** An intent is open until it is confirmed or gives up: somebody may
still sign it, or has signed it, and the payment may be on its way. Its attempt is active then, and its
order awaits the payment. An order has one active attempt, and an attempt one open intent, so the
confirmation of a payment takes nothing from another. What does is the expiry sweep, which looks at the
hold and not at the intents; the condition `SparesOpen` keeps it from orders with an open intent. A
new intent needs the lock of its order, so the sweep, which has it too, meets none on its way to the
commit.
-/

namespace CrownFi.Commerce.OpenIntents

open Lib CrownFi.Api Ticketing Orders Intents Reconciliation

/-! ### Open intents -/

/-- Not confirmed, and not given up. -/
abbrev Open (i : TransactionIntent) : Prop := IntentStatus.active i.status = true

abbrev Active (a : PaymentAttempt) : Prop := AttemptStatus.active a.status = true

/-- The attempt of the intent is active, and its order awaits the payment. -/
structure Awaits (db : Database) (i : TransactionIntent) : Prop where
  attempt : ∃ a, attemptTable.find db i.paymentAttemptId = some a ∧ a.orderId = i.orderId ∧ Active a
  order : ∃ o, orderTable.find db i.orderId = some o ∧ o.status = .awaitingPayment

theorem Awaits.keep {db db' : Database} {i : TransactionIntent} (h : Awaits db i)
    (ha : db'.attempts = db.attempts) (ho : db'.orders = db.orders) : Awaits db' i where
  attempt := by
    show ∃ a, db'.attempts.find? _ = _ ∧ _
    rw [ha]
    exact h.attempt
  order := by
    show ∃ o, db'.orders.find? _ = _ ∧ _
    rw [ho]
    exact h.order

structure Awaited (db : Database) : Prop where
  attemptIds : (db.attempts.map (·.id)).Nodup
  intentIds : (db.intents.map (·.id)).Nodup
  transactionIds : (db.transactions.map (·.id)).Nodup
  oneAttempt : ∀ a ∈ db.attempts, ∀ b ∈ db.attempts, a.orderId = b.orderId → Active a → Active b →
    a.id = b.id
  oneIntent : ∀ i ∈ db.intents, ∀ j ∈ db.intents, i.paymentAttemptId = j.paymentAttemptId →
    Open i → Open j → i.id = j.id
  awaits : ∀ i ∈ db.intents, Open i → Awaits db i

/-- No open intent of the order. -/
def NoneOf (orderId : Uuid) (db : Database) : Prop := ∀ i ∈ db.intents, i.orderId = orderId → ¬ Open i

/-- When the sweep updates an order that awaits its payment, no intent of the order is open. -/
def SparesOpen (site : Site) (db : Database) : Prop :=
  ∀ id, site = .sweepOrder id → ∀ o ∈ db.orders, o.id = id → o.status = .awaitingPayment → NoneOf id db

/-- What may become active or open. -/
structure Opens (attempts : PaymentAttempt → Prop) (intents : TransactionIntent → Prop)
    (db db' : Database) : Prop where
  attempts : ∀ a' ∈ db'.attempts, Active a' →
    attempts a' ∨ ∃ a ∈ db.attempts, a.orderId = a'.orderId ∧ Active a
  intents : ∀ i' ∈ db'.intents, Open i' → intents i' ∨ ∃ i ∈ db.intents, i.orderId = i'.orderId ∧
    i.paymentAttemptId = i'.paymentAttemptId ∧ Open i

section Opens

variable {attempts attempts' : PaymentAttempt → Prop} {intents intents' : TransactionIntent → Prop}
  {db db' : Database}

instance : IsPreorder Database (Opens (fun _ => False) fun _ => False) where
  refl db := ⟨fun a ha hactive => .inr ⟨a, ha, rfl, hactive⟩, fun i hi hopen => .inr ⟨i, hi, rfl, rfl, hopen⟩⟩
  trans a b c h h' := by
    refine ⟨fun a'' ha'' hactive => ?_, fun i'' hi'' hopen => ?_⟩
    · obtain ⟨a', ha', ho', hactive'⟩ := (h'.attempts a'' ha'' hactive).resolve_left id
      obtain ⟨a, ha, ho, hactive⟩ := (h.attempts a' ha' hactive').resolve_left id
      exact .inr ⟨a, ha, ho.trans ho', hactive⟩
    · obtain ⟨i', hi', ho', hp', hopen'⟩ := (h'.intents i'' hi'' hopen).resolve_left id
      obtain ⟨i, hi, ho, hp, hopen⟩ := (h.intents i' hi' hopen').resolve_left id
      exact .inr ⟨i, hi, ho.trans ho', hp.trans hp', hopen⟩

theorem Opens.mono (h : Opens attempts intents db db') (ha : ∀ a, attempts a → attempts' a)
    (hi : ∀ i, intents i → intents' i) : Opens attempts' intents' db db' where
  attempts a' ha' hactive := (h.attempts a' ha' hactive).imp_left (ha a')
  intents i' hi' hopen := (h.intents i' hi' hopen).imp_left (hi i')

end Opens

/-- Nothing becomes active or open. -/
abbrev Quiet : Database → Database → Prop := Opens (fun _ => False) fun _ => False

/-- Whoever makes an attempt active has its order's place, and whoever opens an intent has the order
and the attempt's place. -/
abbrev Moves (L : List (Lock Row)) : Database → Database → Prop :=
  Opens (fun a => Written L (.activeAttemptOf a.orderId)) fun i =>
    Written L (.order i.orderId) ∧ Written L (.activeIntentOf i.paymentAttemptId)

theorem Opens.moves {db db' : Database} (h : Quiet db db') (L : List (Lock Row)) : Moves L db db' :=
  h.mono (fun _ => False.elim) fun _ => False.elim

/-- Attempts and intents as they were. -/
theorem quiet_of_same {db db' : Database} (ha : db'.attempts = db.attempts)
    (hi : db'.intents = db.intents) : Quiet db db' where
  attempts a' ha' hactive := .inr ⟨a', ha ▸ ha', rfl, hactive⟩
  intents i' hi' hopen := .inr ⟨i', hi ▸ hi', rfl, rfl, hopen⟩

/-! ### What the changes of the tables preserve -/

section Changes

variable {db view : Database}

/-- A change of orders after which those that awaited a payment still do, where an intent is open. -/
theorem Awaited.changeOrders {db' : Database} (h : Awaited db) (ha : db'.attempts = db.attempts)
    (hi : db'.intents = db.intents) (ht : db'.transactions = db.transactions)
    (horders : ∀ id o, orderTable.find db id = some o → o.status = .awaitingPayment →
      (∃ i ∈ db.intents, i.orderId = id ∧ Open i) →
      ∃ o', orderTable.find db' id = some o' ∧ o'.status = .awaitingPayment) : Awaited db' where
  attemptIds := ha ▸ h.attemptIds
  intentIds := hi ▸ h.intentIds
  transactionIds := ht ▸ h.transactionIds
  oneAttempt := ha ▸ h.oneAttempt
  oneIntent := hi ▸ h.oneIntent
  awaits i hmem hopen := by
    rw [hi] at hmem
    obtain ⟨⟨a, hfind, hattempt⟩, o, ho, hstatus⟩ := h.awaits i hmem hopen
    refine ⟨⟨a, ?_, hattempt⟩, horders _ o ho hstatus ⟨i, hmem, rfl, hopen⟩⟩
    show db'.attempts.find? _ = _
    rw [ha]
    exact hfind

/-- A change of other tables. -/
theorem Awaited.of_same {db' : Database} (h : Awaited db) (ho : db'.orders = db.orders)
    (ha : db'.attempts = db.attempts) (hi : db'.intents = db.intents)
    (ht : db'.transactions = db.transactions) : Awaited db' := by
  refine h.changeOrders ha hi ht fun id o hfind hstatus _ => ⟨o, ?_, hstatus⟩
  show db'.orders.find? _ = _
  rw [ho]
  exact hfind

/-- An update of orders that spares those with an open intent. -/
theorem Awaited.moveOrders {p : Order → Bool} {status : OrderStatus} (h : Awaited db)
    (hspares : ∀ o ∈ db.orders, p o = true → o.id ∈ (orderTable.matching p view).map (·.id) →
      o.status = .awaitingPayment → NoneOf o.id db) : Awaited (setOrders p status view db) := by
  refine h.changeOrders rfl rfl rfl fun id o ho hstatus hopen => ?_
  rw [find_setOrders, ho, Option.map_some]
  refine ⟨_, rfl, ?_⟩
  split
  · rename_i hcond
    obtain ⟨hp, hmem⟩ := Bool.and_eq_true_iff.mp hcond
    obtain ⟨hin, hid⟩ := orderTable.find_mem ho
    obtain ⟨i, hi, hio, hopen⟩ := hopen
    have hnone := hspares o hin hp (of_decide_eq_true hmem) hstatus
    exact absurd hopen (hnone i hi (hio.trans hid.symm))
  · exact hstatus

theorem Awaited.addOrder {o : Order} (h : Awaited db) : Awaited (orderTable.add o db) :=
  h.changeOrders rfl rfl rfl fun _ o' ho' hstatus _ => ⟨o', orderTable.find_add_of_some ho', hstatus⟩

theorem Awaited.addAttempt {a : PaymentAttempt} (h : Awaited db)
    (hnew : attemptTable.find db a.id = none)
    (hnone : ∀ b ∈ db.attempts, b.orderId = a.orderId → ¬ Active b) :
    Awaited (attemptTable.add a db) where
  attemptIds := attemptTable.nodup_add h.attemptIds (attemptTable.find_none hnew)
  intentIds := h.intentIds
  transactionIds := h.transactionIds
  oneAttempt b hb c hc horder hactive hactive' := by
    rcases List.mem_append.mp hb with hold | hnew <;> rcases List.mem_append.mp hc with hold' | hnew'
    · exact h.oneAttempt b hold c hold' horder hactive hactive'
    · rw [List.mem_singleton.mp hnew'] at horder
      exact absurd hactive (hnone b hold horder)
    · rw [List.mem_singleton.mp hnew] at horder
      exact absurd hactive' (hnone c hold' horder.symm)
    · rw [List.mem_singleton.mp hnew, List.mem_singleton.mp hnew']
  oneIntent := h.oneIntent
  awaits i hi hopen := by
    obtain ⟨⟨b, hfind, hattempt⟩, horder⟩ := h.awaits i hi hopen
    exact ⟨⟨b, attemptTable.find_add_of_some hfind, hattempt⟩, horder⟩

theorem Awaited.addIntent {i : TransactionIntent} (h : Awaited db)
    (hnew : intentTable.find db i.id = none)
    (hnone : ∀ j ∈ db.intents, j.paymentAttemptId = i.paymentAttemptId → ¬ Open j)
    (hawaits : Awaits db i) : Awaited (intentTable.add i db) where
  attemptIds := h.attemptIds
  intentIds := intentTable.nodup_add h.intentIds (intentTable.find_none hnew)
  transactionIds := h.transactionIds
  oneAttempt := h.oneAttempt
  oneIntent j hj l hl hattempt hopen hopen' := by
    rcases List.mem_append.mp hj with hold | hnew <;> rcases List.mem_append.mp hl with hold' | hnew'
    · exact h.oneIntent j hold l hold' hattempt hopen hopen'
    · rw [List.mem_singleton.mp hnew'] at hattempt
      exact absurd hopen (hnone j hold hattempt)
    · rw [List.mem_singleton.mp hnew] at hattempt
      exact absurd hopen' (hnone l hold' hattempt.symm)
    · rw [List.mem_singleton.mp hnew, List.mem_singleton.mp hnew']
  awaits j hj hopen := by
    rcases List.mem_append.mp hj with hj | hj
    · exact (h.awaits j hj hopen).keep rfl rfl
    · rw [List.mem_singleton.mp hj]
      exact hawaits.keep rfl rfl

theorem Awaited.addTransaction {t : StellarTransaction} (h : Awaited db)
    (hnew : transactionTable.find db t.id = none) : Awaited (transactionTable.add t db) where
  attemptIds := h.attemptIds
  intentIds := h.intentIds
  transactionIds := transactionTable.nodup_add h.transactionIds (transactionTable.find_none hnew)
  oneAttempt := h.oneAttempt
  oneIntent := h.oneIntent
  awaits i hi hopen := (h.awaits i hi hopen).keep rfl rfl

theorem Awaited.modifyTransactions {p : StellarTransaction → Bool}
    {f : StellarTransaction → StellarTransaction} (h : Awaited db) (hid : ∀ t, (f t).id = t.id) :
    Awaited (transactionTable.modify p f view db) where
  attemptIds := h.attemptIds
  intentIds := h.intentIds
  transactionIds := by
    have hids : (transactionTable.modify p f view db).transactions.map (·.id) =
        db.transactions.map (·.id) := transactionTable.keys_modify hid
    exact hids ▸ h.transactionIds
  oneAttempt := h.oneAttempt
  oneIntent := h.oneIntent
  awaits i hi hopen := (h.awaits i hi hopen).keep rfl rfl

/-- An update of intents that opens none. -/
theorem Awaited.modifyIntents {p : TransactionIntent → Bool} {f : TransactionIntent → TransactionIntent}
    (h : Awaited db) (hid : ∀ i, (f i).id = i.id) (horder : ∀ i, (f i).orderId = i.orderId)
    (hattempt : ∀ i, (f i).paymentAttemptId = i.paymentAttemptId)
    (hopen : ∀ i ∈ db.intents, p i = true → Open (f i) → Open i) :
    Awaited (intentTable.modify p f view db) ∧ Quiet db (intentTable.modify p f view db) := by
  -- an open intent was open before
  have hbefore (i' : TransactionIntent) (hi' : i' ∈ (intentTable.modify p f view db).intents)
      (hopen' : Open i') : ∃ i ∈ db.intents, i.id = i'.id ∧ i.orderId = i'.orderId ∧
        i.paymentAttemptId = i'.paymentAttemptId ∧ Open i := by
    rcases intentTable.mem_modify hi' with hi | ⟨i, hi, hp, rfl⟩
    · exact ⟨i', hi, rfl, rfl, rfl, hopen'⟩
    · exact ⟨i, hi, (hid i).symm, (horder i).symm, (hattempt i).symm, hopen i hi hp hopen'⟩
  refine ⟨⟨h.attemptIds, ?_, h.transactionIds, h.oneAttempt, ?_, ?_⟩,
    ⟨fun a ha hactive => .inr ⟨a, ha, rfl, hactive⟩, fun i' hi' hopen' => ?_⟩⟩
  · have hids : (intentTable.modify p f view db).intents.map (·.id) = db.intents.map (·.id) :=
      intentTable.keys_modify hid
    exact hids ▸ h.intentIds
  · intro i' hi' j' hj' hsame hopen' hopen''
    obtain ⟨i, hi, hii, -, hia, hiopen⟩ := hbefore i' hi' hopen'
    obtain ⟨j, hj, hji, -, hja, hjopen⟩ := hbefore j' hj' hopen''
    rw [← hii, ← hji]
    exact h.oneIntent i hi j hj (hia.trans (hsame.trans hja.symm)) hiopen hjopen
  · intro i' hi' hopen'
    obtain ⟨i, hi, -, hio, hia, hiopen⟩ := hbefore i' hi' hopen'
    obtain ⟨hattempt, horder⟩ := h.awaits i hi hiopen
    rw [hia, hio] at hattempt
    rw [hio] at horder
    exact ⟨hattempt, horder⟩
  · obtain ⟨i, hi, -, hio, hia, hiopen⟩ := hbefore i' hi' hopen'
    exact .inr ⟨i, hi, hio, hia, hiopen⟩

/-- An update of attempts that have no open intent, and that makes none active. -/
theorem Awaited.modifyAttempts {p : PaymentAttempt → Bool} {f : PaymentAttempt → PaymentAttempt}
    (h : Awaited db) (hid : ∀ a, (f a).id = a.id) (horder : ∀ a, (f a).orderId = a.orderId)
    (hactive : ∀ a, Active (f a) → Active a)
    (hnone : ∀ a, p a = true → ∀ i ∈ db.intents, i.paymentAttemptId = a.id → ¬ Open i) :
    Awaited (attemptTable.modify p f view db) ∧ Quiet db (attemptTable.modify p f view db) := by
  have hbefore (a' : PaymentAttempt) (ha' : a' ∈ (attemptTable.modify p f view db).attempts)
      (hactive' : Active a') : ∃ a ∈ db.attempts, a.id = a'.id ∧ a.orderId = a'.orderId ∧ Active a := by
    rcases attemptTable.mem_modify ha' with ha | ⟨a, ha, -, rfl⟩
    · exact ⟨a', ha, rfl, rfl, hactive'⟩
    · exact ⟨a, ha, (hid a).symm, (horder a).symm, hactive a hactive'⟩
  refine ⟨⟨?_, h.intentIds, h.transactionIds, ?_, h.oneIntent, ?_⟩,
    ⟨fun a' ha' hactive' => ?_, fun i hi hopen => .inr ⟨i, hi, rfl, rfl, hopen⟩⟩⟩
  · have hids : (attemptTable.modify p f view db).attempts.map (·.id) = db.attempts.map (·.id) :=
      attemptTable.keys_modify hid
    exact hids ▸ h.attemptIds
  · intro a' ha' b' hb' hsame hactive' hactive''
    obtain ⟨a, ha, hai, hao, haactive⟩ := hbefore a' ha' hactive'
    obtain ⟨b, hb, hbi, hbo, hbactive⟩ := hbefore b' hb' hactive''
    rw [← hai, ← hbi]
    exact h.oneAttempt a ha b hb (hao.trans (hsame.trans hbo.symm)) haactive hbactive
  · intro i hi hopen
    obtain ⟨⟨a, hfind, hattempt⟩, hawaiting⟩ := h.awaits i hi hopen
    refine ⟨⟨a, ?_, hattempt⟩, hawaiting⟩
    have haid : a.id = i.paymentAttemptId := (attemptTable.find_mem hfind).2
    rw [attemptTable.find_modify hid, hfind, Option.map_some, if_neg]
    intro hcond
    exact hnone a (Bool.and_eq_true_iff.mp hcond).1 i hi haid.symm hopen
  · obtain ⟨a, ha, -, hao, haactive⟩ := hbefore a' ha' hactive'
    exact .inr ⟨a, ha, hao, haactive⟩

/-- **Once an open intent is closed**, no other is open for its attempt or for its order. -/
theorem Awaited.closed {p : TransactionIntent → Bool} {f : TransactionIntent → TransactionIntent}
    {i : TransactionIntent} (h : Awaited db) (hp : ∀ j, p j = true → j.id = i.id) (hpi : p i = true)
    (hi : intentTable.find db i.id = some i) (hview : intentTable.find view i.id = some i)
    (hopen : Open i) (hclosed : ¬ Open (f i)) :
    (∀ j ∈ (intentTable.modify p f view db).intents, j.paymentAttemptId = i.paymentAttemptId → ¬ Open j) ∧
      NoneOf i.orderId (intentTable.modify p f view db) := by
  have hmem : i ∈ db.intents := (intentTable.find_mem hi).1
  -- an open intent is another one, and was there before
  have hother (j : TransactionIntent) (hj : j ∈ (intentTable.modify p f view db).intents)
      (hjopen : Open j) : j ∈ db.intents ∧ j.id ≠ i.id := by
    obtain ⟨j₀, hj₀, heq⟩ := intentTable.mem_rows_modify.mp hj
    by_cases hji : j₀.id = i.id
    · obtain rfl : j₀ = i := List.inj_on_of_nodup_map h.intentIds hj₀ hmem hji
      have hviewed : j₀.id ∈ (intentTable.matching p view).map (·.id) :=
        List.mem_map_of_mem (intentTable.mem_matching.mpr ⟨(intentTable.find_mem hview).1, hpi⟩)
      have hj : j = f j₀ := heq.trans (if_pos (Bool.and_eq_true_iff.mpr ⟨hpi, decide_eq_true hviewed⟩))
      rw [hj] at hjopen
      exact absurd hjopen hclosed
    · have hnot : p j₀ ≠ true := fun hpj => hji (hp j₀ hpj)
      have hj : j = j₀ := heq.trans (if_neg fun hcond => hnot (Bool.and_eq_true_iff.mp hcond).1)
      rw [hj]
      exact ⟨hj₀, hji⟩
  refine ⟨fun j hj hattempt hjopen => ?_, fun j hj horder hjopen => ?_⟩
  · obtain ⟨hj₀, hne⟩ := hother j hj hjopen
    exact hne (h.oneIntent j hj₀ i hmem hattempt hjopen hopen)
  · -- two open intents of an order have the same attempt
    obtain ⟨hj₀, hne⟩ := hother j hj hjopen
    obtain ⟨⟨a, ha, hao, hactive⟩, -⟩ := h.awaits i hmem hopen
    obtain ⟨⟨b, hb, hbo, hactive'⟩, -⟩ := h.awaits j hj₀ hjopen
    obtain ⟨hamem, haid⟩ := attemptTable.find_mem ha
    obtain ⟨hbmem, hbid⟩ := attemptTable.find_mem hb
    have hsame : b.id = a.id :=
      h.oneAttempt b hbmem a hamem (hbo.trans (horder.trans hao.symm)) hactive' hactive
    exact hne (h.oneIntent j hj₀ i hmem (hbid.symm.trans (hsame.trans haid)) hjopen hopen)

end Changes

/-! ### What locks protect -/

inductive Part
  | order (o : Option Order)
  | attempt (a : Option PaymentAttempt)
  | intent (i : Option TransactionIntent)
  | transaction (t : Option StellarTransaction)
  | other

def part (db : Database) : Row → Part
  | .order id => .order (orderTable.find db id)
  | .attempt id => .attempt (attemptTable.find db id)
  | .intent id => .intent (intentTable.find db id)
  | .transaction id => .transaction (transactionTable.find db id)
  | _ => .other

theorem orderLayout : Layout part orderTable Part.order where
  row _ _ := rfl
  injective _ _ h := Part.order.inj h
  other db l k hk := by
    cases k with
    | order id => exact absurd rfl (hk id)
    | _ => rfl

theorem attemptLayout : Layout part attemptTable Part.attempt where
  row _ _ := rfl
  injective _ _ h := Part.attempt.inj h
  other db l k hk := by
    cases k with
    | attempt id => exact absurd rfl (hk id)
    | _ => rfl

theorem intentLayout : Layout part intentTable Part.intent where
  row _ _ := rfl
  injective _ _ h := Part.intent.inj h
  other db l k hk := by
    cases k with
    | intent id => exact absurd rfl (hk id)
    | _ => rfl

theorem transactionLayout : Layout part transactionTable Part.transaction where
  row _ _ := rfl
  injective _ _ h := Part.transaction.inj h
  other db l k hk := by
    cases k with
    | transaction id => exact absurd rfl (hk id)
    | _ => rfl

abbrev Outline : Prog Database Row Site Result → List (Lock Row) → (Database → Database) →
    (Database → Prop) → Prop :=
  Safe Awaited (Forward part Moves) SparesOpen

abbrev Tracks : List (Lock Row) → (Database → Database) → (Database → Prop) → Prop :=
  Track part Awaited Moves

abbrev Sound : (Database → Database) → (Database → Prop) → Prop := Keeps Awaited Quiet

/-! ### Requests that have nothing to do with intents -/

/-- Attempts, intents and transactions as they were, and orders that awaited a payment await it. -/
structure Beside (L : List (Lock Row)) (db db' : Database) : Prop where
  framed : Framed part L db db'
  attempts : db'.attempts = db.attempts
  intents : db'.intents = db.intents
  transactions : db'.transactions = db.transactions
  orders : ∀ id o, orderTable.find db id = some o → o.status = .awaitingPayment →
    ∃ o', orderTable.find db' id = some o' ∧ o'.status = .awaitingPayment

instance : Widening Beside where
  refl _ db := ⟨.refl, rfl, rfl, rfl, fun _ o ho hs => ⟨o, ho, hs⟩⟩
  trans L a b c h h' := by
    refine ⟨h.framed.trans h'.framed, h'.attempts.trans h.attempts, h'.intents.trans h.intents,
      h'.transactions.trans h.transactions, fun id o ho hs => ?_⟩
    obtain ⟨o', ho', hs'⟩ := h.orders id o ho hs
    exact h'.orders id o' ho' hs'
  mono _ _ _ _ hsub h := { h with framed := h.framed.mono hsub }

section Beside

variable {L : List (Lock Row)} {db db' : Database}

theorem Beside.awaited (h : Beside L db db') (hI : Awaited db) : Awaited db' :=
  hI.changeOrders h.attempts h.intents h.transactions fun id o ho hs _ => h.orders id o ho hs

theorem beside_of_same (ho : db'.orders = db.orders) (ha : db'.attempts = db.attempts)
    (hi : db'.intents = db.intents) (ht : db'.transactions = db.transactions) : Beside L db db' := by
  have hfind (id : Uuid) : orderTable.find db' id = orderTable.find db id := by
    show db'.orders.find? _ = db.orders.find? _
    rw [ho]
  refine ⟨fun k _ => ?_, ha, hi, ht, fun id o hfound hs => ⟨o, (hfind id).trans hfound, hs⟩⟩
  cases k with
  | order id => exact congrArg Part.order (hfind id)
  | attempt id => exact congrArg Part.attempt (congrArg (List.find? _) ha)
  | intent id => exact congrArg Part.intent (congrArg (List.find? _) hi)
  | transaction id => exact congrArg Part.transaction (congrArg (List.find? _) ht)
  | _ => rfl

theorem beside_addOrder {o : Order} (hlock : ⟨.order o.id, .update⟩ ∈ L) :
    Beside L db (orderTable.add o db) :=
  ⟨orderLayout.framed_add hlock, rfl, rfl, rfl,
    fun _ o' ho' hs => ⟨o', orderTable.find_add_of_some ho', hs⟩⟩

theorem beside_moveOrders {id : Uuid} {source target : OrderStatus} {view : Database}
    (hsource : source ≠ .awaitingPayment) :
    Beside ((orderTable.matching (movable id source) view).flatMap fun o => [⟨.order o.id, .noKeyUpdate⟩])
      db (setOrders (movable id source) target view db) := by
  refine ⟨orderLayout.framed_modify (f := ({ · with status := target })) (fun _ => rfl) fun o ho => ?_,
    rfl, rfl, rfl, fun id' o ho hs => ?_⟩
  · exact ⟨_, List.mem_flatMap.mpr ⟨o, ho, List.mem_singleton.mpr rfl⟩, rfl, rfl⟩
  · rw [find_setOrders, ho, Option.map_some]
    refine ⟨_, rfl, ?_⟩
    rw [if_neg]
    · exact hs
    · intro hcond
      obtain ⟨hp, -⟩ := Bool.and_eq_true_iff.mp hcond
      have hstatus : o.status = source := by simpa using (Bool.and_eq_true_iff.mp hp).2
      exact hsource (hstatus.symm.trans hs)

end Beside

theorem places_beside : Places Beside where
  inventory _ _ _ := beside_of_same rfl rfl rfl rfl
  orderItems _ _ _ := beside_of_same rfl rfl rfl rfl
  opens _ _ _ := beside_addOrder (by simp)

theorem issues_beside : Issues Beside where
  inventory _ _ _ := beside_of_same rfl rfl rfl rfl
  converts _ _ _ _ := beside_of_same rfl rfl rfl rfl
  issuances _ _ _ := beside_of_same rfl rfl rfl rfl
  ownership _ _ _ := beside_of_same rfl rfl rfl rfl
  prepares _ _ _ := beside_moveOrders (by decide)
  finishes _ _ _ := beside_moveOrders (by decide)

theorem beside_outline {p : Prog Database Row Site Result} (h : p.Confined SparesOpen Beside) :
    Outline p [] id fun _ => True :=
  h.safeRequest (fun _ _ _ hb hI => hb.awaited hI) fun L _ _ hb _ =>
    ⟨hb.framed, (quiet_of_same hb.attempts hb.intents).moves L⟩

theorem confined_environment (directory : Directory) (catalogue : Catalogue) :
    (environment directory catalogue).request.Confined SparesOpen Beside := by
  refine bounded_request ?_
  refine .bind (.write fun _ _ => beside_of_same rfl rfl rfl rfl) fun _ => ?_
  exact .bind .commit fun _ => .pure

theorem hidden {ι α : Type} {T : Table Database Row ι α}
    (h : ∀ db l, (T.put db l).orders = db.orders ∧ (T.put db l).attempts = db.attempts ∧
      (T.put db l).intents = db.intents ∧ (T.put db l).transactions = db.transactions) :
    Hidden part Awaited Quiet T where
  part_put db l k := by
    obtain ⟨ho, ha, hi, ht⟩ := h db l
    exact (beside_of_same (L := []) ho ha hi ht).framed k fun _ h => by cases h
  keeps db l hI := by
    obtain ⟨ho, ha, hi, ht⟩ := h db l
    exact ⟨hI.of_same ho ha hi ht, quiet_of_same ha hi⟩

/-! ### What the locks of a transaction keep closed -/

theorem stable_noneOf {L : List (Lock Row)} {id : Uuid} {m : LockMode} (hlock : ⟨.order id, m⟩ ∈ L)
    (hmode : m.protects = true) : Stable Awaited (Forward part Moves) L (NoneOf id) := by
  intro L' db db' hcompat _ _ hnone hG i hi horder hopen
  rcases hG.moved.intents i hi hopen with ⟨hwritten, -⟩ | ⟨i₀, hi₀, ho₀, -, hopen₀⟩
  · rw [horder] at hwritten
    exact (hcompat.not_writes hlock hmode).not_written hwritten
  · exact hnone i₀ hi₀ (ho₀.trans horder) hopen₀

/-- No open intent of the attempt. -/
def NoneFor (attemptId : Uuid) (db : Database) : Prop :=
  ∀ i ∈ db.intents, i.paymentAttemptId = attemptId → ¬ Open i

theorem stable_noneFor {L : List (Lock Row)} {id : Uuid} (hlock : ⟨.activeIntentOf id, .update⟩ ∈ L) :
    Stable Awaited (Forward part Moves) L (NoneFor id) := by
  intro L' db db' hcompat _ _ hnone hG i hi hattempt hopen
  rcases hG.moved.intents i hi hopen with ⟨-, hwritten⟩ | ⟨i₀, hi₀, -, ha₀, hopen₀⟩
  · rw [hattempt] at hwritten
    exact (hcompat.not_writes hlock rfl).not_written hwritten
  · exact hnone i₀ hi₀ (ha₀.trans hattempt) hopen₀

/-- No active attempt of the order. -/
def Unattempted (orderId : Uuid) (db : Database) : Prop :=
  ∀ a ∈ db.attempts, a.orderId = orderId → ¬ Active a

theorem stable_unattempted {L : List (Lock Row)} {id : Uuid}
    (hlock : ⟨.activeAttemptOf id, .update⟩ ∈ L) :
    Stable Awaited (Forward part Moves) L (Unattempted id) := by
  intro L' db db' hcompat _ _ hnone hG a ha horder hactive
  rcases hG.moved.attempts a ha hactive with hwritten | ⟨a₀, ha₀, ho₀, hactive₀⟩
  · rw [horder] at hwritten
    exact (hcompat.not_writes hlock rfl).not_written hwritten
  · exact hnone a₀ ha₀ (ho₀.trans horder) hactive₀

section Statements

variable {ext : External} {L : List (Lock Row)} {pending : Database → Database} {A : Database → Prop}

theorem safe_commitQuiet {k : PUnit → Prog Database Row Site Result} (ht : Tracks L pending A)
    (hk : Sound pending A) (next : Outline (k ⟨⟩) [] id fun _ => True) :
    Outline (Tx.commit k) L pending A :=
  ht.safe_commitWithin hk (fun _ _ h => h.moves _) next

theorem safe_requireEditor {organizationId userId : Uuid} {k : PUnit → Prog Database Row Site Result}
    (ht : Tracks L pending A) (next : Outline (k ⟨⟩) L pending A) :
    Outline (requireEditor organizationId userId k) L pending A := by
  unfold requireEditor
  refine safe_bind (safe_select ht.stable fun _ _ _ _ _ => ?_)
  exact safe_require fun _ => next

theorem safe_loadResponse {intentId : Uuid} {k : Option ReconciliationResult → Prog Database Row Site Result}
    (next : ∀ r, Outline (k r) [] id fun _ => True) :
    Outline (loadResponse intentId k) [] id fun _ => True := by
  unfold loadResponse
  refine safe_bind (safe_select stable_true fun _ _ _ _ _ => ?_)
  refine safe_bind (safe_require fun _ => ?_)
  exact safe_select stable_true fun _ r _ _ _ => next r

/-! ### The sweep and what is reserved behind it -/

/-- An update of a table that is not spoken of. -/
theorem safe_updateAside {ι α : Type} [DecidableEq ι] {T : Table Database Row ι α} {site : Site}
    {lock : α → List (Lock Row)} {p : α → Bool} {f : α → α} {check : Database → α → Option Result}
    {k : Nat → Prog Database Row Site Result}
    (hT : ∀ db l, (T.put db l).orders = db.orders ∧ (T.put db l).attempts = db.attempts ∧
      (T.put db l).intents = db.intents ∧ (T.put db l).transactions = db.transactions)
    (ht : Tracks L pending A) (hk : Sound pending A)
    (next : ∀ n L' pending' B, Tracks L' pending' B → Sound pending' B →
      (∀ d, (pending' d).intents = (pending d).intents) → Outline (k n) L' pending' B) :
    Outline (Tx.update site T lock p f check k) L pending A := by
  refine ht.safe_update fun db B _ _ _ h => ?_
  refine next _ _ _ B (h.track.hide fun d k => (hidden hT).part_put d _ k) ?_ fun d => (hT _ _).2.2.1
  exact (hk.mono h.before).change fun d _ _ hI => (hidden hT).keeps _ _ hI

/-- **The sweep takes no order from an open intent**, not even from one that is new when it commits. -/
theorem safe_sweepOrder {orderId : Uuid} {k : Nat → Prog Database Row Site Result}
    (ht : Tracks L pending A) (hk : Sound pending A) (hown : ∀ d, (pending d).intents = d.intents)
    (next : ∀ n L' pending' B, Tracks L' pending' B → Sound pending' B →
      (∀ d, (pending' d).intents = d.intents) → Outline (k n) L' pending' B) :
    Outline (Tx.update (.sweepOrder orderId) orderTable (fun o => [⟨.order o.id, .noKeyUpdate⟩])
      (sweepMatches orderId) ({ · with status := .expired }) (fun _ _ => none) k) L pending A := by
  have hnone {db d : Database} (h : (pending db).intents = d.intents) (hd : NoneOf orderId (pending db)) :
      NoneOf orderId d := by
    intro i hi
    exact hd i (h ▸ hi)
  refine ht.safe_updateLocking
    (fun view d => orderTable.matching (sweepMatches orderId) (pending view) ≠ [] → NoneOf orderId d)
    (fun db _ _ hok hne => ?_) (fun view => ?_) fun db B _ _ h hknown => ?_
  · obtain ⟨o, ho⟩ := List.exists_mem_of_ne_nil _ hne
    obtain ⟨hmem, hp⟩ := orderTable.mem_matching.mp ho
    obtain ⟨hid, hstatus⟩ := sweepMatches_iff.mp hp
    exact hnone (hown db) (hok orderId rfl o hmem hid hstatus)
  · intro L' d d' hcompat hI hI' hd hG hne
    obtain ⟨o, ho⟩ := List.exists_mem_of_ne_nil _ hne
    have hid : o.id = orderId := (sweepMatches_iff.mp (orderTable.mem_matching.mp ho).2).1
    refine stable_noneOf (m := .noKeyUpdate) ?_ rfl L' d d' hcompat hI hI' (hd hne) hG
    refine List.mem_append_right _ (List.mem_flatMap.mpr ⟨o, ho, ?_⟩)
    rw [hid]
    exact List.mem_singleton.mpr rfl
  · refine next _ _ _ B (h.track.modifyLocked orderLayout (f := ({ · with status := .expired }))
      (fun _ => rfl) fun o => ⟨_, List.mem_singleton.mpr rfl, rfl, rfl⟩) ?_ hown
    refine (hk.mono h.before).change fun d _ hd hI => ⟨?_, quiet_of_same rfl rfl⟩
    refine hI.moveOrders fun o _ hp hmem _ => ?_
    obtain ⟨hid, -⟩ := sweepMatches_iff.mp hp
    obtain ⟨o', ho', -⟩ := List.mem_map.mp hmem
    have hopen := hknown d hd (List.ne_nil_of_mem ho')
    intro i hi horder
    exact hopen i (hown d ▸ hi) (horder.trans hid)

theorem safe_releaseHolds {holds : List ExpiredHold} {k : PUnit → Prog Database Row Site Result}
    (ht : Tracks L pending A) (hk : Sound pending A) (hown : ∀ d, (pending d).intents = d.intents)
    (next : ∀ L' pending' B, Tracks L' pending' B → Sound pending' B →
      Outline (k ⟨⟩) L' pending' B) : Outline (releaseHolds holds k) L pending A := by
  induction holds generalizing L pending A with
  | nil => exact next _ _ _ ht hk
  | cons hold rest ih =>
      have hrelease {k : PUnit → Prog Database Row Site Result}
          (next : ∀ L' pending' B, Tracks L' pending' B → Sound pending' B →
            (∀ d, (pending' d).intents = d.intents) → Outline (k ⟨⟩) L' pending' B) :
          Outline (releaseHold hold k) L pending A := by
        unfold releaseHold updateInventoryAt
        refine safe_bind (safe_updateAside (fun _ _ => ⟨rfl, rfl, rfl, rfl⟩) ht hk
          fun _ L₁ p₁ A₁ ht₁ hk₁ hsame₁ => ?_)
        refine safe_bind (safe_sweepOrder ht₁ hk₁ (fun d => (hsame₁ d).trans (hown d))
          fun _ L₂ p₂ A₂ ht₂ hk₂ hown₂ => ?_)
        refine safe_bind (safe_updateAside (fun _ _ => ⟨rfl, rfl, rfl, rfl⟩) ht₂ hk₂
          fun _ L₃ p₃ A₃ ht₃ hk₃ hsame₃ => ?_)
        exact next _ _ _ ht₃ hk₃ fun d => (hsame₃ d).trans (hown₂ d)
      exact safe_bind (hrelease fun _ _ _ ht' hk' hown' => ih ht' hk' hown')

theorem safe_insertOrder {map : SqlError → ApiError} {o : Order} {k : PUnit → Prog Database Row Site Result}
    (ht : Tracks L pending A) (hk : Sound pending A)
    (next : ∀ L' pending' B, Tracks L' pending' B → Sound pending' B →
      Outline (k ⟨⟩) L' pending' B) : Outline (insertOrder map o k) L pending A := by
  unfold insertOrder
  refine ht.safe_insertRow fun db B _ _ _ h => ?_
  refine next _ _ _ (h.track.add orderLayout (by simp [orderTable])) ?_
  exact (hk.mono h.before).change fun d _ _ hI => ⟨hI.addOrder, quiet_of_same rfl rfl⟩

theorem createReservation_outline (buyerUserId ticketProductId : Uuid) (body : CreateReservationRequest)
    (ids : ReservationIds) :
    Outline (createReservation ext.sha256 buyerUserId ticketProductId body ids).request [] id
      fun _ => True := by
  unfold Handler.request createReservation
  refine safe_bind (safe_require fun _ => ?_)
  refine safe_bind (safe_ofExcept fun key _ => ?_)
  refine safe_bind (safe_select stable_true fun _ _ _ _ _ => ?_)
  refine safe_bind (safe_bind (Track.start.safe_selectFor fun db₀ A₀ holds _ _ _ h₀ => ?_))
  have hk₀ := (Keeps.start (I := Awaited) (R := Quiet)).mono h₀.before
  refine safe_releaseHolds h₀.track hk₀ (fun _ => rfl) fun L₁ p₁ A₁ ht₁ hk₁ => ?_
  refine safe_bind (ht₁.safe_selectFor fun db₂ A₂ _ _ _ _ h₂ => ?_)
  have hk₂ := hk₁.mono h₂.before
  refine safe_bind (safe_orElse fun available _ => ?_)
  refine safe_bind (safe_select h₂.track.stable fun _ _ _ _ _ => ?_)
  refine safe_bind (safe_require fun _ => ?_)
  refine safe_bind (safe_select h₂.track.stable fun _ _ _ _ _ => ?_)
  refine safe_bind (safe_require fun _ => ?_)
  refine safe_bind (h₂.track.safe_selectFor fun db₃ A₃ existing _ _ _ h₃ => ?_)
  have hk₃ := hk₂.mono h₃.before
  cases existing with
  | some existing =>
      refine safe_bind (safe_require fun _ => ?_)
      exact safe_bind (safe_commitQuiet h₃.track hk₃ safe_ret)
  | none =>
      refine safe_bind (safe_select h₃.track.stable fun _ _ _ _ _ => ?_)
      refine safe_bind (safe_require fun _ => ?_)
      refine safe_bind (safe_require fun _ => ?_)
      refine safe_bind (safe_require fun _ => ?_)
      refine safe_bind (safe_orElse fun total _ => ?_)
      refine safe_bind (safe_insertOrder h₃.track hk₃ fun L₄ p₄ A₄ ht₄ hk₄ => ?_)
      refine safe_bind (ht₄.safe_insertHidden hk₄ (hidden fun _ _ => ⟨rfl, rfl, rfl, rfl⟩)
        fun L₅ p₅ A₅ h₅ => ?_)
      unfold reserveInventory updateInventory updateInventoryAt
      refine safe_bind (safe_bind (safe_select h₅.track.stable fun _ _ _ _ _ => ?_))
      refine safe_bind (safe_require fun _ => ?_)
      refine safe_bind (h₅.track.safe_updateHidden h₅.keeps (hidden fun _ _ => ⟨rfl, rfl, rfl, rfl⟩)
        fun n L₆ p₆ A₆ h₆ => ?_)
      refine safe_bind (safe_require fun _ => ?_)
      unfold insertReservation
      refine safe_bind (h₆.track.safe_insertHidden h₆.keeps (hidden fun _ _ => ⟨rfl, rfl, rfl, rfl⟩)
        fun L₇ p₇ A₇ h₇ => ?_)
      exact safe_bind (safe_commitQuiet h₇.track h₇.keeps safe_ret)

/-! ### Attempts and intents -/

theorem attemptViolation_eq {a : PaymentAttempt} {db : Database} (h : attemptViolation a db = none)
    (hactive : Active a) : attemptTable.find db a.id = none ∧ Unattempted a.orderId db := by
  unfold attemptViolation at h
  split at h
  · cases h
  · rename_i hany
    refine ⟨List.find?_eq_none.mpr fun b hb hid => ?_, fun b hb horder hb' => ?_⟩
    · refine hany (List.any_eq_true.mpr ⟨b, hb, ?_⟩)
      simp only [Bool.or_eq_true]
      exact .inl (.inl hid)
    · refine hany (List.any_eq_true.mpr ⟨b, hb, ?_⟩)
      simp only [Bool.or_eq_true, Bool.and_eq_true, decide_eq_true_eq]
      exact .inr ⟨⟨horder, hb'⟩, hactive⟩

theorem createPaymentAttempt_outline (actorUserId orderId : Uuid) (body : CreatePaymentAttemptRequest)
    (attemptId : Uuid) :
    Outline (createPaymentAttempt actorUserId orderId body attemptId).request [] id fun _ => True := by
  unfold Handler.request createPaymentAttempt
  refine safe_bind (safe_ofExcept fun provider _ => ?_)
  refine safe_bind (safe_ofExcept fun reference _ => ?_)
  refine safe_bind (safe_ofExcept fun payer _ => ?_)
  refine safe_bind (Track.start.safe_selectFor fun db₁ A₁ row _ _ _ h₁ => ?_)
  refine safe_bind (safe_orElse fun order _ => ?_)
  refine safe_bind (safe_requireEditor h₁.track ?_)
  refine safe_bind (safe_require fun _ => ?_)
  -- nobody else makes an attempt for the order until the commit
  refine safe_bind (h₁.track.safe_insertRowLocking (fun _ d => Unattempted orderId d)
    (fun d _ _ hv => (attemptViolation_eq (raise_none hv) rfl).2) (fun _ => stable_unattempted (by simp))
    fun db₂ A₂ _ _ hv h₂ hknown => ?_)
  have hnew (d : Database) (hd : A₂ d) : attemptTable.find d attemptId = none :=
    ((h₂.seen d hd).find attemptLayout (i := attemptId) (m := .update) (by simp [attemptTable])
      rfl).trans (attemptViolation_eq (raise_none hv) rfl).1
  refine safe_bind ((h₂.track.add attemptLayout (by simp [attemptTable])).safe_commitWithin
    (R := Opens (·.orderId = orderId) fun _ => False) (fun d hI hd => ⟨?_, ?_⟩) ?_ safe_ret)
  · exact hI.addAttempt (hnew d hd) (hknown d hd)
  · refine ⟨fun a ha hactive => ?_, fun i hi hopen => .inr ⟨i, hi, rfl, rfl, hopen⟩⟩
    rcases List.mem_append.mp ha with ha | ha
    · exact .inr ⟨a, ha, rfl, hactive⟩
    · exact .inl (by rw [List.mem_singleton.mp ha])
  · refine fun d d' h => h.mono (fun a ha => ?_) fun _ => False.elim
    rw [ha]
    exact written_of_mem (m := .update) (by simp) rfl

theorem intentViolation_eq {i : TransactionIntent} {db : Database} (h : intentViolation i db = none) :
    intentTable.find db i.id = none ∧ NoneFor i.paymentAttemptId db := by
  unfold intentViolation at h
  split at h
  · cases h
  · rename_i hany
    refine ⟨List.find?_eq_none.mpr fun j hj hid => ?_, fun j hj hattempt hopen => ?_⟩
    · refine hany (List.any_eq_true.mpr ⟨j, hj, ?_⟩)
      simp only [Bool.or_eq_true]
      exact .inl (.inl hid)
    · refine hany (List.any_eq_true.mpr ⟨j, hj, ?_⟩)
      simp only [Bool.or_eq_true, Bool.and_eq_true, decide_eq_true_eq]
      exact .inr ⟨hattempt, hopen⟩

/-- **A new intent** finds its attempt active and its order waiting, and both are locked. -/
theorem createTransactionIntent_outline (actorUserId orderId : Uuid)
    (body : CreateTransactionIntentRequest) (intentId : Uuid) :
    Outline (createTransactionIntent ext.sha256 actorUserId orderId body intentId).request [] id
      fun _ => True := by
  unfold Handler.request createTransactionIntent
  refine safe_bind (safe_ofExcept fun args _ => ?_)
  refine safe_bind (Track.start.safe_selectFor fun db₁ A₁ row _ _ hrow h₁ => ?_)
  have hk₁ := (Keeps.start (I := Awaited) (R := Quiet)).mono h₁.before
  refine safe_bind (safe_orElse fun found hfound => ?_)
  obtain ⟨attempt, order⟩ := found
  have hrows : attemptWithOrder body.paymentAttemptId (id db₁) = some (attempt, order) := hrow.trans hfound
  obtain ⟨hattempt, horder⟩ := attemptWithOrder_eq hrows
  have haid : attempt.id = body.paymentAttemptId := (attemptTable.find_mem hattempt).2
  have hoid : order.id = attempt.orderId := (orderTable.find_mem horder).2
  have hlocks : attemptLocks body.paymentAttemptId db₁ =
      [⟨.attempt body.paymentAttemptId, .update⟩, ⟨.order attempt.orderId, .update⟩] := by
    have hrows : attemptWithOrder body.paymentAttemptId db₁ = some (attempt, order) := hrows
    rw [attemptLocks, hrows, ← haid, ← hoid]
    rfl
  have hattempts (d : Database) (hd : A₁ d) :
      attemptTable.find d body.paymentAttemptId = some attempt := by
    refine ((h₁.seen d hd).find attemptLayout (m := .update) ?_ rfl).trans hattempt
    simp [hlocks, attemptTable]
  have horders (d : Database) (hd : A₁ d) : orderTable.find d attempt.orderId = some order := by
    refine ((h₁.seen d hd).find orderLayout (m := .update) ?_ rfl).trans horder
    simp [hlocks, orderTable]
  refine safe_bind (safe_requireEditor h₁.track ?_)
  refine safe_bind (safe_require fun hsame => ?_)
  refine safe_bind (safe_require fun hstatus => ?_)
  refine safe_bind (safe_require fun hactive => ?_)
  refine safe_bind (safe_require fun _ => ?_)
  refine safe_bind (safe_require fun _ => ?_)
  have hsame : attempt.orderId = orderId := of_decide_eq_true hsame
  refine safe_bind (h₁.track.safe_selectFor fun db₂ A₂ existing _ _ _ h₂ => ?_)
  have hk₂ := hk₁.mono h₂.before
  cases existing with
  | some existing =>
      refine safe_bind (safe_require fun _ => ?_)
      exact safe_bind (safe_commitQuiet h₂.track hk₂ safe_ret)
  | none =>
      refine safe_bind (safe_select h₂.track.stable fun _ _ _ _ _ => ?_)
      refine safe_bind (safe_ofExcept fun built _ => ?_)
      refine safe_bind (h₂.track.safe_insertRowLocking (fun _ d => NoneFor body.paymentAttemptId d)
        (fun d _ _ hv => (intentViolation_eq (raise_none hv)).2) (fun _ => stable_noneFor (by simp))
        fun db₃ A₃ _ _ hv h₃ hknown => ?_)
      have hnew (d : Database) (hd : A₃ d) : intentTable.find d intentId = none :=
        ((h₃.seen d hd).find intentLayout (i := intentId) (m := .update) (by simp [intentTable])
          rfl).trans (intentViolation_eq (raise_none hv)).1
      refine safe_bind ((h₃.track.add intentLayout (by simp [intentTable])).safe_commitWithin
        (R := Opens (fun _ => False) fun i => i.orderId = orderId ∧
          i.paymentAttemptId = body.paymentAttemptId) (fun d hI hd => ⟨?_, ?_⟩) ?_ safe_ret)
      · have hd₁ := h₂.before d (h₃.before d hd)
        refine hI.addIntent (hnew d hd) (hknown d hd) ⟨⟨attempt, hattempts d hd₁, hsame, hactive⟩, order, ?_⟩
        exact ⟨hsame ▸ horders d hd₁, of_decide_eq_true hstatus⟩
      · refine ⟨fun a ha hactive => .inr ⟨a, ha, rfl, hactive⟩, fun i hi hopen => ?_⟩
        rcases List.mem_append.mp hi with hi | hi
        · exact .inr ⟨i, hi, rfl, rfl, hopen⟩
        · rw [List.mem_singleton.mp hi]
          exact .inl ⟨rfl, rfl⟩
      · refine fun d d' h => h.mono (fun _ => False.elim) fun i hi => ?_
        rw [hi.1, hi.2]
        refine ⟨written_of_mem (m := .update) ?_ rfl, written_of_mem (m := .update) (by simp) rfl⟩
        simp [hlocks, hsame]

/-- An update of an intent that opens none. -/
theorem safe_updateIntent {intentId : Uuid} {admits : TransactionIntent → Bool}
    {change : TransactionIntent → TransactionIntent} {k : Nat → Prog Database Row Site Result}
    (hid : ∀ i, (change i).id = i.id) (horder : ∀ i, (change i).orderId = i.orderId)
    (hattempt : ∀ i, (change i).paymentAttemptId = i.paymentAttemptId)
    (ht : Tracks L pending A) (hk : Sound pending A)
    (hopen : ∀ d, A d → ∀ i ∈ (pending d).intents, Awaited (pending d) → i.id = intentId →
      admits i = true → Open (change i) → Open i)
    (next : ∀ db L' B, Awaited db → A db → (∀ d, B d → A d) →
      let pending' := fun d =>
        intentTable.modify (fun i => i.id = intentId && admits i) change (pending db) (pending d)
      Tracks L' pending' B → Sound pending' B → ∀ n, Outline (k n) L' pending' B) :
    Outline (updateIntent intentId admits change k) L pending A := by
  unfold updateIntent
  refine ht.safe_update fun db B hI hA _ h => ?_
  refine next db _ B hI hA h.before (h.track.modifyLocked intentLayout hid
    fun i => ⟨_, List.mem_cons_self, rfl, rfl⟩) ?_ _
  refine (hk.mono h.before).change fun d _ hd hIp => ?_
  refine hIp.modifyIntents hid horder hattempt fun i hi hp => ?_
  obtain ⟨hiid, hadmits⟩ := Bool.and_eq_true_iff.mp hp
  exact hopen d (h.before d hd) i hi hIp (of_decide_eq_true hiid) hadmits

theorem transactionViolation_eq {t : StellarTransaction} {db : Database}
    (h : transactionViolation t db = none) : transactionTable.find db t.id = none := by
  unfold transactionViolation at h
  split at h
  · cases h
  · rename_i hany
    refine List.find?_eq_none.mpr fun u hu hid => hany (List.any_eq_true.mpr ⟨u, hu, ?_⟩)
    simp only [Bool.or_eq_true]
    exact .inl (.inl (.inl hid))

theorem safe_insertTransaction {t : StellarTransaction} {k : PUnit → Prog Database Row Site Result}
    (ht : Tracks L pending A) (hk : Sound pending A)
    (next : ∀ L' B, (∀ d, B d → A d) → Tracks L' (fun d => transactionTable.add t (pending d)) B →
      Sound (fun d => transactionTable.add t (pending d)) B →
      Outline (k ⟨⟩) L' (fun d => transactionTable.add t (pending d)) B) :
    Outline (insertTransaction t k) L pending A := by
  unfold insertTransaction
  refine ht.safe_insertRow fun db B _ _ hv h => ?_
  have hnew (d : Database) (hd : B d) : transactionTable.find (pending d) t.id = none :=
    ((h.seen d hd).find transactionLayout (m := .update) (by simp [transactionTable]) rfl).trans
      (transactionViolation_eq (raise_none hv))
  refine next _ B h.before (h.track.add transactionLayout (by simp [transactionTable])) ?_
  exact (hk.mono h.before).change fun d _ hd hI => ⟨hI.addTransaction (hnew d hd), quiet_of_same rfl rfl⟩

theorem acceptSignedEnvelope_outline (actorUserId intentId : Uuid) (signedEnvelopeXdr : String)
    (transactionId : Uuid) :
    Outline (acceptSignedEnvelope ext.sha256 actorUserId intentId signedEnvelopeXdr transactionId).request
      [] id fun _ => True := by
  unfold Handler.request acceptSignedEnvelope acceptEnvelope
  refine safe_bind (safe_ofExcept fun envelope _ => ?_)
  refine safe_bind (Track.start.safe_selectFor fun db₁ A₁ row _ _ hrow h₁ => ?_)
  have hk₁ := (Keeps.start (I := Awaited) (R := Quiet)).mono h₁.before
  refine safe_bind (safe_orElse fun intent hintent => ?_)
  -- the intent is locked and stays as it was read
  have hfind : intentTable.find (id db₁) intentId = some intent := hrow.trans hintent
  have hid : intent.id = intentId := (intentTable.find_mem hfind).2
  have hknown (d : Database) (hd : A₁ d) : intentTable.find d intentId = some intent := by
    refine ((h₁.seen d hd).find intentLayout (i := intentId) (m := .update) ?_ rfl).trans hfind
    rw [hfind, ← hid]
    simp [intentTable]
  refine safe_bind (safe_requireEditor h₁.track ?_)
  refine safe_bind (safe_select h₁.track.stable fun _ existing _ _ _ => ?_)
  cases existing with
  | some existing =>
      refine safe_bind (safe_require fun _ => ?_)
      exact safe_bind (safe_commitQuiet h₁.track hk₁ safe_ret)
  | none =>
      refine safe_bind (safe_require fun hstatus => ?_)
      have hopen : Open intent := by
        rw [Open, of_decide_eq_true hstatus]
        rfl
      have hsame (d : Database) (hd : A₁ d) (i : TransactionIntent) (hi : i ∈ d.intents)
          (hI : Awaited d) (hiid : i.id = intentId) : Open i := by
        have hi' := intentTable.find_of_mem hI.intentIds hi
        obtain rfl := Option.some.inj (hi'.symm.trans ((congrArg _ hiid).trans (hknown d hd)))
        exact hopen
      refine safe_bind (safe_select h₁.track.stable fun _ now _ _ _ => ?_)
      refine safe_ite (fun _ => ?_) fun _ => ?_
      · refine safe_bind (safe_updateIntent (fun _ => rfl) (fun _ => rfl) (fun _ => rfl) h₁.track hk₁
          (fun d hd i hi hI hiid _ _ => hsame d hd i hi hI hiid) fun _ L₂ A₂ _ _ _ ht₂ hk₂ _ => ?_)
        exact safe_bind (safe_commitQuiet ht₂ hk₂ safe_exit)
      · refine safe_bind (safe_ofExcept fun _ _ => ?_)
        refine safe_bind (safe_insertTransaction h₁.track hk₁ fun L₂ A₂ h₂ ht₂ hk₂ => ?_)
        refine safe_bind (safe_updateIntent (fun _ => rfl) (fun _ => rfl) (fun _ => rfl) ht₂ hk₂
          (fun d hd i hi hI hiid _ _ => ?_) fun _ L₃ A₃ _ _ _ ht₃ hk₃ _ => ?_)
        · have hi' := intentTable.find_of_mem hI.intentIds hi
          obtain rfl := Option.some.inj
            (hi'.symm.trans ((congrArg _ hiid).trans (hknown d (h₂ d hd))))
          exact hopen
        · exact safe_bind (safe_commitQuiet ht₃ hk₃ safe_ret)

/-! ### Receipts and evidence -/

theorem safe_updateTransaction {p : StellarTransaction → Bool}
    {change : StellarTransaction → StellarTransaction} {k : Nat → Prog Database Row Site Result}
    (hid : ∀ t, (change t).id = t.id) (ht : Tracks L pending A) (hk : Sound pending A)
    (next : ∀ n L' pending' B, Tracks L' pending' B → Sound pending' B → (∀ d, B d → A d) →
      (∀ d, (pending' d).intents = (pending d).intents) → Outline (k n) L' pending' B) :
    Outline (updateTransaction p change k) L pending A := by
  unfold updateTransaction
  refine ht.safe_update fun db B _ _ _ h => ?_
  refine next _ _ _ B (h.track.modifyLocked transactionLayout hid
    fun t => ⟨_, List.mem_singleton.mpr rfl, rfl, rfl⟩) ?_ h.before fun _ => rfl
  exact (hk.mono h.before).change fun d _ _ hI => ⟨hI.modifyTransactions hid, quiet_of_same rfl rfl⟩

/-- The intent is locked from the beginning, and its attempt and its order are those of the answer. -/
theorem safe_expectedForUpdate {intentId : Uuid} {k : ExpectedIntent → Prog Database Row Site Result}
    (next : ∀ e L B, Tracks L id B → Sound id B →
      (∀ d, B d → intentTable.find d e.intent.id = some e.intent) →
      e.attempt.id = e.intent.paymentAttemptId → e.order.id = e.intent.orderId → Outline (k e) L id B) :
    Outline (expectedForUpdate intentId k) [] id fun _ => True := by
  unfold expectedForUpdate
  refine safe_bind (Track.start.safe_selectFor fun db B row _ _ hrow h => ?_)
  refine safe_orElse fun e he => ?_
  have hexpected : expectedIntent intentId db = some e := hrow.trans he
  obtain ⟨hintent, hattempt, horder⟩ : intentTable.find db e.intent.id = some e.intent ∧
      e.attempt.id = e.intent.paymentAttemptId ∧ e.order.id = e.intent.orderId := by
    have hrows := hexpected
    simp only [expectedIntent, Option.bind_eq_bind, Option.bind_eq_some_iff] at hrows
    obtain ⟨i, hi, t, -, a, ha, o, ho, heq⟩ := hrows
    obtain rfl := Option.some.inj heq
    have hid : i.id = intentId := (intentTable.find_mem hi).2
    exact ⟨hid ▸ hi, (attemptTable.find_mem ha).2, (orderTable.find_mem ho).2⟩
  have hlocks : [] ++ ((expectedIntent intentId db).map (·.locks)).getD [] = e.locks := by
    rw [hexpected]
    rfl
  refine next e _ B h.track (Keeps.start.mono h.before) (fun d hd => ?_) hattempt horder
  refine ((h.seen d hd).find intentLayout (m := .update) ?_ rfl).trans hintent
  simp only [id, hlocks]
  exact List.mem_cons_self

theorem recordSubmissionReceipt_outline (actorUserId intentId : Uuid) (body : SubmissionReceiptRequest) :
    Outline (recordSubmissionReceipt actorUserId intentId body).request [] id fun _ => True := by
  unfold Handler.request recordSubmissionReceipt
  refine safe_bind (safe_ofExcept fun txHash _ => ?_)
  refine safe_bind (safe_expectedForUpdate fun expected L₁ A₁ ht₁ hk₁ _ _ _ => ?_)
  refine safe_bind (safe_requireEditor ht₁ ?_)
  refine safe_bind (safe_require fun _ => ?_)
  refine safe_ite (fun _ => ?_) fun _ => ?_
  · refine safe_bind (safe_commitQuiet ht₁ hk₁ ?_)
    exact safe_bind (safe_loadResponse fun _ => safe_ret)
  · refine safe_bind (safe_require fun _ => ?_)
    refine safe_bind (safe_updateTransaction (fun _ => rfl) ht₁ hk₁ fun n₂ L₂ p₂ A₂ ht₂ hk₂ _ _ => ?_)
    -- what was signed was open
    refine safe_bind (safe_updateIntent (fun _ => rfl) (fun _ => rfl) (fun _ => rfl) ht₂ hk₂
      (fun d _ i _ _ _ hsigned _ => ?_) fun _ L₃ A₃ _ _ _ ht₃ hk₃ _ => ?_)
    · rw [Open, of_decide_eq_true hsigned]
      rfl
    · exact safe_bind (safe_commitQuiet ht₃ hk₃ (safe_bind (safe_loadResponse fun _ => safe_ret)))

theorem safe_confirmAttempt {attemptId : Uuid} {k : Nat → Prog Database Row Site Result}
    (ht : Tracks L pending A) (hk : Sound pending A)
    (hnone : ∀ d, Awaited d → A d → ∀ i ∈ (pending d).intents, i.paymentAttemptId = attemptId → ¬ Open i)
    (next : ∀ n L' pending' B, Tracks L' pending' B → Sound pending' B → (∀ d, B d → A d) →
      (∀ d, (pending' d).intents = (pending d).intents) → Outline (k n) L' pending' B) :
    Outline (updateAttempt attemptId (fun a => AttemptStatus.active a.status)
      (fun a => { a with status := .confirmed, failureCode := none }) k) L pending A := by
  unfold updateAttempt
  refine ht.safe_update fun db B _ _ _ h => ?_
  refine next _ _ _ B (h.track.modifyLocked attemptLayout
    (f := fun a => { a with status := .confirmed, failureCode := none }) (fun _ => rfl)
    fun a => ⟨_, List.mem_cons_self, rfl, rfl⟩) ?_ h.before fun _ => rfl
  refine (hk.mono h.before).change fun d hI hd hIp => ?_
  refine hIp.modifyAttempts (fun _ => rfl) (fun _ => rfl) (fun _ hactive => by cases hactive) ?_
  intro a hp i hi hpaid
  have haid : a.id = attemptId := of_decide_eq_true (Bool.and_eq_true_iff.mp hp).1
  exact hnone d hI (h.before d hd) i hi (hpaid.trans haid)

/-- **The confirmation of a payment** closes the one open intent of its attempt and of its order before
it touches either. -/
theorem safe_confirmPaymentState {expected : ExpectedIntent} {k : PUnit → Prog Database Row Site Result}
    (ht : Tracks L pending A) (hk : Sound pending A)
    (hintent : ∀ d, A d → intentTable.find (pending d) expected.intent.id = some expected.intent)
    (hattempt : expected.attempt.id = expected.intent.paymentAttemptId)
    (horder : expected.order.id = expected.intent.orderId)
    (hsubmitted : expected.intent.status = .submitted)
    (next : ∀ L' pending' B, Tracks L' pending' B → Sound pending' B → Outline (k ⟨⟩) L' pending' B) :
    Outline (confirmPaymentState expected k) L pending A := by
  unfold confirmPaymentState
  have hopen : Open expected.intent := by
    rw [Open, hsubmitted]
    rfl
  refine safe_bind (safe_updateTransaction (fun _ => rfl) ht hk fun n₁ L₁ p₁ A₁ ht₁ hk₁ h₁ hsame₁ => ?_)
  have hintent₁ (d : Database) (hd : A₁ d) :
      intentTable.find (p₁ d) expected.intent.id = some expected.intent := by
    show (p₁ d).intents.find? _ = _
    rw [hsame₁ d]
    exact hintent d (h₁ d hd)
  refine safe_bind (safe_updateIntent (fun _ => rfl) (fun _ => rfl) (fun _ => rfl) ht₁ hk₁
    (fun d _ i _ _ _ _ hclosed => by cases hclosed) fun db₂ L₂ A₂ hI₂ hA₂ h₂ ht₂ hk₂ _ => ?_)
  have hclosed (d : Database) (hI : Awaited d) (hd : A₂ d) := (hk₁ d hI (h₂ d hd)).1.closed
    (i := expected.intent)
    (p := fun i => decide (i.id = expected.intent.id) && decide (i.status = .submitted))
    (f := fun i => { i with status := .confirmed, failureCode := none })
    (fun j hp => of_decide_eq_true (Bool.and_eq_true_iff.mp hp).1) (by simp [hsubmitted])
    (hintent₁ d (h₂ d hd)) (hintent₁ db₂ hA₂) hopen (by simp [Open, IntentStatus.active])
  refine safe_bind (safe_confirmAttempt ht₂ hk₂ (fun d hI hd i hi hpaid => ?_)
    fun n₃ L₃ p₃ A₃ ht₃ hk₃ h₃ hsame₃ => ?_)
  · exact (hclosed d hI hd).1 i hi (hpaid.trans hattempt)
  refine safe_bind (ht₃.safe_update fun db₄ A₄ _ _ _ h₄ => ?_)
  refine safe_require fun _ => next _ _ A₄ (h₄.track.modifyLocked orderLayout
    (f := ({ · with status := .paid })) (fun _ => rfl)
    fun o => ⟨_, List.mem_singleton.mpr rfl, rfl, rfl⟩) ?_
  refine (hk₃.mono h₄.before).change fun d hI hd hIp => ⟨?_, quiet_of_same rfl rfl⟩
  refine hIp.moveOrders fun o _ hp _ _ i hi hio => ?_
  have hoid : o.id = expected.intent.orderId :=
    (of_decide_eq_true (Bool.and_eq_true_iff.mp hp).1).trans horder
  rw [hsame₃ d] at hi
  exact (hclosed d hI (h₃ d (h₄.before d hd))).2 i hi (hio.trans hoid)

theorem recordChainEvidence_outline (actorUserId intentId : Uuid) (body : ChainEvidenceRequest)
    (ids : EvidenceIds) :
    Outline (recordChainEvidence ext actorUserId intentId body ids).request [] id fun _ => True := by
  unfold Handler.request recordChainEvidence reconcileEvidence
  refine safe_bind (safe_select stable_true fun _ now _ _ _ => ?_)
  refine safe_bind (safe_ofExcept fun observed _ => ?_)
  refine safe_bind (safe_select stable_true fun _ _ _ _ _ => ?_)
  refine safe_bind (safe_expectedForUpdate fun expected L₁ A₁ ht₁ hk₁ hintent hattempt horder => ?_)
  refine safe_bind (safe_requireEditor ht₁ ?_)
  refine safe_bind (safe_select ht₁.stable fun _ existing _ _ _ => ?_)
  cases existing with
  | some existing =>
    refine safe_bind (safe_require fun _ => ?_)
    refine safe_bind (safe_commitQuiet ht₁ hk₁ ?_)
    exact safe_bind (safe_loadResponse fun _ => safe_ret)
  | none =>
    refine safe_bind (safe_select ht₁.stable fun _ _ _ _ _ => ?_)
    refine safe_bind (safe_require fun _ => ?_)
    generalize hfailure : reconcile ext.parseRfc3339 expected observed body.rawTransaction
      body.rawOperation = failure
    unfold insertEvidence insertResult
    refine safe_bind (ht₁.safe_insertHidden hk₁ (hidden fun _ _ => ⟨rfl, rfl, rfl, rfl⟩)
      fun L₂ p₂ A₂ h₂ => ?_)
    refine safe_bind (h₂.track.safe_insertHidden h₂.keeps (hidden fun _ _ => ⟨rfl, rfl, rfl, rfl⟩)
      fun L₃ p₃ A₃ h₃ => ?_)
    cases failure with
    | some _ =>
      exact safe_bind (safe_commitQuiet h₃.track h₃.keeps (safe_bind (safe_loadResponse fun _ => safe_ret)))
    | none =>
      refine safe_bind (safe_confirmPaymentState h₃.track h₃.keeps ?_ hattempt horder
        (Confirmation.reconcile_submitted hfailure).1 fun L₄ p₄ A₄ ht₄ hk₄ => ?_)
      · intro d hd
        have hsame := (h₃.same d (.intent expected.intent.id)).trans (h₂.same d _)
        exact (Part.intent.inj hsame).trans (hintent d (h₂.before d (h₃.before d hd)))
      · refine safe_bind (ht₄.safe_writeHidden hk₄ ?_ ?_ fun L₅ p₅ A₅ h₅ => ?_)
        · exact fun db k => by cases k <;> rfl
        · exact fun db hI => ⟨hI.of_same rfl rfl rfl rfl, quiet_of_same rfl rfl⟩
        · refine safe_bind (safe_commitQuiet h₅.track h₅.keeps ?_)
          exact safe_bind (safe_loadResponse fun _ => safe_ret)

end Statements

/-- Every operation but those that the payment provider reports. -/
def landingOperations : List Operation :=
  [.createReservation, .createOrder, .createPaymentAttempt, .createTransactionIntent,
    .acceptSignedEnvelope, .recordSubmissionReceipt, .recordChainEvidence, .prepareIssuance,
    .acceptOwnershipEvidence, .environment, .setSupplyLimit]

theorem outline {ext : External} {p : Prog Database Row Site Result}
    (h : Requests ext landingOperations p) :
    SafeRequest Awaited (Forward part Moves) SparesOpen p := by
  obtain ⟨operation, hmem, hp⟩ := h
  cases hp with
  | createReservation buyerUserId ticketProductId body ids =>
      exact createReservation_outline buyerUserId ticketProductId body ids
  | createOrder actorUserId organizationId body orderId itemId =>
      exact beside_outline
        (confined_createOrder places_beside actorUserId organizationId body orderId itemId)
  | createPaymentAttempt actorUserId orderId body attemptId =>
      exact createPaymentAttempt_outline actorUserId orderId body attemptId
  | createTransactionIntent actorUserId orderId body intentId =>
      exact createTransactionIntent_outline actorUserId orderId body intentId
  | acceptSignedEnvelope actorUserId intentId signedEnvelopeXdr transactionId =>
      exact acceptSignedEnvelope_outline actorUserId intentId signedEnvelopeXdr transactionId
  | recordSubmissionReceipt actorUserId intentId body =>
      exact recordSubmissionReceipt_outline actorUserId intentId body
  | recordChainEvidence actorUserId intentId body ids =>
      exact recordChainEvidence_outline actorUserId intentId body ids
  | prepareIssuance orderId ids =>
      exact beside_outline (confined_prepareIssuance issues_beside orderId ids)
  | acceptOwnershipEvidence issuanceId body evidenceId =>
      exact beside_outline (confined_acceptOwnershipEvidence issues_beside issuanceId body evidenceId)
  | environment directory catalogue =>
      exact beside_outline (confined_environment directory catalogue)
  | setSupplyLimit productId supplyLimit =>
      exact beside_outline (confined_setSupplyLimit places_beside productId supplyLimit)
  | recordPaymentEvent => simp [landingOperations] at hmem

theorem awaited_of_empty {db : Database} (ha : db.attempts = []) (hi : db.intents = [])
    (ht : db.transactions = []) : Awaited db where
  attemptIds := by rw [ha]; exact .nil
  intentIds := by rw [hi]; exact .nil
  transactionIds := by rw [ht]; exact .nil
  oneAttempt := by simp [ha]
  oneIntent := by simp [hi]
  awaits := by simp [hi]

/-- **In every run** whose sweeps spare open intents, every open intent's order awaits its payment. -/
theorem run_awaited {ext : External} {db : Database} {pool : Pool Database Row Site Result}
    {actions : List (Action Database Row Site Result)} (hI : Awaited db)
    (hrun : Run (Pool.Step (Requests ext landingOperations) SparesOpen) (Pool.idle db) actions pool) :
    Awaited pool.db :=
  (run_healthy (fun _ h => outline h) hrun (healthy_idle hI)).inv

end CrownFi.Commerce.OpenIntents
