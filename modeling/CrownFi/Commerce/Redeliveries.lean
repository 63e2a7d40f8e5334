import CrownFi.Commerce.PaymentEvents
import CrownFi.Stellar.Xdr

/-!
# CrownFi.Commerce.Redeliveries

**Events that are delivered again.** The hash that is stored with an event tells contents apart: what
`payment_event_hash` writes to the digest gives every field of a validated report back. So a delivery
under a recorded key is answered as a replay exactly if its content is the recorded one, and whatever
it is it changes nothing.
-/

namespace CrownFi.Commerce.Credits

open Lib CrownFi.Api CrownFi.Stellar Ticketing Orders Reconciliation

variable {ext : External}

/-! ### The bytes that are hashed -/

/-- The bytes of `payment_event_hash`. -/
def eventBytes (toVec : Json → ByteArray) (p : ReportedPayment) (payload : Json) : List UInt8 :=
  textBytes p.providerEventId ++ 0 ::
    (textBytes (if p.outcome = .confirmed then "confirmed" else "failed") ++ 0 ::
      (word 8 (p.amountMinor % 2 ^ 64).toNat ++ (textBytes p.asset.code ++
        (word 2 (p.asset.scale % 2 ^ 16).toNat ++ (textBytes (p.asset.issuer.getD "") ++ 0 ::
          (textBytes (p.payerAccount.getD "") ++ 0 ::
            (textBytes p.environment.text ++ 0 :: (toVec payload).toList)))))))

theorem paymentEventHash_eq (sha256 : Sha256) (toVec : Json → ByteArray) (p : ReportedPayment)
    (payload : Json) :
    paymentEventHash sha256 toVec p payload = hashList sha256 (eventBytes toVec p payload) := by
  simp only [paymentEventHash, eventBytes, hashList, textBytes, word, List.append_assoc,
    List.cons_append, List.nil_append]

/-- What the checks of a report leave of its fields, the amount being an `i64`. -/
structure Checked (p : ReportedPayment) : Prop where
  amount : 0 ≤ p.amountMinor ∧ p.amountMinor < 2 ^ 64
  scale : 0 ≤ p.asset.scale ∧ p.asset.scale ≤ 7
  code : p.asset.code.toList.all (fun c => isUpper c || isDigit c) = true
  issuer : ∀ account, p.asset.issuer = some account → isStellarAccount account = true
  payer : ∀ account, p.payerAccount = some account → isStellarAccount account = true

theorem account_letters {account : String} (h : isStellarAccount account = true) :
    account ≠ "" ∧ account.toList.all (fun c => isUpper c || isDigit c) = true := by
  simp only [isStellarAccount, Bool.and_eq_true, decide_eq_true_eq] at h
  obtain ⟨⟨-, hhead⟩, htail⟩ := h
  cases hlist : account.toList with
  | nil => simp [hlist] at hhead
  | cons c cs =>
      rw [hlist] at hhead htail
      obtain rfl := Option.some.inj hhead
      refine ⟨fun hempty => by simp [hempty] at hlist, ?_⟩
      rw [List.all_cons, Bool.and_eq_true]
      refine ⟨by decide, List.all_eq_true.mpr fun d hd => ?_⟩
      have hd := List.all_eq_true.mp htail d hd
      simp only [Bool.or_eq_true, Bool.and_eq_true, decide_eq_true_eq, isDigit, Char.le_def,
        UInt32.le_iff_toNat_le] at hd ⊢
      rcases hd with hupper | ⟨hlow, hhigh⟩
      · exact .inl hupper
      · exact .inr ⟨le_trans (by decide) hlow, le_trans hhigh (by decide)⟩

theorem validateAssetIssuer_account {code : String} {value issuer : Option String}
    (h : validateAssetIssuer isStellarAccount code value = .ok issuer) :
    ∀ account, issuer = some account → isStellarAccount account = true := by
  intro account haccount
  subst haccount
  unfold validateAssetIssuer at h
  by_cases hnative : code = "XLM"
  · simp only [hnative, if_true] at h
    split at h <;> cases h
  · simp only [hnative, if_false] at h
    split at h
    · cases h
    · split at h
      · rename_i hvalid
        obtain rfl := Option.some.inj (Except.ok.inj h)
        exact hvalid
      · cases h

theorem validateOptional_account {value account : Option String}
    (h : validateOptionalStellarAccount value = .ok account) :
    ∀ a, account = some a → isStellarAccount a = true := by
  intro a ha
  subst ha
  unfold validateOptionalStellarAccount at h
  cases value with
  | none => cases h
  | some value =>
      simp only [Api.optional] at h
      split at h
      · rename_i hvalid
        obtain rfl := Option.some.inj (Except.ok.inj h)
        exact hvalid
      · cases h

theorem validate_checked {body : RecordPaymentEventRequest} {p : ReportedPayment}
    (h : body.validate = .ok p) (hamount : inI64 body.amountMinor) : Checked p := by
  unfold RecordPaymentEventRequest.validate at h
  simp only [throw_bind, bind_eq_ok, guard_eq_ok, pure_eq_ok] at h
  obtain ⟨-, hnumbers, eventId, -, outcome, -, environment, -, code, hcode, issuer, hissuer, payer,
    hpayer, rfl⟩ := h
  simp only [not_or, not_le, not_not] at hnumbers
  have hhigh := hamount.2
  refine ⟨⟨hnumbers.1.le, lt_trans hhigh (by decide)⟩, hnumbers.2, ?_, validateAssetIssuer_account hissuer,
    validateOptional_account hpayer⟩
  unfold validateAssetCode at hcode
  simp only [guard_eq_ok, not_or, Except.ok.injEq] at hcode
  obtain ⟨⟨-, -, hletters⟩, rfl⟩ := hcode
  rw [String.toList_ofList]
  exact Bool.not_eq_false _ ▸ hletters

theorem textBytes_inj {s t : String} (h : textBytes s = textBytes t) : s = t := by
  have hs : String.fromUTF8? ⟨(textBytes s).toArray⟩ = some s := fromUTF8_list_eq_some.mpr rfl
  have ht : String.fromUTF8? ⟨(textBytes t).toArray⟩ = some t := fromUTF8_list_eq_some.mpr rfl
  rw [h, ht] at hs
  exact (Option.some.inj hs).symm

theorem zero_notMem_textBytes {s : String} (h : s.toList.all (fun c => isUpper c || isDigit c) = true) :
    (0 : UInt8) ∉ textBytes s := by
  intro hzero
  rw [textBytes, toUTF8_toList] at hzero
  obtain ⟨c, hc, hb⟩ := List.mem_flatMap.mp hzero
  obtain ⟨hencode, hne⟩ := IsAssetCode.encodeChar (List.all_eq_true.mp h c hc)
  rw [hencode] at hb
  exact hne (List.mem_singleton.mp hb).symm

/-- An optional account, written as a text that may be empty. -/
theorem accountBytes {account : Option String}
    (h : ∀ a, account = some a → isStellarAccount a = true) :
    (0 : UInt8) ∉ textBytes (account.getD "") := by
  cases account with
  | none => decide +kernel
  | some a => exact zero_notMem_textBytes (account_letters (h a rfl)).2

theorem account_inj {o o' : Option String} (h : ∀ a, o = some a → isStellarAccount a = true)
    (h' : ∀ a, o' = some a → isStellarAccount a = true)
    (heq : textBytes (o.getD "") = textBytes (o'.getD "")) : o = o' := by
  have htext := textBytes_inj heq
  cases o with
  | none =>
      cases o' with
      | none => rfl
      | some a => exact absurd htext.symm (account_letters (h' a rfl)).1
  | some a =>
      cases o' with
      | none => exact absurd htext (account_letters (h a rfl)).1
      | some a' => exact congrArg some htext

/-- A scale below ten, as the digest sees it. -/
theorem word_scale {n : Int} (h : 0 ≤ n ∧ n ≤ 7) :
    word 2 (n % 2 ^ 16).toNat = [0, UInt8.ofNat n.toNat] := by
  obtain ⟨hlow, hhigh⟩ := h
  have hmod : (n % 2 ^ 16).toNat = n.toNat := by omega
  have hdiv : n.toNat / 256 = 0 := by omega
  rw [hmod, word_succ, word_succ, hdiv]
  rfl

theorem scale_inj {m n : Int} (hm : 0 ≤ m ∧ m ≤ 7) (hn : 0 ≤ n ∧ n ≤ 7)
    (h : UInt8.ofNat m.toNat = UInt8.ofNat n.toNat) : m = n := by
  have hnat := congrArg UInt8.toNat h
  simp only [UInt8.toNat_ofNat'] at hnat
  omega

theorem environment_inj {e e' : Environment} (h : textBytes e.text = textBytes e'.text) : e = e' := by
  have htext := textBytes_inj h
  revert htext
  cases e <;> cases e' <;> decide

theorem zero_notMem_environment (e : Environment) : (0 : UInt8) ∉ textBytes e.text := by
  cases e <;> decide +kernel

theorem outcome_inj {o o' : Outcome}
    (h : textBytes (if o = .confirmed then "confirmed" else "failed") =
      textBytes (if o' = .confirmed then "confirmed" else "failed")) : o = o' := by
  have htext := textBytes_inj h
  revert htext
  cases o <;> cases o' <;> decide

theorem zero_notMem_outcome (o : Outcome) :
    (0 : UInt8) ∉ textBytes (if o = .confirmed then "confirmed" else "failed") := by
  cases o <;> decide +kernel

/-- **The bytes that are hashed determine the report** under an event's own id. -/
theorem eventBytes_inj {toVec : Json → ByteArray} {p p' : ReportedPayment} {payload payload' : Json}
    (h : Checked p) (h' : Checked p') (hid : p.providerEventId = p'.providerEventId)
    (heq : eventBytes toVec p payload = eventBytes toVec p' payload') :
    p = p' ∧ (toVec payload).toList = (toVec payload').toList := by
  unfold eventBytes at heq
  rw [hid, word_scale h.scale, word_scale h'.scale] at heq
  have heq := (List.cons.inj (List.append_cancel_left heq)).2
  obtain ⟨houtcome, heq⟩ := append_cons_inj (zero_notMem_outcome _) (zero_notMem_outcome _) heq
  obtain ⟨hamount, heq⟩ := List.append_inj heq (by simp)
  simp only [List.cons_append, List.nil_append] at heq
  obtain ⟨hcode, heq⟩ := append_cons_inj (zero_notMem_textBytes h.code) (zero_notMem_textBytes h'.code) heq
  obtain ⟨hscale, heq⟩ := List.cons.inj heq
  obtain ⟨hissuer, heq⟩ := append_cons_inj (accountBytes h.issuer) (accountBytes h'.issuer) heq
  obtain ⟨hpayer, heq⟩ := append_cons_inj (accountBytes h.payer) (accountBytes h'.payer) heq
  obtain ⟨henvironment, hpayload⟩ :=
    append_cons_inj (zero_notMem_environment _) (zero_notMem_environment _) heq
  have hminor : p.amountMinor = p'.amountMinor := by
    have hnat := congrArg wordValue hamount
    rw [value_word (by omega), value_word (by omega)] at hnat
    have hlow := h.amount
    have hlow' := h'.amount
    omega
  have hasset : p.asset = p'.asset := by
    have hfields := And.intro (textBytes_inj hcode)
      (And.intro (scale_inj h.scale h'.scale hscale) (account_inj h.issuer h'.issuer hissuer))
    obtain ⟨hc, hs, hi⟩ := hfields
    cases hp : p.asset with
    | mk code scale issuer =>
        cases hp' : p'.asset with
        | mk code' scale' issuer' =>
            rw [hp, hp'] at hc hs hi
            simp only at hc hs hi
            rw [hc, hs, hi]
  refine ⟨?_, hpayload⟩
  have ho := outcome_inj houtcome
  have hpa := account_inj h.payer h'.payer hpayer
  have he := environment_inj henvironment
  cases p
  cases p'
  simp only at hid ho hminor hasset hpa he
  rw [hid, ho, hminor, hasset, hpa, he]

/-! ### Contents -/

/-- What a delivery says: its attempt, the validated report, and the bytes of the payload. -/
structure Content where
  attemptId : Uuid
  payment : ReportedPayment
  payload : List UInt8
  deriving DecidableEq

def Delivery.content (ext : External) (d : Delivery) : Except ApiError Content := do
  let payment ← d.body.validate
  return ⟨d.attemptId, payment, (ext.toVec d.body.payload).toList⟩

theorem content_eq_ok {d : Delivery} {c : Content} :
    d.content ext = .ok c ↔ ∃ payment, d.body.validate = .ok payment ∧
      c = ⟨d.attemptId, payment, (ext.toVec d.body.payload).toList⟩ := by
  unfold Delivery.content
  simp only [bind_eq_ok, pure_eq_ok]
  constructor
  · rintro ⟨payment, h, hc⟩
    exact ⟨payment, h, hc.symm⟩
  · rintro ⟨payment, h, hc⟩
    exact ⟨payment, h, hc.symm⟩

/-- What the digest of a delivery is taken of. -/
def Delivery.bytes (ext : External) (d : Delivery) (payment : ReportedPayment) : ByteArray :=
  ⟨(eventBytes ext.toVec payment d.body.payload).toArray⟩

/-- The contents of two deliveries under one event id are equal if their hashes are, unless the
digests of just these two collide. -/
theorem same_content_iff {d d' : Delivery} {payment payment' : ReportedPayment}
    (h : d.body.validate = .ok payment) (h' : d'.body.validate = .ok payment')
    (hamount : inI64 d.body.amountMinor) (hamount' : inI64 d'.body.amountMinor)
    (hid : payment.providerEventId = payment'.providerEventId)
    (hfree : ext.sha256 (d.bytes ext payment) = ext.sha256 (d'.bytes ext payment') →
      d.bytes ext payment = d'.bytes ext payment') :
    d.content ext = d'.content ext ↔ d.attemptId = d'.attemptId ∧
      paymentEventHash ext.sha256 ext.toVec payment d.body.payload =
        paymentEventHash ext.sha256 ext.toVec payment' d'.body.payload := by
  have hcontent : d.content ext = .ok ⟨d.attemptId, payment, (ext.toVec d.body.payload).toList⟩ :=
    content_eq_ok.mpr ⟨payment, h, rfl⟩
  have hcontent' : d'.content ext = .ok ⟨d'.attemptId, payment', (ext.toVec d'.body.payload).toList⟩ :=
    content_eq_ok.mpr ⟨payment', h', rfl⟩
  rw [hcontent, hcontent', Except.ok.injEq, Content.mk.injEq, paymentEventHash_eq, paymentEventHash_eq]
  constructor
  · rintro ⟨hattempt, rfl, hpayload⟩
    refine ⟨hattempt, ?_⟩
    unfold eventBytes
    rw [hpayload]
  · rintro ⟨hattempt, hhash⟩
    have hdigest : ext.sha256 (d.bytes ext payment) = ext.sha256 (d'.bytes ext payment') :=
      Vector.toList_inj.mp (hexEncode_injective hhash)
    have hbytes : eventBytes ext.toVec payment d.body.payload =
        eventBytes ext.toVec payment' d'.body.payload :=
      List.toArray_inj (ByteArray.mk.inj (hfree hdigest))
    exact ⟨hattempt, eventBytes_inj (validate_checked h hamount) (validate_checked h' hamount') hid
      hbytes⟩

/-! ### Deliveries under a recorded key -/

/-- The delivery has the key of the event, and comes from an editor of the organization. -/
structure Redelivers (db : Database) (e : ProviderEvent) (d : Delivery) (payment : ReportedPayment) :
    Prop where
  valid : d.body.validate = .ok payment
  amount : inI64 d.body.amountMinor
  providerEventId : payment.providerEventId = e.providerEventId
  attempt : ∃ a o, attemptWithOrder d.attemptId db = some (a, o) ∧ a.provider = e.provider ∧
    db.directory.memberEditor o.organizationId d.actorUserId = true

theorem find_event {db : Database} {e : ProviderEvent} (hkeys : (db.events.map eventKey).Nodup)
    (he : e ∈ db.events) :
    (db.events.find? fun f => f.provider = e.provider && f.providerEventId = e.providerEventId) =
      some e := by
  have hfind : keyedEvents.find db (eventKey e) = some e := keyedEvents.find_of_mem hkeys he
  rw [← hfind]
  unfold Table.find
  congr 1
  funext f
  show _ = decide (eventKey f = eventKey e)
  simp [eventKey]

/-- **A delivery under a recorded key changes nothing**: it is answered with the event if it has the
event's attempt and hash, and refused otherwise. -/
theorem ends_redelivery {db : Database} {e : ProviderEvent} {d : Delivery} {payment : ReportedPayment}
    (hkeys : (db.events.map eventKey).Nodup) (he : e ∈ db.events)
    (h : Redelivers db e d payment) :
    (d.request ext).ends db db = some
      (if e.paymentAttemptId = d.attemptId ∧
          e.payloadSha256 = paymentEventHash ext.sha256 ext.toVec payment d.body.payload then
        .ok ⟨.ok, e.id⟩ else .error (.conflict "provider_event_reused"), db) := by
  obtain ⟨attempt, order, hattempt, hprovider, heditor⟩ := h.attempt
  unfold Delivery.request Handler.request recordPaymentEvent
  rw [ends_bind, valid, ends_ofExcept h.valid, ends_bind, ends_selectFor, ends_bind,
    ends_orElse hattempt]
  show Prog.ends ((requireEditor order.organizationId d.actorUserId >>= fun _ => _) _) db db = _
  unfold requireEditor
  rw [ends_bind, ends_bind, ends_select, ends_require heditor, ends_bind, ends_select, hprovider,
    h.providerEventId, find_event hkeys he]
  show Prog.ends ((Tx.require _ _ >>= fun _ => _) _) db db = _
  by_cases hsame : e.paymentAttemptId = d.attemptId ∧
      e.payloadSha256 = paymentEventHash ext.sha256 ext.toVec payment d.body.payload
  · rw [ends_bind, ends_require (by simp [hsame]), if_pos hsame]
    rfl
  · rw [ends_bind, ends_refused (by simpa using hsame), if_neg hsame]

/-! ### Every event is applied once -/

/-- The commits of events in a run: what each does, and what it leaves to the others. -/
structure AppliedOnce (ext : External) (actions : List (Action Database Row Site Result))
    (pool : Pool Database Row Site Result) : Prop where
  /-- A commit that settles an attempt or pays an order records an event under a new key. -/
  applied : ∀ a pool', Pool.Step (Requests ext eventOperations) (fun _ _ => True) pool a pool' →
    Applied pool.db pool'.db
  /-- What was applied once is not applied again, whatever comes after it. -/
  once : ∀ a pool', Pool.Step (Requests ext eventOperations) (fun _ _ => True) pool a pool' →
    ∀ e, AppliedBy e pool.db pool'.db → ∀ later more b next,
      Run (Pool.Step (Requests ext eventOperations) fun _ _ => True) pool' more later →
      Pool.Step (Requests ext eventOperations) (fun _ _ => True) later b next →
      ∀ f, AppliedBy f later.db next.db → eventKey f ≠ eventKey e
  /-- A paid order stays paid, so it becomes paid at most once. -/
  paidOnce : ∀ later more, Run (Pool.Step (Requests ext eventOperations) fun _ _ => True) pool more later →
    ∀ id o, orderTable.find pool.db id = some o → o.status.Paid →
      ∃ o', orderTable.find later.db id = some o' ∧ o'.status.Paid
  alone : ∀ a ∈ pool.db.attempts, ∀ b ∈ pool.db.attempts, a.orderId = b.orderId →
    a.status = .confirmed → b.status = .confirmed → a = b
  /-- Each event was delivered. A redelivery changes nothing; it is answered with the event if its
  content is the same, and refused if it is not. -/
  delivered : ∀ e ∈ pool.db.events, ∃ d payment, deliveredIn ext actions d ∧
    Records ext pool.db e d payment ∧ ∀ d' payment', Redelivers pool.db e d' payment' →
      inI64 d.body.amountMinor →
      (ext.sha256 (d.bytes ext payment) = ext.sha256 (d'.bytes ext payment') →
        d.bytes ext payment = d'.bytes ext payment') →
      (d'.request ext).ends pool.db pool.db = some
        (if d.content ext = d'.content ext then .ok ⟨.ok, e.id⟩
          else .error (.conflict "provider_event_reused"), pool.db)

/-- What a commit keeps of events and paid orders. -/
structure Keeping (db db' : Database) : Prop where
  events : ∀ e ∈ db.events, e ∈ db'.events
  orders : ∀ id o, orderTable.find db id = some o →
    ∃ o', orderTable.find db' id = some o' ∧ o.status.Leads o'.status

theorem Commits.keeping {L : List (Lock Row)} {db db' : Database} (h : Commits L db db') :
    Keeping db db' where
  events e he := by
    rcases h.applied with h | ⟨f, h⟩
    · rw [h.events]
      exact he
    · rw [h.events]
      exact List.mem_append_left _ he
  orders := h.orders

/-- A pool that a run of such requests reaches. -/
abbrev Sane (ext : External) : Pool Database Row Site Result → Prop :=
  Healthy (Credited ext False fun _ => True) (Forward part Commits) fun _ _ => True

theorem sane_outline {p : Prog Database Row Site Result} (h : Requests ext eventOperations p) :
    SafeRequest (Credited ext False fun _ => True) (Forward part Commits) (fun _ _ => True) p := by
  have hcondition : (fun _ _ => True : Site → Database → Prop) = Condition False := by
    funext site db
    simp [Condition]
  rw [hcondition]
  obtain ⟨operation, hop, h⟩ := h
  by_cases hevent : operation = .recordPaymentEvent
  · subst hevent
    cases h with
    | recordPaymentEvent actorUserId attemptId body eventId =>
        exact recordPaymentEvent_outline (d := ⟨actorUserId, attemptId, body, eventId⟩) trivial
  · refine outline (.inl ⟨operation, ?_, h⟩)
    simp only [eventOperations, List.mem_append, List.mem_cons, List.not_mem_nil, or_false] at hop ⊢
    tauto

theorem Sane.keeping {pool later : Pool Database Row Site Result}
    {actions : List (Action Database Row Site Result)} (h : Sane ext pool)
    (hrun : Run (Pool.Step (Requests ext eventOperations) fun _ _ => True) pool actions later) :
    Keeping pool.db later.db :=
  run_moved (fun _ => sane_outline) (fun _ => ⟨fun _ he => he, fun _ o ho => ⟨o, ho, .refl _⟩⟩)
    (fun _ _ _ h h' => ⟨fun e he => h'.events e (h.events e he), fun id o ho => by
      obtain ⟨o', ho', hlead⟩ := h.orders id o ho
      obtain ⟨o'', ho'', hlead'⟩ := h'.orders id o' ho'
      exact ⟨o'', ho'', hlead.trans hlead'⟩⟩)
    (fun _ _ _ _ _ hG => hG.moved.keeping) hrun h

theorem Sane.applied {pool pool' : Pool Database Row Site Result} {a : Action Database Row Site Result}
    (h : Sane ext pool)
    (hstep : Pool.Step (Requests ext eventOperations) (fun _ _ => True) pool a pool') :
    Applied pool.db pool'.db := by
  obtain ⟨-, hsame | ⟨L, hL⟩⟩ := h.step (fun _ => sane_outline) hstep
  · rw [hsame]
    exact .inl ⟨rfl, fun _ _ ha => .inl ha, fun _ o ho => ⟨o, ho, .refl _⟩, fun _ o ho hp => ⟨o, ho, hp⟩⟩
  · exact hL.moved.applied

/-- **Events are applied at most once**, whatever is delivered how often and in whatever order. -/
theorem events_applied_once {db₀ : Database} (h₀ : NoPayments db₀)
    {pool : Pool Database Row Site Result} {actions : List (Action Database Row Site Result)}
    (hrun : Run (Pool.Step (Requests ext eventOperations) fun _ _ => True) (Pool.idle db₀) actions
      pool) :
    AppliedOnce ext actions pool := by
  have hsane : Sane ext pool := run_healthy (fun _ => sane_outline) hrun (healthy_idle h₀.credited)
  have hnever (site : Site) (db : Database) : True → Condition False site db := fun _ h => h.elim
  have hcredited := (run_credited hnever h₀ hrun).inv
  refine ⟨fun a pool' hstep => hsane.applied hstep, ?_, ?_, ?_, ?_⟩
  · intro a pool' hstep e he later more b next hmore hnext f hf
    have hsane' : Sane ext pool' := (hsane.step (fun _ => sane_outline) hstep).1
    have hmem : e ∈ pool'.db.events := by
      rw [he.events]
      exact List.mem_append_right _ (List.mem_singleton.mpr rfl)
    exact fun heq => hf.first e ((hsane'.keeping hmore).events e hmem) heq.symm
  · intro later more hmore id o ho hpaid
    obtain ⟨o', ho', hlead⟩ := (hsane.keeping hmore).orders id o ho
    exact ⟨o', ho', hpaid.leads hlead⟩
  · intro a ha b hb horder hconfirmed hconfirmed'
    have hid := hcredited.alone a ha b hb horder (.inr hconfirmed) (.inr hconfirmed')
    exact List.inj_on_of_nodup_map hcredited.attemptIds ha hb hid
  · intro e he
    obtain ⟨d, payment, hsent, hrecords⟩ := hcredited.recorded e he
    refine ⟨d, payment, hsent, hrecords, fun d' payment' hagain hamount hfree => ?_⟩
    rw [ends_redelivery hcredited.keys he hagain]
    have hiff := same_content_iff hrecords.valid hagain.valid hamount hagain.amount
      (hrecords.providerEventId.symm.trans hagain.providerEventId.symm) hfree
    rw [← hrecords.attempt, ← hrecords.payload] at hiff
    simp only [hiff]

/-! ### A payment that is reported again -/

/-- The sale's external functions, with the digest of the report that contradicts the first. -/
def eventExternal : External where
  sha256 value :=
    if value.size = 35 then
      bytesOf 0xfd0c2f77c6c3cc32a7733c17c579caa863101dc01f957e6510aa019da3ea923e
    else saleSha256 value
  toVec := saleExternal.toVec
  parseRfc3339 := saleExternal.parseRfc3339
  timeJson := saleExternal.timeJson

/-- The same event, reported as a failure. -/
def reportFailure : Delivery := ⟨3, 33, { paymentReport with outcome := "failed" }, 61⟩

/-- A seat is paid by an event that is delivered twice, and then contradicted. -/
def reportedAgain : List (Prog Database Row Site Result) :=
  [(createReservation eventExternal.sha256 1 24 ⟨1, "k1"⟩ ⟨30, 31, 32⟩).request, openAttempt,
    reportPayment.request eventExternal, reportPayment.request eventExternal,
    reportFailure.request eventExternal]

theorem reportedAgain_requests : ∀ p ∈ reportedAgain, Requests eventExternal eventOperations p := by
  simp only [reportedAgain, List.forall_mem_cons]
  refine ⟨?_, ?_, ?_, ?_, ?_, fun p hp => by cases hp⟩
  · exact ⟨_, by decide, .createReservation 1 24 ⟨1, "k1"⟩ ⟨30, 31, 32⟩⟩
  · exact ⟨_, by decide, .createPaymentAttempt 3 30 ⟨"stellar", none, none⟩ 33⟩
  · exact ⟨_, by decide, .recordPaymentEvent 3 33 paymentReport 60⟩
  · exact ⟨_, by decide, .recordPaymentEvent 3 33 paymentReport 60⟩
  · exact ⟨_, by decide, .recordPaymentEvent 3 33 { paymentReport with outcome := "failed" } 61⟩

theorem reportedAgain_outcome : (Pool.serveAll (fun _ _ => True) shopDatabase reportedAgain).any
    (fun sold => sold.1.drop 2 = [.ok ⟨.created, 60⟩, .ok ⟨.ok, 60⟩,
        .error (.conflict "provider_event_reused")] &&
      sold.2.events.map eventKey = [("stellar", "e1")] &&
      sold.2.orders.map (·.status) = [.paid] &&
      sold.2.attempts.map (·.status) = [.confirmed]) = true := by
  decide +kernel

/-- The event is recorded once, and its order is paid. -/
theorem reportedAgain_applied_once :
    ∃ (pool : Pool Database Row Site Result) (actions : List (Action Database Row Site Result)),
      Run (Pool.Step (Requests eventExternal eventOperations) fun _ _ => True)
        (Pool.idle shopDatabase) actions pool ∧
      pool.db.events.map eventKey = [("stellar", "e1")] ∧ pool.db.orders.map (·.status) = [.paid] ∧
      AppliedOnce eventExternal actions pool := by
  obtain ⟨sold, hsold, hall⟩ := (Option.any_eq_true _ _).mp reportedAgain_outcome
  simp only [Bool.and_eq_true, decide_eq_true_eq] at hall
  obtain ⟨actions, hrun⟩ := Pool.run_of_serveAll reportedAgain_requests hsold
  exact ⟨_, actions, hrun, hall.1.1.2, hall.1.2, events_applied_once shopDatabase_noPayments hrun⟩

end CrownFi.Commerce.Credits
