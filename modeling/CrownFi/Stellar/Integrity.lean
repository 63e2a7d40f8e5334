import CrownFi.Stellar.RoundTrip

/-!
# CrownFi.Stellar.Integrity

**A signed envelope cannot differ from its intent.** As long as the hash function has no
collision among the transaction bodies at hand, the envelopes that are accepted for an intent
are those with the very body that was built for it, and one to twenty signatures behind it
(`accepts_iff`).
-/

namespace CrownFi.Stellar

open Lib CrownFi.Api

/-- The hash function has no collision among these messages. -/
def NoCollision (sha256 : Sha256) (messages : Set (List UInt8)) : Prop :=
  Set.InjOn sha256 (Set.image (fun m => (⟨m.toArray⟩ : ByteArray)) messages)

theorem NoCollision.hashList_injOn {sha256 : Sha256} {messages : Set (List UInt8)}
    (h : NoCollision sha256 messages) : Set.InjOn (hashList sha256) messages := by
  intro m hm n hn heq
  have hvec : sha256 ⟨m.toArray⟩ = sha256 ⟨n.toArray⟩ := Vector.toList_inj.mp (hexEncode_injective heq)
  have hbytes := h ⟨m, hm, rfl⟩ ⟨n, hn, rfl⟩ hvec
  exact congrArg (fun b => b.data.toList) hbytes

/-- What the comparison with an intent asks of an envelope. -/
structure Agrees (sha256 : Sha256) (parsed : ParsedEnvelope) (i : IntentTerms) : Prop where
  body : hashList sha256 parsed.transactionBody = i.transactionBodySha256
  sourceAccount : decodeStellarAccount i.sourceAccount = .ok parsed.sourceAccount
  destinationAccount : decodeStellarAccount i.destinationAccount = .ok parsed.destinationAccount
  sequence : parsed.sequence = i.transactionSequence
  fee : parsed.fee = i.baseFee
  amount : parsed.amount = i.amountMinor
  assetCode : parsed.assetCode = i.assetCode
  memoText : parsed.memoText = some i.memoText
  assetIssuer : optional decodeStellarAccount i.assetIssuer = .ok parsed.assetIssuer
  deadline : 0 < i.expiresAtUnix
  maxTime : parsed.maxTime = some i.expiresAtUnix.toNat

theorem validate_eq_ok {sha256 : Sha256} {parsed : ParsedEnvelope} {i : IntentTerms} :
    validateSignedEnvelopeAgainstIntent sha256 parsed i = .ok () ↔ Agrees sha256 parsed i := by
  unfold validateSignedEnvelopeAgainstIntent
  simp only [throw_bind, bind_eq_ok, guard_eq_ok, not_or, not_not, ne_eq]
  constructor
  · rintro ⟨hbody, source, hsource, hsame, destination, hdestination, ⟨hto, hsequence, hfee, hamount, hcode,
      hmemo⟩, issuer, hissuer, hsameIssuer, hrest⟩
    split at hrest
    · cases hrest
    · rename_i hexpiry
      obtain ⟨hdeadline, hmax⟩ := not_or.mp hexpiry
      exact ⟨hbody, hsame ▸ hsource, hto ▸ hdestination, hsequence, hfee, hamount, hcode, hmemo,
        hsameIssuer ▸ hissuer, not_le.mp hdeadline, not_not.mp hmax⟩
  · intro h
    refine ⟨h.body, _, h.sourceAccount, rfl, _, h.destinationAccount, ⟨rfl, h.sequence, h.fee, h.amount,
      h.assetCode, h.memoText⟩, _, h.assetIssuer, rfl, ?_⟩
    rw [if_neg (not_or.mpr ⟨not_le.mpr h.deadline, not_not.mpr h.maxTime⟩)]
    rfl

/-- The bytes of a signed envelope are accepted for an intent: they parse, they carry a
signature, and what they say agrees with the intent. -/
def Accepts (sha256 : Sha256) (bytes : List UInt8) (i : IntentTerms) : Prop :=
  ∃ parsed, parsePaymentEnvelope bytes = .ok parsed ∧ parsed.signatureCount ≠ 0 ∧
    validateSignedEnvelopeAgainstIntent sha256 parsed i = .ok ()

/-- The envelope of a body with one to twenty well-formed signatures, and nothing else. -/
def SignedBytes (body bytes : List UInt8) : Prop :=
  ∃ signatures : List DecoratedSignature, 1 ≤ signatures.length ∧ signatures.length ≤ 20 ∧
    (∀ s ∈ signatures, s.WellFormed) ∧ bytes = envelopeBytes body signatures

/-- A transaction agrees with the terms that describe it. -/
theorem IntentTerms.Describes.agrees {sha256 : Sha256} {i : IntentTerms} {t : PaymentTransaction}
    (h : i.Describes t) (hhash : i.transactionBodySha256 = hashList sha256 t.write) (n : Nat) :
    Agrees sha256 (t.parsed n) i where
  body := hhash.symm
  sourceAccount := h.sourceAccount
  destinationAccount := h.destinationAccount
  sequence := h.sequence
  fee := h.fee
  amount := h.amount
  assetCode := h.asset.code_eq
  memoText := h.memoText
  assetIssuer := h.asset.issuer_eq
  deadline := h.deadline
  maxTime := by rw [PaymentTransaction.parsed, h.timeBounds, Option.map_some]

/-- **The envelopes that are accepted** for the intent that a transaction was built for. -/
theorem accepts_iff {sha256 : Sha256} {bodies : Set (List UInt8)} (hfree : NoCollision sha256 bodies)
    {i : IntentTerms} {t : PaymentTransaction} (h : i.Describes t) (hrange : i.InRange)
    (hhash : i.transactionBodySha256 = hashList sha256 t.write) (hbody : t.write ∈ bodies)
    {bytes : List UInt8}
    (hbytes : ∀ parsed, parsePaymentEnvelope bytes = .ok parsed → parsed.transactionBody ∈ bodies) :
    Accepts sha256 bytes i ↔ SignedBytes t.write bytes := by
  constructor
  · intro ⟨parsed, hparsed, hsigned, hvalid⟩
    obtain ⟨t', -, signatures, hcount, hsignatures, rfl, rfl⟩ := parsePaymentEnvelope_iff.mp hparsed
    have hsame : t'.write = t.write :=
      hfree.hashList_injOn (hbytes _ hparsed) hbody ((validate_eq_ok.mp hvalid).body.trans hhash)
    rw [hsame]
    exact ⟨signatures, Nat.one_le_iff_ne_zero.mpr hsigned, hcount, hsignatures, rfl⟩
  · intro ⟨signatures, hsigned, hcount, hsignatures, hform⟩
    refine ⟨t.parsed signatures.length, ?_, Nat.one_le_iff_ne_zero.mp hsigned, ?_⟩
    · exact parsePaymentEnvelope_iff.mpr
        ⟨t, h.valid hrange, signatures, hcount, hsignatures, hform, rfl⟩
    · exact validate_eq_ok.mpr (h.agrees hhash _)

end CrownFi.Stellar
