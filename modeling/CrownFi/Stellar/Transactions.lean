import CrownFi.Stellar.Xdr

/-!
# CrownFi.Stellar.Transactions

**What a payment transaction is**, apart from its bytes: an account, a fee, a sequence number,
bounds in time, a memo and one payment. `PaymentTransaction.write` gives its bytes. The reader
of envelopes accepts exactly the bytes of a valid transaction with at most twenty well-formed
signatures behind it, and says what that transaction says (`parsePaymentEnvelope_iff`).
-/

namespace CrownFi.Stellar

open Lib CrownFi.Api XdrReader

/-- A transaction with one payment. -/
structure PaymentTransaction where
  sourceAccount : List UInt8
  fee : Nat
  sequence : Int
  timeBounds : Option (Nat × Nat)
  memoText : Option String
  destinationAccount : List UInt8
  asset : PaymentAsset
  amount : Int
  deriving DecidableEq, Repr

/-! ### The parts of the reader -/

def readTimeBounds : XdrReader (Option Nat) := do
  let precondition ← readI32
  if precondition = precondNone then pure none
  else if precondition = precondTime then do
    let _ ← readU64
    let maxTime ← readU64
    pure (some maxTime)
  else fail "unsupported_stellar_preconditions"

def readMemo : XdrReader (Option String) := do
  let memoKind ← readI32
  if memoKind = memoNone then pure none
  else if memoKind = memoText then do
    let memo ← readXdrString 28
    pure (some memo)
  else fail "unsupported_stellar_memo"

/-- One operation, without a source of its own, that is a payment. -/
def readPaymentHead : XdrReader PUnit := do
  let operations ← readU32
  if operations ≠ 1 then
    fail "stellar_intent_requires_one_operation"
  let operationSource ← readI32
  if operationSource ≠ 0 then
    fail "operation_source_not_allowed"
  let operation ← readI32
  if operation ≠ operationPayment then
    fail "unsupported_stellar_operation"
  pure ⟨⟩

def readExtension : XdrReader PUnit := do
  let extension ← readI32
  if extension ≠ 0 then
    fail "unsupported_transaction_extension"
  pure ⟨⟩

/-- What an envelope says, without its signatures. -/
def readTransaction : XdrReader ParsedEnvelope := do
  let sourceAccount ← readEd25519Account
  let fee ← readU32
  let sequence ← readI64
  let maxTime ← readTimeBounds
  let memoText ← readMemo
  readPaymentHead
  let destinationAccount ← readEd25519Account
  let asset ← readAsset
  let amount ← readI64
  readExtension
  return { transactionBody := [], sourceAccount, sequence, fee, maxTime, memoText
           destinationAccount, assetCode := asset.1, assetIssuer := asset.2, amount
           signatureCount := 0 }

/-- The signatures behind a transaction with this body. -/
def readSignatures (body : List UInt8) (t : ParsedEnvelope) : XdrReader ParsedEnvelope := do
  let signatureCount ← readU32
  if 20 < signatureCount then
    fail "too_many_stellar_signatures"
  skipSignatures signatureCount
  return { t with transactionBody := body, signatureCount }

theorem fail_bind {α β : Type} {code : String} {k : α → XdrReader β} :
    (fail code >>= k) = fail code := rfl

theorem ite_bind {α β : Type} {c : Prop} [Decidable c] {r s : XdrReader α} {k : α → XdrReader β} :
    ((if c then r else s) >>= k) = if c then r >>= k else s >>= k := by
  split <;> rfl

/-- The reader of envelopes, by its parts. -/
theorem readPaymentEnvelope_eq : readPaymentEnvelope = (do
    let envelopeType ← readI32
    if envelopeType ≠ envelopeTypeTx then
      fail "unsupported_stellar_envelope_type"
    let start ← get
    let t ← readTransaction
    let rest ← get
    readSignatures (start.take (start.length - rest.length)) t) := by
  simp only [readPaymentEnvelope, readTransaction, readTimeBounds, readMemo, readPaymentHead,
    readExtension, readSignatures, bind_assoc, pure_bind, ite_bind, fail_bind]

/-! ### Their formats -/

def writeTimeBounds : Option (Nat × Nat) → List UInt8
  | none => writeI32 precondNone
  | some (minTime, maxTime) => writeI32 precondTime ++ (writeU64 minTime ++ writeU64 maxTime)

def writeMemo : Option String → List UInt8
  | none => writeI32 memoNone
  | some memo => writeI32 memoText ++ writeVarOpaque (textBytes memo)

def writePaymentHead : List UInt8 := writeU32 1 ++ (writeI32 0 ++ writeI32 operationPayment)

theorem readTimeBounds_reads : Reads readTimeBounds fun maxTime p =>
    ∃ bounds : Option (Nat × Nat), (∀ b ∈ bounds, b.1 < 2 ^ 64 ∧ b.2 < 2 ^ 64) ∧
      p = writeTimeBounds bounds ∧ maxTime = bounds.map Prod.snd := by
  refine Reads.congr (readI32_reads.bind fun precondition => Reads.ite Reads.pure <| Reads.ite
    (readU64_reads.bind fun minTime => readU64_reads.bind fun maxTime => Reads.pure) Reads.throw)
    fun maxTime p => ?_
  constructor
  · rintro ⟨precondition, q, q', rfl, ⟨rfl, -⟩, hrest⟩
    split at hrest
    · rename_i hnone
      obtain ⟨rfl, rfl⟩ := hrest
      exact ⟨none, by simp, by rw [hnone, List.append_nil]; rfl, rfl⟩
    split at hrest
    · rename_i htime
      obtain ⟨minTime, r, r', rfl, ⟨rfl, hmin⟩, maxTime, t, t', rfl, ⟨rfl, hmax⟩, rfl, rfl⟩ := hrest
      refine ⟨some (minTime, maxTime), by simpa using ⟨hmin, hmax⟩, ?_, rfl⟩
      rw [htime, List.append_nil]
      rfl
    · exact hrest.elim
  · rintro ⟨bounds, hvalid, rfl, rfl⟩
    cases bounds with
    | none => exact ⟨precondNone, _, [], (List.append_nil _).symm, ⟨rfl, by decide⟩, rfl, rfl⟩
    | some b =>
        obtain ⟨hmin, hmax⟩ := hvalid b rfl
        exact ⟨precondTime, _, _, rfl, ⟨rfl, by decide⟩, b.1, _, _, rfl, ⟨rfl, hmin⟩, b.2, _, [],
          (List.append_nil _).symm, ⟨rfl, hmax⟩, rfl, rfl⟩

theorem readMemo_reads : Reads readMemo fun memo p =>
    (∀ text ∈ memo, (textBytes text).length ≤ 28) ∧ p = writeMemo memo := by
  refine Reads.congr (readI32_reads.bind fun memoKind => Reads.ite Reads.pure <| Reads.ite
    ((readXdrString_reads (by decide)).bind fun text => Reads.pure) Reads.throw) fun memo p => ?_
  constructor
  · rintro ⟨memoKind, q, q', rfl, ⟨rfl, -⟩, hrest⟩
    split at hrest
    · rename_i hnone
      obtain ⟨rfl, rfl⟩ := hrest
      exact ⟨by simp, by rw [hnone, List.append_nil]; rfl⟩
    split at hrest
    · rename_i htext
      obtain ⟨text, r, r', rfl, ⟨rfl, hlength⟩, rfl, rfl⟩ := hrest
      refine ⟨by simpa using hlength, ?_⟩
      rw [htext, List.append_nil]
      rfl
    · exact hrest.elim
  · rintro ⟨hvalid, rfl⟩
    cases memo with
    | none => exact ⟨memoNone, _, [], (List.append_nil _).symm, ⟨rfl, by decide⟩, rfl, rfl⟩
    | some text =>
        exact ⟨memoText, _, _, rfl, ⟨rfl, by decide⟩, text, _, [], (List.append_nil _).symm,
          ⟨rfl, hvalid text rfl⟩, rfl, rfl⟩

theorem readPaymentHead_reads : Reads readPaymentHead fun _ p => p = writePaymentHead := by
  refine Reads.congr (readU32_reads.bind fun operations => Reads.guard <|
    readI32_reads.bind fun operationSource => Reads.guard <|
      readI32_reads.bind fun operation => Reads.guard Reads.pure) fun _ p => ?_
  constructor
  · rintro ⟨operations, q, q', rfl, ⟨rfl, -⟩, hone, source, r, r', rfl, ⟨rfl, -⟩, hsource, operation,
      t, t', rfl, ⟨rfl, -⟩, hpayment, -, rfl⟩
    rw [not_not.mp hone, not_not.mp hsource, not_not.mp hpayment, List.append_nil]
    rfl
  · rintro rfl
    exact ⟨1, _, _, rfl, ⟨rfl, by decide⟩, not_not.mpr rfl, 0, _, _, rfl, ⟨rfl, by decide⟩,
      not_not.mpr rfl, operationPayment, _, [], (List.append_nil _).symm, ⟨rfl, by decide⟩,
      not_not.mpr rfl, rfl, rfl⟩

theorem readExtension_reads : Reads readExtension fun _ p => p = writeI32 0 := by
  refine Reads.congr (readI32_reads.bind fun extension => Reads.guard Reads.pure) fun _ p => ?_
  constructor
  · rintro ⟨extension, q, q', rfl, ⟨rfl, -⟩, hzero, -, rfl⟩
    rw [not_not.mp hzero, List.append_nil]
  · rintro rfl
    exact ⟨0, _, [], (List.append_nil _).symm, ⟨rfl, by decide⟩, not_not.mpr rfl, rfl, rfl⟩

/-! ### Transactions -/

namespace PaymentTransaction

/-- The body of the transaction: its fields in order. -/
def write (t : PaymentTransaction) : List UInt8 :=
  (writeI32 keyTypeEd25519 ++ t.sourceAccount) ++ (writeU32 t.fee ++ (writeI64 t.sequence ++
    (writeTimeBounds t.timeBounds ++ (writeMemo t.memoText ++ (writePaymentHead ++
      ((writeI32 keyTypeEd25519 ++ t.destinationAccount) ++ (t.asset.write ++
        (writeI64 t.amount ++ writeI32 0))))))))

/-- Every field fits into its bytes. -/
structure Valid (t : PaymentTransaction) : Prop where
  sourceAccount : t.sourceAccount.length = 32
  fee : t.fee < 2 ^ 32
  sequence : inI64 t.sequence
  timeBounds : ∀ b ∈ t.timeBounds, b.1 < 2 ^ 64 ∧ b.2 < 2 ^ 64
  memoText : ∀ text ∈ t.memoText, (textBytes text).length ≤ 28
  destinationAccount : t.destinationAccount.length = 32
  asset : t.asset.Valid
  amount : inI64 t.amount

/-- What is read of the transaction and the signatures behind it. -/
def parsed (t : PaymentTransaction) (signatureCount : Nat) : ParsedEnvelope where
  transactionBody := t.write
  sourceAccount := t.sourceAccount
  sequence := t.sequence
  fee := t.fee
  maxTime := t.timeBounds.map Prod.snd
  memoText := t.memoText
  destinationAccount := t.destinationAccount
  assetCode := t.asset.code
  assetIssuer := t.asset.issuer
  amount := t.amount
  signatureCount := signatureCount

end PaymentTransaction

theorem readTransaction_reads : Reads readTransaction fun parsed p =>
    ∃ t : PaymentTransaction, t.Valid ∧ p = t.write ∧
      parsed = { t.parsed 0 with transactionBody := [] } := by
  refine Reads.congr (readEd25519Account_reads.bind fun source => readU32_reads.bind fun fee =>
    readI64_reads.bind fun sequence => readTimeBounds_reads.bind fun maxTime =>
    readMemo_reads.bind fun memo => readPaymentHead_reads.bind fun _ =>
    readEd25519Account_reads.bind fun destination => readAsset_reads.bind fun asset =>
    readI64_reads.bind fun amount => readExtension_reads.bind fun _ => Reads.pure) fun parsed p => ?_
  constructor
  · rintro ⟨source, _, _, rfl, ⟨rfl, hsource⟩, fee, _, _, rfl, ⟨rfl, hfee⟩, sequence, _, _, rfl,
      ⟨rfl, hsequence⟩, maxTime, _, _, rfl, ⟨bounds, hbounds, rfl, rfl⟩, memo, _, _, rfl, ⟨hmemo, rfl⟩,
      _, _, _, rfl, rfl, destination, _, _, rfl, ⟨rfl, hdestination⟩, asset, _, _, rfl,
      ⟨a, ha, rfl, rfl⟩, amount, _, _, rfl, ⟨rfl, hamount⟩, _, _, _, rfl, rfl, rfl, rfl⟩
    refine ⟨⟨source, fee, sequence, bounds, memo, destination, a, amount⟩,
      ⟨hsource, hfee, hsequence, hbounds, hmemo, hdestination, ha, hamount⟩, ?_, rfl⟩
    rw [List.append_nil]
    rfl
  · rintro ⟨t, ht, rfl, rfl⟩
    exact ⟨t.sourceAccount, _, _, rfl, ⟨rfl, ht.sourceAccount⟩, t.fee, _, _, rfl, ⟨rfl, ht.fee⟩,
      t.sequence, _, _, rfl, ⟨rfl, ht.sequence⟩, _, _, _, rfl, ⟨t.timeBounds, ht.timeBounds, rfl, rfl⟩,
      t.memoText, _, _, rfl, ⟨ht.memoText, rfl⟩, ⟨⟩, _, _, rfl, rfl, t.destinationAccount, _, _, rfl,
      ⟨rfl, ht.destinationAccount⟩, _, _, _, rfl, ⟨t.asset, ht.asset, rfl, rfl⟩, t.amount, _, _, rfl,
      ⟨rfl, ht.amount⟩, ⟨⟩, _, [], (List.append_nil _).symm, rfl, rfl, rfl⟩

/-! ### Envelopes -/

/-- A transaction body and the signatures of it. -/
def envelopeBytes (body : List UInt8) (signatures : List DecoratedSignature) : List UInt8 :=
  writeI32 envelopeTypeTx ++ (body ++ (writeU32 signatures.length ++
    signatures.flatMap DecoratedSignature.write))

theorem readSignatures_reads (body : List UInt8) (t : ParsedEnvelope) :
    Reads (readSignatures body t) fun parsed p =>
      ∃ signatures : List DecoratedSignature, signatures.length ≤ 20 ∧
        (∀ s ∈ signatures, s.WellFormed) ∧
        p = writeU32 signatures.length ++ signatures.flatMap DecoratedSignature.write ∧
        parsed = { t with transactionBody := body, signatureCount := signatures.length } := by
  refine Reads.congr (readU32_reads.bind fun signatureCount => Reads.guard <|
    (skipSignatures_reads signatureCount).bind fun _ => Reads.pure) fun parsed p => ?_
  constructor
  · rintro ⟨signatureCount, _, _, rfl, ⟨rfl, -⟩, hcount, _, _, _, rfl, ⟨signatures, rfl, hsignatures,
      rfl⟩, rfl, rfl⟩
    exact ⟨signatures, not_lt.mp hcount, hsignatures, by rw [List.append_nil], rfl⟩
  · rintro ⟨signatures, hcount, hsignatures, rfl, rfl⟩
    exact ⟨signatures.length, _, _, rfl, ⟨rfl, by omega⟩, not_lt.mpr hcount, ⟨⟩, _, [],
      (List.append_nil _).symm, ⟨signatures, rfl, hsignatures, rfl⟩, rfl, rfl⟩

theorem readPaymentEnvelope_reads : Reads readPaymentEnvelope fun parsed p =>
    ∃ t : PaymentTransaction, t.Valid ∧ ∃ signatures : List DecoratedSignature,
      signatures.length ≤ 20 ∧ (∀ s ∈ signatures, s.WellFormed) ∧
      p = envelopeBytes t.write signatures ∧ parsed = t.parsed signatures.length := by
  rw [readPaymentEnvelope_eq]
  have hbehind := readTransaction_reads.consumed (s := readSignatures) readSignatures_reads
  refine Reads.congr (readI32_reads.bind fun envelopeType => Reads.guard hbehind) fun parsed p => ?_
  constructor
  · rintro ⟨envelopeType, _, _, rfl, ⟨rfl, -⟩, htype, _, _, _, rfl, ⟨t, ht, rfl, rfl⟩, signatures,
      hcount, hsignatures, rfl, rfl⟩
    refine ⟨t, ht, signatures, hcount, hsignatures, ?_, rfl⟩
    rw [not_not.mp htype]
    rfl
  · rintro ⟨t, ht, signatures, hcount, hsignatures, rfl, rfl⟩
    exact ⟨envelopeTypeTx, _, _, rfl, ⟨rfl, by decide⟩, not_not.mpr rfl, _, _, _, rfl, ⟨t, ht, rfl, rfl⟩,
      signatures, hcount, hsignatures, rfl, rfl⟩

/-- **What the parser accepts**: the envelopes of valid transactions with up to twenty
signatures, and nothing behind them. -/
theorem parsePaymentEnvelope_iff {bytes : List UInt8} {parsed : ParsedEnvelope} :
    parsePaymentEnvelope bytes = .ok parsed ↔
      ∃ t : PaymentTransaction, t.Valid ∧ ∃ signatures : List DecoratedSignature,
        signatures.length ≤ 20 ∧ (∀ s ∈ signatures, s.WellFormed) ∧
        bytes = envelopeBytes t.write signatures ∧ parsed = t.parsed signatures.length := by
  rw [← readPaymentEnvelope_reads.run_all]
  unfold parsePaymentEnvelope
  simp only [bind_eq_ok, Prod.exists]
  constructor
  · rintro ⟨parsed', rest, hread, hrest⟩
    obtain ⟨hempty, hparsed⟩ := guard_eq_ok.mp hrest
    rw [not_not.mp hempty, Except.ok.inj hparsed] at hread
    exact hread
  · intro hread
    exact ⟨parsed, [], hread, rfl⟩

end CrownFi.Stellar
