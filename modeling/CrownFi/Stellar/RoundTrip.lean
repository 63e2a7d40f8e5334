import CrownFi.Stellar.Transactions

/-!
# CrownFi.Stellar.RoundTrip

**What is built reads back.** The builder writes the bytes of the transaction that its
arguments describe (`build_eq_ok`), so the parser finds these arguments again in what it
built. It builds nothing for an empty memo, or for a deadline that is not after the epoch.
-/

namespace CrownFi.Stellar

open Lib CrownFi.Api

/-! ### Accounts, memos and assets -/

theorem length_decodeStellarAccount {value : String} {key : List UInt8}
    (h : decodeStellarAccount value = .ok key) : key.length = 32 := by
  unfold decodeStellarAccount at h
  cases hbytes : strKeyBytes value with
  | none =>
      rw [hbytes] at h
      cases h
  | some decoded =>
      rw [hbytes] at h
      obtain ⟨-, h⟩ := guard_eq_ok.mp h
      obtain ⟨-, h⟩ := guard_eq_ok.mp h
      have hlength : decoded.length = 35 := by
        unfold strKeyBytes at hbytes
        split at hbytes
        · cases hbytes
        · obtain ⟨b, -, hb⟩ := Option.bind_eq_some_iff.mp hbytes
          split at hb
          · cases hb
          · rename_i hnot
            rw [← Option.some.inj hb]
            exact not_not.mp (not_or.mp hnot).2
      rw [← Except.ok.inj h, List.length_take, List.length_drop, hlength]
      rfl

theorem byteLength_toList (s : String) : byteLength s.toList = (textBytes s).length := by
  rw [textBytes, toUTF8_toList, List.length_flatMap, byteLength]
  simp only [String.length_utf8EncodeChar]

theorem writeXdrString_eq_ok {value : String} {maxLength : Nat} {bytes : List UInt8} :
    writeXdrString value maxLength = .ok bytes ↔
      (textBytes value).length ≤ maxLength ∧ bytes = writeVarOpaque (textBytes value) := by
  unfold writeXdrString
  rw [guard_eq_ok, not_lt, Except.ok.injEq, eq_comm (b := bytes)]
  rfl

/-- The asset that a code and an issuer name. -/
inductive Names : String → Option String → PaymentAsset → Prop
  | native : Names "XLM" none .native
  | issued {code issuer : String} {key : List UInt8} (hcode : code ≠ "XLM")
      (hletters : IsAssetCode code) (hlength : (textBytes code).length ≤ 12)
      (hissuer : decodeStellarAccount issuer = .ok key) :
      Names code (some issuer) (.alphanum (4 < (textBytes code).length) code key)

theorem Names.valid {code : String} {issuer : Option String} {a : PaymentAsset}
    (h : Names code issuer a) : a.Valid := by
  cases h with
  | native => trivial
  | issued hcode hletters hlength hissuer =>
      refine ⟨hletters, ?_, length_decodeStellarAccount hissuer⟩
      unfold PaymentAsset.width
      split <;> simp_all

theorem Names.code_eq {code : String} {issuer : Option String} {a : PaymentAsset}
    (h : Names code issuer a) : a.code = code := by
  cases h <;> rfl

theorem Names.issuer_eq {code : String} {issuer : Option String} {a : PaymentAsset}
    (h : Names code issuer a) : optional decodeStellarAccount issuer = .ok a.issuer := by
  cases h with
  | native => rfl
  | issued hcode hletters hlength hissuer =>
      show Except.map some _ = _
      rw [hissuer]
      rfl

theorem isAssetCode_iff {code : String} :
    ¬ ((textBytes code).isEmpty || !code.toList.all fun c => isUpper c || isDigit c) = true ↔
      IsAssetCode code := by
  rw [Bool.not_eq_true, Bool.or_eq_false_iff, List.isEmpty_eq_false_iff, Bool.not_eq_false']
  constructor
  · intro ⟨hne, hletters⟩
    refine ⟨fun hnil => hne ?_, hletters⟩
    rw [textBytes, toUTF8_toList, hnil]
    rfl
  · intro h
    exact ⟨h.textBytes_ne_nil, h.letters⟩

theorem alphanum_write (wide : Bool) (code : String) (key : List UInt8) :
    (PaymentAsset.alphanum wide code key).write =
      writeI32 (PaymentAsset.kind wide) ++ textBytes code ++
        List.replicate (PaymentAsset.width wide - (textBytes code).length) 0 ++
          writeI32 keyTypeEd25519 ++ key := by
  simp only [PaymentAsset.write, padCode, List.append_assoc]

theorem writeAsset_eq_ok {code : String} {issuer : Option String} {bytes : List UInt8} :
    writeAsset code issuer = .ok bytes ↔ ∃ a, Names code issuer a ∧ bytes = a.write := by
  have hbytes : code.toUTF8.toList = textBytes code := rfl
  unfold writeAsset
  by_cases hcode : code = "XLM"
  · subst hcode
    simp only [if_true, throw_bind]
    rw [guard_eq_ok, pure_eq_ok, Bool.not_eq_true, Option.isSome_eq_false_iff, Option.isNone_iff_eq_none]
    constructor
    · rintro ⟨rfl, rfl⟩
      exact ⟨.native, .native, rfl⟩
    · rintro ⟨a, hnames, rfl⟩
      cases hnames with
      | native => exact ⟨rfl, rfl⟩
      | issued hne => exact absurd rfl hne
  · rw [if_neg hcode]
    cases issuer with
    | none =>
        simp only [throw_bind]
        constructor
        · intro h
          cases h
        · rintro ⟨a, hnames, -⟩
          cases hnames
          exact absurd rfl hcode
    | some issuer =>
        simp only [pure_bind, bind_eq_ok, throw_bind, hbytes]
        constructor
        · rintro ⟨key, hkey, h⟩
          split at h
          · rename_i hshort
            obtain ⟨hletters, h⟩ := guard_eq_ok.mp h
            refine ⟨_, .issued hcode (isAssetCode_iff.mp hletters) (le_trans hshort (by decide)) hkey, ?_⟩
            rw [← pure_eq_ok.mp h, decide_eq_false (not_lt.mpr hshort), alphanum_write]
            rfl
          split at h
          · rename_i hlong hlength
            obtain ⟨hletters, h⟩ := guard_eq_ok.mp h
            refine ⟨_, .issued hcode (isAssetCode_iff.mp hletters) hlength hkey, ?_⟩
            rw [← pure_eq_ok.mp h, decide_eq_true (not_le.mp hlong), alphanum_write]
            rfl
          · cases h
        · rintro ⟨a, hnames, rfl⟩
          cases hnames with
          | issued _ hletters hlength hkey =>
              refine ⟨_, hkey, ?_⟩
              by_cases hshort : (textBytes code).length ≤ 4
              · rw [if_pos hshort, if_neg (isAssetCode_iff.mpr hletters), pure_eq_ok,
                  decide_eq_false (not_lt.mpr hshort), alphanum_write]
                rfl
              · rw [if_neg hshort, if_pos hlength, if_neg (isAssetCode_iff.mpr hletters), pure_eq_ok,
                  decide_eq_true (not_le.mp hshort), alphanum_write]
                rfl

/-! ### The transaction that the arguments describe -/

/-- The arguments of the builder, as an intent keeps them, describe a transaction. -/
structure IntentTerms.Describes (i : IntentTerms) (t : PaymentTransaction) : Prop where
  sourceAccount : decodeStellarAccount i.sourceAccount = .ok t.sourceAccount
  destinationAccount : decodeStellarAccount i.destinationAccount = .ok t.destinationAccount
  sequence : t.sequence = i.transactionSequence
  fee : t.fee = i.baseFee
  positive : 0 < i.amountMinor
  amount : t.amount = i.amountMinor
  asset : Names i.assetCode i.assetIssuer t.asset
  nonempty : i.memoText.toList ≠ []
  short : (textBytes i.memoText).length ≤ 28
  memoText : t.memoText = some i.memoText
  deadline : 0 < i.expiresAtUnix
  timeBounds : t.timeBounds = some (0, i.expiresAtUnix.toNat)

/-- What the builder makes of a transaction. -/
def PaymentTransaction.built (sha256 : Sha256) (t : PaymentTransaction) : BuiltEnvelope where
  envelopeXdr := encodeBase64 (envelopeBytes t.write [])
  transactionBodySha256 := hashList sha256 t.write
  unsignedEnvelopeSha256 := hashList sha256 (envelopeBytes t.write [])

/-- The numbers have the types that the source gives them. -/
structure IntentTerms.InRange (i : IntentTerms) : Prop where
  transactionSequence : inI64 i.transactionSequence
  baseFee : i.baseFee < 2 ^ 32
  amountMinor : inI64 i.amountMinor
  expiresAtUnix : inI64 i.expiresAtUnix

theorem IntentTerms.Describes.valid {i : IntentTerms} {t : PaymentTransaction} (h : i.Describes t)
    (hrange : i.InRange) : t.Valid where
  sourceAccount := length_decodeStellarAccount h.sourceAccount
  fee := h.fee ▸ hrange.baseFee
  sequence := h.sequence ▸ hrange.transactionSequence
  timeBounds b hb := by
    have hlt := hrange.expiresAtUnix.2
    rw [h.timeBounds] at hb
    obtain rfl := Option.some.inj hb
    refine ⟨Nat.two_pow_pos 64, ?_⟩
    show i.expiresAtUnix.toNat < 2 ^ 64
    omega
  memoText text ht := by
    rw [h.memoText] at ht
    obtain rfl := Option.some.inj ht
    exact h.short
  destinationAccount := length_decodeStellarAccount h.destinationAccount
  asset := h.asset.valid
  amount := h.amount ▸ hrange.amountMinor

theorem IntentTerms.Describes.write_eq {i : IntentTerms} {t : PaymentTransaction} (h : i.Describes t) :
    t.write =
      writeI32 keyTypeEd25519 ++ t.sourceAccount ++ writeU32 i.baseFee ++
        writeI64 i.transactionSequence ++ writeI32 precondTime ++ writeU64 0 ++
        writeU64 i.expiresAtUnix.toNat ++ writeI32 Stellar.memoText ++
        writeVarOpaque (textBytes i.memoText) ++ writeU32 1 ++ writeI32 0 ++ writeI32 operationPayment ++ writeI32 keyTypeEd25519 ++
        t.destinationAccount ++ t.asset.write ++ writeI64 i.amountMinor ++ writeI32 0 := by
  simp only [PaymentTransaction.write, h.fee, h.sequence, h.timeBounds, h.memoText, h.amount,
    writeTimeBounds, writeMemo, writePaymentHead, List.append_assoc]

theorem envelopeBytes_nil (body : List UInt8) :
    envelopeBytes body [] = writeI32 envelopeTypeTx ++ body ++ writeU32 0 := by
  simp only [envelopeBytes, List.flatMap_nil, List.append_nil, List.append_assoc]
  rfl

theorem envelopeBytes_ne_nil (body : List UInt8) (signatures : List DecoratedSignature) :
    envelopeBytes body signatures ≠ [] := by
  intro hnil
  have hlength := congrArg List.length hnil
  simp [envelopeBytes, writeI32] at hlength

/-- **What is built** are the bytes of the transaction that the arguments describe. -/
theorem build_eq_ok {sha256 : Sha256} {i : IntentTerms} {built : BuiltEnvelope} :
    buildUnsignedPaymentEnvelope sha256 i.sourceAccount i.destinationAccount i.transactionSequence
        i.baseFee i.amountMinor i.assetCode i.assetIssuer i.memoText i.expiresAtUnix = .ok built ↔
      ∃ t, i.Describes t ∧ built = t.built sha256 := by
  unfold buildUnsignedPaymentEnvelope
  simp only [throw_bind, byteLength_toList]
  rw [guard_eq_ok, guard_eq_ok]
  simp only [bind_eq_ok, pure_eq_ok, writeXdrString_eq_ok, writeAsset_eq_ok]
  constructor
  · rintro ⟨hpositive, hmemo, source, hsource, destination, hdestination, memo, ⟨hshort, rfl⟩, asset,
      ⟨a, hnames, rfl⟩, rfl⟩
    have h : i.Describes ⟨source, i.baseFee, i.transactionSequence, some (0, i.expiresAtUnix.toNat),
        some i.memoText, destination, a, i.amountMinor⟩ :=
      ⟨hsource, hdestination, rfl, rfl, by omega, rfl, hnames, (not_or.mp hmemo).1, hshort, rfl,
        by omega, rfl⟩
    refine ⟨_, h, ?_⟩
    rw [PaymentTransaction.built, envelopeBytes_nil, h.write_eq]
  · rintro ⟨t, h, rfl⟩
    have hpositive := h.positive
    have hdeadline := h.deadline
    refine ⟨by omega, not_or.mpr ⟨h.nonempty, not_lt.mpr h.short⟩, _, h.sourceAccount, _,
      h.destinationAccount, _, ⟨h.short, rfl⟩, _, ⟨_, h.asset, rfl⟩, ?_⟩
    rw [PaymentTransaction.built, envelopeBytes_nil, h.write_eq]

/-! ### The round trip -/

/-- What is built for these arguments is an envelope that reads back as these arguments, down to
its last byte and without signatures, and whose body has the hash that was stored. -/
def RoundTrips (sha256 : Sha256) (i : IntentTerms) (source destination : List UInt8)
    (issuer : Option (List UInt8)) : Prop :=
  ∃ built bytes parsed,
    buildUnsignedPaymentEnvelope sha256 i.sourceAccount i.destinationAccount i.transactionSequence
      i.baseFee i.amountMinor i.assetCode i.assetIssuer i.memoText i.expiresAtUnix = .ok built ∧
    decodeBase64 built.envelopeXdr = .ok bytes ∧
    parsePaymentEnvelope bytes = .ok parsed ∧
    readPaymentEnvelope.run bytes = .ok (parsed, []) ∧
    parsed =
      { transactionBody := parsed.transactionBody, sourceAccount := source
        sequence := i.transactionSequence, fee := i.baseFee, maxTime := some i.expiresAtUnix.toNat
        memoText := some i.memoText, destinationAccount := destination, assetCode := i.assetCode
        assetIssuer := issuer, amount := i.amountMinor, signatureCount := 0 } ∧
    hashList sha256 parsed.transactionBody = built.transactionBodySha256

/-- An asset that can be paid: native, or a code of one to twelve upper-case letters and digits
other than `XLM`, with the key of its issuer. -/
inductive Payable : String → Option String → Option (List UInt8) → Prop
  | native : Payable "XLM" none none
  | issued {code issuer : String} {key : List UInt8} (hcode : code ≠ "XLM")
      (hletters : code.toList.all (fun c => isUpper c || isDigit c) = true)
      (hlength : 1 ≤ code.toList.length ∧ code.toList.length ≤ 12)
      (hissuer : decodeStellarAccount issuer = .ok key) :
      Payable code (some issuer) (some key)

theorem Payable.names {code : String} {issuer : Option String} {key : Option (List UInt8)}
    (h : Payable code issuer key) : ∃ a, Names code issuer a ∧ a.issuer = key := by
  cases h with
  | native => exact ⟨.native, .native, rfl⟩
  | issued hcode hletters hlength hissuer =>
      have hvalid : IsAssetCode code := by
        refine ⟨fun hnil => ?_, hletters⟩
        rw [hnil] at hlength
        exact absurd hlength.1 (by decide)
      exact ⟨_, .issued hcode hvalid (hvalid.length_textBytes.trans_le hlength.2) hissuer, rfl⟩

/-- **The codec round trip.** -/
theorem envelope_round_trip (sha256 : Sha256) {i : IntentTerms} (hrange : i.InRange)
    {source destination : List UInt8} {issuer : Option (List UInt8)}
    (hsource : decodeStellarAccount i.sourceAccount = .ok source)
    (hdestination : decodeStellarAccount i.destinationAccount = .ok destination)
    (hasset : Payable i.assetCode i.assetIssuer issuer)
    (hmemo : 1 ≤ (textBytes i.memoText).length ∧ (textBytes i.memoText).length ≤ 28)
    (hamount : 0 < i.amountMinor) (hdeadline : 0 < i.expiresAtUnix) :
    RoundTrips sha256 i source destination issuer := by
  obtain ⟨a, hnames, rfl⟩ := hasset.names
  have hne : i.memoText.toList ≠ [] := by
    intro hnil
    rw [textBytes, toUTF8_toList, hnil] at hmemo
    exact absurd hmemo.1 (by decide)
  have h : i.Describes ⟨source, i.baseFee, i.transactionSequence, some (0, i.expiresAtUnix.toNat),
      some i.memoText, destination, a, i.amountMinor⟩ :=
    ⟨hsource, hdestination, rfl, rfl, hamount, rfl, hnames, hne, hmemo.2, rfl, hdeadline, rfl⟩
  have hvalid := h.valid hrange
  have hbytes := parsePaymentEnvelope_iff.mpr ⟨_, hvalid, [], by decide, by simp, rfl, rfl⟩
  have hread := readPaymentEnvelope_reads.run_all.mpr ⟨_, hvalid, [], by decide, by simp, rfl, rfl⟩
  refine ⟨_, _, _, build_eq_ok.mpr ⟨_, h, rfl⟩, decode_encodeBase64 (envelopeBytes_ne_nil _ _), hbytes,
    hread, ?_, rfl⟩
  rw [PaymentTransaction.parsed, hnames.code_eq]
  rfl

def sampleSource : String := "GAAAAAAAAAAAAAAAAAAAAAAAAAAAAAAAAAAAAAAAAAAAAAAAAAAAAWHF"

def sampleDestination : String := "GAAQEAYEAUDAOCAJBIFQYDIOB4IBCEQTCQKRMFYYDENBWHA5DYPSABOV"

theorem sampleSource_key : decodeStellarAccount sampleSource = .ok (List.replicate 32 0) := by
  decide +kernel

theorem sampleDestination_key : decodeStellarAccount sampleDestination =
    .ok ((List.range 32).map fun n => UInt8.ofNat (n + 1)) := by
  decide +kernel

/-- The payment of the source's own test, with this memo. -/
def samplePayment (memo : String) : IntentTerms where
  sourceAccount := sampleSource
  destinationAccount := sampleDestination
  transactionSequence := 1
  baseFee := 100
  amountMinor := 2500000
  assetCode := "XLM"
  assetIssuer := none
  memoText := memo
  transactionBodySha256 := ""
  expiresAtUnix := 1900000000

theorem samplePayment_inRange (memo : String) : (samplePayment memo).InRange where
  transactionSequence := show inI64 1 by decide
  baseFee := show 100 < 2 ^ 32 by decide
  amountMinor := show inI64 2500000 by decide
  expiresAtUnix := show inI64 1900000000 by decide

theorem samplePayment_round_trip :
    RoundTrips (fun _ => Vector.replicate 32 0) (samplePayment "CFI-test") (List.replicate 32 0)
      ((List.range 32).map fun n => UInt8.ofNat (n + 1)) none :=
  envelope_round_trip _ (samplePayment_inRange _) sampleSource_key
    sampleDestination_key .native (by decide +kernel) (by decide) (by decide)

/-- Nothing is built for an empty memo, although it has at most 28 bytes. -/
theorem empty_memo_not_built :
    ¬ ∀ (sha256 : Sha256) (i : IntentTerms), i.InRange →
      ∀ (source destination : List UInt8) (issuer : Option (List UInt8)),
        decodeStellarAccount i.sourceAccount = .ok source →
        decodeStellarAccount i.destinationAccount = .ok destination →
        Payable i.assetCode i.assetIssuer issuer →
        (textBytes i.memoText).length ≤ 28 → 0 < i.amountMinor → 0 < i.expiresAtUnix →
        RoundTrips sha256 i source destination issuer := by
  intro h
  obtain ⟨built, -, -, hbuilt, -⟩ := h (fun _ => Vector.replicate 32 0) _ (samplePayment_inRange "") _ _ _
    sampleSource_key sampleDestination_key .native (by decide +kernel) (by decide)
    (by decide)
  obtain ⟨t, hdescribes, -⟩ := build_eq_ok.mp hbuilt
  exact hdescribes.nonempty rfl

end CrownFi.Stellar
