import CrownFi.Stellar.Base64
import CrownFi.Stellar.StrKey

/-!
# CrownFi.Stellar.Envelope

The payment envelope of `stellar_intents.rs`: how it is built, how a signed one is
read back, and how it is compared with the intent it was built for. Integers are
written with the most significant byte first; strings and opaque values are padded
to a multiple of four bytes.
-/

namespace CrownFi.Stellar

open CrownFi.Api

def testnetNetworkPassphrase : String := "Test SDF Network ; September 2015"
def envelopeTypeTx : Int := 2
def keyTypeEd25519 : Int := 0
def precondNone : Int := 0
def precondTime : Int := 1
def memoNone : Int := 0
def memoText : Int := 1
def operationPayment : Int := 1
def assetNative : Int := 0
def assetAlphanum4 : Int := 1
def assetAlphanum12 : Int := 2

/-! ### Writing -/

/-- `to_be_bytes` of a number of `width` bytes, for a negative one its two's complement. -/
def beBytes (width : Nat) (value : Int) : List UInt8 :=
  let n := (value % 2 ^ (8 * width)).toNat
  (List.range width).map fun i => UInt8.ofNat (n / 2 ^ (8 * (width - 1 - i)))

def writeI32 (value : Int) : List UInt8 := beBytes 4 value
def writeU32 (value : Nat) : List UInt8 := beBytes 4 value
def writeI64 (value : Int) : List UInt8 := beBytes 8 value
def writeU64 (value : Nat) : List UInt8 := beBytes 8 value

/-- The padding behind a value of this length. -/
def padding (length : Nat) : Nat := (4 - length % 4) % 4

def writeXdrString (value : String) (maxLength : Nat) : Except ApiError (List UInt8) :=
  let bytes := value.toUTF8.toList
  if maxLength < bytes.length then .error (.invalidRequest "invalid_stellar_memo")
  else .ok (writeU32 bytes.length ++ bytes ++ List.replicate (padding bytes.length) 0)

def writeAsset (assetCode : String) (assetIssuer : Option String) :
    Except ApiError (List UInt8) := do
  if assetCode = "XLM" then
    if assetIssuer.isSome then
      throw (.invalidRequest "xlm_must_not_have_issuer")
    return writeI32 assetNative
  let issuer ← match assetIssuer with
    | some issuer => pure issuer
    | none => throw (.invalidRequest "asset_issuer_required")
  let issuerKey ← decodeStellarAccount issuer
  let code := assetCode.toUTF8.toList
  let (kind, width) ←
    if code.length ≤ 4 then pure (assetAlphanum4, 4)
    else if code.length ≤ 12 then pure (assetAlphanum12, 12)
    else throw (.invalidRequest "invalid_asset_code")
  if code.isEmpty || !assetCode.toList.all (fun c => isUpper c || isDigit c) then
    throw (.invalidRequest "invalid_asset_code")
  return writeI32 kind ++ code ++ List.replicate (width - code.length) 0 ++
    writeI32 keyTypeEd25519 ++ issuerKey

structure BuiltEnvelope where
  envelopeXdr : String
  transactionBodySha256 : String
  unsignedEnvelopeSha256 : String
  deriving DecidableEq, Repr

/-- `hash_bytes` of a list of bytes. -/
def hashList (sha256 : Sha256) (bytes : List UInt8) : String := hashBytes sha256 ⟨bytes.toArray⟩

def buildUnsignedPaymentEnvelope (sha256 : Sha256) (sourceAccount destinationAccount : String)
    (transactionSequence : Int) (baseFee : Nat) (amountMinor : Int) (assetCode : String)
    (assetIssuer : Option String) (memo : String) (expiresAtUnix : Int) :
    Except ApiError BuiltEnvelope := do
  if amountMinor ≤ 0 ∨ expiresAtUnix ≤ 0 then
    throw (.invalidRequest "invalid_stellar_payment_intent")
  if memo.toList = [] ∨ 28 < byteLength memo.toList then
    throw (.invalidRequest "invalid_stellar_memo")
  let sourceKey ← decodeStellarAccount sourceAccount
  let destinationKey ← decodeStellarAccount destinationAccount
  let memoBytes ← writeXdrString memo 28
  let assetBytes ← writeAsset assetCode assetIssuer
  let transactionBody :=
    writeI32 keyTypeEd25519 ++ sourceKey ++ writeU32 baseFee ++ writeI64 transactionSequence ++
      writeI32 precondTime ++ writeU64 0 ++ writeU64 expiresAtUnix.toNat ++
      writeI32 memoText ++ memoBytes ++ writeU32 1 ++ writeI32 0 ++ writeI32 operationPayment ++
      writeI32 keyTypeEd25519 ++ destinationKey ++ assetBytes ++ writeI64 amountMinor ++ writeI32 0
  let envelope := writeI32 envelopeTypeTx ++ transactionBody ++ writeU32 0
  return { envelopeXdr := encodeBase64 envelope
           transactionBodySha256 := hashList sha256 transactionBody
           unsignedEnvelopeSha256 := hashList sha256 envelope }

/-! ### Reading -/

/-- `XdrReader`: the state is what has not been read yet. -/
abbrev XdrReader := StateT (List UInt8) (Except ApiError)

namespace XdrReader

def fail {α : Type} (code : String) : XdrReader α := throw (.invalidRequest code)

def readFixed (length : Nat) : XdrReader (List UInt8) := do
  let bytes ← get
  if bytes.length < length then
    fail "invalid_stellar_xdr"
  set (bytes.drop length)
  return bytes.take length

/-- `from_be_bytes` of an unsigned number. -/
def beValue (bytes : List UInt8) : Nat := bytes.foldl (fun n byte => n * 256 + byte.toNat) 0

/-- The signed number with this two's complement. -/
def signed (width n : Nat) : Int := if n < 2 ^ (8 * width - 1) then n else n - 2 ^ (8 * width)

def readU32 : XdrReader Nat := do
  let bytes ← readFixed 4
  return beValue bytes

def readU64 : XdrReader Nat := do
  let bytes ← readFixed 8
  return beValue bytes

def readI32 : XdrReader Int := do
  let n ← readU32
  return signed 4 n

def readI64 : XdrReader Int := do
  let n ← readU64
  return signed 8 n

def readEd25519Account : XdrReader (List UInt8) := do
  let kind ← readI32
  if kind ≠ keyTypeEd25519 then
    fail "unsupported_muxed_account"
  readFixed 32

def readVarOpaque (maxLength : Nat) : XdrReader (List UInt8) := do
  let length ← readU32
  if maxLength < length then
    fail "invalid_stellar_xdr_length"
  let value ← readFixed length
  let paddingBytes ← readFixed (padding length)
  if paddingBytes.any (· ≠ 0) then
    fail "invalid_stellar_xdr_padding"
  return value

def readXdrString (maxLength : Nat) : XdrReader String := do
  let bytes ← readVarOpaque maxLength
  match String.fromUTF8? ⟨bytes.toArray⟩ with
  | some value => return value
  | none => fail "invalid_stellar_memo"

/-- `decode_asset_code`: the code ends at the first zero byte, and zeros follow it. -/
def decodeAssetCode (bytes : List UInt8) : XdrReader String := do
  let code := bytes.takeWhile (· ≠ 0)
  if (bytes.drop code.length).any (· ≠ 0) || code.isEmpty then
    fail "invalid_asset_code"
  match String.fromUTF8? ⟨code.toArray⟩ with
  | some value =>
      if value.toList.all (fun c => isUpper c || isDigit c) then return value
      else fail "invalid_asset_code"
  | none => fail "invalid_asset_code"

def readAsset : XdrReader (String × Option (List UInt8)) := do
  let kind ← readI32
  if kind = assetNative then
    return ("XLM", none)
  else if kind = assetAlphanum4 ∨ kind = assetAlphanum12 then
    let bytes ← readFixed (if kind = assetAlphanum4 then 4 else 12)
    let code ← decodeAssetCode bytes
    let issuer ← readEd25519Account
    return (code, some issuer)
  else fail "unsupported_stellar_asset"

/-- The loop over the signatures: a hint of four bytes and a signature each. -/
def skipSignatures : Nat → XdrReader PUnit
  | 0 => pure ⟨⟩
  | n + 1 => do
      let _ ← readFixed 4
      let _ ← readVarOpaque 64
      skipSignatures n

end XdrReader

structure ParsedEnvelope where
  transactionBody : List UInt8
  sourceAccount : List UInt8
  sequence : Int
  fee : Nat
  maxTime : Option Nat
  memoText : Option String
  destinationAccount : List UInt8
  assetCode : String
  assetIssuer : Option (List UInt8)
  amount : Int
  signatureCount : Nat
  deriving DecidableEq, Repr

open XdrReader in
/-- The fields of an envelope in order. What is left over is judged by the caller. -/
def readPaymentEnvelope : XdrReader ParsedEnvelope := do
  let envelopeType ← readI32
  if envelopeType ≠ envelopeTypeTx then
    fail "unsupported_stellar_envelope_type"
  let start ← get
  let sourceAccount ← readEd25519Account
  let fee ← readU32
  let sequence ← readI64
  let precondition ← readI32
  let maxTime ←
    if precondition = precondNone then pure none
    else if precondition = precondTime then do
      let _ ← readU64
      let maxTime ← readU64
      pure (some maxTime)
    else fail "unsupported_stellar_preconditions"
  let memoKind ← readI32
  let memo ←
    if memoKind = memoNone then pure none
    else if memoKind = Stellar.memoText then do
      let memo ← readXdrString 28
      pure (some memo)
    else fail "unsupported_stellar_memo"
  let operations ← readU32
  if operations ≠ 1 then
    fail "stellar_intent_requires_one_operation"
  let operationSource ← readI32
  if operationSource ≠ 0 then
    fail "operation_source_not_allowed"
  let operation ← readI32
  if operation ≠ operationPayment then
    fail "unsupported_stellar_operation"
  let destinationAccount ← readEd25519Account
  let (assetCode, assetIssuer) ← readAsset
  let amount ← readI64
  let extension ← readI32
  if extension ≠ 0 then
    fail "unsupported_transaction_extension"
  let rest ← get
  let signatureCount ← readU32
  if 20 < signatureCount then
    fail "too_many_stellar_signatures"
  skipSignatures signatureCount
  return { transactionBody := start.take (start.length - rest.length), sourceAccount, sequence
           fee, maxTime, memoText := memo, destinationAccount, assetCode, assetIssuer, amount
           signatureCount }

def parsePaymentEnvelope (bytes : List UInt8) : Except ApiError ParsedEnvelope := do
  let (parsed, rest) ← readPaymentEnvelope.run bytes
  if rest ≠ [] then
    throw (.invalidRequest "trailing_stellar_xdr_bytes")
  return parsed

/-! ### Comparing -/

/-- What the comparison reads of a stored intent. -/
structure IntentTerms where
  sourceAccount : String
  destinationAccount : String
  transactionSequence : Int
  baseFee : Nat
  amountMinor : Int
  assetCode : String
  assetIssuer : Option String
  memoText : String
  transactionBodySha256 : String
  expiresAtUnix : Int
  deriving DecidableEq, Repr

def validateSignedEnvelopeAgainstIntent (sha256 : Sha256) (parsed : ParsedEnvelope)
    (intent : IntentTerms) : Except ApiError Unit := do
  if hashList sha256 parsed.transactionBody ≠ intent.transactionBodySha256 then
    throw (.conflict "signed_envelope_body_mismatch")
  let source ← decodeStellarAccount intent.sourceAccount
  if parsed.sourceAccount ≠ source then
    throw (.conflict "signed_envelope_intent_mismatch")
  let destination ← decodeStellarAccount intent.destinationAccount
  if parsed.destinationAccount ≠ destination ∨ parsed.sequence ≠ intent.transactionSequence ∨
      parsed.fee ≠ intent.baseFee ∨ parsed.amount ≠ intent.amountMinor ∨
      parsed.assetCode ≠ intent.assetCode ∨ parsed.memoText ≠ some intent.memoText then
    throw (.conflict "signed_envelope_intent_mismatch")
  let expectedIssuer ← optional decodeStellarAccount intent.assetIssuer
  if parsed.assetIssuer ≠ expectedIssuer then
    throw (.conflict "signed_envelope_asset_mismatch")
  if intent.expiresAtUnix ≤ 0 ∨ parsed.maxTime ≠ some intent.expiresAtUnix.toNat then
    throw (.conflict "signed_envelope_expiry_mismatch")

/-- The hash under which the network knows a transaction. -/
def transactionHash (sha256 : Sha256) (transactionBody : List UInt8) : String :=
  hashList sha256 ((sha256 testnetNetworkPassphrase.toUTF8).toList ++ writeI32 envelopeTypeTx ++
    transactionBody)

end CrownFi.Stellar
