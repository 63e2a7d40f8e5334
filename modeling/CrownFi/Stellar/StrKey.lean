import CrownFi.Api.Validation

/-!
# CrownFi.Stellar.StrKey

Account and contract keys as texts: unpadded base32 of a version byte, 32 key bytes
and a checksum. The decoder stands in the source once for each module that needs
it; here it is one function, and each module's variant adds its own checks and
error codes.
-/

namespace CrownFi.Stellar

open CrownFi.Api

def accountVersion : UInt8 := 48

def contractVersion : UInt8 := 16

/-! ### Base 32 -/

/-- The value of a base32 digit. -/
def base32Value (c : Char) : Option Nat :=
  if isUpper c then some (c.toNat - 65)
  else if '2' ≤ c ∧ c ≤ '7' then some (c.toNat - 50 + 26)
  else none

/-- The state of the decoding loop: bits read and not yet written, and their number. -/
structure BitBuffer where
  accumulator : Nat
  bits : Nat
  decoded : List UInt8

/-- One digit. Before it fewer than eight bits are left over, so it completes at most
one byte. -/
def BitBuffer.push (b : BitBuffer) (digit : Nat) : BitBuffer :=
  let accumulator := b.accumulator * 32 + digit
  let bits := b.bits + 5
  if 8 ≤ bits then
    { accumulator := accumulator % 2 ^ (bits - 8)
      bits := bits - 8
      decoded := b.decoded ++ [UInt8.ofNat (accumulator / 2 ^ (bits - 8))] }
  else { b with accumulator, bits }

/-- The loop over the digits of a key. -/
def decodeDigits : BitBuffer → List Char → Option BitBuffer
  | b, [] => some b
  | b, c :: rest => (base32Value c).bind fun digit => decodeDigits (b.push digit) rest

/-- One bit of the checksum. -/
def crc16Bit (crc : UInt16) : UInt16 :=
  if crc &&& 0x8000 ≠ 0 then (crc <<< 1) ^^^ 0x1021 else crc <<< 1

def crc16Byte (crc : UInt16) (byte : UInt8) : UInt16 :=
  let mixed : UInt16 := crc ^^^ (byte.toUInt16 <<< 8)
  Nat.iterate crc16Bit 8 mixed

/-- `crc16_xmodem`. -/
def crc16 (bytes : List UInt8) : UInt16 :=
  bytes.foldl crc16Byte 0

/-! ### Keys -/

/-- The 35 bytes of a key text, if it is base32 of the right length. -/
def strKeyBytes (value : String) : Option (List UInt8) :=
  if byteLength value.toList ≠ 56 then none
  else
    (decodeDigits ⟨0, 0, []⟩ value.toList).bind fun b =>
      if b.bits ≠ 0 ∨ b.decoded.length ≠ 35 then none else some b.decoded

/-- The last two bytes are the checksum of the first 33, the lower byte first. -/
def checksumMatches (decoded : List UInt8) : Bool :=
  crc16 (decoded.take 33) =
    (decoded.getD 33 0).toUInt16 + ((decoded.getD 34 0).toUInt16 <<< 8)

/-- `decode_stellar_account`: the key of an account. -/
def decodeStellarAccount (value : String) : Except ApiError (List UInt8) :=
  match strKeyBytes value with
  | none => .error (.invalidRequest "invalid_stellar_account")
  | some decoded =>
      if decoded.head? ≠ some accountVersion then .error (.invalidRequest "invalid_stellar_account")
      else if checksumMatches decoded = false then
        .error (.invalidRequest "invalid_stellar_account_checksum")
      else .ok ((decoded.drop 1).take 32)

/-- `validate_strkey`: the same check for any version, with one error. -/
def isStrKey (version : UInt8) (value : String) : Bool :=
  match strKeyBytes value with
  | none => false
  | some decoded => decoded.head? = some version && checksumMatches decoded

/-- `validate_strkey`, which stands in the source once for each module that has it. -/
def validateStrkey (value : String) (version : UInt8) (error : String) : Except ApiError PUnit :=
  match strKeyBytes value with
  | none => .error (.invalidRequest error)
  | some decoded =>
      if decoded.head? ≠ some version then .error (.invalidRequest error)
      else if checksumMatches decoded = false then .error (.invalidRequest error)
      else .ok ⟨⟩

/-- `normalize_stellar_account`. -/
def normalizeStellarAccount (value : String) : Except ApiError String :=
  let value := String.ofList (trimUpper value)
  (decodeStellarAccount value).map fun _ => value

/-- `account`, as the reconciliation has it. -/
def account (value : String) : Except ApiError String :=
  let value := String.ofList (trimUpper value)
  if isStrKey accountVersion value then .ok value
  else .error (.invalidRequest "invalid_stellar_account")

end CrownFi.Stellar
