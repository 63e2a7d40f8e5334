import CrownFi.Api.Validation
import CrownFi.Lib.Fallible

/-!
# CrownFi.Stellar.Base64

The base64 codec of `stellar_intents.rs`, with padding. What is encoded decodes to the same
bytes (`decode_encodeBase64`).
-/

namespace CrownFi.Stellar

open Lib CrownFi.Api

/-- `BASE64_ALPHABET`. -/
def base64Alphabet : List Char :=
  "ABCDEFGHIJKLMNOPQRSTUVWXYZabcdefghijklmnopqrstuvwxyz0123456789+/".toList

def base64Char (digit : Nat) : Char := base64Alphabet.getD digit '='

/-- The four characters of a chunk of up to three bytes. -/
def encodeChunk (first : UInt8) (second third : Option UInt8) : List Char :=
  let combined := first.toNat * 2 ^ 16 + (second.getD 0).toNat * 2 ^ 8 + (third.getD 0).toNat
  [base64Char (combined / 2 ^ 18 % 64), base64Char (combined / 2 ^ 12 % 64),
    if second.isSome then base64Char (combined / 2 ^ 6 % 64) else '=',
    if third.isSome then base64Char (combined % 64) else '=']

def encodeChars : List UInt8 → List Char
  | [] => []
  | [a] => encodeChunk a none none
  | [a, b] => encodeChunk a (some b) none
  | a :: b :: c :: rest => encodeChunk a (some b) (some c) ++ encodeChars rest

/-- `encode_base64`. -/
def encodeBase64 (bytes : List UInt8) : String := String.ofList (encodeChars bytes)

def invalidBase64 : ApiError := .invalidRequest "invalid_signed_envelope_xdr"

/-- `base64_value`. -/
def base64Value (value : Char) : Except ApiError Nat :=
  if isUpper value then .ok (value.toNat - 65)
  else if 'a' ≤ value ∧ value ≤ 'z' then .ok (value.toNat - 97 + 26)
  else if isDigit value then .ok (value.toNat - 48 + 52)
  else if value = '+' then .ok 62
  else if value = '/' then .ok 63
  else .error invalidBase64

/-- The bytes of a chunk of four characters; only the last chunk may be padded. -/
def decodeChunk (a b c d : Char) (isLast : Bool) : Except ApiError (List UInt8) := do
  let first ← base64Value a
  let second ← base64Value b
  let thirdPadding := c = '='
  let fourthPadding := d = '='
  if thirdPadding && !fourthPadding then
    throw invalidBase64
  if (thirdPadding || fourthPadding) && !isLast then
    throw invalidBase64
  let third ← if thirdPadding then pure 0 else base64Value c
  let fourth ← if fourthPadding then pure 0 else base64Value d
  let combined := first * 2 ^ 18 + second * 2 ^ 12 + third * 2 ^ 6 + fourth
  return UInt8.ofNat (combined / 2 ^ 16) ::
    ((if thirdPadding then [] else [UInt8.ofNat (combined / 2 ^ 8)]) ++
      if fourthPadding then [] else [UInt8.ofNat combined])

/-- Chunks of four, in order. -/
def decodeChars : List Char → Except ApiError (List UInt8)
  | [] => .ok []
  | a :: b :: c :: d :: rest => do
      let chunk ← decodeChunk a b c d rest.isEmpty
      let bytes ← decodeChars rest
      return chunk ++ bytes
  | _ => .error invalidBase64

/-- `decode_base64`. Its length check counts bytes; a character of more than one byte is
no digit, and fails all the same. -/
def decodeBase64 (value : String) : Except ApiError (List UInt8) :=
  if value.toList = [] ∨ byteLength value.toList % 4 ≠ 0 then .error invalidBase64
  else decodeChars value.toList

/-! ### The round trip -/

theorem base64_digit {digit : Nat} (h : digit < 64) :
    base64Value (base64Char digit) = .ok digit ∧ base64Char digit ≠ '=' ∧
      (base64Char digit).utf8Size = 1 := by
  have hall : ∀ d : Fin 64, base64Value (base64Char d) = .ok d.val ∧ base64Char d ≠ '=' ∧
      (base64Char d).utf8Size = 1 := by decide +kernel
  exact hall ⟨digit, h⟩

/-- The three bytes of a chunk make up one number of four digits. -/
theorem combined_digits {n : Nat} (h : n < 2 ^ 24) :
    n / 2 ^ 18 % 64 * 2 ^ 18 + n / 2 ^ 12 % 64 * 2 ^ 12 + n / 2 ^ 6 % 64 * 2 ^ 6 + n % 64 = n := by
  omega

theorem decodeChunk_three {a b c d : Nat} (isLast : Bool) (ha : a < 64) (hb : b < 64) (hc : c < 64)
    (hd : d < 64) :
    decodeChunk (base64Char a) (base64Char b) (base64Char c) (base64Char d) isLast =
      let n := a * 2 ^ 18 + b * 2 ^ 12 + c * 2 ^ 6 + d
      .ok [UInt8.ofNat (n / 2 ^ 16), UInt8.ofNat (n / 2 ^ 8), UInt8.ofNat n] := by
  simp [decodeChunk, base64_digit, ha, hb, hc, hd, pure, Except.pure]

theorem decodeChunk_two {a b c : Nat} (ha : a < 64) (hb : b < 64) (hc : c < 64) :
    decodeChunk (base64Char a) (base64Char b) (base64Char c) '=' true =
      let n := a * 2 ^ 18 + b * 2 ^ 12 + c * 2 ^ 6 + 0
      .ok [UInt8.ofNat (n / 2 ^ 16), UInt8.ofNat (n / 2 ^ 8)] := by
  simp [decodeChunk, base64_digit, ha, hb, hc, pure, Except.pure]

theorem decodeChunk_one {a b : Nat} (ha : a < 64) (hb : b < 64) :
    decodeChunk (base64Char a) (base64Char b) '=' '=' true =
      let n := a * 2 ^ 18 + b * 2 ^ 12 + 0 * 2 ^ 6 + 0
      .ok [UInt8.ofNat (n / 2 ^ 16)] := by
  simp [decodeChunk, base64_digit, ha, hb, pure, Except.pure]

theorem ofNat_eq {b : UInt8} {n : Nat} (h : n % 2 ^ 8 = b.toNat) : UInt8.ofNat n = b := by
  apply UInt8.toNat.inj
  rw [UInt8.toNat_ofNat', h]

theorem decodeChars_encodeChars (bytes : List UInt8) : decodeChars (encodeChars bytes) = .ok bytes := by
  have hmod (n : Nat) : n % 64 < 64 := Nat.mod_lt _ (by decide)
  fun_induction encodeChars bytes with
  | case1 => rfl
  | case2 a =>
      have ha := a.toNat_lt
      show (decodeChunk (base64Char _) (base64Char _) '=' '=' true >>= fun chunk =>
        Except.ok (chunk ++ [])) = _
      rw [decodeChunk_one (hmod _) (hmod _), ok_bind, ofNat_eq]
      · rfl
      · simp only [Option.getD_none, UInt8.toNat_ofNat]
        omega
  | case3 a b =>
      have ha := a.toNat_lt
      have hb := b.toNat_lt
      show (decodeChunk (base64Char _) (base64Char _) (base64Char _) '=' true >>= fun chunk =>
        Except.ok (chunk ++ [])) = _
      rw [decodeChunk_two (hmod _) (hmod _) (hmod _), ok_bind, ofNat_eq, ofNat_eq]
      · rfl
      all_goals
        simp only [Option.getD_none, Option.getD_some, UInt8.toNat_ofNat]
        omega
  | case4 a b c rest ih =>
      have ha := a.toNat_lt
      have hb := b.toNat_lt
      have hc := c.toNat_lt
      show (decodeChunk (base64Char _) (base64Char _) (base64Char _) (base64Char _) _ >>= fun chunk =>
        decodeChars (encodeChars rest) >>= fun bytes => Except.ok (chunk ++ bytes)) = _
      rw [decodeChunk_three _ (hmod _) (hmod _) (hmod _) (hmod _), ok_bind, ih, ok_bind,
        combined_digits, ofNat_eq, ofNat_eq, ofNat_eq]
      · rfl
      all_goals
        simp only [Option.getD_some]
        omega

/-- What is encoded are whole chunks of ASCII characters. -/
theorem byteLength_encodeChars (bytes : List UInt8) : byteLength (encodeChars bytes) % 4 = 0 := by
  have hdigit (n : Nat) : (base64Char (n % 64)).utf8Size = 1 :=
    (base64_digit (Nat.mod_lt _ (by decide))).2.2
  have hpad : '='.utf8Size = 1 := by decide
  unfold byteLength
  fun_induction encodeChars bytes with
  | case1 => rfl
  | case2 a => simp [encodeChunk, hdigit, hpad]
  | case3 a b => simp [encodeChunk, hdigit, hpad]
  | case4 a b c rest ih =>
      simp [encodeChunk, hdigit]
      omega

theorem decode_encodeBase64 {bytes : List UInt8} (h : bytes ≠ []) :
    decodeBase64 (encodeBase64 bytes) = .ok bytes := by
  have hne : encodeChars bytes ≠ [] := by
    fun_cases encodeChars bytes with
    | case1 => exact absurd rfl h
    | case2 a => simp [encodeChunk]
    | case3 a b => simp [encodeChunk]
    | case4 a b c rest => simp [encodeChunk]
  unfold decodeBase64 encodeBase64
  rw [String.toList_ofList, if_neg, decodeChars_encodeChars]
  exact not_or.mpr ⟨hne, not_not.mpr (byteLength_encodeChars bytes)⟩

end CrownFi.Stellar
