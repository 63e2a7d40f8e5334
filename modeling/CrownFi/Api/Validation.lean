import CrownFi.Api.Primitives

/-!
# CrownFi.Api.Validation

The checks on text arguments that several handlers share. Most of them normalise
first: white space at the ends goes, ASCII letters change case. The modules
differ in one point, whether a length counts bytes or characters.
-/

namespace CrownFi.Api

/-! ### Trimming -/

/-- The characters `str::trim` removes: Unicode's `White_Space`. -/
def isWhiteSpace (c : Char) : Bool :=
  (9 ≤ c.toNat && c.toNat ≤ 13) || c.toNat = 0x20 || c.toNat = 0x85 || c.toNat = 0xA0 ||
    c.toNat = 0x1680 || (0x2000 ≤ c.toNat && c.toNat ≤ 0x200A) || c.toNat = 0x2028 ||
    c.toNat = 0x2029 || c.toNat = 0x202F || c.toNat = 0x205F || c.toNat = 0x3000

def trimChars (cs : List Char) : List Char :=
  ((cs.dropWhile isWhiteSpace).reverse.dropWhile isWhiteSpace).reverse

/-- `trim().to_ascii_uppercase()`. -/
def trimUpper (value : String) : List Char := (trimChars value.toList).map Char.toUpper

/-- `trim().to_ascii_lowercase()`. -/
def trimLower (value : String) : List Char := (trimChars value.toList).map Char.toLower

/-- The length of the text in bytes, as `str::len` counts it. -/
def byteLength (cs : List Char) : Nat := (cs.map fun c => c.utf8Size).sum

/-! ### Required and optional texts -/

/-- `required_text` where the length is `len()`: trimmed, not empty, at most `max` bytes. -/
def requiredText (value : String) (max : Nat) (code : String) : Except ApiError String :=
  let value := trimChars value.toList
  if value = [] ∨ max < byteLength value then .error (.invalidRequest code)
  else .ok (String.ofList value)

/-- `required_text` where the length is `chars().count()`. -/
def requiredChars (value : String) (max : Nat) (code : String) : Except ApiError String :=
  let value := trimChars value.toList
  if value = [] ∨ max < value.length then .error (.invalidRequest code)
  else .ok (String.ofList value)

/-- A check under `Option::map` and `transpose`. -/
def optional {α β : Type} (check : α → Except ApiError β) : Option α → Except ApiError (Option β)
  | none => .ok none
  | some a => (check a).map some

/-! ### Identifiers of the chain -/

def isDigit (c : Char) : Bool := '0' ≤ c && c ≤ '9'

def isUpper (c : Char) : Bool := 'A' ≤ c && c ≤ 'Z'

def isHexDigit (c : Char) : Bool := isDigit c || ('a' ≤ c && c ≤ 'f') || ('A' ≤ c && c ≤ 'F')

/-- `hex_string`: trimmed, in lower case, exactly `length` hexadecimal digits. -/
def hexString (value : String) (length : Nat) (code : String) : Except ApiError String :=
  let value := trimLower value
  if byteLength value ≠ length ∨ value.all isHexDigit = false then .error (.invalidRequest code)
  else .ok (String.ofList value)

/-- The shape of an account, without its checksum. -/
def isStellarAccount (value : String) : Bool :=
  let value := value.toList
  byteLength value = 56 && value.head? = some 'G' &&
    (value.drop 1).all fun c => isUpper c || ('2' ≤ c && c ≤ '7')

/-- `validate_asset_code`: trimmed, in upper case, one to twelve letters or digits. -/
def validateAssetCode (value : String) : Except ApiError String :=
  let value := trimUpper value
  if value = [] ∨ 12 < byteLength value ∨ value.all (fun c => isUpper c || isDigit c) = false then
    .error (.invalidRequest "invalid_asset_code")
  else .ok (String.ofList value)

/-- `validate_asset_issuer`: none for the native asset, otherwise an account as `isAccount` has it. -/
def validateAssetIssuer (isAccount : String → Bool) (code : String) (value : Option String) :
    Except ApiError (Option String) :=
  let value := (value.map trimUpper).filter (· ≠ [])
  if code = "XLM" then
    if value.isSome then .error (.invalidRequest "xlm_must_not_have_issuer") else .ok none
  else
    match value with
    | none => .error (.invalidRequest "asset_issuer_required")
    | some issuer =>
        if isAccount (String.ofList issuer) then .ok (some (String.ofList issuer))
        else .error (.invalidRequest "invalid_asset_issuer")

end CrownFi.Api
