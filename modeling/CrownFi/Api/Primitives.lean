import CrownFi.Lib.Text
import Mathlib.Data.Set.Function

/-!
# CrownFi.Api.Primitives

What the modules of the API (`services/api`) share: identifiers and how they are
printed, errors, numbers and times, and hashes.

SHA-256 is a parameter. The model computes with whatever function it is given;
where a result needs that no two of the hashed messages collide, it says so.
-/

namespace CrownFi.Api

open Lib

/-- A `Uuid`. -/
abbrev Uuid := BitVec 128

/-- `Uuid`'s `Display`: 32 lower-case digits, hyphenated 8-4-4-4-12. -/
def Uuid.text (u : Uuid) : String :=
  let digits := (List.range 32).map fun i => hexDigit (u.toNat / 16 ^ (31 - i) % 16)
  String.ofList <|
    digits.take 8 ++ '-' :: (digits.drop 8).take 4 ++ '-' :: (digits.drop 12).take 4 ++
      '-' :: (digits.drop 16).take 4 ++ '-' :: digits.drop 20

example : Uuid.text 0x0123456789abcdef0123456789abcdef = "01234567-89ab-cdef-0123-456789abcdef" := by
  decide

inductive ApiError
  | notFound
  | invalidRequest (code : String)
  | conflict (code : String)
  | duplicateVote
  | votingClosed
  | unauthorized
  | forbidden
  | database
  | storage (code : String)
  | serviceUnavailable (code : String)
  deriving DecidableEq, Repr

/-! ### Numbers and times -/

def inI64 (n : Int) : Prop := -2 ^ 63 ≤ n ∧ n < 2 ^ 63

instance (n : Int) : Decidable (inI64 n) := inferInstanceAs (Decidable (_ ∧ _))

/-- A checked operation on `i64`. -/
def checkedI64 (n : Int) : Option Int := if inI64 n then some n else none

theorem checkedI64_eq_some {n m : Int} (h : checkedI64 n = some m) : m = n := by
  unfold checkedI64 at h
  split at h
  · exact (Option.some.inj h).symm
  · cases h

/-- An unchecked operation on `i64`, as a release build computes it. -/
def wrapI64 (n : Int) : Int := (BitVec.ofInt 64 n).toInt

theorem wrapI64_of_inI64 {n : Int} (h : inI64 n) : wrapI64 n = n := by
  obtain ⟨hlow, hhigh⟩ := h
  rw [wrapI64, BitVec.toInt_ofInt]
  exact Int.bmod_eq_of_le (by omega) (by omega)

/-- Instants and durations are in nanoseconds, instants since the Unix epoch. -/
def seconds (n : Int) : Int := n * 1000000000

def unixTimestamp (instant : Int) : Int := instant / 1000000000

/-! ### Errors of the database -/

/-- The error classes that the handlers tell apart. -/
inductive SqlError
  | uniqueViolation
  | foreignKeyViolation
  | checkViolation
  | outOfRange
  deriving DecidableEq, Repr

/-! ### Hashes -/

/-- A hash function with digests of 32 bytes. -/
abbrev Sha256 := ByteArray → Vector UInt8 32

/-- The 32 big-endian bytes of a number. -/
def bytesOf (n : Nat) : Vector UInt8 32 :=
  Vector.ofFn fun i => UInt8.ofNat (n / 256 ^ (31 - i.val) % 256)

/-- `hash_bytes`: the digest of the bytes, in hexadecimal. -/
def hashBytes (sha256 : Sha256) (value : ByteArray) : String := hexEncode (sha256 value).toList

/-- `hash_text`: the digest of the text's UTF-8 bytes, in hexadecimal. -/
def hashText (sha256 : Sha256) (value : String) : String := hashBytes sha256 value.toUTF8

/-- The hash function has no collision among the UTF-8 bytes of these texts. -/
def CollisionFree (sha256 : Sha256) (texts : Set String) : Prop :=
  Set.InjOn sha256 (Set.image String.toUTF8 texts)

theorem CollisionFree.mono {sha256 : Sha256} {S T : Set String} (h : CollisionFree sha256 T)
    (hST : S ⊆ T) : CollisionFree sha256 S :=
  Set.InjOn.mono (Set.image_mono hST) h

theorem CollisionFree.hashText_injOn {sha256 : Sha256} {texts : Set String}
    (h : CollisionFree sha256 texts) : Set.InjOn (hashText sha256) texts := by
  intro s hs t ht heq
  have hlist := hexEncode_injective heq
  have hvec : sha256 s.toUTF8 = sha256 t.toUTF8 := Vector.toList_inj.mp hlist
  exact String.toByteArray_inj.mp (h ⟨s, hs, rfl⟩ ⟨t, ht, rfl⟩ hvec)

theorem bar_notMem_hashText (sha256 : Sha256) (s : String) : '|' ∉ (hashText sha256 s).toList := by
  intro h
  exact absurd (mem_hexEncode h) (by decide)

end CrownFi.Api
