import CrownFi.Lib.BigEndian
import CrownFi.Lib.Readers
import CrownFi.Stellar.Envelope
import Mathlib.Tactic.Positivity
import Mathlib.Tactic.Zify

/-!
# CrownFi.Stellar.Xdr

**The formats of the XDR primitives.** Every reader of `stellar_intents.rs` takes exactly
what the writer of the same type writes, and nothing else: numbers of a fixed width,
accounts, padded texts, assets and signatures.
-/

namespace CrownFi.Stellar

open Lib CrownFi.Api XdrReader

/-! ### Numbers -/

theorem beBytes_eq (width : Nat) (value : Int) :
    beBytes width value = word width (value % 2 ^ (8 * width)).toNat := rfl

theorem beValue_eq (bytes : List UInt8) : beValue bytes = wordValue bytes := rfl

theorem beBytes_natCast {width n : Nat} (h : n < 2 ^ (8 * width)) : beBytes width n = word width n := by
  rw [beBytes_eq, Int.emod_eq_of_lt (Int.natCast_nonneg n) (by exact_mod_cast h), Int.toNat_natCast]

@[simp] theorem length_beBytes (width : Nat) (value : Int) : (beBytes width value).length = width :=
  length_word _ _

theorem readFixed_reads (length : Nat) :
    Reads (readFixed length) fun bytes p => bytes = p ∧ p.length = length := by
  intro input bytes rest
  unfold readFixed
  simp only [StateT.run_bind, StateT.run_get, pure_bind]
  split
  · rename_i hshort
    constructor
    · intro h
      cases h
    · intro ⟨p, hinput, _, hlength⟩
      rw [hinput, List.length_append] at hshort
      omega
  · rename_i hlength
    constructor
    · intro h
      obtain ⟨hbytes, hrest⟩ := Prod.mk.inj (Except.ok.inj h)
      refine ⟨bytes, ?_, rfl, ?_⟩
      · rw [← hbytes, ← hrest, List.take_append_drop]
      · rw [← hbytes, List.length_take]
        omega
    · intro ⟨p, hinput, hbytes, hp⟩
      subst hinput hbytes hp
      show Except.ok (List.take _ _, List.drop _ _) = _
      rw [List.take_left, List.drop_left]

/-- An unsigned number of `width` bytes. -/
theorem readWord_reads (width : Nat) :
    Reads (do let bytes ← readFixed width; return beValue bytes) fun n p =>
      p = beBytes width n ∧ n < 2 ^ (8 * width) := by
  refine (readFixed_reads width).bind (fun bytes => Reads.pure) |>.congr fun n p => ?_
  constructor
  · rintro ⟨bytes, q, q', rfl, ⟨rfl, hlength⟩, hn, rfl⟩
    have hlt := wordValue_lt bytes
    rw [hlength] at hlt
    subst hn
    refine ⟨?_, hlt⟩
    rw [beValue_eq, beBytes_natCast hlt, ← hlength, word_value, List.append_nil]
  · rintro ⟨rfl, hlt⟩
    refine ⟨_, _, [], (List.append_nil _).symm, ⟨rfl, length_beBytes _ _⟩, ?_, rfl⟩
    rw [beValue_eq, beBytes_natCast hlt, value_word hlt]

theorem readU32_reads : Reads readU32 fun n p => p = writeU32 n ∧ n < 2 ^ 32 := readWord_reads 4

theorem readU64_reads : Reads readU64 fun n p => p = writeU64 n ∧ n < 2 ^ 64 := readWord_reads 8

/-- A number and its two's complement of `bits` bits. -/
theorem signed_eq_iff {width : Nat} (hwidth : 0 < width) {n : Nat} {z : Int}
    (hn : n < 2 ^ (8 * width)) :
    signed width n = z ↔
      (n : Int) = z % 2 ^ (8 * width) ∧ -2 ^ (8 * width - 1) ≤ z ∧ z < 2 ^ (8 * width - 1) := by
  have hpow : (2 : Int) ^ (8 * width) = 2 * 2 ^ (8 * width - 1) := by
    rw [← pow_succ', Nat.sub_add_cancel (by omega)]
  have hpos : (0 : Int) < 2 ^ (8 * width - 1) := by positivity
  have hcast : n < 2 ^ (8 * width - 1) ↔ (n : Int) < 2 ^ (8 * width - 1) := by
    exact_mod_cast Iff.rfl
  have hn' : (n : Int) < 2 ^ (8 * width) := by exact_mod_cast hn
  unfold signed
  simp only [hcast]
  generalize (2 : Int) ^ (8 * width - 1) = half at *
  rw [hpow] at hn' ⊢
  constructor
  · intro hz
    split at hz
    · subst hz
      refine ⟨(Int.emod_eq_of_lt (by omega) (by omega)).symm, by omega, by omega⟩
    · subst hz
      refine ⟨?_, by omega, by omega⟩
      rw [Int.sub_emod_right, Int.emod_eq_of_lt (by omega) (by omega)]
  · intro ⟨hmod, hlow, hhigh⟩
    by_cases hz : 0 ≤ z
    · rw [Int.emod_eq_of_lt hz (by omega)] at hmod
      rw [if_pos (by omega), hmod]
    · rw [← Int.add_emod_right, Int.emod_eq_of_lt (by omega) (by omega)] at hmod
      rw [if_neg (by omega)]
      omega

/-- A signed number of `width` bytes. -/
theorem readSigned_reads {width : Nat} (hwidth : 0 < width) {r : XdrReader Nat}
    (hr : Reads r fun n p => p = beBytes width n ∧ n < 2 ^ (8 * width)) :
    Reads (do let n ← r; return signed width n) fun z p =>
      p = beBytes width z ∧ -2 ^ (8 * width - 1) ≤ z ∧ z < 2 ^ (8 * width - 1) := by
  refine hr.bind (fun n => Reads.pure) |>.congr fun z p => ?_
  constructor
  · rintro ⟨n, q, q', rfl, ⟨rfl, hlt⟩, hz, rfl⟩
    obtain ⟨hmod, hrange⟩ := (signed_eq_iff hwidth hlt).mp hz.symm
    refine ⟨?_, hrange⟩
    rw [List.append_nil, beBytes_eq width z, ← hmod, Int.toNat_natCast, beBytes_natCast hlt]
  · rintro ⟨rfl, hrange⟩
    have hpos : (0 : Int) < 2 ^ (8 * width) := by positivity
    have hnonneg := Int.emod_nonneg z hpos.ne'
    have hlt : (z % 2 ^ (8 * width)).toNat < 2 ^ (8 * width) := by
      have := Int.emod_lt_of_pos z hpos
      zify
      rwa [Int.toNat_of_nonneg hnonneg]
    refine ⟨(z % 2 ^ (8 * width)).toNat, _, [], (List.append_nil _).symm, ⟨?_, hlt⟩, ?_, rfl⟩
    · rw [beBytes_natCast hlt, beBytes_eq]
    · exact ((signed_eq_iff hwidth hlt).mpr ⟨Int.toNat_of_nonneg hnonneg, hrange⟩).symm

theorem readI32_reads :
    Reads readI32 fun z p => p = writeI32 z ∧ -2 ^ 31 ≤ z ∧ z < 2 ^ 31 :=
  readSigned_reads (by decide) readU32_reads

theorem readI64_reads : Reads readI64 fun z p => p = writeI64 z ∧ inI64 z :=
  readSigned_reads (by decide) readU64_reads

/-! ### Accounts and padded values -/

theorem readEd25519Account_reads :
    Reads readEd25519Account fun key p => p = writeI32 keyTypeEd25519 ++ key ∧ key.length = 32 := by
  refine Reads.congr (readI32_reads.bind fun kind => Reads.guard (readFixed_reads 32))
    fun key p => ?_
  constructor
  · rintro ⟨kind, q, q', rfl, ⟨rfl, -⟩, hkind, rfl, hlength⟩
    rw [not_not.mp hkind]
    exact ⟨rfl, hlength⟩
  · rintro ⟨rfl, hlength⟩
    exact ⟨_, _, _, rfl, ⟨rfl, by decide⟩, not_not.mpr rfl, rfl, hlength⟩

/-- A value with its length before it and zeros behind it. -/
def writeVarOpaque (value : List UInt8) : List UInt8 :=
  writeU32 value.length ++ value ++ List.replicate (padding value.length) 0

theorem eq_replicate_of_any {bytes : List UInt8} (h : ¬ bytes.any (· ≠ 0) = true) :
    bytes = List.replicate bytes.length 0 := by
  simp only [List.any_eq_true, decide_eq_true_eq, not_exists, not_and, not_not] at h
  exact List.eq_replicate_of_mem h

theorem not_any_replicate (n : Nat) : ¬ (List.replicate n (0 : UInt8)).any (· ≠ 0) = true := by
  simp

theorem readVarOpaque_reads {maxLength : Nat} (hmax : maxLength < 2 ^ 32) :
    Reads (readVarOpaque maxLength) fun value p =>
      p = writeVarOpaque value ∧ value.length ≤ maxLength := by
  refine Reads.congr (readU32_reads.bind fun length => Reads.guard <|
    (readFixed_reads length).bind fun value => (readFixed_reads (padding length)).bind fun zeros =>
      Reads.guard Reads.pure) fun value p => ?_
  constructor
  · rintro ⟨length, q, q', rfl, ⟨rfl, -⟩, hmax, bytes, r, r', rfl, ⟨rfl, rfl⟩, zeros, t, t', rfl,
      ⟨rfl, hpadding⟩, hzeros, rfl, rfl⟩
    refine ⟨?_, not_lt.mp hmax⟩
    rw [writeVarOpaque, ← hpadding, ← eq_replicate_of_any hzeros, List.append_nil,
      List.append_assoc]
  · rintro ⟨rfl, hle⟩
    refine ⟨value.length, writeU32 value.length, value ++ List.replicate (padding value.length) 0,
      List.append_assoc _ _ _, ⟨rfl, by omega⟩, not_lt.mpr hle, value, _, _, rfl, ⟨rfl, rfl⟩, _, _, _,
      (List.append_nil _).symm, ⟨rfl, List.length_replicate⟩, not_any_replicate _, rfl, rfl⟩

/-- A text as the bytes of its UTF-8. -/
def textBytes (value : String) : List UInt8 := value.toUTF8.toList

theorem readXdrString_reads {maxLength : Nat} (hmax : maxLength < 2 ^ 32) :
    Reads (readXdrString maxLength) fun value p =>
      p = writeVarOpaque (textBytes value) ∧ (textBytes value).length ≤ maxLength := by
  refine Reads.congr ((readVarOpaque_reads hmax).bind
    (G := fun bytes value p => bytes = textBytes value ∧ p = []) fun bytes => ?_) fun value p => ?_
  · cases h : String.fromUTF8? ⟨bytes.toArray⟩ with
    | none =>
        refine Reads.throw.congr fun value p => ?_
        refine ⟨False.elim, ?_⟩
        rintro ⟨hbytes, -⟩
        rw [fromUTF8_list_eq_some.mpr hbytes] at h
        cases h
    | some text =>
        refine Reads.pure.congr fun value p => ?_
        rw [textBytes, ← fromUTF8_list_eq_some, h, Option.some.injEq, eq_comm]
  constructor
  · rintro ⟨bytes, q, q', rfl, ⟨rfl, hle⟩, rfl, rfl⟩
    exact ⟨List.append_nil _, hle⟩
  · rintro ⟨rfl, hle⟩
    exact ⟨_, _, [], (List.append_nil _).symm, ⟨rfl, hle⟩, rfl, rfl⟩

/-! ### Assets -/

/-- A code that the reader and the writer of assets admit. -/
structure IsAssetCode (code : String) : Prop where
  nonempty : code.toList ≠ []
  letters : code.toList.all (fun c => isUpper c || isDigit c) = true

namespace IsAssetCode

variable {code : String}

theorem encodeChar {c : Char} (h : (isUpper c || isDigit c) = true) :
    String.utf8EncodeChar c = [c.val.toUInt8] ∧ c.val.toUInt8 ≠ 0 := by
  have hrange : 48 ≤ c.val.toNat ∧ c.val.toNat ≤ 90 := by
    simp only [isUpper, isDigit, Bool.or_eq_true, Bool.and_eq_true, decide_eq_true_eq, Char.le_def,
      UInt32.le_iff_toNat_le] at h
    obtain ⟨hlow, hhigh⟩ | ⟨hlow, hhigh⟩ := h
    · exact ⟨le_trans (by decide) hlow, hhigh⟩
    · exact ⟨hlow, le_trans hhigh (by decide)⟩
  have hsize : c.utf8Size = 1 := by
    rw [Char.utf8Size_eq_one_iff, UInt32.le_iff_toNat_le]
    exact le_trans hrange.2 (by decide)
  refine ⟨String.utf8EncodeChar_eq_singleton hsize, fun hzero => ?_⟩
  have hnat : c.val.toNat % 2 ^ 8 = 0 := (UInt32.toNat_toUInt8 _).symm.trans (congrArg UInt8.toNat hzero)
  omega

theorem nonzero (h : IsAssetCode code) : ∀ b ∈ textBytes code, b ≠ 0 := by
  intro b hb
  rw [textBytes, toUTF8_toList] at hb
  obtain ⟨c, hc, hb⟩ := List.mem_flatMap.mp hb
  obtain ⟨hencode, hzero⟩ := encodeChar (List.all_eq_true.mp h.letters c hc)
  rw [hencode] at hb
  rwa [List.mem_singleton.mp hb]

theorem length_textBytes (h : IsAssetCode code) : (textBytes code).length = code.toList.length := by
  rw [textBytes, toUTF8_toList, List.length_flatMap]
  have hone : code.toList.map (fun c => (String.utf8EncodeChar c).length) =
      code.toList.map fun _ => 1 := by
    refine List.map_congr_left fun c hc => ?_
    rw [(encodeChar (List.all_eq_true.mp h.letters c hc)).1, List.length_singleton]
  rw [hone]
  simp

theorem textBytes_ne_nil (h : IsAssetCode code) : textBytes code ≠ [] := by
  intro hnil
  have hlength := h.length_textBytes
  rw [hnil] at hlength
  exact h.nonempty (List.length_eq_zero_iff.mp hlength.symm)

end IsAssetCode

/-- A code with zeros behind it. -/
def padCode (width : Nat) (code : String) : List UInt8 :=
  textBytes code ++ List.replicate (width - (textBytes code).length) 0

theorem takeWhile_padCode {width : Nat} {code : String} (h : IsAssetCode code) :
    (padCode width code).takeWhile (· ≠ 0) = textBytes code := by
  unfold padCode
  rw [List.takeWhile_append_of_pos fun b hb => decide_eq_true (h.nonzero b hb)]
  cases width - (textBytes code).length with
  | zero => simp
  | succ n => simp [List.replicate_succ]

/-- What comes behind the code is all zeros, and there is a code. -/
theorem padded_iff {bytes : List UInt8} :
    ((bytes.drop (bytes.takeWhile (· ≠ 0)).length).any (· ≠ 0) ||
        (bytes.takeWhile (· ≠ 0)).isEmpty) = false ↔
      bytes = bytes.takeWhile (· ≠ 0) ++
        List.replicate (bytes.length - (bytes.takeWhile (· ≠ 0)).length) 0 ∧
      bytes.takeWhile (· ≠ 0) ≠ [] := by
  have hsplit := List.take_append_drop (bytes.takeWhile (· ≠ 0)).length bytes
  rw [List.prefix_iff_eq_take.mp (List.takeWhile_prefix _) |>.symm] at hsplit
  have hlength : (bytes.drop (bytes.takeWhile (· ≠ 0)).length).length =
      bytes.length - (bytes.takeWhile (· ≠ 0)).length := List.length_drop
  rw [Bool.or_eq_false_iff, List.isEmpty_eq_false_iff]
  refine and_congr_left fun _ => ?_
  constructor
  · intro hany
    have hzeros := eq_replicate_of_any (ne_true_of_eq_false hany)
    rw [hlength] at hzeros
    rw [← hzeros, hsplit]
  · intro hbytes
    have hdrop := List.append_cancel_left (hsplit.trans hbytes)
    rw [hdrop]
    exact eq_false_of_ne_true (not_any_replicate _)

theorem decodeAssetCode_reads (bytes : List UInt8) :
    Reads (decodeAssetCode bytes) fun code p =>
      p = [] ∧ IsAssetCode code ∧ bytes = padCode bytes.length code := by
  have hcode {code : String} (h : IsAssetCode code) (hbytes : bytes = padCode bytes.length code) :
      bytes.takeWhile (· ≠ 0) = textBytes code :=
    (congrArg _ hbytes).trans (takeWhile_padCode h)
  have hread : Reads (decodeAssetCode bytes) fun code p =>
      ¬ ((bytes.drop (bytes.takeWhile (· ≠ 0)).length).any (· ≠ 0) ||
        (bytes.takeWhile (· ≠ 0)).isEmpty) = true ∧
      p = [] ∧ bytes.takeWhile (· ≠ 0) = textBytes code ∧
        code.toList.all (fun c => isUpper c || isDigit c) = true := by
    unfold decodeAssetCode
    refine Reads.guard ?_
    dsimp only
    cases h : String.fromUTF8? ⟨(bytes.takeWhile (· ≠ 0)).toArray⟩ with
    | none =>
        refine Reads.throw.congr fun code p => ?_
        refine ⟨False.elim, ?_⟩
        rintro ⟨-, hbytes, -⟩
        rw [fromUTF8_list_eq_some.mpr hbytes] at h
        cases h
    | some text =>
        have htext := fromUTF8_list_eq_some.mp h
        refine Reads.congr (Reads.ite Reads.pure Reads.throw) fun code p => ?_
        constructor
        · intro hread
          split at hread
          · rename_i hall
            obtain ⟨rfl, rfl⟩ := hread
            exact ⟨rfl, htext, hall⟩
          · exact hread.elim
        · rintro ⟨rfl, hbytes, hall⟩
          obtain rfl : text = code := by
            rw [← Option.some.injEq, ← h, fromUTF8_list_eq_some]
            exact hbytes
          rw [if_pos hall]
          exact ⟨rfl, rfl⟩
  refine hread.congr fun code p => ?_
  rw [Bool.not_eq_true, padded_iff]
  constructor
  · rintro ⟨⟨hbytes, hne⟩, rfl, htext, hall⟩
    refine ⟨rfl, ⟨fun hnil => ?_, hall⟩, ?_⟩
    · rw [textBytes, toUTF8_toList, hnil] at htext
      exact hne htext
    · rwa [htext] at hbytes
  · rintro ⟨rfl, hvalid, hbytes⟩
    have htext := hcode hvalid hbytes
    refine ⟨⟨?_, ?_⟩, rfl, htext, hvalid.letters⟩
    · rwa [htext]
    · rw [htext]
      exact hvalid.textBytes_ne_nil

/-- An asset as an operation names it. -/
inductive PaymentAsset
  | native
  | alphanum (wide : Bool) (code : String) (issuer : List UInt8)
  deriving DecidableEq, Repr

namespace PaymentAsset

def kind (wide : Bool) : Int := if wide then assetAlphanum12 else assetAlphanum4

def width (wide : Bool) : Nat := if wide then 12 else 4

def code : PaymentAsset → String
  | native => "XLM"
  | alphanum _ code _ => code

def issuer : PaymentAsset → Option (List UInt8)
  | native => none
  | alphanum _ _ issuer => some issuer

def write : PaymentAsset → List UInt8
  | native => writeI32 assetNative
  | alphanum wide code issuer =>
      writeI32 (kind wide) ++ padCode (width wide) code ++ (writeI32 keyTypeEd25519 ++ issuer)

/-- The code fits into its bytes, and the issuer is a key. -/
def Valid : PaymentAsset → Prop
  | native => True
  | alphanum wide code issuer =>
      IsAssetCode code ∧ (textBytes code).length ≤ width wide ∧ issuer.length = 32

end PaymentAsset

theorem length_padCode {width : Nat} {code : String} :
    (padCode width code).length = width ↔ (textBytes code).length ≤ width := by
  rw [padCode, List.length_append, List.length_replicate]
  omega

theorem kind_iff {kind : Int} :
    kind = assetAlphanum4 ∨ kind = assetAlphanum12 ↔ ∃ wide, kind = PaymentAsset.kind wide := by
  constructor
  · intro h
    cases h with
    | inl h => exact ⟨false, h⟩
    | inr h => exact ⟨true, h⟩
  · intro ⟨wide, h⟩
    cases wide with
    | false => exact .inl h
    | true => exact .inr h

theorem width_eq (wide : Bool) :
    (if PaymentAsset.kind wide = assetAlphanum4 then 4 else 12) = PaymentAsset.width wide := by
  cases wide <;> rfl

theorem kind_ne_native (wide : Bool) : PaymentAsset.kind wide ≠ assetNative := by
  cases wide <;> decide

theorem kind_range (wide : Bool) : -2 ^ 31 ≤ PaymentAsset.kind wide ∧ PaymentAsset.kind wide < 2 ^ 31 := by
  cases wide <;> decide

theorem readAsset_reads : Reads readAsset fun asset p =>
    ∃ a : PaymentAsset, a.Valid ∧ p = a.write ∧ asset = (a.code, a.issuer) := by
  refine Reads.congr (readI32_reads.bind fun kind => Reads.ite Reads.pure <| Reads.ite
    ((readFixed_reads _).bind fun bytes => (decodeAssetCode_reads bytes).bind fun code =>
      readEd25519Account_reads.bind fun issuer => Reads.pure) Reads.throw) fun asset p => ?_
  constructor
  · rintro ⟨kind, q, q', rfl, ⟨rfl, -⟩, hrest⟩
    split at hrest
    · rename_i hkind
      obtain ⟨rfl, rfl⟩ := hrest
      exact ⟨.native, trivial, by rw [hkind, List.append_nil]; rfl, rfl⟩
    split at hrest
    · rename_i hkind
      obtain ⟨wide, rfl⟩ := kind_iff.mp hkind
      obtain ⟨bytes, r, r', rfl, ⟨rfl, hwidth⟩, code, t, t', rfl, ⟨rfl, hcode, hbytes⟩, issuer, v, v',
        rfl, ⟨rfl, hissuer⟩, rfl, rfl⟩ := hrest
      rw [width_eq] at hwidth
      rw [hwidth] at hbytes
      refine ⟨.alphanum wide code issuer, ⟨hcode, ?_, hissuer⟩, ?_, rfl⟩
      · rwa [hbytes, length_padCode] at hwidth
      · rw [hbytes, List.nil_append, List.append_nil, ← List.append_assoc]
        rfl
    · exact hrest.elim
  · rintro ⟨a, hvalid, rfl, rfl⟩
    cases a with
    | native =>
        refine ⟨assetNative, _, [], (List.append_nil _).symm, ⟨rfl, by decide⟩, ?_⟩
        rw [if_pos rfl]
        exact ⟨rfl, rfl⟩
    | alphanum wide code issuer =>
        obtain ⟨hcode, hlength, hissuer⟩ := hvalid
        have hwidth := length_padCode.mpr hlength
        refine ⟨PaymentAsset.kind wide, _, _, List.append_assoc _ _ _, ⟨rfl, kind_range wide⟩, ?_⟩
        rw [if_neg (kind_ne_native wide), if_pos (kind_iff.mpr ⟨wide, rfl⟩)]
        refine ⟨_, _, _, rfl, ⟨rfl, hwidth.trans (width_eq wide).symm⟩, code, [], _,
          (List.nil_append _).symm, ⟨rfl, hcode, ?_⟩, issuer, _, [], (List.append_nil _).symm,
          ⟨rfl, hissuer⟩, rfl, rfl⟩
        rw [hwidth]

/-! ### Signatures -/

/-- A signature with the hint at its key. -/
structure DecoratedSignature where
  hint : List UInt8
  signature : List UInt8
  deriving DecidableEq, Repr

namespace DecoratedSignature

def write (s : DecoratedSignature) : List UInt8 := s.hint ++ writeVarOpaque s.signature

structure WellFormed (s : DecoratedSignature) : Prop where
  hint : s.hint.length = 4
  signature : s.signature.length ≤ 64

end DecoratedSignature

theorem skipSignatures_reads (n : Nat) : Reads (skipSignatures n) fun _ p =>
    ∃ ss : List DecoratedSignature, ss.length = n ∧ (∀ s ∈ ss, s.WellFormed) ∧
      p = ss.flatMap DecoratedSignature.write := by
  induction n with
  | zero =>
      refine Reads.pure.congr fun _ p => ?_
      constructor
      · rintro ⟨-, rfl⟩
        exact ⟨[], rfl, by simp, rfl⟩
      · rintro ⟨ss, hlength, -, rfl⟩
        obtain rfl := List.length_eq_zero_iff.mp hlength
        exact ⟨rfl, rfl⟩
  | succ n ih =>
      refine Reads.congr ((readFixed_reads 4).bind fun hint =>
        (readVarOpaque_reads (by decide)).bind fun signature => ih) fun _ p => ?_
      constructor
      · rintro ⟨hint, q, q', rfl, ⟨rfl, hhint⟩, signature, r, r', rfl, ⟨rfl, hsignature⟩, ss, rfl, hss,
          rfl⟩
        refine ⟨⟨hint, signature⟩ :: ss, rfl, ?_, ?_⟩
        · exact List.forall_mem_cons.mpr ⟨⟨hhint, hsignature⟩, hss⟩
        · rw [List.flatMap_cons, DecoratedSignature.write, List.append_assoc]
      · rintro ⟨ss, hlength, hss, rfl⟩
        obtain ⟨s, rest, rfl⟩ := List.exists_cons_of_length_eq_add_one hlength
        obtain ⟨hs, hrest⟩ := List.forall_mem_cons.mp hss
        refine ⟨s.hint, s.hint, _, ?_, ⟨rfl, hs.hint⟩, s.signature, _, _, rfl, ⟨rfl, hs.signature⟩,
          rest, Nat.succ.inj hlength, hrest, rfl⟩
        rw [List.flatMap_cons, DecoratedSignature.write, List.append_assoc]

end CrownFi.Stellar
