import CrownFi.Stellar.Base64

/-!
# CrownFi.Stellar.Base64Texts

**Which texts decode to the same bytes.** The decoder refuses padding that is not at the end. It
does not look at the bits of the last digit that no byte takes up: four in front of two pads, two
in front of one. So a text is the encoding of its bytes once these bits are cleared, and an
envelope has as many texts as they have values.
-/

namespace CrownFi.Stellar

open Lib CrownFi.Api

def digitValue (c : Char) : Nat :=
  match base64Value c with
  | .ok digit => digit
  | .error _ => 0

/-- The bits of the last digit that no byte takes up. -/
def spareBits : List Char → Nat
  | _ :: b :: c :: d :: rest =>
      if c = '=' then digitValue b % 16
      else if d = '=' then digitValue c % 4
      else spareBits rest
  | _ => 0

/-- The text with these bits cleared. -/
def clearSpare : List Char → List Char
  | a :: b :: c :: d :: rest =>
      (if c = '=' then [a, base64Char (digitValue b / 16 * 16), c, d]
        else if d = '=' then [a, b, base64Char (digitValue c / 4 * 4), d]
        else [a, b, c, d]) ++ clearSpare rest
  | cs => cs

/-! ### Digits -/

theorem base64Value_eq_ok {c : Char} {digit : Nat} (h : base64Value c = .ok digit) :
    digit < 64 ∧ base64Char digit = c := by
  have hall : ∀ n : Fin 123, (base64Value (Char.ofNat n.val)).toOption.all (fun digit =>
      decide (digit < 64 ∧ base64Char digit = Char.ofNat n.val)) = true := by decide +kernel
  have hascii : c.toNat < 123 := by
    unfold base64Value isUpper isDigit at h
    simp only [Bool.and_eq_true, decide_eq_true_eq, Char.le_def, UInt32.le_iff_toNat_le] at h
    split at h
    · rename_i hupper
      have hhigh : c.toNat ≤ 90 := hupper.2
      omega
    split at h
    · rename_i hlower
      have hhigh : c.toNat ≤ 122 := hlower.2
      omega
    split at h
    · rename_i hdigit
      have hhigh : c.toNat ≤ 57 := hdigit.2
      omega
    split at h
    · rename_i hplus
      rw [hplus]
      decide
    split at h
    · rename_i hslash
      rw [hslash]
      decide
    · cases h
  have hchar := hall ⟨c.toNat, hascii⟩
  rw [Char.ofNat_toNat, h] at hchar
  exact of_decide_eq_true hchar

theorem digitValue_of {c : Char} {digit : Nat} (h : base64Value c = .ok digit) : digitValue c = digit := by
  rw [digitValue, h]

theorem base64Char_inj {m n : Nat} (hm : m < 64) (hn : n < 64) (h : base64Char m = base64Char n) : m = n := by
  have hvalue := (base64_digit hm).1
  rw [h, (base64_digit hn).1] at hvalue
  exact (Except.ok.inj hvalue).symm

/-! ### Chunks -/

/-- What a chunk holds: three bytes, or two or one before the padding of the last chunk. -/
inductive Chunk (a b c d : Char) (isLast : Bool) (x y : Nat) : List UInt8 → Prop
  | three {z w : Nat} (hc : c ≠ '=') (hd : d ≠ '=') (hz : base64Value c = .ok z) (hw : base64Value d = .ok w) :
      Chunk a b c d isLast x y (
        let n := x * 2 ^ 18 + y * 2 ^ 12 + z * 2 ^ 6 + w
        [UInt8.ofNat (n / 2 ^ 16), UInt8.ofNat (n / 2 ^ 8), UInt8.ofNat n])
  | two {z : Nat} (hc : c ≠ '=') (hd : d = '=') (hlast : isLast = true) (hz : base64Value c = .ok z) :
      Chunk a b c d isLast x y (
        let n := x * 2 ^ 18 + y * 2 ^ 12 + z * 2 ^ 6
        [UInt8.ofNat (n / 2 ^ 16), UInt8.ofNat (n / 2 ^ 8)])
  | one (hc : c = '=') (hd : d = '=') (hlast : isLast = true) :
      Chunk a b c d isLast x y [UInt8.ofNat ((x * 2 ^ 18 + y * 2 ^ 12) / 2 ^ 16)]

theorem decodeChunk_eq_ok {a b c d : Char} {isLast : Bool} {bytes : List UInt8}
    (h : decodeChunk a b c d isLast = .ok bytes) :
    ∃ x y, base64Value a = .ok x ∧ base64Value b = .ok y ∧ Chunk a b c d isLast x y bytes := by
  unfold decodeChunk at h
  cases hx : base64Value a with
  | error e =>
      rw [hx] at h
      cases h
  | ok x =>
  cases hy : base64Value b with
  | error e =>
      rw [hx, hy] at h
      cases h
  | ok y =>
  refine ⟨x, y, rfl, rfl, ?_⟩
  rw [hx, hy] at h
  by_cases hc : c = '='
  · by_cases hd : d = '='
    · cases isLast with
      | false => simp [hc, hd] at h
      | true =>
          simp only [ok_bind, hc, hd, decide_true, Bool.not_true, Bool.and_false, Bool.or_self,
            Bool.false_eq_true, if_false, if_true, pure_bind, List.append_nil] at h
          rw [← Except.ok.inj h, Nat.zero_mul, Nat.add_zero]
          exact .one hc hd rfl
    · simp [hc, hd] at h
  · by_cases hd : d = '='
    · cases isLast with
      | false => simp [hc, hd] at h
      | true =>
          cases hz : base64Value c with
          | error e => simp [hc, hd, hz] at h
          | ok z =>
              simp only [ok_bind, hc, hd, hz, decide_true, decide_false, Bool.not_true, Bool.and_false,
                Bool.false_or, Bool.false_eq_true, if_false, if_true, pure_bind, List.append_nil] at h
              rw [← Except.ok.inj h, Nat.add_zero]
              exact .two hc hd rfl hz
    · cases hz : base64Value c with
      | error e => simp [hc, hd, hz] at h
      | ok z =>
          cases hw : base64Value d with
          | error e => simp [hc, hd, hz, hw] at h
          | ok w =>
              simp only [ok_bind, hc, hd, hz, hw, decide_false, Bool.not_false, Bool.and_true,
                Bool.false_or, Bool.false_and, Bool.false_eq_true, if_false, pure_bind] at h
              rw [← Except.ok.inj h]
              exact .three hc hd hz hw

/-- The encoding of a chunk is the chunk, with its unused bits cleared. -/
theorem encodeChunk_three {x y z w : Nat} (hx : x < 64) (hy : y < 64) (hz : z < 64) (hw : w < 64) :
    let n := x * 2 ^ 18 + y * 2 ^ 12 + z * 2 ^ 6 + w
    encodeChunk (UInt8.ofNat (n / 2 ^ 16)) (some (UInt8.ofNat (n / 2 ^ 8))) (some (UInt8.ofNat n)) =
      [base64Char x, base64Char y, base64Char z, base64Char w] := by
  intro n
  have hcombined : (UInt8.ofNat (n / 2 ^ 16)).toNat * 2 ^ 16 + (UInt8.ofNat (n / 2 ^ 8)).toNat * 2 ^ 8 +
      (UInt8.ofNat n).toNat = n := by
    rw [UInt8.toNat_ofNat', UInt8.toNat_ofNat', UInt8.toNat_ofNat']
    omega
  simp only [encodeChunk, Option.getD_some, Option.isSome_some, if_true]
  rw [hcombined, show n / 2 ^ 18 % 64 = x by omega, show n / 2 ^ 12 % 64 = y by omega,
    show n / 2 ^ 6 % 64 = z by omega, show n % 64 = w by omega]

theorem encodeChunk_two {x y z : Nat} (hx : x < 64) (hy : y < 64) (hz : z < 64) :
    let n := x * 2 ^ 18 + y * 2 ^ 12 + z * 2 ^ 6
    encodeChunk (UInt8.ofNat (n / 2 ^ 16)) (some (UInt8.ofNat (n / 2 ^ 8))) none =
      [base64Char x, base64Char y, base64Char (z / 4 * 4), '='] := by
  intro n
  have hcombined : (UInt8.ofNat (n / 2 ^ 16)).toNat * 2 ^ 16 + (UInt8.ofNat (n / 2 ^ 8)).toNat * 2 ^ 8 + 0 =
      n / 2 ^ 8 * 2 ^ 8 := by
    rw [UInt8.toNat_ofNat', UInt8.toNat_ofNat']
    omega
  simp only [encodeChunk, Option.getD_some, Option.getD_none, Option.isSome_some, Option.isSome_none,
    if_true, Bool.false_eq_true, if_false]
  rw [show (0 : UInt8).toNat = 0 from rfl, hcombined, show n / 2 ^ 8 * 2 ^ 8 / 2 ^ 18 % 64 = x by omega,
    show n / 2 ^ 8 * 2 ^ 8 / 2 ^ 12 % 64 = y by omega, show n / 2 ^ 8 * 2 ^ 8 / 2 ^ 6 % 64 = z / 4 * 4 by omega]

theorem encodeChunk_one {x y : Nat} (hx : x < 64) (hy : y < 64) :
    encodeChunk (UInt8.ofNat ((x * 2 ^ 18 + y * 2 ^ 12) / 2 ^ 16)) none none =
      [base64Char x, base64Char (y / 16 * 16), '=', '='] := by
  have hbyte : (UInt8.ofNat ((x * 2 ^ 18 + y * 2 ^ 12) / 2 ^ 16)).toNat = x * 4 + y / 16 := by
    rw [UInt8.toNat_ofNat']
    omega
  simp only [encodeChunk, Option.getD_none, Option.isSome_none, Bool.false_eq_true, if_false]
  rw [show (0 : UInt8).toNat = 0 from rfl, hbyte,
    show ((x * 4 + y / 16) * 2 ^ 16 + 0 * 2 ^ 8 + 0) / 2 ^ 18 % 64 = x by omega,
    show ((x * 4 + y / 16) * 2 ^ 16 + 0 * 2 ^ 8 + 0) / 2 ^ 12 % 64 = y / 16 * 16 by omega]

/-! ### Texts -/

/-- Clearing changes a text exactly where it has spare bits. -/
theorem clearSpare_eq_self {cs : List Char} {bytes : List UInt8} (h : decodeChars cs = .ok bytes) :
    clearSpare cs = cs ↔ spareBits cs = 0 := by
  fun_induction decodeChars cs generalizing bytes with
  | case1 => exact iff_of_true rfl rfl
  | case2 a b c d rest ih =>
      obtain ⟨chunk, hchunk, h⟩ := bind_eq_ok.mp h
      obtain ⟨restBytes, hrest, -⟩ := bind_eq_ok.mp h
      obtain ⟨x, y, hx, hy, hshape⟩ := decodeChunk_eq_ok hchunk
      have hclear : ∀ {e : Char} {v m : Nat}, base64Value e = .ok v → 0 < m →
          (base64Char (v / m * m) = e ↔ v % m = 0) := by
        intro e v m he hm
        obtain ⟨hlt, hchar⟩ := base64Value_eq_ok he
        have hle : v / m * m ≤ v := Nat.div_mul_le_self v m
        have hsplit := Nat.div_add_mod' v m
        constructor
        · intro heq
          have hsame := base64Char_inj (by omega) hlt (heq.trans hchar.symm)
          omega
        · intro hzero
          rw [show v / m * m = v by omega, hchar]
      cases hshape with
      | three hc hd hz hw =>
          rw [clearSpare, spareBits, if_neg hc, if_neg hd, if_neg hc, if_neg hd]
          simpa using ih hrest
      | two hc hd hlast hz =>
          obtain rfl : rest = [] := List.isEmpty_iff.mp hlast
          rw [clearSpare, spareBits, if_neg hc, if_pos hd, if_neg hc, if_pos hd, digitValue_of hz]
          simpa [clearSpare] using hclear hz (by decide)
      | one hc hd hlast =>
          obtain rfl : rest = [] := List.isEmpty_iff.mp hlast
          rw [clearSpare, spareBits, if_pos hc, if_pos hc, digitValue_of hy]
          simpa [clearSpare] using hclear hy (by decide)
  | case3 => cases h

/-- **What a text decodes to encodes to the text**, its spare bits cleared. -/
theorem encodeChars_of_decodeChars {cs : List Char} {bytes : List UInt8} (h : decodeChars cs = .ok bytes) :
    encodeChars bytes = clearSpare cs := by
  fun_induction decodeChars cs generalizing bytes with
  | case1 =>
      obtain rfl := Except.ok.inj h
      rfl
  | case2 a b c d rest ih =>
      obtain ⟨chunk, hchunk, h⟩ := bind_eq_ok.mp h
      obtain ⟨restBytes, hrest, h⟩ := bind_eq_ok.mp h
      obtain rfl := Except.ok.inj h
      obtain ⟨x, y, hx, hy, hshape⟩ := decodeChunk_eq_ok hchunk
      obtain ⟨hxlt, rfl⟩ := base64Value_eq_ok hx
      obtain ⟨hylt, rfl⟩ := base64Value_eq_ok hy
      cases hshape with
      | three hc hd hz hw =>
          obtain ⟨hzlt, rfl⟩ := base64Value_eq_ok hz
          obtain ⟨hwlt, rfl⟩ := base64Value_eq_ok hw
          rw [clearSpare, if_neg hc, if_neg hd, ← ih hrest, ← encodeChunk_three hxlt hylt hzlt hwlt]
          rfl
      | two hc hd hlast hz =>
          obtain ⟨hzlt, rfl⟩ := base64Value_eq_ok hz
          obtain rfl : rest = [] := List.isEmpty_iff.mp hlast
          obtain rfl := Except.ok.inj hrest
          rw [clearSpare, if_neg hc, if_pos hd, digitValue_of hz, hd, ← encodeChunk_two hxlt hylt hzlt]
          rfl
      | one hc hd hlast =>
          obtain rfl : rest = [] := List.isEmpty_iff.mp hlast
          obtain rfl := Except.ok.inj hrest
          rw [clearSpare, if_pos hc, digitValue_of hy, hc, hd, ← encodeChunk_one hxlt hylt]
          rfl
  | case3 => cases h

theorem decodeBase64_eq_ok {value : String} {bytes : List UInt8} (h : decodeBase64 value = .ok bytes) :
    value.toList ≠ [] ∧ decodeChars value.toList = .ok bytes := by
  obtain ⟨hform, h⟩ := guard_eq_ok.mp h
  exact ⟨(not_or.mp hform).1, h⟩

theorem clearSpare_eq_nil {cs : List Char} (h : clearSpare cs = []) : cs = [] := by
  fun_cases clearSpare cs with
  | case1 a b c d rest =>
      rw [clearSpare] at h
      split at h
      · cases h
      split at h <;> cases h
  | case2 _ hshort => rwa [clearSpare.eq_2 cs hshort] at h

theorem ne_nil_of_decodeBase64 {value : String} {bytes : List UInt8} (h : decodeBase64 value = .ok bytes) :
    bytes ≠ [] := by
  obtain ⟨hne, h⟩ := decodeBase64_eq_ok h
  rintro rfl
  exact hne (clearSpare_eq_nil (encodeChars_of_decodeChars h).symm)

/-- **Texts of the same bytes**: what is encoded decodes to itself, and a text is the encoding of
its bytes up to the spare bits. -/
theorem base64_texts :
    (∀ bytes : List UInt8, bytes ≠ [] → decodeBase64 (encodeBase64 bytes) = .ok bytes) ∧
    (∀ value bytes, decodeBase64 value = .ok bytes →
      encodeBase64 bytes = String.ofList (clearSpare value.toList) ∧
      (encodeBase64 bytes = value ↔ spareBits value.toList = 0)) ∧
    (∀ value other bytes bytes', decodeBase64 value = .ok bytes → decodeBase64 other = .ok bytes' →
      (bytes = bytes' ↔ clearSpare value.toList = clearSpare other.toList)) := by
  have hencode : ∀ {value bytes}, decodeBase64 value = .ok bytes →
      encodeBase64 bytes = String.ofList (clearSpare value.toList) := by
    intro value bytes h
    rw [encodeBase64, encodeChars_of_decodeChars (decodeBase64_eq_ok h).2]
  refine ⟨fun bytes => decode_encodeBase64, ?_, ?_⟩
  · intro value bytes h
    refine ⟨hencode h, ?_⟩
    rw [hencode h, ← clearSpare_eq_self (decodeBase64_eq_ok h).2, ← String.toList_inj,
      String.toList_ofList]
  · intro value other bytes bytes' h h'
    constructor
    · rintro rfl
      exact String.ofList_injective ((hencode h).symm.trans (hencode h'))
    · intro hclear
      have hsame : encodeBase64 bytes = encodeBase64 bytes' := by
        rw [hencode h, hencode h', hclear]
      have hdecode := decode_encodeBase64 (ne_nil_of_decodeBase64 h)
      rw [hsame, decode_encodeBase64 (ne_nil_of_decodeBase64 h')] at hdecode
      exact (Except.ok.inj hdecode).symm

/-- Two texts of one byte. -/
theorem base64_two_texts : ¬ ∀ value bytes, decodeBase64 value = .ok bytes → encodeBase64 bytes = value := by
  intro h
  exact absurd (h "AB==" [0] (by decide +kernel)) (by decide +kernel)

end CrownFi.Stellar
