import CrownFi.Lib.BigEndian
import CrownFi.Lib.Fallible
import CrownFi.Lib.Positional
import CrownFi.Stellar.StrKey

/-!
# CrownFi.Stellar.KeyText

**The decoder of keys inverts base32.** The 35 bytes of a key are a number of 280 bits, and so
are the 56 digits of its text. The decoding loop carries this number over: what it has written
and what it still holds is, at each step, the number of the digits it has read. So a text is
accepted exactly when it is the text of a version, a key and their checksum.
-/

namespace CrownFi.Stellar

open Lib CrownFi.Api

/-! ### Base 32, as it is written -/

def base32Char (digit : Nat) : Char :=
  if digit < 26 then Char.ofNat (65 + digit) else Char.ofNat (50 + (digit - 26))

/-- Unpadded base32, for a number of bytes that five divides. -/
def base32 (bytes : List UInt8) : String :=
  String.ofList ((Positional.digits 32 (8 * bytes.length / 5) (wordValue bytes)).map base32Char)

/-- A version, a key, and their checksum, the lower byte first. -/
def keyBytes (version : UInt8) (key : List UInt8) : List UInt8 :=
  let body := version :: key
  body ++ [(crc16 body).toUInt8, (crc16 body >>> 8).toUInt8]

def keyText (version : UInt8) (key : List UInt8) : String := base32 (keyBytes version key)

/-- A base32 digit. -/
def IsBase32 (c : Char) : Prop := ∃ digit, base32Value c = some digit

theorem base32Value_base32Char {digit : Nat} (h : digit < 32) :
    base32Value (base32Char digit) = some digit := by
  have hall : ∀ d : Fin 32, base32Value (base32Char d.val) = some d.val := by decide
  exact hall ⟨digit, h⟩

theorem base32Value_eq_some {c : Char} {digit : Nat} (h : base32Value c = some digit) :
    digit < 32 ∧ base32Char digit = c := by
  unfold base32Value isUpper at h
  simp only [Bool.and_eq_true, decide_eq_true_eq, Char.le_def, UInt32.le_iff_toNat_le] at h
  split at h
  · rename_i hupper
    have hlow : 65 ≤ c.toNat := hupper.1
    have hhigh : c.toNat ≤ 90 := hupper.2
    obtain rfl := Option.some.inj h
    refine ⟨by omega, ?_⟩
    rw [base32Char, if_pos (by omega), show 65 + (c.toNat - 65) = c.toNat by omega, Char.ofNat_toNat]
  split at h
  · rename_i hdigit
    have hlow : 50 ≤ c.toNat := hdigit.1
    have hhigh : c.toNat ≤ 55 := hdigit.2
    obtain rfl := Option.some.inj h
    refine ⟨by omega, ?_⟩
    rw [base32Char, if_neg (by omega), show 50 + (c.toNat - 50 + 26 - 26) = c.toNat by omega,
      Char.ofNat_toNat]
  · cases h

theorem utf8Size_of_base32 {c : Char} (h : IsBase32 c) : c.utf8Size = 1 := by
  obtain ⟨digit, h⟩ := h
  obtain ⟨hlt, rfl⟩ := base32Value_eq_some h
  have hall : ∀ d : Fin 32, (base32Char d.val).utf8Size = 1 := by decide
  exact hall ⟨digit, hlt⟩

theorem byteLength_of_base32 {cs : List Char} (h : ∀ c ∈ cs, IsBase32 c) : byteLength cs = cs.length := by
  induction cs with
  | nil => rfl
  | cons c cs ih =>
      have hcs := ih fun d hd => h d (List.mem_cons_of_mem _ hd)
      rw [byteLength] at hcs ⊢
      rw [List.map_cons, List.sum_cons, hcs, utf8Size_of_base32 (h c List.mem_cons_self),
        List.length_cons, Nat.add_comm]

/-! ### The loop -/

/-- The buffer stands for the number `n` of `k` digits: the bytes that are written and the bits
that are left over. -/
structure BitBuffer.Holds (b : BitBuffer) (n k : Nat) : Prop where
  bits : b.bits < 8
  accumulator : b.accumulator < 2 ^ b.bits
  size : 8 * b.decoded.length + b.bits = 5 * k
  value : wordValue b.decoded * 2 ^ b.bits + b.accumulator = n

theorem BitBuffer.Holds.push {b : BitBuffer} {n k digit : Nat} (h : b.Holds n k) (hdigit : digit < 32) :
    (b.push digit).Holds (n * 32 + digit) (k + 1) := by
  obtain ⟨hbits, haccumulator, hsize, hvalue⟩ := h
  have hshift : 2 ^ (b.bits + 5) = 2 ^ b.bits * 32 := Nat.pow_add _ _ _
  have hread : b.accumulator * 32 + digit < 2 ^ (b.bits + 5) := by
    rw [hshift]
    omega
  have hnumber : n * 32 + digit =
      wordValue b.decoded * 2 ^ (b.bits + 5) + (b.accumulator * 32 + digit) := by
    rw [← hvalue, hshift, Nat.add_mul, Nat.mul_assoc, Nat.add_assoc]
  unfold BitBuffer.push
  simp only
  split
  · -- a byte is complete
    rename_i hfull
    obtain ⟨rest, hrest⟩ := Nat.exists_eq_add_of_le' hfull
    have hpow : 2 ^ (b.bits + 5) = 256 * 2 ^ rest := by
      rw [hrest, Nat.pow_add, Nat.mul_comm]
    have hbyte : (b.accumulator * 32 + digit) / 2 ^ rest < 256 := by
      rw [Nat.div_lt_iff_lt_mul (Nat.two_pow_pos rest), ← hpow]
      exact hread
    have hless : rest < 8 := by omega
    have hmore : 8 * (b.decoded.length + 1) + rest = 5 * (k + 1) := by omega
    rw [hrest, Nat.add_sub_cancel]
    refine ⟨hless, Nat.mod_lt _ (Nat.two_pow_pos rest), ?_, ?_⟩
    · rw [List.length_append, List.length_singleton]
      exact hmore
    · rw [wordValue_append, UInt8.toNat_ofNat', Nat.mod_eq_of_lt hbyte, hnumber, hpow, Nat.add_mul,
        Nat.mul_assoc, Nat.add_assoc, Nat.div_add_mod']
  · rename_i hnotfull
    have hless : b.bits + 5 < 8 := by omega
    have hmore : 8 * b.decoded.length + (b.bits + 5) = 5 * (k + 1) := by omega
    exact ⟨hless, hread, hmore, hnumber.symm⟩

theorem BitBuffer.Holds.foldl {b : BitBuffer} {n k : Nat} (h : b.Holds n k) {ds : List Nat}
    (hds : ∀ d ∈ ds, d < 32) :
    (ds.foldl BitBuffer.push b).Holds (n * 32 ^ ds.length + Positional.value 32 ds) (k + ds.length) := by
  induction ds using List.reverseRecOn with
  | nil => simpa [Positional.value] using h
  | append_singleton ds d ih =>
      have hlast := (ih fun e he => hds e (List.mem_append_left _ he)).push (hds d (by simp))
      rw [List.foldl_append, List.length_append, List.length_singleton, Positional.value_append_singleton,
        Nat.pow_succ, ← Nat.mul_assoc, ← Nat.add_assoc, ← Nat.add_assoc, ← Nat.add_mul]
      exact hlast

/-- The loop stops at the first character that is no digit. -/
theorem decodeDigits_eq_some {b b' : BitBuffer} {cs : List Char} :
    decodeDigits b cs = some b' ↔
      ∃ ds : List Nat, cs.map base32Value = ds.map some ∧ ds.foldl BitBuffer.push b = b' := by
  induction cs generalizing b with
  | nil => simp [decodeDigits]
  | cons c cs ih =>
      rw [decodeDigits, Option.bind_eq_some_iff]
      constructor
      · intro ⟨d, hd, hrest⟩
        obtain ⟨ds, hds, hfold⟩ := ih.mp hrest
        exact ⟨d :: ds, by rw [List.map_cons, List.map_cons, hd, hds], hfold⟩
      · intro ⟨ds, hds, hfold⟩
        cases ds with
        | nil => cases hds
        | cons d ds =>
            rw [List.map_cons, List.map_cons, List.cons.injEq] at hds
            exact ⟨d, hds.1, ih.mpr ⟨ds, hds.2, hfold⟩⟩

/-- The digits of a text. -/
theorem base32_digits {cs : List Char} {ds : List Nat} (h : cs.map base32Value = ds.map some) :
    (∀ d ∈ ds, d < 32) ∧ (∀ c ∈ cs, IsBase32 c) ∧ ds.map base32Char = cs := by
  induction cs generalizing ds with
  | nil =>
      obtain rfl : ds = [] := List.map_eq_nil_iff.mp h.symm
      exact ⟨by simp, by simp, rfl⟩
  | cons c cs ih =>
      cases ds with
      | nil => cases h
      | cons d ds =>
          rw [List.map_cons, List.map_cons, List.cons.injEq] at h
          obtain ⟨hlt, hall, hmap⟩ := ih h.2
          obtain ⟨hd, hc⟩ := base32Value_eq_some h.1
          refine ⟨?_, ?_, by rw [List.map_cons, hc, hmap]⟩
          · intro e he
            rcases List.mem_cons.mp he with rfl | he
            · exact hd
            · exact hlt e he
          · intro e he
            rcases List.mem_cons.mp he with rfl | he
            · exact ⟨d, h.1⟩
            · exact hall e he

/-! ### The bytes of a text -/

theorem holds_empty : (⟨0, 0, []⟩ : BitBuffer).Holds 0 0 := ⟨by decide, by decide, rfl, rfl⟩

/-- The decoder's bytes are those of the number that the digits denote. -/
theorem strKeyBytes_eq_some_iff {value : String} {bytes : List UInt8} :
    strKeyBytes value = some bytes ↔ ∃ ds : List Nat, value.toList.map base32Value = ds.map some ∧
      ds.length = 56 ∧ bytes = word 35 (Positional.value 32 ds) := by
  have hbuffer : ∀ ds : List Nat, (∀ d ∈ ds, d < 32) → ds.length = 56 →
      (ds.foldl BitBuffer.push ⟨0, 0, []⟩).bits = 0 ∧
      (ds.foldl BitBuffer.push ⟨0, 0, []⟩).decoded = word 35 (Positional.value 32 ds) := by
    intro ds hds hlength
    obtain ⟨hbits, haccumulator, hsize, hvalue⟩ := holds_empty.foldl hds
    generalize ds.foldl BitBuffer.push ⟨0, 0, []⟩ = b at *
    have hzero : b.bits = 0 := by omega
    have hthirtyfive : b.decoded.length = 35 := by omega
    rw [hzero] at haccumulator hvalue
    have hnumber : wordValue b.decoded = Positional.value 32 ds := by omega
    exact ⟨hzero, by rw [← hnumber, ← hthirtyfive, word_value]⟩
  unfold strKeyBytes
  constructor
  · intro h
    split at h
    · cases h
    rename_i hlength
    obtain ⟨b, hb, h⟩ := Option.bind_eq_some_iff.mp h
    obtain ⟨ds, hds, rfl⟩ := decodeDigits_eq_some.mp hb
    obtain ⟨hlt, hall, -⟩ := base32_digits hds
    rw [byteLength_of_base32 hall, not_not, ← List.length_map base32Value, hds, List.length_map] at hlength
    split at h
    · cases h
    exact ⟨ds, hds, hlength, (Option.some.inj h).symm.trans (hbuffer ds hlt hlength).2⟩
  · rintro ⟨ds, hds, hlength, rfl⟩
    obtain ⟨hlt, hall, -⟩ := base32_digits hds
    obtain ⟨hbits, hdecoded⟩ := hbuffer ds hlt hlength
    have hchars : value.toList.length = 56 := by
      rw [← List.length_map base32Value, hds, List.length_map, hlength]
    rw [if_neg (by rw [byteLength_of_base32 hall]; omega), decodeDigits_eq_some.mpr ⟨ds, hds, rfl⟩,
      Option.bind_some, if_neg (by rw [hbits, hdecoded]; simp), hdecoded]

/-- Digits and bytes of as many bits. -/
theorem pow_places {n m : Nat} (h : 5 * n = 8 * m) : 32 ^ n = 2 ^ (8 * m) := by
  rw [← h, Nat.pow_mul]

/-- **The decoder inverts base32.** -/
theorem strKeyBytes_eq_some {value : String} {bytes : List UInt8} :
    strKeyBytes value = some bytes ↔ bytes.length = 35 ∧ value = base32 bytes := by
  rw [strKeyBytes_eq_some_iff]
  constructor
  · rintro ⟨ds, hds, hlength, rfl⟩
    obtain ⟨hlt, -, hmap⟩ := base32_digits hds
    have hbound : Positional.value 32 ds < 2 ^ (8 * 35) := by
      have hvalue := Positional.value_lt hlt
      rwa [hlength, pow_places (m := 35) rfl] at hvalue
    refine ⟨length_word _ _, ?_⟩
    have hdigits := Positional.digits_value hlt
    rw [hlength] at hdigits
    rw [base32, length_word, value_word hbound, hdigits, hmap, String.ofList_toList]
  · rintro ⟨hlength, rfl⟩
    have hbound : wordValue bytes < 32 ^ 56 := by
      rw [pow_places (m := bytes.length) (by rw [hlength])]
      exact wordValue_lt bytes
    refine ⟨Positional.digits 32 56 (wordValue bytes), ?_, Positional.length_digits _ _ _, ?_⟩
    · rw [base32, hlength, String.toList_ofList, List.map_map]
      refine List.map_congr_left fun d hd => ?_
      exact base32Value_base32Char (Positional.lt_of_mem_digits (by decide) hd)
    · rw [Positional.value_digits (by decide) hbound, ← hlength, word_value]

/-! ### Keys -/

theorem length_keyBytes (version : UInt8) {key : List UInt8} (h : key.length = 32) :
    (keyBytes version key).length = 35 := by
  simp [keyBytes, h]

/-- The two bytes of a checksum, the lower byte first. -/
theorem checksum_bytes {crc : UInt16} {lo hi : UInt8} :
    crc = lo.toUInt16 + (hi.toUInt16 <<< 8) ↔ lo = crc.toUInt8 ∧ hi = (crc >>> 8).toUInt8 := by
  have hlo := lo.toNat_lt
  have hhi := hi.toNat_lt
  have hcrc := crc.toNat_lt
  rw [← UInt16.toNat_inj, ← UInt8.toNat_inj, ← UInt8.toNat_inj]
  simp only [UInt16.toNat_add, UInt16.toNat_shiftLeft, UInt16.toNat_shiftRight, UInt8.toNat_toUInt16,
    UInt16.toNat_toUInt8, Nat.shiftLeft_eq, Nat.shiftRight_eq_div_pow]
  have hbyte : 2 ^ ((8 : UInt16).toNat % 16) = 256 := rfl
  rw [hbyte]
  constructor
  · intro h
    constructor <;> omega
  · intro ⟨h1, h2⟩
    omega

/-- The bytes of a key: its version in front, its checksum behind. -/
theorem keyBytes_iff {d : List UInt8} {version : UInt8} (hd : d.length = 35) :
    d.head? = some version ∧ checksumMatches d = true ↔
      d = keyBytes version ((d.drop 1).take 32) := by
  obtain ⟨first, rest, rfl⟩ := List.exists_cons_of_length_eq_add_one hd
  have hrest : rest.length = 34 := by simpa using hd
  obtain ⟨lo, hi, hlast⟩ : ∃ lo hi, rest.drop 32 = [lo, hi] :=
    List.length_eq_two.mp (by rw [List.length_drop, hrest])
  have hsplit : rest = rest.take 32 ++ [lo, hi] := by
    rw [← hlast, List.take_append_drop]
  have hkey : (rest.take 32).length = 32 := by
    rw [List.length_take, hrest]
    rfl
  generalize rest.take 32 = key at hsplit hkey
  subst hsplit
  have htake : (first :: (key ++ [lo, hi])).take 33 = first :: key := by
    rw [List.take_succ_cons, List.take_left' hkey]
  have hlo : (first :: (key ++ [lo, hi])).getD 33 0 = lo := by simp [hkey]
  have hhi : (first :: (key ++ [lo, hi])).getD 34 0 = hi := by simp [hkey]
  rw [checksumMatches, decide_eq_true_eq, htake, hlo, hhi, checksum_bytes, List.head?_cons,
    Option.some.injEq, List.drop_one, List.tail_cons, List.take_left' hkey, keyBytes]
  constructor
  · rintro ⟨rfl, rfl, rfl⟩
    rfl
  · intro h
    simp only [List.cons_append, List.cons.injEq, List.append_cancel_left_eq] at h
    obtain ⟨rfl, h, h', -⟩ := h
    exact ⟨rfl, h, h'⟩

/-- What a decoder accepts. -/
theorem accepted_iff {value : String} {version : UInt8} {d : List UInt8} :
    strKeyBytes value = some d ∧ d.head? = some version ∧ checksumMatches d = true ↔
      ((d.drop 1).take 32).length = 32 ∧ d = keyBytes version ((d.drop 1).take 32) ∧
        value = keyText version ((d.drop 1).take 32) := by
  constructor
  · intro ⟨hbytes, h⟩
    obtain ⟨hlength, hvalue⟩ := strKeyBytes_eq_some.mp hbytes
    have hd := (keyBytes_iff hlength).mp h
    refine ⟨by rw [List.length_take, List.length_drop, hlength]; rfl, hd, ?_⟩
    rw [keyText, ← hd, hvalue]
  · intro ⟨hkey, hd, hvalue⟩
    have hlength : d.length = 35 := by rw [hd, length_keyBytes _ hkey]
    refine ⟨strKeyBytes_eq_some.mpr ⟨hlength, ?_⟩, (keyBytes_iff hlength).mpr hd⟩
    rw [hvalue, keyText, ← hd]

theorem key_of_keyBytes (version : UInt8) {key : List UInt8} (h : key.length = 32) :
    ((keyBytes version key).drop 1).take 32 = key := by
  rw [keyBytes, List.cons_append, List.drop_one, List.tail_cons, List.take_left' h]

theorem accepted_keyText {value : String} (version : UInt8) {key : List UInt8} (hkey : key.length = 32)
    (hvalue : value = keyText version key) :
    strKeyBytes value = some (keyBytes version key) ∧ (keyBytes version key).head? = some version ∧
      checksumMatches (keyBytes version key) = true := by
  have hback := key_of_keyBytes version hkey
  refine accepted_iff.mpr ⟨?_, ?_, ?_⟩
  · rw [hback, hkey]
  · rw [hback]
  · rw [hback, hvalue]

theorem isStrKey_iff {version : UInt8} {value : String} :
    isStrKey version value = true ↔ ∃ key : List UInt8, key.length = 32 ∧ value = keyText version key := by
  unfold isStrKey
  constructor
  · intro h
    cases hbytes : strKeyBytes value with
    | none =>
        rw [hbytes] at h
        cases h
    | some d =>
        rw [hbytes, Bool.and_eq_true, decide_eq_true_eq] at h
        obtain ⟨hkey, -, hvalue⟩ := accepted_iff.mp ⟨hbytes, h⟩
        exact ⟨_, hkey, hvalue⟩
  · rintro ⟨key, hkey, rfl⟩
    obtain ⟨hbytes, h⟩ := accepted_keyText version hkey rfl
    rw [hbytes, Bool.and_eq_true, decide_eq_true_eq]
    exact h

/-- **The texts that are accepted** are those of the account keys, and the key is returned. -/
theorem decodeStellarAccount_eq_ok {value : String} {key : List UInt8} :
    decodeStellarAccount value = .ok key ↔ key.length = 32 ∧ value = keyText accountVersion key := by
  unfold decodeStellarAccount
  constructor
  · intro h
    cases hbytes : strKeyBytes value with
    | none =>
        rw [hbytes] at h
        cases h
    | some d =>
        rw [hbytes] at h
        obtain ⟨hhead, h⟩ := guard_eq_ok.mp h
        obtain ⟨hchecksum, h⟩ := guard_eq_ok.mp h
        obtain rfl := Except.ok.inj h
        obtain ⟨hkey, -, hvalue⟩ := accepted_iff.mp
          ⟨hbytes, not_not.mp hhead, eq_true_of_ne_false hchecksum⟩
        exact ⟨hkey, hvalue⟩
  · rintro ⟨hkey, rfl⟩
    obtain ⟨hbytes, hhead, hchecksum⟩ := accepted_keyText accountVersion hkey rfl
    rw [hbytes]
    simp only
    rw [if_neg (not_not.mpr hhead), if_neg (by rw [hchecksum]; decide), key_of_keyBytes accountVersion hkey]

end CrownFi.Stellar
