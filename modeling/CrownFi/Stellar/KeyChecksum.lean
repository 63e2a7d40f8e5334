import CrownFi.Lib.Crc
import CrownFi.Stellar.KeyText
import Mathlib.Data.Nat.Bitwise

/-!
# CrownFi.Stellar.KeyChecksum

**One wrong character is found.** The checksum is linear, so two accepted texts differ by a
number whose own residue vanishes. Where they differ in one character, this number has at most
five bits in a row. Such a burst lies in the checked bytes, where the register keeps it, in the
checksum, or across the two.
-/

namespace CrownFi.Stellar

open Lib CrownFi.Api

/-! ### The checksum as a shift register -/

/-- A byte in the upper half of the register. -/
def chunk (byte : UInt8) : BitVec 16 := (byte.toUInt16 <<< 8).toBitVec

theorem top_bit (crc : UInt16) : crc &&& 0x8000 ≠ 0 ↔ crc.toBitVec.msb = true := by
  have hand : (crc &&& 0x8000).toNat = (crc.toNat.testBit 15).toNat * 2 ^ 15 := by
    rw [UInt16.toNat_and, ← Nat.and_two_pow]
    rfl
  rw [BitVec.msb_eq_getLsbD_last, BitVec.getLsbD, ← UInt16.toNat_inj.ne, hand]
  change _ ↔ crc.toNat.testBit 15 = true
  cases crc.toNat.testBit 15 <;> decide

theorem crc16Bit_toBitVec (crc : UInt16) : (crc16Bit crc).toBitVec = Crc.shift 0x1021#16 crc.toBitVec := by
  unfold crc16Bit Crc.shift
  by_cases h : crc &&& 0x8000 ≠ 0
  · rw [if_pos h, if_pos ((top_bit crc).mp h)]
    rfl
  · rw [if_neg h, if_neg fun hmsb => h ((top_bit crc).mpr hmsb)]
    rfl

theorem iterate_crc16Bit_toBitVec (n : Nat) (crc : UInt16) :
    (Nat.iterate crc16Bit n crc).toBitVec = (Crc.shift 0x1021#16)^[n] crc.toBitVec := by
  induction n generalizing crc with
  | zero => rfl
  | succ n ih => rw [Function.iterate_succ_apply, Function.iterate_succ_apply, ih, crc16Bit_toBitVec]

theorem crc16_toBitVec (bytes : List UInt8) :
    (crc16 bytes).toBitVec = Crc.run 0x1021#16 8 0#16 (bytes.map chunk) := by
  have hfrom : ∀ crc : UInt16, (bytes.foldl crc16Byte crc).toBitVec =
      Crc.run 0x1021#16 8 crc.toBitVec (bytes.map chunk) := by
    induction bytes with
    | nil => exact fun _ => rfl
    | cons byte bytes ih =>
        intro crc
        have hbyte : (crc16Byte crc byte).toBitVec = Crc.read 0x1021#16 8 crc.toBitVec (chunk byte) :=
          iterate_crc16Bit_toBitVec 8 _
        rw [List.foldl_cons, ih, hbyte]
        rfl
  exact hfrom 0

theorem chunk_xor (a b : UInt8) : chunk (a ^^^ b) = chunk a ^^^ chunk b := by
  unfold chunk
  rw [UInt8.toUInt16_xor, UInt16.shiftLeft_xor, UInt16.toBitVec_xor]

theorem crc16_xor {as bs : List UInt8} (h : as.length = bs.length) :
    crc16 (List.zipWith (· ^^^ ·) as bs) = crc16 as ^^^ crc16 bs := by
  rw [← UInt16.toBitVec_inj, UInt16.toBitVec_xor, crc16_toBitVec, crc16_toBitVec, crc16_toBitVec,
    ← Crc.run_xor _ _ (by rw [List.length_map, List.length_map, h]), BitVec.xor_self]
  congr 1
  rw [List.map_zipWith, List.zipWith_map]
  congr 1
  funext a b
  exact chunk_xor a b

theorem crc16_zeros_append (n : Nat) (bytes : List UInt8) :
    crc16 (List.replicate n 0 ++ bytes) = crc16 bytes := by
  rw [← UInt16.toBitVec_inj, crc16_toBitVec, crc16_toBitVec, List.map_append, List.map_replicate]
  exact Crc.run_zeros_append n _

theorem crc16_append_zeros {n : Nat} {bytes : List UInt8} (h : crc16 (bytes ++ List.replicate n 0) = 0) :
    crc16 bytes = 0 := by
  rw [← UInt16.toBitVec_inj, crc16_toBitVec, List.map_append, List.map_replicate, Crc.run,
    List.foldl_append] at h
  rw [← UInt16.toBitVec_inj, crc16_toBitVec]
  exact Crc.run_zeros (n := 8) (by decide) (by decide) h

/-! ### The residue of a number -/

/-- The checksum that the last two bytes of a number say, the lower byte first. -/
def said (n : Nat) : UInt16 := (UInt8.ofNat (n / 256)).toUInt16 + ((UInt8.ofNat n).toUInt16 <<< 8)

/-- How far the checksum of a key of 35 bytes is off. -/
def residue (n : Nat) : UInt16 := crc16 (word 33 (n / 2 ^ 16)) ^^^ said n

theorem checksumMatches_word (n : Nat) : checksumMatches (word 35 n) = true ↔ residue n = 0 := by
  have hword : word 35 n = word 33 (n / 2 ^ 16) ++ [UInt8.ofNat (n / 256), UInt8.ofNat n] := by
    rw [word_succ, word_succ, Nat.div_div_eq_div_mul, List.append_assoc]
    rfl
  have hlength : (word 33 (n / 2 ^ 16)).length = 33 := length_word _ _
  have hlo : (word 33 (n / 2 ^ 16) ++ [UInt8.ofNat (n / 256), UInt8.ofNat n]).getD 33 0 =
      UInt8.ofNat (n / 256) := by
    simp [List.getD_eq_getElem?_getD]
  have hhi : (word 33 (n / 2 ^ 16) ++ [UInt8.ofNat (n / 256), UInt8.ofNat n]).getD 34 0 = UInt8.ofNat n := by
    simp [List.getD_eq_getElem?_getD]
  rw [checksumMatches, decide_eq_true_eq, hword, List.take_left' hlength, hlo, hhi, residue,
    UInt16.xor_eq_zero_iff]
  rfl

/-- Two bytes side by side. -/
theorem add_eq_xor (lo hi : UInt8) :
    lo.toUInt16 + (hi.toUInt16 <<< 8) = lo.toUInt16 ^^^ (hi.toUInt16 <<< 8) := by
  have hlo := lo.toNat_lt
  have hhi := hi.toNat_lt
  have hbyte : 2 ^ ((8 : UInt16).toNat % 16) = 2 ^ 8 := rfl
  have hshift : hi.toNat * 2 ^ 8 % 2 ^ 16 = hi.toNat * 2 ^ 8 := Nat.mod_eq_of_lt (by omega)
  have hsum : (lo.toNat + hi.toNat * 2 ^ 8) % 2 ^ 16 = lo.toNat + hi.toNat * 2 ^ 8 :=
    Nat.mod_eq_of_lt (by omega)
  rw [← UInt16.toNat_inj]
  simp only [UInt16.toNat_add, UInt16.toNat_xor, UInt16.toNat_shiftLeft, UInt8.toNat_toUInt16,
    Nat.shiftLeft_eq]
  rw [hbyte, hshift, hsum, Nat.xor_comm, Positional.xor_of_disjoint hlo, Nat.add_comm]

theorem said_xor (m n : Nat) : said (m ^^^ n) = said m ^^^ said n := by
  have hlow : UInt8.ofNat (m ^^^ n) = UInt8.ofNat m ^^^ UInt8.ofNat n := by
    apply UInt8.toNat.inj
    rw [UInt8.toNat_xor, UInt8.toNat_ofNat', UInt8.toNat_ofNat', UInt8.toNat_ofNat', Nat.xor_mod_two_pow]
  have hhigh : UInt8.ofNat ((m ^^^ n) / 256) = UInt8.ofNat (m / 256) ^^^ UInt8.ofNat (n / 256) := by
    apply UInt8.toNat.inj
    rw [UInt8.toNat_xor, UInt8.toNat_ofNat', UInt8.toNat_ofNat', UInt8.toNat_ofNat',
      show 256 = 2 ^ 8 from rfl, Nat.xor_div_two_pow, Nat.xor_mod_two_pow]
  simp only [said, add_eq_xor]
  rw [hlow, hhigh, UInt8.toUInt16_xor, UInt8.toUInt16_xor, UInt16.shiftLeft_xor]
  ac_rfl

/-- **The residue is linear.** -/
theorem residue_xor (m n : Nat) : residue (m ^^^ n) = residue m ^^^ residue n := by
  rw [residue, said_xor, Nat.xor_div_two_pow, word_xor, crc16_xor (by rw [length_word, length_word]),
    residue, residue]
  ac_rfl

/-! ### A burst of five bits -/

/-- A burst in front of the checksum: the register keeps it to the end. -/
theorem crc16_burst {x s : Nat} (hx : 0 < x ∧ x < 32) (hs : s < 260) :
    crc16 (word 33 (x * 2 ^ s)) ≠ 0 := by
  have hall : ∀ x : Fin 32, ∀ r : Fin 8, 0 < x.val → crc16 (word 2 (x.val * 2 ^ r.val)) ≠ 0 := by
    decide +kernel
  intro hzero
  have hpow : x * 2 ^ s = x * 2 ^ (s % 8) * 256 ^ (s / 8) := by
    rw [Nat.mul_assoc, show 256 = 2 ^ 8 from rfl, ← Nat.pow_mul, ← Nat.pow_add, Nat.mod_add_div]
  have hsmall : x * 2 ^ (s % 8) < 256 ^ 2 := calc
    x * 2 ^ (s % 8) < 32 * 2 ^ (s % 8) := Nat.mul_lt_mul_of_pos_right hx.2 (Nat.two_pow_pos _)
    _ ≤ 32 * 2 ^ 7 := Nat.mul_le_mul_left _ (Nat.pow_le_pow_right (by decide) (by omega))
    _ < 256 ^ 2 := by decide
  have hfits : x * 2 ^ s < 256 ^ 33 := calc
    x * 2 ^ s < 2 ^ 5 * 2 ^ s := Nat.mul_lt_mul_of_pos_right hx.2 (Nat.two_pow_pos s)
    _ = 2 ^ (5 + s) := (Nat.pow_add 2 5 s).symm
    _ ≤ 2 ^ (8 * 33) := Nat.pow_le_pow_right (by decide) (by omega)
    _ = 256 ^ 33 := Nat.pow_mul 2 8 33
  -- one zero in front makes room for the two bytes that the burst may touch
  have hwide : word 34 (x * 2 ^ s) =
      List.replicate (32 - s / 8) 0 ++ (word 2 (x * 2 ^ (s % 8)) ++ List.replicate (s / 8) 0) := by
    have hwidth : 34 = 32 - s / 8 + 2 + s / 8 := by omega
    rw [hpow]
    conv => lhs; rw [hwidth]
    rw [word_zeros, zeros_word _ hsmall, List.append_assoc]
  have hfront : word 34 (x * 2 ^ s) = List.replicate 1 0 ++ word 33 (x * 2 ^ s) := zeros_word 1 hfits
  have hcrc : crc16 (word 34 (x * 2 ^ s)) = 0 := by
    rw [hfront, crc16_zeros_append, hzero]
  rw [hwide, crc16_zeros_append] at hcrc
  exact hall ⟨x, hx.2⟩ ⟨s % 8, Nat.mod_lt _ (by decide)⟩ hx.1 (crc16_append_zeros hcrc)

/-- A burst in the checksum, or across its border. -/
theorem residue_low {x k : Nat} (hx : 0 < x ∧ x < 32) (hk : k < 4) : residue (x * 2 ^ (5 * k)) ≠ 0 := by
  have hall : ∀ x : Fin 32, ∀ k : Fin 4, 0 < x.val →
      crc16 (word 1 (x.val * 2 ^ (5 * k.val) / 2 ^ 16)) ^^^ said (x.val * 2 ^ (5 * k.val)) ≠ 0 := by
    decide +kernel
  have hbyte : x * 2 ^ (5 * k) / 2 ^ 16 < 256 ^ 1 := by
    rw [Nat.div_lt_iff_lt_mul (by decide)]
    calc x * 2 ^ (5 * k) < 32 * 2 ^ (5 * k) := Nat.mul_lt_mul_of_pos_right hx.2 (Nat.two_pow_pos _)
      _ ≤ 32 * 2 ^ 15 := Nat.mul_le_mul_left _ (Nat.pow_le_pow_right (by decide) (by omega))
      _ < 256 ^ 1 * 2 ^ 16 := by decide
  rw [residue, zeros_word 32 hbyte, crc16_zeros_append]
  exact hall ⟨x, hx.2⟩ ⟨k, hk⟩ hx.1

/-- **A burst is seen.** -/
theorem residue_burst {x k : Nat} (hx : 0 < x ∧ x < 32) (hk : k < 56) : residue (x * 2 ^ (5 * k)) ≠ 0 := by
  by_cases hlow : k < 4
  · exact residue_low hx hlow
  have hsplit : x * 2 ^ (5 * k) = x * 2 ^ (5 * k - 16) * 2 ^ 16 := by
    rw [Nat.mul_assoc, ← Nat.pow_add, Nat.sub_add_cancel (by omega)]
  have hbody : x * 2 ^ (5 * k) / 2 ^ 16 = x * 2 ^ (5 * k - 16) := by
    rw [hsplit, Nat.mul_div_cancel _ (Nat.two_pow_pos 16)]
  have hsaid : said (x * 2 ^ (5 * k)) = 0 := by
    have hmod : ∀ n, said (n * 2 ^ 16) = 0 := by
      intro n
      have hlow : UInt8.ofNat (n * 2 ^ 16) = 0 := by
        apply UInt8.toNat.inj
        rw [UInt8.toNat_ofNat']
        show n * 65536 % 256 = 0
        omega
      have hhigh : UInt8.ofNat (n * 2 ^ 16 / 256) = 0 := by
        apply UInt8.toNat.inj
        rw [UInt8.toNat_ofNat']
        show n * 65536 / 256 % 256 = 0
        omega
      rw [said, hlow, hhigh]
      rfl
    rw [hsplit, hmod]
  rw [residue, hbody, hsaid, UInt16.xor_zero]
  exact crc16_burst hx (by omega)

/-! ### One wrong character -/

theorem residue_of_accepted {value : String} {ds : List Nat} {d : List UInt8} {version : UInt8}
    (hds : value.toList.map base32Value = ds.map some)
    (h : strKeyBytes value = some d ∧ d.head? = some version ∧ checksumMatches d = true) :
    ds.length = 56 ∧ residue (Positional.value 32 ds) = 0 := by
  obtain ⟨hbytes, -, hchecksum⟩ := h
  obtain ⟨ds', hds', hlength, rfl⟩ := strKeyBytes_eq_some_iff.mp hbytes
  obtain rfl : ds' = ds := List.map_injective_iff.mpr (Option.some_injective _) (hds'.symm.trans hds)
  exact ⟨hlength, (checksumMatches_word _).mp hchecksum⟩

/-- **Accepted texts differ in more than one character.** -/
theorem eq_of_accepted_set {value : String} {version version' : UInt8} {d d' : List UInt8} {i : Nat}
    {c : Char} (hi : i < 56)
    (h : strKeyBytes value = some d ∧ d.head? = some version ∧ checksumMatches d = true)
    (h' : strKeyBytes (String.ofList (value.toList.set i c)) = some d' ∧ d'.head? = some version' ∧
      checksumMatches d' = true) :
    value.toList[i]? = some c := by
  obtain ⟨ds, hds, -⟩ := strKeyBytes_eq_some_iff.mp h.1
  obtain ⟨ds', hds', -⟩ := strKeyBytes_eq_some_iff.mp h'.1
  obtain ⟨hlength, hresidue⟩ := residue_of_accepted hds h
  obtain ⟨-, hresidue'⟩ := residue_of_accepted hds' h'
  obtain ⟨hlt, -, hmap⟩ := base32_digits hds
  -- the new digit
  rw [String.toList_ofList, List.map_set, hds] at hds'
  obtain ⟨b, hb⟩ : ∃ b, base32Value c = some b := by
    have hmem : base32Value c ∈ (ds.map some).set i (base32Value c) :=
      List.mem_set (by rw [List.length_map, hlength]; exact hi) _
    rw [hds'] at hmem
    obtain ⟨b, -, hb⟩ := List.mem_map.mp hmem
    exact ⟨b, hb.symm⟩
  obtain ⟨hblt, rfl⟩ := base32Value_eq_some hb
  rw [hb, ← List.map_set] at hds'
  obtain rfl : ds.set i b = ds' := List.map_injective_iff.mpr (Option.some_injective _) hds'
  -- the difference of the two numbers
  have hget : i < ds.length := by omega
  have hsplit : ds = ds.take i ++ ds[i] :: ds.drop (i + 1) := by
    rw [List.getElem_cons_drop, List.take_append_drop]
  have hset : ds.set i b = ds.take i ++ b :: ds.drop (i + 1) := List.set_eq_take_append_cons_drop.trans (if_pos hget)
  have hbelow : ∀ e ∈ ds.drop (i + 1), e < 2 ^ 5 := fun e he => hlt e (List.mem_of_mem_drop he)
  have ha : ds[i] < 2 ^ 5 := hlt _ (List.getElem_mem hget)
  have hdifference := Positional.value_xor_value (ds.take i) ha hblt hbelow
  rw [← hsplit, ← hset, List.length_drop] at hdifference
  have hvanishes : residue ((ds[i] ^^^ b) * 2 ^ (5 * (ds.length - (i + 1)))) = 0 := by
    rw [← hdifference, residue_xor]
    show residue (Positional.value 32 ds) ^^^ residue (Positional.value 32 (ds.set i b)) = 0
    rw [hresidue, hresidue', UInt16.xor_self]
  have hsame : ds[i] ^^^ b = 0 := by
    by_contra hne
    exact residue_burst ⟨Nat.pos_of_ne_zero hne, Nat.xor_lt_two_pow ha hblt⟩ (by omega) hvanishes
  rw [Nat.xor_eq_zero_iff] at hsame
  rw [← hmap, List.getElem?_map, List.getElem?_eq_getElem hget, hsame]
  rfl

end CrownFi.Stellar
