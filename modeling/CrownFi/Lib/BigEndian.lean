import Mathlib.Algebra.Order.Ring.Int
import Mathlib.Data.List.Induction
import Mathlib.Tactic.Common

/-!
# CrownFi.Lib.BigEndian

**Numbers as bytes**, the most significant byte first. A number below `2 ^ (8 * width)` has
one word of `width` bytes, and a word has one value: `value_word` and `word_value`.
-/

namespace Lib

/-- The last `width` bytes of a number. -/
def word (width n : Nat) : List UInt8 :=
  (List.range width).map fun i => UInt8.ofNat (n / 2 ^ (8 * (width - 1 - i)))

def wordValue (bytes : List UInt8) : Nat := bytes.foldl (fun n byte => n * 256 + byte.toNat) 0

@[simp] theorem length_word (width n : Nat) : (word width n).length = width := by
  simp [word]

theorem word_succ (width n : Nat) : word (width + 1) n = word width (n / 256) ++ [UInt8.ofNat n] := by
  unfold word
  rw [List.range_succ, List.map_append]
  congr 1
  · refine List.map_congr_left fun i hi => ?_
    have hi : i < width := List.mem_range.mp hi
    have hexp : 8 * (width + 1 - 1 - i) = 8 + 8 * (width - 1 - i) := by omega
    rw [hexp, Nat.pow_add, ← Nat.div_div_eq_div_mul]
  · simp

theorem wordValue_append (bytes : List UInt8) (byte : UInt8) :
    wordValue (bytes ++ [byte]) = wordValue bytes * 256 + byte.toNat := by
  simp [wordValue]

theorem value_word {width n : Nat} (h : n < 2 ^ (8 * width)) : wordValue (word width n) = n := by
  induction width generalizing n with
  | zero =>
      have : n = 0 := by simpa using h
      rw [this]
      rfl
  | succ width ih =>
      have hdiv : n / 256 < 2 ^ (8 * width) := by
        rw [Nat.div_lt_iff_lt_mul (by decide)]
        calc n < 2 ^ (8 * (width + 1)) := h
          _ = 2 ^ (8 * width) * 256 := by rw [Nat.mul_succ, Nat.pow_add]
      rw [word_succ, wordValue_append, ih hdiv, UInt8.toNat_ofNat']
      omega

theorem word_value (bytes : List UInt8) : word bytes.length (wordValue bytes) = bytes := by
  induction bytes using List.reverseRecOn with
  | nil => rfl
  | append_singleton bytes byte ih =>
      have hbyte : byte.toNat < 256 := byte.toNat_lt
      have hdiv : (wordValue bytes * 256 + byte.toNat) / 256 = wordValue bytes := by omega
      rw [List.length_append, List.length_singleton, word_succ, wordValue_append, hdiv, ih]
      congr 2
      apply UInt8.toNat.inj
      rw [UInt8.toNat_ofNat']
      omega

theorem wordValue_lt (bytes : List UInt8) : wordValue bytes < 2 ^ (8 * bytes.length) := by
  induction bytes using List.reverseRecOn with
  | nil => decide
  | append_singleton bytes byte ih =>
      have hbyte : byte.toNat < 256 := byte.toNat_lt
      have hpow : 2 ^ (8 * (bytes.length + 1)) = 2 ^ (8 * bytes.length) * 256 := by
        rw [Nat.mul_succ, Nat.pow_add]
      rw [wordValue_append, List.length_append, List.length_singleton, hpow]
      omega

/-- Zeros at the end of a number. -/
theorem word_zeros (width n q : Nat) :
    word (width + q) (n * 256 ^ q) = word width n ++ List.replicate q 0 := by
  induction q with
  | zero => simp
  | succ q ih =>
      have hdiv : n * 256 ^ (q + 1) / 256 = n * 256 ^ q := by
        rw [Nat.pow_succ, ← Nat.mul_assoc, Nat.mul_div_cancel _ (by decide)]
      have hlast : UInt8.ofNat (n * 256 ^ (q + 1)) = 0 := by
        apply UInt8.toNat.inj
        rw [UInt8.toNat_ofNat', Nat.pow_succ, ← Nat.mul_assoc]
        exact Nat.mul_mod_left _ _
      rw [← Nat.add_assoc, word_succ, hdiv, hlast, ih, List.append_assoc, ← List.replicate_succ']

theorem word_zero (width : Nat) : word width 0 = List.replicate width 0 := by
  simpa [word] using word_zeros 0 0 width

/-- Zeros in front of a number. -/
theorem zeros_word (width : Nat) {m n : Nat} (h : n < 256 ^ m) :
    word (width + m) n = List.replicate width 0 ++ word m n := by
  induction m generalizing n with
  | zero =>
      obtain rfl : n = 0 := by simpa using h
      rw [Nat.add_zero, word_zero]
      simp [word]
  | succ m ih =>
      have hdiv : n / 256 < 256 ^ m := by
        rw [Nat.div_lt_iff_lt_mul (by decide), ← Nat.pow_succ]
        exact h
      rw [← Nat.add_assoc, word_succ, word_succ, ih hdiv, List.append_assoc]

/-- The bytes of a difference. -/
theorem word_xor (width m n : Nat) :
    word width (m ^^^ n) = List.zipWith (· ^^^ ·) (word width m) (word width n) := by
  unfold word
  rw [List.zipWith_map, List.zipWith_self]
  refine List.map_congr_left fun i _ => ?_
  apply UInt8.toNat.inj
  rw [UInt8.toNat_xor, UInt8.toNat_ofNat', UInt8.toNat_ofNat', UInt8.toNat_ofNat', Nat.xor_div_two_pow,
    Nat.xor_mod_two_pow]

end Lib
