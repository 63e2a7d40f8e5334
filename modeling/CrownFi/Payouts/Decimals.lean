import CrownFi.Commerce.Amounts
import CrownFi.Payouts.Handlers
import Mathlib.Data.List.TakeWhile
import Mathlib.Tactic.FieldSimp
import Mathlib.Tactic.Ring

/-!
# CrownFi.Payouts.Decimals

**Amounts are read exactly.** The reconciliation and the payouts each parse decimal texts into
units of the smallest denomination, with a function of their own. What such a text denotes is a
rational number; what the parser returns is that number times a power of ten. The parser pads
the digits behind the point to the scale, so it multiplies and adds in `i64`: every operation is
checked, and the last one overflows whenever an earlier one does.
-/

namespace CrownFi.Payouts

open Lib CrownFi.Api CrownFi.Commerce
open CrownFi.Commerce.Reconciliation (digitsValue parseI64)

/-! ### What a decimal text denotes -/

/-- A decimal text, the number of its digits behind the point, and the number it denotes. -/
inductive Denotes : String → Nat → ℚ → Prop
  | whole {digits : List Char} (h : Digits digits) :
      Denotes (String.ofList digits) 0 (digitsValue digits)
  | point {digits fraction : List Char} (h : Digits digits) (hfraction : fraction.all isDigit = true) :
      Denotes (String.ofList (digits ++ '.' :: fraction)) fraction.length
        (digitsValue digits + digitsValue fraction / 10 ^ fraction.length)

/-! ### Digits -/

theorem digitsValue_replicate_zero (n : Nat) : digitsValue (List.replicate n '0') = 0 := by
  rw [digitsValue_eq, Nat.ofDigitChars_replicate_zero, Nat.mul_zero]

/-- Digits padded with zeros behind them. -/
theorem digitsValue_padded (cs : List Char) (n : Nat) :
    digitsValue (cs ++ List.replicate n '0') = digitsValue cs * 10 ^ n := by
  rw [digitsValue_append, digitsValue_replicate_zero, List.length_replicate, Nat.add_zero]

/-! ### The parts of a text -/

/-- A text without a point, or with what stands before and behind its first point. -/
theorem parts (cs : List Char) :
    cs.takeWhile (· ≠ '.') = cs ∨
      cs = cs.takeWhile (· ≠ '.') ++ '.' :: (cs.drop (cs.takeWhile (· ≠ '.')).length).drop 1 := by
  induction cs with
  | nil => exact .inl rfl
  | cons c cs ih =>
      by_cases hc : c = '.'
      · subst hc
        exact .inr (by simp)
      · simp only [List.takeWhile_cons, ne_eq, hc, not_false_eq_true, decide_true, if_true,
          List.length_cons, List.drop_succ_cons, List.cons_append, List.cons.injEq, true_and]
        exact ih

/-! ### The checked operations -/

/-- Whole units times the factor and the padded digits: of the checked operations, the last one
fails whenever one does. -/
theorem checked_sum {whole factor fraction : Int} (hwhole : 0 ≤ whole) (hfactor : 1 ≤ factor)
    (hfraction : 0 ≤ fraction) :
    ((checkedI64 whole).bind fun whole => (checkedI64 (whole * factor)).bind fun whole =>
      checkedI64 (whole + fraction)) = checkedI64 (whole * factor + fraction) := by
  have hproduct : whole ≤ whole * factor := le_mul_of_one_le_right hwhole hfactor
  by_cases hsum : whole * factor + fraction < 2 ^ 63
  · rw [checkedI64_of hwhole (by omega), Option.bind_some, checkedI64_of (by omega) (by omega),
      Option.bind_some]
  · have hnone : checkedI64 (whole * factor + fraction) = none := if_neg fun h => hsum h.2
    rw [hnone, Option.bind_eq_none_iff]
    intro w hw
    rw [checkedI64_eq_some hw, Option.bind_eq_none_iff]
    intro product hproduct
    rw [checkedI64_eq_some hproduct, hnone]

/-- The digits behind the point, padded to the scale, as the rest of the parser reads them. -/
theorem read_padded {fraction : List Char} (hfraction : fraction.all isDigit = true) (scale : Nat)
    (hscale : scale ≤ 7) (hlength : fraction.length ≤ scale) (rest : Int → Option Int) :
    (if (fraction ++ List.replicate (scale - fraction.length) '0').isEmpty then some 0 >>= rest
      else parseI64 (fraction ++ List.replicate (scale - fraction.length) '0') >>= rest) =
      rest (digitsValue fraction * 10 ^ (scale - fraction.length)) := by
  have hvalue := digitsValue_padded fraction (scale - fraction.length)
  generalize hpadded : fraction ++ List.replicate (scale - fraction.length) '0' = padded at hvalue ⊢
  have hlength' : padded.length = scale := by
    rw [← hpadded, List.length_append, List.length_replicate]
    omega
  have hdigits : padded.all isDigit = true := by
    rw [← hpadded, List.all_append, hfraction, Bool.true_and, List.all_replicate]
    split <;> rfl
  have hsmall : digitsValue padded < 10 ^ 7 := calc
    digitsValue padded < 10 ^ padded.length := digitsValue_lt hdigits
    _ ≤ 10 ^ 7 := Nat.pow_le_pow_right (by decide) (by omega)
  have hcast : (digitsValue fraction * 10 ^ (scale - fraction.length) : Int) = digitsValue padded := by
    rw [hvalue]
    push_cast
    rfl
  rw [hcast, parseI64]
  cases padded with
  | nil => rfl
  | cons c cs =>
      rw [if_neg (by simp), if_neg (by simp), checkedI64_of (by omega) (by omega)]
      rfl

/-! ### The parser -/

/-- What the parser returns for digits and what stands behind them. -/
theorem decimalMinor_parts {value : String} (whole fraction : List Char) {scale : Int}
    (htake : value.toList.takeWhile (· ≠ '.') = whole)
    (hdrop : (value.toList.drop whole.length).drop 1 = fraction) (hwhole : Digits whole)
    (hfraction : fraction.all isDigit = true) (hscale : 0 ≤ scale ∧ scale ≤ 7)
    (hlength : fraction.length ≤ scale) :
    decimalMinor value scale = checkedI64 (digitsValue whole * 10 ^ scale.toNat +
      digitsValue fraction * 10 ^ (scale.toNat - fraction.length)) := by
  have hsign : ∀ d, isDigit d = false → value.toList.head? ≠ some d := by
    intro d hd
    rw [← List.takeWhile_append_dropWhile (p := (· ≠ '.')) (l := value.toList), htake]
    exact hwhole.head?_ne _ hd
  have hpoint : fraction.contains '.' = false := by
    rw [List.contains_eq_mem, decide_eq_false_iff_not]
    intro hmem
    exact absurd (List.all_eq_true.mp hfraction _ hmem) (by decide)
  have hfactor : (10 ^ scale.toNat : Int) ≤ 10 ^ 7 := pow_le_pow_right₀ (by decide) (by omega)
  have hone : (1 : Int) ≤ 10 ^ scale.toNat := one_le_pow₀ (by decide)
  unfold decimalMinor
  simp only [htake, hdrop]
  rw [if_neg (by simp [hscale, hsign '-' (by decide), hsign '+' (by decide)]),
    if_neg (by simp only [hpoint, List.isEmpty_eq_false_iff.mpr hwhole.nonempty, hwhole.digits,
      hfraction]; simp [hlength])]
  have hread := read_padded hfraction scale.toNat (by omega) (by omega)
  simp only [hread]
  rw [parseI64, if_neg hwhole.nonempty]
  rw [Option.bind_eq_bind, checkedI64_of (by omega) (by omega), Option.bind_some]
  exact checked_sum (by omega) hone (by positivity)

/-- What the parser has checked before it computes. -/
theorem checked_of_decimalMinor {value : String} {scale m : Int} (h : decimalMinor value scale = some m) :
    (0 ≤ scale ∧ scale ≤ 7) ∧ Digits (value.toList.takeWhile (· ≠ '.')) ∧
      ((value.toList.drop (value.toList.takeWhile (· ≠ '.')).length).drop 1).all isDigit = true ∧
      (((value.toList.drop (value.toList.takeWhile (· ≠ '.')).length).drop 1).length : Int) ≤ scale := by
  unfold decimalMinor at h
  simp only at h
  split at h
  · cases h
  rename_i hform
  split at h
  · cases h
  rename_i hparts
  simp only [Bool.or_eq_true, Bool.not_eq_true', decide_eq_true_eq, not_or, Bool.not_eq_true,
    Bool.not_eq_false, List.isEmpty_eq_false_iff, Int.not_lt] at hparts
  obtain ⟨⟨⟨⟨-, hnonempty⟩, hwhole⟩, hfraction⟩, hlength⟩ := hparts
  exact ⟨not_not.mp (not_or.mp hform).1, ⟨hnonempty, hwhole⟩, hfraction, hlength⟩

/-- The product of what a text denotes and a power of ten with at least its digits. -/
theorem product_eq {scale : Nat} (whole fraction : List Char) (hlength : fraction.length ≤ scale) :
    ((digitsValue whole : ℚ) + digitsValue fraction / 10 ^ fraction.length) * 10 ^ scale =
      ((digitsValue whole * 10 ^ scale + digitsValue fraction * 10 ^ (scale - fraction.length) : Int) : ℚ) := by
  obtain ⟨n, rfl⟩ := Nat.exists_eq_add_of_le hlength
  rw [Nat.add_sub_cancel_left, pow_add]
  push_cast
  field_simp
  ring

/-- What is returned for a text is what it denotes, in units of the scale. -/
theorem decimalMinor_denotes {value : String} {scale m : Int} {places : Nat} {q : ℚ}
    (h : Denotes value places q) (hscale : 0 ≤ scale ∧ scale ≤ 7) (hplaces : (places : Int) ≤ scale) :
    decimalMinor value scale = some m ↔
      q * 10 ^ scale.toNat ≤ 2 ^ 63 - 1 ∧ (m : ℚ) = q * 10 ^ scale.toNat := by
  have hread : ∃ n : Int, 0 ≤ n ∧ decimalMinor value scale = checkedI64 n ∧ q * 10 ^ scale.toNat = n := by
    cases h with
    | @whole digits h =>
        have hall : ∀ c ∈ digits, decide (c ≠ '.') = true := fun c hc =>
          decide_eq_true (h.ne_of_mem hc (by decide))
        have htake : digits.takeWhile (· ≠ '.') = digits := List.takeWhile_eq_self_iff.mpr hall
        refine ⟨_, ?_, decimalMinor_parts digits [] ?_ ?_ h rfl hscale hplaces, ?_⟩
        · positivity
        · rw [String.toList_ofList, htake]
        · rw [String.toList_ofList, List.drop_length]
          rfl
        · rw [← product_eq _ _ (Nat.zero_le _)]
          simp [digitsValue]
    | @point digits fraction h hfraction =>
        refine ⟨_, ?_, decimalMinor_parts digits fraction ?_ ?_ h hfraction
          hscale hplaces, ?_⟩
        · positivity
        · rw [String.toList_ofList, h.takeWhile]
        · rw [String.toList_ofList, List.drop_left]
          rfl
        · exact product_eq _ _ (by omega)
  obtain ⟨n, hnonneg, hreads, hvalue⟩ := hread
  rw [hreads, hvalue]
  by_cases hn : n < 2 ^ 63
  · have hbound : (n : ℚ) ≤ 2 ^ 63 - 1 := by
      exact_mod_cast Int.le_sub_one_of_lt hn
    rw [checkedI64_of hnonneg hn, Option.some.injEq]
    exact ⟨fun heq => ⟨hbound, by rw [heq]⟩, fun hm => (by exact_mod_cast hm.2.symm)⟩
  · have hnone : checkedI64 n = none := if_neg fun h => hn h.2
    rw [hnone]
    refine iff_of_false (Option.some_ne_none m).symm fun hm => hn ?_
    have hbound : n ≤ 2 ^ 63 - 1 := by exact_mod_cast hm.1
    omega

/-- **Amounts are read exactly**, and the two parsers agree. -/
theorem decimalMinor_iff (value : String) (scale m : Int) :
    (decimalMinor value scale = some m ↔ (0 ≤ scale ∧ scale ≤ 7) ∧
      ∃ places q, Denotes value places q ∧ (places : Int) ≤ scale ∧
        q * 10 ^ scale.toNat ≤ 2 ^ 63 - 1 ∧ (m : ℚ) = q * 10 ^ scale.toNat) ∧
      Commerce.Reconciliation.decimalMinor value scale = decimalMinor value scale := by
  refine ⟨⟨fun h => ?_, fun h => ?_⟩, rfl⟩
  · obtain ⟨hscale, hwhole, hfraction, hlength⟩ := checked_of_decimalMinor h
    obtain ⟨places, q, hdenotes, hplaces⟩ : ∃ places q, Denotes value places q ∧ (places : Int) ≤ scale := by
      rcases parts value.toList with htake | hpoint
      · have hdenotes := Denotes.whole (htake ▸ hwhole)
        rw [String.ofList_toList] at hdenotes
        exact ⟨_, _, hdenotes, hscale.1⟩
      · have hdenotes := Denotes.point hwhole hfraction
        rw [← hpoint, String.ofList_toList] at hdenotes
        exact ⟨_, _, hdenotes, hlength⟩
    exact ⟨hscale, places, q, hdenotes, hplaces, (decimalMinor_denotes hdenotes hscale hplaces).mp h⟩
  · obtain ⟨hscale, places, q, hdenotes, hplaces, hvalue⟩ := h
    exact (decimalMinor_denotes hdenotes hscale hplaces).mpr hvalue

example : decimalMinor "922337203685.4775807" 7 = some (2 ^ 63 - 1) ∧
    decimalMinor "922337203685.4775808" 7 = none ∧ decimalMinor "12." 0 = some 12 := by
  decide +kernel

end CrownFi.Payouts
