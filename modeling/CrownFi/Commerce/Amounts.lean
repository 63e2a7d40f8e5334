import CrownFi.Commerce.Envelopes
import Mathlib.Tactic.Ring

/-!
# CrownFi.Commerce.Amounts

**Amounts on the ledger.** The ledger counts every asset in units of a ten-millionth and
reports a payment with seven digits behind the point. An intent's amount is counted in
units of its asset's own scale, is put into the payment as it is, and is read back from the
report by its scale. So the two agree exactly when the scale is seven.
-/

namespace CrownFi.Commerce

open Lib CrownFi.Api CrownFi.Stellar Reconciliation

/-! ### Decimal texts -/

theorem isDigit_eq (c : Char) : isDigit c = c.isDigit := by
  simp only [isDigit, Char.isDigit, Char.le_def, UInt32.le_iff_toNat_le, ge_iff_le]

theorem digitsValue_eq (cs : List Char) : digitsValue cs = Nat.ofDigitChars 10 cs 0 := by
  simp only [digitsValue, Nat.ofDigitChars, Nat.mul_comm]
  rfl

/-- A nonempty text of digits. -/
structure Digits (cs : List Char) : Prop where
  nonempty : cs ≠ []
  digits : cs.all isDigit = true

namespace Digits

theorem toDigits (n : Nat) : Digits (Nat.toDigits 10 n) where
  nonempty := Nat.toDigits_ne_nil
  digits := by
    rw [List.all_eq_true]
    intro c hc
    rw [isDigit_eq]
    exact Nat.isDigit_of_mem_toDigits (by decide) (by decide) hc

theorem padded {cs : List Char} (h : Digits cs) (n : Nat) : Digits (List.replicate n '0' ++ cs) where
  nonempty hnil := h.nonempty (List.append_eq_nil_iff.mp hnil).2
  digits := by
    rw [List.all_append, h.digits, Bool.and_true, List.all_replicate]
    cases n <;> rfl

theorem mem {cs : List Char} (h : Digits cs) {c : Char} (hc : c ∈ cs) : isDigit c = true :=
  List.all_eq_true.mp h.digits c hc

/-- No sign and no point is among digits. -/
theorem ne_of_mem {cs : List Char} (h : Digits cs) {c d : Char} (hc : c ∈ cs) (hd : isDigit d = false) :
    c ≠ d := by
  intro heq
  rw [← heq, h.mem hc] at hd
  cases hd

theorem head?_ne {cs : List Char} (h : Digits cs) (rest : List Char) {d : Char} (hd : isDigit d = false) :
    (cs ++ rest).head? ≠ some d := by
  cases cs with
  | nil => exact absurd rfl h.nonempty
  | cons c cs =>
      intro heq
      exact h.ne_of_mem List.mem_cons_self hd (Option.some.inj heq)

theorem takeWhile {cs : List Char} (h : Digits cs) (rest : List Char) :
    (cs ++ '.' :: rest).takeWhile (· ≠ '.') = cs := by
  rw [List.takeWhile_append_of_pos fun c hc => decide_eq_true (h.ne_of_mem hc (by decide))]
  simp

theorem point_not_mem {cs : List Char} (h : Digits cs) : '.' ∉ cs :=
  fun hc => h.ne_of_mem hc (by decide) rfl

end Digits

theorem digitsValue_append (cs ds : List Char) :
    digitsValue (cs ++ ds) = digitsValue cs * 10 ^ ds.length + digitsValue ds := by
  induction ds using List.reverseRecOn with
  | nil => simp [digitsValue]
  | append_singleton ds d ih =>
      have hlast : ∀ es : List Char, digitsValue (es ++ [d]) = digitsValue es * 10 + (d.toNat - 48) := by
        intro es
        simp [digitsValue]
      rw [← List.append_assoc, hlast, hlast, ih, List.length_append, List.length_singleton, Nat.pow_succ]
      ring

theorem digitsValue_lt {cs : List Char} (h : cs.all isDigit = true) : digitsValue cs < 10 ^ cs.length := by
  induction cs using List.reverseRecOn with
  | nil => decide
  | append_singleton cs c ih =>
      rw [List.all_append, Bool.and_eq_true] at h
      have hc : c.toNat - 48 < 10 := by
        have hdigit : isDigit c = true := by simpa using h.2
        simp only [isDigit, Bool.and_eq_true, decide_eq_true_eq, Char.le_def, UInt32.le_iff_toNat_le] at hdigit
        have hnine : c.toNat ≤ 57 := hdigit.2
        omega
      have hcs := ih h.1
      rw [digitsValue_append, List.length_append, List.length_singleton, Nat.pow_succ]
      have hlast : digitsValue [c] = c.toNat - 48 := by simp [digitsValue]
      rw [hlast]
      omega

/-- More digits behind the point than the scale has are not read. -/
theorem decimalMinor_of_long {whole fraction : List Char} (hwhole : Digits whole) {scale : Int}
    (hlong : scale < fraction.length) :
    decimalMinor (String.ofList (whole ++ '.' :: fraction)) scale = none := by
  unfold decimalMinor
  simp only [String.toList_ofList, hwhole.takeWhile, List.drop_left, List.drop_one, List.tail_cons,
    hlong, decide_true, Bool.or_true, if_true]
  split <;> rfl

theorem checkedI64_of {n : Int} (h0 : 0 ≤ n) (h : n < 2 ^ 63) : checkedI64 n = some n :=
  if_pos ⟨by omega, h⟩

/-- As many digits as the scale has. -/
theorem decimalMinor_exact {whole fraction : List Char} (hwhole : Digits whole)
    (hfraction : Digits fraction) (hshort : fraction.length ≤ 7)
    (hvalue : (digitsValue whole * 10 ^ fraction.length + digitsValue fraction : Int) < 2 ^ 63) :
    decimalMinor (String.ofList (whole ++ '.' :: fraction)) fraction.length =
      some (digitsValue whole * 10 ^ fraction.length + digitsValue fraction : Int) := by
  have hpower : (1 : Int) ≤ 10 ^ fraction.length := one_le_pow₀ (by decide)
  have hpower' : (10 ^ fraction.length : Int) ≤ 10 ^ 7 := pow_le_pow_right₀ (by decide) hshort
  have hproduct : (digitsValue whole : Int) ≤ digitsValue whole * 10 ^ fraction.length :=
    le_mul_of_one_le_right (by omega) hpower
  have hform : ¬ (¬ (0 ≤ (fraction.length : Int) ∧ (fraction.length : Int) ≤ 7) ∨
      (whole ++ '.' :: fraction).head? = some '-' ∨ (whole ++ '.' :: fraction).head? = some '+') := by
    refine not_or.mpr ⟨by omega, not_or.mpr ⟨?_, ?_⟩⟩
    · exact hwhole.head?_ne _ (by decide)
    · exact hwhole.head?_ne _ (by decide)
  unfold decimalMinor
  simp only [String.toList_ofList, hwhole.takeWhile, List.drop_left, List.drop_one, List.tail_cons]
  rw [if_neg hform, if_neg (by simp [hfraction.point_not_mem, hwhole.nonempty, hwhole.digits, hfraction.digits])]
  simp only [Int.toNat_natCast, Nat.sub_self, List.replicate_zero, List.append_nil, parseI64,
    List.isEmpty_iff, hfraction.nonempty, hwhole.nonempty, if_false, Option.bind_eq_bind]
  rw [checkedI64_of (by omega) (by omega), Option.bind_some, checkedI64_of (by omega) (by omega),
    Option.bind_some, checkedI64_of (by omega) (by omega), Option.bind_some,
    checkedI64_of (by omega) (by omega), Option.bind_some, checkedI64_of (by omega) hvalue]

/-! ### The ledger's report -/

/-- The digits behind the point, seven for a number below ten million. -/
def fractionDigits (n : Nat) : List Char :=
  List.replicate (7 - (Nat.toDigits 10 n).length) '0' ++ Nat.toDigits 10 n

/-- An amount as the ledger reports it: ten-millionths, with seven digits behind the point. -/
def ledgerAmount (amount : Int) : String :=
  String.ofList (Nat.toDigits 10 (amount.toNat / 10 ^ 7) ++
    '.' :: fractionDigits (amount.toNat % 10 ^ 7))

theorem length_fractionDigits {n : Nat} (h : n < 10 ^ 7) : (fractionDigits n).length = 7 := by
  have hlength : (Nat.toDigits 10 n).length ≤ 7 :=
    (Nat.length_toDigits_le_iff (by decide) (by decide)).mpr h
  rw [fractionDigits, List.length_append, List.length_replicate]
  omega

theorem digitsValue_fractionDigits (n : Nat) : digitsValue (fractionDigits n) = n := by
  rw [digitsValue_eq, fractionDigits, Nat.ofDigitChars_append, Nat.ofDigitChars_replicate_zero,
    Nat.mul_zero, Nat.ofDigitChars_ten_toDigits]

theorem digitsValue_toDigits (n : Nat) : digitsValue (Nat.toDigits 10 n) = n := by
  rw [digitsValue_eq, Nat.ofDigitChars_ten_toDigits]

theorem fractionDigits_digits (n : Nat) : Digits (fractionDigits n) :=
  (Digits.toDigits n).padded _

example : ledgerAmount 2500000 = "0.2500000" := by decide +kernel

/-- **A report reads back** exactly by the scale seven. -/
theorem decimalMinor_ledgerAmount {amount scale : Int} (hamount : 0 < amount ∧ amount < 2 ^ 63)
    (hscale : scale ≤ 7) :
    decimalMinor (ledgerAmount amount) scale = some amount ↔ scale = 7 := by
  have hlength := length_fractionDigits (Nat.mod_lt amount.toNat (show 0 < 10 ^ 7 by decide))
  by_cases hseven : scale = 7
  · subst hseven
    have hvalue : (digitsValue (Nat.toDigits 10 (amount.toNat / 10 ^ 7)) * 10 ^ 7 +
        digitsValue (fractionDigits (amount.toNat % 10 ^ 7)) : Int) = amount := by
      rw [digitsValue_toDigits, digitsValue_fractionDigits]
      omega
    have hread := decimalMinor_exact (Digits.toDigits (amount.toNat / 10 ^ 7))
      (fractionDigits_digits (amount.toNat % 10 ^ 7)) hlength.le (by rw [hlength, hvalue]; exact hamount.2)
    rw [hlength, hvalue] at hread
    exact iff_of_true hread rfl
  · -- a smaller scale has no room for seven digits
    have hlong : scale < (fractionDigits (amount.toNat % 10 ^ 7)).length := by
      rw [hlength]
      omega
    have hread := decimalMinor_of_long (Digits.toDigits (amount.toNat / 10 ^ 7)) hlong
    refine iff_of_false (fun hsome => ?_) hseven
    exact Option.some_ne_none _ (hsome.symm.trans hread)

/-! ### What is built and what is observed -/

/-- An amount in a payment is the one that was meant, in units of this scale. -/
structure AmountKept (scale amountMinor amount : Int) : Prop where
  observed : decimalMinor (ledgerAmount amount) scale = some amountMinor
  /-- A report of the payment is not refused for its amount. -/
  admitted : ∀ (o : Observed) (raw : Json), o.amountMinor = amountMinor → o.asset.scale = scale →
    raw.getStr "amount" = some (ledgerAmount amount) →
    rawOperationFailure o raw ≠ some "raw_operation_amount_mismatch"
  /-- The two count the same quantity of the asset. -/
  quantity : amount * 10 ^ scale.toNat = amountMinor * 10 ^ 7

theorem rawOperationFailure_amount {o : Observed} {raw : Json} {amount : String}
    (hraw : raw.getStr "amount" = some amount)
    (hread : decimalMinor amount o.asset.scale = some o.amountMinor) :
    rawOperationFailure o raw ≠ some "raw_operation_amount_mismatch" := by
  unfold rawOperationFailure
  simp only [hraw, hread]
  split
  · decide
  split
  · decide
  split
  · decide
  split
  · decide
  simp only [ne_eq, not_true_eq_false, if_false]
  split
  · split <;> decide
  · split <;> decide

theorem amountKept_iff {amountMinor scale : Int} (hamount : 0 < amountMinor ∧ amountMinor < 2 ^ 63)
    (hscale : 0 ≤ scale ∧ scale ≤ 7) : AmountKept scale amountMinor amountMinor ↔ scale = 7 := by
  constructor
  · intro h
    exact (decimalMinor_ledgerAmount hamount hscale.2).mp h.observed
  · rintro rfl
    have hread := (decimalMinor_ledgerAmount hamount (le_refl 7)).mpr rfl
    refine ⟨hread, ?_, rfl⟩
    intro o raw hminor ho hraw
    exact rawOperationFailure_amount hraw (by rw [ho, hminor, hread])

/-- The amount that is put into the payment is kept by these arguments of the builder, in units
of this scale. -/
def BuiltAmountKept (sha256 : Sha256) (i : IntentTerms) (scale : Int) : Prop :=
  ∃ built bytes parsed,
    buildUnsignedPaymentEnvelope sha256 i.sourceAccount i.destinationAccount i.transactionSequence
      i.baseFee i.amountMinor i.assetCode i.assetIssuer i.memoText i.expiresAtUnix = .ok built ∧
    decodeBase64 built.envelopeXdr = .ok bytes ∧ parsePaymentEnvelope bytes = .ok parsed ∧
    AmountKept scale i.amountMinor parsed.amount

/-- **The amount that is observed is the amount that was meant** exactly for assets of scale
seven. -/
theorem built_amount_kept_iff {sha256 : Sha256} {i : IntentTerms} {built : BuiltEnvelope}
    (hbuilt : buildUnsignedPaymentEnvelope sha256 i.sourceAccount i.destinationAccount
      i.transactionSequence i.baseFee i.amountMinor i.assetCode i.assetIssuer i.memoText
      i.expiresAtUnix = .ok built)
    (hrange : i.InRange) {scale : Int} (hscale : 0 ≤ scale ∧ scale ≤ 7) :
    BuiltAmountKept sha256 i scale ↔ scale = 7 := by
  obtain ⟨t, hdescribes, rfl⟩ := build_eq_ok.mp hbuilt
  have hamount : 0 < i.amountMinor ∧ i.amountMinor < 2 ^ 63 :=
    ⟨hdescribes.positive, hrange.amountMinor.2⟩
  have hbytes : decodeBase64 (t.built sha256).envelopeXdr = .ok (envelopeBytes t.write []) :=
    decode_encodeBase64 (envelopeBytes_ne_nil _ _)
  have hparsed : parsePaymentEnvelope (envelopeBytes t.write []) = .ok (t.parsed 0) :=
    parsePaymentEnvelope_iff.mpr ⟨t, hdescribes.valid hrange, [], by decide, by simp, rfl, rfl⟩
  have hsame : (t.parsed 0).amount = i.amountMinor := hdescribes.amount
  rw [← amountKept_iff hamount hscale]
  constructor
  · intro ⟨built', bytes, parsed, hbuilt', hbytes', hparsed', hkept⟩
    obtain rfl := Except.ok.inj (hbuilt.symm.trans hbuilt')
    obtain rfl := Except.ok.inj (hbytes.symm.trans hbytes')
    obtain rfl := Except.ok.inj (hparsed.symm.trans hparsed')
    rwa [hsame] at hkept
  · intro hkept
    exact ⟨_, _, _, hbuilt, hbytes, hparsed, by rwa [hsame]⟩

/-- The payment of the builder's test, as it is built. -/
theorem samplePayment_built : ∃ built, buildUnsignedPaymentEnvelope (fun _ => Vector.replicate 32 0)
    (samplePayment "CFI-test").sourceAccount (samplePayment "CFI-test").destinationAccount
    (samplePayment "CFI-test").transactionSequence (samplePayment "CFI-test").baseFee
    (samplePayment "CFI-test").amountMinor (samplePayment "CFI-test").assetCode
    (samplePayment "CFI-test").assetIssuer (samplePayment "CFI-test").memoText
    (samplePayment "CFI-test").expiresAtUnix = .ok built := by
  have hdescribes : (samplePayment "CFI-test").Describes ⟨List.replicate 32 0, 100, 1,
      some (0, 1900000000), some "CFI-test", (List.range 32).map fun n => UInt8.ofNat (n + 1), .native,
      2500000⟩ :=
    ⟨sampleSource_key, sampleDestination_key, rfl, rfl, by decide, rfl, .native, by decide +kernel,
      by decide +kernel, rfl, by decide, rfl⟩
  exact ⟨_, build_eq_ok.mpr ⟨_, hdescribes, rfl⟩⟩

theorem samplePayment_amount_kept :
    BuiltAmountKept (fun _ => Vector.replicate 32 0) (samplePayment "CFI-test") 7 := by
  obtain ⟨built, hbuilt⟩ := samplePayment_built
  exact (built_amount_kept_iff hbuilt (samplePayment_inRange _) (by decide)).mpr rfl

/-- An asset of scale two: what is paid for it is not what was meant. -/
theorem scale_two_amount_lost :
    ¬ ∀ (sha256 : Sha256) (i : IntentTerms) (built : BuiltEnvelope),
      buildUnsignedPaymentEnvelope sha256 i.sourceAccount i.destinationAccount i.transactionSequence
        i.baseFee i.amountMinor i.assetCode i.assetIssuer i.memoText i.expiresAtUnix = .ok built →
      i.InRange → ∀ scale, 0 ≤ scale ∧ scale ≤ 7 → BuiltAmountKept sha256 i scale := by
  intro h
  obtain ⟨built, hbuilt⟩ := samplePayment_built
  obtain ⟨_, bytes, parsed, hbuilt', hbytes, hparsed, hkept⟩ :=
    h _ _ _ hbuilt (samplePayment_inRange _) 2 (by decide)
  have hquantity := hkept.quantity
  obtain ⟨t, hdescribes, rfl⟩ := build_eq_ok.mp hbuilt'
  obtain rfl := Except.ok.inj ((decode_encodeBase64 (envelopeBytes_ne_nil _ _)).symm.trans hbytes)
  obtain rfl := Except.ok.inj ((parsePaymentEnvelope_iff.mpr ⟨t, hdescribes.valid
    (samplePayment_inRange _), [], by decide, by simp, rfl, rfl⟩).symm.trans hparsed)
  rw [show (t.parsed [].length).amount = 2500000 from hdescribes.amount] at hquantity
  exact absurd hquantity (by decide)

end CrownFi.Commerce
