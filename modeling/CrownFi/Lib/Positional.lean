import Mathlib.Algebra.Order.Ring.Int
import Mathlib.Data.List.Induction
import Mathlib.Tactic.Common

/-!
# CrownFi.Lib.Positional

**Numbers as digits** to any base, the most significant digit first. A number below
`base ^ width` has one text of `width` digits, and such a text has one value: `value_digits` and
`digits_value`. To a base that is a power of two, two texts that differ in one place have values
whose difference stands in that place alone: `value_xor_value`.
-/

namespace Lib.Positional

/-- The last `width` digits of a number. -/
def digits (base width n : Nat) : List Nat :=
  (List.range width).map fun i => n / base ^ (width - 1 - i) % base

def value (base : Nat) (ds : List Nat) : Nat := ds.foldl (fun n d => n * base + d) 0

@[simp] theorem length_digits (base width n : Nat) : (digits base width n).length = width := by
  simp [digits]

theorem digits_succ (base width n : Nat) :
    digits base (width + 1) n = digits base width (n / base) ++ [n % base] := by
  unfold digits
  rw [List.range_succ, List.map_append]
  congr 1
  · refine List.map_congr_left fun i hi => ?_
    have hi : i < width := List.mem_range.mp hi
    have hexp : width + 1 - 1 - i = width - 1 - i + 1 := by omega
    rw [hexp, Nat.pow_succ', ← Nat.div_div_eq_div_mul]
  · simp

theorem lt_of_mem_digits {base width n d : Nat} (hbase : 0 < base) (hd : d ∈ digits base width n) :
    d < base := by
  obtain ⟨i, -, rfl⟩ := List.mem_map.mp hd
  exact Nat.mod_lt _ hbase

theorem value_append_singleton (base : Nat) (ds : List Nat) (d : Nat) :
    value base (ds ++ [d]) = value base ds * base + d := by
  simp [value]

theorem value_append (base : Nat) (ds es : List Nat) :
    value base (ds ++ es) = value base ds * base ^ es.length + value base es := by
  induction es using List.reverseRecOn with
  | nil => simp [value]
  | append_singleton es e ih =>
      rw [← List.append_assoc, value_append_singleton, value_append_singleton, ih,
        List.length_append, List.length_singleton, Nat.pow_succ, Nat.add_mul, Nat.mul_assoc, Nat.add_assoc]

theorem value_lt {base : Nat} {ds : List Nat} (h : ∀ d ∈ ds, d < base) : value base ds < base ^ ds.length := by
  induction ds using List.reverseRecOn with
  | nil => simp [value]
  | append_singleton ds d ih =>
      have hds : value base ds + 1 ≤ base ^ ds.length :=
        ih fun e he => h e (List.mem_append_left _ he)
      have hd : d < base := h d (by simp)
      rw [value_append_singleton, List.length_append, List.length_singleton, Nat.pow_succ]
      calc value base ds * base + d < value base ds * base + base := by omega
        _ = (value base ds + 1) * base := by rw [Nat.add_mul, Nat.one_mul]
        _ ≤ base ^ ds.length * base := Nat.mul_le_mul_right _ hds

theorem quotient_remainder {base p d : Nat} (hd : d < base) :
    (p * base + d) / base = p ∧ (p * base + d) % base = d := by
  rw [Nat.mul_comm, Nat.mul_add_div (by omega), Nat.div_eq_of_lt hd, Nat.add_zero, Nat.mul_add_mod,
    Nat.mod_eq_of_lt hd]
  exact ⟨rfl, rfl⟩

theorem value_digits {base width n : Nat} (hbase : 0 < base) (h : n < base ^ width) :
    value base (digits base width n) = n := by
  induction width generalizing n with
  | zero =>
      have hzero : n = 0 := by simpa using h
      rw [hzero]
      rfl
  | succ width ih =>
      have hdiv : n / base < base ^ width := by
        rw [Nat.div_lt_iff_lt_mul hbase, ← Nat.pow_succ]
        exact h
      rw [digits_succ, value_append_singleton, ih hdiv]
      exact Nat.div_add_mod' n base

theorem digits_value {base : Nat} {ds : List Nat} (h : ∀ d ∈ ds, d < base) :
    digits base ds.length (value base ds) = ds := by
  induction ds using List.reverseRecOn with
  | nil => rfl
  | append_singleton ds d ih =>
      obtain ⟨hdiv, hmod⟩ := quotient_remainder (p := value base ds) (h d (by simp))
      rw [List.length_append, List.length_singleton, digits_succ, value_append_singleton, hdiv, hmod,
        ih fun e he => h e (List.mem_append_left _ he)]

/-! ### One place -/

/-- What is equal below a place cancels. -/
theorem xor_of_low {m p q l : Nat} (hl : l < 2 ^ m) :
    (p * 2 ^ m + l) ^^^ (q * 2 ^ m + l) = (p ^^^ q) * 2 ^ m := by
  have hparts : ∀ a, (a * 2 ^ m + l) / 2 ^ m = a ∧ (a * 2 ^ m + l) % 2 ^ m = l :=
    fun _ => quotient_remainder hl
  rw [← Nat.div_add_mod' ((p * 2 ^ m + l) ^^^ (q * 2 ^ m + l)) (2 ^ m), Nat.xor_div_two_pow,
    Nat.xor_mod_two_pow, (hparts p).1, (hparts q).1, (hparts p).2, (hparts q).2, Nat.xor_self, Nat.add_zero]

/-- What is equal above a place cancels. -/
theorem xor_of_high {m p a b : Nat} (ha : a < 2 ^ m) (hb : b < 2 ^ m) :
    (p * 2 ^ m + a) ^^^ (p * 2 ^ m + b) = a ^^^ b := by
  have hxor : a ^^^ b < 2 ^ m := Nat.xor_lt_two_pow ha hb
  have hparts : ∀ l < 2 ^ m, (p * 2 ^ m + l) / 2 ^ m = p ∧ (p * 2 ^ m + l) % 2 ^ m = l :=
    fun _ => quotient_remainder
  rw [← Nat.div_add_mod' ((p * 2 ^ m + a) ^^^ (p * 2 ^ m + b)) (2 ^ m), Nat.xor_div_two_pow,
    Nat.xor_mod_two_pow, (hparts a ha).1, (hparts b hb).1, (hparts a ha).2, (hparts b hb).2,
    Nat.xor_self, Nat.zero_mul, Nat.zero_add]

/-- Two parts side by side. -/
theorem xor_of_disjoint {m p l : Nat} (hl : l < 2 ^ m) : p * 2 ^ m ^^^ l = p * 2 ^ m + l := by
  have hxor : p * 2 ^ m ^^^ (p * 2 ^ m + l) = l := by
    have hhigh := xor_of_high (p := p) (Nat.two_pow_pos m) hl
    rwa [Nat.add_zero, Nat.zero_xor] at hhigh
  calc p * 2 ^ m ^^^ l = p * 2 ^ m ^^^ (p * 2 ^ m ^^^ (p * 2 ^ m + l)) := by rw [hxor]
    _ = p * 2 ^ m + l := by rw [← Nat.xor_assoc, Nat.xor_self, Nat.zero_xor]

/-- **Two texts that differ in one place.** -/
theorem value_xor_value {w : Nat} (ds : List Nat) {a b : Nat} {es : List Nat} (ha : a < 2 ^ w)
    (hb : b < 2 ^ w) (hes : ∀ e ∈ es, e < 2 ^ w) :
    value (2 ^ w) (ds ++ a :: es) ^^^ value (2 ^ w) (ds ++ b :: es) = (a ^^^ b) * 2 ^ (w * es.length) := by
  have hsplit : ∀ d, value (2 ^ w) (ds ++ d :: es) =
      (value (2 ^ w) ds * 2 ^ w + d) * 2 ^ (w * es.length) + value (2 ^ w) es := by
    intro d
    rw [List.append_cons, value_append, value_append_singleton, ← Nat.pow_mul]
  have hlow : value (2 ^ w) es < 2 ^ (w * es.length) := by
    rw [Nat.pow_mul]
    exact value_lt hes
  rw [hsplit, hsplit, xor_of_low hlow, xor_of_high ha hb]

end Lib.Positional
