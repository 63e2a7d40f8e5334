import Mathlib.Algebra.Order.Ring.Int
import Mathlib.Data.List.Induction
import Mathlib.Logic.Function.Iterate

/-!
# CrownFi.Lib.Crc

**Cyclic redundancy checks.** A register of `w` bits is shifted up bit by bit; what falls out at
the top is fed back by a polynomial. A shift is linear in exclusive or, so the check of the
difference of two messages is the difference of their checks: `run_xor`. Where the polynomial is
odd, a shift loses nothing, so a register that is not zero stays so however many zeros follow:
`run_zeros`.
-/

namespace Lib.Crc

variable {w : Nat}

/-- One bit of the register. -/
def shift (poly c : BitVec w) : BitVec w :=
  if c.msb then (c <<< 1) ^^^ poly else c <<< 1

/-- A chunk of the message, and `n` shifts. -/
def read (poly : BitVec w) (n : Nat) (c chunk : BitVec w) : BitVec w := (shift poly)^[n] (c ^^^ chunk)

def run (poly : BitVec w) (n : Nat) (c : BitVec w) (chunks : List (BitVec w)) : BitVec w :=
  chunks.foldl (read poly n) c

variable {poly : BitVec w} {n : Nat}

/-! ### Linearity -/

theorem xor_cancel (a b p : BitVec w) : a ^^^ p ^^^ (b ^^^ p) = a ^^^ b := by
  rw [BitVec.xor_comm b p, BitVec.xor_assoc, ← BitVec.xor_assoc p p b, BitVec.xor_self, BitVec.zero_xor]

theorem shift_xor (a b : BitVec w) : shift poly (a ^^^ b) = shift poly a ^^^ shift poly b := by
  unfold shift
  rw [BitVec.msb_xor, BitVec.shiftLeft_xor_distrib]
  cases a.msb <;> cases b.msb
  · rfl
  · exact BitVec.xor_assoc _ _ _
  · simp only [Bool.bne_false, if_true, Bool.false_eq_true, if_false]
    rw [BitVec.xor_assoc, BitVec.xor_assoc, BitVec.xor_comm poly]
  · exact (xor_cancel _ _ _).symm

theorem shift_zero : shift poly (0#w) = 0#w := by
  simp [shift]

theorem iterate_shift_xor (a b : BitVec w) :
    (shift poly)^[n] (a ^^^ b) = (shift poly)^[n] a ^^^ (shift poly)^[n] b := by
  induction n generalizing a b with
  | zero => rfl
  | succ n ih => rw [Function.iterate_succ_apply, shift_xor, ih]; rfl

theorem iterate_shift_zero : (shift poly)^[n] (0#w) = 0#w :=
  Function.iterate_fixed shift_zero n

theorem read_xor (c d x y : BitVec w) :
    read poly n (c ^^^ d) (x ^^^ y) = read poly n c x ^^^ read poly n d y := by
  unfold read
  rw [← iterate_shift_xor]
  congr 1
  rw [BitVec.xor_assoc, BitVec.xor_assoc, ← BitVec.xor_assoc d x y, BitVec.xor_comm d x, BitVec.xor_assoc x d y]

theorem read_zero_zero : read poly n (0#w) (0#w) = 0#w := by
  rw [read, BitVec.xor_self, iterate_shift_zero]

/-- **The check of a difference** of two messages of one length. -/
theorem run_xor (c d : BitVec w) {xs ys : List (BitVec w)} (hlength : xs.length = ys.length) :
    run poly n (c ^^^ d) (List.zipWith (· ^^^ ·) xs ys) = run poly n c xs ^^^ run poly n d ys := by
  induction xs generalizing c d ys with
  | nil =>
      cases ys with
      | nil => rfl
      | cons y ys => cases hlength
  | cons x xs ih =>
      cases ys with
      | nil => cases hlength
      | cons y ys =>
          rw [List.zipWith_cons_cons]
          simp only [run, List.foldl_cons] at ih ⊢
          rw [read_xor]
          exact ih _ _ (Nat.succ.inj hlength)

/-! ### Nothing is lost -/

theorem shift_eq_zero (hodd : poly.getLsbD 0 = true) (hw : 0 < w) {c : BitVec w} (h : shift poly c = 0#w) :
    c = 0#w := by
  unfold shift at h
  split at h
  · -- the lowest bit of the feedback stays
    have hbit := congrArg (fun x : BitVec w => x.getLsbD 0) h
    rw [BitVec.getLsbD_xor, BitVec.getLsbD_shiftLeft, hodd] at hbit
    simp at hbit
  · rename_i hmsb
    apply BitVec.eq_of_getLsbD_eq
    intro i hi
    rw [BitVec.getLsbD_zero]
    by_cases htop : i + 1 = w
    · rw [BitVec.msb_eq_getLsbD_last] at hmsb
      have hlast : w - 1 = i := by omega
      rw [hlast] at hmsb
      exact eq_false_of_ne_true hmsb
    · have hbit := congrArg (fun x : BitVec w => x.getLsbD (i + 1)) h
      rw [BitVec.getLsbD_shiftLeft] at hbit
      simpa only [show i + 1 < w by omega, show ¬ i + 1 < 1 by omega, Nat.add_sub_cancel, decide_true,
        decide_false, Bool.not_false, Bool.true_and, BitVec.getLsbD_zero] using hbit

theorem iterate_shift_eq_zero (hodd : poly.getLsbD 0 = true) (hw : 0 < w) {c : BitVec w}
    (h : (shift poly)^[n] c = 0#w) : c = 0#w := by
  induction n with
  | zero => exact h
  | succ n ih =>
      rw [Function.iterate_succ_apply'] at h
      exact ih (shift_eq_zero hodd hw h)

/-- **Zeros behind a message** hide no error in it. -/
theorem run_zeros (hodd : poly.getLsbD 0 = true) (hw : 0 < w) {c : BitVec w} {m : Nat}
    (h : run poly n c (List.replicate m 0#w) = 0#w) : c = 0#w := by
  induction m generalizing c with
  | zero => exact h
  | succ m ih =>
      have hread : read poly n c 0#w = 0#w := ih h
      rw [read, BitVec.xor_zero] at hread
      exact iterate_shift_eq_zero hodd hw hread

/-- Zeros before a message change nothing. -/
theorem run_zeros_append (m : Nat) (chunks : List (BitVec w)) :
    run poly n 0#w (List.replicate m 0#w ++ chunks) = run poly n 0#w chunks := by
  induction m with
  | zero => rfl
  | succ m ih =>
      rw [List.replicate_succ, List.cons_append]
      simp only [run, List.foldl_cons, read_zero_zero] at ih ⊢
      exact ih

end Lib.Crc
