import Mathlib.Algebra.Order.Ring.Int

/-!
# CrownFi.Lib.Fallible

**Guarded steps in `Except`.** A handler is a chain of guards, lookups and
checked arithmetic that ends in one update. Reading such a chain backwards from
a known result is the same argument every time: a successful bind has a
successful first half, and a guard that let the chain pass was false. The `simp`
lemmas below do this inversion, for success and for failure.
-/

namespace Lib

variable {ε α β : Type _}

/-- Fail with `e` when `c` holds. -/
def failIf (c : Prop) [Decidable c] (e : ε) : Except ε Unit :=
  if c then .error e else .ok ()

/-- Unwrap an optional value, failing with `e` when there is none. -/
def okOr (o : Option α) (e : ε) : Except ε α :=
  match o with
  | some a => .ok a
  | none => .error e

@[simp] theorem ok_bind {a : α} {f : α → Except ε β} : (Except.ok a >>= f) = f a := rfl

@[simp] theorem bind_eq_ok {x : Except ε α} {f : α → Except ε β} {b : β} :
    (x >>= f) = .ok b ↔ ∃ a, x = .ok a ∧ f a = .ok b := by
  cases x <;> simp [bind, Except.bind]

theorem throw_bind {e : ε} {f : α → Except ε β} : ((throw e : Except ε α) >>= f) = .error e := rfl

/-- A guard that let the rest pass. -/
theorem guard_eq_ok {c : Prop} [Decidable c] {e : ε} {x : Except ε α} {a : α} :
    (if c then .error e else x) = .ok a ↔ ¬ c ∧ x = .ok a := by
  split <;> simp_all

@[simp] theorem bind_eq_error {x : Except ε α} {f : α → Except ε β} {e : ε} :
    (x >>= f) = .error e ↔ x = .error e ∨ ∃ a, x = .ok a ∧ f a = .error e := by
  cases x <;> simp [bind, Except.bind]

@[simp] theorem map_eq_ok {x : Except ε α} {f : α → β} {b : β} :
    f <$> x = .ok b ↔ ∃ a, x = .ok a ∧ f a = b := by
  cases x <;> simp [Functor.map, Except.map]

@[simp] theorem map_eq_error {x : Except ε α} {f : α → β} {e : ε} :
    f <$> x = .error e ↔ x = .error e := by
  cases x <;> simp [Functor.map, Except.map]

@[simp] theorem pure_eq_ok {a b : α} : (pure a : Except ε α) = .ok b ↔ a = b := by
  simp [pure, Except.pure]

@[simp] theorem pure_ne_error {a : α} {e : ε} : (pure a : Except ε α) ≠ .error e := by
  simp [pure, Except.pure]

@[simp] theorem failIf_eq_ok {c : Prop} [Decidable c] {e : ε} {u : Unit} :
    failIf c e = .ok u ↔ ¬ c := by
  unfold failIf
  split <;> simp_all

@[simp] theorem failIf_eq_error {c : Prop} [Decidable c] {e e' : ε} :
    failIf c e = .error e' ↔ c ∧ e = e' := by
  unfold failIf
  split <;> simp_all

@[simp] theorem okOr_eq_ok {o : Option α} {e : ε} {a : α} : okOr o e = .ok a ↔ o = some a := by
  cases o <;> simp [okOr]

@[simp] theorem okOr_eq_error {o : Option α} {e e' : ε} :
    okOr o e = .error e' ↔ o = none ∧ e = e' := by
  cases o <;> simp [okOr]

end Lib
