import Mathlib.Algebra.BigOperators.Finprod
import Mathlib.Algebra.Order.Ring.Int
import Mathlib.Tactic.Abel

/-!
# CrownFi.Lib.FinSum

**Sums over an unbounded index with finitely many non-zero terms.** A storage
that maps every key to a number, zero by default, has totals over *all* keys
although it never lists them. What a store update does to such a total is one
fact: two functions that agree away from a point have totals that differ by
their values at that point.
-/

namespace Lib

variable {ι M : Type*} [AddCommGroup M] {f g : ι → M} {a : ι}

/-- Changing a function at one point keeps its support finite. -/
theorem hasFiniteSupport_of_eq_off (hf : f.HasFiniteSupport) (h : ∀ b, b ≠ a → g b = f b) :
    g.HasFiniteSupport := by
  refine (hf.union (Set.finite_singleton a)).subset fun b hb => ?_
  by_cases hba : b = a
  · exact Or.inr hba
  · exact Or.inl (by simpa [Function.mem_support, h b hba] using hb)

/-- **Point update of a total.** `g` agrees with `f` away from `a`. -/
theorem finsum_eq_off (hf : f.HasFiniteSupport) (h : ∀ b, b ≠ a → g b = f b) :
    ∑ᶠ b, g b = ∑ᶠ b, f b - f a + g a := by
  classical
  have hg := hasFiniteSupport_of_eq_off hf h
  let S : Finset ι := insert a hf.toFinset
  have hfS : Function.support f ⊆ ↑S := fun b hb =>
    Finset.mem_insert_of_mem (hf.mem_toFinset.mpr hb)
  have hgS : Function.support g ⊆ ↑S := fun b hb => by
    by_cases hba : b = a
    · exact hba ▸ Finset.mem_insert_self _ _
    · exact hfS (by simpa [Function.mem_support, h b hba] using hb)
  have haS : a ∈ S := Finset.mem_insert_self _ _
  have hoff : ∑ b ∈ S.erase a, g b = ∑ b ∈ S.erase a, f b :=
    Finset.sum_congr rfl fun b hb => h b (Finset.ne_of_mem_erase hb)
  rw [finsum_eq_sum_of_support_subset g hgS, finsum_eq_sum_of_support_subset f hfS,
    ← Finset.add_sum_erase S g haS, ← Finset.add_sum_erase S f haS, hoff]
  abel

/-- The same for a family supported where another one is. -/
theorem hasFiniteSupport_of_imp (hf : f.HasFiniteSupport) (h : ∀ b, f b = 0 → g b = 0) :
    g.HasFiniteSupport :=
  hf.subset fun b hb hfb => hb (h b hfb)

end Lib
