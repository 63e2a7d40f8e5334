import Mathlib.Algebra.Order.Ring.Int
import Mathlib.Data.List.Basic
import Mathlib.Data.List.Dedup
import Mathlib.Data.List.Perm.Subperm

/-!
# CrownFi.Lib.Custody

**Tokens in custody.** Several holders have tokens, each token one holder at a
time. A step of one holder may drop tokens of its own or hand them on; nobody
else's are touched. Where the holders are the entries of a list, what they hold
together is `holders.flatMap tokens`, and this module says how that list of
tokens changes when one entry does: up to order, the entry's own part is
replaced and the rest stays.
-/

namespace Lib

variable {α τ : Type*} (tokens : α → List τ) {holders : List α} {i : Nat} {a : α}

/-- One holder's tokens, and everybody else's. -/
theorem exists_custody (h : holders[i]? = some a) : ∃ others,
    (holders.flatMap tokens).Perm (tokens a ++ others) ∧
      ∀ b, ((holders.set i b).flatMap tokens).Perm (tokens b ++ others) := by
  induction holders generalizing i with
  | nil => simp at h
  | cons first rest ih =>
      cases i with
      | zero =>
          obtain rfl : first = a := by simpa using h
          exact ⟨rest.flatMap tokens, .refl _, fun b => .refl _⟩
      | succ i =>
          obtain ⟨others, hhere, hset⟩ := ih (by simpa using h)
          -- the first holder's tokens move behind those of the entry
          have hmove : ∀ b, (tokens first ++ (tokens b ++ others)).Perm
              (tokens b ++ (tokens first ++ others)) := by
            intro b
            rw [← List.append_assoc, ← List.append_assoc]
            exact List.Perm.append_right others List.perm_append_comm
          refine ⟨tokens first ++ others, (hhere.append_left _).trans (hmove a), fun b => ?_⟩
          exact ((hset b).append_left _).trans (hmove b)

/-- Only one holder has any. -/
theorem flatMap_of_only (hnodup : holders.Nodup) (ha : a ∈ holders)
    (hothers : ∀ b ∈ holders, b ≠ a → tokens b = []) : holders.flatMap tokens = tokens a := by
  obtain ⟨before, after, rfl⟩ := List.append_of_mem ha
  rw [List.nodup_middle, List.nodup_cons, List.mem_append, not_or] at hnodup
  obtain ⟨⟨hbefore, hafter⟩, -⟩ := hnodup
  have hnone : ∀ l : List α, a ∉ l → (∀ b ∈ l, b ∈ before ++ a :: after) → l.flatMap tokens = [] :=
    fun l hl hsub => List.flatMap_eq_nil_iff.mpr fun b hb => hothers b (hsub b hb) fun heq => hl (heq ▸ hb)
  rw [List.flatMap_append, List.flatMap_cons,
    hnone before hbefore fun b hb => List.mem_append_left _ hb,
    hnone after hafter fun b hb => List.mem_append_right _ (List.mem_cons_of_mem _ hb),
    List.nil_append, List.append_nil]

/-- Tokens named otherwise, some of them. -/
theorem map_subperm {β : Type*} {f : τ → β} {some' all : List τ} (h : some'.Subperm all) :
    (some'.map f).Subperm (all.map f) := by
  obtain ⟨chosen, hperm, hsub⟩ := h
  exact ⟨chosen.map f, hperm.map f, hsub.map f⟩

theorem nodup_subperm {some' all : List τ} (h : some'.Subperm all) (hall : all.Nodup) : some'.Nodup := by
  obtain ⟨chosen, hperm, hsub⟩ := h
  exact hperm.nodup_iff.mp (hall.sublist hsub)

/-- **Distinct tokens of a stock** are no more than the stock has. -/
theorem length_le_of_custody [DecidableEq τ] {held stock : List τ} (hnodup : held.Nodup)
    (h : ∀ t ∈ held, t ∈ stock) : held.length ≤ stock.dedup.length :=
  (hnodup.subperm fun t ht => List.mem_dedup.mpr (h t ht)).length_le

end Lib
