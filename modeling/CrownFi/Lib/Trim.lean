import Mathlib.Algebra.Order.Ring.Int
import Mathlib.Data.List.DropRight

/-!
# CrownFi.Lib.Trim

**Lists without the margins** that a predicate marks. What is left neither begins nor ends with a
marked entry; to cut it off at a length may bring a marked entry to the end, and then a second pass
takes more away.
-/

namespace Lib

variable {α : Type*} {p : α → Bool} {l : List α}

/-- The list from its first unmarked entry to its last. -/
def trim (p : α → Bool) (l : List α) : List α := (l.dropWhile p).rdropWhile p

/-- The list begins with an unmarked entry. -/
def Begins (p : α → Bool) (l : List α) : Prop := ∃ a rest, l = a :: rest ∧ p a = false

/-- The list ends with a marked entry. -/
def Ends (p : α → Bool) (l : List α) : Prop := ∃ a, l.getLast? = some a ∧ p a = true

theorem begins_trim (h : trim p l ≠ []) : Begins p (trim p l) := by
  obtain ⟨rest, hrest⟩ : trim p l <+: l.dropWhile p := List.rdropWhile_prefix _ _
  cases htrim : trim p l with
  | nil => exact absurd htrim h
  | cons a kept =>
      have hne : l.dropWhile p ≠ [] := by
        rw [← hrest, htrim]
        exact List.cons_ne_nil _ _
      have hhead : p ((l.dropWhile p).head hne) = false := List.head_dropWhile_not p hne
      simp only [← hrest, htrim, List.cons_append, List.head_cons] at hhead
      exact ⟨a, kept, rfl, hhead⟩

theorem Begins.take (h : Begins p l) {n : Nat} (hn : 0 < n) : Begins p (l.take n) := by
  obtain ⟨a, rest, rfl, ha⟩ := h
  obtain ⟨m, rfl⟩ := Nat.exists_eq_succ_of_ne_zero hn.ne'
  exact ⟨a, rest.take m, rfl, ha⟩

theorem Begins.trim_eq (h : Begins p l) : trim p l = l.rdropWhile p := by
  obtain ⟨a, rest, rfl, ha⟩ := h
  rw [trim, List.dropWhile_cons_of_neg (by simp [ha])]

theorem Begins.trim_ne_nil (h : Begins p l) : trim p l ≠ [] := by
  rw [h.trim_eq]
  obtain ⟨a, rest, rfl, ha⟩ := h
  rw [Ne, List.rdropWhile_eq_nil_iff]
  intro hall
  rw [hall a List.mem_cons_self] at ha
  cases ha

/-- What begins unmarked is left as it is exactly if it does not end marked. -/
theorem Begins.trim_eq_self_iff (h : Begins p l) : trim p l = l ↔ ¬ Ends p l := by
  rw [h.trim_eq, List.rdropWhile_eq_self_iff]
  constructor
  · rintro hlast ⟨a, ha, hp⟩
    have hne : l ≠ [] := by
      rintro rfl
      cases ha
    rw [List.getLast?_eq_some_getLast hne] at ha
    exact hlast hne (Option.some.inj ha ▸ hp)
  · exact fun hnot hne hp => hnot ⟨_, List.getLast?_eq_some_getLast hne, hp⟩

theorem length_trim_le : (trim p l).length ≤ l.length :=
  ((List.rdropWhile_prefix _ _).length_le).trans (List.dropWhile_suffix p).length_le

end Lib
