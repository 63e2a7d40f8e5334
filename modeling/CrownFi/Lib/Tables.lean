import Mathlib.Algebra.Order.Ring.Int
import Mathlib.Data.List.Nodup

/-!
# CrownFi.Lib.Tables

Rows as lists: lookups by a key, and updates of the rows that satisfy a condition.
An update that keeps the keys commutes with a lookup by key.
-/

namespace Lib

universe u v

variable {α : Type u} {β : Type v}

/-- `UPDATE .. SET .. WHERE ..`. -/
def updateWhere (p : α → Bool) (f : α → α) (rows : List α) : List α :=
  rows.map fun r => if p r then f r else r

theorem mem_updateWhere {p : α → Bool} {f : α → α} {rows : List α} {r : α} :
    r ∈ updateWhere p f rows ↔ ∃ r₀ ∈ rows, r = if p r₀ then f r₀ else r₀ := by
  simp only [updateWhere, List.mem_map, eq_comm]

/-- An update that matches no row. -/
theorem updateWhere_eq_self {p : α → Bool} {f : α → α} {rows : List α} (h : ∀ r ∈ rows, p r = false) :
    updateWhere p f rows = rows := by
  refine (List.map_congr_left fun r hr => ?_).trans (List.map_id' rows)
  rw [h r hr]
  rfl

/-- The rows before and after an update correspond. -/
theorem map_updateWhere {p : α → Bool} {f : α → α} {rows : List α} {key : α → β}
    (h : ∀ r, key (f r) = key r) : (updateWhere p f rows).map key = rows.map key := by
  rw [updateWhere, List.map_map]
  refine List.map_congr_left fun r _ => ?_
  simp only [Function.comp]
  split
  · exact h r
  · rfl

/-- Each row stays, or is changed where it stands. -/
theorem forall₂_updateWhere {R : α → α → Prop} {p : α → Bool} {f : α → α} {rows : List α}
    (hself : ∀ r, R r r) (hchange : ∀ r ∈ rows, p r = true → R r (f r)) :
    List.Forall₂ R rows (updateWhere p f rows) := by
  rw [updateWhere, List.forall₂_map_right_iff, List.forall₂_same]
  intro r hr
  split
  · exact hchange r hr ‹_›
  · exact hself r

/-- Rows that correspond to others, after an update. -/
theorem forall₂_updateWhere_right {R S : β → α → Prop} {p : α → Bool} {f : α → α} {l : List β}
    {rows : List α} (h : List.Forall₂ R l rows)
    (hchange : ∀ a ∈ l, ∀ r, R a r → S a (if p r then f r else r)) :
    List.Forall₂ S l (updateWhere p f rows) := by
  induction h with
  | nil => exact .nil
  | cons hrel _ ih =>
      refine .cons (hchange _ List.mem_cons_self _ hrel) (ih fun a ha => ?_)
      exact hchange a (List.mem_cons_of_mem _ ha)

theorem forall₂_trans {R : α → α → Prop} [IsTrans α R] {l l' l'' : List α} (h : List.Forall₂ R l l')
    (h' : List.Forall₂ R l' l'') : List.Forall₂ R l l'' := by
  induction h generalizing l'' with
  | nil => exact h'
  | cons hr _ ih =>
      cases h' with
      | cons hr' h' => exact .cons (trans_of R hr hr') (ih h')

/-- A row after a change, and the one that it was. -/
theorem forall₂_exists {R : α → α → Prop} {l l' : List α} (h : List.Forall₂ R l l') {r' : α}
    (hr' : r' ∈ l') : ∃ r ∈ l, R r r' := by
  induction h with
  | nil => cases hr'
  | cons hr _ ih =>
      rcases List.mem_cons.mp hr' with rfl | hr'
      · exact ⟨_, List.mem_cons_self, hr⟩
      · obtain ⟨s, hs, hrel⟩ := ih hr'
        exact ⟨s, List.mem_cons_of_mem _ hs, hrel⟩

/-- A row before a change, and the one that it became. -/
theorem forall₂_becomes {R : α → β → Prop} {l : List α} {l' : List β} (h : List.Forall₂ R l l') {r : α}
    (hr : r ∈ l) : ∃ r' ∈ l', R r r' := by
  induction h with
  | nil => cases hr
  | cons hrel _ ih =>
      rcases List.mem_cons.mp hr with rfl | hr
      · exact ⟨_, List.mem_cons_self, hrel⟩
      · obtain ⟨s, hs, hrel⟩ := ih hr
        exact ⟨s, List.mem_cons_of_mem _ hs, hrel⟩

/-- What the changes of rows keep. -/
theorem forall₂_map_eq {R : α → α → Prop} {key : α → β} {l l' : List α} (h : List.Forall₂ R l l')
    (hkey : ∀ r r', R r r' → key r' = key r) : l'.map key = l.map key := by
  induction h with
  | nil => rfl
  | cons hr _ ih => rw [List.map_cons, List.map_cons, hkey _ _ hr, ih]

/-- An update that changes nothing. -/
theorem updateWhere_id {p : α → Bool} {rows : List α} : updateWhere p id rows = rows := by
  refine (List.map_congr_left fun r _ => ?_).trans (List.map_id' rows)
  simp only [id, ite_self]

/-- Conditions that select the same of these rows. -/
theorem updateWhere_congr {p q : α → Bool} {f : α → α} {rows : List α} (h : ∀ r ∈ rows, p r = q r) :
    updateWhere p f rows = updateWhere q f rows := by
  refine List.map_congr_left fun r hr => ?_
  rw [h r hr]

/-- The selected rows after an update, where it keeps what selects them. -/
theorem filter_updateWhere {p q : α → Bool} {f : α → α} {rows : List α} (h : ∀ r, q (f r) = q r) :
    (updateWhere p f rows).filter q = updateWhere p f (rows.filter q) := by
  rw [updateWhere, updateWhere, List.filter_map]
  congr 1
  refine List.filter_congr fun r _ => ?_
  simp only [Function.comp]
  split
  · exact h r
  · rfl

/-- The selected rows after an update of rows that are not selected, before or after it. -/
theorem filter_updateWhere_of_not {p q : α → Bool} {f : α → α} {rows : List α}
    (h : ∀ r ∈ rows, p r = true → q r = false ∧ q (f r) = false) :
    (updateWhere p f rows).filter q = rows.filter q := by
  induction rows with
  | nil => rfl
  | cons r rest ih =>
      have hrest := ih fun s hs => h s (List.mem_cons_of_mem _ hs)
      rw [updateWhere, List.map_cons, List.filter_cons, List.filter_cons]
      rw [updateWhere] at hrest
      by_cases hp : p r = true
      · obtain ⟨hq, hq'⟩ := h r List.mem_cons_self hp
        simp only [hp, hq, hq', if_true, Bool.false_eq_true, if_false, hrest]
      · simp only [hp, Bool.false_eq_true, if_false, hrest]

/-- A lookup by something the update keeps. -/
theorem find?_updateWhere {p q : α → Bool} {f : α → α} {rows : List α}
    (h : ∀ r, q (f r) = q r) :
    (updateWhere p f rows).find? q = (rows.find? q).map fun r => if p r then f r else r := by
  rw [updateWhere, List.find?_map]
  congr 2
  funext r
  simp only [Function.comp]
  split
  · exact h r
  · rfl

/-- A row is what the lookup by its key finds. -/
theorem find?_key [DecidableEq β] {key : α → β} {rows : List α} (hnodup : (rows.map key).Nodup)
    {r : α} (hr : r ∈ rows) : rows.find? (fun x => key x = key r) = some r := by
  obtain ⟨r', hr'⟩ : ∃ r', rows.find? (fun x => key x = key r) = some r' := by
    rw [← Option.isSome_iff_exists, List.find?_isSome]
    exact ⟨r, hr, by simp⟩
  rw [hr']
  have hkey : key r' = key r := by simpa using List.find?_some hr'
  rw [List.inj_on_of_nodup_map hnodup (List.mem_of_find?_eq_some hr') hr hkey]

/-! ### One row -/

section ReplaceRow

variable [DecidableEq β] {key : α → β} {r r' : α} {rows : List α}

/-- The row with the key of `r'` becomes `r'`. -/
def replaceRow (key : α → β) (r' : α) (rows : List α) : List α :=
  updateWhere (fun r => key r = key r') (fun _ => r') rows

theorem mem_replaceRow {s : α} (hs : s ∈ replaceRow key r' rows) :
    s = r' ∨ (s ∈ rows ∧ key s ≠ key r') := by
  obtain ⟨s₀, hs₀, rfl⟩ := mem_updateWhere.mp hs
  by_cases hkey : key s₀ = key r'
  · rw [decide_eq_true hkey, if_pos rfl]
    exact .inl rfl
  · rw [decide_eq_false hkey, if_neg Bool.false_ne_true]
    exact .inr ⟨hs₀, hkey⟩

theorem mem_replaceRow_self (hr : r ∈ rows) (hkey : key r' = key r) : r' ∈ replaceRow key r' rows := by
  refine mem_updateWhere.mpr ⟨r, hr, ?_⟩
  rw [decide_eq_true hkey.symm, if_pos rfl]

theorem mem_replaceRow_of_ne {s : α} (hs : s ∈ rows) (hkey : key s ≠ key r') :
    s ∈ replaceRow key r' rows := by
  refine mem_updateWhere.mpr ⟨s, hs, ?_⟩
  rw [decide_eq_false hkey, if_neg Bool.false_ne_true]

/-- What the row and the one that replaces it agree on. -/
theorem map_replaceRow {γ : Type*} {g : α → γ} (hnodup : (rows.map key).Nodup) (hr : r ∈ rows)
    (hkey : key r' = key r) (hg : g r' = g r) : (replaceRow key r' rows).map g = rows.map g := by
  rw [replaceRow, updateWhere, List.map_map]
  refine List.map_congr_left fun s hs => ?_
  simp only [Function.comp]
  by_cases hs' : key s = key r'
  · rw [decide_eq_true hs', if_pos rfl, hg, List.inj_on_of_nodup_map hnodup hs hr (hs'.trans hkey)]
  · rw [decide_eq_false hs', if_neg Bool.false_ne_true]

theorem find?_replaceRow (i : β) : (replaceRow key r' rows).find? (key · = i) =
    (rows.find? (key · = i)).map fun s => if key r' = i then r' else s := by
  induction rows with
  | nil => rfl
  | cons s rest ih =>
      rw [replaceRow, updateWhere, List.map_cons]
      rw [replaceRow, updateWhere] at ih
      by_cases hs : key s = key r'
      · by_cases hi : key r' = i
        · simp [hs, hi]
        · simpa [hs, hi] using ih
      · by_cases hi : key s = i
        · subst hi
          have hne : ¬ key r' = key s := fun heq => hs heq.symm
          simp [hs, hne]
        · simpa [hs, hi] using ih

/-- The row itself. -/
theorem find?_replaceRow_self (key : α → β) {i : β} (hkey : key r' = i)
    (hr : rows.find? (key · = i) = some r) : (replaceRow key r' rows).find? (key · = i) = some r' := by
  rw [find?_replaceRow, hr, Option.map_some, if_pos hkey]

theorem find?_replaceRow_of_ne (key : α → β) {i : β} (hi : key r' ≠ i) :
    (replaceRow key r' rows).find? (key · = i) = rows.find? (key · = i) := by
  rw [find?_replaceRow]
  simp only [if_neg hi, Option.map_id']

/-- A row that replaces itself. -/
theorem replaceRow_self (hnodup : (rows.map key).Nodup) (hr : r ∈ rows) : replaceRow key r rows = rows := by
  rw [replaceRow, updateWhere]
  refine (List.map_congr_left fun s hs => ?_).trans (List.map_id' rows)
  by_cases hs' : key s = key r
  · rw [decide_eq_true hs', if_pos rfl, List.inj_on_of_nodup_map hnodup hs hr hs']
  · rw [decide_eq_false hs', if_neg Bool.false_ne_true]

theorem replaceRow_of_not_mem (h : ∀ s ∈ rows, key s ≠ key r') : replaceRow key r' rows = rows :=
  updateWhere_eq_self fun s hs => decide_eq_false (h s hs)

/-- The last row of those that are selected. -/
theorem replaceRow_concat {l : List α} (hnodup : ((l ++ [r]).map key).Nodup) (hkey : key r' = key r) :
    replaceRow key r' (l ++ [r]) = l ++ [r'] := by
  have hne : ∀ s ∈ l, key s ≠ key r' := by
    intro s hs heq
    rw [List.map_append] at hnodup
    exact (List.nodup_append.mp hnodup).2.2 (key s) (List.mem_map_of_mem hs) (key r)
      (List.mem_singleton_self _) (heq.trans hkey)
  rw [replaceRow, updateWhere, List.map_append]
  congr 1
  · exact replaceRow_of_not_mem hne
  · rw [List.map_singleton, decide_eq_true hkey.symm, if_pos rfl]

/-- What is selected among the rows, by something that the row and the one that replaces it agree on. -/
theorem filter_replaceRow {q : α → Bool} (hnodup : (rows.map key).Nodup) (hr : r ∈ rows)
    (hkey : key r' = key r) (hq : q r' = q r) :
    (replaceRow key r' rows).filter q = replaceRow key r' (rows.filter q) := by
  rw [replaceRow, updateWhere, List.filter_map, replaceRow, updateWhere]
  congr 1
  refine List.filter_congr fun s hs => ?_
  simp only [Function.comp]
  by_cases hs' : key s = key r'
  · rw [decide_eq_true hs', if_pos rfl, hq, List.inj_on_of_nodup_map hnodup hs hr (hs'.trans hkey)]
  · rw [decide_eq_false hs', if_neg Bool.false_ne_true]

/-- An update that touches one row. -/
theorem updateWhere_eq_replaceRow {p : α → Bool} {f : α → α} (hnodup : (rows.map key).Nodup)
    (hr : r ∈ rows) (honly : ∀ s ∈ rows, p s = true → key s = key r)
    (hkey : key (f r) = key r) :
    updateWhere p f rows = replaceRow key (if p r then f r else r) rows := by
  have hsame : key (if p r then f r else r) = key r := by
    split
    · exact hkey
    · rfl
  refine List.map_congr_left fun s hs => ?_
  rw [hsame]
  by_cases hs' : key s = key r
  · rw [List.inj_on_of_nodup_map hnodup hs hr hs']
    exact (if_pos (decide_eq_true rfl)).symm
  · have hp : ¬ p s = true := fun hp => hs' (honly s hs hp)
    rw [if_neg hp]
    exact (if_neg fun hsame => hs' (of_decide_eq_true hsame)).symm

end ReplaceRow

end Lib
