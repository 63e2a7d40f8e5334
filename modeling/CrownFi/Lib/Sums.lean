import CrownFi.Lib.Statements
import Mathlib.Algebra.Order.Group.Int

/-!
# CrownFi.Lib.Sums

**Sums over the rows of a table.** `total weight rows` adds up a weight of each row; a `SUM` over
the rows that a condition selects is a total in which the other rows weigh nothing. An insert
adds the weight of its row, and an update changes the total by what it changes the weights of
the rows that it matches.
-/

namespace Lib

variable {α β : Type*} {weight weight' : α → Int} {rows : List α}

/-- The sum of a weight over the rows. -/
def total (weight : α → Int) (rows : List α) : Int := (rows.map weight).sum

@[simp] theorem total_nil : total weight [] = 0 := rfl

@[simp] theorem total_cons {r : α} : total weight (r :: rows) = weight r + total weight rows := by
  rw [total, List.map_cons, List.sum_cons, total]

@[simp] theorem total_append {rows' : List α} :
    total weight (rows ++ rows') = total weight rows + total weight rows' := by
  rw [total, List.map_append, List.sum_append, total, total]

theorem total_concat {r : α} : total weight (rows ++ [r]) = total weight rows + weight r := by
  rw [total_append, total_cons, total_nil, add_zero]

/-- A `SUM` over selected rows. -/
theorem sum_filter {p : α → Bool} {f : α → Int} :
    ((rows.filter p).map f).sum = total (fun r => if p r then f r else 0) rows := by
  induction rows with
  | nil => rfl
  | cons r rest ih =>
      by_cases hp : p r = true
      · rw [List.filter_cons_of_pos hp, List.map_cons, List.sum_cons, ih, total_cons, if_pos hp]
      · rw [List.filter_cons_of_neg hp, ih, total_cons, if_neg hp, zero_add]

theorem total_congr (h : ∀ r ∈ rows, weight r = weight' r) : total weight rows = total weight' rows := by
  rw [total, List.map_congr_left h, total]

theorem total_zero (h : ∀ r ∈ rows, weight r = 0) : total weight rows = 0 := by
  induction rows with
  | nil => rfl
  | cons r rest ih =>
      rw [total_cons, h r List.mem_cons_self, ih fun s hs => h s (List.mem_cons_of_mem _ hs), add_zero]

theorem total_mono (h : ∀ r ∈ rows, weight r ≤ weight' r) : total weight rows ≤ total weight' rows := by
  induction rows with
  | nil => exact le_refl _
  | cons r rest ih =>
      rw [total_cons, total_cons]
      have hhead := h r List.mem_cons_self
      have htail := ih fun s hs => h s (List.mem_cons_of_mem _ hs)
      omega

/-- Rows that correspond, none of which weighs more than before. -/
theorem total_forall₂_le {R : α → α → Prop} {rows' : List α} (h : List.Forall₂ R rows rows')
    (hle : ∀ r ∈ rows, ∀ r', R r r' → weight r' ≤ weight r) : total weight rows' ≤ total weight rows := by
  induction h with
  | nil => exact le_refl _
  | @cons r r' _ _ hr _ ih =>
      rw [total_cons, total_cons]
      have hhead := hle r List.mem_cons_self r' hr
      have htail := ih fun s hs => hle s (List.mem_cons_of_mem _ hs)
      omega

theorem total_nonneg (h : ∀ r ∈ rows, 0 ≤ weight r) : 0 ≤ total weight rows := by
  induction rows with
  | nil => exact le_refl _
  | cons r rest ih =>
      rw [total_cons]
      have hhead := h r List.mem_cons_self
      have htail := ih fun s hs => h s (List.mem_cons_of_mem _ hs)
      omega

/-- A row weighs no more than all of them. -/
theorem total_le_of_mem (h : ∀ s ∈ rows, 0 ≤ weight s) {r : α} (hr : r ∈ rows) :
    weight r ≤ total weight rows := by
  induction rows with
  | nil => cases hr
  | cons s rest ih =>
      rw [total_cons]
      have hhead := h s List.mem_cons_self
      have hrest := total_nonneg fun t ht => h t (List.mem_cons_of_mem _ ht)
      rcases List.mem_cons.mp hr with rfl | hr
      · omega
      · have htail := ih (fun t ht => h t (List.mem_cons_of_mem _ ht)) hr
        omega

/-- Rows with different keys, each of which weighs no more than a row of the other table under its key. -/
theorem total_le_of_paired {γ : Type*} {weight' : β → Int} {rows' : List β} (key : α → γ) (key' : β → γ)
    (hnodup : (rows.map key).Nodup)
    (hpaired : ∀ r ∈ rows, ∃ r' ∈ rows', key' r' = key r ∧ weight r ≤ weight' r')
    (hpositive : ∀ r' ∈ rows', 0 ≤ weight' r') : total weight rows ≤ total weight' rows' := by
  induction rows generalizing rows' with
  | nil => exact total_nonneg hpositive
  | cons r rest ih =>
      obtain ⟨hr, hrest⟩ := List.nodup_cons.mp (List.map_cons ▸ hnodup)
      obtain ⟨r', hr', hkey, hle⟩ := hpaired r List.mem_cons_self
      obtain ⟨before, after, rfl⟩ := List.append_of_mem hr'
      -- the others are paired with other rows
      have hothers : total weight rest ≤ total weight' (before ++ after) := by
        refine ih hrest (fun s hs => ?_) fun s' hs' => hpositive s' ?_
        · obtain ⟨s', hs', hkey', hle'⟩ := hpaired s (List.mem_cons_of_mem _ hs)
          refine ⟨s', ?_, hkey', hle'⟩
          rcases List.mem_append.mp hs' with hs' | hs'
          · exact List.mem_append_left _ hs'
          · rcases List.mem_cons.mp hs' with rfl | hs'
            · exact absurd (List.mem_map.mpr ⟨s, hs, hkey'.symm.trans hkey⟩) hr
            · exact List.mem_append_right _ hs'
        · rcases List.mem_append.mp hs' with hs' | hs'
          · exact List.mem_append_left _ hs'
          · exact List.mem_append_right _ (List.mem_cons_of_mem _ hs')
      rw [total_append] at hothers
      rw [total_cons, total_append, total_cons]
      omega

theorem total_add : total (fun r => weight r + weight' r) rows = total weight rows + total weight' rows := by
  induction rows with
  | nil => rfl
  | cons r rest ih =>
      simp only [total_cons, ih]
      omega

/-! ### Updates -/

section Update

variable {p : α → Bool} {f : α → α}

/-- The total after an update, by the weights of the changed rows. -/
theorem total_updateWhere :
    total weight (updateWhere p f rows) = total (fun r => weight (if p r then f r else r)) rows := by
  rw [total, updateWhere, List.map_map, total]
  rfl

/-- An update that keeps the weights. -/
theorem total_updateWhere_eq (h : ∀ r ∈ rows, p r = true → weight (f r) = weight r) :
    total weight (updateWhere p f rows) = total weight rows := by
  rw [total_updateWhere]
  refine total_congr fun r hr => ?_
  split
  · exact h r hr ‹_›
  · rfl

/-- An update that raises no weight. -/
theorem total_updateWhere_le (h : ∀ r ∈ rows, p r = true → weight (f r) ≤ weight r) :
    total weight (updateWhere p f rows) ≤ total weight rows := by
  rw [total_updateWhere]
  refine total_mono fun r hr => ?_
  split
  · exact h r hr ‹_›
  · exact le_refl _

/-- An update of one row. -/
theorem total_updateWhere_key [DecidableEq β] {key : α → β} {i : β} {r : α}
    (hnodup : (rows.map key).Nodup) (hr : rows.find? (key · = i) = some r) (hp : p r = true)
    (honly : ∀ s ∈ rows, p s = true → key s = i) :
    total weight (updateWhere p f rows) = total weight rows - weight r + weight (f r) := by
  have hkey : key r = i := by simpa using List.find?_some hr
  have hmem := List.mem_of_find?_eq_some hr
  clear hr
  rw [total_updateWhere]
  induction rows with
  | nil => cases hmem
  | cons s rest ih =>
      obtain ⟨hs, hrest⟩ := List.nodup_cons.mp (List.map_cons ▸ hnodup)
      rw [total_cons, total_cons]
      rcases List.mem_cons.mp hmem with rfl | hmem
      · -- the other rows have other keys
        have hothers : total (fun t => weight (if p t then f t else t)) rest = total weight rest := by
          refine total_congr fun t ht => ?_
          rw [if_neg]
          intro hpt
          have heq : key t = key r := (honly t (List.mem_cons_of_mem _ ht) hpt).trans hkey.symm
          exact hs (heq ▸ List.mem_map_of_mem ht)
        rw [hothers, if_pos hp]
        omega
      · have hps : ¬ p s = true := by
          intro hps
          have heq : key s = key r := (honly s List.mem_cons_self hps).trans hkey.symm
          exact hs (heq ▸ List.mem_map_of_mem hmem)
        rw [ih hrest (fun t ht => honly t (List.mem_cons_of_mem _ ht)) hmem, if_neg hps]
        omega

/-- A row in place of another. -/
theorem total_replaceRow [DecidableEq β] {key : α → β} {r r' : α} (hnodup : (rows.map key).Nodup)
    (hr : r ∈ rows) (hkey : key r' = key r) :
    total weight (replaceRow key r' rows) = total weight rows - weight r + weight r' := by
  refine total_updateWhere_key (f := fun _ => r') hnodup (i := key r) (find?_key hnodup hr) ?_
    fun s _ hs => ?_
  · exact decide_eq_true hkey.symm
  · exact (of_decide_eq_true hs).trans hkey

end Update

/-! ### Tables -/

namespace Table

variable {σ κ ι α : Type} [DecidableEq ι] {T : Table σ κ ι α} {weight : α → Int} {p : α → Bool}
  {f : α → α} {view db : σ}

omit [DecidableEq ι] in
theorem total_add {r : α} :
    total weight (T.rows (T.add r db)) = total weight (T.rows db) + weight r := by
  rw [rows_add, total_concat]

/-- An `UPDATE` of one row that it saw as it is. -/
theorem total_modify_of_find {i : ι} {r : α} (hnodup : ((T.rows db).map T.key).Nodup)
    (hr : T.find db i = some r) (hview : T.find view i = some r) (hp : p r = true)
    (honly : ∀ s, p s = true → T.key s = i) :
    total weight (T.rows (T.modify p f view db)) =
      total weight (T.rows db) - weight r + weight (f r) := by
  have hmem : T.key r ∈ (T.matching p view).map T.key :=
    List.mem_map_of_mem (mem_matching.mpr ⟨(find_mem hview).1, hp⟩)
  rw [rows_modify]
  refine total_updateWhere_key hnodup hr ?_ fun s _ hs => ?_
  · rw [hp, decide_eq_true hmem, Bool.and_self]
  · exact honly s (Bool.and_eq_true_iff.mp hs).1

end Table

end Lib
