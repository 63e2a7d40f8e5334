import Mathlib.Algebra.Order.Ring.Int
import Mathlib.Data.List.Nodup
import Mathlib.Data.List.Count

/-!
# CrownFi.Lib.Counters

**Counters kept one at a time.** A table of counters has an entry for every key that was ever counted,
and `bump` counts one more. `Counts cs seen` says that the table is what a count of the whole list
would give: each key has one entry with the number of its occurrences. It holds of the empty table,
one more bump keeps it, and it says which entries there are, in whatever order they stand.
-/

namespace Lib

variable {κ : Type*} [DecidableEq κ] {cs : List (κ × Nat)} {seen : List κ} {k : κ}

/-- One more of a key; its entry is made if there is none. -/
def bump (k : κ) : List (κ × Nat) → List (κ × Nat)
  | [] => [(k, 1)]
  | c :: rest => if c.1 = k then (c.1, c.2 + 1) :: rest else c :: bump k rest

/-- The table counts the list. -/
structure Counts (cs : List (κ × Nat)) (seen : List κ) : Prop where
  nodup : (cs.map Prod.fst).Nodup
  mem_iff : ∀ k, k ∈ cs.map Prod.fst ↔ k ∈ seen
  count : ∀ c ∈ cs, c.2 = seen.count c.1

theorem bump_of_not_mem (h : k ∉ cs.map Prod.fst) : bump k cs = cs ++ [(k, 1)] := by
  induction cs with
  | nil => rfl
  | cons c rest ih =>
      rw [List.map_cons, List.mem_cons, not_or] at h
      rw [bump, if_neg (Ne.symm h.1), ih h.2, List.cons_append]

theorem map_fst_bump (k : κ) (cs : List (κ × Nat)) :
    (bump k cs).map Prod.fst = if k ∈ cs.map Prod.fst then cs.map Prod.fst else cs.map Prod.fst ++ [k] := by
  induction cs with
  | nil => rfl
  | cons c rest ih =>
      by_cases hc : c.1 = k
      · simp [bump, hc]
      · rw [bump, if_neg hc, List.map_cons, ih, List.map_cons]
        by_cases hk : k ∈ rest.map Prod.fst
        · rw [if_pos hk, if_pos (List.mem_cons_of_mem _ hk)]
        · rw [if_neg hk, if_neg (by simp [Ne.symm hc, hk]), List.cons_append]

/-- An entry after a bump is an entry of before, or that of the key. -/
theorem mem_bump (hnodup : (cs.map Prod.fst).Nodup) {c : κ × Nat} :
    c ∈ bump k cs → c ∈ cs ∧ c.1 ≠ k ∨ c = (k, 1) ∧ k ∉ cs.map Prod.fst ∨ ∃ n, (k, n) ∈ cs ∧ c = (k, n + 1) := by
  induction cs with
  | nil => exact fun h => .inr (.inl ⟨List.mem_singleton.mp h, List.not_mem_nil⟩)
  | cons d rest ih =>
      obtain ⟨hd, hrest⟩ := List.nodup_cons.mp hnodup
      intro hc
      by_cases hdk : d.1 = k
      · rw [bump, if_pos hdk] at hc
        rcases List.mem_cons.mp hc with rfl | hc
        · exact .inr (.inr ⟨d.2, List.mem_cons.mpr (.inl (by rw [← hdk])), by rw [← hdk]⟩)
        · refine .inl ⟨List.mem_cons_of_mem _ hc, fun heq => hd ?_⟩
          exact hdk.trans heq.symm ▸ List.mem_map_of_mem hc
      · rw [bump, if_neg hdk] at hc
        rcases List.mem_cons.mp hc with rfl | hc
        · exact .inl ⟨List.mem_cons_self, hdk⟩
        · rcases ih hrest hc with ⟨hmem, hne⟩ | ⟨rfl, hnot⟩ | ⟨n, hn, rfl⟩
          · exact .inl ⟨List.mem_cons_of_mem _ hmem, hne⟩
          · exact .inr (.inl ⟨rfl, by simp [Ne.symm hdk, hnot]⟩)
          · exact .inr (.inr ⟨n, List.mem_cons_of_mem _ hn, rfl⟩)

namespace Counts

theorem nil : Counts ([] : List (κ × Nat)) [] where
  nodup := List.nodup_nil
  mem_iff _ := Iff.rfl
  count _ h := absurd h List.not_mem_nil

/-- **One more.** -/
theorem bump (h : Counts cs seen) (k : κ) : Counts (Lib.bump k cs) (seen ++ [k]) where
  nodup := by
    rw [map_fst_bump]
    split
    · exact h.nodup
    · exact List.concat_eq_append ▸ h.nodup.concat ‹_›
  mem_iff j := by
    rw [map_fst_bump, List.mem_append, List.mem_singleton, ← h.mem_iff]
    split
    · constructor
      · exact .inl
      · rintro (hj | rfl)
        · exact hj
        · assumption
    · rw [List.mem_append, List.mem_singleton]
  count c hc := by
    rw [List.count_append, List.count_singleton]
    rcases mem_bump h.nodup hc with ⟨hc, hne⟩ | ⟨rfl, hnot⟩ | ⟨n, hn, rfl⟩
    · rw [h.count c hc]
      simp [Ne.symm hne]
    · rw [h.mem_iff] at hnot
      simp [List.count_eq_zero_of_not_mem hnot]
    · have hcount : n = seen.count k := h.count _ hn
      simp [hcount]

theorem pos (h : Counts cs seen) {c : κ × Nat} (hc : c ∈ cs) : 0 < c.2 := by
  rw [h.count c hc]
  exact List.count_pos_iff.mpr ((h.mem_iff c.1).mp (List.mem_map_of_mem hc))

/-- The entries are the keys that occur, with their numbers. -/
theorem mem_entry_iff (h : Counts cs seen) {c : κ × Nat} : c ∈ cs ↔ 0 < c.2 ∧ c.2 = seen.count c.1 := by
  constructor
  · exact fun hc => ⟨h.pos hc, h.count c hc⟩
  · rintro ⟨hpos, hcount⟩
    have hseen : c.1 ∈ seen := List.count_pos_iff.mp (hcount ▸ hpos)
    obtain ⟨d, hd, hkey⟩ := List.mem_map.mp ((h.mem_iff c.1).mpr hseen)
    have hvalue : d.2 = c.2 := by rw [h.count d hd, hkey, hcount]
    exact Prod.ext hkey hvalue ▸ hd

/-- Together the counters are as many as were counted. -/
theorem sum (h : Counts cs seen) : (cs.map Prod.snd).sum = seen.length := by
  induction cs generalizing seen with
  | nil =>
      have hnone : seen = [] := List.eq_nil_iff_forall_not_mem.mpr fun k hk => by simpa using (h.mem_iff k).mpr hk
      rw [hnone]
      rfl
  | cons c rest ih =>
      obtain ⟨hc, hrest⟩ := List.nodup_cons.mp h.nodup
      -- without the first key
      have hothers : Counts rest (seen.filter (· ≠ c.1)) := {
        nodup := hrest
        mem_iff := fun k => by
          have hk := h.mem_iff k
          rw [List.map_cons, List.mem_cons] at hk
          rw [List.mem_filter, decide_eq_true_eq, ← hk]
          constructor
          · exact fun hmem => ⟨.inr hmem, fun heq => hc (heq ▸ hmem)⟩
          · rintro ⟨heq | hmem, hne⟩
            · exact absurd heq hne
            · exact hmem
        count := fun d hd => by
          have hne : d.1 ≠ c.1 := fun heq => hc (heq ▸ List.mem_map_of_mem hd)
          rw [List.count_filter (by simpa using hne)]
          exact h.count d (List.mem_cons_of_mem _ hd) }
      rw [List.map_cons, List.sum_cons, ih hothers, h.count c List.mem_cons_self, List.count_eq_length_filter]
      have hsplit := List.length_eq_length_filter_add (l := seen) (· == c.1)
      rw [hsplit]
      congr 2
      refine List.filter_congr fun k _ => ?_
      by_cases hk : k = c.1
      · simp [hk]
      · simp [hk]

end Counts

end Lib
