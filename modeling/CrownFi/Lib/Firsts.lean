import Mathlib.Algebra.Order.Ring.Int
import Mathlib.Data.List.Nodup

/-!
# CrownFi.Lib.Firsts

**The first entry of each key.** A pass over a list that skips what has no key, and what has a key
that it has met before. The keys that are kept are those of the list without repetitions, in the
order in which they come first, and each is kept with the entry that a search finds.
-/

namespace Lib

variable {α κ : Type*} [DecidableEq κ] {key : α → Option κ}

/-- The entries with a new key, after the keys of `seen`. -/
def firsts (key : α → Option κ) : List κ → List α → List (κ × α)
  | _, [] => []
  | seen, a :: rest =>
      match key a with
      | none => firsts key seen rest
      | some k => if k ∈ seen then firsts key seen rest else (k, a) :: firsts key (k :: seen) rest

variable (key) in
theorem firsts_keys (seen : List κ) (as : List α) :
    (firsts key seen as).map (·.1) = ((as.filterMap key).filter (· ∉ seen)).eraseDups := by
  induction as generalizing seen with
  | nil => rfl
  | cons a rest ih =>
      rw [firsts, List.filterMap_cons]
      cases key a with
      | none => exact ih seen
      | some k =>
          dsimp only
          by_cases hk : k ∈ seen
          · rw [if_pos hk, List.filter_cons_of_neg (by simpa using hk)]
            exact ih seen
          · rw [if_neg hk, List.map_cons, ih, List.filter_cons_of_pos (by simpa using hk),
              List.eraseDups_cons, List.filter_filter]
            congr 3
            funext b
            rw [Bool.eq_iff_iff]
            simp [not_or]

/-- What is kept is what a search finds. -/
theorem find_of_mem_firsts {seen : List κ} {as : List α} {k : κ} {a : α}
    (h : (k, a) ∈ firsts key seen as) : k ∉ seen ∧ as.find? (key · = some k) = some a := by
  induction as generalizing seen with
  | nil => cases h
  | cons b rest ih =>
      rw [firsts] at h
      cases hb : key b with
      | none =>
          rw [hb] at h
          rw [List.find?_cons_of_neg (by simp [hb])]
          exact ih h
      | some k' =>
          simp only [hb] at h
          split at h
          · rename_i hseen
            obtain ⟨hnot, hfind⟩ := ih h
            refine ⟨hnot, ?_⟩
            rw [List.find?_cons_of_neg (by simpa [hb] using fun heq : k' = k => hnot (heq ▸ hseen))]
            exact hfind
          · rename_i hnew
            rcases List.mem_cons.mp h with heq | h
            · obtain ⟨rfl, rfl⟩ := Prod.mk.inj heq
              exact ⟨hnew, List.find?_cons_of_pos (by simp [hb])⟩
            · obtain ⟨hnot, hfind⟩ := ih h
              rw [List.mem_cons, not_or] at hnot
              refine ⟨hnot.2, ?_⟩
              rw [List.find?_cons_of_neg (by simpa [hb] using Ne.symm hnot.1)]
              exact hfind

theorem nodup_eraseDups (ks : List κ) : ks.eraseDups.Nodup := by
  induction hn : ks.length using Nat.strongRecOn generalizing ks with
  | ind n ih =>
      cases ks with
      | nil => exact .nil
      | cons k rest =>
          rw [List.eraseDups_cons, List.nodup_cons]
          have hlt : (rest.filter fun k' => !k' == k).length < n := by
            rw [← hn, List.length_cons]
            exact Nat.lt_succ_of_le (List.length_filter_le _ rest)
          exact ⟨by simp, ih _ hlt _ rfl⟩

/-- Where no key comes twice and every entry has one, all are kept. -/
theorem firsts_of_nodup {seen : List κ} {as : List α} {keyOf : α → κ} (hkey : ∀ a ∈ as, key a = some (keyOf a))
    (hnodup : (as.map keyOf).Nodup) (hnew : ∀ a ∈ as, keyOf a ∉ seen) :
    firsts key seen as = as.map fun a => (keyOf a, a) := by
  induction as generalizing seen with
  | nil => rfl
  | cons a rest ih =>
      obtain ⟨hfirst, hrest⟩ := List.forall_mem_cons.mp hkey
      obtain ⟨hhead, htail⟩ := List.nodup_cons.mp (List.map_cons ▸ hnodup)
      obtain ⟨hnewa, hnewrest⟩ := List.forall_mem_cons.mp hnew
      rw [firsts, hfirst]
      simp only [if_neg hnewa, List.map_cons]
      congr 1
      refine ih hrest htail fun b hb => ?_
      rw [List.mem_cons, not_or]
      exact ⟨fun heq => hhead (heq ▸ List.mem_map_of_mem hb), hnewrest b hb⟩

end Lib
