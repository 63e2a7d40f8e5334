import CrownFi.Lib.Run

/-!
# CrownFi.Lib.Histories

**Values read off a history.** A history is the list of what was done, oldest first. A register that
every write replaces holds the last value that was written (`latest`), and a register that only the first
write fills holds the first one. Both are functions of the history alone: `Run.latest` and
`Run.earliest` carry the two rules for one step to whole runs. `withPast` pairs each entry of a
history with what came before it, for what an entry means only there.
-/

namespace Lib

variable {σ α β γ : Type*} {f : α → Option β} {history : List α}

/-- The last value that an entry of the history gives. -/
def latest (f : α → Option β) (history : List α) : Option β := history.reverse.findSome? f

@[simp] theorem latest_nil : latest f [] = none := rfl

@[simp] theorem latest_concat {a : α} : latest f (history ++ [a]) = (f a).or (latest f history) := by
  rw [latest, List.reverse_concat, List.findSome?_cons]
  cases f a <;> rfl

/-- The last value stands at an entry after which no other gives one. -/
theorem latest_eq_some {b : β} :
    latest f history = some b ↔
      ∃ before a after, history = before ++ a :: after ∧ f a = some b ∧ ∀ c ∈ after, f c = none := by
  rw [latest, List.findSome?_eq_some_iff]
  constructor
  · rintro ⟨newer, a, older, hsplit, ha, hnewer⟩
    refine ⟨older.reverse, a, newer.reverse, ?_, ha, fun c hc => hnewer c (List.mem_reverse.mp hc)⟩
    calc history = (newer ++ a :: older).reverse := by rw [← hsplit, List.reverse_reverse]
      _ = older.reverse ++ a :: newer.reverse := by simp
  · rintro ⟨before, a, after, rfl, ha, hafter⟩
    refine ⟨after.reverse, a, before.reverse, by simp, ha, fun c hc => ?_⟩
    exact hafter c (List.mem_reverse.mp hc)

theorem latest_eq_none : latest f history = none ↔ ∀ a ∈ history, f a = none := by
  rw [latest, List.findSome?_eq_none_iff]
  exact ⟨fun h a ha => h a (List.mem_reverse.mpr ha), fun h a ha => h a (List.mem_reverse.mp ha)⟩

/-- What holds of every value that an entry gives holds of the last one. -/
theorem latest_of_forall {P : β → Prop} {b : β} (h : latest f history = some b)
    (hP : ∀ a ∈ history, ∀ c, f a = some c → P c) : P b := by
  obtain ⟨before, a, after, rfl, ha, -⟩ := latest_eq_some.mp h
  exact hP a (List.mem_append_right _ List.mem_cons_self) b ha

/-! ### Entries with their past -/

/-- Each entry with all that came before it. -/
def withPast (past : List α) : List α → List (List α × α)
  | [] => []
  | a :: rest => (past, a) :: withPast (past ++ [a]) rest

@[simp] theorem withPast_nil {past : List α} : withPast past ([] : List α) = [] := rfl

theorem withPast_concat {past : List α} {a : α} :
    withPast past (history ++ [a]) = withPast past history ++ [(past ++ history, a)] := by
  induction history generalizing past with
  | nil => simp [withPast]
  | cons b rest ih => simp [withPast, ih]

/-! ### Registers along a run -/

namespace Run

variable {step : σ → α → σ → Prop} {P : σ → Prop} {s t : σ} {as : List α}

/-- The step at an entry, between what came before it and what came after. -/
theorem split {before after : List α} {a : α} (h : Run step s (before ++ a :: after) t) :
    ∃ u v, Run step s before u ∧ step u a v ∧ Run step v after t := by
  generalize hall : before ++ a :: after = all at h
  induction h generalizing after with
  | refl => simp at hall
  | tail hrun hst ih =>
      rcases List.eq_nil_or_concat after with rfl | ⟨rest, c, rfl⟩
      · obtain ⟨rfl, hlast⟩ := List.append_inj' hall rfl
        obtain rfl := List.singleton_inj.mp hlast
        exact ⟨_, _, hrun, hst, .refl _⟩
      · rw [List.concat_eq_append, ← List.cons_append, ← List.append_assoc] at hall
        obtain ⟨has, hlast⟩ := List.append_inj' hall rfl
        obtain rfl := List.singleton_inj.mp hlast
        obtain ⟨u, v, hu, hv, hrest⟩ := ih has
        refine ⟨u, v, hu, hv, ?_⟩
        rw [List.concat_eq_append]
        exact hrest.tail hst

/-- A run seen through a projection of its states and labels. -/
theorem project {τ β : Type*} {step' : τ → β → τ → Prop} (f : σ → τ) (g : α → β) (hP : ∀ s a t, P s → step s a t → P t)
    (hstep : ∀ s a t, P s → step s a t → step' (f s) (g a) (f t)) (h : Run step s as t) (hs : P s) :
    Run step' (f s) (as.map g) (f t) := by
  induction h with
  | refl => exact .refl _
  | tail hrun hst ih =>
      rw [List.map_append, List.map_singleton]
      exact ih.tail (hstep _ _ _ (hrun.invariant hP hs) hst)

/-- The run of a history that can be executed to its end. -/
theorem of_execAll {ε : Type*} {exec : σ → α → Except ε σ} (h : as.foldlM exec s = .ok t) :
    Run (fun s a t => exec s a = .ok t) s as t := by
  induction as generalizing s with
  | nil =>
      obtain rfl : s = t := Except.ok.inj h
      exact .refl s
  | cons a as ih =>
      rw [List.foldlM_cons] at h
      cases hexec : exec s a with
      | error e =>
          rw [hexec] at h
          cases h
      | ok u =>
          rw [hexec] at h
          exact (single hexec).append (ih h)

/-- The **last write** stands. -/
theorem latest (read : σ → Option β) (hP : ∀ s a t, P s → step s a t → P t)
    (hstep : ∀ s a t, P s → step s a t → read t = (f a).or (read s)) (h : Run step s as t) (hs : P s) :
    read t = (Lib.latest f as).or (read s) := by
  induction h with
  | refl => rfl
  | tail hrun hst ih => rw [hstep _ _ _ (hrun.invariant hP hs) hst, ih, latest_concat, Option.or_assoc]

/-- The **first write** stands. -/
theorem earliest (read : σ → Option β) (hstep : ∀ s a t, step s a t → read t = (read s).or (f a))
    (h : Run step s as t) :
    read t = (read s).or (as.findSome? f) := by
  induction h with
  | refl => rw [List.findSome?_nil, Option.or_none]
  | tail _ hst ih =>
      rw [hstep _ _ _ hst, ih, Option.or_assoc, List.findSome?_append, List.findSome?_singleton]

/-- A log to which every step adds what its entry means after its past. -/
theorem logged (log : σ → List γ) (entries : List α → α → List γ)
    (hstep : ∀ as t a u, Run step s as t → step t a u → log u = log t ++ entries as a)
    (h : Run step s as t) :
    log t = log s ++ (withPast [] as).flatMap fun p => entries p.1 p.2 := by
  induction h with
  | refl => simp
  | tail hrun hst ih => simp [hstep _ _ _ _ hrun hst, ih, withPast_concat]

end Run

end Lib
