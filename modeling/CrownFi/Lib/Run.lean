import Mathlib.Algebra.Order.Ring.Int
import Mathlib.Data.List.Basic

/-!
# CrownFi.Lib.Run

**Finite runs of a labelled transition relation.** A development states what
one step does (`step : σ → α → σ → Prop`) and proves its invariants about one
step; this module carries them to whole runs, once.

`Run step s as t` keeps the labels `as` in the order they were taken, so that a
property of a run can speak about *which* steps it contains, not only about its
two ends.
-/

namespace Lib

/-- A side condition that holds whatever it is about: a rule leaves it to instances, so that it is
not spelled out where nothing is demanded. -/
class Evident (p : Prop) : Prop where
  holds : p

instance : Evident True := ⟨trivial⟩

instance {ι : Sort*} {p : ι → Prop} [h : ∀ i, Evident (p i)] : Evident (∀ i, p i) := ⟨fun i => (h i).holds⟩

variable {σ α : Type*} {step : σ → α → σ → Prop}

/-- A finite run from its first state to its last, with the labels of its steps. -/
inductive Run (step : σ → α → σ → Prop) : σ → List α → σ → Prop
  | refl (s : σ) : Run step s [] s
  | tail {s t u : σ} {as : List α} {a : α} :
      Run step s as t → step t a u → Run step s (as ++ [a]) u

namespace Run

theorem single {s t : σ} {a : α} (h : step s a t) : Run step s [a] t := by
  simpa using Run.tail (Run.refl s) h

/-- A run without steps. -/
theorem nil {s t : σ} (h : Run step s [] t) : t = s := by
  generalize hnone : ([] : List α) = as at h
  cases h with
  | refl => rfl
  | tail _ _ => simp at hnone

/-- The last step of a run. -/
theorem last {s u : σ} {as : List α} {a : α} (h : Run step s (as ++ [a]) u) :
    ∃ t, Run step s as t ∧ step t a u := by
  generalize hall : as ++ [a] = all at h
  cases h with
  | refl => simp at hall
  | tail hrun hstep =>
      obtain ⟨rfl, hlast⟩ := List.append_inj' hall rfl
      obtain rfl := List.singleton_inj.mp hlast
      exact ⟨_, hrun, hstep⟩

theorem append {s t u : σ} {as bs : List α} (h : Run step s as t) (h' : Run step t bs u) :
    Run step s (as ++ bs) u := by
  induction h' with
  | refl => simpa using h
  | tail _ hstep ih => rw [← List.append_assoc]; exact .tail ih hstep

/-- A run of a step function, taken where it is allowed. -/
theorem of_foldlM {f : σ → α → Option σ} {allowed : σ → α → Prop} [∀ s a, Decidable (allowed s a)]
    {s t : σ} {as : List α} (h : as.foldlM (fun s a => if allowed s a then f s a else none) s = some t) :
    Run (fun s a t => f s a = some t ∧ allowed s a) s as t := by
  induction as generalizing s with
  | nil =>
      obtain rfl : s = t := Option.some.inj h
      exact .refl s
  | cons a as ih =>
      rw [List.foldlM_cons] at h
      obtain ⟨u, hstep, hrest⟩ := Option.bind_eq_some_iff.mp h
      split at hstep
      · rename_i hallowed
        exact append (single ⟨hstep, hallowed⟩) (ih hrest)
      · cases hstep

/-- More steps, more runs. -/
theorem mono {step' : σ → α → σ → Prop} (hstep : ∀ s a t, step s a t → step' s a t) {s t : σ}
    {as : List α} (h : Run step s as t) : Run step' s as t := by
  induction h with
  | refl => exact .refl _
  | tail _ hst ih => exact .tail ih (hstep _ _ _ hst)

/-- A run all of whose labels have a property. -/
theorem restrict {p : α → Prop} {s t : σ} {as : List α} (h : Run step s as t) (hp : ∀ a ∈ as, p a) :
    Run (fun s a t => step s a t ∧ p a) s as t := by
  induction h with
  | refl => exact .refl _
  | tail _ hst ih =>
      have hlast := hp _ (List.mem_append_right _ (List.mem_singleton_self _))
      exact .tail (ih fun a ha => hp a (List.mem_append_left _ ha)) ⟨hst, hlast⟩

/-- The invariant rule for facts about the labels taken so far. -/
theorem history {P : List α → σ → Prop} {s : σ} (hs : P [] s)
    (hstep : ∀ as t a u, Run step s as t → P as t → step t a u → P (as ++ [a]) u) {t : σ} {as : List α}
    (h : Run step s as t) : P as t := by
  induction h with
  | refl => exact hs
  | tail hrun hst ih => exact hstep _ _ _ _ hrun ih hst

/-- The **invariant rule**: what every step preserves holds at the end of a run
that starts with it. -/
theorem invariant {P : σ → Prop} (hstep : ∀ s a t, P s → step s a t → P t)
    {s t : σ} {as : List α} (h : Run step s as t) (hs : P s) : P t := by
  induction h with
  | refl => exact hs
  | tail _ hst ih => exact hstep _ _ _ ih hst

/-- The **two-state rule**: a preorder that contains every step taken from an
invariant state relates the two ends of a run. -/
theorem relation {P : σ → Prop} {R : σ → σ → Prop} (hP : ∀ s a t, P s → step s a t → P t)
    (hrefl : ∀ s, R s s) (htrans : ∀ s t u, R s t → R t u → R s u)
    (hR : ∀ s a t, P s → step s a t → R s t)
    {s t : σ} {as : List α} (h : Run step s as t) (hs : P s) : R s t := by
  induction h with
  | refl => exact hrefl _
  | tail hrun hst ih => exact htrans _ _ _ ih (hR _ _ _ (hrun.invariant hP hs) hst)

end Run

end Lib
