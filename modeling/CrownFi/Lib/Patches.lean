import Mathlib.Algebra.Order.Ring.Int
import Mathlib.Data.List.Basic

/-!
# CrownFi.Lib.Patches

**Patches of one row.** A patch sets some of a row's columns. A writer that reads the row, lays its
patch over what it read and writes all the columns back, writes old values, too: whoever has set
another column in between has set it for nothing. `held_overlay_iff` says when the columns that were
set by patches which do not overlap survive one more writer.
-/

namespace Lib

variable {φ : Type*} {β : φ → Type*}

/-- A row, by its columns. -/
abbrev Row (β : φ → Type*) := (f : φ) → β f

/-- What is set, and to what. -/
abbrev Patch (β : φ → Type*) := (f : φ) → Option (β f)

namespace Patch

/-- The row with the patch over it. -/
def overlay (p : Patch β) (row : Row β) : Row β := fun f => (p f).getD (row f)

/-- No column is set by both. -/
def Apart (p q : Patch β) : Prop := ∀ f, p f = none ∨ q f = none

/-- The row has all that these patches set. -/
def Held (row : Row β) (ps : List (Patch β)) : Prop := ∀ p ∈ ps, ∀ f v, p f = some v → row f = v

variable {p : Patch β} {ps : List (Patch β)} {row snapshot : Row β} {f : φ}

@[simp] theorem overlay_set {v : β f} (h : p f = some v) : p.overlay row f = v := by
  simp [overlay, h]

@[simp] theorem overlay_unset (h : p f = none) : p.overlay row f = row f := by
  simp [overlay, h]

@[simp] theorem held_nil : Held row [] := nofun

theorem held_append {qs : List (Patch β)} : Held row (ps ++ qs) ↔ Held row ps ∧ Held row qs :=
  List.forall_mem_append

/-- A patch is held where it was laid. -/
theorem held_self : Held (p.overlay row) [p] := by
  intro q hq f v hv
  obtain rfl := List.mem_singleton.mp hq
  exact overlay_set hv

/-- **What a writer preserves.** The columns that others have set survive exactly if the writer had
read them as they are. -/
theorem held_overlay_iff (hheld : Held row ps) (hapart : ∀ q ∈ ps, q.Apart p) :
    Held (p.overlay snapshot) (ps ++ [p]) ↔
      ∀ q ∈ ps, ∀ f, q f ≠ none → snapshot f = row f := by
  have hunset {q : Patch β} (hq : q ∈ ps) {f : φ} (hf : q f ≠ none) : p f = none :=
    (hapart q hq f).resolve_left hf
  rw [held_append, and_iff_left held_self]
  constructor
  · intro hnow q hq f hf
    obtain ⟨v, hv⟩ := Option.ne_none_iff_exists'.mp hf
    have hsame := hnow q hq f v hv
    rw [overlay_unset (hunset hq hf)] at hsame
    rw [hsame, hheld q hq f v hv]
  · intro hread q hq f v hv
    have hf : q f ≠ none := by simp [hv]
    rw [overlay_unset (hunset hq hf), hread q hq f hf]
    exact hheld q hq f v hv

/-- A writer that had read the columns it leaves alone as they are. -/
theorem held_overlay (hheld : Held row ps) (hapart : ∀ q ∈ ps, q.Apart p)
    (hread : ∀ f, p f = none → snapshot f = row f) : Held (p.overlay snapshot) (ps ++ [p]) :=
  (held_overlay_iff hheld hapart).mpr fun q hq f hf => hread f ((hapart q hq f).resolve_left hf)

end Patch

end Lib
