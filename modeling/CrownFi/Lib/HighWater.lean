import Mathlib.Algebra.Order.Ring.Int
import Mathlib.Data.List.Induction
import Mathlib.Data.List.Perm.Basic
import Mathlib.Order.Basic

/-!
# CrownFi.Lib.HighWater

**A mark that only moves up.** A mark is replaced by what comes when a test says that this is
newer. Where the test agrees with a rank on all that comes, the mark is the highest so far,
whatever the order; where it disagrees on two of them, there is an order in which it is not:
`highest_iff`.
-/

namespace Lib.HighWater

variable {α β : Type*} [LinearOrder β] (rank : α → β) (newer : α → α → Prop) [DecidableRel newer]

/-- The mark after `new` came. -/
def keep (old new : α) : α := if newer old new then new else old

/-- The mark after all of them. -/
def mark : List α → Option α
  | [] => none
  | x :: xs => some (xs.foldl (keep newer) x)

/-- The highest of them, by rank. -/
structure Highest (xs : List α) (a : α) : Prop where
  mem : a ∈ xs
  le : ∀ x ∈ xs, rank x ≤ rank a

/-- The test says of these two what the rank says. -/
structure Agrees (x y : α) : Prop where
  later : newer x y → rank x ≤ rank y
  earlier : ¬ newer x y → rank y ≤ rank x

variable {rank newer}

theorem keep_highest {xs : List α} {a x : α} (h : Highest rank xs a) (hagrees : Agrees rank newer a x) :
    Highest rank (xs ++ [x]) (keep newer a x) := by
  unfold keep
  split
  · rename_i hnewer
    refine ⟨by simp, fun y hy => ?_⟩
    rcases List.mem_append.mp hy with hy | hy
    · exact (h.le y hy).trans (hagrees.later hnewer)
    · rw [List.mem_singleton.mp hy]
  · rename_i holder
    refine ⟨List.mem_append_left _ h.mem, fun y hy => ?_⟩
    rcases List.mem_append.mp hy with hy | hy
    · exact h.le y hy
    · rw [List.mem_singleton.mp hy]
      exact hagrees.earlier holder

/-- What is kept in one step and in all of them. -/
theorem foldl_highest {xs : List α} (x : α)
    (hagrees : ∀ y ∈ x :: xs, ∀ z ∈ x :: xs, Agrees rank newer y z) :
    Highest rank (x :: xs) (xs.foldl (keep newer) x) := by
  induction xs using List.reverseRecOn with
  | nil => exact ⟨by simp, fun y hy => by rw [List.mem_singleton.mp hy]; rfl⟩
  | append_singleton xs z ih =>
      have hsub : ∀ y ∈ x :: xs, y ∈ x :: (xs ++ [z]) := fun y hy =>
        List.mem_append_left [z] hy
      have hmark := ih fun y hy w hw => hagrees y (hsub y hy) w (hsub w hw)
      rw [List.foldl_append]
      exact keep_highest hmark (hagrees _ (hsub _ hmark.mem) z (by simp))

theorem mark_mem {xs : List α} {a : α} (ha : mark newer xs = some a) : a ∈ xs := by
  cases xs with
  | nil => cases ha
  | cons x xs =>
      obtain rfl := Option.some.inj ha
      induction xs using List.reverseRecOn with
      | nil => exact List.mem_singleton_self x
      | append_singleton xs z ih =>
          rw [List.foldl_append, List.foldl_cons, List.foldl_nil]
          unfold keep
          split
          · simp
          · exact List.mem_append_left [z] (ih rfl)

theorem mark_highest {xs : List α} {a : α} (hagrees : ∀ y ∈ xs, ∀ z ∈ xs, Agrees rank newer y z)
    (ha : mark newer xs = some a) : Highest rank xs a := by
  cases xs with
  | nil => cases ha
  | cons x xs =>
      obtain rfl := Option.some.inj ha
      exact foldl_highest x hagrees

/-- The two that come first tell whether the test agrees on them. -/
theorem agrees_of_highest {x y : α} (h : Highest rank [x, y] (keep newer x y)) : Agrees rank newer x y := by
  constructor
  · intro hnewer
    have hx := h.le x (by simp)
    rwa [keep, if_pos hnewer] at hx
  · intro holder
    have hy := h.le y (by simp)
    rwa [keep, if_neg holder] at hy

omit [DecidableRel newer] in
theorem agrees_self (x : α) : Agrees rank newer x x := ⟨fun _ => le_rfl, fun _ => le_rfl⟩

/-- **The mark is the highest in every order** exactly where the test agrees with the rank. -/
theorem highest_iff [DecidableEq α] {xs : List α} :
    (∀ order : List α, order.Perm xs → ∀ first, first <+: order → ∀ a, mark newer first = some a →
      Highest rank first a) ↔
      ∀ x ∈ xs, ∀ y ∈ xs, Agrees rank newer x y := by
  constructor
  · intro h x hx y hy
    by_cases hxy : x = y
    · rw [hxy]
      exact agrees_self y
    · -- an order that begins with these two
      have hy' : y ∈ xs.erase x := (List.mem_erase_of_ne (Ne.symm hxy)).mpr hy
      have horder : (x :: y :: (xs.erase x).erase y).Perm xs :=
        ((List.perm_cons_erase hy').symm.cons x).trans (List.perm_cons_erase hx).symm
      exact agrees_of_highest (h _ horder [x, y] ⟨_, rfl⟩ _ rfl)
  · intro h order horder first hfirst a ha
    have hmem : ∀ y ∈ first, y ∈ xs := fun y hy => horder.subset (hfirst.subset hy)
    exact mark_highest (fun y hy z hz => h y (hmem y hy) z (hmem z hz)) ha

/-- Two highest ones of the same have one rank. -/
theorem Highest.rank_eq {xs ys : List α} {a b : α} (h : Highest rank xs a) (h' : Highest rank ys b)
    (hsame : ∀ x, x ∈ xs ↔ x ∈ ys) : rank a = rank b :=
  le_antisymm (h'.le a ((hsame a).mp h.mem)) (h.le b ((hsame b).mpr h'.mem))

end Lib.HighWater
