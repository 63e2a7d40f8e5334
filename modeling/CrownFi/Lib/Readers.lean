import CrownFi.Lib.Fallible

/-!
# CrownFi.Lib.Readers

**Readers and their formats.** A reader takes a value off the front of its input or fails.
Its *format* says what the reader takes for which value: `Reads r F` when to read `a` and
leave `rest` is the same as an input `p ++ rest` with `F a p`. Formats are put together as
readers are, so the format of a reader is found by following its definition.
-/

namespace Lib

variable {τ ε α β : Type}

/-- `r` reads exactly what `F` describes. -/
def Reads (r : StateT (List τ) (Except ε) α) (F : α → List τ → Prop) : Prop :=
  ∀ input a rest, r.run input = .ok (a, rest) ↔ ∃ p, input = p ++ rest ∧ F a p

namespace Reads

variable {r : StateT (List τ) (Except ε) α} {s : α → StateT (List τ) (Except ε) β}
  {F F' : α → List τ → Prop} {G : α → β → List τ → Prop} {a : α} {p rest : List τ}

theorem run (h : Reads r F) (hp : F a p) : r.run (p ++ rest) = .ok (a, rest) :=
  (h _ _ _).mpr ⟨p, rfl, hp⟩

/-- A reader that has read its whole input. -/
theorem run_all (h : Reads r F) : r.run p = .ok (a, []) ↔ F a p := by
  rw [h]
  constructor
  · rintro ⟨q, hq, hF⟩
    rwa [hq, List.append_nil]
  · intro hF
    exact ⟨p, (List.append_nil p).symm, hF⟩

theorem congr (h : Reads r F) (hF : ∀ a p, F a p ↔ F' a p) : Reads r F' := by
  intro input a rest
  simp only [h input a rest, hF]

theorem pure : Reads (Pure.pure a : StateT (List τ) (Except ε) α) fun b p => b = a ∧ p = [] := by
  intro input b rest
  simp only [StateT.run_pure, pure_eq_ok, Prod.mk.injEq]
  constructor
  · rintro ⟨hb, hrest⟩
    exact ⟨[], hrest, hb.symm, rfl⟩
  · rintro ⟨p, hinput, hb, hp⟩
    rw [hp] at hinput
    exact ⟨hb.symm, hinput⟩

theorem throw {e : ε} : Reads (throw e : StateT (List τ) (Except ε) α) fun _ _ => False := by
  intro input a rest
  constructor
  · intro h
    cases h
  · rintro ⟨_, _, h⟩
    exact h.elim

/-- What two readers take, one after the other. -/
theorem bind (hr : Reads r F) (hs : ∀ a, Reads (s a) (G a)) :
    Reads (r >>= s) fun b p => ∃ a q q', p = q ++ q' ∧ F a q ∧ G a b q' := by
  intro input b rest
  rw [StateT.run_bind, bind_eq_ok]
  constructor
  · rintro ⟨⟨a, middle⟩, hread, hnext⟩
    obtain ⟨q, rfl, hF⟩ := (hr _ _ _).mp hread
    obtain ⟨q', rfl, hG⟩ := (hs a _ _ _).mp hnext
    exact ⟨q ++ q', (List.append_assoc _ _ _).symm, a, q, q', rfl, hF, hG⟩
  · rintro ⟨p, hinput, a, q, q', hp, hF, hG⟩
    rw [hinput, hp, List.append_assoc]
    exact ⟨(a, q' ++ rest), hr.run hF, (hs a).run hG⟩

theorem ite {c : Prop} [Decidable c] {r' : StateT (List τ) (Except ε) α} (hr : Reads r F)
    (hr' : Reads r' F') : Reads (if c then r else r') fun a p => if c then F a p else F' a p := by
  split
  · exact hr
  · exact hr'

/-- A check that fails when `c` holds, and what comes behind it. -/
theorem guard {c : Prop} [Decidable c] {e : ε} {k : Unit → StateT (List τ) (Except ε) α}
    (hk : Reads (k ()) F) :
    Reads (if c then MonadExcept.throw e >>= k else k ()) fun a p => ¬ c ∧ F a p := by
  split
  · intro input a rest
    constructor
    · intro h
      cases h
    · rintro ⟨_, _, h, _⟩
      exact absurd ‹c› h
  · exact hk.congr fun a p => (and_iff_right ‹_›).symm

/-- A reader between two looks at the input, and what is done with the part it took. -/
theorem consumed {s : List τ → α → StateT (List τ) (Except ε) β} {G : List τ → α → β → List τ → Prop}
    (hr : Reads r F) (hs : ∀ taken a, Reads (s taken a) (G taken a)) :
    Reads
      (do let start ← get
          let a ← r
          let rest ← get
          s (start.take (start.length - rest.length)) a)
      fun b p => ∃ a q q', p = q ++ q' ∧ F a q ∧ G q a b q' := by
  intro input b rest
  simp only [StateT.run_bind, StateT.run_get, pure_bind, bind_eq_ok, Prod.exists]
  have htaken (q middle : List τ) : (q ++ middle).take ((q ++ middle).length - middle.length) = q := by
    rw [List.length_append, Nat.add_sub_cancel, List.take_left]
  constructor
  · rintro ⟨a, middle, hread, hnext⟩
    obtain ⟨q, rfl, hF⟩ := (hr _ _ _).mp hread
    rw [htaken] at hnext
    obtain ⟨q', rfl, hG⟩ := (hs q a _ _ _).mp hnext
    exact ⟨q ++ q', (List.append_assoc _ _ _).symm, a, q, q', rfl, hF, hG⟩
  · rintro ⟨p, hinput, a, q, q', hp, hF, hG⟩
    rw [hinput, hp, List.append_assoc]
    refine ⟨a, q' ++ rest, hr.run hF, ?_⟩
    rw [htaken]
    exact (hs q a).run hG

end Reads

end Lib
