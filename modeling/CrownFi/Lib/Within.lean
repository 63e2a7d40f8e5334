import CrownFi.Lib.Statements

/-!
# CrownFi.Lib.Within

**Requests on a part of a larger system.** A program that was written for a state is run as it is on
a larger one that contains it (`Prog.within`): its statements read and change their part, under the
locks of the larger system that stand for its own. An outline of it, which was proved where it was
written, is an outline there (`Outlined.within`), if whatever the others do to the part was allowed
for, and whatever the program does to the part is allowed of the whole.
-/

namespace Lib

/-- A part of a state, which can be replaced. -/
structure View (τ σ : Type) where
  get : τ → σ
  put : τ → σ → τ
  get_put : ∀ t s, get (put t s) = s
  put_get : ∀ t, put t (get t) = t
  put_put : ∀ t s s', put (put t s) s' = put t s'

section Within

variable {τ σ κ κ' ℓ ℓ' ρ : Type} (V : View τ σ) (row : κ → κ') (site : ℓ → ℓ')

/-- A lock of the part, among those of the whole. -/
def Lock.within (l : Lock κ) : Lock κ' := ⟨row l.key, l.mode⟩

/-- The program, run on the part of a larger state. -/
def Prog.within : Prog σ κ ℓ ρ → Prog τ κ' ℓ' ρ
  | .ret r => .ret r
  | .commit next => .commit next.within
  | .stmt label locks effect next =>
      .stmt (site label) (fun view => (locks (V.get view)).map (Lock.within row))
        (fun view db => V.put db (effect (V.get view) (V.get db))) fun view => (next (V.get view)).within

/-- These requests, on the part of a larger state. -/
def Within (requests : Prog σ κ ℓ ρ → Prop) (q : Prog τ κ' ℓ' ρ) : Prop :=
  ∃ p, requests p ∧ q = p.within V row site

/-- A table of the part, as one of the whole. -/
def Table.within {ι α : Type} (T : Table σ κ ι α) : Table τ κ' ι α where
  rows db := T.rows (V.get db)
  put db l := V.put db (T.put (V.get db) l)
  key := T.key
  row i := row (T.row i)
  rows_put db l := by rw [V.get_put, T.rows_put]

end Within

section Outlines

variable {τ σ κ κ' ℓ ℓ' ρ : Type} [DecidableEq κ] [DecidableEq κ'] {V : View τ σ} {row : κ → κ'}
  {site : ℓ → ℓ'}

/-- Locks that are compatible in the whole are compatible in the part. -/
theorem compatible_of_within (hrow : Function.Injective row) {held L : List (Lock κ)}
    {L' : List (Lock κ')} (hsub : ∀ l ∈ L, l.within row ∈ L')
    (h : Compatible (held.map (Lock.within row)) L') : Compatible held L := by
  intro l hl l' hl'
  have hfree := h _ (List.mem_map_of_mem hl) _ (hsub l' hl')
  rw [← hfree]
  simp only [Lock.conflicts, Lock.within, hrow.eq_iff]

/-- A table of the part is laid out in the whole as it is in the part. -/
theorem Layout.within {ι α P₀ P : Type} [DecidableEq ι] {part₀ : σ → κ → P₀} {part : τ → κ' → P}
    {T : Table σ κ ι α} {embed : Option α → P₀} (h : Layout part₀ T embed) {wrap : P₀ → P}
    (hwrap : Function.Injective wrap) (hpart : ∀ db k, part db (row k) = wrap (part₀ (V.get db) k))
    (hother : ∀ db s k', (∀ k, row k ≠ k') → part (V.put db s) k' = part db k') :
    Layout part (T.within V row) fun r => wrap (embed r) where
  row db i := (hpart db (T.row i)).trans (congrArg wrap (h.row (V.get db) i))
  injective := hwrap.comp h.injective
  other db l k' hk' := by
    by_cases hrow : ∃ k, row k = k'
    · obtain ⟨k, rfl⟩ := hrow
      show part (V.put db (T.put (V.get db) l)) (row k) = part db (row k)
      rw [hpart, hpart, V.get_put, h.other _ _ _ fun i hi => hk' i (congrArg row hi)]
    · exact hother db _ k' fun k hk => hrow ⟨k, hk⟩

variable {I₀ : σ → Prop} {R₀ G₀ : List (Lock κ) → σ → σ → Prop} {ok₀ must₀ : ℓ → σ → Prop}
  {I : τ → Prop} {R G : List (Lock κ') → τ → τ → Prop} {ok must : ℓ' → τ → Prop}

/-- What others may do to the whole, they may do to the part, under locks that they hold. -/
def Allows (V : View τ σ) (row : κ → κ') (R₀ : List (Lock κ) → σ → σ → Prop)
    (R : List (Lock κ') → τ → τ → Prop) : Prop :=
  ∀ L db db', R L db db' → ∃ L₀, (∀ l ∈ L₀, l.within row ∈ L) ∧ R₀ L₀ (V.get db) (V.get db')

/-- What is stable in the part is stable in the whole. -/
theorem Stable.within (hrow : Function.Injective row) (hI : ∀ db, I db → I₀ (V.get db))
    (hR : Allows V row R₀ R) {held : List (Lock κ)} {A : σ → Prop} (h : Stable I₀ R₀ held A) :
    Stable I R (held.map (Lock.within row)) fun db => A (V.get db) := by
  intro L db db' hcompat hdb hdb' hA hmoved
  obtain ⟨L₀, hsub, hmoved₀⟩ := hR L db db' hmoved
  exact h L₀ _ _ (compatible_of_within hrow hsub hcompat) (hI db hdb) (hI db' hdb') hA hmoved₀

/-- **An outline of a program is one on a larger state.** -/
theorem Outlined.within (hrow : Function.Injective row) (hI : ∀ db, I db → I₀ (V.get db))
    (hR : Allows V row R₀ R)
    (hG : ∀ L db s, I db → I₀ s → G₀ L (V.get db) s →
      I (V.put db s) ∧ G (L.map (Lock.within row)) db (V.put db s))
    (hok : ∀ label db, ok (site label) db → ok₀ label (V.get db))
    (hmust : ∀ label db, must₀ label (V.get db) → must (site label) db)
    {p : Prog σ κ ℓ ρ} {held : List (Lock κ)} {pending : σ → σ} {A : σ → Prop}
    (h : Outlined I₀ R₀ G₀ ok₀ must₀ p held pending A) :
    Outlined I R G ok must (p.within V row site) (held.map (Lock.within row))
      (fun db => V.put db (pending (V.get db))) fun db => A (V.get db) := by
  induction p generalizing held pending A with
  | ret r => exact safe_ret
  | commit next ih =>
      obtain ⟨hcommit, A', hA', hstable, hnext⟩ := outlined_commit.mp h
      refine outlined_commit.mpr ⟨fun db hdb hA => ?_, fun db => A' (V.get db), fun db hdb hA => ?_,
        ?_, ?_⟩
      · obtain ⟨hI', hmoved⟩ := hcommit _ (hI db hdb) hA
        exact hG _ _ _ hdb hI' hmoved
      · have hafter := hA' _ (hI db hdb) hA
        rwa [← V.get_put db (pending (V.get db))] at hafter
      · have hstart := hstable.within hrow hI hR
        rwa [List.map_nil] at hstart
      · have hidle := ih hnext
        simp only [id, V.put_get] at hidle
        exact hidle
  | stmt label locks effect next ih =>
      refine outlined_stmt.mpr fun db hdb hA hseen => ?_
      have hseen₀ : ok₀ label (pending (V.get db)) := by
        have := hok label _ hseen
        rwa [V.get_put] at this
      obtain ⟨hsees, A', hA', hstable, hnext⟩ := outlined_stmt.mp h _ (hI db hdb) hA hseen₀
      rw [V.get_put, ← List.map_append]
      refine ⟨hmust label _ ?_, fun db => A' (V.get db), hA', hstable.within hrow hI hR, ?_⟩
      · rwa [V.get_put]
      · simp only [V.get_put, V.put_put]
        exact ih _ hnext

/-- A request that has an outline where it was written has one in the larger system. -/
theorem OutlinedRequest.within (hrow : Function.Injective row) (hI : ∀ db, I db → I₀ (V.get db))
    (hR : Allows V row R₀ R)
    (hG : ∀ L db s, I db → I₀ s → G₀ L (V.get db) s →
      I (V.put db s) ∧ G (L.map (Lock.within row)) db (V.put db s))
    (hok : ∀ label db, ok (site label) db → ok₀ label (V.get db))
    (hmust : ∀ label db, must₀ label (V.get db) → must (site label) db) {p : Prog σ κ ℓ ρ}
    (h : OutlinedRequest I₀ R₀ G₀ ok₀ must₀ p) : OutlinedRequest I R G ok must (p.within V row site) := by
  have hwithin := Outlined.within hrow hI hR hG hok hmust h
  simp only [id, V.put_get] at hwithin
  exact hwithin

end Outlines

end Lib
