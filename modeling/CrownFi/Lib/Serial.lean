import CrownFi.Lib.Statements

/-!
# CrownFi.Lib.Serial

**Requests one after the other.** A request that runs alone sees its own changes and
nobody else's, and every lock it asks for is free. `Prog.serve` computes what it does to
the committed state; a serial execution is one of the runs of the concurrent system
(`Pool.run_of_serveAll`).
-/

namespace Lib

universe u v w

variable {σ : Type u} {κ : Type v} {ℓ : Type w} {ρ : Type u} [DecidableEq κ]
  {ok : ℓ → σ → Prop} [∀ label db, Decidable (ok label db)] {requests : Prog σ κ ℓ ρ → Prop}

/-- A request alone, seeing `view` over the committed state `db`: its result and the state it
leaves, or `none` when one of its statements does not meet the condition. -/
def Prog.serve (ok : ℓ → σ → Prop) [∀ label db, Decidable (ok label db)] :
    Prog σ κ ℓ ρ → σ → σ → Option (ρ × σ)
  | .ret r, _, db => some (r, db)
  | .commit next, view, _ => next.serve ok view view
  | .stmt label _ effect next, view, db =>
      if ok label view then (next view).serve ok (effect view view) db else none

/-- Requests one after the other: their results and the state they leave. -/
def Pool.serveAll (ok : ℓ → σ → Prop) [∀ label db, Decidable (ok label db)] (db : σ) :
    List (Prog σ κ ℓ ρ) → Option (List ρ × σ)
  | [] => some ([], db)
  | p :: rest => (p.serve ok db db).bind fun served =>
      (serveAll ok served.2 rest).map fun all => (served.1 :: all.1, all.2)

theorem Pool.run_alone {p : Prog σ κ ℓ ρ} (pending : σ → σ) (held : List (Lock κ)) {db : σ}
    {served : ρ × σ} (h : p.serve ok (pending db) db = some served) :
    ∃ actions, Run (Pool.Step requests ok) ⟨db, [⟨pending, held, p⟩]⟩ actions (Pool.idle served.2) := by
  induction p generalizing pending held db with
  | ret r =>
      obtain rfl := Option.some.inj h
      refine ⟨[.step 0], .single ⟨?_, rfl⟩⟩
      intro t ht label hlabel
      obtain rfl := Option.some.inj ht
      cases hlabel
  | commit next ih =>
      obtain ⟨actions, hrun⟩ := ih id [] h
      refine ⟨[.step 0] ++ actions, (Run.single ⟨?_, rfl⟩).append hrun⟩
      intro t ht label hlabel
      obtain rfl := Option.some.inj ht
      cases hlabel
  | stmt label locks effect next ih =>
      rw [Prog.serve] at h
      split at h
      · rename_i hok
        obtain ⟨actions, hrun⟩ := ih (pending db)
          (fun d => effect (pending db) (pending d)) (held ++ locks (pending db)) h
        refine ⟨[.step 0] ++ actions, (Run.single ⟨?_, ?_⟩).append hrun⟩
        · intro t ht label hlabel
          obtain rfl := Option.some.inj ht
          obtain rfl := Option.some.inj hlabel
          exact hok
        · have hfree : Pool.free [(⟨pending, held, .stmt label locks effect next⟩ : Thread σ κ ℓ ρ)] 0
              (locks (pending db)) := by
            intro t ht
            cases ht
          simp only [Pool.exec, Pool.advance, List.getElem?_cons_zero, Option.bind_some, if_pos hfree,
            List.set_cons_zero]
      · cases h

/-- A request that is served alone is a run. -/
theorem Pool.run_of_serve {p : Prog σ κ ℓ ρ} {db : σ} {served : ρ × σ} (hp : requests p)
    (h : p.serve ok db db = some served) :
    ∃ actions, Run (Pool.Step requests ok) (Pool.idle db) actions (Pool.idle served.2) := by
  obtain ⟨actions, hrun⟩ := Pool.run_alone id [] h
  exact ⟨[.spawn p] ++ actions, (Run.single ⟨hp, rfl⟩).append hrun⟩

/-- **A serial execution is a run.** -/
theorem Pool.run_of_serveAll {ps : List (Prog σ κ ℓ ρ)} {db : σ} {all : List ρ × σ}
    (hps : ∀ p ∈ ps, requests p) (h : Pool.serveAll ok db ps = some all) :
    ∃ actions, Run (Pool.Step requests ok) (Pool.idle db) actions (Pool.idle all.2) := by
  induction ps generalizing db all with
  | nil =>
      obtain rfl := Option.some.inj h
      exact ⟨[], .refl _⟩
  | cons p rest ih =>
      obtain ⟨served, hserved, hrest⟩ := Option.bind_eq_some_iff.mp h
      obtain ⟨all', hall', rfl⟩ := Option.map_eq_some_iff.mp hrest
      obtain ⟨actions, hrun⟩ := Pool.run_of_serve (hps p (by simp)) hserved
      obtain ⟨actions', hrun'⟩ := ih (fun q hq => hps q (List.mem_cons_of_mem _ hq)) hall'
      exact ⟨actions ++ actions', hrun.append hrun'⟩

/-- **A serial execution in two parts**, with what a test says of the states after each. -/
theorem Pool.runs_of_serveAll {ps qs : List (Prog σ κ ℓ ρ)} {db : σ} (test : σ → σ → Bool)
    (hps : ∀ p ∈ ps, requests p) (hqs : ∀ q ∈ qs, requests q)
    (h : (Pool.serveAll ok db ps).any (fun all => (Pool.serveAll ok all.2 qs).any
      fun all' => test all.2 all'.2) = true) :
    ∃ db₁ db₂ actions more, Run (Pool.Step requests ok) (Pool.idle db) actions (Pool.idle db₁) ∧
      Run (Pool.Step requests ok) (Pool.idle db₁) more (Pool.idle db₂) ∧ test db₁ db₂ = true := by
  obtain ⟨all, hall, h⟩ := (Option.any_eq_true _ _).mp h
  obtain ⟨all', hall', htest⟩ := (Option.any_eq_true _ _).mp h
  obtain ⟨actions, hrun⟩ := Pool.run_of_serveAll hps hall
  obtain ⟨more, hmore⟩ := Pool.run_of_serveAll hqs hall'
  exact ⟨all.2, all'.2, actions, more, hrun, hmore, htest⟩

/-! ### What a request leaves -/

omit [DecidableEq κ] [∀ label db, Decidable (ok label db)]

/-- The state that a request alone leaves, when it sees `view` over the committed state `db`. -/
def Prog.leaves : Prog σ κ ℓ ρ → σ → σ → σ
  | .ret _, _, db => db
  | .commit next, view, _ => next.leaves view view
  | .stmt _ _ effect next, view, db => (next view).leaves (effect view view) db

section Leaves

variable {α β : Type u} {label : ℓ} {locks : σ → List (Lock κ)} {view db : σ} {r : ρ}

theorem leaves_bind {m : Tx σ κ ℓ ρ α} {f : α → Tx σ κ ℓ ρ β} {k : β → Prog σ κ ℓ ρ} :
    Prog.leaves ((m >>= f) k) view db = Prog.leaves (m fun a => f a k) view db := rfl

theorem leaves_ret : (Prog.ret r : Prog σ κ ℓ ρ).leaves view db = db := rfl

theorem leaves_require {c : Bool} {k : PUnit → Prog σ κ ℓ ρ} (hc : c = true) :
    Prog.leaves (Tx.require c r k) view db = (k ⟨⟩).leaves view db := by
  rw [Tx.require, if_pos hc]

theorem leaves_orElse {o : Option α} {a : α} {k : α → Prog σ κ ℓ ρ} (ho : o = some a) :
    Prog.leaves (Tx.orElse o r k) view db = (k a).leaves view db := by
  rw [ho]
  rfl

theorem leaves_ofExcept {ε : Type*} {e : Except ε α} {r : ε → ρ} {a : α} {k : α → Prog σ κ ℓ ρ}
    (he : e = .ok a) : Prog.leaves (Tx.ofExcept e r k) view db = (k a).leaves view db := by
  rw [he]
  rfl

theorem leaves_select {answer : σ → α} {k : α → Prog σ κ ℓ ρ} :
    Prog.leaves (Tx.select label answer k) view db = (k (answer view)).leaves view db := rfl

theorem leaves_selectFor {answer : σ → α} {k : α → Prog σ κ ℓ ρ} :
    Prog.leaves (Tx.selectFor label locks answer k) view db = (k (answer view)).leaves view db := rfl

theorem leaves_write {effect : σ → σ} {k : PUnit → Prog σ κ ℓ ρ} :
    Prog.leaves (Tx.write label locks effect k) view db = (k ⟨⟩).leaves (effect view) db := rfl

theorem leaves_commit {k : PUnit → Prog σ κ ℓ ρ} :
    Prog.leaves (Tx.commit k) view db = (k ⟨⟩).leaves view view := rfl

theorem leaves_insert {violation : σ → Option ρ} {effect : σ → σ} {k : PUnit → Prog σ κ ℓ ρ}
    (h : violation view = none) :
    Prog.leaves (Tx.insert label locks violation effect k) view db =
      (k ⟨⟩).leaves (effect view) db := by
  unfold Tx.insert
  simp only [Prog.leaves, h]

/-- An `UPDATE` that raises no error. -/
theorem leaves_update {σ κ ℓ ρ ι α : Type} [DecidableEq ι] {label : ℓ} {T : Table σ κ ι α}
    {locks : α → List (Lock κ)} {p : α → Bool} {f : α → α} {k : Nat → Prog σ κ ℓ ρ} {view db : σ} :
    Prog.leaves (Tx.update label T locks p f (fun _ _ => none) k) view db =
      (k (T.matching p view).length).leaves (T.modify p f view view) db := by
  have hnone : ((T.matching p view).findSome? fun _ => (none : Option ρ)) = none :=
    List.findSome?_eq_none_iff.mpr fun _ _ => rfl
  unfold Tx.update
  simp only [Prog.leaves, hnone]

end Leaves

/-! ### How a request ends -/

/-- A request alone with no condition on its statements: its result, and the state it leaves. -/
abbrev Prog.ends (p : Prog σ κ ℓ ρ) (view db : σ) : Option (ρ × σ) := p.serve (fun _ _ => True) view db

section Ends

variable {α β : Type u} {label : ℓ} {locks : σ → List (Lock κ)} {view db : σ} {r : ρ}

theorem ends_bind {m : Tx σ κ ℓ ρ α} {f : α → Tx σ κ ℓ ρ β} {k : β → Prog σ κ ℓ ρ} :
    Prog.ends ((m >>= f) k) view db = Prog.ends (m fun a => f a k) view db := rfl

theorem ends_ret : (Prog.ret r : Prog σ κ ℓ ρ).ends view db = some (r, db) := rfl

theorem ends_commit {k : PUnit → Prog σ κ ℓ ρ} :
    Prog.ends (Tx.commit k) view db = (k ⟨⟩).ends view view := rfl

theorem ends_require {c : Bool} {k : PUnit → Prog σ κ ℓ ρ} (hc : c = true) :
    Prog.ends (Tx.require c r k) view db = (k ⟨⟩).ends view db := by
  rw [Tx.require, if_pos hc]

theorem ends_refused {c : Bool} {k : PUnit → Prog σ κ ℓ ρ} (hc : c = false) :
    Prog.ends (Tx.require c r k) view db = some (r, db) := by
  rw [Tx.require, hc]
  rfl

theorem ends_orElse {o : Option α} {a : α} {k : α → Prog σ κ ℓ ρ} (ho : o = some a) :
    Prog.ends (Tx.orElse o r k) view db = (k a).ends view db := by
  rw [ho]
  rfl

theorem ends_missing {o : Option α} {k : α → Prog σ κ ℓ ρ} (ho : o = none) :
    Prog.ends (Tx.orElse o r k) view db = some (r, db) := by
  rw [ho]
  rfl

theorem ends_ofExcept {ε : Type*} {e : Except ε α} {f : ε → ρ} {a : α} {k : α → Prog σ κ ℓ ρ}
    (he : e = .ok a) : Prog.ends (Tx.ofExcept e f k) view db = (k a).ends view db := by
  rw [he]
  rfl

theorem ends_failed {ε : Type*} {e : Except ε α} {f : ε → ρ} {err : ε} {k : α → Prog σ κ ℓ ρ}
    (he : e = .error err) : Prog.ends (Tx.ofExcept e f k) view db = some (f err, db) := by
  rw [he]
  rfl

theorem ends_stmt {effect : σ → σ → σ} {answer : σ → α} {k : α → Prog σ κ ℓ ρ} :
    Prog.ends (Tx.stmt label locks effect answer k) view db =
      (k (answer view)).ends (effect view view) db := if_pos trivial

theorem ends_select {answer : σ → α} {k : α → Prog σ κ ℓ ρ} :
    Prog.ends (Tx.select label answer k) view db = (k (answer view)).ends view db := ends_stmt

theorem ends_selectFor {answer : σ → α} {k : α → Prog σ κ ℓ ρ} :
    Prog.ends (Tx.selectFor label locks answer k) view db = (k (answer view)).ends view db := ends_stmt

theorem ends_insert {violation : σ → Option ρ} {effect : σ → σ} {k : PUnit → Prog σ κ ℓ ρ}
    (h : violation view = none) :
    Prog.ends (Tx.insert label locks violation effect k) view db = (k ⟨⟩).ends (effect view) db := by
  refine (if_pos trivial).trans ?_
  simp only [h]

theorem ends_insertRefused {violation : σ → Option ρ} {effect : σ → σ} {k : PUnit → Prog σ κ ℓ ρ}
    (h : violation view = some r) :
    Prog.ends (Tx.insert label locks violation effect k) view db = some (r, db) := by
  refine (if_pos trivial).trans ?_
  simp only [h, Prog.serve]

theorem ends_insertRow {σ κ ℓ ρ ι α : Type} {label : ℓ} {T : Table σ κ ι α} {locks : List (Lock κ)}
    {violation : σ → Option ρ} {row : α} {k : PUnit → Prog σ κ ℓ ρ} {view db : σ}
    (h : violation view = none) :
    Prog.ends (Tx.insertRow label T locks violation row k) view db = (k ⟨⟩).ends (T.add row view) db :=
  ends_insert h

/-- An `UPDATE` whose changed rows violate nothing. -/
theorem ends_update {σ κ ℓ ρ ι α : Type} [DecidableEq ι] {label : ℓ} {T : Table σ κ ι α}
    {locks : α → List (Lock κ)} {p : α → Bool} {f : α → α} {check : σ → α → Option ρ}
    {k : Nat → Prog σ κ ℓ ρ} {view db : σ} (h : ∀ r ∈ T.matching p view, check view (f r) = none) :
    Prog.ends (Tx.update label T locks p f check k) view db =
      (k (T.matching p view).length).ends (T.modify p f view view) db := by
  refine (if_pos trivial).trans ?_
  simp only [List.findSome?_eq_none_iff.mpr h]

/-- An `UPDATE` whose changed rows, of which there are some, violate a constraint. -/
theorem ends_updateRefused {σ κ ℓ ρ ι α : Type} [DecidableEq ι] {label : ℓ} {T : Table σ κ ι α}
    {locks : α → List (Lock κ)} {p : α → Bool} {f : α → α} {check : σ → α → Option ρ}
    {k : Nat → Prog σ κ ℓ ρ} {view db : σ} {r : ρ} {row : α} (hrow : row ∈ T.matching p view)
    (h : ∀ row ∈ T.matching p view, check view (f row) = some r) :
    Prog.ends (Tx.update label T locks p f check k) view db = some (r, db) := by
  have hfound : ((T.matching p view).findSome? fun row => check view (f row)) = some r := by
    cases hrows : T.matching p view with
    | nil =>
        rw [hrows] at hrow
        cases hrow
    | cons first rest =>
        rw [List.findSome?_cons, h first (hrows ▸ List.mem_cons_self)]
  refine (if_pos trivial).trans ?_
  simp only [hfound, Prog.serve]

end Ends

/-! ### Requests that discard their changes -/

/-- Whatever the statements see, the program does not end with such a result. -/
def Prog.Avoids (bad : ρ → Prop) : Prog σ κ ℓ ρ → Prop
  | .ret r => ¬ bad r
  | .commit next => next.Avoids bad
  | .stmt _ _ _ next => ∀ view, (next view).Avoids bad

/-- Whatever the statements see, a program that ends with such a result has committed nothing. -/
def Prog.Discards (bad : ρ → Prop) : Prog σ κ ℓ ρ → Prop
  | .ret _ => True
  | .commit next => next.Avoids bad
  | .stmt _ _ _ next => ∀ view, (next view).Discards bad

section Discards

variable {bad : ρ → Prop} {α β : Type u} {r : ρ}

theorem Prog.Avoids.serve [∀ label db, Decidable (ok label db)] {p : Prog σ κ ℓ ρ} (h : p.Avoids bad)
    {view db db' : σ} (hserve : p.serve ok view db = some (r, db')) : ¬ bad r := by
  induction p generalizing view db with
  | ret r' =>
      obtain ⟨rfl, -⟩ := Prod.mk.inj (Option.some.inj hserve)
      exact h
  | commit next ih => exact ih h hserve
  | stmt label locks effect next ih =>
      rw [Prog.serve] at hserve
      split at hserve
      · exact ih view (h view) hserve
      · cases hserve

/-- **Refused, and nothing is changed.** -/
theorem Prog.Discards.serve [∀ label db, Decidable (ok label db)] {p : Prog σ κ ℓ ρ}
    (h : p.Discards bad) {view db db' : σ} (hserve : p.serve ok view db = some (r, db')) (hr : bad r) :
    db' = db := by
  induction p generalizing view with
  | ret r' =>
      obtain ⟨-, rfl⟩ := Prod.mk.inj (Option.some.inj hserve)
      rfl
  | commit next ih => exact absurd hr (Prog.Avoids.serve (p := next) h hserve)
  | stmt label locks effect next ih =>
      rw [Prog.serve] at hserve
      split at hserve
      · exact ih view (h view) hserve
      · cases hserve

/-- A program ends in some way. -/
theorem Prog.not_avoids (p : Prog σ κ ℓ ρ) (db : σ) : ¬ p.Avoids fun _ => True := by
  induction p with
  | ret r => exact fun h => h trivial
  | commit next ih => exact ih
  | stmt label locks effect next ih => exact fun h => ih db (h db)

/-- A program that ends without a commit, whatever its statements see, needs no assertion. -/
theorem Prog.Discards.safe [DecidableEq κ] {p : Prog σ κ ℓ ρ} (h : p.Discards fun _ => True)
    {I : σ → Prop} {G : List (Lock κ) → σ → σ → Prop} {ok : ℓ → σ → Prop} {held : List (Lock κ)}
    {pending : σ → σ} (db : σ) : Safe I G ok p held pending fun _ => True := by
  induction p generalizing held pending with
  | ret r => exact safe_ret
  | commit next ih => exact absurd h (next.not_avoids db)
  | stmt label locks effect next ih =>
      refine safe_step fun d _ _ _ => ?_
      exact ⟨fun _ => True, trivial, stable_true, ih _ (h _)⟩

/-- **Requests that commit nothing leave the state as it is**, in every interleaving. -/
theorem run_discards [DecidableEq κ] {requests : Prog σ κ ℓ ρ → Prop} {ok : ℓ → σ → Prop}
    (hrequests : ∀ p, requests p → p.Discards fun _ => True) {db : σ} {pool : Pool σ κ ℓ ρ}
    {actions : List (Action σ κ ℓ ρ)}
    (hrun : Run (Pool.Step requests ok) (Pool.idle db) actions pool) : pool.db = db :=
  (run_healthy (I := (· = db)) (G := fun _ _ _ => False)
    (fun p hp => (hrequests p hp).safe db) hrun (healthy_idle rfl)).inv

namespace Tx

variable {label : ℓ} {locks : σ → List (Lock κ)} {k : α → Prog σ κ ℓ ρ}

theorem discards_bind {m : Tx σ κ ℓ ρ α} {f : α → Tx σ κ ℓ ρ β} {k : β → Prog σ κ ℓ ρ}
    (h : Prog.Discards bad (m fun a => f a k)) : Prog.Discards bad ((m >>= f) k) := h

theorem discards_require {c : Bool} {k : PUnit → Prog σ κ ℓ ρ} (h : (k ⟨⟩).Discards bad) :
    Prog.Discards bad (Tx.require c r k) := by
  unfold Tx.require
  split
  · exact h
  · trivial

theorem discards_orElse {o : Option α} (h : ∀ a, (k a).Discards bad) :
    Prog.Discards bad (Tx.orElse o r k) := by
  cases o with
  | some a => exact h a
  | none => trivial

theorem discards_ofExcept {ε : Type*} {e : Except ε α} {r : ε → ρ} (h : ∀ a, (k a).Discards bad) :
    Prog.Discards bad (Tx.ofExcept e r k) := by
  cases e with
  | ok a => exact h a
  | error err => trivial

theorem discards_stmt {effect : σ → σ → σ} {answer : σ → α} (h : ∀ a, (k a).Discards bad) :
    Prog.Discards bad (Tx.stmt label locks effect answer k) := fun _ => h _

theorem discards_insert {violation : σ → Option ρ} {effect : σ → σ} {k : PUnit → Prog σ κ ℓ ρ}
    (h : (k ⟨⟩).Discards bad) : Prog.Discards bad (Tx.insert label locks violation effect k) := by
  intro view
  cases hv : violation view with
  | some r =>
      simp only [hv]
      trivial
  | none =>
      simp only [hv]
      exact h

/-- An `INSERT` that always violates a constraint. -/
theorem discards_insertRefused {violation : σ → Option ρ} {effect : σ → σ} {k : PUnit → Prog σ κ ℓ ρ}
    (h : ∀ view, violation view = some r) :
    Prog.Discards bad (Tx.insert label locks violation effect k) := by
  intro view
  simp only [h]
  trivial

theorem discards_update {σ κ ℓ ρ ι α : Type} [DecidableEq ι] {bad : ρ → Prop} {label : ℓ}
    {T : Table σ κ ι α} {locks : α → List (Lock κ)} {p : α → Bool} {f : α → α}
    {check : σ → α → Option ρ} {k : Nat → Prog σ κ ℓ ρ} (h : ∀ n, (k n).Discards bad) :
    Prog.Discards bad (Tx.update label T locks p f check k) := by
  intro view
  cases hv : (T.matching p view).findSome? fun r => check view (f r) with
  | some r =>
      simp only [hv]
      trivial
  | none =>
      simp only [hv]
      exact h _

theorem discards_commit {k : PUnit → Prog σ κ ℓ ρ} (h : (k ⟨⟩).Avoids bad) :
    Prog.Discards bad (Tx.commit k) := h

end Tx

/-! ### Parts that commit nothing -/

namespace Tx

/-- A part of a transaction: it commits nothing, and alone it goes on, in the state with its
changes, or ends with such a result. -/
structure Within (bad : ρ → Prop) (m : Tx σ κ ℓ ρ α) : Prop where
  discards : ∀ k, (∀ a, (k a).Discards fun _ => True) → (m k).Discards fun _ => True
  alone : ∀ view, (∃ a view', ∀ k db, (m k).serve (fun _ _ => True) view db =
      (k a).serve (fun _ _ => True) view' db) ∨
    ∃ r, bad r ∧ ∀ k db, (m k).serve (fun _ _ => True) view db = some (r, db)

variable {label : ℓ} {locks : σ → List (Lock κ)}

theorem within_pure {a : α} : Within bad (pure a : Tx σ κ ℓ ρ α) where
  discards _ hk := hk a
  alone view := .inl ⟨a, view, fun _ _ => rfl⟩

theorem within_bind {m : Tx σ κ ℓ ρ α} {f : α → Tx σ κ ℓ ρ β} (hm : m.Within bad)
    (hf : ∀ a, (f a).Within bad) : (m >>= f).Within bad where
  discards k hk := hm.discards _ fun a => (hf a).discards k hk
  alone view := by
    rcases hm.alone view with ⟨a, view', hgo⟩ | ⟨r, hr, hend⟩
    · rcases (hf a).alone view' with ⟨b, view'', hgo'⟩ | ⟨r, hr, hend⟩
      · exact .inl ⟨b, view'', fun k db => (hgo _ db).trans (hgo' k db)⟩
      · exact .inr ⟨r, hr, fun k db => (hgo _ db).trans (hend k db)⟩
    · exact .inr ⟨r, hr, fun k db => hend _ db⟩

theorem within_ite {c : Prop} [Decidable c] {m n : Tx σ κ ℓ ρ α} (hm : m.Within bad)
    (hn : n.Within bad) : Within bad (if c then m else n) := by
  split
  · exact hm
  · exact hn

theorem within_require {c : Bool} (hr : bad r) :
    Within bad (Tx.require c r : Tx σ κ ℓ ρ PUnit) where
  discards _ hk := discards_require (hk ⟨⟩)
  alone view := by
    cases c with
    | true => exact .inl ⟨⟨⟩, view, fun _ _ => rfl⟩
    | false => exact .inr ⟨r, hr, fun _ _ => rfl⟩

theorem within_orElse {o : Option α} (hr : bad r) :
    Within bad (Tx.orElse o r : Tx σ κ ℓ ρ α) where
  discards _ hk := discards_orElse hk
  alone view := by
    cases o with
    | some a => exact .inl ⟨a, view, fun _ _ => rfl⟩
    | none => exact .inr ⟨r, hr, fun _ _ => rfl⟩

theorem within_ofExcept {ε : Type*} {e : Except ε α} {f : ε → ρ} (hf : ∀ err, bad (f err)) :
    Within bad (Tx.ofExcept e f : Tx σ κ ℓ ρ α) where
  discards _ hk := discards_ofExcept hk
  alone view := by
    cases e with
    | ok a => exact .inl ⟨a, view, fun _ _ => rfl⟩
    | error err => exact .inr ⟨f err, hf err, fun _ _ => rfl⟩

theorem within_stmt {effect : σ → σ → σ} {answer : σ → α} :
    Within bad (Tx.stmt label locks effect answer : Tx σ κ ℓ ρ α) where
  discards _ hk := discards_stmt hk
  alone view := .inl ⟨answer view, effect view view, fun _ _ => if_pos trivial⟩

theorem within_insert {violation : σ → Option ρ} {effect : σ → σ}
    (h : ∀ view r, violation view = some r → bad r) :
    Within bad (Tx.insert label locks violation effect : Tx σ κ ℓ ρ PUnit) where
  discards _ hk := discards_insert (hk ⟨⟩)
  alone view := by
    cases hv : violation view with
    | some r =>
        refine .inr ⟨r, h view r hv, fun k db => (if_pos trivial).trans ?_⟩
        simp only [hv, Prog.serve]
    | none =>
        refine .inl ⟨⟨⟩, effect view, fun k db => (if_pos trivial).trans ?_⟩
        simp only [hv]

/-- An `UPDATE` that raises no error. -/
theorem within_update {σ κ ℓ ρ ι α : Type} [DecidableEq ι] {bad : ρ → Prop} {label : ℓ}
    {T : Table σ κ ι α} {locks : α → List (Lock κ)} {p : α → Bool} {f : α → α} :
    Within bad (Tx.update label T locks p f fun _ _ => none) where
  discards _ hk := discards_update hk
  alone view := by
    have hnone : ((T.matching p view).findSome? fun _ => (none : Option ρ)) = none :=
      List.findSome?_eq_none_iff.mpr fun _ _ => rfl
    refine .inl ⟨(T.matching p view).length, T.modify p f view view, fun k db => ?_⟩
    refine (if_pos trivial).trans ?_
    simp only [hnone]

/-- What a part that went on did, whatever follows it. -/
theorem Within.goesOn {m : Tx σ κ ℓ ρ α} (hm : m.Within bad) {k : α → Prog σ κ ℓ ρ} {view db db' : σ}
    (hserve : (m k).serve (fun _ _ => True) view db = some (r, db')) (hr : ¬ bad r) :
    ∃ a view', (k a).serve (fun _ _ => True) view' db = some (r, db') ∧
      ∀ k' db, (m k').serve (fun _ _ => True) view db = (k' a).serve (fun _ _ => True) view' db := by
  rcases hm.alone view with ⟨a, view', hgo⟩ | ⟨r', hr', hend⟩
  · exact ⟨a, view', (hgo k db).symm.trans hserve, hgo⟩
  · rw [hend] at hserve
    obtain ⟨rfl, -⟩ := Prod.mk.inj (Option.some.inj hserve)
    exact absurd hr' hr

end Tx

end Discards

end Lib
