import CrownFi.Lib.Confined
import Mathlib.Data.List.InsertIdx

/-!
# CrownFi.Lib.Locking

**Schedules that further locks would allow.** Where a handler lacks a lock, some schedules go
wrong; those that the missing lock would also have allowed do not. `Prog.locking extra` is a
program whose labelled statements take further locks. A schedule that is also possible with them
(`Lockable`) leads to the same states (`Run.locking`), so that what is proved with the locks holds
of it without them. Everybody else's outline stands, since further locks only keep more commits
away (`Outlined.locking`).
-/

namespace Lib

universe u v w

variable {σ : Type u} {κ : Type v} {ℓ : Type w} {ρ α β : Type u} {extra : ℓ → List (Lock κ)}

/-- The program, with further locks at its labelled statements. -/
def Prog.locking (extra : ℓ → List (Lock κ)) : Prog σ κ ℓ ρ → Prog σ κ ℓ ρ
  | .ret r => .ret r
  | .commit next => .commit (next.locking extra)
  | .stmt label locks effect next =>
      .stmt label (fun view => locks view ++ extra label) effect fun view => (next view).locking extra

theorem Prog.label?_locking (p : Prog σ κ ℓ ρ) : (p.locking extra).label? = p.label? := by
  cases p <;> rfl

/-- The same action, on programs with the locks. -/
def Action.locking (extra : ℓ → List (Lock κ)) : Action σ κ ℓ ρ → Action σ κ ℓ ρ
  | .spawn p => .spawn (p.locking extra)
  | .step i => .step i
  | .kill i => .kill i

/-- These requests, with the locks. -/
def Locking (extra : ℓ → List (Lock κ)) (requests : Prog σ κ ℓ ρ → Prop) (q : Prog σ κ ℓ ρ) : Prop :=
  ∃ p, requests p ∧ q = p.locking extra

/-! ### Schedules -/

section Schedules

variable [DecidableEq κ]

/-- The schedule is possible with the locks. -/
def Lockable (extra : ℓ → List (Lock κ)) (db : σ) (actions : List (Action σ κ ℓ ρ)) : Prop :=
  ∃ pool, Run (Pool.Step (fun _ => True) fun _ _ => True) (Pool.idle db)
    (actions.map (Action.locking extra)) pool

/-- Two pools with the same committed state and the same threads, up to what they have locked. -/
structure Covers (extra : ℓ → List (Lock κ)) (pool locked : Pool σ κ ℓ ρ) : Prop where
  db : locked.db = pool.db
  threads : locked.threads.map (fun t => (t.pending, t.prog)) =
    pool.threads.map fun t => (t.pending, t.prog.locking extra)

omit [DecidableEq κ] in
/-- The threads at a place. -/
theorem Covers.thread {pool locked : Pool σ κ ℓ ρ} (h : Covers extra pool locked) {i : Nat}
    {t u : Thread σ κ ℓ ρ} (ht : pool.threads[i]? = some t) (hu : locked.threads[i]? = some u) :
    u.pending = t.pending ∧ u.prog = t.prog.locking extra := by
  have hat := congrArg (·[i]?) h.threads
  simp only [List.getElem?_map, ht, hu, Option.map_some, Option.some.injEq, Prod.mk.injEq] at hat
  exact hat

/-- **A step of both pools** keeps them the same, up to what is locked. -/
theorem Covers.exec {pool pool' locked locked' : Pool σ κ ℓ ρ} {a : Action σ κ ℓ ρ}
    (h : Covers extra pool locked) (hexec : pool.exec a = some pool')
    (hlocked : locked.exec (a.locking extra) = some locked') : Covers extra pool' locked' := by
  cases a with
  | spawn p =>
      obtain rfl := Option.some.inj hexec
      obtain rfl := Option.some.inj hlocked
      exact ⟨h.db, by simp only [List.map_append, h.threads, List.map_cons, List.map_nil]⟩
  | kill i =>
      obtain rfl := Option.some.inj hexec
      obtain rfl := Option.some.inj hlocked
      exact ⟨h.db, by simp only [← List.eraseIdx_map, h.threads]⟩
  | step i =>
      obtain ⟨t, ht, hadvance⟩ := Option.bind_eq_some_iff.mp hexec
      obtain ⟨u, hu, hadvance'⟩ := Option.bind_eq_some_iff.mp hlocked
      obtain ⟨hpending, hprog⟩ := h.thread ht hu
      unfold Pool.advance at hadvance hadvance'
      rw [hprog] at hadvance'
      cases hp : t.prog with
      | ret r =>
          rw [hp] at hadvance hadvance'
          obtain rfl := Option.some.inj hadvance
          obtain rfl := Option.some.inj hadvance'
          exact ⟨h.db, by simp only [← List.eraseIdx_map, h.threads]⟩
      | commit next =>
          rw [hp] at hadvance hadvance'
          obtain rfl := Option.some.inj hadvance
          obtain rfl := Option.some.inj hadvance'
          exact ⟨by simp only [hpending, h.db], by simp only [List.map_set, h.threads]⟩
      | stmt label locks effect next =>
          -- what the statement sees is the same, so is what it changes
          rw [hp] at hadvance hadvance'
          simp only [Prog.locking] at hadvance hadvance'
          split at hadvance
          · split at hadvance'
            · obtain rfl := Option.some.inj hadvance
              obtain rfl := Option.some.inj hadvance'
              exact ⟨h.db, by simp only [List.map_set, h.threads, hpending, h.db]⟩
            · cases hadvance'
          · cases hadvance

/-- **A run that the locks allow is a run with the locks**, and leads to the same state. -/
theorem Run.locking {requests : Prog σ κ ℓ ρ → Prop} {ok : ℓ → σ → Prop} {db : σ}
    {actions : List (Action σ κ ℓ ρ)} {pool : Pool σ κ ℓ ρ}
    (hrun : Run (Pool.Step requests ok) (Pool.idle db) actions pool)
    (hlockable : Lockable extra db actions) :
    ∃ locked, Run (Pool.Step (Locking extra requests) ok) (Pool.idle db)
      (actions.map (Action.locking extra)) locked ∧ locked.db = pool.db := by
  obtain ⟨locked, hlocked⟩ := hlockable
  suffices h : Run (Pool.Step (Locking extra requests) ok) (Pool.idle db)
      (actions.map (Action.locking extra)) locked ∧ Covers extra pool locked from ⟨locked, h.1, h.2.db⟩
  generalize hfirst : Pool.idle db = first at hrun
  induction hrun generalizing locked with
  | refl =>
      subst hfirst
      obtain rfl := hlocked.nil
      exact ⟨.refl _, rfl, rfl⟩
  | @tail mid last as a hrun hstep ih =>
      rw [List.map_append, List.map_singleton] at hlocked ⊢
      obtain ⟨locked', hbefore, -, hexec⟩ := hlocked.last
      obtain ⟨hsteps, hcovers⟩ := ih locked' hbefore
      obtain ⟨hadmits, hstep⟩ := hstep
      refine ⟨.tail hsteps ⟨?_, hexec⟩, hcovers.exec hstep hexec⟩
      cases a with
      | spawn p => exact ⟨p, hadmits, rfl⟩
      | kill i => trivial
      | step i =>
          intro u hu label hlabel
          have hlength : mid.threads.length = locked'.threads.length := by
            simpa using congrArg List.length hcovers.threads.symm
          obtain ⟨hi, -⟩ := List.getElem?_eq_some_iff.mp hu
          have ht := List.getElem?_eq_getElem (hlength ▸ hi : i < mid.threads.length)
          obtain ⟨hpending, hprog⟩ := hcovers.thread ht hu
          rw [hprog, Prog.label?_locking] at hlabel
          rw [hpending, hcovers.db]
          exact hadmits _ ht label hlabel

end Schedules

/-! ### Outlines with the locks -/

section Outlines

variable [DecidableEq κ] {I : σ → Prop} {R G : List (Lock κ) → σ → σ → Prop} {ok must : ℓ → σ → Prop}
  {held : List (Lock κ)} {pending : σ → σ} {A : σ → Prop}

/-- **Further locks do no harm**: an outline stands with them, where a commit may do the more the
more it has locked. -/
theorem Outlined.locking {p : Prog σ κ ℓ ρ} (h : Outlined I R G ok must p held pending A)
    (hG : ∀ L L' db db', L ⊆ L' → G L db db' → G L' db db') {held' : List (Lock κ)}
    (hsub : held ⊆ held') : Outlined I R G ok must (p.locking extra) held' pending A := by
  induction p generalizing held held' pending A with
  | ret r => exact safe_ret
  | commit next ih =>
      obtain ⟨hcommit, A', hA', hstable, hnext⟩ := outlined_commit.mp h
      refine outlined_commit.mpr ⟨fun db hI hA => ?_, A', hA', hstable, ih hnext (List.Subset.refl _)⟩
      obtain ⟨hI', hmoved⟩ := hcommit db hI hA
      exact ⟨hI', hG _ _ _ _ hsub hmoved⟩
  | stmt label locks effect next ih =>
      refine outlined_stmt.mpr fun db hI hA hok => ?_
      obtain ⟨hmust, A', hA', hstable, hnext⟩ := outlined_stmt.mp h db hI hA hok
      have hmore : held ++ locks (pending db) ⊆ held' ++ (locks (pending db) ++ extra label) :=
        List.append_subset.mpr ⟨List.subset_append_of_subset_left _ hsub,
          List.subset_append_of_subset_right _ (List.subset_append_left _ _)⟩
      exact ⟨hmust, A', hA', hstable.mono hmore, ih _ hnext hmore⟩

namespace Tx

/-- A part of a program that takes none of the further locks. -/
def Plain (extra : ℓ → List (Lock κ)) (m : Tx σ κ ℓ ρ α) : Prop :=
  ∀ k : α → Prog σ κ ℓ ρ, (m k).locking extra = m fun a => (k a).locking extra

variable {label : ℓ} {locks : σ → List (Lock κ)}

omit [DecidableEq κ] in
theorem plain_pure {a : α} : Plain extra (pure a : Tx σ κ ℓ ρ α) := fun _ => rfl

omit [DecidableEq κ] in
theorem plain_bind {m : Tx σ κ ℓ ρ α} {f : α → Tx σ κ ℓ ρ β} (hm : m.Plain extra)
    (hf : ∀ a, (f a).Plain extra) : (m >>= f).Plain extra := by
  intro k
  show (m fun a => f a k).locking extra = m fun a => f a fun b => (k b).locking extra
  rw [hm]
  exact congrArg m (funext fun a => hf a k)

omit [DecidableEq κ] in
theorem plain_require {c : Bool} {r : ρ} : Plain extra (Tx.require c r : Tx σ κ ℓ ρ PUnit) := by
  intro k
  cases c <;> rfl

omit [DecidableEq κ] in
theorem plain_orElse {o : Option α} {r : ρ} : Plain extra (Tx.orElse o r : Tx σ κ ℓ ρ α) := by
  intro k
  cases o <;> rfl

omit [DecidableEq κ] in
theorem plain_ofExcept {ε : Type*} {e : Except ε α} {r : ε → ρ} :
    Plain extra (Tx.ofExcept e r : Tx σ κ ℓ ρ α) := by
  intro k
  cases e <;> rfl

omit [DecidableEq κ] in
theorem plain_commit : Plain extra (Tx.commit : Tx σ κ ℓ ρ PUnit) := fun _ => rfl

omit [DecidableEq κ] in
theorem plain_stmt {effect : σ → σ → σ} {answer : σ → α} (h : extra label = []) :
    Plain extra (Tx.stmt label locks effect answer : Tx σ κ ℓ ρ α) := by
  intro k
  show Prog.stmt label (fun view => locks view ++ extra label) effect _ = Prog.stmt label locks effect _
  simp only [h, List.append_nil]

omit [DecidableEq κ] in
theorem plain_insert {violation : σ → Option ρ} {effect : σ → σ} (h : extra label = []) :
    Plain extra (Tx.insert label locks violation effect : Tx σ κ ℓ ρ PUnit) := by
  intro k
  show Prog.stmt label (fun view => locks view ++ extra label) _ _ = Prog.stmt label locks _ _
  simp only [h, List.append_nil]
  congr 1
  funext view
  cases violation view <;> rfl

theorem plain_update {σ κ ℓ ρ ι α : Type} [DecidableEq ι] {extra : ℓ → List (Lock κ)} {label : ℓ}
    {T : Table σ κ ι α} {locks : α → List (Lock κ)} {p : α → Bool} {f : α → α}
    {check : σ → α → Option ρ} (h : extra label = []) :
    Plain extra (Tx.update label T locks p f check) := by
  intro k
  show Prog.stmt label (fun view => (T.matching p view).flatMap locks ++ extra label) _ _ =
    Prog.stmt label (fun view => (T.matching p view).flatMap locks) _ _
  simp only [h, List.append_nil]
  congr 1
  funext view
  cases (T.matching p view).findSome? fun r => check view (f r) <;> rfl

end Tx

/-- Past a part that takes none of the further locks. -/
theorem safe_plain {m : Tx σ κ ℓ ρ α} {f : α → Tx σ κ ℓ ρ β} {k : β → Prog σ κ ℓ ρ}
    (hm : m.Plain extra) (h : Outlined I R G ok must (m fun a => (f a k).locking extra) held pending A) :
    Outlined I R G ok must (((m >>= f) k).locking extra) held pending A := by
  rw [show ((m >>= f) k).locking extra = m fun a => (f a k).locking extra from hm _]
  exact h

/-- Into a part that takes some of them. -/
theorem safe_lockingBind {m : Tx σ κ ℓ ρ α} {f : α → Tx σ κ ℓ ρ β} {k : β → Prog σ κ ℓ ρ}
    (h : Outlined I R G ok must ((m fun a => f a k).locking extra) held pending A) :
    Outlined I R G ok must (((m >>= f) k).locking extra) held pending A := h

/-- A statement with the further locks of its label. -/
theorem safe_lockingStmt {label : ℓ} {locks : σ → List (Lock κ)} {effect : σ → σ → σ} {answer : σ → α}
    {k : α → Prog σ κ ℓ ρ}
    (h : ∀ db, I db → A db → ok label (pending db) →
      ∃ A', A' db ∧ Stable I R (held ++ (locks (pending db) ++ extra label)) A' ∧
        Outlined I R G ok must ((k (answer (pending db))).locking extra)
          (held ++ (locks (pending db) ++ extra label)) (fun d => effect (pending db) (pending d)) A')
    [hmust : Evident (∀ db, I db → A db → ok label (pending db) → must label (pending db))] :
    Outlined I R G ok must ((Tx.stmt label locks effect answer k).locking extra) held pending A :=
  safe_step h

/-- An update with the further locks of its label. -/
theorem safe_lockingUpdate {σ κ ℓ ρ ι α : Type} [DecidableEq κ] [DecidableEq ι] {I : σ → Prop}
    {R G : List (Lock κ) → σ → σ → Prop} {ok must : ℓ → σ → Prop} {extra : ℓ → List (Lock κ)}
    {label : ℓ} {T : Table σ κ ι α} {locks : α → List (Lock κ)} {p : α → Bool} {f : α → α}
    {check : σ → α → Option ρ} {k : Nat → Prog σ κ ℓ ρ} {held : List (Lock κ)} {pending : σ → σ}
    {A : σ → Prop}
    (h : ∀ db, I db → A db → ok label (pending db) →
      ∃ A', A' db ∧
        Stable I R (held ++ ((T.matching p (pending db)).flatMap locks ++ extra label)) A' ∧
        Outlined I R G ok must ((k (T.matching p (pending db)).length).locking extra)
          (held ++ ((T.matching p (pending db)).flatMap locks ++ extra label))
          (fun d => T.modify p f (pending db) (pending d)) A')
    [hmust : Evident (∀ db, I db → A db → ok label (pending db) → must label (pending db))] :
    Outlined I R G ok must ((Tx.update label T locks p f check k).locking extra) held pending A := by
  refine safe_step (fun db hI hA hok => ?_)
  cases hcheck : (T.matching p (pending db)).findSome? fun r => check (pending db) (f r) with
  | some r =>
      refine ⟨fun _ => True, trivial, stable_true, ?_⟩
      simp only [hcheck]
      exact safe_ret
  | none =>
      obtain ⟨A', hA', hstable, hk⟩ := h db hI hA hok
      refine ⟨A', hA', hstable, ?_⟩
      simpa only [hcheck] using hk

theorem safe_lockingRet {r : ρ} :
    Outlined I R G ok must ((Prog.ret r).locking extra) held pending A := safe_ret

end Outlines

theorem Prog.locking_stmt {label : ℓ} {locks : σ → List (Lock κ)} {effect : σ → σ → σ}
    {next : σ → Prog σ κ ℓ ρ} :
    (Prog.stmt label locks effect next).locking extra =
      .stmt label (fun view => locks view ++ extra label) effect fun view => (next view).locking extra :=
  rfl

attribute [irreducible] Prog.locking

end Lib
