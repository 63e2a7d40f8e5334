import CrownFi.Lib.Serial

/-!
# CrownFi.Lib.Twins

**One request alone, and two side by side.** What a request does that runs alone is proved by rules
for its statements (`Prog.Alone`). A property of two executions, such as that both end with the same
result, is proved by walking through both programs at once (`Prog.Twins`). As long as both ask the
same question each rule takes the next statement of both; what they read may differ, and from there
each goes on with what it has read. Where the two part, what each does alone is put together.
-/

namespace Lib

universe u v w

variable {σ : Type u} {κ : Type v} {ℓ : Type w} {ρ : Type u}

/-- The result of a request alone, when it sees `view`. -/
def Prog.result : Prog σ κ ℓ ρ → σ → ρ
  | .ret r, _ => r
  | .commit next, view => next.result view
  | .stmt _ _ effect next, view => (next view).result (effect view view)

/-- A request alone ends, with its result and what it leaves. -/
theorem ends_eq (p : Prog σ κ ℓ ρ) (view db : σ) :
    p.ends view db = some (p.result view, p.leaves view db) := by
  induction p generalizing view db with
  | ret r => rfl
  | commit next ih => exact ih view view
  | stmt label locks effect next ih => exact (if_pos trivial).trans (ih view _ db)

theorem result_of_ends {p : Prog σ κ ℓ ρ} {view db : σ} {ended : ρ × σ}
    (h : p.ends view db = some ended) : p.result view = ended.1 ∧ p.leaves view db = ended.2 := by
  obtain rfl := Option.some.inj ((ends_eq p view db).symm.trans h)
  exact ⟨rfl, rfl⟩

/-! ### One alone -/

/-- A request alone ends with such a result, and leaves such a state. -/
def Prog.Alone (Q : ρ → σ → Prop) (p : Prog σ κ ℓ ρ) (view db : σ) : Prop :=
  Q (p.result view) (p.leaves view db)

section Alone

variable {α β : Type u} {Q : ρ → σ → Prop} {label : ℓ} {locks : σ → List (Lock κ)} {view db : σ} {r : ρ}

theorem alone_ret (h : Q r db) : (Prog.ret r : Prog σ κ ℓ ρ).Alone Q view db := h

theorem alone_bind {m : Tx σ κ ℓ ρ α} {f : α → Tx σ κ ℓ ρ β} {k : β → Prog σ κ ℓ ρ}
    (h : Prog.Alone Q (m fun a => f a k) view db) : Prog.Alone Q ((m >>= f) k) view db := h

theorem alone_require {c : Bool} {k : PUnit → Prog σ κ ℓ ρ} (refused : Q r db)
    (next : c = true → (k ⟨⟩).Alone Q view db) : Prog.Alone Q (Tx.require c r k) view db := by
  unfold Tx.require
  cases c with
  | true => exact next rfl
  | false => exact refused

theorem alone_orElse {o : Option α} {k : α → Prog σ κ ℓ ρ} (refused : Q r db)
    (next : ∀ a, o = some a → (k a).Alone Q view db) : Prog.Alone Q (Tx.orElse o r k) view db := by
  cases o with
  | none => exact refused
  | some a => exact next a rfl

theorem alone_ofExcept {ε : Type*} {e : Except ε α} {f : ε → ρ} {k : α → Prog σ κ ℓ ρ}
    (refused : ∀ err, Q (f err) db) (next : ∀ a, e = .ok a → (k a).Alone Q view db) :
    Prog.Alone Q (Tx.ofExcept e f k) view db := by
  cases e with
  | error err => exact refused err
  | ok a => exact next a rfl

/-- Past a condition that is known to hold. -/
theorem alone_passed {c : Bool} {k : PUnit → Prog σ κ ℓ ρ} (hc : c = true)
    (next : (k ⟨⟩).Alone Q view db) : Prog.Alone Q (Tx.require c r k) view db := by
  rw [Tx.require, if_pos hc]
  exact next

theorem alone_refused {c : Bool} {k : PUnit → Prog σ κ ℓ ρ} (hc : c = false) (refused : Q r db) :
    Prog.Alone Q (Tx.require c r k) view db := by
  rw [Tx.require, hc]
  exact refused

theorem alone_found {o : Option α} {a : α} {k : α → Prog σ κ ℓ ρ} (ho : o = some a)
    (next : (k a).Alone Q view db) : Prog.Alone Q (Tx.orElse o r k) view db := by
  rw [ho]
  exact next

theorem alone_valid {ε : Type*} {e : Except ε α} {f : ε → ρ} {a : α} {k : α → Prog σ κ ℓ ρ}
    (he : e = .ok a) (next : (k a).Alone Q view db) :
    Prog.Alone Q (Tx.ofExcept e f k) view db := by
  rw [he]
  exact next

theorem alone_select {answer : σ → α} {k : α → Prog σ κ ℓ ρ}
    (next : (k (answer view)).Alone Q view db) : Prog.Alone Q (Tx.select label answer k) view db := next

theorem alone_selectFor {answer : σ → α} {k : α → Prog σ κ ℓ ρ}
    (next : (k (answer view)).Alone Q view db) :
    Prog.Alone Q (Tx.selectFor label locks answer k) view db := next

theorem alone_commit {k : PUnit → Prog σ κ ℓ ρ} (next : (k ⟨⟩).Alone Q view view) :
    Prog.Alone Q (Tx.commit k) view db := next

theorem alone_insert {violation : σ → Option ρ} {effect : σ → σ} {k : PUnit → Prog σ κ ℓ ρ}
    (refused : ∀ r, violation view = some r → Q r db)
    (next : violation view = none → (k ⟨⟩).Alone Q (effect view) db) :
    Prog.Alone Q (Tx.insert label locks violation effect k) view db := by
  unfold Prog.Alone Tx.insert
  cases hv : violation view with
  | some r =>
      simp only [Prog.result, Prog.leaves, hv]
      exact refused r hv
  | none =>
      simp only [Prog.result, Prog.leaves, hv]
      exact next hv

/-- An `UPDATE`: each changed row passes the check, or it fails with the first that does not. -/
theorem alone_update {σ κ ℓ ρ ι α : Type} [DecidableEq ι] {Q : ρ → σ → Prop} {label : ℓ}
    {T : Table σ κ ι α} {locks : α → List (Lock κ)} {p : α → Bool} {f : α → α}
    {check : σ → α → Option ρ} {k : Nat → Prog σ κ ℓ ρ} {view db : σ}
    (refused : ∀ r ∈ T.matching p view, ∀ e, check view (f r) = some e → Q e db)
    (next : (∀ r ∈ T.matching p view, check view (f r) = none) →
      (k (T.matching p view).length).Alone Q (T.modify p f view view) db) :
    Prog.Alone Q (Tx.update label T locks p f check k) view db := by
  unfold Prog.Alone Tx.update
  cases hv : (T.matching p view).findSome? fun r => check view (f r) with
  | some e =>
      simp only [Prog.result, Prog.leaves, hv]
      obtain ⟨r, hr, he⟩ := List.exists_of_findSome?_eq_some hv
      exact refused r hr e he
  | none =>
      simp only [Prog.result, Prog.leaves, hv]
      exact next (List.findSome?_eq_none_iff.mp hv)

/-- Past a part that is known to go on from another state. -/
theorem alone_ends {p q : Prog σ κ ℓ ρ} {view' db' : σ} (h : p.ends view db = q.ends view' db')
    (next : q.Alone Q view' db') : p.Alone Q view db := by
  rw [ends_eq, ends_eq] at h
  obtain ⟨hresult, hleaves⟩ := Prod.mk.inj (Option.some.inj h)
  unfold Prog.Alone
  rw [hresult, hleaves]
  exact next

end Alone

/-! ### Two side by side -/

/-- Two requests, each alone, end in related ways. -/
def Prog.Twins (R : ρ × σ → ρ × σ → Prop) (p q : Prog σ κ ℓ ρ) (view db view' db' : σ) : Prop :=
  R (p.result view, p.leaves view db) (q.result view', q.leaves view' db')

section Rules

variable {α β γ δ : Type u} {R : ρ × σ → ρ × σ → Prop} {label label' : ℓ} {view db view' db' : σ} {r : ρ}

/-- Where each goes on alone. -/
theorem twins_ends {p q p' q' : Prog σ κ ℓ ρ} {v d v' d' : σ} (hp : p.ends view db = p'.ends v d)
    (hq : q.ends view' db' = q'.ends v' d') (next : p'.Twins R q' v d v' d') :
    p.Twins R q view db view' db' := by
  rw [ends_eq, ends_eq] at hp hq
  obtain ⟨hresult, hleaves⟩ := Prod.mk.inj (Option.some.inj hp)
  obtain ⟨hresult', hleaves'⟩ := Prod.mk.inj (Option.some.inj hq)
  unfold Prog.Twins
  rw [hresult, hleaves, hresult', hleaves']
  exact next

/-- Where each ends alone. -/
theorem twins_of_ends {p q : Prog σ κ ℓ ρ} {ended ended' : ρ × σ} (hp : p.ends view db = some ended)
    (hq : q.ends view' db' = some ended') (h : R ended ended') : p.Twins R q view db view' db' := by
  obtain ⟨hresult, hleaves⟩ := result_of_ends hp
  obtain ⟨hresult', hleaves'⟩ := result_of_ends hq
  unfold Prog.Twins
  rw [hresult, hleaves, hresult', hleaves']
  exact h

theorem twins_bind {m : Tx σ κ ℓ ρ α} {f : α → Tx σ κ ℓ ρ β} {m' : Tx σ κ ℓ ρ γ}
    {f' : γ → Tx σ κ ℓ ρ δ} {k : β → Prog σ κ ℓ ρ} {k' : δ → Prog σ κ ℓ ρ}
    (h : Prog.Twins R (m fun a => f a k) (m' fun a => f' a k') view db view' db') :
    Prog.Twins R ((m >>= f) k) ((m' >>= f') k') view db view' db' := h

/-- The same check of both. -/
theorem twins_require {c c' : Bool} {k k' : PUnit → Prog σ κ ℓ ρ} (hsame : c = c')
    (refused : R (r, db) (r, db'))
    (next : c = true → Prog.Twins R (k ⟨⟩) (k' ⟨⟩) view db view' db') :
    Prog.Twins R (Tx.require c r k) (Tx.require c' r k') view db view' db' := by
  subst hsame
  unfold Tx.require
  cases c with
  | true => exact next rfl
  | false => exact refused

/-- Something that is there in both or in neither. -/
theorem twins_orElse {o : Option α} {o' : Option β} {k : α → Prog σ κ ℓ ρ} {k' : β → Prog σ κ ℓ ρ}
    {S : α → β → Prop} (hsame : Option.Rel S o o') (refused : R (r, db) (r, db'))
    (next : ∀ a b, o = some a → o' = some b → S a b → Prog.Twins R (k a) (k' b) view db view' db') :
    Prog.Twins R (Tx.orElse o r k) (Tx.orElse o' r k') view db view' db' := by
  cases hsame with
  | none => exact refused
  | some h => exact next _ _ rfl rfl h

/-- The same computation of both. -/
theorem twins_ofExcept {ε : Type*} {e : Except ε α} {f : ε → ρ} {k k' : α → Prog σ κ ℓ ρ}
    (refused : ∀ err, e = .error err → R (f err, db) (f err, db'))
    (next : ∀ a, e = .ok a → Prog.Twins R (k a) (k' a) view db view' db') :
    Prog.Twins R (Tx.ofExcept e f k) (Tx.ofExcept e f k') view db view' db' := by
  cases e with
  | ok a => exact next a rfl
  | error err => exact refused err rfl

theorem twins_stmt {locks locks' : σ → List (Lock κ)} {effect effect' : σ → σ → σ} {answer : σ → α}
    {answer' : σ → β} {k : α → Prog σ κ ℓ ρ} {k' : β → Prog σ κ ℓ ρ}
    (next : Prog.Twins R (k (answer view)) (k' (answer' view')) (effect view view) db
      (effect' view' view') db') :
    Prog.Twins R (Tx.stmt label locks effect answer k) (Tx.stmt label' locks' effect' answer' k') view
      db view' db' := next

theorem twins_select {answer : σ → α} {answer' : σ → β} {k : α → Prog σ κ ℓ ρ}
    {k' : β → Prog σ κ ℓ ρ}
    (next : Prog.Twins R (k (answer view)) (k' (answer' view')) view db view' db') :
    Prog.Twins R (Tx.select label answer k) (Tx.select label' answer' k') view db view' db' := next

theorem twins_selectFor {locks locks' : σ → List (Lock κ)} {answer : σ → α} {answer' : σ → β}
    {k : α → Prog σ κ ℓ ρ} {k' : β → Prog σ κ ℓ ρ}
    (next : Prog.Twins R (k (answer view)) (k' (answer' view')) view db view' db') :
    Prog.Twins R (Tx.selectFor label locks answer k) (Tx.selectFor label' locks' answer' k') view db
      view' db' := next

theorem twins_commit {k k' : PUnit → Prog σ κ ℓ ρ}
    (next : Prog.Twins R (k ⟨⟩) (k' ⟨⟩) view view view' view') :
    Prog.Twins R (Tx.commit k) (Tx.commit k') view db view' db' := next

end Rules

end Lib
