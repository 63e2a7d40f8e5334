import CrownFi.Lib.Serial

/-!
# CrownFi.Lib.Preserving

**Facts that every write keeps.** Some facts about a database need no locks: whatever a
statement saw when it chose its change, and whatever state the change is applied to at
commit time, the fact is kept. Such a program `Preserves` the fact, and so does every
interleaving of such programs (`run_preserves`).
-/

namespace Lib

universe u v w

variable {σ : Type u} {κ : Type v} {ℓ : Type w} {ρ α β : Type u} {P : σ → Prop}

/-- A program all of whose changes keep `P`, on every state that has it. -/
def Prog.Preserves (P : σ → Prop) : Prog σ κ ℓ ρ → Prop
  | .ret _ => True
  | .commit next => next.Preserves P
  | .stmt _ _ effect next => ∀ view, P view →
      (∀ db, P db → P (effect view db)) ∧ (next view).Preserves P

/-- Such a program needs no assertion between its statements. -/
theorem Prog.Preserves.safe [DecidableEq κ] {ok : ℓ → σ → Prop} {p : Prog σ κ ℓ ρ}
    (h : p.Preserves P) {held : List (Lock κ)} {pending : σ → σ} (hpending : ∀ db, P db → P (pending db)) :
    Safe P (fun _ _ _ => True) ok p held pending fun _ => True := by
  induction p generalizing held pending with
  | ret r => exact safe_ret
  | commit next ih =>
      exact safe_commit (k := fun _ => next) (fun db hdb _ => ⟨hpending db hdb, trivial⟩)
        (ih h fun _ hdb => hdb)
  | stmt label locks effect next ih =>
      refine safe_step fun db hdb _ _ => ?_
      obtain ⟨hkeeps, hnext⟩ := h (pending db) (hpending db hdb)
      exact ⟨fun _ => True, trivial, stable_true, ih _ hnext fun d hd => hkeeps _ (hpending d hd)⟩

/-- **Every interleaving keeps what each request keeps.** -/
theorem run_preserves [DecidableEq κ] {ok : ℓ → σ → Prop} {requests : Prog σ κ ℓ ρ → Prop}
    (hrequests : ∀ p, requests p → p.Preserves P) {db : σ} {pool : Pool σ κ ℓ ρ}
    {actions : List (Action σ κ ℓ ρ)} (hrun : Run (Pool.Step requests ok) (Pool.idle db) actions pool)
    (h : P db) : P pool.db :=
  (run_healthy (fun p hp => (hrequests p hp).safe fun _ hdb => hdb) hrun (healthy_idle h)).inv

/-! ### Program parts -/

namespace Tx

/-- A program part that keeps `P`, and goes on with values that satisfy `Q`. -/
def Preserves (P : σ → Prop) (m : Tx σ κ ℓ ρ α) (Q : α → Prop) : Prop :=
  ∀ k : α → Prog σ κ ℓ ρ, (∀ a, Q a → (k a).Preserves P) → (m k).Preserves P

theorem Preserves.request {m : Tx σ κ ℓ ρ α} {Q : α → Prop} (h : m.Preserves P Q) (f : α → ρ) :
    (m fun a => .ret (f a)).Preserves P :=
  h _ fun _ _ => trivial

theorem Preserves.weaken {m : Tx σ κ ℓ ρ α} {Q : α → Prop} (h : m.Preserves P Q) :
    m.Preserves P fun _ => True :=
  fun k hk => h k fun a _ => hk a trivial

theorem Preserves.pure {a : α} {Q : α → Prop} (ha : Q a) :
    Preserves P (Pure.pure a : Tx σ κ ℓ ρ α) Q :=
  fun _ hk => hk a ha

theorem Preserves.bind {m : Tx σ κ ℓ ρ α} {f : α → Tx σ κ ℓ ρ β} {Q : α → Prop} {R : β → Prop}
    (hm : m.Preserves P Q) (hf : ∀ a, Q a → (f a).Preserves P R) : (m >>= f).Preserves P R :=
  fun k hk => hm _ fun a ha => hf a ha k hk

theorem Preserves.ite {c : Prop} [Decidable c] {m n : Tx σ κ ℓ ρ α} {Q : α → Prop}
    (hm : c → m.Preserves P Q) (hn : ¬ c → n.Preserves P Q) :
    Preserves P (if c then m else n) Q := by
  split
  · exact hm ‹_›
  · exact hn ‹_›

theorem Preserves.exit {r : ρ} {Q : α → Prop} : Preserves P (Tx.exit r : Tx σ κ ℓ ρ α) Q :=
  fun _ _ => trivial

theorem Preserves.require {c : Bool} {r : ρ} :
    Preserves P (Tx.require c r : Tx σ κ ℓ ρ PUnit) fun _ => c = true := by
  intro k hk
  unfold Tx.require
  split
  · rename_i hc
    exact hk _ hc
  · trivial

theorem Preserves.orElse {o : Option α} {r : ρ} :
    Preserves P (Tx.orElse o r : Tx σ κ ℓ ρ α) fun a => o = some a := by
  intro k hk
  cases o with
  | none => trivial
  | some a => exact hk a rfl

theorem Preserves.ofExcept {ε : Type*} {e : Except ε α} {r : ε → ρ} :
    Preserves P (Tx.ofExcept e r : Tx σ κ ℓ ρ α) fun a => e = .ok a := by
  intro k hk
  cases e with
  | error err => trivial
  | ok a => exact hk a rfl

theorem Preserves.commit : Preserves P (Tx.commit : Tx σ κ ℓ ρ PUnit) fun _ => True :=
  fun _ hk => hk _ trivial

/-! ### Statements -/

variable {label : ℓ}

/-- What is read is read in a state that has `P`. -/
theorem Preserves.select {answer : σ → α} :
    Preserves P (Tx.select label answer : Tx σ κ ℓ ρ α) fun a => ∃ view, P view ∧ a = answer view :=
  fun _ hk view hview => ⟨fun _ hdb => hdb, hk _ ⟨view, hview, rfl⟩⟩

theorem Preserves.selectFor {locks : σ → List (Lock κ)} {answer : σ → α} :
    Preserves P (Tx.selectFor label locks answer : Tx σ κ ℓ ρ α)
      fun a => ∃ view, P view ∧ a = answer view :=
  fun _ hk view hview => ⟨fun _ hdb => hdb, hk _ ⟨view, hview, rfl⟩⟩

theorem Preserves.write {locks : σ → List (Lock κ)} {effect : σ → σ}
    (h : ∀ db, P db → P (effect db)) :
    Preserves P (Tx.write label locks effect : Tx σ κ ℓ ρ PUnit) fun _ => True :=
  fun _ hk _ _ => ⟨h, hk _ trivial⟩

end Tx

namespace Tx

variable {σ κ ℓ ρ ι α : Type} [DecidableEq ι] {P : σ → Prop} {label : ℓ} {T : Table σ κ ι α}

theorem Preserves.update {locks : α → List (Lock κ)} {p : α → Bool} {f : α → α}
    {check : σ → α → Option ρ} (h : ∀ view db, P db → P (T.modify p f view db)) :
    Preserves P (Tx.update label T locks p f check) fun _ => True := by
  intro k hk view _
  refine ⟨fun db hdb => h view db hdb, ?_⟩
  cases hv : (T.matching p view).findSome? fun r => check view (f r) with
  | some r =>
      simp only [hv]
      trivial
  | none =>
      simp only [hv]
      exact hk _ trivial

omit [DecidableEq ι] in
theorem Preserves.insertRow {locks : List (Lock κ)} {violation : σ → Option ρ} {r : α}
    (h : ∀ db, P db → P (T.add r db)) :
    Preserves P (Tx.insertRow label T locks violation r) fun _ => True := by
  intro k hk view _
  refine ⟨h, ?_⟩
  cases hv : violation view with
  | some r =>
      simp only [hv]
      trivial
  | none =>
      simp only [hv]
      exact hk _ trivial

end Tx

namespace Table

variable {σ κ ι α : Type} {T : Table σ κ ι α} {Good : α → Prop} {db : σ}

/-- A fact about each row, kept by an `UPDATE` that keeps it of the rows it matches. -/
theorem forall_modify [DecidableEq ι] {p : α → Bool} {f : α → α} {view : σ}
    (hf : ∀ r, p r = true → Good r → Good (f r)) (h : ∀ r ∈ T.rows db, Good r) :
    ∀ r ∈ T.rows (T.modify p f view db), Good r := by
  intro r hr
  rcases T.mem_modify hr with hold | ⟨r₀, hr₀, hp, rfl⟩
  · exact h r hold
  · exact hf r₀ hp (h r₀ hr₀)

theorem forall_add {r : α} (hr : Good r) (h : ∀ r ∈ T.rows db, Good r) :
    ∀ r' ∈ T.rows (T.add r db), Good r' := by
  rw [rows_add, List.forall_mem_append, List.forall_mem_singleton]
  exact ⟨h, hr⟩

end Table

-- kept by the rules; to evaluate `Preserves` would be to run the program
attribute [irreducible] Tx.Preserves Prog.Preserves

end Lib
