import CrownFi.Lib.Statements

/-!
# CrownFi.Lib.Confined

**Requests that write elsewhere, and parts that only read.** An outline speaks of some tables.
A request that writes others only, or these in harmless ways, has an outline for a trivial reason:
each of its statements moves the state along a relation of the locks that it takes, whatever it is
applied to, and this relation keeps the invariant and lies within the guarantee. Such a request
is `Confined` to the relation; it is `Bounded` if besides each statement sees what it must. A part of
a request that writes nothing (`Reads`) is passed by any outline.
-/

namespace Lib

universe u v w

variable {σ : Type u} {κ : Type v} {ℓ : Type w} {ρ α β : Type u} {ok must : ℓ → σ → Prop}
  {moves : List (Lock κ) → σ → σ → Prop}

/-- A relation between states for a list of locks: a preorder for each list, and the wider the more
is locked. -/
class Widening (moves : List (Lock κ) → σ → σ → Prop) : Prop where
  refl : ∀ L db, moves L db db
  trans : ∀ L db db' db'', moves L db db' → moves L db' db'' → moves L db db''
  mono : ∀ L L' db db', L ⊆ L' → moves L db db' → moves L' db db'

/-- A preorder, whatever is locked. -/
instance Widening.of_preorder {same : σ → σ → Prop} [IsPreorder σ same] :
    Widening fun _ : List (Lock κ) => same where
  refl _ db := refl_of same db
  trans _ _ _ _ h h' := trans_of same h h'
  mono _ _ _ _ _ h := h

/-! ### Confined programs -/

/-- Every change of the program stays within what `moves` admits for the locks of its statement,
whatever it is applied to, and every statement sees what it must, if the statements see what the
condition admits. -/
def Prog.Bounded (ok must : ℓ → σ → Prop) (moves : List (Lock κ) → σ → σ → Prop) :
    Prog σ κ ℓ ρ → Prop
  | .ret _ => True
  | .commit next => next.Bounded ok must moves
  | .stmt label locks effect next => ∀ view, ok label view →
      must label view ∧ (∀ db, moves (locks view) db (effect view db)) ∧ (next view).Bounded ok must moves

/-- Every change of the program stays within what `moves` admits. -/
abbrev Prog.Confined (ok : ℓ → σ → Prop) (moves : List (Lock κ) → σ → σ → Prop) (p : Prog σ κ ℓ ρ) :
    Prop :=
  p.Bounded ok (fun _ _ => True) moves

/-- **A program that writes elsewhere is safe.** -/
theorem Prog.Bounded.safe [DecidableEq κ] [Widening moves] {I : σ → Prop}
    {R G : List (Lock κ) → σ → σ → Prop} {p : Prog σ κ ℓ ρ} (h : p.Bounded ok must moves)
    (hI : ∀ L db db', moves L db db' → I db → I db')
    (hG : ∀ L db db', moves L db db' → I db → G L db db')
    {held : List (Lock κ)} {pending : σ → σ} (hpending : ∀ db, moves held db (pending db)) :
    Outlined I R G ok must p held pending fun _ => True := by
  induction p generalizing held pending with
  | ret r => exact safe_ret
  | commit next ih =>
      refine safe_commit (k := fun _ => next) (fun db hdb _ => ?_) (ih h (Widening.refl _))
      exact ⟨hI _ _ _ (hpending db) hdb, hG _ _ _ (hpending db) hdb⟩
  | stmt label locks effect next ih =>
      refine outlined_stmt.mpr fun db _ _ hok => ?_
      obtain ⟨hmust, hchange, hnext⟩ := h (pending db) hok
      refine ⟨hmust, fun _ => True, trivial, stable_true, ih _ hnext fun d => ?_⟩
      have hbefore := Widening.mono _ _ _ _
        (List.subset_append_left held (locks (pending db))) (hpending d)
      have hnow := Widening.mono _ _ _ _
        (List.subset_append_right held (locks (pending db))) (hchange (pending d))
      exact Widening.trans _ _ _ _ hbefore hnow

/-- A statement, and what goes on by what it saw. -/
theorem Prog.Bounded.stmt {label : ℓ} {locks : σ → List (Lock κ)} {effect : σ → σ → σ}
    {next : σ → Prog σ κ ℓ ρ} (h : ∀ view, ok label view → must label view ∧
      (∀ db, moves (locks view) db (effect view db)) ∧ (next view).Bounded ok must moves) :
    (Prog.stmt label locks effect next).Bounded ok must moves := h

theorem Prog.Bounded.ret {r : ρ} : (Prog.ret r : Prog σ κ ℓ ρ).Bounded ok must moves := trivial

theorem Prog.Bounded.safeRequest [DecidableEq κ] [Widening moves] {I : σ → Prop}
    {R G : List (Lock κ) → σ → σ → Prop} {p : Prog σ κ ℓ ρ} (h : p.Bounded ok must moves)
    (hI : ∀ L db db', moves L db db' → I db → I db')
    (hG : ∀ L db db', moves L db db' → I db → G L db db') :
    OutlinedRequest I R G ok must p :=
  h.safe hI hG (Widening.refl _)

namespace Tx

/-- A part of a program all of whose changes stay within `moves`, and that sees what it must. -/
def Bounded (ok must : ℓ → σ → Prop) (moves : List (Lock κ) → σ → σ → Prop) (m : Tx σ κ ℓ ρ α) :
    Prop :=
  ∀ k : α → Prog σ κ ℓ ρ, (∀ a, (k a).Bounded ok must moves) → (m k).Bounded ok must moves

/-- A part of a program all of whose changes stay within `moves`. -/
abbrev Confined (ok : ℓ → σ → Prop) (moves : List (Lock κ) → σ → σ → Prop) (m : Tx σ κ ℓ ρ α) : Prop :=
  m.Bounded ok (fun _ _ => True) moves

variable {label : ℓ} {locks : σ → List (Lock κ)}

/-- A part, by what it makes of whatever goes on. -/
theorem Bounded.of {m : Tx σ κ ℓ ρ α}
    (h : ∀ k : α → Prog σ κ ℓ ρ, (∀ a, (k a).Bounded ok must moves) → (m k).Bounded ok must moves) :
    m.Bounded ok must moves := h

theorem Bounded.request {m : Tx σ κ ℓ ρ α} (h : m.Bounded ok must moves) (f : α → ρ) :
    (m fun a => .ret (f a)).Bounded ok must moves :=
  h _ fun _ => trivial

theorem Bounded.pure {a : α} : Bounded ok must moves (Pure.pure a : Tx σ κ ℓ ρ α) := fun _ hk => hk a

theorem Bounded.bind {m : Tx σ κ ℓ ρ α} {f : α → Tx σ κ ℓ ρ β} (hm : m.Bounded ok must moves)
    (hf : ∀ a, (f a).Bounded ok must moves) : (m >>= f).Bounded ok must moves :=
  fun k hk => hm _ fun a => hf a k hk

theorem Bounded.ite {c : Prop} [Decidable c] {m n : Tx σ κ ℓ ρ α} (hm : m.Bounded ok must moves)
    (hn : n.Bounded ok must moves) : Bounded ok must moves (if c then m else n) := by
  split
  · exact hm
  · exact hn

theorem Bounded.exit {r : ρ} : Bounded ok must moves (Tx.exit r : Tx σ κ ℓ ρ α) := fun _ _ => trivial

theorem Bounded.require {c : Bool} {r : ρ} : Bounded ok must moves (Tx.require c r : Tx σ κ ℓ ρ PUnit) := by
  intro k hk
  unfold Tx.require
  split
  · exact hk ⟨⟩
  · trivial

theorem Bounded.orElse {o : Option α} {r : ρ} : Bounded ok must moves (Tx.orElse o r : Tx σ κ ℓ ρ α) := by
  intro k hk
  cases o with
  | none => trivial
  | some a => exact hk a

theorem Bounded.ofExcept {ε : Type*} {e : Except ε α} {r : ε → ρ} :
    Bounded ok must moves (Tx.ofExcept e r : Tx σ κ ℓ ρ α) := by
  intro k hk
  cases e with
  | error err => trivial
  | ok a => exact hk a

theorem Bounded.commit : Bounded ok must moves (Tx.commit : Tx σ κ ℓ ρ PUnit) := fun _ hk => hk ⟨⟩

/-- A read, with locks or without. -/
theorem Bounded.select [Widening moves] {answer : σ → α}
    [hmust : Evident (∀ view, ok label view → must label view)] :
    Bounded ok must moves (Tx.stmt label locks (fun _ db => db) answer : Tx σ κ ℓ ρ α) :=
  fun _ hk view hok => ⟨hmust.holds view hok, Widening.refl _, hk _⟩

theorem Bounded.write {effect : σ → σ} (h : ∀ view db, moves (locks view) db (effect db))
    [hmust : Evident (∀ view, ok label view → must label view)] :
    Bounded ok must moves (Tx.write label locks effect : Tx σ κ ℓ ρ PUnit) :=
  fun _ hk view hok => ⟨hmust.holds view hok, h view, hk ⟨⟩⟩

theorem Bounded.insert {violation : σ → Option ρ} {effect : σ → σ}
    (h : ∀ view db, moves (locks view) db (effect db))
    [hmust : Evident (∀ view, ok label view → must label view)] :
    Bounded ok must moves (Tx.insert label locks violation effect : Tx σ κ ℓ ρ PUnit) := by
  intro k hk view hok
  refine ⟨hmust.holds view hok, h view, ?_⟩
  cases hv : violation view with
  | some r =>
      simp only [hv]
      trivial
  | none =>
      simp only [hv]
      exact hk _

end Tx

namespace Tx

variable {σ κ ℓ ρ ι α : Type} {ok must : ℓ → σ → Prop} {moves : List (Lock κ) → σ → σ → Prop} {label : ℓ}
  {T : Table σ κ ι α}

/-- An update, in a state that the condition admits. -/
theorem Bounded.update [DecidableEq ι] {locks : α → List (Lock κ)} {p : α → Bool} {f : α → α}
    {check : σ → α → Option ρ}
    (h : ∀ view, ok label view → ∀ db, moves ((T.matching p view).flatMap locks) db (T.modify p f view db))
    [hmust : Evident (∀ view, ok label view → must label view)] :
    Bounded ok must moves (Tx.update label T locks p f check) := by
  intro k hk view hok
  refine ⟨hmust.holds view hok, h view hok, ?_⟩
  cases hv : (T.matching p view).findSome? fun r => check view (f r) with
  | some r =>
      simp only [hv]
      trivial
  | none =>
      simp only [hv]
      exact hk _

theorem Bounded.insertRow {locks : List (Lock κ)} {violation : σ → Option ρ} {r : α}
    (h : ∀ db, moves locks db (T.add r db))
    [hmust : Evident (∀ view, ok label view → must label view)] :
    Bounded ok must moves (Tx.insertRow label T locks violation r) := by
  intro k hk view hok
  refine ⟨hmust.holds view hok, fun db => h db, ?_⟩
  cases hv : violation view with
  | some r =>
      simp only [hv]
      trivial
  | none =>
      simp only [hv]
      exact hk _

end Tx

attribute [irreducible] Prog.Bounded Tx.Bounded

/-! ### Parts that only read -/

variable [DecidableEq κ]

/-- A part that writes and locks nothing, and goes on with values that satisfy `Q`: every outline
passes it. -/
def Tx.Reads (m : Tx σ κ ℓ ρ α) (Q : α → Prop) : Prop :=
  ∀ (I : σ → Prop) (R G : List (Lock κ) → σ → σ → Prop) (ok : ℓ → σ → Prop) (k : α → Prog σ κ ℓ ρ)
    (held : List (Lock κ)) (pending : σ → σ) (A : σ → Prop), Stable I R held A →
    (∀ a, Q a → Outlined I R G ok (fun _ _ => True) (k a) held pending A) →
    Outlined I R G ok (fun _ _ => True) (m k) held pending A

/-- Past a part that only reads. -/
theorem Tx.Reads.safe {m : Tx σ κ ℓ ρ α} {Q : α → Prop} (h : m.Reads Q) {I : σ → Prop}
    {R G : List (Lock κ) → σ → σ → Prop} {ok : ℓ → σ → Prop} {k : α → Prog σ κ ℓ ρ}
    {held : List (Lock κ)} {pending : σ → σ} {A : σ → Prop} (hA : Stable I R held A)
    (next : ∀ a, Q a → Outlined I R G ok (fun _ _ => True) (k a) held pending A) :
    Outlined I R G ok (fun _ _ => True) (m k) held pending A :=
  h I R G ok k held pending A hA next

namespace Tx

variable {label : ℓ}

theorem Reads.weaken {m : Tx σ κ ℓ ρ α} {Q R : α → Prop} (h : m.Reads Q) (hQR : ∀ a, Q a → R a) :
    m.Reads R :=
  fun I R' G ok k held pending A hA hk =>
    h I R' G ok k held pending A hA fun a ha => hk a (hQR a ha)

theorem Reads.pure {a : α} {Q : α → Prop} (ha : Q a) : Reads (Pure.pure a : Tx σ κ ℓ ρ α) Q :=
  fun _ _ _ _ _ _ _ _ _ hk => hk a ha

theorem Reads.bind {m : Tx σ κ ℓ ρ α} {f : α → Tx σ κ ℓ ρ β} {Q : α → Prop} {R : β → Prop}
    (hm : m.Reads Q) (hf : ∀ a, Q a → (f a).Reads R) : (m >>= f).Reads R :=
  fun I R' G ok k held pending A hA hk =>
    hm I R' G ok _ held pending A hA fun a ha => hf a ha I R' G ok k held pending A hA hk

theorem Reads.ite {c : Prop} [Decidable c] {m n : Tx σ κ ℓ ρ α} {Q : α → Prop}
    (hm : c → m.Reads Q) (hn : ¬ c → n.Reads Q) : Reads (if c then m else n) Q := by
  split
  · exact hm ‹_›
  · exact hn ‹_›

theorem Reads.require {c : Bool} {r : ρ} :
    Reads (Tx.require c r : Tx σ κ ℓ ρ PUnit) fun _ => c = true :=
  fun _ _ _ _ _ _ _ _ _ hk => safe_require fun hc => hk _ hc

theorem Reads.orElse {o : Option α} {r : ρ} :
    Reads (Tx.orElse o r : Tx σ κ ℓ ρ α) fun a => o = some a :=
  fun _ _ _ _ _ _ _ _ _ hk => safe_orElse hk

theorem Reads.ofExcept {ε : Type*} {e : Except ε α} {r : ε → ρ} :
    Reads (Tx.ofExcept e r : Tx σ κ ℓ ρ α) fun a => e = .ok a :=
  fun _ _ _ _ _ _ _ _ _ hk => safe_ofExcept hk

theorem Reads.select {answer : σ → α} :
    Reads (Tx.select label answer : Tx σ κ ℓ ρ α) fun a => ∃ view, a = answer view :=
  fun _ _ _ _ _ _ pending _ hA hk => safe_select hA fun db _ _ _ ha => hk _ ⟨pending db, ha.symm⟩

/-- A check of something that is read. -/
theorem Reads.check {answer : σ → α} {passed : α → Bool} {r : ρ} :
    Reads (do
      let value ← Tx.select label answer
      Tx.require (passed value) r : Tx σ κ ℓ ρ PUnit) fun _ => True :=
  .bind .select fun _ _ => Reads.require.weaken fun _ _ => trivial

end Tx

end Lib
