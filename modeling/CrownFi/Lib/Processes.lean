import CrownFi.Lib.Run
import Mathlib.Tactic.Common

/-!
# CrownFi.Lib.Processes

**Processes that share a state.** A process accesses the state one atomic step at a time: a statement
outside a transaction, a call of another service, a look into a table in memory. Between two accesses
the others run, and events happen outside (`Environment`). A process may hold exclusive locks, which
outlive its accesses; they are tried for, not waited for, and a process that ends gives them back.

Processes are verified alone: an outline (`Outlined`) says what a process remembers of the state from
access to access, and that nothing it remembers can be broken by those who do not hold its locks.
Outlined processes, in any number and any interleaving, keep the invariant (`run_running`), every
access sees a state that it must see (`Running.sees`), and every answer is one that its request may get
(`Running.answered`).
-/

namespace Lib.Processes

universe u v w x y

/-! ### Processes -/

/-- A process over the state `σ`, with locks `κ`, accesses labelled by `ℓ`, and answer `ρ`. -/
inductive Proc (σ : Type u) (κ : Type v) (ℓ : Type w) (ρ : Type u) : Type (max u v w)
  | ret (r : ρ)
  | access (label : ℓ) (effect : σ → σ) (next : σ → Proc σ κ ℓ ρ)
  | acquire (key : κ) (next : Bool → Proc σ κ ℓ ρ)
  | release (key : κ) (next : Proc σ κ ℓ ρ)

/-- A part of a process with result `α`. -/
def Task (σ : Type u) (κ : Type v) (ℓ : Type w) (ρ : Type u) (α : Type x) :=
  (α → Proc σ κ ℓ ρ) → Proc σ κ ℓ ρ

namespace Task

variable {σ : Type u} {κ : Type v} {ℓ : Type w} {ρ : Type u} {α : Type x}

instance : Monad (Task σ κ ℓ ρ) where
  pure a := fun k => k a
  bind m f := fun k => m fun a => f a k

/-- One access: a change of the state, and an answer from the state before it. -/
def access (label : ℓ) (effect : σ → σ) (answer : σ → α) : Task σ κ ℓ ρ α :=
  fun k => .access label effect fun s => k (answer s)

def read (label : ℓ) (answer : σ → α) : Task σ κ ℓ ρ α := access label id answer

def write (label : ℓ) (effect : σ → σ) : Task σ κ ℓ ρ PUnit := access label effect fun _ => ⟨⟩

/-- One access that may be refused, and changes nothing then. -/
def transact {δ : Type*} (label : ℓ) (change : σ → Except δ σ) (r : δ → ρ) : Task σ κ ℓ ρ PUnit := fun k =>
  .access label (fun s => match change s with | .ok s' => s' | .error _ => s) fun s =>
    match change s with
    | .ok _ => k ⟨⟩
    | .error e => .ret (r e)

/-- Try for a lock. -/
def acquire (key : κ) : Task σ κ ℓ ρ Bool := fun k => .acquire key k

def release (key : κ) : Task σ κ ℓ ρ PUnit := fun k => .release key (k ⟨⟩)

/-- End the process. -/
def exit (r : ρ) : Task σ κ ℓ ρ α := fun _ => .ret r

/-- Go on only if `c` holds. -/
def require (c : Bool) (r : ρ) : Task σ κ ℓ ρ PUnit := fun k => if c then k ⟨⟩ else .ret r

/-- Go on with the value, if there is one. -/
def orElse (o : Option α) (r : ρ) : Task σ κ ℓ ρ α := fun k =>
  match o with
  | some a => k a
  | none => .ret r

/-- Go on with the value of a computation that did not fail. -/
def ofExcept {ε : Type*} (e : Except ε α) (r : ε → ρ) : Task σ κ ℓ ρ α := fun k =>
  match e with
  | .ok a => k a
  | .error err => .ret (r err)

end Task

/-! ### Worlds -/

variable {ι : Type y} {σ : Type u} {κ : Type v} {ℓ : Type w} {ρ : Type u} {ε : Type x}

/-- What runs in a world: a program for each request, and what happens outside: events that change the
state, where they are possible. -/
structure System (ι : Type y) (σ : Type u) (κ : Type v) (ℓ : Type w) (ρ : Type u) (ε : Type x) where
  program : ι → Proc σ κ ℓ ρ
  change : ε → σ → σ
  possible : ε → σ → Prop

/-- What the steps of a run are to meet: conditions on the state that an access sees, and on the state that
an event comes upon, with locks that nobody may hold then. -/
structure Discipline (σ : Type u) (κ : Type v) (ℓ : Type w) (ε : Type x) where
  access : ℓ → σ → Prop
  event : ε → σ → Prop
  locks : ε → σ → List κ

/-- Conditions on the accesses only. -/
def Discipline.ofAccess (access : ℓ → σ → Prop) : Discipline σ κ ℓ ε where
  access := access
  event _ _ := True
  locks _ _ := []

/-- Any run. -/
def Discipline.none : Discipline σ κ ℓ ε := .ofAccess fun _ _ => True

/-- The request that a process serves, the locks that it holds, and what is left of it. -/
structure Process (ι : Type y) (σ : Type u) (κ : Type v) (ℓ : Type w) (ρ : Type u) where
  request : ι
  held : List κ
  proc : Proc σ κ ℓ ρ

structure World (ι : Type y) (σ : Type u) (κ : Type v) (ℓ : Type w) (ρ : Type u) where
  state : σ
  processes : List (Process ι σ κ ℓ ρ)

/-- What the scheduler does: start a process, run the next step of one, end one, or let an event
happen. -/
inductive Move (ι : Type y) (ε : Type x) : Type (max x y)
  | spawn (request : ι)
  | go (i : Nat)
  | kill (i : Nat)
  | event (e : ε)

/-- The label of the access that a process makes next, if it makes one. -/
def Proc.label? : Proc σ κ ℓ ρ → Option ℓ
  | .access label _ _ => some label
  | _ => none

/-- The answer of a process that has ended. -/
def Proc.answer? : Proc σ κ ℓ ρ → Option ρ
  | .ret r => some r
  | _ => none

/-- A process run alone, with every lock free: its answer, and the state that it leaves. -/
def Proc.alone : Proc σ κ ℓ ρ → σ → ρ × σ
  | .ret r, s => (r, s)
  | .access _ effect next, s => (next s).alone (effect s)
  | .acquire _ next, s => (next true).alone s
  | .release _ next, s => next.alone s

namespace World

variable [DecidableEq κ]

/-- Nobody holds the lock. -/
def free (world : World ι σ κ ℓ ρ) (key : κ) : Bool := world.processes.all fun t => key ∉ t.held

/-- One step of process `i`. -/
def advance (world : World ι σ κ ℓ ρ) (i : Nat) (t : Process ι σ κ ℓ ρ) : World ι σ κ ℓ ρ :=
  match t.proc with
  | .ret _ => { world with processes := world.processes.eraseIdx i }
  | .access _ effect next =>
      ⟨effect world.state, world.processes.set i { t with proc := next world.state }⟩
  | .acquire key next =>
      if world.free key then
        { world with
          processes := world.processes.set i { t with held := key :: t.held, proc := next true } }
      else { world with processes := world.processes.set i { t with proc := next false } }
  | .release key next =>
      { world with
        processes := world.processes.set i { t with held := t.held.erase key, proc := next } }

def exec (sys : System ι σ κ ℓ ρ ε) (world : World ι σ κ ℓ ρ) : Move ι ε → Option (World ι σ κ ℓ ρ)
  | .spawn request =>
      some { world with processes := world.processes ++ [⟨request, [], sys.program request⟩] }
  | .go i => world.processes[i]?.map fun t => world.advance i t
  | .kill i => some { world with processes := world.processes.eraseIdx i }
  | .event e => some { world with state := sys.change e world.state }

/-- Which moves a discipline admits. -/
def Admits (sys : System ι σ κ ℓ ρ ε) (D : Discipline σ κ ℓ ε) (world : World ι σ κ ℓ ρ) : Move ι ε → Prop
  | .go i => ∀ t, world.processes[i]? = some t → ∀ label, t.proc.label? = some label →
      D.access label world.state
  | .event e => sys.possible e world.state ∧ D.event e world.state ∧
      ∀ key ∈ D.locks e world.state, world.free key = true
  | _ => True

/-- One step of the system. -/
def Step (sys : System ι σ κ ℓ ρ ε) (D : Discipline σ κ ℓ ε) (world : World ι σ κ ℓ ρ) (m : Move ι ε)
    (world' : World ι σ κ ℓ ρ) : Prop :=
  world.Admits sys D m ∧ world.exec sys m = some world'

/-- No process is running. -/
def idle (s : σ) : World ι σ κ ℓ ρ := ⟨s, []⟩

section Replay

variable {sys : System ι σ κ ℓ ρ ε} {D : Discipline σ κ ℓ ε} [∀ label s, Decidable (D.access label s)]
  [∀ e s, Decidable (D.event e s)] [∀ e s, Decidable (sys.possible e s)]

/-- The condition of a move, evaluated. -/
def admitted (sys : System ι σ κ ℓ ρ ε) (D : Discipline σ κ ℓ ε) [∀ label s, Decidable (D.access label s)]
    [∀ e s, Decidable (D.event e s)] [∀ e s, Decidable (sys.possible e s)]
    (world : World ι σ κ ℓ ρ) : Move ι ε → Bool
  | .go i => ((world.processes[i]?.bind fun t =>
      t.proc.label?.map fun label => decide (D.access label world.state)).getD true)
  | .event e => decide (sys.possible e world.state) && decide (D.event e world.state) &&
      (D.locks e world.state).all world.free
  | _ => true

/-- A sequence of moves; `none` when one of them is not possible. -/
def replay (sys : System ι σ κ ℓ ρ ε) (D : Discipline σ κ ℓ ε) [∀ label s, Decidable (D.access label s)]
    [∀ e s, Decidable (D.event e s)] [∀ e s, Decidable (sys.possible e s)] (world : World ι σ κ ℓ ρ) :
    List (Move ι ε) → Option (World ι σ κ ℓ ρ)
  | [] => some world
  | m :: rest =>
      if world.admitted sys D m then (world.exec sys m).bind fun next => next.replay sys D rest
      else none

/-- A schedule that can be replayed is a run. -/
theorem run_of_replay {world world' : World ι σ κ ℓ ρ} {moves : List (Move ι ε)}
    (h : world.replay sys D moves = some world') : Run (World.Step sys D) world moves world' := by
  induction moves generalizing world with
  | nil =>
      obtain rfl := Option.some.inj h
      exact .refl _
  | cons m rest ih =>
      rw [replay] at h
      split at h
      · rename_i hpasses
        obtain ⟨next, hexec, hrest⟩ := Option.bind_eq_some_iff.mp h
        have hallow : world.Admits sys D m := by
          cases m with
          | go i =>
              intro t ht label hlabel
              simpa [admitted, ht, hlabel] using hpasses
          | event e =>
              simp only [admitted, Bool.and_eq_true, decide_eq_true_eq, List.all_eq_true] at hpasses
              exact ⟨hpasses.1.1, hpasses.1.2, hpasses.2⟩
          | spawn _ => trivial
          | kill i => trivial
        exact (Run.single ⟨hallow, hexec⟩).append (ih hrest)
      · cases h

end Replay

end World

/-- Without conditions there is nothing to evaluate. -/
instance (label : ℓ) (s : σ) : Decidable ((Discipline.none : Discipline σ κ ℓ ε).access label s) :=
  .isTrue trivial

instance (access : ℓ → σ → Prop) (e : ε) (s : σ) :
    Decidable ((Discipline.ofAccess access : Discipline σ κ ℓ ε).event e s) := .isTrue trivial

instance (e : ε) (s : σ) : Decidable ((Discipline.none : Discipline σ κ ℓ ε).event e s) := .isTrue trivial

instance (access : ℓ → σ → Prop) [∀ label s, Decidable (access label s)] (label : ℓ) (s : σ) :
    Decidable ((Discipline.ofAccess access : Discipline σ κ ℓ ε).access label s) :=
  inferInstanceAs (Decidable (access label s))

/-! ### Outlines -/

variable {I : σ → Prop} {G : List κ → σ → σ → Prop} {ok : ℓ → σ → Prop}
  {must : ℓ → List κ → σ → Prop} {answers : ρ → Prop}

/-- Nobody without the locks breaks `A`. -/
def Stable (I : σ → Prop) (G : List κ → σ → σ → Prop) (held : List κ) (A : σ → Prop) : Prop :=
  ∀ L s s', (∀ k ∈ held, k ∉ L) → I s → I s' → A s → G L s s' → A s'

/-- An outline of the rest of a process that holds these locks, at a point where `A` holds. Each of its
changes keeps the invariant and is one that `G` grants to the holder of its locks, each access is made
in a state that it `must` see with the locks it holds, and the answer is one of `answers`. -/
def Outlined [DecidableEq κ] (I : σ → Prop) (G : List κ → σ → σ → Prop) (ok : ℓ → σ → Prop)
    (must : ℓ → List κ → σ → Prop) (answers : ρ → Prop) : Proc σ κ ℓ ρ → List κ → (σ → Prop) → Prop
  | .ret r, _, _ => answers r
  | .access label effect next, held, A => ∀ s, I s → A s → ok label s →
      must label held s ∧ (effect s = s ∨ (I (effect s) ∧ G held s (effect s))) ∧
        ∃ B, B (effect s) ∧ Stable I G held B ∧ Outlined I G ok must answers (next s) held B
  | .acquire key next, held, A =>
      Outlined I G ok must answers (next true) (key :: held) A ∧ Outlined I G ok must answers (next false) held A
  | .release key next, held, A =>
      ∃ B, (∀ s, I s → A s → B s) ∧ Stable I G (held.erase key) B ∧
        Outlined I G ok must answers next (held.erase key) B

/-- Nothing is remembered that others could break. -/
theorem stable_true {held : List κ} : Stable I G held fun _ => True := fun _ _ _ _ _ _ _ _ => trivial

/-- More locks keep more away. -/
theorem Stable.mono {held held' : List κ} {A : σ → Prop} (h : Stable I G held A) (hsub : held ⊆ held') :
    Stable I G held' A :=
  fun L s s' hfree hI hI' hA hG => h L s s' (fun k hk => hfree k (hsub hk)) hI hI' hA hG

theorem Stable.and {held : List κ} {A B : σ → Prop} (hA : Stable I G held A) (hB : Stable I G held B) :
    Stable I G held fun s => A s ∧ B s :=
  fun L s s' hfree hI hI' h hG => ⟨hA L s s' hfree hI hI' h.1 hG, hB L s s' hfree hI hI' h.2 hG⟩

section Rules

variable [DecidableEq κ] {α : Type x} {label : ℓ} {held : List κ} {A : σ → Prop} {r : ρ}

theorem outlined_ret (h : answers r) : Outlined I G ok must answers (.ret r : Proc σ κ ℓ ρ) held A := h

/-- The rule of consequence. -/
theorem outlined_weaken {p : Proc σ κ ℓ ρ} {A A' : σ → Prop} (hA : ∀ s, I s → A s → A' s)
    (h : Outlined I G ok must answers p held A') : Outlined I G ok must answers p held A := by
  induction p generalizing held with
  | ret r => exact h
  | access label effect next => exact fun s hI hs => h s hI (hA s hI hs)
  | acquire key next ih => exact ⟨ih true h.1, ih false h.2⟩
  | release key next ih =>
      obtain ⟨B, hB, hnext⟩ := h
      exact ⟨B, fun s hI hs => hB s hI (hA s hI hs), hnext⟩

theorem outlined_exit {k : α → Proc σ κ ℓ ρ} [h : Evident (answers r)] :
    Outlined I G ok must answers (Task.exit r k) held A := h.holds

theorem outlined_bind {β : Type x} {m : Task σ κ ℓ ρ α} {f : α → Task σ κ ℓ ρ β} {k : β → Proc σ κ ℓ ρ}
    (h : Outlined I G ok must answers (m fun a => f a k) held A) :
    Outlined I G ok must answers ((m >>= f) k) held A := h

theorem outlined_requireFailing {c : Bool} {k : PUnit → Proc σ κ ℓ ρ}
    (h : c = true → Outlined I G ok must answers (k ⟨⟩) held A)
    (hfails : c = false → answers r) :
    Outlined I G ok must answers (Task.require c r k) held A := by
  unfold Task.require
  split
  · exact h ‹_›
  · rename_i hc
    exact outlined_ret (hfails (Bool.not_eq_true c ▸ hc))

theorem outlined_require {c : Bool} {k : PUnit → Proc σ κ ℓ ρ} [hfails : Evident (c = false → answers r)]
    (h : c = true → Outlined I G ok must answers (k ⟨⟩) held A) :
    Outlined I G ok must answers (Task.require c r k) held A := outlined_requireFailing h hfails.holds

theorem outlined_orElseFailing {o : Option α} {k : α → Proc σ κ ℓ ρ}
    (h : ∀ a, o = some a → Outlined I G ok must answers (k a) held A)
    (hfails : o = none → answers r) :
    Outlined I G ok must answers (Task.orElse o r k) held A := by
  unfold Task.orElse
  split
  · exact h _ rfl
  · exact outlined_ret (hfails rfl)

theorem outlined_orElse {o : Option α} {k : α → Proc σ κ ℓ ρ} [hfails : Evident (o = none → answers r)]
    (h : ∀ a, o = some a → Outlined I G ok must answers (k a) held A) :
    Outlined I G ok must answers (Task.orElse o r k) held A := outlined_orElseFailing h hfails.holds

theorem outlined_ofExceptFailing {δ : Type*} {e : Except δ α} {r : δ → ρ} {k : α → Proc σ κ ℓ ρ}
    (h : ∀ a, e = .ok a → Outlined I G ok must answers (k a) held A)
    (hfails : ∀ err, e = .error err → answers (r err)) :
    Outlined I G ok must answers (Task.ofExcept e r k) held A := by
  unfold Task.ofExcept
  split
  · exact h _ rfl
  · exact outlined_ret (hfails _ rfl)

theorem outlined_ofExcept {δ : Type*} {e : Except δ α} {r : δ → ρ} {k : α → Proc σ κ ℓ ρ}
    [hfails : Evident (∀ err, e = .error err → answers (r err))]
    (h : ∀ a, e = .ok a → Outlined I G ok must answers (k a) held A) :
    Outlined I G ok must answers (Task.ofExcept e r k) held A := outlined_ofExceptFailing h hfails.holds

theorem outlined_ite {c : Prop} [Decidable c] {m n : Task σ κ ℓ ρ α} {k : α → Proc σ κ ℓ ρ}
    (hm : c → Outlined I G ok must answers (m k) held A) (hn : ¬ c → Outlined I G ok must answers (n k) held A) :
    Outlined I G ok must answers ((if c then m else n) k) held A := by
  split
  · exact hm ‹_›
  · exact hn ‹_›

/-- The rule of an access that must see something: choose what to remember. -/
theorem outlined_accessSeeing {effect : σ → σ} {answer : σ → α} {k : α → Proc σ κ ℓ ρ}
    (h : ∀ s, I s → A s → ok label s →
      (effect s = s ∨ (I (effect s) ∧ G held s (effect s))) ∧
        ∃ B, B (effect s) ∧ Stable I G held B ∧ Outlined I G ok must answers (k (answer s)) held B)
    (hmust : ∀ s, I s → A s → ok label s → must label held s) :
    Outlined I G ok must answers (Task.access label effect answer k) held A :=
  fun s hI hA hok => ⟨hmust s hI hA hok, h s hI hA hok⟩

theorem outlined_access {effect : σ → σ} {answer : σ → α} {k : α → Proc σ κ ℓ ρ}
    (h : ∀ s, I s → A s → ok label s →
      (effect s = s ∨ (I (effect s) ∧ G held s (effect s))) ∧
        ∃ B, B (effect s) ∧ Stable I G held B ∧ Outlined I G ok must answers (k (answer s)) held B)
    [hmust : Evident (∀ s, I s → A s → ok label s → must label held s)] :
    Outlined I G ok must answers (Task.access label effect answer k) held A :=
  outlined_accessSeeing h hmust.holds

/-- A read may remember what it saw, as far as the locks protect it. -/
theorem outlined_read {answer : σ → α} {k : α → Proc σ κ ℓ ρ}
    (h : ∀ s, I s → A s → ok label s →
      ∃ B, B s ∧ Stable I G held B ∧ Outlined I G ok must answers (k (answer s)) held B)
    [hmust : Evident (∀ s, I s → A s → ok label s → must label held s)] :
    Outlined I G ok must answers (Task.read label answer k) held A :=
  outlined_access (fun s hI hA hok => ⟨.inl rfl, h s hI hA hok⟩)

/-- A read that is not remembered. -/
theorem outlined_look {answer : σ → α} {k : α → Proc σ κ ℓ ρ} (hA : Stable I G held A)
    (h : ∀ s, I s → A s → Outlined I G ok must answers (k (answer s)) held A)
    [hmust : Evident (∀ s, I s → A s → ok label s → must label held s)] :
    Outlined I G ok must answers (Task.read label answer k) held A :=
  outlined_read (fun s hI hAs _ => ⟨A, hAs, hA, h s hI hAs⟩)

theorem outlined_write {effect : σ → σ} {k : PUnit → Proc σ κ ℓ ρ}
    (h : ∀ s, I s → A s → ok label s →
      (effect s = s ∨ (I (effect s) ∧ G held s (effect s))) ∧
        ∃ B, B (effect s) ∧ Stable I G held B ∧ Outlined I G ok must answers (k ⟨⟩) held B)
    [hmust : Evident (∀ s, I s → A s → ok label s → must label held s)] :
    Outlined I G ok must answers (Task.write label effect k) held A :=
  outlined_access h

/-- The rule of a change that may be refused. -/
theorem outlined_transact {δ : Type*} {change : σ → Except δ σ} {r : δ → ρ} {k : PUnit → Proc σ κ ℓ ρ}
    (h : ∀ s s', I s → A s → ok label s → change s = .ok s' →
      (I s' ∧ G held s s') ∧
        ∃ B, B s' ∧ Stable I G held B ∧ Outlined I G ok must answers (k ⟨⟩) held B)
    [hfails : Evident (∀ s e, change s = .error e → answers (r e))]
    [hmust : Evident (∀ s, I s → A s → ok label s → must label held s)] :
    Outlined I G ok must answers (Task.transact label change r k) held A := by
  intro s hI hA hok
  refine ⟨hmust.holds s hI hA hok, ?_⟩
  cases hchange : change s with
  | ok s' =>
      obtain ⟨hs', B, hB, hstable, hnext⟩ := h s s' hI hA hok hchange
      simp only [hchange]
      exact ⟨.inr hs', B, hB, hstable, hnext⟩
  | error e =>
      simp only [hchange]
      exact ⟨.inl trivial, fun _ => True, trivial, stable_true, outlined_ret (hfails.holds s e hchange)⟩

theorem outlined_acquire {key : κ} {k : Bool → Proc σ κ ℓ ρ}
    (h : Outlined I G ok must answers (k true) (key :: held) A) (h' : Outlined I G ok must answers (k false) held A) :
    Outlined I G ok must answers (Task.acquire key k) held A := ⟨h, h'⟩

/-- A lock is given back, with all that it protected. -/
theorem outlined_release {key : κ} {k : PUnit → Proc σ κ ℓ ρ}
    (h : Outlined I G ok must answers (k ⟨⟩) (held.erase key) fun _ => True) :
    Outlined I G ok must answers (Task.release key k) held A :=
  ⟨fun _ => True, fun _ _ _ => trivial, stable_true, h⟩

end Rules

/-! ### Soundness -/

variable [DecidableEq κ] {post : ι → ρ → Prop}

/-- A running process is somewhere in its outline. -/
def Process.Sound (I : σ → Prop) (G : List κ → σ → σ → Prop) (ok : ℓ → σ → Prop)
    (must : ℓ → List κ → σ → Prop) (post : ι → ρ → Prop) (s : σ)
    (t : Process ι σ κ ℓ ρ) : Prop :=
  ∃ A, A s ∧ Stable I G t.held A ∧ Outlined I G ok must (post t.request) t.proc t.held A

/-- The processes hold different locks. -/
def Apart (t t' : Process ι σ κ ℓ ρ) : Prop := ∀ k ∈ t.held, k ∉ t'.held

omit [DecidableEq κ] in
theorem Apart.symm {t t' : Process ι σ κ ℓ ρ} (h : Apart t t') : Apart t' t :=
  fun k hk hk' => h k hk' hk

/-- A world in which the invariant holds and every process is in its outline. -/
structure Running (I : σ → Prop) (G : List κ → σ → σ → Prop) (ok : ℓ → σ → Prop)
    (must : ℓ → List κ → σ → Prop) (post : ι → ρ → Prop)
    (world : World ι σ κ ℓ ρ) : Prop where
  inv : I world.state
  sound : ∀ t ∈ world.processes, t.Sound I G ok must post world.state
  apart : world.processes.Pairwise Apart

/-- **Every access is made in a state that it must see.** -/
theorem Running.sees {world : World ι σ κ ℓ ρ} (h : Running I G ok must post world) {t : Process ι σ κ ℓ ρ}
    (ht : t ∈ world.processes) {label : ℓ} (hlabel : t.proc.label? = some label)
    (hok : ok label world.state) : must label t.held world.state := by
  obtain ⟨A, hA, -, houtlined⟩ := h.sound t ht
  obtain ⟨request, held, proc⟩ := t
  cases proc with
  | access label' effect next =>
      obtain rfl := Option.some.inj hlabel
      exact (houtlined world.state h.inv hA hok).1
  | _ => cases hlabel

/-- **Every answer is one that its request may get.** -/
theorem Running.answered {world : World ι σ κ ℓ ρ} (h : Running I G ok must post world)
    {t : Process ι σ κ ℓ ρ} (ht : t ∈ world.processes) {r : ρ} (hr : t.proc.answer? = some r) :
    post t.request r := by
  obtain ⟨A, -, -, houtlined⟩ := h.sound t ht
  obtain ⟨request, held, proc⟩ := t
  cases proc with
  | ret r' =>
      obtain rfl := Option.some.inj hr
      exact houtlined
  | _ => cases hr

omit [DecidableEq κ] in
theorem pairwise_apart_middle {t : Process ι σ κ ℓ ρ} {l₁ l₂ : List (Process ι σ κ ℓ ρ)} :
    (l₁ ++ t :: l₂).Pairwise Apart ↔ (∀ u ∈ l₁ ++ l₂, Apart t u) ∧ (l₁ ++ l₂).Pairwise Apart := by
  rw [List.pairwise_middle fun h => h.symm, List.pairwise_cons]

omit [DecidableEq κ] in
/-- A process of a list, with the rest of it. -/
theorem processes_split {processes : List (Process ι σ κ ℓ ρ)} {i : Nat} {t : Process ι σ κ ℓ ρ}
    (h : processes[i]? = some t) :
    ∃ l₁ l₂, processes = l₁ ++ t :: l₂ ∧ ∀ t', processes.set i t' = l₁ ++ t' :: l₂ := by
  obtain ⟨hi, rfl⟩ := List.getElem?_eq_some_iff.mp h
  refine ⟨processes.take i, processes.drop (i + 1), ?_, fun t' => ?_⟩
  · rw [← List.drop_eq_getElem_cons hi, List.take_append_drop]
  · rw [List.set_eq_take_append_cons_drop, if_pos hi]

/-- What one step can do to the state. -/
def Moved (G : List κ → σ → σ → Prop) (s s' : σ) : Prop := s' = s ∨ ∃ L, G L s s'

/-- A change by the holder of other locks leaves a process in its outline. -/
theorem Process.Sound.stable {s s' : σ} {t : Process ι σ κ ℓ ρ} {L : List κ}
    (h : t.Sound I G ok must post s) (hfree : ∀ k ∈ t.held, k ∉ L) (hI : I s) (hI' : I s') (hG : G L s s') :
    t.Sound I G ok must post s' := by
  obtain ⟨A, hA, hstable, houtlined⟩ := h
  exact ⟨A, hstable L s s' hfree hI hI' hA hG, hstable, houtlined⟩

/-- One process steps to another point of its outline, and the rest stays. -/
theorem Running.replace {world : World ι σ κ ℓ ρ} {l₁ l₂ : List (Process ι σ κ ℓ ρ)} {t t' : Process ι σ κ ℓ ρ}
    {s' : σ} (h : Running I G ok must post world) (hsplit : world.processes = l₁ ++ t :: l₂) (hI : I s')
    (hsound : t'.Sound I G ok must post s') (hmoved : s' = world.state ∨ G t.held world.state s')
    (hapart : ∀ u ∈ l₁ ++ l₂, Apart t' u) : Running I G ok must post ⟨s', l₁ ++ t' :: l₂⟩ := by
  have hold := h.apart
  rw [hsplit, pairwise_apart_middle] at hold
  have hrest (u : Process ι σ κ ℓ ρ) (hu : u ∈ l₁ ++ l₂) : u.Sound I G ok must post s' := by
    have hmem : u ∈ world.processes := by
      rw [hsplit]
      simp only [List.mem_append, List.mem_cons] at hu ⊢
      tauto
    rcases hmoved with rfl | hG
    · exact h.sound u hmem
    · exact (h.sound u hmem).stable (hold.1 u hu).symm h.inv hI hG
  refine ⟨hI, fun u hu => ?_, pairwise_apart_middle.mpr ⟨hapart, hold.2⟩⟩
  rcases List.mem_append.mp hu with hu | hu
  · exact hrest u (List.mem_append_left _ hu)
  · rcases List.mem_cons.mp hu with rfl | hu
    · exact hsound
    · exact hrest u (List.mem_append_right _ hu)

/-- Fewer processes. -/
theorem Running.erase {world : World ι σ κ ℓ ρ} (h : Running I G ok must post world) (i : Nat) :
    Running I G ok must post { world with processes := world.processes.eraseIdx i } where
  inv := h.inv
  sound u hu := h.sound u (List.mem_of_mem_eraseIdx hu)
  apart := h.apart.sublist (List.eraseIdx_sublist _ _)

/-- The events that a discipline admits keep the invariant, and change the state as granted to the
holder of the locks that they wait for. -/
def EventsKeep (sys : System ι σ κ ℓ ρ ε) (D : Discipline σ κ ℓ ε) (I : σ → Prop)
    (G : List κ → σ → σ → Prop) : Prop :=
  ∀ e s, sys.possible e s → D.event e s → I s → I (sys.change e s) ∧ G (D.locks e s) s (sys.change e s)

/-- **One step keeps a world of outlined processes running**, and moves the state as granted. -/
theorem Running.step {sys : System ι σ κ ℓ ρ ε} {D : Discipline σ κ ℓ ε}
    (hprograms : ∀ r, Outlined I G D.access must (post r) (sys.program r) [] fun _ => True)
    (henv : EventsKeep sys D I G)
    {world world' : World ι σ κ ℓ ρ} {m : Move ι ε} (h : Running I G D.access must post world)
    (hstep : world.Step sys D m world') :
    Running I G D.access must post world' ∧ Moved G world.state world'.state := by
  obtain ⟨hadmits, hexec⟩ := hstep
  cases m with
  | spawn request =>
      obtain rfl := Option.some.inj hexec
      refine ⟨⟨h.inv, fun t ht => ?_, ?_⟩, .inl rfl⟩
      · rcases List.mem_append.mp ht with ht | ht
        · exact h.sound t ht
        · obtain rfl := List.mem_singleton.mp ht
          exact ⟨fun _ => True, trivial, stable_true, hprograms request⟩
      · refine List.pairwise_append.mpr ⟨h.apart, List.pairwise_singleton _ _, fun t _ u hu => ?_⟩
        obtain rfl := List.mem_singleton.mp hu
        exact fun k _ hk => by cases hk
  | kill i =>
      obtain rfl := Option.some.inj hexec
      exact ⟨h.erase i, .inl rfl⟩
  | event e =>
      obtain rfl := Option.some.inj hexec
      obtain ⟨hpossible, hevent, hfree⟩ := hadmits
      obtain ⟨hI, hG⟩ := henv e world.state hpossible hevent h.inv
      refine ⟨⟨hI, fun t ht => (h.sound t ht).stable (fun k hk hlock => ?_) h.inv hI hG, h.apart⟩,
        .inr ⟨_, hG⟩⟩
      exact of_decide_eq_true (List.all_eq_true.mp (hfree k hlock) t ht) hk
  | go i =>
      simp only [World.exec, Option.map_eq_some_iff] at hexec
      obtain ⟨t, ht, rfl⟩ := hexec
      obtain ⟨l₁, l₂, hsplit, hset⟩ := processes_split ht
      obtain ⟨A, hA, hstable, houtlined⟩ := h.sound t (List.mem_of_getElem? ht)
      have hapart := h.apart
      rw [hsplit, pairwise_apart_middle] at hapart
      have hmem (u : Process ι σ κ ℓ ρ) (hu : u ∈ l₁ ++ l₂) : u ∈ world.processes := by
        rw [hsplit]
        simp only [List.mem_append, List.mem_cons] at hu ⊢
        tauto
      obtain ⟨request, held, proc⟩ := t
      cases proc with
      | ret r => exact ⟨h.erase i, .inl rfl⟩
      | access label effect next =>
          obtain ⟨-, hchange, B, hB, hBstable, hnext⟩ :=
            houtlined world.state h.inv hA (hadmits _ ht label rfl)
          have hI : I (effect world.state) := by
            rcases hchange with hsame | ⟨hI, -⟩
            · rw [hsame]
              exact h.inv
            · exact hI
          refine ⟨?_, hchange.imp id fun hG => ⟨held, hG.2⟩⟩
          simp only [World.advance, hset]
          exact h.replace hsplit hI ⟨B, hB, hBstable, hnext⟩ (hchange.imp id And.right) hapart.1
      | acquire key next =>
          refine ⟨?_, .inl ?_⟩
          · simp only [World.advance, hset]
            split
            · rename_i hfree
              refine h.replace hsplit h.inv ⟨A, hA, hstable.mono (List.subset_cons_self _ _),
                houtlined.1⟩ (.inl rfl) fun u hu k hk hk' => ?_
              rcases List.mem_cons.mp hk with rfl | hk
              · exact of_decide_eq_true (List.all_eq_true.mp hfree u (hmem u hu)) hk'
              · exact hapart.1 u hu k hk hk'
            · exact h.replace hsplit h.inv ⟨A, hA, hstable, houtlined.2⟩ (.inl rfl) hapart.1
          · simp only [World.advance]
            split <;> rfl
      | release key next =>
          obtain ⟨B, hB, hBstable, hnext⟩ := houtlined
          refine ⟨?_, .inl rfl⟩
          simp only [World.advance, hset]
          exact h.replace hsplit h.inv ⟨B, hB _ h.inv hA, hBstable, hnext⟩ (.inl rfl)
            fun u hu k hk => hapart.1 u hu k (List.mem_of_mem_erase hk)

section Runs

variable {sys : System ι σ κ ℓ ρ ε} {D : Discipline σ κ ℓ ε} {world world' : World ι σ κ ℓ ρ}
  {moves : List (Move ι ε)}

/-- **Runs of outlined processes** keep the invariant. -/
theorem run_running (hprograms : ∀ r, Outlined I G D.access must (post r) (sys.program r) [] fun _ => True)
    (henv : EventsKeep sys D I G)
    (hrun : Run (World.Step sys D) world moves world') (h : Running I G D.access must post world) :
    Running I G D.access must post world' :=
  hrun.invariant (fun _ _ _ hw hs => (hw.step hprograms henv hs).1) h

/-- What holds across every change holds across a run. -/
theorem run_moved (hprograms : ∀ r, Outlined I G D.access must (post r) (sys.program r) [] fun _ => True)
    (henv : EventsKeep sys D I G)
    {R : σ → σ → Prop} (hrefl : ∀ s, R s s) (htrans : ∀ a b c, R a b → R b c → R a c)
    (hG : ∀ L s s', I s → I s' → G L s s' → R s s')
    (hrun : Run (World.Step sys D) world moves world') (h : Running I G D.access must post world) :
    R world.state world'.state :=
  hrun.relation (P := Running I G D.access must post) (R := fun a b => R a.state b.state)
    (fun _ _ _ hw hs => (hw.step hprograms henv hs).1) (fun w => hrefl w.state)
    (fun _ _ _ => htrans _ _ _)
    (fun w _ w' hw hs => by
      obtain ⟨hw', hsame | ⟨L, hL⟩⟩ := hw.step hprograms henv hs
      · rw [hsame]
        exact hrefl _
      · exact hG L _ _ hw.inv hw'.inv hL) h

theorem running_idle {s : σ} (h : I s) :
    Running I G D.access must post (World.idle s : World ι σ κ ℓ ρ) where
  inv := h
  sound t ht := by simp [World.idle] at ht
  apart := List.Pairwise.nil

end Runs

-- outlines are built by the rules; to evaluate `Outlined` would be to run the process
attribute [irreducible] Outlined

end Lib.Processes
