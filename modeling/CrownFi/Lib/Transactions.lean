import CrownFi.Lib.Run
import Mathlib.Tactic.Common

/-!
# CrownFi.Lib.Transactions

**Concurrent transactions on one database, at isolation level READ COMMITTED.**

A request is a program of statements. A statement sees the committed state with
the request's own uncommitted changes on top, takes row locks, and may add a
change; a change is a function on states, chosen when the statement runs and
applied to the committed state at commit time. Locks are held until the
transaction ends. A statement runs when its locks conflict with nobody else's;
waiting for a lock is a schedule that runs the others first.

The row-lock modes and their conflicts are PostgreSQL's. An insert holds the
update lock on each unique key it writes, and a key-share lock on each row its
foreign keys refer to.

The programs are written in `Tx`, a continuation monad over `Prog`, so that a
handler reads like its source.
-/

namespace Lib

universe u v w

/-! ### Locks -/

inductive LockMode
  | keyShare
  | share
  | noKeyUpdate
  | update
  deriving DecidableEq, Repr

/-- Which modes exclude each other on one row. -/
def LockMode.conflicts : LockMode → LockMode → Bool
  | .keyShare, .update | .update, .keyShare => true
  | .share, .noKeyUpdate | .noKeyUpdate, .share => true
  | .share, .update | .update, .share => true
  | .noKeyUpdate, .noKeyUpdate => true
  | .noKeyUpdate, .update | .update, .noKeyUpdate => true
  | .update, .update => true
  | _, _ => false

theorem LockMode.conflicts_comm (a b : LockMode) : a.conflicts b = b.conflicts a := by
  cases a <;> cases b <;> rfl

structure Lock (κ : Type v) where
  key : κ
  mode : LockMode
  deriving DecidableEq, Repr

def Lock.conflicts {κ : Type v} [DecidableEq κ] (l l' : Lock κ) : Bool :=
  l.key = l'.key && l.mode.conflicts l'.mode

/-- Two transactions may hold these locks at the same time. -/
def Compatible {κ : Type v} [DecidableEq κ] (L L' : List (Lock κ)) : Prop :=
  ∀ l ∈ L, ∀ l' ∈ L', l.conflicts l' = false

instance {κ : Type v} [DecidableEq κ] (L L' : List (Lock κ)) : Decidable (Compatible L L') :=
  inferInstanceAs (Decidable (∀ l ∈ L, ∀ l' ∈ L', _ = _))

section Compatible

variable {κ : Type v} [DecidableEq κ] {L L' L₁ L₂ : List (Lock κ)}

theorem Compatible.symm (h : Compatible L L') : Compatible L' L := by
  intro l hl l' hl'
  have := h l' hl' l hl
  rw [Lock.conflicts] at this ⊢
  rw [LockMode.conflicts_comm, ← this]
  simp only [eq_comm]

theorem Compatible.append (h₁ : Compatible L₁ L') (h₂ : Compatible L₂ L') :
    Compatible (L₁ ++ L₂) L' := by
  intro l hl l' hl'
  rcases List.mem_append.mp hl with hl | hl
  · exact h₁ l hl l' hl'
  · exact h₂ l hl l' hl'

theorem Compatible.of_append (h : Compatible (L₁ ++ L₂) L') :
    Compatible L₁ L' ∧ Compatible L₂ L' :=
  ⟨fun l hl => h l (List.mem_append_left _ hl), fun l hl => h l (List.mem_append_right _ hl)⟩

@[simp] theorem compatible_nil : Compatible ([] : List (Lock κ)) L := by
  intro l hl
  simp at hl

/-- Whoever holds a conflicting lock on the same row is excluded. -/
theorem Compatible.not_mem {l l' : Lock κ} (h : Compatible L L') (hl : l ∈ L)
    (hkey : l.key = l'.key) (hmode : l.mode.conflicts l'.mode = true) : l' ∉ L' := by
  intro hl'
  have := h l hl l' hl'
  simp [Lock.conflicts, hkey, hmode] at this

end Compatible

/-! ### Programs -/

/-- A request over the state `σ`, with locks on keys `κ`, statements labelled by `ℓ`
and result `ρ`. Ending without a commit discards the changes. -/
inductive Prog (σ : Type u) (κ : Type v) (ℓ : Type w) (ρ : Type u) : Type (max u v w)
  | ret (r : ρ)
  | commit (next : Prog σ κ ℓ ρ)
  | stmt (label : ℓ) (locks : σ → List (Lock κ)) (effect : σ → σ → σ) (next : σ → Prog σ κ ℓ ρ)

/-- A program part with result `α`. -/
def Tx (σ : Type u) (κ : Type v) (ℓ : Type w) (ρ : Type u) (α : Type u) :=
  (α → Prog σ κ ℓ ρ) → Prog σ κ ℓ ρ

namespace Tx

variable {σ : Type u} {κ : Type v} {ℓ : Type w} {ρ α β : Type u}

instance : Monad (Tx σ κ ℓ ρ) where
  pure a := fun k => k a
  bind m f := fun k => m fun a => f a k

/-- End the request, discarding uncommitted changes. -/
def exit (r : ρ) : Tx σ κ ℓ ρ α := fun _ => .ret r

/-- Go on only if `c` holds. -/
def require (c : Bool) (r : ρ) : Tx σ κ ℓ ρ PUnit := fun k => if c then k ⟨⟩ else .ret r

/-- Go on with the value, if there is one. -/
def orElse (o : Option α) (r : ρ) : Tx σ κ ℓ ρ α := fun k =>
  match o with
  | some a => k a
  | none => .ret r

/-- Go on with the value of a computation that did not fail. -/
def ofExcept {ε : Type*} (e : Except ε α) (r : ε → ρ) : Tx σ κ ℓ ρ α := fun k =>
  match e with
  | .ok a => k a
  | .error err => .ret (r err)

def commit : Tx σ κ ℓ ρ PUnit := fun k => .commit (k ⟨⟩)

/-- A statement in full: its locks, its change and its answer. -/
def stmt (label : ℓ) (locks : σ → List (Lock κ)) (effect : σ → σ → σ) (answer : σ → α) :
    Tx σ κ ℓ ρ α := fun k => .stmt label locks effect fun v => k (answer v)

/-- A plain `SELECT`. -/
def select (label : ℓ) (answer : σ → α) : Tx σ κ ℓ ρ α :=
  stmt label (fun _ => []) (fun _ db => db) answer

/-- A change that is made whatever the rows are, and answers nothing. -/
def write (label : ℓ) (locks : σ → List (Lock κ)) (effect : σ → σ) : Tx σ κ ℓ ρ PUnit :=
  stmt label locks (fun _ => effect) fun _ => ⟨⟩

/-- An `INSERT`, which fails when it violates a constraint. -/
def insert (label : ℓ) (locks : σ → List (Lock κ)) (violation : σ → Option ρ)
    (effect : σ → σ) : Tx σ κ ℓ ρ PUnit := fun k =>
  .stmt label locks (fun _ => effect) fun v =>
    match violation v with
    | some r => .ret r
    | none => k ⟨⟩

/-- `SELECT .. FOR ..`: the rows read are locked. -/
def selectFor (label : ℓ) (locks : σ → List (Lock κ)) (answer : σ → α) : Tx σ κ ℓ ρ α :=
  stmt label locks (fun _ db => db) answer

end Tx

/-! ### Pools of running requests -/

variable {σ : Type u} {κ : Type v} {ℓ : Type w} {ρ : Type u}

/-- A running request: its uncommitted changes, its locks, and what is left to do. -/
structure Thread (σ : Type u) (κ : Type v) (ℓ : Type w) (ρ : Type u) where
  pending : σ → σ
  held : List (Lock κ)
  prog : Prog σ κ ℓ ρ

structure Pool (σ : Type u) (κ : Type v) (ℓ : Type w) (ρ : Type u) where
  db : σ
  threads : List (Thread σ κ ℓ ρ)

/-- What the scheduler does: start a request, run a request's next step, or end a
request from outside (a lost connection, a timeout). -/
inductive Action (σ : Type u) (κ : Type v) (ℓ : Type w) (ρ : Type u) : Type (max u v w)
  | spawn (p : Prog σ κ ℓ ρ)
  | step (i : Nat)
  | kill (i : Nat)

namespace Pool

variable [DecidableEq κ]

/-- No other request holds a lock that conflicts with these. -/
def free (threads : List (Thread σ κ ℓ ρ)) (i : Nat) (locks : List (Lock κ)) : Prop :=
  ∀ t ∈ threads.eraseIdx i, Compatible locks t.held

instance (threads : List (Thread σ κ ℓ ρ)) (i : Nat) (locks : List (Lock κ)) :
    Decidable (free threads i locks) :=
  inferInstanceAs (Decidable (∀ t ∈ _, _))

/-- One step of request `i`. -/
def advance (pool : Pool σ κ ℓ ρ) (i : Nat) (t : Thread σ κ ℓ ρ) : Option (Pool σ κ ℓ ρ) :=
  match t.prog with
  | .ret _ => some { pool with threads := pool.threads.eraseIdx i }
  | .commit next => some ⟨t.pending pool.db, pool.threads.set i ⟨id, [], next⟩⟩
  | .stmt _ locks effect next =>
      let view := t.pending pool.db
      if free pool.threads i (locks view) then
        some { pool with
          threads := pool.threads.set i
            ⟨fun db => effect view (t.pending db), t.held ++ locks view, next view⟩ }
      else none

def exec (pool : Pool σ κ ℓ ρ) : Action σ κ ℓ ρ → Option (Pool σ κ ℓ ρ)
  | .spawn p => some { pool with threads := pool.threads ++ [⟨id, [], p⟩] }
  | .step i => pool.threads[i]?.bind fun t => pool.advance i t
  | .kill i => some { pool with threads := pool.threads.eraseIdx i }

end Pool

/-- The label of the statement that a program runs next, if it is a statement. -/
def Prog.label? : Prog σ κ ℓ ρ → Option ℓ
  | .stmt label _ _ _ => some label
  | _ => none

/-- Which actions a system admits: requests of its own kind, and statements that meet
a condition on the state they see. -/
def Pool.Admits (requests : Prog σ κ ℓ ρ → Prop) (ok : ℓ → σ → Prop) (pool : Pool σ κ ℓ ρ) :
    Action σ κ ℓ ρ → Prop
  | .spawn p => requests p
  | .step i => ∀ t, pool.threads[i]? = some t → ∀ label, t.prog.label? = some label →
      ok label (t.pending pool.db)
  | .kill _ => True

/-- One step of the system. -/
def Pool.Step [DecidableEq κ] (requests : Prog σ κ ℓ ρ → Prop) (ok : ℓ → σ → Prop)
    (pool : Pool σ κ ℓ ρ) (a : Action σ κ ℓ ρ) (pool' : Pool σ κ ℓ ρ) : Prop :=
  pool.Admits requests ok a ∧ pool.exec a = some pool'

/-- A weaker condition admits more. -/
theorem Pool.Step.mono [DecidableEq κ] {requests requests' : Prog σ κ ℓ ρ → Prop}
    {ok ok' : ℓ → σ → Prop} (hrequests : ∀ p, requests p → requests' p)
    (hok : ∀ label db, ok label db → ok' label db) {pool pool' : Pool σ κ ℓ ρ} {a : Action σ κ ℓ ρ}
    (h : pool.Step requests ok a pool') : pool.Step requests' ok' a pool' := by
  obtain ⟨hadmits, hexec⟩ := h
  refine ⟨?_, hexec⟩
  cases a with
  | spawn p => exact hrequests p hadmits
  | step i => exact fun t ht label hlabel => hok _ _ (hadmits t ht label hlabel)
  | kill i => trivial

section Replay

variable [DecidableEq κ] {ok : ℓ → σ → Prop} [∀ label db, Decidable (ok label db)]

/-- The condition of a step, evaluated. -/
def Pool.admitted (ok : ℓ → σ → Prop) [∀ label db, Decidable (ok label db)] (pool : Pool σ κ ℓ ρ) :
    Action σ κ ℓ ρ → Bool
  | .step i => ((pool.threads[i]?.bind fun t =>
      t.prog.label?.map fun label => decide (ok label (t.pending pool.db))).getD true)
  | _ => true

/-- A sequence of scheduler actions; `none` when one of them is not possible. -/
def Pool.replay (ok : ℓ → σ → Prop) [∀ label db, Decidable (ok label db)] (pool : Pool σ κ ℓ ρ) :
    List (Action σ κ ℓ ρ) → Option (Pool σ κ ℓ ρ)
  | [] => some pool
  | a :: rest => if pool.admitted ok a then (pool.exec a).bind fun next => next.replay ok rest else none

/-- A schedule that can be replayed is a run. -/
theorem Pool.run_of_replay {requests : Prog σ κ ℓ ρ → Prop} {pool pool' : Pool σ κ ℓ ρ}
    {actions : List (Action σ κ ℓ ρ)} (hspawn : ∀ p, .spawn p ∈ actions → requests p)
    (h : pool.replay ok actions = some pool') : Run (Pool.Step requests ok) pool actions pool' := by
  induction actions generalizing pool with
  | nil =>
      obtain rfl := Option.some.inj h
      exact .refl _
  | cons a rest ih =>
      rw [replay] at h
      split at h
      · rename_i hpasses
        obtain ⟨next, hexec, hrest⟩ := Option.bind_eq_some_iff.mp h
        have hallow : pool.Admits requests ok a := by
          cases a with
          | spawn p => exact hspawn p (by simp)
          | step i =>
              intro t ht label hlabel
              simpa [admitted, ht, hlabel] using hpasses
          | kill i => trivial
        exact (Run.single ⟨hallow, hexec⟩).append
          (ih (fun p hp => hspawn p (List.mem_cons_of_mem _ hp)) hrest)
      · cases h

end Replay

/-- No request is running. -/
def Pool.idle (db : σ) : Pool σ κ ℓ ρ := ⟨db, []⟩

end Lib
