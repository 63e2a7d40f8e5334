import CrownFi.Lib.Outline
import Mathlib.Data.List.InsertIdx

/-!
# CrownFi.Lib.Records

**What requests saw, and what they answered.** In a pool a request is forgotten as soon as it has
ended. To speak about answers, a request is run with a record: which request it is, and which state
each of its statements saw (`Prog.recorded`). The record changes nothing about the run
(`exec_plain`). The answer is then a function of the states that were seen (`Prog.answer`), and as
long as the request wrote nothing these are committed states, one after the other (`Heard`).
-/

namespace Lib

universe u v w

variable {σ : Type u} {κ : Type v} {ℓ : Type w} {ρ τ : Type u}

/-- A request, its answer, and the states that its statements saw. -/
structure Record (τ ρ σ : Type u) where
  request : τ
  answer : ρ
  seen : List σ
  deriving DecidableEq

/-- The program with a record. -/
def Prog.recorded (tag : τ) : List σ → Prog σ κ ℓ ρ → Prog σ κ ℓ (Record τ ρ σ)
  | seen, .ret r => .ret ⟨tag, r, seen⟩
  | seen, .commit next => .commit (next.recorded tag seen)
  | seen, .stmt label locks effect next =>
      .stmt label locks effect fun view => (next view).recorded tag (seen ++ [view])

/-- The answer of a program whose statements see these states. -/
def Prog.answer : Prog σ κ ℓ ρ → List σ → Option ρ
  | .ret r, _ => some r
  | .commit next, seen => next.answer seen
  | .stmt _ _ _ next, view :: seen => (next view).answer seen
  | .stmt _ _ _ _, [] => none

/-- A program whose statements see these states changes nothing. -/
def Prog.Quiet : Prog σ κ ℓ ρ → List σ → Prop
  | .ret _, _ => True
  | .commit next, seen => next.Quiet seen
  | .stmt _ _ effect next, view :: seen => (∀ db, effect view db = db) ∧ (next view).Quiet seen
  | .stmt _ _ _ _, [] => True

/-- The result of a program that has ended. -/
def Prog.ended? : Prog σ κ ℓ ρ → Option ρ
  | .ret r => some r
  | _ => none

theorem Prog.ended_iff {p : Prog σ κ ℓ ρ} {r : ρ} : p.ended? = some r ↔ p = .ret r := by
  cases p <;> simp [Prog.ended?]

/-- Requests with records. -/
def Recording (requests : τ → Prog σ κ ℓ ρ → Prop) (q : Prog σ κ ℓ (Record τ ρ σ)) : Prop :=
  ∃ tag p, requests tag p ∧ q = p.recorded tag []

/-! ### Records change nothing -/

/-- The program without what was recorded. -/
def Prog.plain : Prog σ κ ℓ (Record τ ρ σ) → Prog σ κ ℓ ρ
  | .ret r => .ret r.answer
  | .commit next => .commit next.plain
  | .stmt label locks effect next => .stmt label locks effect fun view => (next view).plain

@[simp] theorem plain_recorded {tag : τ} {seen : List σ} {p : Prog σ κ ℓ ρ} :
    (p.recorded tag seen).plain = p := by
  induction p generalizing seen with
  | ret r => rfl
  | commit next ih => exact congrArg Prog.commit ih
  | stmt label locks effect next ih =>
      exact congrArg (Prog.stmt label locks effect) (funext fun view => ih view)

def Thread.plain (t : Thread σ κ ℓ (Record τ ρ σ)) : Thread σ κ ℓ ρ := ⟨t.pending, t.held, t.prog.plain⟩

def Pool.plain (pool : Pool σ κ ℓ (Record τ ρ σ)) : Pool σ κ ℓ ρ :=
  ⟨pool.db, pool.threads.map Thread.plain⟩

def Action.plain : Action σ κ ℓ (Record τ ρ σ) → Action σ κ ℓ ρ
  | .spawn p => .spawn p.plain
  | .step i => .step i
  | .kill i => .kill i

variable [DecidableEq κ]

theorem free_plain {threads : List (Thread σ κ ℓ (Record τ ρ σ))} {i : Nat} {locks : List (Lock κ)} :
    Pool.free (threads.map Thread.plain) i locks ↔ Pool.free threads i locks := by
  unfold Pool.free
  rw [List.eraseIdx_map, List.forall_mem_map]
  exact Iff.rfl

theorem advance_plain (pool : Pool σ κ ℓ (Record τ ρ σ)) (i : Nat) (t : Thread σ κ ℓ (Record τ ρ σ)) :
    pool.plain.advance i t.plain = (pool.advance i t).map Pool.plain := by
  obtain ⟨pending, held, prog⟩ := t
  cases prog with
  | ret r => simp [Pool.advance, Thread.plain, Prog.plain, Pool.plain, List.eraseIdx_map]
  | commit next => simp [Pool.advance, Thread.plain, Prog.plain, Pool.plain, List.map_set]
  | stmt label locks effect next =>
      have hfree : Pool.free pool.plain.threads i (locks (pending pool.plain.db)) ↔
          Pool.free pool.threads i (locks (pending pool.db)) := free_plain
      simp only [Pool.advance, Thread.plain, Prog.plain]
      by_cases h : Pool.free pool.threads i (locks (pending pool.db))
      · refine (if_pos (hfree.mpr h)).trans ?_
        rw [if_pos h]
        simp [Pool.plain, Thread.plain, List.map_set]
      · refine (if_neg (mt hfree.mp h)).trans ?_
        rw [if_neg h]
        rfl

/-- **A pool with records does what the pool without them does.** -/
theorem exec_plain (pool : Pool σ κ ℓ (Record τ ρ σ)) (a : Action σ κ ℓ (Record τ ρ σ)) :
    pool.plain.exec a.plain = (pool.exec a).map Pool.plain := by
  cases a with
  | spawn p => simp [Pool.exec, Action.plain, Pool.plain, Thread.plain]
  | kill i => simp [Pool.exec, Action.plain, Pool.plain, List.eraseIdx_map]
  | step i =>
      show (pool.plain.threads[i]?.bind fun t => pool.plain.advance i t) = _
      show ((pool.threads.map Thread.plain)[i]?.bind fun t => pool.plain.advance i t) =
        (pool.threads[i]?.bind fun t => pool.advance i t).map Pool.plain
      rw [List.getElem?_map]
      cases pool.threads[i]? with
      | none => rfl
      | some t => exact advance_plain pool i t

omit [DecidableEq κ] in
theorem label_plain (p : Prog σ κ ℓ (Record τ ρ σ)) : p.plain.label? = p.label? := by
  cases p <;> rfl

/-- **Every run can be recorded.** -/
theorem run_recorded {requests : τ → Prog σ κ ℓ ρ → Prop} {ok : ℓ → σ → Prop} {db : σ}
    {pool : Pool σ κ ℓ ρ} {actions : List (Action σ κ ℓ ρ)}
    (hrun : Run (Pool.Step (fun p => ∃ tag, requests tag p) ok) (Pool.idle db) actions pool) :
    ∃ actions' pool', Run (Pool.Step (Recording requests) ok) (Pool.idle db) actions' pool' ∧
      pool'.plain = pool := by
  refine hrun.history (P := fun _ pool => ∃ actions' pool',
    Run (Pool.Step (Recording requests) ok) (Pool.idle db) actions' pool' ∧ pool'.plain = pool) ?_ ?_
  · exact ⟨[], _, .refl _, rfl⟩
  · rintro as t a u - ih hstep
    obtain ⟨actions', t', hrun', rfl⟩ := ih
    obtain ⟨hadmits, hexec⟩ := hstep
    obtain ⟨a', rfl, hadmits'⟩ : ∃ a' : Action σ κ ℓ (Record τ ρ σ), a = a'.plain ∧
        t'.Admits (Recording requests) ok a' := by
      cases a with
      | spawn p =>
          obtain ⟨tag, hp⟩ := hadmits
          exact ⟨.spawn (p.recorded tag []), by simp [Action.plain], tag, p, hp, rfl⟩
      | kill i => exact ⟨.kill i, rfl, trivial⟩
      | step i =>
          refine ⟨.step i, rfl, fun thread hthread label hlabel => ?_⟩
          refine hadmits thread.plain ?_ label ((label_plain _).trans hlabel)
          simp [Pool.plain, hthread]
    rw [exec_plain, Option.map_eq_some_iff] at hexec
    obtain ⟨u', hexec', rfl⟩ := hexec
    exact ⟨_, u', .tail hrun' ⟨hadmits', hexec'⟩, rfl⟩

/-! ### Answers of program parts -/

section Answers

variable {α β : Type u} {label : ℓ} {seen : List σ} {r : ρ}

omit [DecidableEq κ] in
theorem answer_bind {m : Tx σ κ ℓ ρ α} {f : α → Tx σ κ ℓ ρ β} {k : β → Prog σ κ ℓ ρ} :
    Prog.answer ((m >>= f) k) seen = some r ↔ Prog.answer (m fun a => f a k) seen = some r := Iff.rfl

omit [DecidableEq κ] in
theorem answer_select {f : σ → α} {k : α → Prog σ κ ℓ ρ} :
    Prog.answer (Tx.select label f k) seen = some r ↔
      ∃ view rest, seen = view :: rest ∧ Prog.answer (k (f view)) rest = some r := by
  cases seen with
  | nil => simp [Tx.select, Tx.stmt, Prog.answer]
  | cons view rest => simp [Tx.select, Tx.stmt, Prog.answer]

omit [DecidableEq κ] in
theorem answer_select_cons {f : σ → α} {k : α → Prog σ κ ℓ ρ} {view : σ} {rest : List σ} :
    Prog.answer (Tx.select label f k) (view :: rest) = Prog.answer (k (f view)) rest := rfl

omit [DecidableEq κ] in
theorem answer_require {c : Bool} {e : ρ} {k : PUnit → Prog σ κ ℓ ρ} :
    Prog.answer (Tx.require c e k) seen = some r ↔
      if c = true then Prog.answer (k ⟨⟩) seen = some r else e = r := by
  unfold Tx.require
  split
  · rfl
  · exact Option.some_inj

omit [DecidableEq κ] in
theorem answer_orElse {o : Option α} {e : ρ} {k : α → Prog σ κ ℓ ρ} :
    Prog.answer (Tx.orElse o e k) seen = some r ↔
      (∃ a, o = some a ∧ Prog.answer (k a) seen = some r) ∨ (o = none ∧ e = r) := by
  cases o with
  | none => simp [Tx.orElse, Prog.answer]
  | some a => simp [Tx.orElse]

omit [DecidableEq κ] in
theorem answer_ofExcept {ε : Type*} {o : Except ε α} {e : ε → ρ} {k : α → Prog σ κ ℓ ρ} :
    Prog.answer (Tx.ofExcept o e k) seen = some r ↔
      (∃ a, o = .ok a ∧ Prog.answer (k a) seen = some r) ∨ ∃ err, o = .error err ∧ e err = r := by
  cases o with
  | ok a => simp [Tx.ofExcept]
  | error err => simp [Tx.ofExcept, Prog.answer]

omit [DecidableEq κ] in
theorem answer_insert {locks : σ → List (Lock κ)} {violation : σ → Option ρ} {effect : σ → σ}
    {k : PUnit → Prog σ κ ℓ ρ} :
    Prog.answer (Tx.insert label locks violation effect k) seen = some r ↔
      ∃ view rest, seen = view :: rest ∧
        (violation view = some r ∨ (violation view = none ∧ Prog.answer (k ⟨⟩) rest = some r)) := by
  cases seen with
  | nil => simp [Tx.insert, Prog.answer]
  | cons view rest =>
      simp only [List.cons.injEq, exists_and_left, exists_eq_left', Tx.insert, Prog.answer, and_assoc]
      cases violation view with
      | none => simp
      | some e => simp [Prog.answer]

omit [DecidableEq κ] in
theorem answer_commit {k : PUnit → Prog σ κ ℓ ρ} :
    Prog.answer (Tx.commit k) seen = some r ↔ Prog.answer (k ⟨⟩) seen = some r := Iff.rfl

omit [DecidableEq κ] in
theorem answer_ret {r' : ρ} : Prog.answer (.ret r' : Prog σ κ ℓ ρ) seen = some r ↔ r' = r :=
  Option.some_inj

/-! ### Parts that change nothing -/

omit [DecidableEq κ] in
@[simp] theorem quiet_nil (p : Prog σ κ ℓ ρ) : p.Quiet [] := by
  induction p with
  | ret r => trivial
  | commit next ih => exact ih
  | stmt label locks effect next ih => trivial

omit [DecidableEq κ] in
theorem quiet_bind {m : Tx σ κ ℓ ρ α} {f : α → Tx σ κ ℓ ρ β} {k : β → Prog σ κ ℓ ρ} :
    Prog.Quiet ((m >>= f) k) seen ↔ Prog.Quiet (m fun a => f a k) seen := Iff.rfl

omit [DecidableEq κ] in
theorem quiet_select {f : σ → α} {k : α → Prog σ κ ℓ ρ} :
    Prog.Quiet (Tx.select label f k) seen ↔
      ∀ view rest, seen = view :: rest → Prog.Quiet (k (f view)) rest := by
  cases seen with
  | nil => simp
  | cons view rest => simp [Tx.select, Tx.stmt, Prog.Quiet]

omit [DecidableEq κ] in
theorem quiet_require {c : Bool} {e : ρ} {k : PUnit → Prog σ κ ℓ ρ} :
    Prog.Quiet (Tx.require c e k) seen ↔ (c = true → Prog.Quiet (k ⟨⟩) seen) := by
  cases c with
  | true => simp [Tx.require]
  | false => simp [Tx.require, Prog.Quiet]

omit [DecidableEq κ] in
theorem quiet_orElse {o : Option α} {e : ρ} {k : α → Prog σ κ ℓ ρ} :
    Prog.Quiet (Tx.orElse o e k) seen ↔ ∀ a, o = some a → Prog.Quiet (k a) seen := by
  cases o with
  | none => simp [Tx.orElse, Prog.Quiet]
  | some a => simp [Tx.orElse]

omit [DecidableEq κ] in
theorem quiet_ofExcept {ε : Type*} {o : Except ε α} {e : ε → ρ} {k : α → Prog σ κ ℓ ρ} :
    Prog.Quiet (Tx.ofExcept o e k) seen ↔ ∀ a, o = .ok a → Prog.Quiet (k a) seen := by
  cases o with
  | ok a => simp [Tx.ofExcept]
  | error err => simp [Tx.ofExcept, Prog.Quiet]

omit [DecidableEq κ] in
theorem quiet_commit {k : PUnit → Prog σ κ ℓ ρ} :
    Prog.Quiet (Tx.commit k) seen ↔ Prog.Quiet (k ⟨⟩) seen := Iff.rfl

end Answers

/-! ### What a request was told -/

/-- A request `p` that saw the states `seen` has come to `rest`. What it saw before it wrote anything
were committed states, one after the other. -/
structure Told (I : σ → Prop) (R : σ → σ → Prop) (db : σ) (p : Prog σ κ ℓ ρ) (seen : List σ)
    (rest : Prog σ κ ℓ ρ) (pending : σ → σ) : Prop where
  answer : ∀ more, p.answer (seen ++ more) = rest.answer more
  quiet : ∀ more, p.Quiet (seen ++ more) ↔ p.Quiet seen ∧ rest.Quiet more
  idle : p.Quiet seen → ∀ d, pending d = d
  chain : ∀ n, p.Quiet (seen.take n) →
    (seen.take n).Pairwise R ∧ ∀ view ∈ seen.take n, I view ∧ R view db

section Told

variable {I : σ → Prop} {R : σ → σ → Prop} [IsPreorder σ R] {db db' : σ} {p rest : Prog σ κ ℓ ρ}
  {seen : List σ} {pending : σ → σ}

omit [DecidableEq κ] [IsPreorder σ R] in
theorem Told.start : Told I R db p [] p id where
  answer _ := rfl
  quiet _ := by simp
  idle _ _ := rfl
  chain n _ := by simp

omit [DecidableEq κ] in
/-- The commit of another request. -/
theorem Told.moved (h : Told I R db p seen rest pending) (hR : R db db') :
    Told I R db' p seen rest pending where
  answer := h.answer
  quiet := h.quiet
  idle := h.idle
  chain n hquiet := by
    obtain ⟨hchain, hviews⟩ := h.chain n hquiet
    refine ⟨hchain, fun view hview => ?_⟩
    obtain ⟨hI, hbefore⟩ := hviews view hview
    exact ⟨hI, trans_of R hbefore hR⟩

omit [DecidableEq κ] in
theorem Told.commit {next : Prog σ κ ℓ ρ} (h : Told I R db p seen (.commit next) pending)
    (hR : R db (pending db)) : Told I R (pending db) p seen next id where
  answer := h.answer
  quiet := h.quiet
  idle _ _ := rfl
  chain := (h.moved hR).chain

omit [DecidableEq κ] in
theorem Told.stmt {label : ℓ} {locks : σ → List (Lock κ)} {effect : σ → σ → σ}
    {next : σ → Prog σ κ ℓ ρ} (h : Told I R db p seen (.stmt label locks effect next) pending)
    (hI : I db) :
    Told I R db p (seen ++ [pending db]) (next (pending db)) fun d => effect (pending db) (pending d) := by
  have hone : p.Quiet (seen ++ [pending db]) ↔ p.Quiet seen ∧ ∀ d, effect (pending db) d = d := by
    rw [h.quiet]
    exact and_congr_right fun _ => and_iff_left (quiet_nil _)
  refine ⟨fun more => ?_, fun more => ?_, fun hquiet d => ?_, fun n hquiet => ?_⟩
  · rw [List.append_assoc]
    exact h.answer _
  · rw [List.append_assoc, hone, and_assoc]
    exact h.quiet _
  · obtain ⟨hbefore, heffect⟩ := hone.mp hquiet
    rw [heffect, h.idle hbefore]
  · by_cases hn : n ≤ seen.length
    · rw [List.take_append_of_le_length hn] at hquiet ⊢
      exact h.chain n hquiet
    · have hall : (seen ++ [pending db]).take n = seen ++ [pending db] :=
        List.take_of_length_le (by simp; omega)
      rw [hall] at hquiet ⊢
      obtain ⟨hbefore, -⟩ := hone.mp hquiet
      have hview : pending db = db := h.idle hbefore db
      have hseen := h.chain seen.length
      rw [List.take_length] at hseen
      obtain ⟨hchain, hviews⟩ := hseen hbefore
      rw [hview]
      refine ⟨List.pairwise_append.mpr ⟨hchain, List.pairwise_singleton _ _, ?_⟩, fun view hmem => ?_⟩
      · rintro view hmem last hlast
        rw [List.mem_singleton.mp hlast]
        exact (hviews view hmem).2
      · rcases List.mem_append.mp hmem with hmem | hmem
        · exact hviews view hmem
        · rw [List.mem_singleton.mp hmem]
          exact ⟨hI, refl_of R db⟩

end Told

/-- A running request with its record. -/
def Thread.Heard (requests : τ → Prog σ κ ℓ ρ → Prop) (I : σ → Prop) (R : σ → σ → Prop) (db : σ)
    (t : Thread σ κ ℓ (Record τ ρ σ)) : Prop :=
  ∃ tag p seen rest, requests tag p ∧ t.prog = rest.recorded tag seen ∧ Told I R db p seen rest t.pending

section Runs

variable {requests : τ → Prog σ κ ℓ ρ → Prop} {I : σ → Prop} {G : List (Lock κ) → σ → σ → Prop}
  {ok : ℓ → σ → Prop} {R : σ → σ → Prop} [IsPreorder σ R]

/-- One step keeps the records. -/
theorem heard_step {pool pool' : Pool σ κ ℓ (Record τ ρ σ)} {a : Action σ κ ℓ (Record τ ρ σ)}
    (h : ∀ t ∈ pool.threads, t.Heard requests I R pool.db) (hI : I pool.db) (hR : R pool.db pool'.db)
    (hstep : pool.Step (Recording requests) ok a pool') :
    ∀ t ∈ pool'.threads, t.Heard requests I R pool'.db := by
  obtain ⟨hadmits, hexec⟩ := hstep
  have hothers : ∀ t ∈ pool.threads, t.Heard requests I R pool'.db := by
    intro t ht
    obtain ⟨tag, p, seen, rest, hp, hprog, htold⟩ := h t ht
    exact ⟨tag, p, seen, rest, hp, hprog, htold.moved hR⟩
  intro t ht
  cases a with
  | spawn q =>
      obtain ⟨tag, p, hp, rfl⟩ := hadmits
      obtain rfl := Option.some.inj hexec
      rcases List.mem_append.mp ht with ht | ht
      · exact hothers t ht
      · obtain rfl := List.mem_singleton.mp ht
        exact ⟨tag, p, [], p, hp, rfl, .start⟩
  | kill i =>
      obtain rfl := Option.some.inj hexec
      exact hothers t (List.mem_of_mem_eraseIdx ht)
  | step i =>
      obtain ⟨u, hu, hadvance⟩ := Option.bind_eq_some_iff.mp hexec
      obtain ⟨tag, p, seen, rest, hp, hprog, htold⟩ := h u (List.mem_of_getElem? hu)
      obtain ⟨pending, held, prog⟩ := u
      obtain rfl : prog = rest.recorded tag seen := hprog
      cases rest with
      | ret r =>
          obtain rfl := Option.some.inj hadvance
          exact hothers t (List.mem_of_mem_eraseIdx ht)
      | commit next =>
          obtain rfl := Option.some.inj hadvance
          rcases List.mem_or_eq_of_mem_set ht with ht | rfl
          · exact hothers t ht
          · exact ⟨tag, p, seen, next, hp, rfl, htold.commit hR⟩
      | stmt label locks effect next =>
          replace hadvance : (if Pool.free pool.threads i (locks (pending pool.db)) then _ else none) =
            some pool' := hadvance
          split at hadvance
          · obtain rfl := Option.some.inj hadvance
            rcases List.mem_or_eq_of_mem_set ht with ht | rfl
            · exact hothers t ht
            · exact ⟨tag, p, _, _, hp, rfl, htold.stmt hI⟩
          · cases hadvance

/-- An outline is one for the program with a record. -/
theorem outlined_recorded {must : ℓ → σ → Prop} {tag : τ} {seen : List σ} {p : Prog σ κ ℓ ρ}
    {held : List (Lock κ)} {pending : σ → σ} {A : σ → Prop} (h : Outlined I G G ok must p held pending A) :
    Outlined I G G ok must (p.recorded tag seen) held pending A := by
  induction p generalizing seen held pending A with
  | ret r => exact safe_ret
  | commit next ih =>
      obtain ⟨hcommit, A', hA', hstable, hnext⟩ := outlined_commit.mp h
      exact outlined_commit.mpr ⟨hcommit, A', hA', hstable, ih hnext⟩
  | stmt label locks effect next ih =>
      refine outlined_stmt.mpr fun db hI hA hok => ?_
      obtain ⟨hmust, A', hA', hstable, hnext⟩ := outlined_stmt.mp h db hI hA hok
      exact ⟨hmust, A', hA', hstable, ih _ hnext⟩

/-- **Answers are functions of what was seen**, and what a request saw before it wrote anything were
committed states, one after the other. -/
theorem run_heard (hsafe : ∀ tag p, requests tag p → SafeRequest I G ok p)
    (hR : ∀ L db db', I db → I db' → G L db db' → R db db') {db₀ : σ} (h₀ : I db₀)
    {pool : Pool σ κ ℓ (Record τ ρ σ)} {actions : List (Action σ κ ℓ (Record τ ρ σ))}
    (hrun : Run (Pool.Step (Recording requests) ok) (Pool.idle db₀) actions pool)
    {t : Thread σ κ ℓ (Record τ ρ σ)} (ht : t ∈ pool.threads) {r : Record τ ρ σ} (hr : t.prog = .ret r) :
    I pool.db ∧ ∃ p, requests r.request p ∧ p.answer r.seen = some r.answer ∧
      ∀ n, p.Quiet (r.seen.take n) →
        (r.seen.take n).Pairwise R ∧ ∀ view ∈ r.seen.take n, I view ∧ R view pool.db := by
  have hrecorded : ∀ q, Recording requests q → SafeRequest I G ok q := by
    rintro _ ⟨tag, p, hp, rfl⟩
    exact outlined_recorded (hsafe tag p hp)
  have hall : Healthy I G ok pool ∧ ∀ t ∈ pool.threads, t.Heard requests I R pool.db := by
    refine hrun.invariant (P := fun pool => Healthy I G ok pool ∧
      ∀ t ∈ pool.threads, t.Heard requests I R pool.db) ?_ ⟨healthy_idle h₀, fun t ht => ?_⟩
    · rintro before a after ⟨hhealthy, hheard⟩ hstep
      obtain ⟨hafter, hmoved⟩ := hhealthy.step hrecorded hstep
      refine ⟨hafter, heard_step hheard hhealthy.inv ?_ hstep⟩
      rcases hmoved with hsame | ⟨L, hG⟩
      · rw [hsame]
        exact refl_of R _
      · exact hR L _ _ hhealthy.inv hafter.inv hG
    · simp [Pool.idle] at ht
  obtain ⟨hhealthy, hheard⟩ := hall
  obtain ⟨tag, p, seen, rest, hp, hprog, htold⟩ := hheard t ht
  rw [hr] at hprog
  cases rest with
  | commit next => cases hprog
  | stmt label locks effect next => cases hprog
  | ret answer =>
      obtain rfl : r = ⟨tag, answer, seen⟩ := Prog.ret.inj hprog
      have hanswer := htold.answer []
      rw [List.append_nil] at hanswer
      exact ⟨hhealthy.inv, p, hp, hanswer, htold.chain⟩

end Runs

end Lib
