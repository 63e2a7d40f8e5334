import CrownFi.Lib.Records
import CrownFi.Lib.Statements

/-!
# CrownFi.Lib.Attribution

**Whose commit it was.** An outline relies on one guarantee for the commits of everybody else. What a
request commits itself often says more, since it depends on what was asked for. Here each request has a
guarantee of its own, within the common one, and in every run a commit meets the guarantee of the request
that it belongs to (`Attributed.step`). A request is `Decisive` if it answers well exactly when it has
committed, and commits once; so what answers badly has changed nothing.
-/

namespace Lib

universe u v w

variable {σ : Type u} {κ : Type v} {ℓ : Type w} {ρ τ α β : Type u}

/-! ### Requests that commit once -/

/-- The answer is good if there was a commit, and then the request has ended. -/
def Prog.Decisive (good : ρ → Prop) : Prog σ κ ℓ ρ → Prop
  | .ret r => ¬ good r
  | .commit next => ∃ r, next = .ret r ∧ good r
  | .stmt _ _ _ next => ∀ view, (next view).Decisive good

namespace Tx

variable {good : ρ → Prop} {label : ℓ}

/-- A part of a program before its commit. -/
def Decisive (good : ρ → Prop) (m : Tx σ κ ℓ ρ α) : Prop :=
  ∀ k : α → Prog σ κ ℓ ρ, (∀ a, (k a).Decisive good) → (m k).Decisive good

theorem Decisive.pure {a : α} : Decisive good (Pure.pure a : Tx σ κ ℓ ρ α) := fun _ hk => hk a

theorem Decisive.bind {m : Tx σ κ ℓ ρ α} {f : α → Tx σ κ ℓ ρ β} (hm : m.Decisive good)
    (hf : ∀ a, (f a).Decisive good) : (m >>= f).Decisive good :=
  fun k hk => hm _ fun a => hf a k hk

theorem Decisive.require {c : Bool} {r : ρ} (hr : ¬ good r) :
    Decisive good (Tx.require c r : Tx σ κ ℓ ρ PUnit) := by
  intro k hk
  cases c with
  | true => exact hk _
  | false => exact hr

theorem Decisive.orElse {o : Option α} {r : ρ} (hr : ¬ good r) :
    Decisive good (Tx.orElse o r : Tx σ κ ℓ ρ α) := by
  intro k hk
  cases o with
  | none => exact hr
  | some a => exact hk a

theorem Decisive.ofExcept {ε : Type*} {e : Except ε α} {r : ε → ρ} (hr : ∀ err, ¬ good (r err)) :
    Decisive good (Tx.ofExcept e r : Tx σ κ ℓ ρ α) := by
  intro k hk
  cases e with
  | error err => exact hr err
  | ok a => exact hk a

theorem Decisive.stmt {locks : σ → List (Lock κ)} {effect : σ → σ → σ} {answer : σ → α} :
    Decisive good (Tx.stmt label locks effect answer : Tx σ κ ℓ ρ α) :=
  fun _ hk view => hk (answer view)

theorem Decisive.insert {locks : σ → List (Lock κ)} {violation : σ → Option ρ} {effect : σ → σ}
    (hr : ∀ view r, violation view = some r → ¬ good r) :
    Decisive good (Tx.insert label locks violation effect : Tx σ κ ℓ ρ PUnit) := by
  intro k hk view
  cases hv : violation view with
  | none =>
      simp only [hv]
      exact hk _
  | some r =>
      simp only [hv]
      exact hr view r hv

/-- A part before the commit, and the rest. -/
theorem decisive_bind {m : Tx σ κ ℓ ρ α} {f : α → Tx σ κ ℓ ρ β} {k : β → Prog σ κ ℓ ρ} (hm : m.Decisive good)
    (h : ∀ a, (f a k).Decisive good) : ((m >>= f) k).Decisive good := hm _ h

/-- The end of a request. -/
theorem decisive_commit {a : α} {k : α → Prog σ κ ℓ ρ} {r : ρ} (hk : k a = .ret r) (hr : good r) :
    Prog.Decisive good ((Tx.commit >>= fun _ => Pure.pure a : Tx σ κ ℓ ρ α) k) := ⟨r, hk, hr⟩

end Tx

theorem Tx.Decisive.update {σ κ ℓ ρ ι α : Type} [DecidableEq ι] {good : ρ → Prop} {label : ℓ}
    {T : Table σ κ ι α} {locks : α → List (Lock κ)} {p : α → Bool} {f : α → α} {check : σ → α → Option ρ}
    (hr : ∀ view a r, check view a = some r → ¬ good r) :
    Decisive good (Tx.update label T locks p f check) := by
  intro k hk view
  cases hcheck : (T.matching p view).findSome? fun a => check view (f a) with
  | none =>
      simp only [hcheck]
      exact hk _
  | some r =>
      simp only [hcheck]
      obtain ⟨a, -, ha⟩ := List.exists_of_findSome?_eq_some hcheck
      exact hr view (f a) r ha

/-- The answer of a program that ends with its next commit. -/
def Prog.ending? : Prog σ κ ℓ ρ → Option ρ
  | .commit next => next.ended?
  | _ => none

/-- The answer of the request that a step commits. -/
def Pool.commits (pool : Pool σ κ ℓ ρ) : Action σ κ ℓ ρ → Option ρ
  | .step i => pool.threads[i]?.bind (·.prog.ending?)
  | _ => none

/-! ### Guarantees of single requests -/

section Attributed

variable [DecidableEq κ] {requests : τ → Prog σ κ ℓ ρ → Prop} {I : σ → Prop}
  {R : List (Lock κ) → σ → σ → Prop} {G : τ → List (Lock κ) → σ → σ → Prop} {ok must : ℓ → σ → Prop}
  {good : ρ → Prop}

/-- A running request, somewhere in the outline of what it was asked for. -/
def Thread.Attributed (I : σ → Prop) (R : List (Lock κ) → σ → σ → Prop)
    (G : τ → List (Lock κ) → σ → σ → Prop) (ok must : ℓ → σ → Prop) (good : ρ → Prop) (db : σ)
    (t : Thread σ κ ℓ (Record τ ρ σ)) : Prop :=
  ∃ tag rest seen, t.prog = rest.recorded tag seen ∧ (rest.Decisive good ∨ ∃ r, rest = .ret r) ∧
    ∃ A, A db ∧ Stable I R t.held A ∧ Outlined I R (G tag) ok must rest t.held t.pending A

structure Attributed (I : σ → Prop) (R : List (Lock κ) → σ → σ → Prop)
    (G : τ → List (Lock κ) → σ → σ → Prop) (ok must : ℓ → σ → Prop) (good : ρ → Prop)
    (pool : Pool σ κ ℓ (Record τ ρ σ)) : Prop where
  inv : I pool.db
  sound : ∀ t ∈ pool.threads, t.Attributed I R G ok must good pool.db
  apart : pool.threads.Pairwise fun t u => Compatible t.held u.held

/-- What a step does: nothing, or the commit of a request with a good answer, under its own guarantee. -/
inductive Committed (G : τ → List (Lock κ) → σ → σ → Prop) (good : ρ → Prop) (db db' : σ) :
    Option (Record τ ρ σ) → Prop
  | none : db' = db → Committed G good db db' none
  | some {r : Record τ ρ σ} {L : List (Lock κ)} : good r.answer → G r.request L db db' →
      Committed G good db db' (some r)

theorem attributed_idle {db : σ} (h : I db) :
    Attributed I R G ok must good (Pool.idle db : Pool σ κ ℓ (Record τ ρ σ)) where
  inv := h
  sound t ht := by simp [Pool.idle] at ht
  apart := List.Pairwise.nil

/-- **One step**, and whose commit it was. -/
theorem Attributed.step
    (hrequests : ∀ tag p, requests tag p → OutlinedRequest I R (G tag) ok must p ∧ p.Decisive good)
    (hG : ∀ tag L db db', G tag L db db' → R L db db') {pool pool' : Pool σ κ ℓ (Record τ ρ σ)}
    {a : Action σ κ ℓ (Record τ ρ σ)} (h : Attributed I R G ok must good pool)
    (hstep : pool.Step (Recording requests) ok a pool') :
    Attributed I R G ok must good pool' ∧ Committed G good pool.db pool'.db (pool.commits a) := by
  obtain ⟨hallow, hexec⟩ := hstep
  cases a with
  | spawn q =>
      obtain ⟨tag, p, hp, rfl⟩ := hallow
      obtain rfl := Option.some.inj hexec
      obtain ⟨houtlined, hdecisive⟩ := hrequests tag p hp
      refine ⟨⟨h.inv, fun t ht => ?_, ?_⟩, .none rfl⟩
      · rcases List.mem_append.mp ht with ht | ht
        · exact h.sound t ht
        · obtain rfl := List.mem_singleton.mp ht
          exact ⟨tag, p, [], rfl, .inl hdecisive, fun _ => True, trivial, stable_true, houtlined⟩
      · refine List.pairwise_append.mpr ⟨h.apart, List.pairwise_singleton _ _, fun t _ u hu => ?_⟩
        obtain rfl := List.mem_singleton.mp hu
        exact compatible_nil.symm
  | kill i =>
      obtain rfl := Option.some.inj hexec
      exact ⟨⟨h.inv, fun t ht => h.sound t (List.mem_of_mem_eraseIdx ht),
        h.apart.sublist (List.eraseIdx_sublist _ _)⟩, .none rfl⟩
  | step i =>
      obtain ⟨t, ht, hadv⟩ := Option.bind_eq_some_iff.mp hexec
      have hcommits : pool.commits (.step i) = t.prog.ending? := by
        rw [Pool.commits, ht, Option.bind_some]
      rw [hcommits]
      obtain ⟨l₁, l₂, hthreads, herase, hset⟩ := split_at ht
      obtain ⟨tag, rest, seen, hprog, hdecisive, A, hA, hstable, houtlined⟩ :=
        h.sound t (List.mem_of_getElem? ht)
      have hothers : ∀ u ∈ l₁ ++ l₂, u ∈ pool.threads := fun u hu => by
        rw [hthreads]
        simp only [List.mem_append, List.mem_cons] at hu ⊢
        tauto
      have hapart := h.apart
      rw [hthreads, pairwise_middle] at hapart
      obtain ⟨hcompat, hrest⟩ := hapart
      obtain ⟨pending, held, prog⟩ := t
      obtain rfl : prog = rest.recorded tag seen := hprog
      cases rest with
      | ret r =>
          obtain rfl := Option.some.inj hadv
          exact ⟨⟨h.inv, fun u hu => h.sound u (List.mem_of_mem_eraseIdx hu),
            h.apart.sublist (List.eraseIdx_sublist _ _)⟩, .none rfl⟩
      | commit next =>
          obtain rfl := Option.some.inj hadv
          obtain ⟨r, rfl, hgood⟩ : ∃ r, next = .ret r ∧ good r := by
            rcases hdecisive with hdecisive | ⟨r, hr⟩
            · exact hdecisive
            · cases hr
          obtain ⟨hcommit, A', hA', hstable', hnext⟩ := outlined_commit.mp houtlined
          obtain ⟨hI, hown⟩ := hcommit pool.db h.inv hA
          have hR := hG tag held _ _ hown
          have hkept (u : Thread σ κ ℓ (Record τ ρ σ)) (hu : u ∈ l₁ ++ l₂) :
              u.Attributed I R G ok must good (pending pool.db) := by
            obtain ⟨tag', rest', seen', hprog', hdecisive', B, hB, hBstable, hBoutlined⟩ :=
              h.sound u (hothers u hu)
            exact ⟨tag', rest', seen', hprog', hdecisive', B,
              hBstable held _ _ (hcompat u hu).symm h.inv hI hB hR, hBstable, hBoutlined⟩
          refine ⟨⟨hI, fun u hu => ?_, ?_⟩, .some (r := ⟨tag, r, seen⟩) hgood hown⟩
          · rw [hset] at hu
            rcases List.mem_append.mp hu with hu | hu
            · exact hkept u (List.mem_append_left _ hu)
            · rcases List.mem_cons.mp hu with rfl | hu
              · exact ⟨tag, .ret r, seen, rfl, .inr ⟨r, rfl⟩, A', hA' _ h.inv hA, hstable', hnext⟩
              · exact hkept u (List.mem_append_right _ hu)
          · rw [hset, pairwise_middle]
            exact ⟨fun u _ => compatible_nil, hrest⟩
      | stmt label locks effect next =>
          replace hadv : (if Pool.free pool.threads i (locks (pending pool.db)) then _ else none) =
            some pool' := hadv
          split at hadv
          · rename_i hfree
            obtain rfl := Option.some.inj hadv
            obtain ⟨-, A', hA', hstable', hnext⟩ :=
              outlined_stmt.mp houtlined pool.db h.inv hA (hallow _ ht label rfl)
            have hdecided : (next (pending pool.db)).Decisive good := by
              rcases hdecisive with hdecisive | ⟨r, hr⟩
              · exact hdecisive _
              · cases hr
            refine ⟨⟨h.inv, fun u hu => ?_, ?_⟩, .none rfl⟩
            · rw [hset] at hu
              rcases List.mem_append.mp hu with hu | hu
              · exact h.sound u (hothers u (List.mem_append_left _ hu))
              · rcases List.mem_cons.mp hu with rfl | hu
                · exact ⟨tag, _, _, rfl, .inl hdecided, A', hA', hstable', hnext⟩
                · exact h.sound u (hothers u (List.mem_append_right _ hu))
            · rw [hset, pairwise_middle]
              refine ⟨fun u hu => (hcompat u hu).append (hfree u ?_), hrest⟩
              rwa [herase]
          · cases hadv

/-- Every run of such requests. -/
theorem run_attributed
    (hrequests : ∀ tag p, requests tag p → OutlinedRequest I R (G tag) ok must p ∧ p.Decisive good)
    (hG : ∀ tag L db db', G tag L db db' → R L db db') {pool pool' : Pool σ κ ℓ (Record τ ρ σ)}
    {actions : List (Action σ κ ℓ (Record τ ρ σ))}
    (hrun : Run (Pool.Step (Recording requests) ok) pool actions pool')
    (h : Attributed I R G ok must good pool) : Attributed I R G ok must good pool' :=
  hrun.invariant (fun _ _ _ hp hs => (hp.step hrequests hG hs).1) h

/-- What every commit moves along is moved along by every run. -/
theorem attributed_moved
    (hrequests : ∀ tag p, requests tag p → OutlinedRequest I R (G tag) ok must p ∧ p.Decisive good)
    (hG : ∀ tag L db db', G tag L db db' → R L db db') {S : σ → σ → Prop} [IsPreorder σ S]
    (hS : ∀ tag L db db', I db → G tag L db db' → S db db') {pool pool' : Pool σ κ ℓ (Record τ ρ σ)}
    {actions : List (Action σ κ ℓ (Record τ ρ σ))}
    (hrun : Run (Pool.Step (Recording requests) ok) pool actions pool')
    (h : Attributed I R G ok must good pool) : S pool.db pool'.db :=
  hrun.relation (P := Attributed I R G ok must good) (R := fun p q => S p.db q.db)
    (fun _ _ _ hp hs => (hp.step hrequests hG hs).1) (fun _ => refl_of S _)
    (fun _ _ _ => trans_of S)
    (fun p a q hp hs => by
      obtain ⟨-, hcommitted⟩ := hp.step hrequests hG hs
      cases hcommits : p.commits a with
      | none =>
          rw [hcommits] at hcommitted
          obtain ⟨hsame⟩ := hcommitted
          rw [hsame]
          exact refl_of S _
      | some r =>
          rw [hcommits] at hcommitted
          obtain ⟨⟩ | ⟨-, hown⟩ := hcommitted
          exact hS _ _ _ _ hp.inv hown) h

end Attributed

-- as outlines are, these are built by the rules
attribute [irreducible] Prog.Decisive

end Lib
