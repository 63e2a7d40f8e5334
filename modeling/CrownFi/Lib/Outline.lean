import CrownFi.Lib.Transactions

/-!
# CrownFi.Lib.Outline

**Proof outlines for concurrent transactions.** A development fixes an invariant `I`
of the committed state and a guarantee `G`: what a commit by the holder of given
locks may change. Each program is then verified alone (`Safe`): between two
statements it keeps an assertion about the committed state that no commit of
another transaction can break, because the locks that commit would need are
incompatible with its own (`Stable`). Safe programs, run in any number and any
interleaving, keep the invariant, and every commit meets the guarantee
(`Healthy.step`, `run_healthy`).
-/

namespace Lib

universe u v w

variable {σ : Type u} {κ : Type v} {ℓ : Type w} {ρ : Type u} [DecidableEq κ]
  {I : σ → Prop} {G : List (Lock κ) → σ → σ → Prop} {ok : ℓ → σ → Prop}

/-- No commit of another transaction, under locks compatible with `held`, breaks `A`. -/
def Stable (I : σ → Prop) (G : List (Lock κ) → σ → σ → Prop) (held : List (Lock κ))
    (A : σ → Prop) : Prop :=
  ∀ L db db', Compatible held L → I db → I db' → A db → G L db db' → A db'

/-- A proof outline for the rest of a program, holding locks `held`, with uncommitted
changes `pending`, at a point where `A` holds of the committed state. It relies on `R` for the
commits of others, guarantees `G` for its own, and runs each statement in a state that the
statement `must` see. -/
def Outlined (I : σ → Prop) (R G : List (Lock κ) → σ → σ → Prop) (ok must : ℓ → σ → Prop) :
    Prog σ κ ℓ ρ → List (Lock κ) → (σ → σ) → (σ → Prop) → Prop
  | .ret _, _, _, _ => True
  | .commit next, held, pending, A =>
      (∀ db, I db → A db → I (pending db) ∧ G held db (pending db)) ∧
      ∃ A', (∀ db, I db → A db → A' (pending db)) ∧ Stable I R [] A' ∧
        Outlined I R G ok must next [] id A'
  | .stmt label locks effect next, held, pending, A =>
      ∀ db, I db → A db → ok label (pending db) →
        must label (pending db) ∧ ∃ A', A' db ∧ Stable I R (held ++ locks (pending db)) A' ∧
          Outlined I R G ok must (next (pending db)) (held ++ locks (pending db))
            (fun d => effect (pending db) (pending d)) A'

/-- An outline that relies on no more than everybody guarantees. -/
abbrev Safe (I : σ → Prop) (G : List (Lock κ) → σ → σ → Prop) (ok : ℓ → σ → Prop) :
    Prog σ κ ℓ ρ → List (Lock κ) → (σ → σ) → (σ → Prop) → Prop :=
  Outlined I G G ok fun _ _ => True

/-- A program that may be started at any time. -/
abbrev OutlinedRequest (I : σ → Prop) (R G : List (Lock κ) → σ → σ → Prop) (ok must : ℓ → σ → Prop)
    (p : Prog σ κ ℓ ρ) : Prop :=
  Outlined I R G ok must p [] id fun _ => True

/-- The same, for a program that relies on no more than everybody guarantees. -/
abbrev SafeRequest (I : σ → Prop) (G : List (Lock κ) → σ → σ → Prop) (ok : ℓ → σ → Prop)
    (p : Prog σ κ ℓ ρ) : Prop :=
  OutlinedRequest I G G ok (fun _ _ => True) p

theorem stable_true {held : List (Lock κ)} : Stable I G held fun _ => True :=
  fun _ _ _ _ _ _ _ _ => trivial

theorem Stable.and {held : List (Lock κ)} {A B : σ → Prop} (hA : Stable I G held A)
    (hB : Stable I G held B) : Stable I G held fun db => A db ∧ B db :=
  fun L db db' hc hI hI' h hG => ⟨hA L db db' hc hI hI' h.1 hG, hB L db db' hc hI hI' h.2 hG⟩

/-- More locks keep more commits away. -/
theorem Stable.weaken {held more : List (Lock κ)} {A : σ → Prop} (h : Stable I G held A) :
    Stable I G (held ++ more) A :=
  fun L db db' hc hI hI' hA hG => h L db db' hc.of_append.1 hI hI' hA hG

/-- The same, for locks taken in any order. -/
theorem Stable.mono {held held' : List (Lock κ)} {A : σ → Prop} (h : Stable I G held A)
    (hsub : held ⊆ held') : Stable I G held' A :=
  fun L db db' hc hI hI' hA hG => h L db db' (fun l hl => hc l (hsub hl)) hI hI' hA hG

/-! ### Rules for the statements -/

section Rules

variable {R : List (Lock κ) → σ → σ → Prop} {must : ℓ → σ → Prop} {α : Type u} {label : ℓ} {held : List (Lock κ)} {pending : σ → σ} {A : σ → Prop}
  {locks : σ → List (Lock κ)} {r : ρ}

@[simp] theorem safe_ret : Outlined I R G ok must (.ret r : Prog σ κ ℓ ρ) held pending A := trivial

@[simp] theorem safe_exit {k : α → Prog σ κ ℓ ρ} :
    Outlined I R G ok must (Tx.exit r k) held pending A := trivial

theorem safe_bind {β : Type u} {m : Tx σ κ ℓ ρ α} {f : α → Tx σ κ ℓ ρ β} {k : β → Prog σ κ ℓ ρ}
    (h : Outlined I R G ok must (m fun a => f a k) held pending A) :
    Outlined I R G ok must ((m >>= f) k) held pending A := h

theorem safe_require {c : Bool} {k : PUnit → Prog σ κ ℓ ρ}
    (h : c = true → Outlined I R G ok must (k ⟨⟩) held pending A) :
    Outlined I R G ok must (Tx.require c r k) held pending A := by
  unfold Tx.require
  split
  · exact h ‹_›
  · trivial

theorem safe_orElse {o : Option α} {k : α → Prog σ κ ℓ ρ}
    (h : ∀ a, o = some a → Outlined I R G ok must (k a) held pending A) :
    Outlined I R G ok must (Tx.orElse o r k) held pending A := by
  unfold Tx.orElse
  split
  · exact h _ rfl
  · trivial

theorem safe_ite {c : Prop} [Decidable c] {m n : Tx σ κ ℓ ρ α} {k : α → Prog σ κ ℓ ρ}
    (hm : c → Outlined I R G ok must (m k) held pending A) (hn : ¬ c → Outlined I R G ok must (n k) held pending A) :
    Outlined I R G ok must ((if c then m else n) k) held pending A := by
  split
  · exact hm ‹_›
  · exact hn ‹_›

theorem safe_ofExcept {ε : Type*} {e : Except ε α} {r : ε → ρ} {k : α → Prog σ κ ℓ ρ}
    (h : ∀ a, e = .ok a → Outlined I R G ok must (k a) held pending A) :
    Outlined I R G ok must (Tx.ofExcept e r k) held pending A := by
  unfold Tx.ofExcept
  split
  · exact h _ rfl
  · trivial

/-- The rule of a statement, as a program. -/
theorem safe_step {effect : σ → σ → σ} {next : σ → Prog σ κ ℓ ρ}
    (h : ∀ db, I db → A db → ok label (pending db) →
      ∃ A', A' db ∧ Stable I R (held ++ locks (pending db)) A' ∧
        Outlined I R G ok must (next (pending db)) (held ++ locks (pending db))
          (fun d => effect (pending db) (pending d)) A')
    [hmust : Evident (∀ db, I db → A db → ok label (pending db) → must label (pending db))] :
    Outlined I R G ok must (.stmt label locks effect next) held pending A :=
  fun db hI hA hok => ⟨hmust.holds db hI hA hok, h db hI hA hok⟩

/-- The rule of a statement: choose what to remember. -/
theorem safe_stmt {effect : σ → σ → σ} {answer : σ → α} {k : α → Prog σ κ ℓ ρ}
    (h : ∀ db, I db → A db → ok label (pending db) →
      ∃ A', A' db ∧ Stable I R (held ++ locks (pending db)) A' ∧
        Outlined I R G ok must (k (answer (pending db))) (held ++ locks (pending db))
          (fun d => effect (pending db) (pending d)) A')
    [hmust : Evident (∀ db, I db → A db → ok label (pending db) → must label (pending db))] :
    Outlined I R G ok must (Tx.stmt label locks effect answer k) held pending A :=
  safe_step h

/-- A plain read keeps the assertion. -/
theorem safe_select {answer : σ → α} {k : α → Prog σ κ ℓ ρ} (hA : Stable I R held A)
    (h : ∀ db a, I db → A db → answer (pending db) = a → Outlined I R G ok must (k a) held pending A)
    [hmust : Evident (∀ db, I db → A db → ok label (pending db) → must label (pending db))] :
    Outlined I R G ok must (Tx.select label answer k) held pending A := by
  refine safe_step (fun db hI hAdb _ => ⟨A, hAdb, ?_, ?_⟩)
  · simpa using hA
  · simpa using h db _ hI hAdb rfl

/-- A locking read may remember what it saw, as far as the locks protect it. -/
theorem safe_selectFor {answer : σ → α} {k : α → Prog σ κ ℓ ρ}
    (h : ∀ db a, I db → A db → answer (pending db) = a →
      ∃ A', A' db ∧ Stable I R (held ++ locks (pending db)) A' ∧
        Outlined I R G ok must (k a) (held ++ locks (pending db)) pending A')
    [hmust : Evident (∀ db, I db → A db → ok label (pending db) → must label (pending db))] :
    Outlined I R G ok must (Tx.selectFor label locks answer k) held pending A :=
  safe_step (fun db hI hA _ => h db _ hI hA rfl)

theorem safe_write {effect : σ → σ} {k : PUnit → Prog σ κ ℓ ρ}
    (h : ∀ db, I db → A db → ok label (pending db) →
      ∃ A', A' db ∧ Stable I R (held ++ locks (pending db)) A' ∧
        Outlined I R G ok must (k ⟨⟩) (held ++ locks (pending db)) (fun d => effect (pending d)) A')
    [hmust : Evident (∀ db, I db → A db → ok label (pending db) → must label (pending db))] :
    Outlined I R G ok must (Tx.write label locks effect k) held pending A :=
  safe_step h

theorem safe_insert {violation : σ → Option ρ} {effect : σ → σ} {k : PUnit → Prog σ κ ℓ ρ}
    (h : ∀ db, I db → A db → ok label (pending db) → violation (pending db) = none →
      ∃ A', A' db ∧ Stable I R (held ++ locks (pending db)) A' ∧
        Outlined I R G ok must (k ⟨⟩) (held ++ locks (pending db)) (fun d => effect (pending d)) A')
    [hmust : Evident (∀ db, I db → A db → ok label (pending db) → must label (pending db))] :
    Outlined I R G ok must (Tx.insert label locks violation effect k) held pending A := by
  refine safe_step (fun db hI hA hok => ?_)
  cases hv : violation (pending db) with
  | some r => exact ⟨fun _ => True, trivial, stable_true, by simp⟩
  | none =>
      obtain ⟨A', hA', hstable, hk⟩ := h db hI hA hok hv
      refine ⟨A', hA', hstable, ?_⟩
      simpa only [hv] using hk

/-- The rule of a commit after which nothing is remembered. -/
theorem safe_commit {k : PUnit → Prog σ κ ℓ ρ}
    (h : ∀ db, I db → A db → I (pending db) ∧ G held db (pending db))
    (hk : Outlined I R G ok must (k ⟨⟩) [] id fun _ => True) :
    Outlined I R G ok must (Tx.commit k) held pending A :=
  ⟨h, fun _ => True, fun _ _ _ => trivial, stable_true, hk⟩

end Rules

/-! ### Outlines for other systems -/

/-- **An outline for an abstract system is one for a refined system.** The refined invariant says
more, others may do less, and what the program guarantees in the abstract keeps the refined
invariant and guarantee. -/
theorem Outlined.refine {I₀ : σ → Prop} {R R₀ G₀ : List (Lock κ) → σ → σ → Prop}
    {must : ℓ → σ → Prop} {p : Prog σ κ ℓ ρ} {held : List (Lock κ)} {pending : σ → σ} {A : σ → Prop}
    (h : Outlined I₀ R₀ G₀ ok must p held pending A) (hI : ∀ db, I db → I₀ db)
    (hR : ∀ L db db', R L db db' → R₀ L db db')
    (hG : ∀ L db db', I db → I₀ db' → G₀ L db db' → I db' ∧ G L db db') :
    Outlined I R G ok must p held pending A := by
  have hstable {L : List (Lock κ)} {B : σ → Prop} (hB : Stable I₀ R₀ L B) : Stable I R L B :=
    fun L' db db' hc hdb hdb' hBdb hRdb => hB L' db db' hc (hI db hdb) (hI db' hdb') hBdb (hR _ _ _ hRdb)
  induction p generalizing held pending A with
  | ret r => trivial
  | commit next ih =>
      obtain ⟨hcommit, A', hA', hA'stable, hnext⟩ := h
      refine ⟨fun db hdb hA => ?_, A', fun db hdb hA => hA' db (hI db hdb) hA, hstable hA'stable,
        ih hnext⟩
      obtain ⟨hdb', hmoved⟩ := hcommit db (hI db hdb) hA
      exact hG _ _ _ hdb hdb' hmoved
  | stmt label locks effect next ih =>
      intro db hdb hA hok
      obtain ⟨hmust, A', hA', hA'stable, hnext⟩ := h db (hI db hdb) hA hok
      exact ⟨hmust, A', hA', hstable hA'stable, ih _ hnext⟩

/-! ### What an outline says -/

section Inversion

variable {R : List (Lock κ) → σ → σ → Prop} {must : ℓ → σ → Prop} {held : List (Lock κ)}
  {pending : σ → σ} {A : σ → Prop}

theorem outlined_commit {next : Prog σ κ ℓ ρ} :
    Outlined I R G ok must (.commit next) held pending A ↔
      (∀ db, I db → A db → I (pending db) ∧ G held db (pending db)) ∧
      ∃ A', (∀ db, I db → A db → A' (pending db)) ∧ Stable I R [] A' ∧
        Outlined I R G ok must next [] id A' :=
  Iff.rfl

theorem outlined_stmt {label : ℓ} {locks : σ → List (Lock κ)} {effect : σ → σ → σ}
    {next : σ → Prog σ κ ℓ ρ} :
    Outlined I R G ok must (.stmt label locks effect next) held pending A ↔
      ∀ db, I db → A db → ok label (pending db) →
        must label (pending db) ∧ ∃ A', A' db ∧ Stable I R (held ++ locks (pending db)) A' ∧
          Outlined I R G ok must (next (pending db)) (held ++ locks (pending db))
            (fun d => effect (pending db) (pending d)) A' :=
  Iff.rfl

end Inversion

/-! ### Soundness -/

/-- A running request is somewhere in its proof outline. -/
def Thread.Sound (I : σ → Prop) (G : List (Lock κ) → σ → σ → Prop) (ok must : ℓ → σ → Prop) (db : σ)
    (t : Thread σ κ ℓ ρ) : Prop :=
  ∃ A, A db ∧ Stable I G t.held A ∧ Outlined I G G ok must t.prog t.held t.pending A

/-- A pool in which the invariant holds and every running request is in its outline. -/
structure Running (I : σ → Prop) (G : List (Lock κ) → σ → σ → Prop) (ok must : ℓ → σ → Prop)
    (pool : Pool σ κ ℓ ρ) : Prop where
  inv : I pool.db
  sound : ∀ t ∈ pool.threads, t.Sound I G ok must pool.db
  apart : pool.threads.Pairwise fun t u => Compatible t.held u.held

abbrev Healthy (I : σ → Prop) (G : List (Lock κ) → σ → σ → Prop) (ok : ℓ → σ → Prop) :
    Pool σ κ ℓ ρ → Prop :=
  Running I G ok fun _ _ => True

variable {must : ℓ → σ → Prop}

/-- **Every statement runs in a state that it must see.** -/
theorem Running.sees {pool : Pool σ κ ℓ ρ} (h : Running I G ok must pool) {t : Thread σ κ ℓ ρ}
    (ht : t ∈ pool.threads) {label : ℓ} (hlabel : t.prog.label? = some label)
    (hok : ok label (t.pending pool.db)) : must label (t.pending pool.db) := by
  obtain ⟨A, hA, -, hsafe⟩ := h.sound t ht
  obtain ⟨pending, held, prog⟩ := t
  cases prog with
  | ret r => cases hlabel
  | commit next => cases hlabel
  | stmt label' locks effect next =>
      obtain rfl := Option.some.inj hlabel
      exact (hsafe pool.db h.inv hA hok).1

theorem pairwise_middle {t : Thread σ κ ℓ ρ} {l₁ l₂ : List (Thread σ κ ℓ ρ)} :
    (l₁ ++ t :: l₂).Pairwise (fun t u => Compatible t.held u.held) ↔
      (∀ u ∈ l₁ ++ l₂, Compatible t.held u.held) ∧
        (l₁ ++ l₂).Pairwise fun t u => Compatible t.held u.held := by
  rw [List.pairwise_middle fun h => h.symm, List.pairwise_cons]

omit [DecidableEq κ] in
/-- A thread of a list, with the rest of it. -/
theorem split_at {threads : List (Thread σ κ ℓ ρ)} {i : Nat} {t : Thread σ κ ℓ ρ}
    (h : threads[i]? = some t) :
    ∃ l₁ l₂, threads = l₁ ++ t :: l₂ ∧ threads.eraseIdx i = l₁ ++ l₂ ∧
      ∀ t', threads.set i t' = l₁ ++ t' :: l₂ := by
  obtain ⟨hi, rfl⟩ := List.getElem?_eq_some_iff.mp h
  refine ⟨threads.take i, threads.drop (i + 1), ?_, List.eraseIdx_eq_take_drop_succ _ _,
    fun t' => ?_⟩
  · rw [← List.drop_eq_getElem_cons hi, List.take_append_drop]
  · rw [List.set_eq_take_append_cons_drop, if_pos hi]

/-- What one step can do to the committed state. -/
def Moved (G : List (Lock κ) → σ → σ → Prop) (db db' : σ) : Prop :=
  db' = db ∨ ∃ L, G L db db'

/-- **One step keeps a pool of safe requests healthy**, and a commit meets the guarantee. -/
theorem Running.step {requests : Prog σ κ ℓ ρ → Prop}
    (hsafe : ∀ p, requests p → OutlinedRequest I G G ok must p) {pool pool' : Pool σ κ ℓ ρ}
    {a : Action σ κ ℓ ρ} (h : Running I G ok must pool) (hstep : pool.Step requests ok a pool') :
    Running I G ok must pool' ∧ Moved G pool.db pool'.db := by
  obtain ⟨hallow, hexec⟩ := hstep
  cases a with
  | spawn p =>
      obtain rfl := Option.some.inj hexec
      refine ⟨⟨h.inv, fun t ht => ?_, ?_⟩, .inl rfl⟩
      · rcases List.mem_append.mp ht with ht | ht
        · exact h.sound t ht
        · obtain rfl := List.mem_singleton.mp ht
          exact ⟨fun _ => True, trivial, stable_true, hsafe p hallow⟩
      · refine List.pairwise_append.mpr ⟨h.apart, List.pairwise_singleton _ _, fun t _ u hu => ?_⟩
        obtain rfl := List.mem_singleton.mp hu
        exact compatible_nil.symm
  | kill i =>
      obtain rfl := Option.some.inj hexec
      exact ⟨⟨h.inv, fun t ht => h.sound t (List.mem_of_mem_eraseIdx ht),
        h.apart.sublist (List.eraseIdx_sublist _ _)⟩, .inl rfl⟩
  | step i =>
      simp only [Pool.exec, Option.bind_eq_some_iff] at hexec
      obtain ⟨t, ht, hadv⟩ := hexec
      obtain ⟨l₁, l₂, hthreads, herase, hset⟩ := split_at ht
      obtain ⟨A, hA, hstable, hsafeT⟩ := h.sound t (List.mem_of_getElem? ht)
      have hothers : ∀ u ∈ l₁ ++ l₂, u ∈ pool.threads := fun u hu => by
        rw [hthreads]
        simp only [List.mem_append, List.mem_cons] at hu ⊢
        tauto
      have hapart := h.apart
      rw [hthreads, pairwise_middle] at hapart
      obtain ⟨hcompat, hrest⟩ := hapart
      obtain ⟨pending, held, prog⟩ := t
      cases prog with
      | ret r =>
          obtain rfl := Option.some.inj hadv
          refine ⟨⟨h.inv, fun u hu => h.sound u (List.mem_of_mem_eraseIdx hu), ?_⟩, .inl rfl⟩
          exact h.apart.sublist (List.eraseIdx_sublist _ _)
      | commit next =>
          obtain rfl := Option.some.inj hadv
          obtain ⟨hcommit, A', hA', hstable', hnext⟩ := hsafeT
          obtain ⟨hI, hG⟩ := hcommit pool.db h.inv hA
          refine ⟨⟨hI, fun u hu => ?_, ?_⟩, .inr ⟨held, hG⟩⟩
          · rw [hset] at hu
            rcases List.mem_append.mp hu with hu | hu
            · obtain ⟨B, hB, hBstable, hBsafe⟩ := h.sound u (hothers u (by simp [hu]))
              exact ⟨B, hBstable held _ _ (hcompat u (by simp [hu])).symm h.inv hI hB hG, hBstable,
                hBsafe⟩
            · rcases List.mem_cons.mp hu with rfl | hu
              · exact ⟨A', hA' _ h.inv hA, hstable', hnext⟩
              · obtain ⟨B, hB, hBstable, hBsafe⟩ := h.sound u (hothers u (by simp [hu]))
                exact ⟨B, hBstable held _ _ (hcompat u (by simp [hu])).symm h.inv hI hB hG,
                  hBstable, hBsafe⟩
          · rw [hset, pairwise_middle]
            exact ⟨fun u _ => compatible_nil, hrest⟩
      | stmt label locks effect next =>
          simp only [Pool.advance] at hadv
          split at hadv
          · rename_i hfree
            obtain rfl := Option.some.inj hadv
            obtain ⟨-, A', hA', hstable', hnext⟩ :=
              hsafeT pool.db h.inv hA (hallow _ ht label rfl)
            refine ⟨⟨h.inv, fun u hu => ?_, ?_⟩, .inl rfl⟩
            · rw [hset] at hu
              rcases List.mem_append.mp hu with hu | hu
              · exact h.sound u (hothers u (by simp [hu]))
              · rcases List.mem_cons.mp hu with rfl | hu
                · exact ⟨A', hA', hstable', hnext⟩
                · exact h.sound u (hothers u (by simp [hu]))
            · rw [hset, pairwise_middle]
              refine ⟨fun u hu => (hcompat u hu).append (hfree u ?_), hrest⟩
              rwa [herase]
          · cases hadv

/-- Runs of requests with outlines. -/
theorem run_running {requests : Prog σ κ ℓ ρ → Prop}
    (hsafe : ∀ p, requests p → OutlinedRequest I G G ok must p) {pool pool' : Pool σ κ ℓ ρ}
    {actions : List (Action σ κ ℓ ρ)} (hrun : Run (Pool.Step requests ok) pool actions pool')
    (h : Running I G ok must pool) : Running I G ok must pool' :=
  hrun.invariant (fun _ _ _ hp hs => (hp.step hsafe hs).1) h

/-- **Runs of safe requests** keep the invariant, and move the committed state by
steps that meet the guarantee. -/
theorem run_healthy {requests : Prog σ κ ℓ ρ → Prop}
    (hsafe : ∀ p, requests p → SafeRequest I G ok p) {pool pool' : Pool σ κ ℓ ρ}
    {actions : List (Action σ κ ℓ ρ)} (hrun : Run (Pool.Step requests ok) pool actions pool')
    (h : Healthy I G ok pool) : Healthy I G ok pool' :=
  run_running hsafe hrun h

/-- What holds across every commit holds across a run. -/
theorem run_moved {requests : Prog σ κ ℓ ρ → Prop}
    (hsafe : ∀ p, requests p → SafeRequest I G ok p) {R : σ → σ → Prop} (hrefl : ∀ db, R db db)
    (htrans : ∀ a b c, R a b → R b c → R a c)
    (hG : ∀ L db db', I db → I db' → G L db db' → R db db')
    {pool pool' : Pool σ κ ℓ ρ} {actions : List (Action σ κ ℓ ρ)}
    (hrun : Run (Pool.Step requests ok) pool actions pool') (h : Healthy I G ok pool) :
    R pool.db pool'.db :=
  hrun.relation (P := Healthy I G ok) (R := fun p q => R p.db q.db)
    (fun _ _ _ hp hs => (hp.step hsafe hs).1) (fun p => hrefl p.db)
    (fun _ _ _ => htrans _ _ _)
    (fun p _ q hp hs => by
      obtain ⟨hq, hsame | ⟨L, hL⟩⟩ := hp.step hsafe hs
      · rw [hsame]
        exact hrefl _
      · exact hG L _ _ hp.inv hq.inv hL) h

theorem healthy_idle {db : σ} (h : I db) :
    Running I G ok must (Pool.idle db : Pool σ κ ℓ ρ) where
  inv := h
  sound t ht := by simp [Pool.idle] at ht
  apart := List.Pairwise.nil

-- outlines are built by the rules; to evaluate `Outlined` would be to run the program
attribute [irreducible] Outlined

end Lib
