import CrownFi.Lib.Processes

/-!
# CrownFi.Lib.Accesses

**The accesses that a process may come to.** `Accessing P p` says that every access in what may be
left of the process `p` is one of `P`, whatever the state was at the accesses before. It speaks of the
program alone; in a world whose programs are so, every process is so in every state
(`accessing_exec`).
-/

namespace Lib.Processes

universe u v w x y

variable {ι : Type y} {σ : Type u} {κ : Type v} {ℓ : Type w} {ρ : Type u} {ε : Type x}

/-- Every access that may come is one of `P`. -/
def Accessing (P : ℓ → (σ → σ) → (σ → Proc σ κ ℓ ρ) → Prop) : Proc σ κ ℓ ρ → Prop
  | .ret _ => True
  | .access label effect next => P label effect next ∧ ∀ s, Accessing P (next s)
  | .acquire _ next => ∀ got, Accessing P (next got)
  | .release _ next => Accessing P next

section Rules

variable {P : ℓ → (σ → σ) → (σ → Proc σ κ ℓ ρ) → Prop} {α : Type x} {label : ℓ} {r : ρ}

theorem accessing_ret : Accessing P (.ret r : Proc σ κ ℓ ρ) := trivial

theorem accessing_bind {β : Type x} {m : Task σ κ ℓ ρ α} {f : α → Task σ κ ℓ ρ β} {k : β → Proc σ κ ℓ ρ}
    (h : Accessing P (m fun a => f a k)) : Accessing P ((m >>= f) k) := h

theorem accessing_access {effect : σ → σ} {answer : σ → α} {k : α → Proc σ κ ℓ ρ}
    (hP : P label effect fun s => k (answer s)) (h : ∀ a, Accessing P (k a)) :
    Accessing P (Task.access label effect answer k) := ⟨hP, fun s => h (answer s)⟩

theorem accessing_transact {δ : Type*} {change : σ → Except δ σ} {r : δ → ρ} {k : PUnit → Proc σ κ ℓ ρ}
    (hP : ∀ next, P label (fun s => match change s with | .ok s' => s' | .error _ => s) next)
    (h : Accessing P (k ⟨⟩)) : Accessing P (Task.transact label change r k) := by
  refine ⟨hP _, fun s => ?_⟩
  dsimp only
  split
  · exact h
  · trivial

theorem accessing_require {c : Bool} {k : PUnit → Proc σ κ ℓ ρ} (h : c = true → Accessing P (k ⟨⟩)) :
    Accessing P (Task.require c r k) := by
  unfold Task.require
  split
  · exact h ‹_›
  · trivial

theorem accessing_orElse {o : Option α} {k : α → Proc σ κ ℓ ρ} (h : ∀ a, o = some a → Accessing P (k a)) :
    Accessing P (Task.orElse o r k) := by
  unfold Task.orElse
  split
  · exact h _ rfl
  · trivial

theorem accessing_ofExcept {δ : Type*} {e : Except δ α} {r : δ → ρ} {k : α → Proc σ κ ℓ ρ}
    (h : ∀ a, e = .ok a → Accessing P (k a)) : Accessing P (Task.ofExcept e r k) := by
  unfold Task.ofExcept
  split
  · exact h _ rfl
  · trivial

theorem accessing_ite {c : Prop} [Decidable c] {m n : Task σ κ ℓ ρ α} {k : α → Proc σ κ ℓ ρ}
    (hm : c → Accessing P (m k)) (hn : ¬ c → Accessing P (n k)) :
    Accessing P ((if c then m else n) k) := by
  split
  · exact hm ‹_›
  · exact hn ‹_›

end Rules

section Worlds

variable [DecidableEq κ] {sys : System ι σ κ ℓ ρ ε} {P : ι → ℓ → (σ → σ) → (σ → Proc σ κ ℓ ρ) → Prop}
  {world world' : World ι σ κ ℓ ρ} {m : Move ι ε}

/-- Every access that a process of this world may come to is one that its request may make. -/
def World.Accessing (P : ι → ℓ → (σ → σ) → (σ → Proc σ κ ℓ ρ) → Prop) (world : World ι σ κ ℓ ρ) : Prop :=
  ∀ t ∈ world.processes, Processes.Accessing (P t.request) t.proc

omit [DecidableEq κ] in
theorem accessing_idle {s : σ} : (World.idle s : World ι σ κ ℓ ρ).Accessing P := nofun

/-- **Every step leaves the accesses to come as the programs have them.** -/
theorem accessing_exec (hprograms : ∀ r, Accessing (P r) (sys.program r)) (h : world.Accessing P)
    (hexec : world.exec sys m = some world') : world'.Accessing P := by
  cases m with
  | spawn request =>
      obtain rfl := Option.some.inj hexec
      intro t ht
      rcases List.mem_append.mp ht with ht | ht
      · exact h t ht
      · obtain rfl := List.mem_singleton.mp ht
        exact hprograms request
  | kill i =>
      obtain rfl := Option.some.inj hexec
      exact fun t ht => h t (List.mem_of_mem_eraseIdx ht)
  | event e =>
      obtain rfl := Option.some.inj hexec
      exact h
  | go i =>
      simp only [World.exec, Option.map_eq_some_iff] at hexec
      obtain ⟨t, ht, rfl⟩ := hexec
      have hthis := h t (List.mem_of_getElem? ht)
      have hset (t' : Process ι σ κ ℓ ρ) (hrest : Accessing (P t'.request) t'.proc) :
          ∀ u ∈ world.processes.set i t', Accessing (P u.request) u.proc := by
        intro u hu
        rcases List.mem_or_eq_of_mem_set hu with hu | rfl
        · exact h u hu
        · exact hrest
      obtain ⟨request, held, proc⟩ := t
      cases proc with
      | ret r => exact fun t ht => h t (List.mem_of_mem_eraseIdx ht)
      | access label effect next => exact hset _ (hthis.2 world.state)
      | acquire key next =>
          simp only [World.advance]
          split
          · exact hset _ (hthis true)
          · exact hset _ (hthis false)
      | release key next => exact hset _ hthis

end Worlds

end Lib.Processes
