import Mathlib.Algebra.Order.Ring.Int
import Mathlib.Data.List.Induction
import Mathlib.Data.List.Nodup
import Mathlib.Data.Nat.Log
import Mathlib.Data.Set.Function
import Mathlib.Tactic.Common

/-!
# CrownFi.Lib.Merkle

**Binary hash trees that pair an odd last node with itself.** A level is a list of
digests; the next level hashes neighbours, and the tree is the iteration of this
until one digest is left. An inclusion path lists the sibling at every level.

* *Completeness* (`climb_path`): the path of any index climbs from its digest to
  the top, and has as many steps as the binary logarithm of the width, rounded up.
* *Soundness* (`mem_of_climb`) and *binding* (`eq_of_top_eq`) need the hash to have
  no collision among the messages that were actually hashed, so they are stated
  with that set of messages. They also need the message format to keep leaves
  and nodes apart, and to show where a digest inside a node ends: `Format`.
-/

namespace Lib.Merkle

universe u v

variable {H : Type u} {M : Type v}

/-- One step of an inclusion path: the sibling, and whether it stands on the left. -/
structure Step (H : Type u) where
  left : Bool
  sibling : H
  deriving DecidableEq, Repr

/-! ### Levels, tops and paths -/

section Construction

variable (node : H → H → H)

/-- Hash neighbours; the last digest of an odd level is its own neighbour. -/
def nextLevel : List H → List H
  | [] => []
  | [a] => [node a a]
  | a :: b :: rest => node a b :: nextLevel rest

@[simp] theorem length_nextLevel (l : List H) : (nextLevel node l).length = (l.length + 1) / 2 := by
  induction l using nextLevel.induct with
  | case1 => simp [nextLevel]
  | case2 a => simp [nextLevel]
  | case3 a b rest ih => simp [nextLevel, ih]; omega

theorem nextLevel_shorter {l : List H} (h : 1 < l.length) :
    (nextLevel node l).length < l.length := by
  rw [length_nextLevel]
  omega

theorem nextLevel_ne_nil {l : List H} (h : 1 < l.length) : nextLevel node l ≠ [] := by
  rw [← List.length_pos_iff, length_nextLevel]
  omega

theorem eq_singleton {l : List H} (hne : l ≠ []) (h : ¬ 1 < l.length) : ∃ a, l = [a] :=
  List.length_eq_one_iff.mp (by have := List.length_pos_iff.mpr hne; omega)

/-- The digest at the top of the tree over a level; `empty` stands for the empty tree. -/
def top (empty : H) (level : List H) : H :=
  if _h : 1 < level.length then top empty (nextLevel node level)
  else level.headD empty
termination_by level.length
decreasing_by exact nextLevel_shorter node ‹_›

theorem top_wide (empty : H) {l : List H} (h : 1 < l.length) :
    top node empty l = top node empty (nextLevel node l) := by
  rw [top, dif_pos h]

@[simp] theorem top_singleton (empty a : H) : top node empty [a] = a := by
  simp [top]

/-- The neighbour of index `i` in a level of width `n`. -/
def siblingIndex (n i : Nat) : Nat := if i % 2 = 0 then min (i + 1) (n - 1) else i - 1

/-- The inclusion path of index `i`; `none` where an index is out of bounds. -/
def path (level : List H) (i : Nat) : Option (List (Step H)) :=
  if _h : 1 < level.length then do
    let sibling ← level[siblingIndex level.length i]?
    let rest ← path (nextLevel node level) (i / 2)
    return ⟨i % 2 != 0, sibling⟩ :: rest
  else some []
termination_by level.length
decreasing_by exact nextLevel_shorter node ‹_›

/-- Hash a digest together with the sibling of one step. -/
def Step.apply (s : Step H) (current : H) : H :=
  if s.left then node s.sibling current else node current s.sibling

/-- The digest a path leads to. -/
def climb (start : H) (steps : List (Step H)) : H :=
  steps.foldl (fun current s => s.apply node current) start

theorem climb_append (start : H) (steps : List (Step H)) (s : Step H) :
    climb node start (steps ++ [s]) = s.apply node (climb node start steps) := by
  simp [climb]

/-! ### Completeness -/

/-- The digest above index `i` is the hash of `i` and its neighbour, in the right order. -/
theorem nextLevel_getElem? {l : List H} {i : Nat} {x : H} (hx : l[i]? = some x)
    (hl : 1 < l.length) :
    ∃ y, l[siblingIndex l.length i]? = some y ∧
      (nextLevel node l)[i / 2]? = some ((Step.mk (i % 2 != 0) y).apply node x) := by
  induction l using nextLevel.induct generalizing i with
  | case1 => simp at hl
  | case2 a => simp at hl
  | case3 a b rest ih =>
      match i, hx with
      | 0, hx =>
          obtain rfl : a = x := by simpa using hx
          exact ⟨b, by simp [siblingIndex], by simp [nextLevel, Step.apply]⟩
      | 1, hx =>
          obtain rfl : b = x := by simpa using hx
          exact ⟨a, by simp [siblingIndex], by simp [nextLevel, Step.apply]⟩
      | i + 2, hx =>
          have hx' : rest[i]? = some x := by simpa using hx
          have hdiv : (i + 2) / 2 = i / 2 + 1 := by omega
          have hmod : (i + 2) % 2 = i % 2 := by omega
          have hlt : i < rest.length := (List.getElem?_eq_some_iff.mp hx').1
          by_cases hrest : 1 < rest.length
          · obtain ⟨y, hy, hup⟩ := ih hx' hrest
            have hsib : siblingIndex (a :: b :: rest).length (i + 2) =
                siblingIndex rest.length i + 2 := by
              simp only [siblingIndex, hmod, List.length_cons]
              split <;> omega
            refine ⟨y, ?_, ?_⟩
            · rw [hsib]
              simpa using hy
            · rw [hdiv, hmod]
              simpa [nextLevel] using hup
          · -- the rest is the odd last digest, its own neighbour
            obtain ⟨c, rfl⟩ := List.length_eq_one_iff.mp (by omega : rest.length = 1)
            obtain rfl : i = 0 := by simpa using hlt
            obtain rfl : c = x := by simpa using hx'
            exact ⟨c, by simp [siblingIndex], by simp [nextLevel, Step.apply]⟩

/-- **Completeness.** Every index has a path; the path leads to the top and has
`⌈log₂ width⌉` steps. -/
theorem climb_path (empty : H) {level : List H} {i : Nat} {x : H} (hx : level[i]? = some x) :
    ∃ steps, path node level i = some steps ∧ steps.length = Nat.clog 2 level.length ∧
      climb node x steps = top node empty level := by
  induction hn : level.length using Nat.strong_induction_on generalizing level i x with
  | _ n ih =>
    have hlt : i < level.length := (List.getElem?_eq_some_iff.mp hx).1
    subst hn
    rw [path, top]
    by_cases hwide : 1 < level.length
    · obtain ⟨y, hy, hup⟩ := nextLevel_getElem? node hx hwide
      obtain ⟨rest, hpath, hlen, hclimb⟩ := ih _ (nextLevel_shorter node hwide) hup rfl
      refine ⟨⟨i % 2 != 0, y⟩ :: rest, ?_, ?_, ?_⟩
      · simp [hwide, hy, hpath]
      · rw [List.length_cons, hlen, length_nextLevel, Nat.clog_of_two_le Nat.one_lt_two hwide]
        rfl
      · rw [dif_pos hwide, ← hclimb]
        rfl
    · obtain ⟨c, rfl⟩ := List.length_eq_one_iff.mp (by omega : level.length = 1)
      obtain rfl : i = 0 := by simpa using hlt
      obtain rfl : c = x := by simpa using hx
      exact ⟨[], by simp, by simp, by simp [climb]⟩

end Construction

/-! ### Messages, and what a format keeps apart -/

/-- What a message format must provide: `Digest` is the shape of every hash value,
`LeafMsg` the messages that are leaves. A node message gives back its digests when
the one on either side has the shape, and is then no leaf message; nothing is asked of the other
side, which an adversary may choose. -/
structure Format (nodeMsg : H → H → M) (Digest : H → Prop) (LeafMsg : M → Prop) : Prop where
  left_inj : ∀ {a b a' b'}, Digest a → Digest a' → nodeMsg a b = nodeMsg a' b' → a = a' ∧ b = b'
  right_inj : ∀ {a b a' b'}, Digest b → Digest b' → nodeMsg a b = nodeMsg a' b' →
    a = a' ∧ b = b'
  leaf_ne : ∀ {m a b}, LeafMsg m → Digest a ∨ Digest b → m ≠ nodeMsg a b

section Binding

variable (hash : M → H) (nodeMsg : H → H → M)

/-- The node of two digests: the hash of their node message. -/
def hashNode (a b : H) : H := hash (nodeMsg a b)

/-- The messages hashed to get the next level. -/
def levelMsgs : List H → List M
  | [] => []
  | [a] => [nodeMsg a a]
  | a :: b :: rest => nodeMsg a b :: levelMsgs rest

theorem map_levelMsgs (l : List H) :
    (levelMsgs nodeMsg l).map hash = nextLevel (hashNode hash nodeMsg) l := by
  induction l using levelMsgs.induct with
  | case1 => rfl
  | case2 a => rfl
  | case3 a b rest ih => simp [levelMsgs, nextLevel, ih, hashNode]

/-- All messages hashed to get the top of the tree over a level. -/
def treeMsgs (level : List H) : List M :=
  if _h : 1 < level.length then
    levelMsgs nodeMsg level ++ treeMsgs (nextLevel (hashNode hash nodeMsg) level)
  else []
termination_by level.length
decreasing_by exact nextLevel_shorter _ ‹_›

/-- The node message of one step. -/
def Step.msg (s : Step H) (current : H) : M :=
  if s.left then nodeMsg s.sibling current else nodeMsg current s.sibling

/-- All messages hashed to follow a path. -/
def climbMsgs (start : H) : List (Step H) → List M
  | [] => []
  | s :: rest => s.msg nodeMsg start :: climbMsgs (hash (s.msg nodeMsg start)) rest

variable {hash nodeMsg}

theorem Step.apply_eq_hash (s : Step H) (current : H) :
    s.apply (hashNode hash nodeMsg) current = hash (s.msg nodeMsg current) := by
  unfold Step.apply Step.msg
  split <;> rfl

theorem climbMsgs_append (start : H) (steps : List (Step H)) (s : Step H) :
    climbMsgs hash nodeMsg start (steps ++ [s]) =
      climbMsgs hash nodeMsg start steps ++
        [s.msg nodeMsg (climb (hashNode hash nodeMsg) start steps)] := by
  induction steps generalizing start with
  | nil => rfl
  | cons t rest ih =>
      rw [List.cons_append, climbMsgs, ih, climbMsgs, List.cons_append, climb, climb,
        List.foldl_cons, Step.apply_eq_hash]

variable {Digest : H → Prop} {LeafMsg : M → Prop} {S : Set M} {leaves : List H}

/-! ### Soundness -/

/-- A digest built from the leaves by hashing node messages of `S`. -/
inductive Built (hash : M → H) (nodeMsg : H → H → M) (S : Set M) (leaves : List H) : H → Prop
  | leaf {x : H} : x ∈ leaves → Built hash nodeMsg S leaves x
  | node {a b : H} : Built hash nodeMsg S leaves a → Built hash nodeMsg S leaves b →
      nodeMsg a b ∈ S → Built hash nodeMsg S leaves (hash (nodeMsg a b))

theorem built_nextLevel {l : List H} (hl : ∀ x ∈ l, Built hash nodeMsg S leaves x)
    (hS : ∀ m ∈ levelMsgs nodeMsg l, m ∈ S) :
    ∀ x ∈ nextLevel (hashNode hash nodeMsg) l, Built hash nodeMsg S leaves x := by
  induction l using levelMsgs.induct with
  | case1 => simp [nextLevel]
  | case2 a =>
      intro x hx
      obtain rfl := List.mem_singleton.mp hx
      have ha := hl a (by simp)
      exact .node ha ha (hS _ (by simp [levelMsgs]))
  | case3 a b rest ih =>
      intro x hx
      rcases List.mem_cons.mp hx with rfl | hx
      · exact .node (hl a (by simp)) (hl b (by simp)) (hS _ (by simp [levelMsgs]))
      · exact ih (fun y hy => hl y (by simp [hy])) (fun m hm => hS m (by simp [levelMsgs, hm])) x hx

/-- The top of a tree is built from its leaves. -/
theorem built_top (empty : H) {l : List H} (hne : l ≠ [])
    (hl : ∀ x ∈ l, Built hash nodeMsg S leaves x) (hS : ∀ m ∈ treeMsgs hash nodeMsg l, m ∈ S) :
    Built hash nodeMsg S leaves (top (hashNode hash nodeMsg) empty l) := by
  induction hn : l.length using Nat.strong_induction_on generalizing l with
  | _ n ih =>
    subst hn
    rw [treeMsgs] at hS
    by_cases hwide : 1 < l.length
    · rw [top_wide _ _ hwide]
      rw [dif_pos hwide] at hS
      exact ih _ (nextLevel_shorter _ hwide) (nextLevel_ne_nil _ hwide)
        (built_nextLevel hl fun m hm => hS m (List.mem_append_left _ hm))
        (fun m hm => hS m (List.mem_append_right _ hm)) rfl
    · obtain ⟨a, rfl⟩ := eq_singleton hne hwide
      rw [top_singleton]
      exact hl a (by simp)

/-- Peeling the last step off a path: a path from a leaf to a built digest starts
at one of the leaves. -/
theorem mem_of_climb_built (hf : Format nodeMsg Digest LeafMsg) (hinj : Set.InjOn hash S)
    (hdigest : ∀ m, Digest (hash m))
    (hleaves : ∀ x ∈ leaves, ∃ m ∈ S, LeafMsg m ∧ hash m = x) {m₀ : M} (hm₀ : m₀ ∈ S)
    (hleaf : LeafMsg m₀) {steps : List (Step H)}
    (hS : ∀ m ∈ climbMsgs hash nodeMsg (hash m₀) steps, m ∈ S)
    (hbuilt : Built hash nodeMsg S leaves (climb (hashNode hash nodeMsg) (hash m₀) steps)) :
    hash m₀ ∈ leaves := by
  have hbuiltDigest : ∀ {x}, Built hash nodeMsg S leaves x → Digest x := by
    rintro x (hx | ⟨-, -, -⟩)
    · obtain ⟨m, -, -, rfl⟩ := hleaves x hx
      exact hdigest m
    · exact hdigest _
  induction steps using List.reverseRecOn with
  | nil =>
      change Built hash nodeMsg S leaves (hash m₀) at hbuilt
      generalize hx : hash m₀ = x at hbuilt
      cases hbuilt with
      | leaf h => exact h
      | node ha _ hmem => exact absurd (hinj hm₀ hmem hx) (hf.leaf_ne hleaf (.inl (hbuiltDigest ha)))
  | append_singleton steps s ih =>
      rw [climbMsgs_append] at hS
      have hlast := hS _ (List.mem_append_right _ (List.mem_singleton_self _))
      have hrest := fun m hm => hS m (List.mem_append_left _ hm)
      rw [climb_append, Step.apply_eq_hash] at hbuilt
      have hcurrent : Digest (climb (hashNode hash nodeMsg) (hash m₀) steps) := by
        rcases steps.eq_nil_or_concat with rfl | ⟨steps', t, rfl⟩
        · exact hdigest m₀
        · rw [List.concat_eq_append, climb_append, Step.apply_eq_hash]
          exact hdigest _
      generalize hx : hash (s.msg nodeMsg _) = x at hbuilt
      cases hbuilt with
      | leaf h =>
          -- a leaf is not the hash of a node message
          obtain ⟨m, hm, hml, hmx⟩ := hleaves x h
          have heq := hinj hm hlast (hmx.trans hx.symm)
          refine absurd heq ?_
          unfold Step.msg
          split
          · exact hf.leaf_ne hml (.inr hcurrent)
          · exact hf.leaf_ne hml (.inl hcurrent)
      | node ha hb hmem =>
          have heq := hinj hlast hmem hx
          unfold Step.msg at heq
          split at heq
          · obtain ⟨-, hc⟩ := hf.right_inj hcurrent (hbuiltDigest hb) heq
            exact ih hrest (hc ▸ hb)
          · obtain ⟨hc, -⟩ := hf.left_inj hcurrent (hbuiltDigest ha) heq
            exact ih hrest (hc ▸ ha)

/-- **Soundness of inclusion paths**, whatever their length, siblings and sides. -/
theorem mem_of_climb (hf : Format nodeMsg Digest LeafMsg) (hinj : Set.InjOn hash S)
    (hdigest : ∀ m, Digest (hash m)) (empty : H) (hne : leaves ≠ [])
    (hleaves : ∀ x ∈ leaves, ∃ m ∈ S, LeafMsg m ∧ hash m = x)
    (htree : ∀ m ∈ treeMsgs hash nodeMsg leaves, m ∈ S) {m₀ : M} (hm₀ : m₀ ∈ S)
    (hleaf : LeafMsg m₀) {steps : List (Step H)}
    (hsteps : ∀ m ∈ climbMsgs hash nodeMsg (hash m₀) steps, m ∈ S)
    (hclimb : climb (hashNode hash nodeMsg) (hash m₀) steps =
      top (hashNode hash nodeMsg) empty leaves) : hash m₀ ∈ leaves :=
  mem_of_climb_built hf hinj hdigest hleaves hm₀ hleaf hsteps
    (hclimb ▸ built_top empty hne (fun _ hx => .leaf hx) htree)

/-! ### Binding -/

/-- A digest of height `k` over leaf messages, all hashed within `S`. -/
inductive Ranked (hash : M → H) (nodeMsg : H → H → M) (LeafMsg : M → Prop) (S : Set M) :
    Nat → H → Prop
  | leaf {m : M} : m ∈ S → LeafMsg m → Ranked hash nodeMsg LeafMsg S 0 (hash m)
  | node {k : Nat} {a b : H} : Ranked hash nodeMsg LeafMsg S k a →
      Ranked hash nodeMsg LeafMsg S k b → nodeMsg a b ∈ S →
      Ranked hash nodeMsg LeafMsg S (k + 1) (hash (nodeMsg a b))

theorem Ranked.digest (hdigest : ∀ m, Digest (hash m)) {k : Nat} {x : H}
    (h : Ranked hash nodeMsg LeafMsg S k x) : Digest x := by
  cases h <;> exact hdigest _

/-- A digest has one height only. -/
theorem Ranked.unique (hf : Format nodeMsg Digest LeafMsg) (hinj : Set.InjOn hash S)
    (hdigest : ∀ m, Digest (hash m)) {k j : Nat} {x : H}
    (h : Ranked hash nodeMsg LeafMsg S k x) (h' : Ranked hash nodeMsg LeafMsg S j x) : k = j := by
  induction h generalizing j with
  | @leaf m hm hleaf =>
      generalize hx : hash m = x at h'
      cases h' with
      | leaf => rfl
      | node ha _ hmem => exact absurd (hinj hm hmem hx) (hf.leaf_ne hleaf (.inl (ha.digest hdigest)))
  | @node k a b ha hb hmem iha ihb =>
      generalize hx : hash (nodeMsg a b) = x at h'
      cases h' with
      | leaf hm hleaf =>
          exact absurd (hinj hm hmem hx.symm) (hf.leaf_ne hleaf (.inl (ha.digest hdigest)))
      | node ha' hb' hmem' =>
          have heq := hinj hmem hmem' hx
          obtain ⟨rfl, -⟩ := hf.left_inj (ha.digest hdigest) (ha'.digest hdigest) heq
          rw [iha ha']

theorem mem_levelMsgs {l : List H} {m : M} (h : m ∈ levelMsgs nodeMsg l) :
    ∃ a ∈ l, ∃ b ∈ l, m = nodeMsg a b := by
  induction l using levelMsgs.induct with
  | case1 => simp [levelMsgs] at h
  | case2 a => exact ⟨a, by simp, a, by simp, by simpa [levelMsgs] using h⟩
  | case3 a b rest ih =>
      rcases List.mem_cons.mp h with rfl | h
      · exact ⟨a, by simp, b, by simp, rfl⟩
      · obtain ⟨c, hc, d, hd, rfl⟩ := ih h
        exact ⟨c, by simp [hc], d, by simp [hd], rfl⟩

theorem ranked_nextLevel {k : Nat} {l : List H}
    (hl : ∀ x ∈ l, Ranked hash nodeMsg LeafMsg S k x) (hS : ∀ m ∈ levelMsgs nodeMsg l, m ∈ S) :
    ∀ x ∈ nextLevel (hashNode hash nodeMsg) l, Ranked hash nodeMsg LeafMsg S (k + 1) x := by
  intro x hx
  rw [← map_levelMsgs] at hx
  obtain ⟨m, hm, rfl⟩ := List.mem_map.mp hx
  obtain ⟨a, ha, b, hb, rfl⟩ := mem_levelMsgs hm
  exact .node (hl a ha) (hl b hb) (hS _ hm)

/-- The top of a tree is higher than its leaves, unless it is the only leaf. -/
theorem ranked_top (empty : H) {k : Nat} {l : List H} (hne : l ≠ [])
    (hl : ∀ x ∈ l, Ranked hash nodeMsg LeafMsg S k x)
    (hS : ∀ m ∈ treeMsgs hash nodeMsg l, m ∈ S) :
    ∃ j, Ranked hash nodeMsg LeafMsg S (k + j) (top (hashNode hash nodeMsg) empty l) ∧
      (1 < l.length → 0 < j) := by
  induction hn : l.length using Nat.strong_induction_on generalizing k l with
  | _ n ih =>
    subst hn
    rw [treeMsgs] at hS
    by_cases hwide : 1 < l.length
    · rw [top_wide _ _ hwide]
      rw [dif_pos hwide] at hS
      obtain ⟨j, hj, -⟩ := ih _ (nextLevel_shorter _ hwide) (nextLevel_ne_nil _ hwide)
        (ranked_nextLevel hl fun m hm => hS m (List.mem_append_left _ hm))
        (fun m hm => hS m (List.mem_append_right _ hm)) rfl
      refine ⟨j + 1, ?_, fun _ => Nat.succ_pos j⟩
      rwa [show k + (j + 1) = k + 1 + j by omega]
    · obtain ⟨a, rfl⟩ := eq_singleton hne hwide
      rw [top_singleton]
      exact ⟨0, hl a (by simp), fun h => absurd h hwide⟩

/-- A level without duplicates has a next level without duplicates. -/
theorem nodup_nextLevel (hf : Format nodeMsg Digest LeafMsg) (hinj : Set.InjOn hash S)
    {l : List H} (hl : ∀ x ∈ l, Digest x) (hS : ∀ m ∈ levelMsgs nodeMsg l, m ∈ S)
    (hnodup : l.Nodup) : (nextLevel (hashNode hash nodeMsg) l).Nodup := by
  induction l using levelMsgs.induct with
  | case1 => simp [nextLevel]
  | case2 a => simp [nextLevel]
  | case3 a b rest ih =>
      obtain ⟨hab, hrest⟩ := List.nodup_cons.mp hnodup
      have hsub : ∀ m ∈ levelMsgs nodeMsg rest, m ∈ S := fun m hm => hS m (by simp [levelMsgs, hm])
      refine List.nodup_cons.mpr ⟨fun hmem => ?_, ih (fun x hx => hl x (by simp [hx])) hsub
        (List.nodup_cons.mp hrest).2⟩
      rw [← map_levelMsgs] at hmem
      obtain ⟨m, hm, heq⟩ := List.mem_map.mp hmem
      have hm' := hsub m hm
      obtain ⟨c, hc, d, -, rfl⟩ := mem_levelMsgs hm
      have hmsg := hinj hm' (hS (nodeMsg a b) (by simp [levelMsgs])) heq
      obtain ⟨rfl, -⟩ := hf.left_inj (hl c (by simp [hc])) (hl a (by simp)) hmsg
      exact hab (by simp [hc])

/-- Two levels without duplicates that hash to the same next level are the same: the
only way to lose information is the odd last digest, and it pairs with itself. -/
theorem nextLevel_inj (hf : Format nodeMsg Digest LeafMsg) (hinj : Set.InjOn hash S)
    {A B : List H} (hA : ∀ x ∈ A, Digest x) (hB : ∀ x ∈ B, Digest x)
    (hSA : ∀ m ∈ levelMsgs nodeMsg A, m ∈ S) (hSB : ∀ m ∈ levelMsgs nodeMsg B, m ∈ S)
    (hnodupA : A.Nodup) (hnodupB : B.Nodup)
    (h : nextLevel (hashNode hash nodeMsg) A = nextLevel (hashNode hash nodeMsg) B) : A = B := by
  have hpair : ∀ {a b c d : H}, Digest a → Digest c → nodeMsg a b ∈ S → nodeMsg c d ∈ S →
      hashNode hash nodeMsg a b = hashNode hash nodeMsg c d → a = c ∧ b = d :=
    fun ha hc hab hcd heq => hf.left_inj ha hc (hinj hab hcd heq)
  induction A using levelMsgs.induct generalizing B with
  | case1 =>
      match B, h with
      | [], _ => rfl
      | [c], h => simp [nextLevel] at h
      | c :: d :: rest, h => simp [nextLevel] at h
  | case2 a =>
      match B, h with
      | [], h => simp [nextLevel] at h
      | [c], h =>
          simp only [nextLevel, List.cons.injEq, and_true] at h
          obtain ⟨rfl, -⟩ := hpair (hA a (by simp)) (hB c (by simp)) (hSA _ (by simp [levelMsgs]))
            (hSB _ (by simp [levelMsgs])) h
          rfl
      | c :: d :: rest, h =>
          simp only [nextLevel, List.cons.injEq] at h
          obtain ⟨rfl, rfl⟩ := hpair (hA a (by simp)) (hB c (by simp))
            (hSA _ (by simp [levelMsgs])) (hSB _ (by simp [levelMsgs])) h.1
          simp at hnodupB
  | case3 a b rest ih =>
      match B, h with
      | [], h => simp [nextLevel] at h
      | [c], h =>
          simp only [nextLevel, List.cons.injEq] at h
          obtain ⟨rfl, rfl⟩ := hpair (hA a (by simp)) (hB c (by simp))
            (hSA _ (by simp [levelMsgs])) (hSB _ (by simp [levelMsgs])) h.1
          simp at hnodupA
      | c :: d :: rest', h =>
          simp only [nextLevel, List.cons.injEq] at h
          obtain ⟨rfl, rfl⟩ := hpair (hA a (by simp)) (hB c (by simp))
            (hSA _ (by simp [levelMsgs])) (hSB _ (by simp [levelMsgs])) h.1
          rw [ih (fun x hx => hA x (by simp [hx])) (fun x hx => hB x (by simp [hx]))
            (fun m hm => hSA m (by simp [levelMsgs, hm]))
            (fun m hm => hSB m (by simp [levelMsgs, hm]))
            hnodupA.of_cons.of_cons hnodupB.of_cons.of_cons h.2]

/-- **Binding.** Lists of leaf hashes without duplicates, of any two lengths, with the
same top are the same list. -/
theorem eq_of_top_eq (hf : Format nodeMsg Digest LeafMsg) (hinj : Set.InjOn hash S)
    (hdigest : ∀ m, Digest (hash m)) (empty : H) {k : Nat} {A B : List H}
    (hneA : A ≠ []) (hneB : B ≠ [])
    (hA : ∀ x ∈ A, Ranked hash nodeMsg LeafMsg S k x)
    (hB : ∀ x ∈ B, Ranked hash nodeMsg LeafMsg S k x)
    (hSA : ∀ m ∈ treeMsgs hash nodeMsg A, m ∈ S) (hSB : ∀ m ∈ treeMsgs hash nodeMsg B, m ∈ S)
    (hnodupA : A.Nodup) (hnodupB : B.Nodup)
    (h : top (hashNode hash nodeMsg) empty A = top (hashNode hash nodeMsg) empty B) : A = B := by
  induction hn : A.length using Nat.strong_induction_on generalizing k A B with
  | _ n ih =>
    subst hn
    obtain ⟨i, hi, hiwide⟩ := ranked_top empty hneA hA hSA
    obtain ⟨j, hj, hjwide⟩ := ranked_top empty hneB hB hSB
    -- equal tops have equal heights
    have hheight : k + i = k + j := hi.unique hf hinj hdigest (h ▸ hj)
    by_cases hwideA : 1 < A.length <;> by_cases hwideB : 1 < B.length
    · rw [top_wide _ _ hwideA, top_wide _ _ hwideB] at h
      rw [treeMsgs, dif_pos hwideA] at hSA
      rw [treeMsgs, dif_pos hwideB] at hSB
      have hdA : ∀ x ∈ A, Digest x := fun x hx => (hA x hx).digest hdigest
      have hdB : ∀ x ∈ B, Digest x := fun x hx => (hB x hx).digest hdigest
      have hlA := fun m hm => hSA m (List.mem_append_left _ hm)
      have hlB := fun m hm => hSB m (List.mem_append_left _ hm)
      have hnext := ih _ (nextLevel_shorter _ hwideA) (nextLevel_ne_nil _ hwideA) (nextLevel_ne_nil _ hwideB)
        (ranked_nextLevel hA hlA) (ranked_nextLevel hB hlB)
        (fun m hm => hSA m (List.mem_append_right _ hm))
        (fun m hm => hSB m (List.mem_append_right _ hm))
        (nodup_nextLevel hf hinj hdA hlA hnodupA) (nodup_nextLevel hf hinj hdB hlB hnodupB) h rfl
      exact nextLevel_inj hf hinj hdA hdB hlA hlB hnodupA hnodupB hnext
    · obtain ⟨b, rfl⟩ := eq_singleton hneB hwideB
      have hzero : j = 0 := by
        have hb : Ranked hash nodeMsg LeafMsg S (k + 0) b := hB b (by simp)
        rw [top_singleton] at hj
        have := hj.unique hf hinj hdigest hb
        omega
      have := hiwide hwideA
      omega
    · obtain ⟨a, rfl⟩ := eq_singleton hneA hwideA
      have hzero : i = 0 := by
        have ha : Ranked hash nodeMsg LeafMsg S (k + 0) a := hA a (by simp)
        rw [top_singleton] at hi
        have := hi.unique hf hinj hdigest ha
        omega
      have := hjwide hwideB
      omega
    · obtain ⟨a, rfl⟩ := eq_singleton hneA hwideA
      obtain ⟨b, rfl⟩ := eq_singleton hneB hwideB
      rw [top_singleton, top_singleton] at h
      rw [h]

end Binding

end Lib.Merkle
