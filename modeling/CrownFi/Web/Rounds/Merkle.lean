import CrownFi.Api.Primitives
import CrownFi.Lib.Merkle
import Mathlib.Data.String.Basic

/-!
# CrownFi.Web.Rounds.Merkle

The hash tree of a web voting round (`web/src/lib/merkle.ts`). Its nodes hash
the two hexadecimal digests **in sorted order**, so that a proof need not say on
which side a sibling stands; apart from that it is an instance of the general
tree, and every proof verifies (`merkleProof_verifies`).
-/

namespace CrownFi.Web.Rounds

open Lib Lib.Merkle CrownFi.Api

variable (sha256 : Sha256)

def sha256Hex (input : String) : String := hashText sha256 input

/-- Leaf commitment for a single vote. -/
def voteLeaf (fanId contestantId roundId : String) : String :=
  sha256Hex sha256 (fanId ++ "|" ++ contestantId ++ "|" ++ roundId)

/-- The UTF-16 code units of a character. -/
def codeUnits (c : Char) : List Nat :=
  if c.toNat < 0x10000 then [c.toNat]
  else [0xD800 + (c.toNat - 0x10000) / 0x400, 0xDC00 + (c.toNat - 0x10000) % 0x400]

def unitsLe : List Nat → List Nat → Bool
  | [], _ => true
  | _ :: _, [] => false
  | u :: us, v :: vs => u < v || (u = v && unitsLe us vs)

/-- The operator `<=` on texts: their code units in lexicographic order. -/
def textLe (a b : String) : Bool := unitsLe (a.toList.flatMap codeUnits) (b.toList.flatMap codeUnits)

def hashPair (a b : String) : String :=
  if textLe a b then sha256Hex sha256 (a ++ b) else sha256Hex sha256 (b ++ a)

def merkleRoot (leaves : List String) : String :=
  if leaves.isEmpty then sha256Hex sha256 "empty" else top (hashPair sha256) "" leaves

/-- The siblings on the way up; `none` is the error `leaf index out of range`. -/
def merkleProof (leaves : List String) (index : Nat) : Option (List String) :=
  if leaves.length ≤ index then none
  else (path (hashPair sha256) leaves index).map fun steps => steps.map (·.sibling)

def verifyProof (leaf : String) (proof : List String) (root : String) : Bool :=
  proof.foldl (hashPair sha256) leaf = root

variable {sha256}

/-! ### The order of texts -/

/-- The code units of a character show where they end. -/
theorem codeUnits_append_inj {c d : Char} {us vs : List Nat}
    (h : codeUnits c ++ us = codeUnits d ++ vs) : c = d ∧ us = vs := by
  have hc : c.toNat < 0xD800 ∨ (0xDFFF < c.toNat ∧ c.toNat < 0x110000) := c.valid
  have hd : d.toNat < 0xD800 ∨ (0xDFFF < d.toNat ∧ d.toNat < 0x110000) := d.valid
  unfold codeUnits at h
  by_cases hsmall : c.toNat < 0x10000 <;> by_cases hsmall' : d.toNat < 0x10000
  · rw [if_pos hsmall, if_pos hsmall'] at h
    obtain ⟨hhead, htail⟩ := List.cons.inj h
    exact ⟨Char.toNat_inj.mp hhead, htail⟩
  · -- one unit of a small character is no surrogate
    rw [if_pos hsmall, if_neg hsmall'] at h
    have hhead := (List.cons.inj h).1
    omega
  · rw [if_neg hsmall, if_pos hsmall'] at h
    have hhead := (List.cons.inj h).1
    omega
  · rw [if_neg hsmall, if_neg hsmall'] at h
    obtain ⟨hhigh, h⟩ := List.cons.inj h
    obtain ⟨hlow, htail⟩ := List.cons.inj h
    exact ⟨Char.toNat_inj.mp (by omega), htail⟩

theorem codeUnits_ne_nil (c : Char) : codeUnits c ≠ [] := by
  unfold codeUnits
  split <;> simp

theorem units_injective {cs ds : List Char} (h : cs.flatMap codeUnits = ds.flatMap codeUnits) : cs = ds := by
  induction cs generalizing ds with
  | nil =>
      cases ds with
      | nil => rfl
      | cons d ds => exact absurd (List.append_eq_nil_iff.mp h.symm).1 (codeUnits_ne_nil d)
  | cons c cs ih =>
      cases ds with
      | nil => exact absurd (List.append_eq_nil_iff.mp h).1 (codeUnits_ne_nil c)
      | cons d ds =>
          rw [List.flatMap_cons, List.flatMap_cons] at h
          obtain ⟨rfl, htail⟩ := codeUnits_append_inj h
          rw [ih htail]

theorem unitsLe_antisymm {us vs : List Nat} (h : unitsLe us vs = true) (h' : unitsLe vs us = true) :
    us = vs := by
  fun_induction unitsLe us vs with
  | case1 vs =>
      cases vs with
      | nil => rfl
      | cons v vs => cases h'
  | case2 => cases h
  | case3 u us v vs ih =>
      simp only [unitsLe, Bool.or_eq_true, Bool.and_eq_true, decide_eq_true_eq] at h h'
      rcases h with hless | ⟨rfl, htail⟩
      · rcases h' with hless' | ⟨heq, -⟩ <;> omega
      · have htail' : unitsLe vs us = true := by
          rcases h' with hless | ⟨-, htail'⟩
          · exact absurd hless (lt_irrefl u)
          · exact htail'
        rw [ih htail htail']

theorem unitsLe_total (us vs : List Nat) : unitsLe us vs = true ∨ unitsLe vs us = true := by
  fun_induction unitsLe us vs with
  | case1 => exact .inl rfl
  | case2 => exact .inr rfl
  | case3 u us v vs ih =>
      simp only [unitsLe, Bool.or_eq_true, Bool.and_eq_true, decide_eq_true_eq]
      rcases lt_trichotomy u v with hless | rfl | hless
      · exact .inl (.inl hless)
      · rcases ih with hle | hle
        · exact .inl (.inr ⟨rfl, hle⟩)
        · exact .inr (.inr ⟨rfl, hle⟩)
      · exact .inr (.inl hless)

/-- The message of a node: the pair in its order. -/
def pairText (a b : String) : String := if textLe a b then a ++ b else b ++ a

/-- The order of a pair does not matter. -/
theorem pairText_comm (a b : String) : pairText a b = pairText b a := by
  unfold pairText
  split
  · rename_i hab
    split
    · rename_i hba
      rw [String.toList_inj.mp (units_injective (unitsLe_antisymm hab hba))]
    · rfl
  · rename_i hab
    rw [if_pos (show textLe b a = true from (unitsLe_total _ _).resolve_left hab)]

theorem hashPair_eq (a b : String) : hashPair sha256 a b = hashText sha256 (pairText a b) := by
  unfold hashPair pairText
  split <;> rfl

theorem hashPair_comm (a b : String) : hashPair sha256 a b = hashPair sha256 b a := by
  rw [hashPair_eq, hashPair_eq, pairText_comm]

/-! ### Completeness -/

/-- The way up, without sides. -/
theorem climb_hashPair (start : String) (steps : List (Step String)) :
    climb (hashPair sha256) start steps = (steps.map (·.sibling)).foldl (hashPair sha256) start := by
  induction steps generalizing start with
  | nil => rfl
  | cons step rest ih =>
      have hstep : step.apply (hashPair sha256) start = hashPair sha256 start step.sibling := by
        unfold Step.apply
        split
        · exact hashPair_comm _ _
        · rfl
      rw [climb, List.foldl_cons, hstep, List.map_cons, List.foldl_cons]
      exact ih _

/-- **Every proof verifies.** -/
theorem merkleProof_verifies {leaves : List String} {index : Nat} {leaf : String}
    (h : leaves[index]? = some leaf) :
    ∃ proof, merkleProof sha256 leaves index = some proof ∧
      proof.length = Nat.clog 2 leaves.length ∧
      verifyProof sha256 leaf proof (merkleRoot sha256 leaves) = true := by
  obtain ⟨hlt, -⟩ := List.getElem?_eq_some_iff.mp h
  have hne : leaves.isEmpty = false := by
    rw [List.isEmpty_eq_false_iff]
    exact List.ne_nil_of_length_pos (by omega)
  obtain ⟨steps, hpath, hlength, hclimb⟩ := climb_path (hashPair sha256) "" h
  refine ⟨steps.map (·.sibling), ?_, by rw [List.length_map, hlength], ?_⟩
  · rw [merkleProof, if_neg (Nat.not_le_of_lt hlt), hpath]
    rfl
  · rw [verifyProof, merkleRoot, hne, decide_eq_true_iff, ← climb_hashPair, hclimb]
    rfl

end CrownFi.Web.Rounds
