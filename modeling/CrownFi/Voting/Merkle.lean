import CrownFi.Api.Primitives
import CrownFi.Lib.Merkle
import Mathlib

/-!
# CrownFi.Voting.Merkle

The hash tree of a vote snapshot (`voting_proofs.rs`): leaf and node messages, the
root, inclusion proofs and their verification, over texts as in the source. The
functions are instances of the general tree, and the two message domains form a
`Lib.Merkle.Format`: a node message shows where a hash next to its separators
ends, and no leaf message is a node message.
-/

namespace CrownFi.Voting

open Lib Lib.Merkle CrownFi.Api

variable (sha256 : Sha256)

structure ProofStep where
  position : String
  hash : String
  deriving DecidableEq, Repr

/-- How a request ends without a result: an API error, or a panic of the handler. -/
inductive Abort
  | error (e : ApiError)
  | panic
  deriving DecidableEq, Repr

/-! ### The source's functions -/

def nodeText (left right : String) : String := "crownfi-merkle-node-v1|" ++ left ++ "|" ++ right

def hashNode (left right : String) : String := hashText sha256 (nodeText left right)

def merkleRoot (leaves : List String) : String :=
  if leaves.isEmpty then hashText sha256 "crownfi-empty-merkle-v1"
  else top (hashNode sha256) "" leaves

/-- The position is `"right"` at an even index, where the sibling follows. -/
def proofStep (s : Step String) : ProofStep := ⟨if s.left then "left" else "right", s.sibling⟩

/-- An index out of bounds in the loop would be a panic. -/
def merkleProof (leaves : List String) (index : Nat) : Except Abort (List ProofStep) :=
  if leaves.isEmpty ∨ leaves.length ≤ index then
    .error (.error (.invalidRequest "invalid_vote_leaf_index"))
  else
    match path (hashNode sha256) leaves index with
    | some steps => .ok (steps.map proofStep)
    | none => .error .panic

def verifyProof (leafHash : String) (proof : List ProofStep) (expectedRoot : String) : Bool :=
  let current := proof.foldl (fun current step =>
    if step.position = "left" then hashNode sha256 step.hash current
    else hashNode sha256 current step.hash) leafHash
  current = expectedRoot

/-- The vote that `create_snapshot` makes a leaf of. -/
structure VoteLeaf where
  roundId : Uuid
  receiptHash : String
  pageantContestantId : Uuid
  deriving DecidableEq, Repr

def VoteLeaf.text (v : VoteLeaf) : String :=
  "crownfi-vote-leaf-v1|" ++ v.roundId.text ++ "|" ++ v.receiptHash ++ "|" ++
    v.pageantContestantId.text

def VoteLeaf.hash (v : VoteLeaf) : String := hashText sha256 v.text

/-! ### The source's functions as the general tree -/

variable {sha256}

/-- A step as the general tree sees it: any position but `"left"` counts as right. -/
def ProofStep.step (s : ProofStep) : Step String := ⟨s.position = "left", s.hash⟩

@[simp] theorem step_proofStep (s : Step String) : (proofStep s).step = s := by
  cases s with
  | mk left sibling => cases left <;> rfl

theorem verifyProof_iff {leafHash root : String} {proof : List ProofStep} :
    verifyProof sha256 leafHash proof root = true ↔
      climb (hashNode sha256) leafHash (proof.map ProofStep.step) = root := by
  rw [verifyProof, decide_eq_true_iff, climb, List.foldl_map]
  simp only [Step.apply, ProofStep.step, decide_eq_true_eq]

theorem merkleRoot_eq {leaves : List String} (h : leaves ≠ []) :
    merkleRoot sha256 leaves = top (hashNode sha256) "" leaves := by
  rw [merkleRoot, if_neg (by simpa using h)]

/-- **Completeness**: the proof of any leaf exists, has `⌈log₂ n⌉` steps and verifies. -/
theorem merkleProof_verifies {leaves : List String} {index : Nat} {leaf : String}
    (h : leaves[index]? = some leaf) :
    ∃ proof, merkleProof sha256 leaves index = .ok proof ∧
      proof.length = Nat.clog 2 leaves.length ∧
      verifyProof sha256 leaf proof (merkleRoot sha256 leaves) = true := by
  obtain ⟨hlt, -⟩ := List.getElem?_eq_some_iff.mp h
  have hne : leaves ≠ [] := List.ne_nil_of_length_pos (by omega)
  obtain ⟨steps, hpath, hlen, hclimb⟩ := climb_path (hashNode sha256) "" h
  refine ⟨steps.map proofStep, ?_, by simpa using hlen, ?_⟩
  · rw [merkleProof, if_neg (by simp [hne, hlt]), hpath]
  · rw [verifyProof_iff, merkleRoot_eq hne, List.map_map]
    simpa [Function.comp_def] using hclimb

/-! ### The message format -/

/-- The shape of a hash, as far as the separators are concerned. -/
def NoBar (s : String) : Prop := '|' ∉ s.toList

/-- The vote-leaf domain. -/
def LeafText (t : String) : Prop := ∃ v : VoteLeaf, v.text = t

theorem format : Format nodeText NoBar LeafText where
  left_inj ha ha' h := join_inj_left rfl ha ha' h
  right_inj hb hb' h := join_inj_right rfl hb hb' h
  leaf_ne := by
    rintro m a b ⟨v, rfl⟩ -
    have htext : v.text = "crownfi-vote-leaf-v1|" ++
        (v.roundId.text ++ "|" ++ v.receiptHash ++ "|" ++ v.pageantContestantId.text) := by
      unfold VoteLeaf.text
      simp only [String.append_assoc]
    have hnode : nodeText a b = "crownfi-merkle-node-v1|" ++ (a ++ "|" ++ b) := by
      unfold nodeText
      simp only [String.append_assoc]
    rw [htext, hnode]
    -- the two domains differ in the ninth character
    exact append_ne_append (i := 8) (by decide) (by decide) (by decide)

/-! ### Soundness and binding -/

/-- The texts hashed to compute a root. -/
def rootTexts (sha256 : Sha256) (leaves : List String) : List String :=
  treeMsgs (hashText sha256) nodeText leaves

/-- The texts hashed to verify a proof. -/
def proofTexts (sha256 : Sha256) (leafHash : String) (proof : List ProofStep) : List String :=
  climbMsgs (hashText sha256) nodeText leafHash (proof.map ProofStep.step)

/-- **Inclusion soundness.** When no two of the texts hashed on the way collide, a
proof of any length, with any siblings and positions, verifies only for a vote
whose leaf is in the tree. -/
theorem verifyProof_sound (votes : List VoteLeaf) (v : VoteLeaf) (proof : List ProofStep)
    (hne : votes ≠ [])
    (hcollision : CollisionFree sha256 {t | t ∈ votes.map VoteLeaf.text ∨ t = v.text ∨
      t ∈ rootTexts sha256 (votes.map (VoteLeaf.hash sha256)) ∨
      t ∈ proofTexts sha256 (v.hash sha256) proof})
    (h : verifyProof sha256 (v.hash sha256) proof
      (merkleRoot sha256 (votes.map (VoteLeaf.hash sha256))) = true) :
    v.hash sha256 ∈ votes.map (VoteLeaf.hash sha256) := by
  have hleaves : votes.map (VoteLeaf.hash sha256) ≠ [] := by simpa using hne
  rw [verifyProof_iff, merkleRoot_eq hleaves] at h
  refine mem_of_climb format hcollision.hashText_injOn (bar_notMem_hashText sha256) ""
    hleaves ?_ (fun t ht => .inr (.inr (.inl ht))) (.inr (.inl rfl)) ⟨v, rfl⟩
    (fun t ht => .inr (.inr (.inr ht))) h
  intro x hx
  obtain ⟨u, hu, rfl⟩ := List.mem_map.mp hx
  exact ⟨u.text, .inl (List.mem_map_of_mem hu), ⟨u, rfl⟩, rfl⟩

/-- **Root binding.** When no two of the texts hashed on the way collide, two lists of
votes without duplicate leaves that have the same root have the same leaves, in
the same order. -/
theorem merkleRoot_binding (A B : List VoteLeaf) (hneA : A ≠ []) (hneB : B ≠ [])
    (hnodupA : (A.map (VoteLeaf.hash sha256)).Nodup)
    (hnodupB : (B.map (VoteLeaf.hash sha256)).Nodup)
    (hcollision : CollisionFree sha256 {t | t ∈ A.map VoteLeaf.text ∨ t ∈ B.map VoteLeaf.text ∨
      t ∈ rootTexts sha256 (A.map (VoteLeaf.hash sha256)) ∨
      t ∈ rootTexts sha256 (B.map (VoteLeaf.hash sha256))})
    (h : merkleRoot sha256 (A.map (VoteLeaf.hash sha256)) =
      merkleRoot sha256 (B.map (VoteLeaf.hash sha256))) :
    A.map (VoteLeaf.hash sha256) = B.map (VoteLeaf.hash sha256) := by
  have hneA' : A.map (VoteLeaf.hash sha256) ≠ [] := by simpa using hneA
  have hneB' : B.map (VoteLeaf.hash sha256) ≠ [] := by simpa using hneB
  rw [merkleRoot_eq hneA', merkleRoot_eq hneB'] at h
  refine eq_of_top_eq format hcollision.hashText_injOn (bar_notMem_hashText sha256) "" hneA' hneB'
    (k := 0) ?_ ?_ (fun t ht => .inr (.inr (.inl ht))) (fun t ht => .inr (.inr (.inr ht)))
    hnodupA hnodupB h
  · intro x hx
    obtain ⟨u, hu, rfl⟩ := List.mem_map.mp hx
    exact .leaf (.inl (List.mem_map_of_mem hu)) ⟨u, rfl⟩
  · intro x hx
    obtain ⟨u, hu, rfl⟩ := List.mem_map.mp hx
    exact .leaf (.inr (.inl (List.mem_map_of_mem hu))) ⟨u, rfl⟩

/-! ### Two votes -/

def sampleVote : VoteLeaf :=
  ⟨1, "4826510bbb5b73e1fb5ee300efd773808952cec52619b3b549bf63a54e61834f", 10⟩

def sampleVote' : VoteLeaf :=
  ⟨1, "896a195d6ebb267bc8fde8b624d04508cd3bd0d076c4cfeb5f0c489f6aafb5fa", 11⟩

def sampleDigest : Vector UInt8 32 :=
  bytesOf 0x23435aa2a617b3813c1aa6ca47da7572ad6a90433db3ba381caeca74f122e17b

def sampleDigest' : Vector UInt8 32 :=
  bytesOf 0xcf5cdb8d31ad6fd298bdc5d3778d59311421fcb527902cc76c392071fa8392db

/-- SHA-256, as far as the tree over the two votes needs it: the digests of the two
leaf texts and of their node text. -/
def sampleSha256 : Sha256 := fun value =>
  if value = sampleVote.text.toUTF8 then sampleDigest
  else if value = sampleVote'.text.toUTF8 then sampleDigest'
  else bytesOf 0x57cf7ac95a7ba56eead3c2b297172418ef5963547ba10da34366eb239287d5fa

def sampleLeaves : List String := [sampleVote, sampleVote'].map (VoteLeaf.hash sampleSha256)

/-- The text of the one node over the two votes. -/
def sampleNode : String :=
  nodeText (sampleVote.hash sampleSha256) (sampleVote'.hash sampleSha256)

theorem sampleSha256_texts :
    sampleSha256 sampleVote.text.toUTF8 = sampleDigest ∧
      sampleSha256 sampleVote'.text.toUTF8 = sampleDigest' ∧
      sampleSha256 sampleNode.toUTF8 =
        bytesOf 0x57cf7ac95a7ba56eead3c2b297172418ef5963547ba10da34366eb239287d5fa := by
  have hne : sampleVote'.text ≠ sampleVote.text := by decide +kernel
  have hnode : ∀ v : VoteLeaf, sampleNode ≠ v.text := fun v =>
    (format.leaf_ne ⟨v, rfl⟩ (.inl (bar_notMem_hashText _ _))).symm
  have hbytes : ∀ {s t : String}, s ≠ t → s.toUTF8 ≠ t.toUTF8 := fun h heq =>
    h (String.toByteArray_inj.mp heq)
  refine ⟨if_pos rfl, ?_, ?_⟩
  · rw [sampleSha256, if_neg (hbytes hne), if_pos rfl]
  · rw [sampleSha256, if_neg (hbytes (hnode _)), if_neg (hbytes (hnode _))]

theorem sampleSha256_collisionFree :
    CollisionFree sampleSha256 {sampleVote.text, sampleVote'.text, sampleNode} := by
  obtain ⟨h₁, h₂, h₃⟩ := sampleSha256_texts
  rintro _ ⟨s, hs, rfl⟩ _ ⟨t, ht, rfl⟩ heq
  rcases hs with rfl | rfl | rfl <;> rcases ht with rfl | rfl | rfl <;>
    first
      | rfl
      | (simp only [h₁, h₂, h₃] at heq; exact absurd heq (by decide +kernel))

theorem sampleLeaves_rootTexts : rootTexts sampleSha256 sampleLeaves = [sampleNode] := by
  rw [rootTexts, sampleLeaves, treeMsgs, dif_pos (by simp)]
  simp [levelMsgs, nextLevel, treeMsgs, sampleNode]

theorem sampleLeaves_root : merkleRoot sampleSha256 sampleLeaves =
    hashNode sampleSha256 (sampleVote.hash sampleSha256) (sampleVote'.hash sampleSha256) := by
  rw [merkleRoot_eq (by simp [sampleLeaves]), sampleLeaves, top_wide _ _ (by simp)]
  simp [nextLevel]

theorem sampleLeaves_nodup : sampleLeaves.Nodup := by
  obtain ⟨h₁, h₂, -⟩ := sampleSha256_texts
  have hne : sampleVote.hash sampleSha256 ≠ sampleVote'.hash sampleSha256 := by
    intro heq
    have hvec := Vector.toList_inj.mp (hexEncode_injective heq)
    rw [h₁, h₂] at hvec
    exact absurd hvec (by decide +kernel)
  simpa [sampleLeaves] using hne

/-- Everything hashed in the examples below is one of three texts. -/
theorem sampleTexts {t : String}
    (h : t ∈ [sampleVote, sampleVote'].map VoteLeaf.text ∨ t ∈ rootTexts sampleSha256 sampleLeaves) :
    t ∈ ({sampleVote.text, sampleVote'.text, sampleNode} : Set String) := by
  rcases h with h | h
  · have ht : t = sampleVote.text ∨ t = sampleVote'.text := by simpa using h
    rcases ht with rfl | rfl <;> simp
  · rw [sampleLeaves_rootTexts] at h
    simp_all

theorem sampleVote_sound : sampleVote.hash sampleSha256 ∈ sampleLeaves := by
  refine verifyProof_sound [sampleVote, sampleVote'] sampleVote
    [⟨"right", sampleVote'.hash sampleSha256⟩] (by simp) ?_ ?_
  · refine sampleSha256_collisionFree.mono ?_
    rintro t (ht | rfl | ht | ht)
    · exact sampleTexts (.inl ht)
    · simp
    · exact sampleTexts (.inr ht)
    · simp_all [proofTexts, climbMsgs, Step.msg, ProofStep.step, sampleNode]
  · rw [verifyProof_iff]
    exact sampleLeaves_root.symm

theorem sampleLeaves_binding :
    [sampleVote, sampleVote'].map (VoteLeaf.hash sampleSha256) = sampleLeaves := by
  refine merkleRoot_binding [sampleVote, sampleVote'] [sampleVote, sampleVote'] (by simp) (by simp)
    sampleLeaves_nodup sampleLeaves_nodup ?_ rfl
  refine sampleSha256_collisionFree.mono ?_
  rintro t (ht | ht | ht | ht)
  · exact sampleTexts (.inl ht)
  · exact sampleTexts (.inl ht)
  · exact sampleTexts (.inr ht)
  · exact sampleTexts (.inr ht)

end CrownFi.Voting
