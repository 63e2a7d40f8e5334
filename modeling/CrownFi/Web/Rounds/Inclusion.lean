import CrownFi.Web.Rounds.Merkle
import Mathlib

/-!
# CrownFi.Web.Rounds.Inclusion

**What a proof in a web round shows.** A proof of any leaf verifies (`merkleProof_complete`), and a
proof that verifies is a proof of a leaf (`verifyProof_sound`). Neither leaves nor nodes carry a
tag, and the pairs are sorted, so nothing in a node's message says where its parts meet: what
keeps messages apart are the lengths. A digest has 64 characters and no bar, while a leaf's
message has a bar among its first 64 characters and among its last 64.
-/

namespace CrownFi.Web.Rounds

open Lib Lib.Merkle CrownFi.Api

variable {sha256 : Sha256}

/-- **Completeness**, for every list and every index. -/
theorem merkleProof_complete (sha256 : Sha256) (leaves : List String) (index : Nat)
    (h : index < leaves.length) :
    ∃ proof, merkleProof sha256 leaves index = some proof ∧
      proof.length = Nat.clog 2 leaves.length ∧
      verifyProof sha256 leaves[index] proof (merkleRoot sha256 leaves) = true :=
  merkleProof_verifies (List.getElem?_eq_getElem h)

theorem merkleProof_complete_five : ∃ proof,
    merkleProof (fun _ => bytesOf 0) ["a", "b", "c", "d", "e"] 4 = some proof ∧
      proof.length = Nat.clog 2 5 ∧
      verifyProof (fun _ => bytesOf 0) "e" proof
        (merkleRoot (fun _ => bytesOf 0) ["a", "b", "c", "d", "e"]) = true :=
  merkleProof_complete _ ["a", "b", "c", "d", "e"] 4 (by decide)

/-! ### Messages -/

/-- The message of a node before the pair is sorted. -/
def concat (a b : String) : String := a ++ b

/-- The shape of a digest. -/
def IsDigest (s : String) : Prop := s.toList.length = 64 ∧ '|' ∉ s.toList

def leafText (fanId contestantId roundId : String) : String :=
  fanId ++ "|" ++ contestantId ++ "|" ++ roundId

/-- The message of a leaf, with the ids that the database generates. -/
def LeafText (t : String) : Prop :=
  ∃ fanId contestantId roundId : String, fanId.length < 64 ∧ roundId.length < 64 ∧
    t = leafText fanId contestantId roundId

theorem digest_hashText (s : String) : IsDigest (hashText sha256 s) :=
  ⟨by rw [hashText, hashBytes, length_hexEncode, Vector.length_toList], bar_notMem_hashText sha256 s⟩

/-- What stands near the front of a text is in a long part in front of it. -/
theorem mem_of_append_eq {α : Type*} {a b s t : List α} {x : α} (h : a ++ b = s ++ x :: t)
    (hlt : s.length < a.length) : x ∈ a := by
  have hget : (a ++ b)[s.length]? = some x := by
    rw [h, List.getElem?_append_right (le_refl _), Nat.sub_self]
    rfl
  rw [List.getElem?_append_left hlt] at hget
  exact List.mem_of_getElem? hget

/-- **Lengths keep the messages apart.** -/
theorem concat_format : Format concat IsDigest LeafText where
  left_inj ha ha' h := by
    have hlist := congrArg String.toList h
    rw [concat, concat, String.toList_append, String.toList_append] at hlist
    obtain ⟨hleft, hright⟩ := List.append_inj hlist (ha.1.trans ha'.1.symm)
    exact ⟨String.toList_inj.mp hleft, String.toList_inj.mp hright⟩
  right_inj hb hb' h := by
    have hlist := congrArg String.toList h
    rw [concat, concat, String.toList_append, String.toList_append] at hlist
    obtain ⟨hleft, hright⟩ := List.append_inj' hlist (hb.1.trans hb'.1.symm)
    exact ⟨String.toList_inj.mp hleft, String.toList_inj.mp hright⟩
  leaf_ne := by
    rintro m a b ⟨fanId, contestantId, roundId, hfan, hround, rfl⟩ hdigest heq
    have hlist := (congrArg String.toList heq).symm
    simp only [concat, leafText, String.toList_append, List.append_assoc] at hlist
    rcases hdigest with ha | hb
    · -- the bar behind the first id lies in the digest in front
      exact ha.2 (mem_of_append_eq hlist (by rw [ha.1, String.length_toList]; exact hfan))
    · -- the bar before the last id lies in the digest behind
      have hreverse := congrArg List.reverse hlist
      simp only [List.reverse_append, List.append_assoc] at hreverse
      have hmem := mem_of_append_eq (x := '|') (s := roundId.toList.reverse) hreverse
        (by rw [List.length_reverse, List.length_reverse, hb.1, String.length_toList]; exact hround)
      exact hb.2 (List.mem_reverse.mp hmem)

/-! ### The tree and the way up, without sorting -/

theorem hashPair_node : hashPair sha256 = hashNode (hashText sha256) pairText := by
  funext a b
  exact hashPair_eq a b

/-- Which side a sibling is put on. -/
def sided (sha256 : Sha256) : String → List String → List (Step String)
  | _, [] => []
  | current, sibling :: rest =>
      ⟨!textLe current sibling, sibling⟩ :: sided sha256 (hashPair sha256 current sibling) rest

theorem climb_sided (leaf : String) (proof : List String) :
    climb (hashNode (hashText sha256) concat) leaf (sided sha256 leaf proof) =
      proof.foldl (hashPair sha256) leaf := by
  induction proof generalizing leaf with
  | nil => rfl
  | cons sibling rest ih =>
      have hstep : (Step.mk (!textLe leaf sibling) sibling).apply (hashNode (hashText sha256) concat) leaf =
          hashPair sha256 leaf sibling := by
        unfold Step.apply hashPair
        cases textLe leaf sibling <;> rfl
      rw [sided, climb, List.foldl_cons, hstep, List.foldl_cons]
      exact ih _

/-- A sorted pair is one of the two orders. -/
theorem pairText_eq (a b : String) : pairText a b = concat a b ∨ pairText a b = concat b a := by
  unfold pairText
  split
  · exact .inl rfl
  · exact .inr rfl

theorem built_concat {S : Set String} {leaves : List String} {x : String}
    (h : Built (hashText sha256) pairText S leaves x) : Built (hashText sha256) concat S leaves x := by
  induction h with
  | leaf hx => exact .leaf hx
  | @node a b _ _ hmem iha ihb =>
      rcases pairText_eq a b with hpair | hpair
      · rw [hpair] at hmem ⊢
        exact .node iha ihb hmem
      · rw [hpair] at hmem ⊢
        exact .node ihb iha hmem

/-! ### Soundness -/

/-- The ids of a vote. -/
structure VoteIds where
  fanId : String
  contestantId : String
  roundId : String
  deriving DecidableEq, Repr

namespace VoteIds

def text (v : VoteIds) : String := leafText v.fanId v.contestantId v.roundId

def leaf (sha256 : Sha256) (v : VoteIds) : String := voteLeaf sha256 v.fanId v.contestantId v.roundId

/-- Ids as the database generates them. -/
def Generated (v : VoteIds) : Prop := v.fanId.length < 64 ∧ v.roundId.length < 64

theorem Generated.leafText {v : VoteIds} (h : v.Generated) : LeafText v.text :=
  ⟨v.fanId, v.contestantId, v.roundId, h.1, h.2, rfl⟩

end VoteIds

/-- The texts hashed to compute a root. -/
def rootTexts (sha256 : Sha256) (leaves : List String) : List String :=
  treeMsgs (hashText sha256) pairText leaves

/-- The texts hashed to verify a proof. -/
def proofTexts (sha256 : Sha256) (leaf : String) (proof : List String) : List String :=
  climbMsgs (hashText sha256) concat leaf (sided sha256 leaf proof)

/-- On whichever sides the siblings are put: a way up from a vote to the root starts at a leaf. -/
theorem mem_of_climb_root {votes : List VoteIds} {v : VoteIds} {steps : List (Step String)}
    (hne : votes ≠ []) (hvotes : ∀ u ∈ votes, u.Generated) (hv : v.Generated)
    (hcollision : CollisionFree sha256 {t | t ∈ votes.map VoteIds.text ∨ t = v.text ∨
      t ∈ rootTexts sha256 (votes.map (VoteIds.leaf sha256)) ∨
      t ∈ climbMsgs (hashText sha256) concat (v.leaf sha256) steps})
    (h : climb (hashNode (hashText sha256) concat) (v.leaf sha256) steps =
      merkleRoot sha256 (votes.map (VoteIds.leaf sha256))) :
    v.leaf sha256 ∈ votes.map (VoteIds.leaf sha256) := by
  have hleaves : votes.map (VoteIds.leaf sha256) ≠ [] := by simpa using hne
  have hroot : merkleRoot sha256 (votes.map (VoteIds.leaf sha256)) =
      top (hashNode (hashText sha256) pairText) "" (votes.map (VoteIds.leaf sha256)) := by
    rw [merkleRoot, if_neg (by simpa using hleaves), hashPair_node]
  refine mem_of_climb_built concat_format hcollision.hashText_injOn digest_hashText ?_ (.inr (.inl rfl))
    hv.leafText (fun t ht => .inr (.inr (.inr ht))) ?_
  · intro x hx
    obtain ⟨u, hu, rfl⟩ := List.mem_map.mp hx
    exact ⟨u.text, .inl (List.mem_map_of_mem hu), (hvotes u hu).leafText, rfl⟩
  · change Built _ _ _ _ (climb (hashNode (hashText sha256) concat) (v.leaf sha256) steps)
    rw [h, hroot]
    exact built_concat (built_top "" hleaves (fun _ hx => .leaf hx) fun t ht => .inr (.inr (.inl ht)))

/-- **Soundness.** When no two of the texts hashed on the way collide, a proof of any length with
any siblings verifies only for a vote whose leaf is in the tree. -/
theorem inclusion_sound (votes : List VoteIds) (v : VoteIds) (proof : List String) (hne : votes ≠ [])
    (hvotes : ∀ u ∈ votes, u.Generated) (hv : v.Generated)
    (hcollision : CollisionFree sha256 {t | t ∈ votes.map VoteIds.text ∨ t = v.text ∨
      t ∈ rootTexts sha256 (votes.map (VoteIds.leaf sha256)) ∨
      t ∈ proofTexts sha256 (v.leaf sha256) proof})
    (h : verifyProof sha256 (v.leaf sha256) proof
      (merkleRoot sha256 (votes.map (VoteIds.leaf sha256))) = true) :
    v.leaf sha256 ∈ votes.map (VoteIds.leaf sha256) := by
  refine mem_of_climb_root hne hvotes hv hcollision ?_
  rw [climb_sided]
  exact of_decide_eq_true h

/-! ### Two votes -/

def sampleIds : VoteIds := ⟨"clx0000000000000000000fan1", "clx0000000000000000000con1", "clx000000000000000000round"⟩

def sampleIds' : VoteIds := ⟨"clx0000000000000000000fan2", "clx0000000000000000000con2", "clx000000000000000000round"⟩

/-- A hash function, as far as the tree over the two votes needs one. -/
def sampleHash (bytes : ByteArray) : Vector UInt8 32 :=
  if bytes = sampleIds.text.toUTF8 then bytesOf 1
  else if bytes = sampleIds'.text.toUTF8 then bytesOf 2
  else bytesOf 3

/-- The text of the one node over the two votes. -/
def samplePair : String := pairText (sampleIds.leaf sampleHash) (sampleIds'.leaf sampleHash)

theorem samplePair_ne {v : VoteIds} (hv : v.Generated) : samplePair ≠ v.text := by
  intro heq
  rcases pairText_eq (sampleIds.leaf sampleHash) (sampleIds'.leaf sampleHash) with hpair | hpair
  · exact concat_format.leaf_ne hv.leafText (.inl (digest_hashText _)) (heq.symm.trans hpair)
  · exact concat_format.leaf_ne hv.leafText (.inl (digest_hashText _)) (heq.symm.trans hpair)

theorem sampleIds_generated : sampleIds.Generated ∧ sampleIds'.Generated :=
  ⟨⟨by decide, by decide⟩, by decide, by decide⟩

theorem sampleHash_texts : sampleHash sampleIds.text.toUTF8 = bytesOf 1 ∧
    sampleHash sampleIds'.text.toUTF8 = bytesOf 2 ∧ sampleHash samplePair.toUTF8 = bytesOf 3 := by
  have hbytes : ∀ {s t : String}, s ≠ t → s.toUTF8 ≠ t.toUTF8 := fun h heq =>
    h (String.toByteArray_inj.mp heq)
  have hne : sampleIds'.text ≠ sampleIds.text := by decide +kernel
  obtain ⟨hgenerated, hgenerated'⟩ := sampleIds_generated
  refine ⟨if_pos rfl, ?_, ?_⟩
  · rw [sampleHash, if_neg (hbytes hne), if_pos rfl]
  · rw [sampleHash, if_neg (hbytes (samplePair_ne hgenerated)), if_neg (hbytes (samplePair_ne hgenerated'))]

theorem sampleHash_collisionFree :
    CollisionFree sampleHash {sampleIds.text, sampleIds'.text, samplePair} := by
  obtain ⟨h₁, h₂, h₃⟩ := sampleHash_texts
  rintro _ ⟨s, hs, rfl⟩ _ ⟨t, ht, rfl⟩ heq
  rcases hs with rfl | rfl | rfl <;> rcases ht with rfl | rfl | rfl <;>
    first
      | (simp only [h₁, h₂, h₃] at heq; exact absurd heq (by decide +kernel))
      | rfl

theorem inclusion_sound_two :
    verifyProof sampleHash (sampleIds'.leaf sampleHash) [sampleIds.leaf sampleHash]
      (merkleRoot sampleHash ([sampleIds, sampleIds'].map (VoteIds.leaf sampleHash))) = true ∧
    sampleIds'.leaf sampleHash ∈ [sampleIds, sampleIds'].map (VoteIds.leaf sampleHash) := by
  have hverified : verifyProof sampleHash (sampleIds'.leaf sampleHash) [sampleIds.leaf sampleHash]
      (merkleRoot sampleHash ([sampleIds, sampleIds'].map (VoteIds.leaf sampleHash))) = true := by
    rw [verifyProof, decide_eq_true_iff, merkleRoot, List.map_cons, List.map_cons, List.map_nil,
      if_neg (by simp), top_wide _ _ (by simp), nextLevel, nextLevel, top_singleton, List.foldl_cons,
      List.foldl_nil]
    exact hashPair_comm _ _
  have hroot : rootTexts sampleHash ([sampleIds, sampleIds'].map (VoteIds.leaf sampleHash)) = [samplePair] := by
    rw [rootTexts, treeMsgs, dif_pos (by simp)]
    simp [levelMsgs, nextLevel, treeMsgs, samplePair]
  have hproof : proofTexts sampleHash (sampleIds'.leaf sampleHash) [sampleIds.leaf sampleHash] = [samplePair] := by
    rw [samplePair, pairText_comm, proofTexts, sided, sided, climbMsgs, climbMsgs, Step.msg, pairText]
    cases textLe (sampleIds'.leaf sampleHash) (sampleIds.leaf sampleHash) <;> rfl
  have hsub : {t | t ∈ [sampleIds, sampleIds'].map VoteIds.text ∨ t = sampleIds'.text ∨
      t ∈ rootTexts sampleHash ([sampleIds, sampleIds'].map (VoteIds.leaf sampleHash)) ∨
      t ∈ proofTexts sampleHash (sampleIds'.leaf sampleHash) [sampleIds.leaf sampleHash]} ⊆
      ({sampleIds.text, sampleIds'.text, samplePair} : Set String) := by
    rw [hroot, hproof]
    intro t ht
    simpa [or_assoc] using ht
  refine ⟨hverified, inclusion_sound [sampleIds, sampleIds'] sampleIds' [sampleIds.leaf sampleHash] (by simp)
    ?_ sampleIds_generated.2 (sampleHash_collisionFree.mono hsub) hverified⟩
  intro u hu
  rcases List.mem_cons.mp hu with rfl | hu
  · exact sampleIds_generated.1
  · rw [List.mem_singleton.mp hu]
    exact sampleIds_generated.2

end CrownFi.Web.Rounds
