import CrownFi.Lib.Fallible
import CrownFi.Lib.Histories
import CrownFi.PredictionContract.Contract
import Mathlib.Data.List.Nodup

/-!
# CrownFi.Contracts.Collections

**What the two token contracts share.** Tickets and collectibles are built on a library of tokens that is
not part of this repository: it keeps the owners of the tokens and of the contract, and is a parameter
here, with what its documentation says (`Library.Documented`). The contracts add a pause and a cap to
its sequential mint.

Seen from the tokens an invocation is a `Move`: a token is minted, or handed to somebody, or nothing
happens to any token. All that is said about runs is proved of moves: who has a token is the last one it
was minted or handed to (`run_owners`), and no more are minted than the cap admits (`run_supply`).
-/

namespace CrownFi.Contracts

open Lib
open PredictionContract (Address Env u32Max)

/-- How an invocation fails; what the library refuses is not told apart. -/
inductive Failure
  | panic (message : String)
  | refused
  | overflow
  deriving DecidableEq, Repr

/-- The entry points that the contracts inherit and that are no transfers. -/
inductive Inherited
  | approve (approver approved : Address) (tokenId liveUntilLedger : Nat)
  | approveForAll (owner operator : Address) (liveUntilLedger : Nat)
  | transferOwnership (newOwner : Address) (liveUntilLedger : Nat)
  | acceptOwnership
  | renounceOwnership
  deriving DecidableEq, Repr

/-- What is stored of royalties. -/
inductive Royalty
  | setDefaultRoyalty (receiver : Address) (basisPoints : Nat)
  | setTokenRoyalty (tokenId : Nat) (receiver : Address) (basisPoints : Nat)
  | removeTokenRoyalty (tokenId : Nat)
  deriving DecidableEq, Repr

/-- What is used of the token library, over its own storage. -/
structure Library (σ : Type) where
  ownerOf : σ → Nat → Option Address
  contractOwner : σ → Option Address
  /-- The storage after `set_metadata` and `set_owner`. -/
  start : Address → σ
  enforceOwnerAuth : Env → σ → Except Failure Unit
  sequentialMint : σ → Address → Except Failure (σ × Nat)
  transfer : Env → σ → Address → Address → Nat → Except Failure σ
  transferFrom : Env → σ → Address → Address → Address → Nat → Except Failure σ
  inherited : Env → σ → Inherited → Except Failure σ
  royalty : σ → Royalty → Except Failure σ

variable {σ : Type} {lib : Library σ}

/-- Among the tokens, only this one gets another owner. -/
def Library.Hands (lib : Library σ) (s s' : σ) (tokenId : Nat) (dst : Address) : Prop :=
  ∀ i, lib.ownerOf s' i = if i = tokenId then some dst else lib.ownerOf s i

/-- What the library documents. -/
structure Library.Documented (lib : Library σ) : Prop where
  start : ∀ owner i, lib.ownerOf (lib.start owner) i = none
  owner : ∀ {e s}, lib.enforceOwnerAuth e s = .ok () → ∃ o, lib.contractOwner s = some o ∧ e.auth o = true
  mint : ∀ {s dst s' i}, lib.sequentialMint s dst = .ok (s', i) → lib.ownerOf s i = none ∧ lib.Hands s s' i dst
  transfer : ∀ {e s src dst i s'}, lib.transfer e s src dst i = .ok s' →
    e.auth src = true ∧ lib.ownerOf s i = some src ∧ lib.Hands s s' i dst
  transferFrom : ∀ {e s spender src dst i s'}, lib.transferFrom e s spender src dst i = .ok s' →
    e.auth spender = true ∧ lib.ownerOf s i = some src ∧ lib.Hands s s' i dst
  inherited : ∀ {e s c s'}, lib.inherited e s c = .ok s' → lib.ownerOf s' = lib.ownerOf s
  royalty : ∀ {s c s'}, lib.royalty s c = .ok s' → lib.ownerOf s' = lib.ownerOf s

/-- `("mint", to)` with the token. -/
inductive Event
  | mint (dst : Address) (tokenId : Nat)
  deriving DecidableEq, Repr

/-- The storage of a contract: the library's, the configuration that both contracts have, and the
event log, oldest first. -/
structure Collection (σ : Type) where
  tokens : σ
  paused : Bool
  maxSupply : Nat
  minted : Nat
  events : List Event

def Collection.start (lib : Library σ) (owner : Address) (maxSupply : Nat) : Collection σ where
  tokens := lib.start owner
  paused := false
  maxSupply := maxSupply
  minted := 0
  events := []

/-- `mint`, the same in both contracts; a `maxSupply` of zero is no cap. -/
def mintCapped (lib : Library σ) (e : Env) (w : Collection σ) (dst : Address) :
    Except Failure (Collection σ × Nat) := do
  lib.enforceOwnerAuth e w.tokens
  failIf (w.paused = true) (.panic "minting paused")
  failIf (w.maxSupply ≠ 0 ∧ w.maxSupply ≤ w.minted) (.panic "max supply reached")
  let new ← lib.sequentialMint w.tokens dst
  failIf (u32Max < w.minted + 1) .overflow
  return ({ w with tokens := new.1, minted := w.minted + 1, events := w.events ++ [.mint dst new.2] }, new.2)

/-- `set_paused`, the same in both contracts. -/
def pause (lib : Library σ) (e : Env) (w : Collection σ) (paused : Bool) :
    Except Failure (Collection σ) := do
  lib.enforceOwnerAuth e w.tokens
  return { w with paused }

/-! ### Moves -/

/-- What an invocation does to the tokens. -/
inductive Move
  | mint (tokenId : Nat) (dst : Address)
  | hand (tokenId : Nat) (dst : Address)
  | still
  deriving DecidableEq, Repr

/-- The token that a move mints. -/
def Move.new : Move → Option Nat
  | .mint i _ => some i
  | _ => none

/-- Who has a token after a move that is about it. -/
def Move.holder (tokenId : Nat) : Move → Option Address
  | .mint i dst => if i = tokenId then some dst else none
  | .hand i dst => if i = tokenId then some dst else none
  | .still => none

def Move.event : Move → Option Event
  | .mint i dst => some (.mint dst i)
  | _ => none

/-- What a move does to a collection. -/
inductive Moves (lib : Library σ) (w : Collection σ) : Move → Collection σ → Prop
  | mint {tokens : σ} {tokenId : Nat} {dst : Address} :
      lib.ownerOf w.tokens tokenId = none → lib.Hands w.tokens tokens tokenId dst →
      (w.maxSupply ≠ 0 → w.minted < w.maxSupply) →
      Moves lib w (.mint tokenId dst)
        { w with tokens, minted := w.minted + 1, events := w.events ++ [.mint dst tokenId] }
  | hand {tokens : σ} {tokenId : Nat} {src dst : Address} :
      lib.ownerOf w.tokens tokenId = some src → lib.Hands w.tokens tokens tokenId dst →
      Moves lib w (.hand tokenId dst) { w with tokens }
  | still {tokens : σ} {paused : Bool} :
      lib.ownerOf tokens = lib.ownerOf w.tokens → Moves lib w .still { w with tokens, paused }

variable {e : Env} {w w' w₀ : Collection σ} {m : Move} {moves : List Move}

theorem mintCapped_ok {dst : Address} {r : Collection σ × Nat} (h : mintCapped lib e w dst = .ok r) :
    lib.enforceOwnerAuth e w.tokens = .ok () ∧ (w.maxSupply ≠ 0 → w.minted < w.maxSupply) ∧
      ∃ tokens, lib.sequentialMint w.tokens dst = .ok (tokens, r.2) ∧
        r.1 = { w with tokens, minted := w.minted + 1, events := w.events ++ [.mint dst r.2] } := by
  simp only [mintCapped, bind_eq_ok, failIf_eq_ok, pure_eq_ok, not_and, not_le] at h
  obtain ⟨_, hauth, _, -, _, hcap, new, hnew, _, -, rfl⟩ := h
  exact ⟨hauth, hcap, new.1, hnew, rfl⟩

theorem pause_ok {paused : Bool} (h : pause lib e w paused = .ok w') :
    lib.enforceOwnerAuth e w.tokens = .ok () ∧ w' = { w with paused } := by
  simp only [pause, bind_eq_ok, pure_eq_ok] at h
  obtain ⟨_, hauth, rfl⟩ := h
  exact ⟨hauth, rfl⟩

/-- A mint, as a move. -/
theorem mintCapped_moves (hlib : lib.Documented) {dst : Address} {r : Collection σ × Nat}
    (h : mintCapped lib e w dst = .ok r) : Moves lib w (.mint r.2 dst) r.1 := by
  obtain ⟨-, hcap, tokens, hmint, hr⟩ := mintCapped_ok h
  obtain ⟨hnew, hhands⟩ := hlib.mint hmint
  rw [hr]
  exact .mint hnew hhands hcap

/-- A transfer, as a move. -/
theorem transfer_moves (hlib : lib.Documented) {src dst : Address} {tokenId : Nat} {tokens : σ}
    (h : lib.transfer e w.tokens src dst tokenId = .ok tokens) :
    Moves lib w (.hand tokenId dst) { w with tokens } :=
  .hand (hlib.transfer h).2.1 (hlib.transfer h).2.2

theorem transferFrom_moves (hlib : lib.Documented) {spender src dst : Address} {tokenId : Nat} {tokens : σ}
    (h : lib.transferFrom e w.tokens spender src dst tokenId = .ok tokens) :
    Moves lib w (.hand tokenId dst) { w with tokens } :=
  .hand (hlib.transferFrom h).2.1 (hlib.transferFrom h).2.2

/-! ### Runs of moves -/

namespace Moves

theorem maxSupply (h : Moves lib w m w') : w'.maxSupply = w.maxSupply := by
  cases h <;> rfl

theorem minted (h : Moves lib w m w') : w'.minted = w.minted + m.new.toList.length := by
  cases h <;> rfl

theorem events (h : Moves lib w m w') : w'.events = w.events ++ m.event.toList := by
  cases h with
  | mint _ _ _ => rfl
  | hand _ _ => exact (List.append_nil _).symm
  | still _ => exact (List.append_nil _).symm

/-- Who has a token is who the move gives it to, or else who had it. -/
theorem owner (h : Moves lib w m w') (i : Nat) :
    lib.ownerOf w'.tokens i = (m.holder i).or (lib.ownerOf w.tokens i) := by
  cases h with
  | mint _ hhands _ =>
      rw [hhands i, Move.holder]
      simp only [eq_comm (a := i)]
      split <;> rfl
  | hand _ hhands =>
      rw [hhands i, Move.holder]
      simp only [eq_comm (a := i)]
      split <;> rfl
  | still hsame => rw [hsame, Move.holder, Option.none_or]

/-- A token has an owner from its mint on. -/
theorem owned (h : Moves lib w m w') (i : Nat) :
    (lib.ownerOf w'.tokens i).isSome = true ↔
      (lib.ownerOf w.tokens i).isSome = true ∨ m.new = some i := by
  rw [h.owner]
  cases h with
  | @mint _ j _ _ _ _ =>
      by_cases hj : j = i
      · simp [Move.holder, Move.new, hj]
      · simp [Move.holder, Move.new, hj]
  | @hand _ j src _ hsrc _ =>
      by_cases hj : j = i
      · subst hj
        simp [Move.holder, Move.new, hsrc]
      · simp [Move.holder, Move.new, hj]
  | still _ => simp [Move.holder, Move.new]

end Moves

/-- Where nothing is handed on, every token stays where it was, or was minted to. -/
theorem run_unhanded (h : Run (Moves lib) w₀ moves w) (hnone : ∀ i dst, .hand i dst ∉ moves) (i : Nat)
    (o : Address) :
    lib.ownerOf w.tokens i = some o ↔ lib.ownerOf w₀.tokens i = some o ∨ .mint i o ∈ moves := by
  induction h with
  | refl => simp
  | tail _ hmove ih =>
      have hearlier := ih fun j dst hmem => hnone j dst (List.mem_append_left _ hmem)
      rw [hmove.owner, List.mem_append, ← or_assoc, ← hearlier, List.mem_singleton]
      cases hmove with
      | @mint _ j dst hfree _ _ =>
          by_cases hj : j = i
          · subst hj
            simp [Move.holder, hfree, eq_comm]
          · have hij : i ≠ j := fun heq => hj heq.symm
            simp [Move.holder, hj, hij]
      | @hand _ j _ dst _ _ =>
          exact absurd (List.mem_append_right _ (List.mem_singleton_self _)) (hnone j dst)
      | still _ => simp [Move.holder]

section Runs

variable (hfresh : ∀ i, lib.ownerOf w₀.tokens i = none)
include hfresh

/-- Who has a token is the **last one** it was minted or handed to. -/
theorem run_owners (h : Run (Moves lib) w₀ moves w) (i : Nat) :
    lib.ownerOf w.tokens i = latest (Move.holder i) moves := by
  have hlast := h.latest (fun w => lib.ownerOf w.tokens i) (P := fun _ => True)
    (fun _ _ _ _ _ => trivial) (fun _ _ _ _ hmove => hmove.owner i) trivial
  rw [hfresh, Option.or_none] at hlast
  exact hlast

/-- The tokens that are there are those that were minted. -/
theorem run_owned (h : Run (Moves lib) w₀ moves w) (i : Nat) :
    (lib.ownerOf w.tokens i).isSome = true ↔ i ∈ moves.filterMap Move.new := by
  induction h with
  | refl => simp [hfresh]
  | tail _ hmove ih =>
      rw [hmove.owned, ih, List.filterMap_append, List.mem_append]
      simp

/-- **No token is minted twice**, the counter counts them, and the cap holds. -/
theorem run_supply (h : Run (Moves lib) w₀ moves w) (hminted : w₀.minted = 0) :
    (moves.filterMap Move.new).Nodup ∧ w.minted = (moves.filterMap Move.new).length ∧
      w.maxSupply = w₀.maxSupply ∧ (w₀.maxSupply ≠ 0 → w.minted ≤ w₀.maxSupply) ∧
      w.events = w₀.events ++ moves.filterMap Move.event := by
  induction h with
  | refl => exact ⟨List.nodup_nil, hminted, rfl, fun _ => hminted ▸ Nat.zero_le _, (List.append_nil _).symm⟩
  | @tail _ _ _ m hrun hmove ih =>
      obtain ⟨hnodup, hcount, hmax, hcap, hevents⟩ := ih
      have hnew : (m.new.toList).length = ([m].filterMap Move.new).length := by
        cases hm : m.new <;> simp [hm]
      refine ⟨?_, ?_, hmove.maxSupply.trans hmax, fun hbound => ?_, ?_⟩
      · rw [List.filterMap_append]
        cases hmove with
        | @mint _ i _ hfree _ _ =>
            refine List.Nodup.append hnodup (List.nodup_singleton i) (List.disjoint_singleton.mpr ?_)
            rw [← run_owned hfresh hrun, hfree]
            exact Bool.false_ne_true
        | hand _ _ => exact (List.append_nil _).symm ▸ hnodup
        | still _ => exact (List.append_nil _).symm ▸ hnodup
      · rw [hmove.minted, hcount, List.filterMap_append, List.length_append, hnew]
      · cases hmove with
        | mint _ _ hroom => exact hmax ▸ hroom (hmax ▸ hbound)
        | hand _ _ => exact hcap hbound
        | still _ => exact hcap hbound
      · rw [hmove.events, hevents, List.filterMap_append, List.append_assoc]
        cases hm : m.event <;> simp [hm]

end Runs

/-! ### A library

The tokens are numbered from 0 on, and an approval ends with the next transfer. -/

structure Registry where
  admin : Address
  owners : List Address
  approved : Nat → Option Address
  royalties : List Royalty

/-- The owner of a token that is there. -/
def Registry.give (s : Registry) (tokenId : Nat) (dst : Address) : Registry :=
  { s with
    owners := s.owners.set tokenId dst
    approved := fun i => if i = tokenId then none else s.approved i }

def registry : Library Registry where
  ownerOf s i := s.owners[i]?
  contractOwner s := some s.admin
  start owner := { admin := owner, owners := [], approved := fun _ => none, royalties := [] }
  enforceOwnerAuth e s := failIf (e.auth s.admin = false) .refused
  sequentialMint s dst := .ok ({ s with owners := s.owners ++ [dst] }, s.owners.length)
  transfer e s src dst i := do
    failIf (e.auth src = false ∨ s.owners[i]? ≠ some src) .refused
    return s.give i dst
  transferFrom e s spender src dst i := do
    failIf (e.auth spender = false ∨ s.approved i ≠ some spender ∨ s.owners[i]? ≠ some src) .refused
    return s.give i dst
  inherited e s
    | .approve approver approved i _ => do
        failIf (e.auth approver = false ∨ s.owners[i]? ≠ some approver) .refused
        return { s with approved := fun j => if j = i then some approved else s.approved j }
    | _ => .error .refused
  royalty s c := .ok { s with royalties := c :: s.royalties }

theorem registry_hands {s : Registry} {src dst : Address} {i : Nat} (h : s.owners[i]? = some src) :
    registry.Hands s (s.give i dst) i dst := by
  intro j
  obtain ⟨hlt, -⟩ := List.getElem?_eq_some_iff.mp h
  by_cases hj : j = i
  · simp [registry, Registry.give, hj, hlt]
  · simp [registry, Registry.give, hj, Ne.symm hj]

theorem registry_documented : registry.Documented where
  start _ _ := rfl
  owner {e s} h := ⟨s.admin, rfl, by simpa [registry] using h⟩
  mint {s dst s' i} h := by
    obtain ⟨rfl, rfl⟩ := Prod.mk.inj (Except.ok.inj h)
    refine ⟨by simp [registry], fun j => ?_⟩
    by_cases hj : j = s.owners.length
    · simp [registry, hj]
    · rw [if_neg hj]
      rcases Nat.lt_or_gt_of_ne hj with hlt | hgt
      · exact List.getElem?_append_left hlt
      · have hout : s.owners.length ≤ j := hgt.le
        have hout' : (s.owners ++ [dst]).length ≤ j := by
          rw [List.length_append, List.length_singleton]
          exact hgt
        exact (List.getElem?_eq_none hout').trans (List.getElem?_eq_none hout).symm
  transfer {e s src dst i s'} h := by
    simp only [registry, bind_eq_ok, failIf_eq_ok, pure_eq_ok, not_or, not_not, Bool.not_eq_false] at h
    obtain ⟨_, ⟨hauth, hsrc⟩, rfl⟩ := h
    exact ⟨hauth, hsrc, registry_hands hsrc⟩
  transferFrom {e s spender src dst i s'} h := by
    simp only [registry, bind_eq_ok, failIf_eq_ok, pure_eq_ok, not_or, not_not, Bool.not_eq_false] at h
    obtain ⟨_, ⟨hauth, -, hsrc⟩, rfl⟩ := h
    exact ⟨hauth, hsrc, registry_hands hsrc⟩
  inherited {e s c s'} h := by
    cases c with
    | approve approver approved i _ =>
        simp only [registry, bind_eq_ok, failIf_eq_ok, pure_eq_ok] at h
        obtain ⟨_, -, rfl⟩ := h
        rfl
    | _ => cases h
  royalty {s c s'} h := by
    obtain rfl := Except.ok.inj h
    rfl

end CrownFi.Contracts
