import CrownFi.Contracts.Collections

/-!
# CrownFi.Contracts.Collectible

The **collectible contract** (`contracts/collectible`): a capped collection whose tokens can be transferred
at any time, with a royalty for the contestant. What is said of a ticket's supply holds of
collectibles, too (`collectibles_capped`), and royalties are only set by the owner of the contract.
-/

namespace CrownFi.Contracts.Collectible

open Lib
open PredictionContract (Address Env)

variable {σ : Type} {lib : Library σ}

def maxBps : Nat := 10000

/-! ### Entry points -/

def construct (lib : Library σ) (owner royaltyReceiver : Address) (royaltyBps maxSupply : Nat) :
    Except Failure (Collection σ) := do
  failIf (maxBps < royaltyBps) (.panic "royalty bps out of range")
  let w := Collection.start lib owner maxSupply
  let tokens ← lib.royalty w.tokens (.setDefaultRoyalty royaltyReceiver royaltyBps)
  return { w with tokens }

def mint (lib : Library σ) (e : Env) (w : Collection σ) (dst : Address) :
    Except Failure (Collection σ × Nat) :=
  mintCapped lib e w dst

def setPaused (lib : Library σ) (e : Env) (w : Collection σ) (paused : Bool) : Except Failure (Collection σ) :=
  pause lib e w paused

/-- A royalty entry point: the owner's, then the library's. -/
def setRoyalty (lib : Library σ) (e : Env) (w : Collection σ) (c : Royalty) : Except Failure (Collection σ) := do
  lib.enforceOwnerAuth e w.tokens
  let tokens ← lib.royalty w.tokens c
  return { w with tokens }

def setDefaultRoyalty (lib : Library σ) (e : Env) (w : Collection σ) (receiver : Address) (basisPoints : Nat) :
    Except Failure (Collection σ) :=
  setRoyalty lib e w (.setDefaultRoyalty receiver basisPoints)

def setTokenRoyalty (lib : Library σ) (e : Env) (w : Collection σ) (tokenId : Nat) (receiver : Address)
    (basisPoints : Nat) : Except Failure (Collection σ) :=
  setRoyalty lib e w (.setTokenRoyalty tokenId receiver basisPoints)

def removeTokenRoyalty (lib : Library σ) (e : Env) (w : Collection σ) (tokenId : Nat) :
    Except Failure (Collection σ) :=
  setRoyalty lib e w (.removeTokenRoyalty tokenId)

/-! ### Invocations -/

inductive Call
  | mint (dst : Address)
  | setPaused (paused : Bool)
  | transfer (src dst : Address) (tokenId : Nat)
  | transferFrom (spender src dst : Address) (tokenId : Nat)
  | setDefaultRoyalty (receiver : Address) (basisPoints : Nat)
  | setTokenRoyalty (tokenId : Nat) (receiver : Address) (basisPoints : Nat)
  | removeTokenRoyalty (tokenId : Nat)
  | inherited (c : Inherited)
  deriving DecidableEq, Repr

/-- Transfers and the inherited entry points are the library's own. -/
def exec (lib : Library σ) (e : Env) (w : Collection σ) : Call → Except Failure (Collection σ × Option Nat)
  | .mint dst => (fun r => (r.1, some r.2)) <$> mint lib e w dst
  | .setPaused paused => (·, none) <$> setPaused lib e w paused
  | .transfer src dst tokenId =>
      (fun tokens => ({ w with tokens }, none)) <$> lib.transfer e w.tokens src dst tokenId
  | .transferFrom spender src dst tokenId =>
      (fun tokens => ({ w with tokens }, none)) <$> lib.transferFrom e w.tokens spender src dst tokenId
  | .setDefaultRoyalty receiver basisPoints => (·, none) <$> setDefaultRoyalty lib e w receiver basisPoints
  | .setTokenRoyalty tokenId receiver basisPoints =>
      (·, none) <$> setTokenRoyalty lib e w tokenId receiver basisPoints
  | .removeTokenRoyalty tokenId => (·, none) <$> removeTokenRoyalty lib e w tokenId
  | .inherited c => (fun tokens => ({ w with tokens }, none)) <$> lib.inherited e w.tokens c

structure Entry where
  env : Env
  call : Call
  reply : Option Nat

def Step (lib : Library σ) (w : Collection σ) (l : Entry) (w' : Collection σ) : Prop :=
  exec lib l.env w l.call = .ok (w', l.reply)

/-- What happens to the tokens. -/
def Entry.move (l : Entry) : Move :=
  match l.call, l.reply with
  | .mint dst, some tokenId => .mint tokenId dst
  | .transfer _ dst tokenId, _ => .hand tokenId dst
  | .transferFrom _ _ dst tokenId, _ => .hand tokenId dst
  | _, _ => .still

/-- The entry points that are the owner's. -/
def Entry.Owned (l : Entry) : Prop :=
  match l.call with
  | .transfer .. => False
  | .transferFrom .. => False
  | .inherited _ => False
  | _ => True

variable {e : Env} {w w' w₀ : Collection σ} {l : Entry} {past : List Entry}

structure Effect (lib : Library σ) (w : Collection σ) (l : Entry) (w' : Collection σ) : Prop where
  moves : Moves lib w l.move w'
  owned : l.Owned → ∃ o, lib.contractOwner w.tokens = some o ∧ l.env.auth o = true

theorem setRoyalty_ok (hlib : lib.Documented) {c : Royalty} (h : setRoyalty lib e w c = .ok w') :
    Moves lib w .still w' ∧ ∃ o, lib.contractOwner w.tokens = some o ∧ e.auth o = true := by
  simp only [setRoyalty, bind_eq_ok, pure_eq_ok] at h
  obtain ⟨_, hauth, tokens, htokens, rfl⟩ := h
  exact ⟨.still (hlib.royalty htokens), hlib.owner hauth⟩

theorem Step.effect (hlib : lib.Documented) (h : Step lib w l w') : Effect lib w l w' := by
  obtain ⟨e, c, reply⟩ := l
  cases c with
  | mint dst =>
      obtain ⟨r, hr, heq⟩ := map_eq_ok.mp h
      cases heq
      exact ⟨mintCapped_moves hlib hr, fun _ => hlib.owner (mintCapped_ok hr).1⟩
  | setPaused paused =>
      obtain ⟨r, hr, heq⟩ := map_eq_ok.mp h
      cases heq
      obtain ⟨hauth, rfl⟩ := pause_ok hr
      exact ⟨.still rfl, fun _ => hlib.owner hauth⟩
  | transfer src dst tokenId =>
      obtain ⟨tokens, htokens, heq⟩ := map_eq_ok.mp h
      cases heq
      exact ⟨transfer_moves hlib htokens, False.elim⟩
  | transferFrom spender src dst tokenId =>
      obtain ⟨tokens, htokens, heq⟩ := map_eq_ok.mp h
      cases heq
      exact ⟨transferFrom_moves hlib htokens, False.elim⟩
  | setDefaultRoyalty receiver basisPoints =>
      obtain ⟨r, hr, heq⟩ := map_eq_ok.mp h
      cases heq
      exact ⟨(setRoyalty_ok hlib hr).1, fun _ => (setRoyalty_ok hlib hr).2⟩
  | setTokenRoyalty tokenId receiver basisPoints =>
      obtain ⟨r, hr, heq⟩ := map_eq_ok.mp h
      cases heq
      exact ⟨(setRoyalty_ok hlib hr).1, fun _ => (setRoyalty_ok hlib hr).2⟩
  | removeTokenRoyalty tokenId =>
      obtain ⟨r, hr, heq⟩ := map_eq_ok.mp h
      cases heq
      exact ⟨(setRoyalty_ok hlib hr).1, fun _ => (setRoyalty_ok hlib hr).2⟩
  | inherited c =>
      obtain ⟨tokens, htokens, heq⟩ := map_eq_ok.mp h
      cases heq
      exact ⟨.still (hlib.inherited htokens), False.elim⟩

/-! ### The collectibles of a run -/

def moves (past : List Entry) : List Move := past.map Entry.move

theorem run_moves (hlib : lib.Documented) (h : Run (Step lib) w₀ past w) : Run (Moves lib) w₀ (moves past) w :=
  h.project (P := fun _ => True) id Entry.move (fun _ _ _ _ _ => trivial)
    (fun _ _ _ _ hstep => (hstep.effect hlib).moves) trivial

theorem construct_ok {owner receiver : Address} {royaltyBps maxSupply : Nat}
    (h : construct lib owner receiver royaltyBps maxSupply = .ok w) :
    royaltyBps ≤ maxBps ∧ ∃ tokens,
      lib.royalty (lib.start owner) (.setDefaultRoyalty receiver royaltyBps) = .ok tokens ∧
        { Collection.start lib owner maxSupply with tokens } = w := by
  simp only [construct, bind_eq_ok, failIf_eq_ok, pure_eq_ok, not_lt] at h
  obtain ⟨_, hbps, tokens, htokens, rfl⟩ := h
  exact ⟨hbps, tokens, htokens, rfl⟩

/-- After any run each collectible is with whom it was minted or handed to last, none is minted twice,
the collectibles that are held are those that were minted, counted by the counter and the log and no
more than a positive cap; minting, pausing and every change of a royalty was authorised by the owner
of the contract at its time. -/
theorem collectibles_capped (hlib : lib.Documented) {owner receiver : Address} {royaltyBps maxSupply : Nat}
    (hnew : construct lib owner receiver royaltyBps maxSupply = .ok w₀) (hrun : Run (Step lib) w₀ past w) :
    (∀ i, lib.ownerOf w.tokens i = latest (Move.holder i) (moves past)) ∧
      ((moves past).filterMap Move.new).Nodup ∧
      (∀ i, (lib.ownerOf w.tokens i).isSome = true ↔ i ∈ (moves past).filterMap Move.new) ∧
      w.minted = ((moves past).filterMap Move.new).length ∧
      w.events = (moves past).filterMap Move.event ∧
      (maxSupply ≠ 0 → w.minted ≤ maxSupply) ∧
      ∀ earlier l later, past = earlier ++ l :: later → l.Owned →
        ∃ w₁ o, Run (Step lib) w₀ earlier w₁ ∧ lib.contractOwner w₁.tokens = some o ∧ l.env.auth o = true := by
  obtain ⟨-, tokens, htokens, rfl⟩ := construct_ok hnew
  have hfresh : ∀ i, lib.ownerOf tokens i = none := fun i => by rw [hlib.royalty htokens, hlib.start]
  have hmoves := run_moves hlib hrun
  obtain ⟨hnodup, hcount, -, hcap, hevents⟩ := run_supply hfresh hmoves rfl
  refine ⟨run_owners hfresh hmoves, hnodup, run_owned hfresh hmoves, hcount, hevents, hcap, ?_⟩
  rintro earlier l later rfl hl
  obtain ⟨w₁, w₂, hearlier, hstep, -⟩ := hrun.split
  obtain ⟨o, ho, hauth⟩ := (hstep.effect hlib).owned hl
  exact ⟨w₁, o, hearlier, ho, hauth⟩

/-! A collection of one, sold once. -/

def portrait : Collection Registry :=
  (construct registry 1 4 1000 1).toOption.getD (.start registry 1 1)

def portraitMinted : Collection Registry :=
  (mint registry ⟨100, fun a => a = 1⟩ portrait 5).toOption.elim portrait (·.1)

def portraitSold : Collection Registry :=
  (exec registry ⟨200, fun a => a = 5⟩ portraitMinted (.transfer 5 6 0)).toOption.elim portrait (·.1)

theorem portrait_capped :
    portraitSold.minted ≤ 1 ∧ portraitSold.events = [.mint 5 0] ∧
      registry.ownerOf portraitSold.tokens 0 = some 6 := by
  have hfirst : Step registry portrait ⟨⟨100, fun a => a = 1⟩, .mint 5, some 0⟩ portraitMinted := rfl
  have hsecond : Step registry portraitMinted ⟨⟨200, fun a => a = 5⟩, .transfer 5 6 0, none⟩ portraitSold := rfl
  have hnew : construct registry 1 4 1000 1 = .ok portrait := rfl
  obtain ⟨howner, -, -, -, hevents, hcap, -⟩ :=
    collectibles_capped registry_documented hnew ((Run.single hfirst).append (Run.single hsecond))
  exact ⟨hcap (by decide), hevents.trans rfl, (howner 0).trans rfl⟩

end CrownFi.Contracts.Collectible
