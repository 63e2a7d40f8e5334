import CrownFi.Contracts.Collections

/-!
# CrownFi.Contracts.Ticket

The **ticket contract** (`contracts/ticket`). On top of a capped collection it has a resale window:
as long as the organizer has not opened it, neither an owner nor somebody they approved can transfer a
ticket. So a ticket belongs to whom it was minted to until the window is opened, and it only ever
changes hands while it is open (`tickets_held`); no more tickets are minted than the cap admits
(`tickets_capped`).
-/

namespace CrownFi.Contracts.Ticket

open Lib
open PredictionContract (Address Env)

variable {σ : Type} {lib : Library σ}

structure World (σ : Type) where
  collection : Collection σ
  resaleOpen : Bool

/-! ### Entry points -/

def construct (lib : Library σ) (owner : Address) (maxSupply : Nat) : World σ where
  collection := .start lib owner maxSupply
  resaleOpen := false

def mint (lib : Library σ) (e : Env) (w : World σ) (dst : Address) : Except Failure (World σ × Nat) := do
  let minted ← mintCapped lib e w.collection dst
  return ({ w with collection := minted.1 }, minted.2)

def setResaleOpen (lib : Library σ) (e : Env) (w : World σ) («open» : Bool) : Except Failure (World σ) := do
  lib.enforceOwnerAuth e w.collection.tokens
  return { w with resaleOpen := «open» }

def setPaused (lib : Library σ) (e : Env) (w : World σ) (paused : Bool) : Except Failure (World σ) := do
  let collection ← pause lib e w.collection paused
  return { w with collection }

def transfer (lib : Library σ) (e : Env) (w : World σ) (src dst : Address) (tokenId : Nat) :
    Except Failure (World σ) := do
  failIf (w.resaleOpen = false) (.panic "resale window is closed")
  let tokens ← lib.transfer e w.collection.tokens src dst tokenId
  return { w with collection := { w.collection with tokens } }

def transferFrom (lib : Library σ) (e : Env) (w : World σ) (spender src dst : Address) (tokenId : Nat) :
    Except Failure (World σ) := do
  failIf (w.resaleOpen = false) (.panic "resale window is closed")
  let tokens ← lib.transferFrom e w.collection.tokens spender src dst tokenId
  return { w with collection := { w.collection with tokens } }

/-! ### Invocations -/

inductive Call
  | mint (dst : Address)
  | setResaleOpen («open» : Bool)
  | setPaused (paused : Bool)
  | transfer (src dst : Address) (tokenId : Nat)
  | transferFrom (spender src dst : Address) (tokenId : Nat)
  | inherited (c : Inherited)
  deriving DecidableEq, Repr

/-- What is returned: the new token, at a mint. -/
def exec (lib : Library σ) (e : Env) (w : World σ) : Call → Except Failure (World σ × Option Nat)
  | .mint dst => (fun r => (r.1, some r.2)) <$> mint lib e w dst
  | .setResaleOpen «open» => (·, none) <$> setResaleOpen lib e w «open»
  | .setPaused paused => (·, none) <$> setPaused lib e w paused
  | .transfer src dst tokenId => (·, none) <$> transfer lib e w src dst tokenId
  | .transferFrom spender src dst tokenId => (·, none) <$> transferFrom lib e w spender src dst tokenId
  | .inherited c => do
      let tokens ← lib.inherited e w.collection.tokens c
      return ({ w with collection := { w.collection with tokens } }, none)

/-- An invocation and what it returned. -/
structure Entry where
  env : Env
  call : Call
  reply : Option Nat

def Step (lib : Library σ) (w : World σ) (l : Entry) (w' : World σ) : Prop :=
  exec lib l.env w l.call = .ok (w', l.reply)

/-! ### What an entry is -/

/-- What happens to the tokens. -/
def Entry.move (l : Entry) : Move :=
  match l.call, l.reply with
  | .mint dst, some tokenId => .mint tokenId dst
  | .transfer _ dst tokenId, _ => .hand tokenId dst
  | .transferFrom _ _ dst tokenId, _ => .hand tokenId dst
  | _, _ => .still

/-- How an entry sets the resale window. -/
def Entry.window (l : Entry) : Option Bool :=
  match l.call with
  | .setResaleOpen «open» => some «open»
  | _ => none

/-- The entry points that are the organizer's. -/
def Entry.Organizing (l : Entry) : Prop :=
  match l.call with
  | .mint _ => True
  | .setResaleOpen _ => True
  | .setPaused _ => True
  | _ => False

/-- A ticket changes hands. -/
def Entry.Transfers (l : Entry) : Prop :=
  match l.call with
  | .transfer .. => True
  | .transferFrom .. => True
  | _ => False

theorem Entry.transfers_of_move {l : Entry} {i : Nat} {dst : Address} (h : l.move = .hand i dst) :
    l.Transfers := by
  obtain ⟨e, c, reply⟩ := l
  cases c with
  | transfer _ _ _ => trivial
  | transferFrom _ _ _ _ => trivial
  | mint _ => cases reply <;> cases h
  | setResaleOpen _ => cases h
  | setPaused _ => cases h
  | inherited _ => cases h

variable {w w' w₀ : World σ} {l : Entry} {past : List Entry}

/-- What one invocation did. -/
structure Effect (lib : Library σ) (w : World σ) (l : Entry) (w' : World σ) : Prop where
  moves : Moves lib w.collection l.move w'.collection
  window : some w'.resaleOpen = l.window.or (some w.resaleOpen)
  organized : l.Organizing → ∃ o, lib.contractOwner w.collection.tokens = some o ∧ l.env.auth o = true
  transferred : l.Transfers → w.resaleOpen = true

theorem Step.effect (hlib : lib.Documented) (h : Step lib w l w') : Effect lib w l w' := by
  obtain ⟨e, c, reply⟩ := l
  cases c with
  | mint dst =>
      obtain ⟨r, hr, heq⟩ := map_eq_ok.mp h
      simp only [mint, bind_eq_ok, pure_eq_ok] at hr
      obtain ⟨minted, hminted, rfl⟩ := hr
      cases heq
      exact {
        moves := mintCapped_moves hlib hminted
        window := rfl
        organized := fun _ => hlib.owner (mintCapped_ok hminted).1
        transferred := False.elim }
  | setResaleOpen opened =>
      obtain ⟨r, hr, heq⟩ := map_eq_ok.mp h
      simp only [setResaleOpen, bind_eq_ok, pure_eq_ok] at hr
      obtain ⟨_, hauth, rfl⟩ := hr
      cases heq
      exact {
        moves := .still rfl
        window := rfl
        organized := fun _ => hlib.owner hauth
        transferred := False.elim }
  | setPaused paused =>
      obtain ⟨r, hr, heq⟩ := map_eq_ok.mp h
      simp only [setPaused, bind_eq_ok, pure_eq_ok] at hr
      obtain ⟨collection, hpause, rfl⟩ := hr
      cases heq
      obtain ⟨hauth, rfl⟩ := pause_ok hpause
      exact {
        moves := .still rfl
        window := rfl
        organized := fun _ => hlib.owner hauth
        transferred := False.elim }
  | transfer src dst tokenId =>
      obtain ⟨r, hr, heq⟩ := map_eq_ok.mp h
      simp only [transfer, bind_eq_ok, failIf_eq_ok, pure_eq_ok, Bool.not_eq_false] at hr
      obtain ⟨_, hopen, tokens, htokens, rfl⟩ := hr
      cases heq
      exact {
        moves := transfer_moves hlib htokens
        window := rfl
        organized := False.elim
        transferred := fun _ => hopen }
  | transferFrom spender src dst tokenId =>
      obtain ⟨r, hr, heq⟩ := map_eq_ok.mp h
      simp only [transferFrom, bind_eq_ok, failIf_eq_ok, pure_eq_ok, Bool.not_eq_false] at hr
      obtain ⟨_, hopen, tokens, htokens, rfl⟩ := hr
      cases heq
      exact {
        moves := transferFrom_moves hlib htokens
        window := rfl
        organized := False.elim
        transferred := fun _ => hopen }
  | inherited c =>
      simp only [Step, exec, bind_eq_ok, pure_eq_ok] at h
      obtain ⟨tokens, htokens, heq⟩ := h
      cases heq
      exact {
        moves := .still (hlib.inherited htokens)
        window := rfl
        organized := False.elim
        transferred := False.elim }

/-! ### Runs -/

/-- What happened to the tokens. -/
def moves (past : List Entry) : List Move := past.map Entry.move

theorem run_moves (hlib : lib.Documented) (h : Run (Step lib) w₀ past w) :
    Run (Moves lib) w₀.collection (moves past) w.collection :=
  h.project (P := fun _ => True) World.collection Entry.move (fun _ _ _ _ _ => trivial)
    (fun _ _ _ _ hstep => (hstep.effect hlib).moves) trivial

/-- The window is as it was set last. -/
theorem run_window (hlib : lib.Documented) (h : Run (Step lib) w₀ past w) :
    some w.resaleOpen = (latest Entry.window past).or (some w₀.resaleOpen) :=
  h.latest (fun w => some w.resaleOpen) (P := fun _ => True) (fun _ _ _ _ _ => trivial)
    (fun _ _ _ _ hstep => (hstep.effect hlib).window) trivial

/-- Who hands a ticket on does it through an open window. -/
theorem run_transferred (hlib : lib.Documented) {owner : Address} {maxSupply : Nat}
    {earlier later : List Entry}
    (h : Run (Step lib) (construct lib owner maxSupply) (earlier ++ l :: later) w) (hl : l.Transfers) :
    latest Entry.window earlier = some true := by
  obtain ⟨w₁, w₂, hearlier, hstep, -⟩ := h.split
  have hopen := (hstep.effect hlib).transferred hl
  have hwindow := run_window hlib hearlier
  rw [hopen] at hwindow
  cases hlast : latest Entry.window earlier with
  | none =>
      rw [hlast] at hwindow
      cases hwindow
  | some opened =>
      rw [hlast] at hwindow
      exact hwindow.symm

/-- In a closed window nothing is handed on. -/
theorem run_closed (hlib : lib.Documented) (hclosed : w₀.resaleOpen = false)
    (hnever : ∀ l ∈ past, l.window ≠ some true) (h : Run (Step lib) w₀ past w) :
    w.resaleOpen = false ∧ ∀ i dst, .hand i dst ∉ moves past := by
  induction h with
  | refl => exact ⟨hclosed, by simp [moves]⟩
  | @tail _ _ _ l _ hstep ih =>
      have heffect := hstep.effect hlib
      obtain ⟨hstill, hnone⟩ := ih fun l hl => hnever l (List.mem_append_left _ hl)
      have hlast := hnever l (List.mem_append_right _ (List.mem_singleton_self l))
      constructor
      · have hwindow := heffect.window
        cases hl : l.window with
        | none =>
            rw [hl, hstill] at hwindow
            exact Option.some.inj hwindow
        | some opened =>
            rw [hl] at hwindow
            cases opened with
            | false => exact Option.some.inj hwindow
            | true => exact absurd hl hlast
      · intro i dst hmem
        rw [moves, List.map_append, List.map_singleton, List.mem_append, List.mem_singleton] at hmem
        rcases hmem with hmem | hmove
        · exact hnone i dst hmem
        · have htransfers := Entry.transfers_of_move hmove.symm
          rw [heffect.transferred htransfers] at hstill
          cases hstill

/-! ### The tickets of a run -/

variable {owner : Address} {maxSupply : Nat}

/-- **Who holds the tickets**, after any run: whoever a ticket was minted or handed to last, and every
transfer in the run happened while the organizer's last word was that the window is open. From a state
in which it is closed, for as long as nobody opens it, each ticket stays with its holder, and each new
one with whom it is minted to. -/
theorem tickets_held (hlib : lib.Documented) {before after : List Entry} {w₁ : World σ}
    (hbefore : Run (Step lib) (construct lib owner maxSupply) before w₁) (hafter : Run (Step lib) w₁ after w) :
    (∀ i, lib.ownerOf w.collection.tokens i = latest (Move.holder i) (moves (before ++ after))) ∧
      (∀ earlier l later, before ++ after = earlier ++ l :: later → l.Transfers →
        latest Entry.window earlier = some true) ∧
      (latest Entry.window before ≠ some true → (∀ l ∈ after, l.window ≠ some true) → ∀ i o,
        lib.ownerOf w.collection.tokens i = some o ↔
          lib.ownerOf w₁.collection.tokens i = some o ∨ .mint i o ∈ moves after) := by
  have hrun := hbefore.append hafter
  refine ⟨?_, ?_, ?_⟩
  · exact run_owners (hlib.start owner) (run_moves hlib hrun)
  · intro earlier l later hsplit hl
    rw [hsplit] at hrun
    exact run_transferred hlib hrun hl
  · intro hlast hnever
    have hwindow := run_window hlib hbefore
    have hclosed : w₁.resaleOpen = false := by
      cases hopen : latest Entry.window before with
      | none =>
          rw [hopen] at hwindow
          exact Option.some.inj hwindow
      | some opened =>
          rw [hopen] at hwindow hlast
          rw [Option.some.inj hwindow]
          cases opened with
          | false => rfl
          | true => exact absurd rfl hlast
    exact run_unhanded (run_moves hlib hafter) (run_closed hlib hclosed hnever hafter).2

/-! Two tickets are minted in a closed window, and an approval changes nothing. -/

def signedBy (a : Address) : Env := ⟨100, fun b => b = a⟩

def doorsClosed : List Entry :=
  [⟨signedBy 1, .mint 5, some 0⟩, ⟨signedBy 1, .setResaleOpen false, none⟩]

def stillClosed : List Entry :=
  [⟨signedBy 1, .mint 6, some 1⟩, ⟨signedBy 5, .inherited (.approve 5 7 0 900), none⟩]

/-- An invocation that returns what the entry says. -/
def replay (w : World Registry) (l : Entry) : Except Failure (World Registry) := do
  let r ← exec registry l.env w l.call
  failIf (r.2 ≠ l.reply) .refused
  return r.1

theorem run_of_replay {w w' : World Registry} (h : past.foldlM replay w = .ok w') :
    Run (Step registry) w past w' := by
  refine (Run.of_execAll h).mono fun w l w' hreplay => ?_
  simp only [replay, bind_eq_ok, failIf_eq_ok, not_not, pure_eq_ok] at hreplay
  obtain ⟨r, hr, _, hreply, rfl⟩ := hreplay
  rw [Step, hr, ← hreply]

def ticketsClosed : World Registry := (doorsClosed.foldlM replay (construct registry 1 3)).toOption.getD (construct registry 1 3)

def ticketsStill : World Registry := (stillClosed.foldlM replay ticketsClosed).toOption.getD ticketsClosed

theorem doorsClosed_runs : Run (Step registry) (construct registry 1 3) doorsClosed ticketsClosed :=
  run_of_replay rfl

theorem stillClosed_runs : Run (Step registry) ticketsClosed stillClosed ticketsStill := run_of_replay rfl

theorem closed_held :
    registry.ownerOf ticketsStill.collection.tokens 0 = some 5 ∧
      registry.ownerOf ticketsStill.collection.tokens 1 = some 6 := by
  obtain ⟨-, -, hheld⟩ := tickets_held registry_documented doorsClosed_runs stillClosed_runs
  have hsame := hheld (by decide) (by simp [stillClosed, Entry.window])
  refine ⟨(hsame 0 5).mpr (.inl rfl), (hsame 1 6).mpr (.inr ?_)⟩
  simp [moves, stillClosed, Entry.move]

/-- **The supply**, after any run: no ticket is minted twice, the tickets that are held are those that were
minted, the counter and the log agree with them, and they are no more than a positive cap; whatever was
minted, paused or opened was authorised by the organizer of its time. -/
theorem tickets_capped (hlib : lib.Documented)
    (hrun : Run (Step lib) (construct lib owner maxSupply) past w) :
    ((moves past).filterMap Move.new).Nodup ∧
      (∀ i, (lib.ownerOf w.collection.tokens i).isSome = true ↔ i ∈ (moves past).filterMap Move.new) ∧
      w.collection.minted = ((moves past).filterMap Move.new).length ∧
      w.collection.events = (moves past).filterMap Move.event ∧
      (maxSupply ≠ 0 → w.collection.minted ≤ maxSupply) ∧
      ∀ earlier l later, past = earlier ++ l :: later → l.Organizing →
        ∃ w₁ o, Run (Step lib) (construct lib owner maxSupply) earlier w₁ ∧
          lib.contractOwner w₁.collection.tokens = some o ∧ l.env.auth o = true := by
  obtain ⟨hnodup, hcount, -, hcap, hevents⟩ := run_supply (hlib.start owner) (run_moves hlib hrun) rfl
  refine ⟨hnodup, run_owned (hlib.start owner) (run_moves hlib hrun), hcount, hevents, hcap, ?_⟩
  rintro earlier l later rfl hl
  obtain ⟨w₁, w₂, hearlier, hstep, -⟩ := hrun.split
  obtain ⟨o, ho, hauth⟩ := (hstep.effect hlib).organized hl
  exact ⟨w₁, o, hearlier, ho, hauth⟩

/-! The last ticket is minted, and the first is handed on by somebody its owner approved. -/

def lastTicket : List Entry :=
  [⟨signedBy 1, .setResaleOpen true, none⟩, ⟨signedBy 7, .transferFrom 7 5 8 0, none⟩,
    ⟨signedBy 1, .mint 9, some 2⟩]

def ticketsSold : World Registry := (lastTicket.foldlM replay ticketsStill).toOption.getD ticketsStill

theorem sold_capped : ticketsSold.collection.minted = 3 ∧ ticketsSold.collection.minted ≤ 3 ∧
    ticketsSold.collection.events = [.mint 5 0, .mint 6 1, .mint 9 2] := by
  have hlast : Run (Step registry) ticketsStill lastTicket ticketsSold := run_of_replay rfl
  have hrun := (doorsClosed_runs.append stillClosed_runs).append hlast
  obtain ⟨-, -, hcount, hevents, hcap, -⟩ := tickets_capped registry_documented hrun
  exact ⟨hcount.trans rfl, hcap (by decide), hevents.trans rfl⟩

end CrownFi.Contracts.Ticket
