import CrownFi.Lib.Fallible
import CrownFi.Lib.Histories
import CrownFi.PredictionContract.Contract
import Mathlib.Data.List.Nodup

/-!
# CrownFi.Contracts.AuditAnchor

The **anchor contract** (`contracts/audit-anchor`): one checkpoint for each voting round, written once
by the admin. A round is anchored by whoever publishes it first, and what is anchored never changes
(`anchors_final`): the checkpoints, the event log and the rounds that can still be published are read
off the history of what was published.
-/

namespace CrownFi.Contracts.AuditAnchor

open Lib
open PredictionContract (Address Env Hash)

inductive Failure
  | panic (message : String)
  | unauthorized
  deriving DecidableEq, Repr

structure Checkpoint where
  roundId : Nat
  merkleRoot : Hash
  tallyHash : Hash
  totalVotes : Nat
  timestamp : Nat
  deriving DecidableEq, Repr

/-- `("publish", round_id)` with the root. -/
inductive Event
  | publish (roundId : Nat) (merkleRoot : Hash)
  deriving DecidableEq, Repr

structure World where
  admin : Address
  round : Nat → Option Checkpoint
  events : List Event

/-! ### Entry points -/

def construct (admin : Address) : World where
  admin := admin
  round := fun _ => none
  events := []

/-- The arguments of a `publish`. -/
structure Publication where
  roundId : Nat
  merkleRoot : Hash
  tallyHash : Hash
  totalVotes : Nat
  deriving DecidableEq, Repr

def Publication.checkpoint (p : Publication) (timestamp : Nat) : Checkpoint where
  roundId := p.roundId
  merkleRoot := p.merkleRoot
  tallyHash := p.tallyHash
  totalVotes := p.totalVotes
  timestamp := timestamp

def publish (e : Env) (w : World) (p : Publication) : Except Failure World := do
  failIf (e.auth w.admin = false) .unauthorized
  failIf ((w.round p.roundId).isSome = true) (.panic "round already published")
  let cp := p.checkpoint e.timestamp
  return { w with
    round := fun i => if i = p.roundId then some cp else w.round i
    events := w.events ++ [.publish p.roundId p.merkleRoot] }

def get (w : World) (roundId : Nat) : Option Checkpoint := w.round roundId

/-- One successful publication. -/
def Step (w : World) (l : Env × Publication) (w' : World) : Prop := publish l.1 w l.2 = .ok w'

/-! ### What was published -/

variable {e : Env} {w w' : World} {l : Env × Publication} {past : List (Env × Publication)}

/-- The checkpoint of a publication, if it is of this round. -/
def published (roundId : Nat) (l : Env × Publication) : Option Checkpoint :=
  if l.2.roundId = roundId then some (l.2.checkpoint l.1.timestamp) else none

def event (l : Env × Publication) : Event := .publish l.2.roundId l.2.merkleRoot

/-- The rounds of a history. -/
def rounds (past : List (Env × Publication)) : List Nat := past.map (·.2.roundId)

theorem publish_eq_ok {p : Publication} :
    publish e w p = .ok w' ↔
      e.auth w.admin = true ∧ w.round p.roundId = none ∧
        { w with
          round := fun i => if i = p.roundId then some (p.checkpoint e.timestamp) else w.round i
          events := w.events ++ [.publish p.roundId p.merkleRoot] } = w' := by
  simp [publish]

/-- A publication fills the place of its round, and leaves what is filled. -/
theorem Step.round (h : Step w l w') (roundId : Nat) :
    w'.round roundId = (w.round roundId).or (published roundId l) := by
  obtain ⟨-, hnone, rfl⟩ := publish_eq_ok.mp h
  simp only [published, eq_comm (b := roundId)]
  split
  · rename_i heq
    rw [heq, hnone, Option.none_or]
  · rw [Option.or_none]

theorem Step.events (h : Step w l w') : w'.events = w.events ++ [event l] := by
  obtain ⟨-, -, rfl⟩ := publish_eq_ok.mp h
  rfl

theorem Step.admin (h : Step w l w') : w'.admin = w.admin := by
  obtain ⟨-, -, rfl⟩ := publish_eq_ok.mp h
  rfl

/-! ### Runs -/

variable {admin : Address}

theorem run_admin (h : Run Step (construct admin) past w) : w.admin = admin :=
  h.invariant (P := fun w => w.admin = admin) (fun _ _ _ hw hstep => hstep.admin.trans hw) rfl

/-- A place is filled by the first publication of its round. -/
theorem run_round (h : Run Step (construct admin) past w) (roundId : Nat) :
    w.round roundId = past.findSome? (published roundId) :=
  h.earliest (fun w => w.round roundId) fun _ _ _ hstep => hstep.round roundId

theorem run_round_eq_none (h : Run Step (construct admin) past w) (roundId : Nat) :
    w.round roundId = none ↔ roundId ∉ rounds past := by
  rw [run_round h, List.findSome?_eq_none_iff, rounds, List.mem_map]
  simp [published]

theorem run_events (h : Run Step (construct admin) past w) : w.events = past.map event := by
  induction h with
  | refl => rfl
  | tail _ hstep ih => rw [hstep.events, ih, List.map_append, List.map_singleton]

theorem run_rounds_nodup (h : Run Step (construct admin) past w) : (rounds past).Nodup := by
  induction h with
  | refl => exact List.nodup_nil
  | @tail _ _ _ l hrun hstep ih =>
      rw [rounds, List.map_append, List.map_singleton, ← List.concat_eq_append]
      refine ih.concat ?_
      rw [← run_round_eq_none hrun]
      exact (publish_eq_ok.mp hstep).2.1

/-- What was published is there. -/
theorem run_published (h : Run Step (construct admin) past w) :
    ∀ l ∈ past, w.round l.2.roundId = some (l.2.checkpoint l.1.timestamp) := by
  induction h with
  | refl => simp
  | tail hrun hstep ih =>
      intro l hl
      rw [hstep.round]
      rcases List.mem_append.mp hl with hl | hl
      · rw [ih l hl, Option.some_or]
      · obtain rfl := List.mem_singleton.mp hl
        rw [(publish_eq_ok.mp hstep).2.1, Option.none_or, published, if_pos rfl]

theorem run_authorised (h : Run Step (construct admin) past w) : ∀ l ∈ past, l.1.auth admin = true := by
  induction h with
  | refl => simp
  | tail hrun hstep ih =>
      intro l hl
      rcases List.mem_append.mp hl with hl | hl
      · exact ih l hl
      · obtain rfl := List.mem_singleton.mp hl
        rw [← run_admin hrun]
        exact (publish_eq_ok.mp hstep).1

/-- **What is anchored is final.** However publications are attempted, each round is anchored at most once
and by the admin; a later state, after any further publications, answers the same checkpoint for it,
the log has exactly the publications in order, and what can still be published are the rounds that are
not there. -/
theorem anchors_final {before after : List (Env × Publication)} {w₁ : World}
    (hbefore : Run Step (construct admin) before w₁) (hafter : Run Step w₁ after w) :
    (rounds (before ++ after)).Nodup ∧ (∀ l ∈ before ++ after, l.1.auth admin = true) ∧
      w.events = (before ++ after).map event ∧
      (∀ l ∈ before ++ after, get w l.2.roundId = some (l.2.checkpoint l.1.timestamp)) ∧
      (∀ roundId cp, get w₁ roundId = some cp → get w roundId = some cp) ∧
      ∀ e p, (∃ w', publish e w p = .ok w') ↔
        e.auth admin = true ∧ p.roundId ∉ rounds (before ++ after) := by
  have hrun := hbefore.append hafter
  refine ⟨run_rounds_nodup hrun, run_authorised hrun, run_events hrun, run_published hrun, ?_, ?_⟩
  · intro roundId cp hcp
    rw [get, hafter.earliest (fun w => w.round roundId) fun _ _ _ hstep => hstep.round roundId]
    rw [get] at hcp
    rw [hcp, Option.some_or]
  · intro e p
    rw [← run_round_eq_none hrun]
    constructor
    · rintro ⟨w', hpublish⟩
      obtain ⟨hauth, hnone, -⟩ := publish_eq_ok.mp hpublish
      exact ⟨run_admin hrun ▸ hauth, hnone⟩
    · rintro ⟨hauth, hnone⟩
      exact ⟨_, publish_eq_ok.mpr ⟨by rw [run_admin hrun]; exact hauth, hnone, rfl⟩⟩

/-! Two rounds, the second after the first was read. -/

def firstRound : Env × Publication := (⟨100, fun a => a = 3⟩, ⟨1, 7, 9, 42⟩)

def secondRound : Env × Publication := (⟨200, fun a => a = 3⟩, ⟨2, 8, 10, 5⟩)

def anchoredOne : World := (publish firstRound.1 (construct 3) firstRound.2).toOption.getD (construct 3)

def anchoredTwo : World := (publish secondRound.1 anchoredOne secondRound.2).toOption.getD (construct 3)

theorem rounds_anchored :
    get anchoredTwo 1 = some ⟨1, 7, 9, 42, 100⟩ ∧ get anchoredTwo 2 = some ⟨2, 8, 10, 5, 200⟩ ∧
      ¬ ∃ w', publish ⟨300, fun a => a = 3⟩ anchoredTwo ⟨1, 8, 9, 43⟩ = .ok w' := by
  have hfirst : Run Step (construct 3) [firstRound] anchoredOne := Run.single rfl
  have hsecond : Run Step anchoredOne [secondRound] anchoredTwo := Run.single rfl
  obtain ⟨-, -, -, hpublished, hstays, hopen⟩ := anchors_final hfirst hsecond
  refine ⟨hstays 1 _ rfl, hpublished secondRound (by simp), ?_⟩
  rw [hopen]
  decide

end CrownFi.Contracts.AuditAnchor
