import CrownFi.Markets.Settlement

/-!
# CrownFi.Markets.Requests

Everything that a run of the prediction markets is made of: the requests on markets,
stakes, positions and settlements, and what happens besides them.
-/

namespace CrownFi.Markets

open Lib CrownFi.Api

/-- People, organizations, pageants and clock may change at any time. -/
def environment (directory : Directory) (organizations : List Uuid) (pageants : List Pageant) :
    Handler Response := do
  Tx.write .other (fun _ => []) fun db => { db with directory, organizations, pageants }
  Tx.commit
  return ⟨.ok, 0⟩

/-- Time passes, and people, organizations and pageants change. -/
def passTime (elapsed : Nat) (directory : Directory) (organizations : List Uuid)
    (pageants : List Pageant) : Handler Response := do
  Tx.write .passes (fun _ => []) fun db =>
    { db with
      directory := { directory with clock := db.directory.clock + elapsed }
      organizations, pageants }
  Tx.commit
  return ⟨.ok, 0⟩

/-- The operations on the markets, by name. -/
inductive Operation
  | createMarket
  | recordPolicyDecision
  | transitionMarket
  | createStakeIntent
  | getMarketIntent
  | recordStakeSubmission
  | acceptPositionEvidence
  | createSettlementPlan
  | recordSettlementSubmission
  | acceptSettlementEvidence
  | environment
  deriving DecidableEq, Repr

/-- The requests, each with the operation that it asks for. -/
inductive Request (ext : External) : Operation → Prog Database Row Site Result → Prop
  | createMarket (actorUserId : Uuid) (body : Governance.CreateMarketRequest)
      (ids : Governance.MarketIds) :
      Request ext .createMarket (Governance.createMarket ext actorUserId body ids).request
  | recordPolicyDecision (actorUserId marketId : Uuid) (body : Governance.PolicyDecisionRequest)
      (decisionId : Uuid) :
      Request ext .recordPolicyDecision
        (Governance.recordPolicyDecision ext actorUserId marketId body decisionId).request
  | transitionMarket (actorUserId marketId : Uuid) (body : Governance.TransitionMarketRequest)
      (eventId : Uuid) :
      Request ext .transitionMarket
        (Governance.transitionMarket ext actorUserId marketId body eventId).request
  | createStakeIntent (userId marketId : Uuid) (idempotencyHeader : Option String)
      (body : Stakes.CreateStakeIntentRequest) (intentId : Uuid) :
      Request ext .createStakeIntent
        (Stakes.createStakeIntent ext.sha256 userId marketId idempotencyHeader body intentId).request
  | getMarketIntent (actorUserId intentId : Uuid) :
      Request ext .getMarketIntent (Stakes.getMarketIntent actorUserId intentId).request
  | recordStakeSubmission (actorUserId intentId : Uuid) (txHash : String) :
      Request ext .recordStakeSubmission
        (Stakes.recordSubmission actorUserId intentId txHash).request
  | acceptPositionEvidence (marketId : Uuid) (body : Positions.AcceptPositionEvidenceRequest)
      (ids : Positions.PositionIds) :
      Request ext .acceptPositionEvidence
        (Positions.acceptPositionEvidence marketId body ids).request
  | createSettlementPlan (actorUserId marketId : Uuid) (body : Positions.CreateSettlementPlanRequest)
      (ids : Positions.PlanIds) :
      Request ext .createSettlementPlan
        (Positions.createSettlementPlan ext actorUserId marketId body ids).request
  | recordSettlementSubmission (itemId : Uuid) (transactionHash : String) :
      Request ext .recordSettlementSubmission
        (Settlement.recordSubmission itemId transactionHash).request
  | acceptSettlementEvidence (itemId : Uuid) (body : Settlement.SettlementEvidenceRequest)
      (ids : Settlement.SettlementIds) :
      Request ext .acceptSettlementEvidence
        (Settlement.acceptSettlementEvidence ext itemId body ids).request
  | environment (directory : Directory) (organizations : List Uuid) (pageants : List Pageant) :
      Request ext .environment (environment directory organizations pageants).request

/-- The result is a refusal. -/
def Refused : Result → Prop
  | .ok _ => False
  | .error _ => True

/-- A request for one of these operations. -/
def Requests (ext : External) (operations : List Operation) (p : Prog Database Row Site Result) : Prop :=
  ∃ operation ∈ operations, Request ext operation p

end CrownFi.Markets
