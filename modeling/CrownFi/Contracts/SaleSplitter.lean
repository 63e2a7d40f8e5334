import CrownFi.Lib.Fallible
import CrownFi.Lib.Payments
import CrownFi.PredictionContract.Contract

/-!
# CrownFi.Contracts.SaleSplitter

The **primary-sale contract** (`contracts/sale-splitter`), entry point by entry point. The admin lists
an item with its price and the contestant who is paid; a buyer names a listing and pays what it says,
to the contestant and, as a fee, to the platform.

* The ledger's balances are kept for every token and holder. The contract moves one token, the one it
  was constructed with; the movements that go through its entry points are exact or fail.
* The constructor runs once, when the contract is deployed, so every key of the configuration is there.
* The workspace is built with overflow checks: a product that does not fit fails the invocation.
-/

namespace CrownFi.Contracts.SaleSplitter

open Lib
open PredictionContract (Address Env i128Min i128Max)

/-- How an invocation fails. -/
inductive Failure
  | panic (message : String)
  | unauthorized
  | overflow
  | insufficientFunds
  deriving DecidableEq, Repr

def maxBps : Nat := 10000

structure Listing where
  price : Int
  contestant : Address
  active : Bool
  deriving DecidableEq, Repr

/-- `("sale", listing_id)` with the buyer and what the contestant got. -/
inductive Event
  | sale (listingId : Nat) (buyer : Address) (toContestant : Int)
  deriving DecidableEq, Repr

/-- A holder of a token. -/
abbrev Holding := Address × Address

/-- The contract's storage, its event log (oldest first) and the balances of all tokens. -/
structure World where
  admin : Address
  usdc : Address
  platform : Address
  platformBps : Nat
  paused : Bool
  listing : Nat → Option Listing
  events : List Event
  balance : Holding → Int

def requireAuth (e : Env) (a : Address) : Except Failure Unit := failIf (e.auth a = false) .unauthorized

/-- A result of checked `i128` arithmetic. -/
def i128 (x : Int) : Except Failure Int := do
  failIf (x < i128Min ∨ i128Max < x) .overflow
  return x

namespace World

def publish (w : World) (ev : Event) : World := { w with events := w.events ++ [ev] }

/-- `token::Client::transfer`: exact, and refused when the source does not have the amount. -/
def transfer (w : World) (src dst : Address) (amount : Int) : Except Failure World := do
  failIf (amount < 0 ∨ w.balance (w.usdc, src) < amount) .insufficientFunds
  return { w with balance := Movement.apply ⟨some (w.usdc, src), some (w.usdc, dst), amount⟩ w.balance }

end World

/-! ### Entry points -/

def construct (admin usdc platform : Address) (platformBps : Nat) (balance : Holding → Int) :
    Except Failure World := do
  failIf (maxBps < platformBps) (.panic "platform bps out of range")
  return { admin, usdc, platform, platformBps, paused := false, listing := fun _ => none, events := [], balance }

def setListing (e : Env) (w : World) (listingId : Nat) (price : Int) (contestant : Address)
    (active : Bool) : Except Failure World := do
  requireAuth e w.admin
  failIf (price ≤ 0) (.panic "price must be positive")
  return { w with listing := fun i => if i = listingId then some { price, contestant, active } else w.listing i }

def setPaused (e : Env) (w : World) (paused : Bool) : Except Failure World := do
  requireAuth e w.admin
  return { w with paused }

def buy (e : Env) (w : World) (buyer : Address) (listingId : Nat) : Except Failure (World × Int) := do
  requireAuth e buyer
  failIf (w.paused = true) (.panic "sales paused")
  let listing ← okOr (w.listing listingId) (.panic "no such listing")
  failIf (listing.active = false) (.panic "listing inactive")
  let product ← i128 (listing.price * w.platformBps)
  let fee := product.tdiv 10000
  let toContestant ← i128 (listing.price - fee)
  let w ← w.transfer buyer listing.contestant toContestant
  let w ← w.transfer buyer w.platform fee
  return (w.publish (.sale listingId buyer toContestant), toContestant)

/-! ### Invocations -/

/-- What can change the world: an entry point, or a movement of some token that does not go through the
contract, whoever asked for it (transfers, issued and destroyed money). -/
inductive Call
  | setListing (listingId : Nat) (price : Int) (contestant : Address) (active : Bool)
  | setPaused (paused : Bool)
  | buy (buyer : Address) (listingId : Nat)
  | token (m : Movement Holding)
  deriving DecidableEq, Repr

/-- The arguments are of their machine types. -/
def Call.Typed : Call → Prop
  | .setListing _ price _ _ => i128Min ≤ price ∧ price ≤ i128Max
  | _ => True

def exec (e : Env) (w : World) : Call → Except Failure World
  | .setListing listingId price contestant active => setListing e w listingId price contestant active
  | .setPaused paused => setPaused e w paused
  | .buy buyer listingId => (·.1) <$> buy e w buyer listingId
  | .token m => do
      failIf (¬ m.Covered w.balance) .insufficientFunds
      return { w with balance := m.apply w.balance }

/-- One successful invocation. -/
def Step (w : World) (l : Env × Call) (w' : World) : Prop :=
  l.2.Typed ∧ exec l.1 w l.2 = .ok w'

end CrownFi.Contracts.SaleSplitter
