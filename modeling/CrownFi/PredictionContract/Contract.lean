import CrownFi.Lib.Fallible

/-!
# CrownFi.PredictionContract.Contract

The **pari-mutuel prediction-market contract** (`contracts/prediction-market`),
entry point by entry point.

* Storage is one record of maps. A key that was never written reads as the
  default of the source's `unwrap_or`, so pools and positions are total maps with
  default `0` and claim flags default to `false`; a market may be missing. Time
  to live has no effect on values and is left out.
* `u32` and `u64` values are naturals, `i128` values integers; the checked
  operations fail exactly where the machine operations do.
* A panic reverts the transaction, so an entry point is a function into `Except`
  and the caller keeps the old world on failure.
* The token is the standard one: a transfer moves exactly the amount or fails.
-/

namespace CrownFi.PredictionContract

open Lib

/-- A ledger address; the contract only compares addresses. -/
abbrev Address := Nat

/-- `BytesN<32>`. -/
abbrev Hash := BitVec 256

inductive MarketStatus
  | «open»
  | resolutionPending
  | resolved
  | cancelled
  deriving DecidableEq, Repr

inductive Error
  | notInitialized
  | alreadyInitialized
  | paused
  | marketNotFound
  | invalidOption
  | invalidAmount
  | marketClosed
  | marketStillOpen
  | invalidStatus
  | alreadyClaimed
  | nothingToClaim
  | notCancelled
  | invalidParams
  | noWinningStake
  | nothingToUnstake
  | resolutionDelayActive
  | arithmetic
  deriving DecidableEq, Repr

/-- How an invocation fails: a panic of the contract, a missing authorisation, or
the token refusing a transfer. -/
inductive Failure
  | contract (e : Error)
  | unauthorized
  | insufficientFunds
  deriving DecidableEq, Repr

def bpsDenominator : Int := 10000
def maxFeeBps : Nat := 1000
def maxOptions : Nat := 32
def u32Max : Nat := 2 ^ 32 - 1
def u64Max : Nat := 2 ^ 64 - 1
def i128Min : Int := -2 ^ 127
def i128Max : Int := 2 ^ 127 - 1

structure MarketInfo where
  question : String
  category : String
  numOptions : Nat
  closeTime : Nat
  resolutionDelay : Nat
  feeBps : Nat
  resolver : Address
  treasury : Address
  status : MarketStatus
  winningOption : Nat
  resultHash : Hash
  proposedAt : Nat
  totalPool : Int
  claimedGross : Int
  claimedWinningStake : Int
  deriving DecidableEq, Repr

/-- The events the entry points publish, with their topics and data. -/
inductive Event
  | init (admin : Address)
  | create (marketId numOptions : Nat)
  | stake (marketId : Nat) (from' : Address) (option : Nat) (amount : Int)
  | unstake (marketId : Nat) (from' : Address) (option : Nat) (position : Int)
  | proposal (marketId winningOption : Nat) (resultHash : Hash)
  | finalize (marketId winningOption : Nat) (resultHash : Hash)
  | cancel (marketId : Nat)
  | claim (marketId : Nat) (from' : Address) (gross fee net : Int)
  | refund (marketId : Nat) (from' : Address) (total : Int)
  deriving DecidableEq, Repr

/-- The contract's storage, its event log (newest first) and the token's balances. -/
structure World where
  self : Address
  balance : Address → Int
  admin : Option Address
  token : Option Address
  paused : Bool
  marketCount : Nat
  market : Nat → Option MarketInfo
  pool : Nat → Nat → Int
  position : Nat → Address → Nat → Int
  claimed : Nat → Address → Bool
  events : List Event

/-- What an invocation sees of the ledger: the time, and who authorised it. -/
structure Env where
  timestamp : Nat
  auth : Address → Bool

def requireAuth (e : Env) (a : Address) : Except Failure Unit :=
  failIf (e.auth a = false) .unauthorized

def panicIf (c : Prop) [Decidable c] (err : Error) : Except Failure Unit :=
  failIf c (.contract err)

def i128 (x : Int) : Except Failure Int := do
  panicIf (x < i128Min ∨ i128Max < x) .arithmetic
  return x

def checkedAdd (left right : Int) : Except Failure Int := i128 (left + right)
def checkedSub (left right : Int) : Except Failure Int := i128 (left - right)
def checkedMul (left right : Int) : Except Failure Int := i128 (left * right)

namespace World

def readAdmin (w : World) : Except Failure Address := okOr w.admin (.contract .notInitialized)

def requireAdmin (e : Env) (w : World) : Except Failure Unit := do
  let admin ← w.readAdmin
  requireAuth e admin

def readMarket (w : World) (marketId : Nat) : Except Failure MarketInfo :=
  okOr (w.market marketId) (.contract .marketNotFound)

def writeMarket (w : World) (marketId : Nat) (info : MarketInfo) : World :=
  { w with market := fun m => if m = marketId then some info else w.market m }

def writePool (w : World) (marketId option : Nat) (amount : Int) : World :=
  { w with pool := fun m o => if m = marketId ∧ o = option then amount else w.pool m o }

def writePosition (w : World) (marketId : Nat) (user : Address) (option : Nat) (amount : Int) :
    World :=
  { w with position := fun m u o =>
      if m = marketId ∧ u = user ∧ o = option then amount else w.position m u o }

def writeClaimed (w : World) (marketId : Nat) (user : Address) : World :=
  { w with claimed := fun m u => if m = marketId ∧ u = user then true else w.claimed m u }

def publish (w : World) (ev : Event) : World := { w with events := ev :: w.events }

/-- Debit `src`, then credit `dst`; a transfer to oneself changes nothing. -/
def moveBalance (w : World) (src dst : Address) (amount : Int) : World :=
  let debited := fun a => if a = src then w.balance a - amount else w.balance a
  { w with balance := fun a => if a = dst then debited a + amount else debited a }

/-- The token's own transfer: exact, and refused when the source lacks the amount. -/
def tokenTransfer (w : World) (src dst : Address) (amount : Int) : Except Failure World := do
  failIf (amount < 0 ∨ w.balance src < amount) .insufficientFunds
  return w.moveBalance src dst amount

/-- `token_client(&e).transfer(..)`: the token address must be set. -/
def transfer (w : World) (src dst : Address) (amount : Int) : Except Failure World := do
  let _ ← okOr w.token (.contract .notInitialized)
  w.tokenTransfer src dst amount

end World

/-! ### Entry points -/

def initializeContract (w : World) (admin token : Address) : Except Failure World := do
  panicIf (w.admin ≠ none) .alreadyInitialized
  return { w with admin := some admin, token := some token, paused := false, marketCount := 0 }
    |>.publish (.init admin)

def createMarket (e : Env) (w : World) (question category : String)
    (numOptions closeTime resolutionDelay feeBps : Nat) (resolver treasury : Address) :
    Except Failure (World × Nat) := do
  w.requireAdmin e
  panicIf (numOptions < 2 ∨ maxOptions < numOptions ∨ closeTime ≤ e.timestamp ∨ maxFeeBps < feeBps)
    .invalidParams
  panicIf (u32Max < w.marketCount + 1) .arithmetic
  let marketId := w.marketCount + 1
  let market : MarketInfo :=
    { question, category, numOptions, closeTime, resolutionDelay, feeBps, resolver, treasury
      status := .open
      winningOption := 0
      resultHash := 0
      proposedAt := 0
      totalPool := 0
      claimedGross := 0
      claimedWinningStake := 0 }
  let w := w.writeMarket marketId market
  return ({ w with marketCount := marketId }.publish (.create marketId numOptions), marketId)

def stake (e : Env) (w : World) (from' : Address) (marketId option : Nat) (amount : Int) :
    Except Failure World := do
  requireAuth e from'
  panicIf (w.paused = true) .paused
  panicIf (amount ≤ 0) .invalidAmount
  let market ← w.readMarket marketId
  panicIf (market.status ≠ .open ∨ market.closeTime ≤ e.timestamp) .marketClosed
  panicIf (market.numOptions ≤ option) .invalidOption
  let w ← w.transfer from' w.self amount
  let optionPool ← checkedAdd (w.pool marketId option) amount
  let position ← checkedAdd (w.position marketId from' option) amount
  let totalPool ← checkedAdd market.totalPool amount
  return w
    |>.writePool marketId option optionPool
    |>.writePosition marketId from' option position
    |>.writeMarket marketId { market with totalPool }
    |>.publish (.stake marketId from' option amount)

def unstake (e : Env) (w : World) (from' : Address) (marketId option : Nat) :
    Except Failure (World × Int) := do
  requireAuth e from'
  let market ← w.readMarket marketId
  panicIf (market.status ≠ .open ∨ market.closeTime ≤ e.timestamp) .marketClosed
  panicIf (market.numOptions ≤ option) .invalidOption
  let position := w.position marketId from' option
  panicIf (position ≤ 0) .nothingToUnstake
  let optionPool ← checkedSub (w.pool marketId option) position
  let totalPool ← checkedSub market.totalPool position
  let w := w
    |>.writePool marketId option optionPool
    |>.writePosition marketId from' option 0
    |>.writeMarket marketId { market with totalPool }
  let w ← w.transfer w.self from' position
  return (w.publish (.unstake marketId from' option position), position)

def proposeResolution (e : Env) (w : World) (marketId winningOption : Nat) (resultHash : Hash) :
    Except Failure World := do
  let market ← w.readMarket marketId
  requireAuth e market.resolver
  panicIf (market.status ≠ .open) .invalidStatus
  panicIf (e.timestamp < market.closeTime) .marketStillOpen
  panicIf (market.numOptions ≤ winningOption) .invalidOption
  panicIf (w.pool marketId winningOption ≤ 0) .noWinningStake
  return w
    |>.writeMarket marketId
      { market with status := .resolutionPending, winningOption, resultHash,
                    proposedAt := e.timestamp }
    |>.publish (.proposal marketId winningOption resultHash)

def finalizeResolution (e : Env) (w : World) (marketId : Nat) : Except Failure World := do
  let market ← w.readMarket marketId
  requireAuth e market.resolver
  panicIf (market.status ≠ .resolutionPending) .invalidStatus
  panicIf (u64Max < market.proposedAt + market.resolutionDelay) .arithmetic
  panicIf (e.timestamp < market.proposedAt + market.resolutionDelay) .resolutionDelayActive
  return w
    |>.writeMarket marketId { market with status := .resolved }
    |>.publish (.finalize marketId market.winningOption market.resultHash)

def cancelMarket (e : Env) (w : World) (marketId : Nat) : Except Failure World := do
  w.requireAdmin e
  let market ← w.readMarket marketId
  panicIf (market.status = .resolved ∨ market.status = .cancelled) .invalidStatus
  return w
    |>.writeMarket marketId { market with status := .cancelled }
    |>.publish (.cancel marketId)

/-- The gross payout of `claim`: the claim that completes the winning stake takes
what is left, every other one its rounded-down proportion. -/
def claimGross (market : MarketInfo) (stake winningPool nextClaimedStake : Int) :
    Except Failure Int :=
  if nextClaimedStake = winningPool then
    checkedSub market.totalPool market.claimedGross
  else do
    let product ← checkedMul stake market.totalPool
    return product.tdiv winningPool

/-- The transfer of a fee to the treasury; `claim` makes none when the fee is zero. -/
def payFee (w : World) (treasury : Address) (fee : Int) : Except Failure World :=
  if 0 < fee then w.transfer w.self treasury fee else .ok w

def claim (e : Env) (w : World) (from' : Address) (marketId : Nat) :
    Except Failure (World × Int) := do
  requireAuth e from'
  let market ← w.readMarket marketId
  panicIf (market.status ≠ .resolved) .invalidStatus
  panicIf (w.claimed marketId from' = true) .alreadyClaimed
  let stake := w.position marketId from' market.winningOption
  panicIf (stake ≤ 0) .nothingToClaim
  let winningPool := w.pool marketId market.winningOption
  panicIf (winningPool ≤ 0) .noWinningStake
  let nextClaimedStake ← checkedAdd market.claimedWinningStake stake
  let gross ← claimGross market stake winningPool nextClaimedStake
  let profit ← checkedSub gross stake
  let feeProduct ← checkedMul profit market.feeBps
  let fee := feeProduct.tdiv bpsDenominator
  let net ← checkedSub gross fee
  let claimedGross ← checkedAdd market.claimedGross gross
  let w := w
    |>.writeClaimed marketId from'
    |>.writeMarket marketId { market with claimedWinningStake := nextClaimedStake, claimedGross }
  let w ← payFee w market.treasury fee
  let w ← w.transfer w.self from' net
  return (w.publish (.claim marketId from' gross fee net), net)

/-- The loop of `refund`: the user's positions on options `0 .. n`, added up in order. -/
def refundTotal (w : World) (user : Address) (marketId : Nat) : Nat → Except Failure Int
  | 0 => .ok 0
  | n + 1 => do
    let total ← refundTotal w user marketId n
    checkedAdd total (w.position marketId user n)

def refund (e : Env) (w : World) (from' : Address) (marketId : Nat) :
    Except Failure (World × Int) := do
  requireAuth e from'
  let market ← w.readMarket marketId
  panicIf (market.status ≠ .cancelled) .notCancelled
  panicIf (w.claimed marketId from' = true) .alreadyClaimed
  let total ← refundTotal w from' marketId market.numOptions
  panicIf (total ≤ 0) .nothingToClaim
  let w := w.writeClaimed marketId from'
  let w ← w.transfer w.self from' total
  return (w.publish (.refund marketId from' total), total)

def pauseStaking (e : Env) (w : World) : Except Failure World := do
  w.requireAdmin e
  return { w with paused := true }

def unpauseStaking (e : Env) (w : World) : Except Failure World := do
  w.requireAdmin e
  return { w with paused := false }

def transferAdmin (e : Env) (w : World) (newAdmin : Address) : Except Failure World := do
  w.requireAdmin e
  return { w with admin := some newAdmin }

/-! ### Invocations -/

/-- An invocation that can change the world: an entry point of the contract, or a
token transfer between accounts that does not go through it. -/
inductive Call
  | createMarket (question category : String)
      (numOptions closeTime resolutionDelay feeBps : Nat) (resolver treasury : Address)
  | stake (from' : Address) (marketId option : Nat) (amount : Int)
  | unstake (from' : Address) (marketId option : Nat)
  | proposeResolution (marketId winningOption : Nat) (resultHash : Hash)
  | finalizeResolution (marketId : Nat)
  | cancelMarket (marketId : Nat)
  | claim (from' : Address) (marketId : Nat)
  | refund (from' : Address) (marketId : Nat)
  | pauseStaking
  | unpauseStaking
  | transferAdmin (newAdmin : Address)
  | initializeContract (admin token : Address)
  | tokenTransfer (src dst : Address) (amount : Int)
  deriving DecidableEq, Repr

def exec (e : Env) (w : World) : Call → Except Failure World
  | .createMarket question category numOptions closeTime resolutionDelay feeBps resolver treasury =>
      (·.1) <$> createMarket e w question category numOptions closeTime resolutionDelay feeBps
        resolver treasury
  | .stake from' marketId option amount => stake e w from' marketId option amount
  | .unstake from' marketId option => (·.1) <$> unstake e w from' marketId option
  | .proposeResolution marketId winningOption resultHash =>
      proposeResolution e w marketId winningOption resultHash
  | .finalizeResolution marketId => finalizeResolution e w marketId
  | .cancelMarket marketId => cancelMarket e w marketId
  | .claim from' marketId => (·.1) <$> claim e w from' marketId
  | .refund from' marketId => (·.1) <$> refund e w from' marketId
  | .pauseStaking => pauseStaking e w
  | .unpauseStaking => unpauseStaking e w
  | .transferAdmin newAdmin => transferAdmin e w newAdmin
  | .initializeContract admin token => initializeContract w admin token
  | .tokenTransfer src dst amount => do
      requireAuth e src
      w.tokenTransfer src dst amount

end CrownFi.PredictionContract
