import Mathlib.Algebra.Order.Ring.Int
import Mathlib.Algebra.Order.Ring.Rat
import Mathlib.Data.Rat.Init

/-!
# CrownFi.Web.TxIntents

What the routes of the web application (`web/src/app/api`) share where a wallet
signs: ticket tiers (`lib/tiers.ts`), the transactions that are built for a
wallet (`lib/stellar.ts`), and **transaction intents** (`lib/txIntents.ts`), by
which a confirmation finds what has been prepared. Intents live in the memory of
the server, for ten minutes, and **looking one up deletes it**.

The network is a parameter: how a transaction is hashed, and which transaction a
signed envelope holds.
-/

namespace CrownFi.Web

/-! ### Ticket tiers -/

structure TicketTier where
  name : String
  listingId : Nat
  priceUsdc : Nat
  deriving DecidableEq

/-- `TICKET_TIERS`. -/
def ticketTiers : List TicketTier :=
  [⟨"Diamond", 103, 200⟩, ⟨"Platinum", 104, 150⟩, ⟨"Gold", 102, 100⟩, ⟨"Silver", 101, 50⟩]

def ticketTier (tier : String) : Option TicketTier := ticketTiers.find? (·.name = tier)

def tierListingId (tier : String) : Option Nat := (ticketTier tier).map (·.listingId)

/-! ### Transactions -/

/-- A transaction's hash. Its 64 digits are never empty, so the source's tests for one succeed. -/
abbrev TxHash := BitVec 256

inductive Operation
  | buy (buyer : String) (listingId : Nat)
  | payment (destination : String) (amount : Rat)
  | publish (round : Nat) (merkleRoot tallyHash : String) (totalVotes : Nat)
  deriving DecidableEq

/-- A transaction, by what its hash is computed from. `maxTime` is in seconds. -/
structure Transaction where
  source : String
  sequence : Nat
  operations : List Operation
  maxTime : Nat
  deriving DecidableEq

structure Network where
  hash : Transaction → TxHash
  /-- `TransactionBuilder.fromXDR`. -/
  fromXDR : String → Option Transaction
  demoContestantPayout : String
  eventTreasuryPayout : String

/-- `new TransactionBuilder(account).….setTimeout(180).build()`. -/
def buildTransaction (source : String) (sequence now : Nat) (operations : List Operation) : Transaction where
  source
  sequence := sequence + 1
  operations
  maxTime := now / 1000 + 180

def buyOperations (buyerAddress : String) (listingId : Nat) : List Operation :=
  [.buy buyerAddress listingId]

/-- The operations of `buildXlmBuyTx`: the platform keeps 5 %. -/
def xlmOperations (net : Network) (priceXlm : Rat) (payeeAddress : String) : List Operation :=
  let feeBps := 500
  let feeAmount := priceXlm * feeBps / 10000
  let toPayee := priceXlm - feeAmount
  [.payment payeeAddress toPayee, .payment net.demoContestantPayout feeAmount]

/-! ### Intents -/

inductive IntentKind
  | ticketBuy (fanId tier : String) (listingId : Nat)
  | collectibleBuy (fanId collectibleId : String) (listingId : Nat)
  | roundClose (roundId : String)
  deriving DecidableEq

structure TxIntent where
  id : String
  kind : IntentKind
  txHash : TxHash
  expectedSource : String
  expiresAt : Nat
  deriving DecidableEq

/-- `INTENT_TTL_MS`. -/
def intentTtlMs : Nat := 10 * 60 * 1000

/-- `createTxIntent`, under the random identifier `id`. -/
def createTxIntent (id : String) (now : Nat) (kind : IntentKind) (expectedSource : String) (txHash : TxHash)
    (intents : List TxIntent) : List TxIntent :=
  intents.filter (fun i => i.id ≠ id) ++ [⟨id, kind, txHash, expectedSource, now + intentTtlMs⟩]

def findIntent (id : String) (intents : List TxIntent) : Option TxIntent := intents.find? (·.id = id)

/-- What `consumeTxIntent` leaves in the store. -/
def withoutIntent (id : String) (intents : List TxIntent) : List TxIntent :=
  intents.filter fun i => i.id ≠ id

/-- What `consumeTxIntent` returns. -/
def liveIntent (id : String) (now : Nat) (intents : List TxIntent) : Option TxIntent :=
  (findIntent id intents).filter fun i => now ≤ i.expiresAt

def consumeTxIntent (id : String) (now : Nat) (intents : List TxIntent) : Option TxIntent × List TxIntent :=
  (liveIntent id now intents, withoutIntent id intents)

variable {id : String} {now : Nat} {intents : List TxIntent} {intent : TxIntent}

/-- A consumed intent is gone. -/
@[simp] theorem findIntent_withoutIntent : findIntent id (withoutIntent id intents) = none := by
  simp [findIntent, withoutIntent]

theorem liveIntent_eq_some : liveIntent id now intents = some intent ↔
    findIntent id intents = some intent ∧ now ≤ intent.expiresAt := by
  simp [liveIntent, Option.filter_eq_some_iff]

theorem liveIntent_of_find (h : findIntent id intents = none) : liveIntent id now intents = none := by
  simp [liveIntent, h]

end CrownFi.Web
