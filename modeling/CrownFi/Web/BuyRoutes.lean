import CrownFi.Web.TxIntents

/-!
# CrownFi.Web.BuyRoutes

The routes by which tickets and collectibles are bought in two requests
(`web/src/app/api/tickets`, `web/src/app/api/collectibles`): `prepare-buy`
builds the payment and keeps an intent, `confirm-buy` consumes the intent,
submits what the wallet has signed, mints, and records the sale.

A request is a **stage** between two of its awaited calls; a step goes from one
stage to the next. What the awaited calls answer is not decided here: it comes
with the step as its `Outcomes`, and every call can also fail, with or without
having had its effect, or find the server restarted. The two routes of each kind
differ in what is looked up, minted and recorded; the rest is written once.
-/

namespace CrownFi.Web

/-! ### The data -/

structure Fan where
  id : String
  walletAddress : Option String
  points : Nat
  deriving DecidableEq

structure Collectible where
  id : String
  metadataUri : String
  priceUsdc : Rat
  listingId : Option Nat
  deriving DecidableEq

structure Ticket where
  fanId : String
  eventName : String
  tier : String
  seat : String
  priceUsdc : Nat
  tokenId : String
  mintTx : String
  deriving DecidableEq

structure Purchase where
  fanId : String
  collectibleId : String
  priceUsdc : Rat
  tokenId : String
  mintTx : String
  deriving DecidableEq

/-- What is sold. -/
inductive Goods
  | ticket (tier : TicketTier) (seat : String)
  | collectible (collectible : Collectible)
  deriving DecidableEq

def Goods.isTicket : Goods → Bool
  | .ticket _ _ => true
  | .collectible _ => false

/-- A token minted, and the transaction it was minted for. -/
structure Minted where
  goods : Goods
  toAddress : String
  payment : TxHash
  deriving DecidableEq

/-- The server, its database and the chain, with two histories: `prepared` lists the transactions that
ticket intents were created for, `minted` the tokens. -/
structure State where
  clock : Nat
  intents : List TxIntent
  fans : List Fan
  collectibles : List Collectible
  tickets : List Ticket
  purchases : List Purchase
  sequence : String → Nat
  /-- Transactions that are pending or included. -/
  sent : List TxHash
  successful : List TxHash
  prepared : List TxHash
  minted : List Minted

/-- A restart forgets the intents. -/
def State.restarted (s : State) : State := { s with intents := [] }

inductive Response
  | ok
  | error (status : Nat) (code : String)
  /-- Status 500, with the message of what was thrown. -/
  | failed
  deriving DecidableEq

def invalidOrExpiredIntent : Response := .error 409 "invalid_or_expired_intent"

/-! ### Awaited calls -/

/-- How an awaited call ends; a call that fails may have had its effect. -/
inductive Outcome (α : Type)
  | answers (a : α)
  | throws (done : Bool)
  | restarts (done : Bool)
  deriving DecidableEq

def Outcome.done {α : Type} : Outcome α → Bool
  | .answers _ => true
  | .throws done | .restarts done => done

/-- The status of `sendTransaction`. -/
inductive SendStatus
  | pending
  | duplicate
  | tryAgainLater
  | error
  deriving DecidableEq

/-- The status of `getTransaction`. -/
inductive PollStatus
  | notFound
  | success
  | failed
  deriving DecidableEq

structure MintResult where
  tokenId : String
  txHash : String
  deriving DecidableEq

/-- What the awaited calls of a request answer. -/
structure Outcomes where
  lookup : Outcome Unit
  account : Outcome Unit
  prepare : Outcome Unit
  /-- The random identifier of an intent. -/
  intentId : String
  send : Outcome SendStatus
  /-- With so many further attempts left. -/
  poll : Nat → Outcome PollStatus
  mint : Outcome MintResult
  record : Outcome Unit
  reward : Outcome Unit

/-! ### `confirm-buy` -/

inductive Item
  | ticket (tier seat : String)
  | collectible (collectibleId : String)
  deriving DecidableEq

structure ConfirmBuy where
  item : Item
  fanId : String
  signedXdr : String
  intentId : String
  deriving DecidableEq

/-- A request whose fan, wallet and goods have been found. -/
structure Order where
  fanId : String
  wallet : String
  goods : Goods
  deriving DecidableEq

inductive Confirm
  | lookingUp (body : ConfirmBuy)
  | submitting (order : Order) (signedXdr : String) (txHash : TxHash)
  | polling (order : Order) (txHash : TxHash) (left : Nat)
  | minting (order : Order) (txHash : TxHash)
  | recording (order : Order) (mint : MintResult)
  | rewarding (fanId : String)
  | answered (response : Response)
  /-- The server has restarted. -/
  | lost
  deriving DecidableEq

def ConfirmBuy.missingFields (body : ConfirmBuy) : Bool :=
  body.fanId = "" || body.signedXdr = "" || body.intentId = "" ||
    match body.item with
    | .ticket tier _ => (tierListingId tier).isNone
    | .collectible collectibleId => collectibleId = ""

/-- `confirm-buy` up to its first awaited call. -/
def confirmBuy (body : ConfirmBuy) : Confirm :=
  if body.missingFields then .answered (.error 400 "missing_fields") else .lookingUp body

def State.fan (s : State) (id : String) : Option Fan := s.fans.find? (·.id = id)

def State.collectible (s : State) (id : String) : Option Collectible := s.collectibles.find? (·.id = id)

/-- The goods of a request. -/
def State.goods (s : State) : Item → Option Goods
  | .ticket tier seat => (ticketTier tier).map fun t => .ticket t (if seat = "" then "Unassigned" else seat)
  | .collectible collectibleId => (s.collectible collectibleId).map .collectible

def Item.notFoundCode : Item → String
  | .ticket _ _ => "fan_not_found"
  | .collectible _ => "not_found"

/-- The lookups of a confirmation. -/
def State.order (s : State) (body : ConfirmBuy) : Except Response Order :=
  match s.fan body.fanId, s.goods body.item with
  | some fan, some goods =>
      match fan.walletAddress.filter (· ≠ "") with
      | some wallet => .ok ⟨fan.id, wallet, goods⟩
      | none => .error (.error 400 "no_wallet")
  | _, _ => .error (.error 404 body.item.notFoundCode)

/-- The checks of an intent against the request. -/
def TxIntent.isFor (intent : TxIntent) (order : Order) : Bool :=
  match intent.kind, order.goods with
  | .ticketBuy fanId tier _, .ticket t _ => fanId = order.fanId && tier = t.name
  | .collectibleBuy fanId collectibleId _, .collectible c => fanId = order.fanId && collectibleId = c.id
  | _, _ => false

/-- The step after an awaited call: on to the next stage, or to the handler of exceptions. -/
def Outcome.step {α : Type} (o : Outcome α) (next : α → Confirm) (s : State) : Confirm × State :=
  match o with
  | .answers a => (next a, s)
  | .throws _ => (.answered .failed, s)
  | .restarts _ => (.lost, s.restarted)

/-- The intent of a confirmation, consumed. -/
def consumeFor (body : ConfirmBuy) (order : Order) (s : State) : Confirm × State :=
  let s' := { s with intents := withoutIntent body.intentId s.intents }
  match (liveIntent body.intentId s.clock s.intents).filter (·.isFor order) with
  | some intent => (.submitting order body.signedXdr intent.txHash, s')
  | none => (.answered invalidOrExpiredIntent, s')

def lookUp (o : Outcomes) (body : ConfirmBuy) (s : State) : Confirm × State :=
  match o.lookup with
  | .answers _ =>
      match s.order body with
      | .ok order => consumeFor body order s
      | .error response => (.answered response, s)
  | .throws _ => (.answered .failed, s)
  | .restarts _ => (.lost, s.restarted)

/-- Whether the network has taken the transaction over. -/
def accepted : Outcome SendStatus → Bool
  | .answers .pending | .answers .duplicate => true
  | .answers _ => false
  | .throws done | .restarts done => done

/-- `submitSignedXdr` up to the status of the submission. -/
def submitSignedXdr (net : Network) (o : Outcomes) (order : Order) (signedXdr : String) (txHash : TxHash)
    (s : State) : Confirm × State :=
  match net.fromXDR signedXdr with
  | none => (.answered .failed, s)
  | some tx =>
      if tx.source ≠ order.wallet then (.answered .failed, s)
      else if net.hash tx ≠ txHash then (.answered .failed, s)
      else
        o.send.step (fun status => if status = .error then .answered .failed else .polling order txHash 30)
          { s with sent := if accepted o.send then txHash :: s.sent else s.sent }

/-- One attempt of the loop of `submitSignedXdr`. -/
def pollTransaction (o : Outcomes) (order : Order) (txHash : TxHash) (left : Nat) (s : State) :
    Confirm × State :=
  (o.poll left).step (fun
    | .success => .minting order txHash
    | .failed => .answered .failed
    | .notFound =>
        match left with
        | 0 => .answered .failed
        | left + 1 => .polling order txHash left) s

/-- `mintTicket` and `mintCollectible`. -/
def mintGoods (o : Outcomes) (order : Order) (txHash : TxHash) (s : State) : Confirm × State :=
  o.mint.step (.recording order)
    (if o.mint.done then { s with minted := s.minted ++ [⟨order.goods, order.wallet, txHash⟩] } else s)

/-- The row of a sale. -/
def State.sold (s : State) (order : Order) (mint : MintResult) : State :=
  match order.goods with
  | .ticket tier seat =>
      { s with
        tickets := s.tickets ++
          [⟨order.fanId, "Coronation Night 2026", tier.name, seat, tier.priceUsdc, mint.tokenId,
            mint.txHash⟩] }
  | .collectible c =>
      { s with
        purchases := s.purchases ++ [⟨order.fanId, c.id, c.priceUsdc, mint.tokenId, mint.txHash⟩] }

/-- `db.ticket.create` and `db.purchase.create`. -/
def recordSale (o : Outcomes) (order : Order) (mint : MintResult) (s : State) : Confirm × State :=
  o.record.step (fun _ =>
      match order.goods with
      | .ticket _ _ => .answered .ok
      | .collectible _ => .rewarding order.fanId)
    (if o.record.done then s.sold order mint else s)

/-- The loyalty points of a purchase. -/
def State.rewarded (s : State) (fanId : String) : State :=
  { s with fans := s.fans.map fun f => if f.id = fanId then { f with points := f.points + 10 } else f }

def rewardFan (o : Outcomes) (fanId : String) (s : State) : Confirm × State :=
  o.reward.step (fun _ => .answered .ok) (if o.reward.done then s.rewarded fanId else s)

/-- One step of a confirmation. -/
def Confirm.advance (net : Network) (o : Outcomes) : Confirm → State → Confirm × State
  | .lookingUp body, s => lookUp o body s
  | .submitting order signedXdr txHash, s => submitSignedXdr net o order signedXdr txHash s
  | .polling order txHash left, s => pollTransaction o order txHash left s
  | .minting order txHash, s => mintGoods o order txHash s
  | .recording order mint, s => recordSale o order mint s
  | .rewarding fanId, s => rewardFan o fanId s
  | .answered response, s => (.answered response, s)
  | .lost, s => (.lost, s)

/-! ### `prepare-buy` -/

structure Mode where
  /-- `STELLAR_MODE` is `live`. -/
  live : Bool
  production : Bool

/-- The body of a preparation, its address trimmed and its method in lower case. -/
structure PrepareBuy where
  item : Item
  fanId : String
  buyerAddress : String
  paymentMethod : String
  deriving DecidableEq

/-- A payment to be built; only a contract call is simulated. -/
structure Preparation where
  kind : IntentKind
  buyerAddress : String
  operations : List Operation
  simulated : Bool
  deriving DecidableEq

inductive Prepare
  | lookingUp (body : PrepareBuy)
  | fetchingAccount (preparation : Preparation)
  | simulating (preparation : Preparation) (tx : Transaction)
  | answered (response : Response)
  deriving DecidableEq

/-- The checks that both routes make before they build, for goods on the listing. -/
def prepareListed (net : Network) (body : PrepareBuy) (kind : IntentKind) (listingId : Nat) (priceUsdc : Rat)
    (payeeAddress : String) : Prepare :=
  if !body.buyerAddress.startsWith "G" then .answered (.error 400 "connect_wallet")
  else if body.paymentMethod = "xlm" then
    .fetchingAccount ⟨kind, body.buyerAddress, xlmOperations net (priceUsdc * 10) payeeAddress, false⟩
  else .fetchingAccount ⟨kind, body.buyerAddress, buyOperations body.buyerAddress listingId, true⟩

/-- What the routes answer when no payment is needed. -/
def mockResponse (mode : Mode) : Response :=
  if mode.production then .error 403 "mock_disabled_in_production" else .ok

/-- `prepare-buy` up to its first awaited call. -/
def prepareBuy (net : Network) (mode : Mode) (body : PrepareBuy) : Prepare :=
  match body.item with
  | .collectible _ => .lookingUp body
  | .ticket tier _ =>
      match ticketTier tier with
      | none => .answered (.error 400 "unknown_tier")
      | some t =>
          if !mode.live then .answered (mockResponse mode)
          else prepareListed net body (.ticketBuy body.fanId t.name t.listingId) t.listingId
            t.priceUsdc net.eventTreasuryPayout

/-- `prepare-buy` of a collectible, once it has been looked up. -/
def prepareCollectible (net : Network) (mode : Mode) (body : PrepareBuy) (found : Option Collectible) :
    Prepare :=
  match found with
  | none => .answered (.error 404 "not_found")
  | some c =>
      if !mode.live then .answered (mockResponse mode)
      else
        match c.listingId with
        | none => .answered (.error 409 "not_listed")
        | some listingId =>
            prepareListed net body (.collectibleBuy body.fanId c.id listingId) listingId c.priceUsdc
              net.demoContestantPayout

def IntentKind.isTicket : IntentKind → Bool
  | .ticketBuy .. => true
  | .collectibleBuy .. | .roundClose _ => false

/-- The end of a preparation: the intent is stored. -/
def State.keepIntent (net : Network) (s : State) (id : String) (preparation : Preparation)
    (tx : Transaction) : State :=
  { s with
    intents := createTxIntent id s.clock preparation.kind preparation.buyerAddress (net.hash tx) s.intents
    prepared := if preparation.kind.isTicket then net.hash tx :: s.prepared else s.prepared }

/-- One step of a preparation. -/
def Prepare.advance (net : Network) (mode : Mode) (o : Outcomes) : Prepare → State → Prepare × State
  | .lookingUp body, s =>
      match o.lookup, body.item with
      | .answers _, .collectible collectibleId =>
          (prepareCollectible net mode body (s.collectible collectibleId), s)
      | _, _ => (.answered .failed, s)
  | .fetchingAccount preparation, s =>
      match o.account with
      | .answers _ =>
          let tx := buildTransaction preparation.buyerAddress (s.sequence preparation.buyerAddress) s.clock
            preparation.operations
          if preparation.simulated then (.simulating preparation tx, s)
          else (.answered .ok, s.keepIntent net o.intentId preparation tx)
      | _ => (.answered .failed, s)
  | .simulating preparation tx, s =>
      match o.prepare with
      | .answers _ => (.answered .ok, s.keepIntent net o.intentId preparation tx)
      | _ => (.answered .failed, s)
  | .answered response, s => (.answered response, s)

end CrownFi.Web
