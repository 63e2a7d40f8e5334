import CrownFi.Access.Memberships
import CrownFi.Lib.Attribution
import CrownFi.Lib.Statements

/-!
# CrownFi.Access.Challenges

Signing in with a wallet (`identity.rs`): `create_wallet_challenge` stores the text that the wallet is
to sign, and `consume_wallet_challenge` takes it away and signs its user in, makes an account for them,
or links the wallet to the account they have.

A consumption is one transaction under READ COMMITTED. Its first statement is an update that matches the
challenge only as long as nobody has consumed it, and its last ones insert rows under the unique keys of
`stellar_accounts`. `now()` is the time at which the transaction began.

The audit rows are left out, as is what the handlers read back for their answers after the commit.
-/

namespace CrownFi.Access.Wallets

open Api Lib

/-! ### The tables -/

inductive Purpose
  | login
  | setup
  | link
  deriving DecidableEq, Repr

def Purpose.text : Purpose → String
  | .login => "login"
  | .setup => "setup"
  | .link => "link"

structure WalletAuthChallenge where
  id : Uuid
  address : String
  network : Network
  purpose : Purpose
  requestedUserId : Option Uuid
  message : String
  expiresAt : Int
  consumedAt : Option Int
  deriving DecidableEq, Repr

structure Database where
  clock : Int
  users : List User
  stellarAccounts : List StellarAccount
  challenges : List WalletAuthChallenge
  deriving DecidableEq, Repr

/-- What is locked: rows, and the unique keys of `stellar_accounts`. -/
inductive Row
  | challenge (id : Uuid)
  | user (id : Uuid)
  | account (id : Uuid)
  | address (network : Network) (address : String)
  | primary (userId : Uuid) (network : Network)
  deriving DecidableEq, Repr

def challengeTable : Table Database Row Uuid WalletAuthChallenge where
  rows := Database.challenges
  put db l := { db with challenges := l }
  key := WalletAuthChallenge.id
  row := .challenge
  rows_put _ _ := rfl

def accountTable : Table Database Row (Network × String) StellarAccount where
  rows := Database.stellarAccounts
  put db l := { db with stellarAccounts := l }
  key a := (a.network, a.address)
  row key := .address key.1 key.2
  rows_put _ _ := rfl

namespace Database

/-- The user that the address is registered for. -/
def registered (db : Database) (network : Network) (address : String) : Option Uuid :=
  (accountTable.find db (network, address)).map (·.userId)

/-- The number of a user's primary accounts on a network. -/
def primaries (db : Database) (userId : Uuid) (network : Network) : Nat :=
  db.stellarAccounts.countP fun a => a.userId = userId && a.network = network && a.isPrimary

end Database

/-! ### Requests -/

/-- No condition is put on a statement. -/
inductive Site
  | other
  deriving DecidableEq, Repr

inductive Response
  | challenge (challengeId : Uuid) (message : String) (expiresAt : Int)
  | walletAuth (userId : Uuid) (currentWallet : String)
  | done
  deriving DecidableEq, Repr

abbrev Result := Except ApiError Response

abbrev Handler := Tx Database Row Site Result

def Handler.request (h : Handler Response) : Prog Database Row Site Result := h fun r => .ret (.ok r)

def valid {α : Type} (e : Except ApiError α) : Handler α := Tx.ofExcept e .error

structure CreateChallengeRequest where
  address : String
  network : String
  purpose : String
  requestedUserId : Option Uuid
  origin : Option String
  deriving DecidableEq, Repr

structure ConsumeChallengeRequest where
  address : String
  network : String
  message : String
  requestedUserId : Option Uuid
  deriving DecidableEq, Repr

def validatePurpose (value : String) : Except ApiError Purpose :=
  let value := String.ofList (trimLower value)
  if value = "login" then .ok .login
  else if value = "link" then .ok .link
  else if value = "setup" then .ok .setup
  else .error (.invalidRequest "invalid_challenge_purpose")

def networkText : Network → String
  | .testnet => "testnet"
  | .«public» => "public"
  | .futurenet => "futurenet"
  | .standalone => "standalone"

/-- The last six characters. -/
def suffix (value : String) : String := String.ofList (value.toList.reverse.take 6).reverse

def ensureUserExists (userId : Uuid) : Handler PUnit := do
  let found ← Tx.select .other fun db => db.users.any (·.id = userId)
  Tx.require found (.error .notFound)

/-! ### Creating a challenge -/

/-- `origin`: trimmed, at most 300 characters, and a name if nothing is left. -/
def originText (origin : Option String) : String :=
  ((origin.map fun value => (trimChars value.toList).take 300).filter (· ≠ [])).elim "CrownFi" String.ofList

def challengeText (address : String) (network : Network) (purpose : Purpose) (challengeId : Uuid)
    (origin issued expires : String) : String :=
  "CrownFi account authorization\nAddress: " ++ address ++ "\nNetwork: " ++ networkText network ++
    "\nPurpose: " ++ purpose.text ++ "\nChallenge: " ++ challengeId.text ++ "\nOrigin: " ++ origin ++
    "\nIssued At: " ++ issued ++ "\nExpires At: " ++ expires

/-- The constraints of `wallet_auth_challenges` that the checks of the handler leave open. -/
def challengeViolation (c : WalletAuthChallenge) (db : Database) : Option Result :=
  if c.message.length < 32 ∨ 4000 < c.message.length then
    some (.error (mapDatabaseError .checkViolation))
  else if db.challenges.any (·.id = c.id) then some (.error (mapDatabaseError .uniqueViolation))
  else if c.requestedUserId.any fun userId => !db.users.any (·.id = userId) then
    some (.error (mapDatabaseError .foreignKeyViolation))
  else none

/-- The challenge that is issued now. `rfc3339` writes a time, if it can. -/
def storeChallenge (rfc3339 : Int → Option String) (address : String) (network : Network) (purpose : Purpose)
    (body : CreateChallengeRequest) (challengeId : Uuid) : Handler Response := do
  let now ← Tx.select .other (·.clock)
  let expiresAt := now + seconds 300
  let issued ← Tx.orElse (rfc3339 now) (.error .database)
  let expires ← Tx.orElse (rfc3339 expiresAt) (.error .database)
  let message := challengeText address network purpose challengeId (originText body.origin) issued expires
  let challenge : WalletAuthChallenge :=
    { id := challengeId, address, network, purpose, requestedUserId := body.requestedUserId, message
      expiresAt, consumedAt := none }
  Tx.insertRow .other challengeTable
    (⟨.challenge challengeId, .update⟩ :: body.requestedUserId.toList.map fun userId => ⟨.user userId, .keyShare⟩)
    (challengeViolation challenge) challenge
  Tx.commit
  return .challenge challengeId message expiresAt

/-- `challengeId` is the fresh `Uuid::new_v4()`. -/
def createWalletChallenge (site : Access.Site) (rfc3339 : Int → Option String) (body : CreateChallengeRequest)
    (challengeId : Uuid) : Handler Response := do
  let address ← valid (validateAddress body.address)
  let network ← valid (site.validateNetwork body.network)
  let purpose ← valid (validatePurpose body.purpose)
  Tx.require (!(purpose = .link && body.requestedUserId = none))
    (.error (.invalidRequest "link_user_required"))
  match body.requestedUserId with
  | some userId =>
      ensureUserExists userId
      storeChallenge rfc3339 address network purpose body challengeId
  | none => storeChallenge rfc3339 address network purpose body challengeId

/-! ### Consuming a challenge -/

/-- The challenge that the update looks for. -/
def ConsumeChallengeRequest.matches (challengeId : Uuid) (address : String) (network : Network)
    (message : String) (now : Int) (c : WalletAuthChallenge) : Bool :=
  c.id = challengeId && c.address = address && c.network = network && c.message = message &&
    c.consumedAt = none && now < c.expiresAt

def consumeMatching (p : WalletAuthChallenge → Bool) (now : Int) : Handler (Option WalletAuthChallenge) :=
  Tx.stmt .other (fun view => (challengeTable.matching p view).map fun c => ⟨.challenge c.id, .noKeyUpdate⟩)
    (challengeTable.modify p ({ · with consumedAt := some now }))
    fun view => (challengeTable.matching p view).head?

/-- The unique keys of `stellar_accounts`, and its reference. -/
def accountViolation (a : StellarAccount) (db : Database) : Option Result :=
  if db.stellarAccounts.any fun b => b.id = a.id || (b.network = a.network && b.address = a.address) ||
      (a.isPrimary && b.isPrimary && b.userId = a.userId && b.network = a.network) then
    some (.error (mapDatabaseError .uniqueViolation))
  else if !db.users.any (·.id = a.userId) then some (.error (mapDatabaseError .foreignKeyViolation))
  else none

def insertAccount (a : StellarAccount) : Handler PUnit :=
  Tx.insertRow .other accountTable
    ([⟨.account a.id, .update⟩, ⟨.address a.network a.address, .update⟩, ⟨.user a.userId, .keyShare⟩] ++
      if a.isPrimary then [⟨.primary a.userId a.network, .update⟩] else [])
    (accountViolation a) a

def insertUser (u : User) : Handler PUnit :=
  Tx.insert .other (fun _ => [⟨.user u.id, .update⟩])
    (fun db => if db.users.any (·.id = u.id) then some (.error (mapDatabaseError .uniqueViolation)) else none)
    fun db => { db with users := db.users ++ [u] }

def loginOrCreateAccount (network : Network) (address : String) (now : Int) (userId walletId : Uuid) :
    Handler Uuid := do
  let registered ← Tx.select .other (·.registered network address)
  match registered with
  | some userId =>
      let _ ← Tx.update .other accountTable (fun a => [⟨.address a.network a.address, .noKeyUpdate⟩])
        (fun a => a.network = network && a.address = address) ({ · with verified := true }) fun _ _ => none
      return userId
  | none =>
      insertUser { id := userId, displayName := "CrownFi user " ++ suffix address, email := none }
      insertAccount
        { id := walletId, userId, network, address, isPrimary := true, verified := true, createdAt := now }
      return userId

def linkWallet (userId : Uuid) (network : Network) (address : String) (now : Int) (walletId : Uuid) :
    Handler PUnit := do
  ensureUserExists userId
  let registered ← Tx.select .other (·.registered network address)
  match registered with
  | some existingUserId =>
      Tx.require (existingUserId = userId) (.error (.conflict "wallet_already_linked"))
  | none =>
      let primaries ← Tx.select .other (·.primaries userId network)
      insertAccount
        { id := walletId, userId, network, address, isPrimary := primaries = 0, verified := true
          createdAt := now }

/-- `userId` and `walletId` are the fresh `Uuid`s. -/
def consumeWalletChallenge (site : Access.Site) (challengeId : Uuid) (body : ConsumeChallengeRequest)
    (userId walletId : Uuid) : Handler Response := do
  let address ← valid (validateAddress body.address)
  let network ← valid (site.validateNetwork body.network)
  let now ← Tx.select .other (·.clock)
  let consumed ← consumeMatching
    (ConsumeChallengeRequest.matches challengeId address network body.message now) now
  let challenge ← Tx.orElse consumed (.error .unauthorized)
  Tx.require (challenge.requestedUserId = body.requestedUserId) (.error .unauthorized)
  let signedIn ← match challenge.purpose with
    | .login | .setup => loginOrCreateAccount network address now userId walletId
    | .link => do
        let requestedUserId ← Tx.orElse challenge.requestedUserId
          (.error (.invalidRequest "link_user_required"))
        linkWallet requestedUserId network address now walletId
        pure requestedUserId
  Tx.commit
  return .walletAuth signedIn address

/-- Time goes on. -/
def passTime (clock : Int) : Handler Response := do
  Tx.write .other (fun _ => []) ({ · with clock })
  Tx.commit
  return .done

/-- The calls. -/
inductive Call
  | createWalletChallenge (body : CreateChallengeRequest) (challengeId : Uuid)
  | consumeWalletChallenge (challengeId : Uuid) (body : ConsumeChallengeRequest) (userId walletId : Uuid)
  | passTime (clock : Int)
  deriving DecidableEq, Repr

def Call.request (site : Access.Site) (rfc3339 : Int → Option String) : Call → Prog Database Row Site Result
  | .createWalletChallenge body challengeId =>
      (Wallets.createWalletChallenge site rfc3339 body challengeId).request
  | .consumeWalletChallenge challengeId body userId walletId =>
      (Wallets.consumeWalletChallenge site challengeId body userId walletId).request
  | .passTime clock => (Wallets.passTime clock).request

end CrownFi.Access.Wallets
