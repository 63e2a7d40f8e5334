import CrownFi.Api.Directory
import CrownFi.Api.Validation
import CrownFi.Lib.Fallible
import CrownFi.Lib.Tables

/-!
# CrownFi.Access.Memberships

Who owns an organisation: `complete_setup` of `identity.rs`, which makes the
first owner, and `grant_membership` of `access.rs`, which hands out the other
roles.

**A grant can take the last owner away.** No grant makes an owner, since
`validate_role` refuses that role. But the row is written by an upsert, and where
the wallet's holder is a member already, the role they had is overwritten,
whichever it was. So an organisation keeps an owner exactly as long as no grant
is made to the only one it has.

The audit rows are left out, as is what the handlers read back for their answers
after the commit.
-/

namespace CrownFi.Access

open Api Lib

/-! ### The tables -/

inductive Role
  | owner
  | admin
  | editor
  | operator
  | auditor
  | viewer
  deriving DecidableEq, Repr

structure User where
  id : Uuid
  displayName : String
  email : Option String
  deriving DecidableEq, Repr

structure Organization where
  id : Uuid
  name : String
  slug : String
  createdByUserId : Uuid
  deriving DecidableEq, Repr

structure OrganizationMember where
  organizationId : Uuid
  userId : Uuid
  role : Role
  status : MemberStatus
  invitedByUserId : Option Uuid
  deriving DecidableEq, Repr

structure SiteAdministrator where
  userId : Uuid
  role : Role
  status : MemberStatus
  grantedByUserId : Option Uuid
  deriving DecidableEq, Repr

inductive ValidationStatus
  | notValidated
  | valid
  | invalid
  | unavailable
  deriving DecidableEq, Repr

structure IntegrationSetting where
  provider : String
  protectedValue : String
  valueSuffix : Option String
  validationStatus : ValidationStatus
  lastValidatedAt : Option Int
  updatedByUserId : Uuid
  deriving DecidableEq, Repr

structure SiteSettings where
  siteName : String
  stellarNetwork : Network
  setupCompletedAt : Option Int
  setupCompletedByUserId : Option Uuid
  deriving DecidableEq, Repr

structure Database where
  clock : Int
  users : List User
  stellarAccounts : List StellarAccount
  organizations : List Organization
  organizationMembers : List OrganizationMember
  siteAdministrators : List SiteAdministrator
  integrationSettings : List IntegrationSetting
  siteSettings : SiteSettings
  deriving DecidableEq, Repr

/-- What the site is configured with, and `lower` as the database's locale has it. -/
structure Site where
  setupBootstrapToken : String
  allowMainnet : Bool
  lower : String → String

def mapDatabaseError : SqlError → ApiError
  | .uniqueViolation => .conflict "resource_already_exists"
  | .foreignKeyViolation => .invalidRequest "related_resource_not_found"
  | .checkViolation => .invalidRequest "database_constraint_failed"
  | .outOfRange => .database

/-- A statement that the database refuses when `c` holds. -/
def refuseIf (c : Prop) [Decidable c] (e : SqlError) : Except ApiError Unit :=
  failIf c (mapDatabaseError e)

/-! ### Setup -/

structure ProtectedIntegrationInput where
  provider : String
  protectedValue : String
  valueSuffix : Option String
  deriving DecidableEq, Repr

structure CompleteSetupRequest where
  bootstrapToken : String
  userId : Uuid
  displayName : String
  email : Option String
  siteName : String
  organizationName : String
  organizationSlug : String
  stellarNetwork : String
  integrations : Option (List ProtectedIntegrationInput)
  deriving DecidableEq, Repr

/-- Words of lower-case letters and digits, joined by hyphens, in at most `max` bytes. -/
def hyphenated (value : String) (max : Nat) (code : String) : Except ApiError String :=
  let value := trimLower value
  if value ≠ [] ∧ byteLength value ≤ max ∧
      (value.splitOn '-').all (fun part =>
        !part.isEmpty && part.all fun c => ('a' ≤ c && c ≤ 'z') || isDigit c) then
    .ok (String.ofList value)
  else .error (.invalidRequest code)

def requiredSlug (value : String) : Except ApiError String :=
  hyphenated value 120 "invalid_slug"

def requiredProvider (value : String) : Except ApiError String :=
  hyphenated value 80 "invalid_integration_provider"

/-- `validate_network` of `identity.rs`. -/
def Site.validateNetwork (site : Site) (value : String) : Except ApiError Network :=
  let value := String.ofList (trimLower value)
  if value = "testnet" then .ok .testnet
  else if value = "public" then if site.allowMainnet then .ok .«public» else .error .forbidden
  else .error (.invalidRequest "invalid_stellar_network")

/-- `UPDATE users SET display_name, email`, under `users_email_unique` and the check on the
length of an address. -/
def updateUser (site : Site) (userId : Uuid) (displayName : String) (email : Option String)
    (db : Database) : Except ApiError Database := do
  refuseIf (∃ u ∈ db.users, u.id = userId ∧ ∃ e ∈ email, e.toList.length < 3) .checkViolation
  refuseIf (∃ u ∈ db.users, u.id = userId ∧ ∃ e ∈ email, ∃ v ∈ db.users, v.id ≠ userId ∧
    ∃ e' ∈ v.email, site.lower e' = site.lower e) .uniqueViolation
  return { db with
    users := updateWhere (·.id = userId)
      (fun u => { u with displayName := displayName, email := email }) db.users }

def insertOrganization (o : Organization) (db : Database) : Except ApiError Database := do
  refuseIf (∃ o' ∈ db.organizations, o'.id = o.id ∨ o'.slug = o.slug) .uniqueViolation
  refuseIf (∀ u ∈ db.users, u.id ≠ o.createdByUserId) .foreignKeyViolation
  return { db with organizations := db.organizations ++ [o] }

def insertOwner (organizationId userId : Uuid) (db : Database) : Except ApiError Database := do
  refuseIf (∃ m ∈ db.organizationMembers, m.organizationId = organizationId ∧ m.userId = userId)
    .uniqueViolation
  let row : OrganizationMember :=
    { organizationId := organizationId, userId := userId, role := .owner, status := .active,
      invitedByUserId := none }
  return { db with organizationMembers := db.organizationMembers ++ [row] }

def insertSiteOwner (userId : Uuid) (db : Database) : Except ApiError Database := do
  refuseIf (∃ a ∈ db.siteAdministrators, a.userId = userId) .uniqueViolation
  let row : SiteAdministrator :=
    { userId := userId, role := .owner, status := .active, grantedByUserId := some userId }
  return { db with siteAdministrators := db.siteAdministrators ++ [row] }

/-- `INSERT INTO integration_settings .. ON CONFLICT (provider) DO UPDATE`. -/
def upsertIntegration (row : IntegrationSetting) (rows : List IntegrationSetting) :
    List IntegrationSetting :=
  if ∃ i ∈ rows, i.provider = row.provider then
    updateWhere (fun i => i.provider = row.provider) (fun _ => row) rows
  else rows ++ [row]

/-- One turn of the loop over the integrations. -/
def protectIntegration (userId : Uuid) (db : Database) (integration : ProtectedIntegrationInput) :
    Except ApiError Database := do
  let provider ← requiredProvider integration.provider
  failIf (¬ "v1.".toList <+: integration.protectedValue.toList)
    (.invalidRequest "integration_value_not_protected")
  let valueSuffix ←
    optional (requiredChars · 32 "invalid_integration_suffix") integration.valueSuffix
  let row : IntegrationSetting :=
    { provider := provider, protectedValue := integration.protectedValue, valueSuffix := valueSuffix,
      validationStatus := .notValidated, lastValidatedAt := none, updatedByUserId := userId }
  return { db with integrationSettings := upsertIntegration row db.integrationSettings }

/-- `organizationId` is the fresh `Uuid::new_v4()`. -/
def completeSetup (site : Site) (organizationId : Uuid) (body : CompleteSetupRequest)
    (db : Database) : Except ApiError Database := do
  failIf (body.bootstrapToken ≠ site.setupBootstrapToken) .unauthorized
  let displayName ← requiredChars body.displayName 160 "invalid_display_name"
  let email ← optional (requiredChars · 320 "invalid_email") body.email
  let siteName ← requiredChars body.siteName 160 "invalid_site_name"
  let organizationName ← requiredChars body.organizationName 200 "invalid_organization_name"
  let organizationSlug ← requiredSlug body.organizationSlug
  let network ← site.validateNetwork body.stellarNetwork
  failIf db.siteSettings.setupCompletedAt.isSome (.conflict "setup_already_completed")
  failIf (∀ a ∈ db.stellarAccounts,
      ¬ (a.userId = body.userId ∧ a.network = network ∧ a.verified = true))
    (.invalidRequest "verified_wallet_required")
  let db ← updateUser site body.userId displayName email db
  let db ← insertOrganization
    { id := organizationId, name := organizationName, slug := organizationSlug,
      createdByUserId := body.userId } db
  let db ← insertOwner organizationId body.userId db
  let db ← insertSiteOwner body.userId db
  let db ← (body.integrations.getD []).foldlM (protectIntegration body.userId) db
  let settings : SiteSettings :=
    { siteName := siteName, stellarNetwork := network, setupCompletedAt := some db.clock,
      setupCompletedByUserId := some body.userId }
  return { db with siteSettings := settings }

/-! ### Grants -/

structure GrantMembershipRequest where
  actorUserId : Uuid
  walletAddress : String
  network : String
  role : String
  deriving DecidableEq, Repr

def requireOrganizationManager (organizationId userId : Uuid) (db : Database) :
    Except ApiError Unit :=
  if (db.siteAdministrators.any fun a =>
        a.userId = userId && a.status = .active && (a.role = .owner || a.role = .admin)) ||
      db.organizationMembers.any fun m =>
        m.organizationId = organizationId && m.userId = userId && m.status = .active &&
          (m.role = .owner || m.role = .admin) then .ok ()
  else .error .forbidden

def validateAddress (value : String) : Except ApiError String :=
  let value := String.ofList (trimUpper value)
  if isStellarAccount value then .ok value else .error (.invalidRequest "invalid_stellar_address")

/-- `validate_network` of `access.rs`. -/
def validateNetwork (value : String) : Except ApiError Network :=
  let value := String.ofList (trimLower value)
  if value = "testnet" then .ok .testnet
  else if value = "public" then .ok .«public»
  else .error (.invalidRequest "invalid_stellar_network")

def validateRole (value : String) : Except ApiError Role :=
  let value := String.ofList (trimLower value)
  if value = "admin" then .ok .admin
  else if value = "editor" then .ok .editor
  else if value = "operator" then .ok .operator
  else if value = "auditor" then .ok .auditor
  else if value = "viewer" then .ok .viewer
  else .error (.invalidRequest "invalid_organization_role")

/-- The checks of a grant: whom it is for, and the role. -/
def checkGrant (organizationId : Uuid) (body : GrantMembershipRequest) (db : Database) :
    Except ApiError (Uuid × Role) := do
  requireOrganizationManager organizationId body.actorUserId db
  let address ← validateAddress body.walletAddress
  let network ← validateNetwork body.network
  let role ← validateRole body.role
  let account ← okOr
    (db.stellarAccounts.find? fun a => a.network = network && a.address = address && a.verified)
    (.invalidRequest "target_account_must_sign_in_first")
  return (account.userId, role)

def OrganizationMember.keyed (organizationId userId : Uuid) (m : OrganizationMember) : Bool :=
  m.organizationId = organizationId && m.userId = userId

/-- `INSERT INTO organization_members .. ON CONFLICT (organization_id, user_id) DO UPDATE`. The
organisation of a new row must exist; the other references are to rows that the checks read. -/
def upsertMember (row : OrganizationMember) (db : Database) : Except ApiError Database :=
  let found := OrganizationMember.keyed row.organizationId row.userId
  if db.organizationMembers.any found then
    .ok { db with
      organizationMembers := updateWhere found
        (fun m =>
          { m with role := row.role, status := .active, invitedByUserId := row.invitedByUserId })
        db.organizationMembers }
  else do
    refuseIf (∀ o ∈ db.organizations, o.id ≠ row.organizationId) .foreignKeyViolation
    return { db with organizationMembers := db.organizationMembers ++ [row] }

def grantMembership (organizationId : Uuid) (body : GrantMembershipRequest) (db : Database) :
    Except ApiError Database := do
  let (targetUserId, role) ← checkGrant organizationId body db
  upsertMember
    { organizationId := organizationId, userId := targetUserId, role := role, status := .active,
      invitedByUserId := some body.actorUserId } db

/-! ### Runs of grants -/

/-- A call of `grant_membership`, with the organisation of its path. -/
structure Grant where
  organizationId : Uuid
  body : GrantMembershipRequest
  deriving DecidableEq, Repr

/-- A call that fails changes nothing. -/
def serve (db : Database) (call : Grant) : Database :=
  match grantMembership call.organizationId call.body db with
  | .ok db' => db'
  | .error _ => db

def serveAll (db : Database) (calls : List Grant) : Database := calls.foldl serve db

@[simp] theorem serveAll_nil (db : Database) : serveAll db [] = db := rfl

theorem serveAll_append (db : Database) (calls calls' : List Grant) :
    serveAll db (calls ++ calls') = serveAll (serveAll db calls) calls' :=
  List.foldl_append

/-! ### Owners -/

def OrganizationMember.activeOwner (organizationId : Uuid) (m : OrganizationMember) : Bool :=
  m.organizationId = organizationId && m.role = .owner && m.status = .active

def Database.hasOwner (db : Database) (organizationId : Uuid) : Bool :=
  db.organizationMembers.any (OrganizationMember.activeOwner organizationId)

/-- The user is an active owner of the organisation, and it has no other. -/
def Database.onlyOwner (db : Database) (organizationId userId : Uuid) : Prop :=
  db.hasOwner organizationId = true ∧
    ∀ m ∈ db.organizationMembers, m.activeOwner organizationId = true → m.userId = userId

/-- No grant of the run that passes its checks is for an organisation's only owner. -/
def EachSpares (db : Database) (calls : List Grant) : Prop :=
  ∀ earlier call later, calls = earlier ++ call :: later → ∀ userId role,
    checkGrant call.organizationId call.body (serveAll db earlier) = .ok (userId, role) →
      ¬ (serveAll db earlier).onlyOwner call.organizationId userId

/-- An organisation that has an owner at some point of the run has one at every later point. -/
def OwnersKept (db : Database) (calls : List Grant) : Prop :=
  ∀ earlier between later, calls = earlier ++ between ++ later → ∀ organizationId,
    (serveAll db earlier).hasOwner organizationId = true →
      (serveAll db (earlier ++ between)).hasOwner organizationId = true

variable {db db' : Database} {organizationId userId : Uuid} {role : Role}

theorem hasOwner_iff : db.hasOwner organizationId = true ↔
    ∃ m ∈ db.organizationMembers, m.activeOwner organizationId = true :=
  List.any_eq_true

/-- `validate_role` makes no owners. -/
theorem validateRole_ne_owner {value : String} (h : validateRole value = .ok role) :
    role ≠ .owner := by
  unfold validateRole at h
  intro howner
  subst howner
  simp only at h
  split_ifs at h <;> cases h

theorem checkGrant_ne_owner {body : GrantMembershipRequest}
    (h : checkGrant organizationId body db = .ok (userId, role)) : role ≠ .owner := by
  unfold checkGrant at h
  simp only [bind_eq_ok, pure_eq_ok] at h
  obtain ⟨_, _, _, _, _, _, role', hrole, _, _, heq⟩ := h
  cases heq
  exact validateRole_ne_owner hrole

/-- The owners after the upsert of another role are those before it whom it was not for. -/
theorem hasOwner_upsert {row : OrganizationMember} (hrole : row.role ≠ .owner)
    (h : upsertMember row db = .ok db') :
    db'.hasOwner organizationId = true ↔
      ∃ m ∈ db.organizationMembers, m.activeOwner organizationId = true ∧
        m.keyed row.organizationId row.userId = false := by
  unfold upsertMember at h
  rw [hasOwner_iff]
  by_cases hfound : db.organizationMembers.any
      (OrganizationMember.keyed row.organizationId row.userId) = true
  · rw [if_pos hfound] at h
    cases h
    constructor
    · rintro ⟨m, hm, howner⟩
      obtain ⟨m₀, hm₀, rfl⟩ := mem_updateWhere.mp hm
      cases hkey : m₀.keyed row.organizationId row.userId with
      | true => simp [hkey, OrganizationMember.activeOwner, hrole] at howner
      | false => exact ⟨m₀, hm₀, by simpa [hkey] using howner, hkey⟩
    · rintro ⟨m, hm, howner, hkey⟩
      exact ⟨m, mem_updateWhere.mpr ⟨m, hm, by simp [hkey]⟩, howner⟩
  · rw [if_neg hfound] at h
    simp only [refuseIf, bind_eq_ok, failIf_eq_ok, pure_eq_ok] at h
    obtain ⟨-, -, rfl⟩ := h
    constructor
    · rintro ⟨m, hm, howner⟩
      rcases List.mem_append.mp hm with hm | hm
      · refine ⟨m, hm, howner, ?_⟩
        cases hkey : m.keyed row.organizationId row.userId with
        | false => rfl
        | true => exact absurd (List.any_eq_true.mpr ⟨m, hm, hkey⟩) hfound
      · -- the new row is no owner
        rw [List.mem_singleton.mp hm] at howner
        simp [OrganizationMember.activeOwner, hrole] at howner
    · rintro ⟨m, hm, howner, -⟩
      exact ⟨m, List.mem_append_left _ hm, howner⟩

/-- An only owner stands in the table, so that the upsert finds their row. -/
theorem upsertMember_onlyOwner (row : OrganizationMember)
    (h : db.onlyOwner row.organizationId row.userId) : ∃ db', upsertMember row db = .ok db' := by
  obtain ⟨howner, honly⟩ := h
  obtain ⟨m, hm, hactive⟩ := hasOwner_iff.mp howner
  have hkey : m.keyed row.organizationId row.userId = true := by
    have horganization : m.organizationId = row.organizationId := by
      simp only [OrganizationMember.activeOwner, Bool.and_eq_true, decide_eq_true_eq] at hactive
      exact hactive.1.1
    simp [OrganizationMember.keyed, horganization, honly m hm hactive]
  unfold upsertMember
  rw [if_pos (List.any_eq_true.mpr ⟨m, hm, hkey⟩)]
  exact ⟨_, rfl⟩

/-- The row of a grant. -/
def Grant.row (call : Grant) (userId : Uuid) (role : Role) : OrganizationMember :=
  { organizationId := call.organizationId, userId := userId, role := role, status := .active,
    invitedByUserId := some call.body.actorUserId }

theorem serve_of_error {call : Grant} {e : ApiError}
    (h : checkGrant call.organizationId call.body db = .error e) : serve db call = db := by
  unfold serve grantMembership
  rw [h]
  rfl

theorem grantMembership_of_ok {call : Grant}
    (h : checkGrant call.organizationId call.body db = .ok (userId, role)) :
    grantMembership call.organizationId call.body db = upsertMember (call.row userId role) db := by
  unfold grantMembership
  rw [h]
  rfl

/-- A call leaves an organisation without an owner only if it takes the only one. -/
theorem hasOwner_serve {call : Grant} (h : db.hasOwner organizationId = true) :
    (serve db call).hasOwner organizationId = true ↔
      ∀ userId role, checkGrant call.organizationId call.body db = .ok (userId, role) →
        organizationId = call.organizationId → ¬ db.onlyOwner organizationId userId := by
  cases hcheck : checkGrant call.organizationId call.body db with
  | error e =>
      rw [serve_of_error hcheck]
      constructor
      · intro _ _ _ hok
        cases hok
      · intro _
        exact h
  | ok target =>
      obtain ⟨targetUserId, role⟩ := target
      cases hupsert : upsertMember (call.row targetUserId role) db with
      | error e =>
          rw [serve, grantMembership_of_ok hcheck, hupsert]
          constructor
          · intro _ userId role' hok horganization honly
            cases hok
            subst horganization
            have hfound := upsertMember_onlyOwner (call.row targetUserId role) honly
            rw [hupsert] at hfound
            obtain ⟨_, hfound⟩ := hfound
            cases hfound
          · intro _
            exact h
      | ok db' =>
          have hrole : (call.row targetUserId role).role ≠ .owner := checkGrant_ne_owner hcheck
          rw [serve, grantMembership_of_ok hcheck, hupsert]
          dsimp only
          rw [hasOwner_upsert hrole hupsert]
          constructor
          · rintro ⟨m, hm, howner, hkey⟩ userId role' hok rfl honly
            cases hok
            have huser := honly.2 m hm howner
            simp_all [OrganizationMember.keyed, OrganizationMember.activeOwner, Grant.row]
          · intro hspares
            by_cases horganization : organizationId = call.organizationId
            · have hother := hspares _ _ rfl horganization
              unfold Database.onlyOwner at hother
              push Not at hother
              obtain ⟨m, hm, howner, hne⟩ := hother h
              exact ⟨m, hm, howner, by simp [OrganizationMember.keyed, Grant.row, hne]⟩
            · -- the grant is for another organisation
              obtain ⟨m, hm, howner⟩ := hasOwner_iff.mp h
              refine ⟨m, hm, howner, ?_⟩
              simp only [OrganizationMember.activeOwner, Bool.and_eq_true, decide_eq_true_eq] at howner
              simp [OrganizationMember.keyed, Grant.row, howner.1.1, horganization]

/-- The calls of a run after its first ones. -/
theorem EachSpares.drop (calls : List Grant) {calls' : List Grant} (h : EachSpares db (calls ++ calls')) :
    EachSpares (serveAll db calls) calls' := by
  intro earlier call later heq
  rw [← serveAll_append]
  exact h (calls ++ earlier) call later (by rw [heq, List.append_assoc])

theorem EachSpares.take {calls calls' : List Grant} (h : EachSpares db (calls ++ calls')) :
    EachSpares db calls := by
  intro earlier call later heq
  exact h earlier call (later ++ calls') (by rw [heq]; simp)

/-- A run that spares every only owner keeps what has an owner. -/
theorem EachSpares.hasOwner {calls : List Grant} (h : EachSpares db calls)
    (howner : db.hasOwner organizationId = true) :
    (serveAll db calls).hasOwner organizationId = true := by
  induction calls generalizing db with
  | nil => exact howner
  | cons call calls ih =>
      have hfirst : (serve db call).hasOwner organizationId = true := by
        rw [hasOwner_serve howner]
        intro userId role hcheck horganization
        subst horganization
        exact h [] call calls rfl userId role hcheck
      exact ih (EachSpares.drop [call] h) hfirst

/-- **The owners of a run.** -/
theorem ownersKept_iff (calls : List Grant) : OwnersKept db calls ↔ EachSpares db calls := by
  constructor
  · intro hkept earlier call later heq userId role hcheck honly
    have hafter := hkept earlier [call] later (by simpa using heq) call.organizationId honly.1
    rw [serveAll_append] at hafter
    exact (hasOwner_serve honly.1).mp hafter userId role hcheck rfl honly
  · intro hspares earlier between later heq organizationId howner
    subst heq
    rw [serveAll_append]
    exact hspares.take.drop.hasOwner howner

/-! ### From the first owner on -/

/-- The integrations are no members. -/
theorem protectIntegration_members {integration : ProtectedIntegrationInput}
    (h : protectIntegration userId db integration = .ok db') :
    db'.organizationMembers = db.organizationMembers := by
  unfold protectIntegration at h
  simp only [bind_eq_ok, pure_eq_ok] at h
  obtain ⟨_, _, _, _, _, _, rfl⟩ := h
  rfl

theorem protectIntegrations_members {integrations : List ProtectedIntegrationInput}
    (h : integrations.foldlM (protectIntegration userId) db = .ok db') :
    db'.organizationMembers = db.organizationMembers := by
  induction integrations generalizing db with
  | nil =>
      cases h
      rfl
  | cons integration rest ih =>
      rw [List.foldlM_cons, bind_eq_ok] at h
      obtain ⟨mid, hfirst, hrest⟩ := h
      rw [ih hrest, protectIntegration_members hfirst]

theorem insertOwner_hasOwner (h : insertOwner organizationId userId db = .ok db') :
    db'.hasOwner organizationId = true := by
  unfold insertOwner at h
  simp only [bind_eq_ok, pure_eq_ok] at h
  obtain ⟨_, _, rfl⟩ := h
  rw [hasOwner_iff]
  exact ⟨_, List.mem_append_right _ List.mem_cons_self, by simp [OrganizationMember.activeOwner]⟩

/-- The organisation that the setup makes has an owner. -/
theorem completeSetup_hasOwner {site : Site} {body : CompleteSetupRequest}
    (h : completeSetup site organizationId body db = .ok db') :
    db'.hasOwner organizationId = true := by
  unfold completeSetup at h
  simp only [bind_eq_ok, pure_eq_ok] at h
  obtain ⟨_, _, _, _, _, _, _, _, _, _, _, _, _, _, _, _, _, _, _, _, _, _, owned, hinsert, admin,
    hadmin, done, hdone, rfl⟩ := h
  have howner := insertOwner_hasOwner hinsert
  unfold insertSiteOwner at hadmin
  simp only [bind_eq_ok, pure_eq_ok] at hadmin
  obtain ⟨_, _, rfl⟩ := hadmin
  rw [hasOwner_iff] at howner ⊢
  rw [protectIntegrations_members hdone]
  exact howner

/-- **Owners after the setup.** The organisation that the setup makes has an owner. In a run of
grants from there on, an organisation that ever had an owner always has one if and only if no
grant that passes its checks is for an organisation's only owner. -/
theorem setup_ownersKept {site : Site} {body : CompleteSetupRequest} {db₀ : Database}
    (h : completeSetup site organizationId body db₀ = .ok db) :
    db.hasOwner organizationId = true ∧
      ∀ calls, OwnersKept db calls ↔ EachSpares db calls :=
  ⟨completeSetup_hasOwner h, fun calls => ownersKept_iff calls⟩

/-! ### A founder who signs away their own organisation -/

def foundersWallet : String := "GAAAAAAAAAAAAAAAAAAAAAAAAAAAAAAAAAAAAAAAAAAAAAAAAAAAAAAA"

def newSite : Database :=
  { clock := 7
    users := [{ id := 1, displayName := "Founder", email := none }]
    stellarAccounts :=
      [{ id := 2, userId := 1, network := .testnet, address := foundersWallet, isPrimary := true,
         verified := true, createdAt := 0 }]
    organizations := []
    organizationMembers := []
    siteAdministrators := []
    integrationSettings := []
    siteSettings :=
      { siteName := "CrownFi", stellarNetwork := .testnet, setupCompletedAt := none,
        setupCompletedByUserId := none } }

def site : Site := { setupBootstrapToken := "token", allowMainnet := false, lower := id }

def foundersSetup : CompleteSetupRequest :=
  { bootstrapToken := "token", userId := 1, displayName := "Founder", email := none,
    siteName := "Pageants", organizationName := "Pageants", organizationSlug := "pageants",
    stellarNetwork := "testnet", integrations := none }

/-- The new site after its setup. -/
def foundedSite : Database :=
  { newSite with
    organizations := [{ id := 3, name := "Pageants", slug := "pageants", createdByUserId := 1 }]
    organizationMembers :=
      [{ organizationId := 3, userId := 1, role := .owner, status := .active,
         invitedByUserId := none }]
    siteAdministrators :=
      [{ userId := 1, role := .owner, status := .active, grantedByUserId := some 1 }]
    siteSettings :=
      { siteName := "Pageants", stellarNetwork := .testnet, setupCompletedAt := some 7,
        setupCompletedByUserId := some 1 } }

/-- A grant of the role "viewer" to the founder's own wallet. -/
def selfGrant : Grant :=
  { organizationId := 3
    body := { actorUserId := 1, walletAddress := foundersWallet, network := "testnet",
              role := "viewer" } }

theorem foundedSite_ownersKept : foundedSite.hasOwner 3 = true ∧
    ∀ calls, OwnersKept foundedSite calls ↔ EachSpares foundedSite calls :=
  setup_ownersKept (show completeSetup site 3 foundersSetup newSite = .ok foundedSite by
    decide +kernel)

/-- The founder's grant to themselves leaves the organisation without an owner. -/
theorem selfGrant_takes_last_owner :
    completeSetup site 3 foundersSetup newSite = .ok foundedSite ∧
      ¬ OwnersKept foundedSite [selfGrant] := by
  constructor
  · decide +kernel
  · intro hkept
    have hafter := hkept [] [selfGrant] [] rfl 3 (by decide +kernel)
    exact absurd hafter (by decide +kernel)

end CrownFi.Access
