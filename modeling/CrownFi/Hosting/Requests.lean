import CrownFi.Access.Memberships
import CrownFi.Lib.Processes

/-!
# CrownFi.Hosting.Requests

The pageant that a site hosts: `update_site_settings` of `identity.rs`, which chooses it, and
`update_pageant` and `delete_pageant` of `manage.rs`, which write the pageants.

Every statement outside a transaction is one access to the tables. A transaction of these handlers
writes one row, which is locked from its `UPDATE` on, so it counts as one access, made at its commit.
The audit rows are left out, as is what `update_site_settings` reads back for its answer.
-/

namespace CrownFi.Hosting

open Api Lib Lib.Processes

/-! ### The tables -/

inductive PageantStatus
  | draft
  | published
  | active
  | completed
  | archived
  deriving DecidableEq, Repr

/-- The texts that the column's check admits. -/
def PageantStatus.ofText (status : String) : Option PageantStatus :=
  if status = "draft" then some .draft
  else if status = "published" then some .published
  else if status = "active" then some .active
  else if status = "completed" then some .completed
  else if status = "archived" then some .archived
  else none

structure Pageant where
  id : Uuid
  organizationId : Uuid
  name : String
  slug : String
  description : Option String
  status : PageantStatus
  startsAt : Option Int
  endsAt : Option Int
  timezone : String
  venueName : Option String
  deriving DecidableEq, Repr

structure SiteSettingsRecord where
  siteName : String
  stellarNetwork : Network
  mainnetEnabled : Bool
  defaultPageantId : Option Uuid
  pageantSelectorEnabled : Bool
  deriving DecidableEq, Repr

structure Database where
  directory : Directory
  siteSettings : SiteSettingsRecord
  pageants : List Pageant
  deriving DecidableEq, Repr

/-- `status IN ('published', 'active')`. -/
def PageantStatus.eligible : PageantStatus → Bool
  | .published | .active => true
  | _ => false

/-- The check of `update_site_settings`. -/
def Database.eligible (db : Database) (pageantId : Uuid) : Bool :=
  db.pageants.any fun p => p.id = pageantId && p.status.eligible

/-- The configuration, and `OffsetDateTime::parse` with `Rfc3339`. -/
structure Config where
  site : Access.Site
  parseRfc3339 : String → Option Int

/-! ### Accesses and answers -/

/-- What an update of a pageant writes: a given value replaces the old one. -/
structure PageantChange where
  name : Option String
  slug : Option String
  description : Option String
  startsAt : Option Int
  endsAt : Option Int
  timezone : Option String
  venueName : Option String
  status : Option String
  deriving DecidableEq, Repr

/-- The accesses that the results speak of. -/
inductive Point
  | other
  /-- The check of a pageant, which the request asked for or found in the settings. -/
  | check (pageantId : Uuid) (asked : Bool)
  | settings (defaultPageantId : Option Uuid)
  | update (pageantId : Uuid) (change : PageantChange)
  | delete (pageantId : Uuid)
  deriving DecidableEq, Repr

/-- The status of a successful answer. -/
inductive Success
  | ok
  | noContent
  deriving DecidableEq, Repr

abbrev Answer := Except ApiError Success

/-- A handler; it holds no locks between its accesses. -/
abbrev Handler := Task Database Empty Point Answer

/-! ### `update_site_settings` -/

structure UpdateSiteSettingsRequest where
  actorUserId : Uuid
  siteName : Option String
  stellarNetwork : Option String
  defaultPageantId : Option Uuid
  clearDefaultPageant : Option Bool
  pageantSelectorEnabled : Option Bool
  deriving DecidableEq, Repr

def hostedPageantNotPublished : ApiError := .invalidRequest "hosted_pageant_not_published"

/-- The default that a request leaves, where it was `current`. -/
def UpdateSiteSettingsRequest.default (body : UpdateSiteSettingsRequest) (current : Option Uuid) :
    Option Uuid :=
  if body.clearDefaultPageant.getD false then none else body.defaultPageantId.or current

def requireEligible (defaultPageantId : Option Uuid) (asked : Bool) : Handler PUnit :=
  match defaultPageantId with
  | none => pure ⟨⟩
  | some pageantId => do
      let eligible ← Task.read (.check pageantId asked) (·.eligible pageantId)
      Task.require eligible (.error hostedPageantNotPublished)

/-- The four columns are written with values that were read before. -/
def updateSiteSettings (config : Config) (body : UpdateSiteSettingsRequest) : Handler Success := do
  let allowed ← Task.read .other (·.directory.siteAdministrator body.actorUserId)
  Task.require allowed (.error .forbidden)
  let current ← Task.read .other (·.siteSettings)
  let siteName ← Task.ofExcept (optional (requiredChars · 160 "invalid_site_name") body.siteName) .error
  let network ← Task.ofExcept (optional config.site.validateNetwork body.stellarNetwork) .error
  let siteName := siteName.getD current.siteName
  let network := network.getD current.stellarNetwork
  Task.require (network ≠ .«public» || (config.site.allowMainnet && current.mainnetEnabled))
    (.error .forbidden)
  let defaultPageantId := body.default current.defaultPageantId
  requireEligible defaultPageantId body.defaultPageantId.isSome
  let selectorEnabled := body.pageantSelectorEnabled.getD current.pageantSelectorEnabled
  Task.write (.settings defaultPageantId) fun db =>
    { db with siteSettings := { db.siteSettings with
        siteName := siteName, stellarNetwork := network, defaultPageantId := defaultPageantId,
        pageantSelectorEnabled := selectorEnabled } }
  return .ok

/-! ### `update_pageant` and `delete_pageant` -/

structure UpdatePageantRequest where
  actorUserId : Uuid
  pageantId : Uuid
  name : Option String
  slug : Option String
  description : Option String
  startsAt : Option String
  endsAt : Option String
  timezone : Option String
  venueName : Option String
  status : Option String
  deriving DecidableEq, Repr

def organizationForPageant (pageantId : Uuid) : Handler Uuid := do
  let organization ← Task.read .other fun db =>
    (db.pageants.find? (·.id = pageantId)).map (·.organizationId)
  Task.orElse organization (.error .notFound)

/-- `is_site_admin` of `manage.rs`. -/
def Database.isSiteAdmin (db : Database) (userId : Uuid) : Bool :=
  db.directory.siteAdministrators.any fun a => a.userId = userId && a.status = .active

def requireEditor (organizationId userId : Uuid) : Handler PUnit := do
  let admin ← Task.read .other (·.isSiteAdmin userId)
  if admin then pure ⟨⟩
  else
    let editor ← Task.read .other (·.directory.memberEditor organizationId userId)
    Task.require editor (.error .forbidden)

def optionalTimestamp (config : Config) (value : Option String) (code : String) :
    Except ApiError (Option Int) :=
  optional (fun value =>
    match config.parseRfc3339 (String.ofList (trimChars value.toList)) with
    | some instant => .ok instant
    | none => .error (.invalidRequest code)) value

/-- `end < start`, where both are known. -/
def endsBefore (startsAt endsAt : Option Int) : Bool :=
  match startsAt, endsAt with
  | some start, some stop => stop < start
  | _, _ => false

def UpdatePageantRequest.validate (config : Config) (body : UpdatePageantRequest) :
    Except ApiError PageantChange := do
  let name ← optional (requiredChars · 200 "invalid_pageant_name") body.name
  let slug ← optional Access.requiredSlug body.slug
  let description ← optional (requiredChars · 20000 "invalid_pageant_description") body.description
  let startsAt ← optionalTimestamp config body.startsAt "invalid_pageant_starts_at"
  let endsAt ← optionalTimestamp config body.endsAt "invalid_pageant_ends_at"
  failIf (endsBefore startsAt endsAt = true) (.invalidRequest "pageant_end_before_start")
  let timezone ← optional (requiredChars · 120 "invalid_pageant_timezone") body.timezone
  let venueName ← optional (requiredChars · 300 "invalid_pageant_venue") body.venueName
  let status ← optional (requiredChars · 50 "invalid_pageant_status") body.status
  return { name := name, slug := slug, description := description, startsAt := startsAt,
           endsAt := endsAt, timezone := timezone, venueName := venueName, status := status }

/-- The row that the `UPDATE` makes of `p`, with this status given. -/
def Pageant.apply (p : Pageant) (change : PageantChange) (status : Option PageantStatus) : Pageant :=
  { p with
    name := change.name.getD p.name
    slug := change.slug.getD p.slug
    description := change.description.or p.description
    startsAt := change.startsAt.or p.startsAt
    endsAt := change.endsAt.or p.endsAt
    timezone := change.timezone.getD p.timezone
    venueName := change.venueName.or p.venueName
    status := status.getD p.status }

/-- `UPDATE pageants SET .. WHERE id = $1 RETURNING ..`, under the checks of the table and the unique
slug in an organisation. -/
def updateRow (pageantId : Uuid) (change : PageantChange) (db : Database) : Except ApiError Database := do
  let status ← optional (fun text =>
    okOr (PageantStatus.ofText text) (Access.mapDatabaseError .checkViolation)) change.status
  let row ← okOr (db.pageants.find? (·.id = pageantId)) .database
  let row := row.apply change status
  Access.refuseIf (endsBefore row.startsAt row.endsAt = true) .checkViolation
  Access.refuseIf (∃ q ∈ db.pageants, q.id ≠ pageantId ∧ q.organizationId = row.organizationId ∧
    q.slug = row.slug) .uniqueViolation
  return { db with
    pageants := updateWhere (·.id = pageantId) (fun p => p.apply change status) db.pageants }

/-- The bounds that the request leaves, when it changes one of them. -/
def requireBounds (pageantId : Uuid) (change : PageantChange) : Handler PUnit :=
  if change.startsAt.isSome || change.endsAt.isSome then do
    let existing ← Task.read .other fun db => db.pageants.find? (·.id = pageantId)
    let existing ← Task.orElse existing (.error .database)
    Task.require (!endsBefore (change.startsAt.or existing.startsAt) (change.endsAt.or existing.endsAt))
      (.error (.invalidRequest "pageant_end_before_start"))
  else pure ⟨⟩

def updatePageant (config : Config) (body : UpdatePageantRequest) : Handler Success := do
  let organizationId ← organizationForPageant body.pageantId
  requireEditor organizationId body.actorUserId
  let change ← Task.ofExcept (body.validate config) .error
  requireBounds body.pageantId change
  Task.transact (.update body.pageantId change) (updateRow body.pageantId change) .error
  return .ok

/-- `UPDATE pageants SET status = 'archived' WHERE id = $1`. -/
def archiveRow (pageantId : Uuid) (db : Database) : Database :=
  { db with
    pageants := updateWhere (·.id = pageantId) (fun p => { p with status := .archived }) db.pageants }

def deletePageant (pageantId actorUserId : Uuid) : Handler Success := do
  let organizationId ← organizationForPageant pageantId
  requireEditor organizationId actorUserId
  Task.write (.delete pageantId) (archiveRow pageantId)
  return .noContent

/-! ### The system -/

inductive Request
  | updateSiteSettings (body : UpdateSiteSettingsRequest)
  | updatePageant (body : UpdatePageantRequest)
  | deletePageant (pageantId actorUserId : Uuid)
  deriving DecidableEq, Repr

/-- The handlers, any number of them at a time. -/
def hosting (config : Config) : System Request Database Empty Point Answer Empty where
  program
    | .updateSiteSettings body => updateSiteSettings config body fun r => .ret (.ok r)
    | .updatePageant body => updatePageant config body fun r => .ret (.ok r)
    | .deletePageant pageantId actorUserId => deletePageant pageantId actorUserId fun r => .ret (.ok r)
  change e := nomatch e
  possible e := nomatch e

instance (config : Config) (e : Empty) (db : Database) : Decidable ((hosting config).possible e db) :=
  nomatch e

end CrownFi.Hosting
