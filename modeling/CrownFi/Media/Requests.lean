import CrownFi.Access.Routes
import CrownFi.Api.Directory
import CrownFi.Lib.Processes
import CrownFi.Lib.Tables
import Mathlib

/-!
# CrownFi.Media.Requests

Uploads of media: `create_upload_intent` and `complete_upload` of `media.rs`, the storage calls of
`storage.rs`, and `media_completion_lock.rs`, the middleware in front of them.

An upload does not pass through the API. The intent hands out a presigned `PUT`, the client uses it
against the object store, and the completion looks at what is there. Each statement outside a
transaction, each transaction, and each call of the store is one access.

The advisory lock of a completion is named by its asset. PostgreSQL locks a hash of that name; where two
hashes collide, more waits. A completion holds the lock until it ends. The calls of the store may fail,
which ends the completion with an error, or, at the deletion of a mismatched object, changes nothing:
both are covered by the end of a process.
-/

namespace CrownFi.Media

open Api Lib Lib.Processes

/-! ### The tables and the store -/

inductive Visibility
  | «private»
  | unlisted
  | «public»
  deriving DecidableEq, Repr

inductive MediaStatus
  | pending
  | ready
  | failed
  | deleted
  deriving DecidableEq, Repr

structure MediaAsset where
  id : Uuid
  organizationId : Uuid
  uploadedByUserId : Uuid
  bucket : String
  objectKey : String
  originalFilename : String
  contentType : String
  byteSize : Int
  width : Option Int
  height : Option Int
  sha256 : String
  visibility : Visibility
  status : MediaStatus
  altText : Option String
  deriving DecidableEq, Repr

inductive AuditAction
  | mediaUploadIntentCreate
  | mediaUploadComplete
  deriving DecidableEq, Repr

def AuditAction.text : AuditAction → String
  | .mediaUploadIntentCreate => "media.upload_intent.create"
  | .mediaUploadComplete => "media.upload.complete"

structure AuditLog where
  organizationId : Uuid
  actorUserId : Uuid
  action : AuditAction
  entityId : Uuid
  deriving DecidableEq, Repr

/-- An object of the bucket: its content, and what its `PUT` declared. -/
structure Object where
  objectKey : String
  bytes : ByteArray
  contentType : Option String
  sha256 : Option String
  deriving DecidableEq

/-- A presigned `PUT`: the key, and the headers that it is signed for. -/
structure UploadAuthorization where
  mediaAssetId : Uuid
  objectKey : String
  contentType : String
  sha256 : String
  expiresAt : Int
  deriving DecidableEq, Repr

structure Database where
  clock : Int
  directory : Directory
  assets : List MediaAsset
  auditLogs : List AuditLog
  objects : List Object
  /-- All that were ever handed out. -/
  authorizations : List UploadAuthorization
  deriving DecidableEq

def Database.asset (db : Database) (mediaAssetId : Uuid) : Option MediaAsset :=
  db.assets.find? (·.id = mediaAssetId)

def Database.object (db : Database) (objectKey : String) : Option Object :=
  db.objects.find? (·.objectKey = objectKey)

/-- The configuration, and what the code takes from libraries: the hash, `Uuid::parse_str`, and the
decoding of a path's segment. -/
structure Config where
  bucket : String
  maxImageBytes : Int
  uploadTtl : Int
  sha256 : Sha256
  parseUuid : String → Option Uuid
  percentDecode : String → Option String
  resources : Access.Resources

/-! ### Accesses and answers -/

inductive Stage
  | fetch
  | editor
  | head
  | read
  | fail
  | delete (objectKey : String)
  | ready
  deriving DecidableEq, Repr

/-- The accesses of `complete_upload`, by asset and stage, and the others. -/
inductive Point
  | other
  | complete (mediaAssetId : Uuid) (stage : Stage)
  deriving DecidableEq, Repr

inductive Success
  | ok
  | created
  deriving DecidableEq, Repr

inductive Answer
  | success (status : Success)
  | failure (error : ApiError)
  /-- Refused before a handler runs. -/
  | rejected
  deriving DecidableEq, Repr

abbrev Handler := Task Database Uuid Point Answer

/-! ### `create_upload_intent` -/

structure CreateUploadIntentRequest where
  originalFilename : String
  contentType : String
  byteSize : Int
  sha256 : String
  visibility : Option String
  altText : Option String
  deriving DecidableEq, Repr

/-- `char::is_control`. -/
def isControl (c : Char) : Bool := c.toNat < 0x20 || (0x7F ≤ c.toNat && c.toNat < 0xA0)

def validateFilename (value : String) : Except ApiError String :=
  let value := trimChars value.toList
  if value = [] ∨ 255 < value.length ∨ '/' ∈ value ∨ '\\' ∈ value ∨ value.any isControl = true then
    .error (.invalidRequest "invalid_media_filename")
  else .ok (String.ofList value)

def imageContentTypes : List String :=
  ["image/jpeg", "image/png", "image/webp", "image/avif", "image/gif"]

def validateImageContentType (value : String) : Except ApiError String :=
  let value := String.ofList (trimLower value)
  if value ∈ imageContentTypes then .ok value
  else .error (.invalidRequest "unsupported_image_content_type")

def extensionForContentType (contentType : String) : String :=
  if contentType = "image/jpeg" then "jpg"
  else if contentType = "image/png" then "png"
  else if contentType = "image/webp" then "webp"
  else if contentType = "image/avif" then "avif"
  else if contentType = "image/gif" then "gif"
  else "bin"

def validateSha256 (value : String) : Except ApiError String := hexString value 64 "invalid_media_sha256"

def validateVisibility (value : Option String) : Except ApiError Visibility :=
  let value := String.ofList (trimLower (value.getD "private"))
  if value = "private" then .ok .«private»
  else if value = "unlisted" then .ok .unlisted
  else if value = "public" then .ok .«public»
  else .error (.invalidRequest "invalid_media_visibility")

def objectKeyFor (organizationId mediaAssetId : Uuid) (contentType : String) : String :=
  "organizations/" ++ organizationId.text ++ "/media/" ++ mediaAssetId.text ++ "/original." ++
    extensionForContentType contentType

/-- The checks of the request; the asset is not there yet. -/
def CreateUploadIntentRequest.validate (config : Config) (body : CreateUploadIntentRequest)
    (organizationId actorUserId mediaAssetId : Uuid) : Except ApiError MediaAsset := do
  let originalFilename ← validateFilename body.originalFilename
  let contentType ← validateImageContentType body.contentType
  failIf (body.byteSize ≤ 0 ∨ config.maxImageBytes < body.byteSize)
    (.invalidRequest "invalid_media_byte_size")
  let sha256 ← validateSha256 body.sha256
  let visibility ← validateVisibility body.visibility
  let altText ← Api.optional (requiredChars · 500 "invalid_media_alt_text") body.altText
  return { id := mediaAssetId, organizationId := organizationId, uploadedByUserId := actorUserId,
           bucket := config.bucket,
           objectKey := objectKeyFor organizationId mediaAssetId contentType,
           originalFilename := originalFilename, contentType := contentType, byteSize := body.byteSize,
           width := none, height := none, sha256 := sha256, visibility := visibility,
           status := .pending, altText := altText }

/-- The row and its audit entry, under the keys of the table. With the answer the authorization is in
the hands of the client. -/
def insertAsset (asset : MediaAsset) (authorization : UploadAuthorization) (db : Database) :
    Except ApiError Database := do
  failIf (∃ a ∈ db.assets, a.id = asset.id ∨ (a.bucket = asset.bucket ∧ a.objectKey = asset.objectKey))
    (.conflict "resource_already_exists")
  return { db with
    assets := db.assets ++ [asset]
    auditLogs := db.auditLogs ++
      [⟨asset.organizationId, asset.uploadedByUserId, .mediaUploadIntentCreate, asset.id⟩]
    authorizations := db.authorizations ++ [authorization] }

def presignUpload (config : Config) (asset : MediaAsset) (now : Int) : UploadAuthorization :=
  { mediaAssetId := asset.id, objectKey := asset.objectKey, contentType := asset.contentType,
    sha256 := asset.sha256, expiresAt := now + config.uploadTtl }

/-- `actor` is the user that the headers name, and `mediaAssetId` the fresh `Uuid::new_v4()`. -/
def createUploadIntent (config : Config) (actor : Option Uuid) (organizationId mediaAssetId : Uuid)
    (body : CreateUploadIntentRequest) : Handler Success := do
  let actorUserId ← Task.orElse actor (.failure .unauthorized)
  let allowed ← Task.read .other (·.directory.memberEditor organizationId actorUserId)
  Task.require allowed (.failure .forbidden)
  let asset ← Task.ofExcept (body.validate config organizationId actorUserId mediaAssetId) .failure
  let now ← Task.read .other (·.clock)
  Task.transact .other (insertAsset asset (presignUpload config asset now)) .failure
  return .created

/-! ### `complete_upload` -/

structure CompleteUploadRequest where
  width : Option Int
  height : Option Int
  deriving DecidableEq, Repr

def validateDimensions (width height : Option Int) : Except ApiError Unit :=
  failIf ((∃ w ∈ width, w ≤ 0) ∨ ∃ h ∈ height, h ≤ 0) (.invalidRequest "invalid_media_dimensions")

/-- What `head_object` tells of an object. -/
structure StoredObject where
  contentLength : Int
  contentType : Option String
  sha256Metadata : Option String
  deriving DecidableEq, Repr

/-- Two calls of the store: the head of the object, and its content, where its length is admitted. The
declared digest counts only if it is that of the content. -/
def headObject (config : Config) (mediaAssetId : Uuid) (objectKey : String) : Handler StoredObject := do
  let output ← Task.read (.complete mediaAssetId .head) (·.object objectKey)
  let output ← Task.orElse output (.failure (.storage "uploaded_object_not_found"))
  let contentLength : Int := output.bytes.size
  if contentLength ≤ 0 ∨ config.maxImageBytes < contentLength then
    pure { contentLength := contentLength, contentType := output.contentType, sha256Metadata := none }
  else
    let content ← Task.read (.complete mediaAssetId .read) (·.object objectKey)
    let content ← Task.orElse content (.failure (.storage "uploaded_object_not_found"))
    Task.require (decide ((content.bytes.size : Int) ≤ config.maxImageBytes))
      (.failure (.storage "uploaded_object_not_found"))
    let actualSha256 := hashBytes config.sha256 content.bytes
    pure { contentLength := contentLength, contentType := output.contentType,
           sha256Metadata := output.sha256.filter (· = actualSha256) }

def objectMatches (asset : MediaAsset) (stored : StoredObject) : Bool :=
  stored.contentLength = asset.byteSize && stored.contentType = some asset.contentType &&
    stored.sha256Metadata = some asset.sha256

def markFailed (mediaAssetId : Uuid) (db : Database) : Database :=
  { db with
    assets := updateWhere (·.id = mediaAssetId) (fun a => { a with status := .failed }) db.assets }

def deleteObject (objectKey : String) (db : Database) : Database :=
  { db with objects := db.objects.filter fun o => o.objectKey ≠ objectKey }

def markReady (mediaAssetId actorUserId : Uuid) (body : CompleteUploadRequest) (db : Database) :
    Except ApiError Database := do
  let asset ← okOr (db.asset mediaAssetId) .database
  return { db with
    assets := updateWhere (·.id = mediaAssetId)
      (fun a => { a with status := .ready, width := body.width, height := body.height }) db.assets
    auditLogs := db.auditLogs ++
      [⟨asset.organizationId, actorUserId, .mediaUploadComplete, mediaAssetId⟩] }

def completeUpload (config : Config) (mediaAssetId : Uuid) (actor : Option Uuid)
    (body : CompleteUploadRequest) : Handler Success := do
  let actorUserId ← Task.orElse actor (.failure .unauthorized)
  let _ ← Task.ofExcept (validateDimensions body.width body.height) .failure
  let pending ← Task.read (.complete mediaAssetId .fetch) (·.asset mediaAssetId)
  let pending ← Task.orElse pending (.failure .notFound)
  let allowed ← Task.read (.complete mediaAssetId .editor)
    (·.directory.memberEditor pending.organizationId actorUserId)
  Task.require allowed (.failure .forbidden)
  if pending.status = .ready then pure .ok
  else
    Task.require (pending.status = .pending) (.failure (.conflict "media_asset_not_pending"))
    let stored ← headObject config mediaAssetId pending.objectKey
    if objectMatches pending stored then
      Task.transact (.complete mediaAssetId .ready) (markReady mediaAssetId actorUserId body) .failure
      pure .ok
    else
      Task.write (.complete mediaAssetId .fail) (markFailed mediaAssetId)
      Task.write (.complete mediaAssetId (.delete pending.objectKey)) (deleteObject pending.objectKey)
      Task.exit (.failure (.conflict "uploaded_object_mismatch"))

/-! ### The path of a completion -/

/-- `completion_asset_id`: the asset whose completion the path names, as the middleware reads it. -/
def completionAssetId (config : Config) (method : Access.Method) (path : String) : Option Uuid :=
  if method = .post then
    (("/admin/platform/media/".toList.isPrefixOf? path.toList).bind
      ("/complete".toList.isSuffixOf? ·)).bind fun assetId =>
        if assetId = [] ∨ '/' ∈ assetId then none else config.parseUuid (String.ofList assetId)
  else none

/-- `acquire_completion_lock`: as many attempts as the deadline leaves room for. -/
def acquireCompletionLock (mediaAssetId : Uuid) : Nat → Handler PUnit
  | 0 => Task.exit (.failure (.conflict "media_completion_busy"))
  | attempts + 1 => do
      let acquired ← Task.acquire mediaAssetId
      if acquired then pure ⟨⟩ else acquireCompletionLock mediaAssetId attempts

/-- `serialize`; the lock goes back with the end of the process. -/
def serialize (config : Config) (method : Access.Method) (path : String) (attempts : Nat)
    (next : Handler Success) : Handler Success :=
  match completionAssetId config method path with
  | none => next
  | some mediaAssetId => do
      acquireCompletionLock mediaAssetId (attempts + 1)
      next

/-- The segments of a path that starts with a slash, as the router splits it. -/
def pathSegments (path : String) : Option (List String) :=
  match path.toList.splitOn '/' with
  | [] :: segments => some (segments.map String.ofList)
  | _ => none

/-- The values of a pattern's parameters; a parameter is not empty. -/
def capture : List Access.Piece → List String → Option (List String)
  | [], [] => some []
  | .lit text :: pattern, segment :: segments =>
      if segment = text then capture pattern segments else none
  | .param _ :: pattern, segment :: segments =>
      if segment = "" then none else (capture pattern segments).map (segment :: ·)
  | _, _ => none

def completeRoute : Access.Route :=
  ⟨.post, ["admin", "platform", "media", .param "media_asset_id", "complete"]⟩

/-- A request for a completion: what the middlewares see of it, whether the rest of `enforce` admits it,
and how many attempts at the lock the deadline leaves after the first. -/
structure CompletionRequest where
  method : Access.Method
  path : String
  json : Option Json
  admitted : Bool
  attempts : Nat
  actor : Option Uuid
  body : CompleteUploadRequest

/-- The router and the extractor: the parameter is decoded and parsed. -/
def deliver (config : Config) (request : CompletionRequest) : Handler Success :=
  let captured := if request.method = completeRoute.method then
    (pathSegments request.path).bind (capture completeRoute.pattern) else none
  match captured with
  | some [segment] =>
      match (config.percentDecode segment).bind config.parseUuid with
      | some mediaAssetId => completeUpload config mediaAssetId request.actor request.body
      | none => Task.exit .rejected
  | _ => Task.exit .rejected

/-- What `classify_request` sees of the tables. -/
def Config.appState (config : Config) (db : Database) : Access.AppState where
  database := some { config.resources with
    mediaAssets := fun mediaAssetId => (db.asset mediaAssetId).map (·.organizationId) }
  parseUuid := config.parseUuid

def passes : Access.RequestClass → Bool
  | .deny _ => false
  | _ => true

/-- A request through `enforce` and `serialize` to the router. -/
def handleCompletion (config : Config) (request : CompletionRequest) : Handler Success := do
  let outcome ← Task.read .other fun db =>
    Access.classifyRequest (config.appState db) request.method request.path request.json
  let requestClass ← Task.ofExcept outcome .failure
  Task.require (passes requestClass && request.admitted) .rejected
  serialize config request.method request.path request.attempts (deliver config request)

/-! ### The system -/

inductive Request
  | createUploadIntent (actor : Option Uuid) (organizationId mediaAssetId : Uuid)
      (body : CreateUploadIntentRequest)
  | complete (request : CompletionRequest)

/-- What happens outside: a client uses an authorization, and time passes. -/
inductive Event
  | put (authorization : UploadAuthorization) (bytes : ByteArray)
  | tick (elapsed : Nat)
  deriving DecidableEq

def putObject (authorization : UploadAuthorization) (bytes : ByteArray) (db : Database) : Database :=
  { db with objects := db.objects.filter (fun o => o.objectKey ≠ authorization.objectKey) ++
      [⟨authorization.objectKey, bytes, some authorization.contentType, some authorization.sha256⟩] }

def media (config : Config) : System Request Database Uuid Point Answer Event where
  program
    | .createUploadIntent actor organizationId mediaAssetId body =>
        createUploadIntent config actor organizationId mediaAssetId body fun r => .ret (.success r)
    | .complete request => handleCompletion config request fun r => .ret (.success r)
  change
    | .put authorization bytes => putObject authorization bytes
    | .tick elapsed => fun db => { db with clock := db.clock + elapsed }
  possible
    | .put authorization _, db =>
        authorization ∈ db.authorizations ∧ db.clock < authorization.expiresAt
    | .tick _, _ => True

instance (config : Config) : (e : Event) → (db : Database) → Decidable ((media config).possible e db)
  | .put authorization _, db =>
      inferInstanceAs (Decidable (authorization ∈ db.authorizations ∧ db.clock < authorization.expiresAt))
  | .tick _, _ => .isTrue trivial

end CrownFi.Media
