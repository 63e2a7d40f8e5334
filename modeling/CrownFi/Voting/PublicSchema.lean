import CrownFi.Api.Json
import CrownFi.Lib.Sql
import CrownFi.Lib.Trim

/-!
# CrownFi.Voting.PublicSchema

The tables that the public listing of voting rounds joins, column by column as the migrations create
them (`202607140001_platform_foundation.sql`, `202607170001_voting_rounds_and_intake.sql`; no later
migration changes them). References to tables that the listing does not join are left out.
-/

namespace CrownFi.Voting.Public

open Lib CrownFi.Api

/-- What a column can hold. -/
inductive Datum
  | uuid (u : Uuid)
  | text (s : String)
  | int (n : Int)
  | bool (b : Bool)
  | timestamp (t : Int)
  | json (value : Json)
  deriving DecidableEq

inductive Table
  | pageants
  | contestants
  | pageantContestants
  | mediaAssets
  | contestantMedia
  | votingRounds
  | votingRoundContestants
  | votes
  deriving DecidableEq, Repr

abbrev Row := Sql.Row Datum

abbrev Database := Sql.Tables Table Datum

/-! ### Columns -/

section Columns

def uuid (name : String) : Sql.Column Datum where
  name
  nullable := false
  admits
    | .uuid _ => true
    | _ => false

def text (name : String) (check : String → Bool) : Sql.Column Datum where
  name
  nullable := false
  admits
    | .text s => check s
    | _ => false

/-- An integer of so many bits. -/
def integer (bits : Nat) (name : String) (check : Int → Bool) : Sql.Column Datum where
  name
  nullable := false
  admits
    | .int n => -2 ^ (bits - 1) ≤ n && n < 2 ^ (bits - 1) && check n
    | _ => false

def timestamp (name : String) : Sql.Column Datum where
  name
  nullable := false
  admits
    | .timestamp _ => true
    | _ => false

/-- `JSONB .. CHECK (jsonb_typeof(..) = 'object')`. -/
def jsonObject (name : String) : Sql.Column Datum where
  name
  nullable := false
  admits
    | .json value => value.isObject
    | _ => false

/-- The column without `NOT NULL`. -/
def orNull (c : Sql.Column Datum) : Sql.Column Datum := { c with nullable := true }

def unchecked {α : Type} (_ : α) : Bool := true

/-- `char_length(btrim(..)) BETWEEN low AND high`. -/
def between (low high : Nat) (s : String) : Bool :=
  low ≤ (trim (· = ' ') s.toList).length && (trim (· = ' ') s.toList).length ≤ high

def isSlugChar (c : Char) : Bool := ('a' ≤ c && c ≤ 'z') || ('0' ≤ c && c ≤ '9')

/-- `^[a-z0-9]+(-[a-z0-9]+)*$`. -/
def isSlug (s : String) : Bool :=
  (s.toList.splitOn '-').all fun part => !part.isEmpty && part.all isSlugChar

/-- `^[0-9a-f]{64}$`. -/
def isSha256 (s : String) : Bool :=
  s.toList.length = 64 && s.toList.all fun c => ('0' ≤ c && c ≤ '9') || ('a' ≤ c && c ≤ 'f')

/-- `^[A-Z]{2}$`. -/
def isCountryCode (s : String) : Bool :=
  s.toList.length = 2 && s.toList.all fun c => 'A' ≤ c && c ≤ 'Z'

def oneOf (values : List String) (s : String) : Bool := s ∈ values

/-- A check on two times, if both are there. -/
def times (first second : String) (check : Int → Int → Bool) (r : Row) : Bool :=
  match r first, r second with
  | some (.timestamp t), some (.timestamp t') => check t t'
  | _, _ => true

/-- A text column in lower case. -/
def lower (name : String) (r : Row) : Option Datum :=
  match r name with
  | some (.text s) => some (.text s.toLower)
  | d => d

end Columns

/-! ### Tables -/

def pageants : Sql.TableDefinition Table Datum where
  columns :=
    [uuid "id", uuid "organization_id", text "name" (between 1 200), text "slug" isSlug,
      orNull (text "description" unchecked),
      text "status" (oneOf ["draft", "published", "active", "completed", "archived"]),
      orNull (timestamp "starts_at"), orNull (timestamp "ends_at"), text "timezone" unchecked,
      orNull (text "venue_name" unchecked), uuid "created_by_user_id", timestamp "created_at",
      timestamp "updated_at"]
  checks := [times "starts_at" "ends_at" fun startsAt endsAt => startsAt ≤ endsAt]
  keys := [Sql.unique ["id"], Sql.unique ["organization_id", "slug"]]
  references := []

def contestants : Sql.TableDefinition Table Datum where
  columns :=
    [uuid "id", orNull (text "legal_name" unchecked), text "display_name" (between 1 200),
      orNull (text "biography" unchecked), orNull (text "country_code" isCountryCode), uuid "created_by_user_id",
      timestamp "created_at", timestamp "updated_at"]
  checks := []
  keys := [Sql.unique ["id"]]
  references := []

def pageantContestants : Sql.TableDefinition Table Datum where
  columns :=
    [uuid "id", uuid "pageant_id", uuid "contestant_id", orNull (text "sash" unchecked),
      orNull (integer 32 "contestant_number" (0 < ·)), orNull (text "country_representation" unchecked),
      text "status" (oneOf ["draft", "active", "withdrawn", "disqualified", "archived"]),
      orNull (uuid "payout_stellar_account_id"), jsonObject "profile_json", integer 32 "sort_order" unchecked,
      timestamp "created_at", timestamp "updated_at"]
  checks := []
  keys :=
    [Sql.unique ["id"], Sql.unique ["pageant_id", "contestant_id"],
      fun r => do return [← r "pageant_id", ← lower "sash" r],
      Sql.unique ["pageant_id", "contestant_number"]]
  references := [⟨"pageant_id", .pageants, "id"⟩, ⟨"contestant_id", .contestants, "id"⟩]

def mediaAssets : Sql.TableDefinition Table Datum where
  columns :=
    [uuid "id", uuid "organization_id", uuid "uploaded_by_user_id", text "storage_provider" (oneOf ["r2"]),
      text "bucket" (between 1 255), text "object_key" (between 1 1024),
      text "original_filename" (between 1 255), text "content_type" (·.startsWith "image/"),
      integer 64 "byte_size" (0 < ·), orNull (integer 32 "width" (0 < ·)),
      orNull (integer 32 "height" (0 < ·)), text "sha256" isSha256,
      text "visibility" (oneOf ["private", "unlisted", "public"]),
      text "status" (oneOf ["pending", "ready", "failed", "deleted"]), orNull (text "alt_text" unchecked),
      timestamp "created_at", timestamp "updated_at"]
  checks := []
  keys := [Sql.unique ["id"], Sql.unique ["storage_provider", "bucket", "object_key"]]
  references := []

def contestantMedia : Sql.TableDefinition Table Datum where
  columns :=
    [uuid "id", uuid "pageant_contestant_id", uuid "media_asset_id",
      text "role" (oneOf ["portrait", "banner", "gallery", "section"]), orNull (text "caption" unchecked),
      integer 32 "sort_order" unchecked, timestamp "created_at"]
  checks := []
  keys :=
    [Sql.unique ["id"], Sql.unique ["pageant_contestant_id", "media_asset_id", "role"],
      fun r => if r "role" = some (.text "portrait") then Sql.unique ["pageant_contestant_id"] r else none]
  references :=
    [⟨"pageant_contestant_id", .pageantContestants, "id"⟩, ⟨"media_asset_id", .mediaAssets, "id"⟩]

def votingRounds : Sql.TableDefinition Table Datum where
  columns :=
    [uuid "id", uuid "organization_id", uuid "pageant_id", uuid "category_id", text "slug" isSlug,
      text "title" (between 1 200), orNull (text "description" unchecked),
      text "status" (oneOf ["draft", "scheduled", "open", "closing", "closed", "anchored", "cancelled"]),
      timestamp "opens_at", timestamp "closes_at", integer 16 "max_votes_per_user" (· = 1),
      jsonObject "eligibility_json", uuid "created_by_user_id", orNull (timestamp "opened_at"),
      orNull (timestamp "closed_at"), timestamp "created_at", timestamp "updated_at"]
  checks := [times "opens_at" "closes_at" fun opensAt closesAt => opensAt < closesAt]
  keys := [Sql.unique ["id"], Sql.unique ["pageant_id", "slug"]]
  references := [⟨"pageant_id", .pageants, "id"⟩]

def votingRoundContestants : Sql.TableDefinition Table Datum where
  columns :=
    [uuid "round_id", uuid "pageant_contestant_id", integer 32 "sort_order" (0 ≤ ·), timestamp "created_at"]
  checks := []
  keys := [Sql.unique ["round_id", "pageant_contestant_id"], Sql.unique ["round_id", "sort_order"]]
  references :=
    [⟨"round_id", .votingRounds, "id"⟩, ⟨"pageant_contestant_id", .pageantContestants, "id"⟩]

def votes : Sql.TableDefinition Table Datum where
  columns :=
    [uuid "id", uuid "organization_id", uuid "pageant_id", uuid "round_id", uuid "pageant_contestant_id",
      uuid "voter_user_id", text "idempotency_key" (between 1 200), text "request_sha256" isSha256,
      text "receipt_hash" isSha256, timestamp "accepted_at", timestamp "created_at"]
  checks := []
  keys :=
    [Sql.unique ["id"], Sql.unique ["round_id", "voter_user_id"],
      Sql.unique ["round_id", "voter_user_id", "idempotency_key"], Sql.unique ["receipt_hash"]]
  references :=
    [⟨"pageant_id", .pageants, "id"⟩, ⟨"round_id", .votingRounds, "id"⟩,
      ⟨"pageant_contestant_id", .pageantContestants, "id"⟩]

/-- What the migrations create. -/
def catalog : Sql.Catalog Table Datum
  | .pageants => pageants
  | .contestants => contestants
  | .pageantContestants => pageantContestants
  | .mediaAssets => mediaAssets
  | .contestantMedia => contestantMedia
  | .votingRounds => votingRounds
  | .votingRoundContestants => votingRoundContestants
  | .votes => votes

end CrownFi.Voting.Public
