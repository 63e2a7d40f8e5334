import CrownFi.Voting.PublicSchema

/-!
# CrownFi.Voting.PublicRounds

**The public listing of a pageant's rounds** (`voting_public.rs`). The queries of the handler are texts
that nothing checks before they run. The one for the rounds finds what it should; the one for the
contestants of a round, which runs once for each round, speaks of columns that no migration creates, and
fails whatever is in the tables. So a pageant has a listing only as long as none of its rounds is public.
-/

namespace CrownFi.Voting.Public

open Lib CrownFi.Api

/-! ### Queries -/

def texts (values : List String) : List Datum := values.map .text

def visibleStatuses : List String := ["published", "active", "completed"]

/-- `SELECT 1 FROM pageants WHERE ..`. -/
def visibleQuery (pageantId : Uuid) : Sql.Query Table Datum where
  table := .pageants
  source := "pageants"
  joins := []
  outputs := [("?column?", .expr (.value (.int 1)))]
  filter := .and (.eq (.column "pageants" "id") (.value (.uuid pageantId)))
    (.isIn (.column "pageants" "status") (texts visibleStatuses))
  groupBy := none
  orderBy := []

def publicStatuses : List String := ["scheduled", "open", "closing", "closed", "anchored"]

def votesJoin : Sql.Join Table Datum where
  kind := .left
  table := .votes
  source := "v"
  condition := .eq (.column "v" "round_id") (.column "vr" "id")

/-- The rounds in a public status, with their votes. -/
def roundsQuery (pageantId : Uuid) : Sql.Query Table Datum where
  table := .votingRounds
  source := "vr"
  joins := [votesJoin]
  outputs :=
    [("id", .expr (.column "vr" "id")), ("pageant_id", .expr (.column "vr" "pageant_id")),
      ("category_id", .expr (.column "vr" "category_id")), ("slug", .expr (.column "vr" "slug")),
      ("title", .expr (.column "vr" "title")), ("description", .expr (.column "vr" "description")),
      ("status", .expr (.column "vr" "status")), ("opens_at", .expr (.column "vr" "opens_at")),
      ("closes_at", .expr (.column "vr" "closes_at")),
      ("eligibility_json", .expr (.column "vr" "eligibility_json")),
      ("total_votes", .count (.column "v" "id"))]
  filter := .and (.eq (.column "vr" "pageant_id") (.value (.uuid pageantId)))
    (.isIn (.column "vr" "status") (texts publicStatuses))
  groupBy := some (.column "vr" "id")
  orderBy :=
    [(.switch "vr" "status"
        [(.text "open", .int 0), (.text "scheduled", .int 1), (.text "closing", .int 2),
          (.text "closed", .int 3)] (.int 4), .ascending),
      (.column "vr" "opens_at", .descending), (.column "vr" "created_at", .descending)]

/-- The active contestants of a round, with their portraits. -/
def contestantsQuery (roundId : Uuid) : Sql.Query Table Datum where
  table := .votingRoundContestants
  source := "vrc"
  joins :=
    [⟨.inner, .pageantContestants, "pc", .eq (.column "pc" "id") (.column "vrc" "pageant_contestant_id")⟩,
      ⟨.inner, .contestants, "c", .eq (.column "c" "id") (.column "pc" "contestant_id")⟩,
      ⟨.left, .contestantMedia, "cm",
        .and (.and (.eq (.column "cm" "pageant_contestant_id") (.column "pc" "id"))
          (.eq (.column "cm" "purpose") (.value (.text "portrait"))))
          (.eq (.column "cm" "is_primary") (.value (.bool true)))⟩,
      ⟨.left, .mediaAssets, "ma",
        .and (.eq (.column "ma" "id") (.column "cm" "media_asset_id"))
          (.eq (.column "ma" "status") (.value (.text "ready")))⟩]
  outputs :=
    [("pageant_contestant_id", .expr (.column "pc" "id")), ("display_name", .expr (.column "c" "display_name")),
      ("country_code", .expr (.column "c" "country_code")),
      ("country_representation", .expr (.column "pc" "country_representation")),
      ("sash", .expr (.column "pc" "sash")), ("portrait_url", .expr (.column "ma" "public_url")),
      ("sort_order", .expr (.column "vrc" "sort_order"))]
  filter := .and (.eq (.column "vrc" "round_id") (.value (.uuid roundId)))
    (.eq (.column "pc" "status") (.value (.text "active")))
  groupBy := none
  orderBy := [(.column "vrc" "sort_order", .ascending), (.column "c" "display_name", .ascending)]

/-! ### Records -/

structure PublicVotingRound where
  id : Uuid
  pageantId : Uuid
  categoryId : Uuid
  slug : String
  title : String
  description : Option String
  status : String
  opensAt : Int
  closesAt : Int
  eligibilityJson : Json
  totalVotes : Int

structure PublicRoundContestant where
  pageantContestantId : Uuid
  displayName : String
  countryCode : Option String
  countryRepresentation : Option String
  sash : Option String
  portraitUrl : Option String
  sortOrder : Int

structure PublicRoundView where
  round : PublicVotingRound
  contestants : List PublicRoundContestant

/-! A row becomes a record if each field finds a value of its type under its name. -/

section Decoding

variable (r : Row) (name : String)

def getUuid : Option Uuid :=
  match r name with
  | some (.uuid u) => some u
  | _ => none

def getText : Option String :=
  match r name with
  | some (.text s) => some s
  | _ => none

def getOptionalText : Option (Option String) :=
  match r name with
  | none => some none
  | some (.text s) => some (some s)
  | _ => none

def getInt : Option Int :=
  match r name with
  | some (.int n) => some n
  | _ => none

def getTimestamp : Option Int :=
  match r name with
  | some (.timestamp t) => some t
  | _ => none

def getJson : Option Json :=
  match r name with
  | some (.json value) => some value
  | _ => none

def decodeRound : Option PublicVotingRound := do
  return { id := ← getUuid r "id", pageantId := ← getUuid r "pageant_id"
           categoryId := ← getUuid r "category_id", slug := ← getText r "slug", title := ← getText r "title"
           description := ← getOptionalText r "description", status := ← getText r "status"
           opensAt := ← getTimestamp r "opens_at", closesAt := ← getTimestamp r "closes_at"
           eligibilityJson := ← getJson r "eligibility_json", totalVotes := ← getInt r "total_votes" }

def decodeContestant : Option PublicRoundContestant := do
  return { pageantContestantId := ← getUuid r "pageant_contestant_id"
           displayName := ← getText r "display_name", countryCode := ← getOptionalText r "country_code"
           countryRepresentation := ← getOptionalText r "country_representation"
           sash := ← getOptionalText r "sash", portraitUrl := ← getOptionalText r "portrait_url"
           sortOrder := ← getInt r "sort_order" }

end Decoding

/-! ### The handler -/

/-- PostgreSQL, with the order that it keeps values in. -/
def postgres (le : Datum → Datum → Bool) : Sql.Values Datum where
  le
  number n := .int n

/-- `SELECT EXISTS (..)`, with `map_database_error`. -/
def fetchExists (le : Datum → Datum → Bool) (db : Database) (q : Sql.Query Table Datum) :
    Except ApiError Bool :=
  match q.run (postgres le) catalog db with
  | .error _ => .error .database
  | .ok rows => .ok !rows.isEmpty

/-- `fetch_all`, with `map_database_error`. -/
def fetchAll {α : Type} (le : Datum → Datum → Bool) (db : Database) (q : Sql.Query Table Datum)
    (decode : Row → Option α) : Except ApiError (List α) :=
  match q.run (postgres le) catalog db with
  | .error _ => .error .database
  | .ok rows =>
      match rows.mapM decode with
      | none => .error .database
      | some records => .ok records

def listPageantRounds (le : Datum → Datum → Bool) (db : Database) (pageantId : Uuid) :
    Except ApiError (List PublicRoundView) := do
  let pageantVisible ← fetchExists le db (visibleQuery pageantId)
  if pageantVisible = false then
    throw .notFound
  let rounds ← fetchAll le db (roundsQuery pageantId) decodeRound
  rounds.mapM fun round => do
    let contestants ← fetchAll le db (contestantsQuery round.id) decodeContestant
    return { round, contestants }

/-! ### What the listing is for -/

def hasStatus (statuses : List String) (r : Row) : Bool := statuses.any fun s => r "status" = some (.text s)

/-- The pageant is published, active or completed. -/
def Visible (db : Database) (pageantId : Uuid) : Prop :=
  ∃ r ∈ db .pageants, r "id" = some (.uuid pageantId) ∧ hasStatus visibleStatuses r = true

/-- The pageant's rounds in a public status. -/
def publicRounds (db : Database) (pageantId : Uuid) : List Row :=
  (db .votingRounds).filter fun r => r "pageant_id" = some (.uuid pageantId) && hasStatus publicStatuses r

/-- The number of votes that are stored for a round. -/
def voteCount (db : Database) (roundId : Option Datum) : Nat := (db .votes).countP (· "round_id" = roundId)

/-- The contestants of a round that are active. -/
def activeContestants (db : Database) (roundId : Uuid) : List (Option Datum) :=
  ((db .votingRoundContestants).filter fun e => e "round_id" = some (.uuid roundId) &&
    (db .pageantContestants).any fun pc => pc "id" = e "pageant_contestant_id" &&
      pc "status" = some (.text "active")).map (· "pageant_contestant_id")

/-- The listing has the public rounds and no others, each with the number of its votes, and with each of
its active contestants once. -/
structure Lists (db : Database) (pageantId : Uuid) (views : List PublicRoundView) : Prop where
  rounds : (views.map fun v => (some (Datum.uuid v.round.id), v.round.totalVotes)).Perm
    ((publicRounds db pageantId).map fun r => (r "id", (voteCount db (r "id") : Int)))
  contestants : ∀ v ∈ views, (v.contestants.map fun c => some (Datum.uuid c.pageantContestantId)).Perm
    (activeContestants db v.round.id)

/-! ### What the queries find -/

variable {le : Datum → Datum → Bool} {db : Database} {pageantId roundId : Uuid} {source : String} {r : Row}

theorem holds_status {statuses : List String} {t : Sql.Tuple Datum} (ht : t source = some r) :
    (Sql.Condition.isIn (.column source "status") (texts statuses)).holds t = hasStatus statuses r := by
  show ((t source).bind (· "status")).any (· ∈ texts statuses) = _
  rw [ht, Option.bind_some, hasStatus, texts]
  cases r "status" with
  | none => simp
  | some d =>
      rw [Option.any_some, Bool.eq_iff_iff, decide_eq_true_iff, List.any_eq_true, List.mem_map]
      exact exists_congr fun s => and_congr_right fun _ => by simp [eq_comm]

theorem holds_uuid {name : String} {u : Uuid} {t : Sql.Tuple Datum} (ht : t source = some r) :
    (Sql.Condition.eq (.column source name) (.value (.uuid u))).holds t =
      decide (r name = some (.uuid u)) := by
  show ((t source).bind (· name)).any (fun d => some (.uuid u) = some d) = _
  rw [ht, Option.bind_some]
  cases r name with
  | none => simp
  | some d => simp [eq_comm]

theorem visibleQuery_selected : (visibleQuery pageantId).selected db =
    (db .pageants).filter fun r => r "id" = some (.uuid pageantId) && hasStatus visibleStatuses r := by
  refine List.filter_congr fun r _ => ?_
  have hrow := Sql.start_source "pageants" r
  exact congrArg₂ (· && ·) (holds_uuid hrow) (holds_status hrow)

theorem roundsQuery_selected : (roundsQuery pageantId).selected db = publicRounds db pageantId := by
  refine List.filter_congr fun r _ => ?_
  have hrow := Sql.start_source "vr" r
  exact congrArg₂ (· && ·) (holds_uuid hrow) (holds_status hrow)

theorem visibleQuery_extends : (visibleQuery pageantId).Extends where
  joins := nofun
  filter := by
    intro column h
    simp only [visibleQuery, Sql.Condition.columns, Sql.Expr.columns, List.append_nil, List.cons_append,
      List.nil_append, List.mem_cons, List.not_mem_nil, or_false] at h
    rcases h with rfl | rfl <;> rfl

theorem roundsQuery_extends : (roundsQuery pageantId).Extends where
  joins j h := by
    obtain rfl := List.mem_singleton.mp h
    exact ⟨rfl, show "v" ≠ "vr" by decide⟩
  filter := by
    intro column h
    simp only [roundsQuery, Sql.Condition.columns, Sql.Expr.columns, List.append_nil, List.cons_append,
      List.nil_append, List.mem_cons, List.not_mem_nil, or_false] at h
    rcases h with rfl | rfl <;> rfl

theorem visibleQuery_defined : (visibleQuery pageantId).undefined? catalog = none := by
  rfl

theorem roundsQuery_defined : (roundsQuery pageantId).undefined? catalog = none := by
  rfl

/-- The votes that a round is joined with. -/
theorem length_found_votes (hid : (r "id").isSome) :
    (votesJoin.found db (Sql.start "vr" r)).length = voteCount db (r "id") := by
  obtain ⟨u, hu⟩ := Option.isSome_iff_exists.mp hid
  rw [Sql.Join.found, ← List.countP_eq_length_filter, List.countP_map]
  refine List.countP_congr fun v _ => ?_
  show (v "round_id").any (fun d => r "id" = some d) = true ↔ decide (v "round_id" = r "id") = true
  rw [hu]
  cases v "round_id" with
  | none => simp
  | some d => simp [eq_comm]

/-- **The rounds of the listing are found**: each public round once, with the number of its votes. -/
theorem rounds_counted (h : Sql.Conforms catalog db) :
    (((roundsQuery pageantId).rows (postgres le) db).map fun r => (r "id", r "total_votes")).Perm
      ((publicRounds db pageantId).map fun r => (r "id", some (.int (voteCount db (r "id"))))) := by
  have hid (r : Row) (hr : r ∈ db .votingRounds) : (r "id").isSome :=
    h.isSome (t := .votingRounds) (c := uuid "id") hr List.mem_cons_self rfl
  have hvote (v : Row) (hv : v ∈ db .votes) : (v "id").isSome :=
    h.isSome (t := .votes) (c := uuid "id") hv List.mem_cons_self rfl
  have hids : ((db .votingRounds).map (· "id")).Nodup :=
    Sql.nodup_of_unique (h.keys .votingRounds _ List.mem_cons_self) hid
  have hkey : (((roundsQuery pageantId).selected db).map (· "id")).Nodup :=
    hids.sublist (List.filter_sublist.map _)
  refine ((Sql.rows_extending roundsQuery_extends rfl rfl hkey).map _).trans ?_
  rw [List.map_map, roundsQuery_selected]
  refine .of_eq (List.map_congr_left fun r hr => ?_)
  -- one group is one round with its votes
  have hround : Sql.evalGroup (.column "vr" "id") (votesJoin.apply db (Sql.start "vr" r)) = r "id" :=
    Sql.evalGroup_block rfl (by decide)
  have hcount : (votesJoin.apply db (Sql.start "vr" r)).countP
      (fun t => ((Sql.Expr.column "v" "id").eval t).isSome) = voteCount db (r "id") := by
    rw [← length_found_votes (hid r (List.mem_of_mem_filter hr))]
    exact Sql.countP_block (j := votesJoin) hvote
  refine Prod.ext hround ?_
  exact congrArg (fun n : Nat => some (Datum.int n)) hcount

/-- **No migration creates the columns that the portraits are looked up with.** -/
theorem contestantsQuery_undefined : (contestantsQuery roundId).columns.filter
    (fun column => !(contestantsQuery roundId).resolves catalog column) =
      [("cm", "purpose"), ("cm", "is_primary"), ("ma", "public_url")] := by
  rfl

/-! ### When there is a listing -/

/-- The contestants of a round are never found. -/
theorem contestants_failed {α : Type} {decode : Row → Option α} :
    fetchAll le db (contestantsQuery roundId) decode = .error .database := by
  have hundefined : (contestantsQuery roundId).undefined? catalog = some ("cm", "purpose") := rfl
  rw [fetchAll, Sql.run_undefined hundefined]

/-- A pageant that is visible is found. -/
theorem visible_found (h : Visible db pageantId) : fetchExists le db (visibleQuery pageantId) = .ok true := by
  obtain ⟨r, hr, hid, hstatus⟩ := h
  have hselected : (visibleQuery pageantId).selected db ≠ [] := by
    rw [visibleQuery_selected]
    refine List.ne_nil_of_mem (List.mem_filter.mpr ⟨hr, ?_⟩)
    rw [Bool.and_eq_true]
    exact ⟨decide_eq_true hid, hstatus⟩
  have hrows : (visibleQuery pageantId).rows (postgres le) db ≠ [] :=
    mt (Sql.rows_eq_nil_iff visibleQuery_extends).mp hselected
  rw [fetchExists, Sql.run_defined visibleQuery_defined]
  show Except.ok (!List.isEmpty _) = _
  rw [List.isEmpty_eq_false_iff.mpr hrows, Bool.not_false]

/-- The listing of a visible pageant, from its rounds. -/
theorem listing_of_visible (h : Visible db pageantId) :
    listPageantRounds le db pageantId = (fetchAll le db (roundsQuery pageantId) decodeRound).bind fun rounds =>
      rounds.mapM fun _ => (.error .database : Except ApiError PublicRoundView) := by
  unfold listPageantRounds
  simp only [visible_found h, contestants_failed]
  rfl

/-- Nothing is listed if there is something to list. -/
theorem listing_failed (h : Visible db pageantId) (hpublic : publicRounds db pageantId ≠ []) :
    listPageantRounds le db pageantId = .error .database := by
  have hrows : (roundsQuery pageantId).rows (postgres le) db ≠ [] := by
    refine mt (Sql.rows_eq_nil_iff roundsQuery_extends).mp ?_
    rwa [roundsQuery_selected]
  obtain ⟨r, rest, hr⟩ := List.exists_cons_of_ne_nil hrows
  rw [listing_of_visible h, fetchAll, Sql.run_defined roundsQuery_defined]
  dsimp only
  rw [hr, List.mapM_cons]
  cases decodeRound r with
  | none => rfl
  | some round =>
      -- the first round asks for its contestants
      cases rest.mapM decodeRound with
      | none => rfl
      | some rounds => rfl

theorem listing_empty (h : Visible db pageantId) (hpublic : publicRounds db pageantId = []) :
    listPageantRounds le db pageantId = .ok [] := by
  have hrows : (roundsQuery pageantId).rows (postgres le) db = [] := by
    rw [Sql.rows_eq_nil_iff roundsQuery_extends, roundsQuery_selected, hpublic]
  rw [listing_of_visible h, fetchAll, Sql.run_defined roundsQuery_defined]
  dsimp only
  rw [hrows]
  rfl

/-- **A visible pageant has its listing exactly if none of its rounds is public**, whatever the tables
hold. -/
theorem listing_correct_iff (le : Datum → Datum → Bool) (db : Database) (pageantId : Uuid)
    (h : Visible db pageantId) :
    (∃ views, listPageantRounds le db pageantId = .ok views ∧ Lists db pageantId views) ↔
      publicRounds db pageantId = [] := by
  constructor
  · rintro ⟨views, hviews, -⟩
    by_contra hpublic
    rw [listing_failed h hpublic] at hviews
    cases hviews
  · intro hpublic
    refine ⟨[], listing_empty h hpublic, ?_, fun v hv => by cases hv⟩
    rw [hpublic]
    exact .nil

/-! A published pageant with one round. -/

def row (fields : List (String × Datum)) : Row := fun name => (fields.find? (·.1 = name)).map (·.2)

def publishedPageant : Row := row
  [("id", .uuid 1), ("organization_id", .uuid 2), ("name", .text "Miss Harbor"), ("slug", .text "miss-harbor"),
    ("status", .text "published"), ("timezone", .text "Asia/Manila"), ("created_by_user_id", .uuid 3),
    ("created_at", .timestamp 0), ("updated_at", .timestamp 0)]

def roundIn (status : String) : Row := row
  [("id", .uuid 4), ("organization_id", .uuid 2), ("pageant_id", .uuid 1), ("category_id", .uuid 5),
    ("slug", .text "finals"), ("title", .text "Finals"), ("status", .text status), ("opens_at", .timestamp 10),
    ("closes_at", .timestamp 20), ("max_votes_per_user", .int 1), ("eligibility_json", .json (.object [])),
    ("created_by_user_id", .uuid 3), ("created_at", .timestamp 0), ("updated_at", .timestamp 0)]

def harborDatabase (status : String) : Database
  | .pageants => [publishedPageant]
  | .votingRounds => [roundIn status]
  | _ => []

theorem harbor_visible (status : String) : Visible (harborDatabase status) 1 :=
  ⟨publishedPageant, List.mem_singleton_self _, by decide, by decide⟩

theorem harbor_conforms : Sql.Conforms catalog (harborDatabase "open") :=
  Sql.conforms_of_check fun t => by
    cases t <;> decide +kernel

/-- A pageant whose round is a draft has its listing. -/
theorem listing_correct_draft :
    ∃ views, listPageantRounds (fun _ _ => true) (harborDatabase "draft") 1 = .ok views ∧
      Lists (harborDatabase "draft") 1 views :=
  (listing_correct_iff (fun _ _ => true) (harborDatabase "draft") 1 (harbor_visible "draft")).mpr (by decide)

/-- One open round, and the listing is gone. -/
theorem not_listing_correct : ¬ ∀ (le : Datum → Datum → Bool) (db : Database) (pageantId : Uuid),
    Sql.Conforms catalog db → Visible db pageantId →
      ∃ views, listPageantRounds le db pageantId = .ok views ∧ Lists db pageantId views := by
  intro hall
  obtain ⟨views, hviews, -⟩ := hall (fun _ _ => true) (harborDatabase "open") 1 harbor_conforms
    (harbor_visible "open")
  have hpublic : publicRounds (harborDatabase "open") 1 ≠ [] :=
    List.ne_nil_of_mem (a := roundIn "open")
      (List.mem_filter.mpr ⟨List.mem_singleton_self _, by decide⟩)
  rw [listing_failed (harbor_visible "open") hpublic] at hviews
  cases hviews

end CrownFi.Voting.Public
