import CrownFi.Markets.AtStake

/-!
# CrownFi.Markets.UserCap

**The exposure of a user and its limit.** A new intent is checked against what the user has at
stake when the request reads it. The sum that is read leaves out submitted intents past their
expiry, which may still be confirmed; and nothing keeps another request of the same user from
reading the same sum before the first intent is inserted. So the limit holds exactly as far as
neither happens: the sum is complete when it is read, and the schedule is one that is also possible
if reading it locked what the user has at stake until the request ends.
-/

namespace CrownFi.Markets

open Lib CrownFi.Api Positions

variable {ext : External}

/-! ### The condition -/

/-- The locks that the handlers would need: on what a user has at stake, from its reading to the end
of the request, and on the clock, while the submission of an intent is written. -/
def stakeLocks : Site → List (Lock Row)
  | .userExposure marketId userId => [⟨.atStake marketId userId, .update⟩]
  | .submit _ _ | .passes => [⟨.clock, .update⟩]
  | _ => []

/-- The exposure that is read leaves no submitted intent out, and an intent that is submitted has
not expired, nor been confirmed, in the meantime. -/
def ExposureCounted : Site → Database → Prop
  | .userExposure marketId userId, db => SubmittedFresh marketId userId db
  | .submit intentId _, db => (stakeIntentTable.find db intentId).all (Confirmable db.directory.clock) = true
  | _, _ => True

instance (marketId userId : Uuid) (db : Database) : Decidable (SubmittedFresh marketId userId db) :=
  inferInstanceAs (Decidable (∀ i ∈ db.stakeIntents, _))

instance (site : Site) (db : Database) : Decidable (ExposureCounted site db) := by
  unfold ExposureCounted
  split <;> infer_instance

abbrev UserOutline : Prog Database Row Site Result → List (Lock Row) → (Database → Database) →
    (Database → Prop) → Prop :=
  Safe UserBooks UserGuarantee ExposureCounted

/-- A request that keeps every user within the limits, if it takes the locks. -/
abbrev KeepsLimits (p : Prog Database Row Site Result) : Prop :=
  SafeRequest UserBooks UserGuarantee ExposureCounted (p.locking stakeLocks)

/-! ### What stays -/

section Stable

variable {L : List (Lock Row)} {marketId userId : Uuid} {m : LockMode}

theorem stable_userLimit {limit : Option Int} :
    Stable UserBooks UserGuarantee L
      fun db => (marketTable.find db marketId).map (·.maxUserExposureMinor) = limit :=
  fun _ _ _ _ _ _ hA hG => (hG.moved.limits marketId).trans hA

/-- What a user has at stake grows only under its lock. -/
theorem stable_atStake {bound : Int} (hlock : ⟨.atStake marketId userId, m⟩ ∈ L)
    (hmode : m.protects = true) :
    Stable UserBooks UserGuarantee L fun db => atStake marketId userId db ≤ bound :=
  fun _ _ _ hcompat _ _ hA hG =>
    (hG.moved.atStake marketId userId (hcompat.not_writes hlock hmode)).trans hA

theorem stable_clock {now : Int} (hlock : ⟨.clock, m⟩ ∈ L) (hmode : m.protects = true) :
    Stable UserBooks UserGuarantee L fun db => db.directory.clock = now :=
  fun _ _ _ hcompat _ _ hA hG => (hG.moved.clock (hcompat.not_writes hlock hmode)).trans hA

end Stable

/-! ### A new intent -/

section Add

variable {db : Database} {i : StakeIntent}

theorem atStake_add {marketId userId : Uuid} :
    atStake marketId userId (stakeIntentTable.add i db) =
      atStake marketId userId db + openBy marketId userId db.directory.clock i := by
  show total _ db.positions +
    total (openBy marketId userId db.directory.clock) (db.stakeIntents ++ [i]) = _
  rw [total_concat, atStake]
  omega

theorem openBy_of_ne {marketId userId : Uuid} {now : Int} (h : ¬ (i.marketId = marketId ∧ i.userId = userId)) :
    openBy marketId userId now i = 0 := by
  rw [openBy, if_neg]
  simp only [Bool.and_eq_true, decide_eq_true_eq, not_and]
  exact fun hwhose => absurd hwhose h

/-- A new intent within the limit of its market keeps the books. -/
theorem UserBooks.add (h : UserBooks db) (hnew : stakeIntentTable.find db i.id = none)
    (hpos : 0 < i.amountMinor)
    (hroom : ∀ m, marketTable.find db i.marketId = some m →
      atStake i.marketId i.userId db + i.amountMinor ≤ m.maxUserExposureMinor) :
    UserBooks (stakeIntentTable.add i db) where
  books := ⟨h.books.evidenceIds, h.books.evidenceIntents, h.books.evidenceHashes,
    h.books.evidenceEvents, h.books.positionIntents, h.books.backed, h.books.amounts⟩
  intentIds := stakeIntentTable.nodup_add h.intentIds (stakeIntentTable.find_none hnew)
  intentAmounts j hj := by
    rcases List.mem_append.mp hj with hj | hj
    · exact h.intentAmounts j hj
    · obtain rfl := List.mem_singleton.mp hj
      exact hpos
  capped id m hm userId := by
    rw [atStake_add]
    by_cases hwhose : i.marketId = id ∧ i.userId = userId
    · obtain ⟨rfl, rfl⟩ := hwhose
      have hroom := hroom m hm
      have hweight : openBy i.marketId i.userId db.directory.clock i ≤ i.amountMinor := by
        unfold openBy
        split <;> omega
      omega
    · rw [openBy_of_ne hwhose, add_zero]
      exact h.capped id m hm userId

/-- Whoever adds an intent has locked what its user has at stake. -/
theorem userRely_add {L : List (Lock Row)} (hlock : ⟨.atStake i.marketId i.userId, .update⟩ ∈ L) :
    UserRely L db (stakeIntentTable.add i db) where
  stakes := ⟨fun _ _ => le_refl _, rfl⟩
  clock _ := rfl
  limits _ := rfl
  atStake marketId userId hfree := by
    rw [atStake_add, openBy_of_ne, add_zero]
    rintro ⟨rfl, rfl⟩
    have := hfree _ hlock rfl
    cases this

end Add

theorem stakeIntent_new {i : StakeIntent} {began : Int} {db : Database}
    (h : Stakes.stakeIntentViolation i began db = none) : stakeIntentTable.find db i.id = none := by
  unfold Stakes.stakeIntentViolation at h
  split at h
  · cases h
  · split at h
    · cases h
    · rename_i hany
      exact stakeIntentTable.find_none_of_any (Bool.not_eq_true _ ▸ hany) fun j hj => by
        rw [decide_eq_true (show j.id = i.id from hj), Bool.true_or]

theorem stakeIntent_positive {i : StakeIntent} {began : Int} {db : Database}
    (h : Stakes.stakeIntentViolation i began db = none) : 0 < i.amountMinor := by
  unfold Stakes.stakeIntentViolation at h
  split at h
  · cases h
  · rename_i hcheck
    exact (not_not.mp hcheck).1

/-- **The insert of an intent**, with what its user has at stake locked. -/
theorem insertStakeIntent_outline {L : List (Lock Row)} {A : Database → Prop} {i : StakeIntent}
    {r : Response} (ht : Track stakePart UserBooks UserRely L id A)
    (hlock : ⟨.atStake i.marketId i.userId, .update⟩ ∈ L)
    (hroom : ∀ d, A d → ∀ m, marketTable.find d i.marketId = some m →
      atStake i.marketId i.userId d + i.amountMinor ≤ m.maxUserExposureMinor) :
    UserOutline (((do
      Stakes.insertStakeIntent i
      Tx.commit
      return r : Handler Response) fun r => .ret (.ok r)).locking stakeLocks) L id A := by
  unfold Stakes.insertStakeIntent
  refine safe_plain (Tx.plain_bind (Tx.plain_stmt rfl) fun _ => Tx.plain_insert rfl) ?_
  refine safe_bind (safe_select ht.stable fun _ began _ _ _ => ?_)
  refine ht.safe_insertRow fun db₁ A₁ _ _ hviolation h₁ => ?_
  refine safe_plain Tx.plain_commit (Lib.safe_commit (fun d hI hd => ?_) safe_lockingRet)
  have hviolation := raise_eq_none.mp hviolation
  have hadded := h₁.track.add intentLayout (r := i) (by simp [stakeIntentTable])
  have hnew : stakeIntentTable.find d i.id = none :=
    ((h₁.seen d hd).find intentLayout (List.mem_append_right _ List.mem_cons_self) rfl).trans
      (stakeIntent_new hviolation)
  refine ⟨hI.add hnew (stakeIntent_positive hviolation) (hroom d (h₁.before d hd)),
    hadded.framed d, userRely_add (List.mem_append_left _ hlock)⟩

theorem plain_check {α : Type} {answer : Database → α} {passed : α → Bool} {r : Result} :
    Tx.Plain stakeLocks (do
      let value ← Tx.select .other answer
      Tx.require (passed value) r : Handler PUnit) :=
  Tx.plain_bind (Tx.plain_stmt rfl) fun _ => Tx.plain_require

theorem createStakeIntent_keepsLimits (sha256 : Sha256) (userId marketId : Uuid)
    (idempotencyHeader : Option String) (body : Stakes.CreateStakeIntentRequest) (intentId : Uuid) :
    KeepsLimits
      (Stakes.createStakeIntent sha256 userId marketId idempotencyHeader body intentId).request := by
  unfold KeepsLimits SafeRequest OutlinedRequest Handler.request Stakes.createStakeIntent
  refine safe_plain (Tx.plain_bind (Tx.plain_stmt rfl) fun _ => Tx.plain_orElse) ?_
  refine safe_bind (Track.start.safe_stepKnowing
    (fun db d => (marketTable.find d marketId).map (·.maxUserExposureMinor) =
      (marketTable.find db marketId).map (·.maxUserExposureMinor)) (fun _ _ _ _ => rfl)
    (fun _ => stable_userLimit) fun db₁ A₁ _ _ _ h₁ hlimit => ?_)
  refine safe_orElse fun market hmarket => ?_
  rw [show marketTable.find db₁ marketId = some market from hmarket] at hlimit
  refine safe_plain Tx.plain_ofExcept (safe_ofExcept fun key _ => ?_)
  refine safe_plain (Tx.plain_stmt rfl) (safe_select h₁.track.stable fun _ now _ _ _ => ?_)
  refine safe_plain Tx.plain_require (safe_require fun _ => ?_)
  refine safe_plain Tx.plain_require (safe_require fun _ => ?_)
  refine safe_plain Tx.plain_require (safe_require fun _ => ?_)
  refine safe_plain plain_check (Tx.Reads.check.safe h₁.track.stable fun _ _ => ?_)
  refine safe_plain plain_check (Tx.Reads.check.safe h₁.track.stable fun _ _ => ?_)
  refine safe_plain Tx.plain_ofExcept (safe_ofExcept fun address _ => ?_)
  refine safe_plain (Tx.plain_stmt rfl) (safe_select h₁.track.stable fun _ found _ _ _ => ?_)
  refine safe_plain Tx.plain_orElse (safe_orElse fun account _ => ?_)
  refine safe_plain (Tx.plain_stmt rfl) (safe_select h₁.track.stable fun _ existing _ _ _ => ?_)
  cases existing with
  | some existing => exact safe_plain Tx.plain_require (safe_require fun _ => safe_lockingRet)
  | none =>
    refine safe_lockingBind (safe_lockingStmt fun db₂ hI₂ hA₂ hok => ?_)
    -- from here on nobody adds to what the user has at stake
    have hlock : (⟨.atStake marketId userId, .update⟩ : Lock Row) ∈
        [] ++ [] ++ ([] ++ stakeLocks (.userExposure marketId userId)) :=
      List.mem_singleton.mpr rfl
    obtain ⟨A₂, hA₂, h₂, hbound⟩ := h₁.track.afterKnowing hA₂
      (C := fun d => atStake marketId userId d ≤ atStake marketId userId db₂) (le_refl _)
      (stable_atStake hlock rfl)
    refine ⟨A₂, hA₂, h₂.track.stable, ?_⟩
    refine safe_plain Tx.plain_orElse (safe_orElse fun ofUser hread => ?_)
    have hcounted : atStake marketId userId db₂ ≤ ofUser := hI₂.atStake_le hok hread
    refine safe_plain (Tx.plain_bind Tx.plain_orElse fun _ => Tx.plain_require)
      (safe_bind (safe_orElse fun next hnext => safe_require fun hwithin => ?_))
    have hroom : ofUser + body.amountMinor ≤ market.maxUserExposureMinor := by
      rw [← checkedI64_eq_some hnext]
      exact of_decide_eq_true hwithin
    refine safe_plain (Tx.plain_stmt rfl) (safe_select h₂.track.stable fun _ ofMarket _ _ _ => ?_)
    refine safe_plain Tx.plain_orElse (safe_orElse fun ofMarket _ => ?_)
    refine safe_plain (Tx.plain_bind Tx.plain_orElse fun _ => Tx.plain_require)
      (safe_bind (safe_orElse fun _ _ => safe_require fun _ => ?_))
    refine insertStakeIntent_outline h₂.track ?_ fun d hd m hm => ?_
    · exact List.mem_singleton.mpr rfl
    · have hlimit := hlimit d (h₂.before d hd)
      rw [show marketTable.find d marketId = some m from hm] at hlimit
      have hlimit : m.maxUserExposureMinor = market.maxUserExposureMinor := Option.some.inj hlimit
      have hbound := hbound d hd
      show atStake marketId userId d + body.amountMinor ≤ _
      omega

/-! ### Intents that expire or are submitted -/

section Submit

variable {k : PUnit → Prog Database Row Site Result} {db view : Database} {intentId : Uuid}

/-- Intents that expire are at stake no more. -/
theorem sparesExpiry_userAside : SparesExpiry UserAside := by
  intro view db p hp
  exact
    { aside := sparesIntents_aside.expired view db p hp
      limits := fun _ => rfl
      intents := forall₂_updateWhere (fun i => refl_of Lapses i) fun i _ _ => ⟨rfl, .inr rfl⟩
      later := le_refl _
      clock := fun _ => rfl }

theorem safe_expire (next : UserOutline (k ⟨⟩) [] id fun _ => True) :
    UserOutline (Stakes.expireIntentIfNeeded intentId k) [] id fun _ => True :=
  safe_expiry sparesExpiry_userAside (fun _ _ _ ha hI => hI.aside ha)
    (fun _ _ _ ha hI => hI.guarantee_aside ha) next

theorem plain_expire : Tx.Plain stakeLocks (Stakes.expireIntentIfNeeded intentId) :=
  Tx.plain_bind (Tx.plain_stmt rfl) fun _ =>
    Tx.plain_bind (Tx.plain_update rfl) fun _ => Tx.plain_commit

theorem getMarketIntent_keepsLimits (actorUserId intentId : Uuid) :
    KeepsLimits (Stakes.getMarketIntent actorUserId intentId).request := by
  unfold KeepsLimits SafeRequest OutlinedRequest Handler.request Stakes.getMarketIntent
  refine safe_plain plain_expire (safe_expire ?_)
  refine safe_plain (Tx.plain_bind (Tx.plain_stmt rfl) fun _ => Tx.plain_orElse) ?_
  refine safe_bind (safe_select stable_true fun _ _ _ _ _ => safe_orElse fun intent _ => ?_)
  exact safe_plain plain_check (Tx.Reads.check.safe stable_true fun _ _ => safe_lockingRet)

/-- What a submission writes. -/
def submitted (txHash : String) (i : StakeIntent) : StakeIntent :=
  { i with status := .submitted, submittedTxHash := some txHash }

/-- **A submitted intent was at stake before.** -/
theorem UserBooks.atStake_submitted (h : UserBooks db) {txHash : String}
    (hopen : (stakeIntentTable.find db intentId).all (Confirmable db.directory.clock) = true)
    (marketId userId : Uuid) :
    atStake marketId userId (stakeIntentTable.modify (·.id = intentId) (submitted txHash) view db) =
      atStake marketId userId db := by
  refine congrArg (total (heldBy marketId userId) db.positions + ·) ?_
  refine total_updateWhere_eq fun i hi hmatch => ?_
  have hid : i.id = intentId := of_decide_eq_true (Bool.and_eq_true_iff.mp hmatch).1
  rw [← hid, show stakeIntentTable.find db i.id = some i from find?_key h.intentIds hi,
    Option.all_some] at hopen
  have hsubmitted : Confirmable db.directory.clock (submitted txHash i) = true := by
    simp [Confirmable, submitted]
  show openBy marketId userId db.directory.clock (submitted txHash i) =
    openBy marketId userId db.directory.clock i
  rw [openBy, openBy, hopen, hsubmitted]
  rfl

theorem UserBooks.submit (h : UserBooks db) {txHash : String}
    (hopen : (stakeIntentTable.find db intentId).all (Confirmable db.directory.clock) = true) :
    UserBooks (stakeIntentTable.modify (·.id = intentId) (submitted txHash) view db) where
  books := ⟨h.books.evidenceIds, h.books.evidenceIntents, h.books.evidenceHashes,
    h.books.evidenceEvents, h.books.positionIntents, h.books.backed, h.books.amounts⟩
  intentIds := by
    have hmap : (stakeIntentTable.modify (·.id = intentId) (submitted txHash) view db).stakeIntents.map
        (·.id) = db.stakeIntents.map (·.id) := map_updateWhere fun _ => rfl
    exact hmap ▸ h.intentIds
  intentAmounts i' hi' := by
    obtain ⟨i, hi, rfl⟩ := mem_updateWhere.mp hi'
    have hpos := h.intentAmounts i hi
    split <;> exact hpos
  capped id m hm userId := by
    rw [h.atStake_submitted hopen]
    exact h.capped id m hm userId

/-- The update of a submission: the clock is locked, and the intent with its row. -/
theorem submitIntent_outline {txHash : String} {r : Response} :
    UserOutline (((do
      Stakes.submitIntent intentId txHash
      return r : Handler Response) fun r => .ret (.ok r)).locking stakeLocks) [] id fun _ => True := by
  refine safe_lockingBind (safe_lockingBind (safe_lockingUpdate fun view hI _ hok => ?_))
  have hclock : (⟨.clock, .update⟩ : Lock Row) ∈ [] ++
      ((stakeIntentTable.matching (·.id = intentId) view).flatMap
        (fun i => [⟨.stakeIntent i.id, .noKeyUpdate⟩, ⟨.stakeTransaction txHash, .update⟩]) ++
        stakeLocks (.submit intentId txHash)) :=
    List.mem_append_right _ (List.mem_append_right _ (List.mem_singleton.mpr rfl))
  obtain ⟨A, hA, h₁, htime⟩ := Track.start.afterKnowing (A := fun _ => True) trivial
    (C := fun d : Database => d.directory.clock = view.directory.clock) rfl (stable_clock hclock rfl)
  refine ⟨A, hA, h₁.track.stable, ?_⟩
  refine safe_plain Tx.plain_commit (Lib.safe_commit (fun d hI hd => ?_) safe_lockingRet)
  have hmodified := h₁.track.modify intentLayout (p := (·.id = intentId)) (f := submitted txHash)
    (fun _ => rfl) fun i hi => ⟨_, List.mem_append_right _ (List.mem_append_left _
      (List.mem_flatMap.mpr ⟨i, hi, List.mem_cons_self⟩)), rfl, rfl⟩
  cases hfound : stakeIntentTable.find view intentId with
  | none =>
      -- there is no such intent, and nothing is written
      have hnone : stakeIntentTable.matching (·.id = intentId) view = [] :=
        List.filter_eq_nil_iff.mpr fun i hi hid =>
          stakeIntentTable.find_none hfound i hi (of_decide_eq_true hid)
      have hsame : stakeIntentTable.modify (·.id = intentId) (submitted txHash) view d = d :=
        stakeIntentTable.modify_none hnone
      show UserBooks (stakeIntentTable.modify (·.id = intentId) (submitted txHash) view d) ∧
        UserGuarantee _ d (stakeIntentTable.modify (·.id = intentId) (submitted txHash) view d)
      rw [hsame]
      exact ⟨hI, hI.guarantee_aside (Widening.refl _ d)⟩
  | some i =>
      obtain ⟨hmem, hid⟩ := stakeIntentTable.find_mem hfound
      have hlock : (⟨.stakeIntent intentId, .noKeyUpdate⟩ : Lock Row) ∈ [] ++
          ((stakeIntentTable.matching (·.id = intentId) view).flatMap
            (fun i => [⟨.stakeIntent i.id, .noKeyUpdate⟩, ⟨.stakeTransaction txHash, .update⟩]) ++
            stakeLocks (.submit intentId txHash)) := by
        refine List.mem_append_right _ (List.mem_append_left _ (List.mem_flatMap.mpr ⟨i, ?_, ?_⟩))
        · exact stakeIntentTable.mem_matching.mpr ⟨hmem, decide_eq_true hid⟩
        · rw [← hid]
          exact List.mem_cons_self
      have hopen : (stakeIntentTable.find d intentId).all (Confirmable d.directory.clock) = true := by
        have hrow : stakeIntentTable.find d intentId = stakeIntentTable.find view intentId :=
          (h₁.seen d hd).find intentLayout hlock rfl
        rw [hrow, htime d hd]
        exact hok
      refine ⟨hI.submit hopen, hmodified.framed d, ?_⟩
      exact ⟨⟨fun _ _ => le_refl _, rfl⟩, fun _ => rfl,
        fun _ _ _ => (hI.atStake_submitted hopen _ _).le, fun _ => rfl⟩

theorem recordSubmission_keepsLimits (actorUserId intentId : Uuid) (txHash : String) :
    KeepsLimits (Stakes.recordSubmission actorUserId intentId txHash).request := by
  unfold KeepsLimits SafeRequest OutlinedRequest Handler.request Stakes.recordSubmission
  refine safe_plain plain_expire (safe_expire ?_)
  refine safe_plain (Tx.plain_bind (Tx.plain_stmt rfl) fun _ => Tx.plain_orElse) ?_
  refine safe_bind (safe_select stable_true fun _ _ _ _ _ => safe_orElse fun intent _ => ?_)
  refine safe_plain plain_check (Tx.Reads.check.safe stable_true fun _ _ => ?_)
  refine safe_plain Tx.plain_require (safe_require fun _ => ?_)
  refine safe_plain Tx.plain_require (safe_require fun _ => ?_)
  refine safe_plain Tx.plain_ofExcept (safe_ofExcept fun hash _ => ?_)
  cases intent.submittedTxHash with
  | some existing => exact safe_plain Tx.plain_require (safe_require fun _ => safe_lockingRet)
  | none => exact submitIntent_outline

end Submit

/-! ### Every run -/

theorem passTime_keepsLimits (elapsed : Nat) (directory : Directory) (organizations : List Uuid)
    (pageants : List Pageant) :
    KeepsLimits (passTime elapsed directory organizations pageants).request := by
  unfold KeepsLimits SafeRequest OutlinedRequest Handler.request passTime
  refine safe_lockingBind (safe_lockingStmt fun _ _ _ _ => ⟨fun _ => True, trivial, stable_true, ?_⟩)
  refine safe_plain Tx.plain_commit (Lib.safe_commit (fun d hI _ => ?_) safe_lockingRet)
  have ha : UserAside ([] ++ ([] ++ stakeLocks .passes)) d { d with
      directory := { directory with clock := d.directory.clock + elapsed }
      organizations, pageants } := by
    refine ⟨.hidden (fun k => by cases k <;> rfl) rfl rfl rfl rfl, fun _ => rfl, List.forall₂_refl _,
      ?_, fun hfree => ?_⟩
    · show d.directory.clock ≤ d.directory.clock + elapsed
      omega
    · have := hfree ⟨.clock, .update⟩ (List.mem_singleton.mpr rfl) rfl
      cases this
  exact ⟨hI.aside ha, hI.guarantee_aside ha⟩

/-- The requests on stakes, and the passage of time. -/
inductive StakeRequest (ext : External) : Prog Database Row Site Result → Prop
  | createStakeIntent (userId marketId : Uuid) (idempotencyHeader : Option String)
      (body : Stakes.CreateStakeIntentRequest) (intentId : Uuid) :
      StakeRequest ext
        (Stakes.createStakeIntent ext.sha256 userId marketId idempotencyHeader body intentId).request
  | getMarketIntent (actorUserId intentId : Uuid) :
      StakeRequest ext (Stakes.getMarketIntent actorUserId intentId).request
  | recordStakeSubmission (actorUserId intentId : Uuid) (txHash : String) :
      StakeRequest ext (Stakes.recordSubmission actorUserId intentId txHash).request
  | acceptPositionEvidence (marketId : Uuid) (body : Positions.AcceptPositionEvidenceRequest)
      (ids : Positions.PositionIds) :
      StakeRequest ext (Positions.acceptPositionEvidence marketId body ids).request
  | bystander {p : Prog Database Row Site Result} (h : Requests ext bystanders p) : StakeRequest ext p
  | passTime (elapsed : Nat) (directory : Directory) (organizations : List Uuid)
      (pageants : List Pageant) :
      StakeRequest ext (passTime elapsed directory organizations pageants).request

theorem StakeRequest.keepsLimits {p : Prog Database Row Site Result} (h : StakeRequest ext p) :
    KeepsLimits p := by
  cases h with
  | createStakeIntent userId marketId idempotencyHeader body intentId =>
      exact createStakeIntent_keepsLimits _ userId marketId idempotencyHeader body intentId
  | getMarketIntent actorUserId intentId => exact getMarketIntent_keepsLimits actorUserId intentId
  | recordStakeSubmission actorUserId intentId txHash =>
      exact recordSubmission_keepsLimits actorUserId intentId txHash
  | acceptPositionEvidence marketId body ids =>
      have houtline : SafeRequest UserBooks UserGuarantee ExposureCounted
          (Positions.acceptPositionEvidence marketId body ids).request := by
        refine (acceptPositionEvidence_outline owns_any marketId body ids).refine
          (fun _ h => h.books) (fun _ _ _ hG => ⟨hG.framed, hG.moved.stakes⟩) ?_
        exact fun _ _ _ hI hbooks hG => ⟨hI.accepts hbooks hG.2, hI.guarantee_accepts hG⟩
      exact houtline.locking userGuarantee_mono (List.Subset.refl _)
  | bystander h =>
      have houtline : SafeRequest UserBooks UserGuarantee ExposureCounted p :=
        (confined_bystander spares_userAside sparesClosing_userAside h).safeRequest
          (fun _ _ _ ha hI => hI.aside ha) fun _ _ _ ha hI => hI.guarantee_aside ha
      exact houtline.locking userGuarantee_mono (List.Subset.refl _)
  | passTime elapsed directory organizations pageants =>
      exact passTime_keepsLimits elapsed directory organizations pageants

/-- **No user exceeds the limit of a market**, in every run whose creations count everything that is
at stake, and whose schedule the locks allow. -/
theorem user_exposure_capped {db₀ : Database} (h₀ : UserBooks db₀)
    {pool : Pool Database Row Site Result} {actions : List (Action Database Row Site Result)}
    (hrun : Run (Pool.Step (StakeRequest ext) ExposureCounted) (Pool.idle db₀) actions pool)
    (hlockable : Lockable stakeLocks db₀ actions) :
    ∀ id m, marketTable.find pool.db id = some m → ∀ userId,
      atStake id userId pool.db ≤ m.maxUserExposureMinor := by
  obtain ⟨locked, hlocked, hdb⟩ := hrun.locking hlockable
  have hsafe (p : Prog Database Row Site Result) (hp : Locking stakeLocks (StakeRequest ext) p) :
      SafeRequest UserBooks UserGuarantee ExposureCounted p := by
    obtain ⟨q, hq, rfl⟩ := hp
    exact hq.keepsLimits
  rw [← hdb]
  exact (run_healthy hsafe hlocked (healthy_idle h₀)).inv.capped

/-! ### An open market -/

/-- An open market without stakes, in which user `2` may stake. -/
def openMarket : Database :=
  { resolvedMarket with
    markets := resolvedMarket.markets.map fun m =>
      { m with status := .open, closesAt := seconds 1900000000, winningOutcomeId := none }
    outcomes := [⟨21, 20, "A", "First", 0, 0⟩, ⟨22, 20, "B", "Second", 1, 0⟩]
    decisions := [⟨31, 10, 20, some 2, .stake, .allow, "Stake", "1", 1, none, 0⟩]
    stakeIntents := []
    positionEvidence := []
    positions := [] }

/-- The same market, where user `2` submitted a stake that has expired since. -/
def lateMarket : Database :=
  { openMarket with stakeIntents := [stakeIntentOf 40 2 4 600 .submitted (stakeHash 'a')] }

/-- User `2` is going to stake 600. -/
def stakeAnew (key : String) (intentId : Uuid) : Prog Database Row Site Result :=
  (Stakes.createStakeIntent marketExternal.sha256 2 20 (some key) ⟨21, stakerAddress 'A', 600⟩ intentId).request

def submitAnew : Prog Database Row Site Result :=
  (Stakes.recordSubmission 2 41 (stakeHash 'd')).request

def acceptAnew : Prog Database Row Site Result :=
  (Positions.acceptPositionEvidence 20
    ⟨41, stakeHash 'd', 6, "stake-3", stakerAddress 'A', 600, .object []⟩ ⟨61, 51⟩).request

/-- A request alone, for so many steps. -/
def alone (p : Prog Database Row Site Result) (steps : Nat) : List (Action Database Row Site Result) :=
  .spawn p :: List.replicate steps (.step 0)

/-- A stake from its intent to its position. -/
def stakedAnew : List (Action Database Row Site Result) :=
  alone (stakeAnew "k" 41) 12 ++ alone submitAnew 8 ++ alone acceptAnew 11

/-- Two requests read that nothing is at stake, and then insert their intents. -/
def stakedTwice : List (Action Database Row Site Result) :=
  [.spawn (stakeAnew "k" 41), .spawn (stakeAnew "l" 42)] ++ List.replicate 8 (.step 0) ++
    List.replicate 12 (.step 1) ++ List.replicate 4 (.step 0)

theorem stakedAnew_outcome :
    ((Pool.idle openMarket).replay ExposureCounted stakedAnew).any (fun pool =>
      pool.db.positions.map (·.amountMinor) = [600] && atStake 20 2 pool.db = 600) = true ∧
    ((Pool.idle openMarket).replay (fun _ _ => True)
      (stakedAnew.map (Action.locking stakeLocks))).isSome = true := by
  decide +kernel

theorem books_of_open {db : Database} (hmarkets : db.markets = openMarket.markets)
    (hevidence : db.positionEvidence = []) (hpositions : db.positions = [])
    (hids : (db.stakeIntents.map (·.id)).Nodup) (hamounts : ∀ i ∈ db.stakeIntents, 0 < i.amountMinor)
    (hcapped : ∀ userId, total (openBy 20 userId db.directory.clock) db.stakeIntents ≤ 1000) :
    UserBooks db where
  books := by constructor <;> simp [hevidence, hpositions]
  intentIds := hids
  intentAmounts := hamounts
  capped id m hm userId := by
    obtain ⟨hmem, hid⟩ := marketTable.find_mem hm
    rw [show marketTable.rows db = db.markets from rfl, hmarkets] at hmem
    obtain rfl := List.mem_singleton.mp hmem
    obtain rfl : id = 20 := hid.symm
    rw [atStake, hpositions, total_nil, zero_add]
    exact hcapped userId

theorem openMarket_books : UserBooks openMarket :=
  books_of_open rfl rfl rfl List.nodup_nil (fun _ h => by cases h) fun _ => by
    rw [show openMarket.stakeIntents = [] from rfl, total_nil]
    omega

theorem lateMarket_books : UserBooks lateMarket := by
  refine books_of_open rfl rfl rfl (by decide) (by decide) fun userId => ?_
  rw [show lateMarket.stakeIntents = [stakeIntentOf 40 2 4 600 .submitted (stakeHash 'a')] from rfl,
    total_cons, total_nil, add_zero, openBy]
  split
  · decide
  · omega

theorem spawned_stakedAnew {p : Prog Database Row Site Result} (hp : .spawn p ∈ stakedAnew) :
    StakeRequest marketExternal p := by
  simp only [stakedAnew, alone, List.cons_append, List.mem_cons, List.mem_append, List.mem_replicate,
    Action.spawn.injEq, reduceCtorEq, and_false, or_false, false_or] at hp
  rcases hp with rfl | rfl | rfl
  · exact .createStakeIntent 2 20 _ _ 41
  · exact .recordStakeSubmission 2 41 _
  · exact .acceptPositionEvidence 20 _ ⟨61, 51⟩

/-- A stake that is created, submitted and accepted. -/
theorem stakedAnew_capped :
    ∃ (pool : Pool Database Row Site Result) (actions : List (Action Database Row Site Result)),
      Run (Pool.Step (StakeRequest marketExternal) ExposureCounted) (Pool.idle openMarket) actions pool ∧
      Lockable stakeLocks openMarket actions ∧ pool.db.positions.map (·.amountMinor) = [600] ∧
      ∀ id m, marketTable.find pool.db id = some m → ∀ userId,
        atStake id userId pool.db ≤ m.maxUserExposureMinor := by
  obtain ⟨hplain, hlocked⟩ := stakedAnew_outcome
  obtain ⟨pool, hpool, hall⟩ := (Option.any_eq_true _ _).mp hplain
  simp only [Bool.and_eq_true, decide_eq_true_eq] at hall
  obtain ⟨locked, hlocked⟩ := Option.isSome_iff_exists.mp hlocked
  have hrun := Pool.run_of_replay (fun _ => spawned_stakedAnew) hpool
  have hlockable : Lockable stakeLocks openMarket stakedAnew :=
    ⟨locked, Pool.run_of_replay (fun _ _ => trivial) hlocked⟩
  exact ⟨pool, stakedAnew, hrun, hlockable, hall.1,
    user_exposure_capped openMarket_books hrun hlockable⟩

/-! ### Without the condition -/

theorem stakedTwice_outcome :
    ((Pool.idle openMarket).replay ExposureCounted stakedTwice).any
      (fun pool => pool.db.markets = openMarket.markets && atStake 20 2 pool.db = 1200) = true := by
  decide +kernel

theorem stakedLate_outcome :
    ((Pool.idle lateMarket).replay (fun _ _ => True) (alone (stakeAnew "l" 41) 12)).any
      (fun pool => pool.db.markets = openMarket.markets && atStake 20 2 pool.db = 1200) = true ∧
    ((Pool.idle lateMarket).replay (fun _ _ => True)
      ((alone (stakeAnew "l" 41) 12).map (Action.locking stakeLocks))).isSome = true := by
  decide +kernel

/-- The limit of the market is exceeded. -/
theorem exceeded {db : Database} (hmarkets : db.markets = openMarket.markets)
    (hstake : atStake 20 2 db = 1200) :
    ¬ ∀ id m, marketTable.find db id = some m → ∀ userId, atStake id userId db ≤ m.maxUserExposureMinor := by
  intro h
  obtain ⟨m, hm, hlimit⟩ : ∃ m, marketTable.find openMarket 20 = some m ∧ m.maxUserExposureMinor = 1000 :=
    ⟨_, rfl, rfl⟩
  have hcapped := h 20 m (by rw [← hm]; exact congrArg _ hmarkets) 2
  omega

/-- Two requests that read at the same time exceed the limit together, although all that is at stake
was counted; and so does one that leaves a submitted intent out, all alone. -/
theorem user_exposure_exceeded :
    (¬ ∀ (ext : External) (db₀ : Database), UserBooks db₀ →
      ∀ (pool : Pool Database Row Site Result) (actions : List (Action Database Row Site Result)),
        Run (Pool.Step (StakeRequest ext) ExposureCounted) (Pool.idle db₀) actions pool →
        ∀ id m, marketTable.find pool.db id = some m → ∀ userId,
          atStake id userId pool.db ≤ m.maxUserExposureMinor) ∧
    ¬ ∀ (ext : External) (db₀ : Database), UserBooks db₀ →
      ∀ (pool : Pool Database Row Site Result) (actions : List (Action Database Row Site Result)),
        Run (Pool.Step (StakeRequest ext) fun _ _ => True) (Pool.idle db₀) actions pool →
        Lockable stakeLocks db₀ actions →
        ∀ id m, marketTable.find pool.db id = some m → ∀ userId,
          atStake id userId pool.db ≤ m.maxUserExposureMinor := by
  have hcreate (key : String) (intentId : Uuid) : StakeRequest marketExternal (stakeAnew key intentId) :=
    .createStakeIntent 2 20 _ _ intentId
  constructor
  · intro h
    obtain ⟨pool, hpool, hall⟩ := (Option.any_eq_true _ _).mp stakedTwice_outcome
    simp only [Bool.and_eq_true, decide_eq_true_eq] at hall
    refine exceeded hall.1 hall.2 (h marketExternal _ openMarket_books pool stakedTwice ?_)
    refine Pool.run_of_replay (fun p hp => ?_) hpool
    simp only [stakedTwice, List.cons_append, List.nil_append, List.mem_cons, List.mem_append,
      List.mem_replicate, Action.spawn.injEq, reduceCtorEq, and_false, or_false] at hp
    rcases hp with rfl | rfl
    · exact hcreate "k" 41
    · exact hcreate "l" 42
  · intro h
    obtain ⟨hplain, hlocked⟩ := stakedLate_outcome
    obtain ⟨pool, hpool, hall⟩ := (Option.any_eq_true _ _).mp hplain
    simp only [Bool.and_eq_true, decide_eq_true_eq] at hall
    obtain ⟨locked, hlocked⟩ := Option.isSome_iff_exists.mp hlocked
    refine exceeded hall.1 hall.2 (h marketExternal _ lateMarket_books pool (alone (stakeAnew "l" 41) 12) ?_
      ⟨locked, Pool.run_of_replay (fun _ _ => trivial) hlocked⟩)
    refine Pool.run_of_replay (fun p hp => ?_) hpool
    simp only [alone, List.mem_cons, List.mem_replicate, Action.spawn.injEq, reduceCtorEq, and_false,
      or_false] at hp
    subst hp
    exact hcreate "l" 41

end CrownFi.Markets
