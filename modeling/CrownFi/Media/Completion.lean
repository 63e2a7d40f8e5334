import CrownFi.Media.Invariant
import CrownFi.Media.Paths

/-!
# CrownFi.Media.Completion

**Completions of an asset are serialised.** `complete_upload` reads the status of its asset, looks at the
object, and updates the row without asking for the status again. What makes this safe is the lock that
the middleware holds around it: nobody else changes the asset, so that the status read is the status
written over, and the asset leaves `pending` once.
-/

namespace CrownFi.Media

open Api Lib Lib.Processes

variable {config : Config} {settled : Bool} {db : Database} {id : Uuid} {pending : MediaAsset}

/-- **What a completion's access must come upon**: the lock of exactly its asset is held, and what is
deleted is the object of a failed asset. -/
def Serialized : Point → List Uuid → Database → Prop
  | .other, _, _ => True
  | .complete mediaAssetId stage, held, db => held = [mediaAssetId] ∧
      ∀ objectKey, stage = .delete objectKey →
        ∃ a, db.asset mediaAssetId = some a ∧ a.objectKey = objectKey ∧ a.status = .failed

/-- An outline at a point where `A` holds. -/
abbrev Outline (config : Config) (settled : Bool) (p : Proc Database Uuid Point Answer) (held : List Uuid)
    (A : Database → Prop) : Prop :=
  Outlined (Inv config settled) (Granted config settled) (fun _ _ => True) Serialized (fun _ => True)
    p held A

/-! ### What a completion may remember -/

theorem stable_asset : Stable (Inv config settled) (Granted config settled) [id]
    fun db => db.asset id = some pending :=
  fun _ _ _ hfree _ _ h hG => hG.assets id (hfree id (by simp)) pending h

theorem stable_sized {c : Prop} : Stable (Inv config settled) (Granted config settled) [id]
    fun db => db.asset id = some pending ∧ (settled = true → c → Sized db pending) :=
  fun _ _ _ hfree _ _ h hG => ⟨hG.assets id (hfree id (by simp)) pending h.1,
    fun hs hc => hG.sized hs id (hfree id (by simp)) pending h.1 (h.2 hs hc)⟩

theorem stable_kept {c : Prop} : Stable (Inv config settled) (Granted config settled) [id]
    fun db => db.asset id = some pending ∧ (settled = true → c → Kept config db pending) :=
  fun _ _ _ hfree _ _ h hG => ⟨hG.assets id (hfree id (by simp)) pending h.1,
    fun hs hc => hG.kept hs id (hfree id (by simp)) pending h.1 (h.2 hs hc)⟩

/-! ### The handlers -/

/-- An access of a completion that does not delete. -/
theorem serialized_complete {stage : Stage} (h : ∀ objectKey, stage ≠ .delete objectKey) :
    Serialized (.complete id stage) [id] db :=
  ⟨rfl, fun objectKey hstage => absurd hstage (h objectKey)⟩

instance {held : List Uuid} : Evident (Serialized .other held db) := ⟨trivial⟩
instance : Evident (Serialized (.complete id .fetch) [id] db) := ⟨serialized_complete nofun⟩
instance : Evident (Serialized (.complete id .editor) [id] db) := ⟨serialized_complete nofun⟩
instance : Evident (Serialized (.complete id .head) [id] db) := ⟨serialized_complete nofun⟩
instance : Evident (Serialized (.complete id .read) [id] db) := ⟨serialized_complete nofun⟩
instance : Evident (Serialized (.complete id .fail) [id] db) := ⟨serialized_complete nofun⟩
instance : Evident (Serialized (.complete id .ready) [id] db) := ⟨serialized_complete nofun⟩

theorem outline_createUploadIntent {actor : Option Uuid} {organizationId mediaAssetId : Uuid}
    {body : CreateUploadIntentRequest} :
    Outline config settled (createUploadIntent config actor organizationId mediaAssetId body
      fun r => .ret (.success r)) [] fun _ => True := by
  unfold createUploadIntent
  refine outlined_bind (outlined_orElse fun actorUserId _ => ?_)
  refine outlined_bind (outlined_look stable_true fun _ _ _ => ?_)
  refine outlined_bind (outlined_require fun _ => ?_)
  refine outlined_bind (outlined_ofExcept fun asset hvalid => ?_)
  refine outlined_bind (outlined_look stable_true fun now _ _ => ?_)
  refine outlined_bind (outlined_transact fun db db' hI _ _ hinsert => ?_)
  simp only [CreateUploadIntentRequest.validate, bind_eq_ok, pure_eq_ok] at hvalid
  obtain ⟨_, -, _, -, _, -, _, -, _, -, _, -, rfl⟩ := hvalid
  exact ⟨⟨inv_insert hinsert hI rfl rfl rfl rfl, granted_insert hinsert⟩, fun _ => True, trivial,
    stable_true, outlined_ret trivial⟩

/-- What `head_object` found, as far as nobody overwrites it. -/
def Watched (config : Config) (settled : Bool) (id : Uuid) (pending : MediaAsset) (stored : StoredObject)
    (db : Database) : Prop :=
  db.asset id = some pending ∧ (settled = true → objectMatches pending stored = true → Kept config db pending)

theorem outline_headObject {k : StoredObject → Proc Database Uuid Point Answer}
    (h : ∀ stored, Outline config settled (k stored) [id] (Watched config settled id pending stored)) :
    Outline config settled (headObject config id pending.objectKey k) [id]
      fun db => db.asset id = some pending := by
  unfold headObject
  refine outlined_bind (outlined_read (fun db _ hasset _ => ?_))
  cases hhead : db.object pending.objectKey with
  | none =>
      refine ⟨fun _ => True, trivial, stable_true, outlined_bind (outlined_orElse fun o ho => ?_)⟩
      cases ho
  | some output =>
      -- the length is that of the object, and stays so
      refine ⟨fun d => d.asset id = some pending ∧
        (settled = true → (output.bytes.size : Int) = pending.byteSize → Sized d pending),
        ⟨hasset, fun _ hsize => ⟨output, hhead, hsize⟩⟩, stable_sized, ?_⟩
      refine outlined_bind (outlined_orElse fun o ho => ?_)
      obtain rfl := Option.some.inj ho
      refine outlined_ite (fun _ => ?_) fun _ => ?_
      · -- a length out of bounds leaves no digest to match
        refine outlined_weaken (fun d _ hd => ⟨hd.1, fun _ hmatches => ?_⟩) (h _)
        simp [objectMatches] at hmatches
      · refine outlined_bind (outlined_read (fun db' _ hd _ => ?_))
        cases hread : db'.object pending.objectKey with
        | none =>
            refine ⟨fun _ => True, trivial, stable_true, outlined_bind (outlined_orElse fun o ho => ?_)⟩
            cases ho
        | some content =>
            refine ⟨fun d => d.asset id = some pending ∧
              (settled = true → ((output.bytes.size : Int) = pending.byteSize ∧
                hashBytes config.sha256 content.bytes = pending.sha256) → Kept config d pending),
              ⟨hd.1, fun hs hboth => ?_⟩, stable_kept, ?_⟩
            · obtain ⟨o, ho, hsize⟩ := hd.2 hs hboth.1
              obtain rfl : o = content := Option.some.inj (ho.symm.trans hread)
              exact ⟨o, ho, hsize, hboth.2⟩
            refine outlined_bind (outlined_orElse fun o ho => ?_)
            obtain rfl := Option.some.inj ho
            refine outlined_bind (outlined_require fun _ => ?_)
            refine outlined_weaken (fun d _ hd' => ⟨hd'.1, fun hs hmatches => hd'.2 hs ?_⟩) (h _)
            simp only [objectMatches, Bool.and_eq_true, decide_eq_true_eq] at hmatches
            obtain ⟨⟨hsize, -⟩, hsha⟩ := hmatches
            obtain ⟨hdeclared, hactual⟩ := Option.filter_eq_some_iff.mp hsha
            exact ⟨hsize, (of_decide_eq_true hactual).symm⟩

theorem markReady_eq_ok {actorUserId : Uuid} {body : CompleteUploadRequest} {db' : Database}
    (h : markReady id actorUserId body db = .ok db') (ha : db.asset id = some pending) :
    db' = finish id (fun a => { a with status := .ready, width := body.width, height := body.height })
      [⟨pending.organizationId, actorUserId, .mediaUploadComplete, id⟩] db := by
  rw [markReady, ha] at h
  exact (Except.ok.inj h).symm

theorem markFailed_eq :
    markFailed id db = finish id (fun a => { a with status := .failed }) [] db := by
  rw [finish, List.append_nil, markFailed]

theorem outline_completeUpload {actor : Option Uuid} {body : CompleteUploadRequest} :
    Outline config settled (completeUpload config id actor body fun r => .ret (.success r)) [id]
      fun _ => True := by
  unfold completeUpload
  refine outlined_bind (outlined_orElse fun actorUserId _ => ?_)
  refine outlined_bind (outlined_ofExcept fun _ _ => ?_)
  refine outlined_bind (outlined_read (fun db _ _ _ => ?_))
  cases hfetch : db.asset id with
  | none =>
      refine ⟨fun _ => True, trivial, stable_true, outlined_bind (outlined_orElse fun a ha => ?_)⟩
      cases ha
  | some pending =>
      refine ⟨fun d => d.asset id = some pending, hfetch, stable_asset, ?_⟩
      refine outlined_bind (outlined_orElse fun a ha => ?_)
      obtain rfl := Option.some.inj ha
      refine outlined_bind (outlined_look stable_asset (fun db _ _ => ?_))
      refine outlined_bind (outlined_require fun _ => ?_)
      refine outlined_ite (fun _ => outlined_ret trivial) fun _ => ?_
      refine outlined_bind (outlined_require fun hpending => ?_)
      replace hpending : pending.status = .pending := of_decide_eq_true hpending
      refine outlined_bind (outline_headObject fun stored => ?_)
      refine outlined_ite (fun hmatches => ?_) fun _ => ?_
      · refine outlined_bind (outlined_transact (fun db db' hI hd _ hready => ?_))
        obtain rfl := markReady_eq_ok hready hd.1
        refine ⟨⟨inv_finish (fun _ => ⟨rfl, rfl, rfl, rfl, rfl⟩) hI hd.1 hpending (fun id' => ?_)
            fun hs _ => hd.2 hs hmatches,
          granted_finish (fun _ => ⟨rfl, rfl, rfl, rfl, rfl⟩) hd.1 (.inr ⟨hpending, .inl rfl⟩) (by simp)⟩,
          fun _ => True, trivial, stable_true, outlined_ret trivial⟩
        by_cases hid : id' = id <;> simp [hid, Ne.symm]
      · refine outlined_bind (outlined_write (fun db hI hd _ => ?_))
        have hfailed : (markFailed id db).asset id = some { pending with status := .failed } := by
          rw [markFailed_eq, asset_finish (f := fun a => { a with status := .failed }) fun _ => rfl, hd.1]
          simp
        rw [markFailed_eq] at hfailed ⊢
        refine ⟨.inr ⟨inv_finish (fun _ => ⟨rfl, rfl, rfl, rfl, rfl⟩) hI hd.1 hpending (fun id' => ?_)
            (fun _ hready => by cases hready),
          granted_finish (fun _ => ⟨rfl, rfl, rfl, rfl, rfl⟩) hd.1 (.inr ⟨hpending, .inr rfl⟩) (by simp)⟩,
          fun d => d.asset id = some { pending with status := .failed }, ?_, stable_asset, ?_⟩
        · simp
        · exact hfailed
        refine outlined_bind (outlined_accessSeeing (fun db hI hd _ => ?_) fun db _ hd _ => ?_)
        · have hgranted := granted_deleteObject (L := [id]) hI hd (by simp)
          exact ⟨.inr ⟨inv_deleteObject (a := { pending with status := .failed }) hI hd rfl, hgranted⟩, fun _ => True, trivial, stable_true,
            outlined_exit⟩
        · refine ⟨rfl, fun objectKey hstage => ⟨_, hd, ?_, rfl⟩⟩
          exact Stage.delete.inj hstage

/-! ### The lock, and the way to the handler -/

theorem outline_acquireCompletionLock {k : PUnit → Proc Database Uuid Point Answer}
    (h : Outline config settled (k ⟨⟩) [id] fun _ => True) (attempts : Nat) :
    Outline config settled (acquireCompletionLock id attempts k) [] fun _ => True := by
  induction attempts with
  | zero => exact outlined_exit
  | succ attempts ih =>
      unfold acquireCompletionLock
      refine outlined_bind (outlined_acquire ?_ ?_)
      · exact h
      · exact ih

theorem outline_deliver {request : CompletionRequest} {held : List Uuid}
    (h : ∀ id, Delivers config request id → held = [id]) :
    Outline config settled (deliver config request fun r => .ret (.success r)) held fun _ => True := by
  unfold deliver
  split
  · rename_i hmethod
    cases hcaptured : (pathSegments request.path).bind (capture completeRoute.pattern) with
    | none => exact outlined_exit
    | some values =>
        match values with
        | [] => exact outlined_exit
        | [segment] =>
            cases hid : (config.percentDecode segment).bind config.parseUuid with
            | none =>
                simp only [hid]
                exact outlined_exit
            | some id =>
                simp only [hid]
                rw [h id ⟨hmethod, segment, hcaptured, hid⟩]
                exact outline_completeUpload
        | _ :: _ :: _ => exact outlined_exit
  · exact outlined_exit

theorem outline_handleCompletion (hconforms : config.Conforms) {request : CompletionRequest} :
    Outline config settled (handleCompletion config request fun r => .ret (.success r)) []
      fun _ => True := by
  unfold handleCompletion
  refine outlined_bind (outlined_look stable_true fun db _ _ => ?_)
  refine outlined_bind (outlined_ofExcept fun requestClass hclass => ?_)
  refine outlined_bind (outlined_require fun _ => ?_)
  unfold serialize
  cases hlock : completionAssetId config request.method request.path with
  | none =>
      refine outline_deliver fun id hdelivers => ?_
      rw [completionAssetId_of_delivers hconforms hclass hdelivers] at hlock
      cases hlock
  | some id' =>
      refine outlined_bind (outline_acquireCompletionLock ?_ _)
      refine outline_deliver fun id hdelivers => ?_
      rw [completionAssetId_of_delivers hconforms hclass hdelivers] at hlock
      rw [Option.some.inj hlock]

theorem outline_program (hconforms : config.Conforms) (r : Request) :
    Outline config settled ((media config).program r) [] fun _ => True := by
  cases r with
  | createUploadIntent actor organizationId mediaAssetId body => exact outline_createUploadIntent
  | complete request => exact outline_handleCompletion hconforms

/-! ### Runs -/

/-- What the invariant starts from: no asset, and no URL handed out. -/
def Database.Empty (db : Database) : Prop := db.assets = [] ∧ db.auditLogs = [] ∧ db.authorizations = []

theorem inv_empty (h : db.Empty) : Inv config settled db := by
  obtain ⟨hassets, hlogs, hissued⟩ := h
  have hnone (id : Uuid) : db.asset id = none := by rw [Database.asset, hassets, List.find?_nil]
  constructor
  · intro id a id' a' ha
    rw [hnone] at ha
    cases ha
  · intro a ha
    rw [hassets] at ha
    cases ha
  · intro id
    rw [hnone, Database.completions, hlogs]
    rfl
  · intro u hu
    rw [hissued] at hu
    cases hu
  · intro _ id a ha
    rw [hnone] at ha
    cases ha

/-- Without promises about the content, every event is admitted. -/
theorem eventsKeep_none : EventsKeep (media config) .none (Inv config false) (Granted config false) := by
  intro e db hpossible _ hI
  cases e with
  | put authorization bytes =>
      exact ⟨inv_put hI hpossible.1 nofun, granted_put hI hpossible.1 nofun⟩
  | tick elapsed =>
      exact ⟨hI.store rfl rfl rfl nofun, .store rfl nofun⟩

abbrev MediaWorld := World Request Database Uuid Point Answer

/-- **Media completion is serialised**, in every run: an asset leaves `pending` at most once, and neither
`ready` nor `failed`; a completion is logged exactly for the ready assets, once; and each access of a
completion is made under the lock of exactly its asset, the deletions for failed assets only. -/
theorem completions_serialised {config : Config} (hconforms : config.Conforms) {db₀ : Database}
    (h₀ : db₀.Empty) {moves : List (Move Request Event)} {world : MediaWorld}
    (hrun : Run (World.Step (media config) .none) (World.idle db₀) moves world) :
    (∀ moves' world', Run (World.Step (media config) .none) world moves' world' →
      ∀ id a, world.state.asset id = some a → ∃ a', world'.state.asset id = some a' ∧ Follows a a') ∧
    (∀ id, world.state.completions id =
      if ((world.state.asset id).any fun a => a.status = .ready) then 1 else 0) ∧
    ∀ t ∈ world.processes, ∀ point, t.proc.label? = some point → Serialized point t.held world.state := by
  have h : Running (Inv config false) (Granted config false) (fun _ _ => True) Serialized
      (fun _ _ => True) world :=
    run_running (outline_program hconforms) eventsKeep_none hrun (running_idle (inv_empty h₀))
  refine ⟨fun moves' world' hrun' => ?_, h.inv.audited, fun t ht point hpoint => h.sees ht hpoint trivial⟩
  refine run_moved (R := fun db db' => ∀ id a, db.asset id = some a →
    ∃ a', db'.asset id = some a' ∧ Follows a a') (outline_program hconforms) eventsKeep_none
    (fun db id a ha => ⟨a, ha, .inl rfl⟩) (fun db₁ db₂ db₃ h₁₂ h₂₃ id a ha => ?_)
    (fun L db db' _ _ hG => hG.follows) hrun' h
  obtain ⟨a', ha', hfollows⟩ := h₁₂ id a ha
  obtain ⟨a'', ha'', hfollows'⟩ := h₂₃ id a' ha'
  exact ⟨a'', ha'', hfollows.trans hfollows'⟩

/-! One picture of three bytes, and another one of the same length. -/

def picture : ByteArray := ⟨#[1, 2, 3]⟩

def otherPicture : ByteArray := ⟨#[9, 9, 9]⟩

def pictureDigest : String := "039058c6f2c0cb492c533b0a4d14ef77cc0f78abccced5287d84a1a2011cfb81"

def testConfig : Config where
  bucket := "media"
  maxImageBytes := 1000
  uploadTtl := seconds 900
  sha256 value := bytesOf <|
    if value = picture then 0x039058c6f2c0cb492c533b0a4d14ef77cc0f78abccced5287d84a1a2011cfb81
    else if value = otherPicture then 0xe740a6faf2db65f5853148d75d9a335d7c4b94ab106fe5f237bc34fdcfc74584
    else 0
  parseUuid text := if text = Uuid.text 9 then some 9 else none
  percentDecode text := some text
  resources :=
    { pageants := fun _ => none, mediaAssets := fun _ => none, collectibleCollections := fun _ => none,
      products := fun _ => none, predictionMarkets := fun _ => none, pageantContestants := fun _ => none,
      orders := fun _ => none, paymentAttempts := fun _ => none, transactionIntents := fun _ => none,
      fulfillmentJobs := fun _ => none, payoutBatches := fun _ => none,
      marketStakeIntents := fun _ => none }

theorem testConfig_conforms : testConfig.Conforms where
  plain text id h := by
    simp only [testConfig, Option.ite_none_right_eq_some] at h
    rw [h.1]
    decide
  decodes _ _ := rfl

def emptyLibrary : Database where
  clock := 0
  directory :=
    { clock := 0, users := [], stellarAccounts := [], siteAdministrators := [],
      organizationMembers := [⟨5, 3, .owner, .active⟩] }
  assets := []
  auditLogs := []
  objects := []
  authorizations := []

def pictureIntent : Request :=
  .createUploadIntent (some 3) 5 9
    { originalFilename := "a.png", contentType := "image/png", byteSize := 3, sha256 := pictureDigest,
      visibility := none, altText := none }

def pictureCompletion : Request :=
  .complete
    { method := .post, path := "/admin/platform/media/" ++ Uuid.text 9 ++ "/complete", json := none,
      admitted := true, attempts := 0, actor := some 3, body := ⟨none, none⟩ }

def pictureAuthorization : UploadAuthorization where
  mediaAssetId := 9
  objectKey := objectKeyFor 5 9 "image/png"
  contentType := "image/png"
  sha256 := pictureDigest
  expiresAt := seconds 900

/-- The picture is uploaded and completed, and then the URL is used once more. -/
def uploadTwice (again : ByteArray) : List (Move Request Event) :=
  .spawn pictureIntent :: List.replicate 4 (.go 0) ++
    .event (.put pictureAuthorization picture) ::
      .spawn pictureCompletion :: List.replicate 8 (.go 0) ++
        [.event (.put pictureAuthorization again)]

/-- The asset is ready, and this is its object's content. -/
def readyWith (content : ByteArray) (world : MediaWorld) : Bool :=
  (world.state.asset 9).any fun a => a.status = .ready && a.sha256 = pictureDigest &&
    (world.state.object a.objectKey).any fun o => o.bytes = content

/-- The picture is completed once. -/
theorem picture_serialised : ∃ world : MediaWorld, readyWith picture world = true ∧
    world.state.completions 9 = 1 := by
  have h : ((World.idle emptyLibrary).replay (media testConfig) .none (uploadTwice picture)).any
      (readyWith picture) = true := by decide +kernel
  obtain ⟨world, hworld, hready⟩ := (Option.any_eq_true _ _).mp h
  obtain ⟨-, hcompletions, -⟩ := completions_serialised testConfig_conforms
    (show emptyLibrary.Empty from ⟨rfl, rfl, rfl⟩) (World.run_of_replay hworld)
  refine ⟨world, hready, (hcompletions 9).trans (if_pos ?_)⟩
  obtain ⟨a, ha, hall⟩ := (Option.any_eq_true _ _).mp hready
  simp only [Bool.and_eq_true, decide_eq_true_eq] at hall
  rw [ha]
  simpa using hall.1.1

end CrownFi.Media
