import CrownFi.Media.Requests

/-!
# CrownFi.Media.Invariant

What holds of the assets and the store at every moment, and what the holder of a completion's lock may
change (`Granted`): the status of its own asset, and its object. Everything else may add assets, and
may put objects for which no promise was made.

The content of the objects is promised only where nobody overwrites it. So the invariant and the grants
come in two strengths: `settled` is the one under which the uploads are watched.
-/

namespace CrownFi.Media

open Api Lib Lib.Processes

variable {config : Config} {settled : Bool} {db db' : Database} {L : List Uuid}

/-! ### Rows and objects -/

/-- The object of the asset has the recorded length. -/
def Sized (db : Database) (a : MediaAsset) : Prop :=
  ∃ o, db.object a.objectKey = some o ∧ (o.bytes.size : Int) = a.byteSize

/-- The object of the asset has the recorded length and digest. -/
def Kept (config : Config) (db : Database) (a : MediaAsset) : Prop :=
  ∃ o, db.object a.objectKey = some o ∧ (o.bytes.size : Int) = a.byteSize ∧
    hashBytes config.sha256 o.bytes = a.sha256

theorem Sized.congr {a a' : MediaAsset} (h : Sized db a) (hkey : a'.objectKey = a.objectKey)
    (hsize : a'.byteSize = a.byteSize) (hobject : db'.object a.objectKey = db.object a.objectKey) :
    Sized db' a' := by
  obtain ⟨o, ho, hlength⟩ := h
  exact ⟨o, by rw [hkey, hobject, ho], by rw [hsize, hlength]⟩

theorem Kept.congr {a a' : MediaAsset} (h : Kept config db a) (hkey : a'.objectKey = a.objectKey)
    (hsize : a'.byteSize = a.byteSize) (hsha : a'.sha256 = a.sha256)
    (hobject : db'.object a.objectKey = db.object a.objectKey) : Kept config db' a' := by
  obtain ⟨o, ho, hlength, hhash⟩ := h
  exact ⟨o, by rw [hkey, hobject, ho], by rw [hsize, hlength], by rw [hsha, hhash]⟩

/-- The completions of an asset that were logged. -/
def Database.completions (db : Database) (mediaAssetId : Uuid) : Nat :=
  db.auditLogs.countP fun l => l.action = .mediaUploadComplete && l.entityId = mediaAssetId

theorem asset_id {id : Uuid} {a : MediaAsset} (h : db.asset id = some a) : a.id = id := by
  simpa using List.find?_some h

theorem asset_mem {id : Uuid} {a : MediaAsset} (h : db.asset id = some a) : a ∈ db.assets :=
  List.mem_of_find?_eq_some h

/-- The asset with this id, after an update of the one with that id. -/
theorem find?_update {f : MediaAsset → MediaAsset} {id : Uuid} (hid : ∀ a, (f a).id = a.id) (id' : Uuid) :
    (updateWhere (·.id = id) f db.assets).find? (·.id = id') =
      (db.asset id').map fun a => if id' = id then f a else a := by
  rw [find?_updateWhere fun r => by rw [hid r], ← Database.asset]
  cases hfind : db.asset id' with
  | none => rfl
  | some a =>
      obtain rfl := asset_id hfind
      simp only [Option.map_some, decide_eq_true_eq]

theorem object_putObject {authorization : UploadAuthorization} {bytes : ByteArray} (key : String) :
    (putObject authorization bytes db).object key =
      if key = authorization.objectKey then
        some ⟨key, bytes, some authorization.contentType, some authorization.sha256⟩
      else db.object key := by
  unfold putObject Database.object
  rw [List.find?_append, List.find?_filter]
  by_cases hkey : key = authorization.objectKey
  · rw [if_pos hkey, List.find?_eq_none.mpr, Option.none_or, List.find?_singleton]
    · simp [hkey]
    · intro o _
      simp [hkey]
  · rw [if_neg hkey, List.find?_singleton, if_neg (by simpa using Ne.symm hkey), Option.or_none]
    refine congrArg (fun p => List.find? p db.objects) (funext fun o => ?_)
    by_cases ho : o.objectKey = key
    · simp [ho, hkey]
    · simp [ho]

theorem object_deleteObject {objectKey : String} {key : String} (hkey : key ≠ objectKey) :
    (deleteObject objectKey db).object key = db.object key := by
  unfold deleteObject Database.object
  rw [List.find?_filter]
  refine congrArg (fun p => List.find? p db.objects) (funext fun o => ?_)
  by_cases ho : o.objectKey = key
  · simp [ho, hkey]
  · simp [ho]

/-! ### The invariant -/

structure Inv (config : Config) (settled : Bool) (db : Database) : Prop where
  keys : ∀ id a id' a', db.asset id = some a → db.asset id' = some a' → a.objectKey = a'.objectKey →
    id = id'
  buckets : ∀ a ∈ db.assets, a.bucket = config.bucket
  /-- A completion is logged once, for a ready asset. -/
  audited : ∀ id, db.completions id = if ((db.asset id).any fun a => a.status = .ready) then 1 else 0
  authorized : ∀ u ∈ db.authorizations, ∃ a, db.asset u.mediaAssetId = some a ∧ a.objectKey = u.objectKey
  content : settled = true → ∀ id a, db.asset id = some a → a.status = .ready → Kept config db a

/-- How an asset may go on: its status is final, or pending. -/
def Follows (a a' : MediaAsset) : Prop :=
  a'.status = a.status ∨ (a.status = .pending ∧ (a'.status = .ready ∨ a'.status = .failed))

theorem Follows.trans {a a' a'' : MediaAsset} (h : Follows a a') (h' : Follows a' a'') :
    Follows a a'' := by
  unfold Follows at *
  grind

/-- What the holder of the locks `L` may change. -/
structure Granted (config : Config) (settled : Bool) (L : List Uuid) (db db' : Database) : Prop where
  assets : ∀ id ∉ L, ∀ a, db.asset id = some a → db'.asset id = some a
  follows : ∀ id a, db.asset id = some a → ∃ a', db'.asset id = some a' ∧ Follows a a'
  sized : settled = true → ∀ id ∉ L, ∀ a, db.asset id = some a → Sized db a → Sized db' a
  kept : settled = true → ∀ id ∉ L, ∀ a, db.asset id = some a → Kept config db a → Kept config db' a

/-! ### The changes -/

/-- A change of the store, where the tables stay. -/
theorem Inv.store (h : Inv config settled db) (hassets : db'.assets = db.assets)
    (hlogs : db'.auditLogs = db.auditLogs) (hissued : db'.authorizations = db.authorizations)
    (hcontent : settled = true → ∀ id a, db.asset id = some a → a.status = .ready → Kept config db' a) :
    Inv config settled db' := by
  have hasset (id : Uuid) : db'.asset id = db.asset id := by rw [Database.asset, hassets, Database.asset]
  constructor
  · intro id a id' a' ha ha'
    exact h.keys id a id' a' (hasset id ▸ ha) (hasset id' ▸ ha')
  · rw [hassets]
    exact h.buckets
  · intro id
    rw [hasset, ← h.audited id, Database.completions, hlogs, Database.completions]
  · intro u hu
    rw [hasset]
    exact h.authorized u (hissued ▸ hu)
  · intro hsettled id a ha
    exact hcontent hsettled id a (hasset id ▸ ha)

/-- A change of the store outside the objects that are spoken for. -/
theorem Granted.store (hassets : db'.assets = db.assets)
    (hobjects : settled = true → ∀ id ∉ L, ∀ a, db.asset id = some a →
      (Sized db a → Sized db' a) ∧ (Kept config db a → Kept config db' a)) :
    Granted config settled L db db' := by
  have hasset (id : Uuid) : db'.asset id = db.asset id := by rw [Database.asset, hassets, Database.asset]
  constructor
  · intro id _ a ha
    rw [hasset, ha]
  · intro id a ha
    exact ⟨a, by rw [hasset, ha], .inl rfl⟩
  · exact fun hsettled id hid a ha => (hobjects hsettled id hid a ha).1
  · exact fun hsettled id hid a ha => (hobjects hsettled id hid a ha).2

/-- The upload is the recorded content of its asset. -/
def Fits (config : Config) (db : Database) (authorization : UploadAuthorization) (bytes : ByteArray) : Bool :=
  (db.asset authorization.mediaAssetId).all fun a =>
    (bytes.size : Int) = a.byteSize && hashBytes config.sha256 bytes = a.sha256

section Put

variable {authorization : UploadAuthorization} {bytes : ByteArray}

/-- An upload touches the object of its own asset only. -/
theorem Inv.put_other (h : Inv config settled db) (hissued : authorization ∈ db.authorizations) {id : Uuid}
    {a : MediaAsset} (ha : db.asset id = some a) (hid : id ≠ authorization.mediaAssetId) :
    (putObject authorization bytes db).object a.objectKey = db.object a.objectKey := by
  rw [object_putObject, if_neg fun hkey => ?_]
  obtain ⟨a', ha', hkey'⟩ := h.authorized _ hissued
  exact hid (h.keys id a _ a' ha ha' (hkey.trans hkey'.symm))

/-- The recorded content is there after its upload. -/
theorem Inv.put_fits (h : Inv config settled db) (hissued : authorization ∈ db.authorizations)
    (hfits : Fits config db authorization bytes = true) {a : MediaAsset}
    (ha : db.asset authorization.mediaAssetId = some a) :
    Kept config (putObject authorization bytes db) a := by
  obtain ⟨a', ha', hkey⟩ := h.authorized _ hissued
  obtain rfl : a' = a := Option.some.inj (ha'.symm.trans ha)
  rw [Fits, ha] at hfits
  simp only [Option.all_some, Bool.and_eq_true, decide_eq_true_eq] at hfits
  exact ⟨_, by rw [object_putObject, if_pos hkey], hfits.1, hfits.2⟩

theorem inv_put (h : Inv config settled db) (hissued : authorization ∈ db.authorizations)
    (hsettled : settled = true → Fits config db authorization bytes = false →
      ∀ a, db.asset authorization.mediaAssetId = some a → a.status ≠ .ready) :
    Inv config settled (putObject authorization bytes db) := by
  refine h.store rfl rfl rfl fun hs id a ha hready => ?_
  by_cases hid : id = authorization.mediaAssetId
  · subst hid
    by_cases hfits : Fits config db authorization bytes = true
    · exact h.put_fits hissued hfits ha
    · exact absurd hready (hsettled hs (Bool.not_eq_true _ ▸ hfits) a ha)
  · exact (h.content hs id a ha hready).congr rfl rfl rfl (h.put_other hissued ha hid)

theorem granted_put (h : Inv config settled db) (hissued : authorization ∈ db.authorizations)
    (hlocked : settled = true → Fits config db authorization bytes = true ∨ authorization.mediaAssetId ∈ L) :
    Granted config settled L db (putObject authorization bytes db) := by
  refine .store rfl fun hs id hid a ha => ?_
  by_cases heq : id = authorization.mediaAssetId
  · subst heq
    obtain ⟨o, ho, hsize, hhash⟩ := h.put_fits hissued ((hlocked hs).resolve_right hid) ha
    exact ⟨fun _ => ⟨o, ho, hsize⟩, fun _ => ⟨o, ho, hsize, hhash⟩⟩
  · have hobject : (putObject authorization bytes db).object a.objectKey = db.object a.objectKey :=
      h.put_other hissued ha heq
    exact ⟨fun hsized => hsized.congr rfl rfl hobject, fun hkept => hkept.congr rfl rfl rfl hobject⟩

end Put

/-! ### New assets -/

section Insert

variable {asset : MediaAsset} {authorization : UploadAuthorization}

/-- What an insertion does, when it is not refused. -/
theorem insertAsset_eq_ok (h : insertAsset asset authorization db = .ok db') :
    (∀ a ∈ db.assets, a.id ≠ asset.id ∧ (a.bucket = asset.bucket → a.objectKey ≠ asset.objectKey)) ∧
      db' = { db with
        assets := db.assets ++ [asset]
        auditLogs := db.auditLogs ++
          [⟨asset.organizationId, asset.uploadedByUserId, .mediaUploadIntentCreate, asset.id⟩]
        authorizations := db.authorizations ++ [authorization] } := by
  simp only [insertAsset, bind_eq_ok, failIf_eq_ok, pure_eq_ok] at h
  obtain ⟨-, hfresh, rfl⟩ := h
  refine ⟨fun a ha => ?_, rfl⟩
  push Not at hfresh
  exact ⟨(hfresh a ha).1, (hfresh a ha).2⟩

variable (hinsert : insertAsset asset authorization db = .ok db')

include hinsert in
/-- The assets after an insertion. -/
theorem asset_insert (id : Uuid) :
    db'.asset id = if id = asset.id then some asset else db.asset id := by
  obtain ⟨hfresh, rfl⟩ := insertAsset_eq_ok hinsert
  unfold Database.asset
  rw [List.find?_append, List.find?_singleton]
  by_cases hid : id = asset.id
  · rw [if_pos hid, List.find?_eq_none.mpr fun a ha => by simpa [hid] using (hfresh a ha).1]
    simp [hid]
  · rw [if_neg hid, if_neg (by simpa using Ne.symm hid), Option.or_none]

include hinsert in
theorem asset_insert_of_some {id : Uuid} {a : MediaAsset} (ha : db.asset id = some a) :
    db'.asset id = some a := by
  rw [asset_insert hinsert, if_neg, ha]
  rintro rfl
  exact ((insertAsset_eq_ok hinsert).1 a (asset_mem ha)).1 (asset_id ha)

include hinsert in
theorem inv_insert (h : Inv config settled db) (hpending : asset.status = .pending)
    (hbucket : asset.bucket = config.bucket) (hauthorization : authorization.mediaAssetId = asset.id)
    (hkey : authorization.objectKey = asset.objectKey) : Inv config settled db' := by
  have hasset := asset_insert hinsert
  have hsome (id : Uuid) (a : MediaAsset) (ha : db.asset id = some a) := asset_insert_of_some hinsert ha
  obtain ⟨hfresh, hdb'⟩ := insertAsset_eq_ok hinsert
  have hother (id : Uuid) (a : MediaAsset) (ha : db.asset id = some a) : a.objectKey ≠ asset.objectKey := by
    refine (hfresh a (asset_mem ha)).2 ?_
    rw [h.buckets a (asset_mem ha), hbucket]
  constructor
  · intro id a id' a' ha ha' hsame
    rw [hasset] at ha ha'
    split at ha
    · split at ha'
      · simp_all
      · cases ha
        exact absurd hsame.symm (hother id' a' ha')
    · split at ha'
      · cases ha'
        exact absurd hsame (hother id a ha)
      · exact h.keys id a id' a' ha ha' hsame
  · intro a ha
    rw [hdb'] at ha
    rcases List.mem_append.mp ha with ha | ha
    · exact h.buckets a ha
    · rw [List.mem_singleton.mp ha, hbucket]
  · intro id
    have hlogs : db'.completions id = db.completions id := by
      rw [hdb', Database.completions, List.countP_append]
      simp [Database.completions]
    rw [hlogs, h.audited, hasset]
    by_cases hid : id = asset.id
    · have hnone : db.asset id = none :=
        List.find?_eq_none.mpr fun a ha => by simpa [hid] using (hfresh a ha).1
      rw [if_pos hid, hnone]
      simp [hpending]
    · rw [if_neg hid]
  · intro u hu
    rw [hdb'] at hu
    rcases List.mem_append.mp hu with hu | hu
    · obtain ⟨a, ha, hkeys⟩ := h.authorized u hu
      exact ⟨a, hsome _ a ha, hkeys⟩
    · obtain rfl := List.mem_singleton.mp hu
      exact ⟨asset, by rw [hasset, if_pos hauthorization], hkey.symm⟩
  · intro hsettled id a ha hready
    rw [hasset] at ha
    split at ha
    · cases ha
      rw [hpending] at hready
      cases hready
    · refine (h.content hsettled id a ha hready).congr rfl rfl rfl ?_
      rw [hdb']
      rfl

include hinsert in
theorem granted_insert : Granted config settled L db db' := by
  have hsome (id : Uuid) (a : MediaAsset) (ha : db.asset id = some a) := asset_insert_of_some hinsert ha
  have hobject (key : String) : db'.object key = db.object key := by
    rw [(insertAsset_eq_ok hinsert).2]
    rfl
  constructor
  · exact fun id _ a ha => hsome id a ha
  · exact fun id a ha => ⟨a, hsome id a ha, .inl rfl⟩
  · exact fun _ id _ a _ hsized => hsized.congr rfl rfl (hobject _)
  · exact fun _ id _ a _ hkept => hkept.congr rfl rfl rfl (hobject _)

end Insert

/-! ### The end of a completion -/

section Finish

variable {id : Uuid} {a : MediaAsset} {f : MediaAsset → MediaAsset} {logs : List AuditLog}

/-- The database in which the asset has changed, and its completion is logged. -/
def finish (id : Uuid) (f : MediaAsset → MediaAsset) (logs : List AuditLog) (db : Database) : Database :=
  { db with assets := updateWhere (·.id = id) f db.assets, auditLogs := db.auditLogs ++ logs }

theorem asset_finish (hid : ∀ a, (f a).id = a.id) (id' : Uuid) :
    (finish id f logs db).asset id' = (db.asset id').map fun a => if id' = id then f a else a :=
  find?_update hid id'

variable (hf : ∀ a, (f a).id = a.id ∧ (f a).bucket = a.bucket ∧ (f a).objectKey = a.objectKey ∧
  (f a).byteSize = a.byteSize ∧ (f a).sha256 = a.sha256)

include hf in
theorem inv_finish (h : Inv config settled db) (ha : db.asset id = some a) (hpending : a.status = .pending)
    (hlogs : ∀ id', logs.countP (fun l => l.action = .mediaUploadComplete && l.entityId = id') =
      if id' = id ∧ (f a).status = .ready then 1 else 0)
    (hkept : settled = true → (f a).status = .ready → Kept config db a) :
    Inv config settled (finish id f logs db) := by
  have hasset : ∀ id', (finish id f logs db).asset id' =
      (db.asset id').map fun a => if id' = id then f a else a := asset_finish fun a => (hf a).1
  constructor
  · intro id₁ a₁ id₂ a₂ h₁ h₂ hsame
    rw [hasset, Option.map_eq_some_iff] at h₁ h₂
    obtain ⟨b₁, hb₁, rfl⟩ := h₁
    obtain ⟨b₂, hb₂, rfl⟩ := h₂
    refine h.keys id₁ b₁ id₂ b₂ hb₁ hb₂ ?_
    have hkey (c : Prop) [Decidable c] (b : MediaAsset) : (if c then f b else b).objectKey = b.objectKey := by
      split
      · exact (hf b).2.2.1
      · rfl
    rwa [hkey, hkey] at hsame
  · intro b hb
    obtain ⟨b₀, hb₀, rfl⟩ := mem_updateWhere.mp hb
    split
    · rw [(hf b₀).2.1]
      exact h.buckets b₀ hb₀
    · exact h.buckets b₀ hb₀
  · intro id'
    have hcount : (finish id f logs db).completions id' = db.completions id' +
        if id' = id ∧ (f a).status = .ready then 1 else 0 := by
      rw [← hlogs id']
      exact List.countP_append
    rw [hcount, h.audited, hasset]
    by_cases hid : id' = id
    · subst hid
      simp [ha, hpending]
    · simp only [hid, false_and, if_false, Nat.add_zero]
      congr 2
      cases db.asset id' <;> rfl
  · intro u hu
    obtain ⟨b, hb, hkey⟩ := h.authorized u hu
    refine ⟨_, by rw [hasset, hb]; rfl, ?_⟩
    split
    · rw [(hf b).2.2.1, hkey]
    · exact hkey
  · intro hsettled id' b hb hready
    rw [hasset, Option.map_eq_some_iff] at hb
    obtain ⟨b₀, hb₀, rfl⟩ := hb
    by_cases hid : id' = id
    · subst hid
      obtain rfl : b₀ = a := Option.some.inj (hb₀.symm.trans ha)
      rw [if_pos rfl] at hready ⊢
      exact (hkept hsettled hready).congr (hf b₀).2.2.1 (hf b₀).2.2.2.1 (hf b₀).2.2.2.2 rfl
    · rw [if_neg hid] at hready ⊢
      exact (h.content hsettled id' b₀ hb₀ hready).congr rfl rfl rfl rfl

include hf in
theorem granted_finish (ha : db.asset id = some a) (hfollows : Follows a (f a)) (hid : id ∈ L) :
    Granted config settled L db (finish id f logs db) := by
  have hasset : ∀ id', (finish id f logs db).asset id' =
      (db.asset id').map fun a => if id' = id then f a else a := asset_finish fun a => (hf a).1
  constructor
  · intro id' hid' b hb
    rw [hasset, hb, Option.map_some, if_neg]
    rintro rfl
    exact hid' hid
  · intro id' b hb
    refine ⟨if id' = id then f b else b, by rw [hasset, hb, Option.map_some], ?_⟩
    by_cases heq : id' = id
    · subst heq
      obtain rfl : b = a := Option.some.inj (hb.symm.trans ha)
      rw [if_pos rfl]
      exact hfollows
    · rw [if_neg heq]
      exact .inl rfl
  · exact fun _ id' _ b _ hsized => hsized.congr rfl rfl rfl
  · exact fun _ id' _ b _ hkept => hkept.congr rfl rfl rfl rfl

/-- The object of a failed asset goes. -/
theorem inv_deleteObject (h : Inv config settled db) (ha : db.asset id = some a)
    (hfailed : a.status = .failed) : Inv config settled (deleteObject a.objectKey db) := by
  refine h.store rfl rfl rfl fun hsettled id' b hb hready => ?_
  refine (h.content hsettled id' b hb hready).congr rfl rfl rfl (object_deleteObject fun hkey => ?_)
  obtain rfl := h.keys id' b id a hb ha hkey
  obtain rfl : b = a := Option.some.inj (hb.symm.trans ha)
  rw [hfailed] at hready
  cases hready

theorem granted_deleteObject (h : Inv config settled db) (ha : db.asset id = some a) (hid : id ∈ L) :
    Granted config settled L db (deleteObject a.objectKey db) := by
  refine .store rfl fun _ id' hid' b hb => ?_
  have hobject : (deleteObject a.objectKey db).object b.objectKey = db.object b.objectKey := by
    refine object_deleteObject fun hkey => ?_
    obtain rfl := h.keys id' b id a hb ha hkey
    exact hid' hid
  exact ⟨fun hsized => hsized.congr rfl rfl hobject, fun hkept => hkept.congr rfl rfl rfl hobject⟩

end Finish

end CrownFi.Media
