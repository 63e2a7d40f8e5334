import CrownFi.Hosting.Requests

/-!
# CrownFi.Hosting.Eligible

**The hosted pageant stays eligible as long as nobody withdraws it.** `update_site_settings` admits only
a published or active pageant as the default, and checks the one it found in the settings again. But
`update_pageant` and `delete_pageant` do not look at the settings: they withdraw the default pageant,
too, and from then on every request that leaves the default as it is fails at that check, whatever else
it asks for. The check is a statement of its own, before the transaction, so a pageant can also be
withdrawn between the check and the write.

So the default is eligible, and no request that leaves it alone is refused for it, in every run in which
the writers of the pageants spare the default, and no write of the settings comes late
(`Undisturbed`).
-/

namespace CrownFi.Hosting

open Api Lib Lib.Processes

/-- The default pageant, if there is one, is published or active. -/
def Database.HostsEligible (db : Database) : Prop :=
  ∀ pageantId, db.siteSettings.defaultPageantId = some pageantId → db.eligible pageantId = true

/-- The request says nothing about the default pageant. -/
def UpdateSiteSettingsRequest.LeavesDefault (body : UpdateSiteSettingsRequest) : Prop :=
  body.clearDefaultPageant.getD false = false ∧ body.defaultPageantId = none

/-- A change to a status that cannot be hosted. -/
def PageantChange.withdraws (change : PageantChange) : Bool :=
  (change.status.bind PageantStatus.ofText).any fun status => !status.eligible

/-- **Nobody disturbs the default.** A pageant is withdrawn only while it is not the default, what a
request found in the settings is still there when it is checked, and what was checked is still eligible
when it is written. -/
def Undisturbed : Point → Database → Prop
  | .other, _ => True
  | .check pageantId asked, db => asked = false → db.siteSettings.defaultPageantId = some pageantId
  | .settings defaultPageantId, db => ∀ pageantId ∈ defaultPageantId, db.eligible pageantId = true
  | .update pageantId change, db =>
      (updateRow pageantId change db).isOk = true → change.withdraws = true →
        db.siteSettings.defaultPageantId ≠ some pageantId
  | .delete pageantId, db => db.siteSettings.defaultPageantId ≠ some pageantId

instance : (point : Point) → (db : Database) → Decidable (Undisturbed point db)
  | .other, _ => .isTrue trivial
  | .check _ _, _ => inferInstanceAs (Decidable (_ → _))
  | .settings none, _ => .isTrue nofun
  | .settings (some pageantId), db =>
      decidable_of_iff (db.eligible pageantId = true) (by simp [Undisturbed])
  | .update _ _, _ => inferInstanceAs (Decidable (_ → _))
  | .delete _, _ => inferInstanceAs (Decidable (_ ≠ _))

/-! ### The writers -/

section Writers

variable {db db' : Database} {pageantId : Uuid} {change : PageantChange}

/-- A row stays eligible if its new status, or its old one, is. -/
theorem Database.eligible_of_update {f : Pageant → Pageant} {hosted : Uuid}
    (h : db.eligible hosted = true) (hid : ∀ p, (f p).id = p.id)
    (hstatus : hosted = pageantId → ∀ p, p.status.eligible = true → (f p).status.eligible = true) :
    ({ db with pageants := updateWhere (·.id = pageantId) f db.pageants } : Database).eligible hosted
      = true := by
  obtain ⟨p, hp, hok⟩ := List.any_eq_true.mp h
  simp only [Bool.and_eq_true, decide_eq_true_eq] at hok
  obtain ⟨rfl, heligible⟩ := hok
  refine List.any_eq_true.mpr ⟨if p.id = pageantId then f p else p,
    mem_updateWhere.mpr ⟨p, hp, by simp⟩, ?_⟩
  by_cases hpageant : p.id = pageantId
  · rw [if_pos hpageant]
    simpa [hid p] using hstatus hpageant p heligible
  · rw [if_neg hpageant]
    simpa using heligible

/-- A change that does not withdraw a pageant leaves it eligible. -/
theorem apply_eligible {status : Option PageantStatus} (h : status.any (fun s => !s.eligible) = false)
    {p : Pageant} (hp : p.status.eligible = true) : (p.apply change status).status.eligible = true := by
  cases status with
  | none => exact hp
  | some s =>
      show s.eligible = true
      simpa using h

/-- What an update does, when it is not refused. -/
theorem updateRow_eq_ok (h : updateRow pageantId change db = .ok db') :
    ∃ status, status = change.status.bind PageantStatus.ofText ∧
      db' = { db with
        pageants := updateWhere (·.id = pageantId) (fun p => p.apply change status) db.pageants } := by
  simp only [updateRow, bind_eq_ok, pure_eq_ok] at h
  obtain ⟨status, hstatus, row, -, u, -, v, -, rfl⟩ := h
  refine ⟨status, ?_, rfl⟩
  cases htext : change.status with
  | none =>
      rw [htext] at hstatus
      exact (Except.ok.inj hstatus).symm
  | some text =>
      rw [htext] at hstatus
      cases hof : PageantStatus.ofText text with
      | none =>
          rw [Api.optional, hof] at hstatus
          cases hstatus
      | some s =>
          rw [Api.optional, hof] at hstatus
          obtain rfl := Except.ok.inj hstatus
          exact hof.symm

/-- **An update of another pageant, or one that does not withdraw it**, keeps the default eligible. -/
theorem hostsEligible_update (hI : db.HostsEligible) (hok : Undisturbed (.update pageantId change) db)
    (h : updateRow pageantId change db = .ok db') : db'.HostsEligible := by
  have hspares := hok (by rw [h]; rfl)
  obtain ⟨status, hstatus, rfl⟩ := updateRow_eq_ok h
  intro hosted hhosted
  refine Database.eligible_of_update (hI hosted hhosted) (fun _ => rfl) fun hsame p hp => ?_
  refine apply_eligible (Bool.not_eq_true _ ▸ fun hwithdraws => ?_) hp
  exact hspares (by rw [PageantChange.withdraws, ← hstatus]; exact hwithdraws) (hsame ▸ hhosted)

theorem hostsEligible_archive (hI : db.HostsEligible) (hok : Undisturbed (.delete pageantId) db) :
    (archiveRow pageantId db).HostsEligible := by
  intro hosted hhosted
  refine Database.eligible_of_update (hI hosted hhosted) (fun _ => rfl) fun hsame => ?_
  exact absurd (hsame ▸ hhosted) hok

end Writers

/-! ### The handlers -/

/-- What a request may not be answered. -/
def Expected : Request → Answer → Prop
  | .updateSiteSettings body, answer => body.LeavesDefault → answer ≠ .error hostedPageantNotPublished
  | _, _ => True

section Handlers

variable {config : Config} {answers : Answer → Prop} {α : Type}

/-- An outline of a handler: it remembers nothing of the tables. -/
abbrev Outline (answers : Answer → Prop) (p : Proc Database Empty Point Answer) : Prop :=
  Outlined Database.HostsEligible (fun _ _ _ => True) Undisturbed (fun _ _ _ => True) answers p []
    fun _ => True

theorem outline_read {point : Point} {answer : Database → α} {k : α → Proc Database Empty Point Answer}
    (h : ∀ db, db.HostsEligible → Undisturbed point db → Outline answers (k (answer db))) :
    Outline answers (Task.read point answer k) :=
  outlined_read fun db hI _ hok => ⟨fun _ => True, trivial, stable_true, h db hI hok⟩

theorem outline_write {point : Point} {effect : Database → Database}
    {k : PUnit → Proc Database Empty Point Answer}
    (hkeeps : ∀ db, db.HostsEligible → Undisturbed point db → (effect db).HostsEligible)
    (h : Outline answers (k ⟨⟩)) : Outline answers (Task.write point effect k) :=
  outlined_write fun db hI _ hok => ⟨.inr ⟨hkeeps db hI hok, trivial⟩, fun _ => True, trivial, stable_true, h⟩

theorem outline_organizationForPageant {pageantId : Uuid} {k : Uuid → Proc Database Empty Point Answer}
    (h : ∀ organizationId, Outline (fun _ => True) (k organizationId)) :
    Outline (fun _ => True) (organizationForPageant pageantId k) := by
  unfold organizationForPageant
  refine outlined_bind (outline_read fun db _ _ => ?_)
  exact outlined_orElse fun organizationId _ => h organizationId

theorem outline_requireEditor {organizationId userId : Uuid}
    {k : PUnit → Proc Database Empty Point Answer} (h : Outline (fun _ => True) (k ⟨⟩)) :
    Outline (fun _ => True) (requireEditor organizationId userId k) := by
  unfold requireEditor
  refine outlined_bind (outline_read fun db _ _ => ?_)
  refine outlined_ite (fun _ => h) fun _ => ?_
  refine outlined_bind (outline_read fun db _ _ => ?_)
  exact outlined_require fun _ => h

theorem outline_requireBounds {pageantId : Uuid} {change : PageantChange}
    {k : PUnit → Proc Database Empty Point Answer} (h : Outline (fun _ => True) (k ⟨⟩)) :
    Outline (fun _ => True) (requireBounds pageantId change k) := by
  unfold requireBounds
  refine outlined_ite (fun _ => ?_) fun _ => h
  refine outlined_bind (outline_read fun db _ _ => ?_)
  refine outlined_bind (outlined_orElse fun existing _ => ?_)
  exact outlined_require fun _ => h

theorem outline_updatePageant {body : UpdatePageantRequest} :
    Outline (fun _ => True) (updatePageant config body fun r => .ret (.ok r)) := by
  unfold updatePageant
  refine outlined_bind (outline_organizationForPageant fun organizationId => ?_)
  refine outlined_bind (outline_requireEditor ?_)
  refine outlined_bind (outlined_ofExcept fun change _ => ?_)
  refine outlined_bind (outline_requireBounds ?_)
  refine outlined_bind (outlined_transact fun db db' hI _ hok hupdate => ?_)
  exact ⟨⟨hostsEligible_update hI hok hupdate, trivial⟩, fun _ => True, trivial, stable_true,
    outlined_ret trivial⟩

theorem outline_deletePageant {pageantId actorUserId : Uuid} :
    Outline (fun _ => True) (deletePageant pageantId actorUserId fun r => .ret (.ok r)) := by
  unfold deletePageant
  refine outlined_bind (outline_organizationForPageant fun organizationId => ?_)
  refine outlined_bind (outline_requireEditor ?_)
  refine outlined_bind (outline_write (fun db hI hok => hostsEligible_archive hI hok) ?_)
  exact outlined_ret trivial

/-- The check of a pageant that the request found in the settings is not refused. -/
theorem outline_requireEligible {body : UpdateSiteSettingsRequest} {current : Option Uuid}
    {k : PUnit → Proc Database Empty Point Answer}
    (h : Outline (Expected (.updateSiteSettings body)) (k ⟨⟩)) :
    Outline (Expected (.updateSiteSettings body))
      (requireEligible (body.default current) body.defaultPageantId.isSome k) := by
  cases body.default current with
  | none => exact h
  | some pageantId =>
    unfold requireEligible
    refine outlined_bind (outline_read fun db hI hok => ?_)
    refine outlined_requireFailing (fun _ => h) fun hrefused hleaves => ?_
    have hcurrent : db.siteSettings.defaultPageantId = some pageantId := hok (by rw [hleaves.2]; rfl)
    rw [hI pageantId hcurrent] at hrefused
    cases hrefused

/-- A failed check of an optional value is a failed check of a value. -/
theorem optional_eq_error {β : Type} {check : String → Except ApiError β} {value : Option String}
    {error : ApiError} (h : Api.optional check value = .error error) :
    ∃ text, check text = .error error := by
  cases value with
  | none => cases h
  | some text => exact ⟨text, map_eq_error.mp h⟩

theorem requiredChars_error {value : String} {max : Nat} {code : String} {error : ApiError}
    (h : requiredChars value max code = .error error) : error = .invalidRequest code := by
  unfold requiredChars at h
  dsimp only at h
  split at h
  · exact (Except.error.inj h).symm
  · cases h

theorem validateNetwork_error {site : Access.Site} {value : String} {error : ApiError}
    (h : site.validateNetwork value = .error error) :
    error = .forbidden ∨ error = .invalidRequest "invalid_stellar_network" := by
  unfold Access.Site.validateNetwork at h
  dsimp only at h
  split at h
  · cases h
  · split at h
    · split at h
      · cases h
      · exact .inl (Except.error.inj h).symm
    · exact .inr (Except.error.inj h).symm

theorem outline_updateSiteSettings {body : UpdateSiteSettingsRequest} :
    Outline (Expected (.updateSiteSettings body))
      (updateSiteSettings config body fun r => .ret (.ok r)) := by
  unfold updateSiteSettings
  refine outlined_bind (outline_read fun db _ _ => ?_)
  refine outlined_bind (outlined_requireFailing (fun _ => ?_) fun _ _ => by simp [hostedPageantNotPublished])
  refine outlined_bind (outline_read fun current _ _ => ?_)
  refine outlined_bind (outlined_ofExceptFailing (fun siteName _ => ?_) fun error herror _ => ?_)
  · refine outlined_bind (outlined_ofExceptFailing (fun network _ => ?_) fun error herror _ => ?_)
    · refine outlined_bind (outlined_requireFailing (fun _ => ?_) fun _ _ => by simp [hostedPageantNotPublished])
      refine outlined_bind (outline_requireEligible ?_)
      refine outlined_bind (outline_write (fun db _ hok hosted hhosted => ?_) ?_)
      · exact hok hosted hhosted
      · exact outlined_ret fun _ => by simp
    · obtain ⟨text, htext⟩ := optional_eq_error herror
      rcases validateNetwork_error htext with rfl | rfl <;> simp [hostedPageantNotPublished]
  · obtain ⟨text, htext⟩ := optional_eq_error herror
    obtain rfl := requiredChars_error htext
    simp [hostedPageantNotPublished]

theorem outline_program (r : Request) : Outline (Expected r) ((hosting config).program r) := by
  cases r with
  | updateSiteSettings body => exact outline_updateSiteSettings
  | updatePageant body => exact outline_updatePageant
  | deletePageant pageantId actorUserId => exact outline_deletePageant

end Handlers

/-! ### Runs -/

/-- **The hosted pageant stays eligible** in every undisturbed run, and no request that leaves it alone is
refused for it. -/
theorem hosted_pageant_eligible {config : Config} {db₀ : Database} (h₀ : db₀.HostsEligible)
    {moves : List (Move Request Empty)} {world : World Request Database Empty Point Answer}
    (hrun : Run (World.Step (hosting config) (.ofAccess Undisturbed)) (World.idle db₀) moves world) :
    world.state.HostsEligible ∧
      ∀ t ∈ world.processes, ∀ body, t.request = .updateSiteSettings body → body.LeavesDefault →
        t.proc.answer? ≠ some (.error hostedPageantNotPublished) := by
  have h : Running Database.HostsEligible (fun _ _ _ => True) (Discipline.ofAccess Undisturbed).access
      (fun _ _ _ => True) Expected world :=
    run_running outline_program (fun e => nomatch e) hrun (running_idle h₀)
  refine ⟨h.inv, fun t ht body hbody hleaves hanswer => ?_⟩
  have hexpected := h.answered ht hanswer
  rw [hbody] at hexpected
  exact hexpected hleaves rfl

/-! A site with one published pageant, whose administrator hosts it and turns the selector on. -/

def testConfig : Config where
  site := { setupBootstrapToken := "", allowMainnet := false, lower := id }
  parseRfc3339 _ := none

def oneSite (defaultPageantId : Option Uuid) : Database where
  directory :=
    { clock := 0, users := [], stellarAccounts := [],
      siteAdministrators := [⟨3, .owner, .active⟩], organizationMembers := [] }
  siteSettings :=
    { siteName := "CrownFi", stellarNetwork := .testnet, mainnetEnabled := false,
      defaultPageantId := defaultPageantId, pageantSelectorEnabled := false }
  pageants :=
    [{ id := 7, organizationId := 5, name := "Miss", slug := "miss", description := none,
       status := .published, startsAt := none, endsAt := none, timezone := "Asia/Manila",
       venueName := none }]

def settingsRequest (defaultPageantId : Option Uuid) (selectorEnabled : Option Bool) : Request :=
  .updateSiteSettings
    { actorUserId := 3, siteName := none, stellarNetwork := none, defaultPageantId := defaultPageantId,
      clearDefaultPageant := none, pageantSelectorEnabled := selectorEnabled }

def hostAndSelect : List (Move Request Empty) :=
  .spawn (settingsRequest (some 7) none) :: List.replicate 4 (.go 0) ++
    .spawn (settingsRequest none (some true)) :: List.replicate 4 (.go 1)

def hosted (world : World Request Database Empty Point Answer) : Bool :=
  world.state.siteSettings.defaultPageantId = some 7 && world.state.siteSettings.pageantSelectorEnabled

/-- The pageant is hosted, and the selector is on. -/
theorem hostAndSelect_eligible : ∃ world : World Request Database Empty Point Answer,
    hosted world = true ∧ world.state.HostsEligible := by
  have h : ((World.idle (oneSite none)).replay (hosting testConfig) (.ofAccess Undisturbed)
      hostAndSelect).any
      hosted = true := by decide +kernel
  obtain ⟨world, hworld, hhosted⟩ := (Option.any_eq_true _ _).mp h
  have hnone : (oneSite none).HostsEligible := by
    rintro pageantId ⟨⟩
  exact ⟨world, hhosted, (hosted_pageant_eligible hnone (World.run_of_replay hworld)).1⟩

/-- The hosted pageant is deleted, and then the selector is to be turned on. -/
def deleteAndSelect : List (Move Request Empty) :=
  .spawn (.deletePageant 7 3) :: List.replicate 3 (.go 0) ++
    .spawn (settingsRequest none (some true)) :: List.replicate 3 (.go 1)

def refusedSelect (world : World Request Database Empty Point Answer) : Bool :=
  !world.state.eligible 7 && world.state.siteSettings.defaultPageantId = some 7 &&
    world.processes.any fun t => t.request = settingsRequest none (some true) &&
      t.proc.answer? = some (.error hostedPageantNotPublished)

/-- **Deleting the hosted pageant** leaves it hosted, and the selector can no longer be turned on. -/
theorem deleted_pageant_stays_hosted :
    ¬ ∀ (config : Config) (db₀ : Database), db₀.HostsEligible →
      ∀ (moves : List (Move Request Empty)) (world : World Request Database Empty Point Answer),
        Run (World.Step (hosting config) .none) (World.idle db₀) moves world →
          world.state.HostsEligible ∨
            ∀ t ∈ world.processes, ∀ body, t.request = .updateSiteSettings body → body.LeavesDefault →
              t.proc.answer? ≠ some (.error hostedPageantNotPublished) := by
  intro hall
  have h : ((World.idle (oneSite (some 7))).replay (hosting testConfig) .none
      deleteAndSelect).any refusedSelect = true := by decide +kernel
  obtain ⟨world, hworld, hrefused⟩ := (Option.any_eq_true _ _).mp h
  simp only [refusedSelect, Bool.and_eq_true, decide_eq_true_eq, List.any_eq_true] at hrefused
  obtain ⟨⟨hineligible, hdefault⟩, t, ht, hrequest, hanswer⟩ := hrefused
  have hhosts : (oneSite (some 7)).HostsEligible := by
    rintro pageantId ⟨⟩
    decide
  rcases hall testConfig _ hhosts _ world (World.run_of_replay hworld) with hkept | hkept
  · rw [hkept 7 hdefault] at hineligible
    cases hineligible
  · exact hkept t ht _ hrequest ⟨rfl, rfl⟩ hanswer

end CrownFi.Hosting
