import CrownFi.Hosting.Requests
import CrownFi.Lib.Accesses
import CrownFi.Lib.Patches

/-!
# CrownFi.Hosting.Overwrites

**What becomes of a patch of the site settings.** `update_site_settings` reads the row, lays its patch
over what it read, and writes the four columns back, without a lock on the row in between
(`complete_setup` has one). A request that reads the row before another one's write and writes after
it takes back what the other one set, although it sets nothing of that kind itself.

The patches of all requests are there in every run in which no write comes upon a change in the
columns that its request leaves alone (`Current`).
-/

namespace CrownFi.Hosting

open Api Lib Lib.Processes

/-! ### Patches -/

/-- The columns that the handler writes. -/
inductive Field
  | siteName
  | stellarNetwork
  | defaultPageantId
  | pageantSelectorEnabled
  deriving DecidableEq, Repr

def Field.Column : Field → Type
  | siteName => String
  | stellarNetwork => Network
  | defaultPageantId => Option Uuid
  | pageantSelectorEnabled => Bool

instance : (f : Field) → DecidableEq f.Column
  | .siteName => inferInstanceAs (DecidableEq String)
  | .stellarNetwork => inferInstanceAs (DecidableEq Network)
  | .defaultPageantId => inferInstanceAs (DecidableEq (Option Uuid))
  | .pageantSelectorEnabled => inferInstanceAs (DecidableEq Bool)

def fields : List Field := [.siteName, .stellarNetwork, .defaultPageantId, .pageantSelectorEnabled]

theorem mem_fields (f : Field) : f ∈ fields := by
  cases f <;> decide

instance {p : Field → Prop} [DecidablePred p] : Decidable (∀ f, p f) :=
  decidable_of_iff (∀ f ∈ fields, p f) ⟨fun h f => h f (mem_fields f), fun h f _ => h f⟩

/-- The columns of the settings. -/
def SiteSettingsRecord.row (settings : SiteSettingsRecord) : Row Field.Column
  | .siteName => settings.siteName
  | .stellarNetwork => settings.stellarNetwork
  | .defaultPageantId => settings.defaultPageantId
  | .pageantSelectorEnabled => settings.pageantSelectorEnabled

namespace UpdateSiteSettingsRequest

/-- What a request sets: the name and the network as they are after their checks, and no default
pageant if it is to be cleared. -/
def patch (config : Config) (body : UpdateSiteSettingsRequest) : Patch Field.Column
  | .siteName => (optional (requiredChars · 160 "invalid_site_name") body.siteName).toOption.join
  | .stellarNetwork => (optional config.site.validateNetwork body.stellarNetwork).toOption.join
  | .defaultPageantId =>
      if body.clearDefaultPageant.getD false then some none else body.defaultPageantId.map some
  | .pageantSelectorEnabled => body.pageantSelectorEnabled

/-- What is left of a request that has read these settings and passed its checks. -/
def writing (config : Config) (body : UpdateSiteSettingsRequest) (current : SiteSettingsRecord) :
    Proc Database Empty Point Answer :=
  let row := (body.patch config).overlay current.row
  let write : Handler PUnit.{1} := Task.write (.settings (row .defaultPageantId)) fun db =>
    { db with siteSettings := { db.siteSettings with
        siteName := row .siteName, stellarNetwork := row .stellarNetwork,
        defaultPageantId := row .defaultPageantId,
        pageantSelectorEnabled := row .pageantSelectorEnabled } }
  write fun _ => .ret (.ok .ok)

end UpdateSiteSettingsRequest

variable {config : Config} {body : UpdateSiteSettingsRequest} {current : SiteSettingsRecord}

theorem overlay_defaultPageantId : (body.patch config).overlay current.row .defaultPageantId =
    body.default current.defaultPageantId := by
  unfold UpdateSiteSettingsRequest.default
  cases hclear : body.clearDefaultPageant.getD false <;>
    cases hgiven : body.defaultPageantId <;>
    simp only [Patch.overlay, UpdateSiteSettingsRequest.patch, hclear, hgiven, SiteSettingsRecord.row] <;>
    rfl

/-! ### The accesses of the handlers -/

/-- **An access writes the settings as a patch laid over what was read**, or leaves them. -/
inductive Writes (config : Config) : Request → Point → (Database → Database) →
    (Database → Proc Database Empty Point Answer) → Prop
  | settings {body : UpdateSiteSettingsRequest} {current : SiteSettingsRecord} {point : Point}
      {effect : Database → Database} {next : Database → Proc Database Empty Point Answer}
      (hwriting : .access point effect next = body.writing config current) :
      Writes config (.updateSiteSettings body) point effect next
  | other {r : Request} {point : Point} {effect : Database → Database}
      {next : Database → Proc Database Empty Point Answer}
      (hleaves : ∀ db, (effect db).siteSettings = db.siteSettings)
      (hpoint : ∀ defaultPageantId, point ≠ .settings defaultPageantId) : Writes config r point effect next

section Accesses

variable {α : Type} {r : Request} {point : Point}

theorem accessing_read {answer : Database → α} {k : α → Proc Database Empty Point Answer}
    (hpoint : ∀ defaultPageantId, point ≠ .settings defaultPageantId)
    (h : ∀ a, Accessing (Writes config r) (k a)) :
    Accessing (Writes config r) (Task.read point answer k) :=
  accessing_access (.other (fun _ => rfl) hpoint) h

theorem accessing_requireEligible {defaultPageantId : Option Uuid} {asked : Bool}
    {k : PUnit → Proc Database Empty Point Answer} (h : Accessing (Writes config r) (k ⟨⟩)) :
    Accessing (Writes config r) (requireEligible defaultPageantId asked k) := by
  cases defaultPageantId with
  | none => exact h
  | some pageantId =>
      unfold requireEligible
      refine accessing_bind (accessing_read nofun fun eligible => ?_)
      exact accessing_require fun _ => h

theorem accessing_updateSiteSettings : Accessing (Writes config (.updateSiteSettings body))
    (updateSiteSettings config body fun r => .ret (.ok r)) := by
  unfold updateSiteSettings
  refine accessing_bind (accessing_read nofun fun allowed => ?_)
  refine accessing_bind (accessing_require fun _ => ?_)
  refine accessing_bind (accessing_read nofun fun current => ?_)
  refine accessing_bind (accessing_ofExcept fun siteName hname => ?_)
  refine accessing_bind (accessing_ofExcept fun network hnetwork => ?_)
  refine accessing_bind (accessing_require fun _ => ?_)
  refine accessing_bind (accessing_requireEligible ?_)
  -- the write is that of the patch over `current`
  have hwriting : (Task.write (.settings (body.default current.defaultPageantId)) (fun db =>
      { db with siteSettings := { db.siteSettings with
          siteName := siteName.getD current.siteName
          stellarNetwork := network.getD current.stellarNetwork
          defaultPageantId := body.default current.defaultPageantId
          pageantSelectorEnabled :=
            body.pageantSelectorEnabled.getD current.pageantSelectorEnabled } }) : Handler PUnit.{1})
      (fun _ => .ret (.ok .ok)) = body.writing config current := by
    have hsite : (body.patch config).overlay current.row .siteName = siteName.getD current.siteName := by
      simp only [Patch.overlay, UpdateSiteSettingsRequest.patch, hname]
      rfl
    have hnet : (body.patch config).overlay current.row .stellarNetwork =
        network.getD current.stellarNetwork := by
      simp only [Patch.overlay, UpdateSiteSettingsRequest.patch, hnetwork]
      rfl
    simp only [UpdateSiteSettingsRequest.writing, hsite, hnet, overlay_defaultPageantId]
    rfl
  exact accessing_bind (accessing_access (.settings hwriting) fun _ => accessing_ret)

theorem accessing_requireEditor {organizationId userId : Uuid} {k : PUnit → Proc Database Empty Point Answer}
    (h : Accessing (Writes config r) (k ⟨⟩)) :
    Accessing (Writes config r) (requireEditor organizationId userId k) := by
  unfold requireEditor
  refine accessing_bind (accessing_read nofun fun admin => ?_)
  refine accessing_ite (fun _ => h) fun _ => ?_
  refine accessing_bind (accessing_read nofun fun editor => ?_)
  exact accessing_require fun _ => h

theorem accessing_organizationForPageant {pageantId : Uuid} {k : Uuid → Proc Database Empty Point Answer}
    (h : ∀ organizationId, Accessing (Writes config r) (k organizationId)) :
    Accessing (Writes config r) (organizationForPageant pageantId k) := by
  unfold organizationForPageant
  refine accessing_bind (accessing_read nofun fun organization => ?_)
  exact accessing_orElse fun organizationId _ => h organizationId

theorem accessing_requireBounds {pageantId : Uuid} {change : PageantChange}
    {k : PUnit → Proc Database Empty Point Answer} (h : Accessing (Writes config r) (k ⟨⟩)) :
    Accessing (Writes config r) (requireBounds pageantId change k) := by
  unfold requireBounds
  refine accessing_ite (fun _ => ?_) fun _ => h
  refine accessing_bind (accessing_read nofun fun existing => ?_)
  refine accessing_bind (accessing_orElse fun existing _ => ?_)
  exact accessing_require fun _ => h

/-- The row of a pageant is no setting. -/
theorem updateRow_siteSettings {pageantId : Uuid} {change : PageantChange} {db db' : Database}
    (h : updateRow pageantId change db = .ok db') : db'.siteSettings = db.siteSettings := by
  simp only [updateRow, bind_eq_ok, pure_eq_ok] at h
  obtain ⟨status, -, row, -, u, -, v, -, rfl⟩ := h
  rfl

theorem accessing_updatePageant {body : UpdatePageantRequest} :
    Accessing (Writes config r) (updatePageant config body fun r => .ret (.ok r)) := by
  unfold updatePageant
  refine accessing_bind (accessing_organizationForPageant fun organizationId => ?_)
  refine accessing_bind (accessing_requireEditor ?_)
  refine accessing_bind (accessing_ofExcept fun change _ => ?_)
  refine accessing_bind (accessing_requireBounds ?_)
  refine accessing_bind (accessing_transact (fun next => .other (fun db => ?_) nofun) accessing_ret)
  cases hupdate : updateRow body.pageantId change db with
  | ok db' => exact updateRow_siteSettings hupdate
  | error e => rfl

theorem accessing_deletePageant {pageantId actorUserId : Uuid} :
    Accessing (Writes config r) (deletePageant pageantId actorUserId fun r => .ret (.ok r)) := by
  unfold deletePageant
  refine accessing_bind (accessing_organizationForPageant fun organizationId => ?_)
  refine accessing_bind (accessing_requireEditor ?_)
  exact accessing_bind (accessing_access (.other (fun _ => rfl) nofun) fun _ => accessing_ret)

theorem accessing_program (r : Request) : Accessing (Writes config r) ((hosting config).program r) := by
  cases r with
  | updateSiteSettings body => exact accessing_updateSiteSettings
  | updatePageant body => exact accessing_updatePageant
  | deletePageant pageantId actorUserId => exact accessing_deletePageant

end Accesses

/-! ### Runs -/

/-- A site, and the requests that have written its settings so far, in their order. -/
structure Ledger where
  world : World Request Database Empty Point Answer
  written : List UpdateSiteSettingsRequest

/-- The request that writes the settings with its next access. -/
def writer (t : Process Request Database Empty Point Answer) : Option UpdateSiteSettingsRequest :=
  match t.request, t.proc.label? with
  | .updateSiteSettings body, some (.settings _) => some body
  | _, _ => none

namespace Ledger

/-- The request whose write a move makes. -/
def writes (ledger : Ledger) : Move Request Empty → Option UpdateSiteSettingsRequest
  | .go i => ledger.world.processes[i]?.bind writer
  | _ => none

def exec (config : Config) (ledger : Ledger) (m : Move Request Empty) : Option Ledger :=
  (ledger.world.exec (hosting config) m).map fun world => ⟨world, ledger.written ++ (ledger.writes m).toList⟩

/-- **A write is current**: in the columns that its request leaves alone, the settings are still as the
request has read them. -/
def Current (config : Config) (ledger : Ledger) : Move Request Empty → Prop
  | .go i => ∀ t body current, ledger.world.processes[i]? = some t →
      t.request = .updateSiteSettings body → t.proc = body.writing config current →
        ∀ f, body.patch config f = none → current.row f = ledger.world.state.siteSettings.row f
  | _ => True

def Step (config : Config) (ledger : Ledger) (m : Move Request Empty) (ledger' : Ledger) : Prop :=
  ledger.exec config m = some ledger'

/-- No request has come yet. -/
def idle (db : Database) : Ledger := ⟨World.idle db, []⟩

/-- The requests that have written set different columns. -/
def Separate (config : Config) (ledger : Ledger) : Prop :=
  (ledger.written.map (·.patch config)).Pairwise Patch.Apart

/-- The settings have all that the requests have set. -/
def Held (config : Config) (ledger : Ledger) : Prop :=
  Patch.Held ledger.world.state.siteSettings.row (ledger.written.map (·.patch config))

variable {ledger ledger' : Ledger} {m : Move Request Empty}

/-- The settings after a write of a request that has read `current`. -/
theorem row_write (db : Database) : ((fun db : Database =>
    { db with siteSettings := { db.siteSettings with
        siteName := (body.patch config).overlay current.row .siteName
        stellarNetwork := (body.patch config).overlay current.row .stellarNetwork
        defaultPageantId := (body.patch config).overlay current.row .defaultPageantId
        pageantSelectorEnabled :=
          (body.patch config).overlay current.row .pageantSelectorEnabled } }) db).siteSettings.row =
    (body.patch config).overlay current.row := by
  funext f
  cases f <;> rfl

/-- **What one step does to the settings**: nothing, or the write of a request that has read some
`current`. -/
theorem step_cases (haccessing : ledger.world.Accessing (Writes config)) (h : ledger.Step config m ledger') :
    (ledger.writes m = none ∧ ledger'.world.state.siteSettings = ledger.world.state.siteSettings) ∨
      ∃ i t body current, m = .go i ∧ ledger.world.processes[i]? = some t ∧
        t.request = .updateSiteSettings body ∧ t.proc = body.writing config current ∧
        ledger.writes m = some body ∧
        ledger'.world.state.siteSettings.row = (body.patch config).overlay current.row := by
  obtain ⟨world, hexec, rfl⟩ := Option.map_eq_some_iff.mp h
  cases m with
  | spawn request =>
      obtain rfl := Option.some.inj hexec
      exact .inl ⟨rfl, rfl⟩
  | kill i =>
      obtain rfl := Option.some.inj hexec
      exact .inl ⟨rfl, rfl⟩
  | event e => exact nomatch e
  | go i =>
      obtain ⟨t, ht, rfl⟩ := Option.map_eq_some_iff.mp hexec
      have hthis := haccessing t (List.mem_of_getElem? ht)
      have hwrites : ledger.writes (.go i) = writer t := by
        simp only [writes, ht, Option.bind_some]
      rw [hwrites]
      obtain ⟨request, held, proc⟩ := t
      cases proc with
      | ret r => exact .inl ⟨by cases request <;> rfl, rfl⟩
      | acquire key next => exact nomatch key
      | release key next => exact nomatch key
      | access point effect next =>
          cases hthis.1 with
          | other hleaves hpoint =>
              refine .inl ⟨?_, hleaves ledger.world.state⟩
              cases request with
              | updateSiteSettings body =>
                  cases point with
                  | settings defaultPageantId => exact absurd rfl (hpoint defaultPageantId)
                  | _ => rfl
              | _ => rfl
          | @settings body current _ _ _ hwriting =>
              refine .inr ⟨i, _, body, current, rfl, ht, rfl, hwriting, ?_, ?_⟩
              · obtain ⟨rfl, -, -⟩ := Proc.access.inj hwriting
                rfl
              · obtain ⟨rfl, rfl, -⟩ := Proc.access.inj hwriting
                exact row_write ledger.world.state

end Ledger

open Ledger

/-- **Patches of different columns are all there** in every run whose writes are current. -/
theorem settings_held {config : Config} {db₀ : Database} {moves : List (Move Request Empty)} {ledger : Ledger}
    (hrun : Run (fun ledger m ledger' => Ledger.Step config ledger m ledger' ∧ Current config ledger m)
      (Ledger.idle db₀) moves ledger)
    (hseparate : Ledger.Separate config ledger) : Ledger.Held config ledger := by
  have hall : ledger.world.Accessing (Writes config) ∧ (Separate config ledger → Held config ledger) := by
    refine hrun.invariant (P := fun ledger =>
      ledger.world.Accessing (Writes config) ∧ (Separate config ledger → Held config ledger)) ?_
      ⟨accessing_idle, fun _ => Patch.held_nil⟩
    intro ledger m ledger' ⟨haccessing, hheld⟩ ⟨hstep, hcurrent⟩
    have hcases := step_cases haccessing hstep
    obtain ⟨world, hexec, rfl⟩ := Option.map_eq_some_iff.mp hstep
    refine ⟨accessing_exec accessing_program haccessing hexec, fun hseparate => ?_⟩
    rcases hcases with ⟨hnone, hsame⟩ | ⟨i, t, body, current, rfl, ht, hrequest, hproc, hwrites, hrow⟩
    · simp only [Held, Separate, hnone, Option.toList_none, List.append_nil] at hseparate ⊢
      dsimp only at hsame
      rw [hsame]
      exact hheld hseparate
    · simp only [Held, Separate, hwrites, Option.toList_some, List.map_append, List.map_cons, List.map_nil]
        at hseparate ⊢
      dsimp only at hrow
      obtain ⟨hbefore, -, hlast⟩ := List.pairwise_append.mp hseparate
      rw [hrow]
      refine Patch.held_overlay (hheld hbefore) (fun q hq => hlast q hq _ (List.mem_singleton_self _)) ?_
      exact hcurrent t body current ht hrequest hproc
  exact hall.2 hseparate

/-! Two requests, one with a name and one that turns the selector on. -/

/-- What a write would change of what its request leaves alone, evaluated. -/
def currentNow (config : Config) (ledger : Ledger) : Move Request Empty → Bool
  | .go i =>
      match ledger.world.processes[i]? with
      | some ⟨.updateSiteSettings body, _, .access _ effect _⟩ => fields.all fun f =>
          (body.patch config f).isSome ||
            (effect ledger.world.state).siteSettings.row f = ledger.world.state.siteSettings.row f
      | _ => true
  | _ => true

theorem current_of_now {ledger : Ledger} {m : Move Request Empty} (h : currentNow config ledger m = true) :
    Current config ledger m := by
  cases m with
  | go i =>
      intro t body current ht hrequest hproc f hf
      obtain ⟨request, held, proc⟩ := t
      dsimp only at hrequest hproc
      subst hrequest hproc
      simp only [currentNow, ht] at h
      have hthis := List.all_eq_true.mp h f (mem_fields f)
      rw [hf, Option.isSome_none, Bool.false_or, decide_eq_true_eq] at hthis
      have hrow : _ = (body.patch config).overlay current.row f := congrFun (row_write ledger.world.state) f
      rw [Patch.overlay_unset hf] at hrow
      exact hrow.symm.trans hthis
  | _ => trivial

def namedConfig : Config where
  site := { setupBootstrapToken := "", allowMainnet := false, lower := id }
  parseRfc3339 _ := none

def plainSite : Database where
  directory :=
    { clock := 0, users := [], stellarAccounts := [],
      siteAdministrators := [⟨3, .owner, .active⟩], organizationMembers := [] }
  siteSettings :=
    { siteName := "CrownFi", stellarNetwork := .testnet, mainnetEnabled := false,
      defaultPageantId := none, pageantSelectorEnabled := false }
  pageants := []

def rename : UpdateSiteSettingsRequest :=
  { actorUserId := 3, siteName := some "Gala", stellarNetwork := none, defaultPageantId := none,
    clearDefaultPageant := none, pageantSelectorEnabled := none }

def turnOn : UpdateSiteSettingsRequest :=
  { actorUserId := 3, siteName := none, stellarNetwork := none, defaultPageantId := none,
    clearDefaultPageant := none, pageantSelectorEnabled := some true }

/-- One request after the other. -/
def oneByOne : List (Move Request Empty) :=
  .spawn (.updateSiteSettings rename) :: List.replicate 3 (.go 0) ++
    .spawn (.updateSiteSettings turnOn) :: List.replicate 3 (.go 1)

/-- Both read the settings before either of them writes. -/
def atOnce : List (Move Request Empty) :=
  [.spawn (.updateSiteSettings rename), .spawn (.updateSiteSettings turnOn), .go 0, .go 0, .go 1, .go 1,
    .go 0, .go 1]

instance : DecidableRel (Patch.Apart (β := Field.Column)) := fun p q =>
  inferInstanceAs (Decidable (∀ f, p f = none ∨ q f = none))

def bothWritten (ledger : Ledger) : Bool := ledger.written = [rename, turnOn]

/-- After one another, both are there. -/
theorem oneByOne_held : ∃ ledger : Ledger, bothWritten ledger = true ∧
    Ledger.Held namedConfig ledger := by
  have h : (oneByOne.foldlM (fun ledger m => if currentNow namedConfig ledger m = true
      then Ledger.exec namedConfig ledger m else none) (Ledger.idle plainSite)).any bothWritten = true := by
    decide +kernel
  obtain ⟨ledger, hledger, hboth⟩ := (Option.any_eq_true _ _).mp h
  have hrun : Run (fun ledger m ledger' => Ledger.Step namedConfig ledger m ledger' ∧
      Current namedConfig ledger m) (Ledger.idle plainSite) oneByOne ledger :=
    (Run.of_foldlM hledger).mono fun _ _ _ hstep => ⟨hstep.1, current_of_now hstep.2⟩
  have hwritten : ledger.written = [rename, turnOn] := of_decide_eq_true hboth
  refine ⟨ledger, hboth, settings_held hrun ?_⟩
  rw [Ledger.Separate, hwritten]
  decide +kernel

/-- **At once, the name is lost.** -/
theorem rename_overwritten :
    ¬ ∀ (config : Config) (db₀ : Database) (moves : List (Move Request Empty)) (ledger : Ledger),
      Run (Ledger.Step config) (Ledger.idle db₀) moves ledger → Ledger.Separate config ledger →
        Ledger.Held config ledger := by
  intro hall
  have h : (atOnce.foldlM (fun ledger m => if True then Ledger.exec namedConfig ledger m else none)
      (Ledger.idle plainSite)).any (fun ledger => bothWritten ledger &&
        ledger.world.state.siteSettings.siteName = "CrownFi") = true := by
    decide +kernel
  obtain ⟨ledger, hledger, htest⟩ := (Option.any_eq_true _ _).mp h
  simp only [Bool.and_eq_true, decide_eq_true_eq] at htest
  obtain ⟨hboth, hname⟩ := htest
  have hrun : Run (Ledger.Step namedConfig) (Ledger.idle plainSite) atOnce ledger :=
    (Run.of_foldlM hledger).mono fun _ _ _ hstep => hstep.1
  have hwritten : ledger.written = [rename, turnOn] := of_decide_eq_true hboth
  have hheld := hall namedConfig plainSite _ ledger hrun (by
    rw [Ledger.Separate, hwritten]
    decide +kernel)
  have hgala : ledger.world.state.siteSettings.siteName = "Gala" :=
    hheld _ (List.mem_map_of_mem (hwritten ▸ List.mem_cons_self)) .siteName "Gala" (by decide +kernel)
  rw [hgala] at hname
  exact absurd hname (by decide)

end CrownFi.Hosting
