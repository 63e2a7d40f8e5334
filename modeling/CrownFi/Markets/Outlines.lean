import CrownFi.Markets.Changes
import CrownFi.Markets.Requests

/-!
# CrownFi.Markets.Outlines

**What locks protect, and the outlines of the governance and stake requests.** A request
that touches neither positions nor settlements keeps the invariant for want of anything to
break; a transition is the exception, since its update does not look at the row it finds.
-/

namespace CrownFi.Markets

open Lib CrownFi.Api

/-! ### What locks protect -/

/-- The rows that the invariant speaks of and locks protect. -/
inductive Part
  | market (m : Option Market)
  | positionEvidence (e : Option PositionEvidence)
  | position (p : Option Position)
  | run (r : Option SettlementRun)
  | item (i : Option SettlementItem)
  | settlementEvidence (e : Option SettlementEvidence)
  | other

def part (db : Database) : Row → Part
  | .market id => .market (marketTable.find db id)
  | .positionEvidenceOf id => .positionEvidence (positionEvidenceTable.find db id)
  | .position id => .position (positionTable.find db id)
  | .run id => .run (runTable.find db id)
  | .item id => .item (itemTable.find db id)
  | .settlementEvidenceOf id => .settlementEvidence (settlementEvidenceTable.find db id)
  | _ => .other

theorem marketLayout : Layout part marketTable Part.market where
  row _ _ := rfl
  injective _ _ h := Part.market.inj h
  other db l k hk := by
    cases k with
    | market id => exact absurd rfl (hk id)
    | _ => rfl

theorem positionEvidenceLayout : Layout part positionEvidenceTable Part.positionEvidence where
  row _ _ := rfl
  injective _ _ h := Part.positionEvidence.inj h
  other db l k hk := by
    cases k with
    | positionEvidenceOf id => exact absurd rfl (hk id)
    | _ => rfl

theorem positionLayout : Layout part positionTable Part.position where
  row _ _ := rfl
  injective _ _ h := Part.position.inj h
  other db l k hk := by
    cases k with
    | position id => exact absurd rfl (hk id)
    | _ => rfl

theorem runLayout : Layout part runTable Part.run where
  row _ _ := rfl
  injective _ _ h := Part.run.inj h
  other db l k hk := by
    cases k with
    | run id => exact absurd rfl (hk id)
    | _ => rfl

theorem itemLayout : Layout part itemTable Part.item where
  row _ _ := rfl
  injective _ _ h := Part.item.inj h
  other db l k hk := by
    cases k with
    | item id => exact absurd rfl (hk id)
    | _ => rfl

theorem settlementEvidenceLayout : Layout part settlementEvidenceTable Part.settlementEvidence where
  row _ _ := rfl
  injective _ _ h := Part.settlementEvidence.inj h
  other db l k hk := by
    cases k with
    | settlementEvidenceOf id => exact absurd rfl (hk id)
    | _ => rfl

/-! ### The conditions -/

/-- Evidence adds a position only to a market that has no settlement run and is not over. -/
def StakesEarly : Site → Database → Prop
  | .activate id, db => (∀ r ∈ db.runs, r.marketId ≠ id) ∧
      ∀ m ∈ db.markets, m.id = id → ¬ m.status.Final
  | _, _ => True

/-- A transition settles a market only after a confirmed run, and archives it only after one
or when none of its positions is active. -/
def EndsOrderly : Site → Database → Prop
  | .transition id _ .settled, db => ∃ r ∈ db.runs, r.marketId = id ∧ r.status = .confirmed
  | .transition id _ .archived, db => (∃ r ∈ db.runs, r.marketId = id ∧ r.status = .confirmed) ∨
      ∀ p ∈ db.positions, p.marketId = id → p.status ≠ .active
  | _, _ => True

instance (site : Site) (db : Database) : Decidable (StakesEarly site db) := by
  unfold StakesEarly
  split <;> infer_instance

instance (site : Site) (db : Database) : Decidable (EndsOrderly site db) := by
  unfold EndsOrderly
  split <;> infer_instance

/-- The conditions, as far as they are assumed. -/
def Condition (strict fixed : Prop) (site : Site) (db : Database) : Prop :=
  strict → StakesEarly site db ∧ (¬ fixed → EndsOrderly site db)

variable {strict fixed : Prop} {adds touches : Uuid → Prop} {ext : External}

/-- An outline of the rest of a request. -/
abbrev Outline (strict fixed : Prop) :
    Prog Database Row Site Result → List (Lock Row) → (Database → Database) → (Database → Prop) → Prop :=
  Safe (Inv strict fixed) (Forward part (Rely strict fixed)) (Condition strict fixed)

abbrev Tracks (strict fixed : Prop) :
    List (Lock Row) → (Database → Database) → (Database → Prop) → Prop :=
  Track part (Inv strict fixed) (Rely strict fixed)

/-- To commit now would keep the invariant, and change what the transaction may change. -/
abbrev Sound (strict fixed : Prop) (adds touches : Uuid → Prop) :
    (Database → Database) → (Database → Prop) → Prop :=
  Keeps (Inv strict fixed) (Progress strict fixed adds touches)

/-- Nothing is added, or touched. -/
abbrev nothing : Uuid → Prop := fun _ => False

/-- A request that keeps the invariant. -/
abbrev SafeHandler (strict fixed : Prop) (h : Handler Response) : Prop :=
  SafeRequest (Inv strict fixed) (Forward part (Rely strict fixed)) (Condition strict fixed) h.request

theorem sound_start : Sound strict fixed nothing nothing id fun _ => True := Keeps.start

theorem safe_valid {α : Type} {L : List (Lock Row)} {pending : Database → Database}
    {A : Database → Prop} {e : Except ApiError α} {k : α → Prog Database Row Site Result}
    (next : ∀ a, e = .ok a → Outline strict fixed (k a) L pending A) :
    Outline strict fixed (valid e k) L pending A :=
  safe_ofExcept next

/-- The tables that the invariant does not speak of. -/
theorem hidden {ι α : Type} {T : Table Database Row ι α}
    (h : ∀ db l, (T.put db l).markets = db.markets ∧ (T.put db l).positions = db.positions ∧
      (T.put db l).positionEvidence = db.positionEvidence ∧ (T.put db l).runs = db.runs ∧
      (T.put db l).items = db.items ∧ (T.put db l).settlementEvidence = db.settlementEvidence) :
    Hidden part (Inv strict fixed) (Progress strict fixed adds touches) T where
  part_put db l k := by
    obtain ⟨hm, hp, he, hr, hi, hs⟩ := h db l
    cases k with
    | market id =>
        show Part.market ((T.put db l).markets.find? _) = Part.market (db.markets.find? _)
        rw [hm]
    | positionEvidenceOf id =>
        show Part.positionEvidence ((T.put db l).positionEvidence.find? _) =
          Part.positionEvidence (db.positionEvidence.find? _)
        rw [he]
    | position id =>
        show Part.position ((T.put db l).positions.find? _) = Part.position (db.positions.find? _)
        rw [hp]
    | run id =>
        show Part.run ((T.put db l).runs.find? _) = Part.run (db.runs.find? _)
        rw [hr]
    | item id =>
        show Part.item ((T.put db l).items.find? _) = Part.item (db.items.find? _)
        rw [hi]
    | settlementEvidenceOf id =>
        show Part.settlementEvidence ((T.put db l).settlementEvidence.find? _) =
          Part.settlementEvidence (db.settlementEvidence.find? _)
        rw [hs]
    | _ => rfl
  keeps db l hI := by
    obtain ⟨hm, hp, he, hr, hi, hs⟩ := h db l
    exact hI.of_same hm hp (he ▸ List.Subset.refl _) hr hi hs

/-! ### What stays known -/

section Stable

variable {L : List (Lock Row)}

/-- A confirmed run stays. -/
theorem stable_confirmedRun {marketId : Uuid} :
    Stable (Inv strict fixed) (Forward part (Rely strict fixed)) L (ConfirmedRun · marketId) :=
  fun _ _ _ _ _ _ hA hG => hA.progress hG.moved.runs

/-- To the market of a run that is locked no run is added. -/
theorem stable_noRun {marketId : Uuid} {m : LockMode} (hlock : ⟨.market marketId, m⟩ ∈ L)
    (hmode : m.protects = true) :
    Stable (Inv strict fixed) (Forward part (Rely strict fixed)) L (NoRun · marketId) := by
  intro L' db db' hcompat _ _ hA hG rid r hr hmarket
  have hnot : ¬ Written L' (.market marketId) := (hcompat.not_writes hlock hmode).not_written
  obtain ⟨r₀, hr₀⟩ := hG.moved.keptRuns rid r hr (hmarket ▸ hnot)
  exact hA rid r₀ hr₀ ((hG.moved.run_before hr hr₀).market.symm.trans hmarket)

/-- To a locked market no position is added. -/
theorem stable_noActive {marketId : Uuid} {m : LockMode} (hlock : ⟨.market marketId, m⟩ ∈ L)
    (hmode : m.protects = true) :
    Stable (Inv strict fixed) (Forward part (Rely strict fixed)) L (NoActive · marketId) :=
  fun _ _ _ hcompat _ _ hA hG => hA.kept hG.moved (hcompat.not_writes hlock hmode).not_written

/-- The active positions of a locked market were so from the beginning. -/
theorem stable_active {marketId : Uuid} {m : LockMode} (hlock : ⟨.market marketId, m⟩ ∈ L)
    (hmode : m.protects = true) (view : Database) :
    Stable (Inv strict fixed) (Forward part (Rely strict fixed)) L fun db =>
      ∀ pid p, positionTable.find db pid = some p → p.marketId = marketId → p.status = .active →
        ∃ v, positionTable.find view pid = some v ∧ v.Leads p := by
  intro L' db db' hcompat _ _ hA hG pid p hp hmarket hs
  have hnot : ¬ Written L' (.market marketId) := (hcompat.not_writes hlock hmode).not_written
  obtain ⟨p₀, hp₀⟩ := hG.moved.keptPositions pid p hp (hmarket ▸ hnot)
  have hlead := hG.moved.position_before hp hp₀
  obtain ⟨v, hv, hvlead⟩ := hA pid p₀ hp₀ (hlead.market.symm.trans hmarket) (hlead.active hs)
  exact ⟨v, hv, trans_of Position.Leads hvlead hlead⟩

/-- Nobody else changes the items of a locked run. -/
theorem stable_items {rid : Uuid} {m : LockMode} (hlock : ⟨.run rid, m⟩ ∈ L)
    (hmode : m.protects = true) (items : List SettlementItem) :
    Stable (Inv strict fixed) (Forward part (Rely strict fixed)) L (itemsOf · rid = items) :=
  fun _ _ _ hcompat _ _ hA hG =>
    (hG.moved.untouched rid (hcompat.not_writes hlock hmode).not_written).trans hA

/-- The market of a run, and the positions of it that can still be active. -/
def Closing (strict : Prop) (rid marketId : Uuid) (keys : List Uuid) (db : Database) : Prop :=
  (∃ r, runTable.find db rid = some r ∧ r.marketId = marketId) ∧
    (strict → ∀ pid p, positionTable.find db pid = some p → p.marketId = marketId →
      p.status = .active → pid ∈ keys)

/-- Once a market has a run, no position is added; no lock is needed for that. -/
theorem stable_closing {rid marketId : Uuid} {keys : List Uuid} :
    Stable (Inv strict fixed) (Forward part (Rely strict fixed)) L
      (Closing strict rid marketId keys) := by
  intro L' db db' _ _ _ hA hG
  obtain ⟨⟨r, hr, hmarket⟩, hkeys⟩ := hA
  obtain ⟨r', hr', hlead⟩ := hG.moved.runs rid r hr
  refine ⟨⟨r', hr', hlead.market.trans hmarket⟩, fun hstrict pid p hp hpm hs => ?_⟩
  cases hG.moved.timely hstrict pid p hp with
  | inl hold =>
      obtain ⟨p₀, hp₀⟩ := hold
      have hplead := hG.moved.position_before hp hp₀
      exact hkeys hstrict pid p₀ hp₀ (hplead.market.symm.trans hpm) (hplead.active hs)
  | inr hnew => exact absurd (hmarket.trans hpm.symm) (hnew rid r hr)

end Stable

/-! ### Shared statements -/

section Statements

variable {L : List (Lock Row)} {pending : Database → Database} {A : Database → Prop}

theorem safe_insertGovernance {map : SqlError → ApiError} {e : GovernanceEvent}
    {k : PUnit → Prog Database Row Site Result} (ht : Tracks strict fixed L pending A)
    (hk : Sound strict fixed adds touches pending A)
    (next : ∀ L' pending' B, Track.Hides part (Inv strict fixed) (Rely strict fixed)
        (Progress strict fixed adds touches) L pending A L' pending' B →
      Outline strict fixed (k ⟨⟩) L' pending' B) :
    Outline strict fixed (insertGovernance ext.governed map e k) L pending A :=
  ht.safe_insertHidden hk (hidden fun _ _ => ⟨rfl, rfl, rfl, rfl, rfl, rfl⟩) next

/-- The end of a transaction that adds nothing and touches nothing. -/
theorem safe_commitNothing {k : PUnit → Prog Database Row Site Result}
    (ht : Tracks strict fixed L pending A) (hk : Sound strict fixed nothing nothing pending A)
    (next : Outline strict fixed (k ⟨⟩) [] id fun _ => True) :
    Outline strict fixed (Tx.commit k) L pending A :=
  ht.safe_commitWithin hk (fun _ _ h => h.mono (fun _ h => h.elim) fun _ h => h.elim) next

theorem safe_allowed {c : Database → Bool} {r : Result} {k : PUnit → Prog Database Row Site Result}
    (ht : Tracks strict fixed L pending A) (next : Outline strict fixed (k ⟨⟩) L pending A) :
    Outline strict fixed
      ((do
        let allowed ← Tx.select .other c
        Tx.require allowed r : Handler PUnit) k) L pending A := by
  refine safe_bind (safe_select ht.stable fun _ _ _ _ _ => ?_)
  exact safe_require fun _ => next

theorem safe_fetchMarketRecord {marketId : Uuid} {k : Market → Prog Database Row Site Result}
    (ht : Tracks strict fixed L pending A)
    (next : ∀ m, m.id = marketId → Outline strict fixed (k m) L pending A) :
    Outline strict fixed (Governance.fetchMarketRecord marketId k) L pending A := by
  refine safe_bind (safe_select ht.stable fun _ _ _ _ hfind => ?_)
  refine safe_orElse fun m hm => next m ?_
  exact (marketTable.find_mem (hfind.trans hm)).2

theorem safe_insertOutcomes {marketId : Uuid} {idOf : Nat → Uuid} {sortOrder : Nat}
    {outcomes : List (String × String)} {k : PUnit → Prog Database Row Site Result}
    (ht : Tracks strict fixed L pending A) (hk : Sound strict fixed adds touches pending A)
    (next : ∀ L' pending' B, Tracks strict fixed L' pending' B →
      Sound strict fixed adds touches pending' B → Outline strict fixed (k ⟨⟩) L' pending' B) :
    Outline strict fixed (Governance.insertOutcomes marketId idOf sortOrder outcomes k) L pending A := by
  induction outcomes generalizing L pending A sortOrder with
  | nil => exact next _ _ _ ht hk
  | cons outcome rest ih =>
      refine safe_bind (ht.safe_insertHidden hk (hidden fun _ _ => ⟨rfl, rfl, rfl, rfl, rfl, rfl⟩)
        fun L₁ p₁ A₁ h₁ => ?_)
      exact ih h₁.track h₁.keeps

/-- An update of stake intents. -/
theorem safe_updateStakeIntents {site : Site} {lock : StakeIntent → List (Lock Row)} {admits : StakeIntent → Bool}
    {change : StakeIntent → StakeIntent} {check : Database → StakeIntent → Option Result}
    {k : Nat → Prog Database Row Site Result} (ht : Tracks strict fixed L pending A)
    (hk : Sound strict fixed adds touches pending A)
    (next : ∀ n L' pending' B, Track.Hides part (Inv strict fixed) (Rely strict fixed)
        (Progress strict fixed adds touches) L pending A L' pending' B →
      Outline strict fixed (k n) L' pending' B) :
    Outline strict fixed (Tx.update site stakeIntentTable lock admits change check k) L pending A :=
  ht.safe_updateHidden hk (hidden fun _ _ => ⟨rfl, rfl, rfl, rfl, rfl, rfl⟩) next

end Statements

/-! ### Governance -/

theorem draft_status {body : Governance.CreateMarketRequest} {parse : String → Option Int}
    {marketId : Uuid} {now : Int} {draft : Market × List (String × String)}
    (h : body.validate parse marketId now = .ok draft) : draft.1.status = .draft := by
  unfold Governance.CreateMarketRequest.validate at h
  simp only [bind_eq_ok, throw_bind, guard_eq_ok, pure_eq_ok] at h
  obtain ⟨-, -, slug, -, question, -, description, -, source, -, version, -, opens, -, closes, -, -,
    -, asset, -, outcomes, -, rfl⟩ := h
  rfl

theorem find_of_marketViolation {m : Market} {db : Database}
    (h : Governance.marketViolation m db = none) : marketTable.find db m.id = none := by
  unfold Governance.marketViolation at h
  split at h
  · cases h
  · rename_i hany
    refine marketTable.find_none_of_any (Bool.not_eq_true _ ▸ hany) fun n hn => ?_
    have hid : n.id = m.id := hn
    simp [hid]

theorem safe_createMarket (actorUserId : Uuid) (body : Governance.CreateMarketRequest)
    (ids : Governance.MarketIds) :
    SafeHandler strict fixed (Governance.createMarket ext actorUserId body ids) := by
  unfold SafeHandler SafeRequest Handler.request Governance.createMarket
  refine safe_bind (safe_allowed Track.start ?_)
  refine safe_bind (safe_select stable_true fun _ now _ _ _ => ?_)
  refine safe_bind (safe_valid fun draft hdraft => ?_)
  refine safe_bind (safe_allowed Track.start ?_)
  refine safe_bind (Track.start.safe_insertRow fun db₁ A₁ _ _ hv h₁ => ?_)
  have ht₁ := h₁.track.add marketLayout (r := draft.1) (by simp [marketTable])
  have hk₁ : Sound strict fixed nothing nothing (marketTable.add draft.1) A₁ := by
    refine (sound_start.mono h₁.before).change (f := marketTable.add draft.1) fun d hI hd _ => ?_
    refine hI.addMarket ?_ (draft_status hdraft)
    have hseen := (h₁.seen d hd).find marketLayout (i := draft.1.id) (m := .update)
      (by simp [marketTable]) rfl
    exact hseen.trans (find_of_marketViolation (raise_eq_none.mp hv))
  refine safe_bind (safe_insertOutcomes ht₁ hk₁ fun L₂ p₂ A₂ ht₂ hk₂ => ?_)
  refine safe_bind (safe_insertGovernance ht₂ hk₂ fun L₃ p₃ A₃ h₃ => ?_)
  exact safe_bind (safe_commitNothing h₃.track h₃.keeps safe_ret)

theorem safe_recordPolicyDecision (actorUserId marketId : Uuid)
    (body : Governance.PolicyDecisionRequest) (decisionId : Uuid) :
    SafeHandler strict fixed
      (Governance.recordPolicyDecision ext actorUserId marketId body decisionId) := by
  unfold SafeHandler SafeRequest Handler.request Governance.recordPolicyDecision
  refine safe_bind (safe_allowed Track.start ?_)
  refine safe_bind (safe_fetchMarketRecord Track.start fun market _ => ?_)
  refine safe_bind (safe_select stable_true fun _ now _ _ _ => ?_)
  refine safe_bind (safe_valid fun ruling _ => ?_)
  refine safe_bind (safe_select stable_true fun _ _ _ _ _ => ?_)
  refine safe_bind (safe_require fun _ => ?_)
  refine safe_bind (safe_select stable_true fun _ _ _ _ _ => ?_)
  refine safe_bind (Track.start.safe_insertHidden sound_start
    (hidden fun _ _ => ⟨rfl, rfl, rfl, rfl, rfl, rfl⟩) fun L₁ p₁ A₁ h₁ => ?_)
  exact safe_bind (safe_commitNothing h₁.track h₁.keeps safe_ret)

/-- The checks of a transition only read. -/
theorem safe_requireTarget {L : List (Lock Row)} {pending : Database → Database}
    {A : Database → Prop} {market : Market} {body : Governance.TransitionMarketRequest}
    {target : MarketStatus} {now : Int} {k : PUnit → Prog Database Row Site Result}
    (ht : Tracks strict fixed L pending A) (next : Outline strict fixed (k ⟨⟩) L pending A) :
    Outline strict fixed (Governance.requireTarget market body target now k) L pending A := by
  cases target with
  | «open» => exact safe_bind (safe_require fun _ => safe_allowed ht next)
  | resolutionPending => exact safe_bind (safe_require fun _ => safe_allowed ht next)
  | resolved =>
      refine safe_bind (safe_allowed ht ?_)
      refine safe_bind (safe_orElse fun _ _ => ?_)
      refine safe_bind (safe_allowed ht ?_)
      exact safe_require fun _ => next
  | settling => exact safe_allowed ht next
  | _ => exact next

/-- A market that may enter the target. -/
def MayEnter (strict : Prop) (marketId : Uuid) (target : MarketStatus) (db : Database) : Prop :=
  strict → (target = .settled → ConfirmedRun db marketId) ∧
    (target.Final → ConfirmedRun db marketId ∨ NoActive db marketId)

theorem confirmedRun_of_mem {db : Database} {marketId : Uuid} (hids : (db.runs.map (·.id)).Nodup)
    (h : ∃ r ∈ db.runs, r.marketId = marketId ∧ r.status = .confirmed) : ConfirmedRun db marketId := by
  obtain ⟨r, hr, hmarket, hconfirmed⟩ := h
  exact ⟨r.id, r, find?_key hids hr, hmarket, hconfirmed⟩

theorem noActive_of_mem {db : Database} {marketId : Uuid}
    (h : ∀ p ∈ db.positions, p.marketId = marketId → p.status ≠ .active) : NoActive db marketId :=
  fun _ p hp => h p (positionTable.find_mem hp).1

theorem mayEnter_of_endsOrderly {marketId : Uuid} {source target : MarketStatus} {db : Database}
    (hI : Inv strict fixed db) (hok : strict → EndsOrderly (.transition marketId source target) db) :
    MayEnter strict marketId target db := by
  intro hstrict
  have hends := hok hstrict
  refine ⟨fun htarget => ?_, fun hfinal => ?_⟩
  · subst htarget
    exact confirmedRun_of_mem hI.books.runIds hends
  · cases hfinal with
    | inl hsettled =>
        subst hsettled
        exact .inl (confirmedRun_of_mem hI.books.runIds hends)
    | inr harchived =>
        subst harchived
        exact hends.imp (confirmedRun_of_mem hI.books.runIds) noActive_of_mem

theorem stable_mayEnter {L : List (Lock Row)} {marketId : Uuid} {target : MarketStatus} {m : LockMode}
    (hlock : ⟨.market marketId, m⟩ ∈ L) (hmode : m.protects = true) :
    Stable (Inv strict fixed) (Forward part (Rely strict fixed)) L
      (MayEnter strict marketId target) := by
  intro L' db db' hcompat hI hI' hA hG hstrict
  obtain ⟨hsettled, hfinal⟩ := hA hstrict
  exact ⟨fun h => (hsettled h).progress hG.moved.runs,
    fun h => (hfinal h).imp (·.progress hG.moved.runs) fun hnone =>
      stable_noActive hlock hmode L' db db' hcompat hI hI' hnone hG⟩

/-- Nothing is known when no market was found. -/
def Entering (strict : Prop) (marketId : Uuid) (target : MarketStatus) (keys : List Uuid)
    (db : Database) : Prop :=
  marketId ∈ keys → MayEnter strict marketId target db

theorem mem_matching_id {marketId : Uuid} {db : Database} {L : List (Lock Row)}
    (h : marketId ∈ (marketTable.matching (·.id = marketId) db).map (·.id)) :
    ⟨.market marketId, .noKeyUpdate⟩ ∈ L ++ (marketTable.matching (·.id = marketId) db).flatMap
      fun m => [⟨.market m.id, .noKeyUpdate⟩] := by
  obtain ⟨m, hm, hid⟩ := List.mem_map.mp h
  exact List.mem_append_right _ (List.mem_flatMap.mpr ⟨m, hm, by rw [hid]; exact List.mem_singleton.mpr rfl⟩)

theorem safe_enterStatus (hfixed : ¬ fixed) {actorUserId : Uuid} {market : Market}
    {target : MarketStatus} {winningOutcomeId : Option Uuid} {reason : String} {eventId : Uuid} :
    SafeHandler strict fixed
      (Governance.enterStatus ext actorUserId market target winningOutcomeId reason eventId) := by
  unfold SafeHandler SafeRequest Handler.request Governance.enterStatus
  refine safe_bind (Lib.safe_update fun db₁ hI₁ hA₁ hok => ?_)
  have hmay : MayEnter strict market.id target db₁ :=
    mayEnter_of_endsOrderly hI₁ fun hstrict => (hok hstrict).2 hfixed
  have hstable : Stable (Inv strict fixed) (Forward part (Rely strict fixed))
      ([] ++ (marketTable.matching (·.id = market.id) db₁).flatMap
        fun m => [⟨.market m.id, .noKeyUpdate⟩])
      (Entering strict market.id target ((marketTable.matching (·.id = market.id) db₁).map (·.id))) :=
    fun L db db' hcompat hI hI' hA hG hkeys =>
      stable_mayEnter (mem_matching_id hkeys) rfl L db db' hcompat hI hI' (hA hkeys) hG
  obtain ⟨B, hB, h₁, hentering⟩ := Track.start.afterKnowing hA₁ (fun _ => hmay) hstable
  refine ⟨B, hB, h₁.track.stable, ?_⟩
  have ht₁ := h₁.track.modifyLocked marketLayout (f := Governance.Market.enter target winningOutcomeId)
    (fun _ => rfl) fun m => ⟨_, List.mem_singleton.mpr rfl, rfl, rfl⟩
  have hk₁ : Sound strict fixed nothing nothing (marketTable.modify (·.id = market.id)
      (Governance.Market.enter target winningOutcomeId) db₁) B := by
    refine (sound_start.mono h₁.before).change
      (f := marketTable.modify _ (Governance.Market.enter target winningOutcomeId) db₁)
      fun d hI hd _ => ?_
    have hid {id : Uuid} {m : Market} (hm : marketTable.find d id = some m)
        (hp : decide (m.id = market.id) = true) : id = market.id :=
      (marketTable.find_mem hm).2.symm.trans (of_decide_eq_true hp)
    refine hI.modifyMarkets (fun _ => rfl) (fun h => absurd h hfixed) ?_ ?_
    · intro hstrict id m hm hp hmem hs
      obtain rfl := hid hm hp
      exact (hentering d hd hmem hstrict).1 hs
    · intro hstrict id m hm hp hmem hs
      obtain rfl := hid hm hp
      cases (hentering d hd hmem hstrict).2 hs with
      | inl hrun =>
          obtain ⟨rid, r, hr, hmarket, hconfirmed⟩ := hrun
          exact hmarket ▸ hI.closed hstrict rid r hr hconfirmed
      | inr hnone => exact hnone
  refine safe_bind (safe_insertGovernance ht₁ hk₁ fun L₂ p₂ A₂ h₂ => ?_)
  exact safe_bind (safe_commitNothing h₂.track h₂.keeps safe_ret)

theorem safe_transitionMarket (hfixed : ¬ fixed) (actorUserId marketId : Uuid)
    (body : Governance.TransitionMarketRequest) (eventId : Uuid) :
    SafeHandler strict fixed
      (Governance.transitionMarket ext actorUserId marketId body eventId) := by
  unfold SafeHandler SafeRequest Handler.request Governance.transitionMarket
  refine safe_bind (safe_fetchMarketRecord Track.start fun market _ => ?_)
  refine safe_bind (safe_valid fun reason _ => ?_)
  have rest : Outline strict fixed ((do
      let target ← Tx.orElse ((MarketStatus.ofText (String.ofList (trimLower body.targetStatus))).filter
        (Governance.validTransition market.status)) (.error (.conflict "invalid_market_transition"))
      let now ← Tx.select .other (·.directory.clock)
      Governance.requireTarget market body target now
      Tx.require (Governance.isNull body.evidence || body.evidence.isObject)
        (.error (.invalidRequest "transition_evidence_must_be_object"))
      Governance.enterStatus ext actorUserId market target body.winningOutcomeId reason eventId :
      Handler Response) fun r => .ret (.ok r)) [] id fun _ => True := by
    refine safe_bind (safe_orElse fun target _ => ?_)
    refine safe_bind (safe_select stable_true fun _ now _ _ _ => ?_)
    refine safe_bind (safe_requireTarget Track.start ?_)
    refine safe_bind (safe_require fun _ => ?_)
    exact safe_enterStatus hfixed
  refine safe_ite (fun _ => ?_) fun _ => ?_
  · exact safe_bind (safe_allowed Track.start rest)
  · exact safe_bind (safe_allowed Track.start rest)

/-! ### Stakes -/

section Statements

variable {L : List (Lock Row)} {pending : Database → Database} {A : Database → Prop}

theorem safe_requireExposure {exposure amountMinor limit : Int} {error : String}
    {k : PUnit → Prog Database Row Site Result} (next : Outline strict fixed (k ⟨⟩) L pending A) :
    Outline strict fixed (Stakes.requireExposure exposure amountMinor limit error k) L pending A :=
  safe_bind (safe_orElse fun _ _ => safe_require fun _ => next)

theorem safe_expireIntentIfNeeded {intentId : Uuid} {k : PUnit → Prog Database Row Site Result}
    (next : Outline strict fixed (k ⟨⟩) [] id fun _ => True) :
    Outline strict fixed (Stakes.expireIntentIfNeeded intentId k) [] id fun _ => True := by
  refine safe_bind (safe_select stable_true fun _ _ _ _ _ => ?_)
  refine safe_bind (safe_updateStakeIntents Track.start sound_start fun n L₁ p₁ A₁ h₁ => ?_)
  exact safe_commitNothing h₁.track h₁.keeps next

theorem safe_fetchStakeIntent {intentId : Uuid} {k : StakeIntent → Prog Database Row Site Result}
    (ht : Tracks strict fixed L pending A) (next : ∀ i, Outline strict fixed (k i) L pending A) :
    Outline strict fixed (Stakes.fetchStakeIntent intentId k) L pending A := by
  refine safe_bind (safe_select ht.stable fun _ _ _ _ _ => ?_)
  exact safe_orElse fun i _ => next i

end Statements

theorem safe_createStakeIntent (userId marketId : Uuid) (idempotencyHeader : Option String)
    (body : Stakes.CreateStakeIntentRequest) (intentId : Uuid) :
    SafeHandler strict fixed
      (Stakes.createStakeIntent ext.sha256 userId marketId idempotencyHeader body intentId) := by
  unfold SafeHandler SafeRequest Handler.request Stakes.createStakeIntent
  refine safe_bind (safe_fetchMarketRecord Track.start fun market _ => ?_)
  refine safe_bind (safe_valid fun key _ => ?_)
  refine safe_bind (safe_select stable_true fun _ now _ _ _ => ?_)
  refine safe_bind (safe_require fun _ => ?_)
  refine safe_bind (safe_require fun _ => ?_)
  refine safe_bind (safe_require fun _ => ?_)
  refine safe_bind (safe_allowed Track.start ?_)
  refine safe_bind (safe_allowed Track.start ?_)
  refine safe_bind (safe_valid fun address _ => ?_)
  refine safe_bind (safe_select stable_true fun _ _ _ _ _ => ?_)
  refine safe_bind (safe_orElse fun account _ => ?_)
  refine safe_bind (safe_select stable_true fun _ existing _ _ _ => ?_)
  cases existing with
  | some existing => exact safe_bind (safe_require fun _ => safe_ret)
  | none =>
    refine safe_bind (safe_select stable_true fun _ _ _ _ _ => ?_)
    refine safe_bind (safe_orElse fun ofUser _ => ?_)
    refine safe_bind (safe_requireExposure ?_)
    refine safe_bind (safe_select stable_true fun _ _ _ _ _ => ?_)
    refine safe_bind (safe_orElse fun ofMarket _ => ?_)
    refine safe_bind (safe_requireExposure ?_)
    refine safe_bind (safe_bind (safe_select stable_true fun _ _ _ _ _ => ?_))
    refine Track.start.safe_insertHidden sound_start
      (hidden fun _ _ => ⟨rfl, rfl, rfl, rfl, rfl, rfl⟩) fun L₁ p₁ A₁ h₁ => ?_
    exact safe_bind (safe_commitNothing h₁.track h₁.keeps safe_ret)

theorem safe_getMarketIntent (actorUserId intentId : Uuid) :
    SafeHandler strict fixed (Stakes.getMarketIntent actorUserId intentId) := by
  unfold SafeHandler SafeRequest Handler.request Stakes.getMarketIntent
  refine safe_bind (safe_expireIntentIfNeeded ?_)
  refine safe_bind (safe_fetchStakeIntent Track.start fun intent => ?_)
  exact safe_bind (safe_allowed Track.start safe_ret)

theorem safe_recordStakeSubmission (actorUserId intentId : Uuid) (txHash : String) :
    SafeHandler strict fixed (Stakes.recordSubmission actorUserId intentId txHash) := by
  unfold SafeHandler SafeRequest Handler.request Stakes.recordSubmission
  refine safe_bind (safe_expireIntentIfNeeded ?_)
  refine safe_bind (safe_fetchStakeIntent Track.start fun intent => ?_)
  refine safe_bind (safe_allowed Track.start ?_)
  refine safe_bind (safe_require fun _ => ?_)
  refine safe_bind (safe_require fun _ => ?_)
  refine safe_bind (safe_valid fun txHash _ => ?_)
  cases intent.submittedTxHash with
  | some existing => exact safe_bind (safe_require fun _ => safe_ret)
  | none =>
    refine safe_bind (safe_bind (safe_updateStakeIntents Track.start sound_start
      fun n L₁ p₁ A₁ h₁ => ?_))
    exact safe_commitNothing h₁.track h₁.keeps safe_ret

/-! ### Everything else -/

theorem safe_environment (directory : Directory) (organizations : List Uuid) (pageants : List Pageant) :
    SafeHandler strict fixed (environment directory organizations pageants) := by
  unfold SafeHandler SafeRequest Handler.request environment
  refine safe_bind (Track.start.safe_writeHidden (R := Progress strict fixed nothing nothing) .start
    ?_ ?_ fun L₁ p₁ A₁ h₁ => ?_)
  · exact fun db k => by cases k <;> rfl
  · exact fun db hI => hI.of_same rfl rfl (List.Subset.refl _) rfl rfl rfl
  · exact safe_bind (safe_commitNothing h₁.track h₁.keeps safe_ret)

end CrownFi.Markets
