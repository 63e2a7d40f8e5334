import CrownFi.Lib.Locking
import CrownFi.Markets.MarketCap

/-!
# CrownFi.Markets.AtStake

**What a user has at stake in a market**: the active positions, and the intents from which an
active position may still come. An intent that was submitted may be confirmed however long ago that
was; one that was not is gone when it expires. Closing positions, expiring intents and the passage
of time leave no more at stake, and an accepted stake turns an intent into a position of the same
amount. Only a new intent adds to what is at stake.
-/

namespace CrownFi.Markets

open Lib CrownFi.Api Positions

/-! ### The sum -/

def heldBy (marketId userId : Uuid) (p : Position) : Int :=
  if p.marketId = marketId && p.userId = userId && p.status = .active then p.amountMinor else 0

/-- A position may still come from the intent. -/
def Confirmable (now : Int) (i : StakeIntent) : Bool :=
  i.status = .submitted || ((i.status = .awaitingSignature || i.status = .signed) && now < i.expiresAt)

def openBy (marketId userId : Uuid) (now : Int) (i : StakeIntent) : Int :=
  if i.marketId = marketId && i.userId = userId && Confirmable now i then i.amountMinor else 0

/-- The active positions and the confirmable intents of a user in a market. -/
def atStake (marketId userId : Uuid) (db : Database) : Int :=
  total (heldBy marketId userId) db.positions +
    total (openBy marketId userId db.directory.clock) db.stakeIntents

/-- Every submitted intent of the user in the market is before its expiry. -/
def SubmittedFresh (marketId userId : Uuid) (db : Database) : Prop :=
  ∀ i ∈ db.stakeIntents, i.marketId = marketId → i.userId = userId → i.status = .submitted →
    db.directory.clock < i.expiresAt

/-- Exact books of stakes, with every user within the limit of every market. -/
structure UserBooks (db : Database) : Prop where
  books : StakeBooks db
  intentIds : (db.stakeIntents.map (·.id)).Nodup
  intentAmounts : ∀ i ∈ db.stakeIntents, 0 < i.amountMinor
  capped : ∀ id m, marketTable.find db id = some m → ∀ userId,
    atStake id userId db ≤ m.maxUserExposureMinor

/-- **The exposure that a request reads** covers what is at stake, if no submitted intent is past
its expiry. -/
theorem UserBooks.atStake_le {db : Database} (h : UserBooks db) {marketId userId : Uuid} {n : Int}
    (hfresh : SubmittedFresh marketId userId db)
    (hread : Stakes.currentUserExposure marketId userId db = some n) : atStake marketId userId db ≤ n := by
  simp only [Stakes.currentUserExposure, Stakes.exposure, Option.bind_eq_bind,
    Option.bind_eq_some_iff] at hread
  obtain ⟨positions, hpositions, intents, hintents, hsum⟩ := hread
  have hpositions := checkedI64_eq_some hpositions
  have hintents := checkedI64_eq_some hintents
  have hsum := checkedI64_eq_some hsum
  rw [sum_filter] at hpositions hintents
  have hheld : total (heldBy marketId userId) db.positions ≤ positions := by
    rw [hpositions]
    refine total_mono fun p hp => ?_
    have hpos := h.books.amounts p hp
    unfold heldBy
    split
    · rename_i hcond
      simp only [Bool.and_eq_true, decide_eq_true_eq] at hcond
      rw [if_pos (by simp [hcond])]
    · split <;> omega
  have hopen : total (openBy marketId userId db.directory.clock) db.stakeIntents ≤ intents := by
    rw [hintents]
    refine total_mono fun i hi => ?_
    have hpos := h.intentAmounts i hi
    unfold openBy
    split
    · rename_i hcond
      simp only [Confirmable, Bool.and_eq_true, Bool.or_eq_true, decide_eq_true_eq] at hcond
      obtain ⟨⟨hmarket, huser⟩, hopen⟩ := hcond
      rw [if_pos]
      simp only [Stakes.StakeIntent.pending, Bool.and_eq_true, Bool.or_eq_true, decide_eq_true_eq]
      rcases hopen with hsubmitted | ⟨hstatus, hunexpired⟩
      · exact ⟨⟨hmarket, huser⟩, .inr hsubmitted, hfresh i hi hmarket huser hsubmitted⟩
      · exact ⟨⟨hmarket, huser⟩, .inl hstatus, hunexpired⟩
    · split <;> omega
  unfold atStake
  omega

/-! ### What others do -/

/-- What the others leave alone besides locked rows. -/
structure UserRely (L : List (Lock Row)) (db db' : Database) : Prop where
  stakes : StakeRely L db db'
  clock : NotWritten L .clock → db'.directory.clock = db.directory.clock
  atStake : ∀ marketId userId, NotWritten L (.atStake marketId userId) →
    atStake marketId userId db' ≤ atStake marketId userId db
  limits : ∀ id, (marketTable.find db' id).map (·.maxUserExposureMinor) =
    (marketTable.find db id).map (·.maxUserExposureMinor)

abbrev UserGuarantee : List (Lock Row) → Database → Database → Prop := Forward stakePart UserRely

theorem userGuarantee_mono (L L' : List (Lock Row)) (db db' : Database) (hsub : L ⊆ L')
    (h : UserGuarantee L db db') : UserGuarantee L' db db' where
  framed := h.framed.mono hsub
  moved :=
    { stakes := ⟨fun id hid => h.moved.stakes.exposure id (hid.mono hsub), h.moved.stakes.outcomes⟩
      clock := fun hclock => h.moved.clock (hclock.mono hsub)
      atStake := fun marketId userId hfree => h.moved.atStake marketId userId (hfree.mono hsub)
      limits := h.moved.limits }

/-- An intent expires, or stays. -/
structure Lapses (i i' : StakeIntent) : Prop where
  same : i' = { i with status := i'.status }
  status : i'.status = i.status ∨ i'.status = .expired

instance : IsPreorder StakeIntent Lapses where
  refl _ := ⟨rfl, .inl rfl⟩
  trans _ _ _ h h' := by
    refine ⟨by rw [h'.same, h.same], ?_⟩
    rcases h'.status with heq | hexpired
    · rw [heq]
      exact h.status
    · exact .inr hexpired

/-- What a request that neither creates nor submits nor confirms an intent does around stakes. -/
structure UserAside (L : List (Lock Row)) (db db' : Database) : Prop where
  aside : Aside Closes L db db'
  limits : ∀ id, (marketTable.find db' id).map (·.maxUserExposureMinor) =
    (marketTable.find db id).map (·.maxUserExposureMinor)
  intents : List.Forall₂ Lapses db.stakeIntents db'.stakeIntents
  later : db.directory.clock ≤ db'.directory.clock
  clock : NotWritten L .clock → db'.directory.clock = db.directory.clock

section Aside

variable {L : List (Lock Row)} {db db' : Database} {marketId userId : Uuid}

instance : Widening UserAside where
  refl L db := ⟨Widening.refl L db, fun _ => rfl, List.forall₂_refl _, le_refl _, fun _ => rfl⟩
  trans L _ _ _ h h' := ⟨Widening.trans L _ _ _ h.aside h'.aside,
    fun id => (h'.limits id).trans (h.limits id), forall₂_trans h.intents h'.intents,
    h.later.trans h'.later, fun hclock => (h'.clock hclock).trans (h.clock hclock)⟩
  mono L L' db db' hsub h := { h with
    aside := Widening.mono L L' db db' hsub h.aside
    clock := fun hclock => h.clock (hclock.mono hsub) }

theorem heldBy_closes {p p' : Position} (h : Closes p p') (hp : 0 < p.amountMinor) :
    heldBy marketId userId p' ≤ heldBy marketId userId p := by
  rw [h.same, heldBy, heldBy]
  rcases h.status with heq | hne
  · rw [heq]
  · rw [decide_eq_false hne, Bool.and_false, if_neg Bool.false_ne_true]
    split <;> omega

theorem openBy_lapses {i i' : StakeIntent} {now now' : Int} (h : Lapses i i') (hnow : now ≤ now')
    (hi : 0 < i.amountMinor) : openBy marketId userId now' i' ≤ openBy marketId userId now i := by
  rw [h.same, openBy, openBy]
  split
  · rename_i hcond
    simp only [Confirmable, Bool.and_eq_true, Bool.or_eq_true, decide_eq_true_eq] at hcond
    obtain ⟨hwhose, hopen⟩ := hcond
    -- an expired intent is not confirmable, so this one has the status that it had
    have hstatus : i'.status = i.status := by
      refine h.status.resolve_right fun hexpired => ?_
      simp [hexpired] at hopen
    rw [hstatus] at hopen
    rw [if_pos]
    simp only [Confirmable, Bool.and_eq_true, Bool.or_eq_true, decide_eq_true_eq]
    refine ⟨hwhose, hopen.imp_right fun hopen => ⟨hopen.1, ?_⟩⟩
    have hlate : now' < i.expiresAt := hopen.2
    omega
  · split <;> omega

theorem UserBooks.atStake_aside (h : UserBooks db) (ha : UserAside L db db') :
    atStake marketId userId db' ≤ atStake marketId userId db := by
  have hheld : total (heldBy marketId userId) db'.positions ≤ total (heldBy marketId userId) db.positions :=
    total_forall₂_le ha.aside.positions fun p hp _ hcloses => heldBy_closes hcloses (h.books.amounts p hp)
  have hopen : total (openBy marketId userId db'.directory.clock) db'.stakeIntents ≤
      total (openBy marketId userId db'.directory.clock) db.stakeIntents :=
    total_forall₂_le ha.intents fun i hi _ hlapses =>
      openBy_lapses hlapses (le_refl _) (h.intentAmounts i hi)
  have hlater : total (openBy marketId userId db'.directory.clock) db.stakeIntents ≤
      total (openBy marketId userId db.directory.clock) db.stakeIntents :=
    total_mono fun i hi => openBy_lapses (refl_of Lapses i) ha.later (h.intentAmounts i hi)
  unfold atStake
  omega

theorem UserBooks.aside (h : UserBooks db) (ha : UserAside L db db') : UserBooks db' where
  books := h.books.aside ha.aside fun _ _ hcloses => hcloses.same
  intentIds := by
    have hmap : db'.stakeIntents.map (·.id) = db.stakeIntents.map (·.id) :=
      forall₂_map_eq ha.intents fun i i' hlapses => by rw [hlapses.same]
    exact hmap ▸ h.intentIds
  intentAmounts i' hi' := by
    obtain ⟨i, hi, hlapses⟩ := forall₂_exists ha.intents hi'
    rw [hlapses.same]
    exact h.intentAmounts i hi
  capped id m' hm' userId := by
    have hlimits := ha.limits id
    rw [hm'] at hlimits
    obtain ⟨m, hm, hlimit⟩ := Option.map_eq_some_iff.mp hlimits.symm
    have hlimit : m.maxUserExposureMinor = m'.maxUserExposureMinor := hlimit
    rw [← hlimit]
    exact (h.atStake_aside ha).trans (h.capped id m hm userId)

theorem UserBooks.guarantee_aside (h : UserBooks db) (ha : UserAside L db db') : UserGuarantee L db db' where
  framed := ha.aside.framed
  moved :=
    { stakes := ⟨fun id _ => activeTotal_aside h.books ha.aside id, congrArg _ ha.aside.outcomes⟩
      clock := ha.clock
      atStake := fun _ _ _ => h.atStake_aside ha
      limits := ha.limits }

/-- What leaves intents, clock and limits alone. -/
theorem Aside.user (ha : Aside Closes L db db') (hmarkets : db'.markets = db.markets)
    (hintents : db'.stakeIntents = db.stakeIntents) (hclock : db'.directory.clock = db.directory.clock) :
    UserAside L db db' where
  aside := ha
  limits id := by rw [show marketTable.find db' id = marketTable.find db id from congrArg _ hmarkets]
  intents := hintents ▸ List.forall₂_refl _
  later := hclock.ge
  clock _ := hclock

theorem spares_userAside : Spares UserAside where
  decisions L db l := (spares_aside.decisions L db l).user rfl rfl rfl
  governance L db l := (spares_aside.governance L db l).user rfl rfl rfl
  runs L db l := (spares_aside.runs L db l).user rfl rfl rfl
  items L db l := (spares_aside.items L db l).user rfl rfl rfl
  settlementEvidence L db l := (spares_aside.settlementEvidence L db l).user rfl rfl rfl
  markets L view db p f hf := by
    refine ⟨spares_aside.markets L view db p f hf, fun id => ?_, List.forall₂_refl _, le_refl _,
      fun _ => rfl⟩
    rw [marketTable.find_modify fun m => by rw [hf m]; rfl, Option.map_map]
    refine congrArg (Option.map · _) (funext fun m => ?_)
    show (if _ then f m else m).maxUserExposureMinor = _
    split
    · rw [hf m]
    · rfl

theorem sparesClosing_userAside {ok : Site → Database → Prop} : SparesClosing ok UserAside :=
  fun marketId kind L view db hok =>
    (sparesClosing_aside marketId kind L view db hok).user rfl rfl rfl

end Aside

/-! ### Accepted stakes -/

section Accepted

variable {db db' : Database} {i : StakeIntent} {limit acceptedAt : Int} {e : PositionEvidence}
  {p : Position}

/-- **A confirmed intent is at stake as a position.** -/
theorem UserBooks.atStake_accepted (h : UserBooks db) (ha : Acceptance db i limit e p)
    (marketId userId : Uuid) :
    atStake marketId userId (accepted i e p acceptedAt db) = atStake marketId userId db := by
  have hheld : total (heldBy marketId userId) (db.positions ++ [p]) =
      total (heldBy marketId userId) db.positions + openBy marketId userId db.directory.clock i := by
    rw [total_concat, heldBy, openBy, ha.market, ha.user, ha.active, ha.amount, Confirmable,
      ha.submitted]
    simp
  have hopen : total (openBy marketId userId db.directory.clock)
      (accepted i e p acceptedAt db).stakeIntents =
      total (openBy marketId userId db.directory.clock) db.stakeIntents -
        openBy marketId userId db.directory.clock i + openBy marketId userId db.directory.clock
          { i with status := .confirmed, confirmedAt := some acceptedAt } :=
    total_updateWhere_key h.intentIds ha.intent (by simp)
      fun j _ hj => of_decide_eq_true (Bool.and_eq_true_iff.mp hj).1
  have hconfirmed : openBy marketId userId db.directory.clock
      { i with status := .confirmed, confirmedAt := some acceptedAt } = 0 := by
    simp [openBy, Confirmable]
  show total _ (db.positions ++ [p]) + total (openBy marketId userId db.directory.clock) _ = _
  rw [hheld, hopen, hconfirmed, atStake]
  omega

theorem UserBooks.accepts (h : UserBooks db) (hbooks : StakeBooks db') {own : StakeIntent → PositionEvidence → Prop}
    (ha : AcceptsStake own db db') :
    UserBooks db' := by
  rcases ha with rfl | ⟨i, limit, e, p, acceptedAt, ha, -, rfl⟩
  · exact h
  · refine ⟨hbooks, ?_, fun j hj => ?_, fun id m hm userId => ?_⟩
    · have hmap : (accepted i e p acceptedAt db).stakeIntents.map (·.id) = db.stakeIntents.map (·.id) :=
        map_updateWhere fun _ => rfl
      exact hmap ▸ h.intentIds
    · obtain ⟨j₀, hj₀, rfl⟩ := mem_updateWhere.mp hj
      have hpos := h.intentAmounts j₀ hj₀
      show 0 < (if _ then _ else j₀ : StakeIntent).amountMinor
      split <;> exact hpos
    · rw [h.atStake_accepted ha]
      exact h.capped id m hm userId

theorem UserBooks.guarantee_accepts {L : List (Lock Row)} {own : StakeIntent → PositionEvidence → Prop}
    (h : UserBooks db) (hG : AcceptGuarantee own L db db') :
    UserGuarantee L db db' where
  framed := hG.1.framed
  moved := by
    rcases hG.2 with rfl | ⟨i, limit, e, p, acceptedAt, ha, -, rfl⟩
    · exact ⟨hG.1.moved, fun _ => rfl, fun _ _ _ => le_refl _, fun _ => rfl⟩
    · exact ⟨hG.1.moved, fun _ => rfl, fun _ _ _ => (h.atStake_accepted ha _ _).le, fun _ => rfl⟩

end Accepted

end CrownFi.Markets
