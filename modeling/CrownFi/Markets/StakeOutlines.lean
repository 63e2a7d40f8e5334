import CrownFi.Markets.Outlines

/-!
# CrownFi.Markets.StakeOutlines

**The outline of accepted stakes.** The evidence of an intent is new, so the intent has no
position yet and the upsert inserts one. The market is locked meanwhile: what the
statement saw of it, its runs among that, is still so at the commit.
-/

namespace CrownFi.Markets

open Lib CrownFi.Api Positions

variable {strict fixed : Prop} {ext : External}

theorem find_of_positionEvidenceViolation {e : PositionEvidence} {db : Database}
    (h : positionEvidenceViolation e db = none) :
    positionEvidenceTable.find db e.stakeIntentId = none := by
  unfold positionEvidenceViolation at h
  split at h
  · cases h
  · rename_i hany
    refine positionEvidenceTable.find_none_of_any (Bool.not_eq_true _ ▸ hany) fun f hf => ?_
    have hintent : f.stakeIntentId = e.stakeIntentId := hf
    simp [hintent]

/-- An intent without evidence has no position. -/
theorem positionOf_eq_none {stakeIntentId : Uuid} {db : Database} (hI : Inv strict fixed db)
    (hnone : positionEvidenceTable.find db stakeIntentId = none) :
    positionOf stakeIntentId db = none := by
  refine List.find?_eq_none.mpr fun p hp hintent => ?_
  obtain ⟨e, he, heq⟩ := hI.evidenced p hp
  exact positionEvidenceTable.find_none hnone e he (heq.trans (of_decide_eq_true hintent))

theorem stakeIntentContext_market {stakeIntentId : Uuid} {db : Database} {c : StakeIntentContext}
    (h : stakeIntentContext stakeIntentId db = some c) : ∃ m, marketTable.find db c.marketId = some m := by
  simp only [stakeIntentContext, Option.bind_eq_bind, Option.bind_eq_some_iff] at h
  obtain ⟨i, -, a, -, m, hm, heq⟩ := h
  obtain rfl := Option.some.inj heq
  exact ⟨m, hm⟩

section Statements

variable {L : List (Lock Row)} {pending : Database → Database} {A : Database → Prop}

/-- The market of a position that is inserted: no run, and not over. -/
def Early (strict : Prop) (marketId : Uuid) (db : Database) : Prop :=
  strict → NoRun db marketId ∧ ∀ m, marketTable.find db marketId = some m → ¬ m.status.Final

theorem early_of_stakesEarly {marketId : Uuid} {db : Database}
    (h : strict → StakesEarly (.activate marketId) db) : Early strict marketId db := by
  intro hstrict
  obtain ⟨hruns, hmarkets⟩ := h hstrict
  refine ⟨fun rid r hr => hruns r (runTable.find_mem hr).1, fun m hm => ?_⟩
  obtain ⟨hmem, hid⟩ := marketTable.find_mem hm
  exact hmarkets m hmem hid

/-- The upsert inserts the position of an intent that has none, and sees its market as it
stays. -/
theorem safe_activatePosition {p : Position} {k : PUnit → Prog Database Row Site Result}
    (ht : Tracks strict fixed L pending A) (hlock : ⟨.market p.marketId, .update⟩ ∈ L)
    (hruns : ∀ d, (pending d).runs = d.runs)
    (hnone : ∀ d, Inv strict fixed d → A d → positionOf p.stakeIntentId (pending d) = none)
    (next : ∀ L' B, Tracks strict fixed L' (fun d => positionTable.add p (pending d)) B → L ⊆ L' →
      (∀ d, B d → A d ∧ positionTable.find (pending d) p.id = none ∧
        Early strict p.marketId (pending d)) →
      Outline strict fixed (k ⟨⟩) L' (fun d => positionTable.add p (pending d)) B) :
    Outline strict fixed (activatePosition p k) L pending A := by
  have hnoRun (d d' : Database) (h : NoRun d p.marketId) (heq : d'.runs = d.runs) :
      NoRun d' p.marketId := by
    intro rid r hr
    refine h rid r ?_
    show d.runs.find? _ = some r
    rw [← heq]
    exact hr
  refine ht.safe_stepKnowing (fun _ d => strict → NoRun d p.marketId) ?_ ?_ fun db B hI hA hok h hrun => ?_
  · intro db _ _ hok hstrict
    exact hnoRun _ _ (early_of_stakesEarly (fun h => (hok h).1) hstrict).1 (hruns db).symm
  · intro _ L' db db' hcompat hI hI' hA hG hstrict
    exact stable_noRun hlock rfl L' db db' hcompat hI hI' (hA hstrict) hG
  have heffect : activation p (pending db) = positionTable.add p := by
    rw [activation, hnone db hI hA]
  rw [heffect]
  rw [hnone db hI hA, Option.getD_none] at h ⊢
  split
  · exact safe_ret
  · rename_i hids
    have hany : ((pending db).positions.any fun q => q.id = p.id) = false := by
      refine Bool.eq_false_iff.mpr fun hany => hids ⟨rfl, hany⟩
    refine next _ B (h.track.add positionLayout (by simp [positionTable]))
      (List.subset_append_left _ _) fun d hd => ⟨h.before d hd, ?_, fun hstrict => ⟨?_, fun m hm => ?_⟩⟩
    · have hfind : positionTable.find (pending db) p.id = none :=
        positionTable.find_none_of_any hany fun q hq => decide_eq_true hq
      exact ((h.seen d hd).find positionLayout (i := p.id) (m := .update)
        (by simp [positionTable]) rfl).trans hfind
    · exact hnoRun _ _ (hrun d hd hstrict) (hruns d)
    · have hseen := (h.seen d hd).find marketLayout (m := .update) (List.mem_append_left _ hlock) rfl
      exact (early_of_stakesEarly (fun h => (hok h).1) hstrict).2 m (hseen.symm.trans hm)

/-- **A stake is accepted**, in a market that is locked. -/
theorem safe_acceptStake {intent : StakeIntentContext} {stake : ObservedStake} {began acceptedAt : Int}
    {ids : PositionIds} (ht : Tracks strict fixed L id A)
    (hmarket : ⟨.market intent.marketId, .update⟩ ∈ L) :
    Outline strict fixed (acceptStake intent stake began acceptedAt ids fun r => .ret (.ok r)) L id A := by
  unfold acceptStake
  refine safe_bind (ht.safe_insertRow fun db₁ A₁ hI₁ hA₁ hv h₁ => ?_)
  generalize he : (PositionEvidence.mk _ _ _ _ _ _ _ _ _ _ _) = e at *
  have hintent : e.stakeIntentId = stake.stakeIntentId := by rw [← he]
  have hnone (d : Database) (hd : A₁ d) : positionEvidenceTable.find d stake.stakeIntentId = none := by
    have hseen := (h₁.seen d hd).find positionEvidenceLayout (i := stake.stakeIntentId) (m := .update)
      (by simp [positionEvidenceTable, hintent]) rfl
    exact hseen.trans (hintent ▸ find_of_positionEvidenceViolation (raise_eq_none.mp hv))
  have ht₁ := h₁.track.add positionEvidenceLayout (r := e) (by simp [positionEvidenceTable])
  generalize hp : (Position.mk _ _ _ _ _ _ _ _ _ _ _ _) = p
  have hpmarket : p.marketId = intent.marketId := by rw [← hp]
  have hpintent : p.stakeIntentId = stake.stakeIntentId := by rw [← hp]
  refine safe_bind (safe_activatePosition ht₁ (hpmarket ▸ List.mem_append_left _ hmarket)
    (fun _ => rfl) (fun d hI hd => ?_) fun L₂ A₂ ht₂ hsub hknown => ?_)
  · have hsame : positionOf stake.stakeIntentId d = none := positionOf_eq_none hI (hnone d hd)
    rw [hpintent]
    exact hsame
  have hk₂ : Sound strict fixed (· = intent.marketId) nothing
      (fun d => positionTable.add p (positionEvidenceTable.add e d)) A₂ := by
    intro d hI hd
    obtain ⟨-, hid, hearly⟩ := hknown d hd
    obtain ⟨hI₁, hprog₁⟩ : Inv strict fixed (positionEvidenceTable.add e d) ∧
        Progress strict fixed (· = intent.marketId) nothing d (positionEvidenceTable.add e d) :=
      hI.of_same rfl rfl (List.subset_append_left _ _) rfl rfl rfl
    have hevidence : ∃ e' ∈ (positionEvidenceTable.add e d).positionEvidence,
        e'.stakeIntentId = p.stakeIntentId :=
      ⟨e, List.mem_append_right _ (List.mem_singleton.mpr rfl), hintent.trans hpintent.symm⟩
    obtain ⟨hI₂, hprog₂⟩ : Inv strict fixed (positionTable.add p (positionEvidenceTable.add e d)) ∧
        Progress strict fixed (· = intent.marketId) nothing (positionEvidenceTable.add e d)
          (positionTable.add p (positionEvidenceTable.add e d)) := hI₁.addPosition hid
      (by rw [← hp]) hpmarket hevidence (fun hstrict => (hearly hstrict).1) fun hstrict => (hearly hstrict).2
    exact ⟨hI₂, trans_of _ hprog₁ hprog₂⟩
  refine safe_bind (safe_bind (ht₂.safe_updateHidden hk₂
    (hidden fun _ _ => ⟨rfl, rfl, rfl, rfl, rfl, rfl⟩) fun n L₃ p₃ A₃ h₃ => ?_))
  refine safe_bind (safe_updateStakeIntents h₃.track h₃.keeps fun n L₄ p₄ A₄ h₄ => ?_)
  refine safe_bind (h₄.track.safe_commitWithin h₄.keeps (fun db db' hprog => ?_) safe_ret)
  refine hprog.mono (fun m hm => ?_) fun _ h => h.elim
  have hwritten : Written L (.market m) := hm ▸ written_of_mem hmarket rfl
  exact hwritten.mono fun _ hl => h₄.locks (h₃.locks (hsub (List.mem_append_left _ hl)))

end Statements

theorem safe_acceptPositionEvidence (marketId : Uuid) (body : AcceptPositionEvidenceRequest)
    (ids : PositionIds) :
    SafeHandler strict fixed (acceptPositionEvidence marketId body ids) := by
  unfold SafeHandler SafeRequest Handler.request acceptPositionEvidence
  refine safe_bind (safe_valid fun stake _ => ?_)
  refine safe_bind (safe_select stable_true fun _ began _ _ _ => ?_)
  refine safe_bind (safe_bind (Track.start.safe_selectFor fun db₁ A₁ row _ _ hrow h₁ => ?_))
  refine safe_orElse fun intent hintent => ?_
  -- the market of the intent is locked from here on
  have hcontext : stakeIntentContext stake.stakeIntentId db₁ = some intent := hrow.trans hintent
  refine safe_bind (safe_require fun _ => ?_)
  refine safe_bind (h₁.track.safe_selectFor fun db₂ A₂ existing _ _ _ h₂ => ?_)
  cases existing with
  | some existing =>
    refine safe_bind (safe_require fun _ => ?_)
    exact safe_bind (safe_commitNothing h₂.track
      ((sound_start.mono h₁.before).mono h₂.before) safe_ret)
  | none =>
    refine safe_bind (safe_require fun _ => ?_)
    refine safe_bind (safe_require fun _ => ?_)
    refine safe_bind (safe_select h₂.track.stable fun _ _ _ _ _ => ?_)
    refine safe_bind (safe_orElse fun current _ => ?_)
    refine safe_bind (safe_require fun _ => ?_)
    refine safe_bind (safe_select h₂.track.stable fun _ acceptedAt _ _ _ => ?_)
    refine safe_acceptStake h₂.track (List.mem_append_left _ (List.mem_append_right _ ?_))
    simp only [id, hcontext, Option.toList_some, List.flatMap_cons, List.flatMap_nil, List.append_nil]
    exact List.mem_cons_of_mem _ (List.mem_singleton.mpr rfl)

end CrownFi.Markets
