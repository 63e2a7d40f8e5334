import CrownFi.Media.Completion

/-!
# CrownFi.Media.Content

**Ready media keep their content as long as nobody uploads other content to them.** A completion verifies
the length and the digest of the object once. The presigned `PUT` it verifies can be used again until it
expires, also for other content: nothing in it is tied to the status of the asset, and the digest it is
signed for is only declared. So the object of a ready asset may become any other.

What protects the content is that uploads of other content come before the completion: not to a ready
asset, and not while a completion of the asset is under way (`Quiet`).
-/

namespace CrownFi.Media

open Api Lib Lib.Processes

/-- **Uploads of other content come early**: not to a ready asset, and not while somebody holds the lock
of the asset's completion. -/
def Quiet (config : Config) : Discipline Database Uuid Point Event where
  access _ _ := True
  event
    | .put authorization bytes, db => Fits config db authorization bytes = false →
        ∀ a ∈ db.asset authorization.mediaAssetId, a.status ≠ .ready
    | .tick _, _ => True
  locks
    | .put authorization bytes, db =>
        if Fits config db authorization bytes then [] else [authorization.mediaAssetId]
    | .tick _, _ => []

variable {config : Config}

theorem eventsKeep_quiet : EventsKeep (media config) (Quiet config) (Inv config true) (Granted config true) := by
  intro e db hpossible hquiet hI
  cases e with
  | put authorization bytes =>
      refine ⟨inv_put hI hpossible.1 fun _ hother a ha => hquiet hother a ha,
        granted_put hI hpossible.1 fun _ => ?_⟩
      cases hfits : Fits config db authorization bytes with
      | true => exact .inl rfl
      | false =>
          right
          simp only [Quiet, hfits]
          exact List.mem_singleton.mpr rfl
  | tick elapsed =>
      refine ⟨hI.store rfl rfl rfl fun hs id a ha hready => ?_, .store rfl fun _ id _ a ha => ?_⟩
      · exact (hI.content hs id a ha hready).congr rfl rfl rfl rfl
      · exact ⟨fun h => h.congr rfl rfl rfl, fun h => h.congr rfl rfl rfl rfl⟩

/-- **Ready media keep their recorded content** in every run without late uploads of other content. -/
theorem ready_media_kept {config : Config} (hconforms : config.Conforms) {db₀ : Database}
    (h₀ : db₀.Empty) {moves : List (Move Request Event)} {world : MediaWorld}
    (hrun : Run (World.Step (media config) (Quiet config)) (World.idle db₀) moves world) {id : Uuid}
    {a : MediaAsset} (ha : world.state.asset id = some a) (hready : a.status = .ready) :
    Kept config world.state a := by
  have h : Running (Inv config true) (Granted config true) (Quiet config).access Serialized
      (fun _ _ => True) world :=
    run_running (outline_program hconforms) eventsKeep_quiet hrun (running_idle (inv_empty h₀))
  exact h.inv.content rfl id a ha hready

instance (label : Point) (db : Database) : Decidable ((Quiet config).access label db) := .isTrue trivial

instance : (e : Event) → (db : Database) → Decidable ((Quiet config).event e db)
  | .put authorization bytes, db =>
      inferInstanceAs (Decidable (Fits config db authorization bytes = false →
        ∀ a ∈ db.asset authorization.mediaAssetId, a.status ≠ .ready))
  | .tick _, _ => .isTrue trivial

/-- The same picture may come again. -/
theorem picture_kept : ∃ (world : MediaWorld) (a : MediaAsset), world.state.asset 9 = some a ∧
    a.status = .ready ∧ Kept testConfig world.state a := by
  have h : ((World.idle emptyLibrary).replay (media testConfig) (Quiet testConfig)
      (uploadTwice picture)).any (readyWith picture) = true := by decide +kernel
  obtain ⟨world, hworld, htest⟩ := (Option.any_eq_true _ _).mp h
  obtain ⟨a, ha, hall⟩ := (Option.any_eq_true _ _).mp htest
  simp only [Bool.and_eq_true, decide_eq_true_eq] at hall
  exact ⟨world, a, ha, hall.1.1, ready_media_kept testConfig_conforms
    (show emptyLibrary.Empty from ⟨rfl, rfl, rfl⟩) (World.run_of_replay hworld) ha hall.1.1⟩

/-- **The URL can be used again**, after the completion, for another picture. -/
theorem ready_media_overwritten :
    ¬ ∀ (config : Config), config.Conforms → ∀ db₀ : Database, db₀.Empty →
      ∀ (moves : List (Move Request Event)) (world : MediaWorld),
        Run (World.Step (media config) .none) (World.idle db₀) moves world →
          ∀ id a, world.state.asset id = some a → a.status = .ready → Kept config world.state a := by
  intro hall
  have h : ((World.idle emptyLibrary).replay (media testConfig) .none (uploadTwice otherPicture)).any
      (readyWith otherPicture) = true := by decide +kernel
  obtain ⟨world, hworld, htest⟩ := (Option.any_eq_true _ _).mp h
  obtain ⟨a, ha, hready⟩ := (Option.any_eq_true _ _).mp htest
  simp only [Bool.and_eq_true, decide_eq_true_eq] at hready
  obtain ⟨⟨hstatus, hsha⟩, hobject⟩ := hready
  obtain ⟨o, ho, hbytes⟩ := (Option.any_eq_true _ _).mp hobject
  obtain ⟨o', ho', -, hhash⟩ := hall testConfig testConfig_conforms emptyLibrary ⟨rfl, rfl, rfl⟩ _ world
    (World.run_of_replay hworld) 9 a ha hstatus
  obtain rfl : o = o' := Option.some.inj (ho.symm.trans ho')
  rw [of_decide_eq_true hbytes, hsha] at hhash
  exact absurd hhash (by decide +kernel)

end CrownFi.Media
