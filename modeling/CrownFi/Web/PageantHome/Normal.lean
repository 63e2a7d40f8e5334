import CrownFi.Lib.Firsts
import CrownFi.Web.PageantHome.Widgets

/-!
# CrownFi.Web.PageantHome.Normal

**What normalising a home page gives**, for any value at all: every widget once, in the order of the
input and then of the defaults, with texts within their bounds. A setting that an input leaves out
should be the default, but the cleaned settings have all five properties, and the spread copies
`undefined` over the default. A text is cut off after it has been trimmed, so that it may end with a
space and lose it when it is normalised again. Apart from these two, the result is as it should be
(`normal_iff`).
-/

namespace CrownFi.Web.PageantHome

open Lib

/-! ### The five settings -/

inductive Key
  | eyebrow
  | title
  | subtitle
  | description
  | ctaText
  deriving DecidableEq

def keys : List Key := [.eyebrow, .title, .subtitle, .description, .ctaText]

def Key.name : Key → String
  | eyebrow => "eyebrow"
  | title => "title"
  | subtitle => "subtitle"
  | description => "description"
  | ctaText => "ctaText"

/-- The length that a text may have. -/
def Key.max : Key → Nat
  | eyebrow => 120
  | title => 200
  | subtitle => 220
  | description => 1200
  | ctaText => 80

def PageantHomeWidgetSettings.property (s : PageantHomeWidgetSettings) : Key → Property
  | .eyebrow => s.eyebrow
  | .title => s.title
  | .subtitle => s.subtitle
  | .description => s.description
  | .ctaText => s.ctaText

/-- What a reader gets, `none` for `undefined`. -/
def PageantHomeWidgetSettings.read (s : PageantHomeWidgetSettings) (k : Key) : Option Text :=
  (s.property k).join

variable {s others : PageantHomeWidgetSettings} {k : Key} {id : PageantHomeWidgetId} {value : Value}

theorem mem_keys (k : Key) : k ∈ keys := by
  cases k <;> decide

theorem name_inj {k k' : Key} (h : text k.name = text k'.name) : k = k' := by
  cases k <;> cases k' <;> first | rfl | exact absurd h (by decide)

theorem property_spread : (s.spread others).property k = (others.property k).or (s.property k) := by
  cases k <;> rfl

/-- The value of a setting in a settings value. -/
def settingIn (settings : Option Value) (k : Key) : Option Value :=
  settings.bind fun settings => if settings.isObject then settings.get (text k.name) else none

theorem property_cleanSettings {settings : Option Value} :
    (cleanSettings settings).property k = some (cleanText (settingIn settings k) k.max) := by
  cases k <;> rfl

/-- **The default is never read**: the spread overrides all five properties. -/
theorem read_candidateWidget {candidate : Value} : (candidateWidget id candidate).settings.read k =
    cleanText (settingIn (candidate.get (text "settings")) k) k.max := by
  unfold PageantHomeWidgetSettings.read candidateWidget
  rw [property_spread, property_cleanSettings]
  rfl

/-! ### Texts -/

/-- The text of a setting, unless it is blank. -/
def present : Option Value → Option Text
  | some (.string t) => if trim isSpace t = [] then none else some t
  | _ => none

/-- What is kept of a text. -/
def kept (k : Key) (t : Text) : Text := (trim isSpace t).take k.max

theorem cleanText_eq {setting : Option Value} :
    cleanText setting k.max = (present setting).map (kept k) := by
  unfold cleanText
  split
  · rename_i t
    show (if trim isSpace t = [] then none else some (kept k t)) =
      Option.map (kept k) (if trim isSpace t = [] then none else some t)
    split
    · rfl
    · rfl
  · rename_i hnot
    unfold present
    split
    · exact absurd rfl (hnot _)
    · rfl

theorem max_pos (k : Key) : 0 < k.max := by
  cases k <;> decide

/-- A text as a setting of the result has it: it does not begin with a space, and it is short
enough. -/
structure Tidy (k : Key) (t : Text) : Prop where
  begins : Begins isSpace t
  length : t.length ≤ k.max

theorem tidy_kept {setting : Option Value} {t : Text} (h : present setting = some t) :
    Tidy k (kept k t) := by
  unfold present at h
  split at h
  · split at h
    · cases h
    · rename_i hne
      obtain rfl := Option.some.inj h
      exact ⟨(begins_trim hne).take (max_pos k), List.length_take_le _ _⟩
  · cases h

theorem Tidy.present {t : Text} (h : Tidy k t) : present (some (.string t)) = some t :=
  if_neg h.begins.trim_ne_nil

theorem Tidy.kept_eq {t : Text} (h : Tidy k t) : kept k t = trim isSpace t :=
  List.take_of_length_le (length_trim_le.trans h.length)

/-! ### The defaults -/

theorem default_ids : defaultPageantHomeWidgets.map (·.id) = pageantHomeWidgetIds := rfl

theorem mem_ids (id : PageantHomeWidgetId) : id ∈ pageantHomeWidgetIds := by
  cases id <;> decide

theorem defaultWidget_of_mem {w : PageantHomeWidget} (h : w ∈ defaultPageantHomeWidgets) :
    defaultWidget w.id = w := by
  simp only [defaultPageantHomeWidgets, List.mem_cons, List.not_mem_nil, or_false] at h
  rcases h with rfl | rfl | rfl | rfl | rfl | rfl | rfl <;> rfl

instance (k : Key) (t : Text) : Decidable (Tidy k t ∧ ¬ Ends isSpace t) :=
  match t with
  | [] => .isFalse fun h => by
      obtain ⟨a, rest, heq, -⟩ := h.1.begins
      cases heq
  | a :: rest => decidable_of_iff ((isSpace a = false ∧ (a :: rest).length ≤ k.max) ∧
      ¬ isSpace ((a :: rest).getLast (List.cons_ne_nil _ _)) = true) (by
    refine and_congr ⟨fun h => ⟨⟨a, rest, rfl, h.1⟩, h.2⟩, fun h => ⟨?_, h.length⟩⟩ (not_congr ?_)
    · obtain ⟨b, rest', heq, hb⟩ := h.begins
      rw [(List.cons.inj heq).1, hb]
    · constructor
      · exact fun h => ⟨_, List.getLast?_eq_some_getLast (List.cons_ne_nil _ _), h⟩
      · rintro ⟨b, hb, h⟩
        rw [List.getLast?_eq_some_getLast (List.cons_ne_nil _ _)] at hb
        rw [Option.some.inj hb]
        exact h)

/-- **Every default passes its own check.** -/
theorem default_tidy (id : PageantHomeWidgetId) (k : Key) :
    ∀ t ∈ (defaultWidget id).settings.read k, Tidy k t ∧ ¬ Ends isSpace t := by
  cases id <;> cases k <;> decide +kernel

/-! ### The widgets of the result -/

/-- The ids that an input names, in its order. -/
def inputIds (value : Value) : List PageantHomeWidgetId := value.candidates.filterMap candidateId

/-- The first entry of an input with this id. -/
def firstCandidate (value : Value) (id : PageantHomeWidgetId) : Option Value :=
  value.candidates.find? (candidateId · = some id)

/-- The text that an input gives for a setting, if it is there and not blank. -/
def given (value : Value) (id : PageantHomeWidgetId) (k : Key) : Option Text :=
  (firstCandidate value id).bind fun candidate => present (settingIn (candidate.get (text "settings")) k)

theorem mem_inputIds : id ∈ inputIds value ↔ ∃ candidate, firstCandidate value id = some candidate := by
  unfold inputIds firstCandidate
  rw [List.mem_filterMap, ← Option.isSome_iff_exists, List.find?_isSome]
  simp only [decide_eq_true_eq]

theorem normalizeCandidates_eq (seen : List PageantHomeWidgetId) (candidates : List Value) :
    normalizeCandidates seen candidates =
      (firsts candidateId seen candidates).map fun entry => candidateWidget entry.1 entry.2 := by
  induction candidates generalizing seen with
  | nil => rfl
  | cons candidate rest ih =>
      rw [normalizeCandidates, firsts]
      cases candidateId candidate with
      | none => exact ih seen
      | some id =>
          dsimp only
          split
          · exact ih seen
          · rw [List.map_cons, ih]

theorem normalizeCandidates_ids : (normalizeCandidates [] value.candidates).map (·.id) =
    (inputIds value).eraseDups := by
  rw [normalizeCandidates_eq, List.map_map]
  refine (firsts_keys candidateId [] value.candidates).trans ?_
  rw [List.filter_eq_self.mpr fun _ _ => by simp]
  rfl

/-- **The order of the result**: the ids of the input as they come first, then the missing ones. -/
theorem normalize_ids : (normalizePageantHomeWidgets value).map (·.id) =
    (inputIds value).eraseDups ++ pageantHomeWidgetIds.filter (· ∉ inputIds value) := by
  unfold normalizePageantHomeWidgets
  rw [List.map_append, normalizeCandidates_ids, ← default_ids, List.filter_map]
  simp only [List.mem_eraseDups]
  rfl

theorem nodup_ids : ((normalizePageantHomeWidgets value).map (·.id)).Nodup := by
  rw [normalize_ids, List.nodup_append]
  refine ⟨nodup_eraseDups _, List.Nodup.filter _ (by decide), fun id hid id' hid' heq => ?_⟩
  subst heq
  exact of_decide_eq_true (List.mem_filter.mp hid').2 (List.mem_eraseDups.mp hid)

variable (value) in
theorem mem_normalize_ids (id : PageantHomeWidgetId) :
    id ∈ (normalizePageantHomeWidgets value).map (·.id) := by
  rw [normalize_ids, List.mem_append, List.mem_eraseDups, List.mem_filter]
  by_cases hid : id ∈ inputIds value
  · exact .inl hid
  · exact .inr ⟨mem_ids id, decide_eq_true hid⟩

/-- A widget of the result is that of the first entry with its id, or a default. -/
theorem of_mem_normalize {w : PageantHomeWidget} (h : w ∈ normalizePageantHomeWidgets value) :
    (∃ candidate, firstCandidate value w.id = some candidate ∧ w = candidateWidget w.id candidate) ∨
      (firstCandidate value w.id = none ∧ w = defaultWidget w.id) := by
  rcases List.mem_append.mp h with h | h
  · rw [normalizeCandidates_eq] at h
    obtain ⟨⟨id, candidate⟩, hentry, rfl⟩ := List.mem_map.mp h
    exact .inl ⟨candidate, (find_of_mem_firsts hentry).2, rfl⟩
  · obtain ⟨hdefault, hnot⟩ := List.mem_filter.mp h
    refine .inr ⟨?_, (defaultWidget_of_mem hdefault).symm⟩
    rw [normalizeCandidates_ids] at hnot
    refine List.find?_eq_none.mpr fun candidate hcandidate hid => ?_
    refine of_decide_eq_true hnot (List.mem_eraseDups.mpr ?_)
    exact List.mem_filterMap.mpr ⟨candidate, hcandidate, of_decide_eq_true hid⟩

/-- The widget of an id that the input names. -/
theorem mem_normalize_of_first {candidate : Value} (h : firstCandidate value id = some candidate) :
    candidateWidget id candidate ∈ normalizePageantHomeWidgets value := by
  obtain ⟨w, hw, rfl⟩ := List.mem_map.mp (mem_normalize_ids value id)
  rcases of_mem_normalize hw with ⟨candidate', hfirst, heq⟩ | ⟨hnone, -⟩
  · obtain rfl := Option.some.inj (h.symm.trans hfirst)
    exact heq ▸ hw
  · rw [h] at hnone
    cases hnone

/-- What is read of a widget that the input names. -/
theorem read_first {candidate : Value} (h : firstCandidate value id = some candidate) :
    (candidateWidget id candidate).settings.read k = (given value id k).map (kept k) := by
  rw [read_candidateWidget, cleanText_eq, given, h]
  rfl

theorem read_tidy {w : PageantHomeWidget} (h : w ∈ normalizePageantHomeWidgets value) {t : Text}
    (ht : w.settings.read k = some t) : Tidy k t := by
  rcases of_mem_normalize h with ⟨candidate, hfirst, hw⟩ | ⟨-, hw⟩
  · rw [hw, read_candidateWidget, cleanText_eq] at ht
    obtain ⟨t₀, hpresent, rfl⟩ := Option.map_eq_some_iff.mp ht
    exact tidy_kept hpresent
  · exact (default_tidy w.id k t (hw ▸ ht)).1

/-! ### The result as an input -/

/-- A widget as a value: a property with `undefined` is left out. -/
def PageantHomeWidget.toValue (w : PageantHomeWidget) : Value :=
  .object
    [(text "id", .string (text w.id.name)), (text "enabled", .bool w.enabled),
      (text "settings", .object (keys.filterMap fun k =>
        (w.settings.read k).map fun t => (text k.name, .string t)))]

/-- What can be read of a widget. -/
def PageantHomeWidget.content (w : PageantHomeWidget) : PageantHomeWidgetId × Bool × List (Option Text) :=
  (w.id, w.enabled, keys.map w.settings.read)

/-- The result, normalised once more. -/
def again (value : Value) : List PageantHomeWidget :=
  normalizePageantHomeWidgets (.array ((normalizePageantHomeWidgets value).map (·.toValue)))

variable {w : PageantHomeWidget}

theorem find_id (id : PageantHomeWidgetId) :
    pageantHomeWidgetIds.find? (fun id' => text id'.name = text id.name) = some id := by
  cases id <;> decide

theorem candidateId_toValue : candidateId w.toValue = some w.id := by
  have hget : w.toValue.get (text "id") = some (.string (text w.id.name)) := rfl
  show (match w.toValue.get (text "id") with
    | some (.string t) => pageantHomeWidgetIds.find? fun id : PageantHomeWidgetId => text id.name = t
    | _ => none) = _
  rw [hget]
  exact find_id w.id

theorem get_enabled : w.toValue.get (text "enabled") = some (.bool w.enabled) := rfl

theorem settingIn_toValue : settingIn (w.toValue.get (text "settings")) k =
    (w.settings.read k).map .string := by
  show ((keys.filterMap fun k' => (w.settings.read k').map fun t => (text k'.name, Value.string t)).reverse.find?
    (·.1 = text k.name)).map (·.2) = _
  rw [← List.filterMap_reverse, List.find?_filterMap]
  cases hread : w.settings.read k with
  | none =>
      rw [List.find?_eq_none.mpr]
      · rfl
      · intro k' _ hany
        obtain ⟨⟨key, value⟩, hk', heq⟩ := (Option.any_eq_true _ _).mp hany
        obtain ⟨t, ht, hpair⟩ := Option.map_eq_some_iff.mp hk'
        obtain rfl := name_inj (((Prod.mk.inj hpair).1).trans (of_decide_eq_true heq))
        rw [ht] at hread
        cases hread
  | some t =>
      have hfind : keys.reverse.find? (fun k' => ((w.settings.read k').map fun t =>
          (text k'.name, Value.string t)).any (·.1 = text k.name)) = some k := by
        cases hfound : keys.reverse.find? (fun k' => ((w.settings.read k').map fun t =>
            (text k'.name, Value.string t)).any (·.1 = text k.name)) with
        | none =>
            refine absurd ?_ (List.find?_eq_none.mp hfound k (List.mem_reverse.mpr (mem_keys k)))
            rw [hread]
            exact decide_eq_true rfl
        | some k' =>
            have hany : ((w.settings.read k').map fun t => (text k'.name, Value.string t)).any
                (·.1 = text k.name) = true := by
              simpa only using List.find?_some hfound
            obtain ⟨⟨key, value⟩, hk', heq⟩ := (Option.any_eq_true _ _).mp hany
            obtain ⟨t', -, hpair⟩ := Option.map_eq_some_iff.mp hk'
            rw [name_inj (((Prod.mk.inj hpair).1).trans (of_decide_eq_true heq))]
      rw [hfind, Option.bind_some, hread]
      rfl

/-- A second pass keeps the widgets, and cleans their texts once more. -/
theorem again_eq : again value =
    (normalizePageantHomeWidgets value).map fun w => candidateWidget w.id w.toValue := by
  have hpairs (seen : List PageantHomeWidgetId) (ws : List PageantHomeWidget)
      (hnodup : (ws.map (·.id)).Nodup) (hnew : ∀ w ∈ ws, w.id ∉ seen) :
      normalizeCandidates seen (ws.map (·.toValue)) = ws.map fun w => candidateWidget w.id w.toValue := by
    induction ws generalizing seen with
    | nil => rfl
    | cons w rest ih =>
        obtain ⟨hhead, htail⟩ := List.nodup_cons.mp (List.map_cons ▸ hnodup)
        obtain ⟨hw, hrest⟩ := List.forall_mem_cons.mp hnew
        rw [List.map_cons, normalizeCandidates, candidateId_toValue]
        dsimp only
        rw [if_neg hw, List.map_cons, ih (w.id :: seen) htail fun w' hw' => ?_]
        rw [List.mem_cons, not_or]
        exact ⟨fun heq => hhead (List.mem_map.mpr ⟨w', hw', heq⟩), hrest w' hw'⟩
  have hkept := hpairs [] (normalizePageantHomeWidgets value) nodup_ids (fun _ _ => List.not_mem_nil)
  -- no widget is missing, so no default is added
  have hids : ((normalizePageantHomeWidgets value).map fun w => candidateWidget w.id w.toValue).map (·.id) =
      (normalizePageantHomeWidgets value).map (·.id) := List.map_map
  have hfilter : defaultPageantHomeWidgets.filter (·.id ∉ (normalizeCandidates []
      ((normalizePageantHomeWidgets value).map (·.toValue))).map (·.id)) = [] := by
    refine List.filter_eq_nil_iff.mpr fun d _ hmissing => ?_
    have hnot := of_decide_eq_true hmissing
    rw [hkept, hids] at hnot
    exact hnot (mem_normalize_ids _ d.id)
  have happend := congrArg (normalizeCandidates []
    ((normalizePageantHomeWidgets value).map (·.toValue)) ++ ·) hfilter
  exact happend.trans ((List.append_nil _).trans hkept)

theorem read_again (hw : w ∈ normalizePageantHomeWidgets value) :
    (candidateWidget w.id w.toValue).settings.read k = (w.settings.read k).map (trim isSpace) := by
  rw [read_candidateWidget, settingIn_toValue, cleanText_eq]
  cases hread : w.settings.read k with
  | none => rfl
  | some t =>
      have htidy := read_tidy hw hread
      rw [Option.map_some, htidy.present, Option.map_some, htidy.kept_eq, Option.map_some]

/-- A widget is as it was exactly if none of its texts ends with a space. -/
theorem content_again (hw : w ∈ normalizePageantHomeWidgets value) :
    (candidateWidget w.id w.toValue).content = w.content ↔
      ∀ k, ∀ t ∈ w.settings.read k, ¬ Ends isSpace t := by
  have henabled : (candidateWidget w.id w.toValue).enabled = w.enabled := rfl
  have hid : (candidateWidget w.id w.toValue).id = w.id := rfl
  simp only [PageantHomeWidget.content, hid, henabled, Prod.mk.injEq, true_and]
  rw [List.map_inj_left]
  constructor
  · intro hsame k t ht
    have hread := hsame k (mem_keys k)
    rw [read_again hw, Option.mem_def.mp ht, Option.map_some] at hread
    exact (read_tidy hw ht).begins.trim_eq_self_iff.mp (Option.some.inj hread)
  · intro hends k _
    rw [read_again hw]
    cases hread : w.settings.read k with
    | none => rfl
    | some t =>
        rw [Option.map_some, (read_tidy hw hread).begins.trim_eq_self_iff.mpr (hends k t hread)]

theorem stable_iff : (again value).map (·.content) = (normalizePageantHomeWidgets value).map (·.content) ↔
    ∀ w ∈ normalizePageantHomeWidgets value, (candidateWidget w.id w.toValue).content = w.content := by
  rw [again_eq, List.map_map]
  exact List.map_inj_left

/-! ### The result -/

/-- What normalising should give. -/
structure Normal (value : Value) : Prop where
  once : ∀ id, ((normalizePageantHomeWidgets value).map (·.id)).count id = 1
  order : (normalizePageantHomeWidgets value).map (·.id) =
    (inputIds value).eraseDups ++ pageantHomeWidgetIds.filter (· ∉ inputIds value)
  fallback : ∀ w ∈ normalizePageantHomeWidgets value, ∀ k, given value w.id k = none →
    w.settings.read k = (defaultWidget w.id).settings.read k
  bounded : ∀ w ∈ normalizePageantHomeWidgets value, ∀ k, ∀ t ∈ w.settings.read k, t.length ≤ k.max
  stable : (again value).map (·.content) = (normalizePageantHomeWidgets value).map (·.content)

/-- The widget that the input names first with this id has a text for each setting with a default,
and no text of which something that ends with a space is kept. -/
structure Complete (value : Value) (id : PageantHomeWidgetId) : Prop where
  present : ∀ k, given value id k = none → (defaultWidget id).settings.read k = none
  ends : ∀ k, ∀ t ∈ given value id k, ¬ Ends isSpace (kept k t)

/-- **When normalising gives what it should**: exactly if every widget that the input names is
complete. -/
theorem normal_iff (value : Value) : Normal value ↔ ∀ id ∈ inputIds value, Complete value id := by
  constructor
  · intro h id hid
    obtain ⟨candidate, hcandidate⟩ := mem_inputIds.mp hid
    have hw := mem_normalize_of_first hcandidate
    constructor
    · intro k hnone
      have hdefault : (candidateWidget id candidate).settings.read k =
          (defaultWidget id).settings.read k := h.fallback _ hw k hnone
      rw [← hdefault, read_first hcandidate, hnone]
      rfl
    · intro k t ht
      have hcontent := (stable_iff.mp h.stable) _ hw
      refine (content_again hw).mp hcontent k _ ?_
      rw [read_first hcandidate, Option.mem_def.mp ht]
      rfl
  · intro h
    refine ⟨fun id => ?_, normalize_ids, fun w hw k hnone => ?_, fun w hw k t ht => ?_, ?_⟩
    · exact List.count_eq_one_of_mem nodup_ids (mem_normalize_ids _ id)
    · rcases of_mem_normalize hw with ⟨candidate, hfirst, heq⟩ | ⟨-, heq⟩
      · rw [(h w.id (mem_inputIds.mpr ⟨_, hfirst⟩)).present k hnone, heq, read_first hfirst]
        rw [heq] at hnone
        rw [show given value w.id k = none from hnone]
        rfl
      · exact congrArg (fun w : PageantHomeWidget => w.settings.read k) heq
    · exact (read_tidy hw ht).length
    · refine stable_iff.mpr fun w hw => (content_again hw).mpr fun k t ht => ?_
      rcases of_mem_normalize hw with ⟨candidate, hfirst, heq⟩ | ⟨-, heq⟩
      · rw [heq, read_first hfirst] at ht
        obtain ⟨t₀, ht₀, rfl⟩ := Option.map_eq_some_iff.mp ht
        exact (h w.id (mem_inputIds.mpr ⟨_, hfirst⟩)).ends k t₀ ht₀
      · exact (default_tidy w.id k t (heq ▸ ht)).2

/-- One widget, with nothing but its id. -/
def bareHero : Value := .array [.object [(text "id", .string (text "hero"))]]

/-- The title line of the bare widget is `undefined` where the default has a text. -/
theorem bareHero_not_normal : ¬ Normal bareHero := by
  intro h
  have hfirst : firstCandidate bareHero .hero = some (.object [(text "id", .string (text "hero"))]) := rfl
  have hdefault := h.fallback _ (mem_normalize_of_first hfirst) .eyebrow rfl
  have hread := read_first (k := .eyebrow) hfirst
  rw [show given bareHero .hero .eyebrow = none from rfl] at hread
  rw [hread] at hdefault
  exact absurd hdefault (by decide)

end CrownFi.Web.PageantHome
