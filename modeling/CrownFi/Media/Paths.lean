import CrownFi.Media.Requests

/-!
# CrownFi.Media.Paths

**Whoever completes an asset holds the lock of that asset**, as far as paths go. Three parties read the
path of a completion: the access-control table parses the fourth segment as it stands, the middleware
cuts the text between a leading and a trailing part, and the router decodes its parameter before it
parses it. A path with an escape would be decoded by the router alone; but an escape is no part of an
identifier, so that the table has refused it before.
-/

namespace CrownFi.Media

open Api Lib Access

/-- What the results need of the libraries: no identifier has a percent sign, and a text without one is
decoded to itself. -/
structure Config.Conforms (config : Config) : Prop where
  plain : ∀ text id, config.parseUuid text = some id → '%' ∉ text.toList
  decodes : ∀ text, '%' ∉ text.toList → config.percentDecode text = some text

/-! ### Cutting texts -/

theorem isPrefixOf?_append (l r : List Char) : l.isPrefixOf? (l ++ r) = some r := by
  induction l with
  | nil => rfl
  | cons c l ih => simp [List.isPrefixOf?, ih]

theorem isSuffixOf?_append (l r : List Char) : l.isSuffixOf? (r ++ l) = some r := by
  rw [List.isSuffixOf?, List.reverse_append, isPrefixOf?_append, Option.map_some, List.reverse_reverse]

/-- No piece of a split text has the separator. -/
theorem notMem_splitOn {c : Char} {cs piece : List Char} (h : piece ∈ cs.splitOn c) : c ∉ piece := by
  induction cs generalizing piece with
  | nil =>
      obtain rfl := List.mem_singleton.mp h
      exact List.not_mem_nil
  | cons d cs ih =>
      rw [List.splitOn_cons_eq_if_modifyHead] at h
      split at h
      · rcases List.mem_cons.mp h with rfl | h
        · exact List.not_mem_nil
        · exact ih h
      · rename_i hd
        cases hsplit : cs.splitOn c with
        | nil => exact absurd hsplit (List.splitOn_ne_nil c cs)
        | cons first rest =>
            rw [hsplit, List.modifyHead_cons] at h
            rcases List.mem_cons.mp h with rfl | h
            · have hfirst : c ∉ first := ih (by simp [hsplit])
              simp only [List.mem_cons, not_or]
              exact ⟨fun hc => hd (by simp [hc]), hfirst⟩
            · exact ih (by simp [hsplit, h])

/-- A path that splits into these segments. -/
theorem pathSegments_eq {path : String} {segments : List String} (hne : segments ≠ [])
    (h : pathSegments path = some segments) :
    path = pathOf segments ∧ ∀ s ∈ segments, '/' ∉ s.toList := by
  unfold pathSegments at h
  split at h
  · rename_i pieces hsplit
    obtain rfl := Option.some.inj h
    have hpieces : (pieces.map String.ofList).map String.toList = pieces := by
      rw [List.map_map]
      exact (List.map_congr_left fun _ _ => String.toList_ofList).trans (List.map_id _)
    constructor
    · refine String.toList_inj.mp ?_
      have hjoined : List.intercalate ['/'] (path.toList.splitOn '/') = path.toList :=
        List.intercalate_splitOn '/'
      rw [pathOf, String.toList_ofList, hpieces, ← hjoined, hsplit]
      cases pieces with
      | nil => exact absurd rfl hne
      | cons first rest => rfl
    · intro s hs
      obtain ⟨piece, hpiece, rfl⟩ := List.mem_map.mp hs
      rw [String.toList_ofList]
      exact notMem_splitOn (by rw [hsplit]; exact List.mem_cons_of_mem _ hpiece)
  · cases h

/-! ### The three readings -/

variable {config : Config} {segments : List String} {segment : String} {id : Uuid}

/-- The segments of a completion. -/
def completionSegments (segment : String) : List String :=
  ["admin", "platform", "media", segment, "complete"]

theorem capture_completeRoute (h : capture completeRoute.pattern segments = some [segment]) :
    segments = completionSegments segment ∧ segment ≠ "" := by
  match segments with
  | [] => simp [completeRoute, capture] at h
  | [a] => simp [completeRoute, capture] at h
  | [a, b] => simp [completeRoute, capture] at h
  | [a, b, c] => simp [completeRoute, capture] at h
  | [a, b, c, d] => simp [completeRoute, capture] at h
  | [a, b, c, d, e] =>
      simp only [completeRoute, capture, Option.ite_none_right_eq_some, Option.ite_none_left_eq_some,
        Option.map_eq_some_iff] at h
      obtain ⟨rfl, rfl, rfl, hd, rest, ⟨rfl, hrest⟩, hvalues⟩ := h
      obtain ⟨rfl, -⟩ := List.cons.inj hvalues
      exact ⟨rfl, hd⟩
  | a :: b :: c :: d :: e :: f :: rest => simp [completeRoute, capture] at h

theorem path_completion : (pathOf (completionSegments segment)).toList =
    "/admin/platform/media/".toList ++ (segment.toList ++ "/complete".toList) := by
  simp [pathOf, completionSegments, List.intercalate]

/-- The middleware parses the segment as it stands. -/
theorem completionAssetId_eq (hne : segment ≠ "") (hslash : '/' ∉ segment.toList) :
    completionAssetId config .post (pathOf (completionSegments segment)) = config.parseUuid segment := by
  have hnil : segment.toList ≠ [] := by simpa using hne
  rw [completionAssetId, if_pos rfl, path_completion, isPrefixOf?_append, Option.bind_some, isSuffixOf?_append,
    Option.bind_some, if_neg (by simp [hnil, hslash]), String.ofList_toList]

/-- The access-control table answers only where the segment is an identifier. -/
theorem parses_of_classified {state : AppState} {json : Option Json} {answer : RequestClass}
    (hne : segment ≠ "") (hslash : '/' ∉ segment.toList)
    (h : classifyRequest state .post (pathOf (completionSegments segment)) json = .ok answer) :
    ∃ id, state.parseUuid segment = some id := by
  have hsplit : splitPath (pathOf (completionSegments segment)) = completionSegments segment := by
    refine splitPath_pathOf (by simp [completionSegments]) fun s hs => ?_
    simp only [completionSegments, List.mem_cons, List.not_mem_nil, or_false] at hs
    rcases hs with rfl | rfl | rfl | rfl | rfl
    · decide
    · decide
    · decide
    · exact ⟨hne, hslash⟩
    · decide
  have hprivate : isPublicRequest .post (pathOf (completionSegments segment)) = false := by
    simp [isPublicRequest, startsWith, ← String.toList_inj, path_completion]
  rw [classifyRequest, if_neg (by simp [hprivate]), hsplit] at h
  simp [classifySegments, classifyAdmin, completionSegments, Access.segment] at h
  obtain ⟨pool, -, id, hid, -⟩ := h
  exact ⟨id, okOr_eq_ok.mp hid⟩

/-- The router delivers the request to `complete_upload`, for this asset. -/
def Delivers (config : Config) (request : CompletionRequest) (id : Uuid) : Prop :=
  request.method = completeRoute.method ∧ ∃ segment,
    (pathSegments request.path).bind (capture completeRoute.pattern) = some [segment] ∧
      (config.percentDecode segment).bind config.parseUuid = some id

/-- **The middleware locks what the handler completes.** -/
theorem completionAssetId_of_delivers (hconforms : config.Conforms) {request : CompletionRequest}
    {db : Database} {answer : RequestClass}
    (hclass : classifyRequest (config.appState db) request.method request.path request.json = .ok answer)
    (hdelivers : Delivers config request id) :
    completionAssetId config request.method request.path = some id := by
  obtain ⟨hmethod, segment, hcaptured, hid⟩ := hdelivers
  obtain ⟨segments, hsegments, hcapture⟩ := Option.bind_eq_some_iff.mp hcaptured
  obtain ⟨rfl, hne⟩ := capture_completeRoute hcapture
  obtain ⟨hpath, hslash⟩ := pathSegments_eq (by simp [completionSegments]) hsegments
  have hplain := hslash segment (by simp [completionSegments])
  rw [hmethod, hpath] at hclass ⊢
  -- the table has parsed the segment, so that there is nothing to decode
  obtain ⟨id', hid'⟩ := parses_of_classified hne hplain hclass
  rw [hconforms.decodes segment (hconforms.plain segment id' hid')] at hid
  exact (completionAssetId_eq hne hplain).trans hid

end CrownFi.Media
