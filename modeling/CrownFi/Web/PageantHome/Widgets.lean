import CrownFi.Lib.Trim
import Mathlib.Data.List.Basic

/-!
# CrownFi.Web.PageantHome.Widgets

The widgets of a pageant's home page (`web/src/lib/pageantHome.ts`): their default texts, and how a
stored value, whatever it is, is made into a list of widgets.

Texts are those of the language, lists of UTF-16 code units. An object spread copies every property
that is there, also one whose value is `undefined`.
-/

namespace CrownFi.Web.PageantHome

open Lib

/-! ### Values -/

/-- A text, by its code units. -/
abbrev Text := List UInt16

/-- The text of a literal, whose characters have one code unit each. -/
def text (literal : String) : Text := literal.toList.map fun c => UInt16.ofNat c.toNat

/-- A JSON value. Nothing is read of a number. -/
inductive Value
  | null
  | bool (b : Bool)
  | number
  | string (t : Text)
  | array (items : List Value)
  | object (fields : List (Text × Value))

namespace Value

/-- Truthy, and of type `object`. -/
def isObject : Value → Bool
  | array _ | object _ => true
  | _ => false

/-- A property, `none` for `undefined`: the last binding of a repeated key counts, and arrays have
no property with a name. -/
def get (key : Text) : Value → Option Value
  | object fields => (fields.reverse.find? (·.1 = key)).map (·.2)
  | _ => none

end Value

/-- The code units that `String.prototype.trim` removes. -/
def isSpace (u : UInt16) : Bool :=
  (9 ≤ u && u ≤ 13) || u = 0x20 || u = 0xA0 || u = 0x1680 || (0x2000 ≤ u && u ≤ 0x200A) ||
    u = 0x2028 || u = 0x2029 || u = 0x202F || u = 0x205F || u = 0x3000 || u = 0xFEFF

/-! ### Widgets -/

inductive PageantHomeWidgetId
  | hero
  | delegates
  | categories
  | collectible
  | tickets
  | about
  | footer
  deriving DecidableEq, Repr

def pageantHomeWidgetIds : List PageantHomeWidgetId :=
  [.hero, .delegates, .categories, .collectible, .tickets, .about, .footer]

def PageantHomeWidgetId.name : PageantHomeWidgetId → String
  | hero => "hero"
  | delegates => "delegates"
  | categories => "categories"
  | collectible => "collectible"
  | tickets => "tickets"
  | about => "about"
  | footer => "footer"

/-- A property of an object: not there, or there with a text or with `undefined`. -/
abbrev Property := Option (Option Text)

structure PageantHomeWidgetSettings where
  eyebrow : Property
  title : Property
  subtitle : Property
  description : Property
  ctaText : Property
  deriving DecidableEq

/-- `{ ...settings, ...others }`. -/
def PageantHomeWidgetSettings.spread (settings others : PageantHomeWidgetSettings) :
    PageantHomeWidgetSettings where
  eyebrow := others.eyebrow.or settings.eyebrow
  title := others.title.or settings.title
  subtitle := others.subtitle.or settings.subtitle
  description := others.description.or settings.description
  ctaText := others.ctaText.or settings.ctaText

structure PageantHomeWidget where
  id : PageantHomeWidgetId
  enabled : Bool
  settings : PageantHomeWidgetSettings
  deriving DecidableEq

/-- A property of a literal. -/
def literal (value : String) : Property := some (some (text value))

def defaultPageantHomeWidgets : List PageantHomeWidget :=
  [{ id := .hero
     enabled := true
     settings :=
      { eyebrow := literal "CrownFi Pageant Experience"
        title := none
        subtitle := literal "VOTE · ATTEND · SUPPORT · VERIFY"
        description := none
        ctaText := literal "Cast your vote" } },
   { id := .delegates
     enabled := true
     settings :=
      { eyebrow := literal "Official lineup"
        title := literal "Meet the delegates"
        subtitle := none
        description := literal
          "Explore the official contestants and open the experience built around your chosen queen."
        ctaText := none } },
   { id := .categories
     enabled := true
     settings :=
      { eyebrow := literal "Competition format"
        title := literal "Pageant categories"
        subtitle := none
        description := literal
          "Every category is configured by the organizer and remains tied to this pageant context."
        ctaText := none } },
   { id := .collectible
     enabled := true
     settings :=
      { eyebrow := literal "Featured collectible"
        title := none
        subtitle := none
        description := literal
          ("Support an official contestant through a limited digital keepsake tied to the " ++
            "CrownFi experience.")
        ctaText := literal "View collectibles" } },
   { id := .tickets
     enabled := true
     settings :=
      { eyebrow := none
        title := literal "Reserved seating and verified passes"
        subtitle := none
        description := literal
          ("Choose a tier, receive a verifiable event pass, and assign the seat attached to your " ++
            "ticket.")
        ctaText := literal "Browse tickets" } },
   { id := .about
     enabled := true
     settings :=
      { eyebrow := literal "Pageant overview"
        title := literal "About this CrownFi experience"
        subtitle := none
        description := none
        ctaText := literal "Explore all pageants" } },
   { id := .footer
     enabled := true
     settings := { eyebrow := none, title := none, subtitle := none, description := none, ctaText := none } }]

/-- The default with this id; each id has one. -/
def defaultWidget (id : PageantHomeWidgetId) : PageantHomeWidget :=
  (defaultPageantHomeWidgets.find? (·.id = id)).getD ⟨id, true, ⟨none, none, none, none, none⟩⟩

/-! ### Normalising -/

def cleanText (value : Option Value) (max : Nat) : Option Text :=
  match value with
  | some (.string t) =>
      let text := trim isSpace t
      if text = [] then none else some (text.take max)
  | _ => none

/-- Each of the five properties is there, if only with `undefined`. -/
def cleanSettings (value : Option Value) : PageantHomeWidgetSettings :=
  let property (key : String) :=
    value.bind fun settings => if settings.isObject then settings.get (text key) else none
  { eyebrow := some (cleanText (property "eyebrow") 120)
    title := some (cleanText (property "title") 200)
    subtitle := some (cleanText (property "subtitle") 220)
    description := some (cleanText (property "description") 1200)
    ctaText := some (cleanText (property "ctaText") 80) }

/-- The id of a candidate, if it is an object with a known one. -/
def candidateId (candidate : Value) : Option PageantHomeWidgetId :=
  if candidate.isObject then
    match candidate.get (text "id") with
    | some (.string t) => pageantHomeWidgetIds.find? fun id => text id.name = t
    | _ => none
  else none

/-- The widget of a candidate with this id. -/
def candidateWidget (id : PageantHomeWidgetId) (candidate : Value) : PageantHomeWidget :=
  let fallback := defaultWidget id
  { id
    enabled :=
      match candidate.get (text "enabled") with
      | some (.bool enabled) => enabled
      | _ => fallback.enabled
    settings := fallback.settings.spread (cleanSettings (candidate.get (text "settings"))) }

/-- The loop over the candidates, after those with the ids of `seen`. -/
def normalizeCandidates : List PageantHomeWidgetId → List Value → List PageantHomeWidget
  | _, [] => []
  | seen, candidate :: rest =>
      match candidateId candidate with
      | none => normalizeCandidates seen rest
      | some id =>
          if id ∈ seen then normalizeCandidates seen rest
          else candidateWidget id candidate :: normalizeCandidates (id :: seen) rest

def Value.candidates : Value → List Value
  | array items => items
  | _ => []

def normalizePageantHomeWidgets (value : Value) : List PageantHomeWidget :=
  let normalized := normalizeCandidates [] value.candidates
  -- the ids that were seen are those of the widgets so far
  normalized ++ defaultPageantHomeWidgets.filter (·.id ∉ normalized.map (·.id))

end CrownFi.Web.PageantHome
