import CrownFi.Api.Primitives

/-!
# CrownFi.Api.Json

JSON values as the handlers look into them. How a value is written as bytes is not
modelled: the handlers only hash the bytes.
-/

namespace CrownFi.Api

/-- A JSON value. A number that is not an integer is kept as its text. -/
inductive Json
  | null
  | bool (b : Bool)
  | int (n : Int)
  | float (text : String)
  | string (s : String)
  | array (items : List Json)
  | object (fields : List (String × Json))

namespace Json

/-- `Value::get` with a key: the last binding of a repeated key counts. -/
def get (key : String) : Json → Option Json
  | object fields => (fields.reverse.find? (·.1 = key)).map (·.2)
  | _ => none

def asStr : Json → Option String
  | string s => some s
  | _ => none

def asBool : Json → Option Bool
  | bool b => some b
  | _ => none

def asI64 : Json → Option Int
  | int n => if -2 ^ 63 ≤ n ∧ n < 2 ^ 63 then some n else none
  | _ => none

def getStr (key : String) (value : Json) : Option String := (value.get key).bind asStr

def isObject : Json → Bool
  | object _ => true
  | _ => false

/-- An optional text, as a value. -/
def ofOption : Option String → Json
  | some s => string s
  | none => null

/-! ### Equality -/

mutual

/-- Whether two values are the same. -/
def same : Json → Json → Bool
  | null, null => true
  | bool b, bool b' => b = b'
  | int n, int n' => n = n'
  | float t, float t' => t = t'
  | string s, string s' => s = s'
  | array items, array items' => sameItems items items'
  | object fields, object fields' => sameFields fields fields'
  | _, _ => false

def sameItems : List Json → List Json → Bool
  | [], [] => true
  | a :: as, b :: bs => same a b && sameItems as bs
  | _, _ => false

def sameFields : List (String × Json) → List (String × Json) → Bool
  | [], [] => true
  | (key, a) :: as, (key', b) :: bs => key = key' && same a b && sameFields as bs
  | _, _ => false

end

mutual

theorem same_iff : ∀ a b : Json, same a b = true ↔ a = b
  | null, b | bool _, b | int _, b | float _, b | string _, b => by cases b <;> simp [same]
  | array items, b => by
      cases b <;> simp [same]
      exact sameItems_iff _ _
  | object fields, b => by
      cases b <;> simp [same]
      exact sameFields_iff _ _

theorem sameItems_iff : ∀ as bs : List Json, sameItems as bs = true ↔ as = bs
  | [], bs => by cases bs <;> simp [sameItems]
  | a :: as, bs => by
      cases bs <;> simp [sameItems]
      rw [same_iff, sameItems_iff]

theorem sameFields_iff : ∀ as bs : List (String × Json), sameFields as bs = true ↔ as = bs
  | [], bs => by cases bs <;> simp [sameFields]
  | (key, a) :: as, bs => by
      cases bs with
      | nil => simp [sameFields]
      | cons field bs =>
          obtain ⟨key', b⟩ := field
          simp only [sameFields, Bool.and_eq_true, decide_eq_true_eq, List.cons.injEq, Prod.mk.injEq]
          rw [same_iff, sameFields_iff]

end

instance : DecidableEq Json := fun a b => decidable_of_iff _ (same_iff a b)

end Json

end CrownFi.Api
