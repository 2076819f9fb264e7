import ConversationFlow.Number.Binary64
import ConversationFlow.Table

/-!
# JSON values

Documents as they are read and written: integers of any size apart from binary64 numbers, and
objects as lists of fields in the order in which they came.
-/

namespace ConversationFlow

inductive Json where
  | null
  | bool (value : Bool)
  | int (value : Int)
  | float (value : Binary64)
  | str (text : Text)
  | arr (items : List Json)
  | obj (fields : List (Text × Json))

namespace Json

instance : Inhabited Json := ⟨.null⟩

mutual

def decideEq : (a b : Json) → Decidable (a = b)
  | .null, .null => isTrue rfl
  | .bool a, .bool b => if h : a = b then isTrue (by rw [h]) else isFalse (by simpa using h)
  | .int a, .int b => if h : a = b then isTrue (by rw [h]) else isFalse (by simpa using h)
  | .float a, .float b => if h : a = b then isTrue (by rw [h]) else isFalse (by simpa using h)
  | .str a, .str b => if h : a = b then isTrue (by rw [h]) else isFalse (by simpa using h)
  | .arr a, .arr b =>
    match decideEqItems a b with
    | isTrue h => isTrue (by rw [h])
    | isFalse h => isFalse (by simpa using h)
  | .obj a, .obj b =>
    match decideEqFields a b with
    | isTrue h => isTrue (by rw [h])
    | isFalse h => isFalse (by simpa using h)
  | .null, .bool _ | .null, .int _ | .null, .float _ | .null, .str _ | .null, .arr _
  | .null, .obj _ | .bool _, .null | .bool _, .int _ | .bool _, .float _ | .bool _, .str _
  | .bool _, .arr _ | .bool _, .obj _ | .int _, .null | .int _, .bool _ | .int _, .float _
  | .int _, .str _ | .int _, .arr _ | .int _, .obj _ | .float _, .null | .float _, .bool _
  | .float _, .int _ | .float _, .str _ | .float _, .arr _ | .float _, .obj _ | .str _, .null
  | .str _, .bool _ | .str _, .int _ | .str _, .float _ | .str _, .arr _ | .str _, .obj _
  | .arr _, .null | .arr _, .bool _ | .arr _, .int _ | .arr _, .float _ | .arr _, .str _
  | .arr _, .obj _ | .obj _, .null | .obj _, .bool _ | .obj _, .int _ | .obj _, .float _
  | .obj _, .str _ | .obj _, .arr _ => isFalse (by simp)
termination_by structural a => a

def decideEqItems : (a b : List Json) → Decidable (a = b)
  | [], [] => isTrue rfl
  | a :: as, b :: bs =>
    match decideEq a b, decideEqItems as bs with
    | isTrue h, isTrue h' => isTrue (by rw [h, h'])
    | isFalse h, _ => isFalse (by simp [h])
    | _, isFalse h => isFalse (by simp [h])
  | [], _ :: _ | _ :: _, [] => isFalse (by simp)
termination_by structural a => a

def decideEqFields : (a b : List (Text × Json)) → Decidable (a = b)
  | [], [] => isTrue rfl
  | a :: as, b :: bs =>
    match decideEqField a b, decideEqFields as bs with
    | isTrue h, isTrue h' => isTrue (by rw [h, h'])
    | isFalse h, _ => isFalse (by simp [h])
    | _, isFalse h => isFalse (by simp [h])
  | [], _ :: _ | _ :: _, [] => isFalse (by simp)
termination_by structural a => a

def decideEqField : (a b : Text × Json) → Decidable (a = b)
  | (k, a), (l, b) =>
    if hk : k = l then
      match decideEq a b with
      | isTrue h => isTrue (by rw [hk, h])
      | isFalse h => isFalse (by simp [h])
    else isFalse (by simp [hk])
termination_by structural a => a

end

instance : DecidableEq Json := decideEq

mutual

/-- The document with every binary64 number replaced. -/
def mapFloats (f : Binary64 → Json) : Json → Json
  | .float x => f x
  | .arr items => .arr (mapFloatsItems f items)
  | .obj fields => .obj (mapFloatsFields f fields)
  | .null => .null
  | .bool b => .bool b
  | .int n => .int n
  | .str s => .str s
termination_by structural v => v

def mapFloatsItems (f : Binary64 → Json) : List Json → List Json
  | [] => []
  | item :: rest => mapFloats f item :: mapFloatsItems f rest
termination_by structural items => items

def mapFloatsFields (f : Binary64 → Json) : List (Text × Json) → List (Text × Json)
  | [] => []
  | field :: rest => mapFloatsField f field :: mapFloatsFields f rest
termination_by structural fields => fields

def mapFloatsField (f : Binary64 → Json) : Text × Json → Text × Json
  | (key, value) => (key, mapFloats f value)
termination_by structural field => field

end

/-- A finite number, and null for every other one. -/
def ofFinite : Binary64 → Json
  | .finite negative m => .float (.finite negative m)
  | _ => .null

/-- The document with null in place of every number that is not finite. -/
def finite (v : Json) : Json :=
  v.mapFloats ofFinite

/-- Each field with null in place of every number that is not finite. -/
def finiteFields (fields : List (Text × Json)) : List (Text × Json) :=
  mapFloatsFields ofFinite fields

mutual

/-- The first text of a document, in the order in which it is written, that a surrogate stands in. -/
def firstBroken? : Json → Option Text
  | .str s => if s.isWhole then none else some s
  | .arr items => firstBrokenItem? items
  | .obj fields => firstBrokenField? fields
  | .null | .bool _ | .int _ | .float _ => none
termination_by structural v => v

def firstBrokenItem? : List Json → Option Text
  | [] => none
  | item :: rest => (firstBroken? item).or (firstBrokenItem? rest)
termination_by structural items => items

def firstBrokenField? : List (Text × Json) → Option Text
  | [] => none
  | field :: rest => (brokenIn? field).or (firstBrokenField? rest)
termination_by structural fields => fields

def brokenIn? : Text × Json → Option Text
  | (key, value) => if key.isWhole then firstBroken? value else some key
termination_by structural field => field

end

/-- The value of a field of an object, null if there is no such field. -/
def field (fields : List (Text × Json)) (key : Text) : Json :=
  (fields.lookup key).getD .null

/-- The items of a list; every other document counts as a list without items. -/
def items : Json → List Json
  | .arr items => items
  | _ => []

/-- Null, false, zeros and empty texts, lists and objects are not truthy, all else is. -/
def isTruthy : Json → Bool
  | .null => false
  | .bool b => b
  | .int n => n != 0
  | .float x => !x.isZero
  | .str s => s != ""
  | .arr items => !items.isEmpty
  | .obj fields => !fields.isEmpty

/-- The first truthy one of the values, else the fallback. -/
def first (values : List Json) (fallback : Json) : Json :=
  (values.find? isTruthy).getD fallback

/-- An object of fields of which some are absent; an absent one is written as null or not at all. -/
def record (nulls : Bool) (fields : List (Text × Option Json)) : Json :=
  .obj (fields.filterMap fun (key, value) =>
    match value with
    | some v => some (key, v)
    | none => if nulls then some (key, .null) else none)

end Json

end ConversationFlow
