import ConversationFlow.Schema.Scalar

/-!
# Reading lists, mappings and records

Readers for composite values. A record is an object with known fields, each of which has two
spellings: the one of documents, which comes first, and the plain one. A record says what becomes of
keys that are no fields of it.
-/

namespace ConversationFlow.Schema

variable {α : Type}

/-- The readings of items, of which the first one is at `position`. -/
def itemsFrom (read : Json → Reading α) : (position : Nat) → List Json → Reading (List α)
  | _, [] => pure []
  | position, v :: rest =>
    List.cons <$> (read v).under (.index position) <*> itemsFrom read (position + 1) rest

def list (source : Source) (read : Json → Reading α) (v : Json) : Reading (List α) :=
  match v with
  | .arr items => itemsFrom read 0 items
  | _ => .refuse (.notSequence source) v

def entriesOf (read : Json → Reading α) : List (Text × Json) → Reading (List (Text × α))
  | [] => pure []
  | (key, v) :: rest =>
    (fun a more => (key, a) :: more) <$> (read v).under (.key key.legible) <*> entriesOf read rest

/-- An object whose keys are free. -/
def mapping (source : Source) (read : Json → Reading α) (v : Json) : Reading (Table α) :=
  match v with
  | .obj fields => (entriesOf read fields).map Table.ofList
  | _ => .refuse (.notMapping source) v

def nullable (read : Json → Reading α) : Json → Reading (Option α)
  | .null => .accepted none
  | v => some <$> read v

/-- The name of a field: its spelling in documents, and its plain one. -/
structure Key where
  document : Text
  plain : Text
deriving DecidableEq, Repr

def Key.same (name : Text) : Key := ⟨name, name⟩

/-- The reading of a value that is given for a field under its plain spelling. -/
def Key.reads (key : Key) (read : Json → Reading α) (v : Json) : Reading α :=
  (read v).under (.key key.plain)

/-- A field of a written record that always has a value. -/
def Key.holds (key : Key) (v : Json) : Text × Option Json := (key.document, some v)

def Key.mayHold (key : Key) (v : Option Json) : Text × Option Json := (key.document, v)

structure Fields where
  entries : List (Text × Json)

namespace Fields

def asJson (fields : Fields) : Json := .obj fields.entries

/-- The spelling under which a field is given, and its value; the spelling of documents wins. -/
def find? (fields : Fields) (key : Key) : Option (Text × Json) :=
  match fields.entries.lookup key.document with
  | some v => some (key.document, v)
  | none => (fields.entries.lookup key.plain).map (key.plain, ·)

def required (fields : Fields) (key : Key) (read : Json → Reading α) : Reading α :=
  match fields.find? key with
  | some (spelling, v) => (read v).under (.key spelling)
  | none => .refused [⟨.missing, [.key key.document], fields.asJson⟩]

def defaulted (fields : Fields) (key : Key) (fallback : α) (read : Json → Reading α) : Reading α :=
  match fields.find? key with
  | some (spelling, v) => (read v).under (.key spelling)
  | none => .accepted fallback

/-- A field that may be left out or null. -/
def optional (fields : Fields) (key : Key) (read : Json → Reading α) : Reading (Option α) :=
  fields.defaulted key none (nullable read)

def used (fields : Fields) (keys : List Key) : List Text :=
  keys.filterMap fun key => (fields.find? key).map Prod.fst

/-- The plain names of the fields that are given. -/
def given (fields : Fields) (keys : List Key) : List Text :=
  (keys.filter fun key => (fields.find? key).isSome).map Key.plain

/-- A complaint about every key that is no spelling of a field that was used. -/
def closed (fields : Fields) (keys : List Key) : Reading Unit :=
  let extra := fields.entries.filter fun entry => entry.1 ∉ fields.used keys
  if extra.isEmpty then .accepted ()
  else .refused (extra.map fun (key, v) => ⟨.extraKey, [.key key], v⟩)

/-- A complaint about the first key in which a surrogate stands. -/
def spelled (fields : Fields) : Reading Unit :=
  match fields.entries.find? fun entry => !entry.1.isWhole with
  | some (key, _) => .refuse .notUnicode (.str key)
  | none => .accepted ()

end Fields

/-- An object that is read as a record with a title. -/
def object (title : Text) (source : Source) (read : Fields → Reading α) (v : Json) : Reading α :=
  match v with
  | .obj entries => read ⟨entries⟩
  | _ => .refuse (.notRecord title source) v

/-- What becomes of the keys of an object that are no fields of the record. -/
inductive ExtraKeys where
  | refused
  | ignored
  | kept
deriving DecidableEq, Repr

/-- A type that is read from objects with known fields and written to them. -/
class Record (α : Type) where
  title : Text
  keys : List Key
  extraKeys : ExtraKeys
  /-- What is read before all fields; what it finds hides everything else. -/
  foremost : Source → Fields → Reading Unit := fun _ _ => .accepted ()
  readFields : Source → Fields → Reading α
  write : (nulls : Bool) → α → Json

namespace Record

variable [Record α]

def read (source : Source) (v : Json) : Reading α :=
  object (Record.title α) source (fun fields =>
    (Record.foremost α source fields).andThen fun _ =>
      match Record.extraKeys α with
      | .refused =>
        (readFields source fields <* fields.closed (Record.keys α)).checkedBy fields.spelled
      | .ignored => readFields source fields
      | .kept => (readFields source fields).checkedBy fields.spelled) v

/-- The plain names of the fields that a document gives, keys that are kept included. -/
def given (α : Type) [Record α] : Json → List Text
  | .obj entries =>
    match Record.extraKeys α with
    | .kept => entries.map Prod.fst
    | _ => Fields.given ⟨entries⟩ (Record.keys α)
  | _ => []

def writeAll (nulls : Bool) (records : List α) : Json :=
  .arr (records.map (write nulls))

end Record

def writeTexts (texts : List Text) : Json :=
  .arr (texts.map .str)

def writeTextTable (t : Table Text) : Json :=
  .obj (t.entries.map fun (key, s) => (key, .str s))

def writeChoice {α : Type} [Choice α] (a : α) : Json :=
  .str (Choice.name a)

end ConversationFlow.Schema
