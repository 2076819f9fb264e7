import ConversationFlow.Executable.Flow
import ConversationFlow.Proofs.Json.Value
import ConversationFlow.Proofs.Schema.Writing

/-!
# Shapes of documents

Which parts of a document that holds a flow are records, and which are free. A path through the
document takes the keys of records in the spelling of documents and all other keys as they are.
What is written of a value preserves a document if every path of the document that ends in
something occurs in it, and the records of the document have no key that is lost.
-/

namespace ConversationFlow.Executable

open Schema

/-- Characters in which a letter after an underscore stands for its capital. -/
def camelChars : List Char → List Char
  | '_' :: c :: rest => c.toUpper :: camelChars rest
  | c :: rest => c :: camelChars rest
  | [] => []

def camelCase (name : Text) : Text :=
  name.mapRuns fun run => String.ofList (camelChars run.toList)

/-- The records that a flow is made of. -/
inductive RecordKind where
  | flow
  | metadata
  | flowConfig
  | definition
  | node
  | transition
  | errorHandler
  | config (type : NodeType)
  | richContent
  | card
  | button
  | formField
  | auth
deriving DecidableEq

/-- What a part of a document is read as: anything, a record, or records in a list or under free
keys. -/
inductive Shape where
  | free
  | record (kind : RecordKind)
  | list (kind : RecordKind)
  | table (kind : RecordKind)
deriving DecidableEq

/-- The shape of the configuration for a type. -/
def Shape.ofType : Option NodeType → Shape
  | some type => .record (.config type)
  | none => .free

namespace RecordKind

def configKeys : NodeType → List Key
  | .start => Record.keys StartConfig
  | .message => Record.keys MessageConfig
  | .question => Record.keys QuestionConfig
  | .condition => Record.keys ConditionConfig
  | .api => Record.keys ApiConfig
  | .delay => Record.keys DelayConfig
  | .action => Record.keys ActionConfig
  | .form => Record.keys FormConfig
  | .assignment => Record.keys VariableConfig
  | .tag => Record.keys TagConfig
  | .segment => Record.keys SegmentConfig
  | .transferAgent => Record.keys TransferAgentConfig
  | .finish => Record.keys EndConfig

def keys : RecordKind → List Key
  | .flow => Record.keys Flow
  | .metadata => Record.keys Metadata
  | .flowConfig => Record.keys FlowConfig
  | .definition => Record.keys VariableDefinition
  | .node => Record.keys Node
  | .transition => Record.keys Transition
  | .errorHandler => Record.keys ErrorHandler
  | .config type => configKeys type
  | .richContent => Record.keys RichContent
  | .card => Record.keys CardItem
  | .button => Record.keys MessageButton
  | .formField => Record.keys FormField
  | .auth => Record.keys ApiAuth

/-- The shape of the configuration of a node with the given fields: its type tells. -/
def configShape (fields : List (Text × Json)) : Shape :=
  match fields.lookup ("type" : Text) with
  | some (.str type) => .ofType (NodeType.ofName? type)
  | _ => .free

/-- The shape of a field of a record, in the spelling of documents. -/
def part (kind : RecordKind) (fields : List (Text × Json)) (name : Text) : Shape :=
  match kind, name with
  | .flow, "metadata" => .record .metadata
  | .flow, "nodes" => .table .node
  | .flow, "config" => .record .flowConfig
  | .flowConfig, "variables" => .list .definition
  | .node, "config" => configShape fields
  | .node, "transitions" => .list .transition
  | .node, "errorHandler" => .record .errorHandler
  | .config .message, "richContent" => .record .richContent
  | .config .message, "buttons" => .list .button
  | .config .api, "auth" => .record .auth
  | .config .form, "fields" => .list .formField
  | .richContent, "items" => .list .card
  | .card, "buttons" => .list .button
  | _, _ => .free

/-- Both spellings of a key of a record come to the one of documents. -/
theorem camelCase_of_mem_keys {kind : RecordKind} :
    ∀ key ∈ kind.keys, camelCase key.document = key.document ∧
      camelCase key.plain = key.document := by
  cases kind with
  | config type => cases type <;> decide +kernel
  | flow | metadata | flowConfig | definition | node | transition | errorHandler | richContent
  | card | button | formField | auth => decide +kernel

theorem keysApart (kind : RecordKind) : KeysApart kind.keys := by
  cases kind with
  | config type => cases type <;> decide +kernel
  | flow | metadata | flowConfig | definition | node | transition | errorHandler | richContent
  | card | button | formField | auth => decide +kernel

theorem isWhole_of_mem_keys {kind : RecordKind} : ∀ key ∈ kind.keys, key.document.isWhole = true := by
  cases kind with
  | config type => cases type <;> decide
  | flow | metadata | flowConfig | definition | node | transition | errorHandler | richContent
  | card | button | formField | auth => decide

end RecordKind

namespace Shape

/-- The name of a key of an object in a path. -/
def name : Shape → Text → Text
  | record _, key => camelCase key
  | _, key => key

def field : Shape → List (Text × Json) → Text → Shape
  | record kind, fields, key => kind.part fields (camelCase key)
  | table kind, _, _ => .record kind
  | free, _, _ | list _, _, _ => .free

def item : Shape → Shape
  | list kind => .record kind
  | free | record _ | table _ => .free

end Shape

/-- A path leads from a document of a shape to a part of it, which has a shape as well. -/
inductive Reaches : Shape → Json → List Step → Shape → Json → Prop
  | here {shape : Shape} {v : Json} : Reaches shape v [] shape v
  | field {shape target : Shape} {fields : List (Text × Json)} {key : Text} {v part : Json}
    {path : List Step} (h : (key, v) ∈ fields)
    (rest : Reaches (shape.field fields key) v path target part) :
    Reaches shape (.obj fields) (.key (shape.name key) :: path) target part
  | item {shape target : Shape} {items : List Json} {i : Nat} {v part : Json} {path : List Step}
    (h : items[i]? = some v) (rest : Reaches shape.item v path target part) :
    Reaches shape (.arr items) (.index i :: path) target part

/-- A path occurs in a document, all keys taken as they are. -/
def HasPath (v : Json) (path : List Step) : Prop :=
  ∃ part, Reaches .free v path .free part

/-- A path ends in a value that is neither null nor made of others. -/
def IsEnd : Json → Prop
  | .null => False
  | .arr items => items = []
  | .obj fields => fields = []
  | .bool _ | .int _ | .float _ | .str _ => True

/-- The keys of an object are spellings of known keys, and no two of them are spellings of one. -/
structure WellKeyed (keys : List Key) (fields : List (Text × Json)) : Prop where
  known : ∀ entry ∈ fields, ∃ key ∈ keys, entry.1 = key.document ∨ entry.1 = key.plain
  once : (fields.map fun entry => camelCase entry.1).Nodup

/-- Whatever a path of a document ends in, the path occurs in what is written; and where a record
may stand, there is null or an object with its keys. -/
structure Preserved (shape : Shape) (v written : Json) : Prop where
  paths : ∀ path target part, Reaches shape v path target part → IsEnd part → HasPath written path
  records : ∀ path kind part, Reaches shape v path (.record kind) part →
    part = .null ∨ ∃ fields, part = .obj fields ∧ WellKeyed kind.keys fields

section Preserved

variable {shape : Shape} {v written : Json}

theorem hasPath_nil (v : Json) : HasPath v [] :=
  ⟨v, .here⟩

theorem HasPath.key {fields : List (Text × Json)} {key : Text} {path : List Step}
    (hmem : (key, v) ∈ fields) (h : HasPath v path) : HasPath (.obj fields) (.key key :: path) := by
  obtain ⟨part, hpart⟩ := h
  have hreaches : Reaches .free (.obj fields) (.key (Shape.name .free key) :: path) .free part :=
    .field hmem hpart
  exact ⟨part, hreaches⟩

theorem HasPath.index {items : List Json} {i : Nat} {path : List Step}
    (hitem : items[i]? = some v) (h : HasPath v path) :
    HasPath (.arr items) (.index i :: path) := by
  obtain ⟨part, hpart⟩ := h
  have hreaches : Reaches .free (.arr items) (.index i :: path) .free part :=
    .item hitem hpart
  exact ⟨part, hreaches⟩

theorem eq_null_of_reaches {target : Shape} {part : Json} {path : List Step}
    (h : Reaches shape .null path target part) : part = .null := by
  cases h
  rfl

theorem preserved_null (shape : Shape) (written : Json) : Preserved shape .null written := by
  constructor
  · intro path target part hreaches hend
    rw [eq_null_of_reaches hreaches] at hend
    exact hend.elim
  · intro path kind part hreaches
    exact .inl (eq_null_of_reaches hreaches)

/-- A free value without parts is preserved by whatever is written of it. -/
theorem preserved_of_leaf (hobj : ∀ fields, v ≠ .obj fields) (harr : ∀ items, v ≠ .arr items)
    (written : Json) : Preserved .free v written := by
  constructor
  · intro path target part hreaches _
    cases hreaches with
    | here => exact hasPath_nil written
    | field => exact absurd rfl (hobj _)
    | item => exact absurd rfl (harr _)
  · intro path kind part hreaches
    cases hreaches with
    | field => exact absurd rfl (hobj _)
    | item => exact absurd rfl (harr _)

/-- An object is preserved if each of its values is, under the name that its key has in paths; null
values may be left out. -/
theorem preserved_obj {fields entries : List (Text × Json)}
    (hkeyed : ∀ kind, shape = .record kind → WellKeyed kind.keys fields)
    (h : ∀ field ∈ fields, field.2 = .null ∨ ∃ w, (shape.name field.1, w) ∈ entries ∧
      Preserved (shape.field fields field.1) field.2 w) :
    Preserved shape (.obj fields) (.obj entries) := by
  constructor
  · intro path target part hreaches hend
    cases hreaches with
    | here => exact hasPath_nil _
    | field hmem hrest =>
      rcases h _ hmem with hnull | ⟨w, hw, hpreserved⟩
      · dsimp only at hnull
        rw [hnull] at hrest
        rw [eq_null_of_reaches hrest] at hend
        exact hend.elim
      · exact .key hw (hpreserved.paths _ _ _ hrest hend)
  · intro path kind part hreaches
    cases hreaches with
    | here => exact .inr ⟨fields, rfl, hkeyed kind rfl⟩
    | field hmem hrest =>
      rcases h _ hmem with hnull | ⟨w, hw, hpreserved⟩
      · dsimp only at hnull
        rw [hnull] at hrest
        exact .inl (eq_null_of_reaches hrest)
      · exact hpreserved.records _ _ _ hrest

theorem preserved_arr {items ws : List Json} (hshape : ∀ kind, shape ≠ .record kind)
    (h : List.Forall₂ (Preserved shape.item) items ws) :
    Preserved shape (.arr items) (.arr ws) := by
  constructor
  · intro path target part hreaches hend
    cases hreaches with
    | here => exact hasPath_nil _
    | item hitem hrest =>
      obtain ⟨w, hw, hpreserved⟩ := exists_getElem?_of_forall₂ h hitem
      exact .index hw (hpreserved.paths _ _ _ hrest hend)
  · intro path kind part hreaches
    cases hreaches with
    | here => exact absurd rfl (hshape kind)
    | item hitem hrest =>
      obtain ⟨w, -, hpreserved⟩ := exists_getElem?_of_forall₂ h hitem
      exact hpreserved.records _ _ _ hrest

/-- A free value is preserved by the one with null in place of its numbers that are not finite. -/
theorem preserved_finite (v : Json) : Preserved .free v v.finite := by
  induction v with
  | null => exact preserved_null .free _
  | bool | int | float | str => exact preserved_of_leaf (by simp) (by simp) _
  | arr items ih =>
    rw [Json.finite, Json.mapFloats, Json.mapFloatsItems_eq]
    refine preserved_arr (by simp) ?_
    rw [List.forall₂_map_right_iff, List.forall₂_same]
    exact ih
  | obj fields ih =>
    rw [Json.finite, Json.mapFloats, Json.mapFloatsFields_eq]
    refine preserved_obj (by simp) fun field hfield => .inr ⟨field.2.finite, ?_, ih field hfield⟩
    exact List.mem_map.2 ⟨field, hfield, rfl⟩

end Preserved

end ConversationFlow.Executable
