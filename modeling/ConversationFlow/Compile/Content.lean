import ConversationFlow.Editor.Graph
import ConversationFlow.Executable.Config
import ConversationFlow.Failure
import ConversationFlow.Job

/-!
# Buttons, cards and form fields of the editor

Lists that an author has filled in. What is no list counts as an empty one, and entries that are no
objects are passed over.
-/

namespace ConversationFlow.Compile

open Schema Executable

/-- What a node of the editor compiles with. -/
abbrev NodeJob := Job Fault

def objectsOf (v : Json) : List (List (Text × Json)) :=
  v.items.filterMap fun
    | .obj fields => some fields
    | _ => none

def firstField (fields : List (Text × Json)) (keys : List Text) : Json :=
  .first (keys.map (Json.field fields)) (.str "")

/-- A record with a title from the reading of its parts. -/
def build {α : Type} [Record α] (r : Reading α) : NodeJob α :=
  Job.of (Fault.ofReading (Record.title α) r)

def nonempty? {α : Type} (items : List α) : Option (List α) :=
  if items.isEmpty then none else some items

/-- The button of an entry: a reply with its label, and its action or else its label as value. -/
def buttonOf (id : Text) (entry : List (Text × Json)) : Reading MessageButton :=
  (fun label value => ⟨id, label, .reply, value⟩)
    <$> Keys.label.reads text (firstField entry ["text", "label"])
    <*> Keys.value.reads text (firstField entry ["action", "text", "label"])

def compileButton (entry : List (Text × Json)) : NodeJob MessageButton := do
  let id ← Job.newId
  build (buttonOf id entry)

def compileButtons (v : Json) : NodeJob (List MessageButton) :=
  (objectsOf v).mapM compileButton

def cardOf (entry : List (Text × Json)) (buttons : List MessageButton) : Reading CardItem :=
  (fun title subtitle imageUrl => ⟨title, subtitle, imageUrl, nonempty? buttons⟩)
    <$> Keys.title.reads text (firstField entry ["title"])
    <*> Keys.subtitle.reads (nullable text) (Json.field entry "subtitle")
    <*> Keys.imageUrl.reads (nullable text) (Json.field entry "imageUrl")

/-- The card of a list entry; its buttons come first. -/
def compileCard (entry : List (Text × Json)) : NodeJob CardItem := do
  let buttons ← compileButtons (Json.field entry "buttons")
  build (cardOf entry buttons)

def compileCards (v : Json) : NodeJob (List CardItem) :=
  (objectsOf v).mapM compileCard

/-- The id of a field that has neither an id nor a name: its position among all entries. -/
def generatedFieldId (position : Nat) : Text :=
  "field_" ++ toString position

def formFieldOf (position : Nat) (entry : List (Text × Json)) : Reading FormField :=
  (fun id label type options =>
      ⟨id, label, type, (Json.field entry "required").isTruthy, options⟩)
    <$> Keys.id.reads text
      (.first [Json.field entry "id", Json.field entry "name"] (.str (generatedFieldId position)))
    <*> Keys.label.reads text (firstField entry ["label", "name", "placeholder"])
    <*> Keys.type.reads text (.first [Json.field entry "type"] (.str "text"))
    <*> Keys.options.reads (nullable (list .values text)) (Json.field entry "options")

/-- The form fields of entries, of which the first one stands at a position. -/
def formFieldsFrom : (position : Nat) → List Json → NodeJob (List FormField)
  | _, [] => pure []
  | position, .obj entry :: rest => do
    let field ← build (formFieldOf position entry)
    let more ← formFieldsFrom (position + 1) rest
    pure (field :: more)
  | position, _ :: rest => formFieldsFrom (position + 1) rest

def compileFormFields (v : Json) : NodeJob (List FormField) :=
  formFieldsFrom 0 v.items

end ConversationFlow.Compile
