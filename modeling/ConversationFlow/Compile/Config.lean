import ConversationFlow.Compile.Content
import ConversationFlow.Compile.Value
import ConversationFlow.Editor.NodeKind

/-!
# Configurations from data

How each kind of node turns the data of the editor into its configuration. A field takes the first
truthy value of one or several keys, or has a fallback; what a key holds is then read as the field,
so wrong data are reported under the name of the field.
-/

namespace ConversationFlow.Compile

open Schema Executable
open Editor (NodeKind)

variable [Host]

/-- The first truthy value of the data of a node under some keys, else a fallback. -/
def firstOf (n : Editor.Node) (keys : List Text) (fallback : Json) : Json :=
  .first (keys.map n.value) fallback

/-- What a value is converted to, unless there is an obstacle. -/
def convert {α : Type} (r : Except Obstacle α) : NodeJob α :=
  Job.of (r.mapError .obstructed)

/-- A message; it is rich if it has more than text. -/
def messageConfig (content : Json) (buttons : List MessageButton) (rich : Option RichContent) :
    Reading MessageConfig :=
  (fun content =>
      ⟨content, if buttons.isEmpty && rich.isNone then .text else .rich, rich, nonempty? buttons⟩)
    <$> Keys.content.reads text content

def compileMessage (n : Editor.Node) : NodeJob MessageConfig := do
  let buttons ← compileButtons (n.value "buttons")
  build (messageConfig (firstOf n ["text", "content"] (.str "")) buttons none)

/-- A message that shows media on a card, above its buttons. -/
def compileMediaMessage (n : Editor.Node) : NodeJob MessageConfig := do
  let card ← build <| (fun title imageUrl => (⟨title, none, imageUrl, none⟩ : CardItem))
    <$> Keys.title.reads text (firstOf n ["text", "label"] (.str ""))
    <*> Keys.imageUrl.reads (nullable text) (n.value "mediaUrl")
  let buttons ← compileButtons (n.value "buttons")
  build (messageConfig (firstOf n ["text", "mediaUrl"] (.str "")) buttons (some ⟨.card, [card]⟩))

def compileCarousel (n : Editor.Node) : NodeJob MessageConfig := do
  let cards ← compileCards (n.value "cards")
  build (messageConfig (firstOf n ["text"] (.str "")) [] (some ⟨.carousel, cards⟩))

def compileDynamicText (n : Editor.Node) : NodeJob MessageConfig :=
  build (messageConfig (firstOf n ["text", "content"] (.str "")) [] none)

/-- The variable for the answer to a question that names none. -/
def answerVariable (nodeId : Text) : Text :=
  "answer_" ++ nodeId

/-- A question from the values for it; the kind of answer and the number of retries are named alike
in every kind of node that asks. -/
def questionConfig (n : Editor.Node) (question variableName regex : Json) :
    Reading QuestionConfig :=
  QuestionConfig.mk
    <$> Keys.question.reads text question
    <*> Keys.expectedInputType.reads choice (firstOf n ["inputType"] (.str "text"))
    <*> Keys.saveToVariable.reads text variableName
    <*> Keys.validationRegex.reads (nullable text) regex
    <*> Keys.validationMessage.reads (nullable text) (n.value "validationMessage")
    <*> Keys.maxRetries.reads integer (firstOf n ["maxRetries"] (.int 3))

def compileQuestion (n : Editor.Node) : NodeJob QuestionConfig :=
  build (questionConfig n
    (firstOf n ["question", "text"] (.str ""))
    (firstOf n ["variable"] (.str (answerVariable n.id)))
    (n.value "validationRegex"))

def compileInput (n : Editor.Node) : NodeJob QuestionConfig :=
  build (questionConfig n
    (firstOf n ["question", "text", "placeholder"] (.str ""))
    (firstOf n ["saveToVariable", "variable"] (.str (answerVariable n.id)))
    (firstOf n ["validation", "validationRegex"] .null))

def compileCondition (n : Editor.Node) : NodeJob ConditionConfig :=
  build <| (fun expression => ⟨expression, .simple⟩)
    <$> Keys.expression.reads text (firstOf n ["condition"] (.str ""))

/-- The expression of the first entry of a list of conditions, if that is an object. -/
def firstExpression (conditions : Json) : Json :=
  match conditions.items with
  | .obj entry :: _ => Json.field entry "expression"
  | _ => .null

/-- A condition on an expression of the author, or on the first one of a list. -/
def compileAdvancedCondition (n : Editor.Node) : NodeJob ConditionConfig :=
  build <| (fun expression => ⟨expression, .javascript⟩)
    <$> Keys.expression.reads text
      (.first [n.value "condition", firstExpression (n.value "conditions")] (.str ""))

def responseVariable (nodeId : Text) : Text :=
  "api_response_" ++ nodeId

/-- A request; its body is written before everything else is read. -/
def compileApi (n : Editor.Node) : NodeJob ApiConfig := do
  let body ← convert (writeText (n.value "body"))
  build <| (fun method url headers auth timeout retries saveResponseTo =>
      ⟨method, url, headers, body, auth, timeout, retries, saveResponseTo, true⟩)
    <$> Keys.method.reads choice (firstOf n ["method"] (.str "GET"))
    <*> Keys.url.reads text (firstOf n ["apiUrl", "url"] (.str ""))
    <*> Keys.headers.reads (mapping .values text) (firstOf n ["headers"] (.obj []))
    <*> Keys.auth.reads (nullable (Record.read .values)) (n.value "auth")
    <*> Keys.timeout.reads integer (firstOf n ["timeout"] (.int 5000))
    <*> Keys.retries.reads integer (firstOf n ["retries"] (.int 0))
    <*> Keys.saveResponseTo.reads text
      (firstOf n ["saveResponseTo"] (.str (responseVariable n.id)))

/-- A delay; what its duration begins with is read before its unit. -/
def compileDelay (n : Editor.Node) : NodeJob DelayConfig := do
  let duration ← convert (parseInt (firstOf n ["delay", "duration"] (.str "0")))
  build <| (fun unit => ⟨duration, unit⟩)
    <$> Keys.unit.reads choice (firstOf n ["unit"] (.str "seconds"))

def compileAction (n : Editor.Node) : NodeJob ActionConfig :=
  build <| ActionConfig.mk
    <$> Keys.actionType.reads choice (firstOf n ["actionType"] (.str "webhook"))
    <*> Keys.parameters.reads (mapping .values anything) (firstOf n ["parameters"] (.obj []))

def formVariable (nodeId : Text) : Text :=
  "form_" ++ nodeId

def compileForm (n : Editor.Node) : NodeJob FormConfig := do
  let fields ← compileFormFields (n.value "fields")
  build <| FormConfig.mk fields
    <$> Keys.submitButtonText.reads text (firstOf n ["submitButtonText"] (.str "Submit"))
    <*> Keys.saveToVariable.reads text (firstOf n ["saveToVariable"] (.str (formVariable n.id)))

/-- An assignment to a variable; its value is always a text, which is written first. -/
def compileAssignment (n : Editor.Node) : NodeJob VariableConfig := do
  let value ← convert (writeText (firstOf n ["value", "variableValue"] (.str "")))
  build <| (fun name operation => ⟨name, operation, value.getD ""⟩)
    <$> Keys.variableName.reads text (firstOf n ["variable", "variableName"] (.str "temp"))
    <*> Keys.operation.reads choice (firstOf n ["operation"] (.str "set"))

def compileTag (n : Editor.Node) : NodeJob TagConfig :=
  build <| TagConfig.mk
    <$> Keys.tagNames.reads (list .values text) (firstOf n ["tags", "tagNames"] (.arr []))
    <*> Keys.operation.reads choice (firstOf n ["operation"] (.str "add"))

def compileSegment (n : Editor.Node) : NodeJob SegmentConfig :=
  build <| SegmentConfig.mk
    <$> Keys.segmentId.reads text (firstOf n ["segmentId", "segmentName"] (.str ""))
    <*> Keys.operation.reads choice (firstOf n ["operation"] (.str "add"))

/-- Whether the flow ends with a transfer; it does unless something is said about it. -/
def endsFlow (v : Json) : Json :=
  if v = .null then .bool true else v

def compileTransferAgent (n : Editor.Node) : NodeJob TransferAgentConfig :=
  build <| TransferAgentConfig.mk
    <$> Keys.assignmentType.reads choice (firstOf n ["assignmentType"] (.str "round_robin"))
    <*> Keys.agentId.reads (nullable integer) (n.value "agentId")
    <*> Keys.teamId.reads (nullable integer) (n.value "teamId")
    <*> Keys.message.reads (nullable text) (n.value "message")
    <*> Keys.endFlow.reads boolean (endsFlow (n.value "endFlow"))

def compileEnd (n : Editor.Node) : NodeJob EndConfig :=
  build <| EndConfig.mk
    <$> Keys.reason.reads choice (firstOf n ["reason"] (.str "completed"))
    <*> Keys.message.reads (nullable text) (n.value "message")

def compileConfig (n : Editor.Node) : NodeKind → NodeJob Config
  | .executable .start => pure (.start ⟨⟩)
  | .executable .message => .message <$> compileMessage n
  | .executable .question => .question <$> compileQuestion n
  | .executable .condition => .condition <$> compileCondition n
  | .executable .api => .api <$> compileApi n
  | .executable .delay => .delay <$> compileDelay n
  | .executable .action => .action <$> compileAction n
  | .executable .form => .form <$> compileForm n
  | .executable .assignment => .assignment <$> compileAssignment n
  | .executable .tag => .tag <$> compileTag n
  | .executable .segment => .segment <$> compileSegment n
  | .executable .transferAgent => .transferAgent <$> compileTransferAgent n
  | .executable .finish => .finish <$> compileEnd n
  | .advancedCondition => .condition <$> compileAdvancedCondition n
  | .input => .question <$> compileInput n
  | .mediaMessage => .message <$> compileMediaMessage n
  | .carousel => .message <$> compileCarousel n
  | .dynamicText => .message <$> compileDynamicText n

end ConversationFlow.Compile
