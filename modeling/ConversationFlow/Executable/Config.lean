import ConversationFlow.Executable.Content
import ConversationFlow.Executable.NodeType

/-!
# Configurations of nodes

One record for each node type that has a configuration, and the sum of them all. A node of any other
type holds the data of the editor as it came.
-/

namespace ConversationFlow.Executable

open Schema

/-- Whether a message has more than text. -/
inductive ContentKind where
  | text
  | rich
deriving DecidableEq, Repr

instance : Choice ContentKind where
  all := [.text, .rich]
  name
    | .text => "text"
    | .rich => "rich"

structure MessageConfig where
  content : Text
  contentKind : ContentKind
  richContent : Option RichContent
  buttons : Option (List MessageButton)
deriving DecidableEq

instance : Record MessageConfig where
  title := "MessageConfig"
  keys := [Keys.content, Keys.contentType, Keys.richContent, Keys.buttons]
  extraKeys := .refused
  readFields source f := MessageConfig.mk
    <$> f.defaulted Keys.content "" text
    <*> f.defaulted Keys.contentType .text choice
    <*> f.optional Keys.richContent (Record.read source)
    <*> f.optional Keys.buttons (list source (Record.read source))
  write nulls c := Json.record nulls
    [Keys.content.holds (.str c.content),
      Keys.contentType.holds (writeChoice c.contentKind),
      Keys.richContent.mayHold (c.richContent.map (Record.write nulls)),
      Keys.buttons.mayHold (c.buttons.map (Record.writeAll nulls))]

inductive AnswerKind where
  | text
  | number
  | email
  | phone
  | date
deriving DecidableEq, Repr

instance : Choice AnswerKind where
  all := [.text, .number, .email, .phone, .date]
  name
    | .text => "text"
    | .number => "number"
    | .email => "email"
    | .phone => "phone"
    | .date => "date"

structure QuestionConfig where
  question : Text
  expectedInput : AnswerKind
  saveToVariable : Text
  validationRegex : Option Text
  validationMessage : Option Text
  maxRetries : Int
deriving DecidableEq

instance : Record QuestionConfig where
  title := "QuestionConfig"
  keys := [Keys.question, Keys.expectedInputType, Keys.saveToVariable, Keys.validationRegex,
    Keys.validationMessage, Keys.maxRetries]
  extraKeys := .refused
  readFields _ f := QuestionConfig.mk
    <$> f.defaulted Keys.question "" text
    <*> f.defaulted Keys.expectedInputType .text choice
    <*> f.required Keys.saveToVariable text
    <*> f.optional Keys.validationRegex text
    <*> f.optional Keys.validationMessage text
    <*> f.defaulted Keys.maxRetries 3 integer
  write nulls c := Json.record nulls
    [Keys.question.holds (.str c.question),
      Keys.expectedInputType.holds (writeChoice c.expectedInput),
      Keys.saveToVariable.holds (.str c.saveToVariable),
      Keys.validationRegex.mayHold (c.validationRegex.map .str),
      Keys.validationMessage.mayHold (c.validationMessage.map .str),
      Keys.maxRetries.holds (.int c.maxRetries)]

inductive Evaluator where
  | simple
  | javascript
deriving DecidableEq, Repr

instance : Choice Evaluator where
  all := [.simple, .javascript]
  name
    | .simple => "simple"
    | .javascript => "javascript"

structure ConditionConfig where
  expression : Text
  evaluator : Evaluator
deriving DecidableEq

instance : Record ConditionConfig where
  title := "ConditionConfig"
  keys := [Keys.expression, Keys.evaluator]
  extraKeys := .refused
  readFields _ f := ConditionConfig.mk
    <$> f.defaulted Keys.expression "" text
    <*> f.defaulted Keys.evaluator .simple choice
  write nulls c := Json.record nulls
    [Keys.expression.holds (.str c.expression),
      Keys.evaluator.holds (writeChoice c.evaluator)]

inductive Method where
  | get
  | post
  | put
  | patch
  | delete
deriving DecidableEq, Repr

instance : Choice Method where
  all := [.get, .post, .put, .patch, .delete]
  name
    | .get => "GET"
    | .post => "POST"
    | .put => "PUT"
    | .patch => "PATCH"
    | .delete => "DELETE"

structure ApiConfig where
  method : Method
  url : Text
  headers : Table Text
  body : Option Text
  auth : Option ApiAuth
  timeout : Int
  retries : Int
  saveResponseTo : Text
  errorOnHttpError : Bool
deriving DecidableEq

instance : Record ApiConfig where
  title := "ApiConfig"
  keys := [Keys.method, Keys.url, Keys.headers, Keys.body, Keys.auth, Keys.timeout, Keys.retries,
    Keys.saveResponseTo, Keys.errorOnHttpError]
  extraKeys := .refused
  readFields source f := ApiConfig.mk
    <$> f.defaulted Keys.method .get choice
    <*> f.defaulted Keys.url "" text
    <*> f.defaulted Keys.headers .empty (mapping source text)
    <*> f.optional Keys.body text
    <*> f.optional Keys.auth (Record.read source)
    <*> f.defaulted Keys.timeout 5000 integer
    <*> f.defaulted Keys.retries 0 integer
    <*> f.required Keys.saveResponseTo text
    <*> f.defaulted Keys.errorOnHttpError true boolean
  write nulls c := Json.record nulls
    [Keys.method.holds (writeChoice c.method),
      Keys.url.holds (.str c.url),
      Keys.headers.holds (writeTextTable c.headers),
      Keys.body.mayHold (c.body.map .str),
      Keys.auth.mayHold (c.auth.map (Record.write nulls)),
      Keys.timeout.holds (.int c.timeout),
      Keys.retries.holds (.int c.retries),
      Keys.saveResponseTo.holds (.str c.saveResponseTo),
      Keys.errorOnHttpError.holds (.bool c.errorOnHttpError)]

inductive DelayUnit where
  | seconds
  | minutes
  | hours
  | days
deriving DecidableEq, Repr

instance : Choice DelayUnit where
  all := [.seconds, .minutes, .hours, .days]
  name
    | .seconds => "seconds"
    | .minutes => "minutes"
    | .hours => "hours"
    | .days => "days"

structure DelayConfig where
  duration : Int
  unit : DelayUnit
deriving DecidableEq

instance : Record DelayConfig where
  title := "DelayConfig"
  keys := [Keys.duration, Keys.unit]
  extraKeys := .refused
  readFields _ f := DelayConfig.mk
    <$> f.defaulted Keys.duration 0 integer
    <*> f.defaulted Keys.unit .seconds choice
  write nulls c := Json.record nulls
    [Keys.duration.holds (.int c.duration),
      Keys.unit.holds (writeChoice c.unit)]

inductive ActionKind where
  | updateContact
  | addLabel
  | sendEmail
  | webhook
deriving DecidableEq, Repr

instance : Choice ActionKind where
  all := [.updateContact, .addLabel, .sendEmail, .webhook]
  name
    | .updateContact => "update_contact"
    | .addLabel => "add_label"
    | .sendEmail => "send_email"
    | .webhook => "webhook"

/-- The configuration of an action; its parameters are free. -/
structure ActionConfig where
  kind : ActionKind
  parameters : Table Json
deriving DecidableEq

instance : Record ActionConfig where
  title := "ActionConfig"
  keys := [Keys.actionType, Keys.parameters]
  extraKeys := .refused
  readFields source f := ActionConfig.mk
    <$> f.defaulted Keys.actionType .webhook choice
    <*> f.defaulted Keys.parameters .empty (mapping source anything)
  write nulls c := Json.record nulls
    [Keys.actionType.holds (writeChoice c.kind),
      Keys.parameters.holds (.obj (Json.finiteFields c.parameters.entries))]

structure FormConfig where
  fields : List FormField
  submitButtonText : Text
  saveToVariable : Text
deriving DecidableEq

instance : Record FormConfig where
  title := "FormConfig"
  keys := [Keys.fields, Keys.submitButtonText, Keys.saveToVariable]
  extraKeys := .refused
  readFields source f := FormConfig.mk
    <$> f.defaulted Keys.fields [] (list source (Record.read source))
    <*> f.defaulted Keys.submitButtonText "Submit" text
    <*> f.required Keys.saveToVariable text
  write nulls c := Json.record nulls
    [Keys.fields.holds (Record.writeAll nulls c.fields),
      Keys.submitButtonText.holds (.str c.submitButtonText),
      Keys.saveToVariable.holds (.str c.saveToVariable)]

inductive VariableOperation where
  | set
  | increment
  | append
deriving DecidableEq, Repr

instance : Choice VariableOperation where
  all := [.set, .increment, .append]
  name
    | .set => "set"
    | .increment => "increment"
    | .append => "append"

structure VariableConfig where
  variableName : Text
  operation : VariableOperation
  value : Text
deriving DecidableEq

instance : Record VariableConfig where
  title := "VariableConfig"
  keys := [Keys.variableName, Keys.operation, Keys.value]
  extraKeys := .refused
  readFields _ f := VariableConfig.mk
    <$> f.defaulted Keys.variableName "temp" text
    <*> f.defaulted Keys.operation .set choice
    <*> f.defaulted Keys.value "" text
  write nulls c := Json.record nulls
    [Keys.variableName.holds (.str c.variableName),
      Keys.operation.holds (writeChoice c.operation),
      Keys.value.holds (.str c.value)]

/-- Whether a contact joins or leaves. -/
inductive Membership where
  | add
  | remove
deriving DecidableEq, Repr

instance : Choice Membership where
  all := [.add, .remove]
  name
    | .add => "add"
    | .remove => "remove"

structure TagConfig where
  tagNames : List Text
  operation : Membership
deriving DecidableEq

instance : Record TagConfig where
  title := "TagConfig"
  keys := [Keys.tagNames, Keys.operation]
  extraKeys := .refused
  readFields source f := TagConfig.mk
    <$> f.defaulted Keys.tagNames [] (list source text)
    <*> f.defaulted Keys.operation .add choice
  write nulls c := Json.record nulls
    [Keys.tagNames.holds (writeTexts c.tagNames),
      Keys.operation.holds (writeChoice c.operation)]

/-- The configuration of a node that moves a contact between segments. -/
structure SegmentConfig where
  segmentId : Text
  operation : Membership
deriving DecidableEq

instance : Record SegmentConfig where
  title := "SegmentConfig"
  keys := [Keys.segmentId, Keys.operation]
  extraKeys := .refused
  readFields _ f := SegmentConfig.mk
    <$> f.defaulted Keys.segmentId "" text
    <*> f.defaulted Keys.operation .add choice
  write nulls c := Json.record nulls
    [Keys.segmentId.holds (.str c.segmentId),
      Keys.operation.holds (writeChoice c.operation)]

/-- Who takes a conversation over. -/
inductive Assignment where
  | roundRobin
  | specificAgent
  | team
deriving DecidableEq, Repr

instance : Choice Assignment where
  all := [.roundRobin, .specificAgent, .team]
  name
    | .roundRobin => "round_robin"
    | .specificAgent => "specific_agent"
    | .team => "team"

structure TransferAgentConfig where
  assignment : Assignment
  agentId : Option Int
  teamId : Option Int
  message : Option Text
  endFlow : Bool
deriving DecidableEq

instance : Record TransferAgentConfig where
  title := "TransferAgentConfig"
  keys := [Keys.assignmentType, Keys.agentId, Keys.teamId, Keys.message, Keys.endFlow]
  extraKeys := .refused
  readFields _ f := TransferAgentConfig.mk
    <$> f.defaulted Keys.assignmentType .roundRobin choice
    <*> f.optional Keys.agentId integer
    <*> f.optional Keys.teamId integer
    <*> f.optional Keys.message text
    <*> f.defaulted Keys.endFlow true boolean
  write nulls c := Json.record nulls
    [Keys.assignmentType.holds (writeChoice c.assignment),
      Keys.agentId.mayHold (c.agentId.map .int),
      Keys.teamId.mayHold (c.teamId.map .int),
      Keys.message.mayHold (c.message.map .str),
      Keys.endFlow.holds (.bool c.endFlow)]

inductive EndReason where
  | completed
  | userCancelled
  | error
  | transferred
deriving DecidableEq, Repr

instance : Choice EndReason where
  all := [.completed, .userCancelled, .error, .transferred]
  name
    | .completed => "completed"
    | .userCancelled => "user_cancelled"
    | .error => "error"
    | .transferred => "transferred"

structure EndConfig where
  reason : EndReason
  message : Option Text
deriving DecidableEq

instance : Record EndConfig where
  title := "EndConfig"
  keys := [Keys.reason, Keys.message]
  extraKeys := .refused
  readFields _ f := EndConfig.mk
    <$> f.defaulted Keys.reason .completed choice
    <*> f.optional Keys.message text
  write nulls c := Json.record nulls
    [Keys.reason.holds (writeChoice c.reason),
      Keys.message.mayHold (c.message.map .str)]

/-- The configuration of a start: there is nothing to configure. -/
structure StartConfig where
deriving DecidableEq

instance : Record StartConfig where
  title := "StartConfig"
  keys := []
  extraKeys := .refused
  readFields _ _ := pure ⟨⟩
  write _ _ := .obj []

/-- The data of the editor as it came, for a node type that no configuration is known for. -/
structure PassthroughConfig where
  bag : Table Json
deriving DecidableEq

instance : Record PassthroughConfig where
  title := "PassthroughConfig"
  keys := []
  extraKeys := .kept
  readFields _ f := pure ⟨.ofList f.entries⟩
  write _ c := .obj (Json.finiteFields c.bag.entries)

inductive Config where
  | start (config : StartConfig)
  | message (config : MessageConfig)
  | question (config : QuestionConfig)
  | condition (config : ConditionConfig)
  | api (config : ApiConfig)
  | delay (config : DelayConfig)
  | action (config : ActionConfig)
  | form (config : FormConfig)
  | assignment (config : VariableConfig)
  | tag (config : TagConfig)
  | segment (config : SegmentConfig)
  | transferAgent (config : TransferAgentConfig)
  | finish (config : EndConfig)
  | passthrough (config : PassthroughConfig)
deriving DecidableEq

namespace Config

def nodeType? : Config → Option NodeType
  | start _ => some .start
  | message _ => some .message
  | question _ => some .question
  | condition _ => some .condition
  | api _ => some .api
  | delay _ => some .delay
  | action _ => some .action
  | form _ => some .form
  | assignment _ => some .assignment
  | tag _ => some .tag
  | segment _ => some .segment
  | transferAgent _ => some .transferAgent
  | finish _ => some .finish
  | passthrough _ => none

/-- The title of the record for a node type, or of the one for all other types. -/
def titleOf : Option NodeType → Text
  | some .start => Record.title StartConfig
  | some .message => Record.title MessageConfig
  | some .question => Record.title QuestionConfig
  | some .condition => Record.title ConditionConfig
  | some .api => Record.title ApiConfig
  | some .delay => Record.title DelayConfig
  | some .action => Record.title ActionConfig
  | some .form => Record.title FormConfig
  | some .assignment => Record.title VariableConfig
  | some .tag => Record.title TagConfig
  | some .segment => Record.title SegmentConfig
  | some .transferAgent => Record.title TransferAgentConfig
  | some .finish => Record.title EndConfig
  | none => Record.title PassthroughConfig

def titles : List Text :=
  (Choice.all : List NodeType).map (titleOf ∘ some) ++ [titleOf none]

def title (config : Config) : Text := titleOf config.nodeType?

/-- The configuration for a node type, or for all other types, that a document holds. -/
def read (source : Source) (type : Option NodeType) (v : Json) : Reading Config :=
  match type with
  | some .start => start <$> Record.read source v
  | some .message => message <$> Record.read source v
  | some .question => question <$> Record.read source v
  | some .condition => condition <$> Record.read source v
  | some .api => api <$> Record.read source v
  | some .delay => delay <$> Record.read source v
  | some .action => action <$> Record.read source v
  | some .form => form <$> Record.read source v
  | some .assignment => assignment <$> Record.read source v
  | some .tag => tag <$> Record.read source v
  | some .segment => segment <$> Record.read source v
  | some .transferAgent => transferAgent <$> Record.read source v
  | some .finish => finish <$> Record.read source v
  | none => passthrough <$> Record.read source v

def write (nulls : Bool) : Config → Json
  | start c => Record.write nulls c
  | message c => Record.write nulls c
  | question c => Record.write nulls c
  | condition c => Record.write nulls c
  | api c => Record.write nulls c
  | delay c => Record.write nulls c
  | action c => Record.write nulls c
  | form c => Record.write nulls c
  | assignment c => Record.write nulls c
  | tag c => Record.write nulls c
  | segment c => Record.write nulls c
  | transferAgent c => Record.write nulls c
  | finish c => Record.write nulls c
  | passthrough c => Record.write nulls c

end Config

end ConversationFlow.Executable
