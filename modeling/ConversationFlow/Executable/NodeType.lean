import ConversationFlow.Schema.Scalar

/-!
# Node types

The closed set of node types that an engine runs.
-/

namespace ConversationFlow.Executable

open Schema

/-- What an engine does at a node. -/
inductive NodeType where
  | start
  | message
  | question
  | condition
  | api
  | delay
  | action
  | form
  | assignment
  | tag
  | segment
  | transferAgent
  | finish
deriving DecidableEq, Repr

instance : Choice NodeType where
  all := [.start, .message, .question, .condition, .api, .delay, .action, .form, .assignment, .tag,
    .segment, .transferAgent, .finish]
  name
    | .start => "start"
    | .message => "message"
    | .question => "question"
    | .condition => "condition"
    | .api => "api"
    | .delay => "delay"
    | .action => "action"
    | .form => "form"
    | .assignment => "variable"
    | .tag => "tag"
    | .segment => "segment"
    | .transferAgent => "transfer_agent"
    | .finish => "end"

def NodeType.name (t : NodeType) : Text := Choice.name t

def NodeType.ofName? (name : Text) : Option NodeType := Choice.ofName? name

/-- Node types at which a conversation may end. -/
def NodeType.isTerminal (t : NodeType) : Bool :=
  t = .finish || t = .transferAgent

theorem NodeType.ofName?_name (t : NodeType) : ofName? t.name = some t := by
  cases t <;> rfl

end ConversationFlow.Executable
