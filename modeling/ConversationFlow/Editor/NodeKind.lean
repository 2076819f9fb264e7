import ConversationFlow.Executable.NodeType

/-!
# Kinds of nodes that can be drawn

An author draws nodes of the types that an engine runs, and nodes of five further kinds that stand
for one of these types.
-/

namespace ConversationFlow.Editor

open Schema Executable

/-- A kind of node that has a meaning of its own. -/
inductive NodeKind where
  | executable (type : NodeType)
  | advancedCondition
  | input
  | mediaMessage
  | carousel
  | dynamicText
deriving DecidableEq, Repr

instance : Choice NodeKind where
  all := (Choice.all : List NodeType).map .executable ++
    [.advancedCondition, .input, .mediaMessage, .carousel, .dynamicText]
  name
    | .executable type => Choice.name type
    | .advancedCondition => "advancedCondition"
    | .input => "input"
    | .mediaMessage => "mediaMessage"
    | .carousel => "carousel"
    | .dynamicText => "dynamicText"

namespace NodeKind

def ofName? (name : Text) : Option NodeKind := Choice.ofName? name

/-- The type that an engine runs a node of the kind as. -/
def nodeType : NodeKind → NodeType
  | executable type => type
  | advancedCondition => .condition
  | input => .question
  | mediaMessage | carousel | dynamicText => .message

def isKnown (name : Text) : Bool := (ofName? name).isSome

end NodeKind

end ConversationFlow.Editor
