import ConversationFlow.Executable.Config
import ConversationFlow.Metadata

/-!
# Executable flows

The form of a flow that an engine runs: nodes under their ids, each with a configuration and with
transitions in the order in which an engine tries them.
-/

namespace ConversationFlow.Executable

open Schema

/-- A way from a node to another one. An engine takes the first whose condition holds, those of less
priority first; without a condition a transition always holds. -/
structure Transition where
  id : Text
  target : Text
  condition : Option Text
  priority : Int
  label : Option Text
deriving DecidableEq

instance : Record Transition where
  title := "Transition"
  keys := [Keys.id, Keys.targetNodeId, Keys.condition, Keys.priority, Keys.label]
  extraKeys := .refused
  readFields _ f := Transition.mk
    <$> f.required Keys.id text
    <*> f.required Keys.targetNodeId text
    <*> f.optional Keys.condition text
    <*> f.required Keys.priority integer
    <*> f.optional Keys.label text
  write nulls t := Json.record nulls
    [Keys.id.holds (.str t.id),
      Keys.targetNodeId.holds (.str t.target),
      Keys.condition.mayHold (t.condition.map .str),
      Keys.priority.holds (.int t.priority),
      Keys.label.mayHold (t.label.map .str)]

/-- A node as an engine runs it. Its type is one of the known ones or any other name. -/
structure Node where
  id : Text
  type : Text
  config : Config
  transitions : List Transition
  errorHandler : Option ErrorHandler
  timeout : Option Int
  retries : Option Int
deriving DecidableEq

namespace Node

/-- The known type of a node. -/
def nodeType? (n : Node) : Option NodeType := NodeType.ofName? n.type

def isStart (n : Node) : Bool := n.nodeType? = some .start

/-- Whether a conversation may end at the node. -/
def isTerminal (n : Node) : Bool := n.nodeType?.any (·.isTerminal)

/-- The ids that the transitions of a node lead to. -/
def targets (n : Node) : List Text := n.transitions.map (·.target)

/-- The type of a node: a known name, or any text. -/
def readType (v : Json) : Reading Text :=
  match v with
  | .str s => .accepted s
  | _ => .refused
    [⟨.notMember (Choice.names NodeType), [.key "str-enum[NodeType]"], v⟩,
      ⟨.notText, [.key "str"], v⟩]

/-- The node type that the configuration of an object is for: the known one of the field `type`.
A list or an object cannot be looked up. -/
def typeOf (f : Fields) : Reading (Option NodeType) :=
  match f.entries.lookup ("type" : Text) with
  | some (.arr _) => .untagged .list
  | some (.obj _) => .untagged .object
  | some (.str s) => .accepted (NodeType.ofName? s)
  | _ => .accepted none

/-- A complaint from each record of configurations that a value is none. -/
def readNoConfig (source : Source) (v : Json) : Reading Config :=
  .refused (Config.titles.map fun title => ⟨.notRecord title source, [.key title], v⟩)

/-- The configuration of a node: an object is read as the one for the type of the node. -/
def readConfig (source : Source) (f : Fields) (v : Json) : Reading Config :=
  match v with
  | .obj _ => (typeOf f).andThen fun type => Config.read source type v
  | _ => readNoConfig source v

/-- A configuration that is an object is read before everything else. -/
def readConfigFirst (source : Source) (f : Fields) : Reading Unit :=
  match f.entries.lookup ("config" : Text) with
  | some (.obj entries) => (readConfig source f (.obj entries)).map fun _ => ()
  | _ => .accepted ()

instance : Record Node where
  title := "ExecutableNode"
  keys := [Keys.id, Keys.type, Keys.config, Keys.transitions, Keys.errorHandler, Keys.timeout,
    Keys.retries]
  extraKeys := .refused
  foremost := readConfigFirst
  readFields source f := Node.mk
    <$> f.required Keys.id text
    <*> f.required Keys.type readType
    <*> f.required Keys.config (readConfig source f)
    <*> f.defaulted Keys.transitions [] (list source (Record.read source))
    <*> f.optional Keys.errorHandler (Record.read source)
    <*> f.optional Keys.timeout integer
    <*> f.optional Keys.retries integer
  write nulls n := Json.record nulls
    [Keys.id.holds (.str n.id),
      Keys.type.holds (.str n.type),
      Keys.config.holds (n.config.write nulls),
      Keys.transitions.holds (Record.writeAll nulls n.transitions),
      Keys.errorHandler.mayHold (n.errorHandler.map (Record.write nulls)),
      Keys.timeout.mayHold (n.timeout.map .int),
      Keys.retries.mayHold (n.retries.map .int)]

end Node

inductive ErrorBehavior where
  | fail
  | continue
  | fallback
deriving DecidableEq, Repr

instance : Choice ErrorBehavior where
  all := [.fail, .continue, .fallback]
  name
    | .fail => "fail"
    | .continue => "continue"
    | .fallback => "fallback"

structure FlowConfig where
  timeoutSeconds : Int
  maxIterations : Int
  errorBehavior : ErrorBehavior
  fallbackNodeId : Option Text
  definitions : List VariableDefinition
deriving DecidableEq

/-- The configuration of a flow that says nothing about itself. -/
def FlowConfig.plain : FlowConfig := ⟨3600, 100, .fail, none, []⟩

instance : Record FlowConfig where
  title := "FlowConfig"
  keys := [Keys.timeoutSeconds, Keys.maxIterations, Keys.errorBehavior, Keys.fallbackNodeId,
    Keys.definitions]
  extraKeys := .refused
  readFields source f := FlowConfig.mk
    <$> f.defaulted Keys.timeoutSeconds 3600 integer
    <*> f.defaulted Keys.maxIterations 100 integer
    <*> f.defaulted Keys.errorBehavior .fail choice
    <*> f.optional Keys.fallbackNodeId text
    <*> f.defaulted Keys.definitions [] (list source (Record.read source))
  write nulls c := Json.record nulls
    [Keys.timeoutSeconds.holds (.int c.timeoutSeconds),
      Keys.maxIterations.holds (.int c.maxIterations),
      Keys.errorBehavior.holds (writeChoice c.errorBehavior),
      Keys.fallbackNodeId.mayHold (c.fallbackNodeId.map .str),
      Keys.definitions.holds (Record.writeAll nulls c.definitions)]

/-- A flow as an engine runs it: it starts at the entry node. -/
structure Flow where
  id : Text
  version : Int
  name : Text
  description : Option Text
  metadata : Metadata
  entryNodeId : Text
  nodes : Table Node
  config : FlowConfig
deriving DecidableEq

namespace Flow

def getNode? (flow : Flow) (key : Text) : Option Node :=
  flow.nodes.get? key

/-- The ids that the transitions of the node under a key lead to. -/
def targets (flow : Flow) (key : Text) : List Text :=
  (flow.getNode? key).elim [] (·.targets)

instance : Record Flow where
  title := "ExecutableFlow"
  keys := [Keys.id, Keys.version, Keys.name, Keys.description, Keys.metadata, Keys.entryNodeId,
    Keys.nodes, Keys.config]
  extraKeys := .refused
  readFields source f := Flow.mk
    <$> f.required Keys.id text
    <*> f.defaulted Keys.version 1 integer
    <*> f.required Keys.name text
    <*> f.optional Keys.description text
    <*> f.required Keys.metadata (Record.read source)
    <*> f.required Keys.entryNodeId text
    <*> f.defaulted Keys.nodes .empty (mapping source (Record.read source))
    <*> f.defaulted Keys.config .plain (Record.read source)
  write nulls flow := Json.record nulls
    [Keys.id.holds (.str flow.id),
      Keys.version.holds (.int flow.version),
      Keys.name.holds (.str flow.name),
      Keys.description.mayHold (flow.description.map .str),
      Keys.metadata.holds (Record.write nulls flow.metadata),
      Keys.entryNodeId.holds (.str flow.entryNodeId),
      Keys.nodes.holds (.obj (flow.nodes.entries.map fun (key, n) => (key, Record.write nulls n))),
      Keys.config.holds (Record.write nulls flow.config)]

end Flow

end ConversationFlow.Executable
