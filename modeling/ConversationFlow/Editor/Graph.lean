import ConversationFlow.Schema.Keys

/-!
# Editor graphs

The document that an author draws: nodes with free data and edges between them. The order of nodes
and of edges counts; where things stand on the canvas does not, and what is no field is passed over.
-/

namespace ConversationFlow.Editor

open Schema

structure Node where
  id : Text
  type : Text
  data : Table Json
deriving DecidableEq

namespace Node

/-- The value of a key of the data of a node, null if it is not given. -/
def value (n : Node) (key : Text) : Json :=
  (n.data.get? key).getD .null

/-- Data, of which null counts as empty. -/
def readData (source : Source) : Json → Reading (Table Json)
  | .null => .accepted .empty
  | v => mapping source anything v

instance : Record Node where
  title := "UINode"
  keys := [Keys.id, Keys.type, Keys.data]
  extraKeys := .ignored
  readFields source f := Node.mk
    <$> f.required Keys.id text
    <*> f.required Keys.type text
    <*> f.defaulted Keys.data .empty (readData source)
  write nulls n := Json.record nulls
    [Keys.id.holds (.str n.id),
      Keys.type.holds (.str n.type),
      Keys.data.holds (.obj (Json.finiteFields n.data.entries))]

end Node

/-- A connection from one node of the canvas to another. -/
structure Edge where
  id : Text
  source : Text
  target : Text
  sourceHandle : Option Text
  targetHandle : Option Text
  label : Option Text
deriving DecidableEq

instance : Record Edge where
  title := "UIEdge"
  keys := [Keys.id, Keys.source, Keys.target, Keys.sourceHandle, Keys.targetHandle, Keys.label]
  extraKeys := .ignored
  readFields _ f := Edge.mk
    <$> f.required Keys.id text
    <*> f.required Keys.source text
    <*> f.required Keys.target text
    <*> f.optional Keys.sourceHandle text
    <*> f.optional Keys.targetHandle text
    <*> f.optional Keys.label text
  write nulls e := Json.record nulls
    [Keys.id.holds (.str e.id),
      Keys.source.holds (.str e.source),
      Keys.target.holds (.str e.target),
      Keys.sourceHandle.mayHold (e.sourceHandle.map .str),
      Keys.targetHandle.mayHold (e.targetHandle.map .str),
      Keys.label.mayHold (e.label.map .str)]

/-- The document that an author draws. -/
structure Graph where
  nodes : List Node
  edges : List Edge
  viewport : Option (Table Json)
deriving DecidableEq

namespace Graph

def getNode? (g : Graph) (id : Text) : Option Node :=
  g.nodes.find? (·.id = id)

/-- The edges that leave a node, in order. -/
def outgoing (g : Graph) (id : Text) : List Edge :=
  g.edges.filter (·.source = id)

/-- The nodes at which a conversation starts. -/
def startNodes (g : Graph) : List Node :=
  g.nodes.filter (·.type = "start")

instance : Record Graph where
  title := "UIFlowGraph"
  keys := [Keys.nodes, Keys.edges, Keys.viewport]
  extraKeys := .ignored
  readFields source f := Graph.mk
    <$> f.defaulted Keys.nodes [] (list source (Record.read source))
    <*> f.defaulted Keys.edges [] (list source (Record.read source))
    <*> f.optional Keys.viewport (mapping source anything)
  write nulls g := Json.record nulls
    [Keys.nodes.holds (Record.writeAll nulls g.nodes),
      Keys.edges.holds (Record.writeAll nulls g.edges),
      Keys.viewport.mayHold (g.viewport.map fun t => .obj (Json.finiteFields t.entries))]

end Graph

end ConversationFlow.Editor
