import ConversationFlow.Editor.Graph
import ConversationFlow.Editor.NodeKind
import ConversationFlow.Report

/-!
# Checking a drawing

What is required of an editor graph before its nodes are compiled: exactly one start node, known
types of nodes and distinct ids. All issues are reported, those about the start node first, then
those about the nodes in order.
-/

namespace ConversationFlow.Editor

/-- The issue about the start nodes, if there is not exactly one. -/
def startIssues : List Node → List Issue
  | [] => [⟨.noStartNode, "Flow must have exactly one Start node", none⟩]
  | [_] => []
  | starts =>
    [⟨.multipleStartNodes,
      "Flow has multiple Start nodes: " ++ Text.intercalate ", " (starts.map (·.id)), none⟩]

/-- Whether a node may be of a type: one of the known kinds, or one of the extra types. -/
def acceptsType (extraTypes : List Text) (type : Text) : Bool :=
  NodeKind.isKnown type || extraTypes.contains type

/-- The issues about one node, after nodes with the ids `seen`. -/
def nodeIssues (extraTypes seen : List Text) (n : Node) : List Issue :=
  (if acceptsType extraTypes n.type then []
    else [.about .invalidNodeType ("Unknown node type: " ++ n.type) n.id]) ++
  (if n.id ∈ seen then [.about .duplicateNodeId ("Duplicate node id: " ++ n.id) n.id] else [])

def issuesOfNodes (extraTypes : List Text) : (seen : List Text) → List Node → List Issue
  | _, [] => []
  | seen, n :: rest =>
    nodeIssues extraTypes seen n ++ issuesOfNodes extraTypes (n.id :: seen) rest

def Graph.check (extraTypes : List Text) (g : Graph) : Report :=
  .ofIssues (startIssues g.startNodes ++ issuesOfNodes extraTypes [] g.nodes) []

end ConversationFlow.Editor
