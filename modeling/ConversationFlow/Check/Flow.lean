import ConversationFlow.Check.Reach
import ConversationFlow.Report

/-!
# Checking a flow

What is required of an executable flow: the entry is a start node, no cycle can be reached, and every
transition leads to a node. Nodes that cannot be reached, and nodes at which a conversation gets
stuck, are worth a warning.
-/

namespace ConversationFlow.Executable

namespace Flow

def entryIssues (flow : Flow) : List Issue :=
  if (flow.getNode? flow.entryNodeId).any (·.isStart) then []
  else
    [.about .invalidEntryNode
      ("Entry node '" ++ flow.entryNodeId ++ "' must exist and be a Start node") flow.entryNodeId]

/-- The issue about a cycle, which concerns its first node. -/
def cycleIssue (cycle : List Text) : Issue :=
  .about .infiniteLoop ("Potential infinite loop detected: " ++ Text.intercalate " -> " cycle)
    (cycle.headD "")

/-- The issues about transitions that lead to no node. -/
def transitionIssues (flow : Flow) : List Issue :=
  flow.nodes.entries.flatMap fun (key, n) =>
    (n.targets.filter fun target => !flow.nodes.contains target).map fun target =>
      .about .invalidTransition ("Transition points to non-existent node: " ++ target) key

def errors (flow : Flow) : List Issue :=
  flow.entryIssues ++ flow.cycles.map cycleIssue ++ flow.transitionIssues

def nodeWarnings (reachable : List Text) (key : Text) (n : Node) : List Issue :=
  (if key ∈ reachable then []
    else
      [.about .unreachableNode ("Node '" ++ key ++ "' is not reachable from the entry node") key]) ++
  (if n.transitions.isEmpty && !n.isTerminal then
    [.about .deadEndNode ("Node '" ++ key ++ "' (" ++ n.type ++ ") has no outgoing transitions") key]
    else [])

def warnings (flow : Flow) : List Issue :=
  let reachable := flow.reachable
  flow.nodes.entries.flatMap fun (key, n) => nodeWarnings reachable key n

/-- The report on a flow, with warnings if they are asked for. -/
def check (warn : Bool) (flow : Flow) : Report :=
  .ofIssues flow.errors (if warn then flow.warnings else [])

end Flow

end ConversationFlow.Executable
