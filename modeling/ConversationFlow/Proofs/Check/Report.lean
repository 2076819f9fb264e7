import ConversationFlow.Proofs.Check.Reach
import ConversationFlow.Proofs.Schema.Choice

/-!
# What a report on a flow says

A report is valid exactly if a conversation can be had with the flow, and it leaves nothing out: there
is one error for the entry, one for each cycle that the search finds and one for each transition that
leads to no node, and one warning for each key that cannot be reached and for each node at which a
conversation gets stuck. All of them come in the order of the flow.
-/

namespace ConversationFlow.Executable

open Relation Schema

theorem Node.isStart_iff {n : Node} : n.isStart = true ↔ n.type = "start" :=
  decide_eq_true_iff.trans (Choice.ofName?_eq_some_iff.trans eq_comm)

theorem Node.isTerminal_iff {n : Node} :
    n.isTerminal = true ↔ n.type = "end" ∨ n.type = "transfer_agent" := by
  rw [isTerminal, nodeType?, NodeType.ofName?, Option.any_eq_true]
  simp only [Choice.ofName?_eq_some_iff]
  constructor
  · rintro ⟨type, hname, hterminal⟩
    rw [← hname]
    cases type <;> simp_all [NodeType.isTerminal, Choice.name]
  · rintro (htype | htype)
    · exact ⟨.finish, htype.symm, rfl⟩
    · exact ⟨.transferAgent, htype.symm, rfl⟩

namespace Flow

variable {flow : Flow}

theorem hasStart_iff :
    flow.HasStart ↔ ∃ n, flow.getNode? flow.entryNodeId = some n ∧ n.type = "start" := by
  simp only [HasStart, Node.isStart_iff]

instance (flow : Flow) : Decidable flow.HasStart :=
  decidable_of_iff _ entryIssues_eq_nil_iff

/-- The transitions of a flow in order, each with the key of the node that it leaves. -/
def keyedTransitions (flow : Flow) : List (Text × Transition) :=
  flow.nodes.entries.flatMap fun (key, n) => n.transitions.map fun t => (key, t)

/-- The transitions that lead to no node. -/
def danglingTransitions (flow : Flow) : List (Text × Transition) :=
  flow.keyedTransitions.filter fun (_, t) => t.target ∉ flow.nodes.keys

def entryIssue (flow : Flow) : Issue where
  code := .invalidEntryNode
  message := "Entry node '" ++ flow.entryNodeId ++ "' must exist and be a Start node"
  nodeId := some flow.entryNodeId

/-- The issue about a cycle. It concerns the node that comes first in it. -/
def loopIssue (cycle : List Text) : Issue where
  code := .infiniteLoop
  message := "Potential infinite loop detected: " ++ Text.intercalate " -> " cycle
  nodeId := cycle.head?

/-- The issue about a transition that leads to no node. It concerns the node that it leaves. -/
def danglingIssue (owned : Text × Transition) : Issue where
  code := .invalidTransition
  message := "Transition points to non-existent node: " ++ owned.2.target
  nodeId := some owned.1

theorem entryIssues_eq : flow.entryIssues = if flow.HasStart then [] else [flow.entryIssue] := by
  split
  · next hstart => exact entryIssues_eq_nil_iff.2 hstart
  · next hstart =>
    have hany : (flow.getNode? flow.entryNodeId).any (·.isStart) ≠ true := fun hany =>
      hstart ((Option.any_eq_true _ _).1 hany)
    rw [entryIssues, if_neg hany]
    rfl

theorem map_cycleIssue_eq : flow.cycles.map cycleIssue = flow.cycles.map loopIssue := by
  refine List.map_congr_left fun cycle hcycle => ?_
  obtain ⟨first, hfirst, -⟩ := (isLoop_of_mem_cycles hcycle).exists_transGen
  rw [cycleIssue, loopIssue, Issue.about, List.headD_eq_head?_getD, hfirst, Option.getD_some]

theorem transitionIssues_eq :
    flow.transitionIssues = flow.danglingTransitions.map danglingIssue := by
  have hlost (target : Text) :
      (!flow.nodes.contains target) = decide (target ∉ flow.nodes.keys) := by
    rw [Bool.eq_iff_iff, decide_eq_true_iff, Bool.not_eq_true', ← Table.contains_iff_mem_keys,
      Bool.not_eq_true]
  simp only [transitionIssues, danglingTransitions, keyedTransitions, List.filter_flatMap,
    List.map_flatMap, List.filter_map, List.map_map, Node.targets, hlost]
  rfl

theorem isClosed_iff : flow.IsClosed ↔
    ∀ key n, flow.getNode? key = some n → ∀ t ∈ n.transitions, t.target ∈ flow.nodes.keys := by
  simp only [IsClosed, follows_iff_exists_transition]
  constructor
  · exact fun h key n hn t ht => h key t.target ⟨n, hn, t, ht, rfl⟩
  · rintro h key _ ⟨n, hn, t, ht, rfl⟩
    exact h key n hn t ht

/-- The report on a flow is valid exactly if the entry is a start node, no cycle can be reached from
it and every transition leads to a node. The errors are one about the entry, if it is no start node,
then one for each cycle that is found, then one for each transition that leads to no node. Whether
warnings are asked for makes no difference to that. -/
theorem report_of_check (flow : Flow) :
    (∀ warn, (flow.check warn).valid = true ↔
      (∃ n, flow.getNode? flow.entryNodeId = some n ∧ n.type = "start") ∧
      (∀ key, ReflTransGen flow.Follows flow.entryNodeId key → ¬TransGen flow.Follows key key) ∧
      ∀ key n, flow.getNode? key = some n → ∀ t ∈ n.transitions, t.target ∈ flow.nodes.keys) ∧
    (∀ warn, (flow.check warn).errors =
      (if flow.HasStart then [] else [flow.entryIssue]) ++ flow.cycles.map loopIssue ++
        flow.danglingTransitions.map danglingIssue) ∧
    flow.check false = { flow.check true with warnings := [] } := by
  refine ⟨fun warn => ?_, fun warn => ?_, rfl⟩
  · rw [valid_check_iff, ← hasStart_iff, ← isClosed_iff]
    exact ⟨fun h => ⟨h.start, h.acyclic, h.closed⟩, fun ⟨hstart, hacyclic, hclosed⟩ =>
      ⟨hstart, hacyclic, hclosed⟩⟩
  · have herrors : (flow.check warn).errors =
        flow.entryIssues ++ flow.cycles.map cycleIssue ++ flow.transitionIssues := rfl
    rw [herrors, entryIssues_eq, map_cycleIssue_eq, transitionIssues_eq]

def unreachableIssue (key : Text) : Issue where
  code := .unreachableNode
  message := "Node '" ++ key ++ "' is not reachable from the entry node"
  nodeId := some key

def deadEndIssue (key : Text) (n : Node) : Issue where
  code := .deadEndNode
  message := "Node '" ++ key ++ "' (" ++ n.type ++ ") has no outgoing transitions"
  nodeId := some key

theorem nodeWarnings_eq (key : Text) (n : Node) :
    nodeWarnings flow.reachable key n =
      (if flow.Reaches key then [] else [unreachableIssue key]) ++
      (if n.transitions = [] ∧ ¬(n.type = "end" ∨ n.type = "transfer_agent")
        then [deadEndIssue key n] else []) := by
  have hreach : (if key ∈ flow.reachable then [] else [unreachableIssue key]) =
      if flow.Reaches key then [] else [unreachableIssue key] :=
    if_congr mem_reachable_iff rfl rfl
  have hstuck : (n.transitions.isEmpty && !n.isTerminal) = true ↔
      n.transitions = [] ∧ ¬(n.type = "end" ∨ n.type = "transfer_agent") := by
    rw [Bool.and_eq_true, List.isEmpty_iff, Bool.not_eq_true', ← Bool.not_eq_true,
      Node.isTerminal_iff]
  rw [← hreach, ← if_congr hstuck rfl rfl]
  rfl

/-- The worklist meets just the keys to which a walk through nodes of the flow leads, and there is one
warning for each other key and one for each node at which a conversation gets stuck: one that has no
transitions and is of no type at which a conversation may end. They come in the order of the flow, the
one about the key before the one about the node. -/
theorem warnings_of_check (flow : Flow) :
    (∀ key, key ∈ flow.reachable ↔ flow.Reaches key) ∧ flow.reachable.Nodup ∧
    (flow.entryNodeId ∉ flow.nodes.keys → flow.reachable = []) ∧
    (flow.check true).warnings = flow.nodes.entries.flatMap fun (key, n) =>
      (if flow.Reaches key then [] else [unreachableIssue key]) ++
      (if n.transitions = [] ∧ ¬(n.type = "end" ∨ n.type = "transfer_agent")
        then [deadEndIssue key n] else []) := by
  refine ⟨fun key => mem_reachable_iff, nodup_reachable flow, fun hentry => ?_, ?_⟩
  · refine List.eq_nil_iff_forall_not_mem.2 fun key hkey => hentry ?_
    obtain ⟨walk, hwalk, hkeys, -⟩ := mem_reachable_iff.1 hkey
    exact hkeys (List.mem_of_head? hwalk.starts)
  · have hwarnings : (flow.check true).warnings =
        flow.nodes.entries.flatMap fun (key, n) => nodeWarnings flow.reachable key n := rfl
    simp only [hwarnings, nodeWarnings_eq]

end Flow

end ConversationFlow.Executable
