import ConversationFlow.Check.Flow
import ConversationFlow.Proofs.Table

/-!
# What the check of a flow looks at

The entry, and the key, the type and the transitions of each node. Flows that are alike in these have
the same errors and the same warnings, whatever else they hold.
-/

namespace ConversationFlow.Executable

/-- The node with nothing but what the check of a flow looks at. -/
def Node.outline (n : Node) : Node :=
  { id := "", type := n.type, config := .start ⟨⟩, transitions := n.transitions,
    errorHandler := none, timeout := none, retries := none }

namespace Flow

structure SameOutline (flow other : Flow) : Prop where
  entryNodeId : flow.entryNodeId = other.entryNodeId
  nodes : flow.nodes.map Node.outline = other.nodes.map Node.outline

namespace SameOutline

variable {flow other : Flow}

theorem symm (h : SameOutline flow other) : SameOutline other flow :=
  ⟨h.entryNodeId.symm, h.nodes.symm⟩

theorem trans {third : Flow} (h : SameOutline flow other) (hother : SameOutline other third) :
    SameOutline flow third :=
  ⟨h.entryNodeId.trans hother.entryNodeId, h.nodes.trans hother.nodes⟩

theorem outline_getNode? (h : SameOutline flow other) (key : Text) :
    (flow.getNode? key).map Node.outline = (other.getNode? key).map Node.outline := by
  rw [getNode?, getNode?, ← Table.get?_map, ← Table.get?_map, h.nodes]

theorem targets_eq (h : SameOutline flow other) : flow.targets = other.targets := by
  funext key
  have htargets (f : Flow) :
      f.targets key = ((f.getNode? key).map Node.outline).elim [] (·.targets) := by
    rw [targets]
    cases f.getNode? key <;> rfl
  rw [htargets, htargets, h.outline_getNode?]

theorem contains_eq (h : SameOutline flow other) : flow.nodes.contains = other.nodes.contains := by
  funext key
  rw [Bool.eq_iff_iff, Table.contains_iff_mem_keys, Table.contains_iff_mem_keys,
    ← Table.keys_map Node.outline flow.nodes, h.nodes, Table.keys_map]

theorem flatMap_eq {β : Type} (h : SameOutline flow other) {f : Text × Node → List β}
    (hf : ∀ entry, f (entry.1, entry.2.outline) = f entry) :
    flow.nodes.entries.flatMap f = other.nodes.entries.flatMap f := by
  have hgather (t : Table Node) : t.entries.flatMap f = (t.map Node.outline).entries.flatMap f := by
    simp [Table.map, List.flatMap_map, hf]
  rw [hgather flow.nodes, h.nodes, ← hgather]

theorem transitionCount_eq (h : SameOutline flow other) :
    flow.transitionCount = other.transitionCount := by
  have hcount (f : Flow) : f.transitionCount =
      ((f.nodes.map Node.outline).values.map (·.transitions.length)).sum := by
    simp [transitionCount, Table.values, Table.map, Function.comp_def, Node.outline]
  rw [hcount, hcount, h.nodes]

theorem enter_eq (h : SameOutline flow other) : Search.enter flow = Search.enter other := by
  funext id s
  rw [Search.enter, Search.enter, h.targets_eq]

theorem step_eq (h : SameOutline flow other) : Search.step flow = Search.step other := by
  funext s
  simp only [Search.step, Search.look, h.enter_eq]

theorem run_eq (h : SameOutline flow other) (n : Nat) (s : Search) :
    s.run flow n = s.run other n := by
  induction n generalizing s with
  | zero => rfl
  | succ n ih => rw [Search.run, Search.run, ih, h.step_eq]

theorem cycles_eq (h : SameOutline flow other) : flow.cycles = other.cycles := by
  rw [cycles, cycles, searched, searched, search, search, h.run_eq, h.enter_eq, h.entryNodeId,
    h.transitionCount_eq]

theorem spread_eq (h : SameOutline flow other) (n : Nat) (s : Spread) :
    s.run flow n = s.run other n := by
  have hstep (s : Spread) : s.step flow = s.step other := by
    simp only [Spread.step, h.targets_eq, h.contains_eq]
  induction n generalizing s with
  | zero => rfl
  | succ n ih => rw [Spread.run, Spread.run, ih, hstep]

theorem reachable_eq (h : SameOutline flow other) : flow.reachable = other.reachable := by
  rw [reachable, reachable, h.spread_eq, h.entryNodeId, h.transitionCount_eq]

theorem entryIssues_eq (h : SameOutline flow other) : flow.entryIssues = other.entryIssues := by
  have hstart (f : Flow) (key : Text) : (f.getNode? key).any (·.isStart) =
      ((f.getNode? key).map Node.outline).any (·.isStart) := by
    cases f.getNode? key <;> rfl
  rw [entryIssues, entryIssues, hstart, hstart, h.entryNodeId, h.outline_getNode?]

theorem transitionIssues_eq (h : SameOutline flow other) :
    flow.transitionIssues = other.transitionIssues := by
  rw [transitionIssues, transitionIssues, h.contains_eq]
  exact h.flatMap_eq fun _ => rfl

theorem errors_eq (h : SameOutline flow other) : flow.errors = other.errors := by
  rw [errors, errors, h.entryIssues_eq, h.cycles_eq, h.transitionIssues_eq]

theorem warnings_eq (h : SameOutline flow other) : flow.warnings = other.warnings := by
  rw [warnings, warnings, h.reachable_eq]
  exact h.flatMap_eq fun _ => rfl

theorem check_eq (h : SameOutline flow other) (warn : Bool) :
    flow.check warn = other.check warn := by
  rw [check, check, h.errors_eq, h.warnings_eq]

end SameOutline

end Flow

end ConversationFlow.Executable
