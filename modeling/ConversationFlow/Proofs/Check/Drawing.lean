import ConversationFlow.Check.Drawing
import ConversationFlow.Proofs.Schema.Choice
import Mathlib.Data.List.Nodup

/-!
# What the check of a drawing says

A drawing passes its check exactly if it has one start node, if all its nodes are of types that can be
drawn, and if their ids are distinct.
-/

namespace ConversationFlow.Editor

open Schema Executable

/-- The types that can be drawn but stand for another one. -/
def authoringTypes : List Text :=
  ["advancedCondition", "input", "mediaMessage", "carousel", "dynamicText"]

/-- A type that can be drawn: one that an engine runs, one that stands for another one, or one of the
extra types. -/
def IsNodeType (extraTypes : List Text) (type : Text) : Prop :=
  type ∈ Choice.names NodeType ∨ type ∈ authoringTypes ∨ type ∈ extraTypes

theorem names_nodeKind : Choice.names NodeKind = Choice.names NodeType ++ authoringTypes := rfl

theorem acceptsType_iff {extraTypes : List Text} {type : Text} :
    acceptsType extraTypes type = true ↔ IsNodeType extraTypes type := by
  have hknown : NodeKind.isKnown type = true ↔ type ∈ Choice.names NodeKind :=
    Choice.mem_names_iff.symm
  rw [acceptsType, Bool.or_eq_true, hknown, names_nodeKind, List.mem_append, List.contains_iff_mem,
    IsNodeType, or_assoc]

theorem startIssues_eq_nil_iff {starts : List Node} :
    startIssues starts = [] ↔ ∃ n, starts = [n] := by
  match starts with
  | [] => simp [startIssues]
  | [n] => simp [startIssues]
  | n :: other :: rest => simp [startIssues]

theorem nodeIssues_eq_nil_iff {extraTypes seen : List Text} {n : Node} :
    nodeIssues extraTypes seen n = [] ↔ IsNodeType extraTypes n.type ∧ n.id ∉ seen := by
  simp [nodeIssues, ← acceptsType_iff]

/-- The induction is on the nodes; the ids that were seen before come in because they grow with every
node that is passed. -/
theorem issuesOfNodes_eq_nil_iff {extraTypes seen : List Text} {nodes : List Node} :
    issuesOfNodes extraTypes seen nodes = [] ↔
      (∀ n ∈ nodes, IsNodeType extraTypes n.type) ∧ (nodes.map (·.id)).Nodup ∧
        ∀ n ∈ nodes, n.id ∉ seen := by
  induction nodes generalizing seen with
  | nil => simp [issuesOfNodes]
  | cons n rest ih =>
    rw [issuesOfNodes, List.append_eq_nil_iff, nodeIssues_eq_nil_iff, ih]
    simp only [List.map_cons, List.nodup_cons, List.mem_map, List.mem_cons, forall_eq_or_imp,
      not_or, not_exists, not_and]
    constructor
    · rintro ⟨⟨htype, hid⟩, htypes, hnodup, hseen⟩
      exact ⟨⟨htype, htypes⟩, ⟨fun m hm => (hseen m hm).1, hnodup⟩, hid, fun m hm => (hseen m hm).2⟩
    · rintro ⟨⟨htype, htypes⟩, ⟨hnew, hnodup⟩, hid, hseen⟩
      exact ⟨⟨htype, hid⟩, htypes, hnodup, fun m hm => ⟨hnew m hm, hseen m hm⟩⟩

namespace Graph

/-- What is required of a drawing: one start node, known types and distinct ids. -/
structure IsWellDrawn (extraTypes : List Text) (g : Graph) : Prop where
  start : ∃ n, g.startNodes = [n]
  types : ∀ n ∈ g.nodes, IsNodeType extraTypes n.type
  ids : (g.nodes.map (·.id)).Nodup

theorem valid_check_iff {extraTypes : List Text} {g : Graph} :
    (g.check extraTypes).valid = true ↔ g.IsWellDrawn extraTypes := by
  rw [check, Report.ofIssues, List.isEmpty_iff, List.append_eq_nil_iff, startIssues_eq_nil_iff,
    issuesOfNodes_eq_nil_iff]
  constructor
  · rintro ⟨hstart, htypes, hids, -⟩
    exact ⟨hstart, htypes, hids⟩
  · rintro ⟨hstart, htypes, hids⟩
    exact ⟨hstart, htypes, hids, by simp⟩

/-! ### The codes of the errors -/

theorem code_of_mem_startIssues {starts : List Node} {issue : Issue}
    (h : issue ∈ startIssues starts) :
    issue.code = .noStartNode ∨ issue.code = .multipleStartNodes := by
  match starts with
  | [] => exact .inl (by rw [List.mem_singleton.1 h])
  | [_] => cases h
  | _ :: _ :: _ => exact .inr (by rw [List.mem_singleton.1 h])

theorem code_of_mem_nodeIssues {extraTypes seen : List Text} {n : Node} {issue : Issue}
    (h : issue ∈ nodeIssues extraTypes seen n) :
    issue.code = .invalidNodeType ∨ issue.code = .duplicateNodeId := by
  rcases List.mem_append.1 h with htype | hid
  · split at htype
    · cases htype
    · exact .inl (by rw [List.mem_singleton.1 htype]; rfl)
  · split at hid
    · exact .inr (by rw [List.mem_singleton.1 hid]; rfl)
    · cases hid

theorem code_of_mem_issuesOfNodes {extraTypes seen : List Text} {nodes : List Node}
    {issue : Issue} (h : issue ∈ issuesOfNodes extraTypes seen nodes) :
    issue.code = .invalidNodeType ∨ issue.code = .duplicateNodeId := by
  induction nodes generalizing seen with
  | nil => cases h
  | cons n rest ih =>
    rcases List.mem_append.1 h with hfirst | hrest
    · exact code_of_mem_nodeIssues hfirst
    · exact ih hrest

theorem code_of_mem_errors {extraTypes : List Text} {g : Graph} {issue : Issue}
    (h : issue ∈ (g.check extraTypes).errors) :
    (issue.code = .noStartNode ∨ issue.code = .multipleStartNodes) ∨
      issue.code = .invalidNodeType ∨ issue.code = .duplicateNodeId :=
  (List.mem_append.1 h).imp code_of_mem_startIssues code_of_mem_issuesOfNodes

end Graph

end ConversationFlow.Editor
