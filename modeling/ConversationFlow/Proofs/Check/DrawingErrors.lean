import ConversationFlow.Proofs.Check.Drawing
import Mathlib.Data.Finset.Card

/-!
# The errors of a drawing

The check of a drawing goes through its nodes once and keeps the ids that it has met. What it reports
can be said without these: the error about the start nodes comes first, and then those of each
position, which depend on the type of the node that stands there and on the ids of the nodes before
it. So each node but the first one with an id is reported as a duplicate, and there are as many
duplicates as nodes beyond the distinct ids.
-/

namespace ConversationFlow.Editor

variable {extraTypes seen : List Text} {nodes : List Node} {n : Node}

structure StartErrors (starts : List Node) (errors : List Issue) : Prop where
  of_none : starts.length = 0 →
    errors = [⟨.noStartNode, "Flow must have exactly one Start node", none⟩]
  of_one : starts.length = 1 → errors = []
  of_several : 1 < starts.length →
    errors = [⟨.multipleStartNodes,
      "Flow has multiple Start nodes: " ++ Text.intercalate ", " (starts.map (·.id)), none⟩]

theorem startErrors_startIssues (starts : List Node) : StartErrors starts (startIssues starts) := by
  match starts with
  | [] => exact ⟨fun _ => rfl, by simp, by simp⟩
  | [_] => exact ⟨by simp, fun _ => rfl, by simp⟩
  | _ :: _ :: _ => exact ⟨by simp, by simp, fun _ => rfl⟩

instance (extraTypes : List Text) (type : Text) : Decidable (IsNodeType extraTypes type) :=
  decidable_of_iff _ acceptsType_iff

/-- The errors of the position at which `n` stands among the nodes of a drawing. -/
def errorsAt (extraTypes : List Text) (nodes : List Node) (n : Node) (position : Nat) :
    List Issue :=
  (if IsNodeType extraTypes n.type then []
    else [⟨.invalidNodeType, "Unknown node type: " ++ n.type, some n.id⟩]) ++
  (if n.id ∈ (nodes.take position).map (·.id) then
    [⟨.duplicateNodeId, "Duplicate node id: " ++ n.id, some n.id⟩] else [])

theorem nodeIssues_eq_errorsAt {before rest : List Node}
    (hseen : ∀ id, id ∈ seen ↔ id ∈ before.map (·.id)) :
    nodeIssues extraTypes seen n = errorsAt extraTypes (before ++ n :: rest) n before.length := by
  have htake : (before ++ n :: rest).take before.length = before := List.take_left
  rw [nodeIssues, errorsAt, htake]
  simp only [acceptsType_iff, hseen]
  rfl

theorem issuesOfNodes_eq {before rest : List Node}
    (hseen : ∀ id, id ∈ seen ↔ id ∈ before.map (·.id)) :
    issuesOfNodes extraTypes seen rest =
      (rest.zipIdx before.length).flatMap fun (n, i) =>
        errorsAt extraTypes (before ++ rest) n i := by
  -- the nodes before those that are still to come go along, since a position counts from the first
  induction rest generalizing before seen with
  | nil => rfl
  | cons n rest ih =>
    have hgrown : ∀ id, id ∈ n.id :: seen ↔ id ∈ (before ++ [n]).map (·.id) := by
      intro id
      simp [hseen, or_comm]
    have hlater := ih hgrown
    rw [List.append_assoc, List.singleton_append, List.length_append, List.length_singleton] at hlater
    rw [issuesOfNodes, nodeIssues_eq_errorsAt hseen, hlater, List.zipIdx_cons, List.flatMap_cons]

theorem countP_startIssues (starts : List Node) :
    (startIssues starts).countP (·.code = .duplicateNodeId) = 0 := by
  rw [List.countP_eq_zero]
  intro issue hissue
  rcases Graph.code_of_mem_startIssues hissue with hcode | hcode <;> simp [hcode]

theorem countP_nodeIssues (extraTypes seen : List Text) (n : Node) :
    (nodeIssues extraTypes seen n).countP (·.code = .duplicateNodeId) =
      if n.id ∈ seen then 1 else 0 := by
  rw [nodeIssues, List.countP_append]
  by_cases htype : acceptsType extraTypes n.type <;> by_cases hid : n.id ∈ seen <;>
    simp [htype, hid, Issue.about]

/-- Every node either repeats an id that was met before, or is the first one with its id. -/
theorem countP_issuesOfNodes (extraTypes seen : List Text) (nodes : List Node) :
    (issuesOfNodes extraTypes seen nodes).countP (·.code = .duplicateNodeId) +
        (seen ++ nodes.map (·.id)).toFinset.card =
      nodes.length + seen.toFinset.card := by
  induction nodes generalizing seen with
  | nil => simp [issuesOfNodes]
  | cons n rest ih =>
    have hrest := ih (n.id :: seen)
    have hids : (seen ++ (n :: rest).map (·.id)).toFinset =
        (n.id :: seen ++ rest.map (·.id)).toFinset := by
      ext id
      simp only [List.mem_toFinset, List.mem_append, List.mem_cons, List.map_cons]
      tauto
    rw [issuesOfNodes, List.countP_append, countP_nodeIssues, hids, List.length_cons]
    by_cases hid : n.id ∈ seen
    · have hcard : (n.id :: seen).toFinset.card = seen.toFinset.card := by
        rw [List.toFinset_cons, Finset.insert_eq_of_mem (List.mem_toFinset.2 hid)]
      rw [if_pos hid]
      omega
    · have hcard : (n.id :: seen).toFinset.card = seen.toFinset.card + 1 := by
        rw [List.toFinset_cons, Finset.card_insert_of_notMem fun h => hid (List.mem_toFinset.1 h)]
      rw [if_neg hid]
      omega

/-- A drawing passes its check exactly if it has one start node, known types and distinct ids. Else
the error about the start nodes is followed by those of each position in order, and there is one
duplicate for each node beyond the distinct ids. -/
theorem Graph.errors_of_check (extraTypes : List Text) (g : Graph) :
    let starts := g.nodes.filter (·.type = ↑"start")
    let ids := g.nodes.map (·.id)
    let errors := (g.check extraTypes).errors
    ((g.check extraTypes).valid = true ↔
      starts.length = 1 ∧ (∀ n ∈ g.nodes, IsNodeType extraTypes n.type) ∧ ids.Nodup) ∧
    (∃ first, StartErrors starts first ∧
      errors = first ++ g.nodes.zipIdx.flatMap fun (n, i) => errorsAt extraTypes g.nodes n i) ∧
    errors.countP (·.code = .duplicateNodeId) + ids.toFinset.card = g.nodes.length := by
  intro starts ids errors
  have herrors : errors = startIssues starts ++ issuesOfNodes extraTypes [] g.nodes := rfl
  refine ⟨?_, ⟨startIssues starts, startErrors_startIssues starts, ?_⟩, ?_⟩
  · rw [Graph.valid_check_iff, List.length_eq_one_iff]
    constructor
    · intro hdrawn
      exact ⟨hdrawn.start, hdrawn.types, hdrawn.ids⟩
    · rintro ⟨hstart, htypes, hids⟩
      exact ⟨hstart, htypes, hids⟩
  · have hnone : ∀ id, id ∈ ([] : List Text) ↔ id ∈ ([] : List Node).map (·.id) := by
      simp
    rw [herrors, issuesOfNodes_eq hnone]
    rfl
  · have hcount := countP_issuesOfNodes extraTypes [] g.nodes
    rw [herrors, List.countP_append, countP_startIssues, Nat.zero_add]
    simpa using hcount

/-- Repetitions and unknown types are reported side by side, and every repetition counts. -/
example :
    ((Graph.mk [⟨"a", "start", .empty⟩, ⟨"a", "odd", .empty⟩, ⟨"a", "end", .empty⟩] [] none).check
      []).errors.map (fun issue => (issue.code, issue.nodeId)) =
    [(.invalidNodeType, some ↑"a"), (.duplicateNodeId, some ↑"a"),
      (.duplicateNodeId, some ↑"a")] := by
  decide

end ConversationFlow.Editor
