import ConversationFlow.Check.Flow
import ConversationFlow.Proofs.Check.Cycles
import ConversationFlow.Proofs.Table
import Mathlib.Data.List.Perm.Subperm

/-!
# What the check of a flow says

A flow passes its check exactly if a conversation can be had with it: the entry is a start node, no
cycle can be reached from it, and every transition leads to a node. Each of the three has a code of
its own, so the codes of the errors say which of them fail.
-/

namespace ConversationFlow.Executable.Flow

variable {flow : Flow}

def HasStart (flow : Flow) : Prop :=
  ∃ n, flow.getNode? flow.entryNodeId = some n ∧ n.isStart = true

def IsClosed (flow : Flow) : Prop :=
  ∀ a b, flow.Follows a b → b ∈ flow.nodes.keys

/-- A conversation can be had with the flow. -/
structure IsRunnable (flow : Flow) : Prop where
  start : flow.HasStart
  acyclic : AcyclicFrom flow.Follows flow.entryNodeId
  closed : flow.IsClosed

theorem entryIssues_eq_nil_iff : flow.entryIssues = [] ↔ flow.HasStart := by
  rw [entryIssues, HasStart]
  cases hentry : flow.getNode? flow.entryNodeId with
  | none => simp
  | some n => simp

theorem follows_iff {a b : Text} :
    flow.Follows a b ↔ ∃ n, (a, n) ∈ flow.nodes.entries ∧ b ∈ n.targets := by
  simp only [← Table.get?_eq_some_iff, Follows, targets, getNode?]
  cases flow.nodes.get? a with
  | none => simp
  | some n => simp

theorem follows_iff_exists_transition {a b : Text} :
    flow.Follows a b ↔
      ∃ n, flow.getNode? a = some n ∧ ∃ t ∈ n.transitions, t.target = b := by
  simp only [follows_iff, ← Table.get?_eq_some_iff, Node.targets, List.mem_map]
  rfl

theorem mem_keys_of_follows {a b : Text} (h : flow.Follows a b) : a ∈ flow.nodes.keys := by
  obtain ⟨n, hentry, -⟩ := follows_iff.1 h
  exact List.mem_map.2 ⟨(a, n), hentry, rfl⟩

theorem transitionIssues_eq_nil_iff : flow.transitionIssues = [] ↔ flow.IsClosed := by
  simp only [transitionIssues, IsClosed, follows_iff, List.flatMap_eq_nil_iff, List.map_eq_nil_iff,
    List.filter_eq_nil_iff, Bool.not_eq_true', Bool.not_eq_false, ← Table.contains_iff_mem_keys]
  constructor
  · rintro h a b ⟨n, hentry, htarget⟩
    exact h (a, n) hentry b htarget
  · exact fun h entry hentry b htarget => h entry.1 b ⟨entry.2, hentry, htarget⟩

theorem errors_eq_nil_iff : flow.errors = [] ↔ flow.IsRunnable := by
  rw [errors, List.append_eq_nil_iff, List.append_eq_nil_iff, List.map_eq_nil_iff,
    entryIssues_eq_nil_iff, cycles_eq_nil_iff, transitionIssues_eq_nil_iff]
  exact ⟨fun h => ⟨h.1.1, h.1.2, h.2⟩, fun h => ⟨⟨h.start, h.acyclic⟩, h.closed⟩⟩

theorem valid_check_iff {warn : Bool} : (flow.check warn).valid = true ↔ flow.IsRunnable := by
  rw [check, Report.ofIssues, List.isEmpty_iff, errors_eq_nil_iff]

theorem code_of_mem_entryIssues {issue : Issue} (h : issue ∈ flow.entryIssues) :
    issue.code = .invalidEntryNode := by
  unfold entryIssues at h
  split at h
  · simp at h
  · rw [List.mem_singleton.1 h]
    rfl

theorem code_of_mem_map_cycleIssue {issue : Issue} (h : issue ∈ flow.cycles.map cycleIssue) :
    issue.code = .infiniteLoop := by
  obtain ⟨cycle, -, rfl⟩ := List.mem_map.1 h
  rfl

theorem code_of_mem_transitionIssues {issue : Issue} (h : issue ∈ flow.transitionIssues) :
    issue.code = .invalidTransition := by
  obtain ⟨entry, -, hissue⟩ := List.mem_flatMap.1 h
  obtain ⟨target, -, rfl⟩ := List.mem_map.1 hissue
  rfl

theorem mem_errors_iff {issue : Issue} : issue ∈ flow.errors ↔
    issue ∈ flow.entryIssues ∨ issue ∈ flow.cycles.map cycleIssue ∨
      issue ∈ flow.transitionIssues := by
  rw [errors, List.mem_append, List.mem_append, or_assoc]

/-- The codes that the errors of a flow may have. -/
theorem code_of_mem_errors {issue : Issue} (h : issue ∈ flow.errors) :
    issue.code = .invalidEntryNode ∨ issue.code = .infiniteLoop ∨
      issue.code = .invalidTransition :=
  (mem_errors_iff.1 h).imp code_of_mem_entryIssues
    (.imp code_of_mem_map_cycleIssue code_of_mem_transitionIssues)

/-- The issue about the entry is the only one with its code, and likewise below. -/
theorem mem_entryIssues_iff {issue : Issue} :
    issue ∈ flow.entryIssues ↔ issue ∈ flow.errors ∧ issue.code = .invalidEntryNode := by
  refine ⟨fun h => ⟨mem_errors_iff.2 (.inl h), code_of_mem_entryIssues h⟩, ?_⟩
  rintro ⟨hmem, hcode⟩
  rcases mem_errors_iff.1 hmem with hentry | hcycle | htransition
  · exact hentry
  · simp [code_of_mem_map_cycleIssue hcycle] at hcode
  · simp [code_of_mem_transitionIssues htransition] at hcode

theorem mem_map_cycleIssue_iff {issue : Issue} :
    issue ∈ flow.cycles.map cycleIssue ↔ issue ∈ flow.errors ∧ issue.code = .infiniteLoop := by
  refine ⟨fun h => ⟨mem_errors_iff.2 (.inr (.inl h)), code_of_mem_map_cycleIssue h⟩, ?_⟩
  rintro ⟨hmem, hcode⟩
  rcases mem_errors_iff.1 hmem with hentry | hcycle | htransition
  · simp [code_of_mem_entryIssues hentry] at hcode
  · exact hcycle
  · simp [code_of_mem_transitionIssues htransition] at hcode

theorem mem_transitionIssues_iff {issue : Issue} :
    issue ∈ flow.transitionIssues ↔
      issue ∈ flow.errors ∧ issue.code = .invalidTransition := by
  refine ⟨fun h => ⟨mem_errors_iff.2 (.inr (.inr h)), code_of_mem_transitionIssues h⟩, ?_⟩
  rintro ⟨hmem, hcode⟩
  rcases mem_errors_iff.1 hmem with hentry | hcycle | htransition
  · simp [code_of_mem_entryIssues hentry] at hcode
  · simp [code_of_mem_map_cycleIssue hcycle] at hcode
  · exact htransition

theorem exists_invalidEntryNode_iff :
    (∃ issue ∈ flow.errors, issue.code = .invalidEntryNode) ↔ ¬flow.HasStart := by
  rw [← entryIssues_eq_nil_iff, List.eq_nil_iff_forall_not_mem, not_forall_not]
  exact exists_congr fun _ => mem_entryIssues_iff.symm

theorem exists_infiniteLoop_iff :
    (∃ issue ∈ flow.errors, issue.code = .infiniteLoop) ↔
      ¬AcyclicFrom flow.Follows flow.entryNodeId := by
  rw [← cycles_eq_nil_iff, ← List.map_eq_nil_iff (f := cycleIssue),
    List.eq_nil_iff_forall_not_mem, not_forall_not]
  exact exists_congr fun _ => mem_map_cycleIssue_iff.symm

theorem exists_invalidTransition_iff :
    (∃ issue ∈ flow.errors, issue.code = .invalidTransition) ↔ ¬flow.IsClosed := by
  rw [← transitionIssues_eq_nil_iff, List.eq_nil_iff_forall_not_mem, not_forall_not]
  exact exists_congr fun _ => mem_transitionIssues_iff.symm

/-- A transition that leads to no node is reported at the node that it leaves. -/
theorem exists_issue_of_follows {a b : Text} (h : flow.Follows a b) (hb : b ∉ flow.nodes.keys) :
    ∃ issue ∈ flow.errors, issue.code = .invalidTransition ∧ issue.nodeId = some a := by
  obtain ⟨n, hentry, htarget⟩ := follows_iff.1 h
  have hlost : flow.nodes.contains b = false := by
    rw [Bool.eq_false_iff]
    exact fun hcontains => hb (Table.contains_iff_mem_keys.1 hcontains)
  have hissue : Issue.about .invalidTransition
      ("Transition points to non-existent node: " ++ b) a ∈ flow.transitionIssues := by
    refine List.mem_flatMap.2 ⟨(a, n), hentry, List.mem_map.2 ⟨b, ?_, rfl⟩⟩
    exact List.mem_filter.2 ⟨htarget, by rw [hlost]; rfl⟩
  exact ⟨_, mem_errors_iff.2 (.inr (.inr hissue)), rfl, rfl⟩

/-- A walk through a flow that passed its check stays among the nodes and meets each of them once at
most. -/
theorem IsRunnable.walk (h : flow.IsRunnable) {walk : List Text} (hwalk : flow.IsWalk walk) :
    walk ⊆ flow.nodes.keys ∧ walk.Nodup ∧ walk.length ≤ flow.nodes.size := by
  obtain ⟨rest, rfl⟩ := hwalk.exists_eq_cons
  have hnodup := h.acyclic.nodup_of_isChain hwalk.goes
  have hsub : flow.entryNodeId :: rest ⊆ flow.nodes.keys := by
    intro id hid
    rcases Relation.reflTransGen_iff_eq_or_transGen.1 (hwalk.reflTransGen hid) with rfl | hreached
    · obtain ⟨n, hentry, -⟩ := h.start
      by_contra hnot
      simp [getNode?, Table.get?_eq_none_iff.2 hnot] at hentry
    · obtain ⟨a, -, hstep⟩ := Relation.TransGen.tail'_iff.1 hreached
      exact h.closed a id hstep
  refine ⟨hsub, hnodup, ?_⟩
  rw [← Table.length_keys]
  exact (List.subperm_of_subset hnodup hsub).length_le

end ConversationFlow.Executable.Flow
