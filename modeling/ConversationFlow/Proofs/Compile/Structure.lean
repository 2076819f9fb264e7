import ConversationFlow.Proofs.Compile.Acceptance

/-!
# The structure of a flow and of its drawing

A flow has the nodes of its drawing in the same order, and the edges that leave a node as the
transitions of this node, also in the same order. So the transitions are those edges that leave a
node. An edge that leaves no node is passed over, while one that leaves a node and leads to none
keeps the drawing from being compiled.
-/

namespace ConversationFlow

open Editor (Edge Graph)
open Executable (Flow Transition)

section Grouping

variable {α : Type} {f : α → Text}

theorem filter_append_filter_perm {key : Text} {keys : List Text} (hkey : key ∉ keys)
    (items : List α) :
    (items.filter (fun a => f a = key) ++ items.filter (fun a => f a ∈ keys)).Perm
      (items.filter (fun a => f a ∈ key :: keys)) := by
  have hsame : (items.filter (fun a => f a ∈ key :: keys)).filter (fun a => f a = key) =
      items.filter (fun a => f a = key) := by
    rw [List.filter_filter]
    refine List.filter_congr fun a _ => ?_
    simp only [List.mem_cons, ← Bool.decide_and]
    exact decide_eq_decide.2 ⟨And.left, fun h => ⟨h, .inl h⟩⟩
  have hother : (items.filter (fun a => f a ∈ key :: keys)).filter (fun a => !decide (f a = key)) =
      items.filter (fun a => f a ∈ keys) := by
    rw [List.filter_filter]
    refine List.filter_congr fun a _ => ?_
    by_cases ha : f a = key
    · simp [ha, hkey]
    · simp [ha]
  -- of the items with one of the keys, those with the first one are put before the others
  have hsplit := List.filter_append_perm (fun a => decide (f a = key))
    (items.filter (fun a => f a ∈ key :: keys))
  rwa [hsame, hother] at hsplit

/-- Items that are taken key by key are all items with one of the keys, each as often as it is there. -/
theorem flatMap_filter_perm (items : List α) {keys : List Text} (hkeys : keys.Nodup) :
    (keys.flatMap fun key => items.filter (fun a => f a = key)).Perm
      (items.filter (fun a => f a ∈ keys)) := by
  induction keys with
  | nil => simp
  | cons key rest ih =>
    obtain ⟨hkey, hrest⟩ := List.nodup_cons.1 hkeys
    rw [List.flatMap_cons]
    exact ((ih hrest).append_left _).trans (filter_append_filter_perm hkey items)

end Grouping

/-- What a drawing and a flow know of a connection: where it comes from, its id and where it leads. -/
structure Connection where
  source : Text
  id : Text
  target : Text
deriving DecidableEq

def Editor.Edge.connection (e : Edge) : Connection :=
  ⟨e.source, e.id, e.target⟩

/-- The edges of a drawing that leave a node. -/
def Editor.Graph.attached (g : Graph) : List Edge :=
  g.edges.filter fun e => e.source ∈ g.nodes.map (·.id)

/-- The transitions of a flow, node by node. -/
def Executable.Flow.connections (flow : Flow) : List Connection :=
  flow.nodes.entries.flatMap fun (key, node) =>
    node.transitions.map fun t => ⟨key, t.id, t.target⟩

namespace Compile

open Schema Executable

variable {g : Graph} {n : Editor.Node} {node : Executable.Node} {flow : Flow}
  {settings : Settings} {metadata : Metadata} {provider : Provider} {journal : Journal}

/-- A transition has the parts of the edge that was drawn at a position among the edges of its node. -/
structure IsImage (position : Nat) (e : Edge) (t : Transition) : Prop where
  id_eq : t.id = e.id
  target_eq : t.target = e.target
  priority_eq : t.priority = position
  condition_eq : t.condition = e.sourceHandle.bind conditionOf?
  label_eq : t.label = if e.label = none then e.sourceHandle else e.label

theorem isImage_transitionOf (position : Nat) (e : Edge) :
    IsImage position e (transitionOf position e) := by
  refine ⟨rfl, rfl, rfl, rfl, ?_⟩
  cases hlabel : e.label <;> simp [transitionOf, hlabel]

theorem mem_attached_iff {e : Edge} :
    e ∈ g.attached ↔ e ∈ g.edges ∧ ∃ n ∈ g.nodes, n.id = e.source := by
  simp [Graph.attached]

theorem length_attached_eq_iff :
    g.attached.length = g.edges.length ↔ ∀ e ∈ g.edges, ∃ n ∈ g.nodes, n.id = e.source := by
  rw [Graph.attached, List.length_filter_eq_length_iff]
  simp

section Host

variable [Host]

theorem IsCompiled.transitions_eq (h : IsCompiled (g.outgoing n.id) n node) :
    node.transitions = (g.outgoing n.id).mapIdx transitionOf := by
  obtain ⟨config, -, rfl⟩ := h.exists_config
  -- the edges are picked by their source twice: once for all nodes, and once more for this one
  simp only [assemble, transitionsOf, Graph.outgoing, List.filter_filter, Bool.and_self]

/-- A flow has the nodes of a drawing in order, starts at its start node, and has the edges that leave
a node as the transitions of this node, in order. -/
structure HasStructureOf (g : Graph) (flow : Flow) : Prop where
  keys : flow.nodes.keys = g.nodes.map (·.id)
  entry : ∃ start, g.startNodes = [start] ∧ flow.entryNodeId = start.id
  transitions : ∀ n ∈ g.nodes, ∃ node, flow.getNode? n.id = some node ∧
    node.transitions.length = (g.outgoing n.id).length ∧
    ∀ k e, (g.outgoing n.id)[k]? = some e →
      ∃ t, node.transitions[k]? = some t ∧ IsImage k e t

theorem hasStructureOf_of_compileGraph
    (h : ((compileGraph settings g metadata).runFrom provider journal).1 = .ok flow) :
    HasStructureOf g flow := by
  obtain ⟨hdrawn, hflow, -⟩ := isFlowOf_of_compileGraph h
  refine ⟨hflow.nodes.keys_eq, ?_, ?_⟩
  · obtain ⟨start, hstart⟩ := hdrawn.start
    exact ⟨start, hstart, hflow.entry start (by simp [hstart])⟩
  · intro n hn
    obtain ⟨node, hmem, hcompiled⟩ := hflow.nodes.exists_entry hn
    have htransitions := hcompiled.transitions_eq
    refine ⟨node, Table.get?_eq_some_iff.2 hmem, ?_, ?_⟩
    · rw [htransitions, List.length_mapIdx]
    · intro k e hedge
      refine ⟨transitionOf k e, ?_, isImage_transitionOf k e⟩
      rw [htransitions, List.getElem?_mapIdx, hedge, Option.map_some]

end Host

section SampleHost

attribute [local instance] sampleHost

theorem hasStructureOf_of_compileGraph_sampleDrawing :
    ∃ flow, ((compileGraph sampleSettings sampleDrawing sampleMetadata).runFrom sampleProvider
      .empty).1 = .ok flow ∧ HasStructureOf sampleDrawing flow := by
  obtain ⟨flow, hflow⟩ := exists_compileGraph_sampleDrawing
  exact ⟨flow, hflow, hasStructureOf_of_compileGraph hflow⟩

end SampleHost

section Host

variable [Host]

theorem IsCompiled.map_connection (h : IsCompiled (g.outgoing n.id) n node) :
    (node.transitions.map fun t => (⟨n.id, t.id, t.target⟩ : Connection)) =
      (g.outgoing n.id).map (·.connection) := by
  rw [h.transitions_eq]
  refine List.ext_getElem (by simp) fun i _ hi => ?_
  rw [List.length_map] at hi
  have hsource : (g.outgoing n.id)[i].source = n.id :=
    of_decide_eq_true (List.mem_filter.1 (List.getElem_mem hi)).2
  simp [transitionOf, Edge.connection, hsource]

theorem IsFlowOf.connections_perm (h : IsFlowOf g flow) (hids : (g.nodes.map (·.id)).Nodup) :
    flow.connections.Perm (g.attached.map (·.connection)) := by
  have hnodes : flow.connections =
      g.nodes.flatMap fun n => (g.outgoing n.id).map (·.connection) := by
    rw [Flow.connections, List.flatMap_def, List.flatMap_def]
    refine congrArg _ (map_eq_map_of_forall₂ h.nodes ?_).symm
    rintro n ⟨key, node⟩ ⟨rfl, hcompiled⟩
    exact hcompiled.map_connection.symm
  calc flow.connections
    _ = ((g.nodes.map (·.id)).flatMap g.outgoing).map (·.connection) := by
      rw [hnodes, List.map_flatMap, List.flatMap_map]
    _ |>.Perm (g.attached.map (·.connection)) := (flatMap_filter_perm g.edges hids).map _

/-- A drawing is not compiled on account of an edge that leads to no node: the edge is reported at the
node that it leaves, unless the compilation came to its end before the flow was checked. -/
inductive RejectedFor (e : Edge) : Except Failure Flow → Prop
  | reported {issues : List Issue}
    (hissue : ∃ issue ∈ issues, issue.code = .invalidTransition ∧ issue.nodeId = some e.source) :
    RejectedFor e (.error (.stopped .flow issues))
  | stopped {gate : Gate} {issues : List Issue} (hgate : gate = .drawing ∨ gate = .nodes)
    (hissues : issues ≠ []) : RejectedFor e (.error (.stopped gate issues))
  | ended {obstacle : Obstacle} : RejectedFor e (.error (.refused (.obstructed obstacle)))

/-- The transitions of a flow are the edges of its drawing that leave a node, so all edges are kept
exactly if each of them leaves a node. A drawing with an edge from a node to none is rejected. -/
theorem connections_of_compileGraph (settings : Settings) (g : Graph) (metadata : Metadata)
    (provider : Provider) (journal : Journal) :
    let outcome := ((compileGraph settings g metadata).runFrom provider journal).1
    (∀ flow, outcome = .ok flow →
      flow.connections.Perm (g.attached.map (·.connection)) ∧
      (flow.connections.length = g.edges.length ↔
        ∀ e ∈ g.edges, ∃ n ∈ g.nodes, n.id = e.source)) ∧
    (∀ e ∈ g.attached, (∀ n ∈ g.nodes, n.id ≠ e.target) → RejectedFor e outcome) := by
  intro outcome
  have houtcome : Outcome settings g outcome :=
    Compile.outcome settings g metadata provider journal
  clear_value outcome
  constructor
  · rintro flow rfl
    cases houtcome with
    | returned hdrawn _ hflow _ =>
      have hperm := hflow.connections_perm hdrawn.ids
      refine ⟨hperm, ?_⟩
      rw [hperm.length_eq, List.length_map, length_attached_eq_iff]
  · intro e he htarget
    obtain ⟨hedge, hsource⟩ := mem_attached_iff.1 he
    have harrow : g.Arrow e.source e.target := ⟨hsource, e, hedge, rfl, rfl⟩
    have hlost : ¬∃ n ∈ g.nodes, n.id = e.target := fun ⟨n, hn, hid⟩ => htarget n hn hid
    cases houtcome with
    | notDrawn _ hissues => exact .stopped (.inl rfl) hissues
    | notCompiled _ _ hissues => exact .stopped (.inr rfl) hissues
    | ended => exact .ended
    | notRunnable _ _ hflow _ =>
      refine .reported (Flow.exists_issue_of_follows (hflow.follows_iff.2 harrow) ?_)
      rwa [hflow.nodes.mem_keys_iff]
    | returned _ _ hflow hrunnable =>
      have hclosed : g.IsClosed := (hflow.isRunnable_iff.1 hrunnable).2
      exact absurd (hclosed e hedge hsource) hlost

end Host

attribute [local instance] sampleHost

theorem connections_of_compileGraph_sampleDrawing :
    ∃ flow, ((compileGraph sampleSettings sampleDrawing sampleMetadata).runFrom sampleProvider
      .empty).1 = .ok flow ∧ flow.connections.Perm (sampleDrawing.attached.map (·.connection)) := by
  obtain ⟨flow, hflow⟩ := exists_compileGraph_sampleDrawing
  exact ⟨flow, hflow, ((connections_of_compileGraph sampleSettings sampleDrawing sampleMetadata
    sampleProvider .empty).1 flow hflow).1⟩

/-- A drawing with an edge that leaves no node. -/
def strayDrawing : Graph where
  nodes := [⟨"s", "start", .empty⟩, ⟨"e", "end", .empty⟩]
  edges := [⟨"e1", "s", "e", none, none, none⟩, ⟨"e2", "ghost", "e", none, none, none⟩]
  viewport := none

theorem not_all_connections_strayDrawing :
    ∃ flow, ((compileGraph .plain strayDrawing sampleMetadata).runFrom sampleProvider .empty).1 =
        .ok flow ∧
      flow.connections.length ≠ strayDrawing.edges.length ∧
      ∃ e ∈ strayDrawing.edges, ∀ c ∈ flow.connections, c.id ≠ e.id := by
  obtain ⟨flow, hflow, hconnections⟩ : ∃ flow, ((compileGraph .plain strayDrawing
      sampleMetadata).runFrom sampleProvider .empty).1 = .ok flow ∧
        flow.connections = [⟨"s", "e1", "e"⟩] := by
    decide +kernel
  refine ⟨flow, hflow, ?_⟩
  rw [hconnections]
  decide

end Compile

end ConversationFlow
