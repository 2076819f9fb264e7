import ConversationFlow.Proofs.RoundTrip

/-!
# Types and configurations

The type of a node says which configuration it has. No reader and no check compares the two: a
node is read with the configuration that its type asks for, and a node of the editor is compiled
to a type and a configuration that go together. What is passed through keeps a type that no engine
knows, so data of the editor never stand in for the configuration of a known type.
-/

namespace ConversationFlow

open Schema Executable
open Editor (Edge Graph NodeKind authoringTypes)

namespace Executable

theorem Config.nodeType?_eq_none_iff {config : Config} :
    config.nodeType? = none ↔ ∃ c, config = .passthrough c := by
  cases config <;> simp [nodeType?]

/-- A node of a known type has the configuration for it, and a node of any other type has free
data. -/
structure Node.IsTyped (n : Node) : Prop where
  known : ∀ type : NodeType, n.type = type.name → n.config.nodeType? = some type
  other : (∀ type : NodeType, n.type ≠ type.name) → ∃ c, n.config = .passthrough c

theorem Node.isTyped_of_nodeType? {n : Node} (h : n.config.nodeType? = n.nodeType?) :
    n.IsTyped := by
  rw [nodeType?] at h
  constructor
  · intro type htype
    rw [h, htype, NodeType.ofName?_name]
  · intro hother
    rw [← Config.nodeType?_eq_none_iff, h]
    cases hknown : NodeType.ofName? n.type with
    | none => rfl
    | some type => exact absurd (Choice.ofName?_eq_some_iff.1 hknown).symm (hother type)

end Executable

namespace Compile

variable {edges : List Edge} {extraTypes : List Text} {n : Editor.Node} {node : Executable.Node}

/-- Exactly a node of an extra type without a meaning of its own is passed through. It keeps its
type, and its data become its configuration. -/
structure PassesThrough (extraTypes : List Text) (n : Editor.Node) (node : Executable.Node) :
    Prop where
  exactly : (∃ c, node.config = .passthrough c) ↔
    n.type ∈ extraTypes ∧ n.type ∉ Choice.names NodeType ++ authoringTypes
  unchanged : ∀ c, node.config = .passthrough c → node.type = n.type ∧ c.bag = n.data

section Host

variable [Host]

theorem IsCompiled.passesThrough (h : IsCompiled edges n node)
    (htype : Editor.IsNodeType extraTypes n.type) : PassesThrough extraTypes n node := by
  have hknown : n.type ∈ Choice.names NodeType ++ authoringTypes ↔
      (NodeKind.ofName? n.type).isSome = true :=
    Choice.mem_names_iff (α := NodeKind)
  obtain ⟨provider, journal, hrun⟩ := h
  rw [compileNode] at hrun
  split at hrun
  · next kind hkind =>
    have hmeant : n.type ∈ Choice.names NodeType ++ authoringTypes := by simp [hknown, hkind]
    obtain ⟨config, hconfig, rfl⟩ := exists_config_of_kind hrun
    have htyped : ∀ c, config ≠ .passthrough c := by
      rintro c rfl
      exact absurd (nodeType?_of_compileConfig hconfig) (by simp [Config.nodeType?])
    exact ⟨iff_of_false (not_exists.2 htyped) fun hextra => hextra.2 hmeant,
      fun c hc => absurd hc (htyped c)⟩
  · next hkind =>
    have hmeant : n.type ∉ Choice.names NodeType ++ authoringTypes := by simp [hknown, hkind]
    have hextra : n.type ∈ extraTypes := by
      rcases htype with hexecutable | hauthoring | hextra
      · exact absurd (List.mem_append_left _ hexecutable) hmeant
      · exact absurd (List.mem_append_right _ hauthoring) hmeant
      · exact hextra
    rw [(eq_assemble_of_passThrough hrun).1]
    exact ⟨iff_of_true ⟨_, rfl⟩ ⟨hextra, hmeant⟩, by rintro _ ⟨⟩; exact ⟨rfl, rfl⟩⟩

/-- A flow has the compiled forms of the nodes of a drawing under their ids, in order, and of
these the ones of extra types are passed through. -/
def PassesThroughExtras (extraTypes : List Text) (g : Graph) (flow : Flow) : Prop :=
  List.Forall₂ (fun n entry => entry.1 = n.id ∧ PassesThrough extraTypes n entry.2)
    g.nodes flow.nodes.entries

theorem IsFlowOf.passesThroughExtras {g : Graph} {flow : Flow} (h : IsFlowOf g flow)
    (htypes : ∀ n ∈ g.nodes, Editor.IsNodeType extraTypes n.type) :
    PassesThroughExtras extraTypes g flow := by
  refine ((List.forall₂_and_left _ _).2 ⟨htypes, h.nodes⟩).imp ?_
  rintro n entry ⟨htype, hid, hcompiled⟩
  exact ⟨hid, hcompiled.passesThrough htype⟩

end Host

end Compile

open Compile

variable {settings : Settings} {flow : Flow}

theorem isTyped_of_read {source : Source} {v : Json} (h : readRecord source v = .ok flow) :
    ∀ entry ∈ flow.nodes.entries, entry.2.IsTyped := by
  intro entry hentry
  obtain ⟨w, hw⟩ := Flow.exists_read_of_mem_nodes (exists_read_of_readRecord h) hentry
  exact Node.isTyped_of_nodeType? (Node.nodeType?_config_of_read hw)

section Host

variable [Host]

/-- A flow was handed out by a compilation or an import, or was read from a document by itself. -/
inductive Obtained (settings : Settings) (flow : Flow) : Prop
  | returned (h : Returned settings flow)
  | read (source : Source) (v : Json) (h : readRecord source v = .ok flow)

theorem Obtained.isTyped (h : Obtained settings flow) :
    ∀ entry ∈ flow.nodes.entries, entry.2.IsTyped := by
  have hcompiled {g : Graph} {metadata : Metadata} {provider : Provider} {journal : Journal}
      (h : ((compileGraph settings g metadata).runFrom provider journal).1 = .ok flow) :
      ∀ entry ∈ flow.nodes.entries, entry.2.IsTyped := by
    intro entry hentry
    obtain ⟨n, -, -, hnode⟩ := (isFlowOf_of_compileGraph h).2.1.nodes.exists_origin hentry
    exact Node.isTyped_of_nodeType? hnode.nodeType?_config
  rcases h with (⟨g, metadata, provider, journal, h⟩ | ⟨drawing, metadata, provider, journal, h⟩ |
    ⟨s, provider, journal, h⟩) | ⟨source, v, h⟩
  · exact hcompiled h
  · obtain ⟨g, data, -, later, -, -, h⟩ := exists_compileGraph_of_compile h
    exact hcompiled h
  · obtain ⟨v, -, h⟩ := exists_of_readFlow (readFlow_of_importFlow h).1
    exact isTyped_of_read h
  · exact isTyped_of_read h

theorem passesThroughExtras_of_compileGraph {g : Graph} {metadata : Metadata} {provider : Provider}
    {journal : Journal}
    (h : ((compileGraph settings g metadata).runFrom provider journal).1 = .ok flow) :
    PassesThroughExtras settings.passthroughNodeTypes g flow := by
  obtain ⟨hdrawn, hflow, -⟩ := isFlowOf_of_compileGraph h
  exact hflow.passesThroughExtras hdrawn.types

/-- In every flow, the configurations are the ones for the types. And a compilation passes exactly
the nodes of extra types without a meaning of their own through, with their types and data. -/
theorem configurations_match_types (settings : Settings) :
    (∀ flow, Obtained settings flow → ∀ entry ∈ flow.nodes.entries, entry.2.IsTyped) ∧
    (∀ g metadata provider journal flow,
      ((compileGraph settings g metadata).runFrom provider journal).1 = .ok flow →
        PassesThroughExtras settings.passthroughNodeTypes g flow) ∧
    (∀ drawing metadata provider journal flow,
      ((compile settings drawing metadata).runFrom provider journal).1 = .ok flow →
        ∃ g, readRecord .values drawing = .ok g ∧
          PassesThroughExtras settings.passthroughNodeTypes g flow) := by
  refine ⟨fun flow h => h.isTyped, fun g metadata provider journal flow h =>
    passesThroughExtras_of_compileGraph h, ?_⟩
  intro drawing metadata provider journal flow h
  obtain ⟨g, data, -, later, hread, -, hcompiled⟩ := exists_compileGraph_of_compile h
  exact ⟨g, hread, passesThroughExtras_of_compileGraph hcompiled⟩

end Host

attribute [local instance] sampleHost

/-- The sample drawing has a node that is passed through; it also compiles as a document. -/
theorem configurations_match_types_sampleDrawing :
    (∃ flow, Obtained sampleSettings flow ∧ (∀ entry ∈ flow.nodes.entries, entry.2.IsTyped) ∧
      PassesThroughExtras sampleSettings.passthroughNodeTypes sampleDrawing flow ∧
      ∃ node, flow.getNode? "idle" = some node ∧ node.config = .passthrough ⟨sampleData⟩) ∧
    ∃ flow g, readRecord .values (Record.write false sampleDrawing) = .ok g ∧
      PassesThroughExtras sampleSettings.passthroughNodeTypes g flow := by
  obtain ⟨htyped, hdrawing, hdocuments⟩ := configurations_match_types sampleSettings
  constructor
  · obtain ⟨flow, hflow, hidle⟩ : ∃ flow, ((compileGraph sampleSettings sampleDrawing
        sampleMetadata).runFrom sampleProvider .empty).1 = .ok flow ∧
          (flow.getNode? "idle").map (·.config) = some (.passthrough ⟨sampleData⟩) := by
      decide +kernel
    obtain ⟨node, hnode, hconfig⟩ := Option.map_eq_some_iff.1 hidle
    have hobtained : Obtained sampleSettings flow := .returned (.drawing _ _ _ _ hflow)
    exact ⟨flow, hobtained, htyped flow hobtained, hdrawing _ _ _ _ flow hflow, node, hnode,
      hconfig⟩
  · obtain ⟨flow, hflow⟩ : ∃ flow, ((compile sampleSettings (Record.write false sampleDrawing)
        .null).runFrom sampleProvider .empty).1 = .ok flow := by
      decide +kernel
    exact ⟨flow, hdocuments _ _ _ _ flow hflow⟩

end ConversationFlow
