import ConversationFlow.Proofs.Check.Outline
import ConversationFlow.Proofs.Dates
import ConversationFlow.Proofs.Executable.Values

/-!
# Flows as a text gives them

A text has no number that is not finite; it has null instead. And it has no seconds in the offset of a
date. So what a text gives of a flow is the flow with null among its free values in place of such
numbers, and with offsets of whole minutes, and all of it if that is what it is already.
-/

namespace ConversationFlow.Executable

open Schema

def Config.finite : Config → Config
  | .action c => .action { c with parameters := c.parameters.map Json.finite }
  | .passthrough c => .passthrough ⟨c.bag.map Json.finite⟩
  | c => c

def Node.finite (n : Node) : Node :=
  { n with config := n.config.finite }

def VariableDefinition.finite (d : VariableDefinition) : VariableDefinition :=
  { d with defaultValue := d.defaultValue.finite }

def FlowConfig.finite (c : FlowConfig) : FlowConfig :=
  { c with definitions := c.definitions.map VariableDefinition.finite }

/-- The flow as its text gives it. -/
def Flow.written (flow : Flow) : Flow :=
  { flow with
    metadata := flow.metadata.written
    nodes := flow.nodes.map Node.finite
    config := flow.config.finite }

/-! ### Free values -/

theorem values_map (f : Json → Json) (t : Table Json) : (t.map f).values = t.values.map f := by
  simp [Table.values, Table.map]

theorem Config.freeValues_finite (config : Config) :
    config.finite.freeValues = config.freeValues.map Json.finite := by
  cases config with
  | action c => exact values_map _ _
  | passthrough c => exact values_map _ _
  | _ => rfl

theorem FlowConfig.freeValues_finite (c : FlowConfig) :
    c.finite.freeValues = c.freeValues.map Json.finite := by
  rw [freeValues, freeValues, finite, List.map_map, List.map_map]
  rfl

theorem Config.nodeType?_finite (config : Config) :
    config.finite.nodeType? = config.nodeType? := by
  cases config <;> rfl

theorem Config.IsSpelled.finite {config : Config} (h : config.IsSpelled) :
    config.finite.IsSpelled := by
  cases config with
  | passthrough c => exact List.forall_mem_map.2 h
  | _ => trivial

theorem Config.finite_of_isFinite {config : Config} (h : ∀ v ∈ config.freeValues, v.IsFinite) :
    config.finite = config := by
  have htable {t : Table Json} (ht : ∀ v ∈ t.values, v.IsFinite) : t.map Json.finite = t := by
    refine Table.ext_entries ?_
    rw [Json.entries_map_finite]
    exact Json.finiteFields_of_isFinite fun entry hentry =>
      ht entry.2 (List.mem_map_of_mem hentry)
  cases config with
  | action c => rw [finite, htable h]
  | passthrough c => rw [finite, htable h]
  | _ => rfl

theorem FlowConfig.finite_of_isFinite {c : FlowConfig} (h : ∀ v ∈ c.freeValues, v.IsFinite) :
    c.finite = c := by
  have hdefinitions : c.definitions.map VariableDefinition.finite = c.definitions := by
    refine Json.map_id_of_forall fun d hd => ?_
    rw [VariableDefinition.finite, Json.finite_of_isFinite (h _ (List.mem_map_of_mem hd))]
  rw [finite, hdefinitions]

namespace Flow

variable {flow : Flow}

theorem hasFiniteValues_written (flow : Flow) : flow.written.HasFiniteValues := by
  have hfree (vs : List Json) : ∀ v ∈ vs.map Json.finite, v.IsFinite :=
    List.forall_mem_map.2 fun v _ => v.isFinite_finite
  rw [hasFiniteValues_iff]
  refine ⟨List.forall_mem_map.2 fun entry _ => ?_, ?_⟩
  · change ∀ v ∈ entry.2.config.finite.freeValues, v.IsFinite
    rw [Config.freeValues_finite]
    exact hfree _
  · change ∀ v ∈ flow.config.finite.freeValues, v.IsFinite
    rw [FlowConfig.freeValues_finite]
    exact hfree _

/-- A flow with finite values and with offsets of whole minutes is what its text gives. -/
theorem written_of_hasFiniteValues (h : flow.HasFiniteValues)
    (hdates : flow.metadata.HasMinuteOffsets) : flow.written = flow := by
  obtain ⟨hnodes, hconfig⟩ := hasFiniteValues_iff.1 h
  have htable : flow.nodes.map Node.finite = flow.nodes := by
    refine Table.ext_entries (Json.map_id_of_forall fun entry hentry => ?_)
    rw [Node.finite, Config.finite_of_isFinite (hnodes entry hentry)]
  rw [written, htable, FlowConfig.finite_of_isFinite hconfig, Metadata.written_eq_iff.2 hdates]

theorem written_written (flow : Flow) : flow.written.written = flow.written :=
  written_of_hasFiniteValues flow.hasFiniteValues_written
    (Metadata.written_eq_iff.1 flow.metadata.written_written)

theorem IsSound.written (h : flow.IsSound) : flow.written.IsSound := by
  have hdistinct {vs : List Json} (hvs : ∀ v ∈ vs, v.HasDistinctKeys) :
      ∀ v ∈ vs.map Json.finite, v.HasDistinctKeys :=
    List.forall_mem_map.2 fun v hv => Json.hasDistinctKeys_finite (hvs v hv)
  refine ⟨List.forall_mem_map.2 fun entry hentry => ?_, ?_⟩
  · have hnode := h.nodes entry hentry
    refine ⟨(Config.nodeType?_finite _).trans hnode.typed, hnode.spelled.finite, ?_⟩
    change ∀ v ∈ entry.2.config.finite.freeValues, v.HasDistinctKeys
    rw [Config.freeValues_finite]
    exact hdistinct hnode.distinct
  · change ∀ v ∈ flow.config.finite.freeValues, v.HasDistinctKeys
    rw [FlowConfig.freeValues_finite]
    exact hdistinct h.defaults

theorem sameOutline_written (flow : Flow) : SameOutline flow.written flow := by
  refine ⟨rfl, Table.ext_entries ?_⟩
  simp only [written, Table.map, List.map_map]
  rfl

end Flow

end ConversationFlow.Executable
