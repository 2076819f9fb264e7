import ConversationFlow.Proofs.Compile.Flow
import ConversationFlow.Proofs.Executable.Values

/-!
# Free values of compiled flows

What is passed through a compilation comes from the data of the drawing, so a drawing of which the
data are dictionaries compiles to a sound flow.
-/

namespace ConversationFlow

open Schema

namespace Editor

/-- All objects among the data of a node are dictionaries. -/
def Node.HasDistinctKeys (n : Node) : Prop :=
  ∀ v ∈ n.data.values, v.HasDistinctKeys

def Graph.HasDistinctKeys (g : Graph) : Prop :=
  ∀ n ∈ g.nodes, n.HasDistinctKeys

instance (g : Graph) : Decidable g.HasDistinctKeys := by
  unfold Graph.HasDistinctKeys Node.HasDistinctKeys Json.HasDistinctKeys
  infer_instance

theorem Node.HasDistinctKeys.value {n : Node} (h : n.HasDistinctKeys) (key : Text) :
    (n.value key).HasDistinctKeys := by
  rw [Node.value]
  cases hget : n.data.get? key with
  | none => exact Executable.hasDistinctKeys_null
  | some v =>
    exact h v (List.mem_map.2 ⟨(key, v), Table.get?_eq_some_iff.1 hget, rfl⟩)

section Read

variable {source : Source} {v : Json}

theorem Node.hasDistinctKeys_of_read {n : Node} (hv : v.HasDistinctKeys)
    (h : Record.read source v = .accepted n) : n.HasDistinctKeys := by
  obtain ⟨entries, rfl, hfields⟩ := exists_of_read h
  obtain ⟨_, h₂, data, hdata, rfl⟩ := Reading.seq_eq_accepted_iff.1 hfields
  obtain ⟨_, h₁, type, -, rfl⟩ := Reading.seq_eq_accepted_iff.1 h₂
  obtain ⟨id, -, rfl⟩ := Reading.map_eq_accepted_iff.1 h₁
  have hdistinct : ∀ entry ∈ data.entries, entry.2.HasDistinctKeys := by
    refine Fields.yields_defaulted (P := fun t => ∀ entry ∈ t.entries, entry.2.HasDistinctKeys)
      (by simp [Table.empty]) ?_ data hdata
    intro field hfield
    unfold Node.readData
    split
    · exact Reading.yields_accepted (by simp [Table.empty])
    · exact Executable.yields_freeTable (Executable.hasDistinctKeys_of_mem hv field hfield)
  exact List.forall_mem_map.2 hdistinct

theorem Graph.hasDistinctKeys_of_read {g : Graph} (hv : v.HasDistinctKeys)
    (h : Record.read source v = .accepted g) : g.HasDistinctKeys := by
  obtain ⟨entries, rfl, hfields⟩ := exists_of_read h
  obtain ⟨_, h₂, viewport, -, rfl⟩ := Reading.seq_eq_accepted_iff.1 hfields
  obtain ⟨_, h₁, edges, -, rfl⟩ := Reading.seq_eq_accepted_iff.1 h₂
  obtain ⟨nodes, hnodes, rfl⟩ := Reading.map_eq_accepted_iff.1 h₁
  refine Fields.yields_defaulted (P := fun ns => ∀ n ∈ ns, n.HasDistinctKeys) (by simp) ?_ nodes
    hnodes
  intro field hfield
  have hvalue := Executable.hasDistinctKeys_of_mem hv field hfield
  refine yields_list fun items heq item hitem n hn => ?_
  rw [heq] at hvalue
  exact Node.hasDistinctKeys_of_read ((Json.every_arr_iff.1 hvalue).2 item hitem) hn

end Read

end Editor

namespace Compile

open Executable
open Editor (Edge Graph NodeKind)

variable {provider : Provider} {journal : Journal}

theorem hasDistinctKeys_first {values : List Json} {fallback : Json}
    (hvalues : ∀ v ∈ values, v.HasDistinctKeys) (hfallback : fallback.HasDistinctKeys) :
    (Json.first values fallback).HasDistinctKeys := by
  rw [Json.first]
  cases hfind : values.find? Json.isTruthy with
  | none => exact hfallback
  | some v => exact hvalues v (List.mem_of_find?_eq_some hfind)

theorem hasDistinctKeys_compileAction {n : Editor.Node} {c : ActionConfig}
    (hn : n.HasDistinctKeys) (h : ((compileAction n).runFrom provider journal).1 = .ok c) :
    ∀ v ∈ c.parameters.values, v.HasDistinctKeys := by
  have hread := eq_accepted_of_build h
  obtain ⟨_, hkind, parameters, hparameters, rfl⟩ := Reading.seq_eq_accepted_iff.1 hread
  obtain ⟨kind, -, rfl⟩ := Reading.map_eq_accepted_iff.1 hkind
  have hvalue : (firstOf n ["parameters"] (.obj [])).HasDistinctKeys := by
    refine hasDistinctKeys_first (by simpa using hn.value "parameters") ?_
    exact Json.every_obj_iff.2 ⟨List.nodup_nil, by simp⟩
  exact List.forall_mem_map.2 ((yields_freeTable hvalue).under _ parameters hparameters)

theorem isSpelled_of_nodeType? {config : Config} {type : NodeType}
    (h : config.nodeType? = some type) : config.IsSpelled := by
  cases config with
  | passthrough c => cases h
  | start | message | question | condition | api | delay | action | form | assignment | tag | segment
  | transferAgent | finish => trivial

/-- Only actions and data that are passed through have free values. -/
theorem freeValues_eq_nil {config : Config} {type : NodeType} (h : config.nodeType? = some type)
    (htype : type ≠ .action) : config.freeValues = [] := by
  cases config with
  | action c =>
    cases h
    exact absurd rfl htype
  | passthrough c => cases h
  | start | message | question | condition | api | delay | form | assignment | tag | segment
  | transferAgent | finish => rfl

variable [Host]

theorem hasDistinctKeys_compileConfig {n : Editor.Node} {kind : NodeKind} {config : Config}
    (hn : n.HasDistinctKeys)
    (h : ((compileConfig n kind).runFrom provider journal).1 = .ok config) :
    ∀ v ∈ config.freeValues, v.HasDistinctKeys := by
  by_cases haction : kind = .executable .action
  · subst haction
    rw [compileConfig, Job.runFrom_map] at h
    obtain ⟨c, hc, rfl⟩ := exists_of_map_eq_ok h
    exact hasDistinctKeys_compileAction hn hc
  · have htype : kind.nodeType ≠ .action := by
      cases kind with
      | executable type => exact fun heq => haction (congrArg NodeKind.executable heq)
      | advancedCondition | input | mediaMessage | carousel | dynamicText => decide
    rw [freeValues_eq_nil (nodeType?_of_compileConfig h) htype]
    simp

theorem IsCompiled.isSound {edges : List Edge} {n : Editor.Node} {node : Executable.Node}
    (h : IsCompiled edges n node) (hn : n.HasDistinctKeys) : node.IsSound := by
  have htyped := h.nodeType?_config
  obtain ⟨provider, journal, hrun⟩ := h
  cases hkind : NodeKind.ofName? n.type with
  | some kind =>
    simp only [compileNode, hkind] at hrun
    obtain ⟨config, hconfig, rfl⟩ := exists_config_of_kind hrun
    refine ⟨htyped, ?_, hasDistinctKeys_compileConfig hn hconfig⟩
    exact isSpelled_of_nodeType? (nodeType?_of_compileConfig hconfig)
  | none =>
    simp only [compileNode, hkind] at hrun
    obtain ⟨rfl, hspelled⟩ := eq_assemble_of_passThrough hrun
    exact ⟨htyped, hspelled, hn⟩

theorem IsFlowOf.isSound {g : Graph} {flow : Flow} (h : IsFlowOf g flow) (hg : g.HasDistinctKeys) :
    flow.IsSound := by
  constructor
  · rintro ⟨key, node⟩ hentry
    obtain ⟨n, hn, -, hcompiled⟩ := h.nodes.exists_origin hentry
    exact hcompiled.isSound (hg n hn)
  · rw [FlowConfig.freeValues, h.definitions]
    simp

end Compile

end ConversationFlow
