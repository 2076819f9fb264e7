import ConversationFlow.Executable.Flow
import ConversationFlow.Proofs.Executable.Tags
import ConversationFlow.Proofs.Schema.Accepted

/-!
# Free values of flows

The values of a flow that may be any documents: the data of nodes that are passed through, the
parameters of actions and the default values of variables.
-/

namespace ConversationFlow.Executable

open Schema

def Config.freeValues : Config → List Json
  | .action c => c.parameters.values
  | .passthrough c => c.bag.values
  | _ => []

/-- No surrogate stands in a key of data that are passed through. -/
def Config.IsSpelled : Config → Prop
  | .passthrough c => ∀ entry ∈ c.bag.entries, entry.1.isWhole = true
  | _ => True

def FlowConfig.freeValues (c : FlowConfig) : List Json :=
  c.definitions.map VariableDefinition.defaultValue

/-- A node has the configuration for its type, which is one that a reader takes, and its free values
are dictionaries. -/
structure Node.IsSound (n : Node) : Prop where
  typed : n.config.nodeType? = n.nodeType?
  spelled : n.config.IsSpelled
  distinct : ∀ v ∈ n.config.freeValues, v.HasDistinctKeys

namespace Flow

/-- The free values of a flow. -/
def freeValues (flow : Flow) : List Json :=
  flow.nodes.values.flatMap (fun n => n.config.freeValues) ++ flow.config.freeValues

/-- All numbers among the free values of a flow are finite. -/
def HasFiniteValues (flow : Flow) : Prop :=
  ∀ v ∈ flow.freeValues, v.IsFinite

instance (flow : Flow) : Decidable flow.HasFiniteValues := by
  unfold HasFiniteValues Json.IsFinite
  infer_instance

theorem hasFiniteValues_iff {flow : Flow} :
    flow.HasFiniteValues ↔
      (∀ entry ∈ flow.nodes.entries, ∀ v ∈ entry.2.config.freeValues, v.IsFinite) ∧
        ∀ v ∈ flow.config.freeValues, v.IsFinite := by
  simp only [HasFiniteValues, freeValues, List.forall_mem_append, List.forall_mem_flatMap,
    Table.values, List.forall_mem_map]

/-- All nodes of a flow are sound, and the default values of its variables are dictionaries. -/
structure IsSound (flow : Flow) : Prop where
  nodes : ∀ entry ∈ flow.nodes.entries, entry.2.IsSound
  defaults : ∀ v ∈ flow.config.freeValues, v.HasDistinctKeys

end Flow

section Read

variable {source : Source} {v : Json}

theorem yields_anything (h : v.HasDistinctKeys) : (anything v).Yields Json.HasDistinctKeys :=
  Reading.yields_accepted h

theorem hasDistinctKeys_of_mem {fields : List (Text × Json)}
    (h : (Json.obj fields).HasDistinctKeys) :
    ∀ field ∈ fields, field.2.HasDistinctKeys :=
  (Json.every_obj_iff.1 h).2

theorem yields_freeTable (h : v.HasDistinctKeys) : (mapping source anything v).Yields fun t =>
    ∀ entry ∈ t.entries, entry.2.HasDistinctKeys := by
  refine yields_mapping fun fields heq field hfield => yields_anything ?_
  exact hasDistinctKeys_of_mem (heq ▸ h) field hfield

theorem hasDistinctKeys_null : Json.null.HasDistinctKeys :=
  Json.every_null_iff.2 trivial

theorem ActionConfig.hasDistinctKeys_of_read {c : ActionConfig} (hv : v.HasDistinctKeys)
    (h : Record.read source v = .accepted c) : ∀ w ∈ c.parameters.values, w.HasDistinctKeys := by
  obtain ⟨entries, rfl, hfields⟩ := exists_of_read h
  obtain ⟨_, hkind, parameters, hparameters, rfl⟩ := Reading.seq_eq_accepted_iff.1 hfields
  obtain ⟨kind, -, rfl⟩ := Reading.map_eq_accepted_iff.1 hkind
  have hdistinct : ∀ entry ∈ parameters.entries, entry.2.HasDistinctKeys := by
    refine Fields.yields_defaulted (P := fun t => ∀ entry ∈ t.entries, entry.2.HasDistinctKeys)
      (by simp [Table.empty]) ?_ parameters hparameters
    intro field hfield
    exact yields_freeTable (hasDistinctKeys_of_mem hv field hfield)
  exact List.forall_mem_map.2 hdistinct

/-- Data are passed through as they are, if no surrogate stands in their keys. -/
theorem PassthroughConfig.exists_of_read {c : PassthroughConfig}
    (h : Record.read source v = .accepted c) :
    ∃ entries, v = .obj entries ∧ c = ⟨.ofList entries⟩ ∧
      ∀ entry ∈ entries, entry.1.isWhole = true := by
  obtain ⟨f, rfl, hfields, -, hspelled⟩ := exists_closed_of_read h
  cases hfields
  exact ⟨f.entries, rfl, rfl, Fields.spelled_eq_accepted_iff.1 (hspelled rfl)⟩

theorem PassthroughConfig.isSpelled_of_read {c : PassthroughConfig}
    (h : Record.read source v = .accepted c) : (Config.passthrough c).IsSpelled := by
  obtain ⟨entries, -, rfl, hspelled⟩ := exists_of_read h
  exact fun entry hentry => hspelled entry (Table.mem_of_mem_entries_ofList hentry)

theorem PassthroughConfig.hasDistinctKeys_of_read {c : PassthroughConfig} (hv : v.HasDistinctKeys)
    (h : Record.read source v = .accepted c) : ∀ w ∈ c.bag.values, w.HasDistinctKeys := by
  obtain ⟨entries, rfl, rfl, -⟩ := exists_of_read h
  refine List.forall_mem_map.2 fun entry hentry => ?_
  exact hasDistinctKeys_of_mem hv entry (Table.mem_of_mem_entries_ofList hentry)

theorem VariableDefinition.hasDistinctKeys_of_read {d : VariableDefinition} (hv : v.HasDistinctKeys)
    (h : Record.read source v = .accepted d) : d.defaultValue.HasDistinctKeys := by
  obtain ⟨entries, rfl, hfields⟩ := exists_of_read h
  obtain ⟨_, h₃, required, -, rfl⟩ := Reading.seq_eq_accepted_iff.1 hfields
  obtain ⟨_, h₂, value, hvalue, rfl⟩ := Reading.seq_eq_accepted_iff.1 h₃
  obtain ⟨_, h₁, kind, -, rfl⟩ := Reading.seq_eq_accepted_iff.1 h₂
  obtain ⟨name, -, rfl⟩ := Reading.map_eq_accepted_iff.1 h₁
  refine Fields.yields_defaulted hasDistinctKeys_null ?_ value hvalue
  exact fun field hfield => yields_anything (hasDistinctKeys_of_mem hv field hfield)

theorem FlowConfig.hasDistinctKeys_of_read {c : FlowConfig} (hv : v.HasDistinctKeys)
    (h : Record.read source v = .accepted c) : ∀ w ∈ c.freeValues, w.HasDistinctKeys := by
  obtain ⟨entries, rfl, hfields⟩ := exists_of_read h
  obtain ⟨_, h₄, definitions, hdefinitions, rfl⟩ := Reading.seq_eq_accepted_iff.1 hfields
  obtain ⟨_, h₃, fallbackNodeId, -, rfl⟩ := Reading.seq_eq_accepted_iff.1 h₄
  obtain ⟨_, h₂, errorBehavior, -, rfl⟩ := Reading.seq_eq_accepted_iff.1 h₃
  obtain ⟨_, h₁, maxIterations, -, rfl⟩ := Reading.seq_eq_accepted_iff.1 h₂
  obtain ⟨timeoutSeconds, -, rfl⟩ := Reading.map_eq_accepted_iff.1 h₁
  have hdistinct : ∀ d ∈ definitions, d.defaultValue.HasDistinctKeys := by
    refine Fields.yields_defaulted (P := fun ds => ∀ d ∈ ds, d.defaultValue.HasDistinctKeys)
      (by simp) ?_ definitions hdefinitions
    intro field hfield
    have hvalue := hasDistinctKeys_of_mem hv field hfield
    refine yields_list fun items heq item hitem d hd => ?_
    rw [heq] at hvalue
    exact VariableDefinition.hasDistinctKeys_of_read ((Json.every_arr_iff.1 hvalue).2 item hitem) hd
  exact List.forall_mem_map.2 hdistinct

theorem Config.nodeType?_of_read {type : Option NodeType} {config : Config}
    (h : Config.read source type v = .accepted config) : config.nodeType? = type := by
  cases type with
  | none =>
    obtain ⟨c, -, rfl⟩ := Reading.map_eq_accepted_iff.1 h
    rfl
  | some type =>
    cases type
    all_goals
      obtain ⟨c, -, rfl⟩ := Reading.map_eq_accepted_iff.1 h
      rfl

theorem Config.isSpelled_of_read {type : Option NodeType} {config : Config}
    (h : Config.read source type v = .accepted config) : config.IsSpelled := by
  cases type with
  | none =>
    obtain ⟨c, hc, rfl⟩ := Reading.map_eq_accepted_iff.1 h
    exact PassthroughConfig.isSpelled_of_read hc
  | some type =>
    cases type
    all_goals
      obtain ⟨c, -, rfl⟩ := Reading.map_eq_accepted_iff.1 h
      trivial

theorem Config.hasDistinctKeys_of_read {type : Option NodeType} {config : Config}
    (hv : v.HasDistinctKeys) (h : Config.read source type v = .accepted config) :
    ∀ w ∈ config.freeValues, w.HasDistinctKeys := by
  cases type with
  | none =>
    obtain ⟨c, hc, rfl⟩ := Reading.map_eq_accepted_iff.1 h
    exact PassthroughConfig.hasDistinctKeys_of_read hv hc
  | some type =>
    cases type with
    | action =>
      obtain ⟨c, hc, rfl⟩ := Reading.map_eq_accepted_iff.1 h
      exact ActionConfig.hasDistinctKeys_of_read hv hc
    | start | message | question | condition | api | delay | form | assignment | tag | segment
    | transferAgent | finish =>
      obtain ⟨c, -, rfl⟩ := Reading.map_eq_accepted_iff.1 h
      exact fun w hw => nomatch hw

namespace Node

/-- What is read as a type is the text that names the type of the configuration. -/
theorem typeOf_of_readType {f : Fields} {type : Text}
    (h : f.required Keys.type readType = .accepted type) :
    typeOf f = .accepted (NodeType.ofName? type) := by
  unfold Fields.required at h
  rw [Keys.type, find?_same] at h
  unfold typeOf
  cases hlookup : f.entries.lookup ("type" : Text) with
  | none => rw [hlookup] at h; cases h
  | some v =>
    rw [hlookup] at h
    have hread : readType v = .accepted type := Reading.under_eq_accepted_iff.1 h
    cases v with
    | str s => cases hread; rfl
    | null | bool | int | float | arr | obj => cases hread

/-- A configuration that is accepted was read from an object, for the type that is named beside it. -/
theorem exists_of_readConfig {f : Fields} {config : Config}
    (h : readConfig source f v = .accepted config) :
    ∃ type, typeOf f = .accepted type ∧ Config.read source type v = .accepted config := by
  unfold readConfig at h
  split at h
  · exact Reading.andThen_eq_accepted_iff.1 h
  · cases h

/-- The fields that a node is read from. -/
structure IsReadFrom (source : Source) (f : Fields) (n : Node) : Prop where
  id : f.required Keys.id text = .accepted n.id
  type : f.required Keys.type readType = .accepted n.type
  config : f.required Keys.config (readConfig source f) = .accepted n.config
  transitions :
    f.defaulted Keys.transitions [] (list source (Record.read source)) = .accepted n.transitions
  errorHandler : f.optional Keys.errorHandler (Record.read source) = .accepted n.errorHandler
  timeout : f.optional Keys.timeout integer = .accepted n.timeout
  retries : f.optional Keys.retries integer = .accepted n.retries

theorem isReadFrom_of_read {n : Node} (h : Record.read source v = .accepted n) :
    ∃ entries, v = .obj entries ∧ n.IsReadFrom source ⟨entries⟩ := by
  obtain ⟨entries, rfl, hfields⟩ := exists_of_read h
  obtain ⟨_, h₆, retries, hretries, rfl⟩ := Reading.seq_eq_accepted_iff.1 hfields
  obtain ⟨_, h₅, timeout, htimeout, rfl⟩ := Reading.seq_eq_accepted_iff.1 h₆
  obtain ⟨_, h₄, errorHandler, herrorHandler, rfl⟩ := Reading.seq_eq_accepted_iff.1 h₅
  obtain ⟨_, h₃, transitions, htransitions, rfl⟩ := Reading.seq_eq_accepted_iff.1 h₄
  obtain ⟨_, h₂, config, hconfig, rfl⟩ := Reading.seq_eq_accepted_iff.1 h₃
  obtain ⟨_, h₁, type, htype, rfl⟩ := Reading.seq_eq_accepted_iff.1 h₂
  obtain ⟨id, hid, rfl⟩ := Reading.map_eq_accepted_iff.1 h₁
  exact ⟨entries, rfl, hid, htype, hconfig, htransitions, herrorHandler, htimeout, hretries⟩

/-- A node that was read has a configuration for its type, read as such from one of its fields. -/
theorem IsReadFrom.exists_config {n : Node} {f : Fields} (h : n.IsReadFrom source f) :
    ∃ field ∈ f.entries, Config.read source n.nodeType? field.2 = .accepted n.config := by
  have htypeOf : typeOf f = .accepted n.nodeType? := typeOf_of_readType h.type
  refine Fields.yields_required
    (P := fun c => ∃ field ∈ f.entries, Config.read source n.nodeType? field.2 = .accepted c)
    ?_ n.config h.config
  intro field hfield c hc
  obtain ⟨type, htype, hread⟩ := exists_of_readConfig hc
  rw [htypeOf] at htype
  cases htype
  exact ⟨field, hfield, hread⟩

theorem nodeType?_config_of_read {n : Node} (h : Record.read source v = .accepted n) :
    n.config.nodeType? = n.nodeType? := by
  obtain ⟨entries, rfl, hfrom⟩ := isReadFrom_of_read h
  obtain ⟨field, -, hread⟩ := hfrom.exists_config
  exact Config.nodeType?_of_read hread

theorem isSound_of_read {n : Node} (hv : v.HasDistinctKeys)
    (h : Record.read source v = .accepted n) : n.IsSound := by
  obtain ⟨entries, rfl, hfrom⟩ := isReadFrom_of_read h
  obtain ⟨field, hfield, hread⟩ := hfrom.exists_config
  have hvalue := hasDistinctKeys_of_mem hv field hfield
  exact ⟨Config.nodeType?_of_read hread, Config.isSpelled_of_read hread,
    Config.hasDistinctKeys_of_read hvalue hread⟩

end Node

namespace Flow

/-- The fields that a flow is read from. -/
structure IsReadFrom (source : Source) (f : Fields) (flow : Flow) : Prop where
  id : f.required Keys.id text = .accepted flow.id
  version : f.defaulted Keys.version 1 integer = .accepted flow.version
  name : f.required Keys.name text = .accepted flow.name
  description : f.optional Keys.description text = .accepted flow.description
  metadata : f.required Keys.metadata (Record.read source) = .accepted flow.metadata
  entryNodeId : f.required Keys.entryNodeId text = .accepted flow.entryNodeId
  nodes : f.defaulted Keys.nodes .empty (mapping source (Record.read source)) = .accepted flow.nodes
  config : f.defaulted Keys.config .plain (Record.read source) = .accepted flow.config

theorem isReadFrom_of_read {flow : Flow} (h : Record.read source v = .accepted flow) :
    ∃ entries, v = .obj entries ∧ flow.IsReadFrom source ⟨entries⟩ := by
  obtain ⟨entries, rfl, hfields⟩ := exists_of_read h
  obtain ⟨_, h₇, config, hconfig, rfl⟩ := Reading.seq_eq_accepted_iff.1 hfields
  obtain ⟨_, h₆, nodes, hnodes, rfl⟩ := Reading.seq_eq_accepted_iff.1 h₇
  obtain ⟨_, h₅, entryNodeId, hentryNodeId, rfl⟩ := Reading.seq_eq_accepted_iff.1 h₆
  obtain ⟨_, h₄, metadata, hmetadata, rfl⟩ := Reading.seq_eq_accepted_iff.1 h₅
  obtain ⟨_, h₃, description, hdescription, rfl⟩ := Reading.seq_eq_accepted_iff.1 h₄
  obtain ⟨_, h₂, name, hname, rfl⟩ := Reading.seq_eq_accepted_iff.1 h₃
  obtain ⟨_, h₁, version, hversion, rfl⟩ := Reading.seq_eq_accepted_iff.1 h₂
  obtain ⟨id, hid, rfl⟩ := Reading.map_eq_accepted_iff.1 h₁
  exact ⟨entries, rfl, hid, hversion, hname, hdescription, hmetadata, hentryNodeId, hnodes, hconfig⟩

/-- Every node of a flow that was read was itself read. -/
theorem exists_read_of_mem_nodes {flow : Flow} (h : Record.read source v = .accepted flow)
    {entry : Text × Node} (hentry : entry ∈ flow.nodes.entries) :
    ∃ w, Record.read source w = .accepted entry.2 := by
  obtain ⟨entries, rfl, hfrom⟩ := isReadFrom_of_read h
  refine Fields.yields_defaulted
    (P := fun t => ∀ entry ∈ t.entries, ∃ w, Record.read source w = .accepted entry.2)
    (by simp [Table.empty]) ?_ flow.nodes hfrom.nodes entry hentry
  intro field _
  refine yields_mapping (P := fun n => ∃ w, Record.read source w = .accepted n) ?_
  exact fun _ _ other _ n hn => ⟨other.2, hn⟩

/-- A flow that was read from a document of dictionaries is sound. -/
theorem isSound_of_read {flow : Flow} (hv : v.HasDistinctKeys)
    (h : Record.read source v = .accepted flow) : flow.IsSound := by
  obtain ⟨entries, rfl, hfrom⟩ := isReadFrom_of_read h
  constructor
  · refine Fields.yields_defaulted (P := fun t => ∀ entry ∈ t.entries, entry.2.IsSound)
      (by simp [Table.empty]) ?_ flow.nodes hfrom.nodes
    intro field hfield
    have hvalue := hasDistinctKeys_of_mem hv field hfield
    refine yields_mapping fun fields heq other hother n hn => ?_
    rw [heq] at hvalue
    exact Node.isSound_of_read (hasDistinctKeys_of_mem hvalue other hother) hn
  · refine Fields.yields_defaulted (P := fun c => ∀ w ∈ c.freeValues, w.HasDistinctKeys)
      (by simp [FlowConfig.freeValues, FlowConfig.plain]) ?_ flow.config hfrom.config
    exact fun field hfield c hc =>
      FlowConfig.hasDistinctKeys_of_read (hasDistinctKeys_of_mem hv field hfield) hc

end Flow

end Read

end ConversationFlow.Executable
