import ConversationFlow.Proofs.Executable.Finite
import ConversationFlow.Proofs.Schema.Writing

/-!
# Records of flows that are written and read

Every record that a flow is made of is read from what is written of it, but for numbers among its
free values that are not finite, for which null is written, and for the seconds in the offsets of its
dates. The free values have to be dictionaries
for that, and the configuration of a node has to be the one for the type of the node, which is all
that a reader has to tell configurations apart.
-/

namespace ConversationFlow.Executable

open Schema

instance : LawfulChoice ButtonAction := {}
instance : LawfulChoice RichKind := {}
instance : LawfulChoice AuthKind := {}
instance : LawfulChoice ErrorStrategy := {}
instance : LawfulChoice VariableKind := {}
instance : LawfulChoice ContentKind := {}
instance : LawfulChoice AnswerKind := {}
instance : LawfulChoice Evaluator := {}
instance : LawfulChoice Method := {}
instance : LawfulChoice DelayUnit := {}
instance : LawfulChoice ActionKind := {}
instance : LawfulChoice VariableOperation := {}
instance : LawfulChoice Membership := {}
instance : LawfulChoice Assignment := {}
instance : LawfulChoice EndReason := {}
instance : LawfulChoice ErrorBehavior := {}
instance : LawfulChoice Status := {}

instance : LawfulRecord MessageButton where
  standsFor source c := by
    obtain ⟨id, label, action, value⟩ := c
    refine standsFor_record fun f h => ?_
    repeat' apply Reading.seq_eq_accepted
    · exact Reading.map_eq_accepted _ h.required
    all_goals exact h.defaulted

instance : LawfulRecord CardItem where
  standsFor source c := by
    obtain ⟨title, subtitle, imageUrl, buttons⟩ := c
    refine standsFor_record fun f h => ?_
    repeat' apply Reading.seq_eq_accepted
    · exact Reading.map_eq_accepted _ h.defaulted
    all_goals exact h.optional

instance : LawfulRecord RichContent where
  standsFor source c := by
    obtain ⟨kind, items⟩ := c
    refine standsFor_record fun f h => ?_
    repeat' apply Reading.seq_eq_accepted
    · exact Reading.map_eq_accepted _ h.required
    · exact h.defaulted

instance : LawfulRecord FormField where
  standsFor source c := by
    obtain ⟨id, label, type, required, options⟩ := c
    refine standsFor_record fun f h => ?_
    repeat' apply Reading.seq_eq_accepted
    · exact Reading.map_eq_accepted _ h.required
    · exact h.defaulted
    · exact h.defaulted
    · exact h.defaulted
    · exact h.optional

instance : LawfulRecord ApiAuth where
  standsFor source c := by
    obtain ⟨kind, credentials⟩ := c
    refine standsFor_record fun f h => ?_
    repeat' apply Reading.seq_eq_accepted
    · exact Reading.map_eq_accepted _ h.required
    · exact h.defaulted

instance : LawfulRecord ErrorHandler where
  standsFor source c := by
    obtain ⟨strategy, retryCount, retryDelay, fallbackNodeId, fallbackMessage⟩ := c
    refine standsFor_record fun f h => ?_
    repeat' apply Reading.seq_eq_accepted
    · exact Reading.map_eq_accepted _ h.required
    all_goals exact h.optional

instance : LawfulRecord MessageConfig where
  standsFor source c := by
    obtain ⟨content, contentKind, richContent, buttons⟩ := c
    refine standsFor_record fun f h => ?_
    repeat' apply Reading.seq_eq_accepted
    · exact Reading.map_eq_accepted _ h.defaulted
    · exact h.defaulted
    all_goals exact h.optional

instance : LawfulRecord QuestionConfig where
  standsFor source c := by
    obtain ⟨question, expectedInput, saveToVariable, validationRegex, validationMessage,
      maxRetries⟩ := c
    refine standsFor_record fun f h => ?_
    repeat' apply Reading.seq_eq_accepted
    · exact Reading.map_eq_accepted _ h.defaulted
    · exact h.defaulted
    · exact h.required
    · exact h.optional
    · exact h.optional
    · exact h.defaulted

instance : LawfulRecord ConditionConfig where
  standsFor source c := by
    obtain ⟨expression, evaluator⟩ := c
    refine standsFor_record fun f h => ?_
    repeat' apply Reading.seq_eq_accepted
    · exact Reading.map_eq_accepted _ h.defaulted
    · exact h.defaulted

instance : LawfulRecord ApiConfig where
  standsFor source c := by
    obtain ⟨method, url, headers, body, auth, timeout, retries, saveResponseTo,
      errorOnHttpError⟩ := c
    refine standsFor_record fun f h => ?_
    repeat' apply Reading.seq_eq_accepted
    · exact Reading.map_eq_accepted _ h.defaulted
    · exact h.defaulted
    · exact h.defaulted
    · exact h.optional
    · exact h.optional
    · exact h.defaulted
    · exact h.defaulted
    · exact h.required
    · exact h.defaulted

instance : LawfulRecord DelayConfig where
  standsFor source c := by
    obtain ⟨duration, unit⟩ := c
    refine standsFor_record fun f h => ?_
    repeat' apply Reading.seq_eq_accepted
    · exact Reading.map_eq_accepted _ h.defaulted
    · exact h.defaulted

instance : LawfulRecord FormConfig where
  standsFor source c := by
    obtain ⟨fields, submitButtonText, saveToVariable⟩ := c
    refine standsFor_record fun f h => ?_
    repeat' apply Reading.seq_eq_accepted
    · exact Reading.map_eq_accepted _ h.defaulted
    · exact h.defaulted
    · exact h.required

instance : LawfulRecord VariableConfig where
  standsFor source c := by
    obtain ⟨variableName, operation, value⟩ := c
    refine standsFor_record fun f h => ?_
    repeat' apply Reading.seq_eq_accepted
    · exact Reading.map_eq_accepted _ h.defaulted
    all_goals exact h.defaulted

instance : LawfulRecord TagConfig where
  standsFor source c := by
    obtain ⟨tagNames, operation⟩ := c
    refine standsFor_record fun f h => ?_
    repeat' apply Reading.seq_eq_accepted
    · exact Reading.map_eq_accepted _ h.defaulted
    · exact h.defaulted

instance : LawfulRecord SegmentConfig where
  standsFor source c := by
    obtain ⟨segmentId, operation⟩ := c
    refine standsFor_record fun f h => ?_
    repeat' apply Reading.seq_eq_accepted
    · exact Reading.map_eq_accepted _ h.defaulted
    · exact h.defaulted

instance : LawfulRecord TransferAgentConfig where
  standsFor source c := by
    obtain ⟨assignment, agentId, teamId, message, endFlow⟩ := c
    refine standsFor_record fun f h => ?_
    repeat' apply Reading.seq_eq_accepted
    · exact Reading.map_eq_accepted _ h.defaulted
    · exact h.optional
    · exact h.optional
    · exact h.optional
    · exact h.defaulted

instance : LawfulRecord EndConfig where
  standsFor source c := by
    obtain ⟨reason, message⟩ := c
    refine standsFor_record fun f h => ?_
    repeat' apply Reading.seq_eq_accepted
    · exact Reading.map_eq_accepted _ h.defaulted
    · exact h.optional

instance : LawfulRecord StartConfig where
  standsFor source c := by
    change StandsFor (Record.read source) (Json.record false []) c
    exact standsFor_record fun _ _ => rfl
  write_ne_null _ := record_ne_null []

theorem standsFor_actionConfig (source : Source) {c : ActionConfig}
    (h : ∀ v ∈ c.parameters.values, v.HasDistinctKeys) :
    StandsFor (Record.read source) (Record.write false c)
      { c with parameters := c.parameters.map Json.finite } := by
  obtain ⟨kind, parameters⟩ := c
  have hparameters := standsFor_finiteFields source h
  refine standsFor_record (fun f h => ?_) (by simpa using hparameters.plain)
  repeat' apply Reading.seq_eq_accepted
  · exact Reading.map_eq_accepted _ h.defaulted
  · exact h.defaulted_of_standsFor hparameters

/-- The data of a node that is passed through are read as they are, whatever their keys if these are
characters alone. -/
theorem standsFor_passthroughConfig (source : Source) {c : PassthroughConfig}
    (hspelled : (Config.passthrough c).IsSpelled) (h : ∀ v ∈ c.bag.values, v.HasDistinctKeys) :
    StandsFor (Record.read source) (Record.write false c)
      (PassthroughConfig.mk (c.bag.map Json.finite)) := by
  obtain ⟨bag⟩ := c
  have hbag : StandsFor (mapping source anything) (.obj (Json.finiteFields bag.entries))
      (bag.map Json.finite) :=
    standsFor_finiteFields source h
  refine ⟨?_, hbag.plain⟩
  have hwritten : (⟨(bag.map Json.finite).entries⟩ : Fields).spelled = .accepted () :=
    Fields.spelled_eq_accepted_iff.2 (List.forall_mem_map.2 hspelled)
  have hread : Record.read source (.obj (bag.map Json.finite).entries) =
      (Reading.accepted (PassthroughConfig.mk (.ofList (bag.map Json.finite).entries))).checkedBy
        (⟨(bag.map Json.finite).entries⟩ : Fields).spelled := rfl
  rw [Table.ofList_entries, hwritten, Json.entries_map_finite] at hread
  exact hread

theorem standsFor_config (source : Source) {config : Config} (hspelled : config.IsSpelled)
    (h : ∀ v ∈ config.freeValues, v.HasDistinctKeys) :
    StandsFor (Config.read source config.nodeType?) (config.write false) config.finite := by
  have hmap {α : Type} [Record α] {c d : α} (f : α → Config)
      (h : StandsFor (Record.read source) (Record.write false c) d) :
      StandsFor (fun v => f <$> Record.read source v) (Record.write false c) (f d) :=
    ⟨Reading.map_eq_accepted f h.read_eq, h.plain⟩
  cases config with
  | action c => exact hmap .action (standsFor_actionConfig source h)
  | passthrough c => exact hmap .passthrough (standsFor_passthroughConfig source hspelled h)
  | start c => exact hmap .start (LawfulRecord.standsFor source c)
  | message c => exact hmap .message (LawfulRecord.standsFor source c)
  | question c => exact hmap .question (LawfulRecord.standsFor source c)
  | condition c => exact hmap .condition (LawfulRecord.standsFor source c)
  | api c => exact hmap .api (LawfulRecord.standsFor source c)
  | delay c => exact hmap .delay (LawfulRecord.standsFor source c)
  | form c => exact hmap .form (LawfulRecord.standsFor source c)
  | assignment c => exact hmap .assignment (LawfulRecord.standsFor source c)
  | tag c => exact hmap .tag (LawfulRecord.standsFor source c)
  | segment c => exact hmap .segment (LawfulRecord.standsFor source c)
  | transferAgent c => exact hmap .transferAgent (LawfulRecord.standsFor source c)
  | finish c => exact hmap .finish (LawfulRecord.standsFor source c)

instance : LawfulRecord Transition where
  standsFor source c := by
    obtain ⟨id, target, condition, priority, label⟩ := c
    refine standsFor_record fun f h => ?_
    repeat' apply Reading.seq_eq_accepted
    · exact Reading.map_eq_accepted _ h.required
    · exact h.required
    · exact h.optional
    · exact h.required
    · exact h.optional

theorem standsFor_timestamp (source : Source) (t : Timestamp) :
    StandsFor (timestamp source) (Metadata.writeTimestamp t) t.written := by
  refine ⟨?_, isPlain_str _⟩
  rw [Metadata.writeTimestamp, timestamp, Timestamp.ofText_text]
  rfl

@[simp]
theorem isPlain_writeTimestamp (t : Timestamp) : (Metadata.writeTimestamp t).IsPlain :=
  isPlain_str _

/-- The dates of metadata are read without the seconds of their offsets. -/
theorem standsFor_metadata (source : Source) (m : Metadata) :
    StandsFor (Record.read source) (Record.write false m) m.written := by
  obtain ⟨name, description, createdAt, updatedAt, publishedAt, createdBy, status, tags, inboxId⟩ := m
  refine standsFor_record fun f h => ?_
  repeat' apply Reading.seq_eq_accepted
  · exact Reading.map_eq_accepted _ h.optional
  · exact h.optional
  · exact h.required_of_standsFor (standsFor_timestamp source createdAt)
  · exact h.required_of_standsFor (standsFor_timestamp source updatedAt)
  · exact h.optional_of_standsFor (standsFor_timestamp source) nofun
  · exact h.defaulted
  · exact h.defaulted
  · exact h.defaulted
  · exact h.optional

/-- A default that is not finite is written as null, and read as if there were none. -/
theorem standsFor_variableDefinition (source : Source) {d : VariableDefinition}
    (h : d.defaultValue.HasDistinctKeys) :
    StandsFor (Record.read source) (Record.write false d) d.finite := by
  obtain ⟨name, kind, value, required⟩ := d
  have hvalue : StandsFor anything value.finite value.finite := ⟨rfl, Json.isPlain_finite h⟩
  have hfields : ∀ v, (if value = .null then none else some value.finite) = some v →
      v.IsPlain := by
    intro v hv
    split at hv
    · cases hv
    · cases hv
      exact hvalue.plain
  refine standsFor_record (fun f h => ?_) (by simpa using hfields)
  repeat' apply Reading.seq_eq_accepted
  · exact Reading.map_eq_accepted _ h.required
  · exact h.defaulted
  · by_cases hnull : value = .null
    · subst hnull
      exact h.defaulted_of_none
    · refine h.defaulted_of_standsFor hvalue (by simp [Record.keys]) ?_
      simp [hnull, Key.holds, Key.mayHold]
  · exact h.defaulted

theorem standsFor_flowConfig (source : Source) {c : FlowConfig}
    (h : ∀ v ∈ c.freeValues, v.HasDistinctKeys) :
    StandsFor (Record.read source) (Record.write false c) c.finite := by
  obtain ⟨timeoutSeconds, maxIterations, errorBehavior, fallbackNodeId, definitions⟩ := c
  have hdefinitions : StandsFor (list source (Record.read source))
      (Record.writeAll false definitions) (definitions.map VariableDefinition.finite) := by
    refine standsFor_list_map source fun d hd => standsFor_variableDefinition source ?_
    exact h d.defaultValue (List.mem_map_of_mem hd)
  refine standsFor_record (fun f h => ?_) (by simpa using hdefinitions.plain)
  repeat' apply Reading.seq_eq_accepted
  · exact Reading.map_eq_accepted _ h.defaulted
  · exact h.defaulted
  · exact h.defaulted
  · exact h.optional
  · exact h.defaulted_of_standsFor hdefinitions

theorem Config.exists_write (config : Config) : ∃ entries, config.write false = .obj entries := by
  cases config <;> exact ⟨_, rfl⟩

instance : Inverse Node.readType .str where
  standsFor s := ⟨rfl, isPlain_str s⟩
  write_ne_null := nofun

/-- The written configuration of a node is read as the one for its type, which the object names. -/
theorem standsFor_readConfig (source : Source) {n : Node} (hsound : n.IsSound) {f : Fields}
    (hlookup : f.entries.lookup ("type" : Text) = some (.str n.type)) :
    StandsFor (Node.readConfig source f) (n.config.write false) n.config.finite := by
  have hconfig := standsFor_config source hsound.spelled hsound.distinct
  refine ⟨?_, hconfig.plain⟩
  obtain ⟨entries, hentries⟩ := n.config.exists_write
  have htypeOf : Node.typeOf f = .accepted n.config.nodeType? := by
    rw [Node.typeOf, hlookup, hsound.typed]
    rfl
  rw [hentries, Node.readConfig, htypeOf, ← hentries]
  exact hconfig.read_eq

theorem standsFor_node (source : Source) {n : Node} (hsound : n.IsSound) :
    StandsFor (Record.read source) (Record.write false n) n.finite := by
  have hconfig {f : Fields} (hlookup : f.entries.lookup ("type" : Text) = some (.str n.type)) :
      StandsFor (Node.readConfig source f) (n.config.write false) n.config.finite :=
    standsFor_readConfig source hsound hlookup
  have hwritten : (n.config.write false).IsPlain :=
    (standsFor_config source hsound.spelled hsound.distinct).plain
  obtain ⟨id, type, config, transitions, errorHandler, timeout, retries⟩ := n
  refine standsFor_record (fun f h => ?_) (by simpa using hwritten) fun f h => ?_
  · have htypeField : f.entries.lookup Keys.type.document = some (.str type) :=
      h.lookup_document (by simp [Key.holds])
    repeat' apply Reading.seq_eq_accepted
    · exact Reading.map_eq_accepted _ h.required
    · exact h.required
    · exact h.required_of_standsFor (hconfig htypeField)
    · exact h.defaulted
    all_goals exact h.optional
  · have htypeField : f.entries.lookup Keys.type.document = some (.str type) :=
      h.lookup_document (by simp [Key.holds])
    have hconfigField : f.entries.lookup Keys.config.document = some (config.write false) :=
      h.lookup_document (by simp [Key.holds])
    have hread := (hconfig htypeField).read_eq
    obtain ⟨entries, hentries⟩ := config.exists_write
    rw [hentries] at hconfigField hread
    change Node.readConfigFirst source f = .accepted ()
    unfold Node.readConfigFirst
    split
    · next other hother =>
      rw [show f.entries.lookup ("config" : Text) = some (.obj entries) from hconfigField] at hother
      cases hother
      rw [hread, Reading.map]
    · rfl

/-- What is written of a sound flow stands for the flow as its text gives it. -/
theorem standsFor_flow (source : Source) {flow : Flow} (hsound : flow.IsSound) :
    StandsFor (Record.read source) (Record.write false flow) flow.written := by
  have hmetadata := standsFor_metadata source flow.metadata
  have hconfig := standsFor_flowConfig source hsound.defaults
  have htable : StandsFor (mapping source (Record.read source)) (.obj (flow.nodes.entries.map
      fun entry => (entry.1, Record.write false entry.2))) (flow.nodes.map Node.finite) :=
    standsFor_mapping_map source fun entry hentry =>
      standsFor_node source (hsound.nodes entry hentry)
  obtain ⟨id, version, name, description, metadata, entryNodeId, nodes, config⟩ := flow
  refine standsFor_record (fun f h => ?_) 
    (by simpa using ⟨hmetadata.plain, htable.plain, hconfig.plain⟩)
  repeat' apply Reading.seq_eq_accepted
  · exact Reading.map_eq_accepted _ h.required
  · exact h.defaulted
  · exact h.required
  · exact h.optional
  · exact h.required_of_standsFor hmetadata
  · exact h.required
  · exact h.defaulted_of_standsFor htable
  · exact h.defaulted_of_standsFor hconfig

theorem isPlain_flow {flow : Flow} (h : flow.IsSound) : (Record.write false flow).IsPlain :=
  (standsFor_flow .text h).plain

end ConversationFlow.Executable
