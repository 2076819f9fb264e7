import ConversationFlow.Proofs.Compile.Call
import ConversationFlow.Proofs.Service.Payload

/-!
# The normal form of a flow

A flow that was handed out and taken in again has a text that stays as it is from then on: it has
null in place of every number that is not finite, and dates with offsets of whole minutes. The text
that was handed out first is this text already, with two exceptions. For a default of a variable that
is such a number null is written, which says that there is no default, and of that nothing is written
the next time. Of an offset of less than a minute the sign is written, and it does not come back.
-/

namespace ConversationFlow

open Compile Schema Service Text
open Editor (Graph)
open Executable (Flow)

namespace Executable

/-- The default of the variable is a number that is not finite. -/
def VariableDefinition.LosesDefault (d : VariableDefinition) : Prop :=
  ∃ x, d.defaultValue = .float x ∧ ¬x.IsFinite

def Flow.KeepsDefaults (flow : Flow) : Prop :=
  ∀ d ∈ flow.config.definitions, ¬d.LosesDefault

/-- Written records that are the same have the same value under each key. -/
theorem value_eq_of_record_eq (keys : List Key) (key : Key)
    {fields others : List (Text × Option Json)} {value other : Option Json}
    (h : Json.record false fields = Json.record false others)
    (hvalue : key.mayHold value ∈ fields) (hother : key.mayHold other ∈ others)
    (hnames : fields.map Prod.fst = keys.map Key.document := by rfl)
    (hothers : others.map Prod.fst = keys.map Key.document := by rfl)
    (hapart : KeysApart keys := by decide) : value = other := by
  have hfields : (fields.map Prod.fst).Nodup := hnames ▸ hapart.1
  have hsame : (others.map Prod.fst).Nodup := hothers ▸ hapart.1
  rw [record_eq_present, record_eq_present, Json.obj.injEq] at h
  rw [← lookup_present hfields hvalue, ← lookup_present hsame hother, h]

theorem write_finite_config (config : Config) :
    config.finite.write false = config.write false := by
  cases config with
  | action c =>
    simp only [Config.finite, Config.write, Record.write, Json.finiteFields_map_finite]
  | passthrough c =>
    exact congrArg Json.obj (Json.finiteFields_map_finite c.bag)
  | _ => rfl

theorem write_finite_node (n : Node) : Record.write false n.finite = Record.write false n := by
  simp only [Record.write, Node.finite, write_finite_config]

def VariableDefinition.writtenDefault (d : VariableDefinition) : Option Json :=
  if d.defaultValue = .null then none else d.defaultValue.finite

theorem writtenDefault_finite_iff {d : VariableDefinition} :
    d.finite.writtenDefault = d.writtenDefault ↔ ¬d.LosesDefault := by
  obtain ⟨name, kind, value, required⟩ := d
  simp only [VariableDefinition.writtenDefault, VariableDefinition.finite,
    VariableDefinition.LosesDefault, Json.finite_finite]
  by_cases hnull : value = .null
  · simp [hnull, Json.finite, Json.mapFloats]
  · by_cases hfinite : value.finite = .null
    · have hlost := (Json.finite_eq_null_iff.1 hfinite).resolve_left hnull
      simp [hnull, hfinite, hlost]
    · have hkept : ¬∃ x, value = .float x ∧ ¬x.IsFinite :=
        fun hlost => hfinite (Json.finite_eq_null_iff.2 (.inr hlost))
      simp [hnull, hfinite, hkept]

theorem write_finite_variableDefinition_iff {d : VariableDefinition} :
    Record.write false d.finite = Record.write false d ↔ ¬d.LosesDefault := by
  rw [← writtenDefault_finite_iff]
  constructor
  · intro h
    exact value_eq_of_record_eq (Record.keys VariableDefinition) Keys.defaultValue h
      (by simp [VariableDefinition.writtenDefault]) (by simp [VariableDefinition.writtenDefault])
  · intro h
    simp only [VariableDefinition.writtenDefault] at h
    simp only [Record.write, h]
    rfl

theorem write_finite_flowConfig_iff {c : FlowConfig} :
    Record.write false c.finite = Record.write false c ↔ ∀ d ∈ c.definitions, ¬d.LosesDefault := by
  have hdefinitions : Record.writeAll false c.finite.definitions =
      Record.writeAll false c.definitions ↔ ∀ d ∈ c.definitions, ¬d.LosesDefault := by
    simp only [Record.writeAll, FlowConfig.finite, Json.arr.injEq, List.map_map, List.map_inj_left,
      Function.comp_apply, write_finite_variableDefinition_iff]
  rw [← hdefinitions]
  constructor
  · intro h
    refine Option.some.inj ?_
    exact value_eq_of_record_eq (Record.keys FlowConfig) Keys.definitions h
      (by simp [Key.holds, Key.mayHold]) (by simp [Key.holds, Key.mayHold])
  · intro h
    simp only [Record.write, h]
    rfl

theorem writeTimestamp_written_iff {t : Timestamp} :
    Metadata.writeTimestamp t.written = Metadata.writeTimestamp t ↔ t.KeepsOffset := by
  simp only [Metadata.writeTimestamp, Json.str.injEq, Text.whole.injEq, Timestamp.text_written_iff]

theorem write_written_metadata_iff {m : Metadata} :
    Record.write false m.written = Record.write false m ↔ m.KeepsOffsets := by
  have hpublished : m.written.publishedAt.map Metadata.writeTimestamp =
      m.publishedAt.map Metadata.writeTimestamp ↔
        ∀ t, m.publishedAt = some t → t.KeepsOffset := by
    rw [Metadata.written]
    cases m.publishedAt with
    | none => simp
    | some t => simp [writeTimestamp_written_iff]
  constructor
  · intro h
    refine ⟨writeTimestamp_written_iff.1 (Option.some.inj ?_),
      writeTimestamp_written_iff.1 (Option.some.inj ?_), hpublished.1 ?_⟩
    · exact value_eq_of_record_eq (Record.keys Metadata) Keys.createdAt h
        (by simp [Key.holds, Key.mayHold, Metadata.written]) (by simp [Key.holds, Key.mayHold])
    · exact value_eq_of_record_eq (Record.keys Metadata) Keys.updatedAt h
        (by simp [Key.holds, Key.mayHold, Metadata.written]) (by simp [Key.holds, Key.mayHold])
    · exact value_eq_of_record_eq (Record.keys Metadata) Keys.publishedAt h (by simp) (by simp)
  · rintro ⟨hcreatedAt, hupdatedAt, hpublishedAt⟩
    simp only [Record.write, hpublished.2 hpublishedAt]
    simp only [Metadata.written, writeTimestamp_written_iff.2 hcreatedAt,
      writeTimestamp_written_iff.2 hupdatedAt]

theorem write_written_flow_iff {flow : Flow} :
    Record.write false flow.written = Record.write false flow ↔
      flow.KeepsDefaults ∧ flow.metadata.KeepsOffsets := by
  rw [Flow.KeepsDefaults, ← write_finite_flowConfig_iff, ← write_written_metadata_iff]
  constructor
  · intro h
    constructor
    · refine Option.some.inj ?_
      exact value_eq_of_record_eq (Record.keys Flow) Keys.config h
        (by simp [Key.holds, Key.mayHold, Flow.written]) (by simp [Key.holds, Key.mayHold])
    · refine Option.some.inj ?_
      exact value_eq_of_record_eq (Record.keys Flow) Keys.metadata h
        (by simp [Key.holds, Key.mayHold, Flow.written]) (by simp [Key.holds, Key.mayHold])
  · rintro ⟨hconfig, hmetadata⟩
    have hnodes : (flow.written.nodes.entries.map fun entry =>
        (entry.1, Record.write false entry.2)) =
          flow.nodes.entries.map fun entry => (entry.1, Record.write false entry.2) := by
      rw [Flow.written, Table.map, List.map_map]
      exact List.map_congr_left fun entry _ => Prod.ext rfl (write_finite_node entry.2)
    have hwritten : Record.write false flow.written.config =
        Record.write false flow.config := hconfig
    have hdates : Record.write false flow.written.metadata =
        Record.write false flow.metadata := hmetadata
    simp only [Record.write] at hnodes hwritten hdates ⊢
    rw [hnodes, hwritten, hdates]
    rfl

end Executable

variable {settings : Settings} {flow : Flow}

theorem exportText_written_iff {text : String} (hsound : flow.IsSound)
    (htext : flow.exportText = .ok text) :
    flow.written.exportText = .ok text ↔ flow.KeepsDefaults ∧ flow.metadata.KeepsOffsets := by
  obtain ⟨hwhole, rfl⟩ := Flow.exportText_eq_ok_iff.1 htext
  have hwritten := hwhole.written hsound
  rw [Flow.exportText_eq_ok_iff, and_iff_right hwritten, ← Executable.write_written_flow_iff]
  -- texts are compared as documents, within no limits on nesting or on digits
  exact Json.documentText_inj (Executable.isPlain_flow hsound.written) hwritten
    (Executable.isPlain_flow hsound) hwhole

def Compile.Call.HasDistinctKeys (c : Call) : Prop :=
  match c.drawing with
  | .record g => g.HasDistinctKeys
  | .document v => v.HasDistinctKeys

theorem exists_of_coerce {c : Call} {provider : Provider} {journal : Journal} {g : Graph}
    {metadata : Metadata} (h : (c.coerce.runFrom provider journal).1 = .ok (g, metadata)) :
    ∃ middle later, c.readDrawing.runFrom provider journal = (.ok g, middle) ∧
      c.readData.runFrom provider middle = (.ok metadata, later) := by
  obtain ⟨other, middle, hread, hrest⟩ := Job.exists_of_bind_eq_ok h
  obtain ⟨data, later, hdata, hpair⟩ := Job.exists_of_bind_eq_ok hrest
  obtain ⟨rfl, rfl⟩ := Prod.ext_iff.1 (Except.ok.inj hpair)
  exact ⟨middle, later, hread, hdata⟩

theorem hasDistinctKeys_of_coerce {c : Call} {provider : Provider} {journal : Journal} {g : Graph}
    {metadata : Metadata} (hkeys : c.HasDistinctKeys)
    (h : (c.coerce.runFrom provider journal).1 = .ok (g, metadata)) : g.HasDistinctKeys := by
  obtain ⟨middle, later, hread, -⟩ := exists_of_coerce h
  have hdrawing : (c.readDrawing.runFrom provider journal).1 = .ok g := by rw [hread]
  rw [Call.readDrawing] at hdrawing
  rw [Compile.Call.HasDistinctKeys] at hkeys
  cases hhanded : c.drawing with
  | record g =>
    rw [hhanded] at hdrawing hkeys
    exact Except.ok.inj hdrawing ▸ hkeys
  | document v =>
    rw [hhanded] at hdrawing hkeys
    have hrecord := exists_read_of_readRecord (readRecord_of_readGraph hdrawing)
    exact Graph.hasDistinctKeys_of_read hkeys hrecord

theorem keepsDefaults_of_definitions (h : flow.config.definitions = []) : flow.KeepsDefaults := by
  intro d hd
  rw [h] at hd
  cases hd

/-- What a call hands in by itself keeps the offsets of the dates: the metadata of a record, or the
current time for the dates that a document leaves out. -/
def Compile.Call.KeepsOffsets (c : Call) (provider : Provider) : Prop :=
  match c.metadata with
  | .record metadata => metadata.KeepsOffsets
  | .document _ => provider.now.KeepsOffset

theorem keepsOffsets_of_coerce {c : Call} {provider : Provider} {journal : Journal} {g : Graph}
    {metadata : Metadata} (hoffsets : c.KeepsOffsets provider)
    (h : (c.coerce.runFrom provider journal).1 = .ok (g, metadata)) : metadata.KeepsOffsets := by
  obtain ⟨middle, later, -, hread⟩ := exists_of_coerce h
  have hdata : (c.readData.runFrom provider middle).1 = .ok metadata := by rw [hread]
  rw [Call.readData] at hdata
  rw [Compile.Call.KeepsOffsets] at hoffsets
  cases hhanded : c.metadata with
  | record m =>
    rw [hhanded] at hdata hoffsets
    exact Except.ok.inj hdata ▸ hoffsets
  | document v =>
    rw [hhanded] at hdata hoffsets
    exact keepsOffsets_of_readMetadata hoffsets hdata

section Host

variable [Host]

/-- What becomes of a flow that is handed out, as a text or as a document, and taken in again. -/
structure HasNormalForm (flow : Flow) : Prop where
  exported : (∃ text, flow.exportText = .ok text) ↔ flow.IsWhole
  imported {text : String} (htext : flow.exportText = .ok text)
    (hfits : (Record.write false flow).FitsIn .document) (importing : Settings)
    (provider : Provider) (journal : Journal) :
    (importFlow importing (symbols text)).runFrom provider journal = (.ok flow.written, journal)
  text {text : String} (htext : flow.exportText = .ok text) :
    flow.written.exportText = .ok text ↔ flow.KeepsDefaults ∧ flow.metadata.KeepsOffsets
  posted {body : String}
    (hbody : Json.read .document (symbols body) = .ok (Record.write false flow))
    (importing : Settings) (contentType : String) (provider : Provider) (journal : Journal) :
    (respond importing (takingIn contentType body)).runFrom provider journal =
      (.ok (.success (Record.write false flow.written)), journal)
  payload : Record.write false flow.written = Record.write false flow ↔
    flow.KeepsDefaults ∧ flow.metadata.KeepsOffsets
  /-- From then on nothing changes any more. -/
  again {text : String} (htext : flow.exportText = .ok text)
    (hfits : (Record.write false flow.written).FitsIn .document) : RoundTrips flow.written

theorem hasNormalForm (hsound : flow.IsSound) (hrunnable : flow.IsRunnable) :
    HasNormalForm flow where
  exported := Flow.exists_exportText_iff
  imported htext hfits := importFlow_of_read hsound hrunnable (read_exportText hsound htext hfits)
  text := exportText_written_iff hsound
  posted hbody := respond_takingIn hsound hrunnable hbody
  payload := Executable.write_written_flow_iff
  again htext hfits := by
    refine (roundTrips_iff hsound.written (isRunnable_written_iff.2 hrunnable)
      flow.hasFiniteValues_written hfits).2 ⟨?_, ?_⟩
    · exact (Flow.exportText_eq_ok_iff.1 htext).1.written hsound
    · exact Metadata.written_eq_iff.1 flow.metadata.written_written

theorem ReturnedOfDictionaries.hasNormalForm (h : ReturnedOfDictionaries settings flow) :
    HasNormalForm flow :=
  ConversationFlow.hasNormalForm h.isSound h.returned.isRunnable

/-- What a call, an import or a route hands out is taken in again, if it has a text, and its text and
its document come back as they were exactly if no default of a variable is a number that is not finite
and no date has an offset of less than a minute. No default of what was compiled is one, and no date
that was read has one. What was imported, or handed out at a route, has a text. -/
theorem normalForm_of_handedOut (settings : Settings) :
    (∀ c : Call, c.HasDistinctKeys → ∀ provider journal flow,
      (c.compile.runFrom provider journal).1 = .ok flow →
        HasNormalForm flow ∧ flow.KeepsDefaults ∧
          (c.KeepsOffsets provider → flow.metadata.KeepsOffsets)) ∧
    (∀ s provider journal flow, ((importFlow settings s).runFrom provider journal).1 = .ok flow →
      HasNormalForm flow ∧ flow.IsWhole ∧ flow.metadata.KeepsOffsets) ∧
    ∀ request route provider journal v, Route.ofPath? request.path = some route →
      route.GivesFlow →
      ((respond settings request).runFrom provider journal).1 = .ok (.success v) →
        ∃ flow, ReturnedOfDictionaries settings flow ∧ Record.write false flow = v ∧
          HasNormalForm flow ∧ flow.IsWhole ∧ (route ≠ .takeIn → flow.KeepsDefaults) ∧
          (provider.now.KeepsOffset → flow.metadata.KeepsOffsets) := by
  refine ⟨?_, ?_, ?_⟩
  · intro c hkeys provider journal flow h
    obtain ⟨g, metadata, hcoerce, hcompiled⟩ := Call.exists_of_compile h
    have hreturned : ReturnedOfDictionaries c.settings flow :=
      .drawing g (hasDistinctKeys_of_coerce hkeys hcoerce) metadata provider journal hcompiled
    refine ⟨hreturned.hasNormalForm, keepsDefaults_of_definitions
      (definitions_of_compileGraph hcompiled), fun hoffsets => ?_⟩
    rw [metadata_of_compileGraph hcompiled]
    exact keepsOffsets_of_coerce hoffsets hcoerce
  · intro s provider journal flow h
    obtain ⟨hwhole, hdates⟩ := isWhole_of_readFlow (readFlow_of_importFlow h).1
    exact ⟨(ReturnedOfDictionaries.text s provider journal h).hasNormalForm, hwhole,
      hdates.keepsOffsets⟩
  · intro request route provider journal v hpath hroute h
    obtain ⟨flow, hv, hgiven⟩ := exists_flow_of_respond hpath hroute h
    exact ⟨flow, hgiven.returned, hv, hgiven.returned.hasNormalForm, hgiven.whole,
      fun hother => keepsDefaults_of_definitions (hgiven.definitions hother), hgiven.offsets⟩

end Host

def welcoming : Service.Request :=
  ⟨"POST", "/flows/samples/welcome/compile", "", ""⟩

theorem ofPath?_welcoming : Route.ofPath? welcoming.path = some (.compileSample "welcome") := by
  decide

attribute [local instance] sampleHost

theorem exists_respond_welcoming :
    ∃ flow, ReturnedOfDictionaries .plain flow ∧ (Record.write false flow).FitsIn .document ∧
      flow.IsWhole ∧ ((respond .plain welcoming).runFrom sampleProvider .empty).1 =
        .ok (.success (Record.write false flow)) := by
  have hmethod : welcoming.method = (Route.compileSample "welcome").method := rfl
  have hsample : Sample.ofName? "welcome" = some .welcome := by decide
  obtain ⟨flow, hflow, hfits, hwhole⟩ : ∃ flow, ((Compile.compile .plain Sample.welcome.graph
      (sampleMetadata .welcome)).runFrom sampleProvider .empty).1 = .ok flow ∧
        (Record.write false flow).FitsIn .document ∧ flow.IsWhole := by
    decide +kernel
  have hreturned : ReturnedOfDictionaries .plain flow :=
    .documents _ (hasDistinctKeys_sample .welcome) _ _ _ hflow
  refine ⟨flow, hreturned, hfits, hwhole, ?_⟩
  have hplain := Executable.isPlain_flow hreturned.isSound
  rw [respond, ofPath?_welcoming]
  dsimp only
  rw [if_pos hmethod, respondAt, withSample, hsample]
  exact congrArg Prod.fst (runFrom_answer_of_ok hplain hwhole (by rw [Job.runFrom_map, hflow]; rfl))

/-- The sample drawing is compiled and its text taken in twice; and a sample is compiled at its route,
and what is answered is posted. -/
theorem normalForm_of_handedOut_sampleDrawing :
    (∃ flow text, ((compileGraph sampleSettings sampleDrawing sampleMetadata).runFrom sampleProvider
        .empty).1 = .ok flow ∧ flow.exportText = .ok text ∧ flow.written.exportText = .ok text ∧
      (importFlow .plain (symbols text)).runFrom sampleProvider .empty = (.ok flow.written, .empty) ∧
      HasNormalForm flow.written) ∧
    ∃ v, ((respond .plain welcoming).runFrom sampleProvider .empty).1 = .ok (.success v) ∧
      (respond .plain (takingIn "application/json" v.documentText)).runFrom sampleProvider .empty =
        (.ok (.success v), .empty) := by
  obtain ⟨hcalls, himports, hroutes⟩ := normalForm_of_handedOut .plain
  constructor
  · let c : Call := ⟨sampleSettings, .record sampleDrawing, .record sampleMetadata⟩
    have hc : c.compile = compileGraph sampleSettings sampleDrawing sampleMetadata :=
      Call.compile_records _ _ _
    obtain ⟨flow, hflow, hfits, hwhole⟩ : ∃ flow, ((compileGraph sampleSettings sampleDrawing
        sampleMetadata).runFrom sampleProvider .empty).1 = .ok flow ∧
          (Record.write false flow).FitsIn .document ∧ flow.IsWhole := by
      decide +kernel
    have hkeys : sampleDrawing.HasDistinctKeys := by decide +kernel
    have hdates : c.KeepsOffsets sampleProvider := ⟨by decide, by decide, nofun⟩
    obtain ⟨hnormal, hkeeps, hoffsets⟩ :=
      hcalls c hkeys sampleProvider .empty flow (by rw [hc]; exact hflow)
    obtain ⟨text, htext⟩ := hnormal.exported.2 hwhole
    have himported := hnormal.imported htext hfits .plain sampleProvider .empty
    exact ⟨flow, text, hflow, htext, (hnormal.text htext).2 ⟨hkeeps, hoffsets hdates⟩, himported,
      (himports _ sampleProvider .empty _ (by rw [himported])).1⟩
  · obtain ⟨flow, hreturned, hfits, hwhole, hanswered⟩ := exists_respond_welcoming
    have hgives : (Route.compileSample "welcome").GivesFlow := trivial
    obtain ⟨other, -, hv, hnormal, -, hkeeps, hoffsets⟩ :=
      hroutes _ _ sampleProvider .empty _ ofPath?_welcoming hgives hanswered
    have hplain := Executable.isPlain_flow hreturned.isSound
    have hbody : Json.read .document (symbols (Record.write false flow).documentText) =
        .ok (Record.write false other) := by
      rw [hv]
      exact Json.read_documentText (by decide) hplain hwhole hfits
    refine ⟨_, hanswered, ?_⟩
    rw [hnormal.posted hbody, hnormal.payload.2 ⟨hkeeps (by simp), hoffsets (by decide)⟩, hv]

/-- A flow of one node, with a variable of which the default is no number. -/
def undefinedDefaultText : String :=
  "\x7b\"id\":\"f\",\"name\":\"\",\"metadata\":\x7b\"createdAt\":0,\"updatedAt\":0\x7d," ++
  "\"entryNodeId\":\"s\",\"nodes\":\x7b\"s\":\x7b\"id\":\"s\",\"type\":\"start\"," ++
  "\"config\":\x7b\x7d\x7d\x7d,\"config\":\x7b\"variables\":[\x7b\"name\":\"x\"," ++
  "\"defaultValue\":NaN\x7d]\x7d\x7d"

theorem not_exportText_again_undefinedDefaultText :
    ¬∀ flow text,
      ((importFlow .plain (symbols undefinedDefaultText)).runFrom sampleProvider .empty).1 =
        .ok flow → flow.exportText = .ok text →
      ∃ g, ((importFlow .plain (symbols text)).runFrom sampleProvider .empty).1 = .ok g ∧
        g.exportText = .ok text := by
  obtain ⟨flow, hflow, hfits, d, hd, hundefined⟩ : ∃ flow, ((importFlow .plain
      (symbols undefinedDefaultText)).runFrom sampleProvider .empty).1 = .ok flow ∧
        (Record.write false flow).FitsIn .document ∧
          ∃ d ∈ flow.config.definitions, d.defaultValue = .float .undefined := by
    decide +kernel
  intro hall
  have hnormal := (ReturnedOfDictionaries.text _ sampleProvider .empty hflow).hasNormalForm
  obtain ⟨text, htext⟩ := hnormal.exported.2 (isWhole_of_readFlow (readFlow_of_importFlow hflow).1).1
  obtain ⟨g, himported, hagain⟩ := hall flow text hflow htext
  rw [hnormal.imported htext hfits, Except.ok.injEq] at himported
  rw [← himported] at hagain
  exact ((hnormal.text htext).1 hagain).1 d hd ⟨.undefined, hundefined, by decide⟩

end ConversationFlow
