import ConversationFlow.Proofs.Compile.Values
import ConversationFlow.Proofs.Executable.Kept
import ConversationFlow.Proofs.Executable.Writing
import ConversationFlow.Proofs.Json.Keys
import ConversationFlow.Proofs.Returned

/-!
# Flows that are handed out and taken in again

The text of a flow that was handed out is imported as the same flow, if it has one: there is none of a
flow with a surrogate in it. What a text cannot hold is left out of this: numbers that are not finite,
which are written as null, seconds in the offset of a date, and documents beyond the limits of the
reader.
-/

namespace ConversationFlow

open Compile Schema Text
open Editor (Graph)
open Executable (Flow)

variable {settings : Settings} {flow : Flow}

theorem exists_read_of_readRecord {α : Type} [Record α] {source : Source} {v : Json} {a : α}
    (h : readRecord source v = .ok a) : Record.read source v = .accepted a := by
  unfold readRecord Fault.ofReading at h
  split at h
  · next other hread =>
    cases h
    exact hread
  · cases h
  · cases h

theorem exists_of_readFlow {s : List Symbol} (h : readFlow s = .ok flow) :
    ∃ v, Json.read .document s = .ok v ∧ readRecord .text v = .ok flow := by
  unfold readFlow at h
  split at h
  · next v hv => exact ⟨v, hv, h⟩
  · cases h

theorem exists_read_of_readFlow {s : List Symbol} (h : readFlow s = .ok flow) :
    ∃ v, Json.read .document s = .ok v ∧ v.HasDistinctKeys ∧ v.IsWhole ∧
      Record.read .text v = .accepted flow := by
  obtain ⟨v, hv, hrecord⟩ := exists_of_readFlow h
  have hreadable := Json.isReadable_of_read hv
  exact ⟨v, hv, hreadable.distinct, hreadable.whole rfl, exists_read_of_readRecord hrecord⟩

theorem isSound_of_readFlow {s : List Symbol} (h : readFlow s = .ok flow) : flow.IsSound := by
  obtain ⟨v, -, hdistinct, -, hread⟩ := exists_read_of_readFlow h
  exact Flow.isSound_of_read hdistinct hread

namespace Executable.Flow

/-- No surrogate stands in any text or key of the flow. -/
def IsWhole (flow : Flow) : Prop :=
  (Record.write false flow).IsWhole

instance (flow : Flow) : Decidable flow.IsWhole := by
  unfold IsWhole
  infer_instance

/-- A flow has a text exactly if no surrogate stands in it. -/
theorem exportText_eq_ok_iff {text : String} :
    flow.exportText = .ok text ↔ flow.IsWhole ∧ (Record.write false flow).documentText = text := by
  rw [exportText, IsWhole, ← Json.firstBroken?_eq_none_iff]
  split
  · next broken hbroken => simp [hbroken]
  · next hnone => simp [hnone]

theorem exists_exportText_iff : (∃ text, flow.exportText = .ok text) ↔ flow.IsWhole := by
  simp only [exportText_eq_ok_iff, exists_and_left, exists_eq', and_true]

theorem IsWhole.written (hsound : flow.IsSound) (h : flow.IsWhole) : flow.written.IsWhole := by
  have hread : Record.read .text (Record.write false flow) = .accepted flow.written :=
    (standsFor_flow .text hsound).read_eq
  exact (KeepsRecord.kept .text _ flow.written hread).whole h

theorem hasMinuteOffsets_of_read {source : Source} {v : Json}
    (h : Record.read source v = .accepted flow) : flow.metadata.HasMinuteOffsets := by
  obtain ⟨entries, rfl, hfrom⟩ := isReadFrom_of_read h
  refine Fields.yields_required (P := Metadata.HasMinuteOffsets) ?_ flow.metadata hfrom.metadata
  exact fun _ _ _ => Metadata.hasMinuteOffsets_of_read

end Executable.Flow

/-- A text gives all of a flow that is read from it. -/
theorem isWhole_of_readFlow {s : List Symbol} (h : readFlow s = .ok flow) :
    flow.IsWhole ∧ flow.metadata.HasMinuteOffsets := by
  obtain ⟨v, -, -, hwhole, hread⟩ := exists_read_of_readFlow h
  exact ⟨(Executable.KeepsRecord.kept .text v flow hread).whole hwhole,
    Flow.hasMinuteOffsets_of_read hread⟩

theorem readFlow_of_read {s : List Symbol} (hsound : flow.IsSound)
    (hdocument : Json.read .document s = .ok (Record.write false flow)) :
    readFlow s = .ok flow.written := by
  rw [readFlow, hdocument]
  dsimp only
  rw [readRecord, (Executable.standsFor_flow .text hsound).read_eq]
  rfl

theorem read_exportText {text : String} (hsound : flow.IsSound) (htext : flow.exportText = .ok text)
    (hfits : (Record.write false flow).FitsIn .document) :
    Json.read .document (symbols text) = .ok (Record.write false flow) := by
  obtain ⟨hwhole, rfl⟩ := Flow.exportText_eq_ok_iff.1 htext
  exact Json.read_documentText (by decide) (Executable.isPlain_flow hsound) hwhole hfits

theorem isRunnable_written_iff : flow.written.IsRunnable ↔ flow.IsRunnable := by
  rw [← Flow.errors_eq_nil_iff, (Flow.sameOutline_written flow).errors_eq, Flow.errors_eq_nil_iff]

/-- A text that holds what is written of a flow is taken in as the flow that the text gives. -/
theorem importFlow_of_read {s : List Symbol} (hsound : flow.IsSound) (hrunnable : flow.IsRunnable)
    (hdocument : Json.read .document s = .ok (Record.write false flow)) (importing : Settings)
    (provider : Provider) (journal : Journal) :
    (importFlow importing s).runFrom provider journal = (.ok flow.written, journal) := by
  rw [importFlow, readFlow_of_read hsound hdocument]
  rcases runFrom_admitImport importing flow.written provider journal with
    ⟨-, hpassed⟩ | ⟨hnot, -⟩
  · exact hpassed
  · exact absurd (isRunnable_written_iff.2 hrunnable) hnot

/-- The flow has a text, and whoever takes that in has the same flow. -/
def RoundTrips (flow : Flow) : Prop :=
  ∃ text, flow.exportText = .ok text ∧ ∀ importing provider journal,
    (importFlow importing (symbols text)).runFrom provider journal = (.ok flow, journal)

/-- A flow with finite values comes back from its text exactly if no surrogate stands in it and no date
of it has seconds in its offset. -/
theorem roundTrips_iff (hsound : flow.IsSound) (hrunnable : flow.IsRunnable)
    (hfinite : flow.HasFiniteValues) (hfits : (Record.write false flow).FitsIn .document) :
    RoundTrips flow ↔ flow.IsWhole ∧ flow.metadata.HasMinuteOffsets := by
  constructor
  · rintro ⟨text, htext, hback⟩
    have hread := read_exportText hsound htext hfits
    have hwritten := importFlow_of_read hsound hrunnable hread .plain sampleProvider .empty
    rw [hback, Prod.mk.injEq, Except.ok.injEq] at hwritten
    refine ⟨(Flow.exportText_eq_ok_iff.1 htext).1, Metadata.written_eq_iff.1 ?_⟩
    exact (congrArg Flow.metadata hwritten.1).symm
  · rintro ⟨hwhole, hdates⟩
    obtain ⟨text, htext⟩ := Flow.exists_exportText_iff.2 hwhole
    have hread := read_exportText hsound htext hfits
    refine ⟨text, htext, fun importing provider journal => ?_⟩
    rw [importFlow_of_read hsound hrunnable hread, Flow.written_of_hasFiniteValues hfinite hdates]

section Host

variable [Host]

/-- A flow is what a compilation or an import came to, and no object of what it was made from has a
key twice. An object that was read from a text never has. -/
inductive ReturnedOfDictionaries (settings : Settings) (flow : Flow) : Prop
  | drawing (g : Graph) (hkeys : g.HasDistinctKeys) (metadata : Metadata) (provider : Provider)
    (journal : Journal)
    (h : ((compileGraph settings g metadata).runFrom provider journal).1 = .ok flow)
  | documents (drawing : Json) (hkeys : drawing.HasDistinctKeys) (metadata : Json)
    (provider : Provider) (journal : Journal)
    (h : ((compile settings drawing metadata).runFrom provider journal).1 = .ok flow)
  | text (s : List Symbol) (provider : Provider) (journal : Journal)
    (h : ((importFlow settings s).runFrom provider journal).1 = .ok flow)

theorem ReturnedOfDictionaries.returned (h : ReturnedOfDictionaries settings flow) :
    Returned settings flow := by
  cases h with
  | drawing g _ metadata provider journal h => exact .drawing g metadata provider journal h
  | documents drawing _ metadata provider journal h =>
    exact .documents drawing metadata provider journal h
  | text s provider journal h => exact .text s provider journal h

theorem isSound_of_compileGraph {g : Graph} {metadata : Metadata} {provider : Provider}
    {journal : Journal} (hkeys : g.HasDistinctKeys)
    (h : ((compileGraph settings g metadata).runFrom provider journal).1 = .ok flow) :
    flow.IsSound :=
  (isFlowOf_of_compileGraph h).2.1.isSound hkeys

theorem ReturnedOfDictionaries.isSound (h : ReturnedOfDictionaries settings flow) :
    flow.IsSound := by
  cases h with
  | drawing g hkeys metadata provider journal h => exact isSound_of_compileGraph hkeys h
  | documents drawing hkeys metadata provider journal h =>
    obtain ⟨g, data, -, later, hread, -, hcompiled⟩ := exists_compileGraph_of_compile h
    have hgraph := Graph.hasDistinctKeys_of_read hkeys (exists_read_of_readRecord hread)
    exact isSound_of_compileGraph hgraph hcompiled
  | text s provider journal h => exact isSound_of_readFlow (readFlow_of_importFlow h).1

/-- A flow that was returned comes back from its text, if all numbers among its free values are finite
and the reader takes a document of that nesting and integers of that length. A flow that was compiled
comes back exactly if no surrogate stands in it and no date of it has seconds in its offset; one that
was imported always does. -/
theorem roundTrips_of_returned (settings : Settings) :
    (∀ flow, ReturnedOfDictionaries settings flow → flow.HasFiniteValues →
      (Record.write false flow).FitsIn .document →
        (RoundTrips flow ↔ flow.IsWhole ∧ flow.metadata.HasMinuteOffsets)) ∧
    ∀ s provider journal flow, ((importFlow settings s).runFrom provider journal).1 = .ok flow →
      flow.HasFiniteValues → (Record.write false flow).FitsIn .document → RoundTrips flow := by
  have hreturned (flow : Flow) (h : ReturnedOfDictionaries settings flow) :=
    roundTrips_iff h.isSound h.returned.isRunnable
  refine ⟨hreturned, fun s provider journal flow h hfinite hfits => ?_⟩
  exact (hreturned flow (.text s provider journal h) hfinite hfits).2
    (isWhole_of_readFlow (readFlow_of_importFlow h).1)

end Host

attribute [local instance] sampleHost

/-- The flow of the sample drawing comes back, and so does what comes back. -/
theorem roundTrips_of_returned_sampleDrawing :
    ∃ flow text, ((compileGraph sampleSettings sampleDrawing sampleMetadata).runFrom sampleProvider
        .empty).1 = .ok flow ∧ flow.exportText = .ok text ∧
      (importFlow .plain (symbols text)).runFrom sampleProvider .empty = (.ok flow, .empty) ∧
      RoundTrips flow := by
  obtain ⟨flow, hflow, hfinite, hfits, hwhole⟩ : ∃ flow, ((compileGraph sampleSettings sampleDrawing
      sampleMetadata).runFrom sampleProvider .empty).1 = .ok flow ∧ flow.HasFiniteValues ∧
        (Record.write false flow).FitsIn .document ∧ flow.IsWhole ∧
          flow.metadata.HasMinuteOffsets := by
    decide +kernel
  have hreturned : ReturnedOfDictionaries sampleSettings flow :=
    .drawing sampleDrawing (by decide +kernel) _ _ _ hflow
  obtain ⟨text, htext, hback⟩ :=
    ((roundTrips_of_returned sampleSettings).1 flow hreturned hfinite hfits).2 hwhole
  exact ⟨flow, text, hflow, htext, hback .plain sampleProvider .empty,
    (roundTrips_of_returned .plain).2 _ _ _ flow
      (congrArg Prod.fst (hback .plain sampleProvider .empty)) hfinite hfits⟩

/-- The sample drawing with a surrogate as the label of each edge. -/
def brokenLabelDrawing : Graph :=
  { sampleDrawing with
    edges := sampleDrawing.edges.map fun e =>
      { e with label := some (.broken "" ⟨0x3D, by decide⟩ "") } }

/-- The sample metadata with seconds in the offset of a date. -/
def unevenMetadata : Metadata :=
  { sampleMetadata with
    createdAt := ⟨⟨1890, 4, 6, by decide⟩, ⟨9, 30, 0, 0, some 1172⟩, by decide⟩ }

/-- A flow with a surrogate has no text, and one with seconds in an offset comes back without them. -/
theorem not_roundTrips_brokenLabelDrawing :
    (∃ flow, ((compileGraph sampleSettings brokenLabelDrawing sampleMetadata).runFrom sampleProvider
        .empty).1 = .ok flow ∧ flow.HasFiniteValues ∧
      (Record.write false flow).FitsIn .document ∧ ¬∃ text, flow.exportText = .ok text) ∧
    ∃ flow, ((compileGraph sampleSettings sampleDrawing unevenMetadata).runFrom sampleProvider
        .empty).1 = .ok flow ∧ flow.HasFiniteValues ∧
      (Record.write false flow).FitsIn .document ∧ ∃ text, flow.exportText = .ok text ∧
        ((importFlow .plain (symbols text)).runFrom sampleProvider .empty).1 ≠ .ok flow := by
  constructor
  · obtain ⟨flow, hflow, hfinite, hfits, hbroken⟩ : ∃ flow, ((compileGraph sampleSettings
        brokenLabelDrawing sampleMetadata).runFrom sampleProvider .empty).1 = .ok flow ∧
          flow.HasFiniteValues ∧ (Record.write false flow).FitsIn .document ∧ ¬flow.IsWhole := by
      decide +kernel
    exact ⟨flow, hflow, hfinite, hfits, mt Flow.exists_exportText_iff.1 hbroken⟩
  · obtain ⟨flow, hflow, hfinite, hfits, hwhole, huneven⟩ : ∃ flow, ((compileGraph sampleSettings
        sampleDrawing unevenMetadata).runFrom sampleProvider .empty).1 = .ok flow ∧
          flow.HasFiniteValues ∧ (Record.write false flow).FitsIn .document ∧ flow.IsWhole ∧
            ¬flow.metadata.HasMinuteOffsets := by
      decide +kernel
    have hreturned : ReturnedOfDictionaries sampleSettings flow :=
      .drawing sampleDrawing (by decide +kernel) _ _ _ hflow
    obtain ⟨text, htext⟩ := Flow.exists_exportText_iff.2 hwhole
    have hread := read_exportText hreturned.isSound htext hfits
    refine ⟨flow, hflow, hfinite, hfits, text, htext, ?_⟩
    rw [importFlow_of_read hreturned.isSound hreturned.returned.isRunnable hread]
    intro hsame
    exact huneven (Metadata.written_eq_iff.1 (congrArg Flow.metadata (Except.ok.inj hsame)))

end ConversationFlow
