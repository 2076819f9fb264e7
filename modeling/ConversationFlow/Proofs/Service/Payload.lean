import ConversationFlow.Proofs.Compile.Stamping
import ConversationFlow.Proofs.RoundTrip
import ConversationFlow.Service.Respond

/-!
# Flows in responses

The routes that compile a flow or take one in answer with the document of a flow that was returned,
or say why there is none. A document that is taken in may come back with another one: that of the
flow that was read from it.
-/

namespace ConversationFlow.Service

open Compile Schema Text
open Editor (Graph)
open Executable (Flow hasDistinctKeys_of_mem)

variable {settings : Settings} {flow : Flow} {request : Request} {provider : Provider}
  {journal : Journal} {v : Json}

abbrev Response.success (v : Json) : Response := ⟨200, .document v⟩

def Route.GivesFlow : Route → Prop
  | .compile | .takeIn | .compileSample _ => True
  | .health | .validate | .samples | .sample _ => False

theorem eq_of_send_eq_success {status : Nat} {w : Json}
    (h : Response.send status w = .success v) : status = 200 ∧ w = v ∧ v.IsWhole := by
  unfold Response.send at h
  split at h
  · next hsent =>
    cases h
    exact ⟨rfl, rfl, Json.firstBroken?_eq_none_iff.1 hsent.2⟩
  · cases h

theorem send_ne_success {status : Nat} {w : Json} (hstatus : status ≠ 200) :
    Response.send status w ≠ .success v :=
  fun h => hstatus (eq_of_send_eq_success h).1

theorem send_of_isPlain (h : v.IsPlain) (hwhole : v.IsWhole) : Response.send 200 v = .success v := by
  rw [Response.send, if_pos ⟨Json.finite_of_isFinite h.1, Json.firstBroken?_eq_none_iff.2 hwhole⟩]

/-- A job is answered with success by the document that it comes to, in which no surrogate stands. -/
theorem eq_ok_of_answer {job : FlowJob Json}
    (h : ((answer request job).runFrom provider journal).1 = .ok (.success v)) :
    (job.runFrom provider journal).1 = .ok v ∧ v.IsWhole := by
  rw [answer, Job.runFrom_bind, Job.runFrom_outcome] at h
  cases houtcome : (job.runFrom provider journal).1 with
  | ok w =>
    rw [houtcome] at h
    obtain ⟨-, rfl, hwhole⟩ := eq_of_send_eq_success (Except.ok.inj h)
    exact ⟨rfl, hwhole⟩
  | error failure =>
    rw [houtcome] at h
    cases failure with
    | stopped gate issues => exact absurd (Except.ok.inj h) (send_ne_success (by decide))
    | refused fault =>
      cases fault with
      | invalid title findings => exact absurd (Except.ok.inj h) (send_ne_success (by decide))
      | untagged | obstructed => cases h
    | startless | metadataKind | reservedKey => cases h

theorem runFrom_answer_of_ok {job : FlowJob Json} {later : Journal} (hplain : v.IsPlain)
    (hwhole : v.IsWhole) (h : job.runFrom provider journal = (.ok v, later)) :
    (answer request job).runFrom provider journal = (.ok (.success v), later) := by
  rw [answer, Job.runFrom_bind, Job.runFrom_outcome, h]
  dsimp only
  rw [send_of_isPlain hplain hwhole]
  rfl

theorem hasDistinctKeys_of_bodyOf (h : bodyOf request = .ok v) : v.HasDistinctKeys := by
  unfold bodyOf at h
  split at h
  · unfold readBody at h
    dsimp only at h
    split at h
    · cases h
    · cases h
    · cases hread : Json.read (.none (withoutMark request.body.toList).length)
          (symbols (String.ofList (withoutMark request.body.toList))) with
      | error misread => simp [hread, Except.mapError] at h
      | ok w =>
        have hsame : w = v := by simpa [hread, Except.mapError] using h
        exact hsame ▸ (Json.isReadable_of_read hread).distinct
  · cases h
    exact Json.every_str_iff.2 trivial

theorem Submission.hasDistinctKeys_of_read {source : Source} {s : Submission}
    (hv : v.HasDistinctKeys) (h : Record.read source v = .accepted s) :
    s.graph.HasDistinctKeys := by
  obtain ⟨entries, rfl, hfields⟩ := exists_of_read h
  obtain ⟨make, hmake, metadata, -, rfl⟩ := Reading.seq_eq_accepted_iff.1 hfields
  obtain ⟨graph, hgraph, rfl⟩ := Reading.map_eq_accepted_iff.1 hmake
  refine Fields.yields_required (P := Graph.HasDistinctKeys) ?_ graph hgraph
  intro field hfield g hg
  exact Editor.Graph.hasDistinctKeys_of_read (hasDistinctKeys_of_mem hv field hfield) hg

/-- The graph of a submission was read from a body; a body that holds none is not answered with
success. -/
theorem submissionOf_cases (request : Request) :
    (∃ s, submissionOf request = .ok s ∧ s.graph.HasDistinctKeys) ∨
      ∃ response, submissionOf request = .error response ∧ ∀ v, response ≠ .success v := by
  unfold submissionOf
  split
  · exact .inr ⟨_, rfl, fun _ => send_ne_success (by decide)⟩
  · split
    · exact .inr ⟨_, rfl, fun _ => send_ne_success (by decide)⟩
    · exact .inr ⟨_, rfl, fun _ => send_ne_success (by decide)⟩
    · next w hbody =>
      split
      · next s hread =>
        exact .inl ⟨s, rfl, Submission.hasDistinctKeys_of_read (hasDistinctKeys_of_bodyOf hbody)
          (exists_read_of_readRecord hread)⟩
      · exact .inr ⟨_, rfl, fun _ => send_ne_success (by decide)⟩
      · exact .inr ⟨_, rfl, fun _ h => by cases h⟩

theorem exists_of_answer_flow {job : FlowJob Flow}
    (h : ((answer request (Record.write false <$> job)).runFrom provider journal).1 =
      .ok (.success v)) :
    ∃ flow, (job.runFrom provider journal).1 = .ok flow ∧ Record.write false flow = v ∧
      flow.IsWhole := by
  obtain ⟨hjob, hwhole⟩ := eq_ok_of_answer h
  rw [Job.runFrom_map] at hjob
  obtain ⟨flow, hflow, rfl⟩ := exists_of_map_eq_ok hjob
  exact ⟨flow, hflow, rfl, hwhole⟩

theorem hasDistinctKeys_sample (sample : Sample) : sample.graph.HasDistinctKeys := by
  cases sample <;> decide +kernel

variable [Host]

theorem exists_compileGraph_of_submission {s : Submission}
    (h : ((compileSubmission settings s).runFrom provider journal).1 = .ok flow) :
    ∃ metadata later, ((readMetadata s.metadataJson).runFrom provider journal).1 = .ok metadata ∧
      ((compileGraph settings s.graph metadata).runFrom provider later).1 = .ok flow := by
  obtain ⟨metadata, later, hmetadata, hcompiled⟩ := Job.exists_of_bind_eq_ok h
  exact ⟨metadata, later, by rw [hmetadata], hcompiled⟩

theorem definitions_of_compileGraph {g : Graph} {metadata : Metadata}
    (h : ((compileGraph settings g metadata).runFrom provider journal).1 = .ok flow) :
    flow.config.definitions = [] :=
  (isFlowOf_of_compileGraph h).2.1.definitions

/-- What a flow that was handed out at a route has, and how it was made. -/
structure GivenAt (settings : Settings) (provider : Provider) (route : Route) (flow : Flow) :
    Prop where
  returned : ReturnedOfDictionaries settings flow
  whole : flow.IsWhole
  definitions : route ≠ .takeIn → flow.config.definitions = []
  offsets : provider.now.KeepsOffset → flow.metadata.KeepsOffsets

/-- A route that gives a flow is answered with success by the document of a flow that was returned.
The flow has no variables unless it was taken in. -/
theorem exists_flow_of_respondAt {route : Route} (hroute : route.GivesFlow)
    (h : ((respondAt settings request route).runFrom provider journal).1 = .ok (.success v)) :
    ∃ flow, Record.write false flow = v ∧ GivenAt settings provider route flow := by
  cases route with
  | compile =>
    rw [respondAt, withSubmission] at h
    rcases submissionOf_cases request with ⟨s, hs, hkeys⟩ | ⟨response, hs, hfails⟩
    · rw [hs] at h
      obtain ⟨flow, hflow, hv, hwhole⟩ := exists_of_answer_flow h
      obtain ⟨metadata, later, hmetadata, hcompiled⟩ := exists_compileGraph_of_submission hflow
      refine ⟨flow, hv, .drawing s.graph hkeys metadata provider later hcompiled, hwhole,
        fun _ => definitions_of_compileGraph hcompiled, fun hnow => ?_⟩
      rw [metadata_of_compileGraph hcompiled]
      exact keepsOffsets_of_readMetadata hnow hmetadata
    · rw [hs] at h
      exact absurd (Except.ok.inj h) (hfails v)
  | takeIn =>
    obtain ⟨flow, hflow, hv, hwhole⟩ := exists_of_answer_flow h
    exact ⟨flow, hv, .text _ provider journal hflow, hwhole, fun hother => absurd rfl hother,
      fun _ => (isWhole_of_readFlow (readFlow_of_importFlow hflow).1).2.keepsOffsets⟩
  | compileSample name =>
    rw [respondAt, withSample] at h
    cases hsample : Sample.ofName? name with
    | none =>
      rw [hsample] at h
      exact absurd (Except.ok.inj h) (send_ne_success (by decide))
    | some sample =>
      rw [hsample] at h
      obtain ⟨flow, hflow, hv, hwhole⟩ := exists_of_answer_flow h
      obtain ⟨g, metadata, middle, later, -, hmetadata, hcompiled⟩ :=
        exists_compileGraph_of_compile hflow
      refine ⟨flow, hv, .documents _ (hasDistinctKeys_sample sample) _ provider journal hflow,
        hwhole, fun _ => definitions_of_compileGraph hcompiled, fun hnow => ?_⟩
      rw [metadata_of_compileGraph hcompiled]
      exact keepsOffsets_of_readMetadata hnow hmetadata
  | health | validate | samples | sample => exact hroute.elim

theorem exists_flow_of_respond {route : Route} (hpath : Route.ofPath? request.path = some route)
    (hroute : route.GivesFlow)
    (h : ((respond settings request).runFrom provider journal).1 = .ok (.success v)) :
    ∃ flow, Record.write false flow = v ∧ GivenAt settings provider route flow := by
  rw [respond, hpath] at h
  dsimp only at h
  split at h
  · exact exists_flow_of_respondAt hroute h
  · exact absurd (Except.ok.inj h) (send_ne_success (by decide))

def takingIn (contentType body : String) : Request :=
  ⟨"POST", "/flows/import", contentType, body⟩

/-- What is written of a flow is answered, when it is posted, by what is written of the flow that is
read from it. -/
theorem respond_takingIn {body : String} (hsound : flow.IsSound) (hrunnable : flow.IsRunnable)
    (hbody : Json.read .document (symbols body) = .ok (Record.write false flow))
    (settings : Settings) (contentType : String) (provider : Provider) (journal : Journal) :
    (respond settings (takingIn contentType body)).runFrom provider journal =
      (.ok (.success (Record.write false flow.written)), journal) := by
  have hpath : Route.ofPath? "/flows/import" = some .takeIn := by decide
  have himported := importFlow_of_read hsound hrunnable hbody settings provider journal
  have hwhole : flow.written.IsWhole :=
    (isWhole_of_readFlow (readFlow_of_read hsound hbody)).1
  rw [respond, takingIn, hpath]
  refine runFrom_answer_of_ok (Executable.isPlain_flow hsound.written) hwhole ?_
  change (Record.write false <$> importFlow settings (symbols body)).runFrom provider journal = _
  rw [Job.runFrom_map, himported]
  rfl

end ConversationFlow.Service
