import ConversationFlow.Proofs.Compile.Codes

/-!
# Compilations and reports on them

A report is made from what a compilation ends with: from the issues that stopped it, or from a second
check of the flow. So a compilation and the report on it agree about what is wrong, and they issue the
same ids. What is lost are the warnings about a flow in which the last gate finds an error, since a
compilation that is stopped carries errors only.
-/

namespace ConversationFlow.Compile

open Schema Executable
open Editor (Graph)

variable {settings : Settings} {provider : Provider} {journal later : Journal} {c : Call} {g : Graph}
  {metadata : Metadata} {nodes : Table Executable.Node}

theorem journal_reportOn (settings : Settings) (job : FlowJob Flow) (provider : Provider)
    (journal : Journal) :
    ((reportOn settings job).runFrom provider journal).2 = (job.runFrom provider journal).2 := by
  rw [reportOn, Job.runFrom_bind, Job.runFrom_outcome]
  cases (job.runFrom provider journal).1 with
  | ok flow => rfl
  | error failure => cases failure <;> rfl

def issuesOf : Except Failure Flow → List Issue
  | .error (.stopped _ issues) => issues
  | _ => []

/-- What comes to an end with a flow, or is stopped by a gate. -/
inductive EndsInVerdict : Except Failure Flow → Prop
  | returned (flow : Flow) : EndsInVerdict (.ok flow)
  | stopped (gate : Gate) (issues : List Issue) : EndsInVerdict (.error (.stopped gate issues))

section Host

variable [Host]

theorem Call.isRunnable_of_compile {flow : Flow}
    (h : (c.compile.runFrom provider journal).1 = .ok flow) : flow.IsRunnable := by
  obtain ⟨g, metadata, -, hcompiled⟩ := exists_of_compile h
  exact (isFlowOf_of_compileGraph hcompiled).2.2

/-- The second check of a flow says what the first one said, that there are no errors; and no gate
stops a compilation without an issue, which would make the report on it a valid one. -/
theorem verdict_of_report (c : Call) (provider : Provider) (journal : Journal)
    (h : EndsInVerdict (c.compile.runFrom provider journal).1) :
    ∃ report, (reportOn c.settings c.compile).runFrom provider journal =
        (.ok report, (c.compile.runFrom provider journal).2) ∧
      (report.valid = true ↔ ∃ flow, (c.compile.runFrom provider journal).1 = .ok flow) ∧
      report.errors = issuesOf (c.compile.runFrom provider journal).1 := by
  have hreport := runFrom_reportOn c.settings c.compile provider journal
  have hjournal := journal_reportOn c.settings c.compile provider journal
  cases hrun : (c.compile.runFrom provider journal).1 with
  | ok flow =>
    rw [hrun] at hreport
    have herrors := Flow.errors_eq_nil_iff.2 (Call.isRunnable_of_compile hrun)
    refine ⟨_, Prod.ext hreport hjournal, ?_, herrors⟩
    exact iff_of_true (List.isEmpty_iff.2 herrors) ⟨flow, rfl⟩
  | error failure =>
    rw [hrun] at h hreport
    cases h with
    | stopped gate issues =>
      obtain ⟨_, _, -, hby⟩ := exists_stoppedBy_of_call hrun
      refine ⟨_, Prod.ext hreport hjournal, iff_of_false ?_ ?_, rfl⟩
      · exact fun hvalid => hby.hasCodes.exists_issue (List.isEmpty_iff.1 hvalid)
      · rintro ⟨flow, hflow⟩
        cases hflow

end Host

section SampleHost

attribute [local instance] sampleHost

theorem verdict_of_report_sampleDrawing :
    (∃ report, (reportOn sampleSettings (compileGraph sampleSettings sampleDrawing
        sampleMetadata)).runFrom sampleProvider .empty = (.ok report, ((compileGraph sampleSettings
        sampleDrawing sampleMetadata).runFrom sampleProvider .empty).2) ∧ report.valid = true) ∧
    ∃ report, ((reportOn .plain (compileGraph .plain namelessDrawing sampleMetadata)).runFrom
      sampleProvider .empty).1 = .ok report ∧ ¬report.valid = true ∧
      report.errors = [namelessIssue] := by
  let c : Call := ⟨sampleSettings, .record sampleDrawing, .record sampleMetadata⟩
  let d : Call := ⟨.plain, .record namelessDrawing, .record sampleMetadata⟩
  have hc : c.compile = compileGraph sampleSettings sampleDrawing sampleMetadata :=
    Call.compile_records _ _ _
  have hd : d.compile = compileGraph .plain namelessDrawing sampleMetadata :=
    Call.compile_records _ _ _
  obtain ⟨flow, hflow⟩ := exists_compileGraph_sampleDrawing
  have hstopped : ((compileGraph .plain namelessDrawing sampleMetadata).runFrom sampleProvider
      .empty).1 = .error (.stopped .nodes [namelessIssue]) := by
    decide +kernel
  constructor
  · obtain ⟨report, hreport, hvalid, -⟩ := verdict_of_report c sampleProvider .empty
      (by rw [hc, hflow]; exact .returned flow)
    rw [hc] at hreport hvalid
    exact ⟨report, hreport, hvalid.2 ⟨flow, hflow⟩⟩
  · obtain ⟨report, hreport, hvalid, herrors⟩ := verdict_of_report d sampleProvider .empty
      (by rw [hd, hstopped]; exact .stopped _ _)
    rw [hd, hstopped] at hvalid herrors
    rw [hd] at hreport
    refine ⟨report, congrArg Prod.fst hreport, fun h => ?_, herrors⟩
    obtain ⟨flow, hflow⟩ := hvalid.1 h
    cases hflow

end SampleHost

/-- The report on a drawing whose nodes compile has the errors that the last gate finds. It has the
warnings as well if there are no errors, and none of them otherwise. -/
theorem report_of_assembled [Host]
    (hcoerce : (c.coerce.runFrom provider journal).1 = .ok (g, metadata))
    (hdrawn : g.IsWellDrawn c.settings.passthroughNodeTypes)
    (hnodes : (compileNodes g).runFrom provider (announced g metadata journal) =
      (.ok nodes, later)) :
    ∃ entry, startOf? nodes = some entry ∧
      let flow := flowFrom c.settings metadata nodes entry (provider.mint later.issued)
      let gate := flow.check c.settings.warnUnreachableNodes
      ∃ report, ((reportOn c.settings c.compile).runFrom provider journal).1 = .ok report ∧
        report.valid = gate.valid ∧
        report.errors = gate.errors ∧
        report.warnings = (if gate.valid then gate.warnings else []) ∧
        (report = gate ↔ flow.IsRunnable ∨ gate.warnings = []) := by
  obtain ⟨entry, hentry, -, hadmitted⟩ := runFrom_compileGraph_of_ok hdrawn hnodes
  refine ⟨entry, hentry, ?_⟩
  intro flow gate
  have hrun : c.compile.runFrom provider journal =
      (admitFlow c.settings flow).runFrom provider ⟨later.issued + 1, later.events⟩ := by
    rw [Call.runFrom_compile_of_coerce hcoerce]
    exact hadmitted
  have hvalid : gate.valid = true ↔ flow.IsRunnable := Flow.valid_check_iff
  rw [runFrom_reportOn, hrun]
  rcases runFrom_admitFlow c.settings flow provider ⟨later.issued + 1, later.events⟩ with
    ⟨hrunnable, hpassed⟩ | ⟨hrunnable, hstopped⟩
  · rw [hpassed]
    refine ⟨gate, rfl, rfl, rfl, ?_, iff_of_true rfl (.inl hrunnable)⟩
    rw [if_pos (hvalid.2 hrunnable)]
  · rw [hstopped]
    refine ⟨_, rfl, rfl, rfl, ?_, ?_⟩
    · rw [if_neg fun h => hrunnable (hvalid.1 h)]
      rfl
    · constructor
      · intro hsame
        have hwarnings : [] = gate.warnings := congrArg Report.warnings hsame
        exact .inr hwarnings.symm
      · rintro (h | hwarnings)
        · exact absurd h hrunnable
        · change Report.ofIssues flow.errors [] = Report.ofIssues flow.errors gate.warnings
          rw [hwarnings]

/-- A drawing with an edge that leads to no node, and with a message that cannot be reached and that
nothing follows. -/
def looseDrawing : Graph where
  nodes := [⟨"s", "start", .empty⟩, ⟨"o", "message", .empty⟩]
  edges := [⟨"e", "s", "ghost", none, none, none⟩]
  viewport := none

theorem isWellDrawn_looseDrawing :
    looseDrawing.IsWellDrawn Settings.plain.passthroughNodeTypes :=
  Graph.valid_check_iff.1 (by decide +kernel)

def looseCall : Call :=
  ⟨.plain, .record looseDrawing, .record sampleMetadata⟩

attribute [local instance] sampleHost

theorem exists_gate_looseDrawing :
    ∃ nodes later entry, (compileNodes looseDrawing).runFrom sampleProvider
        (announced looseDrawing sampleMetadata .empty) = (.ok nodes, later) ∧
      startOf? nodes = some entry ∧
      let gate := (flowFrom .plain sampleMetadata nodes entry
        (sampleProvider.mint later.issued)).check Settings.plain.warnUnreachableNodes
      gate.errorCodes = ["INVALID_TRANSITION"] ∧
        gate.warningCodes = ["UNREACHABLE_NODE", "DEAD_END_NODE"] := by
  obtain ⟨nodes, hnodes, entry, hentry, hcodes⟩ : ∃ nodes, ((compileNodes looseDrawing).runFrom
      sampleProvider (announced looseDrawing sampleMetadata .empty)).1 = .ok nodes ∧
        ∃ entry ∈ startOf? nodes,
          let gate := (flowFrom .plain sampleMetadata nodes entry
            (sampleProvider.mint ((compileNodes looseDrawing).runFrom sampleProvider
              (announced looseDrawing sampleMetadata .empty)).2.issued)).check
                Settings.plain.warnUnreachableNodes
          gate.errorCodes = ["INVALID_TRANSITION"] ∧
            gate.warningCodes = ["UNREACHABLE_NODE", "DEAD_END_NODE"] := by
    decide +kernel
  exact ⟨nodes, _, entry, Prod.ext hnodes rfl, hentry, hcodes⟩

theorem report_of_assembled_looseDrawing :
    ∃ report, ((reportOn .plain looseCall.compile).runFrom sampleProvider .empty).1 = .ok report ∧
      report.errorCodes = ["INVALID_TRANSITION"] ∧ report.warnings = [] := by
  obtain ⟨nodes, later, other, hnodes, hother, herrorCodes, -⟩ := exists_gate_looseDrawing
  obtain ⟨entry, hentry, report, hreport, -, herrors, hwarnings, -⟩ :=
    report_of_assembled (c := looseCall) rfl isWellDrawn_looseDrawing hnodes
  obtain rfl := Option.some.inj (hentry.symm.trans hother)
  have hcodes : report.errorCodes = ["INVALID_TRANSITION"] := by
    rw [Report.errorCodes, herrors]
    exact herrorCodes
  refine ⟨report, hreport, hcodes, ?_⟩
  rw [hwarnings, if_neg]
  intro hvalid
  have hnone : report.errors = [] := herrors.trans (List.isEmpty_iff.1 hvalid)
  rw [Report.errorCodes, hnone] at hcodes
  cases hcodes

/-- The report on the drawing is not that of the last gate: it has no warnings. -/
theorem not_all_warnings_looseDrawing :
    ¬∀ nodes later entry report, (compileNodes looseDrawing).runFrom sampleProvider
        (announced looseDrawing sampleMetadata .empty) = (.ok nodes, later) →
      startOf? nodes = some entry →
      ((reportOn .plain looseCall.compile).runFrom sampleProvider .empty).1 = .ok report →
      report.warnings = ((flowFrom .plain sampleMetadata nodes entry
        (sampleProvider.mint later.issued)).check Settings.plain.warnUnreachableNodes).warnings := by
  intro hall
  obtain ⟨nodes, later, entry, hnodes, hentry, -, hcodes⟩ := exists_gate_looseDrawing
  obtain ⟨report, hreport, hnone⟩ : ∃ report, ((reportOn .plain looseCall.compile).runFrom
      sampleProvider .empty).1 = .ok report ∧ report.warnings = [] := by
    decide +kernel
  rw [Report.warningCodes, ← hall nodes later entry report hnodes hentry hreport, hnone] at hcodes
  cases hcodes

end ConversationFlow.Compile
