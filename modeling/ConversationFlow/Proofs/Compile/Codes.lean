import ConversationFlow.Proofs.Compile.Acceptance
import ConversationFlow.Proofs.Compile.Call
import ConversationFlow.Proofs.Compile.Containment
import ConversationFlow.Proofs.Import

/-!
# Codes of issues

The code of an issue tells the gate that reports it, with one exception: the issues about a node
whose id is empty have the code of a document that holds no flow, because an empty id counts as
none.
-/

namespace ConversationFlow

open Schema

/-- The codes that are meant for a gate. -/
def Gate.codes : Gate → List IssueCode
  | drawing => [.noStartNode, .multipleStartNodes, .invalidNodeType, .duplicateNodeId]
  | nodes => [.invalidNodeConfig]
  | flow | importedFlow => [.invalidEntryNode, .infiniteLoop, .invalidTransition]
  | document => [.malformedFlow]

theorem Gate.malformedFlow_mem_codes_iff {gate : Gate} :
    .malformedFlow ∈ gate.codes ↔ gate = .document := by
  cases gate <;> decide

theorem Executable.Flow.code_mem_codes {flow : Flow} {issue : Issue} (h : issue ∈ flow.errors) :
    issue.code ∈ Gate.flow.codes := by
  simpa [Gate.codes] using code_of_mem_errors h

theorem Editor.Graph.code_mem_codes {extraTypes : List Text} {g : Graph} {issue : Issue}
    (h : issue ∈ (g.check extraTypes).errors) : issue.code ∈ Gate.drawing.codes := by
  simpa [Gate.codes, or_assoc] using code_of_mem_errors h

namespace Compile

open Executable
open Editor (Edge Graph)

variable {edges : List Edge} {n : Editor.Node} {g : Graph} {settings : Settings}
  {metadata : Metadata} {provider : Provider} {journal : Journal} {gate : Gate}
  {issues : List Issue}

/-- The code of the issues about a node. -/
def codeOf (id : Text) : IssueCode :=
  if id = "" then .malformedFlow else .invalidNodeConfig

theorem code_issueOf (id : Text) (f : Finding) : (issueOf (some id) f).code = codeOf id := by
  by_cases hid : id = ""
  · subst hid
    rfl
  · rw [codeOf, if_neg hid]
    unfold issueOf
    dsimp only
    split
    · next heq => cases heq
    · next heq => exact absurd (Option.some.inj heq) hid
    · rfl

theorem codeOf_mem_codes_iff {id : Text} : codeOf id ∈ Gate.nodes.codes ↔ id ≠ "" := by
  by_cases hid : id = "" <;> simp [codeOf, Gate.codes, hid]

theorem code_ne_of_mem_warnings {flow : Flow} {issue : Issue} (h : issue ∈ flow.warnings) :
    issue.code ≠ .malformedFlow := by
  obtain ⟨entry, -, hissue⟩ := List.mem_flatMap.1 h
  rcases List.mem_append.1 hissue with hunreachable | hstuck
  · split at hunreachable
    · cases hunreachable
    · simp [List.mem_singleton.1 hunreachable, Issue.about]
  · split at hstuck
    · simp [List.mem_singleton.1 hstuck, Issue.about]
    · cases hstuck

theorem code_ne_of_mem_check {flow : Flow} {warn : Bool} {issue : Issue}
    (h : issue ∈ (flow.check warn).errors ∨ issue ∈ (flow.check warn).warnings) :
    issue.code ≠ .malformedFlow := by
  rcases h with herror | hwarning
  · intro hcode
    have hmem := Flow.code_mem_codes herror
    rw [hcode, Gate.malformedFlow_mem_codes_iff] at hmem
    cases hmem
  · rw [Flow.check, Report.ofIssues] at hwarning
    dsimp only at hwarning
    split at hwarning
    · exact code_ne_of_mem_warnings hwarning
    · cases hwarning

theorem hasCodes_of_importFlow {s : List Text.Symbol}
    (h : ((importFlow settings s).runFrom provider journal).1 = .error (.stopped gate issues)) :
    (gate = .document ∨ gate = .importedFlow) ∧ issues ≠ [] ∧
      ∀ issue ∈ issues, issue.code ∈ gate.codes := by
  have hreading := flowReading s
  rw [importFlow] at h
  split at h
  · next flow hread =>
    rcases runFrom_admitImport settings flow provider journal with
      ⟨-, hpassed⟩ | ⟨hrunnable, hstopped⟩
    · rw [hpassed] at h
      cases h
    · rw [hstopped] at h
      cases h
      exact ⟨.inr rfl, fun hissues => hrunnable (Flow.errors_eq_nil_iff.1 hissues),
        fun issue => Flow.code_mem_codes⟩
  · next title findings hread =>
    rw [hread] at hreading
    cases h
    cases hreading with
    | refused _ hfindings =>
      refine ⟨.inl rfl, by simpa using hfindings, ?_⟩
      intro issue hissue
      obtain ⟨finding, -, rfl⟩ := List.mem_map.1 hissue
      exact List.mem_singleton_self _
  · cases h

section Host

variable [Host]

theorem code_of_attempt
    (h : ((attempt edges n).runFrom provider journal).1 = .ok (.error issues)) :
    ∀ issue ∈ issues, issue.code = codeOf n.id := by
  rw [attempt, Job.runFrom_bind, Job.runFrom_outcome] at h
  dsimp only at h
  split at h
  · cases h
  · cases h
    intro issue hissue
    obtain ⟨finding, -, rfl⟩ := List.mem_map.1 hissue
    exact code_issueOf n.id finding
  · cases h

/-- Every issue of the second gate has the code for the id of the node that it is about. -/
theorem code_of_compileNodes
    (h : ((compileNodes g).runFrom provider journal).1 = .error (.stopped .nodes issues)) :
    ∀ issue ∈ issues, ∃ n ∈ g.nodes, ¬Compiles (g.outgoing n.id) n ∧ issue.nodeId = some n.id ∧
      issue.code = codeOf n.id := by
  rw [compileNodes, Job.runFrom_bind] at h
  simp only [getD_edgesBySource] at h
  rcases Job.runFrom_mapM_cases (fun n => attempt (g.outgoing n.id) n) g.nodes provider journal with
    ⟨outcomes, later, hrun, houtcomes⟩ | ⟨failure, later, hrun, n, hn, start, hfailure⟩
  · rw [hrun] at h
    dsimp only at h
    split at h
    · cases h
    · cases h
      intro issue hissue
      obtain ⟨others, houtcome, hmem⟩ := mem_issuesOfOutcomes_iff.1 hissue
      obtain ⟨n, hn, start, hattempt⟩ := exists_left_of_forall₂ houtcomes houtcome
      have hattempted := attempted (g.outgoing n.id) n provider start
      rw [hattempt] at hattempted
      cases hattempted with
      | refused hrefused _ _ habout =>
        exact ⟨n, hn, hrefused, habout issue hmem, code_of_attempt hattempt issue hmem⟩
  · rw [hrun] at h
    cases h
    have hattempted := attempted (g.outgoing n.id) n provider start
    rw [hfailure] at hattempted
    cases hattempted

/-- What is known of the issues with which a gate stops the compilation of a drawing. -/
inductive StoppedBy (settings : Settings) (g : Graph) : Gate → List Issue → Prop
  | drawing (h : ¬g.IsWellDrawn settings.passthroughNodeTypes) :
    StoppedBy settings g .drawing (g.check settings.passthroughNodeTypes).errors
  | nodes {issues : List Issue} (hissues : issues ≠ []) (hreports : Reports g issues)
    (hcodes : ∀ issue ∈ issues, ∃ n ∈ g.nodes, ¬Compiles (g.outgoing n.id) n ∧
      issue.nodeId = some n.id ∧ issue.code = codeOf n.id) :
    StoppedBy settings g .nodes issues
  | flow {flow : Flow} (h : ¬flow.IsRunnable) : StoppedBy settings g .flow flow.errors

theorem stoppedBy_of_compileGraph
    (h : ((compileGraph settings g metadata).runFrom provider journal).1 =
      .error (.stopped gate issues)) : StoppedBy settings g gate issues := by
  by_cases hdrawn : g.IsWellDrawn settings.passthroughNodeTypes
  · have hnodes := nodesOutcome hdrawn.ids provider (announced g metadata journal)
    cases hrun : (compileNodes g).runFrom provider (announced g metadata journal) with
    | mk result later =>
      cases result with
      | ok nodes =>
        obtain ⟨entry, -, -, hflow⟩ := runFrom_compileGraph_of_ok hdrawn hrun
        rw [hflow] at h
        rcases runFrom_admitFlow settings _ provider ⟨later.issued + 1, later.events⟩ with
          ⟨-, hpassed⟩ | ⟨hrunnable, hstopped⟩
        · cases hpassed.symm.trans h
        · cases hstopped.symm.trans h
          exact .flow hrunnable
      | error failure =>
        have hfailure := congrArg Prod.fst hrun
        rw [runFrom_compileGraph_of_error hdrawn hfailure] at h
        cases h
        rw [hrun] at hnodes
        cases hnodes with
        | stopped _ hissues _ hreports =>
          exact .nodes hissues hreports (code_of_compileNodes hfailure)
  · rw [runFrom_compileGraph_of_not_wellDrawn hdrawn] at h
    cases h
    exact .drawing hdrawn

/-- The issues of a gate, with the exception: they are about a node with an empty id. -/
structure HasCodes (g : Graph) (gate : Gate) (issues : List Issue) : Prop where
  compiling : gate = .drawing ∨ gate = .nodes ∨ gate = .flow
  exists_issue : issues ≠ []
  about : gate = .nodes → ∀ issue ∈ issues,
    ∃ n ∈ g.nodes, ¬Compiles (g.outgoing n.id) n ∧ issue.nodeId = some n.id
  code : ∀ issue ∈ issues,
    ¬(gate = .nodes ∧ issue.nodeId = some ("" : Text)) → issue.code ∈ gate.codes
  nameless : ∀ issue ∈ issues,
    gate = .nodes → issue.nodeId = some ("" : Text) → issue.code = .malformedFlow
  codes_iff : (∀ issue ∈ issues, issue.code ∈ gate.codes) ↔
    (gate = .nodes → ∀ n ∈ g.nodes, n.id = "" → Compiles (g.outgoing n.id) n)

/-- Outside the second gate there is no exception. -/
theorem hasCodes_of_codes (hgate : gate = .drawing ∨ gate = .flow) (hissues : issues ≠ [])
    (hcodes : ∀ issue ∈ issues, issue.code ∈ gate.codes) : HasCodes g gate issues := by
  have hnodes : gate ≠ .nodes := by
    rcases hgate with rfl | rfl <;> decide
  exact ⟨hgate.imp_right .inr, hissues, fun h => absurd h hnodes, fun issue hissue _ =>
    hcodes issue hissue, fun _ _ h => absurd h hnodes, iff_of_true hcodes fun h => absurd h hnodes⟩

theorem StoppedBy.hasCodes (h : StoppedBy settings g gate issues) : HasCodes g gate issues := by
  cases h with
  | drawing hdrawn =>
    refine hasCodes_of_codes (.inl rfl) ?_ fun issue => Graph.code_mem_codes
    intro hissues
    exact hdrawn (Graph.valid_check_iff.1 (List.isEmpty_iff.2 hissues))
  | flow hrunnable =>
    refine hasCodes_of_codes (.inr rfl) ?_ fun issue => Flow.code_mem_codes
    exact fun hissues => hrunnable (Flow.errors_eq_nil_iff.1 hissues)
  | nodes hissues hreports hcodes =>
    refine ⟨.inr (.inl rfl), hissues, fun _ => hreports.causes, ?_, ?_, ?_⟩
    · intro issue hissue hnamed
      obtain ⟨n, -, -, hnode, hcode⟩ := hcodes issue hissue
      rw [hcode, codeOf_mem_codes_iff]
      rintro hid
      exact hnamed ⟨rfl, by rw [hnode, hid]⟩
    · intro issue hissue _ hnameless
      obtain ⟨n, -, -, hnode, hcode⟩ := hcodes issue hissue
      rw [hnode, Option.some.injEq] at hnameless
      rw [hcode, hnameless]
      rfl
    · constructor
      · intro hall _ n hn hid
        -- an issue about the node would have the code that is not meant for the gate
        by_contra hrefused
        obtain ⟨issue, hissue, habout⟩ := hreports.covers n hn hrefused
        obtain ⟨m, -, -, hnode, hcode⟩ := hcodes issue hissue
        rw [habout, Option.some.injEq, hid] at hnode
        exact codeOf_mem_codes_iff.1 (hcode ▸ hall issue hissue) hnode.symm
      · intro hnameless issue hissue
        obtain ⟨n, hn, hrefused, -, hcode⟩ := hcodes issue hissue
        rw [hcode, codeOf_mem_codes_iff]
        exact fun hid => hrefused (hnameless rfl n hn hid)

/-- A gate can stop a call only after what was handed in has been read. -/
theorem exists_stoppedBy_of_call {c : Call}
    (h : (c.compile.runFrom provider journal).1 = .error (.stopped gate issues)) :
    ∃ g metadata, (c.coerce.runFrom provider journal).1 = .ok (g, metadata) ∧
      StoppedBy c.settings g gate issues := by
  cases hcoerce : (c.coerce.runFrom provider journal).1 with
  | ok handed =>
    rw [Call.runFrom_compile_of_coerce hcoerce] at h
    exact ⟨handed.1, handed.2, rfl, stoppedBy_of_compileGraph h⟩
  | error failure =>
    rw [Call.runFrom_compile_of_not_coerce hcoerce] at h
    cases h
    exact absurd rfl ((c.traceless_coerce provider journal).2 _ hcoerce gate issues)

/-- A report speaks of a document that holds no flow only if a node with an empty id does not
compile. -/
theorem exists_nameless_of_report {c : Call} {report : Report} {issue : Issue}
    (h : ((reportOn c.settings c.compile).runFrom provider journal).1 = .ok report)
    (hissue : issue ∈ report.errors ∨ issue ∈ report.warnings)
    (hcode : issue.code = .malformedFlow) :
    ∃ g metadata, (c.coerce.runFrom provider journal).1 = .ok (g, metadata) ∧
      ∃ n ∈ g.nodes, n.id = "" ∧ ¬Compiles (g.outgoing n.id) n := by
  rw [runFrom_reportOn] at h
  split at h
  · cases h
    exact absurd hcode (code_ne_of_mem_check hissue)
  · next gate issues hstopped =>
    cases h
    obtain ⟨g, metadata, hcoerce, hby⟩ := exists_stoppedBy_of_call hstopped
    have herror : issue ∈ issues := hissue.resolve_right List.not_mem_nil
    refine ⟨g, metadata, hcoerce, ?_⟩
    by_contra hnone
    have hall := hby.hasCodes.codes_iff.2 fun _ n hn hid =>
      not_not.1 fun hrefused => hnone ⟨n, hn, hid, hrefused⟩
    have hmem := hall issue herror
    rw [hcode, Gate.malformedFlow_mem_codes_iff] at hmem
    rcases hby.hasCodes.compiling with rfl | rfl | rfl <;> cases hmem
  · cases h

/-- The issues of a call that a gate stops have the codes that are meant for the gate, but for those
about a node with an empty id; and so have the issues of an import, without exception. -/
theorem codes_of_stopped (c : Call) (settings : Settings) (s : List Text.Symbol)
    (provider : Provider) (journal : Journal) :
    (∀ gate issues, (c.compile.runFrom provider journal).1 = .error (.stopped gate issues) →
      ∃ g metadata, (c.coerce.runFrom provider journal).1 = .ok (g, metadata) ∧
        HasCodes g gate issues) ∧
    (∀ report issue, ((reportOn c.settings c.compile).runFrom provider journal).1 = .ok report →
      (issue ∈ report.errors ∨ issue ∈ report.warnings) → issue.code = .malformedFlow →
        ∃ g metadata, (c.coerce.runFrom provider journal).1 = .ok (g, metadata) ∧
          ∃ n ∈ g.nodes, n.id = "" ∧ ¬Compiles (g.outgoing n.id) n) ∧
    (∀ gate issues,
      ((importFlow settings s).runFrom provider journal).1 = .error (.stopped gate issues) →
        (gate = .document ∨ gate = .importedFlow) ∧ issues ≠ [] ∧
          ∀ issue ∈ issues, issue.code ∈ gate.codes) := by
  refine ⟨fun gate issues h => ?_, fun report issue => exists_nameless_of_report,
    fun gate issues => hasCodes_of_importFlow⟩
  obtain ⟨g, metadata, hcoerce, hby⟩ := exists_stoppedBy_of_call h
  exact ⟨g, metadata, hcoerce, hby.hasCodes⟩

end Host

/-- A drawing with a delay that does not compile and whose id is empty. -/
def namelessDrawing : Graph where
  nodes :=
    [⟨"s", "start", .empty⟩, ⟨"", "delay", ⟨[("unit", .str "weeks")], by decide⟩⟩,
      ⟨"e", "end", .empty⟩]
  edges := [⟨"e1", "s", "", none, none, none⟩, ⟨"e2", "", "e", none, none, none⟩]
  viewport := none

/-- What a compilation of the drawing says. -/
def namelessIssue : Issue :=
  ⟨.malformedFlow, "unit: Input should be 'seconds', 'minutes', 'hours' or 'days'", some ""⟩

attribute [local instance] sampleHost

theorem codes_of_stopped_namelessDrawing :
    HasCodes namelessDrawing .nodes [namelessIssue] ∧
      (∃ n ∈ namelessDrawing.nodes, n.id = "" ∧ ¬Compiles (namelessDrawing.outgoing n.id) n) ∧
      ∃ issues, ((importFlow .plain []).runFrom sampleProvider .empty).1 =
        .error (.stopped .document issues) ∧
          ∀ issue ∈ issues, issue.code ∈ Gate.document.codes := by
  let c : Call := ⟨.plain, .record namelessDrawing, .record sampleMetadata⟩
  have hcoerce : (c.coerce.runFrom sampleProvider .empty).1 =
      .ok (namelessDrawing, sampleMetadata) :=
    rfl
  refine ⟨?_, ?_, ?_⟩
  · obtain ⟨g, metadata, hg, hcodes⟩ :=
      (codes_of_stopped c .plain [] sampleProvider .empty).1 .nodes [namelessIssue]
        (by decide +kernel)
    rw [hcoerce] at hg
    cases hg
    exact hcodes
  · obtain ⟨g, metadata, hg, hnode⟩ :=
      (codes_of_stopped c .plain [] sampleProvider .empty).2.1 ⟨false, [namelessIssue], []⟩
        namelessIssue (by decide +kernel) (.inl (List.mem_singleton_self _)) rfl
    rw [hcoerce] at hg
    cases hg
    exact hnode
  · obtain ⟨issues, hissues⟩ : ∃ issues, ((importFlow .plain []).runFrom sampleProvider
        .empty).1 = .error (.stopped .document issues) := ⟨_, rfl⟩
    exact ⟨issues, hissues,
      ((codes_of_stopped c .plain [] sampleProvider .empty).2.2 .document issues hissues).2.2⟩

theorem not_all_codes_namelessDrawing :
    ¬∀ gate issues, ((compileGraph .plain namelessDrawing sampleMetadata).runFrom sampleProvider
      .empty).1 = .error (.stopped gate issues) → ∀ issue ∈ issues, issue.code ∈ gate.codes := by
  intro hall
  have hmem := hall .nodes [namelessIssue] (by decide +kernel) namelessIssue
    (List.mem_singleton_self _)
  exact absurd hmem (by decide)

end Compile

end ConversationFlow
