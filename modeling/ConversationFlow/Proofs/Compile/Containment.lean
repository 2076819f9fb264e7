import ConversationFlow.Proofs.Compile.Acceptance
import ConversationFlow.Proofs.Compile.Conversion

/-!
# How a compilation may end

A drawing compiles, or a gate stops it and says why; a node that does not compile is what the issues
are about. The exception is a node with a value that meets an obstacle when it is converted, because it
has too many digits or lies too deep for the host: the compilation ends there, without any issue, and
so does a report on it.
-/

namespace ConversationFlow.Compile

open Schema Executable Text
open Editor (Edge Graph NodeKind)

variable {edges : List Edge} {n : Editor.Node} {g : Graph} {settings : Settings}
  {metadata : Metadata} {provider : Provider} {journal : Journal}

/-- What a report on a compilation is made from. -/
theorem runFrom_reportOn (settings : Settings) (job : FlowJob Flow) (provider : Provider)
    (journal : Journal) :
    ((reportOn settings job).runFrom provider journal).1 =
      match (job.runFrom provider journal).1 with
      | .ok flow => .ok (flow.check settings.warnUnreachableNodes)
      | .error (.stopped _ issues) => .ok (.ofIssues issues [])
      | .error failure => .error failure := by
  rw [reportOn, Job.runFrom_bind, Job.runFrom_outcome]
  cases (job.runFrom provider journal).1 with
  | ok flow => rfl
  | error failure => cases failure <;> rfl

theorem not_exists_report_of_refused {job : FlowJob Flow} {fault : Fault}
    (h : (job.runFrom provider journal).1 = .error (.refused fault)) :
    ¬∃ report, ((reportOn settings job).runFrom provider journal).1 = .ok report := by
  rw [runFrom_reportOn, h]
  rintro ⟨report, heq⟩
  cases heq

section Host

variable [Host]

/-- A delay, a request or an assignment has a value among its data that cannot be converted: a text that
starts with too many digits, or a value that cannot be written. -/
inductive MeetsObstacle (n : Editor.Node) : Prop
  | durationText {s : Text} (htype : n.type = "delay")
    (hvalue : firstOf n ["delay", "duration"] (.str "0") = .str s)
    (h : StartsWithManyDigits s.start.toList)
  | durationValue (htype : n.type = "delay")
    (hvalue : ∀ m, firstOf n ["delay", "duration"] (.str "0") ≠ .int m)
    (h : IsObstructed .plain (firstOf n ["delay", "duration"] (.str "0")))
  | body (htype : n.type = "api") (h : IsObstructed .document (n.value "body"))
  | value (htype : n.type = "variable")
    (h : IsObstructed .document (firstOf n ["value", "variableValue"] (.str "")))

theorem meetsObstacle_iff :
    MeetsObstacle n ↔
      ∃ kind obstacle, NodeKind.ofName? n.type = some kind ∧ Obstructs n kind obstacle := by
  constructor
  · rintro (⟨htype, hvalue, h⟩ | ⟨htype, hvalue, h⟩ | ⟨htype, h⟩ | ⟨htype, h⟩)
    · obtain ⟨obstacle, hread⟩ := parseInt_eq_error_iff.2 (.inl ⟨_, hvalue, h⟩)
      exact ⟨.executable .delay, obstacle, by rw [htype]; rfl, .duration hread⟩
    · obtain ⟨obstacle, hread⟩ := parseInt_eq_error_iff.2 (.inr ⟨hvalue, h⟩)
      exact ⟨.executable .delay, obstacle, by rw [htype]; rfl, .duration hread⟩
    · obtain ⟨obstacle, hwritten⟩ := writeText_eq_error_iff.2 h
      exact ⟨.executable .api, obstacle, by rw [htype]; rfl, .body hwritten⟩
    · obtain ⟨obstacle, hwritten⟩ := writeText_eq_error_iff.2 h
      exact ⟨.executable .assignment, obstacle, by rw [htype]; rfl, .value hwritten⟩
  · rintro ⟨kind, obstacle, hkind, hobstructs⟩
    have hname : Choice.name kind = n.type := Choice.ofName?_eq_some_iff.1 hkind
    cases hobstructs with
    | body h => exact .body hname.symm (writeText_eq_error_iff.1 ⟨_, h⟩)
    | duration h =>
      rcases parseInt_eq_error_iff.1 ⟨_, h⟩ with ⟨s, hvalue, hmany⟩ | ⟨hvalue, hlong⟩
      · exact .durationText hname.symm hvalue hmany
      · exact .durationValue hname.symm hvalue hlong
    | value h => exact .value hname.symm (writeText_eq_error_iff.1 ⟨_, h⟩)

/-- A request with a body of lists within each other. -/
def nestedRequest (depth : Nat) : Editor.Node :=
  ⟨"r", "api", Table.empty.put "body" (nestedLists depth)⟩

/-- On every host, a request that is valid otherwise meets an obstacle if its body is nested too deep. -/
theorem meetsObstacle_nestedRequest_iff {depth : Nat} :
    MeetsObstacle (nestedRequest depth) ↔ Host.room .document < depth := by
  have htype : (nestedRequest depth).type = "api" := rfl
  have hbody : (nestedRequest depth).value "body" = nestedLists depth := rfl
  constructor
  · rintro (⟨hother, -, -⟩ | ⟨hother, -, -⟩ | ⟨-, h⟩ | ⟨hother, -⟩)
    · simp [htype] at hother
    · simp [htype] at hother
    · rw [hbody] at h
      exact isObstructed_nestedLists_iff.1 h
    · simp [htype] at hother
  · intro hdeep
    refine .body rfl ?_
    rw [hbody]
    exact isObstructed_nestedLists_iff.2 hdeep

theorem error_of_meetsObstacle (h : MeetsObstacle n) (edges : List Edge)
    (provider : Provider) (journal : Journal) :
    ∃ obstacle, ((compileNode edges n).runFrom provider journal).1 =
      .error (.obstructed obstacle) := by
  obtain ⟨kind, obstacle, hkind, hobstructs⟩ := meetsObstacle_iff.1 h
  have hconfig := runFrom_compileConfig_of_obstructs hobstructs provider journal
  refine ⟨obstacle, ?_⟩
  simp only [compileNode, hkind, compileKind, Job.runFrom_bind]
  cases hrun : (compileConfig n kind).runFrom provider journal with
  | mk outcome later =>
    rw [hrun] at hconfig
    subst hconfig
    rfl

theorem failsAsRecord_iff : FailsAsRecord edges n ↔ ¬MeetsObstacle n := by
  constructor
  · intro hfails hmeets
    obtain ⟨obstacle, herror⟩ := error_of_meetsObstacle hmeets edges sampleProvider .empty
    obtain ⟨title, findings, heq⟩ := hfails sampleProvider .empty _ herror
    cases heq
  · intro hmeets provider journal fault herror
    rcases nodeFault_of_error herror with
      ⟨title, findings, rfl, -⟩ | ⟨kind, obstacle, hkind, hobstructs, -⟩
    · exact ⟨title, findings, rfl⟩
    · exact absurd (meetsObstacle_iff.2 ⟨kind, obstacle, hkind, hobstructs⟩) hmeets

/-- A compilation came to a flow, or one of its gates stopped it with issues; those of the second gate
are about the nodes that do not compile. -/
inductive Contained (g : Graph) : Except Failure Flow → Prop
  | returned (flow : Flow) : Contained g (.ok flow)
  | notDrawn {issues : List Issue} (hissues : issues ≠ []) :
    Contained g (.error (.stopped .drawing issues))
  | notCompiled {issues : List Issue} (hissues : issues ≠ []) (hreports : Reports g issues) :
    Contained g (.error (.stopped .nodes issues))
  | notRunnable {issues : List Issue} (hissues : issues ≠ []) :
    Contained g (.error (.stopped .flow issues))

/-- If the drawing is well drawn, none of its nodes meets an obstacle. -/
def IsUnobstructed (extraTypes : List Text) (g : Graph) : Prop :=
  g.IsWellDrawn extraTypes → ∀ n ∈ g.nodes, ¬MeetsObstacle n

theorem nodesFailAsRecords_iff : NodesFailAsRecords g ↔ ∀ n ∈ g.nodes, ¬MeetsObstacle n :=
  forall₂_congr fun _ _ => failsAsRecord_iff

/-- The compilation of a drawing is contained, or it ends at a node that meets an obstacle. -/
theorem contained_or_ended (settings : Settings) (g : Graph) (metadata : Metadata)
    (provider : Provider) (journal : Journal) :
    (IsUnobstructed settings.passthroughNodeTypes g ∧
      Contained g ((compileGraph settings g metadata).runFrom provider journal).1) ∨
    (¬IsUnobstructed settings.passthroughNodeTypes g ∧
      ∃ obstacle, ((compileGraph settings g metadata).runFrom provider journal).1 =
        .error (.refused (.obstructed obstacle))) := by
  have houtcome := outcome settings g metadata provider journal
  generalize ((compileGraph settings g metadata).runFrom provider journal).1 = result at houtcome ⊢
  have hunobstructed (hcompile : NodesCompile g) : IsUnobstructed settings.passthroughNodeTypes g := by
    intro _ n hn
    exact failsAsRecord_iff.1 (hcompile n hn).failsAsRecord
  cases houtcome with
  | notDrawn hdrawn hissues =>
    exact .inl ⟨fun h => absurd h hdrawn, .notDrawn hissues⟩
  | notCompiled _ _ hissues hfails hreports =>
    exact .inl ⟨fun _ => nodesFailAsRecords_iff.1 hfails, .notCompiled hissues hreports⟩
  | ended hfails hdrawn =>
    exact .inr ⟨fun h => hfails (nodesFailAsRecords_iff.2 (h hdrawn)), _, rfl⟩
  | notRunnable _ hcompile _ hrunnable =>
    exact .inl ⟨hunobstructed hcompile, .notRunnable fun h => hrunnable (Flow.errors_eq_nil_iff.1 h)⟩
  | returned _ hcompile _ _ => exact .inl ⟨hunobstructed hcompile, .returned _⟩

theorem exists_report_of_contained {job : FlowJob Flow}
    (h : Contained g (job.runFrom provider journal).1) :
    ∃ report, ((reportOn settings job).runFrom provider journal).1 = .ok report := by
  rw [runFrom_reportOn]
  generalize (job.runFrom provider journal).1 = result at h
  cases h with
  | returned | notDrawn | notCompiled | notRunnable => exact ⟨_, rfl⟩

/-- A node is refused as a record, if at all, exactly if it meets no obstacle. And exactly if no node of
a well-drawn drawing meets one, it compiles or is stopped by a gate with issues, and there is a report
on it. -/
theorem contained_compileGraph_iff (settings : Settings) (g : Graph) (metadata : Metadata)
    (provider : Provider) (journal : Journal) :
    (∀ edges n, FailsAsRecord edges n ↔ ¬MeetsObstacle n) ∧
    (Contained g ((compileGraph settings g metadata).runFrom provider journal).1 ↔
      IsUnobstructed settings.passthroughNodeTypes g) ∧
    ((∃ report, ((reportOn settings (compileGraph settings g metadata)).runFrom provider
        journal).1 = .ok report) ↔
      IsUnobstructed settings.passthroughNodeTypes g) := by
  refine ⟨fun _ _ => failsAsRecord_iff, ?_⟩
  rcases contained_or_ended settings g metadata provider journal with
    ⟨hunobstructed, hcontained⟩ | ⟨hobstructed, obstacle, hended⟩
  · exact ⟨iff_of_true hcontained hunobstructed,
      iff_of_true (exists_report_of_contained hcontained) hunobstructed⟩
  · refine ⟨iff_of_false ?_ hobstructed,
      iff_of_false (not_exists_report_of_refused hended) hobstructed⟩
    rw [hended]
    rintro ⟨⟩

end Host

/-- A text of more digits than are read. -/
def lengthyText : String :=
  String.ofList (List.replicate (digitLimit + 1) '9')

theorem startsWithManyDigits_lengthyText : StartsWithManyDigits lengthyText.toList := by
  have hrun : lengthyText.toList = List.replicate (digitLimit + 1) '9' := String.toList_ofList
  rw [hrun]
  refine IsDigitRun.startsWithManyDigits ?_ ?_
  · intro c hc
    rw [List.eq_of_mem_replicate hc]
    decide
  · rw [List.length_replicate]
    exact Nat.lt_add_one digitLimit

def delayNode (duration : String) : Editor.Node :=
  ⟨"d", "delay", Table.empty.put "delay" (.str duration)⟩

theorem meetsObstacle_delayNode [Host] {duration : String}
    (h : StartsWithManyDigits duration.toList) : MeetsObstacle (delayNode duration) := by
  have htruthy : (Json.str duration).isTruthy = true := by
    obtain ⟨blanks, sign, run, rest, -, -, hlong, hsplit⟩ := h
    rw [Json.isTruthy, bne_iff_ne]
    intro hempty
    obtain rfl := Text.whole.inj hempty
    simp at hsplit
    simp [hsplit] at hlong
  have hgiven : (delayNode duration).value "delay" = .str duration := rfl
  have hvalue : firstOf (delayNode duration) ["delay", "duration"] (.str "0") = .str duration := by
    rw [firstOf, List.map_cons, hgiven, Json.first, List.find?_cons_of_pos htruthy,
      Option.getD_some]
  exact .durationText rfl hvalue h

/-- A drawing with a delay of more digits than are read. -/
def lengthyDrawing : Graph where
  nodes := [⟨"s", "start", .empty⟩, delayNode lengthyText, ⟨"e", "end", .empty⟩]
  edges := [⟨"e1", "s", "d", none, none, none⟩, ⟨"e2", "d", "e", none, none, none⟩]
  viewport := none

attribute [local instance] sampleHost

theorem not_contained_lengthyDrawing :
    ¬Contained lengthyDrawing
      ((compileGraph .plain lengthyDrawing sampleMetadata).runFrom sampleProvider .empty).1 ∧
    ¬∃ report, ((reportOn .plain (compileGraph .plain lengthyDrawing sampleMetadata)).runFrom
      sampleProvider .empty).1 = .ok report := by
  have hdrawn : lengthyDrawing.IsWellDrawn Settings.plain.passthroughNodeTypes :=
    Graph.valid_check_iff.1 (by decide +kernel)
  have hlengthy : ¬IsUnobstructed Settings.plain.passthroughNodeTypes lengthyDrawing := by
    intro hunobstructed
    exact hunobstructed hdrawn (delayNode lengthyText) (by simp [lengthyDrawing])
      (meetsObstacle_delayNode startsWithManyDigits_lengthyText)
  rcases contained_or_ended .plain lengthyDrawing sampleMetadata sampleProvider .empty with
    ⟨hunobstructed, -⟩ | ⟨-, obstacle, hended⟩
  · exact absurd hunobstructed hlengthy
  · refine ⟨?_, not_exists_report_of_refused hended⟩
    rw [hended]
    rintro ⟨⟩

end ConversationFlow.Compile
