import ConversationFlow.Proofs.Compile.Values
import ConversationFlow.Proofs.Compile.Acceptance

/-!
# Where results are kept

A question, a request and a form keep what they come to in a variable. An author may name it under a
key that depends on the kind of the node; without a name it is made up from the id of the node, with
another beginning for each kind of result. Since the ids of a drawing are distinct, names that are
made up are too.
-/

namespace ConversationFlow

namespace Executable

/-- The variable that a node keeps its result in. -/
def Config.resultVariable? : Config → Option Text
  | .question c => some c.saveToVariable
  | .form c => some c.saveToVariable
  | .api c => some c.saveResponseTo
  | _ => none

end Executable

namespace Compile

open Schema Executable
open Editor (Edge Graph NodeKind)

variable {n : Editor.Node} {kind : NodeKind} {provider : Provider} {journal : Journal}

inductive Result where
  | answer
  | response
  | submission
deriving DecidableEq, Repr

namespace Result

def madeUpName : Result → Text → Text
  | answer => answerVariable
  | response => responseVariable
  | submission => formVariable

/-- What the names that are made up for a result begin with. -/
def stem : Result → String
  | answer => "answer_"
  | response => "api_response_"
  | submission => "form_"

theorem madeUpName_eq (result : Result) (id : Text) :
    result.madeUpName id = result.stem ++ id := by
  cases result <;> rfl

theorem take_stem_inj {result other : Result} :
    result.stem.toList.take 2 = other.stem.toList.take 2 ↔ result = other := by
  cases result <;> cases other <;> decide

theorem two_le_length_stem (result : Result) : 2 ≤ result.stem.toList.length := by
  cases result <;> decide

/-- The second character tells the results apart, whatever the ids are. -/
theorem madeUpName_inj {result other : Result} {id id' : Text} :
    result.madeUpName id = other.madeUpName id' ↔ result = other ∧ id = id' := by
  rw [madeUpName_eq, madeUpName_eq]
  constructor
  · intro h
    by_cases hresult : result = other
    · subst hresult
      exact ⟨rfl, (Text.whole_append_right_inj _).1 h⟩
    · have hchars : result.stem.toList ++ id.start.toList = other.stem.toList ++ id'.start.toList := by
        rw [← String.toList_append, ← Text.start_whole_append, h, Text.start_whole_append,
          String.toList_append]
      have htake := congrArg (List.take 2) hchars
      rw [List.take_append_of_le_length result.two_le_length_stem,
        List.take_append_of_le_length other.two_le_length_stem] at htake
      exact absurd (take_stem_inj.1 htake) hresult
  · rintro ⟨rfl, rfl⟩
    rfl

end Result

/-- The result of a kind of node, and the keys under which an author may name the variable for it. -/
def resultOf? : NodeKind → Option (Result × List Text)
  | .executable .question => some (.answer, ["variable"])
  | .input => some (.answer, ["saveToVariable", "variable"])
  | .executable .api => some (.response, ["saveResponseTo"])
  | .executable .form => some (.submission, ["saveToVariable"])
  | _ => none

def nameKeys (n : Editor.Node) : List Text :=
  match (NodeKind.ofName? n.type).bind resultOf? with
  | some (_, keys) => keys
  | none => []

/-- The data of a node give no name to the variable for its result. -/
def IsUnnamed (n : Editor.Node) : Prop :=
  ∀ key ∈ nameKeys n, (n.value key).isTruthy = false

instance (n : Editor.Node) : Decidable (IsUnnamed n) :=
  inferInstanceAs (Decidable (∀ key ∈ nameKeys n, (n.value key).isTruthy = false))

theorem variableName_of_questionConfig {question variableName regex : Json} {c : QuestionConfig}
    (h : questionConfig n question variableName regex = .accepted c) :
    variableName = .str c.saveToVariable := by
  obtain ⟨_, h₅, _, -, rfl⟩ := Reading.seq_eq_accepted_iff.1 h
  obtain ⟨_, h₄, _, -, rfl⟩ := Reading.seq_eq_accepted_iff.1 h₅
  obtain ⟨_, h₃, _, -, rfl⟩ := Reading.seq_eq_accepted_iff.1 h₄
  obtain ⟨_, h₂, name, hname, rfl⟩ := Reading.seq_eq_accepted_iff.1 h₃
  obtain ⟨_, h₁, _, -, rfl⟩ := Reading.seq_eq_accepted_iff.1 h₂
  obtain ⟨_, -, rfl⟩ := Reading.map_eq_accepted_iff.1 h₁
  exact Key.eq_str_of_reads hname

theorem saveToVariable_of_compileForm {c : FormConfig}
    (h : ((compileForm n).runFrom provider journal).1 = .ok c) :
    firstOf n ["saveToVariable"] (.str (formVariable n.id)) = .str c.saveToVariable := by
  obtain ⟨fields, later, -, hbuild⟩ := Job.exists_of_bind_eq_ok h
  obtain ⟨_, hbutton, name, hname, rfl⟩ :=
    Reading.seq_eq_accepted_iff.1 (eq_accepted_of_build hbuild)
  obtain ⟨_, -, rfl⟩ := Reading.map_eq_accepted_iff.1 hbutton
  exact Key.eq_str_of_reads hname

theorem IsUnnamed.firstOf_eq (hunnamed : IsUnnamed n) (hkind : NodeKind.ofName? n.type = some kind)
    {result : Result} {keys : List Text} (hresult : resultOf? kind = some (result, keys))
    (fallback : Json) : firstOf n keys fallback = fallback := by
  have hkeys : nameKeys n = keys := by
    rw [nameKeys, hkind, Option.bind_some, hresult]
  apply Json.first_eq_fallback
  rw [List.forall_mem_map, ← hkeys]
  exact hunnamed

section Host

variable [Host]

theorem saveResponseTo_of_compileApi {c : ApiConfig}
    (h : ((compileApi n).runFrom provider journal).1 = .ok c) :
    firstOf n ["saveResponseTo"] (.str (responseVariable n.id)) = .str c.saveResponseTo := by
  obtain ⟨body, later, -, hbuild⟩ := Job.exists_of_bind_eq_ok h
  obtain ⟨_, h₆, name, hname, rfl⟩ := Reading.seq_eq_accepted_iff.1 (eq_accepted_of_build hbuild)
  obtain ⟨_, h₅, _, -, rfl⟩ := Reading.seq_eq_accepted_iff.1 h₆
  obtain ⟨_, h₄, _, -, rfl⟩ := Reading.seq_eq_accepted_iff.1 h₅
  obtain ⟨_, h₃, _, -, rfl⟩ := Reading.seq_eq_accepted_iff.1 h₄
  obtain ⟨_, h₂, _, -, rfl⟩ := Reading.seq_eq_accepted_iff.1 h₃
  obtain ⟨_, h₁, _, -, rfl⟩ := Reading.seq_eq_accepted_iff.1 h₂
  obtain ⟨_, -, rfl⟩ := Reading.map_eq_accepted_iff.1 h₁
  exact Key.eq_str_of_reads hname

/-- A result is kept under the first name that the data of its node give, or under the name that is
made up. -/
theorem resultVariable?_of_compileConfig {config : Config}
    (h : ((compileConfig n kind).runFrom provider journal).1 = .ok config) :
    config.resultVariable?.map Json.str = (resultOf? kind).map fun (result, keys) =>
      firstOf n keys (.str (result.madeUpName n.id)) := by
  cases kind with
  | executable type =>
    cases type with
    | start =>
      obtain rfl : Config.start ⟨⟩ = config := by simpa [compileConfig] using h
      rfl
    | question =>
      rw [compileConfig, Job.runFrom_map] at h
      obtain ⟨c, hc, rfl⟩ := exists_of_map_eq_ok h
      exact congrArg some (variableName_of_questionConfig (eq_accepted_of_build hc)).symm
    | api =>
      rw [compileConfig, Job.runFrom_map] at h
      obtain ⟨c, hc, rfl⟩ := exists_of_map_eq_ok h
      exact congrArg some (saveResponseTo_of_compileApi hc).symm
    | form =>
      rw [compileConfig, Job.runFrom_map] at h
      obtain ⟨c, hc, rfl⟩ := exists_of_map_eq_ok h
      exact congrArg some (saveToVariable_of_compileForm hc).symm
    | message | condition | delay | action | assignment | tag | segment | transferAgent | finish =>
      rw [compileConfig, Job.runFrom_map] at h
      obtain ⟨c, -, rfl⟩ := exists_of_map_eq_ok h
      rfl
  | input =>
    rw [compileConfig, Job.runFrom_map] at h
    obtain ⟨c, hc, rfl⟩ := exists_of_map_eq_ok h
    exact congrArg some (variableName_of_questionConfig (eq_accepted_of_build hc)).symm
  | advancedCondition | mediaMessage | carousel | dynamicText =>
    rw [compileConfig, Job.runFrom_map] at h
    obtain ⟨c, -, rfl⟩ := exists_of_map_eq_ok h
    rfl

/-- A node whose author chose no name keeps its result under the name that is made up from its id. -/
theorem IsCompiled.exists_result {edges : List Edge} {node : Executable.Node}
    (h : IsCompiled edges n node) (hunnamed : IsUnnamed n) {name : Text}
    (hname : node.config.resultVariable? = some name) :
    ∃ result : Result, name = result.madeUpName n.id := by
  obtain ⟨provider, journal, hrun⟩ := h
  cases hkind : NodeKind.ofName? n.type with
  | none =>
    simp only [compileNode, hkind] at hrun
    rw [(eq_assemble_of_passThrough hrun).1] at hname
    cases hname
  | some kind =>
    simp only [compileNode, hkind] at hrun
    obtain ⟨config, hconfig, rfl⟩ := exists_config_of_kind hrun
    have hkept := resultVariable?_of_compileConfig hconfig
    have hconfigName : config.resultVariable? = some name := hname
    rw [hconfigName, Option.map_some] at hkept
    cases hresult : resultOf? kind with
    | none =>
      rw [hresult] at hkept
      cases hkept
    | some pair =>
      obtain ⟨result, keys⟩ := pair
      rw [hresult, Option.map_some] at hkept
      dsimp only at hkept
      rw [hunnamed.firstOf_eq hkind hresult] at hkept
      exact ⟨result, Json.str.inj (Option.some.inj hkept)⟩

/-- Two nodes of a flow whose authors chose no name never keep their results in one variable. -/
theorem resultVariables_distinct {settings : Settings} {g : Graph} {metadata : Metadata}
    {flow : Flow} (h : ((compileGraph settings g metadata).runFrom provider journal).1 = .ok flow) :
    ∀ m ∈ g.nodes, ∀ n ∈ g.nodes, m ≠ n → IsUnnamed m → IsUnnamed n →
      ∀ first second, flow.getNode? m.id = some first → flow.getNode? n.id = some second →
        ∀ name other, first.config.resultVariable? = some name →
          second.config.resultVariable? = some other → name ≠ other := by
  intro m hm n hn hne hmUnnamed hnUnnamed first second hfirst hsecond name other hname hother heq
  obtain ⟨hdrawn, hflow, -⟩ := isFlowOf_of_compileGraph h
  obtain ⟨node, hnode, hcompiled⟩ := hflow.nodes.exists_entry hm
  obtain ⟨node', hnode', hcompiled'⟩ := hflow.nodes.exists_entry hn
  obtain rfl : node = first := Option.some.inj ((Table.get?_eq_some_iff.2 hnode).symm.trans hfirst)
  obtain rfl : node' = second :=
    Option.some.inj ((Table.get?_eq_some_iff.2 hnode').symm.trans hsecond)
  obtain ⟨result, rfl⟩ := hcompiled.exists_result hmUnnamed hname
  obtain ⟨result', rfl⟩ := hcompiled'.exists_result hnUnnamed hother
  have hid : m.id = n.id := (Result.madeUpName_inj.1 heq).2
  exact hne (List.inj_on_of_nodup_map hdrawn.ids hm hn hid)

end Host

/-- A drawing that asks twice, requests and shows a form, under ids that repeat what made-up names
begin with. -/
def surveyDrawing : Graph where
  nodes :=
    [⟨"start", "start", .empty⟩,
      ⟨"1", "question", ⟨[("text", .str "Name?"), ("variable", .str "")], by decide⟩⟩,
      ⟨"form_1", "input", ⟨[("variable", .null)], by decide⟩⟩,
      ⟨"answer_1", "api", .empty⟩,
      ⟨"form_answer_1", "form", ⟨[("fields", .arr [.obj []])], by decide⟩⟩,
      ⟨"end", "end", .empty⟩]
  edges :=
    [⟨"e1", "start", "1", none, none, none⟩,
      ⟨"e2", "1", "form_1", none, none, none⟩,
      ⟨"e3", "form_1", "answer_1", none, none, none⟩,
      ⟨"e4", "answer_1", "form_answer_1", none, none, none⟩,
      ⟨"e5", "form_answer_1", "end", none, none, none⟩]
  viewport := none

attribute [local instance] sampleHost

theorem resultVariables_distinct_surveyDrawing :
    ∃ flow first second name other,
      ((compileGraph sampleSettings surveyDrawing sampleMetadata).runFrom sampleProvider
        .empty).1 = .ok flow ∧
      flow.getNode? "form_1" = some first ∧ flow.getNode? "form_answer_1" = some second ∧
      first.config.resultVariable? = some name ∧
      second.config.resultVariable? = some other ∧ name ≠ other := by
  obtain ⟨flow, hflow, hfirst, hsecond⟩ : ∃ flow, ((compileGraph sampleSettings surveyDrawing
      sampleMetadata).runFrom sampleProvider .empty).1 = .ok flow ∧
        ((flow.getNode? "form_1").bind (·.config.resultVariable?)).isSome ∧
          ((flow.getNode? "form_answer_1").bind (·.config.resultVariable?)).isSome := by
    decide +kernel
  obtain ⟨name, hname⟩ := Option.isSome_iff_exists.1 hfirst
  obtain ⟨other, hother⟩ := Option.isSome_iff_exists.1 hsecond
  obtain ⟨first, hfirst, hfirstName⟩ := Option.bind_eq_some_iff.1 hname
  obtain ⟨second, hsecond, hsecondName⟩ := Option.bind_eq_some_iff.1 hother
  exact ⟨flow, first, second, name, other, hflow, hfirst, hsecond, hfirstName, hsecondName,
    resultVariables_distinct hflow
      ⟨"form_1", "input", ⟨[("variable", .null)], by decide⟩⟩ (by simp [surveyDrawing])
      ⟨"form_answer_1", "form", ⟨[("fields", .arr [.obj []])], by decide⟩⟩
      (by simp [surveyDrawing]) (by decide +kernel) (by decide +kernel) (by decide +kernel)
      first second hfirst hsecond name other hfirstName hsecondName⟩

end Compile

end ConversationFlow
