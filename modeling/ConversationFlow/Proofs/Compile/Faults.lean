import ConversationFlow.Compile.Node
import ConversationFlow.Proofs.Executable.Ordinary
import ConversationFlow.Proofs.Job

/-!
# How the compilation of a node fails

Whether a node of the editor compiles, and what it is refused for, depends on the node and its edges
alone. A node is refused as a record, with findings, so a refusal is never taken for a success. The
one other way to fail is an obstacle to a conversion between integers, texts and values, which
requests, delays and assignments make before their configuration is read.
-/

namespace ConversationFlow

open Schema Executable
open Editor (Edge NodeKind)

/-- A refusal as a record, with findings. -/
def Fault.IsRefusal (fault : Fault) : Prop :=
  ∃ title findings, fault = .invalid title findings ∧ findings ≠ []

theorem outcomesAlike_ofReading {α β : Type} (title : Text) {r : Reading α} {s : Reading β}
    (h : r.Alike s) :
    OutcomesAlike Fault.IsRefusal (Fault.ofReading title r) (Fault.ofReading title s) := by
  cases h with
  | accepted a b => exact .ok a b
  | refused hfindings => exact .error ⟨_, _, rfl, hfindings⟩

namespace Compile

variable {α β : Type}

/-- Jobs on nodes that come to a value alike or are refused alike. -/
abbrev Alike (job : NodeJob α) (other : NodeJob β) : Prop :=
  Job.Alike Fault.IsRefusal job other

theorem alike_build [Record α] {r s : Reading α} (h : r.Alike s) : Alike (build r) (build s) :=
  Job.alike_of (outcomesAlike_ofReading _ h)

theorem alike_build_self [Record α] {r : Reading α} (h : r.Ordinary) :
    Alike (build r) (build r) :=
  alike_build h.alike

theorem alike_compileButton (entry : List (Text × Json)) :
    Alike (compileButton entry) (compileButton entry) := by
  refine Job.alike_newId.bind fun id other => alike_build ?_
  exact (Reading.Ordinary.alike_map (by simp) _ _).seq (by simp)

theorem alike_compileButtons (v : Json) : Alike (compileButtons v) (compileButtons v) :=
  Job.alike_mapM alike_compileButton _

theorem alike_cardOf (entry : List (Text × Json)) (buttons others : List MessageButton) :
    (cardOf entry buttons).Alike (cardOf entry others) := by
  refine ((Reading.Ordinary.alike_map ?_ _ _).seq ?_).seq ?_
  all_goals simp

theorem alike_compileCard (entry : List (Text × Json)) :
    Alike (compileCard entry) (compileCard entry) :=
  (alike_compileButtons _).bind fun buttons others =>
    alike_build (alike_cardOf entry buttons others)

theorem alike_compileCards (v : Json) : Alike (compileCards v) (compileCards v) :=
  Job.alike_mapM alike_compileCard _

theorem ordinary_formFieldOf (position : Nat) (entry : List (Text × Json)) :
    (formFieldOf position entry).Ordinary := by
  refine Reading.Ordinary.seq (.seq (.seq ?_ ?_) ?_) (Keys.options.ordinary_reads ?_)
  all_goals simp

theorem alike_formFieldsFrom (position : Nat) (items : List Json) :
    Alike (formFieldsFrom position items) (formFieldsFrom position items) := by
  fun_induction formFieldsFrom position items with
  | case1 => exact Job.alike_pure [] []
  | case2 position entry rest ih =>
    refine (alike_build_self (ordinary_formFieldOf position entry)).bind fun _ _ => ?_
    exact ih.bind fun _ _ => Job.alike_pure _ _
  | case3 position v rest hv ih => exact ih

theorem alike_messageConfig (content : Json) (buttons others : List MessageButton)
    (rich other : Option RichContent) :
    (messageConfig content buttons rich).Alike (messageConfig content others other) :=
  Reading.Ordinary.alike_map (by simp) _ _

theorem ordinary_messageConfig (content : Json) (buttons : List MessageButton)
    (rich : Option RichContent) : (messageConfig content buttons rich).Ordinary := by
  simp [messageConfig]

theorem ordinary_questionConfig (n : Editor.Node) (question variableName regex : Json) :
    (questionConfig n question variableName regex).Ordinary := by
  unfold questionConfig
  repeat' apply Reading.Ordinary.seq
  all_goals simp

theorem alike_compileMessage (n : Editor.Node) : Alike (compileMessage n) (compileMessage n) :=
  (alike_compileButtons _).bind fun _ _ => alike_build (alike_messageConfig _ _ _ _ _)

theorem alike_compileMediaMessage (n : Editor.Node) :
    Alike (compileMediaMessage n) (compileMediaMessage n) := by
  refine (alike_build_self ?_).bind fun card other => ?_
  · exact Reading.Ordinary.seq (by simp) (by simp)
  · exact (alike_compileButtons _).bind fun _ _ => alike_build (alike_messageConfig _ _ _ _ _)

theorem alike_compileCarousel (n : Editor.Node) : Alike (compileCarousel n) (compileCarousel n) :=
  (alike_compileCards _).bind fun _ _ => alike_build (alike_messageConfig _ _ _ _ _)

theorem alike_compileForm (n : Editor.Node) : Alike (compileForm n) (compileForm n) :=
  (alike_formFieldsFrom 0 _).bind fun _ _ =>
    alike_build ((Reading.Ordinary.alike_map (by simp) _ _).seq (by simp))

theorem runFrom_convert_bind_of_error {r : Except Obstacle α} {obstacle : Obstacle}
    (hr : r = .error obstacle) (next : α → NodeJob β) (provider : Provider) (journal : Journal) :
    (convert r >>= next).runFrom provider journal = (.error (.obstructed obstacle), journal) := by
  subst hr
  rw [convert, Job.runFrom_bind, Job.runFrom_of]
  rfl

variable [Host]

/-- A value that a node of a kind converts meets an obstacle. -/
inductive Obstructs (n : Editor.Node) : NodeKind → Obstacle → Prop
  | body {obstacle : Obstacle} (h : writeText (n.value "body") = .error obstacle) :
    Obstructs n (.executable .api) obstacle
  | duration {obstacle : Obstacle}
    (h : parseInt (firstOf n ["delay", "duration"] (.str "0")) = .error obstacle) :
    Obstructs n (.executable .delay) obstacle
  | value {obstacle : Obstacle}
    (h : writeText (firstOf n ["value", "variableValue"] (.str "")) = .error obstacle) :
    Obstructs n (.executable .assignment) obstacle

/-- How a node of a kind may fail to compile. -/
def KindFault (n : Editor.Node) (kind : NodeKind) (fault : Fault) : Prop :=
  fault.IsRefusal ∨ ∃ obstacle, Obstructs n kind obstacle ∧ fault = .obstructed obstacle

theorem alike_convert_bind {n : Editor.Node} {kind : NodeKind} {r : Except Obstacle α}
    {next : α → NodeJob β} (hr : ∀ obstacle, r = .error obstacle → Obstructs n kind obstacle)
    (hnext : ∀ a b, Alike (next a) (next b)) :
    Job.Alike (KindFault n kind) (convert r >>= next) (convert r >>= next) := by
  refine Job.Alike.bind (Job.alike_of ?_) fun a b => (hnext a b).mono fun _ => .inl
  cases r with
  | ok a => exact .ok a a
  | error obstacle => exact .error (.inr ⟨obstacle, hr obstacle rfl, rfl⟩)

theorem alike_compileApi (n : Editor.Node) :
    Job.Alike (KindFault n (.executable .api)) (compileApi n) (compileApi n) := by
  refine alike_convert_bind (fun _ => .body) fun body other => alike_build ?_
  refine ((((((Reading.Ordinary.alike_map ?_ _ _).seq ?_).seq ?_).seq ?_).seq ?_).seq ?_).seq ?_
  all_goals simp

theorem alike_compileDelay (n : Editor.Node) :
    Job.Alike (KindFault n (.executable .delay)) (compileDelay n) (compileDelay n) := by
  refine alike_convert_bind (fun _ => .duration) fun duration other => alike_build ?_
  exact Reading.Ordinary.alike_map (by simp) _ _

theorem alike_compileAssignment (n : Editor.Node) :
    Job.Alike (KindFault n (.executable .assignment)) (compileAssignment n)
      (compileAssignment n) := by
  refine alike_convert_bind (fun _ => .value) fun value other => alike_build ?_
  exact (Reading.Ordinary.alike_map (by simp) _ _).seq (by simp)

/-- Every kind of node compiles, or fails, alike. -/
theorem alike_compileConfig (n : Editor.Node) (kind : NodeKind) :
    Job.Alike (KindFault n kind) (compileConfig n kind) (compileConfig n kind) := by
  have refused {α : Type} {job : NodeJob α} (make : α → Config) (h : Alike job job) :
      Job.Alike (KindFault n kind) (make <$> job) (make <$> job) :=
    (h.map make make).mono fun _ => .inl
  cases kind with
  | executable type =>
    cases type with
    | start => exact Job.alike_pure _ _
    | message => exact refused _ (alike_compileMessage n)
    | question => exact refused _ (alike_build_self (ordinary_questionConfig n _ _ _))
    | api => exact (alike_compileApi n).map _ _
    | delay => exact (alike_compileDelay n).map _ _
    | form => exact refused _ (alike_compileForm n)
    | assignment => exact (alike_compileAssignment n).map _ _
    | condition | action | tag | segment | transferAgent | finish =>
      refine refused _ (alike_build_self ?_)
      repeat' apply Reading.Ordinary.seq
      all_goals simp
  | advancedCondition => exact refused _ (alike_build_self (by simp))
  | input => exact refused _ (alike_build_self (ordinary_questionConfig n _ _ _))
  | mediaMessage => exact refused _ (alike_compileMediaMessage n)
  | carousel => exact refused _ (alike_compileCarousel n)
  | dynamicText => exact refused _ (alike_build_self (ordinary_messageConfig _ _ _))

theorem runFrom_compileConfig_of_obstructs {n : Editor.Node} {kind : NodeKind}
    {obstacle : Obstacle} (h : Obstructs n kind obstacle) (provider : Provider)
    (journal : Journal) :
    ((compileConfig n kind).runFrom provider journal).1 = .error (.obstructed obstacle) := by
  cases h with
  | body h =>
    rw [compileConfig, Job.runFrom_map, compileApi, runFrom_convert_bind_of_error h]
    rfl
  | duration h =>
    rw [compileConfig, Job.runFrom_map, compileDelay, runFrom_convert_bind_of_error h]
    rfl
  | value h =>
    rw [compileConfig, Job.runFrom_map, compileAssignment, runFrom_convert_bind_of_error h]
    rfl

/-- How a node may fail to compile. -/
def NodeFault (n : Editor.Node) (fault : Fault) : Prop :=
  fault.IsRefusal ∨ ∃ kind obstacle, NodeKind.ofName? n.type = some kind ∧ Obstructs n kind obstacle ∧
    fault = .obstructed obstacle

/-- Every node compiles, or fails, alike. -/
theorem alike_compileNode (edges : List Edge) (n : Editor.Node) :
    Job.Alike (NodeFault n) (compileNode edges n) (compileNode edges n) := by
  unfold compileNode
  cases hkind : NodeKind.ofName? n.type with
  | some kind =>
    have hconfig : Job.Alike (NodeFault n) (compileConfig n kind) (compileConfig n kind) :=
      (alike_compileConfig n kind).mono fun _ h =>
        h.imp_right fun ⟨obstacle, hobstructs, heq⟩ => ⟨kind, obstacle, hkind, hobstructs, heq⟩
    exact hconfig.bind fun _ _ => Job.alike_pure _ _
  | none =>
    have hbag : Job.Alike (NodeFault n)
        (build (Record.read .values (.obj n.data.entries) : Reading PassthroughConfig)) _ :=
      (alike_build_self (ordinary_read _ _)).mono fun _ => .inl
    exact (Job.alike_record _ _).bind fun _ _ => hbag.bind fun _ _ => Job.alike_pure _ _

end Compile

end ConversationFlow
