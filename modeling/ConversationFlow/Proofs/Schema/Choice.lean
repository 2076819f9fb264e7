import ConversationFlow.Editor.NodeKind

/-!
# Names of choices

The names that values of closed types have in documents tell the values apart.
-/

namespace ConversationFlow.Schema

/-- A type of which every value is found under its name. -/
class LawfulChoice (α : Type) [Choice α] : Prop where
  ofName?_name : ∀ a : α, Choice.ofName? (Choice.name a) = some a := by
    intro a
    cases a <;> rfl

namespace Choice

variable {α : Type} [Choice α] [LawfulChoice α]

theorem ofName?_eq_some_iff {s : Text} {a : α} : ofName? s = some a ↔ name a = s := by
  constructor
  · intro h
    simpa using List.find?_some h
  · rintro rfl
    exact LawfulChoice.ofName?_name a

theorem mem_names_iff {s : Text} : s ∈ names α ↔ (ofName? s : Option α).isSome := by
  rw [Option.isSome_iff_exists]
  constructor
  · intro h
    obtain ⟨a, -, hname⟩ := List.mem_map.1 h
    exact ⟨a, ofName?_eq_some_iff.2 hname⟩
  · rintro ⟨a, ha⟩
    exact List.mem_map.2 ⟨a, List.mem_of_find?_eq_some ha, ofName?_eq_some_iff.1 ha⟩

end Choice

instance : LawfulChoice Executable.NodeType where
  ofName?_name := Executable.NodeType.ofName?_name

instance : LawfulChoice Editor.NodeKind where
  ofName?_name kind := by
    cases kind with
    | executable type => cases type <;> rfl
    | advancedCondition | input | mediaMessage | carousel | dynamicText => rfl

end ConversationFlow.Schema
