import ConversationFlow.Executable.Flow
import ConversationFlow.Proofs.Schema.Reading

/-!
# Ordinary records

All records that a flow is made of are refused with findings, apart from the nodes: a node whose
configuration is an object ends the reading if its type is a list or an object.
-/

namespace ConversationFlow.Executable

open Schema

instance : OrdinaryRecord MessageButton := {}
instance : OrdinaryRecord CardItem := {}
instance : OrdinaryRecord RichContent := {}
instance : OrdinaryRecord FormField := {}
instance : OrdinaryRecord ApiAuth := {}
instance : OrdinaryRecord ErrorHandler := {}
instance : OrdinaryRecord VariableDefinition := {}

instance : OrdinaryRecord StartConfig where
  readFields _ _ := .accepted _

instance : OrdinaryRecord PassthroughConfig where
  readFields _ _ := .accepted _

instance : OrdinaryRecord MessageConfig := {}
instance : OrdinaryRecord QuestionConfig := {}
instance : OrdinaryRecord ConditionConfig := {}
instance : OrdinaryRecord ApiConfig := {}
instance : OrdinaryRecord DelayConfig := {}
instance : OrdinaryRecord ActionConfig := {}
instance : OrdinaryRecord FormConfig := {}
instance : OrdinaryRecord VariableConfig := {}
instance : OrdinaryRecord TagConfig := {}
instance : OrdinaryRecord SegmentConfig := {}
instance : OrdinaryRecord TransferAgentConfig := {}
instance : OrdinaryRecord EndConfig := {}

instance : OrdinaryRecord Transition := {}
instance : OrdinaryRecord FlowConfig := {}

theorem ordinary_stamped (stamp : Option Timestamp) (source : Source) (f : Fields) (key : Key) :
    (Metadata.stamped stamp source f key).Ordinary := by
  cases stamp <;> simp [Metadata.stamped]

instance : OrdinaryRecord Metadata where
  readFields source f := by
    change (Metadata.ofFields none source f).Ordinary
    unfold Metadata.ofFields
    repeat' apply Reading.Ordinary.seq
    all_goals simp [ordinary_stamped]

/-- The configuration for a known type is read as an ordinary record, and so is the one for all other
types. -/
theorem Config.ordinary_read (source : Source) (type : Option NodeType) (v : Json) :
    (Config.read source type v).Ordinary := by
  cases type with
  | none => simp [Config.read]
  | some type => cases type <;> simp [Config.read]

end ConversationFlow.Executable
