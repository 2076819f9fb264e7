import ConversationFlow.Schema.Keys

/-!
# Issues and reports

What the checks of a flow say: issues with a code, and reports that gather them. A report is valid if
it holds no errors.
-/

namespace ConversationFlow

open Schema

inductive IssueCode where
  | noStartNode
  | multipleStartNodes
  | invalidNodeType
  | duplicateNodeId
  | invalidNodeConfig
  | invalidEntryNode
  | infiniteLoop
  | invalidTransition
  | malformedFlow
  | unreachableNode
  | deadEndNode
deriving DecidableEq, Repr

instance : Choice IssueCode where
  all := [.noStartNode, .multipleStartNodes, .invalidNodeType, .duplicateNodeId, .invalidNodeConfig,
    .invalidEntryNode, .infiniteLoop, .invalidTransition, .malformedFlow, .unreachableNode,
    .deadEndNode]
  name
    | .noStartNode => "NO_START_NODE"
    | .multipleStartNodes => "MULTIPLE_START_NODES"
    | .invalidNodeType => "INVALID_NODE_TYPE"
    | .duplicateNodeId => "DUPLICATE_NODE_ID"
    | .invalidNodeConfig => "INVALID_NODE_CONFIG"
    | .invalidEntryNode => "INVALID_ENTRY_NODE"
    | .infiniteLoop => "INFINITE_LOOP"
    | .invalidTransition => "INVALID_TRANSITION"
    | .malformedFlow => "MALFORMED_FLOW"
    | .unreachableNode => "UNREACHABLE_NODE"
    | .deadEndNode => "DEAD_END_NODE"

/-- An error or a warning about a flow or one node of it. -/
structure Issue where
  code : IssueCode
  message : Text
  nodeId : Option Text
deriving DecidableEq

instance : Record Issue where
  title := "ValidationIssue"
  keys := [Keys.code, Keys.message, Keys.nodeId]
  extraKeys := .ignored
  readFields _ f := Issue.mk
    <$> f.required Keys.code member
    <*> f.required Keys.message text
    <*> f.optional Keys.nodeId text
  write nulls i := Json.record nulls
    [Keys.code.holds (writeChoice i.code),
      Keys.message.holds (.str i.message),
      Keys.nodeId.mayHold (i.nodeId.map .str)]

def Issue.about (code : IssueCode) (message nodeId : Text) : Issue :=
  ⟨code, message, some nodeId⟩

/-- How often each code occurs, in the order in which the codes first come. -/
def countByCode (issues : List Issue) : Table Nat :=
  issues.foldl (fun counts issue =>
    let name := Choice.name issue.code
    counts.put name ((counts.get? name).getD 0 + 1)) .empty

structure Report where
  valid : Bool
  errors : List Issue
  warnings : List Issue
deriving DecidableEq

namespace Report

/-- The report of issues: valid if there are no errors. -/
def ofIssues (errors warnings : List Issue) : Report :=
  ⟨errors.isEmpty, errors, warnings⟩

/-- The issues of two reports, those of the first one first. -/
def merge (a b : Report) : Report :=
  ofIssues (a.errors ++ b.errors) (a.warnings ++ b.warnings)

def errorCodes (r : Report) : List Text :=
  r.errors.map fun i => Choice.name i.code

def warningCodes (r : Report) : List Text :=
  r.warnings.map fun i => Choice.name i.code

instance : Record Report where
  title := "ValidationResult"
  keys := [Keys.valid, Keys.errors, Keys.warnings]
  extraKeys := .ignored
  readFields source f := Report.mk
    <$> f.defaulted Keys.valid true boolean
    <*> f.defaulted Keys.errors [] (list source (Record.read source))
    <*> f.defaulted Keys.warnings [] (list source (Record.read source))
  write nulls r := Json.record nulls
    [Keys.valid.holds (.bool r.valid),
      Keys.errors.holds (Record.writeAll nulls r.errors),
      Keys.warnings.holds (Record.writeAll nulls r.warnings)]

end Report

end ConversationFlow
