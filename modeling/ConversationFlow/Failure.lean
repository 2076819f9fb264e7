import ConversationFlow.Host
import ConversationFlow.Report
import ConversationFlow.Schema.Record

/-!
# Failures

How a job on flows may fail. A gate stops a flow with the issues that were found there; everything
else is said of a single value that was handed in.
-/

namespace ConversationFlow

open Schema

/-- A check that a flow has to pass. -/
inductive Gate where
  | drawing
  | nodes
  | flow
  | document
  | importedFlow
deriving DecidableEq, Repr

namespace Gate

def stage : Gate → Text
  | drawing => "pre_compile"
  | nodes => "node_compile"
  | flow => "post_compile"
  | document | importedFlow => "import"

def message : Gate → Text
  | drawing => "Pre-compilation validation failed"
  | nodes => "Node compilation failed"
  | flow => "Post-compilation validation failed"
  | document => "Malformed flow document"
  | importedFlow => "Invalid imported flow"

end Gate

/-- Why a value was refused: what was found wrong with it as a record with a title, a list or an
object where a plain value has to stand, or an obstacle to a conversion. -/
inductive Fault where
  | invalid (title : Text) (findings : List Finding)
  | untagged (container : Container)
  | obstructed (obstacle : Obstacle)
deriving DecidableEq

/-- The typed value of a reading as a record with a title, or why there is none. -/
def Fault.ofReading {α : Type} (title : Text) : Reading α → Except Fault α
  | .accepted a => .ok a
  | .refused findings => .error (.invalid title findings)
  | .untagged container => .error (.untagged container)

def readRecord {α : Type} [Record α] (source : Source) (v : Json) : Except Fault α :=
  Fault.ofReading (Record.title α) (Record.read source v)

/-- How a job on flows ends without a result: at a gate, at a value that was refused, or at a table of
compiled nodes in which no start node is found. -/
inductive Failure where
  | stopped (gate : Gate) (issues : List Issue)
  | startless
  | refused (fault : Fault)
  | metadataKind (metadata : Json)
  | reservedKey (key : Text)
deriving DecidableEq

end ConversationFlow
