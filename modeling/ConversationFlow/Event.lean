import ConversationFlow.Report
import ConversationFlow.Text.Quoted

/-!
# Events

What is recorded while flows are compiled, imported and served. An event has a level and a line of
text.
-/

namespace ConversationFlow

inductive Level where
  | debug
  | info
  | warning
deriving DecidableEq, Repr

def Level.name : Level → Text
  | debug => "DEBUG"
  | info => "INFO"
  | warning => "WARNING"

inductive Event where
  | compiling (name : Text) (nodes edges : Nat)
  | drawingRefused (errors : List Issue)
  | dataPassedThrough (type nodeId : Text)
  | nodesRefused (count : Nat)
  | flowRefused (errors : List Issue)
  | warned (name : Text) (issue : Issue)
  | compiled (name id : Text) (nodes : Nat)
  | importRefused (id : Text) (errors : List Issue)
  | requestRefused (method path stage : Text) (count : Nat)
  | unusualEnvironment (name : Text) (usual : List Text)
deriving DecidableEq

namespace Event

/-- How often each code occurs, as a text. -/
def countsText (issues : List Issue) : Text :=
  let counts := (countByCode issues).entries.map fun (name, n) =>
    Text.quoted name ++ ": " ++ toString n
  "\x7b" ++ Text.intercalate ", " counts ++ "\x7d"

def level : Event → Level
  | dataPassedThrough _ _ => .debug
  | compiling _ _ _ | warned _ _ | compiled _ _ _ | requestRefused _ _ _ _ => .info
  | drawingRefused _ | nodesRefused _ | flowRefused _ | importRefused _ _
  | unusualEnvironment _ _ => .warning

/-- The text of an event. The time that a compilation took is not part of the event; `<ms>` stands
for it. -/
def text : Event → Text
  | compiling name nodes edges =>
    "Compiling flow '" ++ name ++ "': " ++ toString nodes ++ " nodes, " ++ toString edges ++ " edges"
  | drawingRefused errors => "Pre-compilation validation failed: " ++ countsText errors
  | dataPassedThrough type nodeId =>
    "No compiler for node type '" ++ type ++ "' (node " ++ nodeId ++ "), passing data through"
  | nodesRefused count => "Node compilation failed for " ++ toString count ++ " node(s)"
  | flowRefused errors => "Post-compilation validation failed: " ++ countsText errors
  | warned name issue => "Flow '" ++ name ++ "': " ++ issue.message
  | compiled name id nodes =>
    "Compiled flow '" ++ name ++ "' (" ++ id ++ "): " ++ toString nodes ++ " nodes in <ms>"
  | importRefused id errors => "Imported flow '" ++ id ++ "' is invalid: " ++ countsText errors
  | requestRefused method path stage count =>
    method ++ " " ++ path ++ " rejected at " ++ stage ++ ": " ++ toString count ++ " issue(s)"
  | unusualEnvironment name usual =>
    "Environment '" ++ name ++ "' not in " ++ Text.quotedList usual

def line (e : Event) : Text :=
  e.level.name ++ " " ++ e.text

end Event

end ConversationFlow
