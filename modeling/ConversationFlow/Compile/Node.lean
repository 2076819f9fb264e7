import ConversationFlow.Compile.Config
import ConversationFlow.Compile.Transitions

/-!
# Nodes from nodes

A node of the editor becomes a node that an engine runs, with its own edges as transitions. A node of
no known kind keeps its type, and its data are passed through as they are.
-/

namespace ConversationFlow.Compile

open Editor (Edge NodeKind)
open Executable (Config)

variable [Host]

/-- How often an engine tries a node again, as far as its configuration says so. -/
def retriesOf : Config → Option Int
  | .api c => some c.retries
  | _ => none

/-- The compiled form of a node with a type and a configuration. -/
def assemble (edges : List Edge) (n : Editor.Node) (type : Text) (config : Config) :
    Executable.Node where
  id := n.id
  type := type
  config := config
  transitions := transitionsOf edges n.id
  errorHandler := none
  timeout := none
  retries := retriesOf config

def compileKind (kind : NodeKind) (edges : List Edge) (n : Editor.Node) :
    NodeJob Executable.Node := do
  let config ← compileConfig n kind
  pure (assemble edges n kind.nodeType.name config)

/-- A node of which the data are passed through. -/
def passThrough (edges : List Edge) (n : Editor.Node) : NodeJob Executable.Node := do
  Job.record (.dataPassedThrough n.type n.id)
  let config ← build (Schema.Record.read .values (.obj n.data.entries))
  pure (assemble edges n n.type (.passthrough config))

/-- A node of any type; only those of the edges that leave it count. -/
def compileNode (edges : List Edge) (n : Editor.Node) : NodeJob Executable.Node :=
  match NodeKind.ofName? n.type with
  | some kind => compileKind kind edges n
  | none => passThrough edges n

end ConversationFlow.Compile
