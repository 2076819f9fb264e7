import ConversationFlow.Editor.Graph
import ConversationFlow.Executable.Flow
import ConversationFlow.Text.Lowercase

/-!
# Transitions from edges

The edges that leave a node become its transitions, in the order in which they were drawn. The handle
that an edge starts from may stand for a condition on the result of the node.
-/

namespace ConversationFlow.Compile

open Editor (Edge)
open Executable (Transition)

def lastResultTrue : Text := "\x7b\x7b_lastResult\x7d\x7d == true"

def lastResultFalse : Text := "\x7b\x7b_lastResult\x7d\x7d == false"

def lastStatusSuccess : Text := "\x7b\x7b_lastResult.status\x7d\x7d == \"success\""

def lastStatusError : Text := "\x7b\x7b_lastResult.status\x7d\x7d == \"error\""

/-- The handles that stand for conditions. -/
def conditionTable : List (Text × Text) :=
  [("true", lastResultTrue),
    ("yes", lastResultTrue),
    ("false", lastResultFalse),
    ("no", lastResultFalse),
    ("success", lastStatusSuccess),
    ("error", lastStatusError)]

/-- The condition that a handle stands for; the case of its letters does not count. -/
def conditionOf? (handle : Text) : Option Text :=
  conditionTable.lookup (Text.lower handle)

/-- The transition of the edge that was drawn at a position among those of its node. -/
def transitionOf (position : Nat) (e : Edge) : Transition where
  id := e.id
  target := e.target
  condition := e.sourceHandle.bind conditionOf?
  priority := position
  label := e.label <|> e.sourceHandle

/-- The transitions of a node: its own edges, numbered in order. -/
def transitionsOf (edges : List Edge) (source : Text) : List Transition :=
  (edges.filter (·.source = source)).mapIdx transitionOf

end ConversationFlow.Compile
