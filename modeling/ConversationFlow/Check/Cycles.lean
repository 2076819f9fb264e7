import ConversationFlow.Executable.Flow

/-!
# Cycles

A depth-first search from the entry of a flow, which finds the transitions that lead back onto the
path that it stands on. The search is a machine: a stack of frames, one for each node of the path,
each with the targets that have not been looked at. A step looks at one target or leaves a node.
-/

namespace ConversationFlow.Executable

-- Sums of natural numbers are the built-in ones, whatever else is in scope.
attribute [local instance(high)] Zero.ofOfNat0

/-- A node of the path, and the targets of its transitions that have not been looked at. -/
structure Frame where
  id : Text
  pending : List Text
deriving DecidableEq, Repr

/-- A search in progress. The innermost frame comes first, the path starts at the entry, and every
id on the path has its position there. -/
structure Search where
  frames : List Frame
  path : List Text
  positions : List (Text × Nat)
  visited : List Text
  found : List (List Text)
deriving DecidableEq, Repr

namespace Search

def empty : Search := ⟨[], [], [], [], []⟩

def enter (flow : Flow) (id : Text) (s : Search) : Search :=
  { s with
    frames := ⟨id, flow.targets id⟩ :: s.frames
    path := s.path ++ [id]
    positions := (id, s.path.length) :: s.positions
    visited := id :: s.visited }

def leave (id : Text) (rest : List Frame) (s : Search) : Search :=
  { s with
    frames := rest
    path := s.path.dropLast
    positions := s.positions.filter (·.1 ≠ id) }

/-- The part of the path from a position on, closed by the id that stands there. -/
def closed (s : Search) (position : Nat) (id : Text) : List Text :=
  s.path.drop position ++ [id]

/-- The search looks at a target: it enters a new one, and notes a cycle if the target is on the
path. -/
def look (flow : Flow) (target : Text) (s : Search) : Search :=
  if target ∈ s.visited then
    match s.positions.lookup target with
    | some position => { s with found := s.found ++ [s.closed position target] }
    | none => s
  else s.enter flow target

/-- One step of a search; a search without frames is over. -/
def step (flow : Flow) (s : Search) : Search :=
  match s.frames with
  | [] => s
  | ⟨id, []⟩ :: rest => s.leave id rest
  | ⟨id, target :: pending⟩ :: rest => look flow target { s with frames := ⟨id, pending⟩ :: rest }

def run (flow : Flow) : Nat → Search → Search
  | 0, s => s
  | n + 1, s => run flow n (s.step flow)

end Search

namespace Flow

def transitionCount (flow : Flow) : Nat :=
  (flow.nodes.values.map (·.transitions.length)).sum

def search (flow : Flow) : Search :=
  Search.empty.enter flow flow.entryNodeId

/-- The search for cycles when it is over. Every transition is looked at once at most, and every node
that is left was the entry or was entered through one of them. -/
def searched (flow : Flow) : Search :=
  flow.search.run flow (2 * flow.transitionCount + 1)

/-- The cycles that can be reached from the entry, one for each transition that closes one: the ids
from the target of the transition to its source, and the target again. -/
def cycles (flow : Flow) : List (List Text) :=
  flow.searched.found

end Flow

end ConversationFlow.Executable
