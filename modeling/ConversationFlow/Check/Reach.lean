import ConversationFlow.Check.Cycles

/-!
# Reach of the entry

The nodes that a conversation can come to: a worklist that starts with the entry and takes up the
targets of every node that it meets for the first time.
-/

namespace ConversationFlow.Executable

/-- The keys that have been met, and the ids to look at next. -/
structure Spread where
  met : List Text
  pending : List Text
deriving DecidableEq, Repr

namespace Spread

/-- One step of a spread: an id that is no key, or was met before, is passed over. -/
def step (flow : Flow) (s : Spread) : Spread :=
  match s.pending with
  | [] => s
  | id :: rest =>
    if id ∈ s.met ∨ ¬flow.nodes.contains id then { s with pending := rest }
    else ⟨id :: s.met, (flow.targets id).reverse ++ rest⟩

def run (flow : Flow) : Nat → Spread → Spread
  | 0, s => s
  | n + 1, s => run flow n (s.step flow)

end Spread

/-- The keys of the nodes that can be reached from the entry. Every id that is looked at is the entry
or the target of a transition, which is taken up once at most. -/
def Flow.reachable (flow : Flow) : List Text :=
  (Spread.run flow (flow.transitionCount + 1) ⟨[], [flow.entryNodeId]⟩).met

end ConversationFlow.Executable
