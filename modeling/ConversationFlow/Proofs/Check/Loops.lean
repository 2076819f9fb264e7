import ConversationFlow.Proofs.Check.Flow

/-!
# Loops that are reported

What the search for cycles reports is real, and it is enough. Every path that is reported goes along
transitions of nodes that can be reached, and comes back to where it began. And if the last transition
of each of these paths is cut, no cycle is left that can be reached from the entry.
-/

namespace ConversationFlow.Executable

open Relation

instance (found : List (List Text)) (a b : Text) : Decidable (Closes found a b) :=
  inferInstanceAs (Decidable (∃ cycle ∈ found, [a, b] <:+ cycle))

/-- A node without those of its transitions that close one of the cycles. It stands under a key, which
need not be its id. -/
def Node.cut (found : List (List Text)) (key : Text) (n : Node) : Node :=
  { n with transitions := n.transitions.filter fun t => ¬Closes found key t.target }

def Flow.cut (found : List (List Text)) (flow : Flow) : Flow :=
  { flow with nodes := flow.nodes.mapKeyed (Node.cut found) }

namespace Flow

variable {flow : Flow} {a b : Text}

/-- Exactly the transitions that close a cycle are cut. -/
theorem follows_cut_iff {found : List (List Text)} :
    (flow.cut found).Follows a b ↔ flow.Keeps found a b := by
  have hnode : (flow.cut found).getNode? a = (flow.getNode? a).map (Node.cut found a) :=
    Table.get?_mapKeyed _ _ _
  rw [Keeps, follows_iff_exists_transition, follows_iff_exists_transition, hnode]
  cases flow.getNode? a with
  | none => simp
  | some n =>
    simp only [Option.map_some, Option.some.injEq, exists_eq_left', Node.cut, List.mem_filter,
      decide_eq_true_eq]
    constructor
    · rintro ⟨t, ⟨ht, hkept⟩, rfl⟩
      exact ⟨⟨t, ht, rfl⟩, hkept⟩
    · rintro ⟨⟨t, ht, rfl⟩, hkept⟩
      exact ⟨t, ⟨ht, hkept⟩, rfl⟩

/-- Once the transitions that close a reported cycle are cut, no cycle can be reached from the entry,
and none is reported. None is reported in the first place exactly if none can be reached. -/
theorem acyclicFrom_cut_cycles (flow : Flow) :
    AcyclicFrom (flow.cut flow.cycles).Follows flow.entryNodeId ∧
    (flow.cut flow.cycles).cycles = [] ∧
    (flow.cycles = [] ↔ AcyclicFrom flow.Follows flow.entryNodeId) := by
  have hfollows : (flow.cut flow.cycles).Follows = flow.Keeps flow.cycles := by
    funext a b
    exact propext follows_cut_iff
  have hacyclic : AcyclicFrom (flow.cut flow.cycles).Follows flow.entryNodeId := by
    rw [hfollows]
    exact acyclicFrom_keeps_cycles flow
  exact ⟨hacyclic, cycles_eq_nil_iff.2 hacyclic, cycles_eq_nil_iff⟩

/-- A node that a conversation can come to, and from there come to again. -/
structure IsRevisited (flow : Flow) (id : Text) : Prop where
  mem_keys : id ∈ flow.nodes.keys
  reached : ReflTransGen flow.Follows flow.entryNodeId id
  returns : TransGen flow.Follows id id

namespace IsLoop

variable {loop : List Text}

/-- A loop leaves every id that it comes to before its end. -/
theorem mem_keys (h : flow.IsLoop loop) {id : Text} (hid : id ∈ loop.dropLast) :
    id ∈ flow.nodes.keys := by
  obtain ⟨before, after, hsplit⟩ := List.append_of_mem hid
  obtain ⟨last, hlast⟩ : ∃ last, loop = before ++ id :: (after ++ [last]) := by
    have hne : loop ≠ [] := List.ne_nil_of_length_pos (Nat.lt_of_lt_of_le (by decide) h.returns)
    refine ⟨loop.getLast hne, ?_⟩
    rw [← List.cons_append, ← List.append_assoc, ← hsplit, List.dropLast_append_getLast]
  have hgoes : (id :: (after ++ [last])).IsChain flow.Follows := by
    have hall := h.goes
    rw [hlast] at hall
    exact hall.right_of_append
  cases after with
  | nil => exact mem_keys_of_follows (List.isChain_cons_cons.1 hgoes).1
  | cons next rest => exact mem_keys_of_follows (List.isChain_cons_cons.1 hgoes).1

theorem exists_isRevisited (h : flow.IsLoop loop) :
    ∃ first, loop.head? = some first ∧ flow.IsRevisited first := by
  obtain ⟨first, hfirst, hreturns⟩ := h.exists_transGen
  obtain ⟨next, hstep, -⟩ := TransGen.head'_iff.1 hreturns
  exact ⟨first, hfirst,
    mem_keys_of_follows hstep, h.reached first (List.mem_of_head? hfirst), hreturns⟩

end IsLoop

/-- Every path that is reported is a way along transitions of nodes, which can be gone from the entry,
which ends where it begins and meets no other node twice. So an issue about a loop names a node that a
conversation really comes back to. -/
theorem loops_of_cycles (flow : Flow) :
    (∀ cycle ∈ flow.cycles,
      2 ≤ cycle.length ∧
      cycle.head? = cycle.getLast? ∧
      cycle.dropLast.Nodup ∧
      (∀ id ∈ cycle.dropLast, id ∈ flow.nodes.keys) ∧
      cycle.IsChain (fun u v =>
        ∃ n, flow.getNode? u = some n ∧ ∃ t ∈ n.transitions, t.target = v) ∧
      ∃ first, cycle.head? = some first ∧ ReflTransGen flow.Follows flow.entryNodeId first) ∧
    ∀ warn, ∀ issue ∈ (flow.check warn).errors, issue.code = .infiniteLoop →
      ∃ id, issue.nodeId = some id ∧ flow.IsRevisited id := by
  constructor
  · intro cycle hcycle
    have hloop := isLoop_of_mem_cycles hcycle
    obtain ⟨first, hfirst, hrevisited⟩ := hloop.exists_isRevisited
    refine ⟨hloop.returns, hloop.closes, hloop.nodup, fun id hid => hloop.mem_keys hid, ?_,
      first, hfirst, hrevisited.reached⟩
    exact hloop.goes.imp fun _ _ hstep => follows_iff_exists_transition.1 hstep
  · intro warn issue hissue hcode
    obtain ⟨cycle, hcycle, rfl⟩ := List.mem_map.1 (mem_map_cycleIssue_iff.2 ⟨hissue, hcode⟩)
    obtain ⟨first, hfirst, hrevisited⟩ := (isLoop_of_mem_cycles hcycle).exists_isRevisited
    refine ⟨first, ?_, hrevisited⟩
    rw [cycleIssue, Issue.about, List.headD_eq_head?_getD, hfirst, Option.getD_some]

def loopingNode (id : Text) (targets : List Text) : Node where
  id := id
  type := "custom"
  config := .passthrough ⟨.empty⟩
  transitions := targets.map fun target => ⟨id, target, none, 0, none⟩
  errorHandler := none
  timeout := none
  retries := none

def loopingMetadata : Metadata where
  name := none
  description := none
  createdAt := ⟨⟨2025, 2, 3, by decide⟩, ⟨4, 5, 6, 0, some 0⟩, by decide⟩
  updatedAt := ⟨⟨2025, 2, 3, by decide⟩, ⟨4, 5, 6, 0, some 0⟩, by decide⟩
  publishedAt := none
  createdBy := "system"
  status := .draft
  tags := []
  inboxId := none

/-- Two ways to a node that leads back to one of them, twice, and to itself; a transition to no node,
and a loop that cannot be reached. -/
def loopingFlow : Flow where
  id := "looping"
  version := 1
  name := "Looping"
  description := none
  metadata := loopingMetadata
  entryNodeId := "start"
  nodes := .ofList
    [("start", loopingNode "start" ["left", "right"]),
      ("left", loopingNode "left" ["shared"]),
      ("right", loopingNode "right" ["shared", "nowhere"]),
      ("shared", loopingNode "shared" ["left", "shared", "left"]),
      ("idle", loopingNode "idle" ["idle"])]
  config := .plain

theorem loops_of_cycles_loopingFlow :
    ((["left", "shared", "left"] : List Text) ∈ loopingFlow.cycles ∧
      ReflTransGen loopingFlow.Follows "start" "left") ∧
    ∃ issue ∈ (loopingFlow.check true).errors, issue.code = .infiniteLoop ∧
      ∃ id, issue.nodeId = some id ∧ loopingFlow.IsRevisited id := by
  have hcycle : (["left", "shared", "left"] : List Text) ∈ loopingFlow.cycles := by decide +kernel
  have hissue : cycleIssue ["left", "shared", "left"] ∈ (loopingFlow.check true).errors := by
    decide +kernel
  obtain ⟨hcycles, hissues⟩ := loops_of_cycles loopingFlow
  obtain ⟨-, -, -, -, -, first, hfirst, hreached⟩ := hcycles _ hcycle
  cases hfirst
  exact ⟨⟨hcycle, hreached⟩, _, hissue, rfl, hissues true _ hissue rfl⟩

/-- Each of the two transitions that lead back to one node is reported. -/
example : loopingFlow.cycles =
    ([["left", "shared", "left"], ["shared", "shared"], ["left", "shared", "left"]] :
      List (List Text)) := by
  decide +kernel

end Flow

end ConversationFlow.Executable
