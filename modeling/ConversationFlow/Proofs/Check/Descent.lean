import ConversationFlow.Proofs.Check.Cycles
import ConversationFlow.Proofs.Table
import Mathlib.Data.List.Perm.Basic

/-!
# The search as a recursion

The search for cycles is a machine with a stack, one path and a position for every id on it. What it
finds is what the plain recursion finds, which hands each call a path of its own: the same cycles in
the same order. Read off the calls, the cycles are one for each transition that leads from the node
of a call back to a node of its path.
-/

namespace ConversationFlow.Executable

/-- What a recursive search has done: the nodes that it visited, the last one first, the cycles that
it found, and the path of each of its calls. -/
structure Descent where
  visited : List Text
  found : List (List Text)
  calls : List (List Text)

/-- The part of a path from an id on, closed by the id. -/
def closing (path : List Text) (id : Text) : List Text :=
  path.drop (path.idxOf id) ++ [id]

namespace Descent

def empty : Descent := ⟨[], [], []⟩

def enter (path : List Text) (id : Text) (d : Descent) : Descent :=
  { d with visited := id :: d.visited, calls := d.calls ++ [path] }

def note (cycle : List Text) (d : Descent) : Descent :=
  { d with found := d.found ++ [cycle] }

section Unseen

variable {flow : Flow} {d later : Descent} {path : List Text} {id : Text}

def unseen (flow : Flow) (d : Descent) : List Text :=
  flow.nodes.keys.filter (· ∉ d.visited)

theorem mem_unseen_iff : id ∈ d.unseen flow ↔ id ∈ flow.nodes.keys ∧ id ∉ d.visited := by
  simp [unseen]

theorem unseen_sublist_unseen (h : d.visited ⊆ later.visited) :
    (later.unseen flow).Sublist (d.unseen flow) := by
  refine List.monotone_filter_right _ fun id hid => ?_
  simp only [decide_eq_true_eq] at hid ⊢
  exact fun hmem => hid (h hmem)

theorem unseen_enter_sublist_unseen :
    ((d.enter path id).unseen flow).Sublist (d.unseen flow) :=
  unseen_sublist_unseen (List.subset_cons_self ..)

/-- A call for a node takes it off those that were not visited. -/
theorem length_unseen_enter_lt (hid : id ∈ d.unseen flow) :
    ((d.enter path id).unseen flow).length < (d.unseen flow).length := by
  refine Nat.lt_of_le_of_ne unseen_enter_sublist_unseen.length_le fun heq => ?_
  have hsame := unseen_enter_sublist_unseen.eq_of_length heq
  rw [← hsame, mem_unseen_iff] at hid
  exact hid.2 (List.mem_cons_self ..)

end Unseen

end Descent

namespace Flow

variable {flow : Flow} {path pending : List Text} {target : Text} {d : Descent}

theorem targets_eq_nil (h : target ∉ flow.nodes.keys) : flow.targets target = [] := by
  have hnone : flow.getNode? target = none := Table.get?_eq_none_iff.2 h
  rw [targets, hnone]
  rfl

/-- The targets that a call has before it are looked at in turn: the search calls itself for a target
that was not visited, on the path that goes on to the target, and a target on the path closes a
cycle. Visited nodes stay visited, so the calls come to an end. -/
def explore (flow : Flow) (path : List Text) :
    (pending : List Text) → (d : Descent) → { later : Descent // d.visited ⊆ later.visited }
  | [], d => ⟨d, List.Subset.refl _⟩
  | target :: pending, d =>
    if target ∈ d.visited then
      if target ∈ path then
        let later := explore flow path pending (d.note (closing path target))
        ⟨later.1, later.2⟩
      else explore flow path pending d
    else
      let inner := explore flow (path ++ [target]) (flow.targets target)
        (d.enter (path ++ [target]) target)
      let later := explore flow path pending inner.1
      ⟨later.1, fun _ h => later.2 (inner.2 (List.mem_cons_of_mem _ h))⟩
termination_by pending d => ((d.unseen flow).length, pending.length)
decreasing_by
  · exact Prod.Lex.right _ (Nat.lt_succ_self _)
  · exact Prod.Lex.right _ (Nat.lt_succ_self _)
  · next hnew =>
    by_cases hkey : target ∈ flow.nodes.keys
    · have hunseen : target ∈ d.unseen flow := Descent.mem_unseen_iff.2 ⟨hkey, hnew⟩
      exact Prod.Lex.left _ _ (Descent.length_unseen_enter_lt hunseen)
    · rw [targets_eq_nil hkey]
      exact Prod.Lex.right' _ Descent.unseen_enter_sublist_unseen.length_le (Nat.succ_pos _)
  · have hsub : d.visited ⊆ inner.1.visited := fun _ h => inner.2 (List.mem_cons_of_mem _ h)
    exact Prod.Lex.right' _ (Descent.unseen_sublist_unseen hsub).length_le (Nat.lt_succ_self _)

/-- What a call has done when it has looked at all the targets that it has before it. -/
def descend (flow : Flow) (path pending : List Text) (d : Descent) : Descent :=
  (flow.explore path pending d).1

def visit (flow : Flow) (path : List Text) (id : Text) (d : Descent) : Descent :=
  flow.descend path (flow.targets id) (d.enter path id)

/-- The recursive search from the entry. -/
def descent (flow : Flow) : Descent :=
  flow.visit [flow.entryNodeId] flow.entryNodeId .empty

theorem visited_subset_descend : d.visited ⊆ (flow.descend path pending d).visited :=
  (flow.explore path pending d).2

theorem descend_nil : flow.descend path [] d = d := by
  rw [descend, explore]

theorem descend_cons :
    flow.descend path (target :: pending) d =
      if target ∈ d.visited then
        if target ∈ path then flow.descend path pending (d.note (closing path target))
        else flow.descend path pending d
      else flow.descend path pending (flow.visit (path ++ [target]) target d) := by
  by_cases hvisited : target ∈ d.visited
  · by_cases hpath : target ∈ path
    · rw [descend, explore, if_pos hvisited, if_pos hpath, if_pos hvisited, if_pos hpath]
      rfl
    · rw [descend, explore, if_pos hvisited, if_neg hpath, if_pos hvisited, if_neg hpath, descend]
  · rw [descend, explore, if_neg hvisited, if_neg hvisited]
    rfl

/-- The recursion of the search: a property of all calls is one that holds when no target is left,
and that holds of what comes before a target if it holds of what comes after it and, for a target that
was not visited, of the call for the target. -/
theorem descend_induction {motive : List Text → List Text → Descent → Prop}
    (nil : ∀ path d, motive path [] d)
    (note : ∀ path target pending d, target ∈ d.visited → target ∈ path →
      motive path pending (d.note (closing path target)) → motive path (target :: pending) d)
    (pass : ∀ path target pending d, target ∈ d.visited → target ∉ path →
      motive path pending d → motive path (target :: pending) d)
    (enter : ∀ path target pending d, target ∉ d.visited →
      motive (path ++ [target]) (flow.targets target) (d.enter (path ++ [target]) target) →
      motive path pending (flow.visit (path ++ [target]) target d) →
      motive path (target :: pending) d)
    (path pending : List Text) (d : Descent) : motive path pending d := by
  induction path, pending, d using explore.induct flow with
  | case1 path d => exact nil path d
  | case2 path target pending d hvisited hpath ih =>
    exact note path target pending d hvisited hpath ih
  | case3 path target pending d hvisited hpath ih =>
    exact pass path target pending d hvisited hpath ih
  | case4 path target pending d hnew inner ihinner ih =>
    exact enter path target pending d hnew ihinner ih

end Flow

namespace Search

variable {flow : Flow} {s : Search} {frames outer : List Frame} {path pending : List Text}
  {id target : Text} {d : Descent}

/-- The machine has done what the recursion has done, and stands on the path of its call. -/
structure Simulates (s : Search) (frames : List Frame) (path : List Text) (d : Descent) :
    Prop where
  frames : s.frames = frames
  path : s.path = path
  visited : s.visited = d.visited
  found : s.found = d.found

theorem Coherent.eq_idxOf (h : Coherent flow s) {position : Nat}
    (hposition : s.positions.lookup id = some position) : position = s.path.idxOf id := by
  obtain ⟨hlt, hget⟩ := List.getElem?_eq_some_iff.1 ((h.position id position).1 hposition)
  rw [← hget, h.nodup.idxOf_getElem]

namespace Simulates

theorem step_note (h : Simulates s (⟨id, target :: pending⟩ :: outer) path d)
    (hcoherent : Coherent flow s) (hvisited : target ∈ d.visited) (hpath : target ∈ path) :
    Simulates (s.step flow) (⟨id, pending⟩ :: outer) path (d.note (closing path target)) := by
  obtain ⟨position, hposition⟩ : ∃ position, s.positions.lookup target = some position := by
    rw [← Option.ne_none_iff_exists', Ne, hcoherent.lookup_eq_none_iff, not_not, h.path]
    exact hpath
  rw [step_of_lookup_eq_some h.frames (h.visited ▸ hvisited) hposition]
  refine ⟨rfl, h.path, h.visited, ?_⟩
  rw [Search.note, Descent.note, closed, closing, hcoherent.eq_idxOf hposition, ← h.path, ← h.found]
  rfl

theorem step_pass (h : Simulates s (⟨id, target :: pending⟩ :: outer) path d)
    (hcoherent : Coherent flow s) (hvisited : target ∈ d.visited) (hpath : target ∉ path) :
    Simulates (s.step flow) (⟨id, pending⟩ :: outer) path d := by
  have hposition : s.positions.lookup target = none :=
    hcoherent.lookup_eq_none_iff.2 (h.path ▸ hpath)
  rw [step_of_lookup_eq_none h.frames (h.visited ▸ hvisited) hposition]
  exact ⟨rfl, h.path, h.visited, h.found⟩

theorem step_enter (h : Simulates s (⟨id, target :: pending⟩ :: outer) path d)
    (hnew : target ∉ d.visited) :
    Simulates (s.step flow) (⟨target, flow.targets target⟩ :: ⟨id, pending⟩ :: outer)
      (path ++ [target]) (d.enter (path ++ [target]) target) := by
  rw [step_of_notMem_visited h.frames (h.visited ▸ hnew)]
  exact ⟨rfl, congrArg (· ++ [target]) h.path, congrArg (target :: ·) h.visited, h.found⟩

theorem step_leave (h : Simulates s (⟨target, []⟩ :: outer) (path ++ [target]) d) :
    Simulates (s.step flow) outer path d := by
  rw [step_of_exhausted h.frames]
  refine ⟨rfl, ?_, h.visited, h.found⟩
  rw [Search.leave, h.path, List.dropLast_concat]

/-- The machine comes to where the call has looked at all its targets. -/
theorem exists_run (h : Simulates s (⟨id, pending⟩ :: outer) path d) (hcoherent : Coherent flow s) :
    ∃ n, Simulates (s.run flow n) (⟨id, []⟩ :: outer) path (flow.descend path pending d) := by
  induction path, pending, d using flow.descend_induction generalizing s id outer with
  | nil path d =>
    rw [Flow.descend_nil]
    exact ⟨0, h⟩
  | note path target pending d hvisited hpath ih =>
    obtain ⟨n, hn⟩ := ih (h.step_note hcoherent hvisited hpath) hcoherent.step
    rw [Flow.descend_cons, if_pos hvisited, if_pos hpath]
    exact ⟨n + 1, hn⟩
  | pass path target pending d hvisited hpath ih =>
    obtain ⟨n, hn⟩ := ih (h.step_pass hcoherent hvisited hpath) hcoherent.step
    rw [Flow.descend_cons, if_pos hvisited, if_neg hpath]
    exact ⟨n + 1, hn⟩
  | enter path target pending d hnew ihcall ih =>
    obtain ⟨m, hm⟩ := ihcall (h.step_enter hnew) hcoherent.step
    -- the call is over: the machine leaves its node and goes on with the next target
    have hleft : Simulates (s.run flow (m + 2)) (⟨id, pending⟩ :: outer) path
        (flow.visit (path ++ [target]) target d) := by
      have hstep : s.run flow (m + 2) = ((s.step flow).run flow m).step flow := run_add m 1
      rw [hstep]
      exact hm.step_leave
    obtain ⟨n, hn⟩ := ih hleft (hcoherent.run _)
    rw [Flow.descend_cons, if_neg hnew]
    exact ⟨m + 2 + n, by rwa [run_add]⟩

end Simulates

/-- When the search is over, it has visited and found what the recursion visits and finds. -/
theorem simulates_searched (flow : Flow) : Simulates flow.searched [] [] flow.descent := by
  have hstart : Simulates flow.search [⟨flow.entryNodeId, flow.targets flow.entryNodeId⟩]
      [flow.entryNodeId] (Descent.empty.enter [flow.entryNodeId] flow.entryNodeId) :=
    ⟨rfl, rfl, rfl, rfl⟩
  obtain ⟨n, hn⟩ := hstart.exists_run (.search flow)
  have hover : Simulates (flow.search.run flow (n + 1)) [] [] flow.descent := by
    rw [run_add]
    exact hn.step_leave
  have hsame : flow.searched = flow.search.run flow (n + 1) :=
    run_eq_run flow.frames_searched hover.frames
  rwa [hsame]

end Search

namespace Flow

variable {flow : Flow} {path pending : List Text} {target : Text} {d : Descent}

def closingsOf (path targets : List Text) : List (List Text) :=
  (targets.filter (· ∈ path)).map (closing path)

/-- The cycles that the transitions of the last node of a path close on it. -/
def closings (flow : Flow) (path : List Text) : List (List Text) :=
  closingsOf path (path.getLast?.elim [] flow.targets)

theorem closings_concat (flow : Flow) (path : List Text) (target : Text) :
    flow.closings (path ++ [target]) = closingsOf (path ++ [target]) (flow.targets target) := by
  rw [closings, List.getLast?_concat]
  rfl

theorem closingsOf_cons_of_mem (h : target ∈ path) :
    closingsOf path (target :: pending) = closing path target :: closingsOf path pending := by
  rw [closingsOf, List.filter_cons_of_pos (by simpa using h), List.map_cons, closingsOf]

theorem closingsOf_cons_of_notMem (h : target ∉ path) :
    closingsOf path (target :: pending) = closingsOf path pending := by
  rw [closingsOf, List.filter_cons_of_neg (by simpa using h), closingsOf]

/-- What a call finds are the cycles that its targets close on its path and, for each of the calls that
it leads to, the cycles that are closed on the path of that call. -/
theorem exists_calls_descend (flow : Flow) (path pending : List Text) (d : Descent)
    (hpath : path ⊆ d.visited) :
    ∃ calls, (flow.descend path pending d).calls = d.calls ++ calls ∧
      (flow.descend path pending d).found.Perm
        (d.found ++ (closingsOf path pending ++ calls.flatMap flow.closings)) := by
  induction path, pending, d using flow.descend_induction with
  | nil path d =>
    rw [descend_nil]
    exact ⟨[], (List.append_nil _).symm, by simp [closingsOf]⟩
  | note path target pending d hvisited htarget ih =>
    obtain ⟨calls, hcalls, hfound⟩ := ih hpath
    rw [descend_cons, if_pos hvisited, if_pos htarget, closingsOf_cons_of_mem htarget]
    refine ⟨calls, hcalls, ?_⟩
    rwa [Descent.note, List.append_assoc] at hfound
  | pass path target pending d hvisited htarget ih =>
    rw [descend_cons, if_pos hvisited, if_neg htarget, closingsOf_cons_of_notMem htarget]
    exact ih hpath
  | enter path target pending d hnew ihcall ih =>
    have hcallPath : path ++ [target] ⊆ (d.enter (path ++ [target]) target).visited := by
      rw [List.append_subset]
      exact ⟨fun id hid => List.mem_cons_of_mem _ (hpath hid), by simp [Descent.enter]⟩
    have hlaterPath : path ⊆ (flow.visit (path ++ [target]) target d).visited := fun id hid =>
      visited_subset_descend (hcallPath (List.mem_append_left _ hid))
    obtain ⟨inner, hinner, hfoundInner⟩ := ihcall hcallPath
    obtain ⟨later, hlater, hfoundLater⟩ := ih hlaterPath
    have htarget : target ∉ path := fun hmem => hnew (hpath hmem)
    rw [descend_cons, if_neg hnew, closingsOf_cons_of_notMem htarget]
    refine ⟨(path ++ [target]) :: inner ++ later, ?_, ?_⟩
    · rw [hlater, visit, hinner, Descent.enter]
      simp only [List.append_assoc, List.cons_append, List.nil_append]
    · rw [← closings_concat, ← List.flatMap_cons] at hfoundInner
      rw [List.flatMap_append]
      generalize ((path ++ [target]) :: inner).flatMap flow.closings = before at hfoundInner ⊢
      calc (flow.descend path pending (flow.visit (path ++ [target]) target d)).found.Perm
            ((flow.visit (path ++ [target]) target d).found ++
              (closingsOf path pending ++ later.flatMap flow.closings)) := hfoundLater
        List.Perm _ ((d.found ++ before) ++
            (closingsOf path pending ++ later.flatMap flow.closings)) := hfoundInner.append_right _
        List.Perm _ (d.found ++
            (closingsOf path pending ++ (before ++ later.flatMap flow.closings))) := by
          rw [List.append_assoc, ← List.append_assoc before, ← List.append_assoc _ before]
          exact (List.perm_append_comm.append_right _).append_left _

/-- There was one call for each node that was visited, and the path of the call ends with the node. -/
structure OneCallEach (d : Descent) : Prop where
  nodup : d.visited.Nodup
  calls : d.calls.map List.getLast? = d.visited.reverse.map some

theorem OneCallEach.enter (h : OneCallEach d) (hnew : target ∉ d.visited) :
    OneCallEach (d.enter (path ++ [target]) target) where
  nodup := List.nodup_cons.2 ⟨hnew, h.nodup⟩
  calls := by simp [Descent.enter, h.calls]

theorem OneCallEach.descend (h : OneCallEach d) : OneCallEach (flow.descend path pending d) := by
  induction path, pending, d using flow.descend_induction with
  | nil path d => rwa [descend_nil]
  | note path target pending d hvisited htarget ih =>
    rw [descend_cons, if_pos hvisited, if_pos htarget]
    exact ih ⟨h.nodup, h.calls⟩
  | pass path target pending d hvisited htarget ih =>
    rw [descend_cons, if_pos hvisited, if_neg htarget]
    exact ih h
  | enter path target pending d hnew ihcall ih =>
    rw [descend_cons, if_neg hnew]
    exact ih (ihcall (h.enter hnew))

/-- The search for cycles reports what the recursive search finds, in the same order. That is one cycle
for each transition that leads from the node of a call to a node of the path of the call, and no node
has two calls. -/
theorem cycles_eq_found_descent (flow : Flow) :
    flow.cycles = flow.descent.found ∧
    flow.cycles.Perm (flow.descent.calls.flatMap flow.closings) ∧
    (flow.descent.calls.map List.getLast?).Nodup := by
  have heq : flow.cycles = flow.descent.found := (Search.simulates_searched flow).found
  refine ⟨heq, ?_, ?_⟩
  · obtain ⟨calls, hcalls, hfound⟩ := flow.exists_calls_descend [flow.entryNodeId]
      (flow.targets flow.entryNodeId) (.enter [flow.entryNodeId] flow.entryNodeId .empty)
      (List.Subset.refl _)
    have hentry : flow.closings [flow.entryNodeId] =
        closingsOf [flow.entryNodeId] (flow.targets flow.entryNodeId) :=
      flow.closings_concat [] flow.entryNodeId
    rw [heq, descent, visit, hcalls, List.flatMap_append]
    simpa [Descent.enter, Descent.empty, hentry] using hfound
  · have hentry : OneCallEach (.enter [flow.entryNodeId] flow.entryNodeId .empty) :=
      ⟨List.nodup_singleton _, rfl⟩
    have hone : OneCallEach flow.descent := hentry.descend
    rw [hone.calls]
    exact (List.nodup_reverse.2 hone.nodup).map fun _ _ => Option.some.inj

end Flow

end ConversationFlow.Executable
