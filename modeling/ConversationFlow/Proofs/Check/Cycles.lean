import ConversationFlow.Proofs.Check.Search
import Mathlib.Algebra.GroupWithZero.Nat

/-!
# What the search finds

The search for cycles comes to its end within the steps that it is given, what it reports are loops,
and without the transitions that close a loop which it reports no cycle is left that can be reached
from the entry. So it reports nothing exactly if there is nothing to report.
-/

namespace ConversationFlow.Executable

open Relation

/-- A transition that closes one of the cycles: it leads from the last but one of its ids to the
last one. -/
def Closes (found : List (List Text)) (a b : Text) : Prop := ∃ cycle ∈ found, [a, b] <:+ cycle

theorem Closes.mono {found more : List (List Text)} (hsub : found ⊆ more) {a b : Text}
    (h : Closes found a b) : Closes more a b := by
  obtain ⟨cycle, hcycle, hsuffix⟩ := h
  exact ⟨cycle, hsub hcycle, hsuffix⟩

/-- The transitions that close none of the cycles. -/
def Flow.Keeps (flow : Flow) (found : List (List Text)) (a b : Text) : Prop :=
  flow.Follows a b ∧ ¬Closes found a b

namespace Search

variable {flow : Flow} {s : Search} {done : List Text}

/-- Every target of a node of the path is one that has not been looked at, one that closed a cycle,
one that was left, or the next node of the path. -/
def FramesSettled (flow : Flow) (found : List (List Text)) (done : List Text) :
    Option Text → List Frame → Prop
  | _, [] => True
  | inner, frame :: outer =>
    (∀ target ∈ flow.targets frame.id, target ∈ frame.pending ∨ Closes found frame.id target ∨
      target ∈ done ∨ inner = some target) ∧
    FramesSettled flow found done (some frame.id) outer

theorem FramesSettled.mono {found more : List (List Text)} {later : List Text}
    (hfound : found ⊆ more) (hdone : done ⊆ later) {inner : Option Text} {frames : List Frame}
    (h : FramesSettled flow found done inner frames) :
    FramesSettled flow more later inner frames := by
  induction frames generalizing inner with
  | nil => trivial
  | cons frame outer ih =>
    refine ⟨fun target htarget => ?_, ih h.2⟩
    rcases h.1 target htarget with hpending | hcloses | hleft | hinner
    · exact .inl hpending
    · exact .inr (.inl (hcloses.mono hfound))
    · exact .inr (.inr (.inl (hdone hleft)))
    · exact .inr (.inr (.inr hinner))

/-- The nodes that were left stand in an order in which every transition that is kept leads on. -/
structure Settled (flow : Flow) (done : List Text) (s : Search) : Prop where
  visited : ∀ id, id ∈ s.visited ↔ id ∈ s.path ∨ id ∈ done
  ordered : IsTopological (flow.Keeps s.found) done
  frames : FramesSettled flow s.found done none s.frames

theorem Settled.search (flow : Flow) : Settled flow [] flow.search where
  visited id := by simp [Flow.search, enter, empty]
  ordered := trivial
  frames := ⟨fun _ htarget => .inl htarget, trivial⟩

section Looking

variable {id target : Text} {pending : List Text} {outer : List Frame}

/-- A target is passed over if it closed a cycle or was left before. -/
theorem Settled.advance (h : Settled flow done s)
    (hframes : s.frames = ⟨id, target :: pending⟩ :: outer)
    (hsettled : Closes s.found id target ∨ target ∈ done) :
    Settled flow done (s.advance id pending outer) where
  visited := h.visited
  ordered := h.ordered
  frames := by
    have hall := h.frames
    rw [hframes] at hall
    refine ⟨fun other hother => ?_, hall.2⟩
    rcases hall.1 other hother with hpending | hrest
    · rcases List.mem_cons.1 hpending with rfl | hlater
      · exact .inr (hsettled.elim .inl fun hleft => .inr (.inl hleft))
      · exact .inl hlater
    · exact .inr hrest

theorem Settled.note (h : Settled flow done s) (cycle : List Text) :
    Settled flow done (s.note cycle) where
  visited := h.visited
  ordered := h.ordered.mono fun _ _ hkeeps =>
    ⟨hkeeps.1, fun hcloses => hkeeps.2 (hcloses.mono (List.subset_append_left _ _))⟩
  frames := h.frames.mono (List.subset_append_left _ _) (List.Subset.refl _)

theorem Settled.enter (h : Settled flow done s)
    (hframes : s.frames = ⟨id, target :: pending⟩ :: outer) :
    Settled flow done ((s.advance id pending outer).enter flow target) where
  visited other := by
    simp only [Search.enter, Search.advance, List.mem_cons, List.mem_append, h.visited,
      List.not_mem_nil, or_false]
    tauto
  ordered := h.ordered
  frames := by
    have hall := h.frames
    rw [hframes] at hall
    refine ⟨fun _ htarget => .inl htarget, fun other hother => ?_, hall.2⟩
    rcases hall.1 other hother with hpending | hcloses | hleft | hinner
    · rcases List.mem_cons.1 hpending with rfl | hlater
      · exact .inr (.inr (.inr rfl))
      · exact .inl hlater
    · exact .inr (.inl hcloses)
    · exact .inr (.inr (.inl hleft))
    · exact absurd hinner (by simp)

end Looking

/-- A node that is left goes in front of all that were left before it. -/
theorem Settled.leave (h : Settled flow done s) (hcoherent : Coherent flow s) {id : Text}
    {outer : List Frame} (hframes : s.frames = ⟨id, []⟩ :: outer) :
    Settled flow (id :: done) (s.leave id outer) := by
  have hall := h.frames
  rw [hframes] at hall
  have hpath : s.path = (outer.map Frame.id).reverse ++ [id] := hcoherent.path_eq_append hframes
  refine ⟨fun other => ?_, ⟨fun target hkeeps => ?_, h.ordered⟩, ?_⟩
  · simp only [Search.leave, h.visited, hpath, List.dropLast_concat, List.mem_append,
      List.mem_cons, List.not_mem_nil, or_false]
    tauto
  · rcases hall.1 target hkeeps.1 with hpending | hcloses | hleft | hinner
    · simp at hpending
    · exact absurd hcloses hkeeps.2
    · exact hleft
    · simp at hinner
  · have houter := hall.2.mono (List.Subset.refl _) (List.subset_cons_self id done)
    -- seen from the next frame, the node that was left is no longer the next one of the path
    cases outer with
    | nil => trivial
    | cons frame outermost =>
      refine ⟨fun target htarget => ?_, houter.2⟩
      rcases houter.1 target htarget with hpending | hcloses | hleft | hinner
      · exact .inl hpending
      · exact .inr (.inl hcloses)
      · exact .inr (.inr (.inl hleft))
      · exact .inr (.inr (.inl (Option.some.inj hinner ▸ List.mem_cons_self ..)))

theorem Settled.step (h : Settled flow done s) (hcoherent : Coherent flow s) :
    ∃ later, Settled flow later (s.step flow) := by
  have hstepped := stepped flow s
  generalize s.step flow = next at hstepped
  cases hstepped with
  | ended hframes => exact ⟨done, h⟩
  | @leave id outer hframes => exact ⟨id :: done, h.leave hcoherent hframes⟩
  | enter hframes hnew => exact ⟨done, h.enter hframes⟩
  | @note id target pending outer position hframes hposition =>
    have hpath := hcoherent.path_eq_append hframes
    have hcloses : [id, target] <:+ s.closed position target := by
      have hlt : position < s.path.length :=
        (List.getElem?_eq_some_iff.1 ((hcoherent.position target position).1 hposition)).1
      rw [hpath, List.length_append, List.length_singleton] at hlt
      refine ⟨(outer.map Frame.id).reverse.drop position, ?_⟩
      rw [closed, hpath, List.drop_append_of_le_length (by omega), List.append_assoc]
      rfl
    have hnoted : Closes (s.note (s.closed position target)).found id target :=
      ⟨_, List.mem_append_right _ (List.mem_singleton_self _), hcloses⟩
    exact ⟨done, (h.note _).advance hframes (.inl hnoted)⟩
  | @pass id target pending outer hframes hvisited hposition =>
    have hleft : target ∈ done :=
      ((h.visited target).1 hvisited).resolve_left (hcoherent.lookup_eq_none_iff.1 hposition)
    exact ⟨done, h.advance hframes (.inr hleft)⟩

theorem Settled.run (h : Settled flow done s) (hcoherent : Coherent flow s) (n : Nat) :
    ∃ later, Settled flow later (s.run flow n) := by
  refine hcoherent.run_induction (motive := fun t => ∃ later, Settled flow later t) ⟨done, h⟩ ?_ n
  rintro t ht ⟨later, hlater⟩
  exact hlater.step ht

theorem mem_visited_step {id : Text} (h : id ∈ s.visited) : id ∈ (s.step flow).visited := by
  have hstepped := stepped flow s
  generalize s.step flow = next at hstepped
  cases hstepped with
  | enter hframes hnew => exact List.mem_cons_of_mem _ h
  | ended hframes | leave hframes | note hframes hposition | pass hframes hvisited hposition =>
    exact h

theorem mem_visited_run {id : Text} (h : id ∈ s.visited) {n : Nat} :
    id ∈ (s.run flow n).visited := by
  induction n generalizing s with
  | zero => exact h
  | succ n ih => exact ih (mem_visited_step h)

/-- The steps that the nodes under some entries are worth: two for each target, once to look at it
and once to leave it, unless the node was visited. -/
def unvisitedWork (visited : List Text) : List (Text × Node) → Nat
  | [] => 0
  | (key, node) :: rest =>
    (if key ∈ visited then 0 else 2 * node.targets.length) + unvisitedWork visited rest

/-- The steps that a search has before it at most. -/
def work (flow : Flow) (s : Search) : Nat :=
  (s.frames.map (2 * ·.pending.length + 1)).sum + unvisitedWork s.visited flow.nodes.entries

theorem unvisitedWork_nil (entries : List (Text × Node)) :
    unvisitedWork [] entries = 2 * ((entries.map Prod.snd).map (·.transitions.length)).sum := by
  induction entries with
  | nil => rfl
  | cons entry rest ih => simp [unvisitedWork, ih, Node.targets, Nat.mul_add]

theorem unvisitedWork_cons_of_notMem {id : Text} {visited : List Text}
    {entries : List (Text × Node)} (hid : id ∉ entries.map Prod.fst) :
    unvisitedWork (id :: visited) entries = unvisitedWork visited entries := by
  induction entries with
  | nil => rfl
  | cons entry rest ih =>
    rw [List.map_cons, List.mem_cons, not_or] at hid
    simp [unvisitedWork, ih hid.2, Ne.symm hid.1]

theorem unvisitedWork_enter {id : Text} {visited : List Text} (hnew : id ∉ visited)
    {entries : List (Text × Node)} (hdistinct : (entries.map Prod.fst).Nodup) :
    unvisitedWork (id :: visited) entries + 2 * ((entries.lookup id).elim [] (·.targets)).length =
      unvisitedWork visited entries := by
  induction entries with
  | nil => rfl
  | cons entry rest ih =>
    obtain ⟨key, node⟩ := entry
    rw [List.map_cons, List.nodup_cons] at hdistinct
    by_cases hkey : key = id
    · subst hkey
      simp [unvisitedWork, hnew, unvisitedWork_cons_of_notMem hdistinct.1, Nat.add_comm]
    · have hrest := ih hdistinct.2
      simp only [unvisitedWork, List.mem_cons, hkey, false_or, List.lookup_cons,
        beq_eq_false_iff_ne.2 (Ne.symm hkey)]
      omega

theorem work_enter {id : Text} (hnew : id ∉ s.visited) :
    (s.enter flow id).work flow = s.work flow + 1 := by
  have h := unvisitedWork_enter hnew flow.nodes.distinct
  simp only [work, enter, Flow.targets, Flow.getNode?, Table.get?, List.map_cons, List.sum_cons]
  omega

theorem work_search (flow : Flow) : flow.search.work flow = 2 * flow.transitionCount + 1 := by
  rw [Flow.search, work_enter (by simp [empty]), work, empty, unvisitedWork_nil]
  simp [Flow.transitionCount, Table.values]

/-- Every step of a search that is not over uses up work. -/
theorem work_step_lt (hframes : s.frames ≠ []) : (s.step flow).work flow < s.work flow := by
  have hstepped := stepped flow s
  generalize s.step flow = next at hstepped
  cases hstepped with
  | ended hnone => exact absurd hnone hframes
  | leave htop => simp [work, Search.leave, htop]
  | @enter id target pending outer htop hnew =>
    have hnew' : target ∉ (s.advance id pending outer).visited := hnew
    rw [work_enter hnew']
    simp only [work, Search.advance, htop, List.map_cons, List.sum_cons, List.length_cons]
    omega
  | note htop hposition =>
    simp only [work, Search.note, Search.advance, htop, List.map_cons, List.sum_cons,
      List.length_cons]
    omega
  | pass htop hvisited hposition =>
    simp only [work, Search.advance, htop, List.map_cons, List.sum_cons, List.length_cons]
    omega

theorem run_of_frames_eq_nil (hframes : s.frames = []) (n : Nat) : s.run flow n = s := by
  induction n with
  | zero => rfl
  | succ n ih => rw [run, step, hframes, ih]

theorem run_add (m n : Nat) : s.run flow (m + n) = (s.run flow m).run flow n := by
  induction m generalizing s with
  | zero => rw [Nat.zero_add, run]
  | succ m ih => rw [Nat.succ_add, run, run, ih]

/-- A search that is over has come to the same end whatever the number of its steps. -/
theorem run_eq_run {m n : Nat} (hm : (s.run flow m).frames = []) (hn : (s.run flow n).frames = []) :
    s.run flow m = s.run flow n := by
  rcases Nat.le_total m n with hle | hle
  · obtain ⟨more, rfl⟩ := Nat.exists_eq_add_of_le hle
    rw [run_add, run_of_frames_eq_nil hm]
  · obtain ⟨more, rfl⟩ := Nat.exists_eq_add_of_le hle
    rw [run_add, run_of_frames_eq_nil hn]

theorem frames_run_eq_nil {n : Nat} (hwork : s.work flow ≤ n) : (s.run flow n).frames = [] := by
  induction n generalizing s with
  | zero =>
    by_contra hframes
    have hlt : (s.step flow).work flow < s.work flow := work_step_lt hframes
    omega
  | succ n ih =>
    by_cases hframes : s.frames = []
    · rw [run_of_frames_eq_nil hframes, hframes]
    · have hlt : (s.step flow).work flow < s.work flow := work_step_lt hframes
      exact ih (by omega)

end Search

namespace Flow

variable {flow : Flow}

theorem frames_searched (flow : Flow) : flow.searched.frames = [] :=
  Search.frames_run_eq_nil (Search.work_search flow).le

theorem coherent_searched (flow : Flow) : Search.Coherent flow flow.searched :=
  (Search.Coherent.search flow).run _

theorem path_searched (flow : Flow) : flow.searched.path = [] := by
  rw [(coherent_searched flow).path_eq, frames_searched]
  rfl

theorem entry_mem_visited_searched (flow : Flow) : flow.entryNodeId ∈ flow.searched.visited :=
  Search.mem_visited_run (List.mem_cons_self ..)

theorem isLoop_of_mem_cycles {cycle : List Text} (h : cycle ∈ flow.cycles) : flow.IsLoop cycle :=
  (coherent_searched flow).found cycle h

/-- Without the transitions that close the reported cycles, no cycle can be reached. -/
theorem acyclicFrom_keeps_cycles (flow : Flow) :
    AcyclicFrom (flow.Keeps flow.cycles) flow.entryNodeId := by
  obtain ⟨done, hsettled⟩ : ∃ done, Search.Settled flow done flow.searched :=
    (Search.Settled.search flow).run (.search flow) _
  have hentry : flow.entryNodeId ∈ done := by
    have hvisited := entry_mem_visited_searched flow
    rw [hsettled.visited, path_searched] at hvisited
    exact hvisited.resolve_left (by simp)
  exact hsettled.ordered.acyclicFrom hentry

theorem cycles_eq_nil_iff : flow.cycles = [] ↔ AcyclicFrom flow.Follows flow.entryNodeId := by
  constructor
  · intro hnone
    have h := acyclicFrom_keeps_cycles flow
    have hkeeps : flow.Keeps flow.cycles = flow.Follows := by
      funext a b
      simp [Keeps, Closes, hnone]
    rwa [hkeeps] at h
  · intro hacyclic
    rw [List.eq_nil_iff_forall_not_mem]
    exact fun cycle hcycle => not_acyclicFrom_of_isLoop (isLoop_of_mem_cycles hcycle) hacyclic

end Flow

end ConversationFlow.Executable
