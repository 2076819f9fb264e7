import ConversationFlow.Proofs.Check.Lockstep
import ConversationFlow.Proofs.Check.Reach

/-!
# The end of the search and of the worklist

The search for cycles and the worklist come to an end on every flow. Both go through their nodes in the
same way: each of them is taken up once, and so is each of its transitions. The search takes a turn to
enter a node and one to leave it, the worklist a step for every id that it has put before itself, so the
number of nodes and transitions that they go through says when they are over.
-/

namespace ConversationFlow.Executable

open Relation

section Rounds

variable {σ : Type} {round : σ → σ} {ended : σ → Prop} {count : σ → ℤ} {s : σ} {m n : Nat}

/-- The rounds of a loop are counted: what is over stays as it is, and any other round adds one. -/
structure CountsRounds (round : σ → σ) (ended : σ → Prop) (count : σ → ℤ) : Prop where
  stays : ∀ s, ended s → round s = s
  counts : ∀ s, ¬ended s → count (round s) = count s + 1

namespace CountsRounds

theorem le_count_iterate (h : CountsRounds round ended count) (n : Nat) (s : σ) :
    count s ≤ count (round^[n] s) := by
  induction n generalizing s with
  | zero => exact Int.le_refl _
  | succ n ih =>
    have hrest : count (round s) ≤ count (round^[n + 1] s) := ih (round s)
    by_cases hover : ended s
    · rwa [h.stays s hover] at hrest
    · have hcount := h.counts s hover
      omega

/-- A loop that comes to an end is over after the rounds that are counted in the end. -/
theorem ended_iterate_iff (h : CountsRounds round ended count) (hover : ended (round^[m] s)) :
    ended (round^[n] s) ↔ count (round^[m] s) ≤ count s + n := by
  induction m generalizing s n with
  | zero =>
    have hfixed : round^[n] s = s := Function.iterate_fixed (h.stays s hover) n
    rw [hfixed]
    exact iff_of_true hover (by rw [Function.iterate_zero_apply]; omega)
  | succ m ih =>
    rw [Function.iterate_succ_apply] at hover ⊢
    by_cases hs : ended s
    · -- the first round changed nothing
      rw [h.stays s hs] at hover ⊢
      exact ih hover
    · have hcount := h.counts s hs
      cases n with
      | zero =>
        have hle := h.le_count_iterate m (round s)
        exact iff_of_false hs (by omega)
      | succ n =>
        rw [Function.iterate_succ_apply, ih hover, hcount]
        omega

/-- What a loop comes to when it is over does not depend on when that is looked at. -/
theorem iterate_eq_of_ended (h : CountsRounds round ended count) (hm : ended (round^[m] s))
    (hn : ended (round^[n] s)) : round^[m] s = round^[n] s := by
  have hstays (k : Nat) (t : σ) (hover : ended t) : round^[k] t = t :=
    Function.iterate_fixed (h.stays t hover) k
  rcases Nat.le_total m n with hle | hle
  · obtain ⟨more, rfl⟩ := Nat.exists_eq_add_of_le' hle
    rw [Function.iterate_add_apply, hstays more _ hm]
  · obtain ⟨more, rfl⟩ := Nat.exists_eq_add_of_le' hle
    rw [Function.iterate_add_apply, hstays more _ hn]

end CountsRounds

end Rounds

/-- What a traversal took up: each of its nodes once, and every transition of each of them once and in
order, but no transition of any other node. -/
structure GoesThrough (flow : Flow) (nodes : List Text) (transitions : List (Text × Text)) :
    Prop where
  nodup : nodes.Nodup
  transitions : ∀ id, targetsFrom id transitions = if id ∈ nodes then flow.targets id else []

namespace Search

variable {flow : Flow} {s : Search} {id : Text} {pending : List Text} {outer : List Frame}

/-- How many turns a search has taken: the nodes that it entered, besides the entry, and those of all
nodes that it left. -/
def turnsTaken (s : Search) : ℤ :=
  (s.visited.length - 1) + (s.visited.length - s.frames.length)

theorem turnsTaken_resume (hframes : s.frames = ⟨id, pending⟩ :: outer) :
    (resume flow id outer pending s).turnsTaken = s.turnsTaken + 1 := by
  induction pending generalizing s with
  | nil =>
    simp only [turnsTaken, resume, Search.leave, hframes, List.length_cons]
    omega
  | cons target pending ih =>
    rw [resume]
    by_cases hvisited : target ∈ s.visited
    · obtain ⟨hsameFrames, hsameVisited⟩ :=
        look_of_mem_visited flow (s := s.advance id pending outer) hvisited
      rw [if_pos hvisited, ih hsameFrames, turnsTaken, hsameFrames, hsameVisited]
      simp only [turnsTaken, Search.advance, hframes, List.length_cons]
    · have hentered : look flow target (s.advance id pending outer) =
          (s.advance id pending outer).enter flow target := if_neg hvisited
      rw [if_neg hvisited, hentered]
      simp only [turnsTaken, Search.enter, Search.advance, hframes, List.length_cons]
      omega

theorem countsRounds_turn (flow : Flow) :
    CountsRounds (turn flow) (·.frames = []) turnsTaken where
  stays _ hframes := turn_of_frames_eq_nil hframes
  counts s hnotOver := by
    match hframes : s.frames with
    | [] => exact absurd hframes hnotOver
    | ⟨id, pending⟩ :: outer =>
      rw [turn, hframes]
      exact turnsTaken_resume hframes

/-- The nodes that a search has visited can be reached, and it visited each of them once. -/
structure VisitsReached (flow : Flow) (s : Search) : Prop where
  nodup : s.visited.Nodup
  reached : ∀ id ∈ s.visited, ReflTransGen flow.Follows flow.entryNodeId id

theorem VisitsReached.step (h : VisitsReached flow s) (hcoherent : Coherent flow s) :
    VisitsReached flow (s.step flow) := by
  have hstepped := stepped flow s
  generalize s.step flow = next at hstepped
  cases hstepped with
  | @enter id target pending outer hframes hnew =>
    have hid : id ∈ s.path := by simp [hcoherent.path_eq_append hframes]
    refine ⟨List.nodup_cons.2 ⟨hnew, h.nodup⟩, fun other hother => ?_⟩
    rcases List.mem_cons.1 hother with rfl | hbefore
    · exact (hcoherent.reached id hid).tail (hcoherent.follows hframes)
    · exact h.reached other hbefore
  | ended | leave | note | pass => exact ⟨h.nodup, h.reached⟩

end Search

namespace Flow

/-- The transitions that the search for cycles looks at until it is over, in turn. -/
def looked (flow : Flow) : List (Text × Text) :=
  flow.search.looks flow (2 * flow.transitionCount + 1)

theorem visitsReached_searched (flow : Flow) : Search.VisitsReached flow flow.searched := by
  have hstart : Search.VisitsReached flow flow.search := by
    refine ⟨List.nodup_singleton _, fun id hid => ?_⟩
    rw [List.mem_singleton.1 hid]
  exact (Search.Coherent.search flow).run_induction hstart (fun _ ht h => h.step ht) _

/-- The search visits just the ids that can be reached from the entry. -/
theorem mem_visited_searched_iff {flow : Flow} {id : Text} :
    id ∈ flow.searched.visited ↔ ReflTransGen flow.Follows flow.entryNodeId id := by
  refine ⟨(visitsReached_searched flow).reached id, fun hreached => ?_⟩
  have hlockstep : Search.InLockstep flow flow.looked flow.searched := Search.inLockstep_run flow _
  induction hreached with
  | refl => exact entry_mem_visited_searched flow
  | @tail before after _ hstep ih =>
    -- the search is over, so a node that was visited is done with
    have hleft : before ∉ flow.searched.path := by simp [path_searched]
    exact (hlockstep.left before ih hleft).2 hstep

theorem goesThrough_searched (flow : Flow) :
    GoesThrough flow flow.searched.visited flow.looked where
  nodup := (visitsReached_searched flow).nodup
  transitions id := by
    have hrecorded : Search.Recorded flow flow.looked flow.searched := Search.recorded_run flow _
    have hnothing : Search.pendingAt id flow.searched.frames = [] := by
      rw [frames_searched]
      rfl
    have hall := hrecorded.consumes id
    rwa [hnothing, List.append_nil] at hall

theorem turnsTaken_searched (flow : Flow) :
    flow.searched.turnsTaken = 2 * flow.searched.visited.length - 1 := by
  rw [Search.turnsTaken, frames_searched, List.length_nil]
  omega

theorem turnsTaken_search (flow : Flow) : flow.search.turnsTaken = 0 := rfl

theorem iterate_turn_eq_searched_iff {flow : Flow} {n : Nat} :
    (Search.turn flow)^[n] flow.search = flow.searched ↔
      ((Search.turn flow)^[n] flow.search).frames = [] := by
  refine ⟨fun h => by rw [h, frames_searched], fun hover => ?_⟩
  obtain ⟨steps, -, hsteps⟩ := Search.exists_run_turns flow flow.search n
  rw [hsteps] at hover ⊢
  exact Search.run_eq_run hover (frames_searched flow)

/-- The search is over when it has entered and left all the nodes that it goes through. -/
theorem frames_iterate_turn_eq_nil_iff {flow : Flow} {n : Nat} :
    ((Search.turn flow)^[n] flow.search).frames = [] ↔
      2 * flow.searched.visited.length ≤ n + 1 := by
  -- a turn is a step at least, so as many turns as the search needs steps are enough
  obtain ⟨steps, hle, hsteps⟩ :=
    Search.exists_run_turns flow flow.search (2 * flow.transitionCount + 1)
  have hover : ((Search.turn flow)^[2 * flow.transitionCount + 1] flow.search).frames = [] := by
    rw [hsteps]
    exact Search.frames_run_eq_nil ((Search.work_search flow).trans_le hle)
  have hiff := (Search.countsRounds_turn flow).ended_iterate_iff (n := n) hover
  rw [iterate_turn_eq_searched_iff.2 hover, turnsTaken_searched, turnsTaken_search] at hiff
  rw [hiff]
  omega

end Flow

namespace Spread

variable {flow : Flow} {s : Spread} {taken : List (Text × Text)}

/-- The transitions that the next step takes up: from the id that it looks at, to what it puts before
the ids that are left. What is put there last comes first. -/
def pushes (flow : Flow) (s : Spread) : List (Text × Text) :=
  match s.pending with
  | [] => []
  | id :: rest =>
    let later := (s.step flow).pending
    ((later.take (later.length - rest.length)).reverse).map (id, ·)

/-- The transitions that a number of steps take up, in turn. -/
def pushed (flow : Flow) (n : Nat) (s : Spread) : List (Text × Text) :=
  observed (step flow) (pushes flow) n s

/-- Every transition of a key that was met was taken up, once and in order, and no other one was. -/
def TakesUp (flow : Flow) (taken : List (Text × Text)) (s : Spread) : Prop :=
  ∀ id, targetsFrom id taken = if id ∈ s.met then flow.targets id else []

theorem TakesUp.step (h : TakesUp flow taken s) :
    TakesUp flow (taken ++ s.pushes flow) (s.step flow) := by
  have hstepped := stepped flow s
  rw [pushes]
  generalize s.step flow = next at hstepped ⊢
  cases hstepped with
  | ended hpending => simpa [hpending] using h
  | pass hpending =>
    intro other
    simpa [hpending] using h other
  | @meet id rest hpending hnew =>
    intro other
    simp only [hpending, List.length_append, Nat.add_sub_cancel, List.take_left, List.reverse_reverse,
      targetsFrom_append, targetsFrom_map_mk, h other]
    by_cases hother : id = other
    · subst hother
      simp [hnew]
    · simp [hother, Ne.symm hother]

theorem run_eq_iterate (n : Nat) : s.run flow n = (step flow)^[n] s := by
  induction n generalizing s with
  | zero => rfl
  | succ n ih => rw [run, ih, Function.iterate_succ_apply]

/-- How many steps a spread has taken: it has looked at the entry and at the targets of what it met,
apart from the ids that it has still before it. -/
def stepsTaken (flow : Flow) (s : Spread) : ℤ :=
  (s.met.flatMap flow.targets).length + 1 - s.pending.length

theorem countsRounds_step (flow : Flow) :
    CountsRounds (step flow) (·.pending = []) (stepsTaken flow) where
  stays s hover := by rw [step, hover]
  counts s hnotOver := by
    have hstepped := stepped flow s
    generalize s.step flow = next at hstepped
    cases hstepped with
    | ended hover => exact absurd hover hnotOver
    | pass hpending =>
      simp only [stepsTaken, hpending, List.length_cons]
      omega
    | meet hpending =>
      simp only [stepsTaken, hpending, List.flatMap_cons, List.length_append, List.length_reverse,
        List.length_cons]
      omega

end Spread

namespace Flow

/-- The transitions that the worklist takes up until it is over, in turn. -/
def pushed (flow : Flow) : List (Text × Text) :=
  (Spread.start flow).pushed flow (flow.transitionCount + 1)

theorem iterate_step_eq_spread (flow : Flow) :
    (Spread.step flow)^[flow.transitionCount + 1] (.start flow) = flow.spread :=
  (Spread.run_eq_iterate _).symm

theorem goesThrough_reachable (flow : Flow) : GoesThrough flow flow.reachable flow.pushed where
  nodup := nodup_reachable flow
  transitions := by
    have hstart : Spread.TakesUp flow [] (.start flow) := fun id => by
      simp [targetsFrom, Spread.start]
    have hend := observed_induction (fun _ _ h => Spread.TakesUp.step h) hstart
      (flow.transitionCount + 1)
    rwa [iterate_step_eq_spread] at hend

theorem stepsTaken_spread (flow : Flow) :
    flow.spread.stepsTaken flow = (flow.reachable.flatMap flow.targets).length + 1 := by
  rw [Spread.stepsTaken, pending_spread, List.length_nil]
  exact Int.sub_zero _

theorem stepsTaken_start (flow : Flow) : (Spread.start flow).stepsTaken flow = 0 := rfl

/-- The worklist is over when it has looked at the entry and at the targets of all the nodes that it
goes through. -/
theorem pending_run_eq_nil_iff {flow : Flow} {n : Nat} :
    ((Spread.start flow).run flow n).pending = [] ↔
      (flow.reachable.flatMap flow.targets).length + 1 ≤ n := by
  have hover : ((Spread.step flow)^[flow.transitionCount + 1] (.start flow)).pending = [] := by
    rw [iterate_step_eq_spread, pending_spread]
  have hiff := (Spread.countsRounds_step flow).ended_iterate_iff (n := n) hover
  rw [iterate_step_eq_spread, stepsTaken_spread, stepsTaken_start, ← Spread.run_eq_iterate] at hiff
  rw [hiff]
  omega

theorem run_eq_spread {flow : Flow} {n : Nat}
    (hover : ((Spread.start flow).run flow n).pending = []) :
    (Spread.start flow).run flow n = flow.spread := by
  have hend : ((Spread.step flow)^[flow.transitionCount + 1] (.start flow)).pending = [] := by
    rw [iterate_step_eq_spread, pending_spread]
  rw [Spread.run_eq_iterate] at hover ⊢
  rw [← iterate_step_eq_spread]
  exact (Spread.countsRounds_step flow).iterate_eq_of_ended hover hend

/-- Both traversals come to an end, on every flow. The search for cycles enters each id that can be
reached once, and looks at each of their transitions once; its turns are over when it has entered and
left all of them. The worklist adds each key that can be reached once, and puts the target of each of
their transitions before itself once; it is over when it has looked at all of these. What was visited and
what was met is listed as it comes, so an id that came twice would stand there twice. -/
theorem traversals_end (flow : Flow) :
    ((∀ n, ((Search.turn flow)^[n] flow.search).frames = [] ↔
        2 * flow.searched.visited.length ≤ n + 1) ∧
      (Search.turn flow)^[2 * flow.searched.visited.length - 1] flow.search = flow.searched ∧
      (∀ id, id ∈ flow.searched.visited ↔ ReflTransGen flow.Follows flow.entryNodeId id) ∧
      GoesThrough flow flow.searched.visited flow.looked) ∧
    (∀ n, ((Spread.start flow).run flow n).pending = [] ↔
        (flow.reachable.flatMap flow.targets).length + 1 ≤ n) ∧
      ((Spread.start flow).run flow ((flow.reachable.flatMap flow.targets).length + 1)).met =
        flow.reachable ∧
      (∀ key, key ∈ flow.reachable ↔ flow.Reaches key) ∧
      GoesThrough flow flow.reachable flow.pushed := by
  refine ⟨⟨fun n => frames_iterate_turn_eq_nil_iff, ?_, fun id => mem_visited_searched_iff,
    goesThrough_searched flow⟩, fun n => pending_run_eq_nil_iff, ?_, fun key => mem_reachable_iff,
    goesThrough_reachable flow⟩
  · rw [iterate_turn_eq_searched_iff, frames_iterate_turn_eq_nil_iff]
    omega
  · rw [run_eq_spread (pending_run_eq_nil_iff.2 (Nat.le_refl _))]
    rfl

/-- Every transition is looked at once, also those that lead to the same node or to none. -/
example : loopingFlow.looked =
    ([("start", "left"), ("left", "shared"), ("shared", "left"), ("shared", "shared"),
      ("shared", "left"), ("start", "right"), ("right", "shared"), ("right", "nowhere")] :
      List (Text × Text)) := by
  decide +kernel

end Flow

end ConversationFlow.Executable
