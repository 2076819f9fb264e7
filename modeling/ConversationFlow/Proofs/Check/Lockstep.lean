import ConversationFlow.Proofs.Check.Loops
import Mathlib.Logic.Function.Iterate

/-!
# The parts of a search move in step

A search for cycles keeps its path three times: in its frames, as a list, and as the positions on it.
Whatever it does, the three go on saying the same thing, each target leads on from the node before it,
and a node that was visited and is no longer on the path is done with: all its transitions were looked
at, and their targets were visited. So a position always points into the path, and what is taken off
the three when a node is left is that node.

A search can also be told in turns. A turn belongs to the innermost node of the path, which looks at
its targets from where it stopped, up to one that is new. That one is entered; if there is none, the
node is left. A turn is a number of steps.
-/

namespace ConversationFlow.Executable

section Observed

variable {σ α : Type} {step : σ → σ} {see : σ → List α}

/-- What is seen of a number of steps, in turn. -/
def observed (step : σ → σ) (see : σ → List α) : Nat → σ → List α
  | 0, _ => []
  | n + 1, s => see s ++ observed step see n (step s)

/-- What each step keeps true of a state and of what was seen so far, any number of steps keep. -/
theorem observed_induction {motive : List α → σ → Prop}
    (hstep : ∀ seen s, motive seen s → motive (seen ++ see s) (step s)) {seen : List α} {s : σ}
    (h : motive seen s) (n : Nat) : motive (seen ++ observed step see n s) (step^[n] s) := by
  induction n generalizing seen s with
  | zero => rwa [observed, List.append_nil]
  | succ n ih =>
    have hrest := ih (hstep seen s h)
    rwa [List.append_assoc] at hrest

end Observed

/-- The targets of those among some transitions that leave a node, in turn. -/
def targetsFrom (id : Text) (transitions : List (Text × Text)) : List Text :=
  (transitions.filter (·.1 = id)).map (·.2)

section TargetsFrom

variable {id source target : Text} {transitions more : List (Text × Text)}

theorem targetsFrom_append :
    targetsFrom id (transitions ++ more) = targetsFrom id transitions ++ targetsFrom id more := by
  simp only [targetsFrom, List.filter_append, List.map_append]

theorem targetsFrom_map_mk (targets : List Text) :
    targetsFrom id (targets.map (source, ·)) = if source = id then targets else [] := by
  by_cases hsource : source = id <;>
    simp [targetsFrom, List.filter_map, Function.comp_def, hsource]

theorem mem_targetsFrom_iff : target ∈ targetsFrom id transitions ↔ (id, target) ∈ transitions := by
  simp [targetsFrom]

end TargetsFrom

namespace Search

variable {flow : Flow} {s : Search} {looked : List (Text × Text)} {id target : Text}
  {pending : List Text} {outer : List Frame}

/-- The rest of a turn: the node looks at the targets that it has before it. -/
def resume (flow : Flow) (id : Text) (outer : List Frame) : List Text → Search → Search
  | [], s => s.leave id outer
  | target :: pending, s =>
    let next := look flow target (s.advance id pending outer)
    if target ∈ s.visited then resume flow id outer pending next else next

def turn (flow : Flow) (s : Search) : Search :=
  match s.frames with
  | [] => s
  | ⟨id, pending⟩ :: outer => resume flow id outer pending s

theorem look_of_mem_visited (flow : Flow) (h : target ∈ s.visited) :
    (look flow target s).frames = s.frames ∧ (look flow target s).visited = s.visited := by
  rw [look, if_pos h]
  cases s.positions.lookup target <;> exact ⟨rfl, rfl⟩

theorem step_eq_look (hframes : s.frames = ⟨id, target :: pending⟩ :: outer) :
    s.step flow = look flow target (s.advance id pending outer) := by
  rw [step, hframes]
  rfl

theorem exists_run_resume (hframes : s.frames = ⟨id, pending⟩ :: outer) :
    ∃ n, 0 < n ∧ resume flow id outer pending s = s.run flow n := by
  induction pending generalizing s with
  | nil => exact ⟨1, Nat.one_pos, (step_of_exhausted hframes).symm⟩
  | cons target pending ih =>
    rw [resume, ← step_eq_look hframes]
    by_cases hvisited : target ∈ s.visited
    · -- the turn goes on with the same node
      have hnext : (s.step flow).frames = ⟨id, pending⟩ :: outer := by
        rw [step_eq_look hframes]
        exact (look_of_mem_visited flow (s := s.advance id pending outer) hvisited).1
      obtain ⟨n, -, hn⟩ := ih hnext
      exact ⟨n + 1, Nat.succ_pos n, (if_pos hvisited).trans hn⟩
    · exact ⟨1, Nat.one_pos, if_neg hvisited⟩

theorem turn_of_frames_eq_nil (hframes : s.frames = []) : s.turn flow = s := by
  rw [turn, hframes]

theorem exists_run_turn (flow : Flow) (s : Search) : ∃ n, 0 < n ∧ s.turn flow = s.run flow n := by
  match hframes : s.frames with
  | [] =>
    exact ⟨1, Nat.one_pos, by rw [turn_of_frames_eq_nil hframes, run_of_frames_eq_nil hframes]⟩
  | ⟨id, pending⟩ :: outer =>
    rw [turn, hframes]
    exact exists_run_resume hframes

theorem exists_run_turns (flow : Flow) (s : Search) (n : Nat) :
    ∃ steps, n ≤ steps ∧ (turn flow)^[n] s = s.run flow steps := by
  induction n generalizing s with
  | zero => exact ⟨0, Nat.le_refl 0, rfl⟩
  | succ n ih =>
    obtain ⟨first, hpos, hfirst⟩ := exists_run_turn flow s
    obtain ⟨rest, hle, hrest⟩ := ih (s.turn flow)
    exact ⟨first + rest, by omega, by rw [Function.iterate_succ_apply, hrest, hfirst, run_add]⟩

/-- The positions are those of the ids on the path, the last one first. -/
def Aligned (s : Search) : Prop := s.positions = s.path.zipIdx.reverse

theorem Aligned.enter (h : s.Aligned) : (s.enter flow id).Aligned := by
  rw [Aligned] at h ⊢
  simp [Search.enter, h, List.zipIdx_append]

/-- The innermost node is the last one on the path, and its position is the first of all. When it is
left, it is what goes from both. -/
theorem Aligned.split (h : s.Aligned) (hcoherent : Coherent flow s)
    (hframes : s.frames = ⟨id, pending⟩ :: outer) :
    s.path = (s.leave id outer).path ++ [id] ∧
    s.positions = (id, outer.length) :: (s.leave id outer).positions ∧
    (s.leave id outer).Aligned := by
  have hpath : s.path = s.path.dropLast ++ [id] := by
    rw [hcoherent.path_eq_append hframes, List.dropLast_concat]
  have hlength : s.path.dropLast.length = outer.length := by
    rw [hcoherent.path_eq_append hframes, List.dropLast_concat, List.length_reverse,
      List.length_map]
  have hnot : id ∉ s.path.dropLast := hcoherent.notMem_dropLast hframes
  have hpositions : s.positions = (id, outer.length) :: s.path.dropLast.zipIdx.reverse := by
    have hall : s.positions = s.path.zipIdx.reverse := h
    rw [hpath, List.zipIdx_append, List.reverse_append] at hall
    simpa [hlength] using hall
  have hothers : (s.leave id outer).positions = s.path.dropLast.zipIdx.reverse := by
    rw [Search.leave, hpositions, List.filter_cons_of_neg (by simp)]
    refine List.filter_eq_self.2 fun entry hentry => ?_
    have hmem : entry.1 ∈ s.path.dropLast :=
      List.fst_mem_of_mem_zipIdx (List.mem_reverse.1 hentry)
    exact decide_eq_true fun heq => hnot (heq ▸ hmem)
  exact ⟨hpath, by rw [hpositions, hothers], hothers⟩

theorem Aligned.step (h : s.Aligned) (hcoherent : Coherent flow s) : (s.step flow).Aligned := by
  have hstepped := stepped flow s
  generalize s.step flow = next at hstepped
  cases hstepped with
  | leave hframes => exact (h.split hcoherent hframes).2.2
  | @enter id target pending outer hframes hnew =>
    have hadvanced : (s.advance id pending outer).Aligned := h
    exact hadvanced.enter
  | ended | note | pass => exact h

theorem aligned_run (flow : Flow) (steps : Nat) : (flow.search.run flow steps).Aligned := by
  have hempty : empty.Aligned := rfl
  exact (Coherent.search flow).run_induction hempty.enter (fun _ ht h => h.step ht) steps

/-- The transition that the next step looks at, if it looks at one. -/
def looksAt (s : Search) : List (Text × Text) :=
  match s.frames with
  | ⟨id, target :: _⟩ :: _ => [(id, target)]
  | _ => []

/-- The transitions that a number of steps look at, in turn. -/
def looks (flow : Flow) (n : Nat) (s : Search) : List (Text × Text) :=
  observed (step flow) looksAt n s

/-- The targets that the frames of a node have still before them. -/
def pendingAt (id : Text) (frames : List Frame) : List Text :=
  (frames.filter (·.id = id)).flatMap Frame.pending

theorem pendingAt_cons (frame : Frame) :
    pendingAt id (frame :: outer) =
      (if frame.id = id then frame.pending else []) ++ pendingAt id outer := by
  by_cases hid : frame.id = id <;> simp [pendingAt, hid]

theorem pendingAt_eq_nil {frames : List Frame} (h : id ∉ frames.map Frame.id) :
    pendingAt id frames = [] := by
  have hnone : frames.filter (·.id = id) = [] := by
    refine List.filter_eq_nil_iff.2 fun frame hframe => ?_
    rw [decide_eq_true_eq]
    rintro rfl
    exact h (List.mem_map_of_mem hframe)
  rw [pendingAt, hnone, List.flatMap_nil]

/-- What was looked at of a node that was visited, and what its frame has still before it, are the
transitions of the node. Nothing was looked at of any other node. -/
def Consumes (flow : Flow) (looked : List (Text × Text)) (s : Search) : Prop :=
  ∀ id, targetsFrom id looked ++ pendingAt id s.frames =
    if id ∈ s.visited then flow.targets id else []

theorem Consumes.advance (h : Consumes flow looked s)
    (hframes : s.frames = ⟨id, target :: pending⟩ :: outer) :
    Consumes flow (looked ++ [(id, target)]) (s.advance id pending outer) := by
  intro other
  have hlook : targetsFrom other [(id, target)] = if id = other then [target] else [] :=
    targetsFrom_map_mk [target]
  have hother := h other
  rw [hframes, pendingAt_cons] at hother
  refine Eq.trans ?_ hother
  rw [targetsFrom_append, hlook, Search.advance, pendingAt_cons]
  by_cases hid : id = other <;> simp [hid]

theorem Consumes.enter (h : Consumes flow looked s) (hnew : target ∉ s.visited) :
    Consumes flow looked (s.enter flow target) := by
  intro other
  have hother := h other
  rw [Search.enter, pendingAt_cons]
  by_cases htarget : target = other
  · -- nothing of the new node was looked at before, so all its targets are pending
    subst htarget
    rw [if_neg hnew, List.append_eq_nil_iff] at hother
    simp [hother]
  · rw [if_neg htarget, List.nil_append, hother]
    simp [Ne.symm htarget]

theorem Consumes.leave (h : Consumes flow looked s) (hframes : s.frames = ⟨id, []⟩ :: outer) :
    Consumes flow looked (s.leave id outer) := by
  intro other
  have hother := h other
  rw [hframes, pendingAt_cons, ite_self, List.nil_append] at hother
  exact hother

/-- A search has looked at some transitions: it consumed them, and what they lead to was visited. -/
structure Recorded (flow : Flow) (looked : List (Text × Text)) (s : Search) : Prop where
  consumes : Consumes flow looked s
  visited : ∀ transition ∈ looked, transition.2 ∈ s.visited

theorem Recorded.search (flow : Flow) : Recorded flow [] flow.search where
  consumes := by
    have hempty : Consumes flow [] empty := fun id => by simp [targetsFrom, pendingAt, empty]
    exact hempty.enter (by simp [empty])
  visited := by simp

theorem Recorded.look (h : Recorded flow looked s)
    (hframes : s.frames = ⟨id, target :: pending⟩ :: outer) (hvisited : target ∈ s.visited) :
    Recorded flow (looked ++ [(id, target)]) (s.advance id pending outer) where
  consumes := h.consumes.advance hframes
  visited transition htransition := by
    rcases List.mem_append.1 htransition with hbefore | hnow
    · exact h.visited transition hbefore
    · rwa [List.mem_singleton.1 hnow]

theorem Recorded.enter (h : Recorded flow looked s)
    (hframes : s.frames = ⟨id, target :: pending⟩ :: outer) (hnew : target ∉ s.visited) :
    Recorded flow (looked ++ [(id, target)]) ((s.advance id pending outer).enter flow target) where
  consumes := (h.consumes.advance hframes).enter hnew
  visited transition htransition := by
    rcases List.mem_append.1 htransition with hbefore | hnow
    · exact List.mem_cons_of_mem _ (h.visited transition hbefore)
    · rw [List.mem_singleton.1 hnow]
      exact List.mem_cons_self

theorem Recorded.step (h : Recorded flow looked s) (hcoherent : Coherent flow s) :
    Recorded flow (looked ++ s.looksAt) (s.step flow) := by
  have hstepped := stepped flow s
  generalize s.step flow = next at hstepped
  cases hstepped with
  | ended hframes => simpa [looksAt, hframes] using h
  | leave hframes =>
    have hnothing : s.looksAt = [] := by rw [looksAt, hframes]
    rw [hnothing, List.append_nil]
    exact ⟨h.consumes.leave hframes, h.visited⟩
  | enter hframes hnew =>
    rw [looksAt, hframes]
    exact h.enter hframes hnew
  | @note id target pending outer position hframes hposition =>
    -- what is on the path was visited, and a cycle that is noted changes nothing else
    have hpath : target ∈ s.path :=
      List.mem_of_getElem? ((hcoherent.position target position).1 hposition)
    have hadvanced := h.look hframes (hcoherent.visited target hpath)
    rw [looksAt, hframes]
    exact ⟨hadvanced.consumes, hadvanced.visited⟩
  | pass hframes hvisited =>
    rw [looksAt, hframes]
    exact h.look hframes hvisited

theorem run_eq_iterate (n : Nat) : s.run flow n = (step flow)^[n] s := by
  induction n generalizing s with
  | zero => rfl
  | succ n ih => rw [run, ih, Function.iterate_succ_apply]

theorem recorded_run (flow : Flow) (steps : Nat) :
    Recorded flow (flow.search.looks flow steps) (flow.search.run flow steps) := by
  have hboth : Coherent flow ((step flow)^[steps] flow.search) ∧
      Recorded flow ([] ++ flow.search.looks flow steps) ((step flow)^[steps] flow.search) :=
    observed_induction (motive := fun looked s => Coherent flow s ∧ Recorded flow looked s)
      (fun _ _ h => ⟨h.1.step, h.2.step h.1⟩) ⟨.search flow, .search flow⟩ steps
  rw [run_eq_iterate]
  exact hboth.2

/-- The parts of a search tell the same of what it has done: the path is spelled by the frames and
numbered by the positions, its ids were visited, and each is followed by the next one. All the
transitions of a node that was visited and is not on the path were looked at, in their order, and their
targets were visited. -/
structure InLockstep (flow : Flow) (looked : List (Text × Text)) (s : Search) : Prop where
  path_eq : s.path = (s.frames.map Frame.id).reverse
  nodup : s.path.Nodup
  positions_eq : s.positions = s.path.zipIdx.reverse
  visited : s.path ⊆ s.visited
  goes : s.path.IsChain flow.Follows
  left : ∀ id ∈ s.visited, id ∉ s.path →
    targetsFrom id looked = flow.targets id ∧ flow.targets id ⊆ s.visited

theorem Coherent.inLockstep (h : Coherent flow s) (haligned : s.Aligned)
    (hrecorded : Recorded flow looked s) : InLockstep flow looked s where
  path_eq := h.path_eq
  nodup := h.nodup
  positions_eq := haligned
  visited := h.visited
  goes := h.goes
  left id hvisited hleft := by
    -- the node has no frame, so nothing of it is pending
    have hnothing : pendingAt id s.frames = [] := by
      rw [h.path_eq, List.mem_reverse] at hleft
      exact pendingAt_eq_nil hleft
    have hall := hrecorded.consumes id
    rw [hnothing, List.append_nil, if_pos hvisited] at hall
    refine ⟨hall, fun target htarget => ?_⟩
    rw [← hall, mem_targetsFrom_iff] at htarget
    exact hrecorded.visited _ htarget

theorem inLockstep_run (flow : Flow) (steps : Nat) :
    InLockstep flow (flow.search.looks flow steps) (flow.search.run flow steps) :=
  ((Coherent.search flow).run steps).inLockstep (aligned_run flow steps) (recorded_run flow steps)

/-- Whenever a step of the search begins, and so whenever a turn does, its parts tell the same of what
it has done. The position of an id is within the path, where the id stands, and the cycle that it closes
begins with it. When the innermost node is left, its frame, the last id of the path and its position go
together. -/
theorem inLockstep_turns (flow : Flow) :
    (∀ n, ∃ steps, n ≤ steps ∧ (turn flow)^[n] flow.search = flow.search.run flow steps) ∧
    ∀ steps,
      let s := flow.search.run flow steps
      InLockstep flow (flow.search.looks flow steps) s ∧
      (∀ id position, s.positions.lookup id = some position →
        position < s.path.length ∧ (s.closed position id).head? = some id) ∧
      ∀ id pending outer, s.frames = ⟨id, pending⟩ :: outer →
        s.path = (s.leave id outer).path ++ [id] ∧
        s.positions = (id, outer.length) :: (s.leave id outer).positions := by
  refine ⟨exists_run_turns flow flow.search, fun steps => ⟨inLockstep_run flow steps, ?_, ?_⟩⟩
  · intro id position hposition
    have hcoherent : Coherent flow (flow.search.run flow steps) := (Coherent.search flow).run steps
    obtain ⟨hlt, hget⟩ := List.getElem?_eq_some_iff.1 ((hcoherent.position id position).1 hposition)
    refine ⟨hlt, ?_⟩
    rw [closed, List.drop_eq_getElem_cons hlt, hget, List.cons_append, List.head?_cons]
  · intro id pending outer hframes
    have hcoherent : Coherent flow (flow.search.run flow steps) := (Coherent.search flow).run steps
    obtain ⟨hpath, hpositions, -⟩ := (aligned_run flow steps).split hcoherent hframes
    exact ⟨hpath, hpositions⟩

/-- A search that has left one of two ways to a node that leads back, and stands on the other one. -/
def loopingSearch : Search := Flow.loopingFlow.search.run Flow.loopingFlow 8

theorem inLockstep_turns_loopingFlow :
    (↑"shared" ∈ loopingSearch.visited ∧ ↑"shared" ∉ loopingSearch.path ∧
      targetsFrom "shared" (Flow.loopingFlow.search.looks Flow.loopingFlow 8) =
        ["left", "shared", "left"]) ∧
    (loopingSearch.positions.lookup ("right" : Text) = some 1 ∧ 1 < loopingSearch.path.length) ∧
    loopingSearch.frames = [⟨"right", ["shared", "nowhere"]⟩, ⟨"start", []⟩] ∧
    loopingSearch.path = (loopingSearch.leave "right" [⟨"start", []⟩]).path ++ [("right" : Text)] := by
  obtain ⟨hlockstep, hposition, hleave⟩ := (inLockstep_turns Flow.loopingFlow).2 8
  have hvisited : ↑"shared" ∈ loopingSearch.visited := by decide +kernel
  have hleft : ↑"shared" ∉ loopingSearch.path := by decide +kernel
  have hlookup : loopingSearch.positions.lookup ("right" : Text) = some 1 := by decide +kernel
  have hframes : loopingSearch.frames = [⟨"right", ["shared", "nowhere"]⟩, ⟨"start", []⟩] := by
    decide +kernel
  have htargets : Flow.loopingFlow.targets "shared" = ["left", "shared", "left"] := by
    decide +kernel
  exact ⟨⟨hvisited, hleft, (hlockstep.left _ hvisited hleft).1.trans htargets⟩,
    ⟨hlookup, (hposition _ _ hlookup).1⟩, hframes, (hleave _ _ _ hframes).1⟩

end Search

end ConversationFlow.Executable
