import ConversationFlow.Proofs.Check.Walk

/-!
# The search for cycles

The depth-first search over a flow keeps two invariants. A search is coherent if its frames, its path
and the positions on it say the same thing, and if what it found are loops. A search is settled if
what it has left behind stands in an order in which every transition leads on, save for those that
closed a loop. The first gives that every loop that is reported exists, the second that there is a
report if there is a loop. Every step uses up some of the work that is there in the beginning.
-/

namespace ConversationFlow.Executable

open Relation

namespace Search

variable {flow : Flow} {s : Search}

/-- The search without the target that it looks at next. -/
def advance (id : Text) (pending : List Text) (outer : List Frame) (s : Search) : Search :=
  { s with frames := ⟨id, pending⟩ :: outer }

def note (cycle : List Text) (s : Search) : Search :=
  { s with found := s.found ++ [cycle] }

section Looking

variable {id target : Text} {pending : List Text} {outer : List Frame}

theorem step_of_exhausted (hframes : s.frames = ⟨id, []⟩ :: outer) :
    s.step flow = s.leave id outer := by
  rw [step, hframes]

theorem step_of_notMem_visited (hframes : s.frames = ⟨id, target :: pending⟩ :: outer)
    (hnew : target ∉ s.visited) :
    s.step flow = (s.advance id pending outer).enter flow target := by
  rw [step, hframes]
  exact if_neg hnew

theorem step_of_lookup_eq_some (hframes : s.frames = ⟨id, target :: pending⟩ :: outer)
    (hvisited : target ∈ s.visited) {position : Nat}
    (hposition : s.positions.lookup target = some position) :
    s.step flow = (s.advance id pending outer).note (s.closed position target) := by
  rw [step, hframes]
  simp only [look, hvisited, if_true, hposition]
  rfl

theorem step_of_lookup_eq_none (hframes : s.frames = ⟨id, target :: pending⟩ :: outer)
    (hvisited : target ∈ s.visited) (hposition : s.positions.lookup target = none) :
    s.step flow = s.advance id pending outer := by
  rw [step, hframes]
  simp only [look, hvisited, if_true, hposition]
  rfl

end Looking

/-- What a step does: nothing if the search is over; else it leaves a node of which all targets have
been looked at, enters a target that is new, notes the cycle that a target on the path closes, or
passes over a target that was left before. -/
inductive Stepped (flow : Flow) (s : Search) : Search → Prop
  | ended (hframes : s.frames = []) : Stepped flow s s
  | leave {id : Text} {outer : List Frame} (hframes : s.frames = ⟨id, []⟩ :: outer) :
    Stepped flow s (s.leave id outer)
  | enter {id target : Text} {pending : List Text} {outer : List Frame}
    (hframes : s.frames = ⟨id, target :: pending⟩ :: outer) (hnew : target ∉ s.visited) :
    Stepped flow s ((s.advance id pending outer).enter flow target)
  | note {id target : Text} {pending : List Text} {outer : List Frame} {position : Nat}
    (hframes : s.frames = ⟨id, target :: pending⟩ :: outer)
    (hposition : s.positions.lookup target = some position) :
    Stepped flow s ((s.advance id pending outer).note (s.closed position target))
  | pass {id target : Text} {pending : List Text} {outer : List Frame}
    (hframes : s.frames = ⟨id, target :: pending⟩ :: outer) (hvisited : target ∈ s.visited)
    (hposition : s.positions.lookup target = none) : Stepped flow s (s.advance id pending outer)

theorem stepped (flow : Flow) (s : Search) : Stepped flow s (s.step flow) := by
  match hframes : s.frames with
  | [] =>
    have hended : s.step flow = s := by rw [step, hframes]
    rw [hended]
    exact .ended hframes
  | ⟨id, []⟩ :: outer =>
    rw [step_of_exhausted hframes]
    exact .leave hframes
  | ⟨id, target :: pending⟩ :: outer =>
    by_cases hvisited : target ∈ s.visited
    · cases hposition : s.positions.lookup target with
      | none =>
        rw [step_of_lookup_eq_none hframes hvisited hposition]
        exact .pass hframes hvisited hposition
      | some position =>
        rw [step_of_lookup_eq_some hframes hvisited hposition]
        exact .note hframes hposition
    · rw [step_of_notMem_visited hframes hvisited]
      exact .enter hframes hvisited

/-! ### What is on the path -/

/-- The parts of a search say the same thing: the path is spelled by the frames, every id on it has
its position, it is a walk from the entry, and what was found are loops. -/
structure Coherent (flow : Flow) (s : Search) : Prop where
  path_eq : s.path = (s.frames.map Frame.id).reverse
  nodup : s.path.Nodup
  position : ∀ id n, s.positions.lookup id = some n ↔ s.path[n]? = some id
  visited : ∀ id ∈ s.path, id ∈ s.visited
  goes : s.path.IsChain flow.Follows
  reached : ∀ id ∈ s.path, ReflTransGen flow.Follows flow.entryNodeId id
  pending : ∀ frame ∈ s.frames, frame.pending ⊆ flow.targets frame.id
  found : ∀ cycle ∈ s.found, flow.IsLoop cycle

theorem getElem?_concat_eq_some_iff {ids : List Text} {last id : Text} {n : Nat} :
    (ids ++ [last])[n]? = some id ↔ ids[n]? = some id ∨ n = ids.length ∧ last = id := by
  by_cases hlt : n < ids.length
  · rw [List.getElem?_append_left hlt]
    have hne : n ≠ ids.length := by omega
    simp [hne]
  · rw [List.getElem?_append_right (by omega), List.getElem?_eq_none (l := ids) (by omega),
      List.getElem?_singleton]
    by_cases heq : n = ids.length
    · simp [heq]
    · have hne : n - ids.length ≠ 0 := by omega
      simp [hne, heq]

/-- The innermost frame stands at the end of the path. -/
theorem Coherent.path_eq_append (h : Coherent flow s) {frame : Frame} {outer : List Frame}
    (hframes : s.frames = frame :: outer) :
    s.path = (outer.map Frame.id).reverse ++ [frame.id] := by
  rw [h.path_eq, hframes, List.map_cons, List.reverse_cons]

theorem Coherent.notMem_dropLast (h : Coherent flow s) {frame : Frame} {outer : List Frame}
    (hframes : s.frames = frame :: outer) : frame.id ∉ s.path.dropLast := by
  have hnodup := h.nodup
  rw [h.path_eq_append hframes, List.nodup_append] at hnodup
  rw [h.path_eq_append hframes, List.dropLast_concat]
  exact fun hmem => hnodup.2.2 frame.id hmem frame.id (List.mem_singleton_self _) rfl

theorem Coherent.lookup_eq_none_iff (h : Coherent flow s) {id : Text} :
    s.positions.lookup id = none ↔ id ∉ s.path := by
  rw [Option.eq_none_iff_forall_ne_some, List.mem_iff_getElem?, not_exists]
  exact forall_congr' fun n => not_congr (h.position id n)

section Looking

variable {id target : Text} {pending : List Text} {outer : List Frame}

theorem Coherent.advance (h : Coherent flow s)
    (hframes : s.frames = ⟨id, target :: pending⟩ :: outer) :
    Coherent flow (s.advance id pending outer) where
  path_eq := h.path_eq_append hframes |>.trans (by simp [Search.advance])
  nodup := h.nodup
  position := h.position
  visited := h.visited
  goes := h.goes
  reached := h.reached
  pending frame hframe := by
    rcases List.mem_cons.1 hframe with rfl | houter
    · have hall := h.pending ⟨id, target :: pending⟩ (by simp [hframes])
      exact fun t ht => hall (List.mem_cons_of_mem _ ht)
    · exact h.pending frame (by simp [hframes, houter])
  found := h.found

theorem Coherent.follows (h : Coherent flow s)
    (hframes : s.frames = ⟨id, target :: pending⟩ :: outer) : flow.Follows id target :=
  h.pending ⟨id, target :: pending⟩ (by simp [hframes]) (List.mem_cons_self ..)

theorem Coherent.enter (h : Coherent flow s) (hnew : target ∉ s.visited)
    (hlast : ∀ id ∈ s.path.getLast?, flow.Follows id target)
    (hreached : ReflTransGen flow.Follows flow.entryNodeId target) :
    Coherent flow (s.enter flow target) where
  path_eq := by simp [Search.enter, h.path_eq]
  nodup := by
    have hpath : target ∉ s.path := fun hmem => hnew (h.visited target hmem)
    refine List.nodup_append.2 ⟨h.nodup, by simp, fun a ha b hb => ?_⟩
    rintro rfl
    exact hpath (List.mem_singleton.1 hb ▸ ha)
  position other n := by
    have hpath : target ∉ s.path := fun hmem => hnew (h.visited target hmem)
    rw [Search.enter, getElem?_concat_eq_some_iff]
    by_cases hother : other = target
    · subst hother
      have hnone : s.path[n]? ≠ some other := fun e => hpath (List.mem_of_getElem? e)
      simp [hnone, eq_comm]
    · simp [List.lookup_cons, beq_eq_false_iff_ne.2 hother, h.position, Ne.symm hother]
  visited other hmem := by
    rcases List.mem_append.1 hmem with hpath | htarget
    · exact List.mem_cons_of_mem _ (h.visited other hpath)
    · exact List.mem_singleton.1 htarget ▸ List.mem_cons_self ..
  goes := by
    refine h.goes.append (List.isChain_singleton _) fun id hid other hother => ?_
    obtain rfl : target = other := by simpa using hother
    exact hlast id hid
  reached other hmem := by
    rcases List.mem_append.1 hmem with hpath | htarget
    · exact h.reached other hpath
    · exact List.mem_singleton.1 htarget ▸ hreached
  pending frame hframe := by
    rcases List.mem_cons.1 hframe with rfl | hold
    · exact List.Subset.refl _
    · exact h.pending frame hold
  found := h.found

/-- A target on the path closes a loop: the path from the target on, and the target again. -/
theorem Coherent.isLoop_closed (h : Coherent flow s)
    (hframes : s.frames = ⟨id, target :: pending⟩ :: outer) {position : Nat}
    (hposition : s.positions.lookup target = some position) :
    flow.IsLoop (s.closed position target) := by
  have htarget : s.path[position]? = some target := (h.position target position).1 hposition
  obtain ⟨hlt, hget⟩ := List.getElem?_eq_some_iff.1 htarget
  have hdrop : s.path.drop position = target :: s.path.drop (position + 1) := by
    rw [List.drop_eq_getElem_cons hlt, hget]
  have hlast : (s.path.drop position).getLast? = some id := by
    rw [List.getLast?_drop, if_neg (by omega), h.path_eq_append hframes, List.getLast?_concat]
  refine ⟨by simp [closed, hdrop], ?_, ?_, ?_, ?_⟩
  · rw [closed, List.getLast?_concat, hdrop, List.cons_append, List.head?_cons]
  · rw [closed, List.dropLast_concat]
    exact h.nodup.sublist (List.drop_sublist ..)
  · refine (h.goes.drop position).append (List.isChain_singleton _) fun a ha b hb => ?_
    obtain rfl : target = b := by simpa using hb
    obtain rfl : id = a := by simpa [hlast] using ha
    exact h.follows hframes
  · intro a ha
    rcases List.mem_append.1 ha with hpath | hclosing
    · exact h.reached a (List.mem_of_mem_drop hpath)
    · exact h.reached a (List.mem_singleton.1 hclosing ▸ List.mem_of_getElem? htarget)

theorem Coherent.note (h : Coherent flow s) {cycle : List Text} (hloop : flow.IsLoop cycle) :
    Coherent flow (s.note cycle) where
  path_eq := h.path_eq
  nodup := h.nodup
  position := h.position
  visited := h.visited
  goes := h.goes
  reached := h.reached
  pending := h.pending
  found other hother := by
    rcases List.mem_append.1 hother with hold | hnew
    · exact h.found other hold
    · exact List.mem_singleton.1 hnew ▸ hloop

end Looking

theorem lookup_filter_ne (id other : Text) (positions : List (Text × Nat)) :
    (positions.filter (·.1 ≠ id)).lookup other =
      if other = id then none else positions.lookup other := by
  induction positions with
  | nil => simp
  | cons entry rest ih =>
    obtain ⟨key, n⟩ := entry
    by_cases hkey : key = id
    · subst hkey
      by_cases hother : other = key
      · simpa [hother] using ih
      · simpa [List.lookup_cons, beq_eq_false_iff_ne.2 hother, hother] using ih
    · by_cases hother : other = key
      · subst hother
        simp [hkey]
      · simpa [List.lookup_cons, beq_eq_false_iff_ne.2 hother, hkey] using ih

theorem Coherent.leave (h : Coherent flow s) {id : Text} {outer : List Frame}
    (hframes : s.frames = ⟨id, []⟩ :: outer) : Coherent flow (s.leave id outer) := by
  have hpath : s.path = (outer.map Frame.id).reverse ++ [id] := h.path_eq_append hframes
  have hdropLast : s.path.dropLast = (outer.map Frame.id).reverse := by
    rw [hpath, List.dropLast_concat]
  have hnot : id ∉ s.path.dropLast := h.notMem_dropLast hframes
  have hsub : s.path.dropLast ⊆ s.path := (List.dropLast_sublist _).subset
  exact
    { path_eq := hdropLast
      nodup := h.nodup.sublist (List.dropLast_sublist _)
      position := fun other n => by
        rw [Search.leave, lookup_filter_ne]
        by_cases hother : other = id
        · subst hother
          have hnone : s.path.dropLast[n]? ≠ some other := fun e => hnot (List.mem_of_getElem? e)
          simp [hnone]
        · rw [if_neg hother, h.position, hpath, getElem?_concat_eq_some_iff, List.dropLast_concat]
          simp [Ne.symm hother]
      visited := fun other hmem => h.visited other (hsub hmem)
      goes := h.goes.dropLast
      reached := fun other hmem => h.reached other (hsub hmem)
      pending := fun frame hmem => h.pending frame (hframes ▸ List.mem_cons_of_mem _ hmem)
      found := h.found }

theorem Coherent.search (flow : Flow) : Coherent flow flow.search := by
  have hempty : Coherent flow empty := by constructor <;> simp [empty]
  exact hempty.enter (by simp [empty]) (by simp [empty]) .refl

theorem Coherent.step (h : Coherent flow s) : Coherent flow (s.step flow) := by
  have hstepped := stepped flow s
  generalize s.step flow = next at hstepped
  cases hstepped with
  | ended hframes => exact h
  | leave hframes => exact h.leave hframes
  | @enter id target pending outer hframes hnew =>
    have hpath := h.path_eq_append hframes
    refine (h.advance hframes).enter hnew ?_ ?_
    · intro last hlast
      obtain rfl : id = last := by simpa [Search.advance, hpath] using hlast
      exact h.follows hframes
    · exact (h.reached id (by simp [hpath])).tail (h.follows hframes)
  | note hframes hposition =>
    exact (h.advance hframes).note (h.isLoop_closed hframes hposition)
  | pass hframes hvisited hposition => exact h.advance hframes

theorem Coherent.run (h : Coherent flow s) (n : Nat) : Coherent flow (s.run flow n) := by
  induction n generalizing s with
  | zero => exact h
  | succ n ih => exact ih h.step

/-- What every step of a coherent search keeps is kept by any number of steps. -/
theorem Coherent.run_induction {motive : Search → Prop} (h : Coherent flow s) (hs : motive s)
    (hstep : ∀ t, Coherent flow t → motive t → motive (t.step flow)) (n : Nat) :
    motive (s.run flow n) := by
  induction n generalizing s with
  | zero => exact hs
  | succ n ih => exact ih h.step (hstep s h hs)

end Search

end ConversationFlow.Executable
