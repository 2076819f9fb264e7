import ConversationFlow.Check.Reach
import ConversationFlow.Proofs.Check.Flow

/-!
# What can be reached

The worklist that starts with the entry of a flow meets just the keys to which a walk through nodes of
the flow leads. It keeps track of them: what it has met or will look at can be reached, and every id
that follows one that it has met was met, will be looked at, or is no key. When nothing is left to look
at, nothing that can be reached is missing.
-/

namespace ConversationFlow.Executable

open Relation

namespace Spread

variable {flow : Flow} {s : Spread} {id : Text}

/-- What a step does: nothing if the spread is over; else it passes over the next id, or meets the key
that the id is and takes up what follows it. -/
inductive Stepped (flow : Flow) (s : Spread) : Spread → Prop
  | ended (hpending : s.pending = []) : Stepped flow s s
  | pass {id : Text} {rest : List Text} (hpending : s.pending = id :: rest)
    (hpassed : id ∈ s.met ∨ id ∉ flow.nodes.keys) : Stepped flow s ⟨s.met, rest⟩
  | meet {id : Text} {rest : List Text} (hpending : s.pending = id :: rest)
    (hnew : id ∉ s.met) (hkey : id ∈ flow.nodes.keys) :
    Stepped flow s ⟨id :: s.met, (flow.targets id).reverse ++ rest⟩

theorem stepped (flow : Flow) (s : Spread) : Stepped flow s (s.step flow) := by
  rw [step]
  split
  · next hpending => exact .ended hpending
  · next id rest hpending =>
    have hkey : flow.nodes.contains id = true ↔ id ∈ flow.nodes.keys := Table.contains_iff_mem_keys
    split
    · next hpassed => exact .pass hpending (hpassed.imp_right (mt hkey.2))
    · next hnot =>
      rw [not_or, not_not] at hnot
      exact .meet hpending hnot.1 (hkey.1 hnot.2)

/-- An id was met, will be looked at, or is no key. -/
def Accounts (flow : Flow) (s : Spread) (id : Text) : Prop :=
  id ∈ s.met ∨ id ∈ s.pending ∨ id ∉ flow.nodes.keys

theorem Accounts.step (h : s.Accounts flow id) : (s.step flow).Accounts flow id := by
  have hstepped := stepped flow s
  generalize s.step flow = next at hstepped
  cases hstepped with
  | ended => exact h
  | @pass other rest hpending hpassed =>
    rcases h with hmet | hnext | hlost
    · exact .inl hmet
    · rw [hpending, List.mem_cons] at hnext
      rcases hnext with rfl | hrest
      · exact hpassed.imp_right .inr
      · exact .inr (.inl hrest)
    · exact .inr (.inr hlost)
  | @meet other rest hpending =>
    rcases h with hmet | hnext | hlost
    · exact .inl (List.mem_cons_of_mem _ hmet)
    · rw [hpending, List.mem_cons] at hnext
      rcases hnext with rfl | hrest
      · exact .inl List.mem_cons_self
      · exact .inr (.inl (List.mem_append_right _ hrest))
    · exact .inr (.inr hlost)

/-- A spread keeps track of what can be reached: it has met keys only, once each, and what follows
them is accounted for. -/
structure Tracks (flow : Flow) (s : Spread) : Prop where
  nodup : s.met.Nodup
  keys : s.met ⊆ flow.nodes.keys
  reached : ∀ id, id ∈ s.met ∨ id ∈ s.pending → ReflTransGen flow.Follows flow.entryNodeId id
  entry : s.Accounts flow flow.entryNodeId
  closed : ∀ id ∈ s.met, ∀ target ∈ flow.targets id, s.Accounts flow target

/-- The spread that has the entry before it. -/
def start (flow : Flow) : Spread := ⟨[], [flow.entryNodeId]⟩

theorem Tracks.start (flow : Flow) : Tracks flow (start flow) where
  nodup := List.nodup_nil
  keys := List.nil_subset _
  reached id h := by
    obtain rfl : id = flow.entryNodeId := by simpa [Spread.start] using h
    exact .refl
  entry := .inr (.inl (List.mem_singleton_self _))
  closed id h := by cases h

theorem Tracks.step (h : Tracks flow s) : Tracks flow (s.step flow) := by
  have hentry := h.entry.step
  have hclosed : ∀ id ∈ s.met, ∀ target ∈ flow.targets id, (s.step flow).Accounts flow target :=
    fun id hid target htarget => (h.closed id hid target htarget).step
  have hstepped := stepped flow s
  generalize s.step flow = next at hstepped hentry hclosed
  cases hstepped with
  | ended => exact h
  | @pass other rest hpending =>
    refine ⟨h.nodup, h.keys, fun id hid => h.reached id (hid.imp_right fun hrest => ?_), hentry,
      hclosed⟩
    rw [hpending]
    exact List.mem_cons_of_mem _ hrest
  | @meet other rest hpending hnew hkey =>
    have hother : ReflTransGen flow.Follows flow.entryNodeId other := by
      refine h.reached other (.inr ?_)
      rw [hpending]
      exact List.mem_cons_self
    refine ⟨List.nodup_cons.2 ⟨hnew, h.nodup⟩, List.cons_subset.2 ⟨hkey, h.keys⟩, ?_, hentry, ?_⟩
    · rintro id (hmet | hlater)
      · rcases List.mem_cons.1 hmet with rfl | hold
        · exact hother
        · exact h.reached id (.inl hold)
      · rcases List.mem_append.1 hlater with htarget | hrest
        · exact hother.tail (List.mem_reverse.1 htarget)
        · refine h.reached id (.inr ?_)
          rw [hpending]
          exact List.mem_cons_of_mem _ hrest
    · intro id hid target htarget
      rcases List.mem_cons.1 hid with rfl | hold
      · exact .inr (.inl (List.mem_append_left _ (List.mem_reverse.2 htarget)))
      · exact hclosed id hold target htarget

theorem Tracks.run (h : Tracks flow s) (n : Nat) : Tracks flow (s.run flow n) := by
  induction n generalizing s with
  | zero => exact h
  | succ n ih => exact ih h.step

/-- When nothing is left to look at, every key that can be reached was met. -/
theorem Tracks.mem_met_iff (h : Tracks flow s) (hover : s.pending = []) :
    id ∈ s.met ↔ id ∈ flow.nodes.keys ∧ ReflTransGen flow.Follows flow.entryNodeId id := by
  have hmet : ∀ other, s.Accounts flow other → other ∈ flow.nodes.keys → other ∈ s.met := by
    rintro other (hmet | hnext | hlost) hkey
    · exact hmet
    · rw [hover] at hnext
      cases hnext
    · exact absurd hkey hlost
  constructor
  · exact fun hid => ⟨h.keys hid, h.reached id (.inl hid)⟩
  · rintro ⟨hkey, hreached⟩
    induction hreached with
    | refl => exact hmet _ h.entry hkey
    | @tail before after _ hstep ih =>
      exact hmet after (h.closed before (ih (Flow.mem_keys_of_follows hstep)) after hstep) hkey

/-- What a spread has before it, counted like the work of a search: two for each id to look at, now or
once a key that was not met is taken up. -/
def work (flow : Flow) (s : Spread) : Nat :=
  2 * s.pending.length + Search.unvisitedWork s.met flow.nodes.entries

theorem work_start (flow : Flow) : (start flow).work flow = 2 * (flow.transitionCount + 1) := by
  rw [work, start, Search.unvisitedWork_nil]
  simp [Flow.transitionCount, Table.values, Nat.mul_add, Nat.add_comm]

theorem work_step_lt (hpending : s.pending ≠ []) : (s.step flow).work flow + 2 ≤ s.work flow := by
  have hstepped := stepped flow s
  generalize s.step flow = next at hstepped
  cases hstepped with
  | ended hnone => exact absurd hnone hpending
  | pass hnext =>
    simp only [work, hnext, List.length_cons]
    omega
  | @meet other rest hnext hnew =>
    have hwork : Search.unvisitedWork (other :: s.met) flow.nodes.entries +
        2 * (flow.targets other).length = Search.unvisitedWork s.met flow.nodes.entries :=
      Search.unvisitedWork_enter hnew flow.nodes.distinct
    simp only [work, hnext, List.length_append, List.length_reverse, List.length_cons]
    omega

theorem run_of_pending_eq_nil (hpending : s.pending = []) (n : Nat) : s.run flow n = s := by
  induction n with
  | zero => rfl
  | succ n ih => rw [run, step, hpending, ih]

theorem pending_run_eq_nil {n : Nat} (hwork : s.work flow ≤ 2 * n) :
    (s.run flow n).pending = [] := by
  induction n generalizing s with
  | zero =>
    by_contra hpending
    have hlt : (s.step flow).work flow + 2 ≤ s.work flow := work_step_lt hpending
    omega
  | succ n ih =>
    by_cases hpending : s.pending = []
    · rw [run_of_pending_eq_nil hpending, hpending]
    · have hlt : (s.step flow).work flow + 2 ≤ s.work flow := work_step_lt hpending
      exact ih (by omega)

end Spread

namespace Flow

variable {flow : Flow} {key : Text}

/-- A walk from the entry through nodes of the flow comes to a key. -/
def Reaches (flow : Flow) (key : Text) : Prop :=
  ∃ walk, flow.IsWalk walk ∧ walk ⊆ flow.nodes.keys ∧ walk.getLast? = some key

theorem Reaches.tail {next : Text} (h : flow.Reaches key) (hstep : flow.Follows key next)
    (hnext : next ∈ flow.nodes.keys) : flow.Reaches next := by
  obtain ⟨walk, hwalk, hkeys, hlast⟩ := h
  refine ⟨walk ++ [next], (isWalk_concat_iff hlast).2 ⟨hwalk, hstep⟩, ?_, List.getLast?_concat⟩
  exact List.append_subset.2 ⟨hkeys, List.cons_subset.2 ⟨hnext, List.nil_subset _⟩⟩

theorem reaches_iff :
    flow.Reaches key ↔ key ∈ flow.nodes.keys ∧ ReflTransGen flow.Follows flow.entryNodeId key := by
  constructor
  · rintro ⟨walk, hwalk, hkeys, hlast⟩
    have hmem : key ∈ walk := List.mem_of_getLast? hlast
    exact ⟨hkeys hmem, hwalk.reflTransGen hmem⟩
  · rintro ⟨hkey, hreached⟩
    induction hreached with
    | refl =>
      exact ⟨_, isWalk_entry flow, List.cons_subset.2 ⟨hkey, List.nil_subset _⟩, rfl⟩
    | tail _ hstep ih => exact (ih (mem_keys_of_follows hstep)).tail hstep hkey

/-- The spread from the entry when it is over. -/
def spread (flow : Flow) : Spread :=
  (Spread.start flow).run flow (flow.transitionCount + 1)

theorem pending_spread (flow : Flow) : flow.spread.pending = [] :=
  Spread.pending_run_eq_nil (Spread.work_start flow).le

theorem tracks_spread (flow : Flow) : Spread.Tracks flow flow.spread :=
  (Spread.Tracks.start flow).run _

/-- The worklist meets just the keys that can be reached. -/
theorem mem_reachable_iff : key ∈ flow.reachable ↔ flow.Reaches key := by
  have hmet : key ∈ flow.reachable ↔ key ∈ flow.spread.met := Iff.rfl
  rw [hmet, (tracks_spread flow).mem_met_iff (pending_spread flow), reaches_iff]

theorem nodup_reachable (flow : Flow) : flow.reachable.Nodup :=
  (tracks_spread flow).nodup

instance (flow : Flow) (key : Text) : Decidable (flow.Reaches key) :=
  decidable_of_iff _ mem_reachable_iff

end Flow

end ConversationFlow.Executable
