import ConversationFlow.Check.Cycles
import Mathlib.Data.List.Chain
import Mathlib.Logic.Relation

/-!
# Walks through a flow

Where a conversation can go: from a node to the target of one of its transitions, and on from there.
A walk from a point from which no cycle can be reached never comes back to where it was.
-/

namespace ConversationFlow

open Relation

section Acyclic

variable {α : Type} {r s : α → α → Prop} {a b : α}

/-- No cycle of a relation can be reached from a point. -/
def AcyclicFrom (r : α → α → Prop) (a : α) : Prop :=
  ∀ b, ReflTransGen r a b → ¬TransGen r b b

/-- Points in an order in which every step from one of them leads to a later one. -/
def IsTopological (r : α → α → Prop) : List α → Prop
  | [] => True
  | a :: rest => (∀ b, r a b → b ∈ rest) ∧ IsTopological r rest

theorem IsTopological.mono (hrs : ∀ a b, s a b → r a b) {points : List α}
    (h : IsTopological r points) : IsTopological s points := by
  induction points with
  | nil => trivial
  | cons a rest ih => exact ⟨fun b hab => h.1 b (hrs a b hab), ih h.2⟩

theorem IsTopological.mem_of_step {points : List α} (h : IsTopological r points) (ha : a ∈ points)
    (hab : r a b) : b ∈ points := by
  induction points with
  | nil => simp at ha
  | cons c rest ih =>
    rcases List.mem_cons.1 ha with rfl | hrest
    · exact List.mem_cons_of_mem _ (h.1 b hab)
    · exact List.mem_cons_of_mem _ (ih h.2 hrest)

theorem IsTopological.mem_of_reflTransGen {points : List α} (h : IsTopological r points)
    (ha : a ∈ points) (hab : ReflTransGen r a b) : b ∈ points := by
  induction hab with
  | refl => exact ha
  | tail _ hstep ih => exact h.mem_of_step ih hstep

/-- The first point that a step leads away from is never come back to. -/
theorem IsTopological.not_transGen {points : List α} (h : IsTopological r points)
    (ha : a ∈ points) : ¬TransGen r a a := by
  induction points with
  | nil => simp at ha
  | cons c rest ih =>
    intro hcycle
    by_cases hrest : a ∈ rest
    · exact ih h.2 hrest hcycle
    · obtain ⟨b, hab, hba⟩ := TransGen.head'_iff.1 hcycle
      have hac : a = c := (List.mem_cons.1 ha).resolve_right hrest
      have hb : b ∈ rest := h.1 b (hac ▸ hab)
      exact hrest (h.2.mem_of_reflTransGen hb hba)

theorem IsTopological.acyclicFrom {points : List α} (h : IsTopological r points) (ha : a ∈ points) :
    AcyclicFrom r a :=
  fun _ hab => h.not_transGen (h.mem_of_reflTransGen ha hab)

theorem pairwise_transGen_of_isChain {points : List α} (h : points.IsChain r) :
    points.Pairwise (TransGen r) :=
  List.isChain_iff_pairwise.1 (h.imp fun _ _ => TransGen.single)

theorem reflTransGen_of_isChain {points : List α} (h : (a :: points).IsChain r)
    (hb : b ∈ a :: points) : ReflTransGen r a b := by
  rcases List.mem_cons.1 hb with rfl | hmem
  · exact .refl
  · exact (List.rel_of_pairwise_cons (pairwise_transGen_of_isChain h) hmem).to_reflTransGen

theorem AcyclicFrom.nodup_of_isChain (h : AcyclicFrom r a) {points : List α}
    (hchain : (a :: points).IsChain r) : (a :: points).Nodup := by
  refine (pairwise_transGen_of_isChain hchain).imp_of_mem fun {b c} hb _ hbc => ?_
  rintro rfl
  exact h b (reflTransGen_of_isChain hchain hb) hbc

end Acyclic

namespace Executable.Flow

/-- A transition of the node under one key leads to another one. -/
def Follows (flow : Flow) (a b : Text) : Prop := b ∈ flow.targets a

/-- A walk of a conversation: it starts at the entry and goes on along transitions. -/
structure IsWalk (flow : Flow) (walk : List Text) : Prop where
  starts : walk.head? = some flow.entryNodeId
  goes : walk.IsChain flow.Follows

instance (flow : Flow) : DecidableRel flow.Follows := fun a b =>
  inferInstanceAs (Decidable (b ∈ flow.targets a))

instance (flow : Flow) (walk : List Text) : Decidable (flow.IsWalk walk) :=
  decidable_of_iff (walk.head? = some flow.entryNodeId ∧ walk.IsChain flow.Follows)
    ⟨fun h => ⟨h.1, h.2⟩, fun h => ⟨h.starts, h.goes⟩⟩

/-- A walk goes on to whatever follows its last id. -/
theorem isWalk_concat_iff {flow : Flow} {walk : List Text} {last next : Text}
    (hlast : walk.getLast? = some last) :
    flow.IsWalk (walk ++ [next]) ↔ flow.IsWalk walk ∧ flow.Follows last next := by
  have hne : walk ≠ [] := List.ne_nil_of_mem (List.mem_of_getLast? hlast)
  have hhead : (walk ++ [next]).head? = walk.head? := List.head?_append_of_ne_nil _ hne
  constructor
  · rintro ⟨hstarts, hgoes⟩
    obtain ⟨hwalk, -, hstep⟩ := List.isChain_append.1 hgoes
    exact ⟨⟨hhead ▸ hstarts, hwalk⟩, hstep last hlast next rfl⟩
  · rintro ⟨⟨hstarts, hgoes⟩, hstep⟩
    refine ⟨hhead.trans hstarts, hgoes.append (List.isChain_singleton _) fun a ha b hb => ?_⟩
    obtain rfl : last = a := by simpa [hlast] using ha
    obtain rfl : next = b := by simpa using hb
    exact hstep

theorem IsWalk.exists_eq_cons {flow : Flow} {walk : List Text} (h : flow.IsWalk walk) :
    ∃ rest, walk = flow.entryNodeId :: rest := by
  obtain ⟨hstarts, -⟩ := h
  cases walk with
  | nil => cases hstarts
  | cons first rest =>
    obtain rfl : first = flow.entryNodeId := by simpa using hstarts
    exact ⟨rest, rfl⟩

theorem IsWalk.reflTransGen {flow : Flow} {walk : List Text} (h : flow.IsWalk walk) {id : Text}
    (hid : id ∈ walk) : ReflTransGen flow.Follows flow.entryNodeId id := by
  obtain ⟨rest, rfl⟩ := h.exists_eq_cons
  exact reflTransGen_of_isChain h.goes hid

theorem isWalk_entry (flow : Flow) : flow.IsWalk [flow.entryNodeId] :=
  ⟨rfl, List.isChain_singleton _⟩

/-- A conversation that can come to one of its nodes again: ids of which the last is the first, each
of them reached from the entry, and no other id twice. -/
structure IsLoop (flow : Flow) (loop : List Text) : Prop where
  returns : 2 ≤ loop.length
  closes : loop.head? = loop.getLast?
  nodup : loop.dropLast.Nodup
  goes : loop.IsChain flow.Follows
  reached : ∀ id ∈ loop, ReflTransGen flow.Follows flow.entryNodeId id

/-- The id that a loop begins with is come to again. -/
theorem IsLoop.exists_transGen {flow : Flow} {loop : List Text} (h : flow.IsLoop loop) :
    ∃ first, loop.head? = some first ∧ TransGen flow.Follows first first := by
  obtain ⟨first, second, rest, rfl⟩ : ∃ first second rest, loop = first :: second :: rest := by
    match loop, h.returns with
    | first :: second :: rest, _ => exact ⟨first, second, rest, rfl⟩
  have hlast : first ∈ second :: rest := by
    have hcloses := h.closes
    rw [List.head?_cons, List.getLast?_cons_cons] at hcloses
    exact List.mem_of_getLast? hcloses.symm
  exact ⟨first, rfl, List.rel_of_pairwise_cons (pairwise_transGen_of_isChain h.goes) hlast⟩

theorem not_acyclicFrom_of_isLoop {flow : Flow} {loop : List Text} (h : flow.IsLoop loop) :
    ¬AcyclicFrom flow.Follows flow.entryNodeId := by
  obtain ⟨first, hfirst, hcycle⟩ := h.exists_transGen
  exact fun hacyclic => hacyclic first (h.reached first (List.mem_of_head? hfirst)) hcycle

end Executable.Flow

end ConversationFlow
