import ConversationFlow.Proofs.Check.Loops
import ConversationFlow.Proofs.Check.Report

/-!
# What a clean report means

A report without errors and warnings says that every conversation ends properly: each node is on
some walk from the entry, no walk goes on for ever, and where a walk cannot go on the conversation
ends, at a node of a type that is made for that. It says no more than that: whenever a flow has a
start and all its conversations end properly, its report is clean.
-/

namespace ConversationFlow.Executable.Flow

open Relation

variable {flow : Flow} {walk : List Text} {key last next : Text}

/-- A walk that nothing follows. -/
structure IsMaximalWalk (flow : Flow) (walk : List Text) : Prop where
  isWalk : flow.IsWalk walk
  ends : ∀ next, ¬flow.IsWalk (walk ++ [next])

theorem isMaximalWalk_iff (hlast : walk.getLast? = some last) :
    flow.IsMaximalWalk walk ↔ flow.IsWalk walk ∧ flow.targets last = [] := by
  rw [List.eq_nil_iff_forall_not_mem]
  constructor
  · exact fun ⟨hwalk, hends⟩ => ⟨hwalk, fun next hstep =>
      hends next ((isWalk_concat_iff hlast).2 ⟨hwalk, hstep⟩)⟩
  · exact fun ⟨hwalk, hnone⟩ => ⟨hwalk, fun next hnext =>
      hnone next ((isWalk_concat_iff hlast).1 hnext).2⟩

theorem IsWalk.exists_getLast? (h : flow.IsWalk walk) : ∃ last, walk.getLast? = some last := by
  obtain ⟨rest, rfl⟩ := h.exists_eq_cons
  exact ⟨_, List.getLast?_eq_some_getLast (List.cons_ne_nil _ _)⟩

/-- A walk goes on to whatever can be reached from its last id. -/
theorem IsWalk.exists_append_of_transGen (h : flow.IsWalk walk) (hlast : walk.getLast? = some last)
    (hreached : TransGen flow.Follows last key) :
    ∃ more, more ≠ [] ∧ flow.IsWalk (walk ++ more) ∧ (walk ++ more).getLast? = some key := by
  induction hreached with
  | @single next hstep =>
    exact ⟨[next], by simp, (isWalk_concat_iff hlast).2 ⟨h, hstep⟩, List.getLast?_concat⟩
  | @tail before after _ hstep ih =>
    obtain ⟨more, -, hwalk, hbefore⟩ := ih
    refine ⟨more ++ [after], by simp, ?_, ?_⟩
    · rw [← List.append_assoc]
      exact (isWalk_concat_iff hbefore).2 ⟨hwalk, hstep⟩
    · rw [← List.append_assoc, List.getLast?_concat]

theorem exists_isWalk_of_reflTransGen (h : ReflTransGen flow.Follows flow.entryNodeId key) :
    ∃ walk, flow.IsWalk walk ∧ walk.getLast? = some key := by
  rcases reflTransGen_iff_eq_or_transGen.1 h with rfl | hreached
  · exact ⟨_, isWalk_entry flow, rfl⟩
  · obtain ⟨more, -, hwalk, hlast⟩ := (isWalk_entry flow).exists_append_of_transGen rfl hreached
    exact ⟨_, hwalk, hlast⟩

section Bounded

variable {bound : Nat} (hbound : ∀ walk, flow.IsWalk walk → walk.length ≤ bound)

include hbound

/-- If walks do not get longer and longer, each of them is part of one that cannot go on. -/
theorem exists_isMaximalWalk (h : flow.IsWalk walk) : ∃ more, flow.IsMaximalWalk (walk ++ more) := by
  obtain ⟨rest, hrest⟩ := Nat.exists_eq_add_of_le (hbound walk h)
  induction rest generalizing walk with
  | zero =>
    refine ⟨[], by rwa [List.append_nil], fun next hnext => ?_⟩
    have hlength := hbound _ hnext
    simp only [List.append_nil, List.length_append, List.length_singleton] at hlength
    omega
  | succ rest ih =>
    by_cases hnext : ∃ next, flow.IsWalk (walk ++ [next])
    · obtain ⟨next, hnext⟩ := hnext
      have hlength : bound = (walk ++ [next]).length + rest := by
        rw [List.length_append, List.length_singleton, hrest]
        omega
      obtain ⟨more, hmore⟩ := ih hnext hlength
      exact ⟨next :: more, by simpa using hmore⟩
    · exact ⟨[], by rwa [List.append_nil], by simpa using hnext⟩

/-- A cycle could be gone round as often as one likes. -/
theorem acyclicFrom_of_bounded : AcyclicFrom flow.Follows flow.entryNodeId := by
  intro id hreached hcycle
  have hlong (n : Nat) : ∃ walk, flow.IsWalk walk ∧ walk.getLast? = some id ∧ n ≤ walk.length := by
    induction n with
    | zero =>
      obtain ⟨walk, hwalk, hlast⟩ := exists_isWalk_of_reflTransGen hreached
      exact ⟨walk, hwalk, hlast, Nat.zero_le _⟩
    | succ n ih =>
      obtain ⟨walk, hwalk, hlast, hlength⟩ := ih
      obtain ⟨more, hmore, hround, hid⟩ := hwalk.exists_append_of_transGen hlast hcycle
      have hpos : 0 < more.length := List.length_pos_of_ne_nil hmore
      exact ⟨walk ++ more, hround, hid, by rw [List.length_append]; omega⟩
  obtain ⟨walk, hwalk, -, hlength⟩ := hlong (bound + 1)
  have := hbound walk hwalk
  omega

end Bounded

theorem targets_eq_nil_iff {n : Node} (hn : flow.getNode? key = some n) :
    flow.targets key = [] ↔ n.transitions = [] := by
  rw [targets, hn, Option.elim_some, Node.targets, List.map_eq_nil_iff]

theorem exists_getNode?_of_mem_keys (h : key ∈ flow.nodes.keys) :
    ∃ n, flow.getNode? key = some n := by
  obtain ⟨⟨key, n⟩, hentry, rfl⟩ := List.mem_map.1 h
  exact ⟨n, Table.get?_eq_some_iff.2 hentry⟩

theorem warnings_eq_nil_iff : flow.warnings = [] ↔
    (∀ key ∈ flow.nodes.keys, flow.Reaches key) ∧
    ∀ key n, flow.getNode? key = some n → n.transitions = [] →
      n.type = "end" ∨ n.type = "transfer_agent" := by
  have hnode (key : Text) (n : Node) : nodeWarnings flow.reachable key n = [] ↔
      flow.Reaches key ∧ (n.transitions = [] → n.type = "end" ∨ n.type = "transfer_agent") := by
    rw [nodeWarnings_eq, List.append_eq_nil_iff]
    simp [or_iff_not_imp_left]
  have hentries : flow.warnings = [] ↔
      ∀ entry ∈ flow.nodes.entries, nodeWarnings flow.reachable entry.1 entry.2 = [] :=
    List.flatMap_eq_nil_iff
  rw [hentries]
  constructor
  · intro h
    refine ⟨fun key hkey => ?_, fun key n hn => ?_⟩
    · obtain ⟨entry, hentry, rfl⟩ := List.mem_map.1 hkey
      exact ((hnode _ _).1 (h entry hentry)).1
    · exact ((hnode _ _).1 (h (key, n) (Table.get?_eq_some_iff.1 hn))).2
  · rintro ⟨hreaches, hstuck⟩ ⟨key, n⟩ hentry
    exact (hnode _ _).2 ⟨hreaches key (List.mem_map_of_mem hentry),
      hstuck key n (Table.get?_eq_some_iff.2 hentry)⟩

/-- Every conversation ends properly: some conversation comes to each node, none can go on for ever,
and one that cannot go on has come to a node at which it may end. -/
structure EndsProperly (flow : Flow) : Prop where
  visited : ∀ key ∈ flow.nodes.keys, ∃ walk, flow.IsWalk walk ∧ key ∈ walk
  bounded : ∀ walk more, flow.IsWalk (walk ++ more) → walk.length + more.length ≤ flow.nodes.size
  completed : ∀ walk, flow.IsWalk walk → ∃ more, flow.IsMaximalWalk (walk ++ more)
  ends : ∀ walk, flow.IsMaximalWalk walk → ∃ last n, walk.getLast? = some last ∧
    flow.getNode? last = some n ∧ (n.type = "end" ∨ n.type = "transfer_agent")

theorem IsRunnable.endsProperly (h : flow.IsRunnable)
    (hreaches : ∀ key ∈ flow.nodes.keys, flow.Reaches key)
    (hstuck : ∀ key n, flow.getNode? key = some n → n.transitions = [] →
      n.type = "end" ∨ n.type = "transfer_agent") : flow.EndsProperly where
  visited key hkey := by
    obtain ⟨walk, hwalk, -, hlast⟩ := hreaches key hkey
    exact ⟨walk, hwalk, List.mem_of_getLast? hlast⟩
  bounded walk more hwalk := by
    rw [← List.length_append]
    exact (h.walk hwalk).2.2
  completed walk hwalk := exists_isMaximalWalk (fun _ hother => (h.walk hother).2.2) hwalk
  ends walk hmaximal := by
    obtain ⟨last, hlast⟩ := hmaximal.isWalk.exists_getLast?
    obtain ⟨n, hn⟩ :=
      exists_getNode?_of_mem_keys ((h.walk hmaximal.isWalk).1 (List.mem_of_getLast? hlast))
    have hnone : n.transitions = [] :=
      (targets_eq_nil_iff hn).1 ((isMaximalWalk_iff hlast).1 hmaximal).2
    exact ⟨last, n, hlast, hn, hstuck last n hn hnone⟩

namespace EndsProperly

theorem reached (h : flow.EndsProperly) (hkey : key ∈ flow.nodes.keys) :
    ReflTransGen flow.Follows flow.entryNodeId key := by
  obtain ⟨walk, hwalk, hmem⟩ := h.visited key hkey
  exact hwalk.reflTransGen hmem

/-- What nothing follows and a walk comes to is a node at which a conversation may end. -/
theorem exists_terminal (h : flow.EndsProperly)
    (hreached : ReflTransGen flow.Follows flow.entryNodeId key) (hnone : flow.targets key = []) :
    ∃ n, flow.getNode? key = some n ∧ (n.type = "end" ∨ n.type = "transfer_agent") := by
  obtain ⟨walk, hwalk, hlast⟩ := exists_isWalk_of_reflTransGen hreached
  obtain ⟨last, n, hlast', hn, hterminal⟩ :=
    h.ends walk ((isMaximalWalk_iff hlast).2 ⟨hwalk, hnone⟩)
  obtain rfl : key = last := Option.some.inj (hlast.symm.trans hlast')
  exact ⟨n, hn, hterminal⟩

theorem acyclicFrom (h : flow.EndsProperly) : AcyclicFrom flow.Follows flow.entryNodeId :=
  acyclicFrom_of_bounded fun walk hwalk => h.bounded walk [] (by rwa [List.append_nil])

/-- A transition that leads to no node would end a walk where there is no node. -/
theorem isClosed (h : flow.EndsProperly) : flow.IsClosed := by
  intro a b hstep
  by_contra hlost
  have hreached : ReflTransGen flow.Follows flow.entryNodeId b :=
    (h.reached (mem_keys_of_follows hstep)).tail hstep
  have hnone : flow.getNode? b = none := Table.get?_eq_none_iff.2 hlost
  obtain ⟨n, hn, -⟩ := h.exists_terminal hreached (by rw [targets, hnone]; rfl)
  rw [hnone] at hn
  cases hn

end EndsProperly

/-- A report has neither errors nor warnings exactly if the entry is a start node and every
conversation ends properly. -/
theorem clean_check_iff (flow : Flow) :
    (flow.check true).errors = [] ∧ (flow.check true).warnings = [] ↔
      (∃ n, flow.getNode? flow.entryNodeId = some n ∧ n.type = "start") ∧ flow.EndsProperly := by
  have herrors : (flow.check true).errors = flow.errors := rfl
  have hwarnings : (flow.check true).warnings = flow.warnings := rfl
  rw [herrors, hwarnings, errors_eq_nil_iff, warnings_eq_nil_iff, ← hasStart_iff]
  constructor
  · exact fun ⟨hrunnable, hreaches, hstuck⟩ =>
      ⟨hrunnable.start, hrunnable.endsProperly hreaches hstuck⟩
  · rintro ⟨hstart, h⟩
    refine ⟨⟨hstart, h.acyclicFrom, h.isClosed⟩, fun key hkey => ?_, fun key n hn hnone => ?_⟩
    · exact reaches_iff.2 ⟨hkey, h.reached hkey⟩
    · have hkey : key ∈ flow.nodes.keys :=
        List.mem_map_of_mem (Table.get?_eq_some_iff.1 hn)
      obtain ⟨n', hn', hterminal⟩ :=
        h.exists_terminal (h.reached hkey) ((targets_eq_nil_iff hn).2 hnone)
      obtain rfl : n = n' := Option.some.inj (hn.symm.trans hn')
      exact hterminal

/-- A question with two answers: a conversation is over at once or is handed to someone else. -/
def endingFlow : Flow :=
  { loopingFlow with
    nodes := .ofList
      [("start", { loopingNode "start" ["question"] with type := "start" }),
        ("question", loopingNode "question" ["finish", "transfer"]),
        ("finish", { loopingNode "finish" [] with type := "end" }),
        ("transfer", { loopingNode "transfer" [] with type := "transfer_agent" })] }

example : (endingFlow.check true).errors = [] ∧ (endingFlow.check true).warnings = [] := by
  decide +kernel

end ConversationFlow.Executable.Flow
