import ConversationFlow.Proofs.Compile.Node
import ConversationFlow.Proofs.Table

/-!
# What the nodes of a drawing compile to

Every node is attempted. If all of them compile, the flow has a compiled form of each one under its
id; if one does not, its issues stop the flow.
-/

namespace ConversationFlow.Compile

open Schema Executable
open Editor (Edge Graph)

variable {edges : List Edge} {n : Editor.Node} {g : Graph} {provider : Provider} {journal : Journal}

variable [Host]

/-- A node compiles, with whatever ids, time and journal. -/
def Compiles (edges : List Edge) (n : Editor.Node) : Prop :=
  ∀ provider journal, ∃ node, ((compileNode edges n).runFrom provider journal).1 = .ok node

/-- If a node does not compile, it is because it is refused as a record. -/
def FailsAsRecord (edges : List Edge) (n : Editor.Node) : Prop :=
  ∀ provider journal fault, ((compileNode edges n).runFrom provider journal).1 = .error fault →
    ∃ title findings, fault = .invalid title findings

theorem IsCompiled.compiles {node : Executable.Node} (h : IsCompiled edges n node) :
    Compiles edges n := by
  intro provider' journal'
  obtain ⟨provider, journal, hrun⟩ := h
  have halike := alike_compileNode edges n provider journal provider' journal'
  rw [hrun] at halike
  cases hother : ((compileNode edges n).runFrom provider' journal').1 with
  | ok other => exact ⟨other, rfl⟩
  | error fault =>
    rw [hother] at halike
    cases halike

theorem nodeFault_of_error {fault : Fault}
    (h : ((compileNode edges n).runFrom provider journal).1 = .error fault) : NodeFault n fault := by
  have halike := alike_compileNode edges n provider journal provider journal
  rw [h] at halike
  cases halike with
  | error hfault => exact hfault

/-- A node fails with the same fault from every provider and journal. -/
theorem eq_of_error {fault other : Fault} {provider' : Provider} {journal' : Journal}
    (h : ((compileNode edges n).runFrom provider journal).1 = .error fault)
    (h' : ((compileNode edges n).runFrom provider' journal').1 = .error other) : fault = other := by
  have halike := alike_compileNode edges n provider journal provider' journal'
  rw [h, h'] at halike
  cases halike with
  | error _ => rfl

theorem not_compiles_of_error {fault : Fault}
    (h : ((compileNode edges n).runFrom provider journal).1 = .error fault) :
    ¬Compiles edges n := by
  intro hcompiles
  obtain ⟨node, hnode⟩ := hcompiles provider journal
  simp [h] at hnode

theorem Compiles.failsAsRecord (h : Compiles edges n) : FailsAsRecord edges n :=
  fun _ _ _ herror => absurd h (not_compiles_of_error herror)

theorem failsAsRecord_of_error {title : Text} {findings : List Finding}
    (h : ((compileNode edges n).runFrom provider journal).1 = .error (.invalid title findings)) :
    FailsAsRecord edges n :=
  fun _ _ _ herror => ⟨title, findings, (eq_of_error h herror).symm⟩

/-- What comes of the attempt to compile a node: a compiled form under the id of the node, or issues about
the node if there is none. A node that is not refused as a record ends the attempt. -/
inductive Attempted (edges : List Edge) (n : Editor.Node) :
    Except Failure (Except (List Issue) (Text × Executable.Node)) → Prop
  | compiled {node : Executable.Node} (hnode : IsCompiled edges n node) :
    Attempted edges n (.ok (.ok (n.id, node)))
  | refused {issues : List Issue} (hrefused : ¬Compiles edges n) (hissues : issues ≠ [])
    (hfails : FailsAsRecord edges n) (habout : ∀ issue ∈ issues, issue.nodeId = some n.id) :
    Attempted edges n (.ok (.error issues))
  | ended {obstacle : Obstacle} (hfails : ¬FailsAsRecord edges n) :
    Attempted edges n (.error (.refused (.obstructed obstacle)))

theorem Attempted.failsAsRecord {outcome : Except (List Issue) (Text × Executable.Node)}
    (h : Attempted edges n (.ok outcome)) : FailsAsRecord edges n := by
  cases h with
  | compiled hnode => exact hnode.compiles.failsAsRecord
  | refused _ _ hfails _ => exact hfails

theorem attempted (edges : List Edge) (n : Editor.Node) (provider : Provider) (journal : Journal) :
    Attempted edges n ((attempt edges n).runFrom provider journal).1 := by
  rw [attempt, Job.runFrom_bind, Job.runFrom_outcome]
  cases houtcome : ((compileNode edges n).runFrom provider journal).1 with
  | ok node => exact .compiled ⟨provider, journal, houtcome⟩
  | error fault =>
    rcases nodeFault_of_error houtcome with ⟨title, findings, rfl, hfindings⟩ |
      ⟨kind, obstacle, -, -, rfl⟩
    · refine .refused (not_compiles_of_error houtcome) (by simpa using hfindings)
        (failsAsRecord_of_error houtcome) ?_
      intro issue hissue
      obtain ⟨finding, -, rfl⟩ := List.mem_map.1 hissue
      rfl
    · refine .ended fun hfails => ?_
      obtain ⟨title, findings, heq⟩ := hfails provider journal _ houtcome
      cases heq

/-- A table holds a compiled form of each node of a drawing under its id, in order. -/
def Mirrors (g : Graph) (nodes : Table Executable.Node) : Prop :=
  List.Forall₂ (fun n entry => entry.1 = n.id ∧ IsCompiled (g.outgoing n.id) n entry.2)
    g.nodes nodes.entries

section Outcomes

variable {items : List Editor.Node} {out : Editor.Node → List Edge}
  {outcomes : List (Except (List Issue) (Text × Executable.Node))}

theorem issuesOfOutcomes_eq_nil_iff
    (h : List.Forall₂ (fun n outcome => Attempted (out n) n (.ok outcome)) items outcomes) :
    issuesOfOutcomes outcomes = [] ↔ ∀ n ∈ items, Compiles (out n) n := by
  induction h with
  | nil => simp [issuesOfOutcomes]
  | cons hattempted hrest ih =>
    cases hattempted with
    | compiled hnode => simpa [issuesOfOutcomes, hnode.compiles] using ih
    | refused hrefused hissues => simp [issuesOfOutcomes, hrefused, hissues]

omit [Host] in
theorem mem_issuesOfOutcomes_iff {issue : Issue} :
    issue ∈ issuesOfOutcomes outcomes ↔ ∃ issues, .error issues ∈ outcomes ∧ issue ∈ issues := by
  rw [issuesOfOutcomes, List.mem_flatMap]
  constructor
  · rintro ⟨outcome, houtcome, hissue⟩
    cases outcome with
    | ok node => simp at hissue
    | error issues => exact ⟨issues, houtcome, hissue⟩
  · rintro ⟨issues, houtcome, hissue⟩
    exact ⟨.error issues, houtcome, hissue⟩

theorem forall₂_compiledEntries (hcompiles : ∀ n ∈ items, Compiles (out n) n)
    (h : List.Forall₂ (fun n outcome => Attempted (out n) n (.ok outcome)) items outcomes) :
    List.Forall₂ (fun n entry => entry.1 = n.id ∧ IsCompiled (out n) n entry.2) items
      (compiledEntries outcomes) := by
  induction h with
  | nil => exact .nil
  | cons hattempted hrest ih =>
    rw [List.forall_mem_cons] at hcompiles
    cases hattempted with
    | compiled hnode => exact .cons ⟨rfl, hnode⟩ (ih hcompiles.2)
    | refused hrefused _ => exact absurd hcompiles.1 hrefused

/-- If all nodes compile, the outcomes are their compiled forms and nothing else. -/
theorem eq_map_compiledEntries (hcompiles : ∀ n ∈ items, Compiles (out n) n)
    (h : List.Forall₂ (fun n outcome => Attempted (out n) n (.ok outcome)) items outcomes) :
    outcomes = (compiledEntries outcomes).map .ok := by
  induction h with
  | nil => rfl
  | cons hattempted _ ih =>
    rw [List.forall_mem_cons] at hcompiles
    cases hattempted with
    | compiled hnode => exact congrArg _ (ih hcompiles.2)
    | refused hrefused _ => exact absurd hcompiles.1 hrefused

/-- The compiled forms of nodes with distinct ids are all found under these ids. -/
theorem entries_ofList_compiledEntries (hids : (items.map (·.id)).Nodup)
    (hcompiles : ∀ n ∈ items, Compiles (out n) n)
    (h : List.Forall₂ (fun n outcome => Attempted (out n) n (.ok outcome)) items outcomes) :
    (Table.ofList (compiledEntries outcomes)).entries = compiledEntries outcomes := by
  have hkeys : (compiledEntries outcomes).map Prod.fst = items.map (·.id) :=
    (map_eq_map_of_forall₂ (forall₂_compiledEntries hcompiles h) fun _ _ hentry =>
      hentry.1.symm).symm
  exact Table.entries_ofList (by rwa [hkeys])

end Outcomes

theorem mirrors_ofList (hids : (g.nodes.map (·.id)).Nodup)
    {outcomes : List (Except (List Issue) (Text × Executable.Node))}
    (hcompiles : ∀ n ∈ g.nodes, Compiles (g.outgoing n.id) n)
    (h : List.Forall₂ (fun n outcome => Attempted (g.outgoing n.id) n (.ok outcome)) g.nodes
      outcomes) : Mirrors g (.ofList (compiledEntries outcomes)) := by
  rw [Mirrors, entries_ofList_compiledEntries hids hcompiles h]
  exact forall₂_compiledEntries hcompiles h

/-- Issues are about nodes that do not compile, and about each of them. -/
structure Reports (g : Graph) (issues : List Issue) : Prop where
  causes : ∀ issue ∈ issues,
    ∃ n ∈ g.nodes, ¬Compiles (g.outgoing n.id) n ∧ issue.nodeId = some n.id
  covers : ∀ n ∈ g.nodes, ¬Compiles (g.outgoing n.id) n →
    ∃ issue ∈ issues, issue.nodeId = some n.id

theorem reports_issuesOfOutcomes
    {outcomes : List (Except (List Issue) (Text × Executable.Node))}
    (h : List.Forall₂ (fun n outcome => Attempted (g.outgoing n.id) n (.ok outcome))
      g.nodes outcomes) :
    Reports g (issuesOfOutcomes outcomes) := by
  constructor
  · intro issue hissue
    obtain ⟨issues, houtcome, hmem⟩ := mem_issuesOfOutcomes_iff.1 hissue
    obtain ⟨n, hn, hattempted⟩ := exists_left_of_forall₂ h houtcome
    cases hattempted with
    | refused hrefused _ _ habout => exact ⟨n, hn, hrefused, habout issue hmem⟩
  · intro n hn hrefused
    obtain ⟨outcome, houtcome, hattempted⟩ := exists_right_of_forall₂ h hn
    cases hattempted with
    | compiled hnode => exact absurd hnode.compiles hrefused
    | @refused issues _ hissues _ habout =>
      obtain ⟨issue, hissue⟩ := List.exists_mem_of_ne_nil _ hissues
      exact ⟨issue, mem_issuesOfOutcomes_iff.2 ⟨issues, houtcome, hissue⟩, habout issue hissue⟩

/-- What the compilation of all nodes comes to: a compiled form of every node, issues if a node has
none, or an end if a node is not refused as a record. -/
inductive NodesOutcome (g : Graph) : Except Failure (Table Executable.Node) → Prop
  | compiled {nodes : Table Executable.Node}
    (hcompiles : ∀ n ∈ g.nodes, Compiles (g.outgoing n.id) n) (hmirrors : Mirrors g nodes) :
    NodesOutcome g (.ok nodes)
  | stopped {issues : List Issue} (hrefused : ¬∀ n ∈ g.nodes, Compiles (g.outgoing n.id) n)
    (hissues : issues ≠ []) (hfails : ∀ n ∈ g.nodes, FailsAsRecord (g.outgoing n.id) n)
    (hreports : Reports g issues) : NodesOutcome g (.error (.stopped .nodes issues))
  | ended {obstacle : Obstacle}
    (hfails : ¬∀ n ∈ g.nodes, FailsAsRecord (g.outgoing n.id) n) :
    NodesOutcome g (.error (.refused (.obstructed obstacle)))

/-- Every node is attempted, unless one of them ends all attempts. -/
theorem runFrom_attempts_cases (g : Graph) (provider : Provider) (journal : Journal) :
    let attempts := g.nodes.mapM fun n =>
      attempt (((edgesBySource g.edges).get? n.id).getD []) n
    (∃ outcomes later, attempts.runFrom provider journal = (.ok outcomes, later) ∧
      List.Forall₂ (fun n outcome => Attempted (g.outgoing n.id) n (.ok outcome))
        g.nodes outcomes) ∨
    ∃ obstacle later,
      attempts.runFrom provider journal = (.error (.refused (.obstructed obstacle)), later) ∧
        ¬∀ n ∈ g.nodes, FailsAsRecord (g.outgoing n.id) n := by
  simp only [getD_edgesBySource]
  rcases Job.runFrom_mapM_cases (fun n => attempt (g.outgoing n.id) n) g.nodes provider journal with
    ⟨outcomes, later, hrun, houtcomes⟩ | ⟨failure, later, hrun, n, hn, start, hfailure⟩
  · refine .inl ⟨outcomes, later, hrun, houtcomes.imp fun n outcome ⟨start, houtcome⟩ => ?_⟩
    rw [← houtcome]
    exact attempted _ n provider start
  · have hattempted := attempted (g.outgoing n.id) n provider start
    rw [hfailure] at hattempted
    cases hattempted with
    | ended hfails => exact .inr ⟨_, later, hrun, fun hall => hfails (hall n hn)⟩

theorem nodesOutcome (hids : (g.nodes.map (·.id)).Nodup) (provider : Provider) (journal : Journal) :
    NodesOutcome g ((compileNodes g).runFrom provider journal).1 := by
  rw [compileNodes, Job.runFrom_bind]
  rcases runFrom_attempts_cases g provider journal with
    ⟨outcomes, later, hrun, hattempted⟩ | ⟨fault, later, hrun, hfails⟩
  · rw [hrun]
    dsimp only
    split
    · next hissues =>
      have hcompiles := (issuesOfOutcomes_eq_nil_iff hattempted).1 (List.isEmpty_iff.1 hissues)
      exact .compiled hcompiles (mirrors_ofList hids hcompiles hattempted)
    · next hissues =>
      rw [List.isEmpty_iff] at hissues
      refine .stopped ?_ hissues ?_ (reports_issuesOfOutcomes hattempted)
      · exact fun hcompiles => hissues ((issuesOfOutcomes_eq_nil_iff hattempted).2 hcompiles)
      · intro n hn
        obtain ⟨outcome, -, hnode⟩ := exists_right_of_forall₂ hattempted hn
        exact hnode.failsAsRecord
  · rw [hrun]
    exact .ended hfails

end ConversationFlow.Compile
