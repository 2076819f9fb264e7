import ConversationFlow.Proofs.Compile.Call
import ConversationFlow.Proofs.Compile.Isolation

/-!
# Each node and its own edges

The edges of a drawing are grouped by their sources before its nodes are compiled. That only saves
time: a node picks its own edges out of those that it is handed, so one loop that hands all edges to
every node comes to the same. What counts of the order of the edges is therefore the order of those
that leave the same node.
-/

namespace ConversationFlow.Compile

open Schema Executable
open Editor (Edge Graph)

variable {g other : Graph} {edges others : List Edge} {provider : Provider} {journal : Journal}

theorem transitionsOf_outgoing (g : Graph) (id : Text) :
    transitionsOf (g.outgoing id) id = transitionsOf g.edges id := by
  simp only [transitionsOf, Graph.outgoing, List.filter_filter, Bool.and_self]

/-- The same edges leave each node, in the same order. Edges that leave different nodes may be drawn
in any order. -/
def SameBySource (edges others : List Edge) : Prop :=
  ∀ source, edges.filter (·.source = source) = others.filter (·.source = source)

theorem sameBySource_iff : SameBySource edges others ↔
    ∀ e ∈ edges ++ others,
      edges.filter (·.source = e.source) = others.filter (·.source = e.source) := by
  constructor
  · intro h e _
    exact h e.source
  · intro h source
    by_cases hsource : ∃ e ∈ edges ++ others, e.source = source
    · obtain ⟨e, he, rfl⟩ := hsource
      exact h e he
    · have hnone (items : List Edge) (hitems : items ⊆ edges ++ others) :
          items.filter (·.source = source) = [] := by
        rw [List.filter_eq_nil_iff]
        intro e he heq
        exact hsource ⟨e, hitems he, of_decide_eq_true heq⟩
      rw [hnone edges (List.subset_append_left _ _), hnone others (List.subset_append_right _ _)]

instance (edges others : List Edge) : Decidable (SameBySource edges others) :=
  decidable_of_iff _ sameBySource_iff.symm

theorem SameBySource.perm (h : SameBySource edges others) : edges.Perm others := by
  rw [List.perm_iff_count]
  intro e
  calc edges.count e
    _ = (edges.filter (·.source = e.source)).count e := (List.count_filter (by simp)).symm
    _ = (others.filter (·.source = e.source)).count e := by rw [h]
    _ = others.count e := List.count_filter (by simp)

namespace Call

/-- What a caller hands in comes to a drawing. -/
def Gives : Handed Graph → Graph → Prop
  | .record g, h => g = h
  | .document v, h => readRecord .values v = .ok h

theorem readDrawing_of_gives {c : Call} (h : Gives c.drawing g) : c.readDrawing = pure g := by
  rw [readDrawing]
  cases hdrawing : c.drawing with
  | record k =>
    rw [hdrawing] at h
    cases h
    rfl
  | document v =>
    rw [hdrawing] at h
    have hread : readRecord .values v = .ok g := h
    dsimp only
    rw [readGraph, hread]
    rfl

end Call

section Host

variable [Host]

/-- Nodes that are compiled one after the other, each with the same edges. A compiled node is put
under the id of its node, and the issues about one that is refused are kept. -/
def compilePlainlyFrom (edges : List Edge) :
    Table Executable.Node → List Issue → List Editor.Node →
      FlowJob (Table Executable.Node × List Issue)
  | nodes, issues, [] => pure (nodes, issues)
  | nodes, issues, n :: rest => do
    match ← attempt edges n with
    | .ok entry => compilePlainlyFrom edges (nodes.put n.id entry.2) issues rest
    | .error found => compilePlainlyFrom edges nodes (issues ++ found) rest

/-- The nodes of a drawing, each of them compiled with all edges. -/
def compileNodesPlainly (g : Graph) : FlowJob (Table Executable.Node) := do
  let (nodes, issues) ← compilePlainlyFrom g.edges .empty [] g.nodes
  if issues.isEmpty then pure nodes
  else
    Job.record (.nodesRefused (issues.map (·.nodeId)).eraseDups.length)
    throw (.stopped .nodes issues)

theorem key_eq_of_attempt {n : Editor.Node} {entry : Text × Executable.Node}
    (h : ((attempt edges n).runFrom provider journal).1 = .ok (.ok entry)) : entry.1 = n.id := by
  have hattempted := attempted edges n provider journal
  rw [h] at hattempted
  cases hattempted with
  | compiled => rfl

/-- One step of the loop: what came of the attempt goes into the table or to the issues. -/
theorem runFrom_compilePlainlyFrom_cons {n : Editor.Node}
    {outcome : Except (List Issue) (Text × Executable.Node)} {middle : Journal}
    (hrun : (attempt edges n).runFrom provider journal = (.ok outcome, middle))
    (nodes : Table Executable.Node) (issues : List Issue) (rest : List Editor.Node) :
    (compilePlainlyFrom edges nodes issues (n :: rest)).runFrom provider journal =
      (compilePlainlyFrom edges
        ((compiledEntries [outcome]).foldl (fun t entry => t.put entry.1 entry.2) nodes)
        (issues ++ issuesOfOutcomes [outcome]) rest).runFrom provider middle := by
  rw [compilePlainlyFrom, Job.runFrom_bind, hrun]
  cases outcome with
  | ok entry =>
    have hkey : entry.1 = n.id := key_eq_of_attempt (congrArg Prod.fst hrun)
    simp [compiledEntries, issuesOfOutcomes, hkey]
  | error found => simp [compiledEntries, issuesOfOutcomes]

/-- The whole loop comes to what the attempts come to: the compiled nodes are put into the table in
order, and the issues are put together. -/
theorem runFrom_compilePlainlyFrom (edges : List Edge) (nodes : Table Executable.Node)
    (issues : List Issue) (items : List Editor.Node) (provider : Provider) (journal : Journal) :
    (compilePlainlyFrom edges nodes issues items).runFrom provider journal =
      match (items.mapM (attempt edges)).runFrom provider journal with
      | (.ok outcomes, later) =>
        (.ok ((compiledEntries outcomes).foldl (fun t entry => t.put entry.1 entry.2) nodes,
          issues ++ issuesOfOutcomes outcomes), later)
      | (.error failure, later) => (.error failure, later) := by
  induction items generalizing nodes issues journal with
  | nil => simp [compilePlainlyFrom, compiledEntries, issuesOfOutcomes]
  | cons n rest ih =>
    rw [List.mapM_cons, Job.runFrom_bind]
    cases hrun : (attempt edges n).runFrom provider journal with
    | mk outcome middle =>
      cases outcome with
      | error failure =>
        rw [compilePlainlyFrom, Job.runFrom_bind, hrun]
      | ok outcome =>
        dsimp only
        rw [runFrom_compilePlainlyFrom_cons hrun, ih, Job.runFrom_bind]
        cases (rest.mapM (attempt edges)).runFrom provider middle with
        | mk result later =>
          cases result with
          | error failure => rfl
          | ok outcomes =>
            have hentries : compiledEntries (outcome :: outcomes) =
                compiledEntries [outcome] ++ compiledEntries outcomes :=
              List.filterMap_append (l := [outcome])
            dsimp only
            rw [Job.runFrom_pure]
            dsimp only
            rw [hentries, List.foldl_append, issuesOfOutcomes_cons outcome outcomes,
              List.append_assoc]

theorem attempt_outgoing (g : Graph) (n : Editor.Node) :
    attempt (g.outgoing n.id) n = attempt g.edges n := by
  have hassemble : assemble (g.outgoing n.id) n = assemble g.edges n := by
    funext type config
    rw [assemble, transitionsOf_outgoing, assemble]
  have hnode : compileNode (g.outgoing n.id) n = compileNode g.edges n := by
    simp only [compileNode, compileKind, passThrough, hassemble]
  rw [attempt, hnode, attempt]

theorem runFrom_compileNodes_eq_plainly (g : Graph) (provider : Provider) (journal : Journal) :
    (compileNodes g).runFrom provider journal = (compileNodesPlainly g).runFrom provider journal := by
  rw [compileNodes, compileNodesPlainly, Job.runFrom_bind, Job.runFrom_bind,
    runFrom_compilePlainlyFrom]
  simp only [getD_edgesBySource, attempt_outgoing]
  cases (g.nodes.mapM (attempt g.edges)).runFrom provider journal with
  | mk result later =>
    cases result with
    | error failure => rfl
    | ok outcomes =>
      dsimp only
      rw [List.nil_append, Table.ofList]

theorem compileGraph_eq_of_sameBySource (hnodes : g.nodes = other.nodes)
    (hedges : SameBySource g.edges other.edges) (settings : Settings) (metadata : Metadata) :
    compileGraph settings g metadata = compileGraph settings other metadata := by
  have hlength := hedges.perm.length_eq
  have houtgoing : g.outgoing = other.outgoing := funext hedges
  have hcompiled : compileNodes g = compileNodes other := by
    simp only [compileNodes, getD_edgesBySource, houtgoing, hnodes]
  -- apart from the compiled nodes and the number of edges, only the nodes of a drawing are looked at
  obtain ⟨nodes, edges, viewport⟩ := g
  obtain ⟨nodes', edges', viewport'⟩ := other
  obtain rfl : nodes = nodes' := hnodes
  rw [compileGraph, compileGraph, hcompiled]
  simp only [hlength]
  rfl

/-- Grouping the edges changes nothing about the pass over the nodes: neither what it comes to nor
which ids it takes and what it records. So drawings with the same nodes, of which the edges are
interleaved in different ways, are compiled to the same and reported on alike. -/
theorem grouping_agrees :
    (∀ (g : Graph) (provider : Provider) (journal : Journal),
      (compileNodes g).runFrom provider journal =
        (compileNodesPlainly g).runFrom provider journal) ∧
    ∀ (c d : Call) (g h : Graph), Call.Gives c.drawing g → Call.Gives d.drawing h →
      c.settings = d.settings → c.metadata = d.metadata →
      g.nodes = h.nodes → SameBySource g.edges h.edges →
      ∀ (provider : Provider) (journal : Journal),
        c.compile.runFrom provider journal = d.compile.runFrom provider journal ∧
        (reportOn c.settings c.compile).runFrom provider journal =
          (reportOn d.settings d.compile).runFrom provider journal := by
  refine ⟨runFrom_compileNodes_eq_plainly, ?_⟩
  intro c d g h hc hd hsettings hmetadata hnodes hedges provider journal
  have hdata : c.readData = d.readData := by
    rw [Call.readData, hmetadata, Call.readData]
  have hcompile : c.compile = d.compile := by
    simp only [Call.compile, Call.coerce, Call.readDrawing_of_gives hc,
      Call.readDrawing_of_gives hd, pure_bind, bind_assoc, hdata, hsettings,
      compileGraph_eq_of_sameBySource hnodes hedges]
  rw [hcompile, hsettings]
  exact ⟨rfl, rfl⟩

end Host

/-- The sample drawing with its edges drawn in another order. -/
def interleavedDrawing : Graph :=
  { sampleDrawing with
    edges :=
      [⟨"e6", "nobody", "nowhere", none, none, none⟩,
        ⟨"e4", "pause", "end", none, none, none⟩,
        ⟨"e1", "start", "greeting", none, none, none⟩,
        ⟨"e5", "idle", "idle", none, none, none⟩,
        ⟨"e3", "greeting", "pause", none, none, none⟩,
        ⟨"e2", "start", "greeting", some "yes", none, none⟩] }

attribute [local instance] sampleHost

theorem grouping_agrees_interleavedDrawing :
    sampleDrawing.edges ≠ interleavedDrawing.edges ∧
    SameBySource sampleDrawing.edges interleavedDrawing.edges ∧
    ∃ flow later, (compileGraph sampleSettings sampleDrawing sampleMetadata).runFrom sampleProvider
        .empty = (.ok flow, later) ∧
      (compileGraph sampleSettings interleavedDrawing sampleMetadata).runFrom sampleProvider
        .empty = (.ok flow, later) := by
  have hedges : SameBySource sampleDrawing.edges interleavedDrawing.edges := by
    decide +kernel
  obtain ⟨flow, hflow⟩ := exists_compileGraph_sampleDrawing
  obtain ⟨hcompile, -⟩ := grouping_agrees.2
    ⟨sampleSettings, .record sampleDrawing, .record sampleMetadata⟩
    ⟨sampleSettings, .record interleavedDrawing, .record sampleMetadata⟩
    sampleDrawing interleavedDrawing rfl rfl rfl rfl rfl hedges sampleProvider .empty
  rw [Call.compile_records, Call.compile_records] at hcompile
  refine ⟨by decide +kernel, hedges, ?_⟩
  rw [← hcompile]
  cases hrun : (compileGraph sampleSettings sampleDrawing sampleMetadata).runFrom sampleProvider
    .empty with
  | mk outcome later =>
    rw [hrun] at hflow
    subst hflow
    exact ⟨flow, later, rfl, rfl⟩

end ConversationFlow.Compile
