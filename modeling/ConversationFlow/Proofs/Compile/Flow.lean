import ConversationFlow.Proofs.Check.Drawing
import ConversationFlow.Proofs.Check.Flow
import ConversationFlow.Proofs.Compile.Nodes

/-!
# What a drawing compiles to

Whether a drawing compiles is decided by the drawing alone: its edges are the transitions of the flow,
so the check of the flow says of the drawing that no cycle can be reached from its start node and that
every edge of a node leads to a node.
-/

namespace ConversationFlow

open Editor (Graph)
open Executable (Flow)

namespace Editor.Graph

variable {g : Graph}

/-- An edge leads from a node of the drawing to an id. -/
def Arrow (g : Graph) (a b : Text) : Prop :=
  (∃ n ∈ g.nodes, n.id = a) ∧ ∃ e ∈ g.edges, e.source = a ∧ e.target = b

/-- No cycle of edges can be reached from a start node. -/
def IsAcyclic (g : Graph) : Prop :=
  ∀ n ∈ g.startNodes, AcyclicFrom g.Arrow n.id

def IsClosed (g : Graph) : Prop :=
  ∀ e ∈ g.edges, (∃ n ∈ g.nodes, n.id = e.source) → ∃ n ∈ g.nodes, n.id = e.target

end Editor.Graph

namespace Compile

open Schema Executable

variable {g : Graph} {provider : Provider} {journal : Journal}

/-- A flow is let through exactly if a conversation can be had with it. -/
theorem runFrom_admitFlow (settings : Settings) (flow : Flow) (provider : Provider)
    (journal : Journal) :
    (flow.IsRunnable ∧ ((admitFlow settings flow).runFrom provider journal).1 = .ok flow) ∨
      ¬flow.IsRunnable ∧ ((admitFlow settings flow).runFrom provider journal).1 =
        .error (.stopped .flow flow.errors) := by
  have hvalid : (flow.check settings.warnUnreachableNodes).valid = true ↔ flow.IsRunnable :=
    Flow.valid_check_iff
  rw [admitFlow]
  split
  · next hreport =>
    refine .inl ⟨hvalid.1 hreport, ?_⟩
    rw [Job.runFrom_bind]
    obtain ⟨later, hwarned⟩ := Job.exists_runFrom_forM_record Failure
      (fun issue => .warned flow.name issue) (flow.check settings.warnUnreachableNodes).warnings
      provider journal
    rw [hwarned]
    rfl
  · next hreport => exact .inr ⟨fun hrunnable => hreport (hvalid.2 hrunnable), rfl⟩

variable [Host]

def NodesCompile (g : Graph) : Prop :=
  ∀ n ∈ g.nodes, Compiles (g.outgoing n.id) n

/-- A node of a drawing that does not compile is refused as a record. -/
def NodesFailAsRecords (g : Graph) : Prop :=
  ∀ n ∈ g.nodes, FailsAsRecord (g.outgoing n.id) n

namespace Mirrors

variable {nodes : Table Executable.Node}

theorem exists_entry (h : Mirrors g nodes) {n : Editor.Node} (hn : n ∈ g.nodes) :
    ∃ node, (n.id, node) ∈ nodes.entries ∧ IsCompiled (g.outgoing n.id) n node := by
  obtain ⟨⟨key, node⟩, hmem, rfl, hcompiled⟩ := exists_right_of_forall₂ h hn
  exact ⟨node, hmem, hcompiled⟩

theorem exists_origin (h : Mirrors g nodes) {key : Text} {node : Executable.Node}
    (hmem : (key, node) ∈ nodes.entries) :
    ∃ n ∈ g.nodes, n.id = key ∧ IsCompiled (g.outgoing n.id) n node := by
  obtain ⟨n, hn, hkey, hcompiled⟩ := exists_left_of_forall₂ h hmem
  exact ⟨n, hn, hkey.symm, hcompiled⟩

/-- The keys are the ids of the nodes, in order. -/
theorem keys_eq (h : Mirrors g nodes) : nodes.keys = g.nodes.map (·.id) :=
  (map_eq_map_of_forall₂ h fun _ _ hentry => hentry.1.symm).symm

theorem mem_keys_iff (h : Mirrors g nodes) {id : Text} :
    id ∈ nodes.keys ↔ ∃ n ∈ g.nodes, n.id = id := by
  rw [h.keys_eq, List.mem_map]

/-- The start nodes among the compiled nodes are the compiled forms of the start nodes. -/
theorem starts (h : Mirrors g nodes) :
    List.Forall₂ (fun n node => IsCompiled (g.outgoing n.id) n node) g.startNodes
      (nodes.values.filter (·.isStart)) := by
  have hnodes : List.Forall₂ (fun n node => IsCompiled (g.outgoing n.id) n node) g.nodes
      nodes.values := by
    rw [Table.values, List.forall₂_map_right_iff]
    exact h.imp fun _ _ hentry => hentry.2
  refine List.rel_filter (fun n node hnode => ?_) hnodes
  exact decide_eq_true_iff.trans hnode.isStart_iff.symm

/-- The compiled form of the only start node is the only start node among the compiled nodes, so the
search for a start node ends at it. -/
theorem exists_startOf? (h : Mirrors g nodes) {start : Editor.Node}
    (hstart : g.startNodes = [start]) :
    ∃ entry, nodes.values.filter (·.isStart) = [entry] ∧ startOf? nodes = some entry ∧
      IsCompiled (g.outgoing start.id) start entry := by
  have hstarts := h.starts
  rw [hstart] at hstarts
  obtain ⟨entry, rest, hcompiled, hrest, hentries⟩ := List.forall₂_cons_left_iff.1 hstarts
  rw [List.forall₂_nil_left_iff] at hrest
  subst hrest
  refine ⟨entry, hentries, ?_, hcompiled⟩
  rw [startOf?, ← List.head?_filter, hentries, List.head?_cons]

end Mirrors

/-- A flow that was put together from a drawing: it has the compiled forms of all nodes, its entry is
the start node, and it has no variables. -/
structure IsFlowOf (g : Graph) (flow : Flow) : Prop where
  nodes : Mirrors g flow.nodes
  entry : ∀ n ∈ g.startNodes, flow.entryNodeId = n.id
  start : g.startNodes ≠ []
  definitions : flow.config.definitions = []

namespace IsFlowOf

variable {flow : Flow}

theorem hasStart (h : IsFlowOf g flow) : flow.HasStart := by
  obtain ⟨n, hstart⟩ := List.exists_mem_of_ne_nil _ h.start
  obtain ⟨hn, htype⟩ := List.mem_filter.1 hstart
  obtain ⟨node, hmem, hcompiled⟩ := h.nodes.exists_entry hn
  refine ⟨node, ?_, hcompiled.isStart_iff.2 (of_decide_eq_true htype)⟩
  rw [h.entry n hstart]
  exact Table.get?_eq_some_iff.2 hmem

/-- The transitions of the flow are the edges of the drawing that leave a node. -/
theorem follows_iff (h : IsFlowOf g flow) {a b : Text} : flow.Follows a b ↔ g.Arrow a b := by
  rw [Flow.follows_iff, Graph.Arrow]
  constructor
  · rintro ⟨node, hmem, htarget⟩
    obtain ⟨n, hn, rfl, hcompiled⟩ := h.nodes.exists_origin hmem
    obtain ⟨e, he, hsource, htarget⟩ := hcompiled.mem_targets_iff.1 htarget
    exact ⟨⟨n, hn, rfl⟩, e, (List.mem_filter.1 he).1, hsource, htarget⟩
  · rintro ⟨⟨n, hn, rfl⟩, e, he, hsource, htarget⟩
    obtain ⟨node, hmem, hcompiled⟩ := h.nodes.exists_entry hn
    refine ⟨node, hmem, hcompiled.mem_targets_iff.2 ⟨e, ?_, hsource, htarget⟩⟩
    exact List.mem_filter.2 ⟨he, decide_eq_true hsource⟩

theorem acyclicFrom_iff (h : IsFlowOf g flow) :
    AcyclicFrom flow.Follows flow.entryNodeId ↔ g.IsAcyclic := by
  have hfollows : flow.Follows = g.Arrow := by
    funext a b
    exact propext h.follows_iff
  rw [hfollows]
  constructor
  · intro hacyclic n hn
    rw [← h.entry n hn]
    exact hacyclic
  · intro hacyclic
    obtain ⟨n, hn⟩ := List.exists_mem_of_ne_nil _ h.start
    rw [h.entry n hn]
    exact hacyclic n hn

theorem isClosed_iff (h : IsFlowOf g flow) : flow.IsClosed ↔ g.IsClosed := by
  simp only [Flow.IsClosed, Graph.IsClosed, h.follows_iff, h.nodes.mem_keys_iff, Graph.Arrow]
  constructor
  · exact fun hclosed e he hsource => hclosed e.source e.target ⟨hsource, e, he, rfl, rfl⟩
  · rintro hclosed a b ⟨ha, e, he, rfl, rfl⟩
    exact hclosed e he ha

theorem isRunnable_iff (h : IsFlowOf g flow) : flow.IsRunnable ↔ g.IsAcyclic ∧ g.IsClosed := by
  rw [← h.acyclicFrom_iff, ← h.isClosed_iff]
  exact ⟨fun hrun => ⟨hrun.acyclic, hrun.closed⟩, fun ⟨hacyclic, hclosed⟩ =>
    ⟨h.hasStart, hacyclic, hclosed⟩⟩

end IsFlowOf

/-- What compiling a drawing comes to. -/
inductive Outcome (settings : Settings) (g : Graph) : Except Failure Flow → Prop
  | notDrawn {issues : List Issue} (hdrawn : ¬g.IsWellDrawn settings.passthroughNodeTypes)
    (hissues : issues ≠ []) : Outcome settings g (.error (.stopped .drawing issues))
  | notCompiled {issues : List Issue} (hdrawn : g.IsWellDrawn settings.passthroughNodeTypes)
    (hcompile : ¬NodesCompile g) (hissues : issues ≠ []) (hfails : NodesFailAsRecords g)
    (hreports : Reports g issues) : Outcome settings g (.error (.stopped .nodes issues))
  | ended {obstacle : Obstacle} (hfails : ¬NodesFailAsRecords g)
    (hdrawn : g.IsWellDrawn settings.passthroughNodeTypes) :
    Outcome settings g (.error (.refused (.obstructed obstacle)))
  | notRunnable {flow : Flow} (hdrawn : g.IsWellDrawn settings.passthroughNodeTypes)
    (hcompile : NodesCompile g) (hflow : IsFlowOf g flow) (hrunnable : ¬flow.IsRunnable) :
    Outcome settings g (.error (.stopped .flow flow.errors))
  | returned {flow : Flow} (hdrawn : g.IsWellDrawn settings.passthroughNodeTypes)
    (hcompile : NodesCompile g) (hflow : IsFlowOf g flow) (hrunnable : flow.IsRunnable) :
    Outcome settings g (.ok flow)

/-- The journal once a compilation has begun. -/
def announced (g : Graph) (metadata : Metadata) (journal : Journal) : Journal :=
  ⟨journal.issued,
    journal.events ++ [.compiling (flowName metadata) g.nodes.length g.edges.length]⟩

section Stages

variable {settings : Settings} {metadata : Metadata}

/-- A drawing that is not well drawn ends the compilation before anything else is done. -/
theorem runFrom_compileGraph_of_not_wellDrawn (h : ¬g.IsWellDrawn settings.passthroughNodeTypes) :
    let errors := (g.check settings.passthroughNodeTypes).errors
    (compileGraph settings g metadata).runFrom provider journal =
      (.error (.stopped .drawing errors),
        ⟨journal.issued, (announced g metadata journal).events ++ [.drawingRefused errors]⟩) := by
  have hreport : ¬(g.check settings.passthroughNodeTypes).valid = true :=
    fun hvalid => h (Graph.valid_check_iff.1 hvalid)
  rw [compileGraph, Job.runFrom_bind, Job.runFrom_record]
  dsimp only
  rw [if_neg hreport]
  rfl

/-- If the nodes of a drawing do not compile, nothing is done after them. -/
theorem runFrom_compileGraph_of_error (h : g.IsWellDrawn settings.passthroughNodeTypes)
    {failure : Failure}
    (hnodes : ((compileNodes g).runFrom provider (announced g metadata journal)).1 =
      .error failure) :
    (compileGraph settings g metadata).runFrom provider journal =
      (.error failure, ((compileNodes g).runFrom provider (announced g metadata journal)).2) := by
  rw [compileGraph, Job.runFrom_bind, Job.runFrom_record]
  dsimp only
  rw [if_pos (Graph.valid_check_iff.2 h), Job.runFrom_bind, ← announced]
  cases hrun : (compileNodes g).runFrom provider (announced g metadata journal) with
  | mk outcome later =>
    rw [hrun] at hnodes
    subst hnodes
    rfl

/-- If they do, the start node is found among them, and the flow that they are put together to goes to
the last gate. -/
theorem runFrom_compileGraph_of_ok (h : g.IsWellDrawn settings.passthroughNodeTypes)
    {nodes : Table Executable.Node} {later : Journal}
    (hnodes : (compileNodes g).runFrom provider (announced g metadata journal) =
      (.ok nodes, later)) :
    ∃ entry, startOf? nodes = some entry ∧
      IsFlowOf g (flowFrom settings metadata nodes entry (provider.mint later.issued)) ∧
      (compileGraph settings g metadata).runFrom provider journal =
        (admitFlow settings
          (flowFrom settings metadata nodes entry (provider.mint later.issued))).runFrom provider
            ⟨later.issued + 1, later.events⟩ := by
  have hmirrors : Mirrors g nodes := by
    have houtcome := nodesOutcome h.ids provider (announced g metadata journal)
    rw [hnodes] at houtcome
    cases houtcome with
    | compiled _ hmirrors => exact hmirrors
  obtain ⟨start, hstart⟩ := h.start
  obtain ⟨entry, -, hentry, hcompiled⟩ := hmirrors.exists_startOf? hstart
  refine ⟨entry, hentry, ⟨hmirrors, fun n hn => ?_, by simp [hstart], rfl⟩, ?_⟩
  · rw [hstart, List.mem_singleton] at hn
    rw [hn, ← hcompiled.id_eq]
    rfl
  · rw [compileGraph, Job.runFrom_bind, Job.runFrom_record]
    dsimp only
    rw [if_pos (Graph.valid_check_iff.2 h), Job.runFrom_bind, ← announced, hnodes]
    dsimp only
    rw [hentry]
    rfl

end Stages

theorem outcome (settings : Settings) (g : Graph) (metadata : Metadata) (provider : Provider)
    (journal : Journal) :
    Outcome settings g ((compileGraph settings g metadata).runFrom provider journal).1 := by
  by_cases hdrawn : g.IsWellDrawn settings.passthroughNodeTypes
  · have hnodes := nodesOutcome hdrawn.ids provider (announced g metadata journal)
    cases hrun : (compileNodes g).runFrom provider (announced g metadata journal) with
    | mk result later =>
      rw [hrun] at hnodes
      cases hnodes with
      | stopped hrefused hissues hfails hreports =>
        rw [runFrom_compileGraph_of_error hdrawn (congrArg Prod.fst hrun)]
        exact .notCompiled hdrawn hrefused hissues hfails hreports
      | ended hfails =>
        rw [runFrom_compileGraph_of_error hdrawn (congrArg Prod.fst hrun)]
        exact .ended hfails hdrawn
      | compiled hcompiles _ =>
        obtain ⟨entry, -, hof, hflow⟩ := runFrom_compileGraph_of_ok hdrawn hrun
        rw [hflow]
        rcases runFrom_admitFlow settings _ provider ⟨later.issued + 1, later.events⟩ with
          ⟨hrunnable, hpassed⟩ | ⟨hrunnable, hstopped⟩
        · rw [hpassed]
          exact .returned hdrawn hcompiles hof hrunnable
        · rw [hstopped]
          exact .notRunnable hdrawn hcompiles hof hrunnable
  · rw [runFrom_compileGraph_of_not_wellDrawn hdrawn]
    refine .notDrawn hdrawn fun hissues => hdrawn (Graph.valid_check_iff.1 ?_)
    exact List.isEmpty_iff.2 hissues

theorem isFlowOf_of_compileGraph {settings : Settings} {metadata : Metadata} {flow : Flow}
    (h : ((compileGraph settings g metadata).runFrom provider journal).1 = .ok flow) :
    g.IsWellDrawn settings.passthroughNodeTypes ∧ IsFlowOf g flow ∧ flow.IsRunnable := by
  have houtcome := outcome settings g metadata provider journal
  rw [h] at houtcome
  cases houtcome with
  | returned hdrawn _ hflow hrunnable => exact ⟨hdrawn, hflow, hrunnable⟩

/-- The metadata of a flow are those that it was compiled with. -/
theorem metadata_of_compileGraph {settings : Settings} {metadata : Metadata} {flow : Flow}
    (h : ((compileGraph settings g metadata).runFrom provider journal).1 = .ok flow) :
    flow.metadata = metadata := by
  have hdrawn := (isFlowOf_of_compileGraph h).1
  cases hrun : (compileNodes g).runFrom provider (announced g metadata journal) with
  | mk result later =>
    cases result with
    | error failure =>
      rw [runFrom_compileGraph_of_error hdrawn (congrArg Prod.fst hrun)] at h
      cases h
    | ok nodes =>
      obtain ⟨entry, -, -, hflow⟩ := runFrom_compileGraph_of_ok hdrawn hrun
      rw [hflow] at h
      rcases runFrom_admitFlow settings _ provider ⟨later.issued + 1, later.events⟩ with
        ⟨-, hpassed⟩ | ⟨-, hstopped⟩
      · rw [hpassed] at h
        exact congrArg Flow.metadata (Except.ok.inj h).symm
      · rw [hstopped] at h
        cases h

end Compile

end ConversationFlow
