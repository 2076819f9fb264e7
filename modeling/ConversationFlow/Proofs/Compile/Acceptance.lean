import ConversationFlow.Proofs.Compile.Flow

/-!
# When a drawing compiles

The three gates of a compilation, said of the drawing: it is well drawn, its nodes compile, and its
edges lead from its start node to nodes only and never in a circle.
-/

namespace ConversationFlow.Compile

open Schema Executable
open Editor (Graph)

namespace Outcome

variable {settings : Settings} {g : Graph} {result : Except Failure Flow}

variable [Host]

/-- The first gate stops every drawing that is not well drawn. -/
theorem exists_of_not_drawn (h : Outcome settings g result)
    (hdrawn : ¬g.IsWellDrawn settings.passthroughNodeTypes) :
    ∃ issues, result = .error (.stopped .drawing issues) := by
  cases h with
  | notDrawn => exact ⟨_, rfl⟩
  | notCompiled h | ended _ h | notRunnable h | returned h => exact absurd h hdrawn

/-- The second gate stops every other drawing with a node that does not compile, unless the compilation
came to its end there. -/
theorem exists_of_not_compile (h : Outcome settings g result) (hfails : NodesFailAsRecords g)
    (hdrawn : g.IsWellDrawn settings.passthroughNodeTypes) (hcompile : ¬NodesCompile g) :
    ∃ issues, result = .error (.stopped .nodes issues) := by
  cases h with
  | notDrawn h => exact absurd hdrawn h
  | notCompiled => exact ⟨_, rfl⟩
  | ended h => exact absurd hfails h
  | notRunnable _ h | returned _ h => exact absurd h hcompile

/-- The last gate has the flow of a drawing whose nodes compile, and lets it through exactly if its edges
lead to nodes only and never in a circle. -/
theorem exists_of_compile (h : Outcome settings g result)
    (hdrawn : g.IsWellDrawn settings.passthroughNodeTypes) (hcompile : NodesCompile g) :
    ∃ flow, IsFlowOf g flow ∧
      ((g.IsAcyclic ∧ g.IsClosed ∧ result = .ok flow) ∨
        ¬(g.IsAcyclic ∧ g.IsClosed) ∧ result = .error (.stopped .flow flow.errors)) := by
  cases h with
  | notDrawn h => exact absurd hdrawn h
  | notCompiled _ h => exact absurd hcompile h
  | ended h => exact absurd (fun n hn => (hcompile n hn).failsAsRecord) h
  | notRunnable _ _ hflow hrunnable =>
    rw [hflow.isRunnable_iff] at hrunnable
    exact ⟨_, hflow, .inr ⟨hrunnable, rfl⟩⟩
  | returned _ _ hflow hrunnable =>
    obtain ⟨hacyclic, hclosed⟩ := hflow.isRunnable_iff.1 hrunnable
    exact ⟨_, hflow, .inl ⟨hacyclic, hclosed, rfl⟩⟩

/-- A flow comes only from a drawing in which no gate finds anything. -/
theorem of_ok {flow : Flow} (h : Outcome settings g (.ok flow)) :
    g.IsWellDrawn settings.passthroughNodeTypes ∧ NodesCompile g ∧ g.IsAcyclic ∧ g.IsClosed := by
  cases h with
  | returned hdrawn hcompile hflow hrunnable =>
    exact ⟨hdrawn, hcompile, hflow.isRunnable_iff.1 hrunnable⟩

end Outcome

/-- A drawing compiles exactly if it is well drawn, all its nodes compile, no cycle of edges can be
reached from its start node and every edge that leaves a node leads to a node. Else the first of the
three gates at which something is wrong stops it. The entry is never what the last gate finds, and its
codes tell cycles from edges that lead nowhere. -/
theorem compileGraph_acceptance [Host] (settings : Settings) (g : Graph) (metadata : Metadata)
    (provider : Provider) (journal : Journal) (hfails : NodesFailAsRecords g) :
    let outcome := ((compileGraph settings g metadata).runFrom provider journal).1
    let drawn := g.IsWellDrawn settings.passthroughNodeTypes
    ((∃ flow, outcome = .ok flow) ↔ drawn ∧ NodesCompile g ∧ g.IsAcyclic ∧ g.IsClosed) ∧
    (¬drawn → ∃ issues, outcome = .error (.stopped .drawing issues)) ∧
    (drawn → ¬NodesCompile g → ∃ issues, outcome = .error (.stopped .nodes issues)) ∧
    (drawn → NodesCompile g → ¬(g.IsAcyclic ∧ g.IsClosed) →
      ∃ issues, outcome = .error (.stopped .flow issues) ∧
        (∀ issue ∈ issues, issue.code ≠ .invalidEntryNode) ∧
        ((∃ issue ∈ issues, issue.code = .infiniteLoop) ↔ ¬g.IsAcyclic) ∧
        ((∃ issue ∈ issues, issue.code = .invalidTransition) ↔ ¬g.IsClosed)) := by
  intro outcome drawn
  have houtcome : Outcome settings g outcome :=
    Compile.outcome settings g metadata provider journal
  clear_value outcome
  refine ⟨⟨?_, ?_⟩, houtcome.exists_of_not_drawn, houtcome.exists_of_not_compile hfails, ?_⟩
  · rintro ⟨flow, rfl⟩
    exact houtcome.of_ok
  · rintro ⟨hdrawn, hcompile, hrunnable⟩
    obtain ⟨flow, -, ⟨-, -, hflow⟩ | ⟨hstopped, -⟩⟩ := houtcome.exists_of_compile hdrawn hcompile
    · exact ⟨flow, hflow⟩
    · exact absurd hrunnable hstopped
  · intro hdrawn hcompile hrunnable
    obtain ⟨flow, hflow, ⟨hacyclic, hclosed, -⟩ | ⟨-, hstopped⟩⟩ :=
      houtcome.exists_of_compile hdrawn hcompile
    · exact absurd ⟨hacyclic, hclosed⟩ hrunnable
    -- the checks of the flow say of its transitions what the drawing says of its edges
    refine ⟨flow.errors, hstopped, ?_, ?_, ?_⟩
    · intro issue hissue hcode
      exact Flow.exists_invalidEntryNode_iff.1 ⟨issue, hissue, hcode⟩ hflow.hasStart
    · rw [Flow.exists_infiniteLoop_iff, hflow.acyclicFrom_iff]
    · rw [Flow.exists_invalidTransition_iff, hflow.isClosed_iff]

/-! ### A drawing that compiles -/

def sampleTime : Timestamp :=
  ⟨⟨2024, 1, 1, by decide⟩, ⟨0, 0, 0, 0, some 0⟩, by decide⟩

abbrev sampleHost : Host where
  room _ := 900

def sampleProvider : Provider :=
  ⟨fun n => String.ofList (List.replicate n 'i'), sampleTime⟩

def sampleMetadata : Metadata :=
  ⟨none, none, sampleTime, sampleTime, none, "system", .draft, [], none⟩

def sampleSettings : Settings :=
  { Settings.plain with passthroughNodeTypes := ["custom"] }

/-- Data with null at every depth, and with a number of each kind. -/
def sampleData : Table Json :=
  ⟨[("note", .null),
    ("levels", .arr [.null, .int 3, .float (.ofDecimal true 25 (-1)), .obj [("last", .null)]])],
    by decide⟩

/-- A drawing with two edges between the same nodes, with a cycle that cannot be reached and with an
edge that leaves no node. -/
def sampleDrawing : Graph where
  nodes :=
    [⟨"start", "start", .empty⟩,
      ⟨"greeting", "message", ⟨[("text", .str "Hello")], by decide⟩⟩,
      ⟨"pause", "delay", ⟨[("delay", .str "5 minutes")], by decide⟩⟩,
      ⟨"end", "end", .empty⟩,
      ⟨"idle", "custom", sampleData⟩]
  edges :=
    [⟨"e1", "start", "greeting", none, none, none⟩,
      ⟨"e2", "start", "greeting", some "yes", none, none⟩,
      ⟨"e3", "greeting", "pause", none, none, none⟩,
      ⟨"e4", "pause", "end", none, none, none⟩,
      ⟨"e5", "idle", "idle", none, none, none⟩,
      ⟨"e6", "nobody", "nowhere", none, none, none⟩]
  viewport := none

attribute [local instance] sampleHost

theorem nodesCompile_sampleDrawing : NodesCompile sampleDrawing := by
  have hok : ∀ n ∈ sampleDrawing.nodes, ∃ node, ((compileNode (sampleDrawing.outgoing n.id)
      n).runFrom sampleProvider .empty).1 = .ok node := by
    decide +kernel
  intro n hn
  obtain ⟨node, hnode⟩ := hok n hn
  exact IsCompiled.compiles ⟨sampleProvider, .empty, hnode⟩

theorem exists_compileGraph_sampleDrawing :
    ∃ flow, ((compileGraph sampleSettings sampleDrawing sampleMetadata).runFrom sampleProvider
      .empty).1 = .ok flow := by
  decide +kernel

theorem isAcyclic_sampleDrawing : sampleDrawing.IsAcyclic := by
  have horder : IsTopological sampleDrawing.Arrow ["start", "greeting", "pause", "end"] := by
    simp [IsTopological, Graph.Arrow, sampleDrawing]
  intro n hn
  obtain rfl : n = ⟨"start", "start", .empty⟩ := by
    simpa [Graph.startNodes, sampleDrawing] using hn
  exact horder.acyclicFrom (by simp)

theorem compileGraph_acceptance_sampleDrawing :
    NodesFailAsRecords sampleDrawing ∧
      ∃ flow, ((compileGraph sampleSettings sampleDrawing sampleMetadata).runFrom
        sampleProvider .empty).1 = .ok flow := by
  have hfails : NodesFailAsRecords sampleDrawing :=
    fun n hn => (nodesCompile_sampleDrawing n hn).failsAsRecord
  have hdrawn : sampleDrawing.IsWellDrawn sampleSettings.passthroughNodeTypes :=
    Graph.valid_check_iff.1 (by decide +kernel)
  have hclosed : sampleDrawing.IsClosed := by
    simp [Graph.IsClosed, sampleDrawing]
  exact ⟨hfails, (compileGraph_acceptance sampleSettings sampleDrawing sampleMetadata sampleProvider
    .empty hfails).1.2 ⟨hdrawn, nodesCompile_sampleDrawing, isAcyclic_sampleDrawing, hclosed⟩⟩

end ConversationFlow.Compile
