import ConversationFlow.Exchange
import ConversationFlow.Proofs.Compile.Acceptance

/-!
# Flows that are handed out

A flow is handed out by a compilation or by an import. Both let it through only if its check finds no
error, so a conversation can be had with every flow that is handed out.
-/

namespace ConversationFlow

open Compile
open Editor (Graph)
open Executable (Flow)
open Text (Symbol)

variable {settings : Settings} {flow : Flow} {provider : Provider} {journal : Journal}

theorem readRecord_of_readGraph {v : Json} {g : Graph}
    (h : ((readGraph v).runFrom provider journal).1 = .ok g) : readRecord .values v = .ok g := by
  rw [readGraph, Job.runFrom_of] at h
  cases hrecord : (readRecord .values v : Except Fault Graph) with
  | ok other => simpa [hrecord, Except.mapError] using h
  | error fault => simp [hrecord, Except.mapError] at h

/-- A flow that was read is let through exactly if a conversation can be had with it. -/
theorem runFrom_admitImport (settings : Settings) (flow : Flow) (provider : Provider)
    (journal : Journal) :
    (flow.IsRunnable ∧ (admitImport settings flow).runFrom provider journal = (.ok flow, journal)) ∨
      ¬flow.IsRunnable ∧ ((admitImport settings flow).runFrom provider journal).1 =
        .error (.stopped .importedFlow flow.errors) := by
  have hvalid : (flow.check settings.warnUnreachableNodes).valid = true ↔ flow.IsRunnable :=
    Flow.valid_check_iff
  rw [admitImport]
  split
  · next hreport => exact .inl ⟨hvalid.1 hreport, rfl⟩
  · next hreport => exact .inr ⟨fun hrunnable => hreport (hvalid.2 hrunnable), rfl⟩

/-- What comes out of an import was read from the text and can be run. -/
theorem readFlow_of_importFlow {s : List Symbol}
    (h : ((importFlow settings s).runFrom provider journal).1 = .ok flow) :
    readFlow s = .ok flow ∧ flow.IsRunnable := by
  rw [importFlow] at h
  split at h
  · next other hread =>
    rcases runFrom_admitImport settings other provider journal with
      ⟨hrunnable, hpassed⟩ | ⟨-, hstopped⟩
    · rw [hpassed, Except.ok.injEq] at h
      exact ⟨h ▸ hread, h ▸ hrunnable⟩
    · rw [hstopped] at h
      cases h
  · cases h
  · cases h

section Host

variable [Host]

/-- A flow is what a compilation or an import came to: of a drawing, of documents that hold one, or of
a text. -/
inductive Returned (settings : Settings) (flow : Flow) : Prop
  | drawing (g : Graph) (metadata : Metadata) (provider : Provider) (journal : Journal)
    (h : ((compileGraph settings g metadata).runFrom provider journal).1 = .ok flow)
  | documents (drawing metadata : Json) (provider : Provider) (journal : Journal)
    (h : ((compile settings drawing metadata).runFrom provider journal).1 = .ok flow)
  | text (s : List Symbol) (provider : Provider) (journal : Journal)
    (h : ((importFlow settings s).runFrom provider journal).1 = .ok flow)

theorem isRunnable_of_compileGraph {g : Graph} {metadata : Metadata}
    (h : ((compileGraph settings g metadata).runFrom provider journal).1 = .ok flow) :
    flow.IsRunnable :=
  (isFlowOf_of_compileGraph h).2.2

/-- Compiling documents is compiling the drawing and the metadata that they hold. -/
theorem exists_compileGraph_of_compile {drawing metadata : Json}
    (h : ((compile settings drawing metadata).runFrom provider journal).1 = .ok flow) :
    ∃ g data middle later, readRecord .values drawing = .ok g ∧
      ((readMetadata metadata).runFrom provider middle).1 = .ok data ∧
      ((compileGraph settings g data).runFrom provider later).1 = .ok flow := by
  rw [compile] at h
  obtain ⟨g, middle, hread, hrest⟩ := Job.exists_of_bind_eq_ok h
  obtain ⟨data, later, hdata, hcompiled⟩ := Job.exists_of_bind_eq_ok hrest
  exact ⟨g, data, middle, later, readRecord_of_readGraph (by rw [hread]), by rw [hdata],
    hcompiled⟩

theorem Returned.isRunnable (h : Returned settings flow) : flow.IsRunnable := by
  cases h with
  | drawing g metadata provider journal h => exact isRunnable_of_compileGraph h
  | documents drawing metadata provider journal h =>
    obtain ⟨g, data, -, later, -, -, hcompiled⟩ := exists_compileGraph_of_compile h
    exact isRunnable_of_compileGraph hcompiled
  | text s provider journal h => exact (readFlow_of_importFlow h).2

/-- Every walk through a flow that is handed out stays among its nodes and never comes to one of them
again, so it ends; and the entry is a start node. -/
theorem walk_of_returned (h : Returned settings flow) :
    (∃ n, flow.getNode? flow.entryNodeId = some n ∧ n.type = "start") ∧
    ∀ walk, flow.IsWalk walk →
      walk ⊆ flow.nodes.keys ∧ walk.Nodup ∧ walk.length ≤ flow.nodes.size := by
  have hrunnable := h.isRunnable
  refine ⟨?_, fun walk hwalk => hrunnable.walk hwalk⟩
  obtain ⟨n, hentry, hstart⟩ := hrunnable.start
  refine ⟨n, hentry, ?_⟩
  have htype : Executable.NodeType.ofName? n.type = some .start := of_decide_eq_true hstart
  exact (Schema.Choice.ofName?_eq_some_iff.1 htype).symm

end Host

attribute [local instance] sampleHost

/-- The longest walk through the flow of the sample drawing. -/
theorem walk_of_returned_sampleDrawing :
    ∃ flow walk, Returned sampleSettings flow ∧ flow.IsWalk walk ∧
      walk = ["start", "greeting", "pause", "end"] ∧
      walk ⊆ flow.nodes.keys ∧ walk.Nodup ∧ walk.length ≤ flow.nodes.size := by
  obtain ⟨flow, hflow, hwalk⟩ : ∃ flow, ((compileGraph sampleSettings sampleDrawing
      sampleMetadata).runFrom sampleProvider .empty).1 = .ok flow ∧
        flow.IsWalk ["start", "greeting", "pause", "end"] := by
    decide +kernel
  have hreturned : Returned sampleSettings flow := .drawing _ _ _ _ hflow
  exact ⟨flow, _, hreturned, hwalk, rfl, (walk_of_returned hreturned).2 _ hwalk⟩

end ConversationFlow
