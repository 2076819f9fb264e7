import ConversationFlow.Proofs.Compile.Flow
import ConversationFlow.Proofs.Issued

/-!
# Calls of a compiler

What is handed in, as records or as documents, is read first; then the drawing is checked, its nodes
are compiled, and the flow is checked. Each of these stages ends the call if it fails.
-/

namespace ConversationFlow.Compile

open Schema Executable
open Editor (Graph)

/-- What a caller hands in: a record, or a document that holds one. -/
inductive Handed (α : Type) where
  | record (a : α)
  | document (v : Json)

/-- A call of a compiler that has settings. -/
structure Call where
  settings : Settings
  drawing : Handed Graph
  metadata : Handed Metadata

namespace Call

def readDrawing (c : Call) : FlowJob Graph :=
  match c.drawing with
  | .record g => pure g
  | .document v => readGraph v

def readData (c : Call) : FlowJob Metadata :=
  match c.metadata with
  | .record metadata => pure metadata
  | .document v => readMetadata v

/-- The drawing and the metadata of a call. -/
def coerce (c : Call) : FlowJob (Graph × Metadata) := do
  let g ← c.readDrawing
  let metadata ← c.readData
  pure (g, metadata)

/-- What is handed in is refused by itself, never stopped by a gate. -/
def IsRefusal (failure : Failure) : Prop :=
  ∀ gate issues, failure ≠ .stopped gate issues

theorem isRefusal_of_mapError {α : Type} {r : Except Fault α} {failure : Failure}
    (h : r.mapError .refused = .error failure) : IsRefusal failure := by
  cases r with
  | ok a => cases h
  | error fault =>
    cases h
    exact fun _ _ => Failure.noConfusion

theorem traceless_stampMetadata (fields : List (Text × Json)) :
    Job.Traceless IsRefusal (stampMetadata fields) := by
  have hstamp (now : Timestamp) : Job.Traceless IsRefusal (Job.of ((Fault.ofReading
      (Record.title Metadata) (Metadata.stampedOfFields now ⟨fields⟩)).mapError .refused)) :=
    Job.traceless_of fun _ => isRefusal_of_mapError
  rw [stampMetadata]
  split
  · refine (Job.traceless_throw ?_).bind fun _ => Job.traceless_now.bind hstamp
    exact fun _ _ => Failure.noConfusion
  · exact Job.traceless_now.bind hstamp

theorem traceless_readMetadata (v : Json) : Job.Traceless IsRefusal (readMetadata v) := by
  unfold readMetadata
  split
  · split
    · exact traceless_stampMetadata _
    · exact Job.traceless_throw fun _ _ => Failure.noConfusion
  · exact traceless_stampMetadata []

theorem traceless_readDrawing (c : Call) : Job.Traceless IsRefusal c.readDrawing := by
  rw [readDrawing]
  split
  · exact Job.traceless_pure _
  · exact Job.traceless_of fun _ => isRefusal_of_mapError

theorem traceless_readData (c : Call) : Job.Traceless IsRefusal c.readData := by
  rw [readData]
  split
  · exact Job.traceless_pure _
  · exact traceless_readMetadata _

theorem traceless_coerce (c : Call) : Job.Traceless IsRefusal c.coerce :=
  c.traceless_readDrawing.bind fun _ => c.traceless_readData.bind fun _ => Job.traceless_pure _

variable [Host]

def compile (c : Call) : FlowJob Flow := do
  let (g, metadata) ← c.coerce
  compileGraph c.settings g metadata

theorem compile_documents (settings : Settings) (drawing metadata : Json) :
    (Call.mk settings (.document drawing) (.document metadata)).compile =
      Compile.compile settings drawing metadata := by
  simp [compile, coerce, readDrawing, readData, Compile.compile]

theorem compile_records (settings : Settings) (g : Graph) (metadata : Metadata) :
    (Call.mk settings (.record g) (.record metadata)).compile =
      compileGraph settings g metadata := by
  simp [compile, coerce, readDrawing, readData]

theorem runFrom_compile_of_coerce {c : Call} {provider : Provider} {journal : Journal} {g : Graph}
    {metadata : Metadata} (h : (c.coerce.runFrom provider journal).1 = .ok (g, metadata)) :
    c.compile.runFrom provider journal =
      (compileGraph c.settings g metadata).runFrom provider journal := by
  have hsame := (c.traceless_coerce provider journal).1
  rw [compile, Job.runFrom_bind]
  cases hrun : c.coerce.runFrom provider journal with
  | mk outcome later =>
    rw [hrun] at h hsame
    subst h hsame
    rfl

theorem runFrom_compile_of_not_coerce {c : Call} {provider : Provider} {journal : Journal}
    {failure : Failure} (h : (c.coerce.runFrom provider journal).1 = .error failure) :
    c.compile.runFrom provider journal = (.error failure, journal) := by
  have hsame := (c.traceless_coerce provider journal).1
  rw [compile, Job.runFrom_bind]
  cases hrun : c.coerce.runFrom provider journal with
  | mk outcome later =>
    rw [hrun] at h hsame
    subst h hsame
    rfl

/-- A call that comes to a flow was handed a drawing and metadata, which compile to it. -/
theorem exists_of_compile {c : Call} {provider : Provider} {journal : Journal} {flow : Flow}
    (h : (c.compile.runFrom provider journal).1 = .ok flow) :
    ∃ g metadata, (c.coerce.runFrom provider journal).1 = .ok (g, metadata) ∧
      ((compileGraph c.settings g metadata).runFrom provider journal).1 = .ok flow := by
  cases hcoerce : (c.coerce.runFrom provider journal).1 with
  | ok handed =>
    rw [runFrom_compile_of_coerce hcoerce] at h
    exact ⟨handed.1, handed.2, rfl, h⟩
  | error failure =>
    rw [runFrom_compile_of_not_coerce hcoerce] at h
    cases h

end Call

end ConversationFlow.Compile
