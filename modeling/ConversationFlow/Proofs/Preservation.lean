import ConversationFlow.Proofs.Executable.Kept
import ConversationFlow.Proofs.RoundTrip

/-!
# Imports lose nothing

What a text says about a flow is found again in the text that is handed out for the flow. The two
documents may spell the same thing differently, so this is said of the places at which they say
something and not of what they say there.
-/

namespace ConversationFlow

open Executable Schema Text

variable {settings : Settings} {flow : Flow}

/-- The document of a flow that is imported is preserved by the one that is handed out: whatever a
path ends in, the path occurs again, and no record has a key that is unknown or that is given in
both spellings. -/
theorem preserved_of_importFlow {s : List Symbol} {provider : Provider} {journal : Journal}
    (h : ((importFlow settings s).runFrom provider journal).1 = .ok flow) :
    ∃ source text, Json.read .document s = .ok source ∧
      Preserved (.record .flow) source (Record.write false flow) ∧
      flow.exportText = .ok text ∧ ∃ least, ∀ limits : Json.Limits,
        least ≤ limits.nesting → least ≤ limits.integerLength →
          Json.read limits (symbols text) = .ok (Record.write false flow) := by
  have hread : readFlow s = .ok flow := (readFlow_of_importFlow h).1
  obtain ⟨source, hsource, hdistinct, -, hrecord⟩ := exists_read_of_readFlow hread
  have hwhole := (isWhole_of_readFlow hread).1
  have hplain : (Record.write false flow).IsPlain := isPlain_flow (isSound_of_readFlow hread)
  exact ⟨source, _, hsource, (KeepsRecord.kept .text source flow hrecord).preserved hdistinct,
    Flow.exportText_eq_ok_iff.2 ⟨hwhole, rfl⟩, Json.exists_read_documentText hplain hwhole⟩

/-- A flow with keys in both spellings, of which those of a free configuration stay as they are. -/
def mixedDocument : Json :=
  .obj
    [("id", .str "f"), ("name", .str "F"),
      ("metadata", .obj
        [("created_at", .str "2024-01-15T09:30:00Z"), ("updatedAt", .str "2024-01-15T09:30:00Z")]),
      ("entry_node_id", .str "s"),
      ("nodes", .obj
        [("s", .obj
          [("id", .str "s"), ("type", .str "start"), ("config", .obj []),
            ("transitions", .arr
              [.obj
                [("id", .str "t"), ("target_node_id", .str "last_one"), ("priority", .int 0)]])]),
          ("last_one", .obj
            [("id", .str "last_one"), ("type", .str "pause"),
              ("config", .obj [("long_ago", .arr [])])])])]

theorem preserved_of_importFlow_mixedDocument :
    ∃ flow, ((importFlow .plain (symbols mixedDocument.documentText)).runFrom
        Compile.sampleProvider .empty).1 = .ok flow ∧
      Preserved (.record .flow) mixedDocument (Record.write false flow) ∧
      HasPath (Record.write false flow) [.key "metadata", .key "createdAt"] := by
  have hread : Json.read .document (symbols mixedDocument.documentText) = .ok mixedDocument :=
    Json.read_documentText (by decide) (by decide +kernel) (by decide +kernel) (by decide +kernel)
  obtain ⟨flow, hflow⟩ : ∃ flow, ((importFlow .plain (symbols mixedDocument.documentText)).runFrom
      Compile.sampleProvider .empty).1 = .ok flow := by
    rw [importFlow, readFlow, hread]
    decide +kernel
  obtain ⟨source, -, hsource, hpreserved, -⟩ := preserved_of_importFlow hflow
  obtain rfl : source = mixedDocument := by
    rw [hread] at hsource
    exact (Except.ok.inj hsource).symm
  have hmetadata : Shape.name (.record .flow) "metadata" = "metadata" := by
    decide +kernel
  have hcreated : Shape.name (.record .metadata) "created_at" = "createdAt" := by
    decide +kernel
  have hpath : Reaches (.record .flow) mixedDocument
      [.key (Shape.name (.record .flow) "metadata"),
        .key (Shape.name (.record .metadata) "created_at")]
      .free (.str "2024-01-15T09:30:00Z") :=
    .field (.tail _ (.tail _ (.head _))) (.field (.head _) .here)
  rw [hmetadata, hcreated] at hpath
  exact ⟨flow, hflow, hpreserved, hpreserved.paths _ _ _ hpath trivial⟩

end ConversationFlow
