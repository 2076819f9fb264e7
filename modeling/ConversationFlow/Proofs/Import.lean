import ConversationFlow.Proofs.Executable.Tags
import ConversationFlow.Proofs.Returned

/-!
# What an import may come to

A text is imported, or refused with issues that say whether it holds no flow or one that cannot be
run. The one exception is a text that holds a node without a tag: the import ends there, without any
issue.
-/

namespace ConversationFlow

open Executable (Flow HoldsUntagged)
open Schema Text

/-- A text that is no flow has a malformed one at most, and a flow that is refused has errors of its
check. -/
inductive Contained (s : List Symbol) : Except Failure Flow → Prop
  | returned {flow : Flow} (hread : readFlow s = .ok flow) (herrors : flow.errors = []) :
    Contained s (.ok flow)
  | malformed {issues : List Issue} (hread : ∀ flow, readFlow s ≠ .ok flow) (hissues : issues ≠ [])
    (hcodes : ∀ issue ∈ issues, issue.code = .malformedFlow) :
    Contained s (.error (.stopped .document issues))
  | invalid {flow : Flow} {issues : List Issue} (hread : readFlow s = .ok flow)
    (hissues : issues ≠ [])
    (hcodes : ∀ issue ∈ issues, issue.code = .invalidEntryNode ∨ issue.code = .infiniteLoop ∨
      issue.code = .invalidTransition) :
    Contained s (.error (.stopped .importedFlow issues))

variable {s : List Symbol}

/-- A text holds a document with a node that lacks a tag. -/
def HoldsUntaggedNode (s : List Symbol) : Prop :=
  ∃ v, Json.read .document s = .ok v ∧ HoldsUntagged v

/-- How a text is read: as a flow, or refused with findings, or not to its end. -/
inductive FlowReading (s : List Symbol) : Except Fault Flow → Prop
  | accepted (flow : Flow) (htag : ¬HoldsUntaggedNode s) : FlowReading s (.ok flow)
  | refused {title : Text} {findings : List Finding} (htag : ¬HoldsUntaggedNode s)
    (hfindings : findings ≠ []) : FlowReading s (.error (.invalid title findings))
  | ended (container : Container) (htag : HoldsUntaggedNode s) :
    FlowReading s (.error (.untagged container))

theorem flowReading (s : List Symbol) : FlowReading s (readFlow s) := by
  unfold readFlow
  split
  · next v hv =>
    by_cases huntagged : HoldsUntagged v
    · obtain ⟨container, hread⟩ : (Record.read .text v : Reading Flow).Untagged :=
        Executable.Flow.untagged_read huntagged
      rw [readRecord, hread]
      exact .ended container ⟨v, hv, huntagged⟩
    · have htag : ¬HoldsUntaggedNode s := by
        rintro ⟨w, hw, hlacks⟩
        rw [hv, Except.ok.injEq] at hw
        exact huntagged (hw ▸ hlacks)
      have hread : (Record.read .text v : Reading Flow).Ordinary :=
        Executable.Flow.ordinary_read huntagged
      rw [readRecord]
      cases hrecord : (Record.read .text v : Reading Flow) with
      | accepted flow => exact .accepted flow htag
      | refused findings =>
        rw [hrecord, Reading.ordinary_refused_iff] at hread
        exact .refused htag hread
      | untagged container =>
        rw [hrecord] at hread
        exact absurd ⟨container, rfl⟩ hread.not_untagged
  · next misread hmisread =>
    refine .refused ?_ (by simp)
    rintro ⟨v, hv, -⟩
    simp [hmisread] at hv

/-- An import comes to a flow without errors, or to issues with the codes of a text that is no flow or
of a flow that cannot be run, exactly if the text holds no node without a tag. -/
theorem contained_importFlow_iff (settings : Settings) (s : List Symbol) (provider : Provider)
    (journal : Journal) :
    Contained s ((importFlow settings s).runFrom provider journal).1 ↔ ¬HoldsUntaggedNode s := by
  have hreading := flowReading s
  rw [importFlow]
  cases hread : readFlow s with
  | ok flow =>
    rw [hread] at hreading
    cases hreading with
    | accepted _ htag =>
      refine iff_of_true ?_ htag
      rcases runFrom_admitImport settings flow provider journal with
        ⟨hrunnable, hpassed⟩ | ⟨hrunnable, hstopped⟩
      · simp only [hpassed]
        exact .returned hread (Executable.Flow.errors_eq_nil_iff.2 hrunnable)
      · simp only [hstopped]
        refine .invalid hread (fun h => hrunnable (Executable.Flow.errors_eq_nil_iff.1 h)) ?_
        exact fun issue hissue => Executable.Flow.code_of_mem_errors hissue
  | error fault =>
    rw [hread] at hreading
    cases hreading with
    | refused htag hfindings =>
      refine iff_of_true (.malformed (by simp [hread]) (by simpa using hfindings) ?_) htag
      intro issue hissue
      obtain ⟨finding, -, rfl⟩ := List.mem_map.1 hissue
      rfl
    | ended container htag => exact iff_of_false (fun h => by cases h) (fun h => h htag)

/-- A flow of one node, of which the type is a list. -/
def untaggedText : String :=
  "\x7b\"id\":\"f\",\"name\":\"F\",\"metadata\":\x7b\"createdAt\":\"2024-01-15T09:30:00Z\"," ++
  "\"updatedAt\":\"2024-01-15T09:30:00Z\"\x7d,\"entryNodeId\":\"s\"," ++
  "\"nodes\":\x7b\"s\":\x7b\"id\":\"s\",\"type\":[],\"config\":\x7b\x7d\x7d\x7d\x7d"

theorem not_contained_untaggedText :
    ¬Contained (symbols untaggedText)
      ((importFlow .plain (symbols untaggedText)).runFrom Compile.sampleProvider .empty).1 := by
  have hended : readFlow (symbols untaggedText) = .error (.untagged .list) := by
    decide +kernel
  rw [importFlow, hended]
  rintro ⟨⟩

end ConversationFlow
