import ConversationFlow.Proofs.Compile.Acceptance
import ConversationFlow.Proofs.Compile.Buttons
import ConversationFlow.Proofs.Compile.Call

/-!
# Calls that share ids

Compilations and reports that take their ids from one place, one after the other. A call that fails
leaves the ids that it took unused; what matters is that nobody else gets them.
-/

namespace ConversationFlow.Compile

open Schema Executable
open Editor (Graph)

section Host

variable [Host]

namespace Call

theorem issues_compile (c : Call) :
    Job.Issues (fun flow ids => ids = flow.issuedIds) c.compile := by
  intro provider journal
  cases hcoerce : (c.coerce.runFrom provider journal).1 with
  | ok handed =>
    rw [runFrom_compile_of_coerce hcoerce]
    exact issues_compileGraph c.settings handed.1 handed.2 provider journal
  | error failure =>
    rw [runFrom_compile_of_not_coerce hcoerce]
    refine ⟨Nat.le_refl _, ?_⟩
    rintro flow ⟨⟩

end Call

/-- How a call comes by its ids: by none at all if what is handed in is refused or not well drawn,
by those of buttons if a node does not compile, and else by those of the buttons of the flow, with
the nodes in the order of the drawing, and by the one of the flow. -/
structure Accounts (c : Call) (provider : Provider) (journal : Journal) : Prop where
  refused : ∀ failure, (c.coerce.runFrom provider journal).1 = .error failure →
    c.compile.runFrom provider journal = (.error failure, journal)
  notDrawn : ∀ g metadata, (c.coerce.runFrom provider journal).1 = .ok (g, metadata) →
    ¬g.IsWellDrawn c.settings.passthroughNodeTypes →
      (c.compile.runFrom provider journal).2.issued = journal.issued
  notCompiled : ∀ g metadata, (c.coerce.runFrom provider journal).1 = .ok (g, metadata) →
    g.IsWellDrawn c.settings.passthroughNodeTypes →
      ∀ failure, ((compileNodes g).runFrom provider (announced g metadata journal)).1 =
        .error failure →
      c.compile.runFrom provider journal =
        (.error failure, ((compileNodes g).runFrom provider (announced g metadata journal)).2)
  returned : ∀ flow, (c.compile.runFrom provider journal).1 = .ok flow →
    idsBetween provider.mint journal.issued (c.compile.runFrom provider journal).2.issued =
      flow.issuedIds ∧
    ∃ g metadata, (c.coerce.runFrom provider journal).1 = .ok (g, metadata) ∧
      flow.nodes.keys = g.nodes.map (·.id)

theorem accounts (c : Call) (provider : Provider) (journal : Journal) :
    Accounts c provider journal where
  refused failure h := Call.runFrom_compile_of_not_coerce h
  notDrawn g metadata h hdrawn := by
    rw [Call.runFrom_compile_of_coerce h, runFrom_compileGraph_of_not_wellDrawn hdrawn]
  notCompiled g metadata h hdrawn failure hnodes := by
    rw [Call.runFrom_compile_of_coerce h]
    exact runFrom_compileGraph_of_error hdrawn hnodes
  returned flow h := by
    refine ⟨(c.issues_compile provider journal).2 flow h, ?_⟩
    cases hcoerce : (c.coerce.runFrom provider journal).1 with
    | ok handed =>
      rw [Call.runFrom_compile_of_coerce hcoerce] at h
      exact ⟨handed.1, handed.2, rfl, (isFlowOf_of_compileGraph h).2.1.nodes.keys_eq⟩
    | error failure =>
      rw [Call.runFrom_compile_of_not_coerce hcoerce] at h
      cases h

/-- A call for a flow, or for a report only, at some time. -/
inductive Request where
  | compile (now : Timestamp) (c : Call)
  | validate (now : Timestamp) (c : Call)

namespace Request

/-- The flow that a request is answered with, if any, and the journal after it. -/
def answer (mint : Nat → Text) (journal : Journal) : Request → Option Flow × Journal
  | .compile now c =>
    let run := c.compile.runFrom ⟨mint, now⟩ journal
    (run.1.toOption, run.2)
  | .validate now c => (none, ((reportOn c.settings c.compile).runFrom ⟨mint, now⟩ journal).2)

end Request

/-- The flows that requests are answered with, one after the other. -/
def flowsOf (mint : Nat → Text) : Journal → List Request → List Flow
  | _, [] => []
  | journal, request :: rest =>
    (request.answer mint journal).1.toList ++ flowsOf mint (request.answer mint journal).2 rest

section Session

variable {mint : Nat → Text} {journal : Journal}

theorem issues_reportOn (c : Call) :
    Job.Issues (fun _ _ => True) (reportOn c.settings c.compile) := by
  refine c.issues_compile.outcome.bind fun outcome _ _ => ?_
  split
  · exact Job.issues_pure trivial
  · exact Job.issues_pure trivial
  · exact Job.issues_throw _

/-- One request takes the ids of the flow that it is answered with, and maybe others. -/
theorem Request.issued_answer (request : Request) (mint : Nat → Text) (journal : Journal) :
    journal.issued ≤ (request.answer mint journal).2.issued ∧
    List.Sublist ((request.answer mint journal).1.toList.flatMap Flow.issuedIds)
      (idsBetween mint journal.issued (request.answer mint journal).2.issued) := by
  cases request with
  | validate now c => exact ⟨(issues_reportOn c ⟨mint, now⟩ journal).1, List.nil_sublist _⟩
  | compile now c =>
    obtain ⟨hissued, hvalue⟩ := c.issues_compile ⟨mint, now⟩ journal
    refine ⟨hissued, ?_⟩
    rw [answer]
    cases houtcome : (c.compile.runFrom ⟨mint, now⟩ journal).1 with
    | error failure => exact List.nil_sublist _
    | ok flow => simp [Except.toOption, hvalue flow houtcome]

/-- The ids of all flows are among the ids that are issued from the first request on, in order. The
induction is on the requests, for every journal that they may start from. -/
theorem exists_sublist_flowsOf (mint : Nat → Text) (journal : Journal) (requests : List Request) :
    ∃ stop, journal.issued ≤ stop ∧
      List.Sublist ((flowsOf mint journal requests).flatMap Flow.issuedIds)
        (idsBetween mint journal.issued stop) := by
  induction requests generalizing journal with
  | nil => exact ⟨journal.issued, Nat.le_refl _, List.nil_sublist _⟩
  | cons request rest ih =>
    obtain ⟨hissued, hfirst⟩ := request.issued_answer mint journal
    obtain ⟨stop, hstop, hrest⟩ := ih (request.answer mint journal).2
    refine ⟨stop, Nat.le_trans hissued hstop, ?_⟩
    rw [flowsOf, List.flatMap_append, ← idsBetween_append hissued hstop]
    exact hfirst.append hrest

end Session

/-- Every call accounts for the ids that it takes. So if a provider never issues an id twice, no two
buttons or flows that are handed out have the same id, whatever is called in between and fails. -/
theorem accounts_of_calls :
    (∀ (c : Call) (provider : Provider) (journal : Journal), Accounts c provider journal) ∧
    ∀ mint : Nat → Text, Function.Injective mint →
      ∀ (journal : Journal) (requests : List Request),
        ((flowsOf mint journal requests).flatMap Flow.issuedIds).Nodup := by
  refine ⟨accounts, fun mint hmint journal requests => ?_⟩
  obtain ⟨stop, -, hids⟩ := exists_sublist_flowsOf mint journal requests
  exact (nodup_idsBetween hmint).sublist hids

end Host

/-- A drawing with buttons on a message and on cards, of which one list holds more than buttons. -/
def buttonDrawing : Graph where
  nodes :=
    [⟨"start", "start", .empty⟩,
      ⟨"menu", "message",
        ⟨[("buttons", .arr [.obj [("text", .str "Yes")], .null, .obj [("text", .str "No")]])],
          by decide⟩⟩,
      ⟨"offers", "carousel",
        ⟨[("cards", .arr [.obj [("title", .str "One")],
            .obj [("title", .str "Two"), ("buttons", .arr [.obj [("text", .str "Take")]])]])],
          by decide⟩⟩]
  edges := []
  viewport := none

/-- A drawing of which the last node does not compile. -/
def brokenDrawing : Graph :=
  { buttonDrawing with
    nodes := buttonDrawing.nodes ++ [⟨"pause", "delay", ⟨[("unit", .str "years")], by decide⟩⟩] }

def callOf (drawing : Handed Graph) : Call :=
  ⟨.plain, drawing, .record sampleMetadata⟩

/-- Two compilations that come to a flow, after and between requests that come to none. -/
def sampleRequests : List Request :=
  [.compile sampleTime (callOf (.document (.str "no drawing"))),
    .compile sampleTime (callOf (.record brokenDrawing)),
    .compile sampleTime (callOf (.record buttonDrawing)),
    .validate sampleTime (callOf (.record buttonDrawing)),
    .compile sampleTime (callOf (.document (Record.write false buttonDrawing)))]

attribute [local instance] sampleHost

theorem accounts_of_calls_sampleRequests :
    Function.Injective sampleProvider.mint ∧
      (flowsOf sampleProvider.mint .empty sampleRequests).map (·.issuedIds.length) = [4, 4] ∧
      ((flowsOf sampleProvider.mint .empty sampleRequests).flatMap Flow.issuedIds).Nodup := by
  have hmint : Function.Injective sampleProvider.mint := by
    intro m n h
    simpa [sampleProvider] using congrArg String.length (Text.whole.inj h)
  exact ⟨hmint, by decide +kernel, accounts_of_calls.2 _ hmint .empty sampleRequests⟩

end ConversationFlow.Compile
