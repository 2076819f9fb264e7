import ConversationFlow.Compile.Flow
import ConversationFlow.Json.Printer

/-!
# Handing flows out and taking them in

The text form of a flow. A text that is taken in has to hold a flow, and the flow has to pass the
same check as one that was compiled.
-/

namespace ConversationFlow

open Schema Text
open Compile (FlowJob issueOf)
open Executable (Flow)

/-- The text of a flow; what may be absent is left out. There is none of a flow with a text in which a
surrogate stands; the first such text is given then. -/
def Executable.Flow.exportText (flow : Flow) : Except Text String :=
  let document := Record.write false flow
  match document.firstBroken? with
  | some text => .error text
  | none => .ok document.documentText

/-- The flow that a text holds, or what is wrong with the text. -/
def readFlow (s : List Symbol) : Except Fault Flow :=
  match Json.read .document s with
  | .ok v => readRecord .text v
  | .error misread => .error (.invalid (Record.title Flow) [⟨.syntaxError misread, [], .null⟩])

/-- A flow that was read is let through if nothing is wrong with it. -/
def admitImport (settings : Settings) (flow : Flow) : FlowJob Flow := do
  let report := flow.check settings.warnUnreachableNodes
  if report.valid then pure flow
  else
    Job.record (.importRefused flow.id report.errors)
    throw (.stopped .importedFlow report.errors)

/-- The flow of a text that comes from outside. -/
def importFlow (settings : Settings) (s : List Symbol) : FlowJob Flow :=
  match readFlow s with
  | .ok flow => admitImport settings flow
  | .error (.invalid _ findings) => throw (.stopped .document (findings.map (issueOf none)))
  | .error fault => throw (.refused fault)

end ConversationFlow
