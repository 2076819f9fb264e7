import ConversationFlow.Exchange
import ConversationFlow.Sample
import ConversationFlow.Service.Body
import ConversationFlow.Service.Route

/-!
# Responses

What the service answers: flows, reports and samples as documents, and the reasons why there are
none.
-/

namespace ConversationFlow.Service

open Schema
open Compile (FlowJob)

structure Request where
  method : String
  path : String
  contentType : String
  body : String

inductive Payload where
  | document (v : Json)
  | text (s : String)
deriving DecidableEq

structure Response where
  status : Nat
  payload : Payload
deriving DecidableEq

namespace Response

def failed : Response := ⟨500, .text "Internal Server Error"⟩

/-- A document with a status. A number that is not finite and a text in which a surrogate stands cannot
be sent. -/
def send (status : Nat) (v : Json) : Response :=
  if v.finite = v ∧ v.firstBroken? = none then ⟨status, .document v⟩ else failed

def detail (status : Nat) (sentence : Text) : Response :=
  send status (.obj [("detail", .str sentence)])

end Response

def writeStep : Step → Json
  | .key name => .str name
  | .index position => .int position

/-- A finding as a document: its name, its place and its sentence. -/
def writeFinding (place : List Json) (f : Finding) : List (Text × Json) :=
  [("type", .str f.complaint.name),
    ("loc", .arr (place ++ f.path.map writeStep)),
    ("msg", .str f.complaint.message)]

def refuse (findings : List Finding) : Response :=
  .send 422 (.obj [("detail", .arr (findings.map fun f => .obj (writeFinding [] f)))])

/-- The refusal of a body with all that was found wrong with it, and the values themselves. -/
def refuseBody (findings : List Finding) : Response :=
  .send 422 (.obj
    [("detail", .arr (findings.map fun f =>
      .obj ((writeFinding [.str "body"] f).concat ("input", f.value))))])

/-- The refusal of a body with a mistake at a position. -/
def refuseText (expected : Json.Expected) (position : Nat) : Response :=
  .send 422 (.obj
    [("detail", .arr
      [.obj
        [("type", .str "json_invalid"),
          ("loc", .arr [.str "body", .int position]),
          ("msg", .str "JSON decode error"),
          ("input", .obj []),
          ("ctx", .obj [("error", .str expected.message)])]])])

/-- The refusal of a flow that a gate stopped. -/
def refuseFlow (gate : Gate) (issues : List Issue) : Response :=
  .send 422 (.obj
    [("detail", .str gate.message),
      ("stage", .str gate.stage),
      ("errors", Record.writeAll false issues)])

def answer (request : Request) (job : FlowJob Json) : FlowJob Response := do
  match ← job.outcome with
  | .ok v => pure (.send 200 v)
  | .error (.stopped gate issues) =>
    Job.record (.requestRefused request.method request.path gate.stage issues.length)
    pure (refuseFlow gate issues)
  | .error (.refused (.invalid _ findings)) => pure (refuse findings)
  | .error _ => pure .failed

/-- What the body of a request says, as a document: one of JSON, or a text. -/
def bodyOf (request : Request) : Except BodyFault Json :=
  if isJsonContent request.contentType then readBody request.body else .ok (.str request.body)

def submissionOf (request : Request) : Except Response Submission :=
  if request.body = "" then .error (refuseBody [⟨.missing, [], .null⟩])
  else
    match bodyOf request with
    | .error (.mistake expected position) => .error (refuseText expected position)
    | .error .unreadable => .error (.detail 400 "There was an error parsing the body")
    | .ok v =>
      match readRecord .request v with
      | .ok submission => .ok submission
      | .error (.invalid _ findings) => .error (refuseBody findings)
      | .error _ => .error .failed

/-- The response to a request whose body is compiled. -/
def withSubmission (request : Request) (go : Submission → FlowJob Json) : FlowJob Response :=
  match submissionOf request with
  | .ok submission => answer request (go submission)
  | .error response => pure response

variable [Host]

def compileSubmission (settings : Settings) (s : Submission) : FlowJob Executable.Flow := do
  let metadata ← Compile.readMetadata s.metadataJson
  Compile.compileGraph settings s.graph metadata

def withSample (name : String) (go : Sample → FlowJob Response) : FlowJob Response :=
  match Sample.ofName? name with
  | some sample => go sample
  | none => pure (.detail 404 ("Sample flow '" ++ name ++ "' not found"))

def sampleMetadata (sample : Sample) : Json :=
  .obj [("name", .str sample.title), ("tags", .arr [.str "sample"])]

def version : Text := "1.0.0"

/-- The environment that the service runs in. It is the one of plain settings: what is set for the
compiler does not concern the service itself. -/
def environment : Text := Settings.plain.environment

def respondAt (settings : Settings) (request : Request) : Route → FlowJob Response
  | .health =>
    pure (.send 200 (.obj
      [("status", .str "ok"),
        ("version", .str version),
        ("environment", .str environment)]))
  | .compile =>
    withSubmission request fun s => Record.write false <$> compileSubmission settings s
  | .validate =>
    withSubmission request fun s =>
      Record.write false <$> Compile.reportOn settings (compileSubmission settings s)
  | .takeIn =>
    answer request (Record.write false <$> importFlow settings (Text.symbols request.body))
  | .samples =>
    pure (.send 200 (.obj
      [("count", .int Sample.names.length), ("samples", writeTexts Sample.names)]))
  | .sample name => withSample name fun sample => pure (.send 200 sample.graph)
  | .compileSample name =>
    withSample name fun sample =>
      answer request
        (Record.write false <$> Compile.compile settings sample.graph (sampleMetadata sample))

def respond (settings : Settings) (request : Request) : FlowJob Response :=
  match Route.ofPath? request.path with
  | some route =>
    if request.method = route.method then respondAt settings request route
    else pure (.detail 405 "Method Not Allowed")
  | none =>
    if Route.isRedirected request.path then pure ⟨307, .text ""⟩
    else pure (.detail 404 "Not Found")

end ConversationFlow.Service
