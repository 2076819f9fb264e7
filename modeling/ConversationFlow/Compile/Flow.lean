import ConversationFlow.Check.Drawing
import ConversationFlow.Check.Flow
import ConversationFlow.Compile.Node
import ConversationFlow.Settings

/-!
# Flows from drawings

Compiling a drawing: it is checked, all its nodes are compiled, the flow gets an id, and the flow is
checked in turn. The first gate that finds issues stops the flow and reports all issues found there.
-/

namespace ConversationFlow.Compile

open Schema
open Editor (Edge Graph)
open Executable (Flow)

variable [Host]

abbrev FlowJob := Job Failure

def readGraph (v : Json) : FlowJob Graph :=
  Job.of ((readRecord .values v).mapError .refused)

/-- A key that no metadata may have. -/
def reservedKey : Text := "self"

/-- The metadata of the fields of an object. A date that is not given is the current time. -/
def stampMetadata (fields : List (Text × Json)) : FlowJob Metadata := do
  if reservedKey ∈ fields.map Prod.fst then throw (.reservedKey reservedKey)
  let now ← Job.now
  let reading := Metadata.stampedOfFields now ⟨fields⟩
  Job.of ((Fault.ofReading (Record.title Metadata) reading).mapError .refused)

/-- The metadata that a document holds; a value that is not truthy counts as an empty object. -/
def readMetadata (v : Json) : FlowJob Metadata :=
  if v.isTruthy then
    match v with
    | .obj fields => stampMetadata fields
    | _ => throw (.metadataKind v)
  else stampMetadata []

/-- The issue of a finding about a node, or about a document. A node whose id is empty counts as a
part of the document. -/
def issueOf (nodeId : Option Text) (f : Finding) : Issue where
  code :=
    match nodeId with
    | none | some "" => .malformedFlow
    | some _ => .invalidNodeConfig
  message := f.line
  nodeId := nodeId

/-- Edges under the ids of the nodes that they leave, each list in the order of the drawing. -/
def edgesBySource (edges : List Edge) : Table (List Edge) :=
  edges.foldl (fun groups e => groups.put e.source ((groups.get? e.source).getD [] ++ [e])) .empty

/-- The compiled form of a node under the id of the node, or the issues about it. -/
def attempt (edges : List Edge) (n : Editor.Node) :
    FlowJob (Except (List Issue) (Text × Executable.Node)) := do
  match ← (compileNode edges n).outcome with
  | .ok node => pure (.ok (n.id, node))
  | .error (.invalid _ findings) => pure (.error (findings.map (issueOf (some n.id))))
  | .error fault => throw (.refused fault)

def compiledEntries :
    List (Except (List Issue) (Text × Executable.Node)) → List (Text × Executable.Node) :=
  List.filterMap fun
    | .ok entry => some entry
    | .error _ => none

def issuesOfOutcomes : List (Except (List Issue) (Text × Executable.Node)) → List Issue :=
  List.flatMap fun
    | .ok _ => []
    | .error issues => issues

/-- The compiled forms of all nodes, each under the id of its node. Every node is attempted, also after
another one has failed. -/
def compileNodes (g : Graph) : FlowJob (Table Executable.Node) := do
  let groups := edgesBySource g.edges
  let outcomes ← g.nodes.mapM fun n => attempt ((groups.get? n.id).getD []) n
  let issues := issuesOfOutcomes outcomes
  if issues.isEmpty then
    pure (.ofList (compiledEntries outcomes))
  else
    Job.record (.nodesRefused (issues.map (·.nodeId)).eraseDups.length)
    throw (.stopped .nodes issues)

/-- The name of a flow whose metadata give none. -/
def untitled : Text := "Untitled Flow"

/-- The name of a flow with the given metadata; an empty one counts as none. -/
def flowName (metadata : Metadata) : Text :=
  match metadata.name with
  | none | some "" => untitled
  | some name => name

/-- A flow that was put together is let through if nothing is wrong with it. -/
def admitFlow (settings : Settings) (flow : Flow) : FlowJob Flow := do
  let report := flow.check settings.warnUnreachableNodes
  if report.valid then
    report.warnings.forM fun issue => Job.record (.warned flow.name issue)
    Job.record (.compiled flow.name flow.id flow.nodes.size)
    pure flow
  else
    Job.record (.flowRefused report.errors)
    throw (.stopped .flow report.errors)

/-- The first compiled node that is a start node. -/
def startOf? (nodes : Table Executable.Node) : Option Executable.Node :=
  nodes.values.find? (·.isStart)

/-- The flow that compiled nodes are put together to, with an entry and an id. -/
def flowFrom (settings : Settings) (metadata : Metadata) (nodes : Table Executable.Node)
    (entry : Executable.Node) (id : Text) : Flow where
  id := id
  version := 1
  name := flowName metadata
  description := metadata.description
  metadata := metadata
  entryNodeId := entry.id
  nodes := nodes
  config := settings.flowConfig

/-- The flow of a graph. It starts at the first start node among its compiled nodes. -/
def compileGraph (settings : Settings) (g : Graph) (metadata : Metadata) : FlowJob Flow := do
  Job.record (.compiling (flowName metadata) g.nodes.length g.edges.length)
  let report := g.check settings.passthroughNodeTypes
  if report.valid then
    let nodes ← compileNodes g
    match startOf? nodes with
    | some entry => do
      let id ← Job.newId
      admitFlow settings (flowFrom settings metadata nodes entry id)
    | none => throw .startless
  else
    Job.record (.drawingRefused report.errors)
    throw (.stopped .drawing report.errors)

/-- The flow of a document that holds a graph, and of one that holds metadata. -/
def compile (settings : Settings) (flow metadata : Json) : FlowJob Flow := do
  let g ← readGraph flow
  let metadata ← readMetadata metadata
  compileGraph settings g metadata

/-- The report on a job that compiles a flow: the issues that stopped it, or else what the check of
the flow says. -/
def reportOn (settings : Settings) (job : FlowJob Flow) : FlowJob Report := do
  match ← job.outcome with
  | .ok flow => pure (flow.check settings.warnUnreachableNodes)
  | .error (.stopped _ issues) => pure (.ofIssues issues [])
  | .error failure => throw failure

def validate (settings : Settings) (flow metadata : Json) : FlowJob Report :=
  reportOn settings (compile settings flow metadata)

end ConversationFlow.Compile
