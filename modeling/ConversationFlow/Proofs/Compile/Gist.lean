import ConversationFlow.Compile.Flow
import ConversationFlow.Proofs.Compile.Node
import ConversationFlow.Proofs.Table

/-!
# What a compilation looks at

The gist of a drawing: the ids and types of its nodes, the edges without the handles that they end
at, and of the data of each node the keys that its kind looks at. Under the keys for lists of buttons,
cards and form fields only some keys of the entries count. Drawings with the same gist compile alike.
-/

namespace ConversationFlow.Compile

open Schema Executable
open Editor (Edge Graph NodeKind)

def whole (v : Json) : Json := v

/-- The values of some keys of an object, null for those that it does not have. -/
def pick (keys : List Text) (fields : List (Text × Json)) : List (Text × Json) :=
  keys.map fun key => (key, Json.field fields key)

/-- The part of an entry of a list; of what is no object nothing counts. -/
def entryGist (part : List (Text × Json) → List (Text × Json)) : Json → Json
  | .obj fields => .obj (part fields)
  | _ => .null

def entriesGist (part : List (Text × Json) → List (Text × Json)) (v : Json) : Json :=
  .arr (v.items.map (entryGist part))

def buttonGist (button : List (Text × Json)) : List (Text × Json) :=
  pick ["text", "label", "action"] button

def cardGist (card : List (Text × Json)) : List (Text × Json) :=
  ("buttons", entriesGist buttonGist (Json.field card "buttons")) ::
    pick ["title", "subtitle", "imageUrl"] card

def formFieldGist (field : List (Text × Json)) : List (Text × Json) :=
  pick ["id", "name", "label", "placeholder", "type", "required", "options"] field

/-- The keys that a kind of node looks at, and how much of their values. -/
def parts : NodeKind → List (Text × (Json → Json))
  | .executable .start => []
  | .executable .message =>
    [("text", whole), ("content", whole), ("buttons", entriesGist buttonGist)]
  | .executable .question =>
    [("question", whole), ("text", whole), ("inputType", whole), ("variable", whole),
      ("validationRegex", whole), ("validationMessage", whole), ("maxRetries", whole)]
  | .executable .condition => [("condition", whole)]
  | .executable .api =>
    [("method", whole), ("apiUrl", whole), ("url", whole), ("headers", whole), ("body", whole),
      ("auth", whole), ("timeout", whole), ("retries", whole), ("saveResponseTo", whole)]
  | .executable .delay => [("delay", whole), ("duration", whole), ("unit", whole)]
  | .executable .action => [("actionType", whole), ("parameters", whole)]
  | .executable .form =>
    [("fields", entriesGist formFieldGist), ("submitButtonText", whole), ("saveToVariable", whole)]
  | .executable .assignment =>
    [("variable", whole), ("variableName", whole), ("operation", whole), ("value", whole),
      ("variableValue", whole)]
  | .executable .tag => [("tags", whole), ("tagNames", whole), ("operation", whole)]
  | .executable .segment => [("segmentId", whole), ("segmentName", whole), ("operation", whole)]
  | .executable .transferAgent =>
    [("assignmentType", whole), ("agentId", whole), ("teamId", whole), ("message", whole),
      ("endFlow", whole)]
  | .executable .finish => [("reason", whole), ("message", whole)]
  | .advancedCondition => [("condition", whole), ("conditions", firstExpression)]
  | .input =>
    [("question", whole), ("text", whole), ("placeholder", whole), ("inputType", whole),
      ("saveToVariable", whole), ("variable", whole), ("validation", whole),
      ("validationRegex", whole), ("validationMessage", whole), ("maxRetries", whole)]
  | .mediaMessage =>
    [("text", whole), ("label", whole), ("mediaUrl", whole), ("buttons", entriesGist buttonGist)]
  | .carousel => [("text", whole), ("cards", entriesGist cardGist)]
  | .dynamicText => [("text", whole), ("content", whole)]

/-- The part of the data that a node of a kind looks at. -/
def dataGist (kind : NodeKind) (data : Table Json) : List (Text × Json) :=
  (parts kind).map fun (key, part) => (key, part ((data.get? key).getD .null))

theorem objectsOf_entriesGist (part : List (Text × Json) → List (Text × Json)) (v : Json) :
    objectsOf (entriesGist part v) = (objectsOf v).map part := by
  rw [objectsOf, entriesGist, Json.items, List.filterMap_map, objectsOf, List.map_filterMap]
  congr 1
  funext entry
  cases entry <;> rfl

theorem compileButton_buttonGist (button : List (Text × Json)) :
    compileButton (buttonGist button) = compileButton button := by
  have hof (id : Text) : buttonOf id (buttonGist button) = buttonOf id button := by
    simp [buttonOf, firstField, buttonGist, pick, Json.field, List.lookup_cons]
  simp only [compileButton, hof]

theorem compileButtons_entriesGist (v : Json) :
    compileButtons (entriesGist buttonGist v) = compileButtons v := by
  have hbutton : compileButton ∘ buttonGist = compileButton := funext compileButton_buttonGist
  rw [compileButtons, objectsOf_entriesGist, List.mapM_map, hbutton, compileButtons]

theorem compileCard_cardGist (card : List (Text × Json)) :
    compileCard (cardGist card) = compileCard card := by
  have hof (buttons : List MessageButton) :
      cardOf (cardGist card) buttons = cardOf card buttons := by
    simp [cardOf, firstField, cardGist, pick, Json.field, List.lookup_cons]
  have hbuttons :
      Json.field (cardGist card) "buttons" = entriesGist buttonGist (Json.field card "buttons") :=
    rfl
  simp only [compileCard, hof, hbuttons, compileButtons_entriesGist]

theorem compileCards_entriesGist (v : Json) :
    compileCards (entriesGist cardGist v) = compileCards v := by
  have hcard : compileCard ∘ cardGist = compileCard := funext compileCard_cardGist
  rw [compileCards, objectsOf_entriesGist, List.mapM_map, hcard, compileCards]

theorem formFieldOf_formFieldGist (position : Nat) (field : List (Text × Json)) :
    formFieldOf position (formFieldGist field) = formFieldOf position field := by
  simp [formFieldOf, firstField, formFieldGist, pick, Json.field, List.lookup_cons]

/-- Entries that are no objects are counted, so the positions stay what they are. -/
theorem formFieldsFrom_entryGist (position : Nat) (entries : List Json) :
    formFieldsFrom position (entries.map (entryGist formFieldGist)) =
      formFieldsFrom position entries := by
  induction entries generalizing position with
  | nil => rfl
  | cons entry rest ih =>
    rw [List.map_cons]
    cases entry with
    | obj field => simp only [entryGist, formFieldsFrom, formFieldOf_formFieldGist, ih]
    | null | bool | int | float | str | arr => exact ih (position + 1)

theorem compileFormFields_entriesGist (v : Json) :
    compileFormFields (entriesGist formFieldGist v) = compileFormFields v :=
  formFieldsFrom_entryGist 0 v.items

/-- What does not tell a value from its part does not tell values with the same part apart. -/
theorem eq_of_gist_eq {α : Type} {f : Json → α} {gist : Json → Json} (hf : ∀ v, f (gist v) = f v)
    {v w : Json} (h : gist v = gist w) : f v = f w := by
  rw [← hf v, h, hf w]

section Data

variable {m n : Editor.Node}

theorem dataGist_eq_iff {kind : NodeKind} : dataGist kind m.data = dataGist kind n.data ↔
    ∀ part ∈ parts kind, part.2 (m.value part.1) = part.2 (n.value part.1) := by
  rw [dataGist, dataGist, List.map_inj_left]
  simp only [Prod.mk.injEq, true_and]
  rfl

variable [Host]

theorem compileConfig_eq {kind : NodeKind} (hid : m.id = n.id)
    (h : dataGist kind m.data = dataGist kind n.data) :
    compileConfig m kind = compileConfig n kind := by
  rw [dataGist_eq_iff] at h
  -- the gist of each kind is a list of equations, which turn the one job into the other
  cases kind with
  | executable type =>
    cases type with
    | start => rfl
    | message =>
      have hbuttons := eq_of_gist_eq compileButtons_entriesGist
        (h ("buttons", entriesGist buttonGist) (by simp [parts]))
      simp only [parts, List.forall_mem_cons, whole] at h
      simp only [compileConfig, compileMessage, firstOf, List.map_cons, List.map_nil, h, hbuttons]
    | form =>
      have hfields := eq_of_gist_eq compileFormFields_entriesGist
        (h ("fields", entriesGist formFieldGist) (by simp [parts]))
      simp only [parts, List.forall_mem_cons, whole] at h
      simp only [compileConfig, compileForm, firstOf, List.map_cons, List.map_nil, hid, h, hfields]
    | question | condition | api | delay | action | assignment | tag | segment | transferAgent
    | finish =>
      simp only [parts, List.forall_mem_cons, whole] at h
      simp only [compileConfig, compileQuestion, questionConfig, compileCondition, compileApi,
        compileDelay, compileAction, compileAssignment, compileTag, compileSegment,
        compileTransferAgent, compileEnd, firstOf, List.map_cons, List.map_nil, hid, h]
  | mediaMessage =>
    have hbuttons := eq_of_gist_eq compileButtons_entriesGist
      (h ("buttons", entriesGist buttonGist) (by simp [parts]))
    simp only [parts, List.forall_mem_cons, whole] at h
    simp only [compileConfig, compileMediaMessage, firstOf, List.map_cons, List.map_nil, h,
      hbuttons]
  | carousel =>
    have hcards := eq_of_gist_eq compileCards_entriesGist
      (h ("cards", entriesGist cardGist) (by simp [parts]))
    simp only [parts, List.forall_mem_cons, whole] at h
    simp only [compileConfig, compileCarousel, firstOf, List.map_cons, List.map_nil, h, hcards]
  | advancedCondition | input | dynamicText =>
    simp only [parts, List.forall_mem_cons, whole] at h
    simp only [compileConfig, compileAdvancedCondition, compileInput, questionConfig,
      compileDynamicText, firstOf, List.map_cons, List.map_nil, hid, h]

end Data

structure EdgeGist where
  id : Json
  source : Json
  target : Json
  sourceHandle : Json
  label : Json
deriving DecidableEq

def textOrNull (s : Option Text) : Json := s.elim .null .str

def edgeGist (e : Edge) : EdgeGist where
  id := .str e.id
  source := .str e.source
  target := .str e.target
  sourceHandle := textOrNull e.sourceHandle
  label := textOrNull e.label

/-- The edge without the handle that it ends at. -/
def unhandled (e : Edge) : Edge := { e with targetHandle := none }

theorem textOrNull_injective : Function.Injective textOrNull := by
  intro s t h
  cases s with
  | none =>
    cases t with
    | none => rfl
    | some _ => cases h
  | some _ =>
    cases t with
    | none => cases h
    | some _ => exact congrArg some (Json.str.inj h)

theorem unhandled_eq_of_edgeGist_eq {e f : Edge} (h : edgeGist e = edgeGist f) :
    unhandled e = unhandled f := by
  obtain ⟨hid, hsource, htarget, hhandle, hlabel⟩ := EdgeGist.mk.inj h
  rw [unhandled, unhandled, Json.str.inj hid, Json.str.inj hsource, Json.str.inj htarget,
    textOrNull_injective hhandle, textOrNull_injective hlabel]

theorem filter_map_unhandled (edges : List Edge) (source : Text) :
    (edges.map unhandled).filter (·.source = source) =
      (edges.filter (·.source = source)).map unhandled :=
  List.filter_map

theorem transitionsOf_map_unhandled (edges : List Edge) (source : Text) :
    transitionsOf (edges.map unhandled) source = transitionsOf edges source := by
  rw [transitionsOf, filter_map_unhandled, transitionsOf]
  refine List.ext_getElem? fun i => ?_
  rw [List.getElem?_mapIdx, List.getElem?_map, List.getElem?_mapIdx, Option.map_map]
  rfl

structure NodeGist where
  id : Json
  type : Json
  data : List (Text × Json)
deriving DecidableEq

/-- What counts of the data of a node: all of it unless the node is of a known kind. -/
def bagGist (type : Text) (data : Table Json) : List (Text × Json) :=
  match NodeKind.ofName? type with
  | some kind => dataGist kind data
  | none => data.entries

def nodeGist (n : Editor.Node) : NodeGist where
  id := .str n.id
  type := .str n.type
  data := bagGist n.type n.data

section Nodes

variable {m n : Editor.Node} {edges others : List Edge}

theorem id_eq_of_nodeGist_eq (h : nodeGist m = nodeGist n) : m.id = n.id :=
  Json.str.inj (NodeGist.mk.inj h).1

theorem type_eq_of_nodeGist_eq (h : nodeGist m = nodeGist n) : m.type = n.type :=
  Json.str.inj (NodeGist.mk.inj h).2.1

theorem assemble_eq (hid : m.id = n.id)
    (hedges : edges.map unhandled = others.map unhandled) (type : Text) (config : Config) :
    assemble edges m type config = assemble others n type config := by
  rw [assemble, assemble, hid, ← transitionsOf_map_unhandled edges, hedges,
    transitionsOf_map_unhandled]

variable [Host]

theorem compileNode_eq (h : nodeGist m = nodeGist n)
    (hedges : edges.map unhandled = others.map unhandled) :
    compileNode edges m = compileNode others n := by
  have hid : m.id = n.id := id_eq_of_nodeGist_eq h
  have htype : m.type = n.type := type_eq_of_nodeGist_eq h
  have hdata : bagGist n.type m.data = bagGist n.type n.data := htype ▸ (NodeGist.mk.inj h).2.2
  rw [compileNode, compileNode, htype]
  cases hkind : NodeKind.ofName? n.type with
  | some kind =>
    simp only [bagGist, hkind] at hdata
    simp only [compileKind, compileConfig_eq hid hdata, assemble_eq hid hedges]
  | none =>
    simp only [bagGist, hkind] at hdata
    simp only [passThrough, hid, htype, Table.ext_entries hdata, assemble_eq hid hedges]

theorem attempt_eq (h : nodeGist m = nodeGist n)
    (hedges : edges.map unhandled = others.map unhandled) :
    attempt edges m = attempt others n := by
  rw [attempt, attempt, compileNode_eq h hedges, id_eq_of_nodeGist_eq h]

end Nodes

structure Gist where
  nodes : List NodeGist
  edges : List EdgeGist
deriving DecidableEq

def graphGist (g : Graph) : Gist where
  nodes := g.nodes.map nodeGist
  edges := g.edges.map edgeGist

/-- The node without its data. -/
def bare (n : Editor.Node) : Editor.Node := { n with data := .empty }

theorem bare_eq_of_nodeGist_eq {m n : Editor.Node} (h : nodeGist m = nodeGist n) :
    bare m = bare n := by
  rw [bare, bare, id_eq_of_nodeGist_eq h, type_eq_of_nodeGist_eq h]

theorem mapM_eq_of_map_eq {ε α β γ : Type} {as : List α} {bs : List β} {f : α → Job ε γ}
    {f' : β → Job ε γ} (heq : as.map f = bs.map f') : as.mapM f = bs.mapM f' := by
  have hmapM {δ : Type} (ds : List δ) (k : δ → Job ε γ) : ds.mapM k = (ds.map k).mapM id := by
    rw [List.mapM_map]
    rfl
  rw [hmapM, heq, ← hmapM]

section Graphs

variable {g other : Graph}

theorem outgoing_unhandled_eq (hgist : graphGist g = graphGist other) (id : Text) :
    (g.outgoing id).map unhandled = (other.outgoing id).map unhandled := by
  have hedges : g.edges.map unhandled = other.edges.map unhandled :=
    map_eq_map_of_map_eq (Gist.mk.inj hgist).2 fun _ _ => unhandled_eq_of_edgeGist_eq
  rw [Graph.outgoing, Graph.outgoing, ← filter_map_unhandled, hedges, filter_map_unhandled]

theorem map_bare_eq (hgist : graphGist g = graphGist other) :
    g.nodes.map bare = other.nodes.map bare :=
  map_eq_map_of_map_eq (Gist.mk.inj hgist).1 fun _ _ => bare_eq_of_nodeGist_eq

theorem map_bare_startNodes_eq (hgist : graphGist g = graphGist other) :
    g.startNodes.map bare = other.startNodes.map bare := by
  have hstarts (k : Graph) : k.startNodes.map bare =
      (k.nodes.map bare).filter (·.type = ("start" : Text)) := by
    rw [List.filter_map]
    rfl
  rw [hstarts, hstarts, map_bare_eq hgist]

theorem startIssues_map_bare (starts : List Editor.Node) :
    Editor.startIssues (starts.map bare) = Editor.startIssues starts := by
  match starts with
  | [] => rfl
  | [_] => rfl
  | _ :: _ :: _ =>
    simp only [List.map_cons, Editor.startIssues, List.map_map]
    rfl

theorem issuesOfNodes_map_bare (extraTypes seen : List Text) (nodes : List Editor.Node) :
    Editor.issuesOfNodes extraTypes seen (nodes.map bare) =
      Editor.issuesOfNodes extraTypes seen nodes := by
  induction nodes generalizing seen with
  | nil => rfl
  | cons n rest ih =>
    rw [List.map_cons, Editor.issuesOfNodes, ih]
    rfl

theorem check_eq (hgist : graphGist g = graphGist other) (extraTypes : List Text) :
    g.check extraTypes = other.check extraTypes := by
  rw [Graph.check, ← startIssues_map_bare, map_bare_startNodes_eq hgist, startIssues_map_bare,
    ← issuesOfNodes_map_bare, map_bare_eq hgist, issuesOfNodes_map_bare, Graph.check]

variable [Host]

theorem compileNodes_eq (hgist : graphGist g = graphGist other) :
    compileNodes g = compileNodes other := by
  have hattempts : g.nodes.map (fun n => attempt (g.outgoing n.id) n) =
      other.nodes.map fun n => attempt (other.outgoing n.id) n := by
    refine map_eq_map_of_map_eq (Gist.mk.inj hgist).1 fun m n hnode => ?_
    refine attempt_eq hnode ?_
    rw [id_eq_of_nodeGist_eq hnode]
    exact outgoing_unhandled_eq hgist n.id
  simp only [compileNodes, getD_edgesBySource, mapM_eq_of_map_eq hattempts]

theorem compileGraph_eq (hgist : graphGist g = graphGist other) (settings : Settings)
    (metadata : Metadata) :
    compileGraph settings g metadata = compileGraph settings other metadata := by
  have hnodes : g.nodes.length = other.nodes.length := by
    simpa using congrArg List.length (map_bare_eq hgist)
  have hedges : g.edges.length = other.edges.length := by
    simpa using congrArg List.length (Gist.mk.inj hgist).2
  simp only [compileGraph, hnodes, hedges, check_eq hgist, compileNodes_eq hgist]

end Graphs

end ConversationFlow.Compile
