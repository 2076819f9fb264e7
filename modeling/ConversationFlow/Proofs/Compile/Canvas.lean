import ConversationFlow.Proofs.Compile.Acceptance
import ConversationFlow.Proofs.Compile.Call
import ConversationFlow.Proofs.Compile.Gist
import ConversationFlow.Proofs.RoundTrip
import ConversationFlow.Sample

/-!
# The canvas does not count

A document of the editor says where nodes stand and what they look like, and it may hold keys that
mean nothing. None of that has an influence on a compilation: what documents come to depends on what
the gist of a drawing can be read off, and on nothing else.
-/

namespace ConversationFlow

open Schema

namespace Schema.Fields

variable {α : Type} {f : Fields} {key : Key}

/-- The value of a field under either of its spellings, null if it is not given. -/
def value (f : Fields) (key : Key) : Json := (f.find? key).elim .null Prod.snd

theorem value_of_required {read : Json → Reading α} {a : α}
    (h : f.required key read = .accepted a) : read (f.value key) = .accepted a := by
  unfold required at h
  rw [value]
  split at h
  · next spelling v hfind =>
    rw [hfind]
    exact Reading.under_eq_accepted_iff.1 h
  · cases h

/-- A field that is not given counts as null where null is read as the fallback. -/
theorem value_of_defaulted {read : Json → Reading α} {fallback a : α}
    (hnull : read .null = .accepted fallback) (h : f.defaulted key fallback read = .accepted a) :
    read (f.value key) = .accepted a := by
  unfold defaulted at h
  rw [value]
  split at h
  · next spelling v hfind =>
    rw [hfind]
    exact Reading.under_eq_accepted_iff.1 h
  · next hfind =>
    rw [hfind]
    exact hnull.trans h

theorem items_value_of_defaulted {source : Source} {read : Json → Reading α} {as : List α}
    (h : f.defaulted key [] (list source read) = .accepted as) :
    List.Forall₂ (fun v a => read v = .accepted a) (f.value key).items as := by
  unfold defaulted at h
  rw [value]
  split at h
  · next spelling v hfind =>
    rw [hfind]
    have hlist := Reading.under_eq_accepted_iff.1 h
    unfold list at hlist
    split at hlist
    · exact forall₂_itemsFrom hlist
    · cases hlist
  · next hfind =>
    cases h
    rw [hfind]
    exact .nil

end Schema.Fields

namespace Compile

open Editor (Edge Graph)

def fieldsOf : Json → Fields
  | .obj entries => ⟨entries⟩
  | _ => ⟨[]⟩

/-- The data of a node; null and data that are not given count as empty. -/
def bagOf : Json → Table Json
  | .obj fields => .ofList fields
  | _ => .empty

def nodeGistOf (v : Json) : NodeGist where
  id := (fieldsOf v).value Keys.id
  type := (fieldsOf v).value Keys.type
  data :=
    match (fieldsOf v).value Keys.type with
    | .str type => bagGist type (bagOf ((fieldsOf v).value Keys.data))
    | _ => []

def edgeGistOf (v : Json) : EdgeGist where
  id := (fieldsOf v).value Keys.id
  source := (fieldsOf v).value Keys.source
  target := (fieldsOf v).value Keys.target
  sourceHandle := (fieldsOf v).value Keys.sourceHandle
  label := (fieldsOf v).value Keys.label

/-- What counts of a document that holds a drawing. -/
def gistOf (v : Json) : Gist where
  nodes := ((fieldsOf v).value Keys.nodes).items.map nodeGistOf
  edges := ((fieldsOf v).value Keys.edges).items.map edgeGistOf

theorem eq_textOrNull_of_nullable {v : Json} {s : Option Text}
    (h : nullable text v = .accepted s) : v = textOrNull s := by
  unfold nullable at h
  split at h
  · cases h
    rfl
  · obtain ⟨t, ht, rfl⟩ := Reading.map_eq_accepted_iff.1 h
    exact eq_str_of_text ht

theorem entriesOf_anything (fields : List (Text × Json)) :
    entriesOf anything fields = .accepted fields := by
  induction fields with
  | nil => rfl
  | cons field rest ih =>
    rw [entriesOf, ih]
    rfl

theorem bagOf_of_readData {source : Source} {v : Json} {data : Table Json}
    (h : Editor.Node.readData source v = .accepted data) : bagOf v = data := by
  unfold Editor.Node.readData at h
  split at h
  · cases h
    rfl
  · unfold mapping at h
    split at h
    · rw [entriesOf_anything] at h
      cases h
      rfl
    · cases h

variable {source : Source} {v : Json}

theorem nodeGistOf_of_read {n : Editor.Node} (h : Record.read source v = .accepted n) :
    nodeGistOf v = nodeGist n := by
  obtain ⟨entries, rfl, hfields⟩ := exists_of_read h
  obtain ⟨_, hrest, data, hdata, rfl⟩ := Reading.seq_eq_accepted_iff.1 hfields
  obtain ⟨_, hfirst, type, htype, rfl⟩ := Reading.seq_eq_accepted_iff.1 hrest
  obtain ⟨id, hid, rfl⟩ := Reading.map_eq_accepted_iff.1 hfirst
  have hidValue := eq_str_of_text (Fields.value_of_required hid)
  have htypeValue := eq_str_of_text (Fields.value_of_required htype)
  have hdataValue := bagOf_of_readData (Fields.value_of_defaulted rfl hdata)
  simp only [nodeGistOf, fieldsOf, hidValue, htypeValue, hdataValue, nodeGist]

theorem edgeGistOf_of_read {e : Edge} (h : Record.read source v = .accepted e) :
    edgeGistOf v = edgeGist e := by
  obtain ⟨entries, rfl, hfields⟩ := exists_of_read h
  obtain ⟨_, h₅, label, hlabel, rfl⟩ := Reading.seq_eq_accepted_iff.1 hfields
  obtain ⟨_, h₄, targetHandle, -, rfl⟩ := Reading.seq_eq_accepted_iff.1 h₅
  obtain ⟨_, h₃, sourceHandle, hhandle, rfl⟩ := Reading.seq_eq_accepted_iff.1 h₄
  obtain ⟨_, h₂, target, htarget, rfl⟩ := Reading.seq_eq_accepted_iff.1 h₃
  obtain ⟨_, h₁, start, hstart, rfl⟩ := Reading.seq_eq_accepted_iff.1 h₂
  obtain ⟨id, hid, rfl⟩ := Reading.map_eq_accepted_iff.1 h₁
  simp only [edgeGistOf, fieldsOf, eq_str_of_text (Fields.value_of_required hid),
    eq_str_of_text (Fields.value_of_required hstart),
    eq_str_of_text (Fields.value_of_required htarget),
    eq_textOrNull_of_nullable (Fields.value_of_defaulted rfl hhandle),
    eq_textOrNull_of_nullable (Fields.value_of_defaulted rfl hlabel), edgeGist]

/-- The gist of a drawing can be read off its document. -/
theorem gistOf_of_read {g : Graph} (h : Record.read source v = .accepted g) :
    gistOf v = graphGist g := by
  obtain ⟨entries, rfl, hfields⟩ := exists_of_read h
  obtain ⟨_, hrest, viewport, -, rfl⟩ := Reading.seq_eq_accepted_iff.1 hfields
  obtain ⟨_, hfirst, edges, hedges, rfl⟩ := Reading.seq_eq_accepted_iff.1 hrest
  obtain ⟨nodes, hnodes, rfl⟩ := Reading.map_eq_accepted_iff.1 hfirst
  rw [gistOf, fieldsOf, graphGist,
    map_eq_map_of_forall₂ (Fields.items_value_of_defaulted hnodes) fun _ _ => nodeGistOf_of_read,
    map_eq_map_of_forall₂ (Fields.items_value_of_defaulted hedges) fun _ _ => edgeGistOf_of_read]

section Host

variable [Host]

theorem Call.compile_document {settings : Settings} {drawing : Json} {g : Graph}
    (h : readRecord .values drawing = .ok g) (metadata : Handed Metadata) :
    (Call.mk settings (.document drawing) metadata).compile =
      (Call.mk settings (.record g) metadata).compile := by
  have hdrawing : (Call.mk settings (.document drawing) metadata).readDrawing = pure g := by
    simp only [readDrawing, readGraph, h]
    rfl
  rw [compile, coerce, hdrawing]
  rfl

theorem Call.compile_record_eq {settings : Settings} {g other : Graph}
    (hgist : graphGist g = graphGist other) (metadata : Handed Metadata) :
    (Call.mk settings (.record g) metadata).compile =
      (Call.mk settings (.record other) metadata).compile := by
  simp only [compile, coerce, readDrawing, readData, pure_bind, bind_assoc,
    compileGraph_eq hgist]

/-- Documents with the same gist, in which drawings can be read, compile alike: they come to the same
flow or fail in the same way, issue the same ids and record the same events. -/
theorem runFrom_compile_eq_of_gistOf_eq {drawing other : Json} {g g' : Graph}
    (hdrawing : readRecord .values drawing = .ok g) (hother : readRecord .values other = .ok g')
    (hgist : gistOf drawing = gistOf other) (settings : Settings) (metadata : Handed Metadata)
    (provider : Provider) (journal : Journal) :
    (Call.mk settings (.document drawing) metadata).compile.runFrom provider journal =
      (Call.mk settings (.document other) metadata).compile.runFrom provider journal := by
  have hgraphs : graphGist g = graphGist g' := by
    rw [← gistOf_of_read (exists_read_of_readRecord hdrawing), hgist,
      gistOf_of_read (exists_read_of_readRecord hother)]
  rw [Call.compile_document hdrawing, Call.compile_document hother,
    Call.compile_record_eq hgraphs]

end Host

def documentNode (id type : Text) (more : List (Text × Json)) : Json :=
  .obj (("id", .str id) :: ("type", .str type) :: more)

def plainDocument : Json :=
  .obj
    [("nodes", .arr
      [documentNode "start" "start" [],
        documentNode "ask" "message"
          [("data", .obj
            [("text", .str "Where to?"),
              ("buttons", .arr [.obj [("text", .str "Shop")], .null, .obj [("label", .str "Home")]])])],
        documentNode "shop" "carousel"
          [("data", .obj
            [("cards", .arr
              [.obj
                [("title", .str "Boots"),
                  ("buttons", .arr [.obj [("text", .str "Buy"), ("action", .str "buy")]])]])])],
        documentNode "sign" "form"
          [("data", .obj [("fields", .arr [.bool true, .obj [("type", .str "email")]])])],
        documentNode "vip" "advancedCondition"
          [("data", .obj [("conditions", .arr [.obj [("expression", .str "tier == 1")]])])],
        documentNode "extra" "custom" [("data", .obj [("note", .str "kept")])],
        documentNode "end" "end" []]),
      ("edges", .arr
        [Sample.edge "e1" "start" "ask",
          Sample.edge "e2" "ask" "shop",
          Sample.branch "e3" "vip" "end" "yes"])]

/-- The plain document once it has been laid out: with positions, styles and a viewport, with keys
that mean nothing at every depth, and with data that are empty or null. -/
def styledDocument : Json :=
  .obj
    [("viewport", .obj [("zoom", .int 2)]),
      ("theme", .str "dark"),
      ("edges", .arr
        [.obj
          [("id", .str "e1"), ("source", .str "start"), ("target", .str "ask"),
            ("targetHandle", .str "top"), ("sourceHandle", .null), ("animated", .bool true)],
          Sample.edge "e2" "ask" "shop",
          .obj
            [("source_handle", .str "yes"), ("id", .str "e3"), ("source", .str "vip"),
              ("target", .str "end"), ("style", .obj [("stroke", .str "red")])]]),
      ("nodes", .arr
        [documentNode "start" "start"
            [("data", .obj [("label", .str "Begin")]), ("position", .obj [("x", .int 3)])],
          documentNode "ask" "message"
            [("selected", .bool true),
              ("data", .obj
                [("buttons", .arr
                    [.obj [("color", .str "blue"), ("text", .str "Shop"), ("label", .null)],
                      .int 5,
                      .obj [("label", .str "Home"), ("id", .str "b2")]]),
                  ("text", .str "Where to?"),
                  ("note", .str "first contact")])],
          documentNode "shop" "carousel"
            [("data", .obj
              [("cards", .arr
                [.obj
                  [("width", .int 40),
                    ("title", .str "Boots"),
                    ("buttons", .arr
                      [.obj
                        [("text", .str "Buy"), ("action", .str "buy"), ("icon", .str "cart")]])]])])],
          documentNode "sign" "form"
            [("data", .obj
              [("fields", .arr
                  [.str "heading", .obj [("type", .str "email"), ("required", .null), ("row", .int 1)]]),
                ("formTitle", .str "Stay in touch")])],
          documentNode "vip" "advancedCondition"
            [("data", .obj
              [("conditions", .arr
                [.obj [("field", .str "tier"), ("expression", .str "tier == 1")],
                  .obj [("expression", .str "tier == 2")]])])],
          documentNode "extra" "custom"
            [("width", .int 7), ("data", .obj [("note", .str "kept")])],
          documentNode "end" "end" [("data", .null)]])]

attribute [local instance] sampleHost

theorem runFrom_compile_styledDocument :
    plainDocument ≠ styledDocument ∧ ∃ flow later,
      (Call.mk sampleSettings (.document plainDocument) (.record sampleMetadata)).compile.runFrom
        sampleProvider .empty = (.ok flow, later) ∧
      (Call.mk sampleSettings (.document styledDocument) (.record sampleMetadata)).compile.runFrom
        sampleProvider .empty = (.ok flow, later) := by
  obtain ⟨g, hg⟩ : ∃ g : Graph, readRecord .values plainDocument = .ok g := by decide +kernel
  obtain ⟨g', hg'⟩ : ∃ g : Graph, readRecord .values styledDocument = .ok g := by decide +kernel
  have hgist : gistOf plainDocument = gistOf styledDocument := by decide +kernel
  obtain ⟨flow, hflow⟩ : ∃ flow, ((Call.mk sampleSettings (.document plainDocument)
      (.record sampleMetadata)).compile.runFrom sampleProvider .empty).1 = .ok flow := by
    decide +kernel
  refine ⟨by decide +kernel, flow, _, Prod.ext hflow rfl, ?_⟩
  rw [← runFrom_compile_eq_of_gistOf_eq hg hg' hgist]
  exact Prod.ext hflow rfl

end Compile

end ConversationFlow
