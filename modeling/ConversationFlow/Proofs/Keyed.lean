import ConversationFlow.Proofs.RoundTrip

/-!
# Nodes under their ids

A flow that was compiled has every node under its own id. A flow that was imported has its nodes
under the keys of the document, which are compared with the ids nowhere: it is keyed by id exactly if
the document is.
-/

namespace ConversationFlow

open Compile Schema Text
open Editor (Graph)
open Executable (Flow)

/-- Every node of a flow is found under its id, and no two nodes have the same one. -/
structure Executable.Flow.IsKeyedById (flow : Flow) : Prop where
  id_eq : ∀ key n, flow.getNode? key = some n → n.id = key
  distinct : (flow.nodes.values.map (·.id)).Nodup
  found : ∀ n ∈ flow.nodes.values, flow.getNode? n.id = some n
  entry : ∃ n, flow.getNode? flow.entryNodeId = some n ∧ n.id = flow.entryNodeId

namespace Executable.Flow

variable {flow : Flow}

theorem isKeyedById_iff (hstart : flow.HasStart) :
    flow.IsKeyedById ↔ ∀ entry ∈ flow.nodes.entries, entry.2.id = entry.1 := by
  constructor
  · rintro hkeyed ⟨key, n⟩ hentry
    exact hkeyed.id_eq key n (Table.get?_eq_some_iff.2 hentry)
  · intro hentries
    have hid (key : Text) (n : Node) (hn : flow.getNode? key = some n) : n.id = key :=
      hentries (key, n) (Table.get?_eq_some_iff.1 hn)
    refine ⟨hid, ?_, ?_, ?_⟩
    -- the ids are the keys, which a table has only once
    · have hids : flow.nodes.values.map (·.id) = flow.nodes.entries.map Prod.fst := by
        rw [Table.values, List.map_map]
        exact List.map_congr_left hentries
      rw [hids]
      exact flow.nodes.distinct
    · intro n hn
      obtain ⟨⟨key, _⟩, hentry, rfl⟩ := List.mem_map.1 hn
      rw [hentries _ hentry]
      exact Table.get?_eq_some_iff.2 hentry
    · obtain ⟨n, hentry, -⟩ := hstart
      exact ⟨n, hentry, hid _ n hentry⟩

end Executable.Flow

/-- A document holds a node under a key that is not the id of the node. -/
def HoldsMisplaced (v : Json) : Prop :=
  ∃ entries nodes, v = .obj entries ∧ entries.lookup ("nodes" : Text) = some (.obj nodes) ∧
    ∃ key fields, (key, .obj fields) ∈ nodes ∧ fields.lookup ("id" : Text) ≠ some (.str key)

/-- A text holds a document with a misplaced node. -/
def HoldsMisplacedNode (s : List Symbol) : Prop :=
  ∃ v, Json.read .document s = .ok v ∧ HoldsMisplaced v

namespace Executable

variable {source : Source} {v : Json}

theorem lookup_of_required {f : Fields} {name s : Text}
    (h : f.required (.same name) text = .accepted s) : f.entries.lookup name = some (.str s) := by
  unfold Fields.required at h
  rw [find?_same] at h
  cases hlookup : f.entries.lookup name with
  | none => simp [hlookup] at h
  | some w =>
    rw [hlookup, Option.map_some] at h
    have hread : text w = .accepted s := Reading.under_eq_accepted_iff.1 h
    cases w with
    | str s => cases hread; rfl
    | null | bool | int | float | arr | obj => cases hread

theorem Node.lookup_id_of_read {fields : List (Text × Json)} {n : Node}
    (h : Record.read source (.obj fields) = .accepted n) :
    fields.lookup ("id" : Text) = some (.str n.id) := by
  obtain ⟨entries, heq, hfrom⟩ := Node.isReadFrom_of_read h
  cases heq
  exact lookup_of_required hfrom.id

namespace Flow

variable {flow : Flow}

/-- The entries of a flow that was read were read one by one from those of the document. -/
theorem nodes_of_read (hv : v.HasDistinctKeys) (h : Record.read source v = .accepted flow) :
    ∃ entries, v = .obj entries ∧
      (entries.lookup ("nodes" : Text) = none ∧ flow.nodes = .empty ∨
        ∃ nodes, entries.lookup ("nodes" : Text) = some (.obj nodes) ∧
          List.Forall₂ (fun field entry => entry.1 = field.1 ∧
            Record.read source field.2 = .accepted entry.2) nodes flow.nodes.entries) := by
  obtain ⟨entries, rfl, hfrom⟩ := isReadFrom_of_read h
  have hnodes := hfrom.nodes
  refine ⟨entries, rfl, ?_⟩
  unfold Fields.defaulted at hnodes
  rw [Keys.nodes, find?_same] at hnodes
  cases hlookup : entries.lookup ("nodes" : Text) with
  | none =>
    rw [hlookup] at hnodes
    exact .inl ⟨rfl, (Reading.accepted.inj hnodes).symm⟩
  | some w =>
    rw [hlookup, Option.map_some] at hnodes
    have hmapping := Reading.under_eq_accepted_iff.1 hnodes
    unfold mapping at hmapping
    split at hmapping
    · next fields =>
      obtain ⟨items, hitems, htable⟩ := Reading.map_eq_accepted_iff.1 hmapping
      -- the keys of the document are distinct, so no entry replaces another one in the table
      have hread := forall₂_entriesOf hitems
      have hkeys : fields.map Prod.fst = items.map Prod.fst :=
        map_eq_map_of_forall₂ hread fun _ _ hentry => hentry.1.symm
      have hdistinct : (fields.map Prod.fst).Nodup :=
        (Json.every_obj_iff.1 (hasDistinctKeys_of_mem hv _ (mem_of_lookup_eq_some hlookup))).1
      refine .inr ⟨fields, rfl, ?_⟩
      rwa [← htable, Table.entries_ofList (hkeys ▸ hdistinct)]
    · cases hmapping

theorem ids_eq_keys_iff_of_read (hv : v.HasDistinctKeys)
    (h : Record.read source v = .accepted flow) :
    (∀ entry ∈ flow.nodes.entries, entry.2.id = entry.1) ↔ ¬HoldsMisplaced v := by
  obtain ⟨entries, rfl, ⟨hnone, hempty⟩ | ⟨nodes, hnodes, hread⟩⟩ := nodes_of_read hv h
  · refine iff_of_true (by simp [hempty, Table.empty]) ?_
    rintro ⟨_, nodes, heq, hlookup, -⟩
    cases heq
    simp [hnone] at hlookup
  · constructor
    · rintro hids ⟨_, _, heq, hlookup, key, fields, hfield, hmisplaced⟩
      cases heq
      obtain rfl : _ = nodes := by simpa [hnodes] using hlookup.symm
      obtain ⟨⟨_, n⟩, hentry, rfl, hnode⟩ := exists_right_of_forall₂ hread hfield
      rw [← hids _ hentry] at hmisplaced
      exact hmisplaced (Node.lookup_id_of_read hnode)
    · rintro hplaced ⟨key, n⟩ hentry
      obtain ⟨⟨_, w⟩, hfield, rfl, hnode⟩ := exists_left_of_forall₂ hread hentry
      obtain ⟨fields, rfl, -⟩ := exists_of_read hnode
      have hid := Node.lookup_id_of_read hnode
      by_contra hne
      refine hplaced ⟨entries, nodes, rfl, hnodes, _, fields, hfield, ?_⟩
      rw [hid]
      simpa using hne

end Flow

end Executable

variable {settings : Settings} {flow : Flow} {provider : Provider} {journal : Journal}

theorem isKeyedById_iff_of_readFlow {s : List Symbol} (hread : readFlow s = .ok flow)
    (hstart : flow.HasStart) : flow.IsKeyedById ↔ ¬HoldsMisplacedNode s := by
  obtain ⟨v, hv, hdistinct, -, hflow⟩ := exists_read_of_readFlow hread
  rw [Flow.isKeyedById_iff hstart, Flow.ids_eq_keys_iff_of_read hdistinct hflow]
  refine not_congr ⟨fun hmisplaced => ⟨v, hv, hmisplaced⟩, ?_⟩
  rintro ⟨w, hw, hmisplaced⟩
  rw [hv, Except.ok.injEq] at hw
  exact hw ▸ hmisplaced

section Host

variable [Host]

theorem isKeyedById_of_compileGraph {g : Graph} {metadata : Metadata}
    (h : ((compileGraph settings g metadata).runFrom provider journal).1 = .ok flow) :
    flow.IsKeyedById := by
  obtain ⟨-, hflow, hrunnable⟩ := isFlowOf_of_compileGraph h
  rw [Flow.isKeyedById_iff hrunnable.start]
  rintro ⟨key, node⟩ hentry
  obtain ⟨n, -, hkey, hcompiled⟩ := hflow.nodes.exists_origin hentry
  exact hcompiled.id_eq.trans hkey

/-- A flow that was compiled is keyed by id, and one that was imported is exactly if no node of the
text stands under a key that is not its id. -/
theorem isKeyedById_of_returned (settings : Settings) (flow : Flow) (provider : Provider)
    (journal : Journal) :
    (∀ g metadata, ((compileGraph settings g metadata).runFrom provider journal).1 = .ok flow →
      flow.IsKeyedById) ∧
    (∀ drawing metadata, ((compile settings drawing metadata).runFrom provider journal).1 =
      .ok flow → flow.IsKeyedById) ∧
    (∀ s, ((importFlow settings s).runFrom provider journal).1 = .ok flow →
      (flow.IsKeyedById ↔ ¬HoldsMisplacedNode s)) := by
  refine ⟨fun g metadata h => isKeyedById_of_compileGraph h, ?_, ?_⟩
  · intro drawing metadata h
    obtain ⟨g, data, -, later, -, -, hcompiled⟩ := exists_compileGraph_of_compile h
    exact isKeyedById_of_compileGraph hcompiled
  · intro s h
    obtain ⟨hread, hrunnable⟩ := readFlow_of_importFlow h
    exact isKeyedById_iff_of_readFlow hread hrunnable.start

end Host

section SampleHost

attribute [local instance] sampleHost

theorem isKeyedById_of_returned_sampleDrawing :
    ∃ flow, ((compileGraph sampleSettings sampleDrawing sampleMetadata).runFrom sampleProvider
      .empty).1 = .ok flow ∧ flow.IsKeyedById := by
  obtain ⟨flow, hflow⟩ := exists_compileGraph_sampleDrawing
  exact ⟨flow, hflow, (isKeyedById_of_returned sampleSettings flow sampleProvider .empty).1 _ _ hflow⟩

end SampleHost

/-- A flow of one node with the id `s`, which stands under the key `k`. -/
def misplacedText : String :=
  "\x7b\"id\":\"f\",\"name\":\"F\",\"metadata\":\x7b\"createdAt\":\"2024-01-15T09:30:00Z\"," ++
  "\"updatedAt\":\"2024-01-15T09:30:00Z\"\x7d,\"entryNodeId\":\"k\"," ++
  "\"nodes\":\x7b\"k\":\x7b\"id\":\"s\",\"type\":\"start\",\"config\":\x7b\x7d\x7d\x7d\x7d"

theorem not_isKeyedById_misplacedText :
    ∃ flow, ((importFlow .plain (symbols misplacedText)).runFrom sampleProvider .empty).1 = .ok flow ∧
      ¬flow.IsKeyedById := by
  obtain ⟨flow, hflow, hnode⟩ : ∃ flow, ((importFlow .plain (symbols misplacedText)).runFrom
      sampleProvider .empty).1 = .ok flow ∧
        (flow.getNode? "k").map (·.id) = some ("s" : Text) := by
    decide +kernel
  obtain ⟨n, hn, hid⟩ := Option.map_eq_some_iff.1 hnode
  refine ⟨flow, hflow, fun hkeyed => ?_⟩
  have hkey := hkeyed.id_eq "k" n hn
  rw [hid] at hkey
  exact absurd hkey (by decide)

end ConversationFlow
