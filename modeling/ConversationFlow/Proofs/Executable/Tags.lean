import ConversationFlow.Proofs.Executable.Ordinary

/-!
# Nodes without a tag

The type of a node is looked up to tell which configuration the node has. A list or an object cannot
be looked up, and a document with such a node is not read to its end; every other document is read as
a flow or refused with findings.
-/

namespace ConversationFlow.Executable

open Schema

/-- The type of a node is a list or an object, and its configuration is an object. -/
def LacksTag (node : Json) : Prop :=
  ∃ entries, node = .obj entries ∧ (∃ config, entries.lookup ("config" : Text) = some (.obj config)) ∧
    ((∃ items, entries.lookup ("type" : Text) = some (.arr items)) ∨
      ∃ fields, entries.lookup ("type" : Text) = some (.obj fields))

/-- One of the nodes of a document lacks a tag. -/
def HoldsUntagged (v : Json) : Prop :=
  ∃ entries nodes, v = .obj entries ∧ entries.lookup ("nodes" : Text) = some (.obj nodes) ∧
    ∃ field ∈ nodes, LacksTag field.2

theorem find?_same {entries : List (Text × Json)} {name : Text} :
    (⟨entries⟩ : Fields).find? (.same name) = (entries.lookup name).map (name, ·) := by
  unfold Fields.find? Key.same
  cases entries.lookup name <;> rfl

namespace Node

theorem untagged_typeOf_iff {f : Fields} :
    (typeOf f).Untagged ↔ (∃ items, f.entries.lookup ("type" : Text) = some (.arr items)) ∨
      ∃ fields, f.entries.lookup ("type" : Text) = some (.obj fields) := by
  unfold typeOf Reading.Untagged
  split <;> simp_all

theorem ordinary_typeOf {f : Fields} (h : ¬(typeOf f).Untagged) : (typeOf f).Ordinary := by
  unfold typeOf at h ⊢
  split <;> simp_all [Reading.Untagged]

theorem ordinary_readNoConfig (source : Source) (v : Json) : (readNoConfig source v).Ordinary :=
  .refused (by simp [Config.titles, Choice.all])

theorem ordinary_readConfig {source : Source} {f : Fields} {v : Json}
    (h : (∃ entries, v = .obj entries) → ¬(typeOf f).Untagged) :
    (readConfig source f v).Ordinary := by
  unfold readConfig
  split
  · next entries =>
    exact (ordinary_typeOf (h ⟨entries, rfl⟩)).andThen fun type =>
      Config.ordinary_read source type _
  · exact ordinary_readNoConfig source v

theorem ordinary_readType (v : Json) : (readType v).Ordinary := by
  unfold readType
  split <;> simp

theorem ordinary_read {source : Source} {v : Json} (h : ¬LacksTag v) :
    (Record.read source v : Reading Node).Ordinary := by
  cases v with
  | obj entries =>
    have htag : (∃ config, entries.lookup ("config" : Text) = some (.obj config)) →
        ¬(typeOf ⟨entries⟩).Untagged :=
      fun hconfig htype => h ⟨entries, rfl, hconfig, untagged_typeOf_iff.1 htype⟩
    refine Reading.Ordinary.andThen ?_ fun _ =>
      Reading.Ordinary.checkedBy (.seqLeft ?_ (by simp)) (by simp)
    · change (readConfigFirst source ⟨entries⟩).Ordinary
      unfold readConfigFirst
      split
      · next config hconfig =>
        exact (Reading.ordinary_map_iff _ _).2 (ordinary_readConfig fun _ => htag ⟨config, hconfig⟩)
      · simp
    · have hconfig :
          (Fields.required ⟨entries⟩ Keys.config (readConfig source ⟨entries⟩)).Ordinary := by
        refine Fields.ordinary_required_of_find? fun spelling v hfind => ordinary_readConfig ?_
        rintro ⟨config, rfl⟩
        rw [Keys.config, find?_same, Option.map_eq_some_iff] at hfind
        obtain ⟨_, hlookup, heq⟩ := hfind
        rw [Prod.mk.injEq] at heq
        exact htag ⟨config, heq.2 ▸ hlookup⟩
      have htype : (Fields.required ⟨entries⟩ Keys.type readType).Ordinary :=
        Fields.ordinary_required _ _ ordinary_readType
      refine Reading.Ordinary.seq (.seq (.seq (.seq (.seq (.seq ?_ htype) hconfig) ?_) ?_) ?_) ?_
      all_goals simp
  | null | bool _ | int _ | float _ | str _ | arr _ => simp [Record.read, object]

theorem untagged_read {source : Source} {v : Json} (h : LacksTag v) :
    (Record.read source v : Reading Node).Untagged := by
  obtain ⟨entries, rfl, ⟨config, hconfig⟩, htype⟩ := h
  refine Reading.Untagged.andThen ?_ _
  change (readConfigFirst source ⟨entries⟩).Untagged
  unfold readConfigFirst
  simp only [hconfig, readConfig]
  exact ((untagged_typeOf_iff.2 htype).andThen _).map _

end Node

namespace Flow

theorem ordinary_read {source : Source} {v : Json} (h : ¬HoldsUntagged v) :
    (Record.read source v : Reading Flow).Ordinary := by
  cases v with
  | obj entries =>
    refine Reading.Ordinary.andThen (.accepted ()) fun _ =>
      Reading.Ordinary.checkedBy (.seqLeft ?_ (by simp)) (by simp)
    have hnodes : (Fields.defaulted ⟨entries⟩ Keys.nodes .empty
        (mapping source (Record.read source : Json → Reading Node))).Ordinary := by
      refine Fields.ordinary_defaulted_of_find? fun spelling v hfind => ?_
      rw [Keys.nodes, find?_same, Option.map_eq_some_iff] at hfind
      obtain ⟨_, hlookup, heq⟩ := hfind
      rw [Prod.mk.injEq] at heq
      obtain ⟨-, rfl⟩ := heq
      unfold mapping
      split
      · next nodes =>
        refine (Reading.ordinary_map_iff _ _).2 (ordinary_entriesOf fun field hfield => ?_)
        exact Node.ordinary_read fun hlacks =>
          h ⟨entries, nodes, rfl, hlookup, field, hfield, hlacks⟩
      · simp
    refine Reading.Ordinary.seq (.seq (.seq (.seq (.seq (.seq (.seq ?_ ?_) ?_) ?_) ?_) ?_) hnodes) ?_
    all_goals simp
  | null | bool _ | int _ | float _ | str _ | arr _ => simp [Record.read, object]

theorem untagged_read {source : Source} {v : Json} (h : HoldsUntagged v) :
    (Record.read source v : Reading Flow).Untagged := by
  obtain ⟨entries, nodes, rfl, hlookup, field, hfield, hlacks⟩ := h
  have hnodes : (Fields.defaulted ⟨entries⟩ Keys.nodes .empty
      (mapping source (Record.read source : Json → Reading Node))).Untagged := by
    have hfind : (⟨entries⟩ : Fields).find? Keys.nodes = some (↑"nodes", .obj nodes) := by
      rw [Keys.nodes, find?_same, hlookup, Option.map_some]
    refine Fields.untagged_defaulted hfind ?_
    exact (untagged_entriesOf hfield (Node.untagged_read hlacks)).map _
  exact (((hnodes.seq_right _).seq_left _ |>.map _).seq_left _).checkedBy _

end Flow

end ConversationFlow.Executable
