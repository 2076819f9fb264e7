import ConversationFlow.Compile.Flow
import ConversationFlow.Proofs.Compile.Faults
import ConversationFlow.Proofs.Executable.Values
import ConversationFlow.Proofs.Schema.Choice

/-!
# What a node of the editor compiles to

A compiled node keeps its id, has the type that an engine runs it as, a configuration that is for
that type, and the edges that leave it as transitions.
-/

namespace ConversationFlow.Compile

open Schema Executable
open Editor (Edge Graph NodeKind)

/-- The type that a node is run as: the one of its kind, or its own. -/
def runType (type : Text) : Text :=
  (NodeKind.ofName? type).elim type fun kind => kind.nodeType.name

theorem runType_of_kind {type : Text} {kind : NodeKind}
    (hkind : NodeKind.ofName? type = some kind) :
    runType type = kind.nodeType.name := by
  rw [runType, hkind, Option.elim_some]

theorem runType_of_no_kind {type : Text} (hkind : NodeKind.ofName? type = none) :
    runType type = type := by
  rw [runType, hkind, Option.elim_none]

/-- The name of a node type is the one of a kind. -/
theorem nodeType_ofName?_of_no_kind {type : Text} (hkind : NodeKind.ofName? type = none) :
    NodeType.ofName? type = none := by
  cases hknown : NodeType.ofName? type with
  | none => rfl
  | some known =>
    have hname : known.name = type := Choice.ofName?_eq_some_iff.1 hknown
    have hknownKind : NodeKind.ofName? type = some (.executable known) :=
      Choice.ofName?_eq_some_iff.2 hname
    simp [hkind] at hknownKind

theorem ofName?_start_iff {type : Text} :
    NodeType.ofName? (runType type) = some .start ↔ type = "start" := by
  cases hkind : NodeKind.ofName? type with
  | none =>
    rw [runType_of_no_kind hkind]
    exact Choice.ofName?_eq_some_iff.trans eq_comm
  | some kind =>
    obtain rfl : Choice.name kind = type := Choice.ofName?_eq_some_iff.1 hkind
    rw [runType_of_kind hkind, NodeType.ofName?_name, Option.some.injEq]
    cases kind with
    | executable type => cases type <;> decide
    | advancedCondition | input | mediaMessage | carousel | dynamicText => decide

theorem eq_accepted_of_build {α : Type} [Record α] {r : Reading α} {a : α}
    (h : ((build r).runFrom provider journal).1 = .ok a) : r = .accepted a := by
  rw [build, Job.runFrom_of] at h
  cases r with
  | accepted b => cases h; rfl
  | refused findings => cases h
  | untagged container => cases h

/-- Data are passed through as they are. -/
theorem eq_assemble_of_passThrough {edges : List Edge} {n : Editor.Node} {provider : Provider}
    {journal : Journal} {node : Executable.Node}
    (h : ((passThrough edges n).runFrom provider journal).1 = .ok node) :
    node = assemble edges n n.type (.passthrough ⟨n.data⟩) ∧
      ∀ entry ∈ n.data.entries, entry.1.isWhole = true := by
  rw [passThrough] at h
  obtain ⟨_, _, -, hrest⟩ := Job.exists_of_bind_eq_ok h
  obtain ⟨config, _, hrun, hnode⟩ := Job.exists_of_bind_eq_ok hrest
  have hread := eq_accepted_of_build (congrArg Prod.fst hrun)
  obtain ⟨entries, hentries, rfl, hspelled⟩ := PassthroughConfig.exists_of_read hread
  cases hentries
  rw [Table.ofList_entries] at hnode
  exact ⟨by simpa using hnode.symm, hspelled⟩

theorem get?_groupEdges (edges : List Edge) (groups : Table (List Edge)) (id : Text) :
    ((edges.foldl
      (fun groups e => groups.put e.source ((groups.get? e.source).getD [] ++ [e])) groups).get?
        id).getD [] = (groups.get? id).getD [] ++ edges.filter (·.source = id) := by
  induction edges generalizing groups with
  | nil => simp
  | cons e rest ih =>
    rw [List.foldl_cons, ih, Table.get?_put]
    by_cases hid : id = e.source
    · subst hid
      simp
    · simp [hid, Ne.symm hid]

/-- The group of a node holds the edges that leave it. -/
theorem getD_edgesBySource (g : Graph) (id : Text) :
    ((edgesBySource g.edges).get? id).getD [] = g.outgoing id :=
  (get?_groupEdges g.edges .empty id).trans (by simp [Table.empty, Table.get?, Graph.outgoing])

variable [Host]

/-- The configuration of a node of a kind is for the type that the kind is run as. -/
theorem nodeType?_of_compileConfig {n : Editor.Node} {kind : NodeKind} {provider : Provider}
    {journal : Journal} {config : Config}
    (h : ((compileConfig n kind).runFrom provider journal).1 = .ok config) :
    config.nodeType? = some kind.nodeType := by
  cases kind with
  | executable type =>
    cases type with
    | start =>
      obtain rfl : Config.start ⟨⟩ = config := by simpa [compileConfig] using h
      rfl
    | message | question | condition | api | delay | action | form | assignment | tag | segment
    | transferAgent | finish =>
      rw [compileConfig, Job.runFrom_map] at h
      obtain ⟨c, -, rfl⟩ := exists_of_map_eq_ok h
      rfl
  | advancedCondition | input | mediaMessage | carousel | dynamicText =>
    rw [compileConfig, Job.runFrom_map] at h
    obtain ⟨c, -, rfl⟩ := exists_of_map_eq_ok h
    rfl

/-- A node is a compiled form of a node of the editor with the given edges. -/
def IsCompiled (edges : List Edge) (n : Editor.Node) (node : Executable.Node) : Prop :=
  ∃ provider journal, ((compileNode edges n).runFrom provider journal).1 = .ok node

/-- The parts of a compiled node of a known kind. -/
theorem exists_config_of_kind {edges : List Edge} {n : Editor.Node} {kind : NodeKind}
    {provider : Provider} {journal : Journal} {node : Executable.Node}
    (h : ((compileKind kind edges n).runFrom provider journal).1 = .ok node) :
    ∃ config, ((compileConfig n kind).runFrom provider journal).1 = .ok config ∧
      node = assemble edges n kind.nodeType.name config := by
  rw [compileKind] at h
  obtain ⟨config, later, hrun, hnode⟩ := Job.exists_of_bind_eq_ok h
  exact ⟨config, by rw [hrun], by simpa using hnode.symm⟩

namespace IsCompiled

variable {edges : List Edge} {n : Editor.Node} {node : Executable.Node}

/-- A compiled form is put together from the type that the node is run as and a configuration for that
type. -/
theorem exists_config (h : IsCompiled edges n node) :
    ∃ config, config.nodeType? = NodeType.ofName? (runType n.type) ∧
      node = assemble edges n (runType n.type) config := by
  obtain ⟨provider, journal, hrun⟩ := h
  cases hkind : NodeKind.ofName? n.type with
  | some kind =>
    simp only [compileNode, hkind] at hrun
    obtain ⟨config, hconfig, rfl⟩ := exists_config_of_kind hrun
    rw [runType_of_kind hkind, NodeType.ofName?_name]
    exact ⟨config, nodeType?_of_compileConfig hconfig, rfl⟩
  | none =>
    simp only [compileNode, hkind] at hrun
    rw [runType_of_no_kind hkind, nodeType_ofName?_of_no_kind hkind]
    exact ⟨_, rfl, (eq_assemble_of_passThrough hrun).1⟩

theorem id_eq (h : IsCompiled edges n node) : node.id = n.id := by
  obtain ⟨config, -, rfl⟩ := h.exists_config
  rfl

theorem nodeType?_config (h : IsCompiled edges n node) :
    node.config.nodeType? = node.nodeType? := by
  obtain ⟨config, hconfig, rfl⟩ := h.exists_config
  exact hconfig

theorem isStart_iff (h : IsCompiled edges n node) : node.isStart = true ↔ n.type = "start" := by
  obtain ⟨config, -, rfl⟩ := h.exists_config
  exact decide_eq_true_iff.trans ofName?_start_iff

theorem mem_targets_iff (h : IsCompiled edges n node) {b : Text} :
    b ∈ node.targets ↔ ∃ e ∈ edges, e.source = n.id ∧ e.target = b := by
  obtain ⟨config, -, rfl⟩ := h.exists_config
  rw [Node.targets, assemble, transitionsOf, List.mem_map]
  constructor
  · rintro ⟨t, ht, rfl⟩
    obtain ⟨i, hi, rfl⟩ := List.mem_mapIdx.1 ht
    have hmem := List.getElem_mem hi
    rw [List.mem_filter, decide_eq_true_iff] at hmem
    exact ⟨_, hmem.1, hmem.2, rfl⟩
  · rintro ⟨e, hmem, hsource, rfl⟩
    obtain ⟨i, hi, heq⟩ := List.getElem_of_mem
      (List.mem_filter.2 ⟨hmem, decide_eq_true hsource⟩ : e ∈ edges.filter (·.source = n.id))
    exact ⟨transitionOf i e, List.mem_mapIdx.2 ⟨i, hi, by rw [heq]⟩, rfl⟩

end IsCompiled

end ConversationFlow.Compile
