import ConversationFlow.Proofs.Compile.Renaming

/-!
# Nodes that do not compile

Every node is compiled as if it were the only one. What is found wrong with it does not depend on
the nodes before it, and it does not keep those after it from being compiled: the issues that stop a
drawing are those about each of its nodes, put together in the order of the drawing, and as many ids
are taken as each node takes, also if it fails.
-/

namespace ConversationFlow.Compile

open Schema Executable Job
open Editor (Edge Graph)

variable {edges : List Edge} {n : Editor.Node} {g : Graph} {provider other : Provider}

/-- The issues about a node that is refused: one for each finding, in order. -/
def issuesOfFault (id : Text) : Fault → List Issue
  | .invalid _ findings => findings.map (issueOf (some id))
  | _ => []

theorem issuesOfOutcomes_cons (outcome : Except (List Issue) (Text × Executable.Node))
    (rest : List (Except (List Issue) (Text × Executable.Node))) :
    issuesOfOutcomes (outcome :: rest) = issuesOfOutcomes [outcome] ++ issuesOfOutcomes rest := by
  rw [← List.singleton_append, issuesOfOutcomes, List.flatMap_append]

/-- What belongs to one of several items with distinct names is found again by its name. -/
theorem filter_flatMap_of_nodup {α β γ : Type} [DecidableEq γ] {items : List α} {f : α → List β}
    {name : α → γ} {owner : β → γ} (howner : ∀ a ∈ items, ∀ b ∈ f a, owner b = name a)
    (hnames : (items.map name).Nodup) {a : α} (ha : a ∈ items) :
    (items.flatMap f).filter (fun b => owner b = name a) = f a := by
  induction items with
  | nil => cases ha
  | cons c rest ih =>
    rw [List.map_cons, List.nodup_cons] at hnames
    rw [List.forall_mem_cons] at howner
    rw [List.flatMap_cons, List.filter_append]
    rcases List.mem_cons.1 ha with rfl | hrest
    · have hfirst : (f a).filter (fun b => owner b = name a) = f a :=
        List.filter_eq_self.2 fun b hb => decide_eq_true (howner.1 b hb)
      have hlater : (rest.flatMap f).filter (fun b => owner b = name a) = [] := by
        refine List.filter_eq_nil_iff.2 fun b hb hname => hnames.1 ?_
        obtain ⟨d, hd, hbd⟩ := List.mem_flatMap.1 hb
        rw [← of_decide_eq_true hname, howner.2 d hd b hbd]
        exact List.mem_map_of_mem hd
      rw [hfirst, hlater, List.append_nil]
    · have hfirst : (f c).filter (fun b => owner b = name a) = [] := by
        refine List.filter_eq_nil_iff.2 fun b hb hname => hnames.1 ?_
        rw [← howner.1 b hb, of_decide_eq_true hname]
        exact List.mem_map_of_mem hrest
      rw [hfirst, List.nil_append]
      exact ih howner.2 hnames.2 hrest

section Host

variable [Host]

/-- The issues about a node that is compiled on its own. -/
def issuesAlone (provider : Provider) (start : Journal) (edges : List Edge) (n : Editor.Node) :
    List Issue :=
  match ((compileNode edges n).runFrom provider start).1 with
  | .ok _ => []
  | .error fault => issuesOfFault n.id fault

/-- How many ids a node takes that is compiled on its own. -/
def takenAlone (provider : Provider) (start : Journal) (edges : List Edge) (n : Editor.Node) : Nat :=
  ((compileNode edges n).runFrom provider start).2.issued - start.issued

/-- What is wrong with a node does not depend on ids, time and journal. -/
theorem issuesAlone_eq (provider other : Provider) (journal start : Journal) (edges : List Edge)
    (n : Editor.Node) : issuesAlone provider journal edges n = issuesAlone other start edges n := by
  have halike := alike_compileNode edges n provider journal other start
  rw [issuesAlone, issuesAlone]
  generalize ((compileNode edges n).runFrom provider journal).1 = outcome at halike ⊢
  generalize ((compileNode edges n).runFrom other start).1 = outcome' at halike ⊢
  cases halike with
  | ok => rfl
  | error => rfl

theorem issued_compileNode (hnow : provider.now = other.now) (journal start : Journal)
    (edges : List Edge) (n : Editor.Node) :
    ((compileNode edges n).runFrom provider journal).2.issued =
      journal.issued + takenAlone other start edges n := by
  obtain ⟨count, hissued, hissued', -⟩ :=
    agree_compileNode edges n provider journal other start hnow
  rw [takenAlone, hissued, hissued', Nat.add_sub_cancel_left]

theorem nodeId_of_mem_issuesAlone {start : Journal} {issue : Issue}
    (h : issue ∈ issuesAlone provider start edges n) : issue.nodeId = some n.id := by
  rw [issuesAlone] at h
  split at h
  · cases h
  · next fault _ =>
    cases fault with
    | invalid title findings =>
      obtain ⟨finding, -, rfl⟩ := List.mem_map.1 h
      rfl
    | untagged | obstructed => cases h

/-- A node that fails as a record has at least one finding, and the issues about it are those of its
findings. -/
theorem FailsAsRecord.exists_findings (hfails : FailsAsRecord edges n) {start : Journal}
    {fault : Fault} (h : ((compileNode edges n).runFrom provider start).1 = .error fault) :
    ∃ title findings, fault = .invalid title findings ∧ findings ≠ [] ∧
      issuesAlone provider start edges n = findings.map (issueOf (some n.id)) := by
  have hissues : issuesAlone provider start edges n = issuesOfFault n.id fault := by
    rw [issuesAlone, h]
  rcases nodeFault_of_error h with ⟨title, findings, rfl, hfindings⟩ | ⟨-, obstacle, -, -, rfl⟩
  · exact ⟨title, findings, rfl, hfindings, hissues⟩
  · obtain ⟨title, findings, heq⟩ := hfails provider start _ h
    cases heq

theorem FailsAsRecord.issuesAlone_eq_nil_iff (hfails : FailsAsRecord edges n) {start : Journal} :
    issuesAlone provider start edges n = [] ↔
      ¬∃ fault, ((compileNode edges n).runFrom provider start).1 = .error fault := by
  constructor
  · rintro hnone ⟨fault, hfault⟩
    obtain ⟨-, findings, -, hfindings, hissues⟩ := hfails.exists_findings hfault
    rw [hissues, List.map_eq_nil_iff] at hnone
    exact hfindings hnone
  · intro hcompiles
    rw [issuesAlone]
    split
    · rfl
    · next fault hfault => exact absurd ⟨fault, hfault⟩ hcompiles

/-- One run of a node that compiles, or that comes to issues, tells how it may fail. -/
theorem failsAsRecord_of_run {start : Journal}
    (h : ((compileNode edges n).runFrom provider start).1.toOption.isSome = true ∨
      issuesAlone provider start edges n ≠ []) : FailsAsRecord edges n := by
  cases hrun : ((compileNode edges n).runFrom provider start).1 with
  | ok node => exact (IsCompiled.compiles ⟨provider, start, hrun⟩).failsAsRecord
  | error fault =>
    rw [issuesAlone, hrun] at h
    cases fault with
    | invalid title findings => exact failsAsRecord_of_error hrun
    | untagged | obstructed => simp [Except.toOption, issuesOfFault] at h

/-- The attempt to compile a node comes to the issues about the node, wherever it starts, and takes as
many ids as the node does on its own. -/
theorem exists_runFrom_attempt (hfails : FailsAsRecord edges n) (hnow : provider.now = other.now)
    (journal start : Journal) :
    ∃ outcome later, (attempt edges n).runFrom provider journal = (.ok outcome, later) ∧
      issuesOfOutcomes [outcome] = issuesAlone other start edges n ∧
      later.issued = journal.issued + takenAlone other start edges n := by
  rw [attempt, runFrom_bind, runFrom_outcome, issuesAlone_eq other provider start journal]
  have hissued := issued_compileNode hnow journal start edges n
  cases houtcome : ((compileNode edges n).runFrom provider journal).1 with
  | ok node =>
    refine ⟨.ok (n.id, node), _, rfl, ?_, hissued⟩
    rw [issuesAlone, houtcome]
    rfl
  | error fault =>
    obtain ⟨title, findings, rfl, -, hissues⟩ := hfails.exists_findings houtcome
    refine ⟨.error (findings.map (issueOf (some n.id))), _, rfl, ?_, hissued⟩
    rw [hissues]
    exact List.append_nil _

theorem exists_runFrom_attempts {items : List Editor.Node} {out : Editor.Node → List Edge}
    (hfails : ∀ n ∈ items, FailsAsRecord (out n) n) (hnow : provider.now = other.now)
    (journal start : Journal) :
    ∃ outcomes later,
      (items.mapM fun n => attempt (out n) n).runFrom provider journal = (.ok outcomes, later) ∧
      issuesOfOutcomes outcomes = items.flatMap (fun n => issuesAlone other start (out n) n) ∧
      later.issued =
        journal.issued + (items.map fun n => takenAlone other start (out n) n).sum := by
  induction items generalizing journal with
  | nil => exact ⟨[], journal, rfl, rfl, rfl⟩
  | cons n rest ih =>
    rw [List.forall_mem_cons] at hfails
    obtain ⟨outcome, middle, hrun, hissues, hissued⟩ :=
      exists_runFrom_attempt hfails.1 hnow journal start
    obtain ⟨outcomes, later, hrest, hothers, hlater⟩ := ih hfails.2 middle
    refine ⟨outcome :: outcomes, later, ?_, ?_, ?_⟩
    · rw [List.mapM_cons, runFrom_bind, hrun]
      dsimp only
      rw [runFrom_bind, hrest]
      rfl
    · rw [issuesOfOutcomes_cons, hissues, hothers, List.flatMap_cons]
    · rw [List.map_cons, List.sum_cons, hlater, hissued, Nat.add_assoc]

/-- All nodes are compiled, and the drawing is stopped if there are issues about any of them. -/
theorem runFrom_compileNodes (hfails : NodesFailAsRecords g) (hnow : provider.now = other.now)
    (journal start : Journal) :
    let issues := g.nodes.flatMap fun n => issuesAlone other start (g.outgoing n.id) n
    (issues = [] → ∃ nodes, ((compileNodes g).runFrom provider journal).1 = .ok nodes) ∧
    (issues ≠ [] →
      ((compileNodes g).runFrom provider journal).1 = .error (.stopped .nodes issues)) ∧
    ((compileNodes g).runFrom provider journal).2.issued =
      journal.issued + (g.nodes.map fun n => takenAlone other start (g.outgoing n.id) n).sum := by
  intro issues
  obtain ⟨outcomes, later, hrun, hissues, hissued⟩ :=
    exists_runFrom_attempts hfails hnow journal start
  rw [compileNodes, runFrom_bind]
  simp only [getD_edgesBySource, hrun]
  rw [← hissued]
  split
  · next hnone =>
    rw [List.isEmpty_iff, hissues] at hnone
    exact ⟨fun _ => ⟨_, rfl⟩, fun hsome => absurd hnone hsome, rfl⟩
  · next hsome =>
    rw [List.isEmpty_iff, hissues] at hsome
    refine ⟨fun hnone => absurd hnone hsome, fun _ => ?_, rfl⟩
    rw [hissues]
    rfl

/-- The nodes of a drawing that passes its check stop it exactly if one of them fails on its own. The
issues are those of each node on its own, one for each finding, put together in the order of the
drawing, so those about one node are just those of that node; and all nodes, failing ones and those
after them, take as many ids as they take on their own. -/
theorem isolated_of_compileNodes {extraTypes : List Text} {g : Graph}
    (hdrawn : (g.check extraTypes).valid = true) (hfails : NodesFailAsRecords g)
    (provider : Provider) (journal : Journal) (mint : Nat → Text) (start : Journal) :
    let run := (compileNodes g).runFrom provider journal
    let alone n := (compileNode (g.outgoing n.id) n).runFrom ⟨mint, provider.now⟩ start
    let issuesAbout n := issuesAlone ⟨mint, provider.now⟩ start (g.outgoing n.id) n
    let issues := g.nodes.flatMap issuesAbout
    ((∃ found, run.1 = .error (.stopped .nodes found)) ↔
      ∃ n ∈ g.nodes, ∃ fault, (alone n).1 = .error fault) ∧
    (∀ failure, run.1 = .error failure → failure = .stopped .nodes issues) ∧
    (∀ n ∈ g.nodes, ∀ fault, (alone n).1 = .error fault →
      ∃ title findings, fault = .invalid title findings ∧ findings ≠ [] ∧
        issuesAbout n = findings.map (issueOf (some n.id))) ∧
    (∀ n ∈ g.nodes, issues.filter (·.nodeId = some n.id) = issuesAbout n) ∧
    run.2.issued =
      journal.issued + (g.nodes.map fun n => (alone n).2.issued - start.issued).sum := by
  intro run alone issuesAbout issues
  have hnow : provider.now = (Provider.mk mint provider.now).now := rfl
  obtain ⟨hcompiled, hstopped, hissued⟩ := runFrom_compileNodes hfails hnow journal start
  have hsome : issues ≠ [] ↔ ∃ n ∈ g.nodes, ∃ fault, (alone n).1 = .error fault := by
    have hnone : issues = [] ↔ ∀ n ∈ g.nodes, ¬∃ fault, (alone n).1 = .error fault :=
      List.flatMap_eq_nil_iff.trans
        (forall₂_congr fun n hn => (hfails n hn).issuesAlone_eq_nil_iff)
    simp only [Ne, hnone, not_forall, not_not, exists_prop]
  refine ⟨?_, ?_, fun n hn fault hfault => (hfails n hn).exists_findings hfault, ?_, hissued⟩
  · rw [← hsome]
    refine ⟨fun ⟨found, hfound⟩ hnone => ?_, fun hissues => ⟨issues, hstopped hissues⟩⟩
    obtain ⟨nodes, hnodes⟩ := hcompiled hnone
    cases hfound.symm.trans hnodes
  · intro failure hfailure
    by_cases hissues : issues = []
    · obtain ⟨nodes, hnodes⟩ := hcompiled hissues
      cases hfailure.symm.trans hnodes
    · exact Except.error.inj (hfailure.symm.trans (hstopped hissues))
  · intro n hn
    have hids : (g.nodes.map fun n => some n.id).Nodup := by
      have hdistinct := (Graph.valid_check_iff.1 hdrawn).ids.map fun _ _ => Option.some.inj
      rwa [List.map_map] at hdistinct
    exact filter_flatMap_of_nodup (fun _ _ _ => nodeId_of_mem_issuesAlone) hids hn

end Host

/-- A question with two mistakes. -/
def brokenQuestion : Editor.Node :=
  ⟨"ask", "question", ⟨[("question", .int 1), ("inputType", .str "voice")], by decide⟩⟩

/-- A drawing with three nodes that do not compile between others that do. The survey fails at its
second button, when it has taken two ids, and before its third one. -/
def faultyDrawing : Graph :=
  { brokenDrawing with
    nodes := brokenDrawing.nodes ++
      [brokenQuestion,
        ⟨"survey", "message",
          ⟨[("buttons", .arr [.obj [("text", .str "Good")], .obj [("label", .int 7)],
            .obj [("text", .str "Bad")]])], by decide⟩⟩,
        ⟨"thanks", "message", ⟨[("buttons", .arr [.obj [("text", .str "Again")]])], by decide⟩⟩] }

attribute [local instance] sampleHost

theorem isolated_of_compileNodes_faultyDrawing :
    ((faultyDrawing.check []).valid = true ∧ NodesFailAsRecords faultyDrawing) ∧
    (∃ issues, ((compileNodes faultyDrawing).runFrom sampleProvider .empty).1 =
        .error (.stopped .nodes issues) ∧
      issues.map (·.nodeId) =
        [some ("pause" : Text), some "ask", some "ask", some "survey", some "survey"]) ∧
    ((compileNodes faultyDrawing).runFrom sampleProvider .empty).2.issued = 6 := by
  have hdrawn : (faultyDrawing.check []).valid = true := by decide +kernel
  have hruns : ∀ n ∈ faultyDrawing.nodes,
      ((compileNode (faultyDrawing.outgoing n.id) n).runFrom sampleProvider
        .empty).1.toOption.isSome = true ∨
      issuesAlone sampleProvider .empty (faultyDrawing.outgoing n.id) n ≠ [] := by
    decide +kernel
  have hfails : NodesFailAsRecords faultyDrawing := fun n hn => failsAsRecord_of_run (hruns n hn)
  obtain ⟨hstops, hissues, -, -, hissued⟩ := isolated_of_compileNodes hdrawn hfails sampleProvider
    .empty sampleProvider.mint .empty
  have hfaulty : ∃ n ∈ faultyDrawing.nodes, ∃ fault,
      ((compileNode (faultyDrawing.outgoing n.id) n).runFrom sampleProvider .empty).1 =
        .error fault :=
    ⟨brokenQuestion, by decide +kernel, _, rfl⟩
  obtain ⟨found, hfound⟩ := hstops.2 hfaulty
  obtain rfl := (Failure.stopped.inj (hissues _ hfound)).2
  exact ⟨⟨hdrawn, hfails⟩, ⟨_, hfound, by decide +kernel⟩, hissued.trans (by decide +kernel)⟩

end ConversationFlow.Compile
