import ConversationFlow.Proofs.Agreement
import ConversationFlow.Proofs.Check.Outline
import ConversationFlow.Proofs.Session

/-!
# Ids do not matter

Compiling with other ids comes to the same flow with other ids, or fails in the same way. The ids are
put into buttons and into the flow, and never looked at again: no name, no condition and no issue is
made from one.
-/

namespace ConversationFlow

open Schema

namespace Executable

def MessageButton.rename (σ : Text → Text) (b : MessageButton) : MessageButton :=
  { b with id := σ b.id }

def CardItem.rename (σ : Text → Text) (c : CardItem) : CardItem :=
  { c with buttons := c.buttons.map (List.map (MessageButton.rename σ)) }

def RichContent.rename (σ : Text → Text) (r : RichContent) : RichContent :=
  { r with items := r.items.map (CardItem.rename σ) }

def MessageConfig.rename (σ : Text → Text) (c : MessageConfig) : MessageConfig :=
  { c with
    richContent := c.richContent.map (RichContent.rename σ)
    buttons := c.buttons.map (List.map (MessageButton.rename σ)) }

/-- The configuration with other ids of buttons; only messages have any. -/
def Config.rename (σ : Text → Text) : Config → Config
  | .message c => .message (c.rename σ)
  | c => c

def Node.rename (σ : Text → Text) (n : Node) : Node :=
  { n with config := n.config.rename σ }

/-- The flow with other ids of buttons and another id of its own. -/
def Flow.rename (σ : Text → Text) (flow : Flow) : Flow :=
  { flow with id := σ flow.id, nodes := flow.nodes.map (Node.rename σ) }

/-! Ids that are called what they are stay what they are. -/

theorem MessageButton.rename_self : MessageButton.rename (fun s => s) = fun b => b :=
  rfl

theorem CardItem.rename_self : CardItem.rename (fun s => s) = fun c => c := by
  funext c
  rw [CardItem.rename, MessageButton.rename_self, List.map_id_fun', Option.map_id_fun]
  rfl

theorem RichContent.rename_self : RichContent.rename (fun s => s) = fun r => r := by
  funext r
  rw [RichContent.rename, CardItem.rename_self, List.map_id_fun']
  rfl

theorem MessageConfig.rename_self : MessageConfig.rename (fun s => s) = fun c => c := by
  funext c
  rw [MessageConfig.rename, MessageButton.rename_self, RichContent.rename_self, List.map_id_fun',
    Option.map_id_fun, Option.map_id_fun']
  rfl

theorem Node.rename_self : Node.rename (fun s => s) = fun n => n := by
  funext n
  have hconfig : n.config.rename (fun s => s) = n.config := by
    cases n.config with
    | message c => exact congrArg Config.message (congrFun MessageConfig.rename_self c)
    | _ => rfl
  rw [Node.rename, hconfig]

theorem Flow.rename_self (flow : Flow) : flow.rename (fun s => s) = flow := by
  have hnodes : (flow.nodes.map fun n => n) = flow.nodes := Table.ext_entries (List.map_id' _)
  rw [Flow.rename, Node.rename_self, hnodes]

theorem Flow.sameOutline_rename (σ : Text → Text) (flow : Flow) :
    SameOutline (flow.rename σ) flow := by
  refine ⟨rfl, Table.ext_entries ?_⟩
  simp only [Flow.rename, Table.map, List.map_map]
  rfl

end Executable

namespace Compile

open Executable Job
open Editor (Edge Graph NodeKind)

theorem agree_build {α γ : Type} [Record α] {rename : (Text → Text) → α → γ}
    {ids ids' : List Text} {r s : Reading α} (hlength : ids.length = ids'.length)
    (h : ∀ σ τ : Text → Text, ids.map σ = ids'.map τ → rename σ <$> r = rename τ <$> s) :
    Agree (fun more more' => SameButIds rename (ids ++ more) (ids' ++ more')) (build r)
      (build s) := by
  refine agree_of ?_
  rw [List.append_nil, List.append_nil]
  have hanonymous := h (fun _ => "") (fun _ => "") (by simp [List.map_const', hlength])
  cases r with
  | accepted a =>
    cases s with
    | accepted b => exact .ok fun σ τ hnames => Reading.accepted.inj (h σ τ hnames)
    | refused | untagged => cases hanonymous
  | refused findings =>
    cases s with
    | refused others =>
      cases hanonymous
      exact .error _
    | accepted | untagged => cases hanonymous
  | untagged container =>
    cases s with
    | untagged other =>
      cases hanonymous
      exact .error _
    | accepted | refused => cases hanonymous

/-- What is built without ids is the same thing. -/
theorem agree_build_unnamed {α γ : Type} [Record α] {rename : (Text → Text) → α → γ}
    {r : Reading α} (h : ∀ σ τ, rename σ <$> r = rename τ <$> r) :
    Agree (SameButIds rename) (build r) (build r) := by
  have hlength : ([] : List Text).length = ([] : List Text).length := rfl
  exact agree_build hlength fun σ τ _ => h σ τ

theorem map_nonempty? {α β : Type} (f : α → β) (items : List α) :
    (nonempty? items).map (List.map f) = nonempty? (items.map f) := by
  cases items <;> rfl

theorem rename_buttonOf (σ : Text → Text) (id : Text) (entry : List (Text × Json)) :
    MessageButton.rename σ <$> buttonOf id entry = buttonOf (σ id) entry := by
  simp only [buttonOf, map_seq, Functor.map_map]
  rfl

theorem rename_cardOf (σ : Text → Text) (entry : List (Text × Json))
    (buttons : List MessageButton) :
    CardItem.rename σ <$> cardOf entry buttons =
      cardOf entry (buttons.map (MessageButton.rename σ)) := by
  simp only [cardOf, map_seq, Functor.map_map, ← map_nonempty?]
  rfl

/-- Whether a message is rich does not depend on ids. -/
theorem rename_messageConfig (σ : Text → Text) (content : Json) (buttons : List MessageButton)
    (rich : Option RichContent) :
    MessageConfig.rename σ <$> messageConfig content buttons rich =
      messageConfig content (buttons.map (MessageButton.rename σ))
        (rich.map (RichContent.rename σ)) := by
  simp only [messageConfig, Functor.map_map, ← map_nonempty?, List.isEmpty_map, Option.isNone_map]
  rfl

theorem agree_compileButton (entry : List (Text × Json)) :
    Agree (SameButIds MessageButton.rename) (compileButton entry) (compileButton entry) := by
  refine agree_newId.bind ?_
  rintro _ _ id id' - ⟨rfl, rfl⟩
  refine agree_build rfl fun σ τ hnames => ?_
  have hid : σ id = τ id' := by simpa using hnames
  rw [rename_buttonOf, rename_buttonOf, hid]

theorem agree_compileButtons (v : Json) :
    Agree (SameButIds fun σ => List.map (MessageButton.rename σ)) (compileButtons v)
      (compileButtons v) :=
  agree_mapM agree_compileButton _

theorem agree_compileCard (entry : List (Text × Json)) :
    Agree (SameButIds CardItem.rename) (compileCard entry) (compileCard entry) := by
  refine (agree_compileButtons _).bind fun ids ids' buttons others hlength hbuttons => ?_
  refine agree_build hlength fun σ τ hnames => ?_
  rw [rename_cardOf, rename_cardOf]
  exact congrArg (cardOf entry) (hbuttons σ τ hnames)

theorem agree_compileCards (v : Json) :
    Agree (SameButIds fun σ => List.map (CardItem.rename σ)) (compileCards v) (compileCards v) :=
  agree_mapM agree_compileCard _

theorem agree_compileMessage (n : Editor.Node) :
    Agree (SameButIds MessageConfig.rename) (compileMessage n) (compileMessage n) := by
  refine (agree_compileButtons _).bind fun ids ids' buttons others hlength hbuttons => ?_
  refine agree_build hlength fun σ τ hnames => ?_
  rw [rename_messageConfig, rename_messageConfig]
  exact congrArg (messageConfig _ · _) (hbuttons σ τ hnames)

theorem steady_build {α : Type} [Record α] (r : Reading α) : Steady (build r) :=
  steady_of _

theorem steady_convert {α : Type} (r : Except Obstacle α) : Steady (convert r) :=
  steady_of _

theorem agree_compileMediaMessage (n : Editor.Node) :
    Agree (SameButIds MessageConfig.rename) (compileMediaMessage n) (compileMediaMessage n) := by
  refine Agree.bind (R := SameButIds CardItem.rename) (agree_build_unnamed ?_) ?_
  · -- the card has no buttons
    intro σ τ
    simp only [map_seq, Functor.map_map]
    rfl
  · intro ids ids' card card' hlength hcard
    refine (agree_compileButtons _).bind fun more more' buttons others hmore hbuttons => ?_
    simp only [← List.append_assoc]
    refine agree_build (by simp [hlength, hmore]) fun σ τ hnames => ?_
    obtain ⟨hfirst, hlast⟩ := map_eq_of_append hlength hnames
    rw [rename_messageConfig, rename_messageConfig]
    have hrich : RichContent.rename σ ⟨.card, [card]⟩ = RichContent.rename τ ⟨.card, [card']⟩ :=
      congrArg (fun c => RichContent.mk .card [c]) (hcard σ τ hfirst)
    exact congrArg₂ (messageConfig _) (hbuttons σ τ hlast) (congrArg some hrich)

theorem agree_compileCarousel (n : Editor.Node) :
    Agree (SameButIds MessageConfig.rename) (compileCarousel n) (compileCarousel n) := by
  refine (agree_compileCards _).bind fun ids ids' cards others hlength hcards => ?_
  refine agree_build hlength fun σ τ hnames => ?_
  rw [rename_messageConfig, rename_messageConfig]
  refine congrArg (messageConfig _ []) (congrArg some ?_)
  exact congrArg (RichContent.mk .carousel) (hcards σ τ hnames)

theorem steady_formFieldsFrom (position : Nat) (entries : List Json) :
    Steady (formFieldsFrom position entries) := by
  induction entries generalizing position with
  | nil => exact steady_pure []
  | cons entry rest ih =>
    cases entry with
    | obj fields =>
      exact (steady_build _).bind fun field => (ih (position + 1)).bind fun more => steady_pure _
    | null | bool | int | float | str | arr => exact ih (position + 1)

/-- A configuration that is no message has no ids to be called otherwise. -/
theorem agree_of_steady {α : Type} {job : NodeJob α} {f : α → Config} (h : Steady job)
    (hf : ∀ σ a, (f a).rename σ = f a) :
    Agree (SameButIds Config.rename) (f <$> job) (f <$> job) := by
  refine h.agree_map fun a σ τ _ => ?_
  rw [hf, hf]

theorem agree_of_message {job : NodeJob MessageConfig}
    (h : Agree (SameButIds MessageConfig.rename) job job) :
    Agree (SameButIds Config.rename) (Config.message <$> job) (Config.message <$> job) :=
  (h.mono fun _ _ _ _ _ hsame σ τ hnames => congrArg Config.message (hsame σ τ hnames)).map

theorem retriesOf_rename (σ : Text → Text) (config : Config) :
    retriesOf (config.rename σ) = retriesOf config := by
  cases config <;> rfl

theorem rename_assemble (σ : Text → Text) (edges : List Edge) (n : Editor.Node) (type : Text)
    (config : Config) :
    (assemble edges n type config).rename σ = assemble edges n type (config.rename σ) := by
  rw [Node.rename, assemble, assemble, retriesOf_rename]

def renameEntry (σ : Text → Text) (entry : Text × Executable.Node) :
    Text × Executable.Node :=
  (entry.1, entry.2.rename σ)

def renameOutcome (σ : Text → Text) :
    Except (List Issue) (Text × Executable.Node) →
      Except (List Issue) (Text × Executable.Node) :=
  Except.map (renameEntry σ)

theorem issuesOfOutcomes_rename (σ : Text → Text)
    (outcomes : List (Except (List Issue) (Text × Executable.Node))) :
    issuesOfOutcomes (outcomes.map (renameOutcome σ)) = issuesOfOutcomes outcomes := by
  rw [issuesOfOutcomes, List.flatMap_map]
  congr 1
  funext outcome
  cases outcome <;> rfl

theorem compiledEntries_rename (σ : Text → Text)
    (outcomes : List (Except (List Issue) (Text × Executable.Node))) :
    compiledEntries (outcomes.map (renameOutcome σ)) =
      (compiledEntries outcomes).map (renameEntry σ) := by
  rw [compiledEntries, List.filterMap_map, List.map_filterMap]
  congr 1
  funext outcome
  cases outcome <;> rfl

theorem agree_forM_record {ε : Type} (event event' : Issue → Event) (issues : List Issue) :
    Agree (fun ids ids' _ _ => ids = [] ∧ ids' = [])
      (issues.forM fun issue => (record (event issue) : Job ε Unit))
      (issues.forM fun issue => record (event' issue)) := by
  induction issues with
  | nil => exact agree_pure ⟨rfl, rfl⟩
  | cons issue rest ih =>
    refine (agree_record _ _).bind ?_
    rintro _ _ _ _ - ⟨rfl, rfl⟩
    exact ih

/-- Both flows are let through, or both are stopped by the same errors. -/
theorem agree_admitFlow (settings : Settings) {ids ids' : List Text} {flow other : Flow}
    (hlength : ids.length = ids'.length) (hsame : SameButIds Flow.rename ids ids' flow other) :
    Agree (fun more more' => SameButIds Flow.rename (ids ++ more) (ids' ++ more'))
      (admitFlow settings flow) (admitFlow settings other) := by
  have houtline : Flow.SameOutline flow other := by
    have hleft := Flow.sameOutline_rename (fun _ => "") flow
    rw [hsame.anonymous hlength] at hleft
    exact hleft.symm.trans (Flow.sameOutline_rename _ other)
  rw [admitFlow, admitFlow, houtline.check_eq]
  split
  · refine (agree_forM_record _ _ _).bind ?_
    rintro _ _ _ _ - ⟨rfl, rfl⟩
    refine (agree_record _ _).bind ?_
    rintro _ _ _ _ - ⟨rfl, rfl⟩
    exact agree_pure_of_same hsame
  · exact (agree_record _ _).bind fun _ _ _ _ _ _ => agree_throw _

theorem startOf?_rename (σ : Text → Text) (nodes : Table Executable.Node) :
    startOf? (nodes.map (Executable.Node.rename σ)) =
      (startOf? nodes).map (Executable.Node.rename σ) := by
  rw [startOf?, Table.values_map, List.find?_map]
  rfl

theorem steady_readMetadata (v : Json) : Steady (readMetadata v) := by
  have hstamp (fields : List (Text × Json)) : Steady (stampMetadata fields) := by
    rw [stampMetadata]
    split
    · exact Steady.bind (steady_of (.error _)) fun _ => Steady.bind agree_now fun _ => steady_of _
    · exact Steady.bind agree_now fun _ => steady_of _
  unfold readMetadata
  split
  · split
    · exact hstamp _
    · exact steady_of (.error _)
  · exact hstamp []

theorem Call.steady_coerce (c : Call) : Steady c.coerce := by
  have hdrawing : Steady c.readDrawing := by
    rw [readDrawing]
    split
    · exact steady_pure _
    · exact steady_of _
  have hdata : Steady c.readData := by
    rw [readData]
    split
    · exact steady_pure _
    · exact steady_readMetadata _
  exact hdrawing.bind fun _ => hdata.bind fun _ => steady_pure _

/-- Distinct ids can be replaced, place by place, by any others. -/
theorem exists_map_eq {ids : List Text} (hids : ids.Nodup) {ids' : List Text}
    (hlength : ids.length = ids'.length) : ∃ ρ : Text → Text, ids.map ρ = ids' := by
  refine ⟨fun id => (ids'[ids.idxOf id]?).getD "", List.ext_getElem (by simpa) ?_⟩
  intro i hi hi'
  rw [List.length_map] at hi
  rw [List.getElem_map, hids.idxOf_getElem i hi, List.getElem?_eq_getElem hi', Option.getD_some]

section Host

variable [Host]

theorem agree_compileConfig (n : Editor.Node) (kind : NodeKind) :
    Agree (SameButIds Config.rename) (compileConfig n kind) (compileConfig n kind) := by
  cases kind with
  | executable type =>
    cases type with
    | start => exact agree_pure fun _ _ _ => rfl
    | message => exact agree_of_message (agree_compileMessage n)
    | question | condition | action | tag | segment | transferAgent | finish =>
      exact agree_of_steady (steady_build _) fun _ _ => rfl
    | api | delay | assignment =>
      exact agree_of_steady ((steady_convert _).bind fun _ => steady_build _) fun _ _ => rfl
    | form =>
      exact agree_of_steady ((steady_formFieldsFrom 0 _).bind fun _ => steady_build _) fun _ _ => rfl
  | advancedCondition | input => exact agree_of_steady (steady_build _) fun _ _ => rfl
  | mediaMessage => exact agree_of_message (agree_compileMediaMessage n)
  | carousel => exact agree_of_message (agree_compileCarousel n)
  | dynamicText =>
    refine agree_of_message (agree_build_unnamed fun σ τ => ?_)
    rw [rename_messageConfig, rename_messageConfig]
    rfl

theorem agree_compileNode (edges : List Edge) (n : Editor.Node) :
    Agree (SameButIds Executable.Node.rename) (compileNode edges n) (compileNode edges n) := by
  rw [compileNode]
  split
  · next kind _ =>
    refine (agree_compileConfig n kind).bind fun ids ids' config other _ hconfig => ?_
    refine agree_pure_of_same fun σ τ hnames => ?_
    rw [rename_assemble, rename_assemble, hconfig σ τ hnames]
  · refine (agree_record _ _).bind ?_
    rintro _ _ _ _ - ⟨rfl, rfl⟩
    exact (steady_build _).agree_bind fun _ => agree_pure fun _ _ _ => rfl

theorem agree_attempt (edges : List Edge) (n : Editor.Node) :
    Agree (SameButIds renameOutcome) (attempt edges n) (attempt edges n) := by
  refine (agree_compileNode edges n).outcome.bind fun ids ids' outcome other _ houtcomes => ?_
  cases houtcomes with
  | ok hnode =>
    exact agree_pure_of_same fun σ τ hnames =>
      congrArg (fun node => Except.ok (n.id, node)) (hnode σ τ hnames)
  | error fault =>
    cases fault with
    | invalid title findings => exact agree_pure fun _ _ _ => rfl
    | untagged | obstructed => exact agree_throw _

theorem agree_compileNodes (g : Graph) :
    Agree (SameButIds fun σ => Table.map (Executable.Node.rename σ)) (compileNodes g)
      (compileNodes g) := by
  refine (agree_mapM (fun n => agree_attempt _ n) g.nodes).bind
    fun ids ids' outcomes others hlength houtcomes => ?_
  have hissues : issuesOfOutcomes outcomes = issuesOfOutcomes others := by
    calc issuesOfOutcomes outcomes
        = issuesOfOutcomes (outcomes.map (renameOutcome fun _ => "")) :=
          (issuesOfOutcomes_rename _ _).symm
      _ = issuesOfOutcomes (others.map (renameOutcome fun _ => "")) :=
          congrArg issuesOfOutcomes (houtcomes.anonymous hlength)
      _ = issuesOfOutcomes others := issuesOfOutcomes_rename _ _
  dsimp only
  rw [hissues]
  split
  · refine agree_pure_of_same fun σ τ hnames => ?_
    have hentries : (compiledEntries outcomes).map (renameEntry σ) =
        (compiledEntries others).map (renameEntry τ) := by
      rw [← compiledEntries_rename, ← compiledEntries_rename]
      exact congrArg compiledEntries (houtcomes σ τ hnames)
    rw [Table.map_ofList, Table.map_ofList]
    exact congrArg Table.ofList hentries
  · exact (agree_record _ _).bind fun _ _ _ _ _ _ => agree_throw _

theorem agree_compileGraph (settings : Settings) (g : Graph) (metadata : Metadata) :
    Agree (SameButIds Flow.rename) (compileGraph settings g metadata)
      (compileGraph settings g metadata) := by
  rw [compileGraph]
  refine (agree_record _ _).bind ?_
  rintro _ _ _ _ - ⟨rfl, rfl⟩
  dsimp only
  split
  · refine (agree_compileNodes g).bind fun ids ids' nodes others hlength hnodes => ?_
    -- the search for the entry looks at types only, which are the same
    have hstarts := congrArg startOf? (hnodes.anonymous hlength)
    rw [startOf?_rename, startOf?_rename] at hstarts
    cases hentry : startOf? nodes with
    | none =>
      rw [hentry, Option.map_none, eq_comm, Option.map_eq_none_iff] at hstarts
      rw [hstarts]
      exact agree_throw _
    | some entry =>
      rw [hentry, Option.map_some, eq_comm, Option.map_eq_some_iff] at hstarts
      obtain ⟨other, hother, hsame⟩ := hstarts
      rw [hother]
      refine agree_newId.bind ?_
      rintro _ _ id id' - ⟨rfl, rfl⟩
      simp only [List.nil_append, ← List.append_assoc]
      refine agree_admitFlow settings (by simp [hlength]) fun σ τ hnames => ?_
      obtain ⟨hfirst, hlast⟩ := map_eq_of_append hlength hnames
      have hid : σ id = τ id' := by simpa using hlast
      have htable := hnodes σ τ hfirst
      have hentries : other.id = entry.id := by
        simpa only [Executable.Node.rename] using congrArg Executable.Node.id hsame
      simp only [Flow.rename, flowFrom, hid, hentries]
      dsimp only at htable
      rw [htable]
  · exact (agree_record _ _).bind fun _ _ _ _ _ _ => agree_throw _

theorem Call.agree_compile (c : Call) : Agree (SameButIds Flow.rename) c.compile c.compile :=
  c.steady_coerce.agree_bind fun handed => agree_compileGraph c.settings handed.1 handed.2

/-- Two runs of a call issue equally many ids. They fail in the same way, or they come to flows that
hold these ids and that are the same once those of the one flow are replaced, place by place, by those
of the other one. -/
structure DifferInIds (c : Call) (provider provider' : Provider) (journal journal' : Journal) :
    Prop where
  issued : (c.compile.runFrom provider journal).2.issued - journal.issued =
    (c.compile.runFrom provider' journal').2.issued - journal'.issued
  failure : ∀ failure, (c.compile.runFrom provider journal).1 = .error failure ↔
    (c.compile.runFrom provider' journal').1 = .error failure
  flow : ∀ flow, (c.compile.runFrom provider journal).1 = .ok flow →
    ∃ other, (c.compile.runFrom provider' journal').1 = .ok other ∧
      flow.issuedIds = idsBetween provider.mint journal.issued
        (c.compile.runFrom provider journal).2.issued ∧
      other.issuedIds = idsBetween provider'.mint journal'.issued
        (c.compile.runFrom provider' journal').2.issued ∧
      flow.rename (fun _ => "") = other.rename (fun _ => "") ∧
      (∀ ρ, flow.issuedIds.map ρ = other.issuedIds → flow.rename ρ = other) ∧
      (Function.Injective provider.mint →
        ∃ ρ : Text → Text, flow.issuedIds.map ρ = other.issuedIds)

theorem Call.differInIds (c : Call) {provider provider' : Provider} (journal journal' : Journal)
    (hnow : provider.now = provider'.now) : DifferInIds c provider provider' journal journal' := by
  obtain ⟨count, hissued, hissued', houtcomes⟩ :=
    c.agree_compile provider journal provider' journal' hnow
  have hids := (c.issues_compile provider journal).2
  have hids' := (c.issues_compile provider' journal').2
  refine ⟨by omega, fun failure => ?_, fun flow hflow => ?_⟩
  · generalize (c.compile.runFrom provider journal).1 = outcome at houtcomes ⊢
    generalize (c.compile.runFrom provider' journal').1 = other at houtcomes ⊢
    cases houtcomes with
    | ok h => simp
    | error e => rfl
  · rw [hflow] at houtcomes
    cases hother : (c.compile.runFrom provider' journal').1 with
    | error e =>
      rw [hother] at houtcomes
      cases houtcomes
    | ok other =>
      rw [hother] at houtcomes
      cases houtcomes with
      | ok hsame =>
        have hlength : flow.issuedIds.length = other.issuedIds.length := by
          rw [← hids flow hflow, ← hids' other hother, length_idsBetween, length_idsBetween]
          omega
        rw [← hissued, ← hissued', hids flow hflow, hids' other hother] at hsame
        refine ⟨other, rfl, (hids flow hflow).symm, (hids' other hother).symm,
          hsame.anonymous hlength, fun ρ hρ => ?_, fun hmint => exists_map_eq ?_ hlength⟩
        · rw [← other.rename_self]
          exact hsame ρ _ (by rw [hρ, List.map_id'])
        · rw [← hids flow hflow]
          exact nodup_idsBetween hmint

/-- The journal once requests have been answered, one after the other. -/
def journalAfter (mint : Nat → Text) (journal : Journal) (requests : List Request) : Journal :=
  requests.foldl (fun before request => (request.answer mint before).2) journal

/-- Which ids there are does not matter for a call, nor does what was asked for before it and came to
a flow or failed. -/
theorem differInIds_of_calls :
    (∀ (c : Call) (provider provider' : Provider) (journal journal' : Journal),
      provider.now = provider'.now → DifferInIds c provider provider' journal journal') ∧
    ∀ (c : Call) (mint : Nat → Text) (now : Timestamp) (journal : Journal)
      (requests requests' : List Request),
      DifferInIds c ⟨mint, now⟩ ⟨mint, now⟩ (journalAfter mint journal requests)
        (journalAfter mint journal requests') :=
  ⟨fun c _ _ journal journal' => c.differInIds journal journal',
    fun c _ _ _ _ _ => c.differInIds _ _ rfl⟩

end Host

def otherProvider : Provider :=
  ⟨fun n => "button-" ++ toString n, sampleTime⟩

attribute [local instance] sampleHost

/-- Other ids, and other requests before the call. -/
theorem differInIds_of_calls_buttonDrawing :
    (∃ flow other, ((callOf (.record buttonDrawing)).compile.runFrom sampleProvider .empty).1 =
        .ok flow ∧
      ((callOf (.record buttonDrawing)).compile.runFrom otherProvider ⟨7, []⟩).1 = .ok other ∧
      other.issuedIds = ["button-7", "button-8", "button-9", "button-10"] ∧
      ∃ ρ : Text → Text, flow.rename ρ = other) ∧
    ∃ failure, ((callOf (.record brokenDrawing)).compile.runFrom sampleProvider
        (journalAfter sampleProvider.mint .empty sampleRequests)).1 = .error failure ∧
      ((callOf (.record brokenDrawing)).compile.runFrom sampleProvider .empty).1 =
        .error failure := by
  have hmint : Function.Injective sampleProvider.mint := by
    intro m n h
    simpa [sampleProvider] using congrArg String.length (Text.whole.inj h)
  constructor
  · obtain ⟨flow, hflow⟩ : ∃ flow, ((callOf (.record buttonDrawing)).compile.runFrom sampleProvider
        .empty).1 = .ok flow := by
      decide +kernel
    obtain ⟨other, hother, -, hids, -, hrename, hexists⟩ := (differInIds_of_calls.1
      (callOf (.record buttonDrawing)) sampleProvider otherProvider .empty ⟨7, []⟩ rfl).flow flow
        hflow
    obtain ⟨ρ, hρ⟩ := hexists hmint
    refine ⟨flow, other, hflow, hother, ?_, ρ, hrename ρ hρ⟩
    rw [hids]
    decide +kernel
  · have hnone : ((callOf (.record brokenDrawing)).compile.runFrom sampleProvider
        (journalAfter sampleProvider.mint .empty sampleRequests)).1.toOption.isNone = true := by
      decide +kernel
    cases hfails : ((callOf (.record brokenDrawing)).compile.runFrom sampleProvider
        (journalAfter sampleProvider.mint .empty sampleRequests)).1 with
    | ok flow =>
      rw [hfails] at hnone
      cases hnone
    | error failure =>
      exact ⟨failure, rfl, ((differInIds_of_calls.2 (callOf (.record brokenDrawing))
        sampleProvider.mint sampleProvider.now .empty sampleRequests []).failure failure).1 hfails⟩

end Compile

end ConversationFlow
