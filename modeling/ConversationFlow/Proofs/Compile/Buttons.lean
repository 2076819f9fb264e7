import ConversationFlow.Proofs.Compile.Flow
import ConversationFlow.Proofs.Issued
import ConversationFlow.Proofs.Schema.Accepted

/-!
# Ids of buttons

Every button of a message gets an id of its own when the message is compiled, and nothing else of
a node does. So the ids that are issued for a drawing are those of the buttons of its flow, in
order, and then the one of the flow.
-/

namespace ConversationFlow

open Schema

namespace Executable

def buttonIdsOf (buttons : Option (List MessageButton)) : List Text :=
  (buttons.getD []).map (·.id)

/-- The ids of the buttons on cards, card by card. -/
def RichContent.buttonIds (r : RichContent) : List Text :=
  r.items.flatMap fun card => buttonIdsOf card.buttons

/-- The ids of the buttons of a message, those on cards first. -/
def MessageConfig.buttonIds (c : MessageConfig) : List Text :=
  c.richContent.elim [] RichContent.buttonIds ++ buttonIdsOf c.buttons

/-- The ids of the buttons of a configuration; only messages have any. -/
def Config.buttonIds : Config → List Text
  | .message c => c.buttonIds
  | _ => []

namespace Flow

/-- The ids of the buttons of a flow, node by node. -/
def buttonIds (flow : Flow) : List Text :=
  flow.nodes.values.flatMap fun n => n.config.buttonIds

/-- All ids that were issued for a flow: those of its buttons, and its own. -/
def issuedIds (flow : Flow) : List Text :=
  flow.buttonIds ++ [flow.id]

end Flow

end Executable

namespace Compile

open Executable Job
open Editor (Edge Graph NodeKind)

variable {n : Editor.Node} {g : Graph}

@[simp]
theorem buttonIdsOf_nonempty? (buttons : List MessageButton) :
    buttonIdsOf (nonempty? buttons) = buttons.map (·.id) := by
  cases buttons <;> rfl

theorem silent_build {α : Type} [Record α] (r : Reading α) : Silent (build r) :=
  silent_of _

theorem silent_convert {α : Type} (r : Except Obstacle α) : Silent (convert r) :=
  silent_of _

/-- What is built without an id keeps what was read. -/
theorem issues_build {α : Type} [Record α] {P : α → List Text → Prop} {r : Reading α}
    (h : ∀ a, r = .accepted a → P a []) : Issues P (build r) := by
  refine issues_of fun a ha => h a ?_
  cases r with
  | accepted other =>
    cases ha
    rfl
  | refused | untagged => cases ha

theorem id_of_buttonOf {id : Text} {entry : List (Text × Json)} {button : MessageButton}
    (h : buttonOf id entry = .accepted button) : button.id = id := by
  obtain ⟨_, hlabel, value, -, rfl⟩ := Reading.seq_eq_accepted_iff.1 h
  obtain ⟨label, -, rfl⟩ := Reading.map_eq_accepted_iff.1 hlabel
  rfl

theorem issues_compileButton (entry : List (Text × Json)) :
    Issues (fun button ids => ids = [button.id]) (compileButton entry) := by
  refine issues_newId.bind ?_
  rintro id _ rfl
  refine issues_build fun button hbutton => ?_
  rw [id_of_buttonOf hbutton, List.append_nil]

theorem issues_compileButtons (v : Json) :
    Issues (fun buttons ids => ids = buttons.map (·.id)) (compileButtons v) := by
  refine (issues_mapM_flatMap issues_compileButton (objectsOf v)).mono ?_
  rintro buttons _ rfl
  exact (List.map_eq_flatMap).symm

theorem buttons_of_cardOf {entry : List (Text × Json)} {buttons : List MessageButton}
    {card : CardItem} (h : cardOf entry buttons = .accepted card) :
    card.buttons = nonempty? buttons := by
  obtain ⟨_, hsubtitle, imageUrl, -, rfl⟩ := Reading.seq_eq_accepted_iff.1 h
  obtain ⟨_, htitle, subtitle, -, rfl⟩ := Reading.seq_eq_accepted_iff.1 hsubtitle
  obtain ⟨title, -, rfl⟩ := Reading.map_eq_accepted_iff.1 htitle
  rfl

theorem issues_compileCard (entry : List (Text × Json)) :
    Issues (fun card ids => ids = buttonIdsOf card.buttons) (compileCard entry) := by
  refine (issues_compileButtons _).bind ?_
  rintro buttons _ rfl
  refine issues_build fun card hcard => ?_
  rw [buttons_of_cardOf hcard, buttonIdsOf_nonempty?, List.append_nil]

theorem issues_compileCards (v : Json) :
    Issues (fun cards ids => ids = cards.flatMap fun card => buttonIdsOf card.buttons)
      (compileCards v) :=
  issues_mapM_flatMap issues_compileCard (objectsOf v)

theorem buttonIds_of_messageConfig {content : Json} {buttons : List MessageButton}
    {rich : Option RichContent} {c : MessageConfig}
    (h : messageConfig content buttons rich = .accepted c) :
    c.buttonIds = rich.elim [] RichContent.buttonIds ++ buttons.map (·.id) := by
  obtain ⟨text, -, rfl⟩ := Reading.map_eq_accepted_iff.1 h
  rw [MessageConfig.buttonIds, buttonIdsOf_nonempty?]

theorem issues_messageConfig {content : Json} {buttons : List MessageButton}
    {rich : Option RichContent} {ids : List Text}
    (h : ids = rich.elim [] RichContent.buttonIds ++ buttons.map (·.id)) :
    Issues (fun c more => ids ++ more = c.buttonIds)
      (build (messageConfig content buttons rich)) := by
  refine issues_build fun c hc => ?_
  rw [buttonIds_of_messageConfig hc, List.append_nil, h]

theorem issues_compileMessage (n : Editor.Node) :
    Issues (fun c ids => ids = c.buttonIds) (compileMessage n) := by
  refine (issues_compileButtons _).bind ?_
  rintro buttons _ rfl
  exact issues_messageConfig rfl

/-- The card of a media message has no buttons of its own. -/
theorem issues_compileMediaMessage (n : Editor.Node) :
    Issues (fun c ids => ids = c.buttonIds) (compileMediaMessage n) := by
  refine Issues.bind (P := fun card ids => ids = [] ∧ card.buttons = none) ?_ ?_
  · refine issues_build fun card hcard => ⟨rfl, ?_⟩
    obtain ⟨_, htitle, imageUrl, -, rfl⟩ := Reading.seq_eq_accepted_iff.1 hcard
    obtain ⟨title, -, rfl⟩ := Reading.map_eq_accepted_iff.1 htitle
    rfl
  · rintro card _ ⟨rfl, hcard⟩
    refine (issues_compileButtons _).bind ?_
    rintro buttons _ rfl
    refine issues_messageConfig ?_
    simp [RichContent.buttonIds, hcard, buttonIdsOf]

theorem issues_compileCarousel (n : Editor.Node) :
    Issues (fun c ids => ids = c.buttonIds) (compileCarousel n) := by
  refine (issues_compileCards _).bind ?_
  rintro cards _ rfl
  exact issues_messageConfig (by simp [RichContent.buttonIds])

theorem issues_compileDynamicText (n : Editor.Node) :
    Issues (fun c ids => ids = c.buttonIds) (compileDynamicText n) :=
  issues_messageConfig rfl

theorem silent_formFieldsFrom (position : Nat) (entries : List Json) :
    Silent (formFieldsFrom position entries) := by
  induction entries generalizing position with
  | nil => exact silent_pure []
  | cons entry rest ih =>
    cases entry with
    | obj fields =>
      exact (silent_build _).bind fun field => (ih (position + 1)).bind fun more => silent_pure _
    | null | bool | int | float | str | arr => exact ih (position + 1)

theorem issues_of_silent {α : Type} {job : NodeJob α} {f : α → Config} (h : Silent job)
    (hf : ∀ a, (f a).buttonIds = []) :
    Issues (fun config ids => ids = config.buttonIds) (f <$> job) := by
  refine Issues.map (h.mono ?_)
  rintro a _ rfl
  exact (hf a).symm

theorem issues_admitFlow (settings : Settings) (flow : Flow) :
    Issues (fun other ids => other = flow ∧ ids = []) (admitFlow settings flow) := by
  rw [admitFlow]
  split
  · refine (silent_forM_record _ _).bind_issues fun _ => ?_
    exact Silent.bind_issues (issues_record _) fun _ => issues_pure ⟨rfl, rfl⟩
  · exact Silent.bind_issues (issues_record _) fun _ => issues_throw _

variable [Host]

theorem issues_compileConfig (n : Editor.Node) (kind : NodeKind) :
    Issues (fun config ids => ids = config.buttonIds) (compileConfig n kind) := by
  cases kind with
  | executable type =>
    cases type with
    | start => exact issues_pure rfl
    | message => exact (issues_compileMessage n).map
    | question | condition | action | tag | segment | transferAgent | finish =>
      exact issues_of_silent (silent_build _) fun _ => rfl
    | api | delay | assignment =>
      exact issues_of_silent ((silent_convert _).bind fun _ => silent_build _) fun _ => rfl
    | form =>
      exact issues_of_silent ((silent_formFieldsFrom 0 _).bind fun _ => silent_build _) fun _ => rfl
  | advancedCondition | input => exact issues_of_silent (silent_build _) fun _ => rfl
  | mediaMessage => exact (issues_compileMediaMessage n).map
  | carousel => exact (issues_compileCarousel n).map
  | dynamicText => exact (issues_compileDynamicText n).map

theorem issues_compileNode (edges : List Edge) (n : Editor.Node) :
    Issues (fun node ids => ids = node.config.buttonIds) (compileNode edges n) := by
  rw [compileNode]
  split
  · next kind hkind =>
    refine (issues_compileConfig n kind).bind ?_
    rintro config _ rfl
    exact issues_pure (List.append_nil _)
  · refine Silent.bind_issues (issues_record _) fun _ => ?_
    exact Silent.bind_issues (silent_build _) fun _ => issues_pure rfl

theorem issues_attempt (edges : List Edge) (n : Editor.Node) :
    Issues (fun outcome ids => ∀ entry, outcome = .ok entry → ids = entry.2.config.buttonIds)
      (attempt edges n) := by
  refine (issues_compileNode edges n).outcome.bind ?_
  intro outcome ids hids
  split
  · next node =>
    refine issues_pure ?_
    rintro _ ⟨⟩
    rw [List.append_nil]
    exact hids node rfl
  · refine issues_pure ?_
    rintro _ ⟨⟩
  · exact issues_throw _

/-- If all nodes of a drawing compile, the ids that they took are those of their buttons, in
order. -/
theorem issues_compileNodes (hids : (g.nodes.map (·.id)).Nodup) :
    Issues (fun nodes ids => ids = nodes.values.flatMap fun node => node.config.buttonIds)
      (compileNodes g) := by
  refine Issues.bind ((issues_mapM (fun n => issues_attempt _ n) g.nodes).and
    (R := fun outcomes => List.Forall₂
      (fun n outcome => Attempted (g.outgoing n.id) n (.ok outcome)) g.nodes outcomes) ?_) ?_
  · intro provider journal outcomes houtcomes
    rcases runFrom_attempts_cases g provider journal with
      ⟨others, later, hrun, hattempted⟩ | ⟨obstacle, later, hrun, -⟩
    · rw [hrun] at houtcomes
      cases houtcomes
      exact hattempted
    · rw [hrun] at houtcomes
      cases houtcomes
  · rintro outcomes _ ⟨⟨parts, hparts, rfl⟩, hattempted⟩
    dsimp only
    split
    · next hissues =>
      have hcompiles := (issuesOfOutcomes_eq_nil_iff hattempted).1 (List.isEmpty_iff.1 hissues)
      rw [eq_map_compiledEntries hcompiles hattempted, List.forall₂_map_left_iff] at hparts
      have hbuttons : parts.map id =
          (compiledEntries outcomes).map fun entry => entry.2.config.buttonIds :=
        (map_eq_map_of_forall₂ hparts fun entry ids h => (h entry rfl).symm).symm
      refine issues_pure ?_
      rw [Table.values, entries_ofList_compiledEntries hids hcompiles hattempted, List.append_nil]
      simpa [List.flatMap_def, Function.comp_def] using congrArg List.flatten hbuttons
    · exact Silent.bind_issues (issues_record _) fun _ => issues_throw _

/-- The flow of a drawing took the ids of its buttons, and then its own. -/
theorem issues_compileGraph (settings : Settings) (g : Graph) (metadata : Metadata) :
    Issues (fun flow ids => ids = flow.issuedIds) (compileGraph settings g metadata) := by
  refine Silent.bind_issues (issues_record _) fun _ => ?_
  dsimp only
  split
  · next hreport =>
    refine (issues_compileNodes (Graph.valid_check_iff.1 hreport).ids).bind ?_
    rintro nodes _ rfl
    split
    · refine issues_newId.bind ?_
      rintro id _ rfl
      refine (issues_admitFlow settings _).mono ?_
      rintro _ _ ⟨rfl, rfl⟩
      simp [Flow.issuedIds, Flow.buttonIds, flowFrom]
    · exact issues_throw _
  · exact Silent.bind_issues (issues_record _) fun _ => issues_throw _

end Compile

end ConversationFlow
