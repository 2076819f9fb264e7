import ConversationFlow.Proofs.Compile.Acceptance
import ConversationFlow.Proofs.Compile.Buttons
import ConversationFlow.Proofs.Compile.Values

/-!
# Messages from data

Four types of nodes compile to messages. Whatever an author left in the data, a message has one
button for each object of its list of buttons, every list of buttons that it has holds a button, and
it is rich exactly if it has buttons or cards.
-/

namespace ConversationFlow

open Schema

namespace Executable

/-- The lists of buttons of a message, its own and those on its cards. -/
def MessageConfig.buttonLists (c : MessageConfig) : List (List MessageButton) :=
  c.buttons.toList ++ (c.richContent.elim [] (·.items)).filterMap (·.buttons)

end Executable

namespace Compile

open Executable
open Editor (Edge NodeKind)

/-- The types of nodes that compile to messages. -/
def messageTypes : List Text :=
  ["message", "mediaMessage", "carousel", "dynamicText"]

/-- The button of an entry replies with the first of three values, and shows the first of two. -/
structure IsButtonOf (entry : List (Text × Json)) (button : MessageButton) : Prop where
  action : button.action = .reply
  label : firstField entry ["text", "label"] = .str button.label
  value : firstField entry ["action", "text", "label"] = .str button.value

/-- There is one button for each object of a list, in order, and no list without buttons. -/
structure AreButtonsOf (v : Json) (buttons : Option (List MessageButton)) : Prop where
  each : List.Forall₂ IsButtonOf (objectsOf v) (buttons.getD [])
  nonempty : buttons ≠ some []

/-- The buttons and cards of a message, by the type of the node that it comes from. -/
inductive HasPartsOf (n : Editor.Node) (c : MessageConfig) : Prop
  | message (htype : n.type = "message") (hbuttons : AreButtonsOf (n.value "buttons") c.buttons)
    (hrich : c.richContent = none)
  | mediaMessage (htype : n.type = "mediaMessage")
    (hbuttons : AreButtonsOf (n.value "buttons") c.buttons) {card : CardItem}
    (hrich : c.richContent = some ⟨.card, [card]⟩) (hcard : card.buttons = none)
  | carousel (htype : n.type = "carousel") (hbuttons : c.buttons = none) {cards : List CardItem}
    (hrich : c.richContent = some ⟨.carousel, cards⟩)
    (hcards : List.Forall₂ (fun entry card => AreButtonsOf (Json.field entry "buttons") card.buttons)
      (objectsOf (n.value "cards")) cards)
  | dynamicText (htype : n.type = "dynamicText") (hbuttons : c.buttons = none)
    (hrich : c.richContent = none)

variable {n : Editor.Node} {provider : Provider} {journal : Journal}

theorem isTruthy_firstField_mono {entry : List (Text × Json)} {keys more : List Text}
    (hsubset : keys ⊆ more) (h : (firstField entry keys).isTruthy = true) :
    (firstField entry more).isTruthy = true := by
  rw [firstField, Json.isTruthy_first_iff (by decide)] at h ⊢
  obtain ⟨v, hv, htruthy⟩ := h
  exact ⟨v, List.map_subset _ hsubset hv, htruthy⟩

theorem isTruthy_str_iff {s : Text} : (Json.str s).isTruthy = true ↔ s ≠ "" := by
  simp [Json.isTruthy]

/-- What a button shows is among what it may reply with. -/
theorem IsButtonOf.value_ne_empty {entry : List (Text × Json)} {button : MessageButton}
    (h : IsButtonOf entry button) (hlabel : button.label ≠ "") : button.value ≠ "" := by
  rw [← isTruthy_str_iff, ← h.label] at hlabel
  rw [← isTruthy_str_iff, ← h.value]
  exact isTruthy_firstField_mono (by simp) hlabel

theorem isButtonOf_of_buttonOf {id : Text} {entry : List (Text × Json)}
    {button : MessageButton} (h : buttonOf id entry = .accepted button) :
    IsButtonOf entry button := by
  obtain ⟨_, hfirst, value, hvalue, rfl⟩ := Reading.seq_eq_accepted_iff.1 h
  obtain ⟨label, hlabel, rfl⟩ := Reading.map_eq_accepted_iff.1 hfirst
  exact ⟨rfl, Key.eq_str_of_reads hlabel, Key.eq_str_of_reads hvalue⟩

theorem getD_nonempty? {α : Type} (items : List α) : (nonempty? items).getD [] = items := by
  cases items <;> rfl

theorem nonempty?_ne_some_nil {α : Type} (items : List α) : nonempty? items ≠ some [] := by
  cases items <;> simp [nonempty?]

theorem areButtonsOf_of_compileButtons {v : Json} {buttons : List MessageButton}
    (h : ((compileButtons v).runFrom provider journal).1 = .ok buttons) :
    AreButtonsOf v (nonempty? buttons) := by
  refine ⟨?_, nonempty?_ne_some_nil buttons⟩
  rw [getD_nonempty?]
  refine (Job.forall₂_of_mapM_eq_ok h).imp fun entry button ⟨start, hrun⟩ => ?_
  obtain ⟨id, later, -, hbuild⟩ := Job.exists_of_bind_eq_ok hrun
  exact isButtonOf_of_buttonOf (eq_accepted_of_build hbuild)

/-- A list of buttons that is there holds buttons, and each of them is the one of an entry. -/
theorem AreButtonsOf.of_some {v : Json} {buttons : List MessageButton}
    (h : AreButtonsOf v (some buttons)) :
    buttons ≠ [] ∧ ∀ button ∈ buttons, ∃ entry, IsButtonOf entry button := by
  refine ⟨fun hnil => h.nonempty (by rw [hnil]), fun button hbutton => ?_⟩
  obtain ⟨entry, -, hentry⟩ := exists_left_of_forall₂ h.each hbutton
  exact ⟨entry, hentry⟩

section Parts

variable {c : MessageConfig}

/-- A list of buttons of a message comes from a list in the data of its node. -/
theorem HasPartsOf.exists_areButtonsOf (h : HasPartsOf n c) {buttons : List MessageButton}
    (hbuttons : buttons ∈ c.buttonLists) : ∃ v, AreButtonsOf v (some buttons) := by
  rw [MessageConfig.buttonLists, List.mem_append, Option.mem_toList] at hbuttons
  cases h with
  | message _ howns hrich =>
    have hown : c.buttons = some buttons := by simpa [hrich] using hbuttons
    rw [hown] at howns
    exact ⟨_, howns⟩
  | mediaMessage _ howns hrich hcard =>
    have hown : c.buttons = some buttons := by simpa [hrich, hcard] using hbuttons
    rw [hown] at howns
    exact ⟨_, howns⟩
  | carousel _ hnone hrich hcards =>
    rw [hnone, hrich] at hbuttons
    obtain ⟨card, hcard, hshown⟩ := List.mem_filterMap.1 (hbuttons.resolve_left (by simp))
    obtain ⟨entry, -, hentry⟩ := exists_left_of_forall₂ hcards hcard
    rw [hshown] at hentry
    exact ⟨_, hentry⟩
  | dynamicText _ hnone hrich => simp [hnone, hrich] at hbuttons

/-- The kind of a message tells whether it has more than text. -/
def TellsKind (c : MessageConfig) : Prop :=
  c.contentKind = .rich ↔ c.buttons.isSome ∨ c.richContent.isSome

theorem parts_of_messageConfig {content : Json} {buttons : List MessageButton}
    {rich : Option RichContent} (h : messageConfig content buttons rich = .accepted c) :
    c.buttons = nonempty? buttons ∧ c.richContent = rich ∧ TellsKind c := by
  obtain ⟨text, -, rfl⟩ := Reading.map_eq_accepted_iff.1 h
  refine ⟨rfl, rfl, ?_⟩
  cases buttons <;> cases rich <;> simp [TellsKind, nonempty?]

theorem hasPartsOf_compileMessage (htype : n.type = "message")
    (h : ((compileMessage n).runFrom provider journal).1 = .ok c) :
    HasPartsOf n c ∧ TellsKind c := by
  obtain ⟨buttons, later, hbuttons, hbuild⟩ := Job.exists_of_bind_eq_ok h
  obtain ⟨hown, hrich, hkind⟩ := parts_of_messageConfig (eq_accepted_of_build hbuild)
  refine ⟨.message htype ?_ hrich, hkind⟩
  rw [hown]
  exact areButtonsOf_of_compileButtons (by rw [hbuttons])

theorem hasPartsOf_compileMediaMessage (htype : n.type = "mediaMessage")
    (h : ((compileMediaMessage n).runFrom provider journal).1 = .ok c) :
    HasPartsOf n c ∧ TellsKind c := by
  obtain ⟨card, middle, hcard, hrest⟩ := Job.exists_of_bind_eq_ok h
  obtain ⟨buttons, later, hbuttons, hbuild⟩ := Job.exists_of_bind_eq_ok hrest
  obtain ⟨hown, hrich, hkind⟩ := parts_of_messageConfig (eq_accepted_of_build hbuild)
  have hread := eq_accepted_of_build (congrArg Prod.fst hcard)
  obtain ⟨_, htitle, imageUrl, -, rfl⟩ := Reading.seq_eq_accepted_iff.1 hread
  obtain ⟨title, -, rfl⟩ := Reading.map_eq_accepted_iff.1 htitle
  refine ⟨.mediaMessage htype ?_ hrich rfl, hkind⟩
  rw [hown]
  exact areButtonsOf_of_compileButtons (by rw [hbuttons])

theorem forall₂_compileCards {v : Json} {cards : List CardItem}
    (h : ((compileCards v).runFrom provider journal).1 = .ok cards) :
    List.Forall₂ (fun entry card => AreButtonsOf (Json.field entry "buttons") card.buttons)
      (objectsOf v) cards := by
  refine (Job.forall₂_of_mapM_eq_ok h).imp fun entry card ⟨start, hrun⟩ => ?_
  obtain ⟨buttons, later, hbuttons, hbuild⟩ := Job.exists_of_bind_eq_ok hrun
  rw [buttons_of_cardOf (eq_accepted_of_build hbuild)]
  exact areButtonsOf_of_compileButtons (by rw [hbuttons])

theorem hasPartsOf_compileCarousel (htype : n.type = "carousel")
    (h : ((compileCarousel n).runFrom provider journal).1 = .ok c) :
    HasPartsOf n c ∧ TellsKind c := by
  obtain ⟨cards, later, hcards, hbuild⟩ := Job.exists_of_bind_eq_ok h
  obtain ⟨hown, hrich, hkind⟩ := parts_of_messageConfig (eq_accepted_of_build hbuild)
  exact ⟨.carousel htype hown hrich (forall₂_compileCards (by rw [hcards])), hkind⟩

theorem hasPartsOf_compileDynamicText (htype : n.type = "dynamicText")
    (h : ((compileDynamicText n).runFrom provider journal).1 = .ok c) :
    HasPartsOf n c ∧ TellsKind c := by
  obtain ⟨hown, hrich, hkind⟩ := parts_of_messageConfig (eq_accepted_of_build h)
  exact ⟨.dynamicText htype hown hrich, hkind⟩

end Parts

section Host

variable [Host]

theorem IsCompiled.exists_compileConfig {edges : List Edge} {node : Executable.Node}
    (h : IsCompiled edges n node) {kind : NodeKind} (hkind : NodeKind.ofName? n.type = some kind) :
    ∃ provider journal, ((compileConfig n kind).runFrom provider journal).1 = .ok node.config := by
  obtain ⟨provider, journal, hrun⟩ := h
  simp only [compileNode, hkind] at hrun
  obtain ⟨config, hconfig, rfl⟩ := exists_config_of_kind hrun
  exact ⟨provider, journal, hconfig⟩

/-- A kind that is compiled by a job for messages compiles to what the job comes to. -/
theorem IsCompiled.exists_message {edges : List Edge} {node : Executable.Node}
    (h : IsCompiled edges n node) {kind : NodeKind} (hkind : NodeKind.ofName? n.type = some kind)
    {job : NodeJob MessageConfig} (hjob : compileConfig n kind = .message <$> job) :
    ∃ c, node.config = .message c ∧
      ∃ provider journal, (job.runFrom provider journal).1 = .ok c := by
  obtain ⟨provider, journal, hconfig⟩ := h.exists_compileConfig hkind
  rw [hjob, Job.runFrom_map] at hconfig
  obtain ⟨c, hc, heq⟩ := exists_of_map_eq_ok hconfig
  exact ⟨c, heq.symm, provider, journal, hc⟩

theorem IsCompiled.exists_hasPartsOf {edges : List Edge} {node : Executable.Node}
    (h : IsCompiled edges n node) (htype : n.type ∈ messageTypes) :
    ∃ c, node.config = .message c ∧ HasPartsOf n c ∧ TellsKind c := by
  simp only [messageTypes, List.mem_cons, List.not_mem_nil, or_false] at htype
  rcases htype with htype | htype | htype | htype
  · have hkind : NodeKind.ofName? n.type = some (.executable .message) := by rw [htype]; rfl
    obtain ⟨c, hc, provider, journal, hrun⟩ := h.exists_message hkind rfl
    exact ⟨c, hc, hasPartsOf_compileMessage htype hrun⟩
  · have hkind : NodeKind.ofName? n.type = some .mediaMessage := by rw [htype]; rfl
    obtain ⟨c, hc, provider, journal, hrun⟩ := h.exists_message hkind rfl
    exact ⟨c, hc, hasPartsOf_compileMediaMessage htype hrun⟩
  · have hkind : NodeKind.ofName? n.type = some .carousel := by rw [htype]; rfl
    obtain ⟨c, hc, provider, journal, hrun⟩ := h.exists_message hkind rfl
    exact ⟨c, hc, hasPartsOf_compileCarousel htype hrun⟩
  · have hkind : NodeKind.ofName? n.type = some .dynamicText := by rw [htype]; rfl
    obtain ⟨c, hc, provider, journal, hrun⟩ := h.exists_message hkind rfl
    exact ⟨c, hc, hasPartsOf_compileDynamicText htype hrun⟩

/-- A node for a message that compiles becomes a message with the buttons and cards of its data. It
is rich exactly if it has any of these, every list of buttons holds a button, and every button
replies, with a value if it has a label. -/
theorem message_of_isCompiled {edges : List Edge} {node : Executable.Node}
    (h : IsCompiled edges n node) (htype : n.type ∈ messageTypes) :
    ∃ c, node.config = .message c ∧ HasPartsOf n c ∧
      (c.contentKind = .rich ↔ c.buttons.isSome ∨ c.richContent.isSome) ∧
      ∀ buttons ∈ c.buttonLists, buttons ≠ [] ∧ ∀ button ∈ buttons,
        button.action = .reply ∧ (button.label ≠ "" → button.value ≠ "") := by
  obtain ⟨c, hc, hparts, hkind⟩ := h.exists_hasPartsOf htype
  refine ⟨c, hc, hparts, hkind, fun buttons hbuttons => ?_⟩
  obtain ⟨v, hv⟩ := hparts.exists_areButtonsOf hbuttons
  obtain ⟨hnonempty, hentries⟩ := hv.of_some
  refine ⟨hnonempty, fun button hbutton => ?_⟩
  obtain ⟨entry, hentry⟩ := hentries button hbutton
  exact ⟨hentry.action, hentry.value_ne_empty⟩

end Host

/-- A carousel of which some entries are no cards, and some entries of a card are no buttons. -/
def mixedCarousel : Editor.Node where
  id := "offers"
  type := "carousel"
  data := ⟨[("cards", .arr [.str "none", .obj [("buttons", .str "More")],
    .obj [("title", .str "Plans"),
      ("buttons", .arr [.int 3, .obj [("text", .str ""), ("label", .str "More")], .obj []])]]),
    ("buttons", .arr [.obj [("text", .str "passed over")]])], by decide⟩

/-- Its message has two cards, of which the second has two buttons. -/
def mixedMessage : MessageConfig where
  content := ""
  contentKind := .rich
  richContent := some ⟨.carousel, [⟨"", none, none, none⟩,
    ⟨"Plans", none, none, some [⟨"", "More", .reply, "More"⟩, ⟨"i", "", .reply, ""⟩]⟩]⟩
  buttons := none

attribute [local instance] sampleHost

theorem message_of_isCompiled_mixedCarousel :
    IsCompiled [] mixedCarousel (assemble [] mixedCarousel "message" (.message mixedMessage)) ∧
    HasPartsOf mixedCarousel mixedMessage ∧
    mixedMessage.buttonLists ≠ [] ∧ ∀ buttons ∈ mixedMessage.buttonLists, buttons ≠ [] := by
  have hcompiled : IsCompiled [] mixedCarousel
      (assemble [] mixedCarousel "message" (.message mixedMessage)) :=
    ⟨sampleProvider, .empty, rfl⟩
  obtain ⟨c, hc, hparts, -, hlists⟩ := message_of_isCompiled hcompiled (by decide)
  cases hc
  exact ⟨hcompiled, hparts, by decide, fun buttons hbuttons => (hlists buttons hbuttons).1⟩

end Compile

end ConversationFlow
