import ConversationFlow.Schema.Keys

/-!
# Refusals name what they found

A value is refused for a reason: a refusal holds at least one finding. And the readers of plain
values, lists, mappings and records never end at a container; only the reader of nodes does that.
Both are kept by everything that readings are put together with, so they are stated as one.
-/

namespace ConversationFlow.Schema

/-- A typed value or a refusal with findings, and not a container that ended the reading. -/
inductive Reading.Ordinary {α : Type} : Reading α → Prop
  | accepted (a : α) : Ordinary (.accepted a)
  | refused {findings : List Finding} (hfindings : findings ≠ []) : Ordinary (.refused findings)

namespace Reading

variable {α β : Type}

@[simp]
theorem ordinary_accepted (a : α) : (Reading.accepted a).Ordinary := .accepted a

@[simp]
theorem ordinary_pure (a : α) : (pure a : Reading α).Ordinary := .accepted a

@[simp]
theorem ordinary_refused_iff {findings : List Finding} :
    (refused findings : Reading α).Ordinary ↔ findings ≠ [] :=
  ⟨fun h => by cases h; assumption, .refused⟩

@[simp]
theorem ordinary_refuse (complaint : Complaint) (v : Json) :
    (refuse complaint v : Reading α).Ordinary := by
  simp [refuse]

@[simp]
theorem ordinary_map_iff (f : α → β) (r : Reading α) : (f <$> r).Ordinary ↔ r.Ordinary := by
  constructor
  · intro h
    cases r with
    | accepted a => exact .accepted a
    | refused findings =>
      cases h with
      | refused hfindings => exact .refused hfindings
    | untagged container => cases h
  · rintro (a | hfindings)
    · exact .accepted (f a)
    · exact .refused hfindings

@[simp]
theorem ordinary_under_iff (step : Step) (r : Reading α) : (r.under step).Ordinary ↔ r.Ordinary := by
  cases r with
  | accepted a => simp [under]
  | refused findings => simp [under]
  | untagged container => constructor <;> rintro ⟨⟩

theorem Ordinary.seq {f : Reading (α → β)} {x : Reading α} (hf : f.Ordinary) (hx : x.Ordinary) :
    (f <*> x).Ordinary := by
  cases hf with
  | accepted g => exact (ordinary_map_iff g x).2 hx
  | refused hfindings =>
    cases hx with
    | accepted a => exact .refused hfindings
    | refused _ => exact .refused (List.append_ne_nil_of_left_ne_nil hfindings _)

theorem Ordinary.andThen {r : Reading α} {f : α → Reading β} (hr : r.Ordinary)
    (hf : ∀ a, (f a).Ordinary) : (r.andThen f).Ordinary := by
  cases hr with
  | accepted a => exact hf a
  | refused hfindings => exact .refused hfindings

theorem Ordinary.seqLeft {r : Reading α} {s : Reading β} (hr : r.Ordinary) (hs : s.Ordinary) :
    (r <* s).Ordinary := by
  rw [seqLeft_eq]
  exact ((ordinary_map_iff _ r).2 hr).seq hs

theorem Ordinary.checkedBy {r : Reading α} {check : Reading Unit} (hr : r.Ordinary)
    (hcheck : check.Ordinary) : (r.checkedBy check).Ordinary := by
  cases hr with
  | accepted a =>
    cases hcheck with
    | accepted => exact .accepted a
    | refused hfindings => exact .refused hfindings
  | refused hfindings =>
    cases hcheck with
    | accepted => exact .refused hfindings
    | refused hother => exact .refused hother

/-- A container ended the reading. -/
def Untagged (r : Reading α) : Prop :=
  ∃ container, r = .untagged container

theorem Ordinary.not_untagged {r : Reading α} (h : r.Ordinary) : ¬r.Untagged := by
  rintro ⟨container, rfl⟩
  cases h

theorem Untagged.map {r : Reading α} (h : r.Untagged) (f : α → β) : (f <$> r).Untagged := by
  obtain ⟨container, rfl⟩ := h
  exact ⟨container, rfl⟩

theorem Untagged.under {r : Reading α} (h : r.Untagged) (step : Step) : (r.under step).Untagged := by
  obtain ⟨container, rfl⟩ := h
  exact ⟨container, rfl⟩

theorem Untagged.andThen {r : Reading α} (h : r.Untagged) (f : α → Reading β) :
    (r.andThen f).Untagged := by
  obtain ⟨container, rfl⟩ := h
  exact ⟨container, rfl⟩

theorem Untagged.checkedBy {r : Reading α} (h : r.Untagged) (check : Reading Unit) :
    (r.checkedBy check).Untagged := by
  obtain ⟨container, rfl⟩ := h
  exact ⟨container, rfl⟩

theorem Untagged.seq_left {f : Reading (α → β)} (h : f.Untagged) (x : Reading α) :
    (f <*> x).Untagged := by
  obtain ⟨container, rfl⟩ := h
  exact ⟨container, rfl⟩

theorem Untagged.seq_right {x : Reading α} (h : x.Untagged) (f : Reading (α → β)) :
    (f <*> x).Untagged := by
  obtain ⟨container, rfl⟩ := h
  cases f with
  | accepted _ => exact ⟨container, rfl⟩
  | refused _ => exact ⟨container, rfl⟩
  | untagged other => exact ⟨other, rfl⟩

/-- Both readings are accepted, or both are refused with the same findings. -/
inductive Alike : Reading α → Reading β → Prop
  | accepted (a : α) (b : β) : Alike (.accepted a) (.accepted b)
  | refused {findings : List Finding} (hfindings : findings ≠ []) :
    Alike (.refused findings) (.refused findings)

theorem Ordinary.alike {r : Reading α} (h : r.Ordinary) : r.Alike r := by
  cases h with
  | accepted a => exact .accepted a a
  | refused hfindings => exact .refused hfindings

theorem Ordinary.alike_map {γ δ : Type} {r : Reading α} (h : r.Ordinary) (f : α → γ) (g : α → δ) :
    (f <$> r).Alike (g <$> r) := by
  cases h with
  | accepted a => exact .accepted (f a) (g a)
  | refused hfindings => exact .refused hfindings

theorem Alike.seq {γ : Type} {f : Reading (α → β)} {g : Reading (α → γ)} {x : Reading α}
    (h : f.Alike g) (hx : x.Ordinary) : (f <*> x).Alike (g <*> x) := by
  cases h with
  | accepted f g => exact hx.alike_map f g
  | refused hfindings =>
    cases hx with
    | accepted a => exact .refused hfindings
    | refused _ => exact .refused (List.append_ne_nil_of_left_ne_nil hfindings _)

end Reading

section Scalars

variable {α : Type}

@[simp]
theorem ordinary_anything (v : Json) : (anything v).Ordinary := .accepted v

@[simp]
theorem ordinary_text (v : Json) : (text v).Ordinary := by
  unfold text
  split <;> simp

@[simp]
theorem ordinary_integer (v : Json) : (integer v).Ordinary := by
  unfold integer
  dsimp only
  repeat' split
  all_goals simp

theorem ordinary_booleanOfInteger (v : Json) (n : Int) : (booleanOfInteger v n).Ordinary := by
  unfold booleanOfInteger
  repeat' split
  all_goals simp

@[simp]
theorem ordinary_boolean (v : Json) : (boolean v).Ordinary := by
  unfold boolean
  dsimp only
  repeat' split
  all_goals simp [ordinary_booleanOfInteger]

@[simp]
theorem ordinary_choice [Choice α] (v : Json) : (choice v : Reading α).Ordinary := by
  unfold choice
  repeat' split
  all_goals simp

theorem ordinary_ofTimestamp (v : Json) (outcome : Except Timestamp.Refusal Timestamp) :
    (ofTimestamp v outcome).Ordinary := by
  cases outcome <;> simp [ofTimestamp]

@[simp]
theorem ordinary_timestamp (source : Source) (v : Json) : (timestamp source v).Ordinary := by
  unfold timestamp
  repeat' split
  all_goals simp [ordinary_ofTimestamp]

end Scalars

section Composites

variable {α : Type} {read : Json → Reading α}

theorem ordinary_itemsFrom (hread : ∀ v, (read v).Ordinary) (position : Nat) (items : List Json) :
    (itemsFrom read position items).Ordinary := by
  induction items generalizing position with
  | nil => exact .accepted []
  | cons v rest ih =>
    refine Reading.Ordinary.seq ?_ (ih (position + 1))
    simpa using hread v

@[simp]
theorem ordinary_list (source : Source) (hread : ∀ v, (read v).Ordinary) (v : Json) :
    (list source read v).Ordinary := by
  unfold list
  split
  · exact ordinary_itemsFrom hread 0 _
  · simp

theorem ordinary_entriesOf {fields : List (Text × Json)}
    (hread : ∀ field ∈ fields, (read field.2).Ordinary) : (entriesOf read fields).Ordinary := by
  induction fields with
  | nil => exact .accepted []
  | cons field rest ih =>
    rw [List.forall_mem_cons] at hread
    refine Reading.Ordinary.seq ?_ (ih hread.2)
    simpa using hread.1

/-- One container that ends the reading of a value ends the reading of all of them. -/
theorem untagged_entriesOf {fields : List (Text × Json)} {field : Text × Json}
    (hfield : field ∈ fields) (hread : (read field.2).Untagged) :
    (entriesOf read fields).Untagged := by
  induction fields with
  | nil => simp at hfield
  | cons other rest ih =>
    rcases List.mem_cons.1 hfield with rfl | hrest
    · exact (hread.under _).map _ |>.seq_left _
    · exact (ih hrest).seq_right _

@[simp]
theorem ordinary_mapping (source : Source) (hread : ∀ v, (read v).Ordinary) (v : Json) :
    (mapping source read v).Ordinary := by
  unfold mapping
  split
  · exact (Reading.ordinary_map_iff _ _).2 (ordinary_entriesOf fun _ _ => hread _)
  · simp

@[simp]
theorem ordinary_nullable (hread : ∀ v, (read v).Ordinary) (v : Json) :
    (nullable read v).Ordinary := by
  unfold nullable
  split
  · simp
  · simpa using hread _

@[simp]
theorem Key.ordinary_reads (key : Key) {v : Json} (hread : (read v).Ordinary) :
    (key.reads read v).Ordinary := by
  simpa [reads] using hread

namespace Fields

variable (f : Fields) (key : Key)

variable {f key} in
theorem ordinary_required_of_find?
    (hread : ∀ spelling v, f.find? key = some (spelling, v) → (read v).Ordinary) :
    (f.required key read).Ordinary := by
  unfold required
  split
  · next hfind => simpa using hread _ _ hfind
  · simp

variable {f key} in
theorem ordinary_defaulted_of_find? {fallback : α}
    (hread : ∀ spelling v, f.find? key = some (spelling, v) → (read v).Ordinary) :
    (f.defaulted key fallback read).Ordinary := by
  unfold defaulted
  split
  · next hfind => simpa using hread _ _ hfind
  · simp

@[simp]
theorem ordinary_required (hread : ∀ v, (read v).Ordinary) : (f.required key read).Ordinary :=
  ordinary_required_of_find? fun _ v _ => hread v

@[simp]
theorem ordinary_defaulted (fallback : α) (hread : ∀ v, (read v).Ordinary) :
    (f.defaulted key fallback read).Ordinary :=
  ordinary_defaulted_of_find? fun _ v _ => hread v

variable {f key} in
theorem untagged_defaulted {fallback : α} {spelling : Text} {v : Json}
    (hfind : f.find? key = some (spelling, v)) (hread : (read v).Untagged) :
    (f.defaulted key fallback read).Untagged := by
  rw [defaulted, hfind]
  exact hread.under _

@[simp]
theorem ordinary_optional (hread : ∀ v, (read v).Ordinary) : (f.optional key read).Ordinary :=
  f.ordinary_defaulted key none (ordinary_nullable hread)

@[simp]
theorem ordinary_closed (keys : List Key) : (f.closed keys).Ordinary := by
  unfold closed
  dsimp only
  split
  · simp
  · next hextra => simpa [List.isEmpty_iff] using hextra

@[simp]
theorem ordinary_spelled : f.spelled.Ordinary := by
  unfold spelled
  split <;> simp

end Fields

/-- A record that is refused with findings only, and never ends at a container. -/
class OrdinaryRecord (α : Type) [Record α] : Prop where
  foremost : ∀ source f, (Record.foremost α source f).Ordinary := by exact fun _ _ => .accepted ()
  readFields : ∀ source f, (Record.readFields source f : Reading α).Ordinary := by
    -- the fields are read one after the other, and none of them is read out of the ordinary
    intro source f
    repeat' apply Reading.Ordinary.seq
    all_goals simp

@[simp]
theorem ordinary_read [Record α] [OrdinaryRecord α] (source : Source) (v : Json) :
    (Record.read source v : Reading α).Ordinary := by
  unfold Record.read object
  split
  · refine (OrdinaryRecord.foremost source _).andThen fun _ => ?_
    have hfields : ∀ f, (Record.readFields source f : Reading α).Ordinary :=
      OrdinaryRecord.readFields source
    split
    · exact ((hfields _).seqLeft (by simp)).checkedBy (by simp)
    · exact hfields _
    · exact (hfields _).checkedBy (by simp)
  · simp

end Composites

end ConversationFlow.Schema
