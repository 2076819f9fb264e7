import ConversationFlow.Proofs.Json.Value
import ConversationFlow.Schema.Record

/-!
# What is accepted

What is read from a document and accepted comes from the parts of the document: a record from its
fields, a list from its items, a table from the values under its keys.
-/

namespace ConversationFlow.Schema

variable {α β : Type}

namespace Reading

theorem map_eq_accepted_iff {f : α → β} {r : Reading α} {b : β} :
    f <$> r = .accepted b ↔ ∃ a, r = .accepted a ∧ f a = b := by
  cases r <;> simp [Functor.map, map]

theorem seq_eq_accepted_iff {f : Reading (α → β)} {x : Reading α} {b : β} :
    f <*> x = .accepted b ↔ ∃ g, f = .accepted g ∧ ∃ a, x = .accepted a ∧ g a = b := by
  refine both_eq_accepted_iff.trans ?_
  simp only [exists_and_left]

theorem andThen_eq_accepted_iff {r : Reading α} {f : α → Reading β} {b : β} :
    r.andThen f = .accepted b ↔ ∃ a, r = .accepted a ∧ f a = .accepted b := by
  cases r <;> simp [andThen]

/-- Whatever is accepted has a property. -/
def Yields (r : Reading α) (P : α → Prop) : Prop :=
  ∀ a, r = .accepted a → P a

variable {P : α → Prop}

theorem Yields.under {r : Reading α} (h : r.Yields P) (step : Step) : (r.under step).Yields P :=
  fun a ha => h a (under_eq_accepted_iff.1 ha)

theorem yields_accepted {a : α} (h : P a) : (accepted a).Yields P := by
  rintro _ ⟨⟩
  exact h

theorem yields_refuse (complaint : Complaint) (v : Json) :
    (refuse complaint v : Reading α).Yields P :=
  nofun

theorem yields_refused (findings : List Finding) : (refused findings : Reading α).Yields P :=
  nofun

end Reading

theorem eq_str_of_text {v : Json} {s : Text} (h : text v = .accepted s) : v = .str s := by
  unfold text at h
  split at h
  · cases h
    rfl
  · cases h

theorem Key.eq_str_of_reads {key : Key} {v : Json} {s : Text}
    (h : key.reads text v = .accepted s) : v = .str s :=
  eq_str_of_text (Reading.under_eq_accepted_iff.1 h)

section Composites

variable {P : α → Prop} {read : Json → Reading α}

/-- The items of a list are read one by one. -/
theorem forall₂_itemsFrom {items : List Json} {position : Nat} {as : List α}
    (h : itemsFrom read position items = .accepted as) :
    List.Forall₂ (fun v a => read v = .accepted a) items as := by
  induction items generalizing position as with
  | nil =>
    cases h
    exact .nil
  | cons v rest ih =>
    obtain ⟨_, hfirst, more, hmore, rfl⟩ := Reading.seq_eq_accepted_iff.1 h
    obtain ⟨a, ha, rfl⟩ := Reading.map_eq_accepted_iff.1 hfirst
    exact .cons (Reading.under_eq_accepted_iff.1 ha) (ih hmore)

theorem yields_itemsFrom {items : List Json} (h : ∀ v ∈ items, (read v).Yields P) (position : Nat) :
    (itemsFrom read position items).Yields fun as => ∀ a ∈ as, P a := by
  intro as has a ha
  obtain ⟨v, hv, hread⟩ := exists_left_of_forall₂ (forall₂_itemsFrom has) ha
  exact h v hv a hread

theorem yields_list {source : Source} {v : Json}
    (h : ∀ items, v = .arr items → ∀ item ∈ items, (read item).Yields P) :
    (list source read v).Yields fun as => ∀ a ∈ as, P a := by
  unfold list
  split
  · next items => exact yields_itemsFrom (h items rfl) 0
  · exact Reading.yields_refuse _ _

/-- The values under the keys of an object are read one by one, and stay under their keys. -/
theorem forall₂_entriesOf {fields : List (Text × Json)} {entries : List (Text × α)}
    (h : entriesOf read fields = .accepted entries) :
    List.Forall₂ (fun field entry => entry.1 = field.1 ∧ read field.2 = .accepted entry.2)
      fields entries := by
  induction fields generalizing entries with
  | nil =>
    cases h
    exact .nil
  | cons field rest ih =>
    obtain ⟨_, hfirst, more, hmore, rfl⟩ := Reading.seq_eq_accepted_iff.1 h
    obtain ⟨a, ha, rfl⟩ := Reading.map_eq_accepted_iff.1 hfirst
    exact .cons ⟨rfl, Reading.under_eq_accepted_iff.1 ha⟩ (ih hmore)

theorem yields_entriesOf {fields : List (Text × Json)}
    (h : ∀ field ∈ fields, (read field.2).Yields P) :
    (entriesOf read fields).Yields fun entries => ∀ entry ∈ entries, P entry.2 := by
  intro entries hentries entry hentry
  obtain ⟨field, hfield, -, hread⟩ := exists_left_of_forall₂ (forall₂_entriesOf hentries) hentry
  exact h field hfield _ hread

theorem yields_mapping {source : Source} {v : Json}
    (h : ∀ fields, v = .obj fields → ∀ field ∈ fields, (read field.2).Yields P) :
    (mapping source read v).Yields fun t => ∀ entry ∈ t.entries, P entry.2 := by
  unfold mapping
  split
  · next fields =>
    intro t ht
    obtain ⟨entries, hentries, rfl⟩ := Reading.map_eq_accepted_iff.1 ht
    intro entry hentry
    exact yields_entriesOf (h fields rfl) entries hentries entry
      (Table.mem_of_mem_entries_ofList hentry)
  · exact Reading.yields_refuse _ _

namespace Fields

variable {f : Fields} {key : Key}

theorem exists_mem_of_find? {spelling : Text} {v : Json} (h : f.find? key = some (spelling, v)) :
    (spelling, v) ∈ f.entries := by
  unfold find? at h
  split at h
  · next w hlookup =>
    cases h
    exact mem_of_lookup_eq_some hlookup
  · obtain ⟨w, hlookup, heq⟩ := Option.map_eq_some_iff.1 h
    cases heq
    exact mem_of_lookup_eq_some hlookup

theorem spelling_of_find? {spelling : Text} {v : Json} (h : f.find? key = some (spelling, v)) :
    spelling = key.document ∨ spelling = key.plain := by
  unfold find? at h
  split at h
  · cases h
    exact .inl rfl
  · obtain ⟨w, -, heq⟩ := Option.map_eq_some_iff.1 h
    cases heq
    exact .inr rfl

/-- Every key of a closed object is the spelling of a field that is used. -/
theorem exists_of_closed {keys : List Key} (h : f.closed keys = .accepted ()) {entry : Text × Json}
    (hentry : entry ∈ f.entries) : ∃ key ∈ keys, ∃ v, f.find? key = some (entry.1, v) := by
  unfold closed at h
  dsimp only at h
  split at h
  · next hextra =>
    rw [List.isEmpty_iff, List.filter_eq_nil_iff] at hextra
    have hused : entry.1 ∈ f.used keys := by simpa using hextra entry hentry
    obtain ⟨key, hkey, hfind⟩ := List.mem_filterMap.1 hused
    obtain ⟨⟨_, v⟩, hfind, rfl⟩ := Option.map_eq_some_iff.1 hfind
    exact ⟨key, hkey, v, hfind⟩
  · cases h

theorem spelled_eq_accepted_iff :
    f.spelled = .accepted () ↔ ∀ entry ∈ f.entries, entry.1.isWhole = true := by
  unfold spelled
  split
  · next key v hbroken =>
    have hkey := List.find?_some hbroken
    have hmem := List.mem_of_find?_eq_some hbroken
    refine iff_of_false nofun fun hwhole => ?_
    simp [hwhole _ hmem] at hkey
  · next hnone => simpa using List.find?_eq_none.1 hnone

theorem yields_required (h : ∀ field ∈ f.entries, (read field.2).Yields P) :
    (f.required key read).Yields P := by
  unfold required
  split
  · next spelling v hfind => exact (h _ (exists_mem_of_find? hfind)).under _
  · exact Reading.yields_refused _

theorem yields_defaulted {fallback : α} (hfallback : P fallback)
    (h : ∀ field ∈ f.entries, (read field.2).Yields P) :
    (f.defaulted key fallback read).Yields P := by
  unfold defaulted
  split
  · next spelling v hfind => exact (h _ (exists_mem_of_find? hfind)).under _
  · exact Reading.yields_accepted hfallback

theorem yields_optional (h : ∀ field ∈ f.entries, (read field.2).Yields P) :
    (f.optional key read).Yields fun value => ∀ a, value = some a → P a := by
  refine yields_defaulted nofun fun field hfield => ?_
  unfold nullable
  split
  · exact Reading.yields_accepted nofun
  · intro value hvalue
    obtain ⟨a, ha, rfl⟩ := Reading.map_eq_accepted_iff.1 hvalue
    rintro _ ⟨⟩
    exact h field hfield a ha

end Fields

/-- A record that is accepted was read from the fields of an object, which has no other keys if these
are refused, and no key in which a surrogate stands if they are kept. -/
theorem exists_closed_of_read [Record α] {source : Source} {v : Json} {a : α}
    (h : Record.read source v = .accepted a) :
    ∃ f : Fields, v = f.asJson ∧ Record.readFields source f = .accepted a ∧
      (Record.extraKeys α = .refused → f.closed (Record.keys α) = .accepted ()) ∧
      (Record.extraKeys α = .kept → f.spelled = .accepted ()) := by
  unfold Record.read object at h
  split at h
  · next entries =>
    obtain ⟨_, -, hfields⟩ := Reading.andThen_eq_accepted_iff.1 h
    refine ⟨⟨entries⟩, rfl, ?_⟩
    cases hextra : Record.extraKeys α with
    | refused =>
      rw [hextra] at hfields
      obtain ⟨hall, -⟩ := Reading.checkedBy_eq_accepted_iff.1 hfields
      rw [seqLeft_eq] at hall
      obtain ⟨_, hconst, _, hclosed, rfl⟩ := Reading.seq_eq_accepted_iff.1 hall
      obtain ⟨a, ha, rfl⟩ := Reading.map_eq_accepted_iff.1 hconst
      exact ⟨ha, fun _ => hclosed, nofun⟩
    | ignored =>
      rw [hextra] at hfields
      exact ⟨hfields, nofun, nofun⟩
    | kept =>
      rw [hextra] at hfields
      obtain ⟨ha, hspelled⟩ := Reading.checkedBy_eq_accepted_iff.1 hfields
      exact ⟨ha, nofun, fun _ => hspelled⟩
  · cases h

theorem exists_of_read [Record α] {source : Source} {v : Json} {a : α}
    (h : Record.read source v = .accepted a) :
    ∃ entries, v = .obj entries ∧ Record.readFields source ⟨entries⟩ = .accepted a := by
  obtain ⟨f, hv, hfields, -, -⟩ := exists_closed_of_read h
  exact ⟨f.entries, hv, hfields⟩

end Composites

end ConversationFlow.Schema
