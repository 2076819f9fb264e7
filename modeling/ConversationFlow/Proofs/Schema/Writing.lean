import ConversationFlow.Proofs.Json.Value
import ConversationFlow.Proofs.Schema.Choice
import ConversationFlow.Proofs.Timestamp
import ConversationFlow.Schema.Record

/-!
# Values that are written and read

What is written of a value is read as the value. For records this comes down to their keys being
apart: no two fields are written under one spelling, and no field is read from the spelling of
another one.
-/

namespace ConversationFlow.Schema

variable {α β : Type}

/-- A document stands for a value: it is read as the value, and its text stands for it. -/
structure StandsFor (read : Json → Reading α) (v : Json) (a : α) : Prop where
  read_eq : read v = .accepted a
  plain : v.IsPlain

/-- What is written of a value stands for it. It is never null, which stands for no value. -/
class Inverse (read : Json → Reading α) (write : outParam (α → Json)) : Prop where
  standsFor : ∀ a, StandsFor read (write a) a
  write_ne_null : ∀ a, write a ≠ .null

namespace Reading

theorem map_eq_accepted {r : Reading α} {a : α} (f : α → β) (h : r = .accepted a) :
    f <$> r = .accepted (f a) := by
  rw [h]
  rfl

theorem seq_eq_accepted {f : Reading (α → β)} {x : Reading α} {g : α → β} {a : α}
    (hf : f = .accepted g) (hx : x = .accepted a) : f <*> x = .accepted (g a) := by
  rw [hf, hx]
  rfl

end Reading

@[simp]
theorem isPlain_str (s : Text) : (Json.str s).IsPlain :=
  ⟨Json.every_str_iff.2 trivial, Json.every_str_iff.2 trivial⟩

@[simp]
theorem isPlain_int (n : Int) : (Json.int n).IsPlain :=
  ⟨Json.every_int_iff.2 trivial, Json.every_int_iff.2 trivial⟩

@[simp]
theorem isPlain_bool (b : Bool) : (Json.bool b).IsPlain :=
  ⟨Json.every_bool_iff.2 trivial, Json.every_bool_iff.2 trivial⟩

@[simp]
theorem isPlain_writeChoice [Choice α] (a : α) : (writeChoice a).IsPlain :=
  isPlain_str _

instance : Inverse text .str where
  standsFor s := ⟨rfl, isPlain_str s⟩
  write_ne_null := nofun

instance : Inverse integer .int where
  standsFor n := ⟨rfl, isPlain_int n⟩
  write_ne_null := nofun

instance : Inverse boolean .bool where
  standsFor b := ⟨rfl, isPlain_bool b⟩
  write_ne_null := nofun

instance [Choice α] [LawfulChoice α] : Inverse (choice : Json → Reading α) writeChoice where
  standsFor a := by
    refine ⟨?_, isPlain_str _⟩
    rw [writeChoice, choice, LawfulChoice.ofName?_name]
  write_ne_null := nofun

theorem itemsFrom_map {read : Json → Reading β} {write : α → Json} {f : α → β} {items : List α}
    (h : ∀ a ∈ items, StandsFor read (write a) (f a)) (position : Nat) :
    itemsFrom read position (items.map write) = .accepted (items.map f) := by
  induction items generalizing position with
  | nil => rfl
  | cons a rest ih =>
    rw [List.forall_mem_cons] at h
    refine Reading.seq_eq_accepted (Reading.map_eq_accepted List.cons ?_) (ih h.2 (position + 1))
    exact Reading.under_eq_accepted_iff.2 h.1.read_eq

/-- What is written of a list stands for the list of what its items are read as. -/
theorem standsFor_list_map {read : Json → Reading β} {write : α → Json} {f : α → β}
    {items : List α} (source : Source) (h : ∀ a ∈ items, StandsFor read (write a) (f a)) :
    StandsFor (list source read) (.arr (items.map write)) (items.map f) := by
  refine ⟨itemsFrom_map h 0, Json.isPlain_arr_iff.2 ?_⟩
  rw [List.forall_mem_map]
  exact fun a ha => (h a ha).plain

theorem standsFor_list {read : Json → Reading α} {write : α → Json} {items : List α}
    (source : Source) (h : ∀ a ∈ items, StandsFor read (write a) a) :
    StandsFor (list source read) (.arr (items.map write)) items := by
  simpa using standsFor_list_map (f := fun a => a) source h

theorem entriesOf_map {read : Json → Reading β} {write : α → Json} {f : α → β}
    {entries : List (Text × α)}
    (h : ∀ entry ∈ entries, StandsFor read (write entry.2) (f entry.2)) :
    entriesOf read (entries.map fun entry => (entry.1, write entry.2)) =
      .accepted (entries.map fun entry => (entry.1, f entry.2)) := by
  induction entries with
  | nil => rfl
  | cons entry rest ih =>
    rw [List.forall_mem_cons] at h
    refine Reading.seq_eq_accepted (Reading.map_eq_accepted _ ?_) (ih h.2)
    exact Reading.under_eq_accepted_iff.2 h.1.read_eq

/-- What is written of a table stands for the table of what its values are read as. -/
theorem standsFor_mapping_map {read : Json → Reading β} {write : α → Json} {f : α → β}
    {t : Table α} (source : Source)
    (h : ∀ entry ∈ t.entries, StandsFor read (write entry.2) (f entry.2)) :
    StandsFor (mapping source read) (.obj (t.entries.map fun entry => (entry.1, write entry.2)))
      (t.map f) := by
  constructor
  · rw [mapping, entriesOf_map h, Reading.map]
    exact congrArg Reading.accepted (Table.ofList_entries (t.map f))
  · refine Json.isPlain_obj_iff.2 ⟨?_, ?_⟩
    · rw [List.map_map]
      exact t.distinct
    · rw [List.forall_mem_map]
      exact fun entry hentry => (h entry hentry).plain

theorem standsFor_mapping {read : Json → Reading α} {write : α → Json} {t : Table α}
    (source : Source) (h : ∀ entry ∈ t.entries, StandsFor read (write entry.2) entry.2) :
    StandsFor (mapping source read) (.obj (t.entries.map fun entry => (entry.1, write entry.2)))
      t := by
  have hsame : (t.map fun a => a) = t := Table.ext_entries (List.map_id' _)
  have hmapped := standsFor_mapping_map (f := fun a => a) source h
  rwa [hsame] at hmapped

/-- Free values are written as they can be: null stands in them for a number that is not finite. -/
theorem standsFor_finiteFields {t : Table Json} (source : Source)
    (h : ∀ v ∈ t.values, v.HasDistinctKeys) :
    StandsFor (mapping source anything) (.obj (Json.finiteFields t.entries)) (t.map Json.finite) := by
  rw [Json.finiteFields, Json.mapFloatsFields_eq]
  refine standsFor_mapping_map source fun entry hentry => ⟨rfl, ?_⟩
  exact Json.isPlain_finite (h entry.2 (List.mem_map_of_mem hentry))

instance (source : Source) : Inverse (list source text) writeTexts where
  standsFor _ := standsFor_list source fun s _ => Inverse.standsFor s
  write_ne_null := nofun

instance (source : Source) : Inverse (mapping source text) writeTextTable where
  standsFor _ := standsFor_mapping source fun entry _ => Inverse.standsFor entry.2
  write_ne_null := nofun

@[simp]
theorem isPlain_writeTexts (texts : List Text) : (writeTexts texts).IsPlain := by
  have hread : StandsFor (list .text text) (writeTexts texts) texts := Inverse.standsFor texts
  exact hread.plain

@[simp]
theorem isPlain_writeTextTable (t : Table Text) : (writeTextTable t).IsPlain := by
  have hread : StandsFor (mapping .text text) (writeTextTable t) t := Inverse.standsFor t
  exact hread.plain

/-- No two keys have one spelling in documents, and the plain spelling of a key is not the one of
another key in documents. -/
def KeysApart (keys : List Key) : Prop :=
  (keys.map Key.document).Nodup ∧
    ∀ key ∈ keys, ∀ other ∈ keys, key.plain = other.document → key = other

instance (keys : List Key) : Decidable (KeysApart keys) := by
  unfold KeysApart
  infer_instance

/-- The fields of a written record that have a value. -/
def present (fields : List (Text × Option Json)) : List (Text × Json) :=
  fields.filterMap fun field => field.2.map (field.1, ·)

theorem record_eq_present (fields : List (Text × Option Json)) :
    Json.record false fields = .obj (present fields) := by
  rw [Json.record, present]
  congr 2
  funext ⟨key, value⟩
  cases value <;> rfl

theorem mem_present_iff {fields : List (Text × Option Json)} {key : Text} {v : Json} :
    (key, v) ∈ present fields ↔ (key, some v) ∈ fields := by
  rw [present, List.mem_filterMap]
  constructor
  · rintro ⟨⟨other, value⟩, hmem, hvalue⟩
    obtain ⟨w, rfl, heq⟩ := Option.map_eq_some_iff.1 hvalue
    cases heq
    exact hmem
  · exact fun hmem => ⟨_, hmem, rfl⟩

theorem nodup_present {fields : List (Text × Option Json)} (h : (fields.map Prod.fst).Nodup) :
    ((present fields).map Prod.fst).Nodup := by
  refine h.sublist ?_
  induction fields with
  | nil => exact .slnil
  | cons field rest ih =>
    obtain ⟨key, value⟩ := field
    have hrest := ih (List.nodup_cons.1 h).2
    cases value with
    | none => exact hrest.cons key
    | some v => exact hrest.cons_cons key

theorem lookup_present {fields : List (Text × Option Json)} (h : (fields.map Prod.fst).Nodup)
    {key : Text} {value : Option Json} (hmem : (key, value) ∈ fields) :
    (present fields).lookup key = value := by
  cases value with
  | some v => exact (lookup_eq_some_iff_mem (nodup_present h)).2 (mem_present_iff.2 hmem)
  | none =>
    rw [lookup_eq_none_iff_notMem, List.mem_map]
    rintro ⟨⟨_, v⟩, hpresent, rfl⟩
    have hother := (lookup_eq_some_iff_mem h).2 (mem_present_iff.1 hpresent)
    rw [(lookup_eq_some_iff_mem h).2 hmem] at hother
    cases hother

namespace Fields

/-- The fields of an object were written, one for each key. -/
structure Written (f : Fields) (keys : List Key) (fields : List (Text × Option Json)) : Prop where
  entries_eq : f.entries = present fields
  names_eq : fields.map Prod.fst = keys.map Key.document
  apart : KeysApart keys

namespace Written

variable {f : Fields} {keys : List Key} {fields : List (Text × Option Json)} {key : Key}

theorem nodup (h : f.Written keys fields) : (fields.map Prod.fst).Nodup := by
  rw [h.names_eq]
  exact h.apart.1

theorem lookup_document (h : f.Written keys fields) {value : Option Json}
    (hmem : (key.document, value) ∈ fields) : f.entries.lookup key.document = value := by
  rw [h.entries_eq]
  exact lookup_present h.nodup hmem

theorem find?_eq (h : f.Written keys fields) (hkey : key ∈ keys) {value : Option Json}
    (hmem : (key.document, value) ∈ fields) : f.find? key = value.map (key.document, ·) := by
  have hdocument := h.lookup_document hmem
  cases value with
  | some v => rw [find?, hdocument, Option.map_some]
  | none =>
    have hplain : f.entries.lookup key.plain = none := by
      by_cases hname : key.plain ∈ keys.map Key.document
      · obtain ⟨other, hother, hspelling⟩ := List.mem_map.1 hname
        obtain rfl := h.apart.2 key hkey other hother hspelling.symm
        rw [← hspelling, hdocument]
      · rw [h.entries_eq, lookup_eq_none_iff_notMem]
        intro hmem
        obtain ⟨⟨_, v⟩, hpresent, rfl⟩ := List.mem_map.1 hmem
        rw [← h.names_eq] at hname
        exact hname (List.mem_map_of_mem (mem_present_iff.1 hpresent))
    rw [find?, hdocument, hplain, Option.map_none, Option.map_none]

variable {read : Json → Reading α} {write : α → Json}

/-- A field that always has a value is read as it was written. -/
theorem required_of_standsFor (h : f.Written keys fields) {v : Json} {a : α}
    (hread : StandsFor read v a) (hkey : key ∈ keys := by simp [Record.keys])
    (hmem : key.holds v ∈ fields := by simp) : f.required key read = .accepted a := by
  rw [required, h.find?_eq hkey hmem]
  exact Reading.under_eq_accepted_iff.2 hread.read_eq

theorem defaulted_of_standsFor (h : f.Written keys fields) {fallback : α} {v : Json} {a : α}
    (hread : StandsFor read v a) (hkey : key ∈ keys := by simp [Record.keys])
    (hmem : key.holds v ∈ fields := by simp) : f.defaulted key fallback read = .accepted a := by
  rw [defaulted, h.find?_eq hkey hmem]
  exact Reading.under_eq_accepted_iff.2 hread.read_eq

/-- A field that is left out is read as the value that it has then. -/
theorem defaulted_of_none (h : f.Written keys fields) {fallback : α}
    (hkey : key ∈ keys := by simp [Record.keys])
    (hmem : key.mayHold none ∈ fields := by simp) :
    f.defaulted key fallback read = .accepted fallback := by
  rw [defaulted, h.find?_eq hkey hmem]
  rfl

theorem required [Inverse read write] (h : f.Written keys fields) {a : α}
    (hkey : key ∈ keys := by simp [Record.keys])
    (hmem : key.holds (write a) ∈ fields := by simp) : f.required key read = .accepted a :=
  h.required_of_standsFor (Inverse.standsFor a) hkey hmem

theorem defaulted [Inverse read write] (h : f.Written keys fields) {fallback a : α}
    (hkey : key ∈ keys := by simp [Record.keys])
    (hmem : key.holds (write a) ∈ fields := by simp) :
    f.defaulted key fallback read = .accepted a :=
  h.defaulted_of_standsFor (Inverse.standsFor a) hkey hmem

/-- A field that may be left out is read as what stands for its value, if it has one. -/
theorem optional_of_standsFor (h : f.Written keys fields) {put : β → Json} {g : β → α}
    {value : Option β} (hread : ∀ b, StandsFor read (put b) (g b)) (hnull : ∀ b, put b ≠ .null)
    (hkey : key ∈ keys := by simp [Record.keys])
    (hmem : key.mayHold (value.map put) ∈ fields := by simp) :
    f.optional key read = .accepted (value.map g) := by
  cases value with
  | none => exact h.defaulted_of_none hkey hmem
  | some b =>
    refine h.defaulted_of_standsFor ⟨?_, (hread b).plain⟩ hkey hmem
    unfold nullable
    split
    · next heq => exact absurd heq (hnull b)
    · rw [(hread b).read_eq]
      rfl

theorem optional [Inverse read write] (h : f.Written keys fields) {value : Option α}
    (hkey : key ∈ keys := by simp [Record.keys])
    (hmem : key.mayHold (value.map write) ∈ fields := by simp) :
    f.optional key read = .accepted value := by
  have hread (a : α) : StandsFor read (write a) a := Inverse.standsFor a
  have hmapped := h.optional_of_standsFor hread (Inverse.write_ne_null read) hkey hmem
  rwa [Option.map_id'] at hmapped

theorem closed (h : f.Written keys fields) : f.closed keys = .accepted () := by
  have hused : ∀ entry ∈ f.entries, entry.1 ∈ f.used keys := by
    rintro ⟨name, v⟩ hentry
    rw [h.entries_eq] at hentry
    have hmem := mem_present_iff.1 hentry
    have hname : name ∈ keys.map Key.document := by
      rw [← h.names_eq]
      exact List.mem_map_of_mem hmem
    obtain ⟨key, hkey, rfl⟩ := List.mem_map.1 hname
    refine List.mem_filterMap.2 ⟨key, hkey, ?_⟩
    rw [h.find?_eq hkey hmem]
    rfl
  have hextra : (f.entries.filter fun entry => entry.1 ∉ f.used keys) = [] := by
    rw [List.filter_eq_nil_iff]
    intro entry hentry
    simpa using hused entry hentry
  rw [Fields.closed, hextra]
  rfl

theorem spelled (h : f.Written keys fields) (hwhole : ∀ key ∈ keys, key.document.isWhole) :
    f.spelled = .accepted () := by
  have hnone : (f.entries.find? fun entry => !entry.1.isWhole) = none := by
    rw [List.find?_eq_none]
    rintro ⟨name, v⟩ hentry
    rw [h.entries_eq] at hentry
    have hname : name ∈ keys.map Key.document := by
      rw [← h.names_eq]
      exact List.mem_map_of_mem (mem_present_iff.1 hentry)
    obtain ⟨key, hkey, rfl⟩ := List.mem_map.1 hname
    simp [hwhole key hkey]
  rw [Fields.spelled, hnone]

end Written

end Fields

def PlainField (field : Text × Option Json) : Prop :=
  ∀ v, field.2 = some v → v.IsPlain

@[simp]
theorem plainField_holds_iff {key : Key} {v : Json} : PlainField (key.holds v) ↔ v.IsPlain := by
  simp [PlainField, Key.holds]

@[simp]
theorem plainField_mayHold_iff {key : Key} {value : Option Json} :
    PlainField (key.mayHold value) ↔ ∀ v, value = some v → v.IsPlain :=
  Iff.rfl

theorem isPlain_record {fields : List (Text × Option Json)} (hnames : (fields.map Prod.fst).Nodup)
    (hplain : ∀ field ∈ fields, PlainField field) : (Json.record false fields).IsPlain := by
  rw [record_eq_present, Json.isPlain_obj_iff]
  refine ⟨nodup_present hnames, ?_⟩
  rintro ⟨key, v⟩ hmem
  exact hplain (key, some v) (mem_present_iff.1 hmem) v rfl

/-- What is written of a record stands for it if its keys are apart, its fields are plain and each of
them is read as it was written. -/
theorem standsFor_record [Record α] {source : Source} {fields : List (Text × Option Json)} {a : α}
    (hfields : ∀ f : Fields, f.Written (Record.keys α) fields →
      Record.readFields source f = .accepted a)
    (hplain : ∀ field ∈ fields, PlainField field := by simp)
    (hforemost : ∀ f : Fields, f.Written (Record.keys α) fields →
      Record.foremost α source f = .accepted () := by exact fun _ _ => rfl)
    (hapart : KeysApart (Record.keys α) := by decide)
    (hwhole : ∀ key ∈ Record.keys α, key.document.isWhole := by decide)
    (hextra : Record.extraKeys α = .refused := by rfl)
    (hnames : fields.map Prod.fst = (Record.keys α).map Key.document := by rfl) :
    StandsFor (Record.read source) (Json.record false fields) a := by
  have hwritten : (⟨present fields⟩ : Fields).Written (Record.keys α) fields :=
    ⟨rfl, hnames, hapart⟩
  constructor
  · rw [record_eq_present, Record.read, object, hforemost _ hwritten, hextra, Reading.andThen,
      hfields _ hwritten, hwritten.closed, hwritten.spelled hwhole]
    rfl
  · exact isPlain_record hwritten.nodup hplain

theorem record_ne_null (fields : List (Text × Option Json)) : Json.record false fields ≠ .null :=
  nofun

/-- A record that is read from what is written of it, whatever its values are. -/
class LawfulRecord (α : Type) [Record α] : Prop where
  standsFor : ∀ source (a : α), StandsFor (Record.read source) (Record.write false a) a
  write_ne_null : ∀ a : α, Record.write false a ≠ .null := by exact fun _ => record_ne_null _

section LawfulRecord

variable [Record α] [LawfulRecord α]

instance (source : Source) :
    Inverse (Record.read source : Json → Reading α) (Record.write false) where
  standsFor := LawfulRecord.standsFor source
  write_ne_null := LawfulRecord.write_ne_null

instance (source : Source) :
    Inverse (list source (Record.read source : Json → Reading α)) (Record.writeAll false) where
  standsFor _ := standsFor_list source fun a _ => LawfulRecord.standsFor source a
  write_ne_null := nofun

@[simp]
theorem isPlain_write (a : α) : (Record.write false a).IsPlain :=
  (LawfulRecord.standsFor .text a).plain

@[simp]
theorem isPlain_writeAll (items : List α) : (Record.writeAll false items).IsPlain :=
  (standsFor_list .text fun a _ => LawfulRecord.standsFor .text a).plain

end LawfulRecord

end ConversationFlow.Schema
