import ConversationFlow.Proofs.Executable.Shape
import ConversationFlow.Proofs.Executable.Values

/-!
# Records that keep what they are read from

Whatever is read as a record of a flow is preserved by what is written of the record, and no
surrogate stands in that if none stood in what was read. The reason is the same for each of them: it
refuses keys that it does not know, every key that it knows has a field, and every field is written
unless it is null.
-/

namespace ConversationFlow.Executable

open Schema

variable {α : Type}

/-- What is written of a document keeps what the document holds: it preserves a document of
dictionaries, and no surrogate stands in it if none stands in the document. -/
structure Kept (shape : Shape) (v w : Json) : Prop where
  preserved : v.HasDistinctKeys → Preserved shape v w
  whole : v.IsWhole → w.IsWhole

/-- What is written of a value keeps whatever the value is read from. -/
class Keeps (shape : outParam Shape) (read : Json → Reading α) (write : outParam (α → Json)) :
    Prop where
  kept : ∀ v a, read v = .accepted a → Kept shape v (write a)

theorem kept_of_leaf {v w : Json} (hobj : ∀ fields, v ≠ .obj fields) (harr : ∀ items, v ≠ .arr items)
    (hwhole : v.IsWhole → w.IsWhole) : Kept .free v w :=
  ⟨fun _ => preserved_of_leaf hobj harr w, hwhole⟩

theorem kept_finite (v : Json) : Kept .free v v.finite :=
  ⟨fun _ => preserved_finite v, Json.isWhole_finite⟩

instance : Keeps .free text .str where
  kept v a h := by
    obtain rfl := eq_str_of_text h
    exact kept_of_leaf nofun nofun id

instance : Keeps .free integer .int where
  kept v a h := by
    cases v with
    | bool | int | float | str => exact kept_of_leaf nofun nofun fun _ => Json.isWhole_int a
    | null | arr | obj => cases h

instance : Keeps .free boolean .bool where
  kept v a h := by
    cases v with
    | bool | int | float | str => exact kept_of_leaf nofun nofun fun _ => Json.isWhole_bool a
    | null | arr | obj => cases h

theorem isWhole_writeChoice [Choice α] (a : α) : (writeChoice a).IsWhole :=
  Json.isWhole_str_iff.2 rfl

instance [Choice α] : Keeps .free (choice : Json → Reading α) writeChoice where
  kept v a h := by
    cases v with
    | str s => exact kept_of_leaf nofun nofun fun _ => isWhole_writeChoice a
    | null | bool | int | float | arr | obj => cases h

instance (source : Source) : Keeps .free (timestamp source) Metadata.writeTimestamp where
  kept v a h := by
    cases v with
    | int | float | str => exact kept_of_leaf nofun nofun fun _ => Json.isWhole_str_iff.2 rfl
    | null | bool | arr | obj => cases h

instance : Keeps .free anything Json.finite where
  kept v a h := by
    cases h
    exact kept_finite v

instance : Keeps .free Node.readType .str where
  kept v a h := by
    cases v with
    | str s =>
      cases h
      exact kept_of_leaf nofun nofun id
    | null | bool | int | float | arr | obj => cases h

section Composites

variable {shape target : Shape} {source : Source} {read : Json → Reading α} {write : α → Json}
  [Keeps target read write] {v : Json}

theorem kept_list {as : List α} (hshape : ∀ kind, shape ≠ .record kind)
    (hitem : shape.item = target) (h : list source read v = .accepted as) :
    Kept shape v (.arr (as.map write)) := by
  unfold list at h
  split at h
  · next items =>
    have hitems := forall₂_itemsFrom h
    constructor
    · intro hdistinct
      subst hitem
      refine preserved_arr hshape ?_
      rw [List.forall₂_map_right_iff]
      have hboth := (List.forall₂_and_left _ _).2 ⟨(Json.every_arr_iff.1 hdistinct).2, hitems⟩
      exact hboth.imp fun v a ⟨hdistinct, hread⟩ => (Keeps.kept v a hread).preserved hdistinct
    · intro hwhole
      refine Json.isWhole_arr_iff.2 (List.forall_mem_map.2 fun a ha => ?_)
      obtain ⟨v, hv, hread⟩ := exists_left_of_forall₂ hitems ha
      exact (Keeps.kept v a hread).whole (Json.isWhole_arr_iff.1 hwhole v hv)
  · cases h

theorem kept_mapping {t : Table α} (hname : ∀ key, shape.name key = key)
    (hshape : ∀ kind, shape ≠ .record kind) (hfield : ∀ fields key, shape.field fields key = target)
    (h : mapping source read v = .accepted t) :
    Kept shape v (.obj (t.entries.map fun entry => (entry.1, write entry.2))) := by
  unfold mapping at h
  split at h
  · next fields =>
    obtain ⟨entries, hentries, rfl⟩ := Reading.map_eq_accepted_iff.1 h
    have hrelated := forall₂_entriesOf hentries
    constructor
    · intro hv
      have hkeys : fields.map Prod.fst = entries.map Prod.fst :=
        map_eq_map_of_forall₂ hrelated fun _ _ hentry => hentry.1.symm
      obtain ⟨hdistinct, hvalues⟩ := Json.every_obj_iff.1 hv
      rw [Table.entries_ofList (hkeys ▸ hdistinct)]
      refine preserved_obj (fun kind hkind => absurd hkind (hshape kind)) fun field hmem => .inr ?_
      obtain ⟨entry, hentry, hkey, hread⟩ := exists_right_of_forall₂ hrelated hmem
      refine ⟨write entry.2, ?_, ?_⟩
      · rw [hname, ← hkey]
        exact List.mem_map_of_mem (f := fun entry => (entry.1, write entry.2)) hentry
      · rw [hfield]
        exact (Keeps.kept _ _ hread).preserved (hvalues field hmem)
    · intro hv
      refine Json.isWhole_obj_iff.2 (List.forall_mem_map.2 fun entry hentry => ?_)
      obtain ⟨field, hmem, hkey, hread⟩ :=
        exists_left_of_forall₂ hrelated (Table.mem_of_mem_entries_ofList hentry)
      obtain ⟨hname, hvalue⟩ := Json.isWhole_obj_iff.1 hv field hmem
      exact ⟨hkey ▸ hname, (Keeps.kept _ _ hread).whole hvalue⟩
  · cases h

end Composites

instance (source : Source) : Keeps .free (list source text) writeTexts where
  kept _ _ := kept_list nofun rfl

instance (source : Source) : Keeps .free (mapping source text) writeTextTable where
  kept _ _ := kept_mapping (fun _ => rfl) nofun (fun _ _ => rfl)

instance (source : Source) : Keeps .free (mapping source anything)
    fun t => .obj (Json.finiteFields t.entries) where
  kept v t h := by
    rw [Json.finiteFields, Json.mapFloatsFields_eq]
    exact kept_mapping (fun _ => rfl) nofun (fun _ _ => rfl) h

section Fields

variable {kind : RecordKind} {f : Fields} {key : Key} {written : List (Text × Option Json)}

/-- The written value of a field keeps what is given for the field, unless that is null, and no
surrogate stands in it if none stands in the object. -/
structure KeepsValue (kind : RecordKind) (f : Fields) (key : Key) (value : Option Json) : Prop where
  given : ∀ spelling v, f.find? key = some (spelling, v) → v = .null ∨ ∃ w, value = some w ∧
    (v.HasDistinctKeys → Preserved (kind.part f.entries key.document) v w)
  whole : f.asJson.IsWhole → ∀ w, value = some w → w.IsWhole

def KeepsField (kind : RecordKind) (f : Fields) (written : List (Text × Option Json))
    (key : Key) : Prop :=
  ∃ value, (key.document, value) ∈ written ∧ KeepsValue kind f key value

variable {shape : Shape} {read : Json → Reading α} {write : α → Json} [Keeps shape read write]

/-- A field that is given is kept by what is written of the value that it is read as. -/
theorem keepsValue_of_given {spelling : Text} {v : Json} (hfind : f.find? key = some (spelling, v))
    {a : α} (h : read v = .accepted a) (hpart : kind.part f.entries key.document = shape) :
    KeepsValue kind f key (some (write a)) := by
  have hkept := Keeps.kept v a h
  constructor
  · intro other w hother
    rw [hfind] at hother
    cases hother
    rw [hpart]
    exact .inr ⟨write a, rfl, hkept.preserved⟩
  · rintro hwhole _ ⟨⟩
    exact hkept.whole (Json.isWhole_obj_iff.1 hwhole _ (Fields.exists_mem_of_find? hfind)).2

/-- A field that is not given is kept by any value without surrogates. -/
theorem keepsValue_of_absent (hfind : f.find? key = none) {value : Option Json}
    (hwhole : ∀ w, value = some w → w.IsWhole) : KeepsValue kind f key value where
  given spelling v hother := by
    rw [hfind] at hother
    cases hother
  whole _ := hwhole

theorem keepsField_required {a : α} (h : f.required key read = .accepted a)
    (hpart : kind.part f.entries key.document = shape := by rfl)
    (hmem : key.holds (write a) ∈ written := by simp) : KeepsField kind f written key := by
  refine ⟨_, hmem, ?_⟩
  rw [Fields.required] at h
  split at h
  · next spelling v hfind =>
    exact keepsValue_of_given hfind (Reading.under_eq_accepted_iff.1 h) hpart
  · cases h

theorem keepsField_defaulted {a fallback : α} (h : f.defaulted key fallback read = .accepted a)
    (hpart : kind.part f.entries key.document = shape := by rfl)
    (hmem : key.holds (write a) ∈ written := by simp)
    (hfallback : (write fallback).IsWhole := by decide) : KeepsField kind f written key := by
  refine ⟨_, hmem, ?_⟩
  rw [Fields.defaulted] at h
  split at h
  · next spelling v hfind =>
    exact keepsValue_of_given hfind (Reading.under_eq_accepted_iff.1 h) hpart
  · next hfind =>
    cases h
    refine keepsValue_of_absent hfind ?_
    rintro _ ⟨⟩
    exact hfallback

theorem keepsField_optional {value : Option α} (h : f.optional key read = .accepted value)
    (hpart : kind.part f.entries key.document = shape := by rfl)
    (hmem : key.mayHold (value.map write) ∈ written := by simp) :
    KeepsField kind f written key := by
  refine ⟨_, hmem, ?_⟩
  rw [Fields.optional, Fields.defaulted] at h
  split at h
  · next spelling v hfind =>
    have hnullable := Reading.under_eq_accepted_iff.1 h
    unfold nullable at hnullable
    split at hnullable
    · cases hnullable
      refine ⟨fun _ _ hother => .inl ?_, by simp⟩
      rw [hfind] at hother
      cases hother
      rfl
    · obtain ⟨a, ha, rfl⟩ := Reading.map_eq_accepted_iff.1 hnullable
      exact keepsValue_of_given hfind ha hpart
  · next hfind =>
    cases h
    exact keepsValue_of_absent hfind (by simp)

end Fields

section Records

variable {kind : RecordKind} {f : Fields}

theorem camelCase_of_find? {key : Key} (hkey : key ∈ kind.keys) {spelling : Text} {v : Json}
    (h : f.find? key = some (spelling, v)) : camelCase spelling = key.document := by
  obtain ⟨hdocument, hplain⟩ := RecordKind.camelCase_of_mem_keys key hkey
  rcases Fields.spelling_of_find? h with rfl | rfl
  · exact hdocument
  · exact hplain

theorem wellKeyed_of_closed (hdistinct : (f.entries.map Prod.fst).Nodup)
    (h : f.closed kind.keys = .accepted ()) : WellKeyed kind.keys f.entries := by
  constructor
  · intro entry hentry
    obtain ⟨key, hkey, v, hfind⟩ := Fields.exists_of_closed h hentry
    exact ⟨key, hkey, Fields.spelling_of_find? hfind⟩
  · have hinjective : ∀ entry ∈ f.entries, ∀ other ∈ f.entries,
        camelCase entry.1 = camelCase other.1 → entry.1 = other.1 := by
      intro entry hentry other hother heq
      obtain ⟨key, hkey, v, hfind⟩ := Fields.exists_of_closed h hentry
      obtain ⟨key', hkey', v', hfind'⟩ := Fields.exists_of_closed h hother
      rw [camelCase_of_find? hkey hfind, camelCase_of_find? hkey' hfind'] at heq
      obtain rfl := List.inj_on_of_nodup_map kind.keysApart.1 hkey hkey' heq
      rw [hfind, Option.some.injEq, Prod.mk.injEq] at hfind'
      exact hfind'.1
    have hnames := hdistinct.map_on (f := camelCase) ?_
    · rwa [List.map_map] at hnames
    · rintro _ hx _ hy heq
      obtain ⟨entry, hentry, rfl⟩ := List.mem_map.1 hx
      obtain ⟨other, hother, rfl⟩ := List.mem_map.1 hy
      exact hinjective entry hentry other hother heq

section Written

variable {written : List (Text × Option Json)}

/-- A record is preserved if it refuses unknown keys and each of its fields is kept. -/
theorem preserved_record (hv : f.asJson.HasDistinctKeys)
    (hclosed : f.closed kind.keys = .accepted ())
    (hfields : ∀ key ∈ kind.keys, KeepsField kind f written key) :
    Preserved (.record kind) f.asJson (Json.record false written) := by
  obtain ⟨hdistinct, hvalues⟩ := Json.every_obj_iff.1 hv
  rw [record_eq_present]
  refine preserved_obj ?_ fun field hfield => ?_
  · rintro _ ⟨⟩
    exact wellKeyed_of_closed hdistinct hclosed
  · obtain ⟨key, hkey, v, hfind⟩ := Fields.exists_of_closed hclosed hfield
    obtain rfl : field.2 = v := by
      have hmem := (lookup_eq_some_iff_mem hdistinct).2 (Fields.exists_mem_of_find? hfind)
      rw [(lookup_eq_some_iff_mem hdistinct).2 hfield] at hmem
      exact Option.some.inj hmem
    rw [Shape.name, Shape.field, camelCase_of_find? hkey hfind]
    obtain ⟨value, hvalue, hkept⟩ := hfields key hkey
    refine (hkept.given _ _ hfind).imp_right ?_
    rintro ⟨w, rfl, hpreserved⟩
    exact ⟨w, mem_present_iff.2 hvalue, hpreserved (hvalues field hfield)⟩

theorem isWhole_record (hv : f.asJson.IsWhole)
    (hnames : written.map Prod.fst = kind.keys.map Key.document)
    (hfields : ∀ key ∈ kind.keys, KeepsField kind f written key) :
    (Json.record false written).IsWhole := by
  have hdistinct : (written.map Prod.fst).Nodup := hnames ▸ kind.keysApart.1
  rw [record_eq_present, Json.isWhole_obj_iff]
  rintro ⟨name, w⟩ hpresent
  have hmem := mem_present_iff.1 hpresent
  have hname : name ∈ kind.keys.map Key.document := by
    rw [← hnames]
    exact List.mem_map_of_mem hmem
  obtain ⟨key, hkey, rfl⟩ := List.mem_map.1 hname
  obtain ⟨value, hvalue, hkept⟩ := hfields key hkey
  have hlookup := (lookup_eq_some_iff_mem hdistinct).2 hmem
  have hsame : value = some w := by
    rw [(lookup_eq_some_iff_mem hdistinct).2 hvalue] at hlookup
    exact Option.some.inj hlookup
  exact ⟨RecordKind.isWhole_of_mem_keys key hkey, hkept.whole hv w hsame⟩

theorem kept_of_read [Record α] {source : Source} {v : Json} {a : α}
    (h : Record.read source v = .accepted a)
    (hfields : ∀ f : Fields, Record.readFields source f = .accepted a →
      ∀ key ∈ Record.keys α, KeepsField kind f written key)
    (hkeys : Record.keys α = kind.keys := by rfl)
    (hextra : Record.extraKeys α = .refused := by rfl)
    (hnames : written.map Prod.fst = (Record.keys α).map Key.document := by rfl) :
    Kept (.record kind) v (Json.record false written) := by
  obtain ⟨f, rfl, hread, hclosed, -⟩ := exists_closed_of_read h
  have hkept : ∀ key ∈ kind.keys, KeepsField kind f written key := hkeys ▸ hfields f hread
  exact ⟨fun hv => preserved_record hv (hkeys ▸ hclosed hextra) hkept,
    fun hv => isWhole_record hv (hkeys ▸ hnames) hkept⟩

end Written

end Records

/-- A record that is kept by what is written of it. -/
class KeepsRecord (α : Type) [Record α] (kind : outParam RecordKind) : Prop where
  kept : ∀ source v (a : α), Record.read source v = .accepted a →
    Kept (.record kind) v (Record.write false a)

section KeepsRecord

variable [Record α] {kind : RecordKind} [KeepsRecord α kind]

instance (source : Source) :
    Keeps (.record kind) (Record.read source : Json → Reading α) (Record.write false) where
  kept := KeepsRecord.kept source

instance (source : Source) : Keeps (.list kind)
    (list source (Record.read source : Json → Reading α)) (Record.writeAll false) where
  kept _ _ := kept_list nofun rfl

instance (source : Source) : Keeps (.table kind)
    (mapping source (Record.read source : Json → Reading α))
    fun t => .obj (t.entries.map fun entry => (entry.1, Record.write false entry.2)) where
  kept _ _ := kept_mapping (fun _ => rfl) nofun (fun _ _ => rfl)

end KeepsRecord

instance : KeepsRecord MessageButton .button where
  kept source v c h := by
    refine kept_of_read h fun f hread => ?_
    simp only [Record.readFields, Reading.seq_eq_accepted_iff, Reading.map_eq_accepted_iff] at hread
    obtain ⟨_, ⟨_, ⟨_, ⟨id, hid, rfl⟩, label, hlabel, rfl⟩, action, haction, rfl⟩, value, hvalue,
      rfl⟩ := hread
    simp only [Record.keys, List.forall_mem_cons]
    exact ⟨keepsField_required hid, keepsField_defaulted hlabel,
      keepsField_defaulted haction, keepsField_defaulted hvalue, by simp⟩

instance : KeepsRecord CardItem .card where
  kept source v c h := by
    refine kept_of_read h fun f hread => ?_
    simp only [Record.readFields, Reading.seq_eq_accepted_iff, Reading.map_eq_accepted_iff] at hread
    obtain ⟨_, ⟨_, ⟨_, ⟨title, htitle, rfl⟩, subtitle, hsubtitle, rfl⟩, imageUrl, himageUrl, rfl⟩,
      buttons, hbuttons, rfl⟩ := hread
    simp only [Record.keys, List.forall_mem_cons]
    exact ⟨keepsField_defaulted htitle, keepsField_optional hsubtitle,
      keepsField_optional himageUrl, keepsField_optional hbuttons, by simp⟩

instance : KeepsRecord RichContent .richContent where
  kept source v c h := by
    refine kept_of_read h fun f hread => ?_
    simp only [Record.readFields, Reading.seq_eq_accepted_iff, Reading.map_eq_accepted_iff] at hread
    obtain ⟨_, ⟨kind, hkind, rfl⟩, items, hitems, rfl⟩ := hread
    simp only [Record.keys, List.forall_mem_cons]
    exact ⟨keepsField_required hkind, keepsField_defaulted hitems, by simp⟩

instance : KeepsRecord FormField .formField where
  kept source v c h := by
    refine kept_of_read h fun f hread => ?_
    simp only [Record.readFields, Reading.seq_eq_accepted_iff, Reading.map_eq_accepted_iff] at hread
    obtain ⟨_, ⟨_, ⟨_, ⟨_, ⟨id, hid, rfl⟩, label, hlabel, rfl⟩, type, htype, rfl⟩, required,
      hrequired, rfl⟩, options, hoptions, rfl⟩ := hread
    simp only [Record.keys, List.forall_mem_cons]
    exact ⟨keepsField_required hid, keepsField_defaulted hlabel,
      keepsField_defaulted htype, keepsField_defaulted hrequired,
      keepsField_optional hoptions, by simp⟩

instance : KeepsRecord ApiAuth .auth where
  kept source v c h := by
    refine kept_of_read h fun f hread => ?_
    simp only [Record.readFields, Reading.seq_eq_accepted_iff, Reading.map_eq_accepted_iff] at hread
    obtain ⟨_, ⟨kind, hkind, rfl⟩, credentials, hcredentials, rfl⟩ := hread
    simp only [Record.keys, List.forall_mem_cons]
    exact ⟨keepsField_required hkind, keepsField_defaulted hcredentials, by simp⟩

instance : KeepsRecord ErrorHandler .errorHandler where
  kept source v c h := by
    refine kept_of_read h fun f hread => ?_
    simp only [Record.readFields, Reading.seq_eq_accepted_iff, Reading.map_eq_accepted_iff] at hread
    obtain ⟨_, ⟨_, ⟨_, ⟨_, ⟨strategy, hstrategy, rfl⟩, retryCount, hretryCount, rfl⟩, retryDelay,
      hretryDelay, rfl⟩, fallbackNodeId, hfallbackNodeId, rfl⟩, fallbackMessage, hfallbackMessage,
      rfl⟩ := hread
    simp only [Record.keys, List.forall_mem_cons]
    exact ⟨keepsField_required hstrategy, keepsField_optional hretryCount,
      keepsField_optional hretryDelay, keepsField_optional hfallbackNodeId,
      keepsField_optional hfallbackMessage, by simp⟩

instance : KeepsRecord MessageConfig (.config .message) where
  kept source v c h := by
    refine kept_of_read h fun f hread => ?_
    simp only [Record.readFields, Reading.seq_eq_accepted_iff, Reading.map_eq_accepted_iff] at hread
    obtain ⟨_, ⟨_, ⟨_, ⟨content, hcontent, rfl⟩, contentKind, hcontentKind, rfl⟩, richContent,
      hrichContent, rfl⟩, buttons, hbuttons, rfl⟩ := hread
    simp only [Record.keys, List.forall_mem_cons]
    exact ⟨keepsField_defaulted hcontent, keepsField_defaulted hcontentKind,
      keepsField_optional hrichContent, keepsField_optional hbuttons, by simp⟩

instance : KeepsRecord QuestionConfig (.config .question) where
  kept source v c h := by
    refine kept_of_read h fun f hread => ?_
    simp only [Record.readFields, Reading.seq_eq_accepted_iff, Reading.map_eq_accepted_iff] at hread
    obtain ⟨_, ⟨_, ⟨_, ⟨_, ⟨_, ⟨question, hquestion, rfl⟩, expectedInput, hexpectedInput, rfl⟩,
      saveToVariable, hsaveToVariable, rfl⟩, validationRegex, hvalidationRegex, rfl⟩,
      validationMessage, hvalidationMessage, rfl⟩, maxRetries, hmaxRetries, rfl⟩ := hread
    simp only [Record.keys, List.forall_mem_cons]
    exact ⟨keepsField_defaulted hquestion, keepsField_defaulted hexpectedInput,
      keepsField_required hsaveToVariable, keepsField_optional hvalidationRegex,
      keepsField_optional hvalidationMessage, keepsField_defaulted hmaxRetries, by simp⟩

instance : KeepsRecord ConditionConfig (.config .condition) where
  kept source v c h := by
    refine kept_of_read h fun f hread => ?_
    simp only [Record.readFields, Reading.seq_eq_accepted_iff, Reading.map_eq_accepted_iff] at hread
    obtain ⟨_, ⟨expression, hexpression, rfl⟩, evaluator, hevaluator, rfl⟩ := hread
    simp only [Record.keys, List.forall_mem_cons]
    exact ⟨keepsField_defaulted hexpression, keepsField_defaulted hevaluator, by simp⟩

instance : KeepsRecord ApiConfig (.config .api) where
  kept source v c h := by
    refine kept_of_read h fun f hread => ?_
    simp only [Record.readFields, Reading.seq_eq_accepted_iff, Reading.map_eq_accepted_iff] at hread
    obtain ⟨_, ⟨_, ⟨_, ⟨_, ⟨_, ⟨_, ⟨_, ⟨_, ⟨method, hmethod, rfl⟩, url, hurl, rfl⟩, headers,
      hheaders, rfl⟩, body, hbody, rfl⟩, auth, hauth, rfl⟩, timeout, htimeout, rfl⟩, retries,
      hretries, rfl⟩, saveResponseTo, hsaveResponseTo, rfl⟩, errorOnHttpError, herrorOnHttpError,
      rfl⟩ := hread
    simp only [Record.keys, List.forall_mem_cons]
    exact ⟨keepsField_defaulted hmethod, keepsField_defaulted hurl,
      keepsField_defaulted hheaders, keepsField_optional hbody, keepsField_optional hauth,
      keepsField_defaulted htimeout, keepsField_defaulted hretries,
      keepsField_required hsaveResponseTo, keepsField_defaulted herrorOnHttpError, by simp⟩

instance : KeepsRecord DelayConfig (.config .delay) where
  kept source v c h := by
    refine kept_of_read h fun f hread => ?_
    simp only [Record.readFields, Reading.seq_eq_accepted_iff, Reading.map_eq_accepted_iff] at hread
    obtain ⟨_, ⟨duration, hduration, rfl⟩, unit, hunit, rfl⟩ := hread
    simp only [Record.keys, List.forall_mem_cons]
    exact ⟨keepsField_defaulted hduration, keepsField_defaulted hunit, by simp⟩

instance : KeepsRecord ActionConfig (.config .action) where
  kept source v c h := by
    refine kept_of_read h fun f hread => ?_
    simp only [Record.readFields, Reading.seq_eq_accepted_iff, Reading.map_eq_accepted_iff] at hread
    obtain ⟨_, ⟨kind, hkind, rfl⟩, parameters, hparameters, rfl⟩ := hread
    simp only [Record.keys, List.forall_mem_cons]
    exact ⟨keepsField_defaulted hkind, keepsField_defaulted hparameters, by simp⟩

instance : KeepsRecord FormConfig (.config .form) where
  kept source v c h := by
    refine kept_of_read h fun f hread => ?_
    simp only [Record.readFields, Reading.seq_eq_accepted_iff, Reading.map_eq_accepted_iff] at hread
    obtain ⟨_, ⟨_, ⟨fields, hfields, rfl⟩, submitButtonText, hsubmitButtonText, rfl⟩,
      saveToVariable, hsaveToVariable, rfl⟩ := hread
    simp only [Record.keys, List.forall_mem_cons]
    exact ⟨keepsField_defaulted hfields, keepsField_defaulted hsubmitButtonText,
      keepsField_required hsaveToVariable, by simp⟩

instance : KeepsRecord VariableConfig (.config .assignment) where
  kept source v c h := by
    refine kept_of_read h fun f hread => ?_
    simp only [Record.readFields, Reading.seq_eq_accepted_iff, Reading.map_eq_accepted_iff] at hread
    obtain ⟨_, ⟨_, ⟨variableName, hvariableName, rfl⟩, operation, hoperation, rfl⟩, value, hvalue,
      rfl⟩ := hread
    simp only [Record.keys, List.forall_mem_cons]
    exact ⟨keepsField_defaulted hvariableName, keepsField_defaulted hoperation,
      keepsField_defaulted hvalue, by simp⟩

instance : KeepsRecord TagConfig (.config .tag) where
  kept source v c h := by
    refine kept_of_read h fun f hread => ?_
    simp only [Record.readFields, Reading.seq_eq_accepted_iff, Reading.map_eq_accepted_iff] at hread
    obtain ⟨_, ⟨tagNames, htagNames, rfl⟩, operation, hoperation, rfl⟩ := hread
    simp only [Record.keys, List.forall_mem_cons]
    exact ⟨keepsField_defaulted htagNames, keepsField_defaulted hoperation, by simp⟩

instance : KeepsRecord SegmentConfig (.config .segment) where
  kept source v c h := by
    refine kept_of_read h fun f hread => ?_
    simp only [Record.readFields, Reading.seq_eq_accepted_iff, Reading.map_eq_accepted_iff] at hread
    obtain ⟨_, ⟨segmentId, hsegmentId, rfl⟩, operation, hoperation, rfl⟩ := hread
    simp only [Record.keys, List.forall_mem_cons]
    exact ⟨keepsField_defaulted hsegmentId, keepsField_defaulted hoperation, by simp⟩

instance : KeepsRecord TransferAgentConfig (.config .transferAgent) where
  kept source v c h := by
    refine kept_of_read h fun f hread => ?_
    simp only [Record.readFields, Reading.seq_eq_accepted_iff, Reading.map_eq_accepted_iff] at hread
    obtain ⟨_, ⟨_, ⟨_, ⟨_, ⟨assignment, hassignment, rfl⟩, agentId, hagentId, rfl⟩, teamId, hteamId,
      rfl⟩, message, hmessage, rfl⟩, endFlow, hendFlow, rfl⟩ := hread
    simp only [Record.keys, List.forall_mem_cons]
    exact ⟨keepsField_defaulted hassignment, keepsField_optional hagentId,
      keepsField_optional hteamId, keepsField_optional hmessage,
      keepsField_defaulted hendFlow, by simp⟩

instance : KeepsRecord EndConfig (.config .finish) where
  kept source v c h := by
    refine kept_of_read h fun f hread => ?_
    simp only [Record.readFields, Reading.seq_eq_accepted_iff, Reading.map_eq_accepted_iff] at hread
    obtain ⟨_, ⟨reason, hreason, rfl⟩, message, hmessage, rfl⟩ := hread
    simp only [Record.keys, List.forall_mem_cons]
    exact ⟨keepsField_defaulted hreason, keepsField_optional hmessage, by simp⟩

instance : KeepsRecord StartConfig (.config .start) where
  kept source v c h := by
    change Kept _ _ (Json.record false [])
    refine kept_of_read h fun f hread => ?_
    simp [Record.keys]

/-- The data of a node that is passed through are kept as they are, whatever their keys. -/
theorem kept_passthroughConfig {source : Source} {v : Json} {c : PassthroughConfig}
    (h : Record.read source v = .accepted c) : Kept .free v (Record.write false c) := by
  obtain ⟨entries, rfl, rfl, -⟩ := PassthroughConfig.exists_of_read h
  change Kept .free _ (Json.obj (Table.ofList entries).entries).finite
  constructor
  · intro hv
    rw [Table.entries_ofList (Json.every_obj_iff.1 hv).1]
    exact preserved_finite (.obj entries)
  · intro hv
    refine Json.isWhole_finite (Json.isWhole_obj_iff.2 fun entry hentry => ?_)
    exact Json.isWhole_obj_iff.1 hv entry (Table.mem_of_mem_entries_ofList hentry)

/-- A configuration is kept as one for the type that it is read for. -/
theorem kept_config {source : Source} {type : Option NodeType} {v : Json} {config : Config}
    (h : Config.read source type v = .accepted config) :
    Kept (.ofType type) v (config.write false) := by
  cases type with
  | none =>
    obtain ⟨c, hc, rfl⟩ := Reading.map_eq_accepted_iff.1 h
    exact kept_passthroughConfig hc
  | some type =>
    cases type
    all_goals
      obtain ⟨c, hc, rfl⟩ := Reading.map_eq_accepted_iff.1 h
      exact KeepsRecord.kept source v c hc

instance : KeepsRecord Transition .transition where
  kept source v c h := by
    refine kept_of_read h fun f hread => ?_
    simp only [Record.readFields, Reading.seq_eq_accepted_iff, Reading.map_eq_accepted_iff] at hread
    obtain ⟨_, ⟨_, ⟨_, ⟨_, ⟨id, hid, rfl⟩, target, htarget, rfl⟩, condition, hcondition, rfl⟩,
      priority, hpriority, rfl⟩, label, hlabel, rfl⟩ := hread
    simp only [Record.keys, List.forall_mem_cons]
    exact ⟨keepsField_required hid, keepsField_required htarget,
      keepsField_optional hcondition, keepsField_required hpriority,
      keepsField_optional hlabel, by simp⟩

instance : KeepsRecord Metadata .metadata where
  kept source v c h := by
    refine kept_of_read h fun f hread => ?_
    simp only [Record.readFields, Metadata.ofFields, Metadata.stamped, Reading.seq_eq_accepted_iff,
      Reading.map_eq_accepted_iff] at hread
    obtain ⟨_, ⟨_, ⟨_, ⟨_, ⟨_, ⟨_, ⟨_, ⟨_, ⟨name, hname, rfl⟩, description, hdescription, rfl⟩,
      createdAt, hcreatedAt, rfl⟩, updatedAt, hupdatedAt, rfl⟩, publishedAt, hpublishedAt, rfl⟩,
      createdBy, hcreatedBy, rfl⟩, status, hstatus, rfl⟩, tags, htags, rfl⟩, inboxId, hinboxId,
      rfl⟩ := hread
    simp only [Record.keys, List.forall_mem_cons]
    exact ⟨keepsField_optional hname, keepsField_optional hdescription,
      keepsField_required hcreatedAt, keepsField_required hupdatedAt,
      keepsField_optional hpublishedAt, keepsField_defaulted hcreatedBy,
      keepsField_defaulted hstatus, keepsField_defaulted htags,
      keepsField_optional hinboxId, by simp⟩

/-- A default value is written unless it is null, with which none is given. -/
theorem keepsField_defaultValue {f : Fields} {written : List (Text × Option Json)} {value : Json}
    (h : f.defaulted Keys.defaultValue .null anything = .accepted value)
    (hmem : Keys.defaultValue.mayHold (if value = .null then none else some value.finite) ∈
      written) :
    KeepsField .definition f written Keys.defaultValue := by
  refine ⟨_, hmem, ?_⟩
  rw [Fields.defaulted] at h
  split at h
  · next spelling v hfind =>
    have hread : anything v = .accepted value := Reading.under_eq_accepted_iff.1 h
    by_cases hnull : value = .null
    · rw [if_pos hnull]
      refine ⟨fun _ _ hother => .inl ?_, by simp⟩
      rw [hfind] at hother
      cases hother
      cases hread
      exact hnull
    · rw [if_neg hnull]
      exact keepsValue_of_given hfind hread rfl
  · next hfind =>
    cases h
    exact keepsValue_of_absent hfind (by simp)

instance : KeepsRecord VariableDefinition .definition where
  kept source v c h := by
    refine kept_of_read h fun f hread => ?_
    simp only [Record.readFields, Reading.seq_eq_accepted_iff, Reading.map_eq_accepted_iff] at hread
    obtain ⟨_, ⟨_, ⟨_, ⟨name, hname, rfl⟩, kind, hkind, rfl⟩, value, hvalue, rfl⟩, required,
      hrequired, rfl⟩ := hread
    simp only [Record.keys, List.forall_mem_cons]
    exact ⟨keepsField_required hname, keepsField_defaulted hkind,
      keepsField_defaultValue hvalue (by simp), keepsField_defaulted hrequired, by simp⟩

instance : KeepsRecord FlowConfig .flowConfig where
  kept source v c h := by
    refine kept_of_read h fun f hread => ?_
    simp only [Record.readFields, Reading.seq_eq_accepted_iff, Reading.map_eq_accepted_iff] at hread
    obtain ⟨_, ⟨_, ⟨_, ⟨_, ⟨timeoutSeconds, htimeoutSeconds, rfl⟩, maxIterations, hmaxIterations,
      rfl⟩, errorBehavior, herrorBehavior, rfl⟩, fallbackNodeId, hfallbackNodeId, rfl⟩, definitions,
      hdefinitions, rfl⟩ := hread
    simp only [Record.keys, List.forall_mem_cons]
    exact ⟨keepsField_defaulted htimeoutSeconds, keepsField_defaulted hmaxIterations,
      keepsField_defaulted herrorBehavior, keepsField_optional hfallbackNodeId,
      keepsField_defaulted hdefinitions, by simp⟩

theorem configShape_eq {f : Fields} {type : Option NodeType}
    (h : Node.typeOf f = .accepted type) : RecordKind.configShape f.entries = .ofType type := by
  unfold Node.typeOf at h
  unfold RecordKind.configShape
  cases hlookup : f.entries.lookup ("type" : Text) with
  | none =>
    rw [hlookup] at h
    cases h
    rfl
  | some v =>
    rw [hlookup] at h
    cases v with
    | arr | obj => cases h
    | null | bool | int | float | str =>
      cases h
      rfl

/-- The configuration of a node is kept as the one for the type that is given beside it. -/
instance (source : Source) (f : Fields) :
    Keeps (RecordKind.configShape f.entries) (Node.readConfig source f) (Config.write false) where
  kept v config h := by
    obtain ⟨type, htype, hread⟩ := Node.exists_of_readConfig h
    rw [configShape_eq htype]
    exact kept_config hread

instance : KeepsRecord Node .node where
  kept source v c h := by
    refine kept_of_read h fun f hread => ?_
    simp only [Record.readFields, Reading.seq_eq_accepted_iff, Reading.map_eq_accepted_iff] at hread
    obtain ⟨_, ⟨_, ⟨_, ⟨_, ⟨_, ⟨_, ⟨id, hid, rfl⟩, type, htype, rfl⟩, config, hconfig, rfl⟩,
      transitions, htransitions, rfl⟩, errorHandler, herrorHandler, rfl⟩, timeout, htimeout, rfl⟩,
      retries, hretries, rfl⟩ := hread
    simp only [Record.keys, List.forall_mem_cons]
    exact ⟨keepsField_required hid, keepsField_required htype, keepsField_required hconfig,
      keepsField_defaulted htransitions, keepsField_optional herrorHandler,
      keepsField_optional htimeout, keepsField_optional hretries, by simp⟩

instance : KeepsRecord Flow .flow where
  kept source v c h := by
    refine kept_of_read h fun f hread => ?_
    simp only [Record.readFields, Reading.seq_eq_accepted_iff, Reading.map_eq_accepted_iff] at hread
    obtain ⟨_, ⟨_, ⟨_, ⟨_, ⟨_, ⟨_, ⟨_, ⟨id, hid, rfl⟩, version, hversion, rfl⟩, name, hname, rfl⟩,
      description, hdescription, rfl⟩, metadata, hmetadata, rfl⟩, entryNodeId, hentryNodeId, rfl⟩,
      nodes, hnodes, rfl⟩, config, hconfig, rfl⟩ := hread
    simp only [Record.keys, List.forall_mem_cons]
    exact ⟨keepsField_required hid, keepsField_defaulted hversion,
      keepsField_required hname, keepsField_optional hdescription,
      keepsField_required hmetadata, keepsField_required hentryNodeId,
      keepsField_defaulted hnodes, keepsField_defaulted hconfig, by simp⟩

end ConversationFlow.Executable
