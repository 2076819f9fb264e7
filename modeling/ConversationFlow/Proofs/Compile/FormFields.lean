import ConversationFlow.Proofs.Compile.Acceptance
import ConversationFlow.Proofs.Compile.Values

/-!
# Ids of form fields

An author may give a field an id, or a name that serves as one. The id of a field with neither is
generated from its position among all entries, those that are passed over included. Generated ids
differ from one another, but nothing keeps an author from giving a text that is also generated.
-/

namespace ConversationFlow.Compile

open Schema Executable

variable {provider : Provider} {journal : Journal}

/-- The entries that are objects, with their positions among all entries. -/
def placedFrom (position : Nat) (entries : List Json) : List (List (Text × Json) × Nat) :=
  (entries.zipIdx position).filterMap fun
    | (.obj entry, position) => some (entry, position)
    | _ => none

/-- What an author gave as the id of a field: an id, or else a name. -/
def givenId? (entry : List (Text × Json)) : Option Json :=
  [Json.field entry "id", Json.field entry "name"].find? Json.isTruthy

theorem nodup_placedFrom (position : Nat) (entries : List Json) :
    ((placedFrom position entries).map Prod.snd).Nodup := by
  have hpositions : (entries.zipIdx position).Pairwise (·.2 ≠ ·.2) := by
    rw [← List.pairwise_map, List.zipIdx_map_snd]
    exact List.nodup_range'
  rw [List.nodup_iff_pairwise_ne, List.pairwise_map, placedFrom, List.pairwise_filterMap]
  refine hpositions.imp ?_
  rintro ⟨v, p⟩ ⟨w, q⟩ hpq placed hplaced other hother
  cases v <;> cases hplaced
  cases w <;> cases hother
  exact hpq

theorem placed_ne {position i j : Nat} {entries : List Json} {entry other : List (Text × Json)}
    {p q : Nat} (hij : i ≠ j) (hi : (placedFrom position entries)[i]? = some (entry, p))
    (hj : (placedFrom position entries)[j]? = some (other, q)) : p ≠ q := by
  rintro rfl
  obtain ⟨hlt, -⟩ := List.getElem?_eq_some_iff.1 hi
  have hsame : ((placedFrom position entries).map Prod.snd)[i]? =
      ((placedFrom position entries).map Prod.snd)[j]? := by
    rw [List.getElem?_map, hi, List.getElem?_map, hj, Option.map_some, Option.map_some]
  exact hij ((List.getElem?_inj (by rwa [List.length_map]) (nodup_placedFrom _ _)).1 hsame)

theorem generatedFieldId_inj {p q : Nat} : generatedFieldId p = generatedFieldId q ↔ p = q := by
  constructor
  · intro h
    have hdigits : Nat.toDigits 10 p = Nat.toDigits 10 q := by
      rw [← Nat.toList_repr, ← Nat.toList_repr]
      exact congrArg String.toList (Text.whole.inj ((Text.whole_append_right_inj "field_").1 h))
    calc p
      _ = Nat.ofDigitChars 10 (Nat.toDigits 10 p) 0 := Nat.ofDigitChars_ten_toDigits.symm
      _ = Nat.ofDigitChars 10 (Nat.toDigits 10 q) 0 := by rw [hdigits]
      _ = q := Nat.ofDigitChars_ten_toDigits
  · rintro rfl
    rfl

theorem id_of_formFieldOf {position : Nat} {entry : List (Text × Json)} {field : FormField}
    (h : formFieldOf position entry = .accepted field) :
    (givenId? entry).getD (.str (generatedFieldId position)) = .str field.id := by
  obtain ⟨_, h₃, _, -, rfl⟩ := Reading.seq_eq_accepted_iff.1 h
  obtain ⟨_, h₂, _, -, rfl⟩ := Reading.seq_eq_accepted_iff.1 h₃
  obtain ⟨_, h₁, _, -, rfl⟩ := Reading.seq_eq_accepted_iff.1 h₂
  obtain ⟨id, hid, rfl⟩ := Reading.map_eq_accepted_iff.1 h₁
  exact Key.eq_str_of_reads hid

/-- Every entry that is an object comes to a field, with the position it has. -/
theorem forall₂_formFieldsFrom {position : Nat} {entries : List Json} {fields : List FormField}
    (h : ((formFieldsFrom position entries).runFrom provider journal).1 = .ok fields) :
    List.Forall₂ (fun placed field => formFieldOf placed.2 placed.1 = .accepted field)
      (placedFrom position entries) fields := by
  induction entries generalizing position journal fields with
  | nil =>
    obtain rfl : [] = fields := by simpa [formFieldsFrom] using h
    exact .nil
  | cons v rest ih =>
    cases v with
    | obj entry =>
      obtain ⟨field, middle, hfield, hrest⟩ := Job.exists_of_bind_eq_ok h
      obtain ⟨more, later, hmore, hpure⟩ := Job.exists_of_bind_eq_ok hrest
      obtain rfl : field :: more = fields := by simpa using hpure
      exact .cons (eq_accepted_of_build (by rw [hfield])) (ih (by rw [hmore]))
    | null | bool | int | float | str | arr => exact ih h

/-- A field has the id that is generated at another position exactly if that text was given. -/
theorem id_eq_generatedFieldId_iff {p q : Nat} (hpq : p ≠ q) {entry : List (Text × Json)}
    {field : FormField} (h : formFieldOf q entry = .accepted field) :
    field.id = generatedFieldId p ↔ givenId? entry = some (.str (generatedFieldId p)) := by
  have hid := id_of_formFieldOf h
  cases hgiven : givenId? entry with
  | none =>
    rw [hgiven, Option.getD_none] at hid
    rw [← Json.str.inj hid, generatedFieldId_inj]
    simp [hpq.symm]
  | some given =>
    rw [hgiven, Option.getD_some] at hid
    rw [hid, Option.some.injEq, Json.str.injEq]

/-- There is one field for each entry that is an object. The id of a field that was given none is
generated from its position, and another field has the same id exactly if its author gave that
text. -/
theorem formFields_ids {v : Json} {fields : List FormField}
    (h : ((compileFormFields v).runFrom provider journal).1 = .ok fields) :
    List.Forall₂ (fun placed field => formFieldOf placed.2 placed.1 = .accepted field)
      (placedFrom 0 v.items) fields ∧
    ∀ (i j : Nat) (entry other : List (Text × Json)) (p q : Nat) (field another : FormField),
      i ≠ j → (placedFrom 0 v.items)[i]? = some (entry, p) → fields[i]? = some field →
      (placedFrom 0 v.items)[j]? = some (other, q) → fields[j]? = some another →
      givenId? entry = none →
        field.id = generatedFieldId p ∧
          (another.id = field.id ↔ givenId? other = some (.str field.id)) := by
  have hfields := forall₂_formFieldsFrom h
  refine ⟨hfields, ?_⟩
  intro i j entry other p q field another hij hi hfield hj hanother hnone
  obtain ⟨_, hfield', hread⟩ := exists_getElem?_of_forall₂ hfields hi
  obtain rfl := Option.some.inj (hfield'.symm.trans hfield)
  obtain ⟨_, hanother', hread'⟩ := exists_getElem?_of_forall₂ hfields hj
  obtain rfl := Option.some.inj (hanother'.symm.trans hanother)
  have hid := id_of_formFieldOf hread
  rw [hnone, Option.getD_none] at hid
  rw [← Json.str.inj hid]
  exact ⟨rfl, id_eq_generatedFieldId_iff (placed_ne hij hi hj) hread'⟩

/-- Entries of which some are passed over, and of which one gives a text that is generated too. -/
def mixedEntries : Json :=
  .arr [.str "email", .obj [("name", .str "email")], .null, .obj [("label", .str "Age")],
    .obj [("id", .str "field_3")], .obj []]

theorem formFields_ids_mixedEntries :
    ∃ fields age chosen last,
      ((compileFormFields mixedEntries).runFrom sampleProvider .empty).1 = .ok fields ∧
      fields[1]? = some age ∧ fields[2]? = some chosen ∧ fields[3]? = some last ∧
      last.id = generatedFieldId 5 ∧ age.id ≠ last.id ∧ chosen.id = age.id := by
  have hrun : ((compileFormFields mixedEntries).runFrom sampleProvider .empty).1 =
      .ok [⟨"email", "email", "text", false, none⟩, ⟨"field_3", "Age", "text", false, none⟩,
        ⟨"field_3", "", "text", false, none⟩, ⟨"field_5", "", "text", false, none⟩] := by
    rfl
  obtain ⟨-, hids⟩ := formFields_ids hrun
  obtain ⟨hlast, hage⟩ := hids 3 1 [] [("label", .str "Age")] 5 3 _ _ (by decide) rfl rfl rfl rfl rfl
  obtain ⟨-, hchosen⟩ := hids 1 2 [("label", .str "Age")] [("id", .str "field_3")] 3 4 _ _
    (by decide) rfl rfl rfl rfl rfl
  refine ⟨_, _, _, _, hrun, rfl, rfl, rfl, hlast, ?_, hchosen.2 rfl⟩
  intro hsame
  cases hage.1 hsame

theorem not_all_generated_ids_fresh :
    ¬ ∀ (v : Json) (fields : List FormField),
      ((compileFormFields v).runFrom sampleProvider .empty).1 = .ok fields →
      ∀ (i j : Nat) (entry : List (Text × Json)) (p : Nat) (field another : FormField),
        i ≠ j → (placedFrom 0 v.items)[i]? = some (entry, p) → fields[i]? = some field →
        fields[j]? = some another → givenId? entry = none → field.id ≠ another.id := by
  intro h
  exact h (.arr [.obj [("id", .str "field_1")], .obj []])
    [⟨"field_1", "", "text", false, none⟩, ⟨"field_1", "", "text", false, none⟩] rfl
    1 0 [] 1 _ _ (by decide) rfl rfl rfl rfl rfl

end ConversationFlow.Compile
