import ConversationFlow.Proofs.Job
import ConversationFlow.Proofs.Json.Document

/-!
# Keys and texts of documents that were read

The reader puts the fields of an object into a table, so no object that it comes to has a key twice.
No surrogate stands in what it comes to, unless it was told to let them stand.
-/

namespace ConversationFlow.Json

open Text

variable {limits : Limits} {fuel depth : Nat} {s rest : List Symbol} {v : Json}

theorem exists_of_step {α β : Type} {r : Read α} {go : α → List Symbol → Except Fault β} {b : β}
    (h : step r go = .ok b) : ∃ a left, r = .ok (a, left) ∧ go a left = .ok b := by
  cases r with
  | ok pair => exact ⟨pair.1, pair.2, rfl, h⟩
  | error fault => cases h

theorem exists_of_mapRead {α β : Type} {f : α → β} {r : Read α} {b : β}
    (h : mapRead f r = .ok (b, rest)) : ∃ a, r = .ok (a, rest) ∧ f a = b := by
  obtain ⟨a, left, hr, hpair⟩ := exists_of_step h
  cases hpair
  exact ⟨a, hr, rfl⟩

/-- What a document is that was read within limits. -/
structure IsReadable (limits : Limits) (v : Json) : Prop where
  distinct : v.HasDistinctKeys
  whole : limits.surrogates = false → v.IsWhole

def IsNumber : Json → Prop
  | .int _ | .float _ => True
  | _ => False

theorem IsNumber.isReadable (h : v.IsNumber) : IsReadable limits v := by
  cases v with
  | int n => exact ⟨every_int_iff.2 trivial, fun _ => every_int_iff.2 trivial⟩
  | float x => exact ⟨every_float_iff.2 trivial, fun _ => every_float_iff.2 trivial⟩
  | null | bool | str | arr | obj => exact h.elim

theorem isNumber_of_scaled {negative : Bool} {whole places : List Char}
    (h : scaled negative whole places s = .ok (v, rest)) : v.IsNumber := by
  unfold scaled at h
  dsimp only at h
  split at h
  · obtain ⟨power, -, rfl⟩ := exists_of_mapRead h
    trivial
  · obtain ⟨power, -, rfl⟩ := exists_of_mapRead h
    trivial
  · cases h
    trivial

theorem isNumber_of_fraction {negative : Bool} {whole : List Char}
    (h : fraction negative whole s = .ok (v, rest)) : v.IsNumber := by
  unfold fraction at h
  split at h
  · obtain ⟨places, left, -, hscaled⟩ := exists_of_step h
    exact isNumber_of_scaled hscaled
  · exact isNumber_of_scaled h
  · exact isNumber_of_scaled h
  · cases h
    trivial

theorem isNumber_of_unsigned {limit : Nat} {negative : Bool}
    (h : unsigned limit negative s = .ok (v, rest)) : v.IsNumber := by
  unfold unsigned at h
  split at h
  · cases h
  · split at h
    · split at h
      · cases h
      · exact isNumber_of_fraction h
    · exact isNumber_of_fraction h
  · split at h
    · obtain ⟨left, -, hpair⟩ := exists_of_map_eq_ok h
      cases hpair
      trivial
    · cases h
  · split at h
    · cases h
    · next digits left _ _ =>
      dsimp only at h
      generalize digits.length + (if negative then 1 else 0) = length at h
      split at h
      · cases h
      · exact isNumber_of_fraction h

theorem isWhole_of_textFrom {before : List Char} {points : List Point} {text : Text}
    (hpoints : ∀ point ∈ points, ∀ c, point ≠ .surrogate c)
    (h : textFrom before points = .ok text) : text.isWhole := by
  induction points generalizing before text with
  | nil =>
    cases h
    rfl
  | cons point rest ih =>
    rw [List.forall_mem_cons] at hpoints
    cases point with
    | char c =>
      rw [textFrom] at h
      cases hrest : textFrom (c :: before) rest with
      | ok other =>
        rw [hrest] at h
        cases h
        exact ih hpoints.2 hrest
      | error n =>
        rw [hrest] at h
        cases h
    | surrogate c => exact absurd rfl (hpoints.1 c)
    | stray b => cases h

theorem ne_surrogate_of_pairEscape {high n : Nat} {point : Point}
    (h : pairEscape high s = .ok (point, n)) (c : Surrogate) : point ≠ .surrogate c := by
  unfold pairEscape at h
  split at h
  · split at h
    · cases h
    · split at h
      · cases h
        exact nofun
      · cases h
  all_goals cases h

theorem ne_surrogate_of_hexEscape {point : Point} {n : Nat}
    (h : hexEscape false s = .ok (point, n)) (c : Surrogate) : point ≠ .surrogate c := by
  have horLone (code : Nat) (r : Except Fault (Point × Nat)) : orLone false code r = r := by
    cases r <;> rfl
  simp only [hexEscape, horLone] at h
  split at h
  · cases h
  · split at h
    · cases h
    · split at h
      · exact ne_surrogate_of_pairEscape h c
      · cases h
        simp

theorem ne_surrogate_of_escape {point : Point} {n : Nat} (h : escape false s = .ok (point, n))
    (c : Surrogate) : point ≠ .surrogate c := by
  unfold escape at h
  split at h
  · cases h
  iterate 8
    · cases h
      exact nofun
  · obtain ⟨⟨other, count⟩, hhex, heq⟩ := exists_of_map_eq_ok h
    cases heq
    exact ne_surrogate_of_hexEscape hhex c
  · cases h

theorem ne_surrogate_of_content {skip : Nat} {points : List Point}
    (h : content false skip s = .ok (points, rest)) :
    ∀ point ∈ points, ∀ c, point ≠ .surrogate c := by
  induction s generalizing skip points with
  | nil =>
    rw [content] at h
    cases h
  | cons symbol more ih =>
    cases skip with
    | succ skip =>
      rw [content] at h
      exact ih h
    | zero =>
      cases symbol with
      | stray b =>
        rw [content] at h
        obtain ⟨points, hpoints, rfl⟩ := exists_of_mapRead h
        exact List.forall_mem_cons.2 ⟨by simp, ih hpoints⟩
      | char d =>
        rw [content] at h
        split at h
        · cases h
          simp
        · split at h
          · split at h
            · next point n hescape =>
              obtain ⟨points, hpoints, rfl⟩ := exists_of_mapRead h
              exact List.forall_mem_cons.2 ⟨ne_surrogate_of_escape hescape, ih hpoints⟩
            · cases h
          · split at h
            · cases h
            · obtain ⟨points, hpoints, rfl⟩ := exists_of_mapRead h
              exact List.forall_mem_cons.2 ⟨by simp, ih hpoints⟩

theorem isWhole_of_quoted {text : Text} (h : quoted false s = .ok (text, rest)) : text.isWhole := by
  obtain ⟨points, left, hcontent, htext⟩ := exists_of_step h
  split at htext
  · next other hother =>
    cases htext
    exact isWhole_of_textFrom (ne_surrogate_of_content hcontent) hother
  · cases htext

theorem isReadable_of_scalar (h : scalar limits s = .ok (v, rest)) : IsReadable limits v := by
  unfold scalar at h
  split at h
  · cases h
  · obtain ⟨text, htext, rfl⟩ := exists_of_mapRead h
    refine ⟨every_str_iff.2 trivial, fun hnone => every_str_iff.2 ?_⟩
    rw [hnone] at htext
    exact isWhole_of_quoted htext
  iterate 5
    · obtain ⟨left, -, hpair⟩ := exists_of_map_eq_ok h
      cases hpair
      constructor <;> simp [HasDistinctKeys, KeysAreDistinct, IsWhole, TextsAreWhole]
  · exact (isNumber_of_unsigned h).isReadable
  · split at h
    · exact (isNumber_of_unsigned h).isReadable
    · cases h
  · cases h

theorem isReadable_arr {items : List Json} (h : ∀ item ∈ items, IsReadable limits item) :
    IsReadable limits (.arr items) :=
  ⟨every_arr_iff.2 ⟨trivial, fun item hitem => (h item hitem).distinct⟩,
    fun hnone => isWhole_arr_iff.2 fun item hitem => (h item hitem).whole hnone⟩

/-- A field that was read within limits. -/
def FieldIsReadable (limits : Limits) (field : Text × Json) : Prop :=
  (limits.surrogates = false → field.1.isWhole) ∧ IsReadable limits field.2

theorem isReadable_object {fields : List (Text × Json)}
    (h : ∀ field ∈ fields, FieldIsReadable limits field) : IsReadable limits (object fields) := by
  rw [object_eq]
  have hentries : ∀ field ∈ (Table.ofList fields).entries, FieldIsReadable limits field :=
    fun field hfield => h field (Table.mem_of_mem_entries_ofList hfield)
  refine ⟨every_obj_iff.2 ⟨(Table.ofList fields).distinct, fun field hfield =>
    (hentries field hfield).2.distinct⟩, fun hnone => isWhole_obj_iff.2 fun field hfield => ?_⟩
  exact ⟨(hentries field hfield).1 hnone, (hentries field hfield).2.whole hnone⟩

/-- All readers of documents with so much fuel come to readable ones. -/
structure ReadsReadable (limits : Limits) (fuel : Nat) : Prop where
  document : ∀ {depth s v rest}, Json.document limits fuel depth s = .ok (v, rest) →
    IsReadable limits v
  elements : ∀ {depth s items rest}, Json.elements limits fuel depth s = .ok (items, rest) →
    ∀ item ∈ items, IsReadable limits item
  members : ∀ {depth s fields rest}, Json.members limits fuel depth s = .ok (fields, rest) →
    ∀ field ∈ fields, FieldIsReadable limits field

theorem ReadsReadable.document_succ (h : ReadsReadable limits fuel)
    (hread : Json.document limits (fuel + 1) depth s = .ok (v, rest)) : IsReadable limits v := by
  rw [Json.document] at hread
  split at hread
  · split at hread
    · cases hread
    · cases hread
      exact isReadable_arr (by simp)
    · obtain ⟨items, hitems, rfl⟩ := exists_of_mapRead hread
      exact isReadable_arr (h.elements hitems)
  · split at hread
    · cases hread
    · cases hread
      exact isReadable_object (by simp : ∀ field ∈ [], FieldIsReadable limits field)
    · obtain ⟨fields, hfields, rfl⟩ := exists_of_mapRead hread
      exact isReadable_object (h.members hfields)
    · cases hread
  · exact isReadable_of_scalar hread

theorem ReadsReadable.elements_succ {items : List Json} (h : ReadsReadable limits fuel)
    (hread : Json.elements limits (fuel + 1) depth s = .ok (items, rest)) :
    ∀ item ∈ items, IsReadable limits item := by
  cases depth with
  | zero => rw [Json.elements] at hread; cases hread
  | succ depth =>
    rw [Json.elements] at hread
    obtain ⟨item, left, hitem, hrest⟩ := exists_of_step hread
    split at hrest
    · cases hrest
    · cases hrest
      simpa using h.document hitem
    · split at hrest
      · cases hrest
      · cases hrest
      · obtain ⟨more, hmore, rfl⟩ := exists_of_mapRead hrest
        exact List.forall_mem_cons.2 ⟨h.document hitem, h.elements hmore⟩
    · cases hrest

theorem ReadsReadable.members_succ {fields : List (Text × Json)}
    (h : ReadsReadable limits fuel)
    (hread : Json.members limits (fuel + 1) depth s = .ok (fields, rest)) :
    ∀ field ∈ fields, FieldIsReadable limits field := by
  rw [Json.members] at hread
  obtain ⟨key, afterKey, hquoted, hvalue⟩ := exists_of_step hread
  have hkey (hnone : limits.surrogates = false) : key.isWhole := by
    rw [hnone] at hquoted
    exact isWhole_of_quoted hquoted
  split at hvalue
  · cases hvalue
  · split at hvalue
    · cases hvalue
    · cases hvalue
    · obtain ⟨item, left, hitem, hrest⟩ := exists_of_step hvalue
      split at hrest
      · cases hrest
      · cases hrest
        simpa using ⟨hkey, h.document hitem⟩
      · split at hrest
        · cases hrest
        · obtain ⟨more, hmore, rfl⟩ := exists_of_mapRead hrest
          exact List.forall_mem_cons.2 ⟨⟨hkey, h.document hitem⟩, h.members hmore⟩
        · cases hrest
        · cases hrest
      · cases hrest
  · cases hvalue

theorem readsReadable (limits : Limits) (fuel : Nat) : ReadsReadable limits fuel := by
  induction fuel with
  | zero =>
    constructor
    all_goals
      intro depth s result rest h
      simp only [Json.document, Json.elements, Json.members] at h
      cases h
  | succ fuel ih => exact ⟨ih.document_succ, ih.elements_succ, ih.members_succ⟩

theorem isReadable_of_read {text : List Symbol} (h : read limits text = .ok v) :
    IsReadable limits v := by
  unfold read at h
  cases hwhole : readWhole limits text with
  | error fault => rw [hwhole] at h; cases h
  | ok other =>
    rw [hwhole] at h
    cases h
    obtain ⟨other, left, hdocument, hleft⟩ := exists_of_step hwhole
    split at hleft
    · cases hleft
      exact (readsReadable limits _).document hdocument
    · cases hleft

end ConversationFlow.Json
