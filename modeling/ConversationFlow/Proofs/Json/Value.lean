import ConversationFlow.Json.Reader
import ConversationFlow.Number.Layout
import ConversationFlow.Proofs.Table

/-!
# Parts of documents

The parts of a document are the document itself and the parts of its items or of the values of its
fields. What holds of a document at every depth is said of all its parts: that its numbers are
finite, that its objects are dictionaries, that its integers are not too long.
-/

namespace ConversationFlow

/-- The number is no infinity, and it is defined. -/
def Binary64.IsFinite : Binary64 → Prop
  | .finite _ _ => True
  | .infinite _ | .undefined => False

instance (x : Binary64) : Decidable x.IsFinite := by
  cases x <;> unfold Binary64.IsFinite <;> infer_instance

namespace Json

theorem first_eq_fallback {values : List Json} {fallback : Json}
    (h : ∀ v ∈ values, v.isTruthy = false) : first values fallback = fallback := by
  have hnone : values.find? isTruthy = none := by
    rw [List.find?_eq_none]
    intro v hv
    rw [h v hv]
    exact Bool.false_ne_true
  rw [first, hnone, Option.getD_none]

/-- Unless the fallback is truthy, the first truthy value is truthy exactly if there is one. -/
theorem isTruthy_first_iff {values : List Json} {fallback : Json}
    (hfallback : fallback.isTruthy = false) :
    (first values fallback).isTruthy = true ↔ ∃ v ∈ values, v.isTruthy = true := by
  constructor
  · intro h
    by_contra hnone
    have hfalse : ∀ v ∈ values, v.isTruthy = false := by simpa using hnone
    rw [first_eq_fallback hfalse, hfallback] at h
    cases h
  · intro h
    cases hfind : values.find? isTruthy with
    | none =>
      obtain ⟨v, hv, htruthy⟩ := h
      exact absurd htruthy (List.find?_eq_none.1 hfind v hv)
    | some v =>
      rw [first, hfind, Option.getD_some]
      exact List.find?_some hfind

@[elab_as_elim, induction_eliminator]
theorem inductionOn {motive : Json → Prop} (null : motive .null) (bool : ∀ b, motive (.bool b))
    (int : ∀ n, motive (.int n)) (float : ∀ x, motive (.float x)) (str : ∀ s, motive (.str s))
    (arr : ∀ items, (∀ item ∈ items, motive item) → motive (.arr items))
    (obj : ∀ fields, (∀ field ∈ fields, motive field.2) → motive (.obj fields)) (v : Json) :
    motive v :=
  @Json.rec motive (fun items => ∀ item ∈ items, motive item)
    (fun fields => ∀ field ∈ fields, motive field.2) (fun field => motive field.2)
    null bool int float str arr obj
    (by simp) (fun _ _ hitem hrest => List.forall_mem_cons.2 ⟨hitem, hrest⟩)
    (by simp) (fun _ _ hfield hrest => List.forall_mem_cons.2 ⟨hfield, hrest⟩)
    (fun _ _ hvalue => hvalue) v

mutual

/-- The parts of a document. -/
def parts : Json → List Json
  | .arr items => .arr items :: partsOfItems items
  | .obj fields => .obj fields :: partsOfFields fields
  | .null => [.null]
  | .bool b => [.bool b]
  | .int n => [.int n]
  | .float x => [.float x]
  | .str s => [.str s]
termination_by structural v => v

def partsOfItems : List Json → List Json
  | [] => []
  | item :: rest => parts item ++ partsOfItems rest
termination_by structural items => items

def partsOfFields : List (Text × Json) → List Json
  | [] => []
  | field :: rest => partsOfField field ++ partsOfFields rest
termination_by structural fields => fields

def partsOfField : Text × Json → List Json
  | (_, value) => parts value
termination_by structural field => field

end

theorem partsOfItems_eq (items : List Json) : partsOfItems items = items.flatMap parts := by
  induction items with
  | nil => rfl
  | cons item rest ih => rw [partsOfItems, ih, List.flatMap_cons]

theorem partsOfFields_eq (fields : List (Text × Json)) :
    partsOfFields fields = fields.flatMap fun field => field.2.parts := by
  induction fields with
  | nil => rfl
  | cons field rest ih => rw [partsOfFields, ih, List.flatMap_cons, partsOfField]

/-- Every part of the document has a property. -/
def Every (P : Json → Prop) (v : Json) : Prop :=
  ∀ part ∈ v.parts, P part

instance (P : Json → Prop) [DecidablePred P] (v : Json) : Decidable (v.Every P) := by
  unfold Every
  infer_instance

section Every

variable {P : Json → Prop}

@[simp]
theorem every_null_iff : Every P .null ↔ P .null := by
  simp [Every, parts]

@[simp]
theorem every_bool_iff {b : Bool} : Every P (.bool b) ↔ P (.bool b) := by
  simp [Every, parts]

@[simp]
theorem every_int_iff {n : Int} : Every P (.int n) ↔ P (.int n) := by
  simp [Every, parts]

@[simp]
theorem every_float_iff {x : Binary64} : Every P (.float x) ↔ P (.float x) := by
  simp [Every, parts]

@[simp]
theorem every_str_iff {s : Text} : Every P (.str s) ↔ P (.str s) := by
  simp [Every, parts]

theorem every_arr_iff {items : List Json} :
    Every P (.arr items) ↔ P (.arr items) ∧ ∀ item ∈ items, item.Every P := by
  rw [Every, parts, List.forall_mem_cons, partsOfItems_eq]
  refine and_congr_right fun _ => ?_
  simp only [List.mem_flatMap, Every]
  exact ⟨fun h item hitem part hpart => h part ⟨item, hitem, hpart⟩,
    fun h part ⟨item, hitem, hpart⟩ => h item hitem part hpart⟩

theorem every_obj_iff {fields : List (Text × Json)} :
    Every P (.obj fields) ↔ P (.obj fields) ∧ ∀ field ∈ fields, field.2.Every P := by
  rw [Every, parts, List.forall_mem_cons, partsOfFields_eq]
  refine and_congr_right fun _ => ?_
  simp only [List.mem_flatMap, Every]
  exact ⟨fun h field hfield part hpart => h part ⟨field, hfield, hpart⟩,
    fun h part ⟨field, hfield, hpart⟩ => h field hfield part hpart⟩

end Every

def NumberIsFinite : Json → Prop
  | .float x => x.IsFinite
  | _ => True

def KeysAreDistinct : Json → Prop
  | .obj fields => (fields.map Prod.fst).Nodup
  | _ => True

/-- An integer has no more characters than are read. -/
def IntegerFits (limit : Nat) : Json → Prop
  | .int n => (integerText n).length ≤ limit
  | _ => True

instance : DecidablePred NumberIsFinite := fun v => by
  cases v <;> unfold NumberIsFinite <;> infer_instance

instance : DecidablePred KeysAreDistinct := fun v => by
  cases v <;> unfold KeysAreDistinct <;> infer_instance

/-- No surrogate stands in the text that the document is, or in a key that it has. -/
def TextsAreWhole : Json → Prop
  | .str s => s.isWhole
  | .obj fields => ∀ field ∈ fields, field.1.isWhole
  | _ => True

instance : DecidablePred TextsAreWhole := fun v => by
  cases v <;> unfold TextsAreWhole <;> infer_instance

instance (limit : Nat) : DecidablePred (IntegerFits limit) := fun v => by
  cases v <;> unfold IntegerFits <;> infer_instance

/-- All numbers in the document are finite. -/
def IsFinite (v : Json) : Prop :=
  v.Every NumberIsFinite

/-- All objects in the document are dictionaries. -/
def HasDistinctKeys (v : Json) : Prop :=
  v.Every KeysAreDistinct

instance (v : Json) : Decidable v.HasDistinctKeys := by
  unfold HasDistinctKeys
  infer_instance

/-- No surrogate stands in any text or key of the document. -/
def IsWhole (v : Json) : Prop :=
  v.Every TextsAreWhole

instance (v : Json) : Decidable v.IsWhole := by
  unfold IsWhole
  infer_instance

theorem firstBrokenItem?_eq_none_iff {items : List Json} :
    firstBrokenItem? items = none ↔ ∀ item ∈ items, item.firstBroken? = none := by
  induction items with
  | nil => simp [firstBrokenItem?]
  | cons item rest ih => rw [firstBrokenItem?, Option.or_eq_none_iff, ih, List.forall_mem_cons]

theorem firstBrokenField?_eq_none_iff {fields : List (Text × Json)} :
    firstBrokenField? fields = none ↔
      ∀ field ∈ fields, field.1.isWhole ∧ field.2.firstBroken? = none := by
  induction fields with
  | nil => simp [firstBrokenField?]
  | cons field rest ih =>
    have hfield : brokenIn? field = none ↔ field.1.isWhole ∧ field.2.firstBroken? = none := by
      obtain ⟨key, value⟩ := field
      rw [brokenIn?]
      split <;> simp_all
    rw [firstBrokenField?, Option.or_eq_none_iff, ih, hfield, List.forall_mem_cons]

/-- A document has a text exactly if no surrogate stands in it. -/
theorem firstBroken?_eq_none_iff {v : Json} : v.firstBroken? = none ↔ v.IsWhole := by
  induction v with
  | null | bool | int | float => simp [firstBroken?, IsWhole, TextsAreWhole]
  | str s => simp [firstBroken?, IsWhole, TextsAreWhole]
  | arr items ih =>
    rw [firstBroken?, firstBrokenItem?_eq_none_iff, IsWhole, every_arr_iff]
    simp only [TextsAreWhole, true_and]
    exact forall₂_congr ih
  | obj fields ih =>
    rw [firstBroken?, firstBrokenField?_eq_none_iff, IsWhole, every_obj_iff, TextsAreWhole]
    simp only [forall_and]
    exact and_congr_right fun _ => forall₂_congr ih

@[simp]
theorem isWhole_str_iff {s : Text} : (str s).IsWhole ↔ s.isWhole = true :=
  every_str_iff

theorem isWhole_int (n : Int) : (int n).IsWhole :=
  every_int_iff.2 trivial

theorem isWhole_bool (b : Bool) : (bool b).IsWhole :=
  every_bool_iff.2 trivial

theorem isWhole_arr_iff {items : List Json} :
    (Json.arr items).IsWhole ↔ ∀ item ∈ items, item.IsWhole := by
  simp only [IsWhole, every_arr_iff, TextsAreWhole, true_and]

theorem isWhole_obj_iff {fields : List (Text × Json)} :
    (Json.obj fields).IsWhole ↔ ∀ field ∈ fields, field.1.isWhole ∧ field.2.IsWhole := by
  simp only [IsWhole, every_obj_iff, TextsAreWhole, forall_and]

/-- A document that its text stands for: its numbers are finite and its objects are dictionaries. -/
def IsPlain (v : Json) : Prop :=
  v.IsFinite ∧ v.HasDistinctKeys

instance (v : Json) : Decidable v.IsPlain := by
  unfold IsPlain IsFinite
  infer_instance

theorem isPlain_arr_iff {items : List Json} :
    (Json.arr items).IsPlain ↔ ∀ item ∈ items, item.IsPlain := by
  simp only [IsPlain, IsFinite, HasDistinctKeys, every_arr_iff, NumberIsFinite, KeysAreDistinct,
    true_and, forall_and]

theorem isPlain_obj_iff {fields : List (Text × Json)} :
    (Json.obj fields).IsPlain ↔
      (fields.map Prod.fst).Nodup ∧ ∀ field ∈ fields, field.2.IsPlain := by
  simp only [IsPlain, IsFinite, HasDistinctKeys, every_obj_iff, NumberIsFinite, KeysAreDistinct,
    true_and, forall_and]
  exact and_left_comm

theorem mapFloatsItems_eq (f : Binary64 → Json) (items : List Json) :
    mapFloatsItems f items = items.map (mapFloats f) := by
  induction items with
  | nil => rfl
  | cons item rest ih => rw [mapFloatsItems, ih, List.map_cons]

theorem mapFloatsFields_eq (f : Binary64 → Json) (fields : List (Text × Json)) :
    mapFloatsFields f fields = fields.map fun field => (field.1, field.2.mapFloats f) := by
  induction fields with
  | nil => rfl
  | cons field rest ih => rw [mapFloatsFields, ih, List.map_cons, mapFloatsField]

theorem map_id_of_forall {α : Type} {f : α → α} {items : List α} (h : ∀ a ∈ items, f a = a) :
    items.map f = items :=
  (List.map_congr_left h).trans (List.map_id' items)

/-- A finite document is written as it is. -/
theorem finite_of_isFinite {v : Json} (h : v.IsFinite) : v.finite = v := by
  induction v with
  | null | bool | int | str => rfl
  | float x =>
    rw [IsFinite, every_float_iff] at h
    cases x with
    | finite negative m => rfl
    | infinite | undefined => exact h.elim
  | arr items ih =>
    have hitems := (every_arr_iff.1 h).2
    rw [finite, mapFloats, mapFloatsItems_eq]
    congr 1
    exact map_id_of_forall fun item hitem => ih item hitem (hitems item hitem)
  | obj fields ih =>
    have hfields := (every_obj_iff.1 h).2
    rw [finite, mapFloats, mapFloatsFields_eq]
    congr 1
    exact map_id_of_forall fun field hfield =>
      Prod.ext rfl (ih field hfield (hfields field hfield))

theorem finiteFields_of_isFinite {fields : List (Text × Json)}
    (h : ∀ field ∈ fields, field.2.IsFinite) : finiteFields fields = fields := by
  rw [finiteFields, mapFloatsFields_eq]
  exact map_id_of_forall fun field hfield => Prod.ext rfl (finite_of_isFinite (h field hfield))

theorem isFinite_finite (v : Json) : v.finite.IsFinite := by
  induction v with
  | null | bool | int | str => simp [IsFinite, finite, mapFloats, NumberIsFinite]
  | float x =>
    cases x with
    | finite negative m => exact every_float_iff.2 trivial
    | infinite | undefined => exact every_null_iff.2 trivial
  | arr items ih =>
    rw [finite, mapFloats, mapFloatsItems_eq, IsFinite, every_arr_iff, List.forall_mem_map]
    exact ⟨trivial, ih⟩
  | obj fields ih =>
    rw [finite, mapFloats, mapFloatsFields_eq, IsFinite, every_obj_iff, List.forall_mem_map]
    exact ⟨trivial, ih⟩

theorem isWhole_finite {v : Json} (h : v.IsWhole) : v.finite.IsWhole := by
  induction v with
  | null | bool | int | str => exact h
  | float x => cases x <;> simp [IsWhole, finite, mapFloats, ofFinite, TextsAreWhole]
  | arr items ih =>
    rw [finite, mapFloats, mapFloatsItems_eq, isWhole_arr_iff, List.forall_mem_map]
    exact fun item hitem => ih item hitem (isWhole_arr_iff.1 h item hitem)
  | obj fields ih =>
    rw [finite, mapFloats, mapFloatsFields_eq, isWhole_obj_iff, List.forall_mem_map]
    intro field hfield
    obtain ⟨hkey, hvalue⟩ := isWhole_obj_iff.1 h field hfield
    exact ⟨hkey, ih field hfield hvalue⟩

theorem hasDistinctKeys_finite {v : Json} (h : v.HasDistinctKeys) : v.finite.HasDistinctKeys := by
  induction v with
  | null | bool | int | str => exact h
  | float x => cases x <;> simp [HasDistinctKeys, finite, mapFloats, ofFinite, KeysAreDistinct]
  | arr items ih =>
    have hitems := (every_arr_iff.1 h).2
    rw [finite, mapFloats, mapFloatsItems_eq, HasDistinctKeys, every_arr_iff, List.forall_mem_map]
    exact ⟨trivial, fun item hitem => ih item hitem (hitems item hitem)⟩
  | obj fields ih =>
    obtain ⟨hdistinct, hvalues⟩ := every_obj_iff.1 h
    rw [finite, mapFloats, mapFloatsFields_eq, HasDistinctKeys, every_obj_iff, List.forall_mem_map]
    refine ⟨?_, fun field hfield => ih field hfield (hvalues field hfield)⟩
    rw [KeysAreDistinct, List.map_map]
    exact hdistinct

theorem isPlain_finite {v : Json} (h : v.HasDistinctKeys) : v.finite.IsPlain :=
  ⟨isFinite_finite v, hasDistinctKeys_finite h⟩

theorem finite_finite (v : Json) : v.finite.finite = v.finite :=
  finite_of_isFinite (isFinite_finite v)

/-- Null is written for null, and for a number that is not finite. -/
theorem finite_eq_null_iff {v : Json} :
    v.finite = .null ↔ v = .null ∨ ∃ x, v = .float x ∧ ¬x.IsFinite := by
  cases v with
  | float x => cases x <;> simp [finite, mapFloats, ofFinite, Binary64.IsFinite]
  | null | bool | int | str | arr | obj => simp [finite, mapFloats]

theorem entries_map_finite (t : Table Json) :
    (t.map finite).entries = finiteFields t.entries := by
  rw [finiteFields, mapFloatsFields_eq]
  rfl

theorem finiteFields_map_finite (t : Table Json) :
    finiteFields (t.map finite).entries = finiteFields t.entries := by
  rw [entries_map_finite]
  refine finiteFields_of_isFinite ?_
  rw [finiteFields, mapFloatsFields_eq, List.forall_mem_map]
  exact fun field _ => isFinite_finite field.2

mutual

/-- The greatest number of containers within each other; an empty one does not count. -/
def nesting : Json → Nat
  | .arr [] => 0
  | .arr (item :: rest) => max (nesting item) (nestingOfItems rest) + 1
  | .obj [] => 0
  | .obj (field :: rest) => max (nestingOfField field) (nestingOfFields rest) + 1
  | .null | .bool _ | .int _ | .float _ | .str _ => 0
termination_by structural v => v

def nestingOfItems : List Json → Nat
  | [] => 0
  | item :: rest => max (nesting item) (nestingOfItems rest)
termination_by structural items => items

def nestingOfFields : List (Text × Json) → Nat
  | [] => 0
  | field :: rest => max (nestingOfField field) (nestingOfFields rest)
termination_by structural fields => fields

def nestingOfField : Text × Json → Nat
  | (_, value) => nesting value
termination_by structural field => field

end

/-- A reader takes so many containers within each other, and integers of such a length. -/
structure FitsIn (limits : Limits) (v : Json) : Prop where
  nesting : v.nesting ≤ limits.nesting
  integers : v.Every (IntegerFits limits.integerLength)

instance (limits : Limits) (v : Json) : Decidable (v.FitsIn limits) :=
  decidable_of_iff (v.nesting ≤ limits.nesting ∧ v.Every (IntegerFits limits.integerLength))
    ⟨fun ⟨hnesting, hintegers⟩ => ⟨hnesting, hintegers⟩,
      fun h => ⟨h.nesting, h.integers⟩⟩

theorem exists_integerFits (v : Json) : ∃ least, ∀ limit, least ≤ limit → IntegerFits limit v := by
  cases v with
  | int n => exact ⟨(integerText n).length, fun _ hlimit => hlimit⟩
  | null | bool | float | str | arr | obj => exact ⟨0, fun _ _ => trivial⟩

theorem exists_forall_integerFits (vs : List Json) :
    ∃ least, ∀ limit, least ≤ limit → ∀ v ∈ vs, IntegerFits limit v := by
  induction vs with
  | nil => exact ⟨0, by simp⟩
  | cons v rest ih =>
    obtain ⟨first, hfirst⟩ := exists_integerFits v
    obtain ⟨least, hrest⟩ := ih
    refine ⟨max first least, fun limit hlimit => ?_⟩
    rw [Nat.max_le] at hlimit
    exact List.forall_mem_cons.2 ⟨hfirst limit hlimit.1, hrest limit hlimit.2⟩

/-- Any document fits in limits that are wide enough. -/
theorem exists_fitsIn (v : Json) :
    ∃ least, ∀ limits : Limits, least ≤ limits.nesting → least ≤ limits.integerLength →
      v.FitsIn limits := by
  obtain ⟨least, hleast⟩ := exists_forall_integerFits v.parts
  refine ⟨max v.nesting least, fun limits hnesting hlength => ?_⟩
  rw [Nat.max_le] at hnesting hlength
  exact ⟨hnesting.1, hleast _ hlength.2⟩

theorem nesting_le_nestingOfItems {items : List Json} {item : Json} (h : item ∈ items) :
    item.nesting ≤ nestingOfItems items := by
  induction items with
  | nil => simp at h
  | cons other rest ih =>
    rw [nestingOfItems]
    rcases List.mem_cons.1 h with rfl | hrest
    · exact Nat.le_max_left _ _
    · exact Nat.le_trans (ih hrest) (Nat.le_max_right _ _)

theorem nesting_le_nestingOfFields {fields : List (Text × Json)} {field : Text × Json}
    (h : field ∈ fields) : field.2.nesting ≤ nestingOfFields fields := by
  induction fields with
  | nil => simp at h
  | cons other rest ih =>
    rw [nestingOfFields, nestingOfField]
    rcases List.mem_cons.1 h with rfl | hrest
    · exact Nat.le_max_left _ _
    · exact Nat.le_trans (ih hrest) (Nat.le_max_right _ _)

theorem nesting_lt_of_mem_items {items : List Json} {item : Json} (h : item ∈ items) :
    item.nesting < (Json.arr items).nesting := by
  cases items with
  | nil => simp at h
  | cons other rest => exact Nat.lt_succ_of_le (nesting_le_nestingOfItems h)

theorem nesting_lt_of_mem_fields {fields : List (Text × Json)} {field : Text × Json}
    (h : field ∈ fields) : field.2.nesting < (Json.obj fields).nesting := by
  cases fields with
  | nil => simp at h
  | cons other rest => exact Nat.lt_succ_of_le (nesting_le_nestingOfFields h)

end Json

end ConversationFlow
