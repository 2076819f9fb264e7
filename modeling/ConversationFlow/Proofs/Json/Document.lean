import ConversationFlow.Proofs.Json.Number
import ConversationFlow.Proofs.Json.Quoted
import ConversationFlow.Proofs.Json.Value
import Mathlib.Data.List.DropRight

/-!
# Documents that are written and read

A document that its text stands for is read back from the text, within the limits of the reader. The
proof goes by induction on the document, and says of each text what is left after it: every value is
followed by a comma, by a new line or by nothing.
-/

namespace ConversationFlow.Json

open Text

variable {limits : Limits} {fuel depth indent : Nat} {s rest : List Symbol}

theorem skipSpace_cons {c : Char} (hc : isSpace (.char c) = false) (rest : List Symbol) :
    skipSpace (.char c :: rest) = .char c :: rest :=
  List.dropWhile_cons_of_neg (by simp [hc])

theorem skipSpace_spaces (count : Nat) (s : List Symbol) :
    skipSpace ((List.replicate count ' ').map .char ++ s) = skipSpace s := by
  induction count with
  | zero => rfl
  | succ count ih =>
    rw [List.replicate_succ, List.map_cons, List.cons_append, ← ih]
    exact List.dropWhile_cons_of_pos (by decide)

theorem skipSpace_newLine (indent : Nat) (s : List Symbol) :
    skipSpace ((newLine indent).map .char ++ s) = skipSpace s := by
  rw [newLine, List.map_cons, List.cons_append, ← skipSpace_spaces (2 * indent) s]
  exact List.dropWhile_cons_of_pos (by decide)

theorem skipSpace_skipSpace (s : List Symbol) : skipSpace (skipSpace s) = skipSpace s :=
  List.dropWhile_idempotent isSpace s

theorem document_skipSpace (s : List Symbol) :
    document limits fuel depth (skipSpace s) = document limits fuel depth s := by
  cases fuel with
  | zero => rw [document, document]
  | succ fuel => rw [document, document, skipSpace_skipSpace]

/-- What is read as a plain value starts with no space and no bracket. -/
theorem exists_of_scalar {r : Json × List Symbol} (h : scalar limits s = .ok r) :
    ∃ c more, s = .char c :: more ∧ isSpace (.char c) = false ∧ c ≠ '[' ∧ c ≠ '{' ∧ c ≠ ']' := by
  match s with
  | [] => cases h
  | .stray b :: more => cases h
  | .char c :: more =>
    have hnot (d : Char) (hd : scalar limits (.char d :: more) = refuse .expectedValue
        (.char d :: more)) : c ≠ d := by
      rintro rfl
      rw [hd] at h
      cases h
    have hspace : isSpace (.char c) = false := by
      simp [isSpace, hnot ' ' rfl, hnot '\t' rfl, hnot '\n' rfl, hnot '\r' rfl]
    exact ⟨c, more, rfl, hspace, hnot '[' rfl, hnot '{' rfl, hnot ']' rfl⟩

theorem document_of_scalar {r : Json × List Symbol} (h : scalar limits s = .ok r) :
    document limits (fuel + 1) depth s = .ok r := by
  obtain ⟨c, more, rfl, hspace, hlist, hobject, -⟩ := exists_of_scalar h
  rw [document, skipSpace_cons hspace]
  simpa [hlist, hobject] using h

/-- A document starts with no closing bracket. -/
theorem exists_of_document {r : Json × List Symbol} (h : document limits fuel depth s = .ok r) :
    ∃ c more, skipSpace s = .char c :: more ∧ c ≠ ']' := by
  cases fuel with
  | zero => rw [document] at h; cases h
  | succ fuel =>
    rw [document] at h
    split at h
    · next more hmore => exact ⟨_, more, hmore, by decide⟩
    · next more hmore => exact ⟨_, more, hmore, by decide⟩
    · obtain ⟨c, more, hmore, -, -, -, hclosing⟩ := exists_of_scalar h
      exact ⟨c, more, hmore, hclosing⟩

theorem endsValue_prettyItems (indent : Nat) (items : List Json) (rest : List Symbol) :
    EndsValue ((prettyItems indent items).map .char ++ rest) := by
  cases items with
  | nil => exact .newLine _
  | cons item items => exact .comma _

theorem endsValue_prettyFields (indent : Nat) (fields : List (Text × Json)) (rest : List Symbol) :
    EndsValue ((prettyFields indent fields).map .char ++ rest) := by
  cases fields with
  | nil => exact .newLine _
  | cons field fields => exact .comma _

/-- A document is read back from its text at an indentation, with so many containers left, and
enough fuel for the text and what follows it. -/
def ReadsBack (limits : Limits) (depth indent : Nat) (v : Json) : Prop :=
  ∀ fuel rest, EndsValue rest → 2 * ((pretty indent v).length + rest.length) + 1 ≤ fuel →
    document limits fuel depth ((pretty indent v).map .char ++ rest) = .ok (v, rest)

/-- After an item the reader of a list goes on with what follows the item. -/
theorem elements_item {item : Json} {tail : List Symbol}
    (hread : ReadsBack limits depth indent item) (htail : EndsValue tail)
    (hfuel : 2 * ((pretty indent item).length + tail.length) + 1 ≤ fuel) :
    elements limits (fuel + 1) (depth + 1)
        (skipSpace ((pretty indent item).map .char ++ tail)) =
      match skipSpace tail with
      | [] => refuse .endInList []
      | .char ']' :: left => .ok ([item], left)
      | .char ',' :: more =>
        match skipSpace more with
        | [] => refuse .endInValue []
        | .char ']' :: left => refuse .trailingComma (.char ']' :: left)
        | next => mapRead (item :: ·) (elements limits fuel (depth + 1) next)
      | other => refuse .expectedListEnd other := by
  rw [elements, document_skipSpace, hread fuel tail htail hfuel]
  rfl

theorem elements_pretty {item : Json} {items : List Json}
    (hread : ∀ v ∈ item :: items, ReadsBack limits depth (indent + 1) v)
    (hfuel : 2 * ((pretty (indent + 1) item ++ prettyItems indent items).length + rest.length) + 2 ≤
      fuel) :
    elements limits fuel (depth + 1)
      (skipSpace ((pretty (indent + 1) item ++ prettyItems indent items).map .char ++ rest)) =
      .ok (item :: items, rest) := by
  induction items generalizing item fuel with
  | nil =>
    obtain ⟨fuel, rfl⟩ : ∃ more, fuel = more + 1 := ⟨fuel - 1, by omega⟩
    have henough : 2 * ((pretty (indent + 1) item).length +
        ((prettyItems indent []).map Symbol.char ++ rest).length) + 1 ≤ fuel := by
      simp only [List.length_append, List.length_map] at hfuel ⊢
      omega
    have hitem := elements_item (hread item (by simp)) (endsValue_prettyItems indent [] rest)
      henough
    rw [List.map_append, List.append_assoc, hitem, prettyItems, List.map_append, List.append_assoc,
      skipSpace_newLine, List.map_singleton, List.singleton_append, skipSpace_cons (by decide)]
    rfl
  | cons next items ih =>
    obtain ⟨fuel, rfl⟩ : ∃ more, fuel = more + 1 := ⟨fuel - 1, by omega⟩
    have henough : 2 * ((pretty (indent + 1) item).length +
        ((prettyItems indent (next :: items)).map Symbol.char ++ rest).length) + 1 ≤ fuel := by
      simp only [List.length_append, List.length_map] at hfuel ⊢
      omega
    have hitem := elements_item (hread item (by simp))
      (endsValue_prettyItems indent (next :: items) rest) henough
    have hleft : 2 * ((pretty (indent + 1) next ++ prettyItems indent items).length +
        rest.length) + 2 ≤ fuel := by
      simp only [prettyItems, List.length_append, List.length_cons] at hfuel ⊢
      omega
    have hmore := ih (fun v hv => hread v (List.mem_cons_of_mem _ hv)) hleft
    -- The next item starts with no closing bracket, since it is read.
    have hnext := hread next (by simp) _ _ (endsValue_prettyItems indent items rest) (Nat.le_refl _)
    obtain ⟨c, more, hhead, hclosing⟩ := exists_of_document hnext
    rw [List.map_append, List.append_assoc] at hmore ⊢
    rw [hitem, prettyItems, List.map_cons, List.cons_append, skipSpace_cons (by decide)]
    simp only [List.map_append, List.append_assoc, skipSpace_newLine]
    rw [hhead] at hmore ⊢
    simp [hclosing, hmore, mapRead, step]

/-- The text of a field starts with a quote, after which its key is read. -/
theorem exists_prettyField (limits : Limits) (indent : Nat) {field : Text × Json}
    (hkey : field.1.isWhole) (rest : List Symbol) :
    ∃ more, (prettyField indent field).map .char ++ rest = .char '"' :: more ∧
      quoted limits.surrogates more =
        .ok (field.1, .char ':' :: .char ' ' :: ((pretty indent field.2).map .char ++ rest)) := by
  obtain ⟨key, value⟩ := field
  obtain ⟨more, htext, hquoted⟩ := exists_quote hkey
    (.char ':' :: .char ' ' :: ((pretty indent value).map .char ++ rest))
  refine ⟨more, ?_, hquoted⟩
  rw [← htext, prettyField]
  simp

theorem length_prettyField (indent : Nat) (field : Text × Json) :
    (pretty indent field.2).length + 3 ≤ (prettyField indent field).length := by
  obtain ⟨key, value⟩ := field
  simp only [prettyField, quote, List.length_append, List.length_cons, List.length_nil]
  omega

theorem exists_skipSpace_value {r : Json × List Symbol} (h : document limits fuel depth s = .ok r) :
    ∃ c more, skipSpace (.char ' ' :: s) = .char c :: more ∧
      document limits fuel depth (.char c :: more) = .ok r := by
  have hspace : skipSpace (.char ' ' :: s) = skipSpace s := List.dropWhile_cons_of_pos (by decide)
  obtain ⟨c, more, hhead, -⟩ := exists_of_document h
  refine ⟨c, more, hspace.trans hhead, ?_⟩
  rw [← hhead, document_skipSpace, h]

/-- After a field the reader of an object goes on with what follows the field. -/
theorem members_field {field : Text × Json} {tail : List Symbol} (hwhole : field.1.isWhole)
    (hread : ReadsBack limits depth indent field.2) (htail : EndsValue tail)
    (htext : (prettyField indent field).map .char ++ tail = .char '"' :: s)
    (hfuel : 2 * ((prettyField indent field).length + tail.length) ≤ fuel) :
    members limits (fuel + 1) (depth + 1) s =
      match skipSpace tail with
      | [] => refuse .endInObject []
      | .char '}' :: left => .ok ([field], left)
      | .char ',' :: more =>
        match skipSpace more with
        | [] => refuse .endInValue []
        | .char '"' :: next => mapRead (field :: ·) (members limits fuel (depth + 1) next)
        | .char '}' :: left => refuse .trailingComma (.char '}' :: left)
        | other => refuse .keyNotString other
      | other => refuse .expectedObjectEnd other := by
  obtain ⟨key, value⟩ := field
  have hlength := length_prettyField indent (key, value)
  obtain ⟨afterQuote, hquote, hkey⟩ := exists_prettyField limits indent hwhole tail
  rw [hquote, List.cons_eq_cons] at htext
  have hvalue := hread fuel tail htail (by omega)
  obtain ⟨c, more, hhead, hvalue⟩ := exists_skipSpace_value hvalue
  have hmembers := members.eq_2 limits (depth + 1) afterQuote fuel
  simp only [hkey, step, skipSpace_cons (show isSpace (.char ':') = false by decide), hhead, hvalue]
    at hmembers
  rw [← htext.2]
  exact hmembers

theorem members_pretty {field : Text × Json} {fields : List (Text × Json)}
    (hwhole : ∀ f ∈ field :: fields, f.1.isWhole)
    (hread : ∀ f ∈ field :: fields, ReadsBack limits depth (indent + 1) f.2)
    (htext : (prettyField (indent + 1) field ++ prettyFields indent fields).map .char ++ rest =
      .char '"' :: s)
    (hfuel : 2 * ((prettyField (indent + 1) field ++ prettyFields indent fields).length +
      rest.length) + 2 ≤ fuel) :
    members limits fuel (depth + 1) s = .ok (field :: fields, rest) := by
  induction fields generalizing field fuel s with
  | nil =>
    obtain ⟨fuel, rfl⟩ : ∃ more, fuel = more + 1 := ⟨fuel - 1, by omega⟩
    have henough : 2 * ((prettyField (indent + 1) field).length +
        ((prettyFields indent []).map Symbol.char ++ rest).length) ≤ fuel := by
      simp only [List.length_append, List.length_map] at hfuel ⊢
      omega
    rw [List.map_append, List.append_assoc] at htext
    have hfield := members_field (hwhole field (by simp)) (hread field (by simp))
      (endsValue_prettyFields indent [] rest) htext henough
    rw [hfield, prettyFields, List.map_append, List.append_assoc, skipSpace_newLine,
      List.map_singleton, List.singleton_append, skipSpace_cons (by decide)]
    rfl
  | cons next fields ih =>
    obtain ⟨fuel, rfl⟩ : ∃ more, fuel = more + 1 := ⟨fuel - 1, by omega⟩
    have henough : 2 * ((prettyField (indent + 1) field).length +
        ((prettyFields indent (next :: fields)).map Symbol.char ++ rest).length) ≤ fuel := by
      simp only [List.length_append, List.length_map] at hfuel ⊢
      omega
    have hleft : 2 * ((prettyField (indent + 1) next ++ prettyFields indent fields).length +
        rest.length) + 2 ≤ fuel := by
      simp only [prettyFields, List.length_append, List.length_cons] at hfuel ⊢
      omega
    obtain ⟨afterQuote, hquote, -⟩ := exists_prettyField limits (indent + 1) (hwhole next (by simp))
      ((prettyFields indent fields).map .char ++ rest)
    have hmore := ih (fun f hf => hwhole f (List.mem_cons_of_mem _ hf))
      (fun f hf => hread f (List.mem_cons_of_mem _ hf))
      (by rw [List.map_append, List.append_assoc, hquote]) hleft
    rw [List.map_append, List.append_assoc] at htext
    have hfield := members_field (hwhole field (by simp)) (hread field (by simp))
      (endsValue_prettyFields indent (next :: fields) rest) htext henough
    rw [hfield, prettyFields, List.map_cons, List.cons_append, skipSpace_cons (by decide)]
    simp only [List.map_append, List.append_assoc, skipSpace_newLine, hquote,
      skipSpace_cons (show isSpace (.char '"') = false by decide), hmore, mapRead, step]

theorem object_eq (fields : List (Text × Json)) :
    object fields = .obj (Table.ofList fields).entries := by
  rw [object, Table.ofList, Table.entries_foldl_put_eq]
  rfl

theorem readsBack_of_scalar {v : Json} (h : ∀ rest, EndsValue rest →
    scalar limits ((pretty indent v).map .char ++ rest) = .ok (v, rest)) :
    ReadsBack limits depth indent v := by
  intro fuel rest hrest hfuel
  obtain ⟨fuel, rfl⟩ : ∃ more, fuel = more + 1 := ⟨fuel - 1, by omega⟩
  exact document_of_scalar (h rest hrest)

theorem readsBack_arr {item : Json} {items : List Json}
    (hread : ∀ v ∈ item :: items, ReadsBack limits depth (indent + 1) v) :
    ReadsBack limits (depth + 1) indent (.arr (item :: items)) := by
  intro fuel rest hrest hfuel
  obtain ⟨fuel, rfl⟩ : ∃ more, fuel = more + 1 := ⟨fuel - 1, by omega⟩
  have hlength : (pretty indent (.arr (item :: items))).length =
      1 + ((newLine (indent + 1)).length +
        (pretty (indent + 1) item ++ prettyItems indent items).length) := by
    rw [pretty, List.append_assoc, List.length_cons, List.length_append]
    omega
  have hitems := elements_pretty hread
    (show 2 * ((pretty (indent + 1) item ++ prettyItems indent items).length + rest.length) + 2 ≤
      fuel by omega)
  have hitem := hread item (by simp) _ _ (endsValue_prettyItems indent items rest) (Nat.le_refl _)
  obtain ⟨c, more, hhead, hclosing⟩ := exists_of_document hitem
  rw [List.map_append, List.append_assoc] at hitems
  rw [document, pretty, List.map_cons, List.cons_append, skipSpace_cons (by decide)]
  simp only [List.map_append, List.append_assoc, skipSpace_newLine]
  rw [hhead] at hitems ⊢
  simp [hclosing, hitems, mapRead, step]

theorem readsBack_obj {field : Text × Json} {fields : List (Text × Json)}
    (hdistinct : ((field :: fields).map Prod.fst).Nodup)
    (hwhole : ∀ f ∈ field :: fields, f.1.isWhole)
    (hread : ∀ f ∈ field :: fields, ReadsBack limits depth (indent + 1) f.2) :
    ReadsBack limits (depth + 1) indent (.obj (field :: fields)) := by
  intro fuel rest hrest hfuel
  obtain ⟨fuel, rfl⟩ : ∃ more, fuel = more + 1 := ⟨fuel - 1, by omega⟩
  have hlength : (pretty indent (.obj (field :: fields))).length =
      1 + ((newLine (indent + 1)).length +
        (prettyField (indent + 1) field ++ prettyFields indent fields).length) := by
    rw [pretty, List.append_assoc, List.length_cons, List.length_append]
    omega
  obtain ⟨afterQuote, hquote, -⟩ := exists_prettyField limits (indent + 1)
    (hwhole field (by simp)) ((prettyFields indent fields).map .char ++ rest)
  have hfields := members_pretty hwhole hread
    (by rw [List.map_append, List.append_assoc, hquote])
    (show 2 * ((prettyField (indent + 1) field ++ prettyFields indent fields).length +
      rest.length) + 2 ≤ fuel by omega)
  have hobject : object (field :: fields) = .obj (field :: fields) := by
    rw [object_eq, Table.entries_ofList hdistinct]
  rw [document, pretty, List.map_cons, List.cons_append, skipSpace_cons (by decide)]
  simp only [List.map_append, List.append_assoc, skipSpace_newLine, hquote,
    skipSpace_cons (show isSpace (.char '"') = false by decide), hfields, mapRead, step, hobject]

/-- A document that its text stands for is read back from it, if it has no more containers within
each other and no longer integers than the reader takes. -/
theorem readsBack (hlimit : 17 ≤ limits.integerLength) {v : Json} (hplain : v.IsPlain)
    (hwhole : v.IsWhole) (hintegers : v.Every (IntegerFits limits.integerLength))
    (hdepth : v.nesting ≤ depth) : ReadsBack limits depth indent v := by
  induction v generalizing depth indent with
  | null => exact readsBack_of_scalar fun rest _ => rfl
  | bool b => cases b <;> exact readsBack_of_scalar fun rest _ => rfl
  | int n =>
    rw [every_int_iff] at hintegers
    exact readsBack_of_scalar fun rest hrest => scalar_integerText hrest hintegers
  | float x =>
    have hfinite := hplain.1
    rw [IsFinite, every_float_iff] at hfinite
    cases x with
    | finite negative m =>
      exact readsBack_of_scalar fun rest hrest => scalar_documentFloat hrest hlimit negative m
    | infinite | undefined => exact hfinite.elim
  | str text =>
    exact readsBack_of_scalar fun rest _ => scalar_quote limits (every_str_iff.1 hwhole) rest
  | arr items ih =>
    cases items with
    | nil =>
      intro fuel rest _ hfuel
      obtain ⟨fuel, rfl⟩ : ∃ more, fuel = more + 1 := ⟨fuel - 1, by omega⟩
      rfl
    | cons item items =>
      obtain ⟨depth, rfl⟩ : ∃ less, depth = less + 1 := ⟨depth - 1, by rw [nesting] at hdepth; omega⟩
      refine readsBack_arr fun v hv => ih v hv (isPlain_arr_iff.1 hplain v hv)
        (isWhole_arr_iff.1 hwhole v hv) ((every_arr_iff.1 hintegers).2 v hv) ?_
      have hnesting := nesting_lt_of_mem_items hv
      omega
  | obj fields ih =>
    cases fields with
    | nil =>
      intro fuel rest _ hfuel
      obtain ⟨fuel, rfl⟩ : ∃ more, fuel = more + 1 := ⟨fuel - 1, by omega⟩
      rfl
    | cons field fields =>
      obtain ⟨depth, rfl⟩ : ∃ less, depth = less + 1 := ⟨depth - 1, by rw [nesting] at hdepth; omega⟩
      obtain ⟨hdistinct, hfields⟩ := isPlain_obj_iff.1 hplain
      have htexts := isWhole_obj_iff.1 hwhole
      refine readsBack_obj hdistinct (fun f hf => (htexts f hf).1) fun f hf =>
        ih f hf (hfields f hf) (htexts f hf).2 ((every_obj_iff.1 hintegers).2 f hf) ?_
      have hnesting := nesting_lt_of_mem_fields hf
      omega

theorem read_documentText (hlimit : 17 ≤ limits.integerLength) {v : Json} (hplain : v.IsPlain)
    (hwhole : v.IsWhole) (hfits : v.FitsIn limits) :
    read limits (symbols v.documentText) = .ok v := by
  have htext : symbols v.documentText = (pretty 0 v).map .char := by
    rw [symbols, documentText, String.toList_ofList]
  have hback : ReadsBack limits limits.nesting 0 v :=
    readsBack hlimit hplain hwhole hfits.integers hfits.nesting
  have hdocument := hback (2 * ((pretty 0 v).map Symbol.char).length + 2) [] .nil
    (by rw [List.length_map, List.length_nil]; omega)
  rw [List.append_nil] at hdocument
  rw [htext, read, readWhole, hdocument]
  rfl

/-- A reader with limits that are wide enough reads the text of any plain document. -/
theorem exists_read_documentText {v : Json} (hplain : v.IsPlain) (hwhole : v.IsWhole) :
    ∃ least, ∀ limits : Limits, least ≤ limits.nesting → least ≤ limits.integerLength →
      read limits (symbols v.documentText) = .ok v := by
  obtain ⟨least, hleast⟩ := exists_fitsIn v
  refine ⟨max 17 least, fun limits hnesting hlength => ?_⟩
  rw [Nat.max_le] at hnesting hlength
  exact read_documentText hlength.1 hplain hwhole (hleast limits hnesting.2 hlength.2)

theorem documentText_inj {v w : Json} (hv : v.IsPlain) (hvw : v.IsWhole) (hw : w.IsPlain)
    (hww : w.IsWhole) :
    v.documentText = w.documentText ↔ v = w := by
  refine ⟨fun htext => ?_, congrArg documentText⟩
  obtain ⟨first, hfirst⟩ := exists_read_documentText hv hvw
  obtain ⟨second, hsecond⟩ := exists_read_documentText hw hww
  let limits : Limits := ⟨max first second, max first second, false⟩
  have hleft := hfirst limits (Nat.le_max_left _ _) (Nat.le_max_left _ _)
  have hright := hsecond limits (Nat.le_max_right _ _) (Nat.le_max_right _ _)
  rw [htext, hright] at hleft
  exact (Except.ok.inj hleft).symm

end ConversationFlow.Json
