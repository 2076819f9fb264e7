import ConversationFlow.Compile.Value
import ConversationFlow.Proofs.Json.Value
import Mathlib.Data.List.TakeWhile

/-!
# Conversions that fail

An integer is read from a text unless the text starts with too many digits, and a value is written as
a text unless an integer in it has too many digits or a part of it lies too deep for the host. Every
other conversion comes to a value.
-/

namespace ConversationFlow

open Text

namespace Json

/-- An integer of the document has more digits than are written. -/
def HoldsLongInteger (v : Json) : Prop :=
  ∃ n, .int n ∈ v.parts ∧ digitLimit < (digitsOf n.natAbs).length

/-- A part of a document lies within so many other ones. -/
inductive LiesWithin (part : Json) : Nat → Json → Prop
  | whole : LiesWithin part 0 part
  | item {items : List Json} {item : Json} {around : Nat} (hitem : item ∈ items)
    (h : LiesWithin part around item) : LiesWithin part (around + 1) (.arr items)
  | value {fields : List (Text × Json)} {field : Text × Json} {around : Nat}
    (hfield : field ∈ fields) (h : LiesWithin part around field.2) :
    LiesWithin part (around + 1) (.obj fields)

theorem liesWithin_zero_iff {part v : Json} : LiesWithin part 0 v ↔ part = v := by
  constructor
  · rintro ⟨⟩
    rfl
  · rintro rfl
    exact .whole

theorem mem_parts_iff {part v : Json} : part ∈ v.parts ↔ ∃ around, LiesWithin part around v := by
  induction v with
  | null | bool | int | float | str =>
    rw [parts, List.mem_singleton]
    constructor
    · rintro rfl
      exact ⟨0, .whole⟩
    · rintro ⟨_, ⟨⟩⟩
      rfl
  | arr items ih =>
    rw [parts, partsOfItems_eq, List.mem_cons, List.mem_flatMap]
    constructor
    · rintro (rfl | ⟨item, hitem, hpart⟩)
      · exact ⟨0, .whole⟩
      · obtain ⟨around, h⟩ := (ih item hitem).1 hpart
        exact ⟨around + 1, .item hitem h⟩
    · rintro ⟨_, _ | ⟨hitem, h⟩⟩
      · exact .inl rfl
      · exact .inr ⟨_, hitem, (ih _ hitem).2 ⟨_, h⟩⟩
  | obj fields ih =>
    rw [parts, partsOfFields_eq, List.mem_cons, List.mem_flatMap]
    constructor
    · rintro (rfl | ⟨field, hfield, hpart⟩)
      · exact ⟨0, .whole⟩
      · obtain ⟨around, h⟩ := (ih field hfield).1 hpart
        exact ⟨around + 1, .value hfield h⟩
    · rintro ⟨_, _ | _ | ⟨hfield, h⟩⟩
      · exact .inl rfl
      · exact .inr ⟨_, hfield, (ih _ hfield).2 ⟨_, h⟩⟩

end Json

namespace Text

def IsDigitRun (run : List Char) : Prop :=
  ∀ c ∈ run, (digitValue? c).isSome = true

theorem length_takeDigits_append {run : List Char} (hrun : IsDigitRun run) (rest : List Char) :
    (takeDigits (run ++ rest)).1.length = run.length + (takeDigits rest).1.length := by
  induction run with
  | nil => simp
  | cons c run ih =>
    obtain ⟨hc, hrest⟩ := List.forall_mem_cons.1 hrun
    obtain ⟨d, hd⟩ := Option.isSome_iff_exists.1 hc
    simp only [List.cons_append, takeDigits, hd, List.length_cons, ih hrest]
    omega

theorem exists_digitRun (s : List Char) :
    ∃ run, IsDigitRun run ∧ s = run ++ (takeDigits s).2 ∧
      run.length = (takeDigits s).1.length := by
  induction s with
  | nil => exact ⟨[], by simp [IsDigitRun], rfl, rfl⟩
  | cons c rest ih =>
    cases hc : digitValue? c with
    | none => exact ⟨[], by simp [IsDigitRun], by simp [takeDigits, hc], by simp [takeDigits, hc]⟩
    | some d =>
      obtain ⟨run, hrun, hsplit, hlength⟩ := ih
      refine ⟨c :: run, List.forall_mem_cons.2 ⟨by simp [hc], hrun⟩, ?_, ?_⟩
      · simpa [takeDigits, hc] using hsplit
      · simpa [takeDigits, hc] using hlength

theorem isBlank_of_digitValue? {c : Char} (hc : (digitValue? c).isSome = true) :
    isBlank c = false := by
  have hcodes : ∀ first ∈ digitZeros, ∀ k < 10, isBlank (Char.ofNat (first + k)) = false := by
    decide +kernel
  rw [digitValue?, Option.isSome_map, List.find?_isSome] at hc
  obtain ⟨first, hfirst, hrange⟩ := hc
  rw [Bool.and_eq_true, decide_eq_true_iff, decide_eq_true_iff] at hrange
  have hcode := hcodes first hfirst (c.toNat - first) (by omega)
  rwa [Nat.add_sub_cancel' hrange.1, Char.ofNat_toNat] at hcode

/-- The parts of a text up to the first digits: blanks, and perhaps a sign. -/
structure Leads (blanks sign : List Char) : Prop where
  blanks : ∀ c ∈ blanks, isBlank c = true
  sign : sign = [] ∨ sign = ['+'] ∨ sign = ['-']

/-- A text starts with blanks, perhaps a sign, and more digits than are read. -/
def StartsWithManyDigits (s : List Char) : Prop :=
  ∃ blanks sign run rest, Leads blanks sign ∧ IsDigitRun run ∧ digitLimit < run.length ∧
    s = blanks ++ (sign ++ (run ++ rest))

theorem IsDigitRun.startsWithManyDigits {run : List Char} (hrun : IsDigitRun run)
    (hlong : digitLimit < run.length) : StartsWithManyDigits run :=
  ⟨[], [], run, [], ⟨by simp, .inl rfl⟩, hrun, hlong, by simp⟩

end Text

namespace Compile

theorem dropWhile_blanks {blanks s : List Char} (hblanks : ∀ c ∈ blanks, isBlank c = true)
    (hs : ∀ c ∈ s.head?, isBlank c = false) : (blanks ++ s).dropWhile isBlank = s := by
  rw [List.dropWhile_append_of_pos hblanks]
  cases s with
  | nil => rfl
  | cons c rest => exact List.dropWhile_cons_of_neg (by simpa using hs c rfl)

/-- What a text begins with is read from the digits after its blanks and its sign. -/
theorem leadingInteger_append {blanks sign run : List Char} (hleads : Leads blanks sign)
    (hrun : IsDigitRun run) (hne : run ≠ []) (rest : List Char) :
    leadingInteger (blanks ++ (sign ++ (run ++ rest))) =
      integerOfDigits (sign = ['-']) (takeDigits (run ++ rest)).1 := by
  obtain ⟨c, run, rfl⟩ := List.exists_cons_of_ne_nil hne
  have hc : (digitValue? c).isSome = true := hrun c List.mem_cons_self
  have hminus : c ≠ '-' := by
    rintro rfl
    exact absurd hc (by decide)
  have hplus : c ≠ '+' := by
    rintro rfl
    exact absurd hc (by decide)
  have hdrop : (blanks ++ (sign ++ (c :: run ++ rest))).dropWhile isBlank =
      sign ++ (c :: run ++ rest) := by
    refine dropWhile_blanks hleads.blanks fun d hd => ?_
    rcases hleads.sign with rfl | rfl | rfl
    · obtain rfl : c = d := by simpa using hd
      exact isBlank_of_digitValue? hc
    · obtain rfl : '+' = d := by simpa using hd
      decide
    · obtain rfl : '-' = d := by simpa using hd
      decide
  rw [leadingInteger, hdrop]
  rcases hleads.sign with rfl | rfl | rfl
  · simp [hminus, hplus]
  · simp
  · simp

/-- The digits that an integer is read from stand after blanks and perhaps a sign. -/
theorem exists_leads (s : List Char) :
    ∃ blanks sign rest, Leads blanks sign ∧ s = blanks ++ (sign ++ rest) ∧
      leadingInteger s = integerOfDigits (sign = ['-']) (takeDigits rest).1 := by
  have hblanks : ∀ c ∈ s.takeWhile isBlank, isBlank c = true := fun c hc => List.mem_takeWhile_imp hc
  have hsplit : s.takeWhile isBlank ++ s.dropWhile isBlank = s := List.takeWhile_append_dropWhile
  rw [leadingInteger]
  split
  · next rest hrest =>
    exact ⟨_, ['-'], rest, ⟨hblanks, by simp⟩, hsplit.symm.trans (by rw [hrest]; rfl), by simp⟩
  · next rest hrest =>
    exact ⟨_, ['+'], rest, ⟨hblanks, by simp⟩, hsplit.symm.trans (by rw [hrest]; rfl), by simp⟩
  · exact ⟨_, [], _, ⟨hblanks, by simp⟩, hsplit.symm, by simp⟩

theorem integerOfDigits_eq_error_iff {negative : Bool} {digits : List Nat} :
    (∃ obstacle, integerOfDigits negative digits = .error obstacle) ↔ digitLimit < digits.length := by
  rw [integerOfDigits]
  split
  · next h => exact iff_of_true ⟨_, rfl⟩ h
  · next h => exact iff_of_false (by simp) h

theorem leadingInteger_eq_error_iff {s : List Char} :
    (∃ obstacle, leadingInteger s = .error obstacle) ↔ StartsWithManyDigits s := by
  constructor
  · intro herror
    obtain ⟨blanks, sign, rest, hleads, rfl, hread⟩ := exists_leads s
    obtain ⟨run, hrun, hrest, hlength⟩ := exists_digitRun rest
    rw [hread, integerOfDigits_eq_error_iff, ← hlength] at herror
    exact ⟨blanks, sign, run, _, hleads, hrun, herror, by rw [← hrest]⟩
  · rintro ⟨blanks, sign, run, rest, hleads, hrun, hlong, rfl⟩
    have hne : run ≠ [] := List.ne_nil_of_length_pos (Nat.zero_lt_of_lt hlong)
    rw [leadingInteger_append hleads hrun hne, integerOfDigits_eq_error_iff,
      length_takeDigits_append hrun]
    omega

/-- Lists of one list each, so many around the innermost one. -/
def nestedLists : Nat → Json
  | 0 => .arr []
  | depth + 1 => .arr [nestedLists depth]

theorem liesWithin_nestedLists_iff {part : Json} {around depth : Nat} :
    Json.LiesWithin part around (nestedLists depth) ↔
      around ≤ depth ∧ part = nestedLists (depth - around) := by
  induction depth generalizing part around with
  | zero =>
    constructor
    · rintro (_ | ⟨hitem, -⟩)
      · exact ⟨Nat.le_refl 0, rfl⟩
      · cases hitem
    · rintro ⟨haround, rfl⟩
      obtain rfl := Nat.le_zero.1 haround
      exact .whole
  | succ depth ih =>
    constructor
    · rintro (_ | ⟨hitem, h⟩)
      · exact ⟨Nat.zero_le _, rfl⟩
      · obtain rfl := List.mem_singleton.1 hitem
        obtain ⟨haround, rfl⟩ := ih.1 h
        exact ⟨Nat.succ_le_succ haround, by rw [Nat.add_sub_add_right]⟩
    · rintro ⟨haround, rfl⟩
      cases around with
      | zero => exact .whole
      | succ around =>
        rw [Nat.add_sub_add_right]
        exact .item List.mem_cons_self (ih.2 ⟨Nat.le_of_succ_le_succ haround, rfl⟩)

theorem takesRoom_nestedLists (form : Form) (depth : Nat) :
    takesRoom form (nestedLists depth) = true := by
  cases depth <;> rfl

section Writing

variable [Host] {form : Form} {around : Nat} {v : Json}

/-- A value hinders the writing of what holds it: it lies within too many other ones, or it is an integer
of too many digits. -/
def Hinders (form : Form) (around : Nat) (v : Json) : Prop :=
  (takesRoom form v = true ∧ Host.room form < around) ∨
    ∃ n, v = .int n ∧ digitLimit < (digitsOf n.natAbs).length

theorem hinders_iff_of_ne_int (hv : ∀ n, v ≠ .int n) :
    Hinders form around v ↔ takesRoom form v = true ∧ Host.room form < around := by
  rw [Hinders, or_iff_left]
  rintro ⟨n, heq, -⟩
  exact hv n heq

theorem isSome_depthObstacle?_iff :
    (depthObstacle? form around v).isSome = true ↔
      takesRoom form v = true ∧ Host.room form < around := by
  rw [depthObstacle?]
  split
  · next h => simpa using h
  · next h => simpa using h

theorem isSome_obstacleOfItems?_iff {items : List Json} :
    (obstacleOfItems? form around items).isSome = true ↔
      ∃ item ∈ items, (obstacle? form around item).isSome = true := by
  induction items with
  | nil => simp [obstacleOfItems?]
  | cons item rest ih => simp [obstacleOfItems?, Option.isSome_or, ih]

theorem isSome_obstacleOfFields?_iff {fields : List (Text × Json)} :
    (obstacleOfFields? form around fields).isSome = true ↔
      ∃ field ∈ fields, (obstacle? form around field.2).isSome = true := by
  induction fields with
  | nil => simp [obstacleOfFields?]
  | cons field rest ih =>
    obtain ⟨key, value⟩ := field
    rw [obstacleOfFields?, Option.isSome_or, Bool.or_eq_true, ih, List.exists_mem_cons_iff,
      obstacleOfField?]

theorem exists_hinders_iff_of_leaf
    (hv : ∀ part more, Json.LiesWithin part more v → more = 0) :
    (∃ part more, Json.LiesWithin part more v ∧ Hinders form (around + more) part) ↔
      Hinders form around v := by
  constructor
  · rintro ⟨part, more, hpart, h⟩
    obtain rfl := hv part more hpart
    rwa [Json.liesWithin_zero_iff.1 hpart] at h
  · exact fun h => ⟨v, 0, .whole, h⟩

/-- There is an obstacle to writing a value exactly if one of its parts hinders it. -/
theorem isSome_obstacle?_iff :
    (obstacle? form around v).isSome = true ↔
      ∃ part more, Json.LiesWithin part more v ∧ Hinders form (around + more) part := by
  induction v generalizing around with
  | null | bool | float | str =>
    rw [exists_hinders_iff_of_leaf (by rintro _ _ ⟨⟩; rfl), hinders_iff_of_ne_int (by simp), obstacle?,
      isSome_depthObstacle?_iff]
  | int n =>
    rw [exists_hinders_iff_of_leaf (by rintro _ _ ⟨⟩; rfl), obstacle?, Option.isSome_or, Bool.or_eq_true,
      isSome_depthObstacle?_iff]
    simp [Hinders, exceedsDigits]
  | arr items ih =>
    rw [obstacle?, Option.isSome_or, Bool.or_eq_true, isSome_depthObstacle?_iff,
      isSome_obstacleOfItems?_iff]
    constructor
    · rintro (hdeep | ⟨item, hitem, hobstacle⟩)
      · exact ⟨_, 0, .whole, .inl hdeep⟩
      · obtain ⟨part, more, hpart, h⟩ := (ih item hitem).1 hobstacle
        rw [Nat.add_assoc, Nat.add_comm 1] at h
        exact ⟨part, more + 1, .item hitem hpart, h⟩
    · rintro ⟨part, _, _ | ⟨hitem, hpart⟩, h⟩
      · exact .inl ((hinders_iff_of_ne_int (by simp)).1 h)
      · rw [Nat.add_comm _ 1, ← Nat.add_assoc] at h
        exact .inr ⟨_, hitem, (ih _ hitem).2 ⟨part, _, hpart, h⟩⟩
  | obj fields ih =>
    rw [obstacle?, Option.isSome_or, Bool.or_eq_true, isSome_depthObstacle?_iff,
      isSome_obstacleOfFields?_iff]
    constructor
    · rintro (hdeep | ⟨field, hfield, hobstacle⟩)
      · exact ⟨_, 0, .whole, .inl hdeep⟩
      · obtain ⟨part, more, hpart, h⟩ := (ih field hfield).1 hobstacle
        rw [Nat.add_assoc, Nat.add_comm 1] at h
        exact ⟨part, more + 1, .value hfield hpart, h⟩
    · rintro ⟨part, _, _ | _ | ⟨hfield, hpart⟩, h⟩
      · exact .inl ((hinders_iff_of_ne_int (by simp)).1 h)
      · rw [Nat.add_comm _ 1, ← Nat.add_assoc] at h
        exact .inr ⟨_, hfield, (ih _ hfield).2 ⟨part, _, hpart, h⟩⟩

/-- A part of a value lies within more other ones than the host has room for. -/
def LiesTooDeep (form : Form) (v : Json) : Prop :=
  ∃ part around, Json.LiesWithin part around v ∧ takesRoom form part = true ∧
    Host.room form < around

/-- A value cannot be written in a form. -/
def IsObstructed (form : Form) (v : Json) : Prop :=
  v.HoldsLongInteger ∨ LiesTooDeep form v

theorem exists_obstacle?_iff :
    (∃ obstacle, obstacle? form 0 v = some obstacle) ↔ IsObstructed form v := by
  rw [← Option.isSome_iff_exists, isSome_obstacle?_iff, IsObstructed, or_comm]
  constructor
  · rintro ⟨part, around, hpart, ⟨hroom, hdeep⟩ | ⟨n, rfl, hlong⟩⟩
    · exact .inl ⟨part, around, hpart, hroom, by rwa [Nat.zero_add] at hdeep⟩
    · exact .inr ⟨n, Json.mem_parts_iff.2 ⟨around, hpart⟩, hlong⟩
  · rintro (⟨part, around, hpart, hroom, hdeep⟩ | ⟨n, hn, hlong⟩)
    · exact ⟨part, around, hpart, .inl ⟨hroom, by rwa [Nat.zero_add]⟩⟩
    · obtain ⟨around, hpart⟩ := Json.mem_parts_iff.1 hn
      exact ⟨_, around, hpart, .inr ⟨n, rfl, hlong⟩⟩

theorem writeText_eq_error_iff :
    (∃ obstacle, writeText v = .error obstacle) ↔ IsObstructed .document v := by
  rw [← exists_obstacle?_iff, writeText]
  cases obstacle? .document 0 v <;> simp

/-- A text is no integer if it starts with too many digits, and a list or an object if it cannot be
written plainly. -/
theorem parseInt_eq_error_iff :
    (∃ obstacle, parseInt v = .error obstacle) ↔
      (∃ s, v = .str s ∧ StartsWithManyDigits s.start.toList) ∨
        (∀ n, v ≠ .int n) ∧ IsObstructed .plain v := by
  rw [← exists_obstacle?_iff]
  cases v with
  | null | bool | int | float => simp [parseInt, obstacle?, depthObstacle?]
  | str s => simp [parseInt, leadingInteger_eq_error_iff, obstacle?, depthObstacle?]
  | arr items =>
    rw [parseInt]
    cases obstacle? .plain 0 (.arr items) <;> simp
    all_goals simp
  | obj fields =>
    rw [parseInt]
    cases obstacle? .plain 0 (.obj fields) <;> simp
    all_goals simp

/-- Lists within each other are written exactly as long as the host has room for them. -/
theorem isObstructed_nestedLists_iff {depth : Nat} :
    IsObstructed form (nestedLists depth) ↔ Host.room form < depth := by
  constructor
  · rintro (⟨n, hn, -⟩ | ⟨part, around, hpart, -, hdeep⟩)
    · obtain ⟨around, hpart⟩ := Json.mem_parts_iff.1 hn
      have hlist := takesRoom_nestedLists .document (depth - around)
      rw [← (liesWithin_nestedLists_iff.1 hpart).2] at hlist
      cases hlist
    · exact Nat.lt_of_lt_of_le hdeep (liesWithin_nestedLists_iff.1 hpart).1
  · intro hdeep
    have hinnermost := liesWithin_nestedLists_iff.2 ⟨Nat.le_refl depth, rfl⟩
    exact .inr ⟨_, depth, hinnermost, takesRoom_nestedLists _ _, hdeep⟩

end Writing

end Compile

end ConversationFlow
