import ConversationFlow.Proofs.Compile.Conversion
import ConversationFlow.Proofs.Number.Binary64
import ConversationFlow.Proofs.Number.Digits
import ConversationFlow.Proofs.Text.Ascii
import Mathlib.Data.Nat.Digits.Defs

/-!
# Integers of the editor

What a value of the editor comes to as an integer: a number without its fraction, a text the integer
that it begins with, everything else 0. The digits of a text are taken as far as they go, and too many
of them are refused; so is a list or an object that cannot be written.
-/

namespace ConversationFlow

open Text

namespace Text

/-- The number that digits stand for, of which the last one counts ones. -/
def decimalValue (run : List Char) : Nat :=
  Nat.ofDigits 10 (run.filterMap digitValue?).reverse

theorem ofDigits_eq (digits : List Nat) : ofDigits digits = Nat.ofDigits 10 digits.reverse := by
  rw [Nat.ofDigits_eq_foldr, List.foldr_reverse, ofDigits]
  simp only [Nat.cast_id, Nat.add_comm]

/-- Digits are taken as long as there are any. -/
theorem takeDigits_append {run rest : List Char} (hrun : IsDigitRun run)
    (hrest : ∀ c ∈ rest.head?, digitValue? c = none) :
    takeDigits (run ++ rest) = (run.filterMap digitValue?, rest) := by
  induction run with
  | nil =>
    cases rest with
    | nil => rfl
    | cons c rest => simp [takeDigits, hrest c rfl]
  | cons c run ih =>
    obtain ⟨hc, hrun⟩ := List.forall_mem_cons.1 hrun
    obtain ⟨d, hd⟩ := Option.isSome_iff_exists.1 hc
    simp [takeDigits, hd, ih hrun]

theorem length_filterMap_digitValue? {run : List Char} (hrun : IsDigitRun run) :
    (run.filterMap digitValue?).length = run.length := by
  rw [List.length_filterMap_eq_countP, List.countP_eq_length]
  exact hrun

/-- What is left after the digits of a text does not start with one. -/
theorem head?_takeDigits (s : List Char) : ∀ c ∈ (takeDigits s).2.head?, digitValue? c = none := by
  induction s with
  | nil => simp [takeDigits]
  | cons c rest ih =>
    cases hc : digitValue? c with
    | none => simp [takeDigits, hc]
    | some d => simpa [takeDigits, hc] using ih

theorem isDigitRun_digitsOf (n : Nat) : IsDigitRun (digitsOf n) := by
  intro c hc
  rw [digitValue?_of_isDigit (isDigit_of_mem_digitsOf hc), Option.isSome_some]

/-- The digits that a number is written with stand for it. -/
theorem decimalValue_digitsOf (n : Nat) : decimalValue (digitsOf n) = n := by
  have hvalues : (digitsOf n).filterMap digitValue? =
      (digitsOf n).map fun c => c.toNat - '0'.toNat := by
    rw [← List.filterMap_eq_map']
    apply List.filterMap_congr
    intro c hc
    exact digitValue?_of_isDigit (isDigit_of_mem_digitsOf hc)
  calc decimalValue (digitsOf n)
    _ = ofDigits ((digitsOf n).map fun c => c.toNat - '0'.toNat) := by
      rw [decimalValue, hvalues, ofDigits_eq]
    _ = Nat.ofDigitChars 10 (digitsOf n) 0 := by
      rw [ofDigits, List.foldl_map]
      rfl
    _ = n := Nat.ofDigitChars_ten_toDigits

/-- A text consists of blanks, perhaps a sign, all digits that stand there, and a rest. -/
structure BeginsWith (s blanks sign run rest : List Char) : Prop where
  leads : Leads blanks sign
  digits : IsDigitRun run
  nonempty : run ≠ []
  maximal : ∀ c ∈ rest.head?, digitValue? c = none
  split : s = blanks ++ (sign ++ (run ++ rest))

end Text

namespace Compile

/-- The number that digits after a sign stand for. -/
def signedValue (sign run : List Char) : Int :=
  if sign = ['-'] then -(decimalValue run : Int) else decimalValue run

theorem leadingInteger_of_beginsWith {s blanks sign run rest : List Char}
    (h : BeginsWith s blanks sign run rest) :
    leadingInteger s =
      if digitLimit < run.length then .error (.longNumeral run.length)
      else .ok (signedValue sign run) := by
  rw [h.split, leadingInteger_append h.leads h.digits h.nonempty,
    takeDigits_append h.digits h.maximal, integerOfDigits, length_filterMap_digitValue? h.digits,
    ofDigits_eq, ← decimalValue]
  rcases h.leads.sign with rfl | rfl | rfl <;> rfl

/-- A text without digits after blanks and perhaps a sign counts as 0. -/
theorem leadingInteger_cases (s : List Char) :
    (∃ blanks sign run rest, BeginsWith s blanks sign run rest) ∨ leadingInteger s = .ok 0 := by
  obtain ⟨blanks, sign, rest, hleads, hsplit, hread⟩ := exists_leads s
  obtain ⟨run, hrun, hrest, hlength⟩ := exists_digitRun rest
  cases run with
  | nil =>
    right
    have hnone : (takeDigits rest).1 = [] := List.length_eq_zero_iff.1 hlength.symm
    rw [hread, hnone]
    by_cases hsign : sign = ['-'] <;> simp [integerOfDigits, ofDigits, Binary64.signed, hsign]
  | cons c run =>
    left
    refine ⟨blanks, sign, c :: run, _, hleads, hrun, List.cons_ne_nil c run, head?_takeDigits rest, ?_⟩
    rw [← hrest]
    exact hsplit

variable [Host]

/-- What a value comes to as an integer. -/
inductive ComesTo : Json → Except Obstacle Int → Prop
  | null : ComesTo .null (.ok 0)
  | bool (b : Bool) : ComesTo (.bool b) (.ok 0)
  | int (n : Int) : ComesTo (.int n) (.ok n)
  | finite (negative : Bool) (m : Magnitude) :
    ComesTo (.float (.finite negative m)) (.ok (Binary64.towardZero (Binary64.rational negative m)))
  | infinite (negative : Bool) : ComesTo (.float (.infinite negative)) (.ok 0)
  | undefined : ComesTo (.float .undefined) (.ok 0)
  | digits {s : Text} {blanks sign run rest : List Char}
    (h : BeginsWith s.start.toList blanks sign run rest) (hfew : run.length ≤ digitLimit) :
    ComesTo (.str s) (.ok (signedValue sign run))
  | manyDigits {s : Text} {blanks sign run rest : List Char}
    (h : BeginsWith s.start.toList blanks sign run rest) (hmany : digitLimit < run.length) :
    ComesTo (.str s) (.error (.longNumeral run.length))
  | noDigits {s : Text} (h : ¬∃ blanks sign run rest, BeginsWith s.start.toList blanks sign run rest) :
    ComesTo (.str s) (.ok 0)
  | container {v : Json} (h : (∃ items, v = .arr items) ∨ ∃ fields, v = .obj fields)
    (hwritten : ¬IsObstructed .plain v) : ComesTo v (.ok 0)
  | obstructed {v : Json} {obstacle : Obstacle}
    (h : (∃ items, v = .arr items) ∨ ∃ fields, v = .obj fields)
    (hobstacle : obstacle? .plain 0 v = some obstacle) : ComesTo v (.error obstacle)

/-- A list or an object counts as 0 if it is written plainly. -/
theorem parseInt_container {v : Json} (h : (∃ items, v = .arr items) ∨ ∃ fields, v = .obj fields) :
    parseInt v =
      match obstacle? .plain 0 v with
      | some obstacle => .error obstacle
      | none => .ok 0 := by
  rcases h with ⟨items, rfl⟩ | ⟨fields, rfl⟩ <;> rfl

theorem obstacle?_eq_none_iff {form : Form} {v : Json} :
    obstacle? form 0 v = none ↔ ¬IsObstructed form v := by
  rw [← exists_obstacle?_iff, ← Option.isSome_iff_exists, Option.not_isSome_iff_eq_none]

theorem ComesTo.parseInt_eq {v : Json} {outcome : Except Obstacle Int}
    (h : ComesTo v outcome) : parseInt v = outcome := by
  cases h with
  | null | bool | int | infinite | undefined => rfl
  | finite negative m => rw [parseInt, Binary64.truncate?_finite, Option.getD_some]
  | digits h hfew => rw [parseInt, leadingInteger_of_beginsWith h, if_neg (Nat.not_lt.2 hfew)]
  | manyDigits h hmany => rw [parseInt, leadingInteger_of_beginsWith h, if_pos hmany]
  | @noDigits s h => exact (leadingInteger_cases s.start.toList).resolve_left h
  | container h hwritten => rw [parseInt_container h, obstacle?_eq_none_iff.2 hwritten]
  | obstructed h hobstacle => rw [parseInt_container h, hobstacle]

theorem exists_comesTo (v : Json) : ∃ outcome, ComesTo v outcome := by
  have hcontainer : ((∃ items, v = .arr items) ∨ ∃ fields, v = .obj fields) →
      ∃ outcome, ComesTo v outcome := by
    intro h
    cases hobstacle : obstacle? .plain 0 v with
    | some obstacle => exact ⟨_, .obstructed h hobstacle⟩
    | none => exact ⟨_, .container h (obstacle?_eq_none_iff.1 hobstacle)⟩
  cases v with
  | null => exact ⟨_, .null⟩
  | bool b => exact ⟨_, .bool b⟩
  | int n => exact ⟨_, .int n⟩
  | float x =>
    cases x with
    | finite negative m => exact ⟨_, .finite negative m⟩
    | infinite negative => exact ⟨_, .infinite negative⟩
    | undefined => exact ⟨_, .undefined⟩
  | str s =>
    by_cases h : ∃ blanks sign run rest, BeginsWith s.start.toList blanks sign run rest
    · obtain ⟨blanks, sign, run, rest, h⟩ := h
      rcases Nat.lt_or_ge digitLimit run.length with hmany | hfew
      · exact ⟨_, .manyDigits h hmany⟩
      · exact ⟨_, .digits h hfew⟩
    · exact ⟨_, .noDigits h⟩
  | arr items => exact hcontainer (.inl ⟨items, rfl⟩)
  | obj fields => exact hcontainer (.inr ⟨fields, rfl⟩)

theorem parseInt_eq_iff {v : Json} {outcome : Except Obstacle Int} :
    parseInt v = outcome ↔ ComesTo v outcome := by
  constructor
  · rintro rfl
    obtain ⟨outcome, h⟩ := exists_comesTo v
    rwa [h.parseInt_eq]
  · exact ComesTo.parseInt_eq

omit [Host] in
/-- An integer that is written, and whatever does not go on with a digit. -/
theorem beginsWith_integerText (n : Int) {suffix : Text}
    (hsuffix : ∀ c ∈ suffix.start.toList.head?, digitValue? c = none) :
    BeginsWith (String.ofList (integerText n) ++ suffix : Text).start.toList []
      (if n < 0 then ['-'] else []) (digitsOf n.natAbs) suffix.start.toList where
  leads := ⟨by simp, by split <;> simp⟩
  digits := isDigitRun_digitsOf _
  nonempty := digitsOf_ne_nil _
  maximal := hsuffix
  split := by
    rw [Text.start_whole_append, String.toList_append, String.toList_ofList, integerText]
    split <;> simp

omit [Host] in
theorem signedValue_digitsOf (n : Int) :
    signedValue (if n < 0 then ['-'] else []) (digitsOf n.natAbs) = n := by
  rw [signedValue, decimalValue_digitsOf]
  rcases lt_or_ge n 0 with hneg | hnonneg
  · rw [if_pos hneg, if_pos rfl]
    omega
  · rw [if_neg (not_lt.2 hnonneg), if_neg (by decide)]
    omega

/-- A value comes to an integer, or meets an obstacle, in one of the ways listed; a text is refused
exactly if its characters begin with more digits than are read; and an integer that is written is read
back, whatever follows that is no digit. -/
theorem parseInt_comesTo :
    (∀ (v : Json) (outcome : Except Obstacle Int), parseInt v = outcome ↔ ComesTo v outcome) ∧
    (∀ s : Text, (∃ obstacle, parseInt (.str s) = .error obstacle) ↔
      ∃ blanks sign run rest, BeginsWith s.start.toList blanks sign run rest ∧
        digitLimit < run.length) ∧
    ∀ (n : Int) (suffix : Text), (digitsOf n.natAbs).length ≤ digitLimit →
      (∀ c ∈ suffix.start.toList.head?, digitValue? c = none) →
      parseInt (.str (String.ofList (integerText n) ++ suffix)) = .ok n := by
  refine ⟨fun v outcome => parseInt_eq_iff, ?_, ?_⟩
  · intro s
    constructor
    · rintro ⟨obstacle, herror⟩
      cases parseInt_eq_iff.1 herror with
      | manyDigits h hmany => exact ⟨_, _, _, _, h, hmany⟩
      | obstructed h => simp at h
    · rintro ⟨blanks, sign, run, rest, h, hmany⟩
      exact ⟨_, parseInt_eq_iff.2 (.manyDigits h hmany)⟩
  · intro n suffix hfew hsuffix
    rw [(ComesTo.digits (beginsWith_integerText n hsuffix) hfew).parseInt_eq, signedValue_digitsOf]

end Compile

end ConversationFlow
