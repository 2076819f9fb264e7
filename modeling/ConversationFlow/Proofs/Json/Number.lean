import ConversationFlow.Json.Printer
import ConversationFlow.Json.Reader
import ConversationFlow.Proofs.Number.Decimal
import ConversationFlow.Proofs.Number.Digits

/-!
# Numbers that are written and read

An integer is read as the one that was written, if the reader takes so many characters. A binary64
number is written in one of five layouts; each of them is read as the decimal that was laid out, and
so as the number.
-/

namespace ConversationFlow

open Text

namespace Json

theorem digitsValue_digitsOf (n : Nat) : digitsValue (digitsOf n) = n :=
  Nat.ofDigitChars_ten_toDigits

/-- What may follow a value that was written: nothing, a comma or a new line. -/
inductive EndsValue : List Symbol → Prop
  | nil : EndsValue []
  | comma (rest : List Symbol) : EndsValue (.char ',' :: rest)
  | newLine (rest : List Symbol) : EndsValue (.char '\n' :: rest)

def NoDigit (s : List Symbol) : Prop :=
  ∀ c rest, s = .char c :: rest → c.isDigit = false

theorem noDigit_cons {c : Char} (hc : c.isDigit = false) (rest : List Symbol) :
    NoDigit (.char c :: rest) := by
  intro d left heq
  cases heq
  exact hc

theorem EndsValue.noDigit {rest : List Symbol} (h : EndsValue rest) : NoDigit rest := by
  cases h with
  | nil => intro c left heq; cases heq
  | comma rest => exact noDigit_cons (by decide) rest
  | newLine rest => exact noDigit_cons (by decide) rest

section Digits

variable {digits : List Char} {rest : List Symbol}

theorem spanDigits_append (hdigits : ∀ c ∈ digits, c.isDigit = true) (hrest : NoDigit rest) :
    spanDigits (digits.map .char ++ rest) = (digits, rest) := by
  induction digits with
  | nil =>
    match rest with
    | [] => rfl
    | .stray b :: left => rfl
    | .char c :: left => simp [spanDigits, hrest c left rfl]
  | cons c digits ih =>
    rw [List.forall_mem_cons] at hdigits
    simp [spanDigits, hdigits.1, ih hdigits.2]

theorem digits1_append (hne : digits ≠ []) (hdigits : ∀ c ∈ digits, c.isDigit = true)
    (hrest : NoDigit rest) : digits1 (digits.map .char ++ rest) = .ok (digits, rest) := by
  have hspan := spanDigits_append hdigits hrest
  cases digits with
  | nil => exact absurd rfl hne
  | cons c digits =>
    rw [List.map_cons, List.cons_append] at hspan ⊢
    simp [digits1, hspan]

end Digits

theorem isDigit_of_mem_zero : ∀ c ∈ ['0'], c.isDigit = true :=
  List.forall_mem_singleton.2 (by decide)

/-- Digits that a number may start with: a zero alone, or digits of which the first is no zero. -/
inductive IsIntegerPart : List Char → Prop
  | zero : IsIntegerPart ['0']
  | digits {c : Char} {more : List Char} (hc : c ≠ '0')
    (hdigits : ∀ d ∈ c :: more, d.isDigit = true) : IsIntegerPart (c :: more)

theorem isIntegerPart_of_head? {digits : List Char} (hne : digits ≠ [])
    (hdigits : ∀ c ∈ digits, c.isDigit = true) (hhead : digits.head? ≠ some '0') :
    IsIntegerPart digits := by
  cases digits with
  | nil => exact absurd rfl hne
  | cons c more => exact .digits (by simpa using hhead) hdigits

theorem isIntegerPart_digitsOf (n : Nat) : IsIntegerPart (digitsOf n) := by
  rcases Nat.eq_zero_or_pos n with rfl | hn
  · exact .zero
  · exact isIntegerPart_of_head? (digitsOf_ne_nil n) (fun _ => isDigit_of_mem_digitsOf)
      (head?_digitsOf_ne hn)

theorem ne_of_isDigit {c d : Char} (hc : c.isDigit = true) (hd : d.isDigit = false) : c ≠ d := by
  rintro rfl
  rw [hc] at hd
  cases hd

variable {limit : Nat} {negative : Bool} {whole places : List Char} {rest : List Symbol}

/-- An integer part is taken whole, if the reader takes so many characters. -/
theorem unsigned_append (hwhole : IsIntegerPart whole) (hrest : NoDigit rest)
    (hlimit : whole.length + (if negative then 1 else 0) ≤ limit) :
    unsigned limit negative (whole.map .char ++ rest) = fraction negative whole rest := by
  cases hwhole with
  | zero =>
    match rest with
    | [] => rfl
    | .stray b :: left => rfl
    | .char c :: left => simp [unsigned, hrest c left rfl]
  | @digits c more hc hdigits =>
    have hspan := spanDigits_append hdigits hrest
    have hI : c ≠ 'I' := ne_of_isDigit (hdigits c (by simp)) (by decide)
    rw [List.map_cons, List.cons_append] at hspan ⊢
    rw [unsigned.eq_def]
    simp [hc, hI, hspan]
    exact fun hlong => absurd hlimit (Nat.not_le.2 hlong)

/-- Without a fraction or an exponent a number is an integer. -/
theorem fraction_of_endsValue (hrest : EndsValue rest) :
    fraction negative whole rest =
      .ok (.int (Binary64.signed negative (digitsValue whole)), rest) := by
  cases hrest <;> rfl

theorem scaled_of_endsValue (hrest : EndsValue rest) :
    scaled negative whole places rest =
      .ok (.float (.ofDecimal negative (digitsValue (whole ++ places)) (0 - places.length)),
        rest) := by
  cases hrest <;> rfl

theorem fraction_point (hne : places ≠ []) (hplaces : ∀ c ∈ places, c.isDigit = true)
    (hrest : EndsValue rest) :
    fraction negative whole (.char '.' :: (places.map .char ++ rest)) =
      .ok (.float (.ofDecimal negative (digitsValue (whole ++ places)) (0 - places.length)),
        rest) := by
  rw [fraction, digits1_append hne hplaces hrest.noDigit]
  exact scaled_of_endsValue hrest

theorem exponent_exponentText (width : Nat) (n : Int) (hrest : NoDigit rest) :
    exponent ((exponentText width n).map .char ++ rest) = .ok (n, rest) := by
  have hdigits : ∀ c ∈ List.replicate (width - (digitsOf n.natAbs).length) '0' ++
      digitsOf n.natAbs, c.isDigit = true := fun _ => isDigit_of_mem_zeros_append
  have hread := digits1_append (by simp [digitsOf_ne_nil]) hdigits hrest
  have hvalue : digitsValue (List.replicate (width - (digitsOf n.natAbs).length) '0' ++
      digitsOf n.natAbs) = n.natAbs := ofDigitChars_zeros_append _ _
  unfold exponentText
  dsimp only
  generalize List.replicate (width - (digitsOf n.natAbs).length) '0' ++ digitsOf n.natAbs = digits
    at hread hvalue ⊢
  by_cases hsign : n < 0
  · simp [hsign, exponent, hread, hvalue, mapRead, step, abs_of_neg hsign]
  · simp [hsign, exponent, hread, hvalue, mapRead, step, abs_of_nonneg (not_lt.1 hsign)]

theorem scaled_exponentText (width : Nat) (n : Int) (hrest : EndsValue rest) :
    scaled negative whole places (.char 'e' :: ((exponentText width n).map .char ++ rest)) =
      .ok (.float (.ofDecimal negative (digitsValue (whole ++ places)) (n - places.length)),
        rest) := by
  rw [scaled, exponent_exponentText width n hrest.noDigit]
  rfl

theorem scalar_digit {limits : Limits} {c : Char} (hc : c.isDigit = true) (rest : List Symbol) :
    scalar limits (.char c :: rest) =
      unsigned limits.integerLength false (.char c :: rest) := by
  have hne (d : Char) (hd : d.isDigit = false) : c ≠ d := ne_of_isDigit hc hd
  rw [scalar.eq_def]
  simp [hc, hne '"' (by decide), hne 't' (by decide), hne 'f' (by decide), hne 'n' (by decide),
    hne 'N' (by decide), hne 'I' (by decide), hne '-' (by decide)]

/-- A text that starts with an integer part is read as a number, after its sign if it has one. -/
theorem scalar_signed {limits : Limits} (hwhole : IsIntegerPart whole) (hrest : NoDigit rest)
    (hlimit : whole.length + (if negative then 1 else 0) ≤ limits.integerLength) :
    scalar limits (((if negative then ['-'] else []) ++ whole).map .char ++ rest) =
      fraction negative whole rest := by
  have hread := unsigned_append hwhole hrest hlimit
  cases negative with
  | true => simpa [scalar] using hread
  | false =>
    have hdigit : ∃ c more, whole = c :: more ∧ c.isDigit = true := by
      cases hwhole with
      | zero => exact ⟨'0', [], rfl, by decide⟩
      | digits _ hdigits => exact ⟨_, _, rfl, hdigits _ (by simp)⟩
    obtain ⟨c, more, rfl, hc⟩ := hdigit
    rw [← hread]
    exact scalar_digit hc _

theorem integerText_eq (n : Int) :
    integerText n = (if decide (n < 0) then ['-'] else []) ++ digitsOf n.natAbs := by
  unfold integerText
  split <;> simp_all

/-- An integer is read back, if the reader takes all its characters. -/
theorem scalar_integerText {limits : Limits} {n : Int} (hrest : EndsValue rest)
    (hlimit : (integerText n).length ≤ limits.integerLength) :
    scalar limits ((integerText n).map .char ++ rest) = .ok (.int n, rest) := by
  have hlength : (digitsOf n.natAbs).length + (if decide (n < 0) then 1 else 0) ≤
      limits.integerLength := by
    rw [integerText_eq, List.length_append] at hlimit
    by_cases hsign : n < 0 <;> simp only [hsign, decide_true, decide_false, if_true,
      Bool.false_eq_true, if_false, List.length_cons, List.length_nil] at hlimit ⊢ <;> omega
  rw [integerText_eq, scalar_signed (isIntegerPart_digitsOf _) hrest.noDigit hlength,
    fraction_of_endsValue hrest, digitsValue_digitsOf]
  have hvalue : Binary64.signed (decide (n < 0)) n.natAbs = n := by
    unfold Binary64.signed
    by_cases hsign : n < 0 <;> simp only [hsign, decide_true, decide_false, if_true,
      Bool.false_eq_true, if_false] <;> omega
  rw [hvalue]

def signText (negative : Bool) : List Char :=
  if negative then ['-'] else []

section Layouts

variable {limits : Limits}

theorem length_add_sign_le (h : whole.length + 1 ≤ limit) (negative : Bool) :
    whole.length + (if negative then 1 else 0) ≤ limit := by
  split <;> omega

theorem scalar_point (negative : Bool) (hwhole : IsIntegerPart whole) (hne : places ≠ [])
    (hplaces : ∀ c ∈ places, c.isDigit = true) (hrest : EndsValue rest)
    (hlimit : whole.length + 1 ≤ limits.integerLength) :
    scalar limits ((signText negative ++ (whole ++ '.' :: places)).map .char ++ rest) =
      .ok (.float (.ofDecimal negative (digitsValue (whole ++ places)) (0 - places.length)),
        rest) := by
  have hpoint : NoDigit (.char '.' :: (places.map .char ++ rest)) := noDigit_cons (by decide) _
  rw [← fraction_point hne hplaces hrest,
    ← scalar_signed hwhole hpoint (length_add_sign_le hlimit negative), signText]
  simp

theorem scalar_exponent (negative : Bool) (hwhole : IsIntegerPart whole)
    (hplaces : ∀ c ∈ places, c.isDigit = true) (width : Nat) (n : Int) (hrest : EndsValue rest)
    (hlimit : whole.length + 1 ≤ limits.integerLength) :
    scalar limits ((signText negative ++ (whole ++ (if places.isEmpty then [] else '.' :: places) ++
      'e' :: exponentText width n)).map .char ++ rest) =
      .ok (.float (.ofDecimal negative (digitsValue (whole ++ places)) (n - places.length)),
        rest) := by
  have hlimit' := length_add_sign_le hlimit negative
  rw [← scaled_exponentText width n hrest]
  have hletter : NoDigit (.char 'e' :: ((exponentText width n).map .char ++ rest)) :=
    noDigit_cons (by decide) _
  cases places with
  | nil =>
    have hfraction : fraction negative whole
        (.char 'e' :: ((exponentText width n).map .char ++ rest)) =
        scaled negative whole [] (.char 'e' :: ((exponentText width n).map .char ++ rest)) := rfl
    rw [← hfraction, ← scalar_signed hwhole hletter hlimit', signText]
    simp
  | cons c places =>
    have hpoint : NoDigit (.char '.' :: ((c :: places).map .char ++
        .char 'e' :: ((exponentText width n).map .char ++ rest))) := noDigit_cons (by decide) _
    have hfraction : fraction negative whole (.char '.' :: ((c :: places).map .char ++
        .char 'e' :: ((exponentText width n).map .char ++ rest))) =
        scaled negative whole (c :: places)
          (.char 'e' :: ((exponentText width n).map .char ++ rest)) := by
      rw [fraction, digits1_append (by simp) hplaces hletter]
      rfl
    rw [← hfraction, ← scalar_signed hwhole hpoint hlimit', signText]
    simp

/-! The layouts of a decimal that is not zero. Its point stands `point` places after the first of its
digits. -/

variable {d : Decimal}

theorem isIntegerPart_take {count : Nat} (hcount : 0 < count) (hpos : 0 < d.digits) :
    IsIntegerPart ((digitsOf d.digits).take count) := by
  refine isIntegerPart_of_head? ?_ ?_ ?_
  · rw [ne_eq, List.take_eq_nil_iff, not_or]
    exact ⟨Nat.ne_of_gt hcount, digitsOf_ne_nil _⟩
  · exact fun c hc => isDigit_of_mem_digitsOf (List.mem_of_mem_take hc)
  · rw [List.head?_take, if_neg (Nat.ne_of_gt hcount)]
    exact head?_digitsOf_ne hpos

/-- The point stands before all digits. -/
theorem scalar_pointBefore (negative : Bool) (hrest : EndsValue rest)
    (hlimit : 2 ≤ limits.integerLength)
    (hpoint : d.exponent + (digitsOf d.digits).length ≤ 0) :
    scalar limits ((signText negative ++ (['0', '.'] ++
      List.replicate (-(d.exponent + (digitsOf d.digits).length)).toNat '0' ++
        digitsOf d.digits)).map .char ++ rest) =
      .ok (.float (.ofDecimal negative d.digits d.exponent), rest) := by
  generalize hzeros : (-(d.exponent + (digitsOf d.digits).length)).toNat = zeros
  have hne : List.replicate zeros '0' ++ digitsOf d.digits ≠ [] := by simp [digitsOf_ne_nil]
  have hdigits : ∀ c ∈ List.replicate zeros '0' ++ digitsOf d.digits, c.isDigit = true :=
    fun _ => isDigit_of_mem_zeros_append
  have hread := scalar_point negative .zero hne hdigits hrest hlimit
  have hvalue : digitsValue (['0'] ++ (List.replicate zeros '0' ++ digitsOf d.digits)) =
      d.digits := by
    rw [← List.append_assoc, ← List.replicate_one, ← List.replicate_add]
    exact ofDigitChars_zeros_append _ _
  have hexponent : (0 : Int) - (List.replicate zeros '0' ++ digitsOf d.digits).length =
      d.exponent := by
    rw [List.length_append, List.length_replicate]
    omega
  rw [hvalue, hexponent] at hread
  exact hread

/-- The point stands after all digits, and after zeros. -/
theorem scalar_pointAfter (negative : Bool) (hrest : EndsValue rest)
    (hlimit : 17 ≤ limits.integerLength) (hpos : 0 < d.digits)
    (hpoint : d.exponent + (digitsOf d.digits).length ≤ 16)
    (hafter : (digitsOf d.digits).length ≤ (d.exponent + (digitsOf d.digits).length).toNat) :
    scalar limits ((signText negative ++ (digitsOf d.digits ++
      List.replicate ((d.exponent + (digitsOf d.digits).length).toNat - (digitsOf d.digits).length)
        '0' ++ ['.', '0'])).map .char ++ rest) =
      .ok (.float (.ofDecimal negative d.digits d.exponent), rest) := by
  have hlength := List.length_pos_of_ne_nil (digitsOf_ne_nil d.digits)
  generalize hzeros :
    (d.exponent + (digitsOf d.digits).length).toNat - (digitsOf d.digits).length = zeros
  have hwhole : IsIntegerPart (digitsOf d.digits ++ List.replicate zeros '0') := by
    refine isIntegerPart_of_head? (by simp [digitsOf_ne_nil]) (fun _ => isDigit_of_mem_append_zeros) ?_
    rw [List.head?_append_of_ne_nil _ (digitsOf_ne_nil _)]
    exact head?_digitsOf_ne hpos
  have hsize : (digitsOf d.digits ++ List.replicate zeros '0').length + 1 ≤
      limits.integerLength := by
    rw [List.length_append, List.length_replicate]
    omega
  have hread := scalar_point negative hwhole (List.cons_ne_nil _ _) isDigit_of_mem_zero hrest hsize
  have hvalue : digitsValue (digitsOf d.digits ++ List.replicate zeros '0' ++ ['0']) =
      d.digits * 10 ^ (zeros + 1) := by
    rw [List.append_assoc, ← List.replicate_succ']
    exact ofDigitChars_append_zeros _ _
  have hexponent : (0 : Int) - (['0'] : List Char).length =
      d.exponent - ((zeros + 1 : Nat) : Int) := by
    rw [List.length_singleton]
    omega
  rw [hvalue, hexponent, Binary64.ofDecimal_mul_pow, List.append_assoc] at hread
  rw [List.append_assoc]
  exact hread

/-- The point stands between two digits. -/
theorem scalar_pointBetween (negative : Bool) (hrest : EndsValue rest)
    (hlimit : 17 ≤ limits.integerLength) (hpos : 0 < d.digits)
    (hpoint : d.exponent + (digitsOf d.digits).length ≤ 16)
    (hbefore : 0 < d.exponent + (digitsOf d.digits).length)
    (hafter : (d.exponent + (digitsOf d.digits).length).toNat < (digitsOf d.digits).length) :
    scalar limits ((signText negative ++
      ((digitsOf d.digits).take (d.exponent + (digitsOf d.digits).length).toNat ++
        '.' :: (digitsOf d.digits).drop (d.exponent + (digitsOf d.digits).length).toNat)).map .char ++
          rest) =
      .ok (.float (.ofDecimal negative d.digits d.exponent), rest) := by
  generalize hcount : (d.exponent + (digitsOf d.digits).length).toNat = count at hafter ⊢
  have hne : (digitsOf d.digits).drop count ≠ [] := by
    rw [ne_eq, List.drop_eq_nil_iff]
    omega
  have hsize : ((digitsOf d.digits).take count).length + 1 ≤ limits.integerLength := by
    rw [List.length_take]
    omega
  have hread := scalar_point negative (isIntegerPart_take (by omega) hpos) hne
    (fun c hc => isDigit_of_mem_digitsOf (List.mem_of_mem_drop hc)) hrest hsize
  have hexponent : (0 : Int) - ((digitsOf d.digits).drop count).length = d.exponent := by
    rw [List.length_drop]
    omega
  rw [List.take_append_drop, digitsValue_digitsOf, hexponent] at hread
  exact hread

/-- One digit stands before the point, and an exponent follows. -/
theorem scalar_pointFirst (negative : Bool) (hrest : EndsValue rest)
    (hlimit : 2 ≤ limits.integerLength) (hpos : 0 < d.digits) (width : Nat) :
    scalar limits ((signText negative ++ ((digitsOf d.digits).take 1 ++
      (if ((digitsOf d.digits).drop 1).isEmpty then [] else '.' :: (digitsOf d.digits).drop 1) ++
        'e' :: exponentText width (d.exponent + (digitsOf d.digits).length - 1))).map .char ++
          rest) =
      .ok (.float (.ofDecimal negative d.digits d.exponent), rest) := by
  have hlength := List.length_pos_of_ne_nil (digitsOf_ne_nil d.digits)
  have hsize : ((digitsOf d.digits).take 1).length + 1 ≤ limits.integerLength := by
    rw [List.length_take]
    omega
  have hplaces : ∀ c ∈ (digitsOf d.digits).drop 1, c.isDigit = true :=
    fun c hc => isDigit_of_mem_digitsOf (List.mem_of_mem_drop hc)
  have hread := scalar_exponent negative (isIntegerPart_take Nat.one_pos hpos) hplaces width
    (d.exponent + (digitsOf d.digits).length - 1) hrest hsize
  have hexponent : d.exponent + ((digitsOf d.digits).length : Int) - 1 -
      ((digitsOf d.digits).drop 1).length = d.exponent := by
    rw [List.length_drop]
    omega
  rw [List.take_append_drop, digitsValue_digitsOf, hexponent] at hread
  exact hread

theorem scalar_decimalText {style : FloatStyle} (hstyle : style.leastOrder ≤ 0) (negative : Bool)
    (hrest : EndsValue rest) (hlimit : 17 ≤ limits.integerLength) (d : Decimal) :
    scalar limits ((signText negative ++ d.text style).map .char ++ rest) =
      .ok (.float (.ofDecimal negative d.digits d.exponent), rest) := by
  unfold Decimal.text
  rcases Nat.eq_zero_or_pos d.digits with hzero | hpos
  · have hsize : ['0'].length + 1 ≤ limits.integerLength := by
      rw [List.length_singleton]
      omega
    have hread := scalar_point negative .zero (List.cons_ne_nil _ _) isDigit_of_mem_zero hrest hsize
    have hvalue : digitsValue (['0'] ++ ['0']) = 0 := rfl
    rw [hvalue, Binary64.ofDecimal_zero] at hread
    rw [hzero, Binary64.ofDecimal_zero]
    simpa [hstyle] using hread
  · have hne : d.digits ≠ 0 := Nat.ne_of_gt hpos
    simp only [hne, if_false]
    split
    · next hmoderate =>
      split
      · next hpoint => exact scalar_pointBefore negative hrest (by omega) hpoint
      · next hpoint =>
        split
        · next hafter => exact scalar_pointAfter negative hrest hlimit hpos (by omega) hafter
        · next hafter =>
          exact scalar_pointBetween negative hrest hlimit hpos (by omega) (by omega) (by omega)
    · exact scalar_pointFirst negative hrest (by omega) hpos style.exponentWidth

theorem scalar_documentFloat (hrest : EndsValue rest) (hlimit : 17 ≤ limits.integerLength)
    (negative : Bool) (m : Magnitude) :
    scalar limits ((documentFloat (.finite negative m)).map .char ++ rest) =
      .ok (.float (.finite negative m), rest) := by
  have hstyle : FloatStyle.document.leastOrder ≤ 0 := by decide
  have hread := scalar_decimalText hstyle negative hrest hlimit m.shortest
  rw [Binary64.ofDecimal_sign m.readsAs_shortest] at hread
  exact hread

end Layouts

end Json

end ConversationFlow
