import ConversationFlow.Json.Printer
import ConversationFlow.Json.Reader

/-!
# Strings that are written and read

Each character of a string is written as itself or as an escape, and either is read as the character.
So a text in which no surrogate stands is read back.
-/

namespace ConversationFlow.Json

open Text

theorem hexValue?_hexDigit (n : Nat) : hexValue? (.char (hexDigit n)) = some (n % 16) := by
  have hdigits : ∀ d < 16, hexValue? (.char (Nat.digitChar d)) = some d := by decide
  exact hdigits (n % 16) (Nat.mod_lt n (by decide))

theorem size_hexDigit (n : Nat) : (Symbol.char (hexDigit n)).size = 1 := by
  have hdigits : ∀ d < 16, (Symbol.char (Nat.digitChar d)).size = 1 := by decide
  exact hdigits (n % 16) (Nat.mod_lt n (by decide))

theorem hex4_digits {n : Nat} (hn : n < 0x10000) (rest : List Symbol) :
    hex4 (.char (hexDigit (n / 4096)) :: .char (hexDigit (n / 256)) :: .char (hexDigit (n / 16)) ::
      .char (hexDigit n) :: rest) = .ok n := by
  have hvalue : 16 * (16 * (16 * (16 * 0 + n / 4096 % 16) + n / 256 % 16) + n / 16 % 16) + n % 16 =
      n := by omega
  simp only [hex4, hasBytes, size_hexDigit, hexDigits, hexValue?_hexDigit, Nat.add_sub_cancel,
    if_true, hvalue]

variable {surrogates : Bool}

theorem escape_unicodeEscape {n : Nat} (hn : n < 0x20) (rest : List Symbol) :
    escape surrogates (.char 'u' :: .char (hexDigit (n / 4096)) :: .char (hexDigit (n / 256)) ::
      .char (hexDigit (n / 16)) :: .char (hexDigit n) :: rest) = .ok (.char (Char.ofNat n), 5) := by
  have hlow : ¬(0xDC00 ≤ n ∧ n ≤ 0xDFFF) := by omega
  have hhigh : ¬(0xD800 ≤ n ∧ n ≤ 0xDBFF) := by omega
  rw [escape, hexEscape, hex4_digits (by omega)]
  simp only [hlow, hhigh, if_false]
  rfl

theorem content_escaped (c : Char) (rest : List Symbol) :
    content surrogates 0 ((escaped rawChar c).map .char ++ rest) =
      mapRead (.char c :: ·) (content surrogates 0 rest) := by
  unfold escaped
  split
  · next hc => simp [hc, content, escape]
  split
  · next hc => simp [hc, content, escape]
  split
  · next hc => simp [hc, content, escape]
  split
  · next hc => simp [hc, content, escape]
  split
  · next hc => simp [hc, content, escape]
  split
  · next hc => simp [hc, content, escape]
  split
  · next hc => simp [hc, content, escape]
  split
  · next hcontrol =>
    have hescape := @escape_unicodeEscape surrogates _ hcontrol rest
    rw [Char.ofNat_toNat] at hescape
    simp [unicodeEscape, content, hescape]
  · next hquote hbackslash _ _ _ _ _ hcontrol =>
    simp [rawChar, content, hquote, hbackslash, hcontrol]

theorem content_flatMap (cs : List Char) (rest : List Symbol) :
    content surrogates 0 ((cs.flatMap (escaped rawChar)).map .char ++ .char '"' :: rest) =
      .ok (cs.map .char, rest) := by
  induction cs with
  | nil => simp [content]
  | cons c cs ih =>
    rw [List.flatMap_cons, List.map_append, List.append_assoc, content_escaped, ih]
    rfl

theorem textFrom_map (before cs : List Char) :
    textFrom before (cs.map .char) = .ok (.whole (String.ofList (before.reverse ++ cs))) := by
  induction cs generalizing before with
  | nil => rw [List.map_nil, textFrom, List.append_nil]
  | cons c cs ih =>
    rw [List.map_cons, textFrom, ih, List.reverse_cons, List.append_assoc]
    rfl

/-- A string is read back after its opening quote. -/
theorem exists_quote {s : Text} (hwhole : s.isWhole) (rest : List Symbol) :
    ∃ more, (quote rawChar s).map .char ++ rest = .char '"' :: more ∧
      quoted surrogates more = .ok (s, rest) := by
  cases s with
  | whole s =>
    refine ⟨(s.toList.flatMap (escaped rawChar)).map .char ++ .char '"' :: rest,
      by simp [quote, quotable], ?_⟩
    rw [quoted, content_flatMap]
    simp [step, textFrom_map]
  | broken => cases hwhole

theorem scalar_quote (limits : Limits) {s : Text} (hwhole : s.isWhole) (rest : List Symbol) :
    scalar limits ((quote rawChar s).map .char ++ rest) = .ok (.str s, rest) := by
  obtain ⟨more, htext, hread⟩ := exists_quote hwhole rest
  rw [htext, scalar, hread]
  rfl

end ConversationFlow.Json
