/-!
# Texts

A text is a row of code points. Most are characters, but surrogates may stand between them: code
points that are no characters, which a client can write into a document all the same. Such a text
can be kept, compared and shown, but it has no bytes.
-/

namespace ConversationFlow

/-- The code points U+D800 to U+DFFF, counted from the first one. -/
abbrev Surrogate := Fin 0x800

def Surrogate.code (c : Surrogate) : Nat := 0xD800 + c.val

/-- Characters alone, or characters up to a surrogate, the surrogate and what follows it. -/
inductive Text where
  | whole (s : String)
  | broken (s : String) (surrogate : Surrogate) (rest : Text)
deriving DecidableEq, Repr

namespace Text

instance : Coe String Text := ⟨whole⟩

instance : Inhabited Text := ⟨whole ""⟩

def append : Text → Text → Text
  | whole s, whole t => whole (s ++ t)
  | whole s, broken t c rest => broken (s ++ t) c rest
  | broken s c rest, t => broken s c (append rest t)

instance : Append Text := ⟨append⟩

/-- Texts one after the other, with a text between each two of them. -/
def intercalate (separator : Text) : List Text → Text
  | [] => ""
  | [t] => t
  | t :: rest => t ++ separator ++ intercalate separator rest

/-- No surrogate stands in the text. -/
def isWhole : Text → Bool
  | whole _ => true
  | broken _ _ _ => false

/-- The characters up to the first surrogate. -/
def start : Text → String
  | whole s => s
  | broken s _ _ => s

/-- The text as characters alone. Three replacement characters stand for a surrogate, one for each of
the bytes that it would have. -/
def legible : Text → String
  | whole s => s
  | broken s _ rest => s ++ "\uFFFD\uFFFD\uFFFD" ++ legible rest

/-- The text with the characters between surrogates replaced, run by run. -/
def mapRuns (f : String → String) : Text → Text
  | whole s => whole (f s)
  | broken s c rest => broken (f s) c (mapRuns f rest)

@[simp]
theorem start_whole_append (s : String) (t : Text) : (whole s ++ t).start = s ++ t.start := by
  cases t <;> rfl

theorem whole_append_right_inj (s : String) {t u : Text} : whole s ++ t = whole s ++ u ↔ t = u := by
  refine ⟨fun h => ?_, congrArg _⟩
  cases t with
  | whole t =>
    cases u with
    | whole u => exact congrArg whole ((String.append_right_inj s).1 (whole.inj h))
    | broken => cases h
  | broken t c rest =>
    cases u with
    | whole => cases h
    | broken u d more =>
      obtain ⟨hstart, rfl, rfl⟩ := broken.inj h
      rw [(String.append_right_inj s).1 hstart]

@[simp]
theorem whole_beq_whole (s t : String) : (whole s == whole t) = (s == t) := by
  rw [Bool.eq_iff_iff, beq_iff_eq, beq_iff_eq, whole.injEq]

theorem mapRuns_append {f : String → String} (hf : ∀ a b, f (a ++ b) = f a ++ f b) (s t : Text) :
    (s ++ t).mapRuns f = s.mapRuns f ++ t.mapRuns f := by
  induction s with
  | whole s =>
    cases t with
    | whole t => exact congrArg whole (hf s t)
    | broken t c rest => exact congrArg (broken · c _) (hf s t)
  | broken s c rest ih => exact congrArg (broken _ c) ih

end Text

end ConversationFlow
