import ConversationFlow.Text.Basic

/-!
# Quoted texts

How a text is shown inside a message: between single quotes, or between double ones if it holds
single ones alone. Characters that cannot be seen and surrogates are written as escapes.
-/

namespace ConversationFlow.Text

/-- Controls, formats, separators other than the space, and characters for private use. -/
def unseenRanges : List (Nat × Nat) :=
  [(0x0, 0x1F), (0x7F, 0xA0), (0xAD, 0xAD), (0x600, 0x605), (0x61C, 0x61C), (0x6DD, 0x6DD),
   (0x70F, 0x70F), (0x890, 0x891), (0x8E2, 0x8E2), (0x1680, 0x1680), (0x180E, 0x180E),
   (0x2000, 0x200F), (0x2028, 0x202F), (0x205F, 0x2064), (0x2066, 0x206F), (0x3000, 0x3000),
   (0xE000, 0xF8FF), (0xFEFF, 0xFEFF), (0xFFF9, 0xFFFB), (0x110BD, 0x110BD), (0x110CD, 0x110CD),
   (0x13430, 0x1343F), (0x1BCA0, 0x1BCA3), (0x1D173, 0x1D17A), (0xE0001, 0xE0001),
   (0xE0020, 0xE007F), (0xF0000, 0xFFFFD), (0x100000, 0x10FFFD)]

def isUnseen (c : Char) : Bool :=
  unseenRanges.any fun (first, last) => first ≤ c.toNat && c.toNat ≤ last

/-- A number in base sixteen, with a fixed number of digits. -/
def hexText : (width n : Nat) → List Char
  | 0, _ => []
  | width + 1, n => hexText width (n / 16) ++ [Nat.digitChar (n % 16)]

def quotedChar (mark c : Char) : List Char :=
  if c = mark ∨ c = '\\' then ['\\', c]
  else if c = '\t' then ['\\', 't']
  else if c = '\n' then ['\\', 'n']
  else if c = '\r' then ['\\', 'r']
  else if !isUnseen c then [c]
  else if c.toNat < 0x100 then '\\' :: 'x' :: hexText 2 c.toNat
  else if c.toNat < 0x10000 then '\\' :: 'u' :: hexText 4 c.toNat
  else '\\' :: 'U' :: hexText 8 c.toNat

def contains (c : Char) : Text → Bool
  | .whole s => s.toList.contains c
  | .broken s _ rest => s.toList.contains c || contains c rest

/-- The quotes that a text is put between. -/
def quoteMark (s : Text) : Char :=
  if s.contains '\'' && !s.contains '"' then '"' else '\''

/-- A text as it stands between quotes. -/
def shown (mark : Char) : Text → List Char
  | .whole s => s.toList.flatMap (quotedChar mark)
  | .broken s c rest =>
    s.toList.flatMap (quotedChar mark) ++ '\\' :: 'u' :: hexText 4 c.code ++ shown mark rest

def quoted (s : Text) : String :=
  let mark := quoteMark s
  String.ofList (mark :: shown mark s ++ [mark])

def quotedList (texts : List Text) : String :=
  "[" ++ ", ".intercalate (texts.map quoted) ++ "]"

end ConversationFlow.Text
