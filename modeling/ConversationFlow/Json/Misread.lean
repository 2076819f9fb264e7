import ConversationFlow.Text.Symbol

/-!
# Why a text is no JSON document

The reasons for which the reader refuses a text, and the place it points to: a line and a column,
both counted in bytes, of the byte at which the text went wrong.
-/

namespace ConversationFlow.Json

open Text

inductive Reason where
  | endInValue
  | endInList
  | endInObject
  | endInString
  | expectedValue
  | expectedIdent
  | invalidNumber
  | numberOutOfRange
  | keyNotString
  | expectedColon
  | expectedListEnd
  | expectedObjectEnd
  | trailingComma
  | trailingCharacters
  | controlCharacter
  | invalidEscape
  | loneSurrogate
  | unexpectedHexEnd
  | invalidCodePoint
  | nestedTooDeep
deriving DecidableEq, Repr

def Reason.text : Reason → String
  | .endInValue => "EOF while parsing a value"
  | .endInList => "EOF while parsing a list"
  | .endInObject => "EOF while parsing an object"
  | .endInString => "EOF while parsing a string"
  | .expectedValue => "expected value"
  | .expectedIdent => "expected ident"
  | .invalidNumber => "invalid number"
  | .numberOutOfRange => "number out of range"
  | .keyNotString => "key must be a string"
  | .expectedColon => "expected `:`"
  | .expectedListEnd => "expected `,` or `]`"
  | .expectedObjectEnd => "expected `,` or `\x7d`"
  | .trailingComma => "trailing comma"
  | .trailingCharacters => "trailing characters"
  | .controlCharacter => "control character (\\u0000-\\u001F) found while parsing a string"
  | .invalidEscape => "invalid escape"
  | .loneSurrogate => "lone leading surrogate in hex escape"
  | .unexpectedHexEnd => "unexpected end of hex escape"
  | .invalidCodePoint => "invalid unicode code point"
  | .nestedTooDeep => "recursion limit exceeded"

/-- A reason and how many bytes are left from the one at which the text went wrong. -/
structure Fault where
  reason : Reason
  left : Nat
deriving DecidableEq, Repr

/-- A reason and the line and column it points to. -/
structure Misread where
  reason : Reason
  line : Nat
  column : Nat
deriving DecidableEq, Repr

/-- The number of line feeds up to the byte at `index`, and the index after the last of them, for
symbols of which the first is at `position`. -/
def lineAt (index : Nat) : (position line start : Nat) → List Symbol → Nat × Nat
  | _, line, start, [] => (line, start)
  | position, line, start, symbol :: rest =>
    if index < position then (line, start)
    else if symbol = .char '\n' then
      lineAt index (position + symbol.size) (line + 1) (position + 1) rest
    else lineAt index (position + symbol.size) line start rest

/-- The place of a fault in a text: a line feed belongs to the line that it opens. -/
def Misread.ofFault (whole : List Symbol) (fault : Fault) : Misread :=
  let total := byteCount whole
  let index := total - fault.left
  let (line, start) := lineAt index 0 1 0 whole
  ⟨fault.reason, line, min (index + 1) total - start⟩

def Misread.message (m : Misread) : String :=
  "Invalid JSON: " ++ m.reason.text ++ " at line " ++ toString m.line ++ " column " ++
    toString m.column

end ConversationFlow.Json
