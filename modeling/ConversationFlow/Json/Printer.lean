import ConversationFlow.Json.Value
import ConversationFlow.Number.Layout

/-!
# Writing JSON

Two forms of a document. `pretty` is the one that is handed out: indented by two spaces, characters
as they are, numbers that are not finite as null. `compact` is the one that stands for a document
inside a text: on one line, in ASCII alone, with names for the numbers that are not finite.
-/

namespace ConversationFlow.Json

def hexDigit (n : Nat) : Char :=
  Nat.digitChar (n % 16)

def unicodeEscape (n : Nat) : List Char :=
  ['\\', 'u', hexDigit (n / 4096), hexDigit (n / 256), hexDigit (n / 16), hexDigit n]

/-- The escapes that both forms have in common; other characters are written by `other`. -/
def escaped (other : Char → List Char) (c : Char) : List Char :=
  if c = '"' then ['\\', '"']
  else if c = '\\' then ['\\', '\\']
  else if c = '\n' then ['\\', 'n']
  else if c = '\r' then ['\\', 'r']
  else if c = '\t' then ['\\', 't']
  else if c = '\x08' then ['\\', 'b']
  else if c = '\x0c' then ['\\', 'f']
  else if c.toNat < 0x20 then unicodeEscape c.toNat
  else other c

def rawChar (c : Char) : List Char := [c]

/-- A character of a string in ASCII, one beyond 16 bits as two surrogates. -/
def asciiChar (c : Char) : List Char :=
  let n := c.toNat
  if n < 0x7F then [c]
  else if n < 0x10000 then unicodeEscape n
  else
    unicodeEscape (0xD800 + (n - 0x10000) / 0x400) ++ unicodeEscape (0xDC00 + (n - 0x10000) % 0x400)

/-- The characters of a string, each written by `char` if it takes no escape, and surrogates as
escapes. -/
def quotable (char : Char → List Char) : Text → List Char
  | .whole s => s.toList.flatMap (escaped char)
  | .broken s c rest => s.toList.flatMap (escaped char) ++ unicodeEscape c.code ++ quotable char rest

def quote (char : Char → List Char) (s : Text) : List Char :=
  '"' :: quotable char s ++ ['"']

/-- The plain text of a binary64 number, with names for those that are not finite. -/
def floatText (infinite undefined : String) : Binary64 → List Char
  | .finite negative m => m.text .plain negative
  | .infinite negative => (if negative then ['-'] else []) ++ infinite.toList
  | .undefined => undefined.toList

mutual

def compact : Json → List Char
  | .null => "null".toList
  | .bool true => "true".toList
  | .bool false => "false".toList
  | .int n => integerText n
  | .float x => floatText "Infinity" "NaN" x
  | .str s => quote asciiChar s
  | .arr [] => ['[', ']']
  | .arr (item :: rest) => '[' :: (compact item ++ compactItems rest)
  | .obj [] => ['{', '}']
  | .obj (field :: rest) => '{' :: (compactField field ++ compactFields rest)
termination_by structural v => v

/-- The items of a list after its first one, and the closing bracket. -/
def compactItems : List Json → List Char
  | [] => [']']
  | item :: rest => [',', ' '] ++ compact item ++ compactItems rest
termination_by structural items => items

def compactFields : List (Text × Json) → List Char
  | [] => ['}']
  | field :: rest => [',', ' '] ++ compactField field ++ compactFields rest
termination_by structural fields => fields

def compactField : Text × Json → List Char
  | (key, value) => quote asciiChar key ++ [':', ' '] ++ compact value
termination_by structural field => field

end

def newLine (depth : Nat) : List Char :=
  '\n' :: List.replicate (2 * depth) ' '

/-- A binary64 number of a document that is handed out. -/
def documentFloat : Binary64 → List Char
  | .finite negative m => m.text .document negative
  | _ => "null".toList

mutual

/-- A document that starts at a depth, over several lines. -/
def pretty : (depth : Nat) → Json → List Char
  | _, .null => "null".toList
  | _, .bool true => "true".toList
  | _, .bool false => "false".toList
  | _, .int n => integerText n
  | _, .float x => documentFloat x
  | _, .str s => quote rawChar s
  | _, .arr [] => ['[', ']']
  | depth, .arr (item :: rest) =>
    '[' :: (newLine (depth + 1) ++ pretty (depth + 1) item ++ prettyItems depth rest)
  | _, .obj [] => ['{', '}']
  | depth, .obj (field :: rest) =>
    '{' :: (newLine (depth + 1) ++ prettyField (depth + 1) field ++ prettyFields depth rest)
termination_by structural _ v => v

/-- The items of a list after its first one, and the closing bracket. -/
def prettyItems : (depth : Nat) → List Json → List Char
  | depth, [] => newLine depth ++ [']']
  | depth, item :: rest =>
    ',' :: (newLine (depth + 1) ++ pretty (depth + 1) item ++ prettyItems depth rest)
termination_by structural _ items => items

def prettyFields : (depth : Nat) → List (Text × Json) → List Char
  | depth, [] => newLine depth ++ ['}']
  | depth, field :: rest =>
    ',' :: (newLine (depth + 1) ++ prettyField (depth + 1) field ++ prettyFields depth rest)
termination_by structural _ fields => fields

def prettyField : (depth : Nat) → Text × Json → List Char
  | depth, (key, value) => quote rawChar key ++ [':', ' '] ++ pretty depth value
termination_by structural _ field => field

end

/-- The text of a document that is handed out. -/
def documentText (v : Json) : String :=
  String.ofList (pretty 0 v)

/-- The text that stands for a document inside a text. -/
def compactText (v : Json) : String :=
  String.ofList (compact v)

end ConversationFlow.Json
