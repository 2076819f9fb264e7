/-!
# Mistakes in JSON texts

A check of a text that says what was expected where it stops being a document, in characters from the
start. Strings may hold any escape of four digits here, and integers may have only so many digits.
-/

namespace ConversationFlow.Json

/-- What was expected, or what is wrong. -/
inductive Expected where
  | value
  | propertyName
  | colon
  | comma
  | finish
  | closingQuote
  | noControl
  | escape
  | hexEscape
  | shorterInteger
deriving DecidableEq, Repr

def Expected.message : Expected → String
  | value => "Expecting value"
  | propertyName => "Expecting property name enclosed in double quotes"
  | colon => "Expecting ':' delimiter"
  | comma => "Expecting ',' delimiter"
  | finish => "Extra data"
  | closingQuote => "Unterminated string starting at"
  | noControl => "Invalid control character at"
  | escape => "Invalid \\escape"
  | hexEscape => "Invalid \\uXXXX escape"
  | shorterInteger => "Too many digits"

/-- What was expected, and how many characters are left from the place of the mistake on. -/
structure Mistake where
  expected : Expected
  left : Nat
deriving DecidableEq, Repr

/-- What is left of a text after a part of a document, or the mistake in that part. -/
abbrev Rest := Except Mistake (List Char)

def mistake {α : Type} (expected : Expected) (s : List Char) : Except Mistake α :=
  .error ⟨expected, s.length⟩

def afterSpace (s : List Char) : List Char :=
  s.dropWhile fun c => c = ' ' || c = '\t' || c = '\n' || c = '\r'

def isHex (c : Char) : Bool :=
  c.isDigit || ('a' ≤ c && c ≤ 'f') || ('A' ≤ c && c ≤ 'F')

/-- What follows a string, of which the opening quote has `opening` characters from it on. -/
def afterString (opening : Nat) : List Char → Rest
  | [] => .error ⟨.closingQuote, opening⟩
  | ['\\'] => .error ⟨.closingQuote, opening⟩
  | '\\' :: 'u' :: a :: b :: c :: d :: rest =>
    if isHex a && isHex b && isHex c && isHex d && !rest.isEmpty then afterString opening rest
    else .error ⟨.hexEscape, rest.length + 5⟩
  | '\\' :: 'u' :: rest => .error ⟨.hexEscape, rest.length + 1⟩
  | '\\' :: c :: rest =>
    if "\"\\/bfnrt".toList.contains c then afterString opening rest
    else .error ⟨.escape, rest.length + 2⟩
  | c :: rest =>
    if c = '"' then .ok rest
    else if c.toNat < 0x20 then .error ⟨.noControl, rest.length + 1⟩
    else afterString opening rest

def afterDigits? (s : List Char) : Option (List Char) :=
  let rest := s.dropWhile Char.isDigit
  if rest.length < s.length then some rest else none

/-- What follows a fraction, or the text itself. -/
def afterFraction : List Char → List Char
  | '.' :: rest => (afterDigits? rest).getD ('.' :: rest)
  | s => s

def afterExponent (s : List Char) : List Char :=
  match s with
  | c :: rest =>
    if c = 'e' || c = 'E' then
      match rest with
      | '+' :: more | '-' :: more => (afterDigits? more).getD s
      | more => (afterDigits? more).getD s
    else s
  | [] => []

def afterInteger? : List Char → Option (List Char)
  | '0' :: rest => some rest
  | s => afterDigits? s

/-- What follows a number, which starts with `start` after its sign. -/
def afterNumber (limit : Nat) (start s : List Char) : Rest :=
  match afterInteger? s with
  | none => mistake .value start
  | some rest =>
    let final := afterExponent (afterFraction rest)
    if final.length = rest.length && limit < s.length - rest.length then
      mistake .shorterInteger start
    else .ok final

def names : List (List Char) :=
  ["null", "true", "false", "NaN", "Infinity", "-Infinity"].map String.toList

/-- What follows the name of a value, if a text begins with one. -/
def afterName? (s : List Char) : Option (List Char) :=
  (names.find? (·.isPrefixOf s)).map fun name => s.drop name.length

/-- What follows a value that is no string, no list and no object. -/
def afterScalar (limit : Nat) (s : List Char) : Rest :=
  match afterName? s with
  | some rest => .ok rest
  | none =>
    match s with
    | '-' :: rest => afterNumber limit s rest
    | _ => afterNumber limit s s

mutual

/-- What follows a value that a text begins with. The fuel is at least the number of characters. -/
def afterValue (limit : Nat) : (fuel : Nat) → List Char → Rest
  | 0, s => mistake .value s
  | fuel + 1, s =>
    match s with
    | '"' :: rest => afterString s.length rest
    | '[' :: rest =>
      match afterSpace rest with
      | ']' :: more => .ok more
      | more => afterItems limit fuel more
    | '{' :: rest =>
      match afterSpace rest with
      | '}' :: more => .ok more
      | more => afterMembers limit fuel more
    | s => afterScalar limit s

def afterItems (limit : Nat) : (fuel : Nat) → List Char → Rest
  | 0, s => mistake .value s
  | fuel + 1, s =>
    match afterValue limit fuel s with
    | .error e => .error e
    | .ok rest =>
      match afterSpace rest with
      | ']' :: more => .ok more
      | ',' :: more => afterItems limit fuel (afterSpace more)
      | more => mistake .comma more

def afterMembers (limit : Nat) : (fuel : Nat) → List Char → Rest
  | 0, s => mistake .propertyName s
  | fuel + 1, s =>
    match s with
    | '"' :: rest =>
      match afterString s.length rest with
      | .error e => .error e
      | .ok afterKey =>
        match afterSpace afterKey with
        | ':' :: value =>
          match afterValue limit fuel (afterSpace value) with
          | .error e => .error e
          | .ok rest =>
            match afterSpace rest with
            | '}' :: more => .ok more
            | ',' :: more => afterMembers limit fuel (afterSpace more)
            | more => mistake .comma more
        | more => mistake .colon more
    | s => mistake .propertyName s

end

/-- The first mistake of a text that should hold one document, with its position. -/
def firstMistake? (limit : Nat) (s : List Char) : Option (Expected × Nat) :=
  let found : Except Mistake Unit :=
    match afterValue limit (s.length + 1) (afterSpace s) with
    | .error e => .error e
    | .ok rest =>
      match afterSpace rest with
      | [] => .ok ()
      | more => mistake .finish more
  match found with
  | .ok _ => none
  | .error e => some (e.expected, s.length - e.left)

end ConversationFlow.Json
