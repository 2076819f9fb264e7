import ConversationFlow.Schema.Reading
import ConversationFlow.Text.Blank

/-!
# Reading plain values

Readers for texts, integers, truth values, choices and timestamps. Integers and truth values are also
read from numbers of the other kind and from texts, where that loses nothing. A text in which a
surrogate stands is a text and nothing else.
-/

namespace ConversationFlow.Schema

open Text

def anything (v : Json) : Reading Json :=
  .accepted v

def text : Json → Reading Text
  | .str s => .accepted s
  | v => .refuse .notText v

/-- Digits in groups with a single underscore between two of them; `opened` tells whether a group
has begun. -/
def ungroup? : (opened : Bool) → List Char → Option (List Char)
  | opened, [] => if opened then some [] else none
  | opened, c :: rest =>
    if c.isDigit then (ungroup? true rest).map (c :: ·)
    else if c = '_' ∧ opened then ungroup? false rest
    else none

/-- The digits of a text without its sign: an integer, after which a point and zeros may stand. -/
def wholeDigits? (s : List Char) : Option (List Char) :=
  let fraction := s.dropWhile (· ≠ '.')
  if fraction.isEmpty || (1 < fraction.length && (fraction.drop 1).all (· = '0')) then
    ungroup? false (s.takeWhile (· ≠ '.'))
  else none

/-- The integer that a text without blanks around it holds. -/
def integerOfText? : List Char → Option Int
  | '-' :: rest => (wholeDigits? rest).map fun digits => -(Nat.ofDigitChars 10 digits 0 : Int)
  | '+' :: rest => (wholeDigits? rest).map fun digits => (Nat.ofDigitChars 10 digits 0 : Int)
  | s => (wholeDigits? s).map fun digits => (Nat.ofDigitChars 10 digits 0 : Int)

/-- The greatest number of characters of an integer in a text. -/
def integerTextLimit : Nat := 4300

def isInt64 (n : Int) : Bool :=
  -9223372036854775808 ≤ n && n ≤ 9223372036854775807

/-- An integer, also a truth value, a whole number of less than 64 bits, or a text. -/
def integer (v : Json) : Reading Int :=
  match v with
  | .int n => .accepted n
  | .bool b => .accepted (if b then 1 else 0)
  | .float x =>
    match x with
    | .finite _ _ =>
      match x.integer? with
      | none => .refuse .fractionalInteger v
      | some n =>
        if -9223372036854775808 < n ∧ n < 9223372036854775808 then .accepted n
        else .refuse .integerSize v
    | _ => .refuse .notFinite v
  | .str (.broken _ _ _) => .refuse .notUnicode v
  | .str (.whole s) =>
    let trimmed := trim isWhiteSpace s.toList
    if integerTextLimit < trimmed.length then .refuse .integerSize v
    else
      match integerOfText? trimmed with
      | some n => .accepted n
      | none => .refuse .integerText v
  | _ => .refuse .notInteger v

def falseTexts : List Text := ["0", "off", "f", "false", "n", "no"]

def trueTexts : List Text := ["1", "on", "t", "true", "y", "yes"]

/-- The truth value of an integer: 0 or 1, and not of any other one of 64 bits. -/
def booleanOfInteger (v : Json) (n : Int) : Reading Bool :=
  if n = 0 then .accepted false
  else if n = 1 then .accepted true
  else if isInt64 n then .refuse .booleanText v
  else .refuse .notBoolean v

/-- A truth value, also 0 or 1 or one of the texts for them. -/
def boolean (v : Json) : Reading Bool :=
  match v with
  | .bool b => .accepted b
  | .int n => booleanOfInteger v n
  | .float x =>
    match x.integer? with
    | some n => booleanOfInteger v n
    | none => .refuse .notBoolean v
  | .str (.broken _ _ _) => .refuse .notUnicode v
  | .str (.whole s) =>
    let folded := foldCase s
    if folded ∈ falseTexts then .accepted false
    else if folded ∈ trueTexts then .accepted true
    else .refuse .booleanText v
  | _ => .refuse .notBoolean v

/-- A type of which every value has a name. -/
class Choice (α : Type) where
  all : List α
  name : α → String

namespace Choice

variable {α : Type} [Choice α]

def ofName? (s : Text) : Option α :=
  (all : List α).find? fun a => name a = s

def names (α : Type) [Choice α] : List Text :=
  (all : List α).map fun a => name a

end Choice

/-- A name of one of the values of a type. -/
def choice {α : Type} [Choice α] (v : Json) : Reading α :=
  match v with
  | .str (.broken _ _ _) => .refuse .notUnicode v
  | .str (.whole s) =>
    match Choice.ofName? s with
    | some a => .accepted a
    | none => .refuse (.notChoice (Choice.names α)) v
  | _ => .refuse (.notChoice (Choice.names α)) v

/-- A name of one of the members of a closed set. -/
def member {α : Type} [Choice α] (v : Json) : Reading α :=
  match v with
  | .str (.broken _ _ _) => .refuse .notUnicode v
  | .str (.whole s) =>
    match Choice.ofName? s with
    | some a => .accepted a
    | none => .refuse (.notMember (Choice.names α)) v
  | _ => .refuse (.notMember (Choice.names α)) v

def ofTimestamp (v : Json) : Except Timestamp.Refusal Timestamp → Reading Timestamp
  | .ok t => .accepted t
  | .error refusal => .refuse (.timestamp refusal) v

/-- A timestamp: a number or a text. A value of more than 64 bits counts as a binary64 number, one
in a text is none. -/
def timestamp (source : Source) (v : Json) : Reading Timestamp :=
  match v with
  | .int n =>
    if isInt64 n then ofTimestamp v ((Timestamp.ofInteger n).mapError .value)
    else
      match source, Binary64.ofInt n with
      | .text, _ => .refuse (.timestamp (.value .kind)) v
      | _, .finite negative m =>
        ofTimestamp v ((Timestamp.ofBinary64 (.finite negative m)).mapError .value)
      | _, _ => .refuse (.timestamp (.value .kind)) v
  | .float x => ofTimestamp v ((Timestamp.ofBinary64 x).mapError .value)
  | .str (.broken _ _ _) => .refuse .notUnicode v
  | .str (.whole s) => ofTimestamp v (Timestamp.ofText s)
  | _ => .refuse (.timestamp (.value .kind)) v

end ConversationFlow.Schema
