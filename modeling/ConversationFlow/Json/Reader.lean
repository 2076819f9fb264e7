import ConversationFlow.Json.Misread
import ConversationFlow.Json.Value

/-!
# Reading JSON

The reader of JSON texts over the symbols of a byte text. A text is refused at the first byte at
which it cannot go on; the bytes of a string are decoded only once its closing quote is found, so
what is wrong with its form comes before what is wrong with its encoding.
-/

namespace ConversationFlow.Json

open Text

/-- The greatest number of containers within each other, and of characters of an integer; and whether
an escape may stand for a surrogate that is no part of a pair. -/
structure Limits where
  nesting : Nat
  integerLength : Nat
  surrogates : Bool

/-- The limits for documents that come from outside. -/
def Limits.document : Limits := ⟨200, 4300, false⟩

/-- Limits that a text of a given length cannot reach. -/
def Limits.none (length : Nat) : Limits := ⟨length + 1, length + 1, true⟩

/-- What is read from the start of a text, with the rest of it. -/
abbrev Read (α : Type) := Except Fault (α × List Symbol)

/-- What was read handed on together with what is left. -/
def step {α β : Type} (r : Read α) (go : α → List Symbol → Except Fault β) : Except Fault β :=
  match r with
  | .ok (a, left) => go a left
  | .error fault => .error fault

def mapRead {α β : Type} (f : α → β) (r : Read α) : Read β :=
  step r fun a left => .ok (f a, left)

def refuse {α : Type} (reason : Reason) (left : List Symbol) : Except Fault α :=
  .error ⟨reason, byteCount left⟩

def isSpace : Symbol → Bool
  | .char c => c == ' ' || c == '\t' || c == '\n' || c == '\r'
  | .stray _ => false

def skipSpace (s : List Symbol) : List Symbol :=
  s.dropWhile isSpace

/-- A text after a word that it has to go on with. -/
def word : List Char → List Symbol → Except Fault (List Symbol)
  | [], s => .ok s
  | _, [] => refuse .endInValue []
  | c :: cs, s :: rest => if s = .char c then word cs rest else refuse .expectedIdent (s :: rest)

def spanDigits : List Symbol → List Char × List Symbol
  | .char c :: rest =>
    if c.isDigit then (c :: (spanDigits rest).1, (spanDigits rest).2) else ([], .char c :: rest)
  | s => ([], s)

def digitsValue (digits : List Char) : Nat :=
  Nat.ofDigitChars 10 digits 0

/-- One digit or more. -/
def digits1 (s : List Symbol) : Read (List Char) :=
  match s, spanDigits s with
  | [], _ => refuse .endInValue []
  | s, ([], _) => refuse .invalidNumber s
  | _, (digits, rest) => .ok (digits, rest)

def exponent (s : List Symbol) : Read Int :=
  match s with
  | .char '-' :: rest => mapRead (fun digits => -(digitsValue digits : Int)) (digits1 rest)
  | .char '+' :: rest => mapRead (fun digits => (digitsValue digits : Int)) (digits1 rest)
  | s => mapRead (fun digits => (digitsValue digits : Int)) (digits1 s)

/-- A binary64 number after its integer part and the digits of its fraction. -/
def scaled (negative : Bool) (whole places : List Char) (s : List Symbol) : Read Json :=
  let number (power : Int) : Json :=
    .float (.ofDecimal negative (digitsValue (whole ++ places)) (power - places.length))
  match s with
  | .char 'e' :: rest | .char 'E' :: rest => mapRead number (exponent rest)
  | _ => .ok (number 0, s)

/-- A number after its integer part: with a fraction or an exponent it is a binary64 number. -/
def fraction (negative : Bool) (whole : List Char) (s : List Symbol) : Read Json :=
  match s with
  | .char '.' :: rest => step (digits1 rest) fun places left => scaled negative whole places left
  | .char 'e' :: _ | .char 'E' :: _ => scaled negative whole [] s
  | _ => .ok (.int (Binary64.signed negative (digitsValue whole)), s)

def unsigned (limit : Nat) (negative : Bool) (s : List Symbol) : Read Json :=
  match s with
  | [] => refuse .endInValue []
  | .char '0' :: rest =>
    match rest with
    | .char d :: _ => if d.isDigit then refuse .invalidNumber rest else fraction negative ['0'] rest
    | _ => fraction negative ['0'] rest
  | .char 'I' :: rest =>
    if negative then (word "nfinity".toList rest).map (Json.float (.infinite true), ·)
    else refuse .invalidNumber s
  | s =>
    match spanDigits s with
    | ([], _) => refuse .invalidNumber s
    | (digits, rest) =>
      let length := digits.length + (if negative then 1 else 0)
      if limit < length then refuse .numberOutOfRange (s.drop (limit + 1 - (length - digits.length)))
      else fraction negative digits rest

def hexValue? : Symbol → Option Nat
  | .char c =>
    if c.isDigit then some (c.toNat - 48)
    else if 'a' ≤ c && c ≤ 'f' then some (c.toNat - 87)
    else if 'A' ≤ c && c ≤ 'F' then some (c.toNat - 55)
    else none
  | .stray _ => none

def hasBytes : Nat → List Symbol → Bool
  | 0, _ => true
  | _ + 1, [] => false
  | n + 1, s :: rest => hasBytes (n + 1 - s.size) rest

def hexDigits : (count value : Nat) → List Symbol → Except Fault Nat
  | 0, value, _ => .ok value
  | _ + 1, _, [] => refuse .endInString []
  | count + 1, value, s :: rest =>
    match hexValue? s with
    | some d => hexDigits count (16 * value + d) rest
    | none => refuse .invalidEscape (s :: rest)

def hex4 (s : List Symbol) : Except Fault Nat :=
  if hasBytes 4 s then hexDigits 4 0 s else refuse .endInString []

/-- What a string holds at one place. -/
inductive Point where
  | char (c : Char)
  | surrogate (c : Surrogate)
  | stray (byte : UInt8)

/-- The character of a high surrogate and of what has to be an escape with a low one. -/
def pairEscape (high : Nat) (s : List Symbol) : Except Fault (Point × Nat) :=
  match s with
  | .char '\\' :: .char 'u' :: rest =>
    match hex4 rest with
    | .error fault => .error fault
    | .ok low =>
      if 0xDC00 ≤ low ∧ low ≤ 0xDFFF then
        .ok (.char (Char.ofNat ((high - 0xD800) * 0x400 + (low - 0xDC00) + 0x10000)), 10)
      else refuse .loneSurrogate (rest.drop 3)
  | [] | [.char '\\'] => refuse .endInString []
  | .char '\\' :: rest => refuse .unexpectedHexEnd rest
  | rest => refuse .unexpectedHexEnd rest

/-- A surrogate by itself, where one may stand. -/
def orLone (surrogates : Bool) (code : Nat) (r : Except Fault (Point × Nat)) :
    Except Fault (Point × Nat) :=
  match r with
  | .ok point => .ok point
  | .error fault =>
    if surrogates then .ok (.surrogate (Fin.ofNat 0x800 (code - 0xD800)), 4) else .error fault

/-- The point of an escape with digits, and how many symbols follow the letter in it. A high surrogate
goes with a second escape with a low one. -/
def hexEscape (surrogates : Bool) (s : List Symbol) : Except Fault (Point × Nat) :=
  match hex4 s with
  | .error fault => .error fault
  | .ok n =>
    if 0xDC00 ≤ n ∧ n ≤ 0xDFFF then orLone surrogates n (refuse .loneSurrogate (s.drop 3))
    else if 0xD800 ≤ n ∧ n ≤ 0xDBFF then orLone surrogates n (pairEscape n (s.drop 4))
    else .ok (.char (Char.ofNat n), 4)

/-- The point of an escape, and how many symbols follow the backslash in it. -/
def escape (surrogates : Bool) (s : List Symbol) : Except Fault (Point × Nat) :=
  match s with
  | [] => refuse .endInString []
  | .char '"' :: _ => .ok (.char '"', 1)
  | .char '\\' :: _ => .ok (.char '\\', 1)
  | .char '/' :: _ => .ok (.char '/', 1)
  | .char 'b' :: _ => .ok (.char '\x08', 1)
  | .char 'f' :: _ => .ok (.char '\x0c', 1)
  | .char 'n' :: _ => .ok (.char '\n', 1)
  | .char 'r' :: _ => .ok (.char '\r', 1)
  | .char 't' :: _ => .ok (.char '\t', 1)
  | .char 'u' :: rest => (hexEscape surrogates rest).map fun (point, n) => (point, n + 1)
  | s => refuse .invalidEscape s

/-- What a string holds up to its closing quote, the first `skip` symbols belonging to an escape
before. -/
def content (surrogates : Bool) : (skip : Nat) → List Symbol → Read (List Point)
  | _, [] => refuse .endInString []
  | skip + 1, _ :: rest => content surrogates skip rest
  | 0, .stray b :: rest => mapRead (.stray b :: ·) (content surrogates 0 rest)
  | 0, .char c :: rest =>
    if c = '"' then .ok ([], rest)
    else if c = '\\' then
      match escape surrogates rest with
      | .ok (point, n) => mapRead (point :: ·) (content surrogates n rest)
      | .error fault => .error fault
    else if c.toNat < 0x20 then refuse .controlCharacter (.char c :: rest)
    else mapRead (.char c :: ·) (content surrogates 0 rest)

/-- The text of what a string holds after characters, which come with the last one first; or how many
bytes lie before the first one that belongs to no character. -/
def textFrom (before : List Char) : List Point → Except Nat Text
  | [] => .ok (.whole (String.ofList before.reverse))
  | .stray _ :: _ => .error 0
  | .surrogate c :: rest => (textFrom [] rest).map (.broken (String.ofList before.reverse) c)
  | .char c :: rest => (textFrom (c :: before) rest).mapError (c.utf8Size + ·)

def quoted (surrogates : Bool) (s : List Symbol) : Read Text :=
  step (content surrogates 0 s) fun points rest =>
    match textFrom [] points with
    | .ok text => .ok (text, rest)
    | .error n => .error ⟨.invalidCodePoint, byteCount s - n⟩

/-- The object of the fields, of which a later one with the same key replaces an earlier one. -/
def object (fields : List (Text × Json)) : Json :=
  .obj (fields.foldl (fun done field => putEntry field.1 field.2 done) [])

/-- A document that is no list and no object, from its first symbol on. -/
def scalar (limits : Limits) (s : List Symbol) : Read Json :=
  match s with
  | [] => refuse .endInValue []
  | .char '"' :: rest => mapRead .str (quoted limits.surrogates rest)
  | .char 't' :: rest => (word "rue".toList rest).map (.bool true, ·)
  | .char 'f' :: rest => (word "alse".toList rest).map (.bool false, ·)
  | .char 'n' :: rest => (word "ull".toList rest).map (.null, ·)
  | .char 'N' :: rest => (word "aN".toList rest).map (.float .undefined, ·)
  | .char 'I' :: rest => (word "nfinity".toList rest).map (.float (.infinite false), ·)
  | .char '-' :: rest => unsigned limits.integerLength true rest
  | .char c :: _ =>
    if c.isDigit then unsigned limits.integerLength false s else refuse .expectedValue s
  | .stray _ :: _ => refuse .expectedValue s

mutual

/-- A document after spaces. The fuel is at least twice the number of symbols. -/
def document (limits : Limits) : (fuel depth : Nat) → List Symbol → Read Json
  | 0, _, _ => refuse .endInValue []
  | fuel + 1, depth, s =>
    match skipSpace s with
    | .char '[' :: rest =>
      match skipSpace rest with
      | [] => refuse .endInList []
      | .char ']' :: left => .ok (.arr [], left)
      | more => mapRead .arr (elements limits fuel depth more)
    | .char '{' :: rest =>
      match skipSpace rest with
      | [] => refuse .endInObject []
      | .char '}' :: left => .ok (.obj [], left)
      | .char '"' :: more => mapRead object (members limits fuel depth more)
      | more => refuse .keyNotString more
    | more => scalar limits more

/-- The items of a list from its first one on, up to the closing bracket. -/
def elements (limits : Limits) : (fuel depth : Nat) → List Symbol → Read (List Json)
  | 0, _, _ => refuse .endInValue []
  | _ + 1, 0, s => refuse .nestedTooDeep s
  | fuel + 1, depth + 1, s =>
    step (document limits fuel depth s) fun item rest =>
      match skipSpace rest with
      | [] => refuse .endInList []
      | .char ']' :: left => .ok ([item], left)
      | .char ',' :: more =>
        match skipSpace more with
        | [] => refuse .endInValue []
        | .char ']' :: left => refuse .trailingComma (.char ']' :: left)
        | next => mapRead (item :: ·) (elements limits fuel (depth + 1) next)
      | other => refuse .expectedListEnd other

/-- The fields of an object from the opening quote of its first key on, up to the closing brace. -/
def members (limits : Limits) : (fuel depth : Nat) → List Symbol → Read (List (Text × Json))
  | 0, _, _ => refuse .endInValue []
  | fuel + 1, depth, s =>
    step (quoted limits.surrogates s) fun key afterKey =>
      match skipSpace afterKey with
      | [] => refuse .endInObject []
      | .char ':' :: afterColon =>
        match skipSpace afterColon, depth with
        | [], _ => refuse .endInValue []
        | value, 0 => refuse .nestedTooDeep value
        | value, depth + 1 =>
          step (document limits fuel depth value) fun item rest =>
            match skipSpace rest with
            | [] => refuse .endInObject []
            | .char '}' :: left => .ok ([(key, item)], left)
            | .char ',' :: more =>
              match skipSpace more with
              | [] => refuse .endInValue []
              | .char '"' :: next => mapRead ((key, item) :: ·) (members limits fuel (depth + 1) next)
              | .char '}' :: left => refuse .trailingComma (.char '}' :: left)
              | other => refuse .keyNotString other
            | other => refuse .expectedObjectEnd other
      | other => refuse .expectedColon other

end

/-- A text that holds one document and nothing else but spaces. -/
def readWhole (limits : Limits) (s : List Symbol) : Except Fault Json :=
  step (document limits (2 * s.length + 2) limits.nesting s) fun value rest =>
    match skipSpace rest with
    | [] => .ok value
    | left => refuse .trailingCharacters left

def read (limits : Limits) (s : List Symbol) : Except Misread Json :=
  (readWhole limits s).mapError (Misread.ofFault s)

end ConversationFlow.Json
