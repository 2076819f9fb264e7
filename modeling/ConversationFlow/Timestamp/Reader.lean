import ConversationFlow.Timestamp.Basic

/-!
# Reading timestamps

A timestamp is read from a number of seconds or milliseconds since the start of 1970, or from a text
that holds such a number, a date, or a date with a time.
-/

namespace ConversationFlow.Timestamp

-- Powers and sums of natural numbers are the built-in ones, whatever else is in scope.
attribute [local instance(high)] instPowNat Zero.ofOfNat0

inductive DateFault where
  | tooShort
  | yearCharacter
  | separator
  | monthCharacter
  | dayCharacter
  | monthRange
  | dayRange
  | trailing
  | tooLate
  | tooEarly
deriving DecidableEq, Repr

/-- What keeps a document from being a timestamp: the value itself, or its text as a date. -/
inductive Refusal where
  | value (fault : Fault)
  | text (fault : DateFault)
deriving DecidableEq, Repr

/-- The greatest number that counts seconds; beyond it milliseconds are counted. -/
def secondsLimit : Nat := 20000000000

def ofInteger (n : Int) : Except Fault Timestamp :=
  if n.natAbs ≤ secondsLimit then ofUnix n 0
  else ofUnix (n / 1000) (n % 1000 * 1000).toNat

/-- The whole seconds below a number of seconds and the microseconds above them. The fraction is
taken and scaled in binary64, so that half a microsecond as it is written counts as half. -/
def split (negative : Bool) (m : Magnitude) : Int × Nat :=
  let (num, den) := m.ratio
  let signed : Int := Binary64.signed negative num
  let seconds := signed / (den : Int)
  let part := (signed % (den : Int)).toNat
  let microseconds :=
    match Magnitude.ofRatio? part den with
    | some f =>
      match Magnitude.ofRatio? (f.ratio.1 * 1000000) f.ratio.2 with
      | some g => (2 * g.ratio.1 + g.ratio.2) / (2 * g.ratio.2)
      | none => 0
    | none => 0
  if 1000000 ≤ microseconds then (seconds + 1, 0) else (seconds, microseconds)

def ofBinary64 : Binary64 → Except Fault Timestamp
  | .undefined => .error .undefined
  | .infinite negative => .error (if negative then .tooEarly else .tooLate)
  | .finite negative m =>
    let (num, den) := m.ratio
    let seconds := if num ≤ secondsLimit * den then some m else Magnitude.ofRatio? num (den * 1000)
    match seconds with
    | some s => ofUnix (split negative s).1 (split negative s).2
    | none => .error .kind

def digit? : Option Char → Option Nat
  | some c => if c.isDigit then some (c.toNat - 48) else none
  | none => none

def twoDigits? : List Char → Option (Nat × List Char)
  | a :: b :: rest =>
    match digit? (some a), digit? (some b) with
    | some x, some y => some (10 * x + y, rest)
    | _, _ => none
  | _ => none

/-- A year, a month and a day with dashes between them, at the start of a text. A year 0 passes here
although no timestamp has it. -/
def datePrefix (s : List Char) : Except DateFault ((Nat × Nat × Nat) × List Char) :=
  if (s.map Char.utf8Size).sum < 10 then .error .tooShort
  else
    match digit? s[0]?, digit? s[1]?, digit? s[2]?, digit? s[3]? with
    | some y₁, some y₂, some y₃, some y₄ =>
      if s[4]? ≠ some '-' then .error .separator
      else
        match digit? s[5]?, digit? s[6]? with
        | some m₁, some m₂ =>
          if s[7]? ≠ some '-' then .error .separator
          else
            match digit? s[8]?, digit? s[9]? with
            | some d₁, some d₂ =>
              let year := 1000 * y₁ + 100 * y₂ + 10 * y₃ + y₄
              let month := 10 * m₁ + m₂
              let day := 10 * d₁ + d₂
              if daysInMonth year month = 0 then .error .monthRange
              else if day < 1 ∨ daysInMonth year month < day then .error .dayRange
              else .ok ((year, month, day), s.drop 10)
            | _, _ => .error .dayCharacter
        | _, _ => .error .monthCharacter
    | _, _, _, _ => .error .yearCharacter

/-- The microseconds of the digits of a fraction of a second; digits beyond the sixth are cut. -/
def fractionMicroseconds (digits : List Char) : Nat :=
  let kept := digits.take 6
  Nat.ofDigitChars 10 kept 0 * 10 ^ (6 - kept.length)

def secondsPart : List Char → Option ((Nat × Nat) × List Char)
  | ':' :: rest =>
    match twoDigits? rest with
    | some (second, left) =>
      match left with
      | '.' :: more | ',' :: more =>
        let digits := more.takeWhile Char.isDigit
        if digits.isEmpty then none
        else some ((second, fractionMicroseconds digits), more.dropWhile Char.isDigit)
      | _ => some ((second, 0), left)
    | none => none
  | rest => some ((0, 0), rest)

/-- The seconds of an offset of hours and minutes, after its sign. -/
def offsetSeconds? (s : List Char) : Option Int :=
  match twoDigits? s with
  | some (hours, rest) =>
    let minutes := match rest with
      | ':' :: more => twoDigits? more
      | more => twoDigits? more
    match minutes with
    | some (m, []) => if hours < 24 ∧ m < 60 then some (60 * (60 * hours + m) : Nat) else none
    | _ => none
  | none => none

def offsetPart : List Char → Option (Option Int)
  | [] => some none
  | ['Z'] | ['z'] => some (some 0)
  | '+' :: rest => (offsetSeconds? rest).map some
  | '-' :: rest => (offsetSeconds? rest).map fun n => some (-n)
  | c :: rest => if c.toNat = 0x2212 then (offsetSeconds? rest).map fun n => some (-n) else none

/-- A time of day with or without an offset, up to the end of a text. -/
def clock? (s : List Char) : Option Clock :=
  match twoDigits? s with
  | some (hour, ':' :: rest) =>
    match twoDigits? rest with
    | some (minute, more) =>
      match secondsPart more with
      | some ((second, microsecond), left) =>
        match offsetPart left with
        | some offset =>
          let clock : Clock := ⟨hour, minute, second, microsecond, offset⟩
          if clock.IsPossible then some clock else none
        | none => none
      | none => none
    | none => none
  | _ => none

/-- What follows a date: nothing, or a separator and a time of day. -/
def clockAfterDate? : List Char → Option Clock
  | [] => some ⟨0, 0, 0, 0, none⟩
  | c :: rest => if c = 'T' ∨ c = 't' ∨ c = ' ' ∨ c = '_' then clock? rest else none

/-- A number as a text may hold it: an integer of 64 bits, or a decimal with a point. -/
inductive Numeral where
  | integer (value : Int)
  | decimal (value : Binary64)

def greatestInteger : Nat := 9223372036854775807

/-- The power of ten after a decimal. -/
def powerPart : List Char → Option Int
  | [] => some 0
  | c :: rest =>
    if c = 'e' ∨ c = 'E' then
      let (negative, digits) := match rest with
        | '-' :: more => (true, more)
        | '+' :: more => (false, more)
        | more => (false, more)
      if digits.isEmpty || !digits.all Char.isDigit then none
      else some (Binary64.signed negative (Nat.ofDigitChars 10 digits 0))
    else none

def unsignedNumeral? (negative : Bool) (s : List Char) : Option Numeral :=
  let whole := s.takeWhile Char.isDigit
  let integer := Nat.ofDigitChars 10 whole 0
  if greatestInteger < integer then none
  else
    match s.dropWhile Char.isDigit with
    | [] => if whole.isEmpty then none else some (.integer (Binary64.signed negative integer))
    | '.' :: rest =>
      let places := rest.takeWhile Char.isDigit
      if whole.isEmpty && places.isEmpty then none
      else
        (powerPart (rest.dropWhile Char.isDigit)).map fun power =>
          .decimal (.ofDecimal negative (Nat.ofDigitChars 10 (whole ++ places) 0)
            (power - places.length))
    | _ => none

def numeral? : List Char → Option Numeral
  | '-' :: rest => unsignedNumeral? true rest
  | '+' :: rest => unsignedNumeral? false rest
  | s => unsignedNumeral? false s

/-- A fault of a number that came as a text: what is beyond the calendar is reported as a date. -/
def Fault.ofNumeral : Fault → Refusal
  | .tooLate => .text .tooLate
  | .tooEarly => .text .tooEarly
  | fault => .value fault

def ofText (text : String) : Except Refusal Timestamp :=
  let s := text.toList
  match datePrefix s with
  | .ok ((year, month, day), rest) =>
    match clockAfterDate? rest with
    | none => .error (.text .trailing)
    | some clock =>
      match (Date.ofParts? year month day).bind (ofParts? · clock) with
      | some t => .ok t
      | none => .error (.value .yearZero)
  | .error fault =>
    match numeral? s with
    | some (.integer n) => (ofInteger n).mapError Fault.ofNumeral
    | some (.decimal x) => (ofBinary64 x).mapError Fault.ofNumeral
    | none => .error (.text fault)

end ConversationFlow.Timestamp
