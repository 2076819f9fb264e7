import ConversationFlow.Number.Layout

/-!
# Timestamps

Dates of the Gregorian calendar in the years 1 to 9999 and times of day to the microsecond, with the
offset from UTC or without one. Only dates and times that exist can be built.
-/

namespace ConversationFlow

def isLeapYear (year : Nat) : Bool :=
  year % 4 == 0 && (year % 100 != 0 || year % 400 == 0)

/-- The number of days of a month; no month beyond the twelfth has any. -/
def daysInMonth (year month : Nat) : Nat :=
  match month with
  | 1 | 3 | 5 | 7 | 8 | 10 | 12 => 31
  | 4 | 6 | 9 | 11 => 30
  | 2 => if isLeapYear year then 29 else 28
  | _ => 0

structure Date where
  year : Nat
  month : Nat
  day : Nat
  valid : 1 ≤ year ∧ year ≤ 9999 ∧ 1 ≤ day ∧ day ≤ daysInMonth year month
deriving DecidableEq

def Date.ofParts? (year month day : Nat) : Option Date :=
  if h : 1 ≤ year ∧ year ≤ 9999 ∧ 1 ≤ day ∧ day ≤ daysInMonth year month then
    some ⟨year, month, day, h⟩
  else none

/-- The day that lies `days` days after the first of March of the year 0. Years are counted from
March, so that the day that comes and goes is the last one of its year. -/
def Date.ofDayNumber? (days : Nat) : Option Date :=
  let era := days / 146097
  let dayOfEra := days % 146097
  let yearOfEra := (dayOfEra - dayOfEra / 1460 + dayOfEra / 36524 - dayOfEra / 146096) / 365
  let dayOfYear := dayOfEra - (365 * yearOfEra + yearOfEra / 4 - yearOfEra / 100)
  let shifted := (5 * dayOfYear + 2) / 153
  let day := dayOfYear - (153 * shifted + 2) / 5 + 1
  let month := if shifted < 10 then shifted + 3 else shifted - 9
  let year := 400 * era + yearOfEra + if month ≤ 2 then 1 else 0
  Date.ofParts? year month day

/-- A time of day, with the seconds that it is ahead of UTC if that is known. -/
structure Clock where
  hour : Nat
  minute : Nat
  second : Nat
  microsecond : Nat
  offset : Option Int
deriving DecidableEq

/-- The parts of a clock that a day has room for; offsets are less than a day. -/
def Clock.IsPossible (c : Clock) : Prop :=
  c.hour < 24 ∧ c.minute < 60 ∧ c.second < 60 ∧ c.microsecond < 1000000 ∧
    (c.offset.getD 0).natAbs < 86400

instance (c : Clock) : Decidable c.IsPossible := by
  unfold Clock.IsPossible
  infer_instance

structure Timestamp where
  date : Date
  clock : Clock
  possible : clock.IsPossible
deriving DecidableEq

namespace Timestamp

def ofParts? (date : Date) (clock : Clock) : Option Timestamp :=
  if h : clock.IsPossible then some ⟨date, clock, h⟩ else none

inductive Fault where
  | kind
  | yearZero
  | tooLate
  | tooEarly
  | undefined
deriving DecidableEq, Repr

/-- The timestamp so many seconds and microseconds after the start of 1970, in UTC. -/
def ofUnix (seconds : Int) (microseconds : Nat) : Except Fault Timestamp :=
  if 253402300799 < seconds then .error .tooLate
  else if seconds < -62167219200 then .error .tooEarly
  else
    let days := (seconds / 86400 + 719468).toNat
    let rest := (seconds % 86400).toNat
    let clock : Clock := ⟨rest / 3600, rest / 60 % 60, rest % 60, microseconds, some 0⟩
    match (Date.ofDayNumber? days).bind (ofParts? · clock) with
    | some t => .ok t
    | none => .error .yearZero

def padded (width n : Nat) : List Char :=
  let digits := digitsOf n
  List.replicate (width - digits.length) '0' ++ digits

/-- The offset of a clock: `Z` for none at all from UTC, else its whole minutes. -/
def offsetText : Option Int → List Char
  | none => []
  | some 0 => ['Z']
  | some seconds =>
    let n := seconds.natAbs / 60
    (if seconds < 0 then '-' else '+') :: (padded 2 (n / 60) ++ ':' :: padded 2 (n % 60))

/-- The text of a timestamp; microseconds are written if there are any. -/
def text (t : Timestamp) : String :=
  let c := t.clock
  String.ofList <|
    padded 4 t.date.year ++ '-' :: padded 2 t.date.month ++ '-' :: padded 2 t.date.day ++
      'T' :: padded 2 c.hour ++ ':' :: padded 2 c.minute ++ ':' :: padded 2 c.second ++
      (if c.microsecond = 0 then [] else '.' :: padded 6 c.microsecond) ++ offsetText c.offset

end Timestamp

end ConversationFlow
