import ConversationFlow.Host
import ConversationFlow.Json.Printer
import ConversationFlow.Text.Blank
import ConversationFlow.Text.Digit

/-!
# Values of the editor

How a node takes values that an author may have left in any form: the integer that a value begins
with, and the text that stands for a value.
-/

namespace ConversationFlow.Compile

open Text

/-- The integer of a sign and digits. -/
def integerOfDigits (negative : Bool) (digits : List Nat) : Except Obstacle Int :=
  if digitLimit < digits.length then .error (.longNumeral digits.length)
  else .ok (Binary64.signed negative (ofDigits digits))

/-- The integer that a text begins with, after blanks; 0 if it does not begin with one. -/
def leadingInteger (s : List Char) : Except Obstacle Int :=
  match s.dropWhile isBlank with
  | '-' :: rest => integerOfDigits true (takeDigits rest).1
  | '+' :: rest => integerOfDigits false (takeDigits rest).1
  | rest => integerOfDigits false (takeDigits rest).1

/-- Whether an integer has more digits than are written. -/
def exceedsDigits (n : Int) : Bool :=
  digitLimit < (digitsOf n.natAbs).length

/-- Whether a part of a value counts among those that lie within each other: lists and objects do, and
every part does where a value is written plainly. -/
def takesRoom (form : Form) : Json → Bool
  | .arr _ | .obj _ => true
  | .null | .bool _ | .int _ | .float _ | .str _ => form = .plain

variable [Host]

/-- The obstacle to writing a value that lies within `around` others, if there are too many of them. -/
def depthObstacle? (form : Form) (around : Nat) (v : Json) : Option Obstacle :=
  if takesRoom form v && Host.room form < around then some (.nested form) else none

mutual

/-- The first obstacle that is met when a value is written that lies within `around` others. -/
def obstacle? (form : Form) : (around : Nat) → Json → Option Obstacle
  | around, .int n =>
    (depthObstacle? form around (.int n)).or (if exceedsDigits n then some .longInteger else none)
  | around, .arr items =>
    (depthObstacle? form around (.arr items)).or (obstacleOfItems? form (around + 1) items)
  | around, .obj fields =>
    (depthObstacle? form around (.obj fields)).or (obstacleOfFields? form (around + 1) fields)
  | around, .null => depthObstacle? form around .null
  | around, .bool b => depthObstacle? form around (.bool b)
  | around, .float x => depthObstacle? form around (.float x)
  | around, .str s => depthObstacle? form around (.str s)
termination_by structural _ v => v

def obstacleOfItems? (form : Form) : (around : Nat) → List Json → Option Obstacle
  | _, [] => none
  | around, item :: rest =>
    (obstacle? form around item).or (obstacleOfItems? form around rest)
termination_by structural _ items => items

def obstacleOfFields? (form : Form) : (around : Nat) → List (Text × Json) → Option Obstacle
  | _, [] => none
  | around, field :: rest =>
    (obstacleOfField? form around field).or (obstacleOfFields? form around rest)
termination_by structural _ fields => fields

def obstacleOfField? (form : Form) : (around : Nat) → Text × Json → Option Obstacle
  | around, (_, value) => obstacle? form around value
termination_by structural _ field => field

end

/-- The text of a value, none of null: a text as it is, a list or an object as a document on one
line, and names for the two truth values. -/
def asText : Json → Option Text
  | .null => none
  | .bool b => some (if b then "True" else "False")
  | .int n => some (String.ofList (integerText n))
  | .float x => some (String.ofList (Json.floatText "inf" "nan" x))
  | .str s => some s
  | v => some v.compactText

/-- The text of a value, which may meet an obstacle while it is written. -/
def writeText (v : Json) : Except Obstacle (Option Text) :=
  match obstacle? .document 0 v with
  | some obstacle => .error obstacle
  | none => .ok (asText v)

/-- The integer of a value: a number without its fraction, or what a text begins with before the first
surrogate. Every other value counts as 0; a list or an object is written plainly before it is read, and
what is written begins with no integer. -/
def parseInt : Json → Except Obstacle Int
  | .int n => .ok n
  | .float x => .ok (x.truncate?.getD 0)
  | .str s => leadingInteger s.start.toList
  | .null | .bool _ => .ok 0
  | v =>
    match obstacle? .plain 0 v with
    | some obstacle => .error obstacle
    | none => .ok 0

end ConversationFlow.Compile
