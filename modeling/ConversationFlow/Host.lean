/-!
# The host of a program

What a program leaves to the host that it runs on: how far a value may be nested before the host
gives up writing it. The obstacles that a conversion between integers, texts and values may meet are
listed here.
-/

namespace ConversationFlow

/-- The forms in which a value is written inside a text: as a document, or plainly, as the host itself
shows a value. -/
inductive Form where
  | document
  | plain
deriving DecidableEq, Repr

/-- A host writes a value in a form as long as no part of it lies within more than `room` others. -/
class Host where
  room : Form → Nat

/-- What keeps a value from being converted: too many digits in a text that an integer is read from, an
integer with too many digits to be written, or a value that lies too deep to be written in a form. -/
inductive Obstacle where
  | longNumeral (count : Nat)
  | longInteger
  | nested (form : Form)
deriving DecidableEq, Repr

end ConversationFlow
