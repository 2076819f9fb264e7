/-!
# Random ids

The text of a random id: 32 digits of base sixteen in five groups. One digit tells how the id was
made, another one which of its bits are free; the remaining 122 bits are random.
-/

namespace ConversationFlow.Identity

def groupLengths : List Nat := [8, 4, 4, 4, 12]

/-- Digits of base sixteen, the last one first. -/
def digits : (count bits : Nat) → List Nat
  | 0, _ => []
  | count + 1, bits => bits % 16 :: digits count (bits / 16)

/-- The digits of a random id: the thirteenth is 4, and the seventeenth lies between 8 and 11. -/
def fixed (ds : List Nat) : List Nat :=
  (ds.set 12 4).modify 16 fun d => 8 + d % 4

/-- Characters in groups with dashes between them. -/
def grouped : List Nat → List Char → List Char
  | [], cs => cs
  | [_], cs => cs
  | n :: more, cs => cs.take n ++ '-' :: grouped more (cs.drop n)

def ofBits (bits : Nat) : String :=
  String.ofList (grouped groupLengths ((fixed (digits 32 bits)).map Nat.digitChar))

def dashes : List Nat := [8, 13, 18, 23]

/-- Whether a text has the form of an id: digits in small letters, with dashes between the groups. -/
def isCanonical (s : String) : Bool :=
  s.length == 36 && s.toList.zipIdx.all fun (c, position) =>
    if dashes.contains position then c = '-' else c.isDigit || ('a' ≤ c && c ≤ 'f')

def version? (s : String) : Option Nat :=
  s.toList[14]?.map fun c => c.toNat - 48

end ConversationFlow.Identity
