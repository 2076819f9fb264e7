/-!
# Binary64 numbers

The numbers of the binary interchange format of 64 bits, held exactly: a finite magnitude is an
integer times a power of two, written in one canonical way, so equal numbers are equal values. A
rational or a decimal is rounded to the nearest magnitude, a tie to the even one.
-/

namespace ConversationFlow

-- Powers of natural numbers are the built-in ones, whatever else is in scope.
attribute [local instance(high)] instPowNat

/-- At most 53 bits, an exponent of the format, and all bits used save at the least exponent. -/
def IsCanonical (significand : Nat) (exponent : Int) : Prop :=
  significand < 2 ^ (53 : Nat) ∧ -1074 ≤ exponent ∧ exponent ≤ 971 ∧
    (exponent = -1074 ∨ 2 ^ (52 : Nat) ≤ significand)

instance (significand : Nat) (exponent : Int) : Decidable (IsCanonical significand exponent) := by
  unfold IsCanonical
  infer_instance

/-- A finite magnitude, `significand * 2 ^ exponent`. -/
structure Magnitude where
  significand : Nat
  exponent : Int
  canonical : IsCanonical significand exponent
deriving DecidableEq

namespace Magnitude

def ofParts? (significand : Nat) (exponent : Int) : Option Magnitude :=
  if h : IsCanonical significand exponent then some ⟨significand, exponent, h⟩ else none

def zero : Magnitude := ⟨0, -1074, by decide⟩

/-- `num / den * 2 ^ shift`, as a numerator and a denominator. -/
def scaled (num den : Nat) (shift : Int) : Nat × Nat :=
  if 0 ≤ shift then (num * 2 ^ shift.toNat, den) else (num, den * 2 ^ (-shift).toNat)

/-- The integer nearest to `num / den`, the even one of two. -/
def roundHalfEven (num den : Nat) : Nat :=
  let quotient := num / den
  let twice := 2 * (num % den)
  if twice < den ∨ (twice = den ∧ quotient % 2 = 0) then quotient else quotient + 1

/-- The greatest `k` with `2 ^ k ≤ num / den`, for positive `num` and `den`. -/
def floorLog2 (num den : Nat) : Int :=
  let guess : Int := (num.log2 : Int) - (den.log2 : Int)
  let (n, d) := scaled num den (-guess)
  if d ≤ n then guess else guess - 1

/-- The magnitude nearest to `num / den`; none if that is beyond the greatest one. -/
def ofRatio? (num den : Nat) : Option Magnitude :=
  if num = 0 then some zero
  else
    let exponent := max (-1074) (floorLog2 num den - 52)
    let (n, d) := scaled num den (-exponent)
    let significand := roundHalfEven n d
    if significand = 2 ^ (53 : Nat) then ofParts? (2 ^ (52 : Nat)) (exponent + 1)
    else ofParts? significand exponent

def ratio (m : Magnitude) : Nat × Nat :=
  scaled m.significand 1 m.exponent

end Magnitude

/-- A number of the format; the sign of a zero counts, what made a number undefined does not. -/
inductive Binary64 where
  | finite (negative : Bool) (magnitude : Magnitude)
  | infinite (negative : Bool)
  | undefined
deriving DecidableEq

namespace Binary64

def ofRatio (negative : Bool) (num den : Nat) : Binary64 :=
  match Magnitude.ofRatio? num den with
  | some m => .finite negative m
  | none => .infinite negative

/-- The number nearest to `digits * 10 ^ exponent` with the given sign. Decimals that lie beyond all
magnitudes, or nearer to zero than any, are told by their order alone. -/
def ofDecimal (negative : Bool) (digits : Nat) (exponent : Int) : Binary64 :=
  let order := exponent + (Nat.toDigits 10 digits).length
  if digits = 0 ∨ order < -330 then .finite negative .zero
  else if 310 < order then .infinite negative
  else if 0 ≤ exponent then ofRatio negative (digits * 10 ^ exponent.toNat) 1
  else ofRatio negative digits (10 ^ (-exponent).toNat)

def ofInt (n : Int) : Binary64 :=
  ofRatio (n < 0) n.natAbs 1

def isZero : Binary64 → Bool
  | .finite _ m => m.significand == 0
  | _ => false

def signed (negative : Bool) (n : Nat) : Int :=
  if negative then -(n : Int) else n

/-- The integer part, toward zero; none of a number that is not finite. -/
def truncate? : Binary64 → Option Int
  | .finite negative m => some (signed negative (m.ratio.1 / m.ratio.2))
  | _ => none

/-- The integer that a finite number is equal to, if it is one. -/
def integer? : Binary64 → Option Int
  | .finite negative m =>
    if m.ratio.1 % m.ratio.2 = 0 then some (signed negative (m.ratio.1 / m.ratio.2)) else none
  | _ => none

end Binary64

end ConversationFlow
