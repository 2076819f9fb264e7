import ConversationFlow.Number.Shortest

/-!
# Layout of decimals

How the digits of a decimal are laid out: with all places written down while the order of the number
is moderate, else one digit before the point and an exponent. What counts as moderate and how wide an
exponent is written is left to a style.
-/

namespace ConversationFlow

/-- The least order that is written with all places, and the least width of an exponent. -/
structure FloatStyle where
  leastOrder : Int
  exponentWidth : Nat

namespace FloatStyle

/-- Orders down to -4 are written out, exponents have two digits. -/
def plain : FloatStyle := ⟨-4, 2⟩

/-- Orders down to -5 are written out, exponents have as many digits as they need. -/
def document : FloatStyle := ⟨-5, 1⟩

end FloatStyle

def digitsOf (n : Nat) : List Char :=
  Nat.toDigits 10 n

def integerText (n : Int) : List Char :=
  if n < 0 then '-' :: digitsOf n.natAbs else digitsOf n.natAbs

/-- An exponent: its sign, then at least `width` digits. -/
def exponentText (width : Nat) (n : Int) : List Char :=
  let digits := digitsOf n.natAbs
  (if n < 0 then '-' else '+') :: (List.replicate (width - digits.length) '0' ++ digits)

def Decimal.text (style : FloatStyle) (d : Decimal) : List Char :=
  let digits := digitsOf d.digits
  let point : Int := d.exponent + digits.length
  let order := if d.digits = 0 then 0 else point - 1
  if style.leastOrder ≤ order ∧ order < 16 then
    if d.digits = 0 then ['0', '.', '0']
    else if point ≤ 0 then ['0', '.'] ++ List.replicate (-point).toNat '0' ++ digits
    else if digits.length ≤ point.toNat then
      digits ++ List.replicate (point.toNat - digits.length) '0' ++ ['.', '0']
    else digits.take point.toNat ++ '.' :: digits.drop point.toNat
  else
    let fraction := digits.drop 1
    digits.take 1 ++ (if fraction.isEmpty then [] else '.' :: fraction) ++
      'e' :: exponentText style.exponentWidth order

def Magnitude.text (style : FloatStyle) (negative : Bool) (m : Magnitude) : List Char :=
  (if negative then ['-'] else []) ++ m.shortest.text style

end ConversationFlow
