import ConversationFlow.Number.Binary64

/-!
# Shortest decimals

The shortest decimal that reads back as a given magnitude. Of several that are equally short it is the
nearest one, and of two that are also equally near the one with an even last digit. A decimal of `k`
digits that reads back exists if one of the two neighbours of the magnitude among the decimals of `k`
digits does, so only these are tried.
-/

namespace ConversationFlow

-- Powers of natural numbers are the built-in ones, whatever else is in scope.
attribute [local instance(high)] instPowNat

/-- The decimal number `digits * 10 ^ exponent`. -/
structure Decimal where
  digits : Nat
  exponent : Int
deriving DecidableEq, Repr

namespace Decimal

def readsAs (d : Decimal) (m : Magnitude) : Bool :=
  Binary64.ofDecimal false d.digits d.exponent = .finite false m

/-- The same number without zeros at the end of its digits. -/
def stripped (d : Decimal) : Decimal :=
  if _h : d.digits ≠ 0 ∧ d.digits % 10 = 0 then
    stripped ⟨d.digits / 10, d.exponent + 1⟩
  else d
termination_by d.digits
decreasing_by omega

end Decimal

namespace Magnitude

def exact (m : Magnitude) : Decimal :=
  if 0 ≤ m.exponent then ⟨m.significand * 2 ^ m.exponent.toNat, 0⟩
  else ⟨m.significand * 5 ^ (-m.exponent).toNat, m.exponent⟩

/-- The neighbours of a decimal among those without its last `cut` digits, the nearer one first. If
they are equally near, the one whose last digit is even comes first. -/
def neighbours (d : Decimal) (cut : Nat) : List Decimal :=
  let grid := 10 ^ cut
  let kept := d.digits / grid
  let below : Decimal := ⟨kept, d.exponent + cut⟩
  let above : Decimal := ⟨kept + 1, d.exponent + cut⟩
  if 2 * (d.digits % grid) < grid ∨ 2 * (d.digits % grid) = grid ∧ kept % 2 = 0 then [below, above]
  else [above, below]

/-- The shortest decimal of at most 17 digits that reads back, the first one of two neighbours that both
do, else the exact one. -/
def shortest (m : Magnitude) : Decimal :=
  let exact := m.exact
  let size := (Nat.toDigits 10 exact.digits).length
  let found := (List.range 17).findSome? fun k =>
    (neighbours exact (size - (k + 1))).find? (·.readsAs m)
  (found.getD exact).stripped

end Magnitude

end ConversationFlow
