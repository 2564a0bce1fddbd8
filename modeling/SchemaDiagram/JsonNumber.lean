import SchemaDiagram.Json

namespace SchemaDiagram

/-- The parts of a number literal: the digits before the point, those after it if there is one, and the
exponent if there is one. -/
structure NumberLiteral where
  isNegative : Bool
  whole : List Nat
  fraction : Option (List Nat)
  exponent : Option (Bool × List Nat)
  deriving DecidableEq, Repr, Inhabited

/-- The digits read so far, as a whole number, and the power of ten that they are to be multiplied
with. -/
structure Significand where
  value : Nat
  exponent : Int
  deriving DecidableEq, Repr, Inhabited

namespace Significand

/-- Whether a further digit still fits into sixty-four bits. -/
def hasRoomFor (s : Significand) (digit : Nat) : Bool := s.value * 10 + digit < UInt64.size

/-- Reads the digits before the point. From the first one that does not fit, each only raises the
exponent. -/
def ofWhole (s : Significand) : List Nat → Significand
  | [] => s
  | digit :: rest =>
    if s.hasRoomFor digit then ofWhole ⟨s.value * 10 + digit, s.exponent⟩ rest
    else ⟨s.value, s.exponent + (rest.length + 1)⟩

/-- Reads the digits after the point. From the first one that does not fit, all are passed over. -/
def ofFraction (s : Significand) : List Nat → Significand
  | [] => s
  | digit :: rest =>
    if s.hasRoomFor digit then ofFraction ⟨s.value * 10 + digit, s.exponent - 1⟩ rest
    else s

end Significand

def tenTo (n : Nat) : Float := Float.ofScientific 1 false n

/-- The largest power of ten that is a double. -/
def greatestTenExponent : Nat := 308

/-- Divides by a power of ten, step by step where the power itself is no double. -/
def divideByTenTo (f : Float) (n : Nat) : Float :=
  if n ≤ greatestTenExponent then f / tenTo n
  else if f == 0 then f
  else divideByTenTo (f / tenTo greatestTenExponent) (n - greatestTenExponent)
termination_by n
decreasing_by simp only [greatestTenExponent] at *; omega

/-- The double that a significand stands for, unless it is beyond the doubles. -/
def Significand.toFloat? (s : Significand) : Option Float :=
  let f := Float.ofNat s.value
  if s.exponent < 0 then some (divideByTenTo f (-s.exponent).toNat)
  else if s.exponent.toNat ≤ greatestTenExponent then
    let product := f * tenTo s.exponent.toNat
    if product.isInf then none else some product
  else if f == 0 then some f
  else none

def ofDigits (digits : List Nat) : Nat :=
  digits.foldl (fun value digit => value * 10 + digit) 0

/-- Exponents from here on are beyond what is counted. -/
def exponentLimit : Nat := Nat.pow 2 31

namespace NumberLiteral

/-- The double that the literal stands for, unless it is beyond the doubles. It is read from the first
digits, as many as make a whole number of sixty-four bits, which are converted and then multiplied or divided
by a power of ten. -/
def toFloat? (n : NumberLiteral) : Option Float := do
  let s := (Significand.ofWhole ⟨0, 0⟩ n.whole).ofFraction (n.fraction.getD [])
  let (isDown, digits) := n.exponent.getD (false, [])
  let shift := ofDigits digits
  let magnitude ←
    if shift < exponentLimit then
      Significand.toFloat? ⟨s.value, if isDown then s.exponent - shift else s.exponent + shift⟩
    else if s.value = 0 ∨ isDown then some 0
    else none
  return if n.isNegative then -magnitude else magnitude

/-- The value of the literal. A whole number that fits into sixty-four bits stays whole, but a negative zero
is a double. -/
def value (n : NumberLiteral) : Json :=
  let whole := ofDigits n.whole
  let isWhole := n.fraction.isNone && n.exponent.isNone
  if isWhole && !n.isNegative && whole < UInt64.size then .int whole
  else if isWhole && n.isNegative && whole ≠ 0 && whole ≤ Nat.pow 2 63 then .int (-whole)
  else
    match n.toFloat? with
    | some f => .float f
    | none => .unrepresentable

end NumberLiteral

end SchemaDiagram
