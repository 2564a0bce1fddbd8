namespace SchemaDiagram

/-- A nonnegative decimal number: the digits as a whole number, times a power of ten. -/
structure Decimal where
  digits : Nat
  exponent : Int
  deriving DecidableEq, Repr, Inhabited

/-- A positive double: a whole number times a power of two. A double that begins a binade has its
lower neighbour at half the distance of its upper one. -/
structure BinaryFraction where
  mantissa : Nat
  exponent : Int
  beginsBinade : Bool
  deriving DecidableEq, Repr, Inhabited

namespace BinaryFraction

/-- The magnitude of a finite double that is not zero. -/
def ofFloat (f : Float) : BinaryFraction :=
  let bits : Nat := f.toBits.toNat
  let stored : Nat := bits / Nat.pow 2 52 % Nat.pow 2 11
  let low : Nat := bits % Nat.pow 2 52
  if stored = 0 then { mantissa := low, exponent := -1074, beginsBinade := false }
  else {
    mantissa := low + Nat.pow 2 52
    exponent := (stored : Int) - 1075
    beginsBinade := low = 0 && stored ≠ 1 }

/-- The numerator of four times the double, over `denominator`. -/
def numerator (b : BinaryFraction) : Nat := 4 * b.mantissa * Nat.pow 2 (b.exponent - 2).toNat

/-- The denominator that goes with `numerator`, `lowest` and `highest`. -/
def denominator (b : BinaryFraction) : Nat := Nat.pow 2 (2 - b.exponent).toNat

/-- The lower end of the numbers that round to the double, over `denominator`. -/
def lowest (b : BinaryFraction) : Nat :=
  (4 * b.mantissa - if b.beginsBinade then 1 else 2) * Nat.pow 2 (b.exponent - 2).toNat

/-- The upper end of the numbers that round to the double, over `denominator`. -/
def highest (b : BinaryFraction) : Nat :=
  (4 * b.mantissa + 2) * Nat.pow 2 (b.exponent - 2).toNat

def digitCount (n : Nat) : Nat := (Nat.toDigits 10 n).length

/-- The power of ten at which the first digit of the double stands. -/
def leadingExponent (b : BinaryFraction) : Int :=
  if b.denominator ≤ b.numerator then digitCount (b.numerator / b.denominator) - 1
  else -digitCount ((b.denominator + b.numerator - 1) / b.numerator - 1)

/-- Whether a multiple of a power of ten rounds to the double. -/
def isReadFrom (b : BinaryFraction) (d : Decimal) : Bool :=
  let point := d.digits * Nat.pow 10 d.exponent.toNat * b.denominator
  let scale := Nat.pow 10 (-d.exponent).toNat
  if b.mantissa % 2 = 0 then b.lowest * scale ≤ point && point ≤ b.highest * scale
  else b.lowest * scale < point && point < b.highest * scale

/-- Among the two multiples of a power of ten around the double, the one that rounds to it; of two,
the nearer one; of two equally near, the even one. -/
def onGrid? (b : BinaryFraction) (exponent : Int) : Option Decimal :=
  let value := b.numerator * Nat.pow 10 (-exponent).toNat
  let step := b.denominator * Nat.pow 10 exponent.toNat
  let below : Decimal := ⟨value / step, exponent⟩
  let above : Decimal := ⟨value / step + 1, exponent⟩
  let down := value - below.digits * step
  let up := above.digits * step - value
  match b.isReadFrom below, b.isReadFrom above with
  | false, false => none
  | true, false => some below
  | false, true => some above
  | true, true =>
    if down < up || (down = up && below.digits % 2 = 0) then some below else some above

/-- The first decimal found on the grids with this many digits and more. -/
def searchGrids (b : BinaryFraction) (exponent : Int) : Nat → Decimal
  | 0 => ⟨b.numerator * Nat.pow 10 (-exponent).toNat / (b.denominator * Nat.pow 10 exponent.toNat), exponent⟩
  | more + 1 =>
    match b.onGrid? exponent with
    | some d => d
    | none => searchGrids b (exponent - 1) more

/-- The nearest of the decimals with the fewest digits that round to the double. Seventeen digits
always suffice. -/
def shortest (b : BinaryFraction) : Decimal :=
  b.searchGrids b.leadingExponent 17

end BinaryFraction

/-- Lowest power of ten of a first digit that is still written out behind a point. -/
def lowestPlainExponent : Int := -5

/-- Powers of ten of the first digit from here on are written as an exponent. -/
def plainExponentLimit : Int := 16

def zeros (count : Nat) : List Char := List.replicate count '0'

/-- The text of a positive decimal: written out with at least one digit after the point while the
first digit is neither too far behind the point nor too far before it, else with an exponent that
bears its sign. -/
def Decimal.text (d : Decimal) : String :=
  let all := Nat.toDigits 10 d.digits
  let digits := (all.reverse.dropWhile (· == '0')).reverse
  let first := d.exponent + all.length - 1
  if lowestPlainExponent ≤ first ∧ first < plainExponentLimit then
    if first < 0 then String.ofList ('0' :: '.' :: zeros (-first - 1).toNat ++ digits)
    else
      let whole := first.toNat + 1
      if digits.length ≤ whole then
        String.ofList (digits ++ zeros (whole - digits.length) ++ ['.', '0'])
      else String.ofList (digits.take whole ++ '.' :: digits.drop whole)
  else
    let fraction := if digits.length ≤ 1 then [] else '.' :: digits.drop 1
    let sign := if first < 0 then "" else "+"
    String.ofList (digits.take 1 ++ fraction) ++ "e" ++ sign ++ toString first

/-- The text of a finite double: the shortest that reads back as the same double. -/
def finiteText (f : Float) : String :=
  let sign := if f.toBits.toNat / Nat.pow 2 63 = 1 then "-" else ""
  if f == 0 then sign ++ "0.0"
  else sign ++ (BinaryFraction.ofFloat f).shortest.text

end SchemaDiagram
