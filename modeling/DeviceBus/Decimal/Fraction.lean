import DeviceBus.Decimal.Binary64
import DeviceBus.Decimal.Integer

/-! Decimal fractions: an optional sign, digits with at most one point among, before or after them, and an
optional power of ten. `readFloat?` takes such a text to the nearest binary number. -/
namespace DeviceBus.Decimal

/-- The number `coefficient * 10 ^ exponent`, with a sign that zero keeps. -/
structure Fraction where
  negative : Bool
  coefficient : Nat
  exponent : Int
deriving DecidableEq, Repr

def takeSign : List Char → Bool × List Char
  | '-' :: rest => (true, rest)
  | '+' :: rest => (false, rest)
  | text => (false, text)

def readExponent? : List Char → Option Int
  | [] => some 0
  | c :: rest => if c = 'e' ∨ c = 'E' then readSigned? rest else none

def takePlaces : List Char → List Char × List Char
  | '.' :: rest => (rest.takeWhile Char.isDigit, rest.dropWhile Char.isDigit)
  | text => ([], text)

def readFraction? (text : List Char) : Option Fraction :=
  let (negative, text) := takeSign text
  let whole := text.takeWhile Char.isDigit
  let (places, text) := takePlaces (text.dropWhile Char.isDigit)
  if whole.isEmpty && places.isEmpty then none
  else (readExponent? text).map fun exponent =>
    ⟨negative, value (whole ++ places), exponent - places.length⟩

def Fraction.toFloat (x : Fraction) : Float := floatOfBits x.negative (ofDecimal x.coefficient x.exponent)

def readFloat? (text : List Char) : Option Float := (readFraction? text).map Fraction.toFloat

end DeviceBus.Decimal
