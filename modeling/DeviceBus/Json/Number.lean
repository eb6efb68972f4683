import DeviceBus.Decimal.Binary64
import DeviceBus.Decimal.Integer
import DeviceBus.Json.Fault
import DeviceBus.Json.Value

/-! Numbers of a JSON text. A numeral without point and exponent is an integer where 64 bits hold it. Any
other one is a significand, made of the leading digits that 64 bits hold, scaled by a power of ten in
floating-point arithmetic; a numeral too large for that is refused. -/
namespace DeviceBus.Json

structure Numeral where
  negative : Bool
  whole : List Char
  places : Option (List Char)
  /-- The sign of the exponent, negative if set, and its digits. -/
  exponent : Option (Bool × List Char)
deriving DecidableEq, Repr

def absorb (significand : Nat) : List Char → Nat × Nat
  | [] => (significand, 0)
  | c :: rest =>
    let next := 10 * significand + Decimal.digitValue c
    if next < 0x10000000000000000 then absorb next rest else (significand, rest.length + 1)

def maxExponent : Nat := 2147483647

/-- How many digits of an exponent come after the one that takes it above the limit; none for an exponent
that stays within. -/
def afterOverflow (n : Nat) : List Char → Option Nat
  | [] => none
  | c :: rest =>
    let next := 10 * n + Decimal.digitValue c
    if maxExponent < next then some rest.length else afterOverflow next rest

def floatOfNat (n : Nat) : Float := n.toUInt64.toFloat

def powerOfTen (k : Nat) : Float := Decimal.floatOfBits false (Decimal.ofDecimal 1 k)

def scale (x : Float) (exponent : Int) : Option Float :=
  if exponent.natAbs ≤ 308 then
    if 0 ≤ exponent then
      let y := x * powerOfTen exponent.natAbs
      if y.isInf then none else some y
    else some (x / powerOfTen exponent.natAbs)
  else if x == 0 then some x
  else if 0 ≤ exponent then none
  else scale (x / powerOfTen 308) (exponent + 308)
termination_by exponent.natAbs

/-- The integer of a sign and a significand; a negative one that 64 bits do not hold becomes a float, and so
does a zero with a sign. -/
def ofInteger (negative : Bool) (significand : Nat) : JsonNumber :=
  if !negative then .integer significand
  else if significand = 0 || 0x8000000000000000 < significand then .float (-floatOfNat significand)
  else .integer (-(significand : Int))

def ofScaled (negative : Bool) (unread : Nat) : Option Float → Except Nat JsonNumber
  | none => .error unread
  | some x => .ok (.float (if negative then -x else x))

def Numeral.significand (n : Numeral) : Nat × Int :=
  let (whole, beyond) := absorb 0 n.whole
  let places := n.places.getD []
  let (all, dropped) := absorb whole places
  (all, (beyond : Int) - ((places.length - dropped : Nat) : Int))

/-- The number that a numeral denotes. Out of range, the answer is how many of its last digits were not
looked at. -/
def Numeral.value (n : Numeral) : Except Nat JsonNumber :=
  let (significand, power) := n.significand
  match n.exponent with
  | none =>
    if n.places.isNone && power = 0 then .ok (ofInteger n.negative significand)
    else ofScaled n.negative 0 (scale (floatOfNat significand) power)
  | some (down, ds) =>
    match afterOverflow 0 ds with
    | some more => ofScaled n.negative more (if significand = 0 || down then some 0 else none)
    | none =>
      let exponent : Int := if down then -(Decimal.value ds : Int) else Decimal.value ds
      ofScaled n.negative 0 (scale (floatOfNat significand) (power + exponent))

def readDigits (text : List Char) : Except Stop (List Char × List Char) :=
  match text with
  | [] => .error ⟨.endInValue, 0⟩
  | c :: _ =>
    if c.isDigit then .ok (text.takeWhile Char.isDigit, text.dropWhile Char.isDigit)
    else .error (stopAfter 1 .invalidNumber text)

def readWhole (text : List Char) : Except Stop (List Char × List Char) := do
  let (whole, rest) ← readDigits text
  match whole with
  | '0' :: next :: more => .error (stopAfter 1 .invalidNumber (next :: more ++ rest))
  | _ => .ok (whole, rest)

def readPlaces : List Char → Except Stop (Option (List Char) × List Char)
  | '.' :: rest => (readDigits rest).map fun (places, rest) => (some places, rest)
  | text => .ok (none, text)

def readExponentDigits (down : Bool) (text : List Char) :
    Except Stop (Option (Bool × List Char) × List Char) :=
  (readDigits text).map fun (ds, rest) => (some (down, ds), rest)

def readExponent : List Char → Except Stop (Option (Bool × List Char) × List Char)
  | c :: rest =>
    if c = 'e' ∨ c = 'E' then
      match rest with
      | '+' :: more => readExponentDigits false more
      | '-' :: more => readExponentDigits true more
      | _ => readExponentDigits false rest
    else .ok (none, c :: rest)
  | [] => .ok (none, [])

def readNumber (negative : Bool) (text : List Char) : Except Stop (JsonNumber × List Char) := do
  let (whole, rest) ← readWhole text
  let (places, rest) ← readPlaces rest
  let (exponent, rest) ← readExponent rest
  match Numeral.value ⟨negative, whole, places, exponent⟩ with
  | .ok n => return (n, rest)
  | .error unread => .error ⟨.numberOutOfRange, Utf8.size rest + unread⟩

end DeviceBus.Json
