/-! Binary floating-point numbers of 64 bits as exact fractions. `ofRatio` rounds a fraction to the nearest
number, a half to the even one; `Magnitude` is the exact value of a finite number. -/
namespace DeviceBus.Decimal

def signBit : Nat := 0x8000000000000000

def hiddenBit : Nat := 0x10000000000000

def infinityBits : Nat := 0x7FF0000000000000

def roundHalfEven (num den : Nat) : Nat :=
  let q := num / den
  let twice := 2 * (num % den)
  if twice < den then q
  else if twice = den then q + q % 2
  else q + 1

def floorLog2 (num den : Nat) : Int :=
  let e : Int := (num.log2 : Int) - den.log2
  if num * Nat.pow 2 (-e).toNat < den * Nat.pow 2 e.toNat then e - 1 else e

/-- The bits of the number nearest to `num / den`. Fifty-three binary places are kept, fewer below the least
normal number; a significand rounded up to the next power of two carries into the exponent by itself. -/
def ofRatio (num den : Nat) : Nat :=
  if num = 0 || den = 0 then 0
  else
    let q := max (floorLog2 num den - 52) (-1074)
    let m := roundHalfEven (num * Nat.pow 2 (-q).toNat) (den * Nat.pow 2 q.toNat)
    min ((q + 1074).toNat * hiddenBit + m) infinityBits

def ofDecimal (digits : Nat) (exponent : Int) : Nat :=
  if digits = 0 then 0
  -- far outside of the range the answer is known without the power
  else if 400 < exponent then infinityBits
  else if exponent + digits.log2 < -400 then 0
  else ofRatio (digits * Nat.pow 10 exponent.toNat) (Nat.pow 10 (-exponent).toNat)

def floatOfBits (negative : Bool) (bits : Nat) : Float :=
  Float.ofBits (if negative then bits + signBit else bits).toUInt64

def isNegative (x : Float) : Bool := signBit ≤ x.toBits.toNat

/-- The finite value `m * 2 ^ q`. The gap to the value below is narrow when it is half of that to the value
above, which is so at the powers of two. -/
structure Magnitude where
  m : Nat
  q : Int
  narrowBelow : Bool
deriving DecidableEq, Repr

def Magnitude.ofFloat (x : Float) : Magnitude :=
  let bits := x.toBits.toNat
  let biased : Nat := bits / hiddenBit % 0x800
  let fraction : Nat := bits % hiddenBit
  if biased = 0 then ⟨fraction, -1074, false⟩
  else ⟨hiddenBit + fraction, (biased : Int) - 1075, fraction = 0 && 1 < biased⟩

end DeviceBus.Decimal
