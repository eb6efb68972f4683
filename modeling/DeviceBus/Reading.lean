import DeviceBus.Bytes.Hex
import DeviceBus.Decimal.Fraction
import DeviceBus.Decimal.Layout
import DeviceBus.Text.Blank

/-! Readings: the typed value that a plaintext stands for. A text with a point is a float when it reads as
one, any other text an integer when it reads as one; `true` and `false` are booleans; other text is kept as
it is, and bytes that are no text stay bytes. White space around a number or a boolean does not matter. -/
namespace DeviceBus

inductive Reading
  | integer (n : Int64)
  | float (x : Float)
  | boolean (b : Bool)
  | text (s : String)
  | binary (bytes : Bytes)

namespace Reading

/-- Floats are written without an exponent and without a point where none is needed; of two decimals equally
near the upper one is taken. -/
def layout : Decimal.Layout := ⟨fun _ => true, false, false, .up⟩

def display : Reading → String
  | integer n => Decimal.intText n.toInt
  | float x => Decimal.floatText layout x
  | boolean b => if b then "true" else "false"
  | text s => s
  | binary bytes => Hex.encode bytes

def float? (trimmed : List Char) : Option Float :=
  if trimmed.contains '.' then Decimal.readFloat? trimmed else none

def integer? (trimmed : List Char) : Option Int64 :=
  (Decimal.readInt? (-0x8000000000000000) 0x7FFFFFFFFFFFFFFF trimmed).map Int64.ofInt

def ofText (chars : List Char) : Reading :=
  let trimmed := Blank.trim chars
  match float? trimmed with
  | some x => float x
  | none =>
    match integer? trimmed with
    | some n => integer n
    | none =>
      if trimmed = "true".toList then boolean true
      else if trimmed = "false".toList then boolean false
      else text (String.ofList chars)

def ofPlaintext (plaintext : Bytes) : Reading :=
  match Utf8.decode plaintext with
  | .ok chars => ofText chars
  | .error _ => binary plaintext

end Reading
end DeviceBus
