import DeviceBus.Decimal.Shortest

/-! The text of a binary number: the digits of its shortest decimal, laid out by a few decisions that each
format takes for itself. -/
namespace DeviceBus.Decimal

/-- The decisions of a format. The position of the point is counted from before the first digit. -/
structure Layout where
  positional : Int → Bool
  pointZero : Bool
  plusSign : Bool
  tie : Tie

def positional (layout : Layout) (ds : List Char) (point : Int) : List Char :=
  if point ≤ 0 then ['0', '.'] ++ List.replicate (-point).toNat '0' ++ ds
  else if ds.length ≤ point.toNat then
    ds ++ List.replicate (point.toNat - ds.length) '0' ++ (if layout.pointZero then ['.', '0'] else [])
  else ds.take point.toNat ++ '.' :: ds.drop point.toNat

def exponentText (layout : Layout) (exponent : Int) : List Char :=
  'e' :: (if layout.plusSign && 0 < exponent then ['+'] else []) ++ (intText exponent).toList

def withExponent (layout : Layout) (ds : List Char) (point : Int) : List Char :=
  (match ds with
    | [] => []
    | [d] => [d]
    | d :: rest => d :: '.' :: rest) ++ exponentText layout (point - 1)

def Scaled.significant (d : Scaled) : List Char × Int :=
  let ds := digits d.coefficient
  ((ds.reverse.dropWhile (· = '0')).reverse, ds.length + d.exponent)

def magnitudeText (layout : Layout) (x : Float) : List Char :=
  if x.isInf then "inf".toList
  else
    let value := Magnitude.ofFloat x
    if value.m = 0 then if layout.pointZero then ['0', '.', '0'] else ['0']
    else
      let (ds, point) := (value.shortest layout.tie).significant
      if layout.positional point then positional layout ds point else withExponent layout ds point

def floatText (layout : Layout) (x : Float) : String :=
  if x.isNaN then "NaN"
  else String.ofList (if isNegative x then '-' :: magnitudeText layout x else magnitudeText layout x)

end DeviceBus.Decimal
