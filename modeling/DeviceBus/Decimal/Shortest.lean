import DeviceBus.Decimal.Binary64
import DeviceBus.Decimal.Integer

/-! The shortest decimal that reads back as a given binary number. A decimal reads back when it lies between
the midpoints to the neighbours, ends included for an even significand. Of the grids of one, two, … seventeen
digits the first with such a point wins, and of two points the nearer. -/
namespace DeviceBus.Decimal

structure Scaled where
  coefficient : Nat
  exponent : Int
deriving DecidableEq, Repr

inductive Tie
  | toEven
  | up
deriving DecidableEq, Repr

def compareScaled (a : Nat) (i : Int) (n : Nat) (j : Int) : Ordering :=
  compare (a * Nat.pow 10 i.toNat * Nat.pow 2 (-j).toNat) (n * Nat.pow 2 j.toNat * Nat.pow 10 (-i).toNat)

def Magnitude.readsBack (x : Magnitude) (d : Scaled) : Bool :=
  let low := if x.narrowBelow then 4 * x.m - 1 else 4 * x.m - 2
  let high := 4 * x.m + 2
  let closed := x.m % 2 = 0
  let below := compareScaled d.coefficient d.exponent low (x.q - 2)
  let above := compareScaled d.coefficient d.exponent high (x.q - 2)
  (below == .gt || (closed && below == .eq)) && (above == .lt || (closed && above == .eq))

/-- The least `k` with the magnitude below `10 ^ k`, for a magnitude that is not zero. The estimate from the
binary logarithm is too small by one or two. -/
def Magnitude.scale (x : Magnitude) : Int :=
  let estimate := ((x.m.log2 : Int) + x.q) * 30103 / 100000
  let fits := fun k => compareScaled 1 k x.m x.q == .gt
  if fits estimate then estimate
  else if fits (estimate + 1) then estimate + 1
  else estimate + 2

def Magnitude.nearer (x : Magnitude) (tie : Tie) (lower : Nat) (exponent : Int) : Nat :=
  match compareScaled (2 * lower + 1) exponent (2 * x.m) x.q with
  | .lt => lower + 1
  | .gt => lower
  | .eq => match tie with
    | .toEven => lower + lower % 2
    | .up => lower + 1

def Magnitude.onGrid (x : Magnitude) (tie : Tie) (exponent : Int) : Option Scaled :=
  let num := x.m * Nat.pow 2 x.q.toNat * Nat.pow 10 (-exponent).toNat
  let den := Nat.pow 2 (-x.q).toNat * Nat.pow 10 exponent.toNat
  let lower := num / den
  match x.readsBack ⟨lower, exponent⟩, x.readsBack ⟨lower + 1, exponent⟩ with
  | true, true => some ⟨x.nearer tie lower exponent, exponent⟩
  | true, false => some ⟨lower, exponent⟩
  | false, true => some ⟨lower + 1, exponent⟩
  | false, false => none

def Magnitude.exact (x : Magnitude) : Scaled :=
  ⟨x.m * Nat.pow 2 x.q.toNat * Nat.pow 5 (-x.q).toNat, -((-x.q).toNat : Int)⟩

/-- Seventeen digits suffice for this format; should no grid have a point, the exact value is the answer. -/
def Magnitude.shortest (x : Magnitude) (tie : Tie) : Scaled :=
  let k := x.scale
  ((List.range 17).findSome? fun (n : Nat) => x.onGrid tie (k - (n + 1))).getD x.exact

end DeviceBus.Decimal
