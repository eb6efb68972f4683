import DeviceBus.Aes.Byte
import DeviceBus.Bytes

/-! Blocks of sixteen bytes in four columns, and the steps of a cipher round on them. Every step has an
inverse beside it. -/
namespace DeviceBus.Aes

structure Column where
  a : UInt8
  b : UInt8
  c : UInt8
  d : UInt8
deriving DecidableEq, Repr

structure Block where
  w : Column
  x : Column
  y : Column
  z : Column
deriving DecidableEq, Repr

namespace Column

def zero : Column := ⟨0, 0, 0, 0⟩

def add (s t : Column) : Column := ⟨s.a ^^^ t.a, s.b ^^^ t.b, s.c ^^^ t.c, s.d ^^^ t.d⟩

def map (f : UInt8 → UInt8) (s : Column) : Column := ⟨f s.a, f s.b, f s.c, f s.d⟩

def rotate (s : Column) : Column := ⟨s.b, s.c, s.d, s.a⟩

def mix (s : Column) : Column :=
  let row := fun (p q r t : UInt8) => double p ^^^ (double q ^^^ q) ^^^ r ^^^ t
  ⟨row s.a s.b s.c s.d, row s.b s.c s.d s.a, row s.c s.d s.a s.b, row s.d s.a s.b s.c⟩

def unmix (s : Column) : Column :=
  let row := fun (p q r t : UInt8) =>
    double (double (double (p ^^^ q ^^^ r ^^^ t) ^^^ p ^^^ r) ^^^ p ^^^ q) ^^^ q ^^^ r ^^^ t
  ⟨row s.a s.b s.c s.d, row s.b s.c s.d s.a, row s.c s.d s.a s.b, row s.d s.a s.b s.c⟩

def toBytes (s : Column) : Bytes := [s.a, s.b, s.c, s.d]

def ofBytes : Bytes → List Column
  | a :: b :: c :: d :: rest => ⟨a, b, c, d⟩ :: ofBytes rest
  | _ => []

end Column

namespace Block

def zero : Block := ⟨.zero, .zero, .zero, .zero⟩

def add (s t : Block) : Block := ⟨s.w.add t.w, s.x.add t.x, s.y.add t.y, s.z.add t.z⟩

def mapColumns (f : Column → Column) (s : Block) : Block := ⟨f s.w, f s.x, f s.y, f s.z⟩

def substitute (s : Block) : Block := s.mapColumns (Column.map Aes.substitute)

def unsubstitute (s : Block) : Block := s.mapColumns (Column.map Aes.unsubstitute)

def mix (s : Block) : Block := s.mapColumns Column.mix

def unmix (s : Block) : Block := s.mapColumns Column.unmix

def shift (s : Block) : Block where
  w := ⟨s.w.a, s.x.b, s.y.c, s.z.d⟩
  x := ⟨s.x.a, s.y.b, s.z.c, s.w.d⟩
  y := ⟨s.y.a, s.z.b, s.w.c, s.x.d⟩
  z := ⟨s.z.a, s.w.b, s.x.c, s.y.d⟩

def unshift (s : Block) : Block where
  w := ⟨s.w.a, s.z.b, s.y.c, s.x.d⟩
  x := ⟨s.x.a, s.w.b, s.z.c, s.y.d⟩
  y := ⟨s.y.a, s.x.b, s.w.c, s.z.d⟩
  z := ⟨s.z.a, s.y.b, s.x.c, s.w.d⟩

def toBytes (s : Block) : Bytes := s.w.toBytes ++ s.x.toBytes ++ s.y.toBytes ++ s.z.toBytes

def ofColumns : List Column → List Block
  | w :: x :: y :: z :: rest => ⟨w, x, y, z⟩ :: ofColumns rest
  | _ => []

def ofBytes (bytes : Bytes) : List Block := ofColumns (Column.ofBytes bytes)

end Block
end DeviceBus.Aes
