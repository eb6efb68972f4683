import DeviceBus.Bytes

/-! Base64 with the standard alphabet. Three bytes become four symbols; padding is required at the end and
the bits that no byte uses must be zero, so that every byte string has one spelling. Reading says which
byte of the text is at fault. -/
namespace DeviceBus.Base64

def pad : UInt8 := 0x3D

def symbol (n : Nat) : UInt8 :=
  if n < 26 then (0x41 + n).toUInt8
  else if n < 52 then (0x47 + n).toUInt8
  else if n < 62 then (n - 4).toUInt8
  else if n = 62 then 0x2B
  else 0x2F

def value? (b : UInt8) : Option Nat :=
  let n := b.toNat
  if 0x41 ≤ n && n ≤ 0x5A then some (n - 0x41)
  else if 0x61 ≤ n && n ≤ 0x7A then some (n - 0x47)
  else if 0x30 ≤ n && n ≤ 0x39 then some (n + 4)
  else if n = 0x2B then some 62
  else if n = 0x2F then some 63
  else none

def encode : Bytes → Bytes
  | [] => []
  | [a] => [symbol (a.toNat / 4), symbol (a.toNat % 4 * 16), pad, pad]
  | [a, b] =>
    [symbol (a.toNat / 4), symbol (a.toNat % 4 * 16 + b.toNat / 16), symbol (b.toNat % 16 * 4), pad]
  | a :: b :: c :: rest =>
    symbol (a.toNat / 4) :: symbol (a.toNat % 4 * 16 + b.toNat / 16) ::
      symbol (b.toNat % 16 * 4 + c.toNat / 64) :: symbol (c.toNat % 64) :: encode rest

inductive Fault
  | badSymbol (byte : UInt8) (offset : Nat)
  | badLastSymbol (byte : UInt8) (offset : Nat)
  | badLength (length : Nat)
  | badPadding
deriving DecidableEq, Repr

def Fault.message : Fault → String
  | .badSymbol byte offset => s!"Invalid symbol {byte.toNat}, offset {offset}."
  | .badLastSymbol byte offset => s!"Invalid last symbol {byte.toNat}, offset {offset}."
  | .badLength length => s!"Invalid input length: {length}"
  | .badPadding => "Invalid padding"

def joinQuad (p q r s : Nat) : Bytes :=
  [(4 * p + q / 16).toUInt8, (q % 16 * 16 + r / 4).toUInt8, (r % 4 * 64 + s).toUInt8]

def symbolAt (offset : Nat) (b : UInt8) : Except Fault Nat :=
  match value? b with
  | some n => .ok n
  | none => .error (.badSymbol b offset)

structure Tail where
  symbols : List (UInt8 × Nat)
  pads : Nat

/-- Reads the last quad from left to right. Padding may not begin before the third place, and nothing may
follow it; `place` counts the bytes read, `padAt` is the offset of the first padding byte. -/
def readTail (start place : Nat) (padAt : Option Nat) : Bytes → Except Fault Tail
  | [] => .ok ⟨[], 0⟩
  | b :: rest =>
    if b = pad then
      if place < 2 then .error (.badSymbol b (start + place))
      else do
        let tail ← readTail start (place + 1) (some (padAt.getD (start + place))) rest
        return ⟨tail.symbols, tail.pads + 1⟩
    else
      match padAt with
      | some offset => .error (.badSymbol pad offset)
      | none => do
        let n ← symbolAt (start + place) b
        let tail ← readTail start (place + 1) none rest
        return ⟨(b, n) :: tail.symbols, tail.pads⟩

/-- The bytes of the last quad, which needs two symbols and padding up to four. The last symbol may not
have bits that no byte uses. -/
def joinTail (start : Nat) (tail : Tail) : Except Fault Bytes :=
  match tail.symbols with
  | [] => .error (.badLength start)
  | [_] => .error (.badLength (start + 1))
  | [(_, p), (b, q)] =>
    if tail.pads ≠ 2 then .error .badPadding
    else if q % 16 ≠ 0 then .error (.badLastSymbol b (start + 1))
    else .ok ((joinQuad p q 0 0).take 1)
  | [(_, p), (_, q), (b, r)] =>
    if tail.pads ≠ 1 then .error .badPadding
    else if r % 4 ≠ 0 then .error (.badLastSymbol b (start + 2))
    else .ok ((joinQuad p q r 0).take 2)
  | (_, p) :: (_, q) :: (_, r) :: (_, s) :: _ => .ok (joinQuad p q r s)

def decodeFrom (offset : Nat) : Bytes → Except Fault Bytes
  | [] => .ok []
  | a :: b :: c :: d :: e :: rest => do
    let p ← symbolAt offset a
    let q ← symbolAt (offset + 1) b
    let r ← symbolAt (offset + 2) c
    let s ← symbolAt (offset + 3) d
    let bytes ← decodeFrom (offset + 4) (e :: rest)
    return joinQuad p q r s ++ bytes
  | quad => do
    let tail ← readTail offset 0 none quad
    joinTail offset tail

def checkLast (text : Bytes) : Except Fault Unit :=
  match text.getLast? with
  | some b =>
    if text.length % 4 = 1 ∧ b ≠ pad ∧ value? b = none then .error (.badSymbol b (text.length - 1))
    else .ok ()
  | none => .ok ()

def decode (text : Bytes) : Except Fault Bytes := do
  checkLast text
  decodeFrom 0 text

end DeviceBus.Base64
