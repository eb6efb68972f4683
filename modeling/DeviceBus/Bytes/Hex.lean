import DeviceBus.Text.Quoted
import DeviceBus.Text.Utf8

/-! Bytes as pairs of hexadecimal digits, high half first. Writing uses lowercase letters, reading takes both
cases and names the first byte that is no digit. -/
namespace DeviceBus.Hex

def encodeByte (b : UInt8) : List Char :=
  [Quoted.hexDigit (b.toNat / 16), Quoted.hexDigit (b.toNat % 16)]

def encode (bytes : Bytes) : String := String.ofList (bytes.flatMap encodeByte)

def digit? (b : UInt8) : Option Nat :=
  let n := b.toNat
  if 0x30 ≤ n && n ≤ 0x39 then some (n - 0x30)
  else if 0x41 ≤ n && n ≤ 0x46 then some (n - 0x37)
  else if 0x61 ≤ n && n ≤ 0x66 then some (n - 0x57)
  else none

inductive Fault
  | oddLength
  | badDigit (byte : UInt8) (index : Nat)
deriving DecidableEq, Repr

def Fault.message : Fault → String
  | .oddLength => "Odd number of digits"
  | .badDigit byte index =>
    "Invalid character " ++ Quoted.char (Char.ofNat byte.toNat) ++ s!" at position {index}"

def decodeFrom (index : Nat) : Bytes → Except Fault Bytes
  | [] => .ok []
  | [_] => .error .oddLength
  | high :: low :: rest =>
    match digit? high, digit? low with
    | none, _ => .error (.badDigit high index)
    | some _, none => .error (.badDigit low (index + 1))
    | some h, some l => (decodeFrom (index + 2) rest).map ((16 * h + l).toUInt8 :: ·)

def decode (text : String) : Except Fault Bytes :=
  let digits := Utf8.ofString text
  if digits.length % 2 = 1 then .error .oddLength else decodeFrom 0 digits

end DeviceBus.Hex
