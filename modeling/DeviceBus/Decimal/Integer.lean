/-! Whole numbers in decimal. `digits` writes a natural number without leading zeros, `value` reads any row of
digits, and the readers below take an optional sign and refuse what is out of range. -/
namespace DeviceBus.Decimal

def digitChar (n : Nat) : Char := Char.ofNat (0x30 + n % 10)

def digitValue (c : Char) : Nat := c.toNat - 0x30

def digits (n : Nat) : List Char :=
  if n < 10 then [digitChar n] else digits (n / 10) ++ [digitChar (n % 10)]

def value (text : List Char) : Nat := text.foldl (fun n c => 10 * n + digitValue c) 0

def natText (n : Nat) : String := String.ofList (digits n)

def intText (n : Int) : String :=
  String.ofList (if n < 0 then '-' :: digits n.natAbs else digits n.natAbs)

def readDigits? (text : List Char) : Option Nat :=
  if text.isEmpty || !text.all Char.isDigit then none else some (value text)

def readNat? (bound : Nat) (text : List Char) : Option Nat :=
  (readDigits? (match text with
    | '+' :: rest => rest
    | _ => text)).filter (· < bound)

def readSigned? : List Char → Option Int
  | '-' :: rest => (readDigits? rest).map fun n => -(n : Int)
  | '+' :: rest => (readDigits? rest).map Int.ofNat
  | text => (readDigits? text).map Int.ofNat

def readInt? (low high : Int) (text : List Char) : Option Int :=
  (readSigned? text).filter fun n => low ≤ n && n ≤ high

end DeviceBus.Decimal
