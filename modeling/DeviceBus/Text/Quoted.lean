import DeviceBus.Bytes

/-! Texts and bytes between quotes, as log lines show them: on one line, with every character that cannot be
seen written as an escape. -/
namespace DeviceBus.Quoted

def hexDigit (n : Nat) : Char := "0123456789abcdef".toList.getD n '0'

def hexDigits (n : Nat) : List Char :=
  if n < 16 then [hexDigit n] else hexDigits (n / 16) ++ [hexDigit (n % 16)]

def isHidden (c : Char) : Bool :=
  c.toNat < 0x20 || (0x7F ≤ c.toNat && c.toNat ≤ 0xA0) || c.toNat = 0xAD

def escapeChar (quote c : Char) : List Char :=
  if c = quote || c = '\\' then ['\\', c]
  else if c = '\n' then ['\\', 'n']
  else if c = '\r' then ['\\', 'r']
  else if c = '\t' then ['\\', 't']
  else if c.toNat = 0 then ['\\', '0']
  else if isHidden c then ['\\', 'u', '\x7b'] ++ hexDigits c.toNat ++ ['\x7d']
  else [c]

def text (s : String) : String :=
  String.ofList (['"'] ++ s.toList.flatMap (escapeChar '"') ++ ['"'])

def char (c : Char) : String := String.ofList (['\''] ++ escapeChar '\'' c ++ ['\''])

def escapeByte (b : UInt8) : List Char :=
  let n := b.toNat
  if n = 0x22 || n = 0x5C then ['\\', Char.ofNat n]
  else if n = 0x0A then ['\\', 'n']
  else if n = 0x0D then ['\\', 'r']
  else if n = 0x09 then ['\\', 't']
  else if n = 0 then ['\\', '0']
  else if 0x20 ≤ n && n < 0x7F then [Char.ofNat n]
  else ['\\', 'x', hexDigit (n / 16), hexDigit (n % 16)]

def bytes (bs : Bytes) : String := String.ofList (['b', '"'] ++ bs.flatMap escapeByte ++ ['"'])

end DeviceBus.Quoted
