import DeviceBus.Decimal.Layout
import DeviceBus.Json.Value
import DeviceBus.Text.Quoted

/-! Writing JSON in its compact form: no white space, and in strings only the escapes that the format asks
for. -/
namespace DeviceBus.Json

def layout : Decimal.Layout := ⟨fun point => -5 < point && point ≤ 16, true, true, .toEven⟩

def escapeChar (c : Char) : List Char :=
  if c = '"' then ['\\', '"']
  else if c = '\\' then ['\\', '\\']
  else if c = '\x08' then ['\\', 'b']
  else if c = '\t' then ['\\', 't']
  else if c = '\n' then ['\\', 'n']
  else if c = '\x0c' then ['\\', 'f']
  else if c = '\r' then ['\\', 'r']
  else if c.toNat < 0x20 then
    ['\\', 'u', '0', '0', Quoted.hexDigit (c.toNat / 16), Quoted.hexDigit (c.toNat % 16)]
  else [c]

def writeString (s : String) : List Char := '"' :: s.toList.flatMap escapeChar ++ ['"']

def writeNumber : JsonNumber → List Char
  | .integer n => (Decimal.intText n).toList
  | .float x => (Decimal.floatText layout x).toList

mutual

def write : Json → List Char
  | .null => "null".toList
  | .bool b => if b then "true".toList else "false".toList
  | .number n => writeNumber n
  | .string s => writeString s
  | .array elements => '[' :: writeElements elements ++ [']']
  | .object members => '\x7b' :: writeMembers members ++ ['\x7d']

def writeElements : List Json → List Char
  | [] => []
  | [v] => write v
  | v :: w :: rest => write v ++ ',' :: writeElements (w :: rest)

def writeMembers : List (String × Json) → List Char
  | [] => []
  | [(key, v)] => writeString key ++ ':' :: write v
  | (key, v) :: next :: rest => writeString key ++ ':' :: write v ++ ',' :: writeMembers (next :: rest)

end

def text (v : Json) : String := String.ofList (write v)

end DeviceBus.Json
