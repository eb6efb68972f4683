import DeviceBus.Text.Utf8

/-! What can be wrong with a JSON text, and where. A reader that stops says how many bytes it left unread;
`Fault.at` turns that into a line and a column, both of which count bytes. -/
namespace DeviceBus.Json

inductive Cause
  | endInValue
  | endInList
  | endInObject
  | endInString
  | expectedValue
  | expectedIdent
  | expectedColon
  | expectedListEnd
  | expectedObjectEnd
  | keyNotString
  | trailingComma
  | trailingCharacters
  | controlCharacter
  | invalidEscape
  | loneSurrogate
  | endOfHexEscape
  | invalidNumber
  | numberOutOfRange
  | nestedTooDeep
deriving DecidableEq, Repr

def Cause.message : Cause → String
  | .endInValue => "EOF while parsing a value"
  | .endInList => "EOF while parsing a list"
  | .endInObject => "EOF while parsing an object"
  | .endInString => "EOF while parsing a string"
  | .expectedValue => "expected value"
  | .expectedIdent => "expected ident"
  | .expectedColon => "expected `:`"
  | .expectedListEnd => "expected `,` or `]`"
  | .expectedObjectEnd => "expected `,` or `\x7d`"
  | .keyNotString => "key must be a string"
  | .trailingComma => "trailing comma"
  | .trailingCharacters => "trailing characters"
  | .controlCharacter => "control character (\\u0000-\\u001F) found while parsing a string"
  | .invalidEscape => "invalid escape"
  | .loneSurrogate => "lone leading surrogate in hex escape"
  | .endOfHexEscape => "unexpected end of hex escape"
  | .invalidNumber => "invalid number"
  | .numberOutOfRange => "number out of range"
  | .nestedTooDeep => "recursion limit exceeded"

/-- A cause, and the number of bytes left unread when it was found. -/
structure Stop where
  cause : Cause
  left : Nat
deriving DecidableEq, Repr

def stopBefore (cause : Cause) (rest : List Char) : Stop := ⟨cause, Utf8.size rest⟩

def stopAfter (bytes : Nat) (cause : Cause) (rest : List Char) : Stop := ⟨cause, Utf8.size rest - bytes⟩

structure Fault where
  cause : Cause
  line : Nat
  column : Nat
deriving DecidableEq, Repr

def position : Bytes → Nat × Nat :=
  List.foldl (fun (line, column) b => if b = 0x0A then (line + 1, 0) else (line, column + 1)) (1, 0)

def Fault.at (text : List Char) (stop : Stop) : Fault :=
  let bytes := Utf8.encode text
  let (line, column) := position (bytes.take (bytes.length - stop.left))
  ⟨stop.cause, line, column⟩

def Fault.message (f : Fault) : String :=
  f.cause.message ++ s!" at line {f.line} column {f.column}"

end DeviceBus.Json
