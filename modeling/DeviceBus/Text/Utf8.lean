import DeviceBus.Bytes

/-! UTF-8. `encode` writes a text, `decode` reads one and says where a byte string stops being one, and
`decodeLossy` replaces what cannot be read. All three share the reading of a single sequence, `scan`. -/
namespace DeviceBus.Utf8

def encodeChar (c : Char) : Bytes :=
  let n := c.toNat
  if n < 0x80 then [n.toUInt8]
  else if n < 0x800 then [(0xC0 + n / 0x40).toUInt8, (0x80 + n % 0x40).toUInt8]
  else if n < 0x10000 then
    [(0xE0 + n / 0x1000).toUInt8, (0x80 + n / 0x40 % 0x40).toUInt8, (0x80 + n % 0x40).toUInt8]
  else
    [(0xF0 + n / 0x40000).toUInt8, (0x80 + n / 0x1000 % 0x40).toUInt8,
      (0x80 + n / 0x40 % 0x40).toUInt8, (0x80 + n % 0x40).toUInt8]

def encode (text : List Char) : Bytes := text.flatMap encodeChar

def size (text : List Char) : Nat := text.foldl (fun n c => n + (encodeChar c).length) 0

def ofString (text : String) : Bytes := encode text.toList

/-- What a first byte announces: how many bytes follow it, and the range of the first of them. The range is
narrower than that of the others where a wider one would admit a longer spelling, a surrogate or a
number beyond the last character. -/
structure Lead where
  more : Nat
  low : UInt8
  high : UInt8

def Lead.ofByte? (a : UInt8) : Option Lead :=
  if a < 0xC2 then none
  else if a ≤ 0xDF then some ⟨1, 0x80, 0xBF⟩
  else if a = 0xE0 then some ⟨2, 0xA0, 0xBF⟩
  else if a = 0xED then some ⟨2, 0x80, 0x9F⟩
  else if a ≤ 0xEF then some ⟨2, 0x80, 0xBF⟩
  else if a = 0xF0 then some ⟨3, 0x90, 0xBF⟩
  else if a ≤ 0xF3 then some ⟨3, 0x80, 0xBF⟩
  else if a = 0xF4 then some ⟨3, 0x80, 0x8F⟩
  else none

def isContinuation (b : UInt8) : Bool := 0x80 ≤ b && b ≤ 0xBF

inductive Scan
  | char (c : Char) (more : Nat)
  /-- No character begins with these bytes; so many of them could have begun one. -/
  | broken (valid : Nat)
  | cut

def scan (a : UInt8) (rest : Bytes) : Scan :=
  if a < 0x80 then .char (Char.ofNat a.toNat) 0
  else match Lead.ofByte? a with
    | none => .broken 1
    | some lead => match rest with
      | [] => .cut
      | b :: rest =>
        if b < lead.low || lead.high < b then .broken 1
        else if lead.more = 1 then
          .char (Char.ofNat (a.toNat % 0x20 * 0x40 + b.toNat % 0x40)) 1
        else match rest with
          | [] => .cut
          | c :: rest =>
            if !isContinuation c then .broken 2
            else if lead.more = 2 then
              .char (Char.ofNat (a.toNat % 0x10 * 0x1000 + b.toNat % 0x40 * 0x40 + c.toNat % 0x40)) 2
            else match rest with
              | [] => .cut
              | d :: _ =>
                if !isContinuation d then .broken 3
                else .char (Char.ofNat (a.toNat % 0x08 * 0x40000 + b.toNat % 0x40 * 0x1000 +
                  c.toNat % 0x40 * 0x40 + d.toNat % 0x40)) 3

inductive Fault
  | incomplete (index : Nat)
  | invalid (length index : Nat)
deriving DecidableEq, Repr

def Fault.message : Fault → String
  | .incomplete index => s!"incomplete utf-8 byte sequence from index {index}"
  | .invalid length index => s!"invalid utf-8 sequence of {length} bytes from index {index}"

def decodeFrom (index : Nat) : Bytes → Except Fault (List Char)
  | [] => .ok []
  | a :: rest =>
    match scan a rest with
    | .char c more => (decodeFrom (index + more + 1) (rest.drop more)).map (c :: ·)
    | .broken valid => .error (.invalid valid index)
    | .cut => .error (.incomplete index)
termination_by bytes => bytes.length

def decode (bytes : Bytes) : Except Fault (List Char) := decodeFrom 0 bytes

def toString? (bytes : Bytes) : Option String := (decode bytes).toOption.map String.ofList

/-- Every maximal sequence that is no character becomes a replacement character. -/
def decodeLossy : Bytes → List Char
  | [] => []
  | a :: rest =>
    match scan a rest with
    | .char c more => c :: decodeLossy (rest.drop more)
    | .broken valid => '\uFFFD' :: decodeLossy (rest.drop (valid - 1))
    | .cut => ['\uFFFD']
termination_by bytes => bytes.length

end DeviceBus.Utf8
