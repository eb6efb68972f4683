import DeviceBus.Json.Number
import DeviceBus.Outcome

/-! Reading JSON. Every reader takes the text that is left and returns a value with what follows it, so that
readers compose and stop at the first fault. Brackets may be nested as deep as the limit says; the
number of elements in a bracket is bounded by the length of the text. -/
namespace DeviceBus.Json

abbrev Reader (α : Type) := List Char → Except Stop (α × List Char)

def nestingLimit : Nat := 127

def isSpace (c : Char) : Bool := c = ' ' || c = '\n' || c = '\t' || c = '\r'

def skipSpace (text : List Char) : List Char := text.dropWhile isSpace

def readWord (value : Json) : List Char → Reader Json
  | [], text => .ok (value, text)
  | _ :: _, [] => .error ⟨.endInValue, 0⟩
  | w :: word, c :: text =>
    if c = w then readWord value word text else .error (stopAfter 1 .expectedIdent (c :: text))

def hexValue? (c : Char) : Option Nat :=
  if '0' ≤ c ∧ c ≤ '9' then some (c.toNat - 0x30)
  else if 'a' ≤ c ∧ c ≤ 'f' then some (c.toNat - 0x57)
  else if 'A' ≤ c ∧ c ≤ 'F' then some (c.toNat - 0x37)
  else none

def hexQuad? (a b c d : Char) : Option Nat := do
  let a ← hexValue? a
  let b ← hexValue? b
  let c ← hexValue? c
  let d ← hexValue? d
  return 0x1000 * a + 0x100 * b + 0x10 * c + d

def quadFault (text : List Char) : Stop :=
  if Utf8.size text < 4 then ⟨.endInString, 0⟩ else stopAfter 4 .invalidEscape text

def readQuad : List Char → Except Stop (Nat × List Char)
  | a :: b :: c :: d :: rest =>
    match hexQuad? a b c d with
    | some n => .ok (n, rest)
    | none => .error (quadFault (a :: b :: c :: d :: rest))
  | text => .error (quadFault text)

def isLowSurrogate (n : Nat) : Bool := 0xDC00 ≤ n && n ≤ 0xDFFF

def isHighSurrogate (n : Nat) : Bool := 0xD800 ≤ n && n ≤ 0xDBFF

def expectEscape (expected : Char) : List Char → Except Stop (List Char)
  | [] => .error ⟨.endInString, 0⟩
  | c :: rest => if c = expected then .ok rest else .error (stopAfter 1 .endOfHexEscape (c :: rest))

def joinSurrogates (high low : Nat) : Char :=
  Char.ofNat (0x10000 + (high - 0xD800) * 0x400 + (low - 0xDC00))

def readLowHalf (high : Nat) (text : List Char) : Except Stop (Char × List Char) := do
  let rest ← expectEscape '\\' text
  let rest ← expectEscape 'u' rest
  let (low, rest) ← readQuad rest
  if isLowSurrogate low then .ok (joinSurrogates high low, rest)
  else .error (stopBefore .loneSurrogate rest)

def readHexEscape (text : List Char) : Except Stop (Char × List Char) := do
  let (n, rest) ← readQuad text
  if isLowSurrogate n then .error (stopBefore .loneSurrogate rest)
  else if isHighSurrogate n then readLowHalf n rest
  else .ok (Char.ofNat n, rest)

def letterEscapes : List (Char × Char) :=
  [('"', '"'), ('\\', '\\'), ('/', '/'), ('b', '\x08'), ('f', '\x0c'), ('n', '\n'), ('r', '\r'),
    ('t', '\t')]

def readEscape : List Char → Except Stop (Char × List Char)
  | [] => .error ⟨.endInString, 0⟩
  | c :: rest =>
    match letterEscapes.lookup c with
    | some escaped => .ok (escaped, rest)
    | none =>
      if c = 'u' then readHexEscape rest else .error (stopAfter 1 .invalidEscape (c :: rest))

private theorem readQuad_length {text rest : List Char} {n : Nat} (h : readQuad text = .ok (n, rest)) :
    rest.length < text.length := by
  unfold readQuad at h
  split at h
  · split at h
    · cases h
      simp only [List.length_cons]
      omega
    · cases h
  · cases h

private theorem expectEscape_length {c : Char} {text rest : List Char} (h : expectEscape c text = .ok rest) :
    rest.length < text.length := by
  unfold expectEscape at h
  split at h
  · cases h
  · split at h
    · cases h
      simp
    · cases h

private theorem readLowHalf_length {high : Nat} {text rest : List Char} {c : Char}
    (h : readLowHalf high text = .ok (c, rest)) : rest.length < text.length := by
  obtain ⟨first, h₁, h⟩ := except_bind_ok h
  obtain ⟨second, h₂, h⟩ := except_bind_ok h
  obtain ⟨⟨low, third⟩, h₃, h⟩ := except_bind_ok h
  have := expectEscape_length h₁
  have := expectEscape_length h₂
  have := readQuad_length h₃
  simp only at h
  split at h
  · simp only [Except.ok.injEq, Prod.mk.injEq] at h
    obtain ⟨_, rfl⟩ := h
    omega
  · cases h

private theorem readHexEscape_length {text rest : List Char} {c : Char}
    (h : readHexEscape text = .ok (c, rest)) : rest.length < text.length := by
  obtain ⟨⟨n, first⟩, h₁, h⟩ := except_bind_ok h
  have := readQuad_length h₁
  simp only at h
  split at h
  · cases h
  · split at h
    · have := readLowHalf_length h
      omega
    · simp only [Except.ok.injEq, Prod.mk.injEq] at h
      obtain ⟨_, rfl⟩ := h
      assumption

private theorem readEscape_length {text rest : List Char} {c : Char} (h : readEscape text = .ok (c, rest)) :
    rest.length < text.length := by
  cases text with
  | nil => cases h
  | cons first text =>
    rw [readEscape] at h
    generalize letterEscapes.lookup first = letter at h
    cases letter with
    | some escaped =>
      cases h
      simp
    | none =>
      simp only at h
      split at h
      · have := readHexEscape_length h
        simp only [List.length_cons]
        omega
      · cases h

def readChars : List Char → Except Stop (List Char × List Char)
  | [] => .error ⟨.endInString, 0⟩
  | c :: rest =>
    if c = '"' then .ok ([], rest)
    else if c = '\\' then
      match h : readEscape rest with
      | .error stop => .error stop
      | .ok (escaped, more) =>
        have := readEscape_length h
        (readChars more).map fun (cs, rest) => (escaped :: cs, rest)
    else if c.toNat < 0x20 then .error (stopBefore .controlCharacter rest)
    else (readChars rest).map fun (cs, rest) => (c :: cs, rest)
termination_by text => text.length

def readString : Reader String := fun text =>
  (readChars text).map fun (cs, rest) => (String.ofList cs, rest)

def afterComma (close : Char) (text : List Char) : Except Stop (List Char) :=
  match skipSpace text with
  | [] => .error ⟨.endInValue, 0⟩
  | c :: rest => if c = close then .error (stopAfter 1 .trailingComma (c :: rest)) else .ok (c :: rest)

/-- What parts and closes the items of a bracket, with the causes of its own. -/
structure Bracket where
  close : Char
  ended : Cause
  expected : Cause

def listBracket : Bracket := ⟨']', .endInList, .expectedListEnd⟩

def objectBracket : Bracket := ⟨'\x7d', .endInObject, .expectedObjectEnd⟩

def readItems {α : Type} (bracket : Bracket) (item : Reader α) : Nat → Reader (List α)
  | 0, _ => .error ⟨bracket.ended, 0⟩
  | fuel + 1, text => do
    let (first, rest) ← item text
    match skipSpace rest with
    | [] => .error ⟨bracket.ended, 0⟩
    | c :: rest =>
      if c = bracket.close then return ([first], rest)
      else if c = ',' then do
        let rest ← afterComma bracket.close rest
        let (others, rest) ← readItems bracket item fuel rest
        return (first :: others, rest)
      else .error (stopAfter 1 bracket.expected (c :: rest))

def readBracket {α : Type} (bracket : Bracket) (item : Reader α) (fuel : Nat) : Reader (List α) :=
  fun text =>
    match skipSpace text with
    | [] => .error ⟨bracket.ended, 0⟩
    | c :: rest => if c = bracket.close then .ok ([], rest) else readItems bracket item fuel (c :: rest)

def readMember (value : Reader Json) : Reader (String × Json) := fun text =>
  match text with
  | '"' :: rest => do
    let (key, rest) ← readString rest
    match skipSpace rest with
    | [] => .error ⟨.endInObject, 0⟩
    | ':' :: rest => do
      let (v, rest) ← value rest
      return ((key, v), rest)
    | c :: rest => .error (stopAfter 1 .expectedColon (c :: rest))
  | _ => .error (stopAfter 1 .keyNotString text)

def readScalar (c : Char) (rest : List Char) : Except Stop (Json × List Char) :=
  if c = '"' then (readString rest).map fun (s, rest) => (.string s, rest)
  else if c = 'n' then readWord .null "ull".toList rest
  else if c = 't' then readWord (.bool true) "rue".toList rest
  else if c = 'f' then readWord (.bool false) "alse".toList rest
  else if c = '-' then (readNumber true rest).map fun (n, rest) => (.number n, rest)
  else if c.isDigit then (readNumber false (c :: rest)).map fun (n, rest) => (.number n, rest)
  else .error (stopAfter 1 .expectedValue (c :: rest))

def readValue (fuel : Nat) (depth : Nat) : Reader Json := fun text =>
  match skipSpace text with
  | [] => .error ⟨.endInValue, 0⟩
  | c :: rest =>
    if c = '[' then
      match depth with
      | 0 => .error (stopAfter 1 .nestedTooDeep (c :: rest))
      | depth + 1 => do
        let (elements, rest) ← readBracket listBracket (readValue fuel depth) fuel rest
        return (.array elements, rest)
    else if c = '\x7b' then
      match depth with
      | 0 => .error (stopAfter 1 .nestedTooDeep (c :: rest))
      | depth + 1 => do
        let (members, rest) ← readBracket objectBracket (readMember (readValue fuel depth)) fuel rest
        return (ofMembers members, rest)
    else readScalar c rest
termination_by structural depth

def read (text : List Char) : Except Fault Json :=
  let result : Except Stop Json := do
    let (value, rest) ← readValue text.length nestingLimit text
    match skipSpace rest with
    | [] => return value
    | c :: rest => .error (stopAfter 1 .trailingCharacters (c :: rest))
  result.mapError (Fault.at text)

end DeviceBus.Json
