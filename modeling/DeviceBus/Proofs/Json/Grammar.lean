import DeviceBus.Json.Reader

/-! The grammar of JSON texts, apart from how they are read. A document keeps the members of an object as they are written,
in their order and with every repetition; its value settles them, the last member of a key counting. The grammar
is that of a reader with limits: numbers have to be in range, and brackets are nested so deep at most. -/
namespace DeviceBus.Json

def Blank (text : List Char) : Prop := ∀ c ∈ text, isSpace c = true

section Strings

/-- What stands for a character behind a backslash: a letter, its number, or the two halves of its number. -/
inductive Escape : Char → List Char → Prop
  | letter {letter c : Char} (listed : letterEscapes.lookup letter = some c) : Escape c [letter]
  | number {p q r s : Char} {n : Nat} (digits : hexQuad? p q r s = some n) (low : isLowSurrogate n = false)
      (high : isHighSurrogate n = false) : Escape (Char.ofNat n) ['u', p, q, r, s]
  | pair {p q r s t u v w : Char} {first second : Nat} (digits : hexQuad? p q r s = some first)
      (more : hexQuad? t u v w = some second) (high : isHighSurrogate first = true)
      (low : isLowSurrogate second = true) :
      Escape (joinSurrogates first second) ['u', p, q, r, s, '\\', 'u', t, u, v, w]

inductive Characters : List Char → List Char → Prop
  | nil : Characters [] []
  | plain {c : Char} {cs text : List Char} (notQuote : c ≠ '"') (notSlash : c ≠ '\\') (printed : ¬ c.toNat < 0x20)
      (rest : Characters cs text) : Characters (c :: cs) (c :: text)
  | escaped {c : Char} {cs form text : List Char} (escape : Escape c form) (rest : Characters cs text) :
      Characters (c :: cs) ('\\' :: (form ++ text))

inductive StringText : String → List Char → Prop
  | quoted {cs inside : List Char} (inner : Characters cs inside) :
      StringText (String.ofList cs) ('"' :: (inside ++ ['"']))

end Strings

section Numbers

structure Digits (ds : List Char) : Prop where
  nonempty : ds ≠ []
  all : ∀ c ∈ ds, c.isDigit = true

/-- The digits before the point, of which only a lone one may be a zero at the front. -/
structure WholeText (ds : List Char) : Prop extends Digits ds where
  lead : ds.head? = some '0' → ds = ['0']

inductive PlacesText : Option (List Char) → List Char → Prop
  | none : PlacesText none []
  | point {ds : List Char} (digits : Digits ds) : PlacesText (some ds) ('.' :: ds)

inductive ExponentText : Option (Bool × List Char) → List Char → Prop
  | none : ExponentText none []
  | bare {mark : Char} {ds : List Char} (marked : mark = 'e' ∨ mark = 'E') (digits : Digits ds) :
      ExponentText (some (false, ds)) (mark :: ds)
  | up {mark : Char} {ds : List Char} (marked : mark = 'e' ∨ mark = 'E') (digits : Digits ds) :
      ExponentText (some (false, ds)) (mark :: '+' :: ds)
  | down {mark : Char} {ds : List Char} (marked : mark = 'e' ∨ mark = 'E') (digits : Digits ds) :
      ExponentText (some (true, ds)) (mark :: '-' :: ds)

inductive NumeralText : Numeral → List Char → Prop
  | parts {n : Numeral} {places exponent : List Char} (whole : WholeText n.whole)
      (fraction : PlacesText n.places places) (power : ExponentText n.exponent exponent) :
      NumeralText n (n.whole ++ (places ++ exponent))

/-- A text for a number, which has to be in range. -/
inductive NumberText : JsonNumber → List Char → Prop
  | positive {n : Numeral} {text : List Char} {number : JsonNumber} (sign : n.negative = false)
      (numeral : NumeralText n text) (value : n.value = .ok number) : NumberText number text
  | negative {n : Numeral} {text : List Char} {number : JsonNumber} (sign : n.negative = true)
      (numeral : NumeralText n text) (value : n.value = .ok number) : NumberText number ('-' :: text)

end Numbers

inductive Document
  | null
  | bool (b : Bool)
  | number (n : JsonNumber)
  | string (s : String)
  | array (elements : List Document)
  | object (members : List (String × Document))
deriving Inhabited

namespace Document

mutual

def value : Document → Json
  | .null => .null
  | .bool b => .bool b
  | .number n => .number n
  | .string s => .string s
  | .array elements => .array (values elements)
  | .object members => ofMembers (memberValues members)

def values : List Document → List Json
  | [] => []
  | document :: rest => document.value :: values rest

def memberValues : List (String × Document) → List (String × Json)
  | [] => []
  | (key, document) :: rest => (key, document.value) :: memberValues rest

end

theorem values_eq (elements : List Document) : values elements = elements.map value := by
  induction elements with
  | nil => rfl
  | cons document rest ih => rw [values, ih, List.map_cons]

theorem memberValues_eq (members : List (String × Document)) :
    memberValues members = members.map fun m => (m.1, m.2.value) := by
  induction members with
  | nil => rfl
  | cons m rest ih => rw [memberValues, ih, List.map_cons]

def last? (members : List (String × Document)) (key : String) : Option Document := members.reverse.lookup key

end Document

def separated {α : Type} (form : α → List Char) : List α → List Char
  | [] => []
  | [x] => form x
  | x :: y :: rest => form x ++ ',' :: separated form (y :: rest)

structure Element where
  document : Document
  text : List Char

structure Entry where
  key : String
  label : List Char
  document : Document
  text : List Char

namespace Entry

def member (e : Entry) : String × Document := (e.key, e.document)

def form (e : Entry) : List Char := e.label ++ ':' :: e.text

def Labelled (e : Entry) : Prop :=
  ∃ before name after, e.label = before ++ (name ++ after) ∧ Blank before ∧ StringText e.key name ∧ Blank after

end Entry

/-- A text for a document in which brackets are nested so deep at most, with any space around it. -/
inductive Written : Nat → Document → List Char → Prop
  | null {depth : Nat} : Written depth .null ['n', 'u', 'l', 'l']
  | true {depth : Nat} : Written depth (.bool true) ['t', 'r', 'u', 'e']
  | false {depth : Nat} : Written depth (.bool false) ['f', 'a', 'l', 's', 'e']
  | number {depth : Nat} {n : JsonNumber} {text : List Char} (form : NumberText n text) :
      Written depth (.number n) text
  | string {depth : Nat} {s : String} {text : List Char} (form : StringText s text) : Written depth (.string s) text
  | array {depth : Nat} {gap : List Char} {elements : List Element} (blank : Blank gap)
      (each : ∀ e ∈ elements, Written depth e.document e.text) :
      Written (depth + 1) (.array (elements.map Element.document))
        ('[' :: (gap ++ (separated Element.text elements ++ [']'])))
  | object {depth : Nat} {gap : List Char} {entries : List Entry} (blank : Blank gap)
      (labelled : ∀ e ∈ entries, e.Labelled) (each : ∀ e ∈ entries, Written depth e.document e.text) :
      Written (depth + 1) (.object (entries.map Entry.member))
        ('\x7b' :: (gap ++ (separated Entry.form entries ++ ['\x7d'])))
  | spaced {depth : Nat} {document : Document} {before text after : List Char} (early : Blank before)
      (form : Written depth document text) (late : Blank after) :
      Written depth document (before ++ (text ++ after))

namespace Written

theorem number_text {depth : Nat} {n : JsonNumber} {text : List Char} (written : Written depth (.number n) text) :
    ∃ form, NumberText n form := by
  generalize same : Document.number n = d at written
  induction written with
  | number form =>
    cases same
    exact ⟨_, form⟩
  | spaced _ _ _ ih => exact ih same
  | null | true | false | string | array | object => cases same

theorem of_element {depth : Nat} {elements : List Document} {text : List Char} (written : Written depth (.array elements) text)
    {d : Document} (member : d ∈ elements) : ∃ depth text, Written depth d text := by
  generalize same : Document.array elements = whole at written
  induction written with
  | array _ each =>
    cases same
    obtain ⟨e, present, rfl⟩ := List.mem_map.mp member
    exact ⟨_, _, each e present⟩
  | spaced _ _ _ ih => exact ih same
  | null | true | false | number | string | object => cases same

theorem of_member {depth : Nat} {members : List (String × Document)} {text : List Char}
    (written : Written depth (.object members) text) {m : String × Document} (member : m ∈ members) :
    ∃ depth text, Written depth m.2 text := by
  generalize same : Document.object members = whole at written
  induction written with
  | object _ _ each =>
    cases same
    obtain ⟨e, present, rfl⟩ := List.mem_map.mp member
    exact ⟨_, _, each e present⟩
  | spaced _ _ _ ih => exact ih same
  | null | true | false | number | string | array => cases same

end Written

end DeviceBus.Json
