import Mathlib.Logic.Relator
import DeviceBus.Proofs.Envelope.Acceptance
import DeviceBus.Proofs.Json.RoundTrip
import DeviceBus.Proofs.Text.Blank

/-! The fields of a record, said of the document of its element. A field has several keys; it is what stands under the first of
them that holds something of its kind, so that nothing unusable under an earlier key hides what a later one holds. -/
namespace DeviceBus.Envelope

open Json (Document Written WholeText Digits NumberText)
open Json.Document (last? value)

/-- The last member under a key is of a kind, as something. -/
def Under {α : Type} (members : List (String × Document)) (kind : Document → α → Prop) (key : String) (v : α) : Prop :=
  ∃ d, last? members key = some d ∧ kind d v

/-- What the first of the keys holds that holds anything of the kind. -/
inductive Found {α : Type} (members : List (String × Document)) (kind : Document → α → Prop) :
    List String → Option α → Prop
  | here {key : String} {keys : List String} {v : α} (held : Under members kind key v) :
      Found members kind (key :: keys) (some v)
  | later {key : String} {keys : List String} {found : Option α} (unusable : ∀ v, ¬ Under members kind key v)
      (rest : Found members kind keys found) : Found members kind (key :: keys) found
  | nowhere : Found members kind [] none

inductive Text : Document → String → Prop
  | string (s : String) : Text (.string s) s

/-- An integer that 64 bits hold without a sign, or a string that spells one. -/
inductive Seconds : Document → Nat → Prop
  | integer {n : Nat} (small : n < 0x10000000000000000) : Seconds (.number (.integer n)) n
  | spelled {before sign ds after : List Char} (early : Blank.Blanks before) (plus : sign = [] ∨ sign = ['+'])
      (digits : Digits ds) (late : Blank.Blanks after) (small : Decimal.value ds < 0x10000000000000000) :
      Seconds (.string (String.ofList (before ++ (sign ++ (ds ++ after))))) (Decimal.value ds)

/-- The record of an object with these members. -/
structure Resolved (members : List (String × Document)) (record : Record) : Prop where
  payload : last? members "payload" = some (.string record.payload)
  resourcePath : ∃ path, Found members Text ["resourcePath", "path", "uri"] path ∧ record.resourcePath = path.getD ""
  endpoint : Found members Text ["endpoint", "ep", "id"] record.endpoint
  contentType : Found members Text ["ct", "content_type"] record.contentType
  maxAge : Found members Seconds ["max-age", "max_age"] record.maxAge

section Kinds

variable {d : Document}

theorem text_iff {s : String} : Text d s ↔ d.value.string? = some s := by
  constructor
  · intro text
    cases text
    rfl
  · intro same
    cases d with
    | string t =>
      cases same
      exact .string _
    | null | bool | number | array | object => cases same

private theorem text_unique : Relator.RightUnique Text :=
  fun _ _ _ one other => Option.some.inj ((text_iff.mp one).symm.trans (text_iff.mp other))

private theorem bare_signed {sign ds : List Char} (plus : sign = [] ∨ sign = ['+']) (digits : Digits ds) :
    Blank.Bare (sign ++ ds) := by
  have unblank : ∀ c ∈ sign ++ ds, Blank.isBlank c = false := by
    intro c member
    rcases List.mem_append.mp member with signed | digit
    · rcases plus with rfl | rfl
      · cases signed
      · rw [List.mem_singleton.mp signed]
        decide
    · exact Blank.isBlank_of_isDigit (digits.all c digit)
  exact Blank.bare_of_unblank unblank

theorem seconds_string_iff {s : String} {n : Nat} : Seconds (.string s) n ↔ seconds? (.string s) = some n := by
  rw [seconds?, Decimal.readNat?_eq_some_iff]
  constructor
  · intro spelled
    cases spelled with
    | @spelled before sign ds after early plus digits late small =>
      rw [String.toList_ofList]
      refine ⟨sign, ds, ?_, plus, Decimal.readDigits?_eq_some_iff.mpr ⟨digits.nonempty, digits.all, rfl⟩, small⟩
      exact Blank.trim_eq_iff.mpr ⟨before, after, by rw [List.append_assoc], early, late, bare_signed plus digits⟩
  · rintro ⟨sign, ds, trimmed, plus, read, small⟩
    obtain ⟨nonempty, all, rfl⟩ := Decimal.readDigits?_eq_some_iff.mp read
    obtain ⟨before, after, whole, early, late, -⟩ := Blank.trim_eq_iff.mp trimmed
    rw [List.append_assoc] at whole
    rw [← String.ofList_toList (s := s), whole]
    exact .spelled early plus ⟨nonempty, all⟩ late small

private theorem eq_natCast_of_seconds? {k : Int} {n : Nat} (read : seconds? (.number (.integer k)) = some n) : k = n := by
  rw [seconds?] at read
  split at read
  · next natural =>
    cases read
    exact (Int.toNat_of_nonneg natural).symm
  · cases read

theorem seconds_iff {n : Nat} : Seconds d n ↔ seconds? d.value = some n ∧ n < 0x10000000000000000 := by
  constructor
  · intro seconds
    cases seconds with
    | integer small => exact ⟨rfl, small⟩
    | spelled early plus digits late small =>
      exact ⟨seconds_string_iff.mp (.spelled early plus digits late small), small⟩
  · rintro ⟨read, small⟩
    cases d with
    | string s => exact seconds_string_iff.mpr read
    | number number =>
      cases number with
      | float x => cases read
      | integer k =>
        cases eq_natCast_of_seconds? read
        exact .integer small
    | null | bool | array | object => cases read

private theorem seconds_iff_of_written {depth : Nat} {text : List Char} (written : Written depth d text) {n : Nat} :
    Seconds d n ↔ seconds? d.value = some n := by
  refine ⟨fun seconds => (seconds_iff.mp seconds).1, fun read => seconds_iff.mpr ⟨read, ?_⟩⟩
  cases d with
  | string s =>
    cases seconds_string_iff.mpr read with
    | spelled _ _ _ _ small => exact small
  | number number =>
    cases number with
    | float x => cases read
    | integer k =>
      cases eq_natCast_of_seconds? read
      -- The bound is not checked where seconds are read: a numeral beyond it is a float from the start.
      obtain ⟨form, isNumber⟩ := written.number_text
      exact ((Json.numberText_natCast_iff isNumber).mp rfl).2.2
  | null | bool | array | object => cases read

private theorem seconds_unique : Relator.RightUnique Seconds :=
  fun _ _ _ one other => Option.some.inj ((seconds_iff.mp one).1.symm.trans (seconds_iff.mp other).1)

theorem seconds_number_iff {number : JsonNumber} {text : List Char} (form : NumberText number text) {n : Nat} :
    Seconds (.number number) n ↔ WholeText text ∧ Decimal.value text = n ∧ n < 0x10000000000000000 := by
  rw [← Json.numberText_natCast_iff form]
  constructor
  · intro seconds
    cases seconds
    rfl
  · intro same
    subst same
    exact .integer ((Json.numberText_natCast_iff form).mp rfl).2.2

end Kinds

section Keys

variable {α : Type} {members : List (String × Document)} {kind : Document → α → Prop} {keys : List String}
  {found : Option α}

private theorem not_under_of_missing {key : String} (missing : last? members key = none) (v : α) :
    ¬ Under members kind key v := by
  rintro ⟨d, last, -⟩
  cases missing.symm.trans last

private theorem not_under_of_last {key : String} {d : Document} (last : last? members key = some d)
    (unusable : ∀ v, ¬ kind d v) (v : α) : ¬ Under members kind key v := by
  rintro ⟨e, also, proper⟩
  cases last.symm.trans also
  exact unusable v proper

private theorem found_first? {settled : List (String × Json)} {f : Json → Option α}
    (looked : ∀ key, Json.member? settled key = (last? members key).map value)
    (same : ∀ key d v, last? members key = some d → (kind d v ↔ f d.value = some v)) (keys : List String) :
    Found members kind keys (first? settled keys f) := by
  induction keys with
  | nil => exact .nowhere
  | cons key keys ih =>
    have under : ∀ v, Under members kind key v ↔ (Json.member? settled key).bind f = some v := by
      intro v
      rw [looked, Under]
      cases last : last? members key with
      | none => simp
      | some d => simp [same key d v last]
    rw [first?, List.findSome?_cons]
    cases held : (Json.member? settled key).bind f with
    | some v => exact .here ((under v).mpr held)
    | none =>
      refine .later (fun v usable => ?_) ih
      rw [under, held] at usable
      cases usable

theorem Found.eq_none_iff (settled : Found members kind keys found) :
    found = none ↔ ∀ key ∈ keys, ∀ v, ¬ Under members kind key v := by
  induction settled with
  | @here key keys v held => exact ⟨nofun, fun none => absurd held (none key List.mem_cons_self v)⟩
  | later unusable _ ih => rw [List.forall_mem_cons, ih, and_iff_right unusable]
  | nowhere => exact ⟨fun _ => nofun, fun _ => rfl⟩

theorem Found.congr {others : List (String × Document)}
    (same : ∀ key v, Under members kind key v ↔ Under others kind key v) (settled : Found members kind keys found) :
    Found others kind keys found := by
  induction settled with
  | here held => exact .here ((same _ _).mp held)
  | later unusable _ ih => exact .later (fun v usable => unusable v ((same _ v).mpr usable)) ih
  | nowhere => exact .nowhere

theorem Under.unique (functional : Relator.RightUnique kind) {key : String} {v w : α}
    (one : Under members kind key v) (other : Under members kind key w) : v = w := by
  obtain ⟨d, last, proper⟩ := one
  obtain ⟨e, also, alike⟩ := other
  cases last.symm.trans also
  exact functional proper alike

theorem Found.unique (functional : Relator.RightUnique kind) {other : Option α}
    (one : Found members kind keys found) (another : Found members kind keys other) : found = other := by
  -- Both go through the same keys, and whether one of them is usable does not depend on who asks.
  induction one with
  | here held =>
    cases another with
    | here also => rw [held.unique functional also]
    | later unusable => exact absurd held (unusable _)
  | later unusable _ ih =>
    cases another with
    | here held => exact absurd held (unusable _)
    | later _ rest => exact ih rest
  | nowhere =>
    cases another
    rfl

private theorem Found.of_first {early : List String} (unusable : ∀ key ∈ early, ∀ v, ¬ Under members kind key v)
    {key : String} {v : α} (held : Under members kind key v) (later : List String) : Found members kind (early ++ key :: later) (some v) := by
  induction early with
  | nil => exact .here held
  | cons first early ih =>
    rw [List.forall_mem_cons] at unusable
    exact .later unusable.1 (ih unusable.2)

theorem Found.first {v : α} (settled : Found members kind keys found) (same : found = some v) :
    ∃ early key later, keys = early ++ key :: later ∧ (∀ k ∈ early, ∀ w, ¬ Under members kind k w) ∧
      Under members kind key v := by
  induction settled with
  | @here key keys w held =>
    cases same
    exact ⟨[], key, keys, rfl, nofun, held⟩
  | @later first keys found unusable _ ih =>
    obtain ⟨early, key, later, rfl, before, held⟩ := ih same
    exact ⟨first :: early, key, later, rfl, List.forall_mem_cons.mpr ⟨unusable, before⟩, held⟩
  | nowhere => cases same

theorem Found.eq_some_iff (functional : Relator.RightUnique kind) (settled : Found members kind keys found) (v : α) :
    found = some v ↔ ∃ early key later, keys = early ++ key :: later ∧
      (∀ k ∈ early, ∀ w, ¬ Under members kind k w) ∧ Under members kind key v := by
  refine ⟨settled.first, ?_⟩
  rintro ⟨early, key, later, rfl, unusable, held⟩
  exact settled.unique functional (.of_first unusable held later)

end Keys

section Records

variable {members : List (String × Document)}

private theorem readElement_resolved {depth : Nat} {text : List Char} (written : Written depth (.object members) text)
    {payload : String} (last : last? members "payload" = some (.string payload)) :
    ∃ record, readElement (Document.object members).value = .ok record ∧ Resolved members record := by
  obtain ⟨settled, same, looked⟩ := Document.value_object members
  have held : Json.member? settled "payload" = some (.string payload) := by
    rw [looked, last]
    rfl
  refine ⟨recordOf settled payload, by rw [same, readElement, held], last, ?_, ?_, ?_, ?_⟩
  · exact ⟨_, found_first? looked (fun _ _ _ _ => text_iff) pathKeys, rfl⟩
  · exact found_first? looked (fun _ _ _ _ => text_iff) endpointKeys
  · exact found_first? looked (fun _ _ _ _ => text_iff) contentTypeKeys
  · -- Unlike a text, a number of seconds is only known to fit because the element was written.
    refine found_first? looked (fun key d n last => ?_) maxAgeKeys
    obtain ⟨depth, text, inside⟩ := written.of_member (Document.mem_of_last? last)
    exact seconds_iff_of_written inside

private theorem last?_replaced (front back : List (String × Document)) (key : String) (d e : Document) (asked : String) :
    last? (front ++ (key, e) :: back) asked = last? (front ++ (key, d) :: back) asked ∨
      last? (front ++ (key, d) :: back) asked = some d ∧ last? (front ++ (key, e) :: back) asked = some e := by
  rw [Document.last?_append, Document.last?_append, Document.last?_cons, Document.last?_cons]
  cases last? back asked with
  | some c => exact .inl rfl
  | none =>
    by_cases same : asked = key
    · exact .inr (by simp [same])
    · exact .inl (by simp [same])

private theorem Under.replaced {α : Type} {kind : Document → α → Prop} {front back : List (String × Document)} {key : String}
    {d e : Document} (alike : ∀ v, kind d v → kind e v) {asked : String} {v : α}
    (held : Under (front ++ (key, d) :: back) kind asked v) : Under (front ++ (key, e) :: back) kind asked v := by
  obtain ⟨c, last, proper⟩ := held
  rcases last?_replaced front back key d e asked with same | ⟨before, after⟩
  · exact ⟨c, same.trans last, proper⟩
  · cases before.symm.trans last
    exact ⟨e, after, alike v proper⟩

theorem Seconds.alike {d e : Document} {n : Nat} (one : Seconds d n) (other : Seconds e n) (k : Nat) (seconds : Seconds d k) :
    Seconds e k :=
  seconds_unique one seconds ▸ other

private theorem Resolved.maxAge_respelled {front back : List (String × Document)} {key : String} {d e : Document} {n : Nat}
    {record other : Record} (one : Seconds d n) (another : Seconds e n) (resolved : Resolved (front ++ (key, d) :: back) record)
    (also : Resolved (front ++ (key, e) :: back) other) : record.maxAge = other.maxAge := by
  have respelled := resolved.maxAge.congr fun asked k =>
    ⟨Under.replaced (one.alike another), Under.replaced (another.alike one)⟩
  exact respelled.unique seconds_unique also.maxAge

private theorem read_resolved {body : Bytes} {elements : List Document} (spells : Spells body (.array elements))
    (bear : ∀ d ∈ elements, ∃ payload, Bears d payload) :
    ∃ records, read body = .ok records ∧
      List.Forall₂ (fun d record => ∃ members, d = .object members ∧ Resolved members record) elements records := by
  have ⟨text, _, written⟩ := spells
  rw [read_of_spells_array spells]
  refine readElements_all 0 fun d member => ?_
  obtain ⟨payload, @⟨members, _, last⟩⟩ := bear d member
  obtain ⟨depth, inside, element⟩ := written.of_element member
  obtain ⟨record, accepted, resolved⟩ := readElement_resolved element last
  exact ⟨record, accepted, members, rfl, resolved⟩

end Records

/-- A body of objects with payloads is read into what their members resolve to. What counts for a number of seconds is an
integer of 64 bits, and as such any text that spells it; whatever else stands under an earlier key hides nothing. -/
theorem aliases_resolve :
    (∀ body elements, Spells body (.array elements) → (∀ d ∈ elements, ∃ payload, Bears d payload) →
      ∃ records, read body = .ok records ∧
        List.Forall₂ (fun d record => ∃ members, d = .object members ∧ Resolved members record) elements records) ∧
    (∀ number text n, NumberText number text →
      (Seconds (.number number) n ↔ WholeText text ∧ Decimal.value text = n ∧ n < 0x10000000000000000)) ∧
    (∀ front back key d e n record other, Seconds d n → Seconds e n → Resolved (front ++ (key, d) :: back) record →
      Resolved (front ++ (key, e) :: back) other → record.maxAge = other.maxAge) ∧
    ∀ members record, Resolved members record →
      ((∀ key ∈ ["resourcePath", "path", "uri"], ∀ s, ¬ Under members Text key s) → record.resourcePath = "") ∧
      (record.endpoint = none ↔ ∀ key ∈ ["endpoint", "ep", "id"], ∀ s, ¬ Under members Text key s) ∧
      (record.contentType = none ↔ ∀ key ∈ ["ct", "content_type"], ∀ s, ¬ Under members Text key s) ∧
      (record.maxAge = none ↔ ∀ key ∈ ["max-age", "max_age"], ∀ n, ¬ Under members Seconds key n) ∧
      ∀ n, record.maxAge = some n ↔ ∃ early key later, ["max-age", "max_age"] = early ++ key :: later ∧
        (∀ k ∈ early, ∀ m, ¬ Under members Seconds k m) ∧ Under members Seconds key n := by
  refine ⟨fun _ _ => read_resolved, fun _ _ _ form => seconds_number_iff form, ?_, ?_⟩
  · exact fun _ _ _ _ _ _ _ _ one another => Resolved.maxAge_respelled one another
  · intro members record resolved
    obtain ⟨path, found, same⟩ := resolved.resourcePath
    refine ⟨fun unusable => ?_, resolved.endpoint.eq_none_iff, resolved.contentType.eq_none_iff,
      resolved.maxAge.eq_none_iff, ?_⟩
    · rw [same, found.eq_none_iff.mpr unusable]
      rfl
    · exact resolved.maxAge.eq_some_iff seconds_unique

theorem aliases_resolve_of_unusable :
    ∃ record, read (Utf8.ofString
        "[\x7b\"payload\":\"A\",\"path\":null,\"uri\":\"/dev/mfg\",\"id\":\"ep-1\",\"max-age\":null,\"max_age\":\" +0060 \"\x7d]") =
      .ok [record] ∧ record.resourcePath = "/dev/mfg" ∧ record.endpoint = some "ep-1" ∧ record.contentType = none ∧
        record.maxAge = some 60 := by
  let whole : Json.Element := .object [("payload", ⟨.string "A", Json.writeString "A"⟩),
    ("path", ⟨.null, ['n', 'u', 'l', 'l']⟩),
    ("uri", ⟨.string "/dev/mfg", Json.writeString "/dev/mfg"⟩), ("id", ⟨.string "ep-1", Json.writeString "ep-1"⟩),
    ("max-age", ⟨.null, ['n', 'u', 'l', 'l']⟩), ("max_age", ⟨.string " +0060 ", Json.writeString " +0060 "⟩)]
  have written : Written 126 whole.document whole.text := by
    refine Json.written_fields ?_
    simp only [List.forall_mem_cons]
    exact ⟨.string (Json.stringText_writeString _), .null, .string (Json.stringText_writeString _),
      .string (Json.stringText_writeString _), .null, .string (Json.stringText_writeString _), nofun⟩
  have spells : Spells _ (.array [whole.document]) :=
    ⟨_, rfl, .array Json.blank_nil (List.forall_mem_singleton.mpr written)⟩
  obtain ⟨records, accepted, each⟩ :=
    aliases_resolve.1 _ _ spells (List.forall_mem_singleton.mpr ⟨"A", .payload (by rfl)⟩)
  cases each with
  | @cons _ record _ _ first rest =>
    cases rest
    obtain ⟨members, same, resolved⟩ := first
    cases same
    obtain ⟨path, found, same⟩ := resolved.resourcePath
    have uri : path = some "/dev/mfg" := found.unique text_unique
      (.later (not_under_of_missing rfl) (.later (not_under_of_last rfl nofun) (.here ⟨_, rfl, .string _⟩)))
    have endpoint : record.endpoint = some "ep-1" := resolved.endpoint.unique text_unique
      (.later (not_under_of_missing rfl) (.later (not_under_of_missing rfl) (.here ⟨_, rfl, .string _⟩)))
    have contentType : record.contentType = none := resolved.contentType.unique text_unique
      (.later (not_under_of_missing rfl) (.later (not_under_of_missing rfl) .nowhere))
    have space : Blank.Blanks [' '] := List.forall_mem_singleton.mpr (by decide)
    have digits : Digits ['0', '0', '6', '0'] := ⟨nofun, List.all_eq_true.mp rfl⟩
    have spelled : Seconds (.string " +0060 ") 60 := .spelled space (.inr rfl) digits space (by decide)
    have maxAge : record.maxAge = some 60 := resolved.maxAge.unique seconds_unique
      (.later (not_under_of_last rfl nofun) (.here ⟨_, rfl, spelled⟩))
    rw [uri] at same
    exact ⟨record, accepted, same, endpoint, contentType, maxAge⟩

end DeviceBus.Envelope
