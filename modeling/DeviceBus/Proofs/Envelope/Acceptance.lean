import Mathlib.Data.List.Forall2
import DeviceBus.Envelope
import DeviceBus.Proofs.Json.Acceptance
import DeviceBus.Proofs.Json.Members
import DeviceBus.Proofs.Text.Canonical

/-! Which bodies are envelopes, said of the documents that are written in them. A body is taken as a whole or not at all: each
element gives a record, or the first one that gives none is what the body is refused for. -/
namespace DeviceBus.Envelope

open Json (Document Written nestingLimit)
open Json.Document (last? value)

/-- The body is the bytes of a text for the document, with no more nesting than a reader allows. -/
def Spells (body : Bytes) (d : Document) : Prop :=
  ∃ text, body = Utf8.encode text ∧ Written nestingLimit d text

/-- The element is an object whose last member under `payload` is this string. -/
inductive Bears : Document → String → Prop
  | payload {members : List (String × Document)} {s : String} (last : last? members "payload" = some (.string s)) :
      Bears (.object members) s

inductive Flawed : Document → ElementFlaw → Prop
  | notObject {d : Document} (other : ∀ members, d ≠ .object members) : Flawed d .notObject
  | payloadMissing {members : List (String × Document)} (missing : last? members "payload" = none) :
      Flawed (.object members) .payloadMissing
  | payloadNotString {members : List (String × Document)} {d : Document} (last : last? members "payload" = some d)
      (other : ∀ s, d ≠ .string s) : Flawed (.object members) .payloadNotString

section Elements

variable {d : Document}

private theorem bears_or_flawed (d : Document) : (∃ payload, Bears d payload) ∨ ∃ cause, Flawed d cause := by
  cases d with
  | object members =>
    cases found : last? members "payload" with
    | none => exact .inr ⟨_, .payloadMissing found⟩
    | some last =>
      cases last with
      | string s => exact .inl ⟨s, .payload found⟩
      | null | bool | number | array | object => exact .inr ⟨_, .payloadNotString found nofun⟩
  | null | bool | number | string | array => exact .inr ⟨_, .notObject nofun⟩

private theorem readElement_bears {payload : String} (bears : Bears d payload) :
    ∃ record, readElement d.value = .ok record ∧ record.payload = payload := by
  obtain ⟨last⟩ := bears
  obtain ⟨settled, same, members⟩ := Document.value_object _
  have found : Json.member? settled "payload" = some (.string payload) := by
    rw [members, last]
    rfl
  rw [same, readElement, found]
  exact ⟨_, rfl, rfl⟩

private theorem readElement_flawed {cause : ElementFlaw} (flawed : Flawed d cause) : readElement d.value = .error cause := by
  cases flawed with
  | notObject other =>
    cases d with
    | object members => exact absurd rfl (other members)
    | null | bool | number | string | array => rfl
  | payloadMissing missing =>
    obtain ⟨settled, same, members⟩ := Document.value_object _
    have absent : Json.member? settled "payload" = none := by
      rw [members, missing]
      rfl
    rw [same, readElement, absent]
  | @payloadNotString written d last other =>
    obtain ⟨settled, same, members⟩ := Document.value_object written
    have found : Json.member? settled "payload" = some d.value := by
      rw [members, last]
      rfl
    rw [same, readElement, found]
    cases d with
    | string s => exact absurd rfl (other s)
    | null | bool | number | array | object => rfl

end Elements

section Arrays

theorem readElements_all {Proper : Document → Record → Prop} (index : Nat) {elements : List Document}
    (each : ∀ d ∈ elements, ∃ record, readElement d.value = .ok record ∧ Proper d record) :
    ∃ records, readElements index (elements.map value) = .ok records ∧ List.Forall₂ Proper elements records := by
  induction elements generalizing index with
  | nil => exact ⟨[], rfl, .nil⟩
  | cons d elements ih =>
    obtain ⟨record, first, proper⟩ := each d List.mem_cons_self
    obtain ⟨records, others, rest⟩ := ih (index + 1) fun e member => each e (List.mem_cons_of_mem _ member)
    refine ⟨record :: records, ?_, .cons proper rest⟩
    rw [List.map_cons, readElements, first, others]
    rfl

private theorem readElements_bear (index : Nat) {elements : List Document}
    (bear : ∀ d ∈ elements, ∃ payload, Bears d payload) :
    ∃ records, readElements index (elements.map value) = .ok records ∧
      List.Forall₂ (fun d record => Bears d record.payload) elements records := by
  refine readElements_all index fun d member => ?_
  obtain ⟨payload, bears⟩ := bear d member
  obtain ⟨record, accepted, same⟩ := readElement_bears bears
  exact ⟨record, accepted, same ▸ bears⟩

private theorem readElements_flawed (index : Nat) {front : List Document} {d : Document} {cause : ElementFlaw}
    (bear : ∀ e ∈ front, ∃ payload, Bears e payload) (flawed : Flawed d cause) (back : List Document) :
    readElements index ((front ++ d :: back).map value) = .error (.element (index + front.length) cause) := by
  induction front generalizing index with
  | nil =>
    rw [List.nil_append, List.map_cons, readElements, readElement_flawed flawed]
    rfl
  | cons e front ih =>
    obtain ⟨payload, bears⟩ := bear e List.mem_cons_self
    obtain ⟨record, first, -⟩ := readElement_bears bears
    have others := ih (index + 1) fun e member => bear e (List.mem_cons_of_mem _ member)
    rw [List.cons_append, List.map_cons, readElements, first, others, List.length_cons, Nat.add_right_comm,
      Nat.add_assoc]
    rfl

private theorem bear_or_first_flawed (elements : List Document) :
    (∀ d ∈ elements, ∃ payload, Bears d payload) ∨
      ∃ front d back cause, elements = front ++ d :: back ∧ (∀ e ∈ front, ∃ payload, Bears e payload) ∧
        Flawed d cause := by
  induction elements with
  | nil => exact .inl nofun
  | cons d elements ih =>
    rcases bears_or_flawed d with bears | ⟨cause, flawed⟩
    · rcases ih with all | ⟨front, e, back, cause, rfl, bear, flawed⟩
      · exact .inl (List.forall_mem_cons.mpr ⟨bears, all⟩)
      · exact .inr ⟨d :: front, e, back, cause, rfl, List.forall_mem_cons.mpr ⟨bears, bear⟩, flawed⟩
    · exact .inr ⟨[], d, elements, cause, rfl, nofun, flawed⟩

end Arrays

section Bodies

variable {body : Bytes}

theorem read_of_ok {text : List Char} {v : Json} (decoded : Utf8.decode body = .ok text)
    (parsed : Json.read text = .ok v) : read body = ofJson v := by
  rw [read, decoded]
  change ((Json.read text).mapError .notJson >>= ofJson) = _
  rw [parsed]
  rfl

private theorem read_of_spells {d : Document} (spells : Spells body d) : read body = ofJson d.value := by
  obtain ⟨text, rfl, written⟩ := spells
  exact read_of_ok (Utf8.decode_encode text) (Json.read_eq_ok_iff.mpr ⟨d, written, rfl⟩)

private theorem spells_of_read {records : List Record} (accepted : read body = .ok records) :
    ∃ elements, Spells body (.array elements) := by
  obtain ⟨text, decoded, next⟩ := except_bind_ok accepted
  obtain ⟨v, parsed, last⟩ := except_bind_ok next
  have encoded := (Utf8.decode_eq_ok_iff body text).mp (except_mapError_ok decoded)
  obtain ⟨d, written, rfl⟩ := Json.read_eq_ok_iff.mp (except_mapError_ok parsed)
  cases d with
  | array elements => exact ⟨elements, text, encoded, written⟩
  | null | bool | number | string | object => cases last

theorem read_of_spells_array {elements : List Document} (spells : Spells body (.array elements)) :
    read body = readElements 0 (elements.map value) := by
  rw [read_of_spells spells, Document.value, Document.values_eq, ofJson]

private theorem read_bear {elements : List Document} (spells : Spells body (.array elements))
    (bear : ∀ d ∈ elements, ∃ payload, Bears d payload) :
    ∃ records, read body = .ok records ∧ List.Forall₂ (fun d record => Bears d record.payload) elements records := by
  rw [read_of_spells_array spells]
  exact readElements_bear 0 bear

private theorem read_flawed {front back : List Document} {d : Document} {cause : ElementFlaw}
    (spells : Spells body (.array (front ++ d :: back))) (bear : ∀ e ∈ front, ∃ payload, Bears e payload)
    (flawed : Flawed d cause) : read body = .error (.element front.length cause) := by
  rw [read_of_spells_array spells, readElements_flawed 0 bear flawed back, Nat.zero_add]

/-- Of a body that spells an array, the elements decide: all of them bear payloads, or there is a first one that is flawed. -/
theorem read_cases {elements : List Document} (spells : Spells body (.array elements)) :
    (∃ records, read body = .ok records ∧ (∀ d ∈ elements, ∃ payload, Bears d payload) ∧
      List.Forall₂ (fun d record => Bears d record.payload) elements records) ∨
    ∃ front d back cause, elements = front ++ d :: back ∧ (∀ e ∈ front, ∃ payload, Bears e payload) ∧
      Flawed d cause ∧ read body = .error (.element front.length cause) := by
  rcases bear_or_first_flawed elements with bear | ⟨front, d, back, cause, rfl, bear, flawed⟩
  · obtain ⟨records, accepted, each⟩ := read_bear spells bear
    exact .inl ⟨records, accepted, bear, each⟩
  · exact .inr ⟨front, d, back, cause, rfl, bear, flawed, read_flawed spells bear flawed⟩

/-- A body is read exactly if it spells an array of elements that bear payloads, and each element gives a record with its
payload. Any other body is refused, without a record; if it spells an array, for the first flawed element. -/
theorem read_outcomes (body : Bytes) :
    ((∃ records, read body = .ok records) ↔
      ∃ elements, Spells body (.array elements) ∧ ∀ d ∈ elements, ∃ payload, Bears d payload) ∧
    (∀ elements records, Spells body (.array elements) → read body = .ok records →
      List.Forall₂ (fun d record => Bears d record.payload) elements records) ∧
    ((¬ ∃ records, read body = .ok records) →
      ∃ flaw, read body = .error flaw ∧ flaw.error.kind = .malformedEnvelope) ∧
    ∀ elements flaw, Spells body (.array elements) →
      (read body = .error flaw ↔
        ∃ front d back cause, elements = front ++ d :: back ∧ (∀ e ∈ front, ∃ payload, Bears e payload) ∧
          Flawed d cause ∧ flaw = .element front.length cause ∧
          flaw.error = ⟨.malformedEnvelope, s!"Element {front.length} " ++ cause.message⟩) := by
  refine ⟨⟨?_, ?_⟩, ?_, ?_, fun elements flaw spells => ⟨?_, ?_⟩⟩
  · rintro ⟨records, accepted⟩
    obtain ⟨elements, spells⟩ := spells_of_read accepted
    rcases read_cases spells with ⟨-, -, bear, -⟩ | ⟨front, d, back, cause, -, -, -, refused⟩
    · exact ⟨elements, spells, bear⟩
    · rw [accepted] at refused
      cases refused
  · rintro ⟨elements, spells, bear⟩
    obtain ⟨records, accepted, -⟩ := read_bear spells bear
    exact ⟨records, accepted⟩
  · intro elements records spells accepted
    rcases read_cases spells with ⟨others, also, -, each⟩ | ⟨front, d, back, cause, -, -, -, refused⟩
    · rw [accepted] at also
      cases also
      exact each
    · rw [accepted] at refused
      cases refused
  · intro unread
    cases result : read body with
    | ok records => exact absurd ⟨records, result⟩ unread
    | error flaw => exact ⟨flaw, rfl, rfl⟩
  · intro refused
    rcases read_cases spells with ⟨records, accepted, -⟩ | ⟨front, d, back, cause, same, bear, flawed, also⟩
    · rw [accepted] at refused
      cases refused
    · rw [also] at refused
      cases refused
      exact ⟨front, d, back, cause, same, bear, flawed, rfl, rfl⟩
  · rintro ⟨front, d, back, cause, rfl, bear, flawed, rfl, -⟩
    exact read_flawed spells bear flawed

theorem read_outcomes_of_repeated_payload :
    ∃ record, read (Utf8.ofString "[\x7b\"payload\":true,\"payload\":\"kept\"\x7d]") = .ok [record] ∧
      record.payload = "kept" := by
  let first : Json.Entry := ⟨"payload", Json.writeString "payload", .bool true, ['t', 'r', 'u', 'e']⟩
  let second : Json.Entry := ⟨"payload", Json.writeString "payload", .string "kept", Json.writeString "kept"⟩
  have label : ∃ before name after, Json.writeString "payload" = before ++ (name ++ after) ∧ Json.Blank before ∧
      Json.StringText "payload" name ∧ Json.Blank after :=
    ⟨[], _, [], (List.append_nil _).symm, Json.blank_nil, Json.stringText_writeString _, Json.blank_nil⟩
  have labelled : ∀ e ∈ [first, second], e.Labelled :=
    List.forall_mem_cons.mpr ⟨label, List.forall_mem_singleton.mpr label⟩
  have each : ∀ e ∈ [first, second], Written 125 e.document e.text :=
    List.forall_mem_cons.mpr ⟨.true, List.forall_mem_singleton.mpr (.string (Json.stringText_writeString "kept"))⟩
  let element : Json.Element :=
    ⟨.object [first.member, second.member], '\x7b' :: (Json.separated Json.Entry.form [first, second] ++ ['\x7d'])⟩
  have object : ∀ e ∈ [element], Written 126 e.document e.text :=
    List.forall_mem_singleton.mpr (.object Json.blank_nil labelled each)
  have spells : Spells (Utf8.ofString "[\x7b\"payload\":true,\"payload\":\"kept\"\x7d]") (.array [element.document]) :=
    ⟨_, rfl, .array Json.blank_nil object⟩
  have bears : Bears element.document "kept" := .payload rfl
  have only : ∀ {payload}, Bears element.document payload → payload = "kept" := fun ⟨last⟩ =>
    (Document.string.inj (Option.some.inj last)).symm
  obtain ⟨accepted, carried, -⟩ := read_outcomes _
  obtain ⟨records, accepted⟩ := accepted.mpr ⟨_, spells, List.forall_mem_singleton.mpr ⟨_, bears⟩⟩
  cases carried _ _ spells accepted with
  | cons bears rest =>
    cases rest
    exact ⟨_, accepted, only bears⟩

end Bodies

end DeviceBus.Envelope
