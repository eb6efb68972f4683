import Mathlib.Logic.Relation
import DeviceBus.Proofs.Envelope.Acceptance
import DeviceBus.Proofs.Json.Rearrangement
import DeviceBus.Proofs.Json.RoundTrip

/-! What a record does not depend on. A body may be spaced in any way, the members of its objects may be in any order, and
what a later member overrides, or what stands under a key that no field has, may as well be absent: the same is read. -/
namespace DeviceBus.Envelope

open Json (Document Written Rearranged)
open Json.Document (last? value)

def fieldKeys : List String :=
  ["payload", "timestamp", "resourcePath", "path", "uri", "endpoint", "ep", "id", "ct", "content_type", "max-age", "max_age"]

/-- One change of an element that its record does not show. -/
inductive Varied : Document → Document → Prop
  | rearranged {d e : Document} (inside : Rearranged d e) : Varied d e
  | unlisted (front back : List (String × Document)) {m : String × Document} (unlisted : m.1 ∉ fieldKeys) :
      Varied (.object (front ++ m :: back)) (.object (front ++ back))

section Lookup

variable {members others : List (String × Json)}

theorem first?_congr {α : Type} {keys : List String} (f : Json → Option α)
    (same : ∀ key ∈ keys, Json.member? members key = Json.member? others key) :
    first? members keys f = first? others keys f := by
  induction keys with
  | nil => rfl
  | cons key keys ih =>
    rw [List.forall_mem_cons] at same
    have later := ih same.2
    rw [first?, first?] at later
    rw [first?, first?, List.findSome?_cons, List.findSome?_cons, same.1, later]

theorem recordOf_congr (same : ∀ key ∈ fieldKeys, Json.member? members key = Json.member? others key) (payload : String) :
    recordOf members payload = recordOf others payload := by
  have tables : ∀ keys ∈ [pathKeys, endpointKeys, contentTypeKeys, maxAgeKeys], ∀ key ∈ keys,
      Json.member? members key = Json.member? others key := by
    have listed : ∀ keys ∈ [pathKeys, endpointKeys, contentTypeKeys, maxAgeKeys], ∀ key ∈ keys, key ∈ fieldKeys := by
      decide
    exact fun keys table key member => same key (listed keys table key member)
  simp only [List.forall_mem_cons] at tables
  obtain ⟨path, endpoint, contentType, maxAge, -⟩ := tables
  rw [recordOf, recordOf, first?_congr _ path, first?_congr _ endpoint, first?_congr _ contentType, first?_congr _ maxAge,
    same "timestamp" (by decide)]

theorem readElement_congr (same : ∀ key ∈ fieldKeys, Json.member? members key = Json.member? others key) :
    readElement (.object members) = readElement (.object others) := by
  rw [readElement, readElement, same "payload" (by decide)]
  split
  · rw [recordOf_congr same]
  · rfl
  · rfl

end Lookup

section Variation

variable {d e : Document}

private theorem last?_without {front back : List (String × Document)} {m : String × Document} {key : String}
    (other : key ≠ m.1) : last? (front ++ m :: back) key = last? (front ++ back) key := by
  rw [Document.last?_append, Document.last?_append, Document.last?_cons, if_neg other, Option.or_none]

private theorem Varied.readElement_eq (varied : Varied d e) : readElement d.value = readElement e.value := by
  cases varied with
  | rearranged inside => rw [inside.value_eq]
  | unlisted front back unlisted =>
    obtain ⟨members, whole, found⟩ := Document.value_object (front ++ _ :: back)
    obtain ⟨others, without, also⟩ := Document.value_object (front ++ back)
    rw [whole, without]
    refine readElement_congr fun key listed => ?_
    have other : key ≠ _ := ne_of_mem_of_not_mem listed unlisted
    rw [found, also, last?_without other]

private theorem readElement_eq_of_variants (variants : Relation.EqvGen Varied d e) :
    readElement d.value = readElement e.value := by
  induction variants with
  | rel d e varied => exact varied.readElement_eq
  | refl d => rfl
  | symm d e _ ih => exact ih.symm
  | trans c d e _ _ first second => exact first.trans second

private theorem readElements_eq_of_variants {elements others : List Document}
    (variants : List.Forall₂ (Relation.EqvGen Varied) elements others) (index : Nat) :
    readElements index (elements.map value) = readElements index (others.map value) := by
  induction variants generalizing index with
  | nil => rfl
  | cons first _ ih =>
    rw [List.map_cons, List.map_cons, readElements, readElements, readElement_eq_of_variants first, ih]

end Variation

/-- Two bodies that spell arrays give the same records, or are refused for the same flaw, if each element of the one comes from
that of the other by any number of changes, back and forth, that a record does not show. -/
theorem variants_read_alike {body other : Bytes} {elements others : List Document} (spells : Spells body (.array elements))
    (also : Spells other (.array others)) (variants : List.Forall₂ (Relation.EqvGen Varied) elements others) :
    read body = read other := by
  rw [read_of_spells_array spells, read_of_spells_array also]
  exact readElements_eq_of_variants variants 0

theorem variants_read_alike_of_rewritten :
    read (Utf8.ofString "[\x7b\"payload\":\"A\",\"timestamp\":\x7b\"a\":null,\"b\":true\x7d\x7d]") =
      read (Utf8.ofString
        " [\n\x7b\"x\":[],\"payload\":null,\"payload\":\"A\",\"timestamp\":\x7b\"b\":true,\"a\":null\x7d\x7d]") := by
  let plain : Json.Element := .object [("payload", ⟨.string "A", Json.writeString "A"⟩),
    ("timestamp", .object [("a", ⟨.null, ['n', 'u', 'l', 'l']⟩), ("b", ⟨.bool true, ['t', 'r', 'u', 'e']⟩)])]
  let rewritten : Json.Element := .object [("x", ⟨.array [], ['[', ']']⟩), ("payload", ⟨.null, ['n', 'u', 'l', 'l']⟩),
    ("payload", ⟨.string "A", Json.writeString "A"⟩),
    ("timestamp", .object [("b", ⟨.bool true, ['t', 'r', 'u', 'e']⟩), ("a", ⟨.null, ['n', 'u', 'l', 'l']⟩)])]
  have written : Written 126 plain.document plain.text := by
    refine Json.written_fields ?_
    simp only [List.forall_mem_cons]
    refine ⟨.string (Json.stringText_writeString "A"), Json.written_fields ?_, nofun⟩
    simp only [List.forall_mem_cons]
    exact ⟨.null, .true, nofun⟩
  have alsoWritten : Written 126 rewritten.document rewritten.text := by
    refine Json.written_fields ?_
    simp only [List.forall_mem_cons]
    refine ⟨@Written.array 124 [] [] Json.blank_nil nofun, .null, .string (Json.stringText_writeString "A"),
      Json.written_fields ?_, nofun⟩
    simp only [List.forall_mem_cons]
    exact ⟨.true, .null, nofun⟩
  have space : Json.Blank [' '] := by simp [Json.Blank, Json.isSpace]
  have line : Json.Blank ['\n'] := by simp [Json.Blank, Json.isSpace]
  let payload : String × Document := ("payload", .string "A")
  let stamp : String × Document := ("timestamp", .object [("b", .bool true), ("a", .null)])
  have unlisted : Varied rewritten.document (.object [("payload", .null), payload, stamp]) := .unlisted [] _ (by decide)
  have overridden : Varied (.object [("payload", .null), payload, stamp]) (.object [payload, stamp]) :=
    .rearranged (.overridden [] ⟨payload, List.mem_cons_self, rfl⟩)
  have turned : Varied (.object [payload, stamp]) plain.document :=
    .rearranged (.member [payload] [] "timestamp" (.swap [] [] (by decide)))
  have variant : Relation.EqvGen Varied rewritten.document plain.document :=
    .trans _ _ _ (.rel _ _ unlisted) (.trans _ _ _ (.rel _ _ overridden) (.rel _ _ turned))
  exact variants_read_alike ⟨_, rfl, .array Json.blank_nil (List.forall_mem_singleton.mpr written)⟩
    ⟨_, rfl, .spaced space (.array line (List.forall_mem_singleton.mpr alsoWritten)) Json.blank_nil⟩
    (.cons (.symm _ _ variant) .nil)

end DeviceBus.Envelope
