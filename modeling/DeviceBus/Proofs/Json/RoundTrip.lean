import Mathlib.Tactic.Choose
import DeviceBus.Proofs.Json.Acceptance
import DeviceBus.Proofs.Json.Members

/-! Values read back. Objects keep their keys in order and each key once, so what is read is the very value that was
written; integers must fit 64 bits, and brackets must not be nested deeper than a reader allows. -/
namespace DeviceBus.Json

/-- A value that is read back from its text where brackets may be opened so deep. -/
inductive Readable : Nat → Json → Prop
  | null {depth : Nat} : Readable depth .null
  | bool {depth : Nat} (b : Bool) : Readable depth (.bool b)
  | string {depth : Nat} (s : String) : Readable depth (.string s)
  | integer {depth : Nat} (n : Int) (low : -0x8000000000000000 ≤ n) (high : n < 0x10000000000000000) :
    Readable depth (.number (.integer n))
  | array {depth : Nat} (elements : List Json) (each : ∀ v ∈ elements, Readable depth v) :
    Readable (depth + 1) (.array elements)
  | object {depth : Nat} (members : List (String × Json)) (ascending : (members.map Prod.fst).Pairwise (· < ·))
    (each : ∀ m ∈ members, Readable depth m.2) : Readable (depth + 1) (.object members)

section Writing

private theorem separated_map {α β : Type} (form : β → List Char) (f : α → β) (xs : List α) :
    separated form (xs.map f) = separated (form ∘ f) xs := by
  fun_induction separated (form ∘ f) xs with
  | case1 => rfl
  | case2 x => rfl
  | case3 x y rest ih =>
    rw [List.map_cons] at ih
    rw [List.map_cons, List.map_cons, separated, ih]
    rfl

def writeMember (m : String × Json) : List Char := writeString m.1 ++ ':' :: write m.2

private theorem writeElements_eq (elements : List Json) : writeElements elements = separated write elements := by
  fun_induction separated write elements with
  | case1 => rfl
  | case2 v => rfl
  | case3 v w rest ih => rw [writeElements, ih]

private theorem writeMembers_eq (members : List (String × Json)) : writeMembers members = separated writeMember members := by
  fun_induction separated writeMember members with
  | case1 => rfl
  | case2 m => rfl
  | case3 m n rest ih => rw [writeMembers, ih, writeMember, List.append_assoc]

private theorem written_array {depth : Nat} {elements : List Json} {document : Json → Document}
    (each : ∀ v ∈ elements, Written depth (document v) (write v)) :
    Written (depth + 1) (.array (elements.map document)) (write (.array elements)) := by
  let element (v : Json) : Element := ⟨document v, write v⟩
  have bracket : Written (depth + 1) (.array ((elements.map element).map Element.document)) _ :=
    .array blank_nil (List.forall_mem_map.mpr each)
  rw [separated_map, List.map_map] at bracket
  rw [write, writeElements_eq]
  exact bracket

def Element.object (fields : List (String × Element)) : Element where
  document := .object (fields.map fun f => (f.1, f.2.document))
  text := '\x7b' :: (separated (fun f => writeString f.1 ++ ':' :: f.2.text) fields ++ ['\x7d'])

theorem written_fields {depth : Nat} {fields : List (String × Element)}
    (each : ∀ f ∈ fields, Written depth f.2.document f.2.text) :
    Written (depth + 1) (Element.object fields).document (Element.object fields).text := by
  let entry (f : String × Element) : Entry := ⟨f.1, writeString f.1, f.2.document, f.2.text⟩
  have labelled : ∀ f, (entry f).Labelled := fun f =>
    ⟨[], writeString f.1, [], (List.append_nil _).symm, blank_nil, stringText_writeString f.1, blank_nil⟩
  have bracket : Written (depth + 1) (.object ((fields.map entry).map Entry.member)) _ :=
    .object blank_nil (List.forall_mem_map.mpr fun f _ => labelled f) (List.forall_mem_map.mpr each)
  rw [separated_map, List.map_map] at bracket
  exact bracket

private theorem written_object {depth : Nat} {members : List (String × Json)} {document : String × Json → Document}
    (each : ∀ m ∈ members, Written depth (document m) (write m.2)) :
    Written (depth + 1) (.object (members.map fun m => (m.1, document m))) (write (.object members)) := by
  let field (m : String × Json) : String × Element := (m.1, ⟨document m, write m.2⟩)
  have bracket := written_fields (List.forall_mem_map.mpr each : ∀ f ∈ members.map field, _)
  rw [Element.object, separated_map, List.map_map] at bracket
  rw [write, writeMembers_eq]
  exact bracket

private theorem exists_written_object {depth : Nat} {members : List (String × Json)}
    (each : ∀ m ∈ members, ∃ d, Written depth d (write m.2) ∧ d.value = m.2) :
    ∃ d, Written (depth + 1) d (write (.object members)) ∧ d.value = ofMembers members := by
  choose! document written same using each
  refine ⟨_, written_object written, ?_⟩
  rw [Document.value, Document.memberValues_eq, List.map_map]
  have unchanged : ∀ m ∈ members, (m.1, (document m).value) = id m := fun m member =>
    congrArg (Prod.mk m.1) (same m member)
  exact congrArg ofMembers ((List.map_congr_left unchanged).trans (List.map_id members))

theorem Readable.written {depth : Nat} {v : Json} (readable : Readable depth v) :
    ∃ d, Written depth d (write v) ∧ d.value = v := by
  induction readable with
  | null => exact ⟨.null, .null, rfl⟩
  | bool b =>
    cases b with
    | true => exact ⟨.bool true, .true, rfl⟩
    | false => exact ⟨.bool false, .false, rfl⟩
  | string s => exact ⟨.string s, .string (stringText_writeString s), rfl⟩
  | integer n low high => exact ⟨.number (.integer n), .number (numberText_intText low high), rfl⟩
  | array elements each ih =>
    choose! document written same using ih
    refine ⟨_, written_array written, ?_⟩
    rw [Document.value, Document.values_eq, List.map_map]
    exact congrArg Json.array ((List.map_congr_left same).trans (List.map_id elements))
  | object members ascending each ih =>
    obtain ⟨document, written, same⟩ := exists_written_object ih
    exact ⟨document, written, by rw [same, ofMembers_ascending ascending]⟩

theorem read_write {v : Json} (readable : Readable nestingLimit v) : read (write v) = .ok v :=
  read_eq_ok_iff.mpr readable.written

theorem read_members {members : List (String × Json)} (each : ∀ m ∈ members, Readable (nestingLimit - 1) m.2) :
    read (write (.object members)) = .ok (ofMembers members) :=
  read_eq_ok_iff.mpr (exists_written_object fun m member => (each m member).written)

end Writing

end DeviceBus.Json
