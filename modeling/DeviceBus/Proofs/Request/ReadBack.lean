import DeviceBus.Proofs.Request.WireImage

/-! Bodies of requests read back. A body is written into memory whatever its strings hold, and a reader of JSON takes its bytes
for the object that was meant, with no member more or less; so nothing in an endpoint type can add to a request. -/
namespace DeviceBus

namespace Json

section Printed

/-- A text without control characters. Only those below the space count as such in the format. -/
def Printed (text : List Char) : Prop := ∀ c ∈ text, 0x20 ≤ c.toNat

instance (text : List Char) : Decidable (Printed text) :=
  decidable_of_iff (text.all (0x20 ≤ ·.toNat) = true) (by simp only [List.all_eq_true, decide_eq_true_eq, Printed])

private theorem printed_hexDigit (n : Nat) : 0x20 ≤ (Quoted.hexDigit n).toNat := by
  have table : Printed "0123456789abcdef".toList := by decide
  rw [Quoted.hexDigit, List.getD_eq_getElem?_getD]
  cases found : "0123456789abcdef".toList[n]? with
  | none => decide
  | some digit => exact table digit (List.mem_of_getElem? found)

private theorem printed_escapeChar (c : Char) : Printed (escapeChar c) := by
  have digits : ∀ m n, Printed ['\\', 'u', '0', '0', Quoted.hexDigit m, Quoted.hexDigit n] := by
    intro m n
    have opening : Printed ['\\', 'u', '0', '0'] := by decide
    have pair : Printed [Quoted.hexDigit m, Quoted.hexDigit n] :=
      List.forall_mem_cons.mpr ⟨printed_hexDigit m, List.forall_mem_singleton.mpr (printed_hexDigit n)⟩
    exact List.forall_mem_append.mpr ⟨opening, pair⟩
  have letter : ∀ l : Char, 0x20 ≤ l.toNat → Printed ['\\', l] := fun l printed =>
    List.forall_mem_cons.mpr ⟨by decide, List.forall_mem_singleton.mpr printed⟩
  unfold escapeChar
  iterate 7
    split
    · exact letter _ (by decide)
  split
  · exact digits _ _
  · next printed => exact List.forall_mem_singleton.mpr (Nat.le_of_not_lt printed)

private theorem printed_writeString (s : String) : Printed (writeString s) := by
  have inside : Printed (s.toList.flatMap escapeChar) := by
    intro c member
    obtain ⟨given, -, within⟩ := List.mem_flatMap.mp member
    exact printed_escapeChar given c within
  have quote : Printed ['"'] := by decide
  exact List.forall_mem_append.mpr ⟨List.forall_mem_append.mpr ⟨quote, inside⟩, quote⟩

theorem Printed.encode {text : List Char} (printed : Printed text) : ∀ b ∈ Utf8.encode text, 0x20 ≤ b := by
  intro b member
  obtain ⟨c, present, within⟩ := List.mem_flatMap.mp member
  have above := printed c present
  simp only [UInt8.le_iff_toNat_le, UInt8.reduceToNat]
  rcases Utf8.mem_encodeChar within with same | high <;> omega

end Printed

def TakenFor (bytes : Bytes) (v : Json) : Prop := ∃ chars, Utf8.decode bytes = .ok chars ∧ read chars = .ok v

end Json

namespace RequestBody

private theorem printed_writeMembers (fields : List (String × String)) :
    Json.Printed (Json.writeMembers (stringMembers fields)) := by
  induction fields with
  | nil => exact List.forall_mem_nil _
  | cons field fields ih =>
    have rest : Json.Printed (remainder fields) := by
      cases fields with
      | nil => exact List.forall_mem_nil _
      | cons next fields => exact List.forall_mem_cons.mpr ⟨by decide, ih⟩
    rw [writeMembers_cons]
    exact List.forall_mem_append.mpr ⟨Json.printed_writeString field.1, List.forall_mem_cons.mpr ⟨by decide,
      List.forall_mem_append.mpr ⟨Json.printed_writeString field.2, rest⟩⟩⟩

private theorem printed_text (body : RequestBody) : Json.Printed body.text.toList := by
  rw [toList_text, Json.write, members_eq_fields]
  exact List.forall_mem_append.mpr ⟨List.forall_mem_cons.mpr ⟨by decide, printed_writeMembers body.fields⟩,
    List.forall_mem_singleton.mpr (by decide)⟩

theorem text_discovery (endpointType : String) (stale : Bool) :
    (discovery endpointType stale).text.toList = "\x7b\"type\":".toList ++ (Json.writeString endpointType ++
      (if stale then ",\"stale\":\"true\"\x7d" else ",\"stale\":\"false\"\x7d").toList) := by
  have opening : '\x7b' :: (Json.writeString "type" ++ [':']) = "\x7b\"type\":".toList := by decide
  have closing : ',' :: Json.writeMembers (stringMembers [("stale", if stale then "true" else "false")]) ++ ['\x7d'] =
      (if stale then ",\"stale\":\"true\"\x7d" else ",\"stale\":\"false\"\x7d").toList := by
    cases stale <;> decide
  rw [toList_text, Json.write, members_eq_fields, fields, writeMembers_cons, remainder, ← opening, ← closing]
  simp only [List.append_assoc, List.cons_append, List.nil_append]

theorem takenFor_text (body : RequestBody) : Json.TakenFor (Utf8.ofString body.text) (Json.ofMembers body.members) := by
  refine ⟨_, by rw [Utf8.ofString, toList_text, Utf8.decode_encode], Json.read_members ?_⟩
  rw [members_eq_fields]
  exact List.forall_mem_map.mpr fun field _ => .string field.2

end RequestBody

namespace Request

def wish : Verb → String × String
  | .read => ("sync", "true")
  | .subscribe => ("sync", "false")
  | .unsubscribe => ("unsubscribe", "true")

/-- Every body is written, without control characters, and read back as what was asked for. The members of a value stand
in the order of their keys; in the text of a discovery the type comes first. The body about an address does
not depend on it. -/
theorem bodies_read_back :
    (∀ (endpointType : String) (stale : Bool), ∃ bytes,
      (discover endpointType stale).bodyBytes = .ok bytes ∧ (∀ b ∈ bytes, 0x20 ≤ b) ∧
        (∃ quoted, Json.StringText endpointType quoted ∧
          bytes = Utf8.encode ("\x7b\"type\":".toList ++ (quoted ++
            (if stale then ",\"stale\":\"true\"\x7d" else ",\"stale\":\"false\"\x7d").toList))) ∧
        Json.TakenFor bytes
          (.object [("stale", .string (if stale then "true" else "false")), ("type", .string endpointType)])) ∧
    ∀ verb : Verb, ∃ bytes,
      (∀ address, (ofVerb verb address).bodyBytes = .ok bytes) ∧ (∀ b ∈ bytes, 0x20 ≤ b) ∧
        Json.TakenFor bytes (.object [((wish verb).1, .string (wish verb).2)]) := by
  have printed : ∀ body : RequestBody, ∀ b ∈ Utf8.ofString body.text, 0x20 ≤ b := fun body => body.printed_text.encode
  constructor
  · intro endpointType stale
    refine ⟨_, bodyBytes_eq _, printed _, ?_, RequestBody.takenFor_text (.discovery endpointType stale)⟩
    have text := congrArg Utf8.encode (RequestBody.text_discovery endpointType stale)
    exact ⟨_, Json.stringText_writeString endpointType, text⟩
  · intro verb
    cases verb with
    | read => exact ⟨_, fun address => bodyBytes_eq _, printed _, RequestBody.takenFor_text (.sync true)⟩
    | subscribe => exact ⟨_, fun address => bodyBytes_eq _, printed _, RequestBody.takenFor_text (.sync false)⟩
    | unsubscribe => exact ⟨_, fun address => bodyBytes_eq _, printed _, RequestBody.takenFor_text .unsubscribe⟩

end Request

end DeviceBus
