import DeviceBus.Proofs.Envelope.Acceptance
import DeviceBus.Proofs.Json.RoundTrip
import DeviceBus.Proofs.Payload.RoundTrip
import DeviceBus.Notification

/-! The other side of an envelope: how a device reports the results of its resources. Each plaintext is encrypted, and
the results are written as a JSON array, from which the records are read back. -/
namespace DeviceBus

structure Sample where
  path : String
  plaintext : Bytes
  timestamp : Json

namespace Sample

def members (s : Sample) (payload : String) : List (String × Json) :=
  [("path", .string s.path), ("payload", .string payload), ("timestamp", s.timestamp)]

def element (context : CipherContext) (s : Sample) : Except PlaintextFlaw Json :=
  (context.encrypt s.plaintext).map fun payload => .object (s.members payload)

def body (context : CipherContext) (samples : List Sample) : Except PlaintextFlaw Bytes :=
  (samples.mapM (element context)).map fun elements => Utf8.ofString (Json.text (.array elements))

def payload (context : CipherContext) (s : Sample) : String :=
  CipherContext.payloadOf (context.encryptBytes (CipherContext.addPadding s.plaintext))

/-- A sample that a body can carry: its plaintext does not end with a padding byte, and its timestamp is read back
inside of an element of an array. -/
structure Reportable (s : Sample) : Prop where
  kept : s.plaintext.getLast? ≠ some CipherContext.padding
  readable : Json.Readable (Json.nestingLimit - 2) s.timestamp

variable (context : CipherContext) {s : Sample} {samples : List Sample}

private theorem element_of_reportable (reportable : s.Reportable) :
    s.element context = .ok (.object (s.members (s.payload context))) := by
  rw [element, CipherContext.encrypt_of_kept context reportable.kept]
  rfl

private theorem readable_object (reportable : s.Reportable) (payload : String) :
    Json.Readable (Json.nestingLimit - 1) (.object (s.members payload)) := by
  refine .object _ ?_ ?_
  · simp only [members, List.map_cons, List.map_nil]
    decide
  · intro m member
    simp only [members, List.mem_cons, List.not_mem_nil, or_false] at member
    rcases member with rfl | rfl | rfl
    · exact .string _
    · exact .string _
    · exact reportable.readable

private theorem mapM_element (reportable : ∀ s ∈ samples, s.Reportable) :
    samples.mapM (element context) = .ok (samples.map fun s => .object (s.members (s.payload context))) := by
  induction samples with
  | nil => rfl
  | cons s samples ih =>
    have first := element_of_reportable context (reportable s List.mem_cons_self)
    have others := ih fun s member => reportable s (List.mem_cons_of_mem _ member)
    rw [List.mapM_cons, first, others]
    rfl

private theorem readElement_members (s : Sample) (payload : String) :
    Envelope.readElement (.object (s.members payload)) = .ok (Envelope.recordOf (s.members payload) payload) := by
  have found : Json.member? (s.members payload) "payload" = some (.string payload) := rfl
  rw [Envelope.readElement, found]

private theorem resourcePath_members (s : Sample) (payload : String) :
    (Envelope.recordOf (s.members payload) payload).resourcePath = s.path := rfl

def record (context : CipherContext) (s : Sample) : Record :=
  Envelope.recordOf (s.members (s.payload context)) (s.payload context)

private theorem readElements_map (index : Nat) (samples : List Sample) :
    Envelope.readElements index (samples.map fun s => .object (s.members (s.payload context))) =
      .ok (samples.map (record context)) := by
  induction samples generalizing index with
  | nil => rfl
  | cons s samples ih =>
    rw [List.map_cons, Envelope.readElements, readElement_members, ih]
    rfl

theorem read_body (reportable : ∀ s ∈ samples, s.Reportable) :
    ∃ bytes, body context samples = .ok bytes ∧ Envelope.read bytes = .ok (samples.map (record context)) := by
  have elements := mapM_element context reportable
  refine ⟨_, by rw [body, elements]; rfl, ?_⟩
  have readable : Json.Readable Json.nestingLimit
      (.array (samples.map fun s => .object (s.members (s.payload context)))) := by
    refine .array _ fun v member => ?_
    obtain ⟨s, present, rfl⟩ := List.mem_map.mp member
    exact readable_object (reportable s present) _
  rw [Envelope.read_of_ok (Utf8.decode_ofString _) (by rw [Json.text, String.toList_ofList, Json.read_write readable])]
  exact readElements_map context 0 samples

theorem ofRecord_record (reportable : s.Reportable) :
    Notification.ofRecord context (s.record context) = .ok ⟨s.path, s.plaintext⟩ := by
  have payload : (s.record context).payload = s.payload context := rfl
  have path : (s.record context).resourcePath = s.path := resourcePath_members s _
  have decrypted : context.decrypt (s.payload context) = .ok s.plaintext :=
    CipherContext.decrypt_encryptBytes context reportable.kept
  rw [Notification.ofRecord, payload, path, decrypted]
  rfl

theorem payload_ne_empty (reportable : s.Reportable) : (s.record context).payload ≠ "" := by
  intro empty
  have decrypted : context.decrypt (s.payload context) = .ok s.plaintext :=
    CipherContext.decrypt_encryptBytes context reportable.kept
  have same : s.payload context = "" := empty
  rw [same] at decrypted
  cases decrypted

end Sample

end DeviceBus
