import DeviceBus.Session.Dispatch

/-! The law of routing. The topic of a message decides whether its body is ignored, passed on or decoded. In a
body that is decoded every record with a payload is decoded once: what succeeds is delivered and what
fails is reported, both in the order of the records and each as if the record stood alone. -/
namespace DeviceBus.Session

def delivered? : Except PayloadFlaw Notification → Option Delivery
  | .ok n => some (.notification n)
  | .error _ => none

def reported? : Except PayloadFlaw Notification → Option ClientError
  | .ok _ => none
  | .error flaw => some (.ofData flaw.error)

/-- The decodings of the records with a payload, one for each and in their order. -/
def decodings (context : CipherContext) (records : List Record) : List (Except PayloadFlaw Notification) :=
  (records.filter fun record => record.payload ≠ "").map (Notification.ofRecord context)

section Decodings

variable (context : CipherContext) {record : Record} (records : List Record)

private theorem decodings_cons_empty (empty : record.payload = "") :
    decodings context (record :: records) = decodings context records := by
  simp [decodings, empty]

private theorem decodings_cons_full (full : record.payload ≠ "") :
    decodings context (record :: records) =
      Notification.ofRecord context record :: decodings context records := by
  simp [decodings, full]

private theorem kind_of_reported {outcomes : List (Except PayloadFlaw Notification)} {e : ClientError}
    (member : e ∈ outcomes.filterMap reported?) : e.kind = .encoding ∨ e.kind = .decryption := by
  obtain ⟨outcome, _, reported⟩ := List.mem_filterMap.mp member
  cases outcome with
  | ok n => cases reported
  | error flaw =>
    cases reported
    cases flaw with
    | notBase64 fault => exact .inl rfl
    | cipherLength length => exact .inl rfl
    | notPadded => exact .inr rfl

private theorem length_delivered_add_reported (outcomes : List (Except PayloadFlaw Notification)) :
    (outcomes.filterMap delivered?).length + (outcomes.filterMap reported?).length = outcomes.length := by
  induction outcomes with
  | nil => rfl
  | cons outcome rest ih =>
    cases outcome with
    | ok n =>
      simp only [List.filterMap_cons, delivered?, reported?, List.length_cons]
      omega
    | error flaw =>
      simp only [List.filterMap_cons, delivered?, reported?, List.length_cons]
      omega

end Decodings

namespace Dispatch

variable (context : CipherContext)

theorem ofRecords_cons (record : Record) (records : List Record) :
    (ofRecords context (record :: records)).deliveries =
        (RecordOutcome.ofRecord context record).delivery?.toList ++ (ofRecords context records).deliveries ∧
      (ofRecords context (record :: records)).errors =
        (RecordOutcome.ofRecord context record).error?.toList ++ (ofRecords context records).errors := by
  constructor
  · simp only [ofRecords, List.map_cons, List.filterMap_cons]
    cases (RecordOutcome.ofRecord context record).delivery? <;> rfl
  · simp only [ofRecords, List.map_cons, List.filterMap_cons]
    cases (RecordOutcome.ofRecord context record).error? <;> rfl

private theorem ofRecords_decodings (records : List Record) :
    (ofRecords context records).deliveries = (decodings context records).filterMap delivered? ∧
      (ofRecords context records).errors = (decodings context records).filterMap reported? := by
  induction records with
  | nil => exact ⟨rfl, rfl⟩
  | cons record records ih =>
    obtain ⟨deliveries, errors⟩ := ofRecords_cons context record records
    rw [deliveries, errors, ih.1, ih.2]
    by_cases empty : record.payload = ""
    · have skipped : RecordOutcome.ofRecord context record = .skipped record.resourcePath := if_pos empty
      rw [skipped, decodings_cons_empty context records empty]
      exact ⟨rfl, rfl⟩
    rw [decodings_cons_full context records empty, RecordOutcome.ofRecord, if_neg empty]
    cases Notification.ofRecord context record with
    | ok n => exact ⟨rfl, rfl⟩
    | error flaw => exact ⟨rfl, rfl⟩

private theorem ofRecords_append (before after : List Record) :
    (ofRecords context (before ++ after)).deliveries =
        (ofRecords context before).deliveries ++ (ofRecords context after).deliveries ∧
      (ofRecords context (before ++ after)).errors =
        (ofRecords context before).errors ++ (ofRecords context after).errors := by
  simp only [ofRecords, List.map_append, List.filterMap_append, and_self]

section Message

variable {topic : String} (body : Bytes)

theorem ofMessage_other (kind : (Topic.mk topic).classify = .other) :
    ofMessage context topic body = ⟨[], [], [.messageIgnored topic]⟩ := by
  rw [ofMessage, kind]

private theorem ofMessage_controlResponse (kind : (Topic.mk topic).classify = .controlResponse) :
    ofMessage context topic body = ⟨[.controlResponse ⟨topic⟩ body], [], []⟩ := by
  rw [ofMessage, kind]

private theorem ofMessage_malformed {body : Bytes} {flaw : EnvelopeFlaw}
    (kind : (Topic.mk topic).classify = .notification) (malformed : Envelope.read body = .error flaw) :
    ofMessage context topic body = ⟨[], [.ofData flaw.error], []⟩ := by
  simp only [ofMessage, kind, malformed]

theorem ofMessage_notification {body : Bytes} {records : List Record}
    (kind : (Topic.mk topic).classify = .notification) (envelope : Envelope.read body = .ok records) :
    ofMessage context topic body = ofRecords context records := by
  simp only [ofMessage, kind, envelope]

end Message

/-- The law of routing, for every context, topic and body. -/
theorem ofMessage_routes (topic : String) (body : Bytes) :
    let kind := (Topic.mk topic).classify
    let dispatch := ofMessage context topic body
    (kind = .other → dispatch.deliveries = [] ∧ dispatch.errors = []) ∧
    (kind = .controlResponse →
      dispatch.deliveries = [.controlResponse ⟨topic⟩ body] ∧ dispatch.errors = [] ∧
      ∀ another, ofMessage another topic body = dispatch) ∧
    (kind = .notification → ∀ flaw, Envelope.read body = .error flaw →
      dispatch.deliveries = [] ∧ dispatch.errors = [⟨.malformedEnvelope, flaw.message⟩]) ∧
    (kind = .notification → ∀ records, Envelope.read body = .ok records →
      dispatch.deliveries = (decodings context records).filterMap delivered? ∧
      dispatch.errors = (decodings context records).filterMap reported? ∧
      (∀ e ∈ dispatch.errors, e.kind = .encoding ∨ e.kind = .decryption) ∧
      dispatch.deliveries.length + dispatch.errors.length =
        (records.filter fun record => record.payload ≠ "").length ∧
      -- a record fares among any others as it does alone
      ∀ before record after, records = before ++ record :: after →
        dispatch.deliveries = (ofRecords context before).deliveries ++
          (ofRecords context [record]).deliveries ++ (ofRecords context after).deliveries ∧
        dispatch.errors = (ofRecords context before).errors ++
          (ofRecords context [record]).errors ++ (ofRecords context after).errors) := by
  intro kind dispatch
  refine ⟨?_, ?_, ?_, ?_⟩
  · intro other
    have same : dispatch = _ := ofMessage_other context body other
    rw [same]
    exact ⟨rfl, rfl⟩
  · intro response
    have same : dispatch = _ := ofMessage_controlResponse context body response
    rw [same]
    exact ⟨rfl, rfl, fun another => ofMessage_controlResponse another body response⟩
  · intro notification flaw malformed
    have same : dispatch = _ := ofMessage_malformed context notification malformed
    rw [same]
    exact ⟨rfl, rfl⟩
  · intro notification records envelope
    have same : dispatch = _ := ofMessage_notification context notification envelope
    obtain ⟨deliveries, errors⟩ := ofRecords_decodings context records
    rw [same]
    refine ⟨deliveries, errors, ?_, ?_, ?_⟩
    · intro e member
      rw [errors] at member
      exact kind_of_reported member
    · rw [deliveries, errors, length_delivered_add_reported, decodings, List.length_map]
    · rintro before record after rfl
      have outer := ofRecords_append context before (record :: after)
      have inner := ofRecords_append context [record] after
      rw [outer.1, outer.2, List.append_assoc, List.append_assoc, ← inner.1, ← inner.2]
      exact ⟨rfl, rfl⟩

end Dispatch
end DeviceBus.Session
