import DeviceBus.Proofs.Envelope.Samples
import DeviceBus.Proofs.Session.Routing

/-! From a device to a subscriber: what is reported in a body is what the session hands over. -/
namespace DeviceBus.Session.Dispatch

variable (context : CipherContext) {samples : List Sample}

private theorem outcome_record {s : Sample} (reportable : s.Reportable) :
    RecordOutcome.ofRecord context (s.record context) = .decoded ⟨s.path, s.plaintext⟩ := by
  rw [RecordOutcome.ofRecord, if_neg (s.payload_ne_empty context reportable), s.ofRecord_record context reportable]

private theorem ofRecords_samples (reportable : ∀ s ∈ samples, s.Reportable) :
    (ofRecords context (samples.map (Sample.record context))).deliveries =
        samples.map (fun s => .notification ⟨s.path, s.plaintext⟩) ∧
      (ofRecords context (samples.map (Sample.record context))).errors = [] := by
  induction samples with
  | nil => exact ⟨rfl, rfl⟩
  | cons s samples ih =>
    have first := outcome_record context (reportable s List.mem_cons_self)
    obtain ⟨arrived, clean⟩ := ih fun s member => reportable s (List.mem_cons_of_mem _ member)
    obtain ⟨deliveries, errors⟩ := ofRecords_cons context (s.record context) (samples.map (Sample.record context))
    refine ⟨?_, ?_⟩
    · rw [List.map_cons, deliveries, first, arrived]
      rfl
    · rw [List.map_cons, errors, first, clean]
      rfl

/-- What a device reports under a topic for notifications arrives: every path with its plaintext, in the same order
and without an error. -/
theorem ofMessage_body (topic : String) (kind : (Topic.mk topic).classify = .notification)
    (reportable : ∀ s ∈ samples, s.Reportable) :
    ∃ body, Sample.body context samples = .ok body ∧ (ofMessage context topic body).errors = [] ∧
      (ofMessage context topic body).deliveries = samples.map fun s => .notification ⟨s.path, s.plaintext⟩ := by
  obtain ⟨body, produced, envelope⟩ := Sample.read_body context reportable
  have dispatch := ofMessage_notification context kind envelope
  obtain ⟨deliveries, errors⟩ := ofRecords_samples context reportable
  refine ⟨body, produced, ?_, ?_⟩
  · rw [dispatch, errors]
  · rw [dispatch, deliveries]

theorem ofMessage_body_of_two :
    let context : CipherContext := ⟨.bits128, Aes.roundKeys .bits128 (List.replicate 16 0), .zero⟩
    let timestamp : Json := .number (.integer 1457000000)
    ∃ body,
      Sample.body context [⟨"/3303/\"é\n", [], timestamp⟩, ⟨"", [0x7B, 0x31], timestamp⟩] = .ok body ∧
        (ofMessage context "/domain/a/notification" body).errors = [] ∧
        (ofMessage context "/domain/a/notification" body).deliveries =
          [.notification ⟨"/3303/\"é\n", []⟩, .notification ⟨"", [0x7B, 0x31]⟩] := by
  intro context timestamp
  have readable : Json.Readable (Json.nestingLimit - 2) timestamp := .integer 1457000000 (by decide) (by decide)
  apply ofMessage_body context "/domain/a/notification" (by decide)
  intro s member
  simp only [List.mem_cons, List.not_mem_nil, or_false] at member
  rcases member with rfl | rfl
  · exact ⟨by decide, readable⟩
  · exact ⟨by decide, readable⟩

end DeviceBus.Session.Dispatch
