import DeviceBus.Proofs.Payload.Acceptance
import DeviceBus.Proofs.Session.Continuation

/-! What a key decides shows in plaintexts alone. Where two cipher contexts decrypt the same records of a script, its
sessions under them are the same once the plaintexts are blotted out: record by record, message by message and turn
by turn. -/
namespace DeviceBus

def CipherContext.AgreesOn (context other : CipherContext) (payload : String) : Prop :=
  (∃ plaintext, context.decrypt payload = .ok plaintext) ↔ ∃ plaintext, other.decrypt payload = .ok plaintext

def Notification.redacted (n : Notification) : Notification := { n with plaintext := [] }

namespace Session

open Broker (Event)

def Delivery.redacted : Delivery → Delivery
  | notification n => .notification n.redacted
  | controlResponse topic body => .controlResponse topic body

/-- Two contexts under which the same records can be decrypted, of all the messages in a script. -/
def DecryptAlike (context other : CipherContext) (script : List Step) : Prop :=
  ∀ topic body records, .event (.message topic body) ∈ script → Envelope.read body = .ok records →
    ∀ record ∈ records, context.AgreesOn other record.payload

variable {context other : CipherContext}

namespace RecordOutcome

def redacted : RecordOutcome → RecordOutcome
  | decoded n => decoded n.redacted
  | skipped path => skipped path
  | failed e => failed e

private theorem delivery?_redacted (outcome : RecordOutcome) :
    outcome.redacted.delivery? = outcome.delivery?.map Delivery.redacted := by
  cases outcome <;> rfl

private theorem error?_redacted (outcome : RecordOutcome) : outcome.redacted.error? = outcome.error? := by
  cases outcome <;> rfl

private theorem notice?_redacted (outcome : RecordOutcome) : outcome.redacted.notice? = outcome.notice? := by
  cases outcome <;> rfl

private theorem ofRecord_redacted {record : Record} (agrees : context.AgreesOn other record.payload) :
    (ofRecord context record).redacted = (ofRecord other record).redacted := by
  unfold ofRecord
  split
  · rfl
  · simp only [Notification.ofRecord]
    cases one : context.decrypt record.payload with
    | ok plaintext =>
      obtain ⟨its, two⟩ := agrees.mp ⟨plaintext, one⟩
      rw [two]
      rfl
    | error flaw =>
      cases two : other.decrypt record.payload with
      | ok plaintext =>
        obtain ⟨its, decrypted⟩ := agrees.mpr ⟨plaintext, two⟩
        rw [decrypted] at one
        cases one
      | error its => rw [CipherContext.decrypt_error_unique one two]

end RecordOutcome

namespace Dispatch

def redacted (dispatch : Dispatch) : Dispatch :=
  { dispatch with deliveries := dispatch.deliveries.map Delivery.redacted }

private theorem ofRecords_redacted {records : List Record}
    (agree : ∀ record ∈ records, context.AgreesOn other record.payload) :
    (ofRecords context records).redacted = (ofRecords other records).redacted := by
  have outcomes : ∀ context, (ofRecords context records).redacted =
      let blotted := records.map fun record => (RecordOutcome.ofRecord context record).redacted
      ⟨blotted.filterMap RecordOutcome.delivery?, blotted.filterMap RecordOutcome.error?,
        blotted.filterMap RecordOutcome.notice?⟩ := by
    intro context
    simp only [redacted, ofRecords, List.filterMap_map, List.map_filterMap, Function.comp_def,
      RecordOutcome.delivery?_redacted, RecordOutcome.error?_redacted, RecordOutcome.notice?_redacted]
  have same := List.map_congr_left fun record member => RecordOutcome.ofRecord_redacted (agree record member)
  rw [outcomes, outcomes, same]

private theorem ofMessage_redacted (topic : String) {body : Bytes}
    (agree : ∀ records, Envelope.read body = .ok records → ∀ record ∈ records, context.AgreesOn other record.payload) :
    (ofMessage context topic body).redacted = (ofMessage other topic body).redacted := by
  unfold ofMessage
  cases (Topic.mk topic).classify with
  | other => rfl
  | controlResponse => rfl
  | notification =>
    cases envelope : Envelope.read body with
    | ok records => exact ofRecords_redacted (agree records envelope)
    | error flaw => rfl

end Dispatch

variable (failures : Failures) {script : List Step}

theorem DecryptAlike.tail {step : Step} (alike : DecryptAlike context other (step :: script)) :
    DecryptAlike context other script :=
  fun topic body records member => alike topic body records (List.mem_cons_of_mem _ member)

def Turn.redacted (turn : Turn) : Turn := { turn with deliveries := turn.deliveries.map Delivery.redacted }

private theorem turn_redacted (phase : Phase) {event : Event} (alike : DecryptAlike context other script)
    (offered : .event event ∈ script) :
    (turn ⟨context, failures⟩ phase event).redacted = (turn ⟨other, failures⟩ phase event).redacted := by
  cases event with
  | message topic body =>
    have same := Dispatch.ofMessage_redacted topic fun records => alike topic body records offered
    simp only [Dispatch.redacted, Dispatch.mk.injEq] at same
    obtain ⟨deliveries, errors, notices⟩ := same
    simp only [turn]
    split
    · simp only [onMessage, Turn.redacted, deliveries, errors, notices]
    · rfl
  | _ => rfl

private theorem send_map (channel : Channel) (deliveries : List Delivery) (change : Delivery → Delivery) :
    channel.send (deliveries.map change) =
      ((channel.send deliveries).1.map change, (channel.send deliveries).2) := by
  cases channel with
  | unread room =>
    rw [send_unread, send_unread, List.length_map]
    split
    · rfl
    · rw [List.map_take]
  | drained => rw [send_drained, send_drained]
  | closed => cases deliveries <;> rfl

def Report.redacted (r : Report) : Report := { r with deliveries := r.deliveries.map Delivery.redacted }

private theorem Report.redacted_after (r : Report) (entries : List Entry) (deliveries : List Delivery) :
    (r.after entries deliveries).redacted = r.redacted.after entries (deliveries.map Delivery.redacted) := by
  simp only [redacted, after, List.map_append]

private theorem follow_redacted (phase : Phase) (channel : Channel) (alike : DecryptAlike context other script) :
    (follow ⟨context, failures⟩ phase channel script).redacted =
      (follow ⟨other, failures⟩ phase channel script).redacted := by
  induction script generalizing phase channel with
  | nil => rfl
  | cons step script ih =>
    have later := fun phase channel => ih phase channel alike.tail
    cases step with
    | wait ms => exact later phase channel
    | dropReceiver => exact later phase .closed
    | cancel => rfl
    | event event =>
      have same : (turn ⟨context, failures⟩ phase event).redacted = _ := turn_redacted failures phase alike List.mem_cons_self
      rw [follow, follow]
      generalize turn ⟨context, failures⟩ phase event = one at same
      generalize turn ⟨other, failures⟩ phase event = two at same
      simp only [Turn.redacted, Turn.mk.injEq] at same
      obtain ⟨entries, deliveries, next⟩ := same
      -- as many are handed over, so the channel takes and refuses the same
      have sent := send_map channel one.deliveries Delivery.redacted
      rw [deliveries, send_map] at sent
      obtain ⟨taken, outcome⟩ := Prod.mk.inj sent
      simp only [Report.redacted_after, entries, next, ← taken, outcome]
      congr 1
      cases (channel.send one.deliveries).2 with
      | stuck => rfl
      | refused => rfl
      | all rest =>
        cases two.next with
        | stay phase => exact later phase rest
        | finish phase exit => rfl

theorem run_redacted (channel : Channel) (cancelled : Bool) (alike : DecryptAlike context other script) :
    (run ⟨context, failures⟩ channel cancelled script).redacted =
      (run ⟨other, failures⟩ channel cancelled script).redacted := by
  -- one call and one choice at a time, so that no two sessions are compared as they stand
  cases call : failures.connect with
  | some info => simp only [run, call]
  | none =>
    cases cancelled with
    | true => simp only [run, call, if_true]
    | false =>
      simp only [run, call, Bool.false_eq_true, if_false, Report.redacted_after,
        follow_redacted failures .connecting channel alike]

def Task.redacted : Task → Task
  | polling phase script => polling phase script
  | sending waiting next script => sending (waiting.map Delivery.redacted) next script
  | ended phase exit => ended phase exit

private theorem Task.exit?_redacted (task : Task) : task.redacted.exit? = task.exit? := by
  cases task <;> rfl

private theorem Task.phase_redacted (task : Task) : task.redacted.phase = task.phase := by
  cases task with
  | sending waiting next script => cases next <;> rfl
  | polling | ended => rfl

namespace System

variable (capacity : Nat) {s t : System}

def redacted (s : System) : System :=
  { s with
    task := s.task.redacted
    queue := s.queue.map Delivery.redacted
    received := s.received.map Delivery.redacted }

private theorem advance_redacted (alike : DecryptAlike context other script) (offered : ∀ step ∈ s.task.script, step ∈ script)
    (same : s.redacted = t.redacted) :
    (s.advance ⟨context, failures⟩ capacity).map redacted = (t.advance ⟨other, failures⟩ capacity).map redacted := by
  obtain ⟨task, entries, queue, received, attended⟩ := s
  obtain ⟨its, entries', queue', received', attended'⟩ := t
  simp only [redacted, mk.injEq] at same
  obtain ⟨tasks, rfl, queued, taken, rfl⟩ := same
  cases task with
  | polling phase steps =>
    cases its with
    | sending | ended => cases tasks
    | polling =>
      cases tasks
      cases steps with
      | nil => rfl
      | cons step steps =>
        cases step with
        | wait ms => simp only [advance, Option.map_some, redacted, queued, taken]
        | dropReceiver => simp only [advance, Option.map_some, redacted, takeLeave, List.map_append, queued, taken]
        | cancel => simp only [advance, Option.map_some, redacted, close, queued, taken]
        | event event =>
          have turns : (turn ⟨context, failures⟩ phase event).redacted = _ :=
            turn_redacted failures phase alike (offered _ List.mem_cons_self)
          simp only [Turn.redacted, Turn.mk.injEq] at turns
          obtain ⟨observed, deliveries, next⟩ := turns
          simp only [advance, Option.map_some, redacted, Task.redacted, observed, deliveries, next, queued, taken]
  | sending waiting next steps =>
    cases its with
    | polling | ended => cases tasks
    | sending waiting' =>
      simp only [Task.redacted, Task.sending.injEq] at tasks
      obtain ⟨deliveries, rfl, rfl⟩ := tasks
      cases waiting with
      | nil =>
        have none : waiting' = [] := List.map_eq_nil_iff.mp deliveries.symm
        subst none
        cases next <;> simp only [advance, Option.map_some, redacted, queued, taken]
      | cons d waiting =>
        obtain ⟨d', rest, rfl, first, later⟩ := List.map_eq_cons_iff.mp deliveries.symm
        have held : queue.length = queue'.length := by simpa using congrArg List.length queued
        simp only [advance, held]
        split
        · simp only [Option.map_some, redacted, close, queued, taken]
        · split
          · simp only [Option.map_some, redacted, Task.redacted, List.map_append, List.map_cons, List.map_nil, first,
              later, queued, taken]
          · rfl
  | ended phase exit =>
    cases its with
    | polling | sending => cases tasks
    | ended =>
      cases tasks
      rfl

private theorem receive_redacted (same : s.redacted = t.redacted) : s.receive.map redacted = t.receive.map redacted := by
  obtain ⟨task, entries, queue, received, attended⟩ := s
  obtain ⟨its, entries', queue', received', attended'⟩ := t
  simp only [redacted, mk.injEq] at same
  obtain ⟨tasks, rfl, queued, taken, rfl⟩ := same
  cases attended with
  | false => rfl
  | true =>
    cases queue with
    | nil =>
      have none : queue' = [] := List.map_eq_nil_iff.mp queued.symm
      subst none
      rfl
    | cons d queue =>
      obtain ⟨d', rest, rfl, first, later⟩ := List.map_eq_cons_iff.mp queued.symm
      simp only [receive, Option.map_some, redacted, tasks, List.map_append, List.map_cons, List.map_nil, first, later,
        taken]

private theorem depart_redacted (same : s.redacted = t.redacted) : s.depart.map redacted = t.depart.map redacted := by
  obtain ⟨task, entries, queue, received, attended⟩ := s
  obtain ⟨its, entries', queue', received', attended'⟩ := t
  simp only [redacted, mk.injEq] at same
  obtain ⟨tasks, rfl, -, taken, rfl⟩ := same
  cases attended with
  | false => rfl
  | true => simp only [depart, if_true, Option.map_some, redacted, tasks, taken, List.map_nil]

private theorem act_redacted (alike : DecryptAlike context other script) (offered : ∀ step ∈ s.task.script, step ∈ script)
    (same : s.redacted = t.redacted) (actor : Actor) :
    (s.act ⟨context, failures⟩ capacity actor).map redacted = (t.act ⟨other, failures⟩ capacity actor).map redacted := by
  cases actor with
  | session => exact advance_redacted failures capacity alike offered same
  | reader => exact receive_redacted same
  | departure => exact depart_redacted same

private theorem start_same (context other : CipherContext) (failures : Failures) (cancelled : Bool) (script : List Step) :
    start ⟨context, failures⟩ cancelled script = start ⟨other, failures⟩ cancelled script := rfl

theorem afterTurns_redacted (alike : DecryptAlike context other script) (schedule : Nat → Actor) (cancelled : Bool)
    (n : Nat) :
    (afterTurns ⟨context, failures⟩ capacity schedule (start ⟨context, failures⟩ cancelled script) n).redacted =
      (afterTurns ⟨other, failures⟩ capacity schedule (start ⟨other, failures⟩ cancelled script) n).redacted := by
  induction n with
  | zero => rw [afterTurns, afterTurns, start_same context other]
  | succ n ih =>
    have told := afterTurns_told ⟨context, failures⟩ capacity schedule cancelled script n
    have moved := act_redacted failures capacity alike told.offered ih (schedule n)
    rw [afterTurns, afterTurns]
    generalize afterTurns ⟨context, failures⟩ capacity schedule _ n = s at ih moved ⊢
    generalize afterTurns ⟨other, failures⟩ capacity schedule _ n = t at ih moved ⊢
    rw [← Option.getD_map redacted, ← Option.getD_map redacted, moved, ih]

end System

/-- What a session logs, calls and does tells nothing of a key, a vector or a plaintext. For any two contexts that
decrypt the same records of a script, and for every channel, the sessions have the same exit, the same phases and
the same trace, with every call and every log line in it; and they hand over the same, but for the plaintexts of
notifications. So it is at every turn, however much the channel holds and whatever a reader does. -/
theorem diagnostics_keep_secrets (cancelled : Bool) (alike : DecryptAlike context other script) :
    (∀ channel,
      let report := run ⟨context, failures⟩ channel cancelled script
      let its := run ⟨other, failures⟩ channel cancelled script
      report.exit = its.exit ∧ report.phase = its.phase ∧ report.entries = its.entries ∧
        report.deliveries.map Delivery.redacted = its.deliveries.map Delivery.redacted ∧
        phases ⟨context, failures⟩ channel cancelled script = phases ⟨other, failures⟩ channel cancelled script) ∧
    ∀ capacity schedule n,
      let reached := fun context : CipherContext =>
        System.afterTurns ⟨context, failures⟩ capacity schedule (System.start ⟨context, failures⟩ cancelled script) n
      let now := reached context
      let its := reached other
      now.task.exit? = its.task.exit? ∧ now.task.phase = its.task.phase ∧ now.entries = its.entries ∧
        now.attended = its.attended ∧
        now.received.map Delivery.redacted = its.received.map Delivery.redacted ∧
        now.queue.map Delivery.redacted = its.queue.map Delivery.redacted := by
  constructor
  · intro channel report its
    have same : report.redacted = its.redacted := run_redacted failures channel cancelled alike
    simp only [Report.redacted, Report.mk.injEq] at same
    obtain ⟨entries, deliveries, phase, exit⟩ := same
    refine ⟨exit, phase, entries, deliveries, List.map_congr_left fun n _ => ?_⟩
    have first : DecryptAlike context other (script.take n) :=
      fun topic body records member => alike topic body records (List.mem_of_mem_take member)
    have early := run_redacted failures channel cancelled first
    simp only [Report.redacted, Report.mk.injEq] at early
    exact early.2.2.1
  · intro capacity schedule n reached now its
    have same : now.redacted = its.redacted := System.afterTurns_redacted failures capacity alike schedule cancelled n
    simp only [System.redacted, System.mk.injEq] at same
    obtain ⟨tasks, entries, queue, received, attended⟩ := same
    refine ⟨?_, ?_, entries, attended, received, queue⟩
    · rw [← Task.exit?_redacted, tasks, Task.exit?_redacted]
    · rw [← Task.phase_redacted, tasks, Task.phase_redacted]

theorem diagnostics_keep_secrets_of_record :
    let keys := Aes.roundKeys .bits128 (List.replicate 16 0)
    let context : CipherContext := ⟨.bits128, keys, .zero⟩
    let other : CipherContext := ⟨.bits128, keys, (Aes.Block.ofBytes (1 :: List.replicate 15 0)).headD .zero⟩
    let payload := "Z1FM+6Mh4mYsD2w8OEg+qA=="
    let body := Utf8.ofString "[\x7b\"path\":\"/3303\",\"payload\":\"Z1FM+6Mh4mYsD2w8OEg+qA==\"\x7d]"
    let script : List Step :=
      [.event .connAck, .event (.message "/domain/a/notification" body), .event (.failed 7 "reset")]
    let report := run ⟨context, .none⟩ .drained false script
    let its := run ⟨other, .none⟩ .drained false script
    (Envelope.read body).map (List.map Record.payload) = .ok [payload] ∧
      context.decrypt payload = .ok [0x7B, 0x31] ∧ other.decrypt payload = .ok [0x7A, 0x31] ∧
      DecryptAlike context other script ∧ report.exit = its.exit ∧ report.entries = its.entries ∧
      report.deliveries.map Delivery.redacted = its.deliveries.map Delivery.redacted := by
  intro keys context other payload body script report its
  have payloads : (Envelope.read body).map (List.map Record.payload) = .ok [payload] := by decide +kernel
  have one : context.decrypt payload = .ok [0x7B, 0x31] := by decide +kernel
  have two : other.decrypt payload = .ok [0x7A, 0x31] := by decide +kernel
  have alike : DecryptAlike context other script := by
    intro topic heard records member envelope record present
    have same : topic = "/domain/a/notification" ∧ heard = body := by simpa [script] using member
    rw [same.2] at envelope
    rw [envelope] at payloads
    have known := List.mem_map_of_mem (f := Record.payload) present
    rw [Except.ok.inj payloads, List.mem_singleton] at known
    rw [known]
    exact ⟨fun _ => ⟨_, two⟩, fun _ => ⟨_, one⟩⟩
  obtain ⟨exit, -, entries, deliveries, -⟩ := (diagnostics_keep_secrets .none false alike).1 .drained
  exact ⟨payloads, one, two, alike, exit, entries, deliveries⟩

end Session
end DeviceBus
