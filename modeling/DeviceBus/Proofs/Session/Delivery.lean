import DeviceBus.Proofs.Session.Progress

/-! What a session hands over, said of its script alone. Messages count from the acceptance of the connection on,
until the connection ends, the client is told to leave, or the subscription is refused. -/
namespace DeviceBus.Session

open Broker (Event)

def Step.event? : Step → Option Event
  | .event e => some e
  | .wait _ | .cancel | .dropReceiver => none

/-- The events in a script before the client is told to leave. -/
def polled (script : List Step) : List Event := (script.takeWhile (· ≠ .cancel)).filterMap Step.event?

def endsConnection : Event → Bool
  | .disconnected | .failed .. => true
  | _ => false

def acceptsConnection : Event → Bool
  | .connAck => true
  | _ => false

def answersSubscription : Event → Bool
  | .subAck _ => true
  | _ => false

def whileConnected (events : List Event) : List Event := events.takeWhile fun event => !endsConnection event

def afterAcceptance (events : List Event) : List Event := (events.dropWhile fun event => !acceptsConnection event).tail

/-- The events before the first answer to a subscription if that is a refusal, and all events else. -/
def beforeRefusal (events : List Event) : List Event :=
  if events.find? answersSubscription = some (.subAck false) then
    events.takeWhile fun event => !answersSubscription event
  else events

/-- The events of a script in which a session heeds messages. -/
def heeded (cancelled : Bool) (script : List Step) : List Event :=
  if cancelled then [] else beforeRefusal (afterAcceptance (whileConnected (polled script)))

def handed (context : CipherContext) (events : List Event) : List Delivery :=
  events.flatMap fun
    | .message topic body => (Dispatch.ofMessage context topic body).deliveries
    | _ => []

section Scripts

variable {event : Event} {events : List Event}

theorem polled_event (event : Event) (script : List Step) :
    polled (.event event :: script) = event :: polled script := rfl

private theorem whileConnected_end (ends : endsConnection event = true) : whileConnected (event :: events) = [] :=
  List.takeWhile_cons_of_neg (by rw [ends]; exact Bool.false_ne_true)

private theorem whileConnected_other (other : endsConnection event = false) :
    whileConnected (event :: events) = event :: whileConnected events :=
  List.takeWhile_cons_of_pos (by rw [other]; rfl)

theorem afterAcceptance_other (other : acceptsConnection event = false) :
    afterAcceptance (event :: events) = afterAcceptance events := by
  rw [afterAcceptance, List.dropWhile_cons_of_pos (by rw [other]; rfl)]
  rfl

private theorem beforeRefusal_other (other : answersSubscription event = false) :
    beforeRefusal (event :: events) = event :: beforeRefusal events := by
  unfold beforeRefusal
  rw [List.find?_cons_of_neg (by rw [other]; exact Bool.false_ne_true)]
  split
  · rw [List.takeWhile_cons_of_pos (by rw [other]; rfl)]
  · rfl

end Scripts

variable (context : CipherContext)

def flawless : Setup := ⟨context, .none⟩

private theorem follow_event_deliveries (setup : Setup) (phase : Phase) (event : Event) (script : List Step) :
    (follow setup phase .drained (.event event :: script)).deliveries =
      (turn setup phase event).deliveries ++
        match (turn setup phase event).next with
        | .stay phase => (follow setup phase .drained script).deliveries
        | .finish .. => [] := by
  rw [follow]
  simp only [send_drained]
  cases (turn setup phase event).next <;> rfl

def heededFrom : Phase → List Event → List Event
  | .connecting, events => beforeRefusal (afterAcceptance events)
  | .subscribing, events => beforeRefusal events
  | .listening, events => events
  | .disconnected, _ | .faulted, _ => []

private theorem turn_heeds (phase : Phase) {event : Event} (events : List Event) (other : endsConnection event = false) :
    (turn (flawless context) phase event).deliveries ++
        (match (turn (flawless context) phase event).next with
        | .stay phase => handed context (heededFrom phase events)
        | .finish .. => []) =
      handed context (heededFrom phase (event :: events)) := by
  cases phase with
  | connecting =>
    cases event with
    | connAck => rfl
    | disconnected => cases other
    | failed code reason => cases other
    | _ => rw [heededFrom, afterAcceptance_other rfl]; rfl
  | subscribing =>
    cases event with
    | subAck granted => cases granted <;> rfl
    | disconnected => cases other
    | failed code reason => cases other
    | _ => rw [heededFrom, beforeRefusal_other rfl]; rfl
  | _ =>
    cases event with
    | disconnected => cases other
    | failed code reason => cases other
    | _ => rfl

private theorem turn_ends (setup : Setup) (phase : Phase) {event : Event} (ends : endsConnection event = true) :
    ∃ entries last exit, turn setup phase event = ⟨entries, [], .finish last exit⟩ := by
  cases event with
  | disconnected => exact ⟨_, _, _, rfl⟩
  | failed code reason => exact ⟨_, _, _, rfl⟩
  | _ => cases ends

private theorem handed_heededFrom_nil (phase : Phase) : handed context (heededFrom phase []) = [] := by
  cases phase <;> rfl

private theorem follow_deliveries (phase : Phase) {script : List Step} (remains : .dropReceiver ∉ script) :
    (follow (flawless context) phase .drained script).deliveries =
      handed context (heededFrom phase (whileConnected (polled script))) := by
  induction script generalizing phase with
  | nil => exact (handed_heededFrom_nil context phase).symm
  | cons step script ih =>
    have later := fun phase => ih phase (List.not_mem_of_not_mem_cons remains)
    cases step with
    | wait ms => exact later phase
    | cancel => exact (handed_heededFrom_nil context phase).symm
    | dropReceiver => exact absurd List.mem_cons_self remains
    | event event =>
      rw [follow_event_deliveries, polled_event]
      cases ends : endsConnection event with
      | false =>
        rw [whileConnected_other ends, ← turn_heeds context phase _ ends]
        cases (turn (flawless context) phase event).next with
        | stay next => exact congrArg _ (later next)
        | finish next exit => rfl
      | true =>
        obtain ⟨entries, last, exit, same⟩ := turn_ends (flawless context) phase ends
        rw [whileConnected_end ends, handed_heededFrom_nil, same]
        rfl

/-- A session hands over the decodings of the messages that it heeds, in the order in which they come. -/
theorem run_deliveries (cancelled : Bool) {script : List Step} (remains : .dropReceiver ∉ script) :
    (run (flawless context) .drained cancelled script).deliveries = handed context (heeded cancelled script) := by
  cases cancelled with
  | true => rfl
  | false => exact follow_deliveries context .connecting remains

def reached (capacity : Nat) (schedule : Nat → Actor) (cancelled : Bool) (script : List Step) (n : Nat) : System :=
  System.afterTurns (flawless context) capacity schedule (System.start (flawless context) cancelled script) n

/-- Whatever the capacity of its channel and the turns of a reader that stays: a session that nobody leaves
delivers the decodings of the messages that it heeds, each once and in their order. At every turn a first
part of them is there, and all are received in the end. What the session does besides is that
of a session whose deliveries are taken at once, and so the same for every capacity. -/
theorem received_eq_handed (cancelled : Bool) (script : List Step) (remains : .dropReceiver ∉ script) :
    let report := run (flawless context) .drained cancelled script
    report.deliveries = handed context (heeded cancelled script) ∧
      ∀ (capacity : Nat) (schedule : Nat → Actor), 0 < capacity → Fair schedule →
        (∀ n, let now := reached context capacity schedule cancelled script n
          now.queue.length ≤ capacity ∧ now.received ++ now.queue <+: report.deliveries ∧
            now.entries <+: report.entries ∧ ∀ exit ∈ now.task.exit?, report.exit = some exit) ∧
        ∃ n, ∀ m, n ≤ m → (reached context capacity schedule cancelled script m).report = report := by
  intro report
  have live := System.start_live (flawless context) cancelled remains
  have total : (System.start (flawless context) cancelled script).total (flawless context) = report :=
    System.start_total (flawless context) cancelled script
  refine ⟨run_deliveries context cancelled remains, fun capacity schedule room fair => ⟨fun n => ?_, ?_⟩⟩
  · have kept : (reached context capacity schedule cancelled script n).total (flawless context) = report :=
      (System.afterTurns_total (flawless context) capacity fair.stays live n).2.trans total
    refine ⟨?_, ?_, ?_, ?_⟩
    · apply System.afterTurns_queue_le
      rw [System.start_queue]
      exact Nat.zero_le capacity
    · rw [← kept]
      exact System.deliveries_prefix_total (flawless context) _
    · rw [← kept]
      exact System.entries_prefix_total (flawless context) _
    · intro exit exited
      rw [← kept]
      exact System.exit_total (flawless context) exited
  · obtain ⟨n, settled⟩ := System.exists_report_eq_total room fair live
    exact ⟨n, fun m later => (settled m later).2.trans total⟩

theorem received_eq_handed_of_responses :
    let context : CipherContext := ⟨.bits128, Aes.roundKeys .bits128 (List.replicate 16 0), .zero⟩
    let script : List Step :=
      [.event (.message "/domain/a/response" [1]), .event .connAck, .event (.message "/domain/a/response" [2]),
        .event (.subAck true), .event (.message "/domain/b/response" [3]), .event .disconnected]
    ∃ n, ∀ m, n ≤ m →
      (reached context 1 alternating false script m).received =
        [.controlResponse ⟨"/domain/a/response"⟩ [2], .controlResponse ⟨"/domain/b/response"⟩ [3]] := by
  intro context script
  obtain ⟨same, every⟩ := received_eq_handed context false script (by decide)
  obtain ⟨-, n, settled⟩ := every 1 alternating Nat.one_pos alternating_fair
  refine ⟨n, fun m later => ?_⟩
  have received := congrArg Report.deliveries (settled m later)
  exact received.trans (same.trans (by decide))

end DeviceBus.Session
