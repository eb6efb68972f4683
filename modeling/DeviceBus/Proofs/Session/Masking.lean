import DeviceBus.Proofs.Session.History

/-! What messages say steers nothing. Apart from its deliveries and its log, a session with a reader that stays is the
same for all messages in the places of those that came, and for every way to decrypt them: each trace is compared
with that of the script whose messages are blank. -/
namespace DeviceBus

/-- The kind of an event, the contents of a message being left out. -/
def Broker.Event.masked : Broker.Event → Broker.Event
  | .message .. => .message "" []
  | event => event

namespace Session

open Broker (Event)

def Step.masked : Step → Step
  | event e => .event e.masked
  | step => step

/-- What is seen of an entry from outside: calls as they are, polled events by their kinds, log lines not at all. -/
def Entry.outline? : Entry → Option Entry
  | call c => some (call c)
  | poll event => some (poll event.masked)
  | log _ => none

def outline (entries : List Entry) : List Entry := entries.filterMap Entry.outline?

private theorem outline_append (entries more : List Entry) : outline (entries ++ more) = outline entries ++ outline more :=
  List.filterMap_append

private theorem Silent.outline_eq {entries : List Entry} (silent : Silent entries) : outline entries = [] := by
  refine List.filterMap_eq_nil_iff.mpr fun entry member => ?_
  obtain ⟨notice, rfl⟩ := silent entry member
  rfl

/-- Two sessions that end alike, in the same phase, with the same calls and the same kinds of polled events. -/
structure Alike (r s : Report) : Prop where
  exit : r.exit = s.exit
  phase : r.phase = s.phase
  outline : outline r.entries = outline s.entries

namespace Alike

variable {r s t : Report}

theorem refl (r : Report) : Alike r r := ⟨rfl, rfl, rfl⟩

theorem symm (alike : Alike r s) : Alike s r := ⟨alike.exit.symm, alike.phase.symm, alike.outline.symm⟩

theorem trans (first : Alike r s) (second : Alike s t) : Alike r t :=
  ⟨first.exit.trans second.exit, first.phase.trans second.phase, first.outline.trans second.outline⟩

theorem after (alike : Alike r s) {entries entries' : List Entry} (same : Session.outline entries = Session.outline entries')
    (deliveries deliveries' : List Delivery) :
    Alike (.after entries deliveries r) (.after entries' deliveries' s) := by
  refine ⟨alike.exit, alike.phase, ?_⟩
  rw [Report.entries_after, Report.entries_after, outline_append, outline_append, same, alike.outline]

end Alike

variable {setup blind : Setup}

private theorem turn_masked (same : setup.failures = blind.failures) (phase : Phase) (event : Event) :
    (turn setup phase event).next = (turn blind phase event.masked).next ∧
      outline (.poll event :: (turn setup phase event).entries) =
        outline (.poll event.masked :: (turn blind phase event.masked).entries) := by
  cases event with
  | message topic body =>
    rw [Event.masked, turn, turn]
    split
    · have loud := (onMessage_silent setup.context phase topic body).outline_eq
      have quiet := (onMessage_silent blind.context phase "" []).outline_eq
      refine ⟨rfl, ?_⟩
      change .poll (.message "" []) :: outline _ = .poll (.message "" []) :: outline _
      rw [loud, quiet]
    · exact ⟨rfl, rfl⟩
  | _ =>
    simp [turn, same, Event.masked]

private theorem follow_masked (same : setup.failures = blind.failures) (phase : Phase) {script : List Step}
    (remains : .dropReceiver ∉ script) :
    Alike (follow setup phase .drained script) (follow blind phase .drained (script.map Step.masked)) := by
  induction script generalizing phase with
  | nil => exact .refl _
  | cons step script ih =>
    have later := fun phase => ih phase (List.not_mem_of_not_mem_cons remains)
    cases step with
    | wait ms => exact later phase
    | dropReceiver => exact absurd List.mem_cons_self remains
    | cancel =>
      simp only [List.map_cons, Step.masked, follow, same]
      exact .refl _
    | event event =>
      -- the deliveries may differ, but a reader that takes them all lets both sessions go on
      obtain ⟨goes, seen⟩ := turn_masked same phase event
      simp only [List.map_cons, Step.masked, follow, send_drained]
      rw [goes]
      refine Alike.after ?_ seen _ _
      cases (turn blind phase event.masked).next with
      | stay next => exact later next
      | finish last exit => exact .refl _

theorem run_masked (same : setup.failures = blind.failures) (cancelled : Bool) {script : List Step}
    (remains : .dropReceiver ∉ script) :
    Alike (run setup .drained cancelled script) (run blind .drained cancelled (script.map Step.masked)) := by
  rw [run, run, same]
  refine Alike.after ?_ rfl _ _
  cases blind.failures.connect with
  | some info => exact .refl _
  | none =>
    cases cancelled with
    | true => exact .refl _
    | false => exact follow_masked same .connecting remains

private theorem dropReceiver_mem_map_masked (script : List Step) :
    .dropReceiver ∈ script.map Step.masked ↔ .dropReceiver ∈ script := by
  rw [List.mem_map]
  constructor
  · rintro ⟨step, member, same⟩
    cases step with
    | dropReceiver => exact member
    | event | wait | cancel => cases same
  · intro member
    exact ⟨.dropReceiver, member, rfl⟩

/-- The contents of messages neither end nor steer a session whose receiver stays, and neither does the cipher context. Of
two scripts that differ in the contents of their messages alone, under any two contexts, the sessions end alike,
with the same exit, phase, calls and kinds of events. It does not matter how much their channels hold: what is
seen of a session with a reader that stays is at every turn a first part of that, and all of it in the end. -/
theorem contents_steer_nothing {setup other : Setup} (cancelled : Bool) {script changed : List Step}
    (same : setup.failures = other.failures) (alike : script.map Step.masked = changed.map Step.masked)
    (remains : .dropReceiver ∉ script) :
    let report := run setup .drained cancelled script
    Alike report (run other .drained cancelled changed) ∧
      ∀ (capacity : Nat) (schedule : Nat → Actor),
        let reached := System.afterTurns other capacity schedule (System.start other cancelled changed)
        ((∀ n, schedule n ≠ .departure) → ∀ n, outline (reached n).entries <+: outline report.entries ∧
          ∀ exit ∈ (reached n).task.exit?, report.exit = some exit) ∧
        (0 < capacity → Fair schedule → ∃ n, ∀ m, n ≤ m → Alike report (reached m).report) := by
  intro report
  have stays : .dropReceiver ∉ changed := by
    rw [← dropReceiver_mem_map_masked, ← alike, dropReceiver_mem_map_masked]
    exact remains
  have both : Alike report (run other .drained cancelled changed) := by
    have first := run_masked same cancelled remains
    have second : Alike (run other .drained cancelled changed) _ := run_masked rfl cancelled stays
    rw [alike] at first
    exact first.trans second.symm
  have live := System.start_live other cancelled stays
  have total := System.start_total other cancelled changed
  refine ⟨both, fun capacity schedule => ?_⟩
  intro reached
  refine ⟨fun present n => ?_, fun room fair => ?_⟩
  · have kept := (System.afterTurns_total other capacity present live n).2.trans total
    refine ⟨?_, fun exit exited => ?_⟩
    · rw [both.outline, ← kept]
      exact (System.entries_prefix_total other _).filterMap _
    · rw [both.exit, ← kept]
      exact System.exit_total other exited
  · obtain ⟨n, settled⟩ := System.exists_report_eq_total room fair live
    refine ⟨n, fun m later => ?_⟩
    have last : (reached m).report = _ := (settled m later).2.trans total
    rw [last]
    exact both

theorem contents_steer_nothing_of_garbled :
    let setup := flawless ⟨.bits128, Aes.roundKeys .bits128 (List.replicate 16 0), .zero⟩
    let other := flawless ⟨.bits128, Aes.roundKeys .bits128 (List.replicate 16 1), .zero⟩
    let script : List Step :=
      [.event .connAck, .event (.message "" []), .event (.subAck true), .event (.message "" []),
        .event (.failed 7 "reset")]
    let changed : List Step :=
      [.event .connAck, .event (.message "/domain/a/response" [1]), .event (.subAck true),
        .event (.message "/domain/a/notification" [0x7B]), .event (.failed 7 "reset")]
    ∃ n, ∀ m, n ≤ m →
      Alike (run setup .drained false script)
        (System.afterTurns other 1 alternating (System.start other false changed) m).report := by
  intro setup other script changed
  have same : setup.failures = other.failures := by
    change Failures.none = Failures.none
    rfl
  have alike : script.map Step.masked = changed.map Step.masked := rfl
  obtain ⟨-, every⟩ := contents_steer_nothing false same alike (by decide)
  exact (every 1 alternating).2 Nat.one_pos alternating_fair

end Session
end DeviceBus
