import DeviceBus.CommandLine.Listener
import DeviceBus.Proofs.Broker.Reports
import DeviceBus.Proofs.Session.Conduct

/-! How sessions end. The phase and the exit are set in different places, and agree at every end; the code of a session
that ends in a fault tells a connection that was not made from a subscription that was not, and else is the code
that the transport has given. -/
namespace DeviceBus.CommandLine.Listener

private theorem status_eq_zero {code : Int} (zero : status code = 0) : code = 0 := by
  unfold status at zero
  split at zero
  · omega
  · cases zero

private theorem status_of_byte {code : Int} (least : 0 ≤ code) (most : code ≤ 255) : (status code : Int) = code := by
  rw [status, if_pos ⟨least, most⟩, Int.toNat_of_nonneg least]

end DeviceBus.CommandLine.Listener

namespace DeviceBus.Session

open Broker (Event)

inductive Cause (failures : Failures) (entries : List Entry) (code : Int) : Prop
  | unconnected (failed : failures.connect ≠ none) (same : code = 4)
  | unsubscribed (called : .subscribe Topic.wildcard .atMostOnce ∈ callsIn entries) (failed : failures.subscribe ≠ none)
    (same : code = 2)
  | refused (answer : answer? (pollsIn entries) = some (.subAck false)) (same : code = 2)
  | failed (earlier : List Event) (reason : String) (last : pollsIn entries = earlier ++ [.failed code reason])

/-- How a session goes on or ends, as its calls and the events it polled explain it. -/
structure Settled (failures : Failures) (entries : List Entry) (next : Next) : Prop where
  unconnected : failures.connect ≠ none → next = .finish .faulted (.faulted 4)
  unsubscribed : .subscribe Topic.wildcard .atMostOnce ∈ callsIn entries → failures.subscribe ≠ none →
    next = .finish .faulted (.faulted 2)
  refused : answer? (pollsIn entries) = some (.subAck false) → next = .finish .faulted (.faulted 2)
  failed : ∀ code reason, .failed code reason ∈ pollsIn entries → next = .finish .faulted (.faulted code)
  disconnected : .disconnected ∈ pollsIn entries → next = .finish .disconnected .disconnected
  ends : ∀ phase exit, next = .finish phase exit →
    phase = .disconnected ∧ exit = .disconnected ∨
    ∃ code, phase = .faulted ∧ exit = .faulted code ∧ Cause failures entries code

variable {setup : Setup} {failures : Failures} {script : List Step} {entries : List Entry} {phase : Phase} {exit : Exit}
  {next : Next}

namespace Standing

private theorem subscribe_mem (standing : Standing failures entries phase) {more : List Entry}
    (called : .subscribe Topic.wildcard .atMostOnce ∈ callsIn (entries ++ more)) (failed : failures.subscribe ≠ none) :
    .subscribe Topic.wildcard .atMostOnce ∈ callsIn more := by
  rw [callsIn_append, List.mem_append] at called
  refine called.resolve_left fun early => failed (standing.subscribed ?_)
  rintro rfl
  rw [standing.calls] at early
  simp at early

private theorem end_mem (standing : Standing failures entries phase) {more : List Entry} {event : Event}
    (ends : endsConnection event = true) (member : event ∈ pollsIn (entries ++ more)) : event ∈ pollsIn more := by
  rw [pollsIn_append, List.mem_append] at member
  refine member.resolve_left fun early => ?_
  rw [standing.unended event early] at ends
  cases ends

private theorem unrefused_event (standing : Standing failures entries phase) (event : Event)
    (other : answersSubscription event = false) : answer? (pollsIn entries ++ [event]) ≠ some (.subAck false) := by
  rw [standing.answer?_event event fun answers => absurd answers (by simp [other])]
  exact standing.unrefused

theorem settled (standing : Standing failures entries phase) : Settled failures entries (.stay phase) where
  unconnected failed := absurd standing.connected failed
  unsubscribed called failed := by
    rw [← List.append_nil entries] at called
    exact nomatch standing.subscribe_mem called failed
  refused refused := absurd refused standing.unrefused
  failed code reason member := by cases standing.unended _ member
  disconnected member := by cases standing.unended _ member
  ends := nofun

end Standing

theorem History.settled (history : History setup script entries next) : Settled setup.failures entries next := by
  cases history with
  | connected made =>
    have start : History setup script [.call .connect] (.stay .connecting) := .connected made
    exact start.standing.settled
  | unconnected info failed =>
    exact {
      unconnected := fun _ => rfl
      unsubscribed := by simp
      refused := nofun
      failed := nofun
      disconnected := nofun
      ends := by
        rintro phase exit same
        cases same
        exact .inr ⟨4, rfl, rfl, .unconnected (by simp [failed]) rfl⟩ }
  | left notice past =>
    have standing := past.standing
    exact {
      unconnected := fun failed => absurd standing.connected failed
      unsubscribed := fun called failed => by simpa using standing.subscribe_mem called failed
      refused := fun refused => absurd (by simpa using refused) standing.unrefused
      failed := fun code reason member => by simpa using standing.end_mem rfl member
      disconnected := fun _ => rfl
      ends := by
        rintro phase exit same
        cases same
        exact .inl ⟨rfl, rfl⟩ }
  | @reacted entries phase event turn past offered reaction =>
    have standing := past.standing
    have now := past.reacted offered reaction
    cases reaction with
    | subscribed | granted | heard | ignored => exact now.standing.settled
    | unsubscribed info failed =>
      exact {
        unconnected := fun failed => absurd standing.connected failed
        unsubscribed := fun _ _ => rfl
        refused := fun _ => rfl
        failed := fun code reason member => by simpa using standing.end_mem rfl member
        disconnected := fun member => by simpa using standing.end_mem rfl member
        ends := by
          rintro phase exit same
          cases same
          exact .inr ⟨2, rfl, rfl, .unsubscribed (by simp) (by simp [failed]) rfl⟩ }
    | refused =>
      have accepted : .connAck ∈ pollsIn entries := standing.accepted.mpr nofun
      have answer : answer? (pollsIn entries ++ [.subAck false]) = some (.subAck false) := by
        simp [answer?_accepted accepted, standing.answer, answersSubscription]
      exact {
        unconnected := fun failed => absurd standing.connected failed
        unsubscribed := fun _ _ => rfl
        refused := fun _ => rfl
        failed := fun code reason member => by simpa using standing.end_mem rfl member
        disconnected := fun member => by simpa using standing.end_mem rfl member
        ends := by
          rintro phase exit same
          cases same
          exact .inr ⟨2, rfl, rfl, .refused (by simpa using answer) rfl⟩ }
    | disconnected =>
      have unrefused := standing.unrefused_event .disconnected rfl
      exact {
        unconnected := fun failed => absurd standing.connected failed
        unsubscribed := fun called failed => by simpa using standing.subscribe_mem called failed
        refused := fun refused => absurd (by simpa using refused) unrefused
        failed := fun code reason member => by simpa using standing.end_mem rfl member
        disconnected := fun _ => rfl
        ends := by
          rintro phase exit same
          cases same
          exact .inl ⟨rfl, rfl⟩ }
    | failed _ code reason =>
      have unrefused := standing.unrefused_event (.failed code reason) rfl
      exact {
        unconnected := fun failed => absurd standing.connected failed
        unsubscribed := fun called failed => by simpa using standing.subscribe_mem called failed
        refused := fun refused => absurd (by simpa using refused) unrefused
        failed := fun other its member => by
          have same : other = code ∧ its = reason := by simpa using standing.end_mem rfl member
          rw [same.1]
          rfl
        disconnected := fun member => by simpa using standing.end_mem rfl member
        ends := by
          rintro phase exit same
          cases same
          exact .inr ⟨code, rfl, rfl, .failed (pollsIn entries) reason (by simp)⟩ }

def NonzeroFailures (script : List Step) : Prop := ∀ code reason, .event (.failed code reason) ∈ script → code ≠ 0

private theorem History.code_ne_zero (history : History setup script entries next) (nonzero : NonzeroFailures script)
    {code : Int} (cause : Cause setup.failures entries code) : code ≠ 0 := by
  cases cause with
  | unconnected failed same => simp [same]
  | unsubscribed called failed same => simp [same]
  | refused answer same => simp [same]
  | failed earlier reason last =>
    have member : .failed code reason ∈ pollsIn entries := by simp [last]
    exact nonzero code reason (history.offered member)

/-- The exit, its code and the phase of a session that ends are all of a clean end, or all of a fault. -/
structure Agree (phase : Phase) (exit : Exit) : Prop where
  code : exit.code = 0 ↔ exit = .disconnected
  clean : exit = .disconnected ↔ phase = .disconnected
  faulted : exit ≠ .disconnected → phase = .faulted

theorem History.agree (history : History setup script entries (.finish phase exit)) (nonzero : NonzeroFailures script) :
    Agree phase exit := by
  rcases history.settled.ends phase exit rfl with ⟨rfl, rfl⟩ | ⟨code, rfl, rfl, cause⟩
  · exact ⟨by simp [Exit.code], by simp, fun other => absurd rfl other⟩
  · have other := history.code_ne_zero nonzero cause
    exact ⟨by simp [Exit.code, other], by simp, fun _ => rfl⟩

private theorem Task.next_of_exited {task : Task} (exited : task.exit? = some exit) :
    task.next = .finish task.phase exit := by
  cases task with
  | ended last its =>
    cases exited
    rfl
  | polling | sending => cases exited

/-- The final status of a session, for a transport whose failures have codes other than zero, as those of a network have.
The code is zero exactly for a clean end, which is the one with the phase of a session that is disconnected, and else
tells the cause of the fault; and the status of the listener's process is zero for no other code. -/
theorem final_status :
    (∀ setup cancelled script, NonzeroFailures script →
      (∀ channel, let report := run setup channel cancelled script
        Settled setup.failures report.entries report.next ∧
          ∀ exit, report.exit = some exit → Agree report.phase exit) ∧
      ∀ capacity schedule n,
        let now := System.afterTurns setup capacity schedule (System.start setup cancelled script) n
        Settled setup.failures now.entries now.task.next ∧
          ∀ exit, now.task.exit? = some exit → now.task.next = .finish now.task.phase exit ∧ Agree now.task.phase exit) ∧
    (∀ code reason, Broker.Reported (.failed code reason) → code = 2 ∨ code = 4 ∨ code = 5 ∨ code = 7) ∧
    (∀ code, CommandLine.Listener.status code = 0 → code = 0) ∧
    ∀ code, 0 ≤ code → code ≤ 255 → (CommandLine.Listener.status code : Int) = code := by
  refine ⟨fun setup cancelled script nonzero => ⟨?_, ?_⟩, ?_, ?_, ?_⟩
  · intro channel report
    have history := run_history setup channel cancelled script
    refine ⟨history.settled, fun exit ended => ?_⟩
    rw [Report.next, ended] at history
    exact history.agree nonzero
  · intro capacity schedule n now
    have history : History setup script now.entries now.task.next :=
      (System.afterTurns_told setup capacity schedule cancelled script n).history
    refine ⟨history.settled, fun exit exited => ?_⟩
    have same := Task.next_of_exited exited
    rw [same] at history
    exact ⟨same, history.agree nonzero⟩
  · intro code reason reported
    simpa using reported.coded code reason rfl
  · intro code zero
    exact CommandLine.Listener.status_eq_zero zero
  · intro code least most
    exact CommandLine.Listener.status_of_byte least most

theorem final_status_of_lost_connection :
    let setup := flawless ⟨.bits128, Aes.roundKeys .bits128 (List.replicate 16 0), .zero⟩
    let script := [.event .connAck, .event (Broker.Failure.network "reset").event]
    let report := run setup .drained false script
    NonzeroFailures script ∧ report.exit = some (.faulted 7) ∧ report.phase = .faulted ∧ (7 : Int) ≠ 0 := by
  intro setup script report
  obtain ⟨sessions, codes, -⟩ := final_status
  have nonzero : NonzeroFailures script := by
    intro code reason member
    have lost : .failed code reason = (Broker.Failure.network "reset").event := by simpa [script] using member
    rcases codes code reason (lost ▸ .failure _) with rfl | rfl | rfl | rfl <;> decide
  obtain ⟨-, agree⟩ := (sessions setup false script nonzero).1 .drained
  obtain ⟨zero, -, faulted⟩ := agree (.faulted 7) rfl
  exact ⟨nonzero, rfl, faulted nofun, fun same => nomatch zero.mp same⟩

end DeviceBus.Session
