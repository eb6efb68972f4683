import Mathlib.Data.List.Induction
import DeviceBus.Proofs.Session.Conduct
import DeviceBus.Proofs.Session.Continuation

/-! When a session disconnects. It takes its leave on being cancelled, on a refused subscription, and when a receiver
that is gone is handed something; in every other end the connection is gone, or was never made. -/
namespace DeviceBus.Session

open Broker (Event)

variable {setup : Setup} {phase : Phase} {event : Event}

private theorem Reaction.disconnects {turn : Turn} (reaction : Reaction setup phase event turn) :
    .disconnect ∈ callsIn turn.entries ↔ phase = .subscribing ∧ event = .subAck false := by
  cases reaction with
  | refused => simp
  | heard _ topic body => simp [(onMessage_silent setup.context phase topic body).calls]
  | ignored _ _ other early late =>
    have calls : callsIn (onUnexpected phase event).entries = [] := (onUnexpected_silent phase event).calls
    rw [calls]
    refine ⟨nofun, ?_⟩
    rintro ⟨rfl, rfl⟩
    exact absurd rfl (late rfl)
  | _ => simp

/-- What makes a session leave on a step, given that its receiver is gone or not. -/
inductive Parting (setup : Setup) (gone : Prop) : Step → Prop
  | cancelled : Parting setup gone .cancel
  | refused : Parting setup gone (.event (.subAck false))
  | deserted (topic : String) (body : Bytes) (alone : gone)
    (hands : (Dispatch.ofMessage setup.context topic body).deliveries ≠ []) :
    Parting setup gone (.event (.message topic body))

def EndsOn (setup : Setup) (channel : Channel) (cancelled : Bool) (before : List Step) (step : Step) : Prop :=
  (run setup channel cancelled before).exit = none ∧ (run setup channel cancelled (before ++ [step])).exit ≠ none

section Steps

variable {channel : Channel} {step : Step}

private theorem follow_event_ends (ends : (follow setup phase channel [.event event]).exit ≠ none) :
    (follow setup phase channel [.event event]).entries =
        .poll event :: (turn setup phase event).entries ++ .log .receiverDropped :: leave setup.failures ∧
      channel = .closed ∧ (turn setup phase event).deliveries ≠ [] ∨
    (follow setup phase channel [.event event]).entries = .poll event :: (turn setup phase event).entries ∧
      ∃ last exit, (turn setup phase event).next = .finish last exit := by
  simp only [follow] at ends ⊢
  generalize turn setup phase event = turn at ends ⊢
  cases delivered : channel.send turn.deliveries with
  | mk taken sent =>
    simp only [delivered] at ends
    cases sent with
    | stuck => exact absurd rfl ends
    | refused => exact .inl ⟨rfl, send_refused channel _ delivered⟩
    | all rest =>
      cases goes : turn.next with
      | stay next =>
        rw [goes] at ends
        exact absurd rfl ends
      | finish last exit => exact .inr ⟨by simp [Report.after, Report.ended], last, exit, rfl⟩

private theorem parting_of_disconnect (ends : (follow setup phase channel [step]).exit ≠ none)
    (left : .disconnect ∈ callsIn (follow setup phase channel [step]).entries) :
    Parting setup (channel = .closed) step := by
  cases step with
  | wait ms => exact absurd rfl ends
  | dropReceiver => exact absurd rfl ends
  | cancel => exact .cancelled
  | event event =>
    have reaction := turn_reaction setup phase event
    rcases follow_event_ends ends with ⟨-, gone, hands⟩ | ⟨same, -⟩
    · generalize turn setup phase event = turn at reaction hands
      cases reaction with
      | heard _ topic body heeds => exact .deserted topic body gone hands
      | _ => exact absurd rfl hands
    · rw [same, callsIn_poll, reaction.disconnects] at left
      obtain ⟨-, rfl⟩ := left
      exact .refused

private theorem disconnect_of_parting {gone : Prop} (ends : (follow setup phase channel [step]).exit ≠ none)
    (parting : Parting setup gone step) : .disconnect ∈ callsIn (follow setup phase channel [step]).entries := by
  cases parting with
  | cancelled => simp [follow, Report.closing, Report.ended]
  | refused =>
    rcases follow_event_ends ends with ⟨same, -⟩ | ⟨same, last, exit, goes⟩
    · simp [same]
    · -- a refusal ends a session only where an answer to its subscription is due
      have reaction := turn_reaction setup phase (.subAck false)
      rw [same, callsIn_poll, reaction.disconnects]
      refine ⟨?_, rfl⟩
      generalize turn setup phase (.subAck false) = turn at reaction goes
      cases reaction with
      | refused => rfl
      | ignored _ _ other early late => cases goes
  | deserted topic body alone hands =>
    rcases follow_event_ends ends with ⟨same, -⟩ | ⟨-, last, exit, goes⟩
    · simp [same]
    · have reaction := turn_reaction setup phase (.message topic body)
      generalize turn setup phase (.message topic body) = turn at reaction goes
      cases reaction with
      | heard _ _ _ heeds => cases goes
      | ignored _ _ other early late => cases goes

end Steps

section Runs

variable {channel : Channel} {cancelled : Bool} {script before : List Step} {step : Step}

theorem disconnect_not_mem_of_underway (underway : (run setup channel cancelled script).exit = none) :
    .disconnect ∉ callsIn (run setup channel cancelled script).entries := by
  have history := run_history setup channel cancelled script
  rw [Report.next, underway] at history
  exact history.standing.alive.stays

private theorem EndsOn.disconnects (ends : EndsOn setup channel cancelled before step) :
    .disconnect ∈ callsIn (run setup channel cancelled (before ++ [step])).entries ↔
      Parting setup (channel = .closed ∨ .dropReceiver ∈ before) step := by
  obtain ⟨underway, ended⟩ := ends
  rcases run_append setup channel cancelled before with same | ⟨-, left, gone, same⟩
  · rw [same] at ended
    exact absurd underway ended
  · rw [same, Report.exit_after] at ended
    rw [same, Report.entries_after, callsIn_append, List.mem_append,
      or_iff_right (disconnect_not_mem_of_underway underway)]
    constructor
    · intro called
      cases parting_of_disconnect ended called with
      | cancelled => exact .cancelled
      | refused => exact .refused
      | deserted topic body alone hands => exact .deserted topic body (gone alone) hands
    · intro parting
      exact disconnect_of_parting ended parting

private theorem exists_endsOn (script : List Step) (ended : (run setup channel cancelled script).exit ≠ none) :
    setup.failures.connect ≠ none ∨ cancelled = true ∨
      ∃ before step after, script = before ++ step :: after ∧ EndsOn setup channel cancelled before step := by
  induction script using List.reverseRecOn with
  | nil =>
    rw [run] at ended
    cases call : setup.failures.connect with
    | some info => exact .inl (Option.some_ne_none info)
    | none =>
      cases cancelled with
      | true => exact .inr (.inl rfl)
      | false =>
        rw [call] at ended
        exact absurd rfl ended
  | append_singleton script step ih =>
    by_cases underway : (run setup channel cancelled script).exit = none
    · exact .inr (.inr ⟨script, step, [], rfl, underway, ended⟩)
    · rcases ih underway with failed | told | ⟨before, first, after, rfl, ends⟩
      · exact .inl failed
      · exact .inr (.inl told)
      · exact .inr (.inr ⟨before, first, after ++ [step], by simp, ends⟩)

theorem disconnect_mem_run_iff (channel : Channel) (cancelled : Bool) (script : List Step) :
    .disconnect ∈ callsIn (run setup channel cancelled script).entries ↔
      setup.failures.connect = none ∧ cancelled = true ∨
      ∃ before step after, script = before ++ step :: after ∧ EndsOn setup channel cancelled before step ∧
        Parting setup (channel = .closed ∨ .dropReceiver ∈ before) step := by
  have settled : ∀ before step after, EndsOn setup channel cancelled before step →
      run setup channel cancelled (before ++ step :: after) = run setup channel cancelled (before ++ [step]) := by
    intro before step after ends
    have same := run_ended setup channel cancelled ends.2 after
    rwa [List.append_assoc] at same
  constructor
  · intro called
    have ended : (run setup channel cancelled script).exit ≠ none :=
      fun underway => disconnect_not_mem_of_underway underway called
    cases call : setup.failures.connect with
    | some info => simp [run, call, Report.ended] at called
    | none =>
      rcases exists_endsOn script ended with failed | told | ⟨before, step, after, rfl, ends⟩
      · exact absurd call failed
      · exact .inl ⟨rfl, told⟩
      · rw [settled before step after ends, ends.disconnects] at called
        exact .inr ⟨before, step, after, rfl, ends, called⟩
  · rintro (⟨made, rfl⟩ | ⟨before, step, after, rfl, ends, parting⟩)
    · simp [run, made, Report.closing, Report.ended]
    · rw [settled before step after ends, ends.disconnects]
      exact parting

end Runs

/-! The same among the turns of others. -/
namespace System

variable {capacity : Nat} {s t : System} {schedule : Nat → Actor}

inductive Leaving (s : System) : Prop
  | cancelled (phase : Phase) (steps : List Step) (task : s.task = .polling phase (.cancel :: steps))
  | refused (steps : List Step) (task : s.task = .polling .subscribing (.event (.subAck false) :: steps))
  | deserted (d : Delivery) (waiting : List Delivery) (next : Next) (steps : List Step)
    (task : s.task = .sending (d :: waiting) next steps) (alone : s.attended = false)

theorem Leaving.acts (leaving : s.Leaving) : s.advance setup capacity ≠ none := by
  cases leaving with
  | cancelled phase steps task => simp [advance, task]
  | refused steps task => simp [advance, task]
  | deserted d waiting next steps task alone => simp [advance, task, alone]

theorem disconnect_mem_advance_iff (moved : s.advance setup capacity = some t) :
    .disconnect ∈ callsIn t.entries ↔ .disconnect ∈ callsIn s.entries ∨ s.Leaving := by
  cases advance_cases moved with
  | cancel phase steps task =>
    have leaving : s.Leaving := .cancelled phase steps task
    simp [close, leaving]
  | giveUp d waiting next steps task alone =>
    have leaving : s.Leaving := .deserted d waiting next steps task alone
    simp [close, leaving]
  | poll phase event steps task =>
    have leaving : s.Leaving ↔ phase = .subscribing ∧ event = .subAck false := by
      constructor
      · rintro (⟨_, _, other⟩ | ⟨_, other⟩ | ⟨_, _, _, _, other, -⟩) <;> rw [task] at other <;> cases other
        exact ⟨rfl, rfl⟩
      · rintro ⟨rfl, rfl⟩
        exact .refused steps task
    have reaction := turn_reaction setup phase event
    rw [callsIn_append, callsIn_poll, List.mem_append, reaction.disconnects, leaving]
  | send d waiting next steps task room =>
    refine (or_iff_left ?_).symm
    rintro (⟨_, _, other⟩ | ⟨_, other⟩ | ⟨_, _, _, _, -, alone⟩)
    · rw [task] at other
      cases other
    · rw [task] at other
      cases other
    · simp [advance, task, alone, close] at moved
  | wait _ _ _ task | takeLeave _ _ task | stay _ _ task | finish _ _ _ task =>
    refine (or_iff_left ?_).symm
    rintro (⟨_, _, other⟩ | ⟨_, other⟩ | ⟨_, _, _, _, other, -⟩) <;> rw [task] at other <;> cases other

private theorem act_entries {actor : Actor} (other : actor ≠ .session) (moved : s.act setup capacity actor = some t) :
    t.task = s.task ∧ t.entries = s.entries ∧ t.received ++ t.queue <+: s.received ++ s.queue := by
  cases actor with
  | session => exact absurd rfl other
  | reader =>
    obtain ⟨d, queue, same, rfl⟩ := receive_cases moved
    refine ⟨rfl, rfl, ?_⟩
    simp [same]
  | departure =>
    rw [act, depart] at moved
    split at moved
    · cases moved
      exact ⟨rfl, rfl, by simp⟩
    · cases moved

theorem disconnect_mem_afterTurns_iff (s : System) (n : Nat) :
    .disconnect ∈ callsIn (afterTurns setup capacity schedule s n).entries ↔
      .disconnect ∈ callsIn s.entries ∨
      ∃ k, k < n ∧ schedule k = .session ∧ (afterTurns setup capacity schedule s k).Leaving := by
  induction n with
  | zero => simp [afterTurns]
  | succ n ih =>
    have now : .disconnect ∈ callsIn (afterTurns setup capacity schedule s (n + 1)).entries ↔
        .disconnect ∈ callsIn (afterTurns setup capacity schedule s n).entries ∨
          schedule n = .session ∧ (afterTurns setup capacity schedule s n).Leaving := by
      rw [afterTurns]
      generalize afterTurns setup capacity schedule s n = before
      cases moved : before.act setup capacity (schedule n) with
      | none =>
        refine (or_iff_left ?_).symm
        rintro ⟨its, leaving⟩
        rw [its] at moved
        exact leaving.acts moved
      | some t =>
        rw [Option.getD_some]
        by_cases its : schedule n = .session
        · rw [its] at moved
          rw [disconnect_mem_advance_iff moved, and_iff_right its]
        · rw [(act_entries its moved).2.1]
          exact (or_iff_left fun both => its both.1).symm
    rw [now, ih, or_assoc]
    refine or_congr_right ⟨?_, ?_⟩
    · rintro (⟨k, earlier, turn⟩ | turn)
      · exact ⟨k, Nat.lt_succ_of_lt earlier, turn⟩
      · exact ⟨n, Nat.lt_succ_self n, turn⟩
    · rintro ⟨k, within, turn⟩
      rcases Nat.lt_succ_iff_lt_or_eq.mp within with earlier | rfl
      · exact .inl ⟨k, earlier, turn⟩
      · exact .inr turn

private theorem afterTurns_ended (setup : Setup) (capacity : Nat) (schedule : Nat → Actor) {phase : Phase} {exit : Exit}
    (ended : s.task = .ended phase exit) (n : Nat) :
    let later := afterTurns setup capacity schedule s n
    later.task = s.task ∧ later.entries = s.entries ∧ later.received ++ later.queue <+: s.received ++ s.queue := by
  intro later
  refine afterTurns_invariant (P := fun t => t.task = s.task ∧ t.entries = s.entries ∧
    t.received ++ t.queue <+: s.received ++ s.queue) ?_ ⟨rfl, rfl, List.prefix_rfl⟩ n
  rintro k before after ⟨task, entries, handed⟩ moved
  have other : schedule k ≠ .session := by
    intro its
    rw [its, act, advance, task, ended] at moved
    cases moved
  obtain ⟨sameTask, sameEntries, fewer⟩ := act_entries other moved
  exact ⟨sameTask.trans task, sameEntries.trans entries, fewer.trans handed⟩

theorem disconnect_mem_start_iff (setup : Setup) (cancelled : Bool) (script : List Step) :
    .disconnect ∈ callsIn (start setup cancelled script).entries ↔
      setup.failures.connect = none ∧ cancelled = true := by
  rw [start]
  cases setup.failures.connect with
  | some info => simp
  | none => cases cancelled <;> simp

end System

/-- The protocol of a session, for every script, every choice of failing calls, and every way to be cancelled or to lose
the receiver. A trace begins with the attempt to connect, and each later call or poll is admissible after what
precedes it. A session disconnects exactly when it is cancelled, when its subscription is refused, or when it
hands something to a receiver that is gone, and nothing follows its end. This holds of a session with a channel
of its own, and at every turn of one whose reader acts and goes away when it likes. -/
theorem calls_keep_protocol (setup : Setup) (cancelled : Bool) (script : List Step) :
    (∀ channel, let report := run setup channel cancelled script
      report.entries.head? = some (.call .connect) ∧ Orderly setup.failures report.entries ∧
      (.disconnect ∈ callsIn report.entries ↔
        setup.failures.connect = none ∧ cancelled = true ∨
        ∃ before step after, script = before ++ step :: after ∧ EndsOn setup channel cancelled before step ∧
          Parting setup (channel = .closed ∨ .dropReceiver ∈ before) step) ∧
      (report.exit ≠ none → ∀ more, run setup channel cancelled (script ++ more) = report)) ∧
    ∀ capacity schedule, let reached :=
        System.afterTurns setup capacity schedule (System.start setup cancelled script)
      ∀ n, (reached n).entries.head? = some (.call .connect) ∧ Orderly setup.failures (reached n).entries ∧
        (.disconnect ∈ callsIn (reached n).entries ↔
          setup.failures.connect = none ∧ cancelled = true ∨
          ∃ k, k < n ∧ schedule k = .session ∧ (reached k).Leaving) ∧
        ∀ phase exit, (reached n).task = .ended phase exit → ∀ m, n ≤ m →
          (reached m).task = .ended phase exit ∧ (reached m).entries = (reached n).entries ∧
          (reached m).received ++ (reached m).queue <+: (reached n).received ++ (reached n).queue := by
  constructor
  · intro channel
    have history := run_history setup channel cancelled script
    refine ⟨history.begins, history.orderly, disconnect_mem_run_iff channel cancelled script, ?_⟩
    intro ended more
    exact run_ended setup channel cancelled ended more
  · intro capacity schedule reached n
    have history := (System.afterTurns_told setup capacity schedule cancelled script n).history
    refine ⟨history.begins, history.orderly, ?_, ?_⟩
    · rw [System.disconnect_mem_afterTurns_iff, System.disconnect_mem_start_iff]
    · intro phase exit ended m later
      obtain ⟨i, rfl⟩ := Nat.exists_eq_add_of_le later
      have after := System.afterTurns_ended setup capacity (fun k => schedule (n + k)) ended i
      rw [← System.afterTurns_add, ended] at after
      exact after

theorem calls_keep_protocol_of_refusal :
    let setup := flawless ⟨.bits128, Aes.roundKeys .bits128 (List.replicate 16 0), .zero⟩
    let script := [.event .connAck, .event (.subAck false)]
    let report := run setup .drained false script
    let reached := System.afterTurns setup 1 alternating (System.start setup false script)
    report.exit ≠ none ∧ .disconnect ∈ callsIn report.entries ∧
      run setup .drained false (script ++ [.cancel]) = report ∧
      (reached 8).task = .ended .faulted (.faulted 2) ∧
      ∀ m, 8 ≤ m → (reached m).task = .ended .faulted (.faulted 2) := by
  intro setup script report reached
  obtain ⟨sessions, systems⟩ := calls_keep_protocol setup false script
  obtain ⟨-, -, leaves, lasting⟩ := sessions .drained
  have exit : report.exit = some (.faulted 2) := rfl
  have ended : report.exit ≠ none := by
    rw [exit]
    exact Option.some_ne_none _
  have ends : EndsOn setup .drained false [.event .connAck] (.event (.subAck false)) := ⟨rfl, ended⟩
  have left := leaves.mpr (.inr ⟨[.event .connAck], .event (.subAck false), [], rfl, ends, .refused⟩)
  have task : (reached 8).task = .ended .faulted (.faulted 2) := rfl
  obtain ⟨-, -, -, settled⟩ := systems 1 alternating 8
  exact ⟨ended, left, lasting ended [.cancel], task, fun m later => (settled _ _ task m later).1⟩

end DeviceBus.Session
