import Mathlib.Logic.Relation
import DeviceBus.Proofs.Session.Padding

/-! Unexpected events beside a reader. A session is compared with one whose script has some more events that are unexpected
where they come. For each of those the second session acts twice by itself, it polls the event and finds nothing to send;
in all else the two systems act alike. So whatever turns the one takes, the other one can follow, and where the one has to
wait, so has the other. -/
namespace DeviceBus.Session

open Broker (Event)
open Relation (ReflTransGen)

/-- What lies before two sessions in one phase. The channel is closed to them only when the reader is gone. -/
def Ahead (setup : Setup) (attended : Bool) (phase : Phase) (script : List Step) (inserted : List Event)
    (longer : List Step) : Prop :=
  ∃ phaseAfter before channel, Padded phaseAfter before script inserted longer ∧
    Tracks setup phaseAfter before phase channel ∧ (channel = .drained ∨ channel = .closed ∧ attended = false)

/-- Two tasks at the same point, or the second one behind by an event that is done with already. What a session finds
ahead after a message matters only if all of the message can be sent. -/
inductive Abreast (setup : Setup) (attended : Bool) (inserted : List Event) : Task → Task → Prop
  | polling {phase : Phase} {script longer : List Step} (ahead : Ahead setup attended phase script inserted longer) :
    Abreast setup attended inserted (.polling phase script) (.polling phase longer)
  | behind {phase : Phase} {script longer : List Step} (ahead : Ahead setup attended phase script inserted longer) :
    Abreast setup attended inserted (.polling phase script) (.sending [] (.stay phase) longer)
  | sending {waiting : List Delivery} {phase : Phase} {script longer : List Step}
    (ahead : attended = true ∨ waiting = [] → Ahead setup attended phase script inserted longer) :
    Abreast setup attended inserted (.sending waiting (.stay phase) script) (.sending waiting (.stay phase) longer)
  | finishing {waiting : List Delivery} {phase : Phase} {exit : Exit} {script longer : List Step} :
    Abreast setup attended inserted (.sending waiting (.finish phase exit) script)
      (.sending waiting (.finish phase exit) longer)
  | ended {phase : Phase} {exit : Exit} : Abreast setup attended inserted (.ended phase exit) (.ended phase exit)

structure Alongside (setup : Setup) (inserted : List Event) (s t : System) : Prop where
  queue : t.queue = s.queue
  received : t.received = s.received
  attended : t.attended = s.attended
  known : ∃ polled rest, polled ++ rest = inserted ∧ Interspersed polled s.entries t.entries ∧
    Abreast setup s.attended rest s.task t.task

variable {setup : Setup} {capacity : Nat} {attended : Bool} {phase : Phase} {script longer : List Step}
  {inserted : List Event} {task task' : Task} {s t : System}

private theorem Ahead.departed (ahead : Ahead setup attended phase script inserted longer) :
    Ahead setup false phase script inserted longer := by
  obtain ⟨phaseAfter, before, channel, padded, tracks, taking⟩ := ahead
  exact ⟨phaseAfter, before, channel, padded, tracks, taking.imp_right (And.imp_right fun _ => rfl)⟩

private theorem Ahead.of_turn {event : Event} {phase' : Phase} {phaseAfter : List Step → Phase} {before : List Step}
    {channel : Channel} (padded : Padded phaseAfter (before ++ [.event event]) script inserted longer)
    (tracks : Tracks setup phaseAfter before phase channel)
    (taking : channel = .drained ∨ channel = .closed ∧ attended = false)
    (stays : (turn setup phase event).next = .stay phase')
    (sendable : attended = true ∨ (turn setup phase event).deliveries = []) :
    Ahead setup attended phase' script inserted longer := by
  have fits : channel.Fits (turn setup phase event).deliveries.length := by
    rcases taking with rfl | ⟨rfl, gone⟩
    · exact Channel.fits_drained _
    · have empty : (turn setup phase event).deliveries = [] := sendable.resolve_left (gone ▸ nofun)
      rw [empty]
      exact Channel.fits_zero .closed
  refine ⟨phaseAfter, _, _, padded, tracks.turn fits stays, ?_⟩
  rcases taking with rfl | ⟨rfl, gone⟩
  · exact .inl rfl
  · exact .inr ⟨rfl, gone⟩

private theorem Abreast.departed (abreast : Abreast setup attended inserted task task') :
    Abreast setup false inserted task task' := by
  cases abreast with
  | polling ahead => exact .polling ahead.departed
  | behind ahead => exact .behind ahead.departed
  | sending ahead => exact .sending fun sendable => (ahead (.inr (sendable.resolve_left nofun))).departed
  | finishing => exact .finishing
  | ended => exact .ended

theorem Abreast.send {d : Delivery} {waiting : List Delivery} {next : Next}
    (abreast : Abreast setup true inserted (.sending (d :: waiting) next script) (.sending (d :: waiting) next longer)) :
    Abreast setup true inserted (.sending waiting next script) (.sending waiting next longer) := by
  cases abreast with
  | sending ahead => exact .sending fun _ => ahead (.inl rfl)
  | finishing => exact .finishing

private theorem Abreast.phase_eq (abreast : Abreast setup attended inserted task task') : task'.phase = task.phase := by
  cases abreast <;> rfl

private theorem Abreast.exit_eq (abreast : Abreast setup attended inserted task task') : task'.exit? = task.exit? := by
  cases abreast <;> rfl

namespace Alongside

theorem stutters (alongside : Alongside setup inserted s t) : Stutters inserted s.report t.report := by
  obtain ⟨-, received, -, polled, rest, all, interspersed, abreast⟩ := alongside
  exact ⟨abreast.exit_eq, abreast.phase_eq, received, interspersed.calls, polled, ⟨rest, all⟩, interspersed⟩

theorem close (alongside : Alongside setup inserted s t) (notice : Notice) :
    Alongside setup inserted (s.close setup notice) (t.close setup notice) := by
  obtain ⟨queue, received, attended, polled, rest, all, interspersed, -⟩ := alongside
  exact ⟨queue, received, attended, polled, rest, all, interspersed.extend _, .ended⟩

theorem receive (alongside : Alongside setup inserted s t) :
    Option.Rel (Alongside setup inserted) s.receive t.receive := by
  obtain ⟨task, entries, queue, received, attended⟩ := s
  obtain ⟨task', entries', queue', received', attended'⟩ := t
  obtain ⟨rfl, rfl, rfl, known⟩ := alongside
  cases attended' with
  | false => exact .none
  | true =>
    cases queue' with
    | nil => exact .none
    | cons d queue => exact .some ⟨rfl, rfl, rfl, known⟩

theorem depart (alongside : Alongside setup inserted s t) :
    Option.Rel (Alongside setup inserted) s.depart t.depart := by
  obtain ⟨task, entries, queue, received, attended⟩ := s
  obtain ⟨task', entries', queue', received', attended'⟩ := t
  obtain ⟨rfl, rfl, rfl, polled, rest, all, interspersed, abreast⟩ := alongside
  cases attended' with
  | false => exact .none
  | true => exact .some ⟨rfl, rfl, rfl, polled, rest, all, interspersed, abreast.departed⟩

theorem send {d : Delivery} {waiting : List Delivery} {next : Next} (alongside : Alongside setup inserted s t)
    (task : s.task = .sending (d :: waiting) next script) (task' : t.task = .sending (d :: waiting) next longer) :
    Option.Rel (Alongside setup inserted) (s.advance setup capacity) (t.advance setup capacity) := by
  have leaves := alongside.close .receiverDropped
  obtain ⟨queue, received, same, polled, rest, all, interspersed, abreast⟩ := alongside
  rw [task, task'] at abreast
  simp only [System.advance, task, task', same, queue]
  cases here : s.attended with
  | false => exact .some leaves
  | true =>
    rw [here] at abreast
    by_cases room : s.queue.length < capacity
    · simp only [Bool.not_true, Bool.false_eq_true, if_false, if_pos room]
      exact .some ⟨rfl, received, rfl, polled, rest, all, interspersed, abreast.send⟩
    · simp only [Bool.not_true, Bool.false_eq_true, if_false, if_neg room]
      exact .none

/-- One action of the session. The second one goes on alone with an event that is unexpected; otherwise both wait, or both
do the same. -/
theorem advance (capacity : Nat) (alongside : Alongside setup inserted s t) :
    (∃ t', t.advance setup capacity = some t' ∧ Alongside setup inserted s t') ∨
      Option.Rel (Alongside setup inserted) (s.advance setup capacity) (t.advance setup capacity) := by
  have whole := alongside
  obtain ⟨task, entries, queue, received, attended⟩ := s
  obtain ⟨task', entries', queue', received', attended'⟩ := t
  obtain ⟨rfl, rfl, rfl, polled, rest, all, interspersed, abreast⟩ := alongside
  cases abreast with
  | ended => exact .inr .none
  | behind ahead => exact .inl ⟨_, rfl, rfl, rfl, rfl, polled, rest, all, interspersed, .polling ahead⟩
  | @finishing waiting phase exit script longer =>
    right
    cases waiting with
    | nil => exact .some ⟨rfl, rfl, rfl, polled, rest, all, interspersed, .ended⟩
    | cons d waiting => exact whole.send rfl rfl
  | @sending waiting phase script longer ahead =>
    right
    cases waiting with
    | nil => exact .some ⟨rfl, rfl, rfl, polled, rest, all, interspersed, .polling (ahead (.inr rfl))⟩
    | cons d waiting => exact whole.send rfl rfl
  | @polling phase _ _ ahead =>
    obtain ⟨phaseAfter, before, channel, padded, tracks, taking⟩ := ahead
    cases padded with
    | nil => exact .inr .none
    | @insert _ _ longer remaining event unexpected padded =>
      left
      rw [tracks.now] at unexpected
      obtain ⟨notice, debug, same⟩ := unexpected.turn_eq setup
      refine ⟨_, rfl, rfl, rfl, rfl, polled ++ [event], remaining, ?_, ?_, ?_⟩
      · rw [List.append_assoc]
        exact all
      · rw [same]
        simpa using interspersed.append (.poll event debug .nil)
      · rw [same]
        exact .behind ⟨phaseAfter, before, channel, padded, tracks, taking⟩
    | @step _ script longer _ step padded =>
      right
      cases step with
      | cancel => exact .some (whole.close .cancelled)
      | wait ms =>
        refine .some ⟨rfl, rfl, rfl, polled, rest, all, interspersed, .polling ?_⟩
        exact ⟨phaseAfter, _, channel, padded, tracks.step fun _ => rfl, taking⟩
      | dropReceiver =>
        -- from here on the phases are those of a session whose channel is closed, as it is for both
        refine .some ⟨rfl, rfl, rfl, polled, rest, all, interspersed, .polling ?_⟩
        exact ⟨phaseAfter, _, .closed, padded, tracks.step fun _ => rfl, .inr ⟨rfl, rfl⟩⟩
      | event event =>
        refine .some ⟨rfl, rfl, rfl, polled, rest, all, interspersed.extend _, ?_⟩
        cases next : (turn setup phase event).next with
        | stay phase' => exact .sending (.of_turn padded tracks taking next)
        | finish last exit => exact .finishing

private theorem act_of_other {actor : Actor} (other : actor ≠ .session) (alongside : Alongside setup inserted s t) :
    Option.Rel (Alongside setup inserted) (s.act setup capacity actor) (t.act setup capacity actor) := by
  cases actor with
  | session => exact absurd rfl other
  | reader => exact alongside.receive
  | departure => exact alongside.depart

end Alongside

/-! Runs of any turns. -/

theorem rel_cases {α β : Type} {r : α → β → Prop} {first : Option α} {second : Option β}
    (rel : Option.Rel r first second) :
    first = none ∧ second = none ∨ ∃ a b, first = some a ∧ second = some b ∧ r a b := by
  cases rel with
  | none => exact .inl ⟨rfl, rfl⟩
  | some related => exact .inr ⟨_, _, rfl, rfl, related⟩

def Reaches (setup : Setup) (capacity : Nat) : System → System → Prop :=
  ReflTransGen fun s t => ∃ actor, s.act setup capacity actor = some t

theorem Reaches.follow {R : System → System → Prop}
    (turn : ∀ {s s' t actor}, R s t → s.act setup capacity actor = some s' → ∃ t', Reaches setup capacity t t' ∧ R s' t')
    {s' : System} (reaches : Reaches setup capacity s s') (related : R s t) :
    ∃ t', Reaches setup capacity t t' ∧ R s' t' := by
  induction reaches with
  | refl => exact ⟨t, .refl, related⟩
  | tail _ moved ih =>
    obtain ⟨actor, moved⟩ := moved
    obtain ⟨_, before, related⟩ := ih
    obtain ⟨t', after, related⟩ := turn related moved
    exact ⟨t', before.trans after, related⟩

theorem reaches_iff :
    Reaches setup capacity s t ↔ ∃ schedule n, System.afterTurns setup capacity schedule s n = t := by
  constructor
  · intro reaches
    induction reaches using ReflTransGen.head_induction_on with
    | refl => exact ⟨fun _ => .session, 0, rfl⟩
    | @head s u moved _ ih =>
      obtain ⟨actor, moved⟩ := moved
      obtain ⟨schedule, n, reached⟩ := ih
      refine ⟨fun i => Nat.casesOn i actor schedule, 1 + n, ?_⟩
      have first : System.afterTurns setup capacity (fun i => Nat.casesOn i actor schedule) s 1 = u := by
        simp only [System.afterTurns, moved, Option.getD_some]
      rw [System.afterTurns_add, first, ← reached]
      congr 1
      funext i
      rw [Nat.add_comm]
  · rintro ⟨schedule, n, rfl⟩
    exact System.afterTurns_invariant (fun _ _ _ reaches moved => reaches.tail ⟨_, moved⟩) .refl n

namespace Alongside

private theorem catchUp (capacity : Nat) {s t : System} (alongside : Alongside setup inserted s t) :
    ∃ t', Reaches setup capacity t t' ∧ Alongside setup inserted s t' ∧
      ∀ actor, Option.Rel (Alongside setup inserted) (s.act setup capacity actor) (t'.act setup capacity actor) := by
  rcases alongside.advance capacity with ⟨t', moved, still⟩ | alike
  · obtain ⟨last, reaches, alongside, alike⟩ := still.catchUp capacity
    exact ⟨last, reaches.head ⟨.session, moved⟩, alongside, alike⟩
  · refine ⟨t, .refl, alongside, fun actor => ?_⟩
    by_cases its : actor = .session
    · rw [its]
      exact alike
    · exact alongside.act_of_other its
-- what the second session does alone works off its script
termination_by (t.task.stepsLeft, t.handlingsLeft)
decreasing_by
  rw [Prod.lex_def]
  exact System.advance_decreases moved

private theorem act_longer {s' : System} {actor : Actor} (alongside : Alongside setup inserted s t)
    (moved : s.act setup capacity actor = some s') :
    ∃ t', Reaches setup capacity t t' ∧ Alongside setup inserted s' t' := by
  obtain ⟨_, reaches, -, alike⟩ := alongside.catchUp capacity
  obtain ⟨waits, -⟩ | ⟨_, t', acts, also, beside⟩ := rel_cases (alike actor)
  · cases waits.symm.trans moved
  · cases acts.symm.trans moved
    exact ⟨t', reaches.tail ⟨actor, also⟩, beside⟩

private theorem act_shorter {t' : System} {actor : Actor} (alongside : Alongside setup inserted s t)
    (moved : t.act setup capacity actor = some t') :
    ∃ s', Reaches setup capacity s s' ∧ Alongside setup inserted s' t' := by
  have alike (same : Option.Rel (Alongside setup inserted) (s.act setup capacity actor) (t.act setup capacity actor)) :
      ∃ s', Reaches setup capacity s s' ∧ Alongside setup inserted s' t' := by
    obtain ⟨-, waits⟩ | ⟨s', _, acts, also, beside⟩ := rel_cases same
    · cases waits.symm.trans moved
    · cases also.symm.trans moved
      exact ⟨s', .single ⟨actor, acts⟩, beside⟩
  by_cases its : actor = .session
  · subst its
    rcases alongside.advance capacity with ⟨u, alone, still⟩ | same
    · cases alone.symm.trans moved
      exact ⟨s, .refl, still⟩
    · exact alike same
  · exact alike (alongside.act_of_other its)

theorem quiet_iff (alongside : Alongside setup inserted s t)
    (alike : Option.Rel (Alongside setup inserted) (s.advance setup capacity) (t.advance setup capacity)) :
    s.Quiet setup capacity ↔ t.Quiet setup capacity := by
  have none_iff {o o' : Option System} (rel : Option.Rel (Alongside setup inserted) o o') : o = none ↔ o' = none := by
    cases rel <;> simp
  exact and_congr (none_iff alike) (none_iff alongside.receive)

end Alongside

private theorem start_alongside (setup : Setup) (cancelled : Bool)
    (padded : PaddedFor setup .drained cancelled script inserted longer) :
    Alongside setup inserted (.start setup cancelled script) (.start setup cancelled longer) := by
  unfold System.start
  cases failing : setup.failures.connect with
  | some info => exact ⟨rfl, rfl, rfl, [], inserted, rfl, .refl _, .ended⟩
  | none =>
    cases cancelled with
    | true => exact ⟨rfl, rfl, rfl, [], inserted, rfl, .refl _, .ended⟩
    | false =>
      refine ⟨rfl, rfl, rfl, [], inserted, rfl, .refl _, .polling ?_⟩
      refine ⟨_, [], .drained, padded, fun more => ?_, .inl rfl⟩
      simp only [List.nil_append, run, failing]
      rfl

/-- What can be seen of two systems, the second one with what some of the inserted events add. -/
structure Mirrors (inserted : List Event) (s t : System) : Prop where
  report : Stutters inserted s.report t.report
  queue : t.queue = s.queue
  attended : t.attended = s.attended

private theorem Alongside.mirrors (alongside : Alongside setup inserted s t) : Mirrors inserted s t :=
  ⟨alongside.stutters, alongside.queue, alongside.attended⟩

private theorem exists_mirror_of_shorter (alongside : Alongside setup inserted s t) (capacity : Nat) (schedule : Nat → Actor)
    (n : Nat) :
    let s' := System.afterTurns setup capacity schedule s n
    ∃ schedule' n', let t' := System.afterTurns setup capacity schedule' t n'
      Mirrors inserted s' t' ∧ (s'.Quiet setup capacity → t'.Quiet setup capacity) := by
  intro s'
  have reaches : Reaches setup capacity s s' := reaches_iff.mpr ⟨schedule, n, rfl⟩
  obtain ⟨_, before, beside⟩ := reaches.follow Alongside.act_longer alongside
  obtain ⟨_, during, beside, alike⟩ := beside.catchUp capacity
  obtain ⟨schedule', n', rfl⟩ := reaches_iff.mp (before.trans during)
  exact ⟨schedule', n', beside.mirrors, (beside.quiet_iff (alike .session)).mp⟩

private theorem exists_mirror_of_longer (alongside : Alongside setup inserted s t) (capacity : Nat) (schedule : Nat → Actor)
    (n : Nat) :
    let t' := System.afterTurns setup capacity schedule t n
    ∃ schedule' n', let s' := System.afterTurns setup capacity schedule' s n'
      Mirrors inserted s' t' ∧ (t'.Quiet setup capacity → s'.Quiet setup capacity) := by
  intro t'
  have reaches : Reaches setup capacity t t' := reaches_iff.mpr ⟨schedule, n, rfl⟩
  obtain ⟨_, reaches, beside⟩ :=
    reaches.follow (R := fun t s => Alongside setup inserted s t) Alongside.act_shorter alongside
  obtain ⟨schedule', n', rfl⟩ := reaches_iff.mp reaches
  refine ⟨schedule', n', beside.mirrors, fun quiet => ?_⟩
  rcases beside.advance capacity with ⟨_, moves, -⟩ | alike
  · cases quiet.1.symm.trans moves
  · exact (beside.quiet_iff alike).mpr quiet

/-- Events that a session does not expect where they come change nothing but its trace, and that only by their polls and
lines for debugging: neither how and in which phase the session ends, nor what is received of it, nor the calls on its
transport. This holds for a session by itself, whatever its channel; for a session and a reader that take turns in any way,
where whatever comes of either script, at any turn and at rest, can come of the other one; and for a reader that stays, where
the outcomes of any two fair schedules compare. -/
theorem unexpected_events_stutter (setup : Setup) (cancelled : Bool) (script longer : List Step) (inserted : List Event) :
    (∀ channel, PaddedFor setup channel cancelled script inserted longer →
      Stutters inserted (run setup channel cancelled script) (run setup channel cancelled longer)) ∧
    (PaddedFor setup .drained cancelled script inserted longer → ∀ capacity,
      let shorterAfter := fun schedule => System.afterTurns setup capacity schedule (.start setup cancelled script)
      let longerAfter := fun schedule => System.afterTurns setup capacity schedule (.start setup cancelled longer)
      (∀ schedule n, ∃ schedule' n', Mirrors inserted (shorterAfter schedule n) (longerAfter schedule' n') ∧
        ((shorterAfter schedule n).Quiet setup capacity → (longerAfter schedule' n').Quiet setup capacity)) ∧
      (∀ schedule n, ∃ schedule' n', Mirrors inserted (shorterAfter schedule' n') (longerAfter schedule n) ∧
        ((longerAfter schedule n).Quiet setup capacity → (shorterAfter schedule' n').Quiet setup capacity)) ∧
      ∀ schedule schedule', 0 < capacity → .dropReceiver ∉ script → Fair schedule → Fair schedule' →
        ∃ n, ∀ m, n ≤ m → Mirrors inserted (shorterAfter schedule m) (longerAfter schedule' m)) := by
  refine ⟨fun channel => run_stutters setup channel cancelled, fun padded capacity => ?_⟩
  have alongside := start_alongside setup cancelled padded
  refine ⟨exists_mirror_of_shorter alongside capacity, exists_mirror_of_longer alongside capacity, ?_⟩
  intro schedule schedule' room remains fair fair'
  have live := System.start_live setup cancelled remains
  have live' := System.start_live setup cancelled (padded.remains remains)
  obtain ⟨n, rests⟩ := System.exists_report_eq_total room fair live
  obtain ⟨n', rests'⟩ := System.exists_report_eq_total room fair' live'
  refine ⟨max n n', fun m later => ?_⟩
  obtain ⟨empty, report⟩ := rests m (by omega)
  obtain ⟨empty', report'⟩ := rests' m (by omega)
  have here := (System.afterTurns_total setup capacity fair.stays live m).1.attended
  have here' := (System.afterTurns_total setup capacity fair'.stays live' m).1.attended
  refine ⟨?_, empty'.trans empty.symm, here'.trans here.symm⟩
  rw [report, report', System.start_total, System.start_total]
  exact run_stutters setup .drained cancelled padded

theorem unexpected_events_stutter_of_late_refusal :
    let setup := flawless ⟨.bits128, Aes.roundKeys .bits128 (List.replicate 16 0), .zero⟩
    let script : List Step :=
      [.event .connAck, .event (.subAck true), .event (.message "/domain/a/response" [1]), .event .disconnected]
    let inserted : List Event := [.ignored, .connAck, .subAck false, .message "/other" []]
    let longer : List Step :=
      [.event .ignored, .event .connAck, .event .connAck, .event (.subAck true), .event (.subAck false),
        .event (.message "/other" []), .event (.message "/domain/a/response" [1]), .event .disconnected]
    let report := run setup (.unread 1) false longer
    report.exit = some .disconnected ∧ report.deliveries = [.controlResponse ⟨"/domain/a/response"⟩ [1]] ∧
      callsIn report.entries = [.connect, .subscribe Topic.wildcard .atMostOnce] ∧
      ∃ n, ∀ m, n ≤ m → Mirrors inserted (System.afterTurns setup 1 alternating (.start setup false script) m)
        (System.afterTurns setup 1 alternating (.start setup false longer) m) := by
  intro setup script inserted longer report
  have padded (channel : Channel) (same : channel = .unread 1 ∨ channel = .drained) :
      PaddedFor setup channel false script inserted longer := by
    rcases same with rfl | rfl
    all_goals
      refine .insert (.ignored _) (.step _ (.insert (.connAck (.inl ?_)) (.step _ (.insert (.subAck (.inr ?_) false) ?_))))
      · decide
      · decide
      · exact .insert (.foreign _ (by decide) []) (.step _ (.step _ (.nil _)))
  obtain ⟨alone, together⟩ := unexpected_events_stutter setup false script longer inserted
  obtain ⟨exit, -, deliveries, calls, -⟩ := alone (.unread 1) (padded _ (.inl rfl))
  refine ⟨exit.trans (by decide), deliveries.trans (by decide), calls.trans (by decide), ?_⟩
  obtain ⟨-, -, fairly⟩ := together (padded _ (.inr rfl)) 1
  exact fairly alternating alternating Nat.one_pos (by decide) alternating_fair alternating_fair

end DeviceBus.Session
