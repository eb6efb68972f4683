import DeviceBus.Proofs.Session.Farewell
import DeviceBus.Proofs.Session.Unread

/-! Channels that fill up, and receivers that go away. A session is compared with one whose deliveries are all taken: as
long as its channel takes what it is handed the two are the same, and at the first message that hands over
more, the session waits for ever, or leaves. -/
namespace DeviceBus.Session

open Broker (Event)

namespace Channel

def room? : Channel → Option Nat
  | .unread room => some room
  | .drained => none
  | .closed => some 0

def Fits (channel : Channel) (count : Nat) : Prop := ∀ room ∈ channel.room?, count ≤ room

instance (channel : Channel) (count : Nat) : Decidable (channel.Fits count) :=
  inferInstanceAs (Decidable (∀ room ∈ channel.room?, count ≤ room))

def less : Channel → Nat → Channel
  | .unread room, count => .unread (room - count)
  | channel, _ => channel

/-- What becomes of a session in a phase when its channel does not take a delivery. -/
def impasse (failures : Failures) (phase : Phase) : Channel → Report
  | .closed => .closing failures .receiverDropped
  | .unread _ | .drained => .pending phase

variable {channel : Channel}

private theorem fits_unread {room count : Nat} : (Channel.unread room).Fits count ↔ count ≤ room := by
  simp [Fits, room?]

theorem fits_drained (count : Nat) : Channel.drained.Fits count := nofun

theorem fits_zero (channel : Channel) : channel.Fits 0 := fun _ _ => Nat.zero_le _

theorem fits_add {first second : Nat} :
    channel.Fits (first + second) ↔ channel.Fits first ∧ (channel.less first).Fits second := by
  cases channel with
  | unread room =>
    simp only [Fits, room?, less, Option.mem_some_iff, forall_eq']
    omega
  | drained => simp [Fits, room?, less]
  | closed =>
    simp only [Fits, room?, less, Option.mem_some_iff, forall_eq']
    omega

private theorem less_less (channel : Channel) (first second : Nat) :
    (channel.less first).less second = channel.less (first + second) := by
  cases channel with
  | unread room => simp only [less, Nat.sub_sub]
  | drained | closed => rfl

@[simp] theorem less_drained (count : Nat) : Channel.drained.less count = .drained := rfl

theorem less_zero (channel : Channel) : channel.less 0 = channel := by
  cases channel <;> rfl

private theorem room?_less {room : Nat} (limit : channel.room? = some room) (count : Nat) :
    (channel.less count).room? = some (room - count) := by
  cases channel with
  | unread room =>
    cases limit
    rfl
  | drained => cases limit
  | closed =>
    cases limit
    rw [Nat.zero_sub]
    rfl

private theorem impasse_less (failures : Failures) (phase : Phase) (channel : Channel) (count : Nat) :
    (channel.less count).impasse failures phase = channel.impasse failures phase := by
  cases channel <;> rfl

private theorem send_of_fits {deliveries : List Delivery} (fits : channel.Fits deliveries.length) :
    channel.send deliveries = (deliveries, .all (channel.less deliveries.length)) := by
  cases channel with
  | unread room => rw [send_unread, if_pos (fits room rfl), less]
  | drained => exact send_drained deliveries
  | closed =>
    have none : deliveries = [] := List.eq_nil_of_length_eq_zero (Nat.le_zero.mp (fits 0 rfl))
    rw [none]
    rfl

end Channel

section Reports

variable (entries : List Entry) (deliveries : List Delivery) (r : Report)

@[simp] theorem Report.deliveries_after : (r.after entries deliveries).deliveries = deliveries ++ r.deliveries := rfl

@[simp] theorem Report.phase_after : (r.after entries deliveries).phase = r.phase := rfl

end Reports

variable (setup : Setup) (phase : Phase) (channel : Channel)

section Events

variable {channel} (event : Event)

theorem follow_event_of_fits (fits : channel.Fits (turn setup phase event).deliveries.length) (script : List Step) :
    follow setup phase channel (.event event :: script) =
      .after (.poll event :: (turn setup phase event).entries) (turn setup phase event).deliveries
        ((turn setup phase event).next.resume setup (channel.less (turn setup phase event).deliveries.length) script) := by
  rw [follow]
  simp only [Channel.send_of_fits fits]
  cases (turn setup phase event).next <;> rfl

private theorem follow_event_resume (script : List Step) :
    follow setup phase .drained (.event event :: script) =
      .after (.poll event :: (turn setup phase event).entries) (turn setup phase event).deliveries
        ((turn setup phase event).next.resume setup .drained script) :=
  follow_event_of_fits setup phase event (Channel.fits_drained _) script

theorem follow_event_of_overflow {room : Nat} (limit : channel.room? = some room)
    (exceeds : room < (turn setup phase event).deliveries.length) (script : List Step) :
    follow setup phase channel (.event event :: script) =
      .after (.poll event :: (turn setup phase event).entries) ((turn setup phase event).deliveries.take room)
        (channel.impasse setup.failures phase) := by
  rw [follow]
  generalize turn setup phase event = turn at exceeds
  cases channel with
  | unread room =>
    cases limit
    simp only [send_unread, if_neg (Nat.not_le.mpr exceeds), Channel.impasse]
  | drained => cases limit
  | closed =>
    cases limit
    cases hands : turn.deliveries with
    | nil => simp [hands] at exceeds
    | cons d rest => rfl

end Events

private theorem follow_of_fits {before : List Step} (remains : .dropReceiver ∉ before)
    (fits : channel.Fits (follow setup phase .drained before).deliveries.length) :
    let known := follow setup phase .drained before
    known.exit ≠ none ∧ (∀ more, follow setup phase channel (before ++ more) = known) ∨
      known.exit = none ∧ ∀ more, follow setup phase channel (before ++ more) =
        .after known.entries known.deliveries (follow setup known.phase (channel.less known.deliveries.length) more) := by
  induction before generalizing phase channel with
  | nil =>
    right
    refine ⟨rfl, fun more => ?_⟩
    rw [follow, Report.pending, List.length_nil, Channel.less_zero]
    rfl
  | cons step before ih =>
    have later := fun phase channel => ih phase channel (List.not_mem_of_not_mem_cons remains)
    cases step with
    | wait ms => exact later phase channel fits
    | dropReceiver => exact absurd List.mem_cons_self remains
    | cancel => exact .inl ⟨Option.some_ne_none _, fun more => rfl⟩
    | event event =>
      rw [follow_event_resume] at fits ⊢
      rw [Report.deliveries_after, List.length_append, Channel.fits_add] at fits
      obtain ⟨now, fits⟩ := fits
      have going := fun more => follow_event_of_fits setup phase event now (before ++ more)
      generalize turn setup phase event = turn at fits going ⊢
      obtain ⟨entries, deliveries, next⟩ := turn
      cases next with
      | finish last exit => exact .inl ⟨Option.some_ne_none exit, going⟩
      | stay next =>
        -- what is left of the channel after the turn is what the rest of the script starts with
        rcases later next (channel.less deliveries.length) fits with ⟨ended, same⟩ | ⟨lasts, same⟩
        · refine .inl ⟨ended, fun more => ?_⟩
          rw [List.cons_append, going more, Next.resume, same more]
          rfl
        · refine .inr ⟨lasts, fun more => ?_⟩
          rw [List.cons_append, going more, Next.resume, same more, Report.after_after, Report.deliveries_after,
            List.length_append, ← Channel.less_less]
          rfl

private theorem follow_eq_of_fits {script : List Step} (remains : .dropReceiver ∉ script)
    (fits : channel.Fits (follow setup phase .drained script).deliveries.length) :
    follow setup phase channel script = follow setup phase .drained script := by
  rcases follow_of_fits setup phase channel remains fits with ⟨-, same⟩ | ⟨lasts, same⟩
  · simpa using same []
  · have whole := same []
    rw [List.append_nil] at whole
    rw [whole]
    generalize follow setup phase .drained script = known at lasts
    obtain ⟨entries, deliveries, last, exit⟩ := known
    cases lasts
    simp [follow, Report.after, Report.pending]

structure Hears (topic : String) (body : Bytes) (early late : Report) : Prop where
  entries : ∃ notes, Silent notes ∧ late.entries = early.entries ++ .poll (.message topic body) :: notes
  phase : late.phase = early.phase
  exit : late.exit = none

theorem Hears.after {topic : String} {body : Bytes} {early late : Report} (hears : Hears topic body early late)
    (entries : List Entry) (deliveries : List Delivery) :
    Hears topic body (early.after entries deliveries) (late.after entries deliveries) := by
  obtain ⟨notes, silent, same⟩ := hears.entries
  refine ⟨⟨notes, silent, ?_⟩, hears.phase, hears.exit⟩
  rw [Report.entries_after, Report.entries_after, same, List.append_assoc]

section Overflows

variable {channel} {room : Nat} (limit : channel.room? = some room) {before : List Step} {step : Step}

include limit

private theorem follow_step_of_overflow (exceeds : room < (follow setup phase .drained [step]).deliveries.length) :
    let known := follow setup phase .drained [step]
    ∃ topic body, step = .event (.message topic body) ∧ Hears topic body (.pending phase) known ∧
      ∀ later, follow setup phase channel (step :: later) =
        .after known.entries (known.deliveries.take room) (channel.impasse setup.failures phase) := by
  cases step with
  | wait ms => cases exceeds
  | cancel => cases exceeds
  | dropReceiver => cases exceeds
  | event event =>
    have blocked := follow_event_of_overflow setup phase event limit
    have reaction := turn_reaction setup phase event
    rw [follow_event_resume] at exceeds ⊢
    generalize turn setup phase event = turn at exceeds blocked reaction ⊢
    have rest : ∀ next : Next, (next.resume setup .drained []).deliveries = [] := by
      intro next
      cases next <;> rfl
    rw [Report.deliveries_after, rest, List.append_nil] at exceeds
    have hands : turn.deliveries ≠ [] := List.ne_nil_of_length_pos (by omega)
    cases reaction with
    | heard _ topic body heeds =>
      have silent := onMessage_silent setup.context phase topic body
      refine ⟨topic, body, rfl, ⟨⟨_, silent, ?_⟩, rfl, rfl⟩, fun later => ?_⟩
      · simp [onMessage, Next.resume, follow, Report.after, Report.pending]
      · rw [blocked exceeds later]
        simp [onMessage, Next.resume, follow, Report.after, Report.pending]
    | _ => exact absurd rfl hands

private theorem follow_of_overflow (remains : .dropReceiver ∉ before)
    (early : (follow setup phase .drained before).deliveries.length ≤ room)
    (exceeds : room < (follow setup phase .drained (before ++ [step])).deliveries.length) :
    let known := follow setup phase .drained (before ++ [step])
    ∃ topic body, step = .event (.message topic body) ∧ Hears topic body (follow setup phase .drained before) known ∧
      ∀ later, follow setup phase channel (before ++ step :: later) =
        .after known.entries (known.deliveries.take room) (channel.impasse setup.failures known.phase) := by
  intro known
  have fits : channel.Fits (follow setup phase .drained before).deliveries.length := by
    intro its same
    rw [limit] at same
    cases same
    exact early
  rcases follow_of_fits setup phase .drained remains (Channel.fits_drained _) with ⟨-, same⟩ | ⟨lasts, same⟩
  · rw [same] at exceeds
    omega
  · rcases follow_of_fits setup phase channel remains fits with ⟨ended, -⟩ | ⟨-, goes⟩
    · exact absurd lasts ended
    have now : known = _ := same [step]
    change room < known.deliveries.length at exceeds
    rw [now] at exceeds ⊢
    generalize follow setup phase .drained before = past at lasts early exceeds goes ⊢
    rw [Channel.less_drained] at exceeds ⊢
    have fewer : room - past.deliveries.length < (follow setup past.phase .drained [step]).deliveries.length := by
      rw [Report.deliveries_after, List.length_append] at exceeds
      omega
    have left := Channel.room?_less limit past.deliveries.length
    obtain ⟨topic, body, message, hears, blocked⟩ := follow_step_of_overflow setup past.phase left fewer
    refine ⟨topic, body, message, ?_, fun later => ?_⟩
    · have heard := hears.after past.entries past.deliveries
      obtain ⟨entries, deliveries, last, exit⟩ := past
      cases lasts
      simpa [Report.after, Report.pending] using heard
    · have last : (follow setup past.phase .drained [step]).phase = past.phase := hears.phase
      rw [goes, blocked, Report.after_after, Channel.impasse_less, Report.entries_after, Report.deliveries_after,
        Report.phase_after, List.take_append, List.take_of_length_le early, last]

end Overflows

section Runs

variable (cancelled : Bool)

theorem run_starts :
    (∃ known : Report, known.exit ≠ none ∧ known.deliveries = [] ∧
        ∀ channel script, run setup channel cancelled script = known) ∨
      ∀ channel script, run setup channel cancelled script =
        .after [.call .connect] [] (follow setup .connecting channel script) := by
  unfold run
  cases setup.failures.connect with
  | some info =>
    let known := Report.ended [.log (.cannotConnect (callError info))] .faulted (.faulted Broker.noConnection)
    exact .inl ⟨.after [.call .connect] [] known, Option.some_ne_none _, rfl, fun channel script => rfl⟩
  | none =>
    cases cancelled with
    | true =>
      let known := Report.closing setup.failures .cancelled
      exact .inl ⟨.after [.call .connect] [] known, Option.some_ne_none _, rfl, fun channel script => rfl⟩
    | false => exact .inr fun channel script => rfl

theorem run_of_fits {before : List Step} (remains : .dropReceiver ∉ before)
    (fits : channel.Fits (run setup .drained cancelled before).deliveries.length) :
    let known := run setup .drained cancelled before
    known.exit ≠ none ∧ (∀ more, run setup channel cancelled (before ++ more) = known) ∨
      known.exit = none ∧ ∀ more, run setup channel cancelled (before ++ more) =
        .after known.entries known.deliveries (follow setup known.phase (channel.less known.deliveries.length) more) := by
  intro known
  rcases run_starts setup cancelled with ⟨settled, ended, -, same⟩ | starts
  · have now : known = settled := same _ _
    rw [now]
    exact .inl ⟨ended, fun more => same _ _⟩
  · have now : known = _ := starts .drained before
    rw [now]
    rw [starts] at fits
    rcases follow_of_fits setup .connecting channel remains fits with ⟨ended, same⟩ | ⟨lasts, goes⟩
    · refine .inl ⟨ended, fun more => ?_⟩
      rw [starts, same]
    · refine .inr ⟨lasts, fun more => ?_⟩
      rw [starts, goes, Report.after_after]
      rfl

private theorem run_eq_of_fits {script : List Step} (remains : .dropReceiver ∉ script)
    (fits : channel.Fits (run setup .drained cancelled script).deliveries.length) :
    run setup channel cancelled script = run setup .drained cancelled script := by
  rcases run_starts setup cancelled with ⟨known, -, -, same⟩ | starts
  · rw [same, same]
  · rw [starts] at fits
    rw [starts, starts, follow_eq_of_fits setup .connecting channel remains fits]

theorem run_of_overflow {channel : Channel} {room : Nat} (limit : channel.room? = some room) {before : List Step}
    {step : Step} (remains : .dropReceiver ∉ before)
    (early : (run setup .drained cancelled before).deliveries.length ≤ room)
    (exceeds : room < (run setup .drained cancelled (before ++ [step])).deliveries.length) :
    let known := run setup .drained cancelled (before ++ [step])
    ∃ topic body, step = .event (.message topic body) ∧ Hears topic body (run setup .drained cancelled before) known ∧
      ∀ later, run setup channel cancelled (before ++ step :: later) =
        .after known.entries (known.deliveries.take room) (channel.impasse setup.failures known.phase) := by
  intro known
  rcases run_starts setup cancelled with ⟨settled, -, none, same⟩ | starts
  · rw [same, none] at exceeds
    cases exceeds
  · rw [starts] at early exceeds
    obtain ⟨topic, body, message, hears, blocked⟩ := follow_of_overflow setup .connecting limit remains early exceeds
    have now : known = _ := starts .drained (before ++ [step])
    rw [now]
    refine ⟨topic, body, message, ?_, fun later => ?_⟩
    · rw [starts]
      exact hears.after _ _
    · rw [starts, blocked, Report.after_after]
      rfl

private theorem exists_first_excess (size : List Step → Nat) {bound : Nat} (least : size [] ≤ bound) (script : List Step)
    (exceeds : bound < size script) :
    ∃ before step after, script = before ++ step :: after ∧ size before ≤ bound ∧ bound < size (before ++ [step]) := by
  induction script using List.reverseRecOn with
  | nil => omega
  | append_singleton script step ih =>
    by_cases earlier : bound < size script
    · obtain ⟨before, first, after, rfl, early, late⟩ := ih earlier
      exact ⟨before, first, after ++ [step], by simp, early, late⟩
    · exact ⟨script, step, [], rfl, Nat.le_of_not_lt earlier, exceeds⟩

/-- A session that nobody reads, with fewer places in its channel than there are deliveries: it has filled them and
waits for ever, in the midst of the message with the first delivery that does not fit in. -/
structure Stalled (script : List Step) (capacity : Nat) (unread : Report) : Prop where
  exit : unread.exit = none
  deliveries : unread.deliveries = (run setup .drained cancelled script).deliveries.take capacity
  entries : unread.entries <+: (run setup .drained cancelled script).entries
  message : ∃ before topic body after, script = before ++ .event (.message topic body) :: after ∧
    let early := run setup .drained cancelled before
    let late := run setup .drained cancelled (before ++ [.event (.message topic body)])
    early.deliveries.length ≤ capacity ∧ capacity < late.deliveries.length ∧ Hears topic body early unread ∧
      ∀ later, run setup (.unread capacity) cancelled (before ++ .event (.message topic body) :: later) = unread

theorem run_stalled {capacity : Nat} {script : List Step} (remains : .dropReceiver ∉ script)
    (exceeds : capacity < (run setup .drained cancelled script).deliveries.length) :
    Stalled setup cancelled script capacity (run setup (.unread capacity) cancelled script) := by
  have least : (run setup .drained cancelled []).deliveries.length ≤ capacity := by
    rcases run_starts setup cancelled with ⟨known, -, none, same⟩ | starts
    · rw [same, none]
      exact Nat.zero_le _
    · rw [starts]
      exact Nat.zero_le _
  obtain ⟨before, step, after, rfl, early, late⟩ :=
    exists_first_excess (fun steps => (run setup .drained cancelled steps).deliveries.length) least script exceeds
  have present : .dropReceiver ∉ before := fun member => remains (List.mem_append_left _ member)
  have limit : (Channel.unread capacity).room? = some capacity := rfl
  obtain ⟨topic, body, rfl, hears, blocked⟩ := run_of_overflow setup cancelled limit present early late
  have grows := run_grows setup .drained cancelled (before ++ [.event (.message topic body)]) after
  rw [List.append_assoc, List.singleton_append] at grows
  obtain ⟨entries, rest, whole⟩ := grows
  rw [blocked after]
  refine ⟨rfl, ?_, ?_, before, topic, body, after, rfl, early, late, ?_, blocked⟩
  · rw [← whole, List.take_append_of_le_length (Nat.le_of_lt late)]
    simp [Report.after, Channel.impasse, Report.pending]
  · simpa [Report.after, Channel.impasse, Report.pending] using entries
  · refine ⟨?_, hears.phase, rfl⟩
    simpa [Report.after, Channel.impasse, Report.pending] using hears.entries

/-- A session that has lost its receiver after some steps of a script: it leaves at the first message that has
something to hand over, before any of that is sent. -/
structure Deserted (before after : List Step) (left : Report) : Prop where
  exit : left.exit = some .disconnected
  phase : left.phase = .disconnected
  deliveries : left.deliveries = (run setup .drained cancelled before).deliveries
  once : (callsIn left.entries).count .disconnect = 1
  message : ∃ quiet topic body rest, after = quiet ++ .event (.message topic body) :: rest ∧
    let early := run setup .drained cancelled (before ++ quiet)
    let late := run setup .drained cancelled (before ++ quiet ++ [.event (.message topic body)])
    early.deliveries = (run setup .drained cancelled before).deliveries ∧ late.deliveries ≠ early.deliveries ∧
      Hears topic body early late ∧ left.entries = late.entries ++ .log .receiverDropped :: leave setup.failures

section Departures

variable {before after : List Step} (remains : .dropReceiver ∉ before ++ after)
  (fits : channel.Fits (run setup .drained cancelled before).deliveries.length)

include remains fits

private theorem run_drop :
    let known := run setup .drained cancelled before
    run setup channel cancelled (before ++ .dropReceiver :: after) = known ∧
        run setup .drained cancelled (before ++ after) = known ∨
      (∀ more, run setup .drained cancelled (before ++ more) =
        .after known.entries known.deliveries (follow setup known.phase .drained more)) ∧
      run setup channel cancelled (before ++ .dropReceiver :: after) =
        .after known.entries known.deliveries (follow setup known.phase .closed after) := by
  rw [List.mem_append, not_or] at remains
  have taking := run_of_fits setup .drained cancelled remains.1 (Channel.fits_drained _)
  rcases run_of_fits setup channel cancelled remains.1 fits with ⟨ended, same⟩ | ⟨lasts, goes⟩
  · rcases taking with ⟨-, also⟩ | ⟨lasts, -⟩
    · exact .inl ⟨same _, also _⟩
    · exact absurd lasts ended
  · rcases taking with ⟨ended, -⟩ | ⟨-, taken⟩
    · exact absurd lasts ended
    · exact .inr ⟨taken, goes (.dropReceiver :: after)⟩

private theorem run_drop_of_same
    (same : (run setup .drained cancelled (before ++ after)).deliveries =
      (run setup .drained cancelled before).deliveries) :
    run setup channel cancelled (before ++ .dropReceiver :: after) = run setup .drained cancelled (before ++ after) := by
  rcases run_drop setup channel cancelled remains fits with ⟨left, whole⟩ | ⟨taken, left⟩
  · rw [left, whole]
  · rw [taken, Report.deliveries_after, List.append_right_eq_self] at same
    rw [List.mem_append, not_or] at remains
    have nothing :
        Channel.closed.Fits (follow setup (run setup .drained cancelled before).phase .drained after).deliveries.length := by
      rw [same]
      exact Channel.fits_zero .closed
    rw [left, taken, follow_eq_of_fits setup _ .closed remains.2 nothing]

theorem run_deserted
    (more : (run setup .drained cancelled (before ++ after)).deliveries ≠
      (run setup .drained cancelled before).deliveries) :
    Deserted setup cancelled before after (run setup channel cancelled (before ++ .dropReceiver :: after)) := by
  rcases run_drop setup channel cancelled remains fits with ⟨-, whole⟩ | ⟨taken, left⟩
  · rw [whole] at more
    exact absurd rfl more
  · rw [List.mem_append, not_or] at remains
    obtain ⟨known, same⟩ : ∃ known, run setup .drained cancelled before = known := ⟨_, rfl⟩
    rw [same] at more taken left
    rw [taken, Report.deliveries_after, ne_eq, List.append_right_eq_self] at more
    obtain ⟨quiet, step, rest, rfl, none, some⟩ := exists_first_excess
      (fun steps => (follow setup known.phase .drained steps).deliveries.length) (Nat.le_refl 0) after
      (List.length_pos_iff.mpr more)
    have present : .dropReceiver ∉ quiet := fun member => remains.2 (List.mem_append_left _ member)
    have limit : Channel.closed.room? = .some 0 := rfl
    obtain ⟨topic, body, rfl, hears, blocked⟩ := follow_of_overflow setup known.phase limit present none some
    have still := List.eq_nil_of_length_eq_zero (Nat.le_zero.mp none)
    have late := taken (quiet ++ [.event (.message topic body)])
    have underway : (run setup .drained cancelled (before ++ (quiet ++ [.event (.message topic body)]))).exit = .none := by
      rw [late]
      exact hears.exit
    have stays := disconnect_not_mem_of_underway underway
    rw [late, Report.entries_after] at stays
    rw [left, blocked, Report.after_after, Channel.impasse, Report.closing, Report.after_ended]
    refine ⟨rfl, rfl, ?_, ?_, quiet, topic, body, rest, rfl, ?_⟩
    · rw [List.take_zero, List.append_nil, same]
    · rw [callsIn_append, callsIn_log, callsIn_leave, List.count_append, List.count_eq_zero.mpr stays]
      rfl
    · rw [List.append_assoc, taken, late, same]
      simp only [Report.deliveries_after, still, List.append_nil, true_and]
      refine ⟨?_, hears.after _ _, ?_⟩
      · rw [ne_eq, List.append_right_eq_self]
        exact List.length_pos_iff.mp some
      · rw [Report.entries_after]

end Departures

end Runs

/-- Deliveries are not lost where a session cannot hand them over. Next to the session whose deliveries are all taken,
one that nobody reads is the same where its channel has places for all of them; with fewer places it waits for ever
with as many as there are places, in the midst of the message with the first one that does not fit in. A receiver
that goes away between two steps is missed at the first message that has something to hand over: none of that is
sent, and the session leaves with one disconnection; with no such message to come it is not missed at all. -/
theorem deliveries_wait_or_leave (setup : Setup) (cancelled : Bool) {script : List Step}
    (remains : .dropReceiver ∉ script) :
    let taken := run setup .drained cancelled script
    (∀ capacity, let unread := run setup (.unread capacity) cancelled script
      (taken.deliveries.length ≤ capacity → unread = taken) ∧
      (capacity < taken.deliveries.length → Stalled setup cancelled script capacity unread) ∧
      ∃ n, ∀ m, n ≤ m →
        let now := System.afterTurns setup capacity (fun _ => .session) (System.start setup cancelled script) m
        now.advance setup capacity = none ∧ now.received = [] ∧
          (⟨now.entries, now.queue, now.task.phase, now.task.exit?⟩ : Report) = unread) ∧
    ∀ before after channel, script = before ++ after →
      let known := run setup .drained cancelled before
      channel.Fits known.deliveries.length →
      let left := run setup channel cancelled (before ++ .dropReceiver :: after)
      (taken.deliveries = known.deliveries → left = taken) ∧
        (taken.deliveries ≠ known.deliveries → Deserted setup cancelled before after left) := by
  intro taken
  refine ⟨fun capacity => ⟨fun enough => ?_, ?_, ?_⟩, ?_⟩
  · exact run_eq_of_fits setup (.unread capacity) cancelled remains (Channel.fits_unread.mpr enough)
  · exact run_stalled setup cancelled remains
  · exact System.exists_waiting_run setup capacity cancelled remains
  · intro before after channel split known fits left
    subst split
    exact ⟨run_drop_of_same setup channel cancelled remains fits, run_deserted setup channel cancelled remains fits⟩

theorem deliveries_wait_or_leave_of_responses :
    let setup := flawless ⟨.bits128, Aes.roundKeys .bits128 (List.replicate 16 0), .zero⟩
    let before : List Step := [.event .connAck, .event (.message "/domain/a/response" [1])]
    let after : List Step := [.event (.message "/domain/a/response" [2]), .event .disconnected]
    let unread := run setup (.unread 1) false (before ++ after)
    let left := run setup (.unread 1) false (before ++ .dropReceiver :: after)
    .dropReceiver ∉ before ++ after ∧
      unread.exit = none ∧ unread.deliveries = [.controlResponse ⟨"/domain/a/response"⟩ [1]] ∧
      left.exit = some .disconnected ∧ left.deliveries = [.controlResponse ⟨"/domain/a/response"⟩ [1]] ∧
      (callsIn left.entries).count .disconnect = 1 := by
  intro setup before after unread left
  have remains : .dropReceiver ∉ before ++ after := by decide
  obtain ⟨waits, leaves⟩ := deliveries_wait_or_leave setup false remains
  obtain ⟨-, stalls, -⟩ := waits 1
  obtain ⟨pending, first, -, -⟩ := stalls (by decide)
  obtain ⟨-, gone⟩ := leaves before after (.unread 1) rfl (by decide)
  obtain ⟨exit, -, same, once, -⟩ := gone (by decide)
  exact ⟨remains, pending, first, exit, same, once⟩

end DeviceBus.Session
