import DeviceBus.Proofs.Session.Backlog

/-! Events that a session does not expect. Wherever such events are put into a script, the session goes the same way:
each of them adds to its trace that it was polled, and one line for debugging. -/
namespace DeviceBus.Session

open Broker (Event)

/-- What a session in some phase does not wait for. -/
inductive Unexpected : Phase → Event → Prop
  | ignored (phase : Phase) : Unexpected phase .ignored
  | pubAck (phase : Phase) : Unexpected phase .pubAck
  | connAck {phase : Phase} (accepted : phase = .subscribing ∨ phase = .listening) : Unexpected phase .connAck
  | subAck {phase : Phase} (unasked : phase = .connecting ∨ phase = .listening) (granted : Bool) :
    Unexpected phase (.subAck granted)
  | early (topic : String) (body : Bytes) : Unexpected .connecting (.message topic body)
  | foreign (phase : Phase) {topic : String} (other : (Topic.mk topic).classify = .other) (body : Bytes) :
    Unexpected phase (.message topic body)

/-- A script and a longer one, after the steps before them. The longer one has some more events, each of which is unexpected
in the phase that the steps of the shorter one lead to. -/
inductive Padded (phaseAfter : List Step → Phase) : List Step → List Step → List Event → List Step → Prop
  | nil (before : List Step) : Padded phaseAfter before [] [] []
  | step {before script longer : List Step} {inserted : List Event} (step : Step)
    (rest : Padded phaseAfter (before ++ [step]) script inserted longer) :
    Padded phaseAfter before (step :: script) inserted (step :: longer)
  | insert {before script longer : List Step} {inserted : List Event} {event : Event}
    (unexpected : Unexpected (phaseAfter before) event) (rest : Padded phaseAfter before script inserted longer) :
    Padded phaseAfter before script (event :: inserted) (.event event :: longer)

/-- The phases are those that a session with the given channel is in after its steps. -/
def PaddedFor (setup : Setup) (channel : Channel) (cancelled : Bool) (script : List Step) (inserted : List Event)
    (longer : List Step) : Prop :=
  Padded (fun before => (run setup channel cancelled before).phase) [] script inserted longer

theorem Padded.remains {phaseAfter : List Step → Phase} {before script longer : List Step} {inserted : List Event}
    (padded : Padded phaseAfter before script inserted longer) (remains : .dropReceiver ∉ script) :
    .dropReceiver ∉ longer := by
  induction padded with
  | nil => exact remains
  | step step _ ih =>
    rw [List.mem_cons, not_or] at remains ⊢
    exact ⟨remains.1, ih remains.2⟩
  | insert _ _ ih => exact List.not_mem_cons_of_ne_of_not_mem nofun (ih remains)

/-- A trace and another one that has some more polls in it, each with a line for debugging. -/
inductive Interspersed : List Event → List Entry → List Entry → Prop
  | nil : Interspersed [] [] []
  | entry {polled : List Event} {entries more : List Entry} (entry : Entry) (rest : Interspersed polled entries more) :
    Interspersed polled (entry :: entries) (entry :: more)
  | poll {polled : List Event} {entries more : List Entry} (event : Event) {notice : Notice}
    (debug : notice.level = .debug) (rest : Interspersed polled entries more) :
    Interspersed (event :: polled) entries (.poll event :: .log notice :: more)

namespace Interspersed

variable {polled later : List Event} {entries more next afterwards : List Entry}

theorem refl (entries : List Entry) : Interspersed [] entries entries := by
  induction entries with
  | nil => exact .nil
  | cons entry _ ih => exact ih.entry entry

theorem append (first : Interspersed polled entries more) (second : Interspersed later next afterwards) :
    Interspersed (polled ++ later) (entries ++ next) (more ++ afterwards) := by
  induction first with
  | nil => exact second
  | entry entry _ ih => exact ih.entry entry
  | poll event debug _ ih => exact ih.poll event debug

theorem extend (interspersed : Interspersed polled entries more) (added : List Entry) :
    Interspersed polled (entries ++ added) (more ++ added) := by
  simpa using interspersed.append (.refl added)

theorem calls (interspersed : Interspersed polled entries more) : callsIn more = callsIn entries := by
  induction interspersed with
  | nil => rfl
  | entry entry _ ih => cases entry <;> simp [ih]
  | poll event debug _ ih => simp [ih]

end Interspersed

/-- Reports that differ only in what some of the inserted events add to the trace, the first of them up to where the session
ends or waits. -/
structure Stutters (inserted : List Event) (r s : Report) : Prop where
  exit : s.exit = r.exit
  phase : s.phase = r.phase
  deliveries : s.deliveries = r.deliveries
  calls : callsIn s.entries = callsIn r.entries
  entries : ∃ polled, polled <+: inserted ∧ Interspersed polled r.entries s.entries

namespace Stutters

variable {inserted : List Event} {r s : Report}

theorem refl (inserted : List Event) (r : Report) : Stutters inserted r r :=
  ⟨rfl, rfl, rfl, rfl, [], List.nil_prefix, .refl r.entries⟩

theorem after (stutters : Stutters inserted r s) (entries : List Entry) (deliveries : List Delivery) :
    Stutters inserted (r.after entries deliveries) (s.after entries deliveries) := by
  obtain ⟨exit, phase, same, calls, polled, early, interspersed⟩ := stutters
  have interspersed := (Interspersed.refl entries).append interspersed
  refine ⟨exit, phase, congrArg (deliveries ++ ·) same, ?_, polled, early, interspersed⟩
  rw [Report.entries_after, Report.entries_after, callsIn_append, callsIn_append, calls]

theorem poll (stutters : Stutters inserted r s) (event : Event) {notice : Notice} (debug : notice.level = .debug) :
    Stutters (event :: inserted) r (s.after [.poll event, .log notice] []) := by
  obtain ⟨exit, phase, same, calls, polled, early, interspersed⟩ := stutters
  have early : event :: polled <+: event :: inserted := List.cons_prefix_cons.mpr ⟨rfl, early⟩
  exact ⟨exit, phase, same, calls, event :: polled, early, interspersed.poll event debug⟩

end Stutters

variable {setup : Setup} {phase : Phase} {channel : Channel} {event : Event}

theorem Unexpected.turn_eq (unexpected : Unexpected phase event) (setup : Setup) :
    ∃ notice : Notice, notice.level = .debug ∧ turn setup phase event = ⟨[.log notice], [], .stay phase⟩ := by
  have unheeded : ∃ notice : Notice, notice.level = .debug ∧
      onUnexpected phase event = ⟨[.log notice], [], .stay phase⟩ := ⟨.eventIgnored phase event, rfl, rfl⟩
  cases unexpected with
  | ignored | pubAck | early => exact unheeded
  | connAck accepted =>
    have past : phase ≠ .connecting := by rcases accepted with rfl | rfl <;> decide
    rw [turn, if_neg past]
    exact unheeded
  | subAck unasked granted =>
    have elsewhere : phase ≠ .subscribing := by rcases unasked with rfl | rfl <;> decide
    rw [turn, if_neg elsewhere]
    exact unheeded
  | @foreign _ topic other body =>
    rw [turn]
    split
    · exact ⟨.messageIgnored topic, rfl, by simp [onMessage, Dispatch.ofMessage, other]⟩
    · exact unheeded

def Tracks (setup : Setup) (phaseAfter : List Step → Phase) (before : List Step) (phase : Phase)
    (channel : Channel) : Prop :=
  ∀ more, phaseAfter (before ++ more) = (follow setup phase channel more).phase

namespace Tracks

variable {phaseAfter : List Step → Phase} {before : List Step}

theorem now (tracks : Tracks setup phaseAfter before phase channel) : phaseAfter before = phase := by
  simpa [follow, Report.pending] using tracks []

theorem step {step : Step} {phase' : Phase} {channel' : Channel} (tracks : Tracks setup phaseAfter before phase channel)
    (goes : ∀ more, (follow setup phase channel (step :: more)).phase = (follow setup phase' channel' more).phase) :
    Tracks setup phaseAfter (before ++ [step]) phase' channel' := by
  intro more
  rw [List.append_assoc, List.singleton_append, tracks, goes]

theorem turn (tracks : Tracks setup phaseAfter before phase channel) {phase' : Phase}
    (fits : channel.Fits (turn setup phase event).deliveries.length) (stays : (turn setup phase event).next = .stay phase') :
    Tracks setup phaseAfter (before ++ [.event event]) phase'
      (channel.less (turn setup phase event).deliveries.length) := by
  refine tracks.step fun more => ?_
  rw [follow_event_of_fits setup phase event fits, Report.phase_after, stays]
  rfl

end Tracks

private theorem follow_stutters {phaseAfter : List Step → Phase} {before script longer : List Step} {inserted : List Event}
    (padded : Padded phaseAfter before script inserted longer) (tracks : Tracks setup phaseAfter before phase channel) :
    Stutters inserted (follow setup phase channel script) (follow setup phase channel longer) := by
  -- by induction on the scripts, with the session that the steps before have led to
  induction padded generalizing phase channel with
  | nil => exact .refl _ _
  | @insert _ _ _ _ event unexpected _ ih =>
    rw [tracks.now] at unexpected
    obtain ⟨notice, debug, same⟩ := unexpected.turn_eq setup
    have fits : channel.Fits (turn setup phase event).deliveries.length := by
      rw [same]
      exact channel.fits_zero
    rw [follow_event_of_fits setup phase event fits, same]
    simp only [Next.resume, List.length_nil, Channel.less_zero]
    exact (ih tracks).poll event debug
  | @step _ script longer _ step _ ih =>
    cases step with
    | wait ms => exact ih (tracks.step fun _ => rfl)
    | dropReceiver => exact ih (tracks.step fun _ => rfl)
    | cancel => exact .refl _ _
    | event event =>
      by_cases fits : channel.Fits (turn setup phase event).deliveries.length
      · rw [follow_event_of_fits setup phase event fits, follow_event_of_fits setup phase event fits]
        refine Stutters.after ?_ _ _
        cases next : (turn setup phase event).next with
        | finish last exit => exact .refl _ _
        | stay phase' => exact ih (tracks.turn fits next)
      · -- the session comes to an impasse in the midst of a message, and nothing more is polled
        obtain ⟨room, limit, exceeds⟩ : ∃ room ∈ channel.room?, room < (turn setup phase event).deliveries.length := by
          simpa [Channel.Fits] using fits
        have blocked := follow_event_of_overflow setup phase event limit exceeds
        rw [blocked, blocked]
        exact .refl _ _

theorem run_stutters (setup : Setup) (channel : Channel) (cancelled : Bool) {script longer : List Step}
    {inserted : List Event} (padded : PaddedFor setup channel cancelled script inserted longer) :
    Stutters inserted (run setup channel cancelled script) (run setup channel cancelled longer) := by
  rcases run_starts setup cancelled with ⟨settled, -, -, same⟩ | starts
  · rw [same, same]
    exact .refl _ _
  · have tracks : Tracks setup (fun before => (run setup channel cancelled before).phase) [] .connecting channel := by
      intro more
      simp only [List.nil_append, starts, Report.phase_after]
    rw [starts, starts]
    exact (follow_stutters padded tracks).after _ _

end DeviceBus.Session
