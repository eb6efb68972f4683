import DeviceBus.Proofs.Session.Farewell
import DeviceBus.Proofs.Session.FinalStatus

/-! The life of a session. Its phases have an order, in which it goes forward one by one until it ends, and each is
entered on the event that it waits for. What is known of a session after some steps of its script is a first
part of what is known after more of them. -/
namespace DeviceBus.Session

open Broker (Event)

/-- How far a session has come. The two phases of a session that has ended are equally far. -/
def Phase.rank : Phase → Nat
  | connecting => 0
  | subscribing => 1
  | listening => 2
  | disconnected | faulted => 3

def Next.phase : Next → Phase
  | stay phase | finish phase _ => phase

/-- From one phase to another, with what is observed on the way. -/
inductive Passage (setup : Setup) : Phase → List Entry → Phase → Prop
  | stays (phase : Phase) (added : List Entry) : Passage setup phase added phase
  | subscribes (made : setup.failures.subscribe = none) :
    Passage setup .connecting [.poll .connAck, .log .connected, .call (.subscribe Topic.wildcard .atMostOnce)]
      .subscribing
  | listens : Passage setup .subscribing [.poll (.subAck true), .log .listening] .listening
  | ends {phase last : Phase} (added : List Entry) (lasting : phase.rank < 3) (settled : last.rank = 3) :
    Passage setup phase added last

variable {setup : Setup} {script : List Step} {entries : List Entry} {phase : Phase} {exit : Exit}

private theorem Passage.rank_le {added : List Entry} {later : Phase} (passage : Passage setup phase added later) :
    phase.rank ≤ later.rank := by
  cases passage with
  | stays => exact Nat.le_refl _
  | subscribes made => decide
  | listens => decide
  | ends _ lasting settled => omega

theorem Passage.idle (setup : Setup) (entries : List Entry) (phase : Phase) :
    ∃ added, entries = entries ++ added ∧ Passage setup phase added phase :=
  ⟨[], (List.append_nil entries).symm, .stays phase []⟩

private theorem Passage.not_listening {added : List Entry} {later : Phase} (passage : Passage setup .connecting added later) :
    later ≠ .listening := by
  rintro rfl
  cases passage with
  | ends _ lasting settled => cases settled

private theorem History.rank_lt (history : History setup script entries (.stay phase)) : phase.rank < 3 := by
  rcases history.standing.lasts with rfl | rfl | rfl <;> decide

private theorem History.rank_eq (history : History setup script entries (.finish phase exit)) : phase.rank = 3 := by
  rcases history.settled.ends phase exit rfl with ⟨rfl, -⟩ | ⟨code, rfl, -⟩ <;> rfl

private theorem Reaction.passage {event : Event} {turn : Turn} (reaction : Reaction setup phase event turn)
    (lasting : phase.rank < 3) : Passage setup phase (.poll event :: turn.entries) turn.next.phase := by
  cases reaction with
  | subscribed made => exact .subscribes made
  | granted => exact .listens
  | heard | ignored => exact .stays phase _
  | unsubscribed | refused | disconnected | failed => exact .ends _ lasting rfl

private theorem follow_passage (setup : Setup) (channel : Channel) (step : Step) (lasting : phase.rank < 3) :
    Passage setup phase (follow setup phase channel [step]).entries (follow setup phase channel [step]).phase := by
  cases step with
  | wait ms => exact .stays phase _
  | dropReceiver => exact .stays phase _
  | cancel => exact .ends _ lasting rfl
  | event event =>
    have passage := (turn_reaction setup phase event).passage lasting
    rw [follow]
    generalize turn setup phase event = turn at passage
    cases channel.send turn.deliveries with
    | mk taken sent =>
      cases sent with
      | stuck => exact .stays phase _
      | refused => exact .ends _ lasting rfl
      | all rest =>
        cases goes : turn.next with
        | stay next =>
          rw [goes] at passage
          simpa [goes, follow, Report.after, Report.pending, Next.phase] using passage
        | finish last exit =>
          rw [goes] at passage
          simpa [goes, Report.after, Report.ended, Next.phase] using passage

section Runs

variable (setup script) (channel : Channel) (cancelled : Bool)

theorem rank_run_iff :
    (run setup channel cancelled script).phase.rank = 3 ↔ (run setup channel cancelled script).exit ≠ none := by
  have history := run_history setup channel cancelled script
  rw [Report.next] at history
  cases ended : (run setup channel cancelled script).exit with
  | none =>
    rw [ended] at history
    have lasting := history.rank_lt
    simp only [ne_eq, not_true, iff_false]
    omega
  | some exit =>
    rw [ended] at history
    simp [history.rank_eq]

private theorem run_step (before : List Step) (step : Step) :
    let early := run setup channel cancelled before
    let late := run setup channel cancelled (before ++ [step])
    ∃ added, late.entries = early.entries ++ added ∧ Passage setup early.phase added late.phase := by
  intro early late
  rcases run_append setup channel cancelled before with same | ⟨lasts, left, -, goes⟩
  · have settled : late = early := same [step]
    rw [settled]
    exact Passage.idle _ _ _
  · have next : late = .after early.entries early.deliveries (follow setup early.phase left [step]) := goes [step]
    have history := run_history setup channel cancelled before
    rw [Report.next, lasts] at history
    have passage := follow_passage setup left step history.rank_lt
    rw [next]
    exact ⟨_, rfl, passage⟩

private theorem run_take_succ (n : Nat) :
    let early := run setup channel cancelled (script.take n)
    let late := run setup channel cancelled (script.take (n + 1))
    ∃ added, late.entries = early.entries ++ added ∧ Passage setup early.phase added late.phase := by
  rw [List.take_add_one]
  cases script[n]? with
  | none =>
    simp only [Option.toList_none, List.append_nil]
    exact Passage.idle _ _ _
  | some step => exact run_step setup channel cancelled (script.take n) step

private theorem rank_run_take_mono {m n : Nat} (le : m ≤ n) :
    (run setup channel cancelled (script.take m)).phase.rank ≤
      (run setup channel cancelled (script.take n)).phase.rank := by
  induction le with
  | refl => exact Nat.le_refl _
  | @step n le ih =>
    obtain ⟨added, -, passage⟩ := run_take_succ setup script channel cancelled n
    exact Nat.le_trans ih passage.rank_le

private theorem run_take_grows {m n : Nat} (le : m ≤ n) :
    let early := run setup channel cancelled (script.take m)
    let late := run setup channel cancelled (script.take n)
    early.entries <+: late.entries ∧ early.deliveries <+: late.deliveries := by
  have grows := run_grows setup channel cancelled (script.take m) ((script.take n).drop m)
  have whole := List.take_append_drop m (script.take n)
  rw [List.take_take, Nat.min_eq_left le] at whole
  rw [whole] at grows
  exact grows

end Runs

/-! The same among the turns of others. -/
namespace System

variable {capacity : Nat} {s t : System}

private theorem advance_passage (told : s.Told setup script) (moved : s.advance setup capacity = some t) :
    (∃ added, t.entries = s.entries ++ added ∧ Passage setup s.task.phase added t.task.phase) ∧
      s.received <+: t.received := by
  have history := told.history
  cases advance_cases moved with
  | wait phase ms steps task =>
    rw [task]
    exact ⟨Passage.idle _ _ _, List.prefix_rfl⟩
  | takeLeave phase steps task =>
    rw [task]
    exact ⟨Passage.idle _ _ _, List.prefix_append _ _⟩
  | cancel phase steps task =>
    rw [task] at history ⊢
    exact ⟨⟨_, rfl, .ends _ history.rank_lt rfl⟩, List.prefix_rfl⟩
  | poll phase event steps task =>
    rw [task] at history ⊢
    have passage := (turn_reaction setup phase event).passage history.rank_lt
    refine ⟨⟨_, rfl, ?_⟩, List.prefix_rfl⟩
    cases goes : (turn setup phase event).next with
    | stay next =>
      rw [goes] at passage
      exact passage
    | finish last exit =>
      rw [goes] at passage
      exact passage
  | stay phase steps task =>
    rw [task]
    exact ⟨Passage.idle _ _ _, List.prefix_rfl⟩
  | finish phase exit steps task =>
    rw [task]
    exact ⟨Passage.idle _ _ _, List.prefix_rfl⟩
  | giveUp d waiting next steps task alone =>
    obtain ⟨phase, same⟩ := told.stays (by simp [task, Task.waiting])
    rw [task] at history same ⊢
    cases same
    exact ⟨⟨_, rfl, .ends _ history.rank_lt rfl⟩, List.prefix_rfl⟩
  | send d waiting next steps task room =>
    rw [task]
    refine ⟨⟨[], (List.append_nil _).symm, ?_⟩, List.prefix_rfl⟩
    cases next <;> exact .stays _ _

private theorem act_passage {actor : Actor} (told : s.Told setup script) (moved : s.act setup capacity actor = some t) :
    (∃ added, t.entries = s.entries ++ added ∧ Passage setup s.task.phase added t.task.phase) ∧
      s.received <+: t.received := by
  cases actor with
  | session => exact advance_passage told moved
  | reader =>
    obtain ⟨d, queue, -, rfl⟩ := receive_cases moved
    exact ⟨Passage.idle _ _ _, List.prefix_append _ _⟩
  | departure =>
    rw [act, depart] at moved
    split at moved
    · cases moved
      exact ⟨Passage.idle _ _ _, List.prefix_rfl⟩
    · cases moved

end System

/-- A session only goes forward. After the first steps of a script, one more or fewer, it is in phases that follow one
another: from connecting to subscribing on an acceptance, where the call to subscribe does not fail; from there to
listening on a granted subscription; and from any of these to an end, which no longer script changes. Its
trace and its deliveries only grow. This holds for a channel of any capacity, read or not, and among the turns
of a reader who acts and goes away when it likes. -/
theorem phases_go_forward (setup : Setup) (cancelled : Bool) (script : List Step) :
    (∀ channel, let known := fun n => run setup channel cancelled (script.take n)
      (phases setup channel cancelled script).Pairwise (fun early late => early.rank ≤ late.rank) ∧
      (∀ n, ((known n).phase.rank = 3 ↔ (known n).exit ≠ none) ∧
        ((known n).exit ≠ none → ∀ more, run setup channel cancelled (script.take n ++ more) = known n) ∧
        ∃ added, (known (n + 1)).entries = (known n).entries ++ added ∧
          Passage setup (known n).phase added (known (n + 1)).phase ∧
          ((known n).phase = .connecting → (known (n + 1)).phase ≠ .listening)) ∧
      ∀ m n, m ≤ n → (known m).phase.rank ≤ (known n).phase.rank ∧
        (known m).entries <+: (known n).entries ∧ (known m).deliveries <+: (known n).deliveries) ∧
    ∀ capacity schedule, let reached :=
        System.afterTurns setup capacity schedule (System.start setup cancelled script)
      ∀ n, (∃ added, (reached (n + 1)).entries = (reached n).entries ++ added ∧
          Passage setup (reached n).task.phase added (reached (n + 1)).task.phase) ∧
        (reached n).received <+: (reached (n + 1)).received := by
  constructor
  · intro channel known
    refine ⟨?_, fun n => ⟨rank_run_iff setup _ channel cancelled, ?_, ?_⟩, fun m n le => ?_⟩
    · rw [phases, List.pairwise_map]
      refine List.pairwise_lt_range.imp fun {m n} less => ?_
      exact rank_run_take_mono setup script channel cancelled (Nat.le_of_lt less)
    · intro ended more
      exact run_ended setup channel cancelled ended more
    · obtain ⟨added, longer, passage⟩ := run_take_succ setup script channel cancelled n
      exact ⟨added, longer, passage, fun starts => (starts ▸ passage).not_listening⟩
    · exact ⟨rank_run_take_mono setup script channel cancelled le, run_take_grows setup script channel cancelled le⟩
  · intro capacity schedule reached n
    have told := System.afterTurns_told setup capacity schedule cancelled script n
    change System.Told setup script (reached n) at told
    have next : reached (n + 1) = ((reached n).act setup capacity (schedule n)).getD (reached n) := rfl
    cases moved : (reached n).act setup capacity (schedule n) with
    | none =>
      rw [next, moved, Option.getD_none]
      exact ⟨Passage.idle _ _ _, List.prefix_rfl⟩
    | some t =>
      rw [next, moved, Option.getD_some]
      exact System.act_passage told moved

theorem phases_go_forward_of_responses :
    let setup := flawless ⟨.bits128, Aes.roundKeys .bits128 (List.replicate 16 0), .zero⟩
    let script : List Step :=
      [.event .connAck, .event (.message "/domain/a/response" [1]), .event (.message "/domain/a/response" [2]),
        .event (.subAck true), .event .disconnected]
    phases setup (.unread 1) false script =
        [.connecting, .subscribing, .subscribing, .subscribing, .subscribing, .subscribing] ∧
      phases setup .drained false script =
        [.connecting, .subscribing, .subscribing, .subscribing, .listening, .disconnected] ∧
      (phases setup .drained false script).Pairwise (fun early late => early.rank ≤ late.rank) ∧
      (run setup .drained false script).exit ≠ none ∧
      ∀ more, run setup .drained false (script ++ more) = run setup .drained false script := by
  intro setup script
  obtain ⟨forward, known, -⟩ := (phases_go_forward setup false script).1 .drained
  have ended : (run setup .drained false script).exit ≠ none := by decide
  exact ⟨by decide, by decide, forward, ended, (known 5).2.1 ended⟩

end DeviceBus.Session
