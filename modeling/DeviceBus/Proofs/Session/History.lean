import DeviceBus.Proofs.Session.Delivery
import DeviceBus.Proofs.Session.Entries

/-! What can have happened in a session. A history is a trace together with how the session goes on after it. It
starts with an attempt to connect and grows by what a session does on one event, or ends in a farewell.
The reports of runs are histories, and so is what is known of a session among the turns of others. -/
namespace DeviceBus.Session

open Broker (Event)

inductive Reaction (setup : Setup) : Phase → Event → Turn → Prop
  | subscribed (made : setup.failures.subscribe = none) :
    Reaction setup .connecting .connAck
      ⟨[.log .connected, .call (.subscribe Topic.wildcard .atMostOnce)], [], .stay .subscribing⟩
  | unsubscribed (info : String) (failed : setup.failures.subscribe = some info) :
    Reaction setup .connecting .connAck
      ⟨[.log .connected, .call (.subscribe Topic.wildcard .atMostOnce), .log (.cannotSubscribe (callError info))],
        [], faultedBy Broker.protocolError⟩
  | granted : Reaction setup .subscribing (.subAck true) ⟨[.log .listening], [], .stay .listening⟩
  | refused :
    Reaction setup .subscribing (.subAck false)
      ⟨.log .subscriptionRefused :: leave setup.failures, [], faultedBy Broker.protocolError⟩
  | heard (phase : Phase) (topic : String) (body : Bytes) (heeds : phase = .subscribing ∨ phase = .listening) :
    Reaction setup phase (.message topic body) (onMessage setup.context phase topic body)
  | disconnected (phase : Phase) :
    Reaction setup phase .disconnected ⟨[.log .disconnected], [], .finish .disconnected .disconnected⟩
  | failed (phase : Phase) (code : Int) (reason : String) :
    Reaction setup phase (.failed code reason) ⟨[.log (.transportFailed code reason)], [], faultedBy code⟩
  | ignored (phase : Phase) (event : Event) (other : endsConnection event = false)
    (early : event = .connAck → phase ≠ .connecting) (late : answersSubscription event → phase ≠ .subscribing) :
    Reaction setup phase event (onUnexpected phase event)

theorem turn_reaction (setup : Setup) (phase : Phase) (event : Event) :
    Reaction setup phase event (turn setup phase event) := by
  cases event with
  | connAck =>
    by_cases here : phase = .connecting
    · subst here
      rw [turn, if_pos rfl, onAccepted]
      cases call : setup.failures.subscribe with
      | none => exact .subscribed call
      | some info => exact .unsubscribed info call
    · rw [turn, if_neg here]
      exact .ignored phase .connAck rfl (fun _ => here) nofun
  | subAck granted =>
    by_cases here : phase = .subscribing
    · subst here
      rw [turn, if_pos rfl]
      cases granted with
      | true => exact .granted
      | false => exact .refused
    · rw [turn, if_neg here]
      exact .ignored phase (.subAck granted) rfl nofun fun _ => here
  | message topic body =>
    by_cases here : phase = .subscribing ∨ phase = .listening
    · rw [turn, if_pos here]
      exact .heard phase topic body here
    · rw [turn, if_neg here]
      exact .ignored phase (.message topic body) rfl nofun nofun
  | disconnected => exact .disconnected phase
  | failed code reason => exact .failed phase code reason
  | pubAck => exact .ignored phase .pubAck rfl nofun nofun
  | ignored => exact .ignored phase .ignored rfl nofun nofun

theorem onMessage_silent (context : CipherContext) (phase : Phase) (topic : String) (body : Bytes) :
    Silent (onMessage context phase topic body).entries :=
  (silent_map id _).append (silent_map _ _)

theorem onUnexpected_silent (phase : Phase) (event : Event) : Silent (onUnexpected phase event).entries :=
  silent_map id [_]

namespace Reaction

variable {setup : Setup} {phase : Phase} {event : Event} {turn : Turn}

theorem polls (reaction : Reaction setup phase event turn) : pollsIn turn.entries = [] := by
  cases reaction with
  | heard _ topic body => exact (onMessage_silent _ _ _ _).polls
  | refused => simp
  | _ => rfl

theorem stays (reaction : Reaction setup phase event turn) (hands : turn.deliveries ≠ []) :
    turn.next = .stay phase := by
  cases reaction with
  | heard _ topic body => rfl
  | _ => exact absurd rfl hands

end Reaction

/-- The traces of sessions on a script, each with how the session goes on. -/
inductive History (setup : Setup) (script : List Step) : List Entry → Next → Prop
  | unconnected (info : String) (failed : setup.failures.connect = some info) :
    History setup script [.call .connect, .log (.cannotConnect (callError info))] (faultedBy Broker.noConnection)
  | connected (made : setup.failures.connect = none) : History setup script [.call .connect] (.stay .connecting)
  | reacted {entries : List Entry} {phase : Phase} {event : Event} {turn : Turn}
    (past : History setup script entries (.stay phase)) (offered : .event event ∈ script)
    (reaction : Reaction setup phase event turn) :
    History setup script (entries ++ .poll event :: turn.entries) turn.next
  | left {entries : List Entry} {phase : Phase} (notice : Notice) (past : History setup script entries (.stay phase)) :
    History setup script (entries ++ .log notice :: leave setup.failures) (.finish .disconnected .disconnected)

variable {setup : Setup} {script : List Step} {entries : List Entry}

namespace History

theorem begins {next : Next} (history : History setup script entries next) :
    entries.head? = some (.call .connect) := by
  induction history with
  | unconnected info failed => rfl
  | connected made => rfl
  | reacted past offered reaction ih => rw [List.head?_append, ih]; rfl
  | left notice past ih => rw [List.head?_append, ih]; rfl

theorem offered {next : Next} (history : History setup script entries next) {event : Event}
    (member : event ∈ pollsIn entries) : .event event ∈ script := by
  induction history with
  | unconnected info failed => cases member
  | connected made => cases member
  | reacted past offered reaction ih =>
    rw [pollsIn_append, pollsIn_poll, reaction.polls, List.mem_append, List.mem_singleton] at member
    rcases member with early | rfl
    · exact ih early
    · exact offered
  | left notice past ih =>
    rw [pollsIn_append, pollsIn_log, pollsIn_leave, List.append_nil] at member
    exact ih member

end History

/-! Sessions with a channel of their own. -/

section Reports

variable (entries : List Entry) (deliveries : List Delivery) (r : Report)

@[simp] theorem Report.entries_after : (r.after entries deliveries).entries = entries ++ r.entries := rfl

@[simp] theorem Report.exit_after : (r.after entries deliveries).exit = r.exit := rfl

end Reports

def Report.next (r : Report) : Next :=
  match r.exit with
  | none => .stay r.phase
  | some exit => .finish r.phase exit

theorem send_nil (channel : Channel) : channel.send [] = ([], .all channel) := by
  cases channel with
  | unread room => cases room <;> rfl
  | _ => rfl

theorem follow_history (steps : List Step) {entries : List Entry} {phase : Phase}
    (past : History setup script entries (.stay phase)) (offered : ∀ step ∈ steps, step ∈ script)
    (channel : Channel) :
    History setup script (entries ++ (follow setup phase channel steps).entries)
      (follow setup phase channel steps).next := by
  induction steps generalizing entries phase channel with
  | nil =>
    rw [follow, Report.pending, List.append_nil]
    exact past
  | cons step steps ih =>
    have later : ∀ step ∈ steps, step ∈ script := fun step member => offered step (List.mem_cons_of_mem _ member)
    cases step with
    | wait ms => exact ih past later channel
    | dropReceiver => exact ih past later .closed
    | cancel => exact .left .cancelled past
    | event event =>
      have reaction := turn_reaction setup phase event
      have now := past.reacted (offered _ List.mem_cons_self) reaction
      rw [follow]
      generalize turn setup phase event = turn at reaction now
      cases delivered : channel.send turn.deliveries with
      | mk taken sent =>
        -- a channel that takes nothing at all is one that was offered something
        have hands : (∀ channel, sent ≠ .all channel) → turn.next = .stay phase := by
          intro short
          refine reaction.stays fun none => ?_
          rw [none, send_nil] at delivered
          cases delivered
          exact short channel rfl
        cases sent with
        | stuck =>
          have stay := hands (by simp)
          rw [stay] at now
          simpa [Report.after, Report.pending, Report.next, delivered] using now
        | refused =>
          have stay := hands (by simp)
          rw [stay] at now
          simpa [Report.after, Report.closing, Report.ended, Report.next, delivered] using now.left .receiverDropped
        | all channel =>
          cases same : turn.next with
          | stay next =>
            rw [same] at now
            simpa [Report.after, Report.next, same, delivered] using ih now later channel
          | finish last exit =>
            rw [same] at now
            simpa [Report.after, Report.ended, Report.next, same, delivered] using now

theorem run_history (setup : Setup) (channel : Channel) (cancelled : Bool) (script : List Step) :
    History setup script (run setup channel cancelled script).entries (run setup channel cancelled script).next := by
  rw [run]
  cases call : setup.failures.connect with
  | some info => exact .unconnected info call
  | none =>
    have start : History setup script [.call .connect] (.stay .connecting) := .connected call
    cases cancelled with
    | true => exact start.left .cancelled
    | false => exact follow_history script start (fun _ member => member) channel

/-! Sessions among the turns of others. -/

def Task.next : Task → Next
  | polling phase _ => .stay phase
  | sending _ next _ => next
  | ended phase exit => .finish phase exit

namespace System

variable {capacity : Nat} {s t : System}

structure Told (setup : Setup) (script : List Step) (s : System) : Prop where
  history : History setup script s.entries s.task.next
  offered : ∀ step ∈ s.task.script, step ∈ script
  stays : s.task.waiting ≠ [] → ∃ phase, s.task.next = .stay phase

theorem advance_told (told : s.Told setup script) (moved : s.advance setup capacity = some t) :
    t.Told setup script := by
  obtain ⟨past, offered, stays⟩ := told
  cases advance_cases moved with
  | wait phase ms steps task =>
    rw [task] at past offered
    exact ⟨past, fun step member => offered step (List.mem_cons_of_mem _ member), fun hands => absurd rfl hands⟩
  | takeLeave phase steps task =>
    rw [task] at past offered
    exact ⟨past, fun step member => offered step (List.mem_cons_of_mem _ member), fun hands => absurd rfl hands⟩
  | cancel phase steps task =>
    rw [task] at past
    exact ⟨past.left .cancelled, nofun, fun hands => absurd rfl hands⟩
  | poll phase event steps task =>
    rw [task] at past offered
    have reaction := turn_reaction setup phase event
    refine ⟨past.reacted (offered _ List.mem_cons_self) reaction, ?_, fun hands => ⟨phase, reaction.stays hands⟩⟩
    exact fun step member => offered step (List.mem_cons_of_mem _ member)
  | stay phase steps task =>
    rw [task] at past offered
    exact ⟨past, offered, fun hands => absurd rfl hands⟩
  | finish phase exit steps task =>
    rw [task] at past
    exact ⟨past, nofun, fun hands => absurd rfl hands⟩
  | giveUp d waiting next steps task alone =>
    rw [task] at past stays
    obtain ⟨phase, same⟩ := stays (List.cons_ne_nil d waiting)
    rw [same] at past
    exact ⟨past.left .receiverDropped, nofun, fun hands => absurd rfl hands⟩
  | send d waiting next steps task room =>
    rw [task] at past offered stays
    exact ⟨past, offered, fun _ => stays (List.cons_ne_nil d waiting)⟩

theorem act_told {actor : Actor} (told : s.Told setup script) (moved : s.act setup capacity actor = some t) :
    t.Told setup script := by
  cases actor with
  | session => exact advance_told told moved
  | reader =>
    obtain ⟨d, queue, -, rfl⟩ := receive_cases moved
    exact ⟨told.history, told.offered, told.stays⟩
  | departure =>
    rw [act, depart] at moved
    split at moved
    · cases moved
      exact ⟨told.history, told.offered, told.stays⟩
    · cases moved

theorem start_told (setup : Setup) (cancelled : Bool) (script : List Step) :
    (start setup cancelled script).Told setup script := by
  rw [start]
  cases call : setup.failures.connect with
  | some info => exact ⟨.unconnected info call, nofun, fun hands => absurd rfl hands⟩
  | none =>
    have start : History setup script [.call .connect] (.stay .connecting) := .connected call
    cases cancelled with
    | true => exact ⟨start.left .cancelled, nofun, fun hands => absurd rfl hands⟩
    | false => exact ⟨start, fun _ member => member, fun hands => absurd rfl hands⟩

theorem afterTurns_told (setup : Setup) (capacity : Nat) (schedule : Nat → Actor) (cancelled : Bool)
    (script : List Step) (n : Nat) :
    (afterTurns setup capacity schedule (start setup cancelled script) n).Told setup script :=
  afterTurns_invariant (fun _ _ _ told moved => act_told told moved) (start_told setup cancelled script) n

end System

end DeviceBus.Session
