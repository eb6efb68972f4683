import DeviceBus.Proofs.Session.History

/-! The conduct of a session: which calls it makes, and when it polls. A call or a poll is judged by the trace before
it, and in every history each is admissible. -/
namespace DeviceBus.Session

open Broker (Event)

section Answers

/-- The first answer to a subscription after the first acceptance. -/
def answer? (polls : List Event) : Option Event := (afterAcceptance polls).find? answersSubscription

variable {polls : List Event} {event : Event}

theorem acceptsConnection_iff (event : Event) : acceptsConnection event = true ↔ event = .connAck := by
  cases event <;> simp [acceptsConnection]

private theorem afterAcceptance_append (accepted : .connAck ∈ polls) (more : List Event) :
    afterAcceptance (polls ++ more) = afterAcceptance polls ++ more := by
  induction polls with
  | nil => cases accepted
  | cons first rest ih =>
    by_cases accepts : first = .connAck
    · subst accepts
      rfl
    · have other : acceptsConnection first = false :=
        Bool.eq_false_iff.mpr fun yes => accepts ((acceptsConnection_iff first).mp yes)
      rw [List.cons_append, afterAcceptance_other other, afterAcceptance_other other]
      exact ih ((List.mem_cons.mp accepted).resolve_left (Ne.symm accepts))

private theorem answer?_fresh (fresh : .connAck ∉ polls) : answer? (polls ++ [event]) = none := by
  induction polls with
  | nil => cases event <;> rfl
  | cons first rest ih =>
    rw [List.mem_cons, not_or] at fresh
    have other : acceptsConnection first = false :=
      Bool.eq_false_iff.mpr fun yes => fresh.1 ((acceptsConnection_iff first).mp yes).symm
    rw [answer?, List.cons_append, afterAcceptance_other other]
    exact ih fresh.2

theorem answer?_accepted (accepted : .connAck ∈ polls) :
    answer? (polls ++ [event]) = (answer? polls).or ([event].find? answersSubscription) := by
  rw [answer?, afterAcceptance_append accepted, List.find?_append]
  rfl

end Answers

structure Standing (failures : Failures) (entries : List Entry) (phase : Phase) : Prop where
  lasts : phase = .connecting ∨ phase = .subscribing ∨ phase = .listening
  connected : failures.connect = none
  calls : callsIn entries =
    if phase = .connecting then [.connect] else [.connect, .subscribe Topic.wildcard .atMostOnce]
  accepted : .connAck ∈ pollsIn entries ↔ phase ≠ .connecting
  subscribed : phase ≠ .connecting → failures.subscribe = none
  unended : ∀ event ∈ pollsIn entries, endsConnection event = false
  answer : answer? (pollsIn entries) = if phase = .listening then some (.subAck true) else none

variable {setup : Setup} {failures : Failures} {script : List Step} {entries : List Entry} {phase : Phase}

namespace Standing

theorem answer?_event (standing : Standing failures entries phase) (event : Event)
    (late : answersSubscription event → phase ≠ .subscribing) :
    answer? (pollsIn entries ++ [event]) = answer? (pollsIn entries) := by
  rw [standing.answer]
  rcases standing.lasts with rfl | rfl | rfl
  · have fresh : .connAck ∉ pollsIn entries := fun member => standing.accepted.mp member rfl
    exact answer?_fresh fresh
  · have accepted : .connAck ∈ pollsIn entries := standing.accepted.mpr nofun
    have none : answersSubscription event = false := Bool.eq_false_iff.mpr fun yes => late yes rfl
    rw [answer?_accepted accepted, standing.answer, List.find?_singleton, none]
    rfl
  · have accepted : .connAck ∈ pollsIn entries := standing.accepted.mpr nofun
    rw [answer?_accepted accepted, standing.answer]
    rfl

private theorem unended_event (standing : Standing failures entries phase) (event : Event)
    (other : endsConnection event = false) : ∀ e ∈ pollsIn entries ++ [event], endsConnection e = false := by
  intro e member
  rcases List.mem_append.mp member with early | late
  · exact standing.unended e early
  · rw [List.mem_singleton.mp late]
    exact other

private theorem remain (standing : Standing failures entries phase) {event : Event} {more : List Entry}
    (other : endsConnection event = false) (early : event = .connAck → phase ≠ .connecting)
    (late : answersSubscription event → phase ≠ .subscribing) (silent : Silent more) :
    Standing failures (entries ++ .poll event :: more) phase := by
  have calls : callsIn (entries ++ .poll event :: more) = callsIn entries := by simp [silent.calls]
  have polls : pollsIn (entries ++ .poll event :: more) = pollsIn entries ++ [event] := by simp [silent.polls]
  refine ⟨standing.lasts, standing.connected, ?_, ?_, standing.subscribed, ?_, ?_⟩
  · rw [calls]
    exact standing.calls
  · rw [polls, List.mem_append, List.mem_singleton, standing.accepted]
    exact or_iff_left_of_imp fun same => early same.symm
  · rw [polls]
    exact standing.unended_event event other
  · rw [polls, standing.answer?_event event late]
    exact standing.answer

end Standing

theorem History.standing (history : History setup script entries (.stay phase)) :
    Standing setup.failures entries phase := by
  -- over every index, since an induction needs one; the cases of sessions that have ended drop out
  generalize goes : Next.stay phase = next at history
  induction history generalizing phase with
  | unconnected info failed => cases goes
  | connected made =>
    cases goes
    exact ⟨.inl rfl, made, rfl, by simp, nofun, nofun, rfl⟩
  | left notice past ih => cases goes
  | @reacted entries phase event turn past offered reaction ih =>
    have standing := ih rfl
    cases reaction with
    | subscribed made =>
      cases goes
      refine ⟨.inr (.inl rfl), standing.connected, ?_, ?_, fun _ => made, ?_, ?_⟩
      · simp [standing.calls]
      · simp
      · simpa using standing.unended_event .connAck rfl
      · simpa [standing.answer] using standing.answer?_event .connAck nofun
    | granted =>
      cases goes
      have accepted : .connAck ∈ pollsIn entries := standing.accepted.mpr nofun
      refine ⟨.inr (.inr rfl), standing.connected, ?_, ?_, fun _ => standing.subscribed nofun, ?_, ?_⟩
      · simp [standing.calls]
      · simp [accepted]
      · simpa using standing.unended_event (.subAck true) rfl
      · simp [answer?_accepted accepted, standing.answer, answersSubscription]
    | heard _ topic body heeds =>
      cases goes
      exact standing.remain rfl nofun nofun (onMessage_silent _ _ _ _)
    | ignored _ _ other early late =>
      cases goes
      exact standing.remain other early late (onUnexpected_silent phase event)
    | unsubscribed => cases goes
    | refused => cases goes
    | disconnected => cases goes
    | failed => cases goes

structure Alive (failures : Failures) (past : List Entry) : Prop where
  connected : failures.connect = none
  opened : .connect ∈ callsIn past
  subscribed : .connAck ∈ pollsIn past → failures.subscribe = none
  unended : ∀ event ∈ pollsIn past, endsConnection event = false
  stays : .disconnect ∉ callsIn past

def Admissible (failures : Failures) (past : List Entry) : Entry → Prop
  | .call .connect => past = []
  | .call (.subscribe filter qos) =>
    filter = "/domain/#" ∧ qos.level = 0 ∧ failures.connect = none ∧ callsIn past = [.connect] ∧
      ∃ earlier, pollsIn past = earlier ++ [.connAck] ∧ .connAck ∉ earlier
  | .call (.publish ..) => False
  | .call .disconnect => Alive failures past
  | .poll _ => Alive failures past ∧ answer? (pollsIn past) ≠ some (.subAck false)
  | .log _ => True

/-- A trace in which everything is admissible after what precedes it. -/
def Orderly (failures : Failures) (entries : List Entry) : Prop :=
  ∀ past entry later, entries = past ++ entry :: later → Admissible failures past entry

namespace Alive

theorem log (alive : Alive failures entries) (notice : Notice) : Alive failures (entries ++ [.log notice]) := by
  refine ⟨alive.connected, ?_, ?_, ?_, ?_⟩
  · simpa using alive.opened
  · simpa using alive.subscribed
  · simpa using alive.unended
  · simpa using alive.stays

end Alive

namespace Standing

theorem alive (standing : Standing failures entries phase) : Alive failures entries := by
  refine ⟨standing.connected, ?_, fun member => standing.subscribed (standing.accepted.mp member), standing.unended, ?_⟩
  · rw [standing.calls]
    split <;> simp
  · rw [standing.calls]
    split <;> simp

theorem unrefused (standing : Standing failures entries phase) : answer? (pollsIn entries) ≠ some (.subAck false) := by
  rw [standing.answer]
  split <;> simp

private theorem admits_poll (standing : Standing failures entries phase) (event : Event) :
    Admissible failures entries (.poll event) := ⟨standing.alive, standing.unrefused⟩

end Standing

namespace Orderly

private theorem snoc (orderly : Orderly failures entries) (entry : Entry) (admissible : Admissible failures entries entry) :
    Orderly failures (entries ++ [entry]) := by
  intro past e later split
  rcases List.eq_nil_or_concat later with rfl | ⟨later, last, rfl⟩
  · obtain ⟨rfl, same⟩ := List.append_inj' split rfl
    cases same
    exact admissible
  · have inner : entries ++ [entry] = (past ++ e :: later) ++ [last] := by simpa using split
    obtain ⟨same, -⟩ := List.append_inj' inner rfl
    exact orderly past e later same

theorem nil (failures : Failures) : Orderly failures [] := by
  intro past entry later split
  simp at split

theorem silent (orderly : Orderly failures entries) {more : List Entry} (silent : Silent more) :
    Orderly failures (entries ++ more) := by
  induction more generalizing entries with
  | nil => simpa using orderly
  | cons entry more ih =>
    obtain ⟨notice, rfl⟩ := silent entry List.mem_cons_self
    have next : Orderly failures (entries ++ [.log notice]) := orderly.snoc _ trivial
    simpa using ih next fun entry member => silent entry (List.mem_cons_of_mem _ member)

theorem leave (orderly : Orderly failures entries) (alive : Alive failures entries) :
    Orderly failures (entries ++ Session.leave failures) := by
  have called : Orderly failures (entries ++ [.call .disconnect]) := orderly.snoc _ alive
  unfold Session.leave
  cases failures.disconnect with
  | none => exact called
  | some info =>
    have noted := called.snoc (.log (.cannotDisconnect (callError info))) trivial
    simpa using noted

end Orderly

theorem Orderly.subscribe (standing : Standing failures entries .connecting) (orderly : Orderly failures entries) :
    Orderly failures (entries ++
      [.poll .connAck, .log .connected, .call (.subscribe Topic.wildcard .atMostOnce)]) := by
  have polled := orderly.snoc _ (standing.admits_poll .connAck)
  have noted := polled.snoc (.log .connected) trivial
  have fresh : .connAck ∉ pollsIn entries := fun member => standing.accepted.mp member rfl
  have called := noted.snoc (.call (.subscribe Topic.wildcard .atMostOnce))
    ⟨rfl, rfl, standing.connected, by simp [standing.calls], pollsIn entries, by simp, fresh⟩
  simpa using called

theorem History.orderly {next : Next} (history : History setup script entries next) :
    Orderly setup.failures entries := by
  induction history with
  | unconnected info failed =>
    have called : Orderly setup.failures [.call .connect] := (Orderly.nil _).snoc (.call .connect) rfl
    exact called.snoc (.log (.cannotConnect (callError info))) trivial
  | connected made => exact (Orderly.nil _).snoc (.call .connect) rfl
  | left notice past ih =>
    have noted : Orderly setup.failures _ := ih.snoc (.log notice) trivial
    simpa using noted.leave (past.standing.alive.log notice)
  | @reacted entries phase event turn past offered reaction ih =>
    have standing := past.standing
    have polled := ih.snoc _ (standing.admits_poll event)
    cases reaction with
    | subscribed made => exact ih.subscribe standing
    | unsubscribed info failed => simpa using (ih.subscribe standing).silent (silent_map id [_])
    | refused =>
      have noted := polled.snoc (.log .subscriptionRefused) trivial
      have alive : Alive setup.failures (entries ++ [.poll (.subAck false), .log .subscriptionRefused]) := by
        refine ⟨standing.connected, ?_, fun _ => standing.subscribed nofun, ?_, ?_⟩
        · simpa using standing.alive.opened
        · simpa using standing.unended_event (.subAck false) rfl
        · simpa using standing.alive.stays
      rw [List.append_assoc] at noted
      simpa using noted.leave alive
    | granted => simpa using polled.silent (silent_map id [_])
    | heard _ topic body heeds => simpa using polled.silent (onMessage_silent setup.context phase topic body)
    | disconnected => simpa using polled.silent (silent_map id [_])
    | failed _ code reason => simpa using polled.silent (silent_map id [_])
    | ignored _ _ other early late => simpa using polled.silent (onUnexpected_silent phase event)

end DeviceBus.Session
