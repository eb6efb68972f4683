import DeviceBus.Broker.Closing
import DeviceBus.Proofs.Broker.Sessions
import DeviceBus.Topic

/-! Whether a disconnection comes to an end. What it flushes has a time limit, but its own request has to find a place in the
queue first. The queue never holds more requests than it has room for, and only such as were made since the connection
was opened; a broker that cannot be reached takes none of them out again. So a disconnection waits for ever exactly if
the queue is full, which takes as many requests as it has room for. -/
namespace DeviceBus.Broker

/-! The flush, and what can become of a disconnection. -/

theorem flush_elapsed_le (left : Nat) (pulls : List Pull) : (flush left pulls).elapsed ≤ left := by
  induction pulls generalizing left with
  | nil => exact Nat.le_refl left
  | cons pull rest ih =>
    rw [flush]
    split
    · next within =>
      split
      · have further := ih (left - pull.delay)
        change pull.delay + _ ≤ left
        omega
      · exact within
    · exact Nat.le_refl left

def Action.request? : Action → Option Call
  | .call (.subscribe filter qos) => if canSubscribe filter then some (.subscribe filter qos) else none
  | .call (.publish topic body qos) => if canPublish topic then some (.publish topic body qos) else none
  | .call .connect | .call .disconnect | .poll => none

namespace Connection

/-- The requests that were made since the connection was last opened, oldest first. -/
def requestsSince (history : List Action) : List Call :=
  (history.reverse.takeWhile (· ≠ .call .connect)).reverse.filterMap Action.request?

def Full (c : Connection) : Prop := ∃ queue, c.session = some queue ∧ queue.length = capacity

variable {c next last : Connection} {history : List Action} {action : Action} {traffic : Traffic} {answer : Answer}
  {dial : DialFault}

theorem closeIn_eq_disconnectIn (traffic : Traffic) (pulls : List Pull) (c : Connection) :
    ((c.closeIn traffic pulls).1.answer, (c.closeIn traffic pulls).2) = c.disconnectIn traffic := by
  unfold closeIn disconnectIn
  cases c.session with
  | none => rfl
  | some queue =>
    by_cases accepts : traffic.accepts
    · by_cases room : queue.length < capacity <;> simp [accepts, room, Closing.answer]
    · simp [accepts, Closing.answer]

theorem closeIn_time_le {pulls : List Pull} {time : Nat} (returns : (c.closeIn traffic pulls).1.time? = some time) :
    time ≤ flushLimit := by
  cases closing : (c.closeIn traffic pulls).1 with
  | flushed flushed =>
    rw [closing] at returns
    cases returns
    unfold closeIn at closing
    repeat' split at closing
    all_goals cases closing
    exact flush_elapsed_le flushLimit pulls
  | stuck =>
    rw [closing] at returns
    cases returns
  | idle | refused =>
    rw [closing] at returns
    cases returns
    exact Nat.zero_le flushLimit

theorem closeIn_time?_eq_none_iff {pulls : List Pull} :
    (c.closeIn traffic pulls).1.time? = none ↔
      traffic.accepts = true ∧ ∃ queue, c.session = some queue ∧ capacity ≤ queue.length := by
  unfold closeIn
  cases session : c.session with
  | none => simp [Closing.time?]
  | some queue =>
    by_cases accepts : traffic.accepts
    · by_cases room : queue.length < capacity
      · simp [accepts, room, Closing.time?]
      · simp [accepts, room, Closing.time?, Nat.not_lt.mp room]
    · simp [accepts, Closing.time?]

private theorem requestsSince_opening (history : List Action) : requestsSince (history ++ [.call .connect]) = [] := by
  simp [requestsSince]

private theorem requestsSince_concat (history : List Action) (other : action ≠ .call .connect) :
    requestsSince (history ++ [action]) = requestsSince history ++ action.request?.toList := by
  rw [requestsSince, List.reverse_append, List.reverse_singleton, List.singleton_append,
    List.takeWhile_cons_of_pos (by simpa using other), List.reverse_cons, List.filterMap_append, requestsSince]
  congr 1

/-! What is in the queue, told from the actions. -/

private theorem request_queue {valid : Bool} {call : Call}
    (made : (Action.call call).request? = if valid then some call else none)
    (c : Connection) (traffic : Traffic) :
    (c.request (valid && traffic.accepts) call).2.session = c.session.map fun queue =>
      if traffic.accepts ∧ queue.length < capacity then queue ++ (Action.call call).request?.toList else queue := by
  rw [request_session, made]
  congr 1
  funext queue
  cases valid <;> cases traffic.accepts <;> simp

theorem queue_cases (moves : c.actIn traffic action = .ok (answer, next)) {queue : List Call}
    (session : next.session = some queue) :
    (action = .call .connect ∧ queue = []) ∨
      ∃ previous, c.session = some previous ∧ action ≠ .call .connect ∧
        (action = .poll ∧ queue = previous.drop traffic.sent ∨
          queue = if traffic.accepts ∧ previous.length < capacity then previous ++ action.request?.toList else previous) := by
  cases action with
  | poll =>
    obtain rfl := eq_of_moved moves
    rw [pollIn_session, Option.map_eq_some_iff] at session
    obtain ⟨previous, was, rfl⟩ := session
    exact .inr ⟨previous, was, nofun, .inl ⟨rfl, rfl⟩⟩
  | call call =>
    cases call with
    | connect =>
      obtain ⟨-, rfl⟩ := eq_of_opening moves
      cases session
      exact .inl ⟨rfl, rfl⟩
    | disconnect =>
      obtain rfl := eq_of_moved moves
      cases (disconnectIn_session traffic c).symm.trans session
    | subscribe filter qos =>
      obtain rfl := eq_of_moved moves
      rw [request_queue rfl, Option.map_eq_some_iff] at session
      obtain ⟨previous, was, rfl⟩ := session
      exact .inr ⟨previous, was, nofun, .inr rfl⟩
    | publish topic body qos =>
      obtain rfl := eq_of_moved moves
      rw [request_queue rfl, Option.map_eq_some_iff] at session
      obtain ⟨previous, was, rfl⟩ := session
      exact .inr ⟨previous, was, nofun, .inr rfl⟩

structure Queued (history : List Action) (queue : List Call) : Prop where
  bound : queue.length ≤ capacity
  requested : queue.Sublist (requestsSince history)

def Stocked (history : List Action) (c : Connection) : Prop := ∀ queue, c.session = some queue → Queued history queue

def Unsent (history : List Action) (c : Connection) : Prop :=
  ∀ queue, c.session = some queue → queue = (requestsSince history).take capacity

private theorem stocked_start (s : Settings) : Stocked [] (ofSettings s) := by
  rintro queue ⟨⟩

private theorem unsent_start (s : Settings) : Unsent [] (ofSettings s) := by
  rintro queue ⟨⟩

private theorem length_request?_le (action : Action) : action.request?.toList.length ≤ 1 := by
  cases action.request? <;> simp

theorem Stocked.step (stocked : Stocked history c) (moves : c.actIn traffic action = .ok (answer, next)) :
    Stocked (history ++ [action]) next := by
  intro queue session
  obtain ⟨-, rfl⟩ | ⟨previous, was, other, ⟨-, rfl⟩ | rfl⟩ := queue_cases moves session
  · exact ⟨Nat.zero_le capacity, List.nil_sublist _⟩
  · obtain ⟨bound, requested⟩ := stocked previous was
    refine ⟨?_, ?_⟩
    · rw [List.length_drop]
      exact Nat.le_trans (Nat.sub_le _ _) bound
    · rw [requestsSince_concat history other]
      exact ((List.drop_sublist _ previous).trans requested).trans (List.sublist_append_left _ _)
  · obtain ⟨bound, requested⟩ := stocked previous was
    have since := requestsSince_concat history other
    split
    · next room =>
      refine ⟨?_, since ▸ requested.append (List.Sublist.refl _)⟩
      have one := length_request?_le action
      rw [List.length_append]
      omega
    · exact ⟨bound, since ▸ requested.trans (List.sublist_append_left _ _)⟩

theorem Unsent.step (unsent : Unsent history c) (alone : traffic = .unreachable dial)
    (moves : c.actIn traffic action = .ok (answer, next)) : Unsent (history ++ [action]) next := by
  subst alone
  intro queue session
  obtain ⟨rfl, rfl⟩ | ⟨previous, was, other, ⟨rfl, stays⟩ | rfl⟩ := queue_cases moves session
  · rw [requestsSince_opening, List.take_nil]
  · rw [requestsSince_concat history other, stays, unsent previous was]
    simp [Traffic.unreachable, Action.request?]
  · rw [requestsSince_concat history other, unsent previous was, List.length_take]
    generalize requestsSince history = requests
    have one := length_request?_le action
    by_cases room : requests.length < capacity
    · have open_ : min capacity requests.length < capacity := by omega
      rw [if_pos ⟨rfl, open_⟩, List.take_of_length_le (Nat.le_of_lt room), List.take_of_length_le]
      rw [List.length_append]
      omega
    · have full : ¬ min capacity requests.length < capacity := by omega
      rw [if_neg fun both => full both.2, List.take_append_of_le_length (Nat.not_lt.mp room)]

/-- After every sequence of actions, whatever the broker does meanwhile, a disconnection waits for ever exactly if its request
is taken and the queue is full; else it returns within the time limit of its flush. The queue can be full only if the
connection was opened, not disconnected since, and asked for as many requests as there is room for. If the broker could
not be reached all that time, it is full whenever that is so. -/
theorem disconnection_waits_iff_full (s : Settings) (enough : leastKeepAlive ≤ s.keepAlive)
    (steps : List (Action × Traffic)) :
    let history := steps.map Prod.fst
    ∃ answers last, (ofSettings s).runIn steps = .ok (answers, last) ∧
      (∀ traffic pulls,
        let closing := last.closeIn traffic pulls
        last.actIn traffic (.call .disconnect) = .ok (closing.1.answer, closing.2) ∧
          (closing.1.time? = none ↔ traffic.accepts = true ∧ Full last) ∧
          ∀ time, closing.1.time? = some time → time ≤ flushLimit) ∧
      (Full last → Opened history ∧ capacity ≤ (requestsSince history).length) ∧
      (∀ dial, (∀ step ∈ steps, step.2 = .unreachable dial) →
        (Full last ↔ Opened history ∧ capacity ≤ (requestsSince history).length)) := by
  intro history
  obtain ⟨answers, last, runs, -⟩ := exists_runIn_of_enough (c := ofSettings s) enough steps
  have told : Told history last := runIn_keeps (told_start s) (fun _ => Told.step) runs
  have stocked : Stocked history last := runIn_keeps (stocked_start s) (fun _ => Stocked.step) runs
  have needed : Full last → Opened history ∧ capacity ≤ (requestsSince history).length := by
    rintro ⟨queue, session, full⟩
    refine ⟨told.session.mp (by rw [session]; rfl), ?_⟩
    rw [← full]
    exact (stocked queue session).requested.length_le
  refine ⟨answers, last, runs, fun traffic pulls => ⟨?_, ?_, fun time => closeIn_time_le⟩, needed, fun dial alone => ?_⟩
  · rw [closeIn_eq_disconnectIn]
    rfl
  · rw [closeIn_time?_eq_none_iff]
    refine and_congr_right fun _ => exists_congr fun queue => and_congr_right fun session => ?_
    have bound := (stocked queue session).bound
    omega
  · refine ⟨needed, fun ⟨opened, asked⟩ => ?_⟩
    have unsent : Unsent history last :=
      runIn_keeps (unsent_start s) (fun member unsent moves => unsent.step (alone _ member) moves) runs
    obtain ⟨queue, session⟩ := Option.isSome_iff_exists.mp (told.session.mpr opened)
    refine ⟨queue, session, ?_⟩
    rw [unsent queue session, List.length_take]
    omega

theorem disconnection_waits_iff_full_of_nine_requests :
    let s : Settings := ⟨"127.0.0.1", 1, 60, some "x"⟩
    let alone : Traffic := .unreachable .refused
    let steps := (.call .connect, alone) :: List.replicate 9 (.call (.subscribe Topic.wildcard .atMostOnce), alone)
    leastKeepAlive ≤ s.keepAlive ∧
      ∃ answers last, (ofSettings s).runIn steps = .ok (answers, last) ∧
        (last.closeIn alone [⟨1, true⟩, ⟨0, false⟩]).1.time? = some 1 ∧
        ∀ pulls, ∃ time ≤ flushLimit, (last.closeIn alone pulls).1.time? = some time := by
  intro s alone steps
  have enough : leastKeepAlive ≤ s.keepAlive := by decide
  obtain ⟨answers, last, runs, closes, -, fills⟩ := disconnection_waits_iff_full s enough steps
  have room : ¬ Full last := fun full => absurd ((fills .refused (by decide)).mp full).2 (by decide)
  refine ⟨enough, answers, last, runs, ?_, fun pulls => ?_⟩
  · cases runs
    rfl
  · obtain ⟨-, waits, limited⟩ := closes alone pulls
    cases returns : (last.closeIn alone pulls).1.time? with
    | none => exact absurd (waits.mp returns).2 room
    | some time => exact ⟨time, limited time returns, rfl⟩

/-- Ten requests to a broker that cannot be reached fill the queue, all of them answered, and the disconnection after them
never returns, however the polls would go that are given a limited time. -/
theorem disconnection_stuck_after_ten_requests :
    let s : Settings := ⟨"127.0.0.1", 1, 60, some "x"⟩
    let subscription : Action := .call (.subscribe Topic.wildcard .atMostOnce)
    ((Settings.ofHost "127.0.0.1").bind fun s => (s.withPort 1).withClientId "x") = .ok s ∧
      leastKeepAlive ≤ s.keepAlive ∧
      ∃ last, (ofSettings s).run .refused (.call .connect :: List.replicate 10 subscription) =
          .ok (List.replicate 11 .done, last) ∧
        (last.disconnectIn (.unreachable .refused)).1 = .waiting ∧
        ∀ pulls, (last.closeIn (.unreachable .refused) pulls).1.time? = none := by
  refine ⟨rfl, by decide, _, rfl, rfl, fun pulls => rfl⟩

end Connection
end DeviceBus.Broker
