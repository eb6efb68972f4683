import DeviceBus.Proofs.Session.Continuation

/-! A session whose deliveries nobody takes. Where all turns are its own, its channel fills up, and it comes to rest
as the report with an unread channel says: what is in the channel, and what still fits in, adds up to that. -/
namespace DeviceBus.Session

open Broker (Event)

def Next.resume (setup : Setup) (channel : Channel) (script : List Step) : Next → Report
  | stay phase => follow setup phase channel script
  | finish phase exit => .ended [] phase exit

namespace Task

/-- How a session goes on from its task with room for so many deliveries that nobody takes. -/
def restUnread (setup : Setup) (room : Nat) : Task → Report
  | polling phase script => follow setup phase (.unread room) script
  | sending waiting next script =>
    if waiting.length ≤ room then .after [] waiting (next.resume setup (.unread (room - waiting.length)) script)
    else .after [] (waiting.take room) (.pending (sending waiting next script).phase)
  | ended phase exit => .ended [] phase exit

end Task

private theorem follow_event_unread (setup : Setup) (phase : Phase) (room : Nat) (event : Event) (script : List Step) :
    follow setup phase (.unread room) (.event event :: script) =
      .after (.poll event :: (turn setup phase event).entries) []
        ((Task.sending (turn setup phase event).deliveries (turn setup phase event).next script).restUnread setup room) := by
  have reaction := turn_reaction setup phase event
  rw [follow]
  generalize turn setup phase event = turn at reaction
  simp only [send_unread, Task.restUnread]
  by_cases fits : turn.deliveries.length ≤ room
  · rw [if_pos fits, if_pos fits, Report.after_after, List.append_nil, List.nil_append]
    cases turn.next <;> rfl
  · -- only a message has deliveries that could be too many, and it leaves the phase as it is
    have stay := reaction.stays (List.ne_nil_of_length_pos (by omega))
    rw [if_neg fits, if_neg fits, stay, Report.after_after, List.append_nil, List.nil_append]
    rfl

namespace System

variable {setup : Setup} {capacity : Nat} {s t : System}

structure Unread (capacity : Nat) (s : System) : Prop extends Live s where
  received : s.received = []
  within : s.queue.length ≤ capacity

/-- What is known of a session, together with what is in its channel and still fits in. -/
def totalUnread (setup : Setup) (capacity : Nat) (s : System) : Report :=
  .after s.entries s.queue (s.task.restUnread setup (capacity - s.queue.length))

private theorem advance_unread (unread : s.Unread capacity) (moved : s.advance setup capacity = some t) :
    t.Unread capacity ∧ t.totalUnread setup capacity = s.totalUnread setup capacity := by
  have live := (advance_total unread.toLive moved).1
  have acts : s.act setup capacity .session = some t := moved
  have within := act_queue_le unread.within acts
  obtain ⟨⟨here, remains⟩, received, -⟩ := unread
  cases advance_cases moved with
  | wait phase ms script task =>
    refine ⟨⟨live, received, within⟩, ?_⟩
    simp only [totalUnread, task, Task.restUnread, follow]
  | takeLeave phase script task =>
    rw [task] at remains
    exact absurd List.mem_cons_self remains
  | cancel phase script task =>
    refine ⟨⟨live, received, within⟩, ?_⟩
    simp only [totalUnread, task, close, Task.restUnread, follow, Report.closing, Report.after_ended, List.append_nil]
  | poll phase event script task =>
    refine ⟨⟨live, received, within⟩, ?_⟩
    simp only [totalUnread, task, Task.restUnread, follow_event_unread, Report.after_after, List.append_nil]
  | stay phase script task =>
    refine ⟨⟨live, received, within⟩, ?_⟩
    simp [totalUnread, task, Task.restUnread, Next.resume, Report.after_nil]
  | finish phase exit script task =>
    refine ⟨⟨live, received, within⟩, ?_⟩
    simp [totalUnread, task, Task.restUnread, Next.resume, Report.after_nil]
  | giveUp d waiting next script task alone =>
    rw [alone] at here
    cases here
  | send d waiting next script task room =>
    refine ⟨⟨live, received, within⟩, ?_⟩
    obtain ⟨left, same⟩ : ∃ left, capacity - s.queue.length = left + 1 := ⟨_, (Nat.succ_pred (by omega)).symm⟩
    have fewer : capacity - (s.queue ++ [d]).length = left := by
      rw [List.length_append, List.length_singleton]
      omega
    have phase : (Task.sending (d :: waiting) next script).phase = (Task.sending waiting next script).phase := by
      cases next <;> rfl
    simp only [totalUnread, task, fewer, same, Task.restUnread, List.length_cons, Nat.add_le_add_iff_right, phase,
      Nat.add_sub_add_right, List.take_succ_cons]
    by_cases fits : waiting.length ≤ left
    · simp only [if_pos fits, Report.after_after, List.append_assoc, List.singleton_append]
    · simp only [if_neg fits, Report.after_after, List.append_assoc, List.singleton_append]

private theorem waiting_total (unread : s.Unread capacity) (waits : s.advance setup capacity = none) :
    (⟨s.entries, s.queue, s.task.phase, s.task.exit?⟩ : Report) = s.totalUnread setup capacity := by
  obtain ⟨task, entries, queue, received, attended⟩ := s
  obtain ⟨⟨here, remains⟩, -, -⟩ := unread
  simp only at here
  subst here
  cases task with
  | polling phase script =>
    cases script with
    | nil => simp [totalUnread, Task.restUnread, Task.phase, Task.exit?, follow, Report.pending, Report.after]
    | cons step script => cases step <;> cases waits
  | sending waiting next script =>
    cases waiting with
    | nil => cases next <;> cases waits
    | cons d waiting =>
      have full : capacity - queue.length = 0 := by
        by_cases room : queue.length < capacity
        · simp [advance, room] at waits
        · omega
      simp [totalUnread, Task.restUnread, full, Task.exit?, Report.pending, Report.after]
  | ended phase exit => simp [totalUnread, Task.restUnread, Task.phase, Task.exit?, Report.ended, Report.after]

private theorem exists_waiting (setup : Setup) (capacity : Nat) (s : System) :
    ∃ n, (afterTurns setup capacity (fun _ => .session) s n).advance setup capacity = none := by
  cases moved : s.advance setup capacity with
  | none => exact ⟨0, moved⟩
  | some t =>
    obtain ⟨n, waits⟩ := exists_waiting setup capacity t
    refine ⟨1 + n, ?_⟩
    have first : afterTurns setup capacity (fun _ => .session) s 1 = t := by
      rw [afterTurns, afterTurns, act, moved, Option.getD_some]
    rw [afterTurns_add, first]
    exact waits
termination_by (s.task.stepsLeft, s.handlingsLeft)
decreasing_by
  rw [Prod.lex_def]
  exact advance_decreases moved

theorem afterTurns_unread (setup : Setup) (unread : s.Unread capacity) (n : Nat) :
    let now := afterTurns setup capacity (fun _ => .session) s n
    now.Unread capacity ∧ now.totalUnread setup capacity = s.totalUnread setup capacity := by
  apply afterTurns_invariant
    (P := fun t => t.Unread capacity ∧ t.totalUnread setup capacity = s.totalUnread setup capacity)
  · intro k before after known moved
    obtain ⟨unread, same⟩ := advance_unread known.1 moved
    exact ⟨unread, same.trans known.2⟩
  · exact ⟨unread, rfl⟩

private theorem start_unread (setup : Setup) (capacity : Nat) (cancelled : Bool) {script : List Step}
    (remains : .dropReceiver ∉ script) :
    (start setup cancelled script).Unread capacity ∧
      (start setup cancelled script).totalUnread setup capacity = run setup (.unread capacity) cancelled script := by
  have live := start_live setup cancelled remains
  have begins : (start setup cancelled script).received = [] ∧ (start setup cancelled script).totalUnread setup capacity =
      run setup (.unread capacity) cancelled script := by
    unfold start run
    cases setup.failures.connect with
    | some info => exact ⟨rfl, rfl⟩
    | none =>
      cases cancelled with
      | true => simp [totalUnread, Task.restUnread, Report.closing, Report.ended, Report.after]
      | false => exact ⟨rfl, rfl⟩
  refine ⟨⟨live, begins.1, ?_⟩, begins.2⟩
  rw [start_queue]
  exact Nat.zero_le capacity

/-- From some turn on a session whose deliveries nobody takes does not act any more; they are in its channel, and the
rest is as its report says. -/
theorem exists_waiting_run (setup : Setup) (capacity : Nat) (cancelled : Bool) {script : List Step}
    (remains : .dropReceiver ∉ script) :
    ∃ n, ∀ m, n ≤ m →
      let now := afterTurns setup capacity (fun _ => .session) (start setup cancelled script) m
      now.advance setup capacity = none ∧ now.received = [] ∧
        (⟨now.entries, now.queue, now.task.phase, now.task.exit?⟩ : Report) =
          run setup (.unread capacity) cancelled script := by
  obtain ⟨begins, total⟩ := start_unread setup capacity cancelled remains
  obtain ⟨n, waits⟩ := exists_waiting setup capacity (start setup cancelled script)
  refine ⟨n, fun m later => ?_⟩
  obtain ⟨i, rfl⟩ := Nat.exists_eq_add_of_le later
  obtain ⟨unread, same⟩ := afterTurns_unread setup begins n
  have idle : ∀ _ : Nat, act setup capacity (afterTurns setup capacity (fun _ => .session) _ n) .session = none :=
    fun _ => waits
  rw [afterTurns_add, afterTurns_stuck idle i]
  exact ⟨waits, unread.received, (waiting_total unread waits).trans (same.trans total)⟩

end System

end DeviceBus.Session
