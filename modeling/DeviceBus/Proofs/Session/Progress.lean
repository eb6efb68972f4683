import Mathlib.Order.Basic
import DeviceBus.Proofs.Session.Interleaving

/-! Every fair schedule brings a session and its reader to rest. Each action consumes a step of the script, moves a
delivery on, or ends something; nothing is put back. -/
namespace DeviceBus.Session

/-- A reader that stays, and turns for it and for the session again and again. -/
structure Fair (schedule : Nat → Actor) : Prop where
  stays : ∀ n, schedule n ≠ .departure
  recurs : ∀ actor, actor ≠ .departure → ∀ n, ∃ m, n ≤ m ∧ schedule m = actor

theorem Fair.shift {schedule : Nat → Actor} (fair : Fair schedule) (n : Nat) :
    Fair fun i => schedule (n + i) := by
  refine ⟨fun i => fair.stays (n + i), fun actor present i => ?_⟩
  obtain ⟨m, later, same⟩ := fair.recurs actor present (n + i)
  refine ⟨m - n, by omega, ?_⟩
  rw [Nat.add_sub_cancel' (by omega)]
  exact same

def alternating (n : Nat) : Actor := if n % 2 = 0 then .session else .reader

theorem alternating_fair : Fair alternating := by
  refine ⟨fun n => ?_, fun actor present n => ?_⟩
  · unfold alternating
    split <;> nofun
  · cases actor with
    | session => exact ⟨2 * n, by omega, if_pos (by omega)⟩
    | reader => exact ⟨2 * n + 1, by omega, if_neg (by omega)⟩
    | departure => exact absurd rfl present

namespace Task

/-- What the script still holds; to be in the midst of a message counts for half a step. -/
def stepsLeft : Task → Nat
  | polling _ script => 2 * script.length
  | sending _ _ script => 2 * script.length + 1
  | ended .. => 0

def waiting : Task → List Delivery
  | sending waiting _ _ => waiting
  | polling .. | ended .. => []

end Task

namespace System

variable {setup : Setup} {capacity : Nat} {schedule : Nat → Actor} {s t : System}

def handlingsLeft (s : System) : Nat := 2 * s.task.waiting.length + s.queue.length

theorem advance_decreases (moved : s.advance setup capacity = some t) :
    t.task.stepsLeft < s.task.stepsLeft ∨
      t.task.stepsLeft = s.task.stepsLeft ∧ t.handlingsLeft < s.handlingsLeft := by
  cases advance_cases moved with
  | send d waiting next script task room =>
    right
    simp only [task, Task.stepsLeft, handlingsLeft, Task.waiting, List.length_cons, List.length_append,
      List.length_nil, true_and]
    omega
  | _ =>
    left
    simp only [*, close, Task.stepsLeft, List.length_cons]
    omega

private theorem receive_decreases (moved : s.receive = some t) :
    t.task.stepsLeft = s.task.stepsLeft ∧ t.handlingsLeft < s.handlingsLeft := by
  obtain ⟨d, queue, same, rfl⟩ := receive_cases moved
  simp only [handlingsLeft, same, List.length_cons, true_and]
  omega

private theorem act_decreases {actor : Actor} (stays : actor ≠ .departure)
    (moved : s.act setup capacity actor = some t) :
    t.task.stepsLeft < s.task.stepsLeft ∨
      t.task.stepsLeft = s.task.stepsLeft ∧ t.handlingsLeft < s.handlingsLeft := by
  cases actor with
  | session => exact advance_decreases moved
  | reader => exact .inr (receive_decreases moved)
  | departure => exact absurd rfl stays

theorem afterTurns_add (schedule : Nat → Actor) (s : System) (m n : Nat) :
    afterTurns setup capacity schedule s (m + n) =
      afterTurns setup capacity (fun i => schedule (m + i)) (afterTurns setup capacity schedule s m) n := by
  induction n with
  | zero => rfl
  | succ n ih => rw [Nat.add_succ, afterTurns, afterTurns, ih]

theorem afterTurns_stuck (waits : ∀ n, s.act setup capacity (schedule n) = none) (n : Nat) :
    afterTurns setup capacity schedule s n = s := by
  induction n with
  | zero => rfl
  | succ n ih => rw [afterTurns, ih, waits n, Option.getD_none]

private theorem afterTurns_waits (schedule : Nat → Actor) (s : System) (n : Nat) :
    afterTurns setup capacity schedule s n = s ∨
      ∃ k t, s.act setup capacity (schedule k) = some t ∧ afterTurns setup capacity schedule s (k + 1) = t := by
  induction n with
  | zero => exact .inl rfl
  | succ n ih =>
    rcases ih with same | acts
    · cases moved : s.act setup capacity (schedule n) with
      | none =>
        left
        rw [afterTurns, same, moved, Option.getD_none]
      | some t =>
        refine .inr ⟨n, t, moved, ?_⟩
        rw [afterTurns, same, moved, Option.getD_some]
    · exact .inr acts

private theorem Quiet.act_none (quiet : s.Quiet setup capacity) {actor : Actor} (stays : actor ≠ .departure) :
    s.act setup capacity actor = none := by
  cases actor with
  | session => exact quiet.1
  | reader => exact quiet.2
  | departure => exact absurd rfl stays

private theorem Quiet.afterTurns_eq (quiet : s.Quiet setup capacity) (stays : ∀ n, schedule n ≠ .departure) (n : Nat) :
    afterTurns setup capacity schedule s n = s :=
  afterTurns_stuck (fun n => quiet.act_none (stays n)) n

private theorem exists_actor_of_not_quiet (busy : ¬ s.Quiet setup capacity) :
    ∃ actor t, actor ≠ .departure ∧ s.act setup capacity actor = some t := by
  cases session : s.advance setup capacity with
  | some t => exact ⟨.session, t, nofun, session⟩
  | none =>
    cases reader : s.receive with
    | some t => exact ⟨.reader, t, nofun, reader⟩
    | none => exact absurd ⟨session, reader⟩ busy

private theorem exists_turn_of_not_quiet (fair : Fair schedule) (busy : ¬ s.Quiet setup capacity) :
    ∃ k t, s.act setup capacity (schedule k) = some t ∧ afterTurns setup capacity schedule s (k + 1) = t := by
  obtain ⟨actor, t, present, moved⟩ := exists_actor_of_not_quiet busy
  obtain ⟨n, -, its⟩ := fair.recurs actor present 0
  subst its
  rcases afterTurns_waits schedule s n with same | acts
  · refine ⟨n, t, moved, ?_⟩
    rw [afterTurns, same, moved, Option.getD_some]
  · exact acts

private theorem exists_quiet (setup : Setup) (capacity : Nat) {schedule : Nat → Actor} (fair : Fair schedule) (s : System) :
    ∃ n, (afterTurns setup capacity schedule s n).Quiet setup capacity := by
  by_cases quiet : s.Quiet setup capacity
  · exact ⟨0, quiet⟩
  · obtain ⟨k, t, moved, reached⟩ := exists_turn_of_not_quiet fair quiet
    obtain ⟨n, quiet⟩ := exists_quiet setup capacity (fair.shift (k + 1)) t
    refine ⟨k + 1 + n, ?_⟩
    rw [afterTurns_add, reached]
    exact quiet
-- polling takes a step of the script and may add deliveries; every other action only works those off
termination_by (s.task.stepsLeft, s.handlingsLeft)
decreasing_by
  rw [Prod.lex_def]
  exact act_decreases (fair.stays k) moved

/-- From some turn on, the session and its channel are as they are when every delivery is taken at once. -/
theorem exists_report_eq_total (room : 0 < capacity) (fair : Fair schedule) (live : s.Live) :
    ∃ n, ∀ m, n ≤ m →
      (afterTurns setup capacity schedule s m).queue = [] ∧
        (afterTurns setup capacity schedule s m).report = s.total setup := by
  obtain ⟨n, quiet⟩ := exists_quiet setup capacity fair s
  refine ⟨n, fun m later => ?_⟩
  obtain ⟨i, rfl⟩ := Nat.exists_eq_add_of_le later
  obtain ⟨live, same⟩ := afterTurns_total setup capacity fair.stays live n
  rw [afterTurns_add, quiet.afterTurns_eq (fair.shift n).stays i, ← same]
  exact quiet_total room live quiet

end System

end DeviceBus.Session
