import DeviceBus.Session.Run

/-! A session and the reader of its deliveries side by side. Between them is a channel of bounded capacity. The
session hands over one delivery at a time and waits while the channel is full; the reader takes the oldest
one, or goes away. A schedule says who has the next turn; who cannot act lets it pass.

What is received, queued and still to come adds up to the report of a session whose reader takes every
delivery at once: every action of a reader that stays keeps that sum. -/
namespace DeviceBus.Session

inductive Task
  | polling (phase : Phase) (script : List Step)
  | sending (waiting : List Delivery) (next : Next) (script : List Step)
  | ended (phase : Phase) (exit : Exit)

structure System where
  task : Task
  entries : List Entry
  queue : List Delivery
  received : List Delivery
  attended : Bool

inductive Actor
  | session
  | reader
  | departure
deriving DecidableEq, Repr

namespace Task

def exit? : Task → Option Exit
  | ended _ exit => some exit
  | polling .. | sending .. => none

def phase : Task → Phase
  | polling phase _ | sending _ (.stay phase) _ | sending _ (.finish phase _) _ | ended phase _ => phase

def script : Task → List Step
  | polling _ script | sending _ _ script => script
  | ended .. => []

def rest (setup : Setup) : Task → Report
  | polling phase script => follow setup phase .drained script
  | sending waiting (.stay phase) script => .after [] waiting (follow setup phase .drained script)
  | sending waiting (.finish phase exit) _ => .after [] waiting (.ended [] phase exit)
  | ended phase exit => .ended [] phase exit

end Task

namespace System

def start (setup : Setup) (cancelled : Bool) (script : List Step) : System :=
  match setup.failures.connect with
  | some info =>
    ⟨.ended .faulted (.faulted Broker.noConnection),
      [.call .connect, .log (.cannotConnect (callError info))], [], [], true⟩
  | none =>
    if cancelled then
      ⟨.ended .disconnected .disconnected, .call .connect :: .log .cancelled :: leave setup.failures,
        [], [], true⟩
    else ⟨.polling .connecting script, [.call .connect], [], [], true⟩

def close (setup : Setup) (notice : Notice) (s : System) : System :=
  { s with
    task := .ended .disconnected .disconnected
    entries := s.entries ++ .log notice :: leave setup.failures }

def takeLeave (s : System) : System :=
  { s with received := s.received ++ s.queue, queue := [], attended := false }

/-- The next action of the session; nothing, where it has to wait or has ended. -/
def advance (setup : Setup) (capacity : Nat) (s : System) : Option System :=
  match s.task with
  | .polling _ [] => none
  | .polling phase (.wait _ :: script) => some { s with task := .polling phase script }
  | .polling phase (.dropReceiver :: script) => some { s.takeLeave with task := .polling phase script }
  | .polling _ (.cancel :: _) => some (s.close setup .cancelled)
  | .polling phase (.event event :: script) =>
    let turn := turn setup phase event
    some { s with
      task := .sending turn.deliveries turn.next script
      entries := s.entries ++ .poll event :: turn.entries }
  | .sending [] (.stay phase) script => some { s with task := .polling phase script }
  | .sending [] (.finish phase exit) _ => some { s with task := .ended phase exit }
  | .sending (d :: waiting) next script =>
    if !s.attended then some (s.close setup .receiverDropped)
    else if s.queue.length < capacity then
      some { s with task := .sending waiting next script, queue := s.queue ++ [d] }
    else none
  | .ended .. => none

def receive (s : System) : Option System :=
  match s.attended, s.queue with
  | true, d :: queue => some { s with queue := queue, received := s.received ++ [d] }
  | _, _ => none

def depart (s : System) : Option System :=
  if s.attended then some { s with queue := [], attended := false } else none

def act (setup : Setup) (capacity : Nat) (s : System) : Actor → Option System
  | .session => s.advance setup capacity
  | .reader => s.receive
  | .departure => s.depart

def afterTurns (setup : Setup) (capacity : Nat) (schedule : Nat → Actor) (s : System) : Nat → System
  | 0 => s
  | n + 1 =>
    let now := afterTurns setup capacity schedule s n
    (now.act setup capacity (schedule n)).getD now

def report (s : System) : Report := ⟨s.entries, s.received, s.task.phase, s.task.exit?⟩

def Quiet (setup : Setup) (capacity : Nat) (s : System) : Prop :=
  s.advance setup capacity = none ∧ s.receive = none

end System

namespace Report

theorem after_after (entries entries' : List Entry) (deliveries deliveries' : List Delivery) (r : Report) :
    after entries deliveries (after entries' deliveries' r) =
      after (entries ++ entries') (deliveries ++ deliveries') r := by
  simp only [after, List.append_assoc]

theorem after_ended (entries entries' : List Entry) (deliveries : List Delivery) (phase : Phase) (exit : Exit) :
    after entries deliveries (ended entries' phase exit) = ⟨entries ++ entries', deliveries, phase, exit⟩ := by
  simp only [after, ended, List.append_nil]

theorem after_nil (r : Report) : after [] [] r = r := rfl

end Report

theorem send_drained (deliveries : List Delivery) :
    Channel.send .drained deliveries = (deliveries, .all .drained) := by
  induction deliveries with
  | nil => rfl
  | cons d rest ih => rw [Channel.send, ih]

private theorem follow_event_drained (setup : Setup) (phase : Phase) (event : Broker.Event) (script : List Step) :
    follow setup phase .drained (.event event :: script) =
      .after (.poll event :: (turn setup phase event).entries) []
        ((Task.sending (turn setup phase event).deliveries (turn setup phase event).next script).rest setup) := by
  rw [follow]
  simp only [send_drained]
  cases (turn setup phase event).next with
  | stay phase =>
    rw [Task.rest, Report.after_after, List.append_nil, List.nil_append]
  | finish phase exit =>
    rw [Task.rest, Report.after_after, List.append_nil, List.nil_append]

namespace System

variable {setup : Setup} {capacity : Nat} {s t : System} {actor : Actor}

inductive Advance (setup : Setup) (capacity : Nat) (s : System) : System → Prop
  | wait (phase : Phase) (ms : Nat) (script : List Step) (task : s.task = .polling phase (.wait ms :: script)) :
    Advance setup capacity s { s with task := .polling phase script }
  | takeLeave (phase : Phase) (script : List Step) (task : s.task = .polling phase (.dropReceiver :: script)) :
    Advance setup capacity s { s.takeLeave with task := .polling phase script }
  | cancel (phase : Phase) (script : List Step) (task : s.task = .polling phase (.cancel :: script)) :
    Advance setup capacity s (s.close setup .cancelled)
  | poll (phase : Phase) (event : Broker.Event) (script : List Step)
    (task : s.task = .polling phase (.event event :: script)) :
    Advance setup capacity s { s with
      task := .sending (turn setup phase event).deliveries (turn setup phase event).next script
      entries := s.entries ++ .poll event :: (turn setup phase event).entries }
  | stay (phase : Phase) (script : List Step) (task : s.task = .sending [] (.stay phase) script) :
    Advance setup capacity s { s with task := .polling phase script }
  | finish (phase : Phase) (exit : Exit) (script : List Step) (task : s.task = .sending [] (.finish phase exit) script) :
    Advance setup capacity s { s with task := .ended phase exit }
  | giveUp (d : Delivery) (waiting : List Delivery) (next : Next) (script : List Step)
    (task : s.task = .sending (d :: waiting) next script) (alone : s.attended = false) :
    Advance setup capacity s (s.close setup .receiverDropped)
  | send (d : Delivery) (waiting : List Delivery) (next : Next) (script : List Step)
    (task : s.task = .sending (d :: waiting) next script) (room : s.queue.length < capacity) :
    Advance setup capacity s { s with task := .sending waiting next script, queue := s.queue ++ [d] }

theorem advance_cases (moved : s.advance setup capacity = some t) : Advance setup capacity s t := by
  unfold advance at moved
  split at moved
  case h_1 => cases moved
  case h_2 phase ms script task => cases moved; exact .wait phase ms script task
  case h_3 phase script task => cases moved; exact .takeLeave phase script task
  case h_4 phase script task => cases moved; exact .cancel phase script task
  case h_5 phase event script task => cases moved; exact .poll phase event script task
  case h_6 phase script task => cases moved; exact .stay phase script task
  case h_7 phase exit script task => cases moved; exact .finish phase exit script task
  case h_8 d waiting next script task =>
    split at moved
    · next alone =>
      cases moved
      exact .giveUp d waiting next script task (Bool.not_eq_true' _ ▸ alone)
    · split at moved
      · next room => cases moved; exact .send d waiting next script task room
      · cases moved
  case h_9 => cases moved

theorem receive_cases (moved : s.receive = some t) :
    ∃ d queue, s.queue = d :: queue ∧ t = { s with queue := queue, received := s.received ++ [d] } := by
  unfold receive at moved
  split at moved
  case h_1 d queue here same => cases moved; exact ⟨d, queue, same, rfl⟩
  case h_2 => cases moved

theorem afterTurns_invariant {P : System → Prop} {schedule : Nat → Actor}
    (kept : ∀ n s t, P s → s.act setup capacity (schedule n) = some t → P t) (start : P s) (n : Nat) :
    P (afterTurns setup capacity schedule s n) := by
  induction n with
  | zero => exact start
  | succ n ih =>
    rw [afterTurns]
    cases moved : (afterTurns setup capacity schedule s n).act setup capacity (schedule n) with
    | none => exact ih
    | some t => exact kept n _ t ih moved

/-- What is known of a session, together with what is queued and still to come. -/
def total (setup : Setup) (s : System) : Report :=
  .after s.entries (s.received ++ s.queue) (s.task.rest setup)

structure Live (s : System) : Prop where
  attended : s.attended = true
  remains : .dropReceiver ∉ s.task.script

theorem advance_total (live : s.Live) (moved : s.advance setup capacity = some t) :
    t.Live ∧ t.total setup = s.total setup := by
  obtain ⟨here, remains⟩ := live
  cases advance_cases moved with
  | wait phase ms script task =>
    rw [task] at remains
    refine ⟨⟨here, List.not_mem_of_not_mem_cons remains⟩, ?_⟩
    simp only [total, task, Task.rest, follow]
  | takeLeave phase script task =>
    rw [task] at remains
    exact absurd List.mem_cons_self remains
  | cancel phase script task =>
    refine ⟨⟨here, List.not_mem_nil⟩, ?_⟩
    simp only [total, task, close, Task.rest, follow, Report.closing, Report.after_ended, List.append_nil]
  | poll phase event script task =>
    rw [task] at remains
    refine ⟨⟨here, List.not_mem_of_not_mem_cons remains⟩, ?_⟩
    simp only [total, task, Task.rest, follow_event_drained, Report.after_after, List.append_nil]
  | stay phase script task =>
    rw [task] at remains
    refine ⟨⟨here, remains⟩, ?_⟩
    simp only [total, task, Task.rest, Report.after_nil]
  | finish phase exit script task =>
    refine ⟨⟨here, List.not_mem_nil⟩, ?_⟩
    simp only [total, task, Task.rest, Report.after_nil]
  | giveUp d waiting next script task alone =>
    rw [alone] at here
    cases here
  | send d waiting next script task room =>
    rw [task] at remains
    refine ⟨⟨here, remains⟩, ?_⟩
    cases next <;>
      simp only [total, task, Task.rest, Report.after_after, List.append_assoc, List.append_nil,
        List.singleton_append]

private theorem receive_total (live : s.Live) (moved : s.receive = some t) :
    t.Live ∧ t.total setup = s.total setup := by
  obtain ⟨d, queue, same, rfl⟩ := receive_cases moved
  refine ⟨⟨live.attended, live.remains⟩, ?_⟩
  simp only [total, same, List.append_assoc, List.singleton_append]

private theorem act_total (live : s.Live) (stays : actor ≠ .departure) (moved : s.act setup capacity actor = some t) :
    t.Live ∧ t.total setup = s.total setup := by
  cases actor with
  | session => exact advance_total live moved
  | reader => exact receive_total live moved
  | departure => exact absurd rfl stays

theorem afterTurns_total (setup : Setup) (capacity : Nat) {schedule : Nat → Actor}
    (stays : ∀ n, schedule n ≠ .departure) (live : s.Live) (n : Nat) :
    (afterTurns setup capacity schedule s n).Live ∧
      (afterTurns setup capacity schedule s n).total setup = s.total setup := by
  apply afterTurns_invariant (P := fun t => t.Live ∧ t.total setup = s.total setup)
  · intro n before after known moved
    obtain ⟨live, same⟩ := act_total known.1 (stays n) moved
    exact ⟨live, same.trans known.2⟩
  · exact ⟨live, rfl⟩

theorem start_live (setup : Setup) (cancelled : Bool) {script : List Step} (remains : .dropReceiver ∉ script) :
    (start setup cancelled script).Live := by
  unfold start
  split
  · exact ⟨rfl, List.not_mem_nil⟩
  · split
    · exact ⟨rfl, List.not_mem_nil⟩
    · exact ⟨rfl, remains⟩

theorem start_total (setup : Setup) (cancelled : Bool) (script : List Step) :
    (start setup cancelled script).total setup = run setup .drained cancelled script := by
  unfold start run
  cases setup.failures.connect with
  | some info => rfl
  | none =>
    cases cancelled with
    | true =>
      simp only [if_true, total, Task.rest, Report.closing, Report.after_ended, List.append_nil,
        List.singleton_append]
    | false => rfl

theorem deliveries_prefix_total (setup : Setup) (s : System) :
    s.received ++ s.queue <+: (s.total setup).deliveries :=
  List.prefix_append _ _

theorem entries_prefix_total (setup : Setup) (s : System) : s.entries <+: (s.total setup).entries :=
  List.prefix_append _ _

theorem exit_total (setup : Setup) {exit : Exit} (exited : s.task.exit? = some exit) :
    (s.total setup).exit = some exit := by
  obtain ⟨task, entries, queue, received, attended⟩ := s
  cases task with
  | ended phase its => exact exited
  | polling => cases exited
  | sending => cases exited

theorem act_queue_le (fits : s.queue.length ≤ capacity) (moved : s.act setup capacity actor = some t) :
    t.queue.length ≤ capacity := by
  cases actor with
  | session =>
    cases advance_cases moved with
    | send d waiting next script task room =>
      rw [List.length_append]
      exact room
    | takeLeave => exact Nat.zero_le _
    | _ => exact fits
  | reader =>
    obtain ⟨d, queue, same, rfl⟩ := receive_cases moved
    rw [same] at fits
    exact Nat.le_of_succ_le fits
  | departure =>
    rw [act, depart] at moved
    split at moved
    · cases moved
      exact Nat.zero_le _
    · cases moved

theorem afterTurns_queue_le (setup : Setup) (schedule : Nat → Actor) (fits : s.queue.length ≤ capacity) (n : Nat) :
    (afterTurns setup capacity schedule s n).queue.length ≤ capacity :=
  afterTurns_invariant (fun _ _ _ => act_queue_le) fits n

theorem start_queue (setup : Setup) (cancelled : Bool) (script : List Step) :
    (start setup cancelled script).queue = [] := by
  unfold start
  split
  · rfl
  · split <;> rfl

/-- With room for one delivery in its channel, a system comes to rest only with every delivery received. -/
theorem quiet_total (room : 0 < capacity) (live : s.Live) (quiet : s.Quiet setup capacity) :
    s.queue = [] ∧ s.report = s.total setup := by
  obtain ⟨task, entries, queue, received, attended⟩ := s
  obtain ⟨here, remains⟩ := live
  obtain ⟨waits, idle⟩ := quiet
  simp only at here
  subst here
  have empty : queue = [] := by
    cases queue with
    | nil => rfl
    | cons d queue => cases idle
  subst empty
  refine ⟨rfl, ?_⟩
  cases task with
  | polling phase script =>
    cases script with
    | nil =>
      simp only [report, total, Task.rest, Task.phase, Task.exit?, follow, Report.pending, Report.after,
        List.append_nil]
    | cons step script => cases step <;> cases waits
  | sending waiting next script =>
    cases waiting with
    | nil => cases next <;> cases waits
    | cons d waiting =>
      -- the queue is empty and there is room in it, so the session would go on
      simp only [advance, Bool.not_true, Bool.false_eq_true, if_false, List.length_nil, room, if_true] at waits
      cases waits
  | ended phase exit =>
    simp only [report, total, Task.rest, Task.phase, Task.exit?, Report.after_ended, List.append_nil]

end System

end DeviceBus.Session
