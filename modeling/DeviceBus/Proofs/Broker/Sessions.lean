import DeviceBus.Proofs.Broker.KeepAlive

/-! Whether a connection has a session, and whether it remembers a disconnection, told from the actions that were taken. The
last opening and the last disconnection of a session decide both, so that never both are there; what a disconnection
answers with makes no difference. Without a session all actions but an opening leave the connection as it is. -/
namespace DeviceBus.Broker.Connection

section Histories

variable {α : Type} {decisive undoing latest : α} {given : List α → Prop} {history : List α}

/-- A decisive action was taken, with a condition on what came before it, and no action after it undoes it. -/
def Prevails (decisive undoing : α) (given : List α → Prop) (history : List α) : Prop :=
  ∃ before after, history = before ++ decisive :: after ∧ given before ∧ undoing ∉ after

private theorem not_prevails_nil : ¬ Prevails decisive undoing given [] := by
  rintro ⟨before, after, same, -⟩
  simp at same

theorem prevails_concat_iff :
    Prevails decisive undoing given (history ++ [latest]) ↔
      latest = decisive ∧ given history ∨ latest ≠ undoing ∧ Prevails decisive undoing given history := by
  constructor
  · rintro ⟨before, after, same, holds, kept⟩
    rcases List.eq_nil_or_concat after with rfl | ⟨init, last, rfl⟩
    · obtain ⟨rfl, ends⟩ := List.append_inj' same rfl
      exact .inl ⟨List.singleton_inj.mp ends, holds⟩
    · rw [List.concat_eq_append] at same kept
      have whole : history ++ [latest] = (before ++ decisive :: init) ++ [last] := by simpa using same
      obtain ⟨rfl, ends⟩ := List.append_inj' whole rfl
      obtain ⟨kept, other⟩ := not_or.mp (mt List.mem_append.mpr kept)
      rw [List.singleton_inj.mp ends]
      exact .inr ⟨Ne.symm (mt List.mem_singleton.mpr other), before, init, rfl, holds, kept⟩
  · rintro (⟨rfl, holds⟩ | ⟨other, before, after, rfl, holds, kept⟩)
    · exact ⟨history, [], rfl, holds, List.not_mem_nil⟩
    · refine ⟨before, after ++ [latest], by simp, holds, ?_⟩
      rw [List.mem_append, List.mem_singleton, not_or]
      exact ⟨kept, Ne.symm other⟩

end Histories

/-- A connection was opened, and not disconnected since. -/
def Opened : List Action → Prop := Prevails (.call .connect) (.call .disconnect) fun _ => True

/-- A session was disconnected, and none opened since. -/
def Parted : List Action → Prop := Prevails (.call .disconnect) (.call .connect) Opened

variable {c next last : Connection} {history : List Action} {action : Action} {traffic : Traffic} {answer : Answer}
  {steps : List (Action × Traffic)} {answers : List Answer}

theorem opened_concat_iff :
    Opened (history ++ [action]) ↔ action = .call .connect ∨ action ≠ .call .disconnect ∧ Opened history := by
  rw [Opened, prevails_concat_iff, and_true]

theorem parted_concat_iff :
    Parted (history ++ [action]) ↔
      action = .call .disconnect ∧ Opened history ∨ action ≠ .call .connect ∧ Parted history :=
  prevails_concat_iff

/-! What an action does to the session and to the memory of a disconnection. -/

theorem request_session (c : Connection) (accepted : Bool) (request : Call) :
    (c.request accepted request).2.session =
      c.session.map fun queue => if accepted ∧ queue.length < capacity then queue ++ [request] else queue := by
  unfold Connection.request
  cases session : c.session with
  | none => exact session
  | some queue =>
    cases accepted with
    | false => simp [session]
    | true =>
      unfold Connection.push
      by_cases room : queue.length < capacity <;> simp [room, session]

@[simp] theorem request_disconnected (c : Connection) (accepted : Bool) (request : Call) :
    (c.request accepted request).2.disconnected = c.disconnected := by
  unfold Connection.request Connection.push
  repeat' split
  all_goals rfl

@[simp] theorem disconnectIn_session (traffic : Traffic) (c : Connection) : (c.disconnectIn traffic).2.session = none := by
  unfold disconnectIn
  split
  · assumption
  · rfl

private theorem disconnectIn_disconnected (traffic : Traffic) (c : Connection) :
    (c.disconnectIn traffic).2.disconnected = (c.disconnected || c.session.isSome) := by
  unfold disconnectIn
  split <;> simp [*]

theorem pollIn_session (traffic : Traffic) (c : Connection) :
    (c.pollIn traffic).2.session = c.session.map (List.drop traffic.sent) := by
  unfold pollIn
  split <;> simp [*]

@[simp] theorem pollIn_disconnected (traffic : Traffic) (c : Connection) :
    (c.pollIn traffic).2.disconnected = c.disconnected := by
  unfold pollIn
  split <;> rfl

theorem eq_of_opening (moves : c.actIn traffic (.call .connect) = .ok (answer, next)) :
    answer = .done ∧ next = { c with session := some [], disconnected := false } := by
  obtain ⟨_, _, same⟩ := except_bind_ok moves
  cases same
  exact ⟨rfl, rfl⟩

theorem eq_of_moved {made : Answer × Connection} (moves : (.ok made : Except KeepAliveFlaw _) = .ok (answer, next)) :
    made.2 = next :=
  congrArg Prod.snd (Except.ok.inj moves)

/-! From one action to all of them. -/

/-- What each of the actions keeps, with itself at the end of the history, holds after all of them. -/
theorem runIn_keeps {Kept : List Action → Connection → Prop} (kept : Kept history c)
    (step : ∀ {history c action traffic answer next}, (action, traffic) ∈ steps → Kept history c →
      c.actIn traffic action = .ok (answer, next) → Kept (history ++ [action]) next)
    (runs : c.runIn steps = .ok (answers, last)) : Kept (history ++ steps.map Prod.fst) last := by
  induction steps generalizing history c answers with
  | nil =>
    cases runs
    rw [List.map_nil, List.append_nil]
    exact kept
  | cons first rest ih =>
    obtain ⟨action, traffic⟩ := first
    obtain ⟨⟨answer, next⟩, moves, more⟩ := except_bind_ok runs
    obtain ⟨⟨others, end_⟩, later, same⟩ := except_bind_ok more
    cases same
    have here := step List.mem_cons_self kept moves
    have whole := ih here (fun member => step (List.mem_cons_of_mem _ member)) later
    rwa [List.append_assoc, List.singleton_append] at whole

/-- A connection is as its history tells. -/
structure Told (history : List Action) (c : Connection) : Prop where
  session : c.session.isSome = true ↔ Opened history
  disconnected : c.disconnected = true ↔ Parted history
  apart : ¬ (c.session.isSome = true ∧ c.disconnected = true)

theorem told_start (s : Settings) : Told [] (ofSettings s) :=
  ⟨iff_of_false nofun not_prevails_nil, iff_of_false nofun not_prevails_nil, nofun⟩

private theorem Told.unmoved (told : Told history c) (opens : action ≠ .call .connect) (parts : action ≠ .call .disconnect)
    (session : next.session.isSome = c.session.isSome) (same : next.disconnected = c.disconnected) :
    Told (history ++ [action]) next := by
  refine ⟨?_, ?_, ?_⟩
  · rw [session, told.session, opened_concat_iff]
    simp [opens, parts]
  · rw [same, told.disconnected, parted_concat_iff]
    simp [opens, parts]
  · rw [session, same]
    exact told.apart

theorem Told.step (told : Told history c) (moves : c.actIn traffic action = .ok (answer, next)) :
    Told (history ++ [action]) next := by
  cases action with
  | poll =>
    obtain rfl := eq_of_moved moves
    exact told.unmoved nofun nofun (by rw [pollIn_session, Option.isSome_map]) (by simp)
  | call call =>
    cases call with
    | connect =>
      obtain ⟨-, rfl⟩ := eq_of_opening moves
      refine ⟨?_, ?_, nofun⟩
      · simp [opened_concat_iff]
      · simp [parted_concat_iff]
    | subscribe filter qos =>
      obtain rfl := eq_of_moved moves
      exact told.unmoved nofun nofun (by rw [request_session, Option.isSome_map]) (by simp)
    | publish topic body qos =>
      obtain rfl := eq_of_moved moves
      exact told.unmoved nofun nofun (by rw [request_session, Option.isSome_map]) (by simp)
    | disconnect =>
      obtain rfl := eq_of_moved moves
      refine ⟨?_, ?_, by simp⟩
      · simp [opened_concat_iff]
      · rw [disconnectIn_disconnected, Bool.or_eq_true, told.disconnected, told.session, parted_concat_iff]
        simp [or_comm]

/-- After every sequence of actions, whatever the broker does meanwhile and whatever the actions were answered with, a
connection has a session exactly if it was opened and not disconnected since, and remembers a disconnection exactly if that
ended a session and none was opened since. A connection without a session refuses requests as not connected, is done with a
disconnection at once, tells a poll which of the two it is, and stays as it is. One with a session loses it by a
disconnection, even if the last request is refused. -/
theorem session_follows_history (s : Settings) (enough : leastKeepAlive ≤ s.keepAlive) (steps : List (Action × Traffic)) :
    ∃ answers last, (ofSettings s).runIn steps = .ok (answers, last) ∧ answers.length = steps.length ∧
      (last.session.isSome = true ↔ Opened (steps.map Prod.fst)) ∧
      (last.disconnected = true ↔ Parted (steps.map Prod.fst)) ∧
      ¬ (last.session.isSome = true ∧ last.disconnected = true) ∧
      (last.session = none → ∀ traffic,
        (∀ filter qos, last.actIn traffic (.call (.subscribe filter qos)) =
          .ok (.refused ⟨.transport, "The transport is not connected"⟩, last)) ∧
        (∀ topic body qos, last.actIn traffic (.call (.publish topic body qos)) =
          .ok (.refused ⟨.transport, "The transport is not connected"⟩, last)) ∧
        last.actIn traffic (.call .disconnect) = .ok (.done, last) ∧
        last.actIn traffic .poll =
          .ok (.polled (if last.disconnected then .disconnected else .failed 4 "The transport is not connected"), last)) ∧
      (last.session.isSome = true → ∀ traffic, traffic.accepts = false →
        last.actIn traffic (.call .disconnect) =
          .ok (.refused ⟨.transport, "Failed to send mqtt requests to eventloop"⟩,
            { last with session := none, disconnected := true })) := by
  obtain ⟨answers, last, runs, length⟩ := exists_runIn_of_enough (c := ofSettings s) enough steps
  have told : Told (steps.map Prod.fst) last := runIn_keeps (told_start s) (fun _ => Told.step) runs
  refine ⟨answers, last, runs, length, told.session, told.disconnected, told.apart, ?_, ?_⟩
  · intro none traffic
    refine ⟨fun filter qos => ?_, fun topic body qos => ?_, ?_, ?_⟩
    · simp only [actIn, Connection.request, none]
      rfl
    · simp only [actIn, Connection.request, none]
      rfl
    · simp only [actIn, disconnectIn, none]
    · simp only [actIn, pollIn, none]
      rfl
  · intro some traffic refuses
    obtain ⟨queue, session⟩ := Option.isSome_iff_exists.mp some
    simp only [actIn, disconnectIn, session, refuses]
    rfl

theorem session_follows_history_of_refused_disconnection :
    let s : Settings := ⟨"127.0.0.1", 1, 60, some "x"⟩
    let refusing : Traffic := ⟨none, 0, false⟩
    leastKeepAlive ≤ s.keepAlive ∧
      ∃ last, (ofSettings s).runIn
          [(.call .connect, refusing), (.call .disconnect, refusing), (.call .disconnect, refusing)] =
          .ok ([.done, .refused .refusedRequest, .done], last) ∧
        last.session = none ∧ last.disconnected = true ∧
        last.actIn refusing .poll = .ok (.polled .disconnected, last) := by
  intro s refusing
  have enough : leastKeepAlive ≤ s.keepAlive := by decide
  obtain ⟨answers, last, runs, -, -, parted, -, alone, -⟩ := session_follows_history s enough
    [(.call .connect, refusing), (.call .disconnect, refusing), (.call .disconnect, refusing)]
  have told : last.disconnected = true :=
    parted.mpr ⟨[.call .connect], [.call .disconnect], rfl, ⟨[], [], rfl, trivial, by decide⟩, by decide⟩
  have answered : answers = [.done, .refused .refusedRequest, .done] := by
    cases runs
    rfl
  have none : last.session = none := by
    cases runs
    rfl
  obtain ⟨-, -, -, polled⟩ := alone none refusing
  rw [told] at polled
  exact ⟨enough, last, answered ▸ runs, none, told, polled⟩

end DeviceBus.Broker.Connection
