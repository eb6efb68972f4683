import DeviceBus.Broker.Connection
import DeviceBus.Outcome

/-! The interval between keep-alive messages. The settings take any; it is checked where a connection is opened, and one
that is too short aborts the caller there. Nothing else that is done with a connection aborts. -/
namespace DeviceBus.Broker

namespace Settings

variable {s made : Settings} {host clientId : String}

theorem ofHost_ok_iff :
    ofHost host = .ok made ↔
      (Blank.trim host.toList).isEmpty = false ∧ ⟨host, defaultPort, defaultKeepAlive, none⟩ = made := by
  unfold ofHost
  cases (Blank.trim host.toList).isEmpty <;> simp

theorem withClientId_ok_iff :
    s.withClientId clientId = .ok made ↔ clientId ≠ "" ∧ { s with clientId := some clientId } = made := by
  unfold withClientId
  by_cases named : clientId = "" <;> simp [named]

/-- What can be made of a host by setting the other parts, in any order and any number of times. -/
inductive Built : Settings → Prop
  | host {host : String} {s : Settings} (made : ofHost host = .ok s) : Built s
  | port {s : Settings} (built : Built s) (port : UInt16) : Built (s.withPort port)
  | keepAlive {s : Settings} (built : Built s) (seconds : UInt16) : Built (s.withKeepAlive seconds)
  | clientId {s s' : Settings} {clientId : String} (built : Built s) (made : s.withClientId clientId = .ok s') : Built s'

theorem built_iff : s.Built ↔ (Blank.trim s.host.toList).isEmpty = false ∧ s.clientId ≠ some "" := by
  constructor
  · intro built
    induction built with
    | host made =>
      obtain ⟨filled, rfl⟩ := ofHost_ok_iff.mp made
      exact ⟨filled, nofun⟩
    | port _ _ ih => exact ih
    | keepAlive _ _ ih => exact ih
    | clientId _ made ih =>
      obtain ⟨named, rfl⟩ := withClientId_ok_iff.mp made
      exact ⟨ih.1, fun empty => named (Option.some.inj empty)⟩
  · obtain ⟨host, port, seconds, clientId⟩ := s
    rintro ⟨filled, named⟩
    have unnamed : Built ⟨host, port, seconds, none⟩ :=
      .keepAlive (.port (.host (ofHost_ok_iff.mpr ⟨filled, rfl⟩)) port) seconds
    cases clientId with
    | none => exact unnamed
    | some clientId =>
      exact unnamed.clientId (withClientId_ok_iff.mpr ⟨fun empty => named (congrArg some empty), rfl⟩)

end Settings

namespace Connection

variable {c : Connection}

/-! One action, and a whole run. -/

@[simp] theorem request_settings (c : Connection) (accepted : Bool) (request : Call) :
    (c.request accepted request).2.settings = c.settings := by
  unfold Connection.request Connection.push
  repeat' split
  all_goals rfl

@[simp] theorem disconnectIn_settings (traffic : Traffic) (c : Connection) :
    (c.disconnectIn traffic).2.settings = c.settings := by
  unfold disconnectIn
  split <;> rfl

@[simp] theorem pollIn_settings (traffic : Traffic) (c : Connection) :
    (c.pollIn traffic).2.settings = c.settings := by
  unfold pollIn
  split <;> rfl

def Aborts (s : Settings) (action : Action) : Prop := action = .call .connect ∧ s.keepAlive < leastKeepAlive

theorem actIn_cases (c : Connection) (traffic : Traffic) (action : Action) :
    (Aborts c.settings action ∧ c.actIn traffic action = .error .tooShort) ∨
      (¬ Aborts c.settings action ∧
        ∃ answer next, c.actIn traffic action = .ok (answer, next) ∧ next.settings = c.settings) := by
  cases action with
  | poll => exact .inr ⟨nofun, _, _, rfl, pollIn_settings traffic c⟩
  | call call =>
    cases call with
    | connect =>
      by_cases short : c.settings.keepAlive < leastKeepAlive
      · left
        exact ⟨⟨rfl, short⟩, by simp [actIn, Settings.checkKeepAlive, short, bind, Except.bind]⟩
      · right
        refine ⟨fun aborts => short aborts.2, .done, { c with session := some [], disconnected := false }, ?_, rfl⟩
        simp [actIn, Settings.checkKeepAlive, short, bind, Except.bind, pure, Except.pure]
    | subscribe filter qos => exact .inr ⟨nofun, _, _, rfl, request_settings c _ _⟩
    | publish topic body qos => exact .inr ⟨nofun, _, _, rfl, request_settings c _ _⟩
    | disconnect => exact .inr ⟨nofun, _, _, rfl, disconnectIn_settings traffic c⟩

/-- The settings stay as they are, so the interval that the first opening meets is the one that any later one meets. -/
theorem runIn_cases (c : Connection) (steps : List (Action × Traffic)) :
    ((∃ step ∈ steps, Aborts c.settings step.1) ∧ c.runIn steps = .error .tooShort) ∨
      ((∀ step ∈ steps, ¬ Aborts c.settings step.1) ∧
        ∃ answers last, c.runIn steps = .ok (answers, last) ∧ answers.length = steps.length) := by
  induction steps generalizing c with
  | nil => exact .inr ⟨nofun, [], c, rfl, rfl⟩
  | cons step rest ih =>
    obtain ⟨action, traffic⟩ := step
    obtain ⟨aborts, stops⟩ | ⟨goes, answer, next, moves, same⟩ := actIn_cases c traffic action
    · exact .inl ⟨⟨_, List.mem_cons_self, aborts⟩, by rw [runIn, stops]; rfl⟩
    · obtain ⟨⟨later, among, aborts⟩, stops⟩ | ⟨go, answers, last, runs, length⟩ := ih next
      · left
        refine ⟨⟨later, List.mem_cons_of_mem _ among, same ▸ aborts⟩, ?_⟩
        rw [runIn, moves]
        simp only [bind, Except.bind, stops]
      · right
        refine ⟨List.forall_mem_cons.mpr ⟨goes, same ▸ go⟩, answer :: answers, last, ?_, congrArg (· + 1) length⟩
        rw [runIn, moves]
        simp only [bind, Except.bind, runs, pure, Except.pure]

theorem exists_runIn_of_enough (enough : leastKeepAlive ≤ c.settings.keepAlive) (steps : List (Action × Traffic)) :
    ∃ answers last, c.runIn steps = .ok (answers, last) ∧ answers.length = steps.length := by
  obtain ⟨⟨step, -, -, short⟩, -⟩ | ⟨-, runs⟩ := runIn_cases c steps
  · exact absurd short (UInt16.not_lt.mpr enough)
  · exact runs

theorem exists_aborts_iff {s : Settings} {steps : List (Action × Traffic)} :
    (∃ step ∈ steps, Aborts s step.1) ↔ s.keepAlive < leastKeepAlive ∧ .call .connect ∈ steps.map Prod.fst := by
  simp only [Aborts, List.mem_map]
  constructor
  · rintro ⟨step, among, opens, short⟩
    exact ⟨short, step, among, opens⟩
  · rintro ⟨short, step, among, opens⟩
    exact ⟨step, among, opens, short⟩

/-- Settings with a host and without an empty identifier can be made whatever their interval. With them each of a sequence
of actions gets its answer, whatever the broker does, unless one of them opens a connection and the interval is shorter
than the least. Then the caller is aborted. -/
theorem runs_unless_opened_short (s : Settings) (steps : List (Action × Traffic)) :
    (s.Built ↔ (Blank.trim s.host.toList).isEmpty = false ∧ s.clientId ≠ some "") ∧
    ((ofSettings s).runIn steps = .error .tooShort ↔
      s.keepAlive < leastKeepAlive ∧ .call .connect ∈ steps.map Prod.fst) ∧
    ((∃ answers last, (ofSettings s).runIn steps = .ok (answers, last) ∧ answers.length = steps.length) ↔
      leastKeepAlive ≤ s.keepAlive ∨ .call .connect ∉ steps.map Prod.fst) := by
  refine ⟨Settings.built_iff, ?_⟩
  obtain ⟨aborts, stops⟩ | ⟨go, answers, last, runs, length⟩ := runIn_cases (ofSettings s) steps
  · have unsound : s.keepAlive < leastKeepAlive ∧ .call .connect ∈ steps.map Prod.fst := exists_aborts_iff.mp aborts
    refine ⟨iff_of_true stops unsound, iff_of_false ?_ ?_⟩
    · rintro ⟨answers, last, runs, -⟩
      cases stops.symm.trans runs
    · rintro (enough | unopened)
      · exact UInt16.not_le.mpr unsound.1 enough
      · exact unopened unsound.2
  · have safe : ¬ (s.keepAlive < leastKeepAlive ∧ .call .connect ∈ steps.map Prod.fst) := by
      intro risky
      obtain ⟨step, among, aborts⟩ := exists_aborts_iff.mpr risky
      exact go step among aborts
    refine ⟨iff_of_false (by rw [runs]; nofun) safe, iff_of_true ⟨answers, last, runs, length⟩ ?_⟩
    by_cases short : s.keepAlive < leastKeepAlive
    · exact .inr fun opens => safe ⟨short, opens⟩
    · exact .inl (UInt16.not_lt.mp short)

/-- An interval of zero is taken, as if it turned keep-alive messages off, and aborts the caller who opens the connection. -/
theorem opening_aborts_of_no_keepAlive :
    let s : Settings := ⟨"127.0.0.1", 1, 0, some "x"⟩
    ((Settings.ofHost "127.0.0.1").bind fun s => ((s.withPort 1).withClientId "x").map (·.withKeepAlive 0)) = .ok s ∧
      (ofSettings s).runIn [(.call .connect, .unreachable .refused)] = .error .tooShort ∧
      KeepAliveFlaw.message .tooShort = "Keep alives should be >= 5 secs" :=
  ⟨rfl, rfl, rfl⟩

end Connection
end DeviceBus.Broker
