import DeviceBus.Proofs.Publication.Protocol

/-! The limits of a publication, said of the time that passes in its script. A wait is decided by the first event that it waits
for or that ends the connection, after the waiting times before that event, whatever else comes in between. Each of
the two waits has the whole limit for itself. -/
namespace DeviceBus.Publication

open Session
open Broker (Event)

def duration : List Step → Nat
  | [] => 0
  | .wait ms :: rest => ms + duration rest
  | .event _ :: rest | .cancel :: rest | .dropReceiver :: rest => duration rest

/-- Steps over which a wait goes on: none of their events decides it, and polling still returns after them. -/
structure Idle (awaited : Awaited) (steps : List Step) : Prop where
  returns : .cancel ∉ steps
  other : ∀ event, .event event ∈ steps → event ≠ awaited.event ∧ endsConnection event = false

inductive Verdict (awaited : Awaited) : Event → Except WaitFlaw Unit → Prop
  | acknowledged : Verdict awaited awaited.event (.ok ())
  | failed (code : Int) (reason : String) : Verdict awaited (.failed code reason) (.error (.failed code reason))
  | closed : Verdict awaited .disconnected (.error .closed)

/-- A script has a first event that decides a wait, after so much time and with the rest of the script to come. -/
def Decided (awaited : Awaited) (script : List Step) (d : Decision) : Prop :=
  ∃ before event, script = before ++ .event event :: d.rest ∧ Idle awaited before ∧ duration before = d.elapsed ∧
    Verdict awaited event d.outcome

/-- No event decides a wait, or only one after the limit does. -/
def Overdue (awaited : Awaited) (script : List Step) : Prop := ∀ d, Decided awaited script d → limit < d.elapsed

variable {awaited : Awaited} {event : Event} {script before : List Step} {d : Decision}

section Decisions

theorem verdict_iff {outcome : Except WaitFlaw Unit} :
    Verdict awaited event outcome ↔ decide? awaited event = some outcome := by
  constructor
  · intro verdict
    cases verdict with
    | acknowledged => exact decide?_eq_ok_iff.mpr rfl
    | failed code reason => cases awaited <;> rfl
    | closed => cases awaited <;> rfl
  · intro decides
    by_cases expected : event = awaited.event
    · rw [decide?_eq_ok_iff.mpr expected] at decides
      cases decides
      rw [expected]
      exact .acknowledged
    · unfold decide? at decides
      rw [if_neg expected] at decides
      split at decides
      · cases decides
        exact .failed _ _
      · cases decides
        exact .closed
      · cases decides

theorem Idle.nil : Idle awaited [] := ⟨nofun, nofun⟩

theorem Idle.cons {step : Step} (told : step ≠ .cancel)
    (other : ∀ event, step = .event event → event ≠ awaited.event ∧ endsConnection event = false)
    (idle : Idle awaited before) : Idle awaited (step :: before) := by
  refine ⟨fun member => ?_, fun event member => ?_⟩
  · exact (List.mem_cons.mp member).elim told.symm idle.returns
  · exact (List.mem_cons.mp member).elim (fun same => other event same.symm) (idle.other event)

theorem Idle.wait (ms : Nat) (idle : Idle awaited before) : Idle awaited (.wait ms :: before) :=
  idle.cons (by rintro ⟨⟩) (by rintro event ⟨⟩)

theorem Idle.dropReceiver (idle : Idle awaited before) : Idle awaited (.dropReceiver :: before) :=
  idle.cons (by rintro ⟨⟩) (by rintro event ⟨⟩)

theorem Idle.poll (idle : Idle awaited before) (undecided : decide? awaited event = none) :
    Idle awaited (.event event :: before) := by
  refine idle.cons (by rintro ⟨⟩) fun e same => ?_
  cases same
  exact decide?_eq_none_iff.mp undecided

theorem Idle.tail {step : Step} (idle : Idle awaited (step :: before)) : Idle awaited before :=
  ⟨fun member => idle.returns (List.mem_cons_of_mem _ member),
    fun event member => idle.other event (List.mem_cons_of_mem _ member)⟩

private theorem decision?_append_of_idle (idle : Idle awaited before) (after : List Step) :
    decision? awaited (before ++ after) = (decision? awaited after).map (.later (duration before)) := by
  have still : (Decision.later 0 : Decision → Decision) = id := by
    funext d
    rw [Decision.later, Nat.zero_add]
    rfl
  induction before with
  | nil => rw [List.nil_append, duration, still, Option.map_id_apply]
  | cons step before ih =>
    have rest := ih idle.tail
    cases step with
    | wait ms =>
      rw [List.cons_append, decision?, rest, Option.map_map, duration]
      congr 1
      funext d
      simp only [Function.comp_apply, Decision.later, Nat.add_assoc]
    | cancel => exact absurd List.mem_cons_self idle.returns
    | dropReceiver => exact rest
    | event event =>
      have undecided := decide?_eq_none_iff.mpr (idle.other event List.mem_cons_self)
      rw [List.cons_append, decision?, undecided]
      exact rest

private theorem decided_of_decision? (found : decision? awaited script = some d) : Decided awaited script d := by
  induction script generalizing d with
  | nil => cases found
  | cons step script ih =>
    cases step with
    | wait ms =>
      rw [decision?, Option.map_eq_some_iff] at found
      obtain ⟨d, found, rfl⟩ := found
      obtain ⟨before, event, rfl, idle, time, verdict⟩ := ih found
      exact ⟨.wait ms :: before, event, rfl, idle.wait ms, congrArg (ms + ·) time, verdict⟩
    | cancel => cases found
    | dropReceiver =>
      obtain ⟨before, event, rfl, idle, time, verdict⟩ := ih found
      exact ⟨.dropReceiver :: before, event, rfl, idle.dropReceiver, time, verdict⟩
    | event first =>
      rw [decision?] at found
      cases decides : decide? awaited first with
      | some outcome =>
        rw [decides] at found
        cases found
        exact ⟨[], first, rfl, .nil, rfl, verdict_iff.mpr decides⟩
      | none =>
        rw [decides] at found
        obtain ⟨before, event, rfl, idle, time, verdict⟩ := ih found
        exact ⟨.event first :: before, event, rfl, idle.poll decides, time, verdict⟩

theorem decision?_eq_some_iff : decision? awaited script = some d ↔ Decided awaited script d := by
  refine ⟨decided_of_decision?, ?_⟩
  rintro ⟨before, event, rfl, idle, time, verdict⟩
  rw [decision?_append_of_idle idle, decision?, verdict_iff.mp verdict, Option.map_some, Decision.later, time,
    Nat.add_zero]

end Decisions

section Limits

private theorem inTime_of_decided {left : Nat} (decided : Decided awaited script d) (within : d.elapsed < left) :
    inTime awaited left script = d.outcome.map fun _ => d.rest := by
  simp only [inTime, decision?_eq_some_iff.mpr decided, if_pos within]

private theorem inTime_of_overdue (overdue : Overdue awaited script) :
    inTime awaited limit script = .error (.timedOut awaited) := by
  unfold inTime
  cases found : decision? awaited script with
  | none => rfl
  | some d => exact if_neg (Nat.lt_asymm (overdue d (decision?_eq_some_iff.mp found)))

variable {failures : Failures}

private theorem settled_others {others : List Event}
    (idle : ∀ e ∈ others, endsConnection e = false ∧ e ≠ if .connAck ∈ polled before then .pubAck else .connAck)
    (after : List Step) :
    settled failures (before ++ (others.map Step.event ++ after)) = settled failures (before ++ after) := by
  induction others with
  | nil => rfl
  | cons event others ih =>
    obtain ⟨⟨other, unawaited⟩, idle⟩ := List.forall_mem_cons.mp idle
    rw [List.map_cons, List.cons_append, settled_idle other unawaited, ih idle]

/-- The limits of a publication on an open connection. Each wait is decided by its event if that comes within the limit, and
fails if it comes later or not at all; the second wait has the whole limit again, from the publication on. Other events,
however many, change nothing about that, and a wait that fails is followed by the one disconnection. -/
theorem waits_keep_limits (failures : Failures) (request : Request) (script : List Step)
    (made : failures.connect = none) :
    let published := run failures request script
    (Overdue .connAck script →
      published.outcome = .error ⟨.transport, "No ConnAck received within 10s"⟩ ∧
        callsIn published.entries = [.connect, .disconnect]) ∧
    (∀ first, Decided .connAck script first → first.elapsed < limit →
      (∀ flaw, first.outcome = .error flaw →
        published.outcome = .error flaw.error ∧ callsIn published.entries = [.connect, .disconnect]) ∧
      (first.outcome = .ok () →
        (∃ body, request.bodyBytes = .ok body ∧ callsIn published.entries =
          [.connect, .publish request.topic.text body .atLeastOnce, .disconnect]) ∧
        (failures.publish = none →
          (Overdue .pubAck first.rest →
            published.outcome = .error ⟨.transport, "No PubAck received within 10s"⟩) ∧
          ∀ second, Decided .pubAck first.rest second → second.elapsed < limit →
            published.outcome = second.outcome.mapError WaitFlaw.error))) ∧
    ∀ (before : List Step) (others : List Event) (after : List Step), script = before ++ (others.map Step.event ++ after) →
      (∀ e ∈ others, endsConnection e = false ∧ e ≠ if .connAck ∈ polled before then .pubAck else .connAck) →
      published.outcome = (run failures request (before ++ after)).outcome := by
  intro published
  have outcome : published.outcome = settled failures script := by
    simp only [published, run_outcome, made]
  have written := request.bodyBytes_eq
  have calls := run_calls made request written script
  rw [exchange_calls] at calls
  refine ⟨?_, ?_, ?_⟩
  · intro overdue
    rw [inTime_of_overdue overdue] at calls
    refine ⟨?_, calls⟩
    rw [outcome, settled, inTime_of_overdue overdue]
    rfl
  · intro first decided within
    have accepted := inTime_of_decided decided within
    rw [accepted] at calls
    rw [outcome, settled, accepted]
    refine ⟨?_, ?_⟩
    · intro flaw failed
      rw [failed] at calls ⊢
      exact ⟨rfl, calls⟩
    · intro well
      rw [well] at calls ⊢
      refine ⟨⟨_, written, calls⟩, fun accepting => ⟨?_, ?_⟩⟩
      · intro overdue
        simp only [Except.map, acknowledged, accepting, inTime_of_overdue overdue]
        rfl
      · intro second confirmed prompt
        simp only [Except.map, acknowledged, accepting, inTime_of_decided confirmed prompt]
        cases second.outcome <;> rfl
  · rintro before others after rfl idle
    rw [outcome, settled_others idle]
    simp only [run_outcome, made]

theorem waits_keep_limits_of_chatter :
    let request := Request.discover "lamp" false
    let chatter : List Step :=
      [.wait 6000, .event (.message "/domain/a/response" []), .wait 3000, .event .ignored]
    let second : List Step := chatter ++ [.event .pubAck]
    let late : List Step := .wait 3000 :: second
    (run .none request (chatter ++ .event .connAck :: second)).outcome = .ok () ∧
      (run .none request (.event .ignored :: (chatter ++ .event .connAck :: second))).outcome = .ok () ∧
      (run .none request (.event .connAck :: late)).outcome =
        .error ⟨.transport, "No PubAck received within 10s"⟩ ∧
      (run .none request late).outcome = .error ⟨.transport, "No ConnAck received within 10s"⟩ ∧
      callsIn (run .none request late).entries = [.connect, .disconnect] ∧
      (run .none request (chatter ++ [.event .disconnected])).outcome =
        .error ⟨.transport, "The broker closed the connection"⟩ := by
  intro request chatter second late
  have decides {awaited : Awaited} {script : List Step} {d : Decision} (found : decision? awaited script = some d) :
      Decided awaited script d := decision?_eq_some_iff.mp found
  have prompt := waits_keep_limits .none request (chatter ++ .event .connAck :: second) rfl
  have begun := waits_keep_limits .none request (.event .connAck :: late) rfl
  have silent := waits_keep_limits .none request late rfl
  have closed := waits_keep_limits .none request (chatter ++ [.event .disconnected]) rfl
  have noisy := waits_keep_limits .none request (.event .ignored :: (chatter ++ .event .connAck :: second)) rfl
  have unconfirmed : Overdue .pubAck late := by
    intro d decided
    cases decision?_eq_some_iff.mpr decided
    decide
  have unaccepted : Overdue .connAck late := by
    intro d decided
    cases decision?_eq_some_iff.mpr decided
  have published : (run .none request (chatter ++ .event .connAck :: second)).outcome = .ok () :=
    (((prompt.2.1 ⟨9000, .ok (), second⟩ (decides rfl) (by decide)).2 rfl).2 rfl).2 ⟨9000, .ok (), []⟩ (decides rfl)
      (by decide)
  refine ⟨published, ?_, ?_, ?_⟩
  · exact (noisy.2.2 [] [.ignored] (chatter ++ .event .connAck :: second) rfl (by decide)).trans published
  · exact (((begun.2.1 ⟨0, .ok (), late⟩ (decides rfl) (by decide)).2 rfl).2 rfl).1 unconfirmed
  · refine ⟨(silent.1 unaccepted).1, (silent.1 unaccepted).2, ?_⟩
    exact ((closed.2.1 ⟨9000, .error .closed, []⟩ (decides rfl) (by decide)).1 _ rfl).1

end Limits

end DeviceBus.Publication
