import DeviceBus.Publication
import DeviceBus.Proofs.Session.Delivery
import DeviceBus.Proofs.Session.Entries

/-! The waits of a publication. A wait without a limit ends with the first event that decides it, or never. A limit
only cuts that short: the wait ends as it would without it if it does so in time. -/
namespace DeviceBus.Publication

open Session
open Broker (Event)

structure Decision where
  elapsed : Nat
  outcome : Except WaitFlaw Unit
  rest : List Step

namespace Decision

def later (ms : Nat) (d : Decision) : Decision := { d with elapsed := ms + d.elapsed }

def followedBy (more : List Step) (d : Decision) : Decision := { d with rest := d.rest ++ more }

end Decision

def decision? (awaited : Awaited) : List Step → Option Decision
  | [] | .cancel :: _ => none
  | .wait ms :: rest => (decision? awaited rest).map (.later ms)
  | .dropReceiver :: rest => decision? awaited rest
  | .event event :: rest =>
    match decide? awaited event with
    | some outcome => some ⟨0, outcome, rest⟩
    | none => decision? awaited rest

/-- What a wait with a limit leaves of a script if it ends well. -/
def inTime (awaited : Awaited) (left : Nat) (script : List Step) : Except WaitFlaw (List Step) :=
  match decision? awaited script with
  | some d => if d.elapsed < left then d.outcome.map fun _ => d.rest else .error (.timedOut awaited)
  | none => .error (.timedOut awaited)

variable {awaited : Awaited} {event : Event} {script before : List Step} {d : Decision}

theorem decide?_eq_none_iff : decide? awaited event = none ↔ event ≠ awaited.event ∧ endsConnection event = false := by
  unfold decide?
  by_cases expected : event = awaited.event
  · simp [expected]
  · rw [if_neg expected]
    cases event <;> simp [endsConnection, expected]

theorem decide?_eq_ok_iff : decide? awaited event = some (.ok ()) ↔ event = awaited.event := by
  unfold decide?
  by_cases expected : event = awaited.event
  · simp [expected]
  · rw [if_neg expected]
    cases event <;> simp [expected]

/-! What is decided, and by what. -/

theorem decision?_eq_none_iff : decision? awaited script = none ↔ ∀ e ∈ polled script, decide? awaited e = none := by
  induction script with
  | nil => simp [decision?, polled]
  | cons step script ih =>
    cases step with
    | wait ms =>
      rw [decision?, Option.map_eq_none_iff]
      exact ih
    | cancel => simp [decision?, polled]
    | dropReceiver => exact ih
    | event event =>
      rw [decision?, polled_event, List.forall_mem_cons, ← ih]
      cases decide? awaited event with
      | none => simp
      | some outcome => simp

private theorem decision?_polled (found : decision? awaited script = some d) :
    ∃ earlier event, polled script = earlier ++ event :: polled d.rest ∧
      (∀ e ∈ earlier, decide? awaited e = none) ∧ decide? awaited event = some d.outcome := by
  induction script generalizing d with
  | nil => cases found
  | cons step script ih =>
    cases step with
    | wait ms =>
      rw [decision?, Option.map_eq_some_iff] at found
      obtain ⟨d, found, rfl⟩ := found
      obtain ⟨earlier, event, split, undecided, decided⟩ := ih found
      exact ⟨earlier, event, split, undecided, decided⟩
    | cancel => cases found
    | dropReceiver => exact ih found
    | event event =>
      rw [decision?] at found
      cases decides : decide? awaited event with
      | some outcome =>
        rw [decides] at found
        cases found
        exact ⟨[], event, rfl, nofun, decides⟩
      | none =>
        rw [decides] at found
        obtain ⟨earlier, last, split, undecided, decided⟩ := ih found
        refine ⟨event :: earlier, last, ?_, List.forall_mem_cons.mpr ⟨decides, undecided⟩, decided⟩
        rw [polled_event, split, List.cons_append]

private theorem decision?_of_polled {earlier later : List Event} {outcome : Except WaitFlaw Unit}
    (split : polled script = earlier ++ event :: later) (undecided : ∀ e ∈ earlier, decide? awaited e = none)
    (decides : decide? awaited event = some outcome) :
    ∃ d, decision? awaited script = some d ∧ d.outcome = outcome ∧ polled d.rest = later := by
  induction script generalizing earlier with
  | nil => simp [polled] at split
  | cons step script ih =>
    cases step with
    | wait ms =>
      obtain ⟨d, found, same, rest⟩ := ih split undecided
      exact ⟨d.later ms, by rw [decision?, found]; rfl, same, rest⟩
    | cancel => simp [polled] at split
    | dropReceiver => exact ih split undecided
    | event first =>
      rw [polled_event] at split
      cases earlier with
      | nil =>
        obtain ⟨rfl, rest⟩ := List.cons.inj split
        exact ⟨⟨0, outcome, script⟩, by rw [decision?, decides], rfl, rest⟩
      | cons e earlier =>
        obtain ⟨rfl, rest⟩ := List.cons.inj split
        obtain ⟨idle, undecided⟩ := List.forall_mem_cons.mp undecided
        rw [decision?, idle]
        exact ih rest undecided

theorem decision?_ok_iff (awaited : Awaited) {later : List Event} :
    (∃ d, decision? awaited script = some d ∧ d.outcome = .ok () ∧ polled d.rest = later) ↔
      ∃ earlier, polled script = earlier ++ awaited.event :: later ∧ awaited.event ∉ earlier ∧
        ∀ e ∈ earlier, endsConnection e = false := by
  constructor
  · rintro ⟨d, found, well, rfl⟩
    obtain ⟨earlier, event, split, undecided, decides⟩ := decision?_polled found
    rw [well, decide?_eq_ok_iff] at decides
    subst decides
    refine ⟨earlier, split, fun member => ?_, fun e member => ?_⟩
    · exact (decide?_eq_none_iff.mp (undecided _ member)).1 rfl
    · exact (decide?_eq_none_iff.mp (undecided e member)).2
  · rintro ⟨earlier, split, first, lasts⟩
    refine decision?_of_polled split (fun e member => decide?_eq_none_iff.mpr ⟨?_, lasts e member⟩)
      (decide?_eq_ok_iff.mpr rfl)
    rintro rfl
    exact first member

/-! Longer scripts. -/

private theorem decision?_append (found : decision? awaited before = some d) (more : List Step) :
    decision? awaited (before ++ more) = some (d.followedBy more) := by
  induction before generalizing d with
  | nil => cases found
  | cons step before ih =>
    cases step with
    | wait ms =>
      rw [decision?, Option.map_eq_some_iff] at found
      obtain ⟨d, found, rfl⟩ := found
      rw [List.cons_append, decision?, ih found]
      rfl
    | cancel => cases found
    | dropReceiver => exact ih found
    | event event =>
      rw [decision?] at found
      rw [List.cons_append, decision?]
      cases decides : decide? awaited event with
      | some outcome =>
        rw [decides] at found
        cases found
        rfl
      | none =>
        rw [decides] at found
        exact ih found

private theorem decision?_idle (undecided : decision? awaited before = none) (idle : decide? awaited event = none)
    (after : List Step) :
    decision? awaited (before ++ .event event :: after) = decision? awaited (before ++ after) := by
  induction before with
  | nil => rw [List.nil_append, List.nil_append, decision?, idle]
  | cons step before ih =>
    cases step with
    | wait ms =>
      rw [decision?, Option.map_eq_none_iff] at undecided
      rw [List.cons_append, List.cons_append, decision?, decision?, ih undecided]
    | cancel => rfl
    | dropReceiver => exact ih undecided
    | event first =>
      rw [decision?] at undecided
      rw [List.cons_append, List.cons_append, decision?, decision?]
      cases decides : decide? awaited first with
      | some outcome =>
        rw [decides] at undecided
        cases undecided
      | none =>
        rw [decides] at undecided
        exact ih undecided

/-! Waits with a limit. -/

section Limits

variable {left : Nat}

theorem inTime_ok_iff {rest : List Step} :
    inTime awaited left script = .ok rest ↔
      ∃ d, decision? awaited script = some d ∧ d.elapsed < left ∧ d.outcome = .ok () ∧ d.rest = rest := by
  unfold inTime
  cases decision? awaited script with
  | none => simp
  | some d =>
    by_cases prompt : d.elapsed < left
    · simp only [Option.some.injEq, exists_eq_left', prompt, if_true, true_and]
      cases d.outcome with
      | error flaw => simp [Except.map]
      | ok _ => simp [Except.map]
    · simp [prompt]

theorem inTime_append (found : decision? awaited before = some d) (more : List Step) :
    inTime awaited left (before ++ more) = (inTime awaited left before).map (· ++ more) := by
  rw [inTime, inTime, decision?_append found more, found]
  dsimp only [Decision.followedBy]
  split
  · cases d.outcome <;> rfl
  · rfl

theorem inTime_idle (undecided : decision? awaited before = none) (idle : decide? awaited event = none)
    (after : List Step) :
    inTime awaited left (before ++ .event event :: after) = inTime awaited left (before ++ after) := by
  rw [inTime, decision?_idle undecided idle, inTime]

private theorem inTime_wait (ms : Nat) (within : ms < left) (rest : List Step) :
    inTime awaited left (.wait ms :: rest) = inTime awaited (left - ms) rest := by
  rw [inTime, inTime, decision?]
  cases decision? awaited rest with
  | none => rfl
  | some d =>
    have same : ms + d.elapsed < left ↔ d.elapsed < left - ms := by omega
    simp [Decision.later, same]

private theorem inTime_event (event : Event) (ahead : 0 < left) (rest : List Step) :
    inTime awaited left (.event event :: rest) =
      match decide? awaited event with
      | some outcome => outcome.map fun _ => rest
      | none => inTime awaited left rest := by
  rw [inTime, decision?]
  cases decide? awaited event with
  | none => rfl
  | some outcome => exact if_pos ahead

theorem await_inTime (awaited : Awaited) (ahead : 0 < left) (script : List Step) :
    (await awaited left script).outcome.map (fun _ => (await awaited left script).rest) = inTime awaited left script := by
  -- a step that takes time leaves less of the limit, so the induction is for every limit
  induction script generalizing left with
  | nil => rfl
  | cons step script ih =>
    cases step with
    | wait ms =>
      rw [await]
      split
      · next within =>
        rw [inTime_wait ms within]
        exact ih (Nat.sub_pos_of_lt within)
      · next late =>
        rw [inTime, decision?]
        cases decision? awaited script with
        | none => rfl
        | some d =>
          have exceeds : ¬ ms + d.elapsed < left := by omega
          exact (if_neg exceeds).symm
    | cancel => rfl
    | dropReceiver => exact ih ahead
    | event event =>
      rw [await, inTime_event event ahead]
      cases decide? awaited event with
      | some outcome => rfl
      | none => exact ih ahead

theorem await_calls (awaited : Awaited) (left : Nat) (script : List Step) :
    callsIn (await awaited left script).entries = [] := by
  fun_induction await awaited left script with
  | case2 left ms rest within ih => exact ih
  | case5 left rest ih => exact ih
  | case7 left event rest idle ih => exact ih
  | _ => rfl

theorem await_prefix (awaited : Awaited) (left : Nat) (script : List Step) :
    pollsIn (await awaited left script).entries <+: polled script ∧
      ((await awaited left script).outcome = .ok () →
        polled script = pollsIn (await awaited left script).entries ++ polled (await awaited left script).rest) := by
  fun_induction await awaited left script with
  | case1 => exact ⟨List.nil_prefix, nofun⟩
  | case2 left ms rest within ih => exact ih
  | case3 => exact ⟨List.nil_prefix, nofun⟩
  | case4 => exact ⟨List.nil_prefix, nofun⟩
  | case5 left rest ih => exact ih
  | case6 left event rest outcome decides => exact ⟨List.prefix_append [event] (polled rest), fun _ => rfl⟩
  | case7 left event rest idle ih =>
    obtain ⟨begins, splits⟩ := ih
    exact ⟨List.cons_prefix_cons.mpr ⟨rfl, begins⟩, fun well => congrArg (event :: ·) (splits well)⟩

/-- Events up to the first one that is awaited, on a connection that lasts until then. -/
def Reached (awaited : Awaited) (events : List Event) : Prop :=
  ∃ earlier, events = earlier ++ [awaited.event] ∧ awaited.event ∉ earlier ∧ ∀ e ∈ earlier, endsConnection e = false

theorem Reached.mem {events : List Event} (reached : Reached awaited events) : awaited.event ∈ events := by
  obtain ⟨earlier, rfl, -⟩ := reached
  exact List.mem_concat_self

theorem await_reached (script : List Step) (well : (await awaited left script).outcome = .ok ()) :
    Reached awaited (pollsIn (await awaited left script).entries) := by
  fun_induction await awaited left script with
  | case2 left ms rest within ih => exact ih well
  | case5 left rest ih => exact ih well
  | case6 left event rest outcome decides =>
    cases well
    rw [decide?_eq_ok_iff.mp decides]
    exact ⟨[], rfl, nofun, nofun⟩
  | case7 left event rest idle ih =>
    obtain ⟨other, lasts⟩ := decide?_eq_none_iff.mp idle
    obtain ⟨earlier, polls, first, unended⟩ := ih well
    refine ⟨event :: earlier, congrArg (event :: ·) polls, ?_, List.forall_mem_cons.mpr ⟨lasts, unended⟩⟩
    exact fun member => (List.mem_cons.mp member).elim other.symm first
  | _ => cases well

theorem await_of_mem {script : List Step} (seen : awaited.event ∈ pollsIn (await awaited left script).entries) :
    (await awaited left script).outcome = .ok () := by
  fun_induction await awaited left script with
  | case2 left ms rest within ih => exact ih seen
  | case5 left rest ih => exact ih seen
  | case6 left event rest outcome decides =>
    rw [decide?_eq_ok_iff.mpr (List.mem_singleton.mp seen).symm] at decides
    cases decides
    rfl
  | case7 left event rest idle ih =>
    obtain rfl | later := List.mem_cons.mp seen
    · exact absurd rfl (decide?_eq_none_iff.mp idle).1
    · exact ih later
  | _ => cases seen

theorem await_ok_iff {script : List Step} :
    (await awaited left script).outcome = .ok () ↔ Reached awaited (pollsIn (await awaited left script).entries) :=
  ⟨await_reached script, fun reached => await_of_mem reached.mem⟩

end Limits

end DeviceBus.Publication
