import DeviceBus.Proofs.Publication.Waits
import DeviceBus.Proofs.Request.WireImage

/-! The protocol of a publication: which calls it makes, when, and with what, and when it succeeds. Its outcome rests on
what its two waits leave of the script and on two of the calls, whatever the disconnection reports. -/
namespace DeviceBus.Publication

open Session
open Broker (Event)

variable {failures : Failures} {body : Bytes} {script : List Step} {event : Event}

def acknowledged (failures : Failures) (script : List Step) : Except ClientError Unit :=
  match failures.publish with
  | some info => .error (callError info)
  | none =>
    match inTime .pubAck limit script with
    | .error flaw => .error flaw.error
    | .ok _ => .ok ()

def settled (failures : Failures) (script : List Step) : Except ClientError Unit :=
  match inTime .connAck limit script with
  | .error flaw => .error flaw.error
  | .ok rest => acknowledged failures rest

private theorem publish_outcome (request : Request) (body : Bytes) (script : List Step) :
    (publish failures request body script).outcome = acknowledged failures script := by
  rw [publish, acknowledged, ← await_inTime .pubAck (by decide) script]
  cases failures.publish with
  | some info => rfl
  | none => cases outcome : (await .pubAck limit script).outcome <;> simp [outcome, Except.map]

private theorem exchange_outcome (request : Request) (body : Bytes) (script : List Step) :
    (exchange failures request body script).outcome = settled failures script := by
  rw [exchange, settled, ← await_inTime .connAck (by decide) script]
  cases (await .connAck limit script).outcome with
  | error flaw => rfl
  | ok _ => exact publish_outcome request body _

private theorem run_eq_send (written : request.bodyBytes = .ok body) (failures : Failures) (script : List Step) :
    run failures request script = send failures request body script := by
  rw [run, written]

theorem run_outcome (failures : Failures) (request : Request) (script : List Step) :
    (run failures request script).outcome =
      match failures.connect with
      | some info => .error (callError info)
      | none => settled failures script := by
  rw [run_eq_send request.bodyBytes_eq, send]
  cases failures.connect with
  | some info => rfl
  | none => exact exchange_outcome request _ script

/-! Calls. -/

def publication (request : Request) (body : Bytes) : Broker.Call := .publish request.topic.text body .atLeastOnce

private theorem publish_entries (failures : Failures) (request : Request) (body : Bytes) (script : List Step) :
    ∃ rest, (publish failures request body script).entries = .call (publication request body) :: rest ∧
      callsIn rest = [] ∧
      ((publish failures request body script).outcome = .ok () ↔
        failures.publish = none ∧ Reached .pubAck (pollsIn rest)) ∧
      pollsIn rest <+: polled script := by
  have calls := await_calls .pubAck limit script
  obtain ⟨begins, -⟩ := await_prefix .pubAck limit script
  rw [publish]
  cases failures.publish with
  | some info => exact ⟨[], rfl, rfl, by simp, List.nil_prefix⟩
  | none =>
    cases outcome : (await .pubAck limit script).outcome with
    | ok _ =>
      have reached := await_ok_iff.mp outcome
      refine ⟨_, by simp only [outcome]; rfl, ?_, ?_, ?_⟩
      · simp [calls]
      · simpa [outcome] using reached
      · simpa using begins
    | error flaw =>
      have missed := mt await_ok_iff.mpr (by rw [outcome]; nofun)
      refine ⟨_, by simp only [outcome]; rfl, calls, ?_, begins⟩
      simpa [outcome] using missed

/-- What happens between a connection and its disconnection. The request is published right behind the first acceptance of the
connection, and what is polled after that decides; or no acceptance is polled, and there is no call. -/
inductive Exchanged (failures : Failures) (call : Broker.Call) (middle : List Entry) (outcome : Except ClientError Unit) :
    Prop
  | unaccepted (silent : callsIn middle = []) (unseen : .connAck ∉ pollsIn middle) (fails : outcome ≠ .ok ())
  | published (waiting rest : List Entry) (entries : middle = waiting ++ .call call :: rest)
      (before : callsIn waiting = []) (after : callsIn rest = []) (accepted : Reached .connAck (pollsIn waiting))
      (succeeds : outcome = .ok () ↔ failures.publish = none ∧ Reached .pubAck (pollsIn rest))

theorem exchanged (failures : Failures) (request : Request) (body : Bytes) (script : List Step) :
    Exchanged failures (publication request body) (exchange failures request body script).entries
      (exchange failures request body script).outcome := by
  have calls := await_calls .connAck limit script
  rw [exchange]
  cases outcome : (await .connAck limit script).outcome with
  | error flaw =>
    have failed : (await .connAck limit script).outcome ≠ .ok () := by simp [outcome]
    exact .unaccepted calls (mt await_of_mem failed) nofun
  | ok _ =>
    obtain ⟨rest, entries, silent, succeeds, -⟩ := publish_entries failures request body (await .connAck limit script).rest
    refine .published (await .connAck limit script).entries rest ?_ calls silent (await_reached script outcome) succeeds
    simp only [Stretch.after, entries]

theorem exchange_prefix (failures : Failures) (request : Request) (body : Bytes) (script : List Step) :
    pollsIn (exchange failures request body script).entries <+: polled script := by
  obtain ⟨begins, splits⟩ := await_prefix .connAck limit script
  rw [exchange]
  cases outcome : (await .connAck limit script).outcome with
  | error flaw => exact begins
  | ok _ =>
    obtain ⟨rest, entries, -, -, later⟩ := publish_entries failures request body (await .connAck limit script).rest
    simp only [Stretch.after, entries, pollsIn_append, pollsIn_call]
    rw [splits outcome]
    exact (List.prefix_append_right_inj _).mpr later

theorem exchange_calls (failures : Failures) (request : Request) (body : Bytes) (script : List Step) :
    callsIn (exchange failures request body script).entries =
      match inTime .connAck limit script with
      | .ok _ => [publication request body]
      | .error _ => [] := by
  have calls := await_calls .connAck limit script
  rw [exchange, ← await_inTime .connAck (by decide) script]
  cases (await .connAck limit script).outcome with
  | error flaw => exact calls
  | ok _ =>
    obtain ⟨rest, entries, silent, -⟩ := publish_entries failures request body (await .connAck limit script).rest
    simp only [Except.map, Stretch.after, entries, callsIn_append, callsIn_call, calls, silent, List.nil_append]

theorem run_calls (made : failures.connect = none) (request : Request) (written : request.bodyBytes = .ok body)
    (script : List Step) :
    callsIn (run failures request script).entries =
      .connect :: (callsIn (exchange failures request body script).entries ++ [.disconnect]) := by
  simp only [run_eq_send written, send, made, List.cons_append, callsIn_call, callsIn_append, callsIn_leave]

/-! Success. -/

/-- No wait that a publication comes to is decided after its limit: an event decides it before that, or none does. -/
structure Prompt (failures : Failures) (script : List Step) : Prop where
  first : failures.connect = none → ∀ d, decision? .connAck script = some d → d.elapsed < limit
  second : failures.connect = none → failures.publish = none →
    ∀ d, decision? .connAck script = some d → d.outcome = .ok () →
    ∀ e, decision? .pubAck d.rest = some e → e.elapsed < limit

theorem settled_ok_iff :
    settled failures script = .ok () ↔ failures.publish = none ∧
      ∃ rest, inTime .connAck limit script = .ok rest ∧ ∃ last, inTime .pubAck limit rest = .ok last := by
  unfold settled acknowledged
  cases inTime .connAck limit script with
  | error flaw => simp
  | ok rest =>
    cases failures.publish with
    | some info => simp
    | none => cases confirmed : inTime .pubAck limit rest <;> simp [confirmed]

private theorem settled_ok_iff_of_prompt (prompt : Prompt failures script) (made : failures.connect = none) :
    settled failures script = .ok () ↔ failures.publish = none ∧
      ∃ before between after, polled script = before ++ .connAck :: (between ++ .pubAck :: after) ∧
        .connAck ∉ before ∧ .pubAck ∉ between ∧ ∀ e ∈ before ++ between, endsConnection e = false := by
  rw [settled_ok_iff]
  refine and_congr_right fun accepting => ⟨?_, ?_⟩
  · rintro ⟨rest, accepted, last, confirmed⟩
    obtain ⟨d, found, -, well, rfl⟩ := inTime_ok_iff.mp accepted
    obtain ⟨e, ends, -, good, rfl⟩ := inTime_ok_iff.mp confirmed
    obtain ⟨before, split, fresh, lasts⟩ := (decision?_ok_iff .connAck).mp ⟨d, found, well, rfl⟩
    obtain ⟨between, later, unconfirmed, remains⟩ := (decision?_ok_iff .pubAck).mp ⟨e, ends, good, rfl⟩
    refine ⟨before, between, polled e.rest, ?_, fresh, unconfirmed, List.forall_mem_append.mpr ⟨lasts, remains⟩⟩
    rw [split, later]
    rfl
  · rintro ⟨before, between, after, split, fresh, unconfirmed, unended⟩
    obtain ⟨lasts, remains⟩ := List.forall_mem_append.mp unended
    obtain ⟨d, found, well, later⟩ := (decision?_ok_iff .connAck).mpr ⟨before, split, fresh, lasts⟩
    obtain ⟨e, ends, good, -⟩ := (decision?_ok_iff .pubAck).mpr ⟨between, later, unconfirmed, remains⟩
    refine ⟨d.rest, inTime_ok_iff.mpr ⟨d, found, prompt.first made d found, well, rfl⟩, e.rest, ?_⟩
    exact inTime_ok_iff.mpr ⟨e, ends, prompt.second made accepting d found well e ends, good, rfl⟩

private theorem accepted_iff_of_prompt (prompt : Prompt failures script) (made : failures.connect = none) :
    (∃ rest, inTime .connAck limit script = .ok rest) ↔
      ∃ before after, polled script = before ++ .connAck :: after ∧
        .connAck ∉ before ∧ ∀ e ∈ before, endsConnection e = false := by
  constructor
  · rintro ⟨rest, accepted⟩
    obtain ⟨d, found, -, well, -⟩ := inTime_ok_iff.mp accepted
    obtain ⟨before, split, fresh, lasts⟩ := (decision?_ok_iff .connAck).mp ⟨d, found, well, rfl⟩
    exact ⟨before, polled d.rest, split, fresh, lasts⟩
  · rintro ⟨before, after, split, fresh, lasts⟩
    obtain ⟨d, found, well, -⟩ := (decision?_ok_iff .connAck).mpr ⟨before, split, fresh, lasts⟩
    exact ⟨d.rest, inTime_ok_iff.mpr ⟨d, found, prompt.first made d found, well, rfl⟩⟩

private theorem publication_mem_iff_of_prompt (prompt : Prompt failures script) (request : Request)
    (written : request.bodyBytes = .ok body) :
    publication request body ∈ callsIn (run failures request script).entries ↔
      failures.connect = none ∧ ∃ before after, polled script = before ++ .connAck :: after ∧
        .connAck ∉ before ∧ ∀ e ∈ before, endsConnection e = false := by
  cases made : failures.connect with
  | some info => simp [run_eq_send written, send, made, publication]
  | none =>
    rw [run_calls made request written, exchange_calls, ← accepted_iff_of_prompt prompt made]
    cases inTime .connAck limit script <;> simp [publication]

/-! Events that decide nothing. -/

private theorem acknowledged_idle (idle : decide? .pubAck event = none) (before after : List Step) :
    acknowledged failures (before ++ .event event :: after) = acknowledged failures (before ++ after) := by
  cases found : decision? .pubAck before with
  | none => rw [acknowledged, inTime_idle found idle, acknowledged]
  | some d =>
    rw [acknowledged, acknowledged, inTime_append found, inTime_append found]
    cases inTime .pubAck limit before <;> rfl

theorem settled_idle {before : List Step} (other : endsConnection event = false)
    (unawaited : event ≠ if .connAck ∈ polled before then .pubAck else .connAck) (after : List Step) :
    settled failures (before ++ .event event :: after) = settled failures (before ++ after) := by
  cases found : decision? .connAck before with
  | none =>
    have fresh : .connAck ∉ polled before := by
      intro member
      have idle := decision?_eq_none_iff.mp found .connAck member
      exact (decide?_eq_none_iff.mp idle).1 rfl
    rw [if_neg fresh] at unawaited
    have idle : decide? .connAck event = none := decide?_eq_none_iff.mpr ⟨unawaited, other⟩
    rw [settled, inTime_idle found idle, settled]
  | some d =>
    rw [settled, settled, inTime_append found, inTime_append found]
    cases accepted : inTime .connAck limit before with
    | error flaw => rfl
    | ok rest =>
      -- the first wait is over before the event, so it is the acknowledgement that is waited for
      obtain ⟨e, same, -, well, rfl⟩ := inTime_ok_iff.mp accepted
      obtain ⟨earlier, split, -⟩ := (decision?_ok_iff .connAck).mp ⟨e, same, well, rfl⟩
      have member : .connAck ∈ polled before := by simp [split, Awaited.event]
      rw [if_pos member] at unawaited
      exact acknowledged_idle (decide?_eq_none_iff.mpr ⟨unawaited, other⟩) e.rest after

/-- The protocol of a publication. The body is written whatever it holds. A connection that cannot be opened is the only
call; otherwise the one disconnection comes last and has no part in the outcome, and the body is published right behind
the first acceptance that is polled, or not at all if none is. It is published successfully exactly if the first
decisive event that is polled after that acknowledges it. If no wait comes to its limit, the events of the script tell
both, in the order in which they come. Other events have no part in the outcome, and an acknowledgement before the
publication is one of them. -/
theorem run_keeps_protocol (failures : Failures) (request : Request) (script : List Step) :
    let publishes := run failures request
    ∃ body, request.bodyBytes = .ok body ∧
      let call := Broker.Call.publish request.topic.text body .atLeastOnce
      (∀ info, failures.connect = some info →
        (publishes script).entries = [.call .connect] ∧ (publishes script).outcome = .error (callError info)) ∧
      (failures.connect = none → ∃ middle farewell,
        (publishes script).entries = .call .connect :: middle ++ .call .disconnect :: farewell ∧ Silent farewell ∧
          Exchanged failures call middle (publishes script).outcome) ∧
      pollsIn (publishes script).entries <+: polled script ∧
      (∀ other, (run { failures with disconnect := other } request script).outcome = (publishes script).outcome) ∧
      (Prompt failures script →
        (call ∈ callsIn (publishes script).entries ↔
          failures.connect = none ∧ ∃ before after, polled script = before ++ .connAck :: after ∧
            .connAck ∉ before ∧ ∀ e ∈ before, endsConnection e = false) ∧
        ((publishes script).outcome = .ok () ↔
          failures.connect = none ∧ failures.publish = none ∧
          ∃ before between after, polled script = before ++ .connAck :: (between ++ .pubAck :: after) ∧
            .connAck ∉ before ∧ .pubAck ∉ between ∧ ∀ e ∈ before ++ between, endsConnection e = false)) ∧
      ∀ before event after, script = before ++ .event event :: after → endsConnection event = false →
        event ≠ (if .connAck ∈ polled before then .pubAck else .connAck) →
        (publishes script).outcome = (publishes (before ++ after)).outcome := by
  intro publishes
  have written := request.bodyBytes_eq
  have sent : publishes script = send failures request _ script := run_eq_send written failures script
  refine ⟨_, written, ?_, ?_, ?_, ?_, ?_, ?_⟩
  · intro info failed
    simp [sent, send, failed]
  · intro made
    obtain ⟨farewell, leaves, silent⟩ := exists_silent_of_leave failures
    rw [sent, send, made, leaves]
    exact ⟨_, farewell, rfl, silent, exchanged failures request _ script⟩
  · rw [sent, send]
    cases failures.connect with
    | some info => exact List.nil_prefix
    | none => simpa using exchange_prefix failures request _ script
  · intro other
    simp only [publishes, run_outcome, settled, acknowledged]
  · intro prompt
    refine ⟨publication_mem_iff_of_prompt prompt request written, ?_⟩
    simp only [publishes, run_outcome]
    cases made : failures.connect with
    | some info => simp
    | none =>
      rw [settled_ok_iff_of_prompt prompt made]
      exact (and_iff_right rfl).symm
  · rintro before event after rfl other unawaited
    simp only [publishes, run_outcome]
    rw [settled_idle other unawaited]

theorem run_keeps_protocol_of_slow_broker :
    let request := Request.discover "lamp" false
    let failures : Failures := ⟨none, none, none, some "gone"⟩
    let script : List Step :=
      [.event .pubAck, .event .connAck, .wait 9000, .event (.message "/domain/a/response" []), .event .pubAck]
    (run ⟨some "down", none, none, none⟩ request script).entries = [.call .connect] ∧
      (∃ body waiting rest farewell, request.bodyBytes = .ok body ∧
        (run failures request script).entries = .call .connect :: (waiting ++
          .call (.publish "/request/domain/endpoints" body .atLeastOnce) :: rest) ++ .call .disconnect :: farewell ∧
        Reached .connAck (pollsIn waiting) ∧ Reached .pubAck (pollsIn rest)) ∧
      (run failures request script).outcome = .ok () ∧ (run failures request script.tail).outcome = .ok () := by
  intro request failures script
  obtain ⟨-, -, unopened, -⟩ := run_keeps_protocol ⟨some "down", none, none, none⟩ request script
  obtain ⟨body, written, -, opened, -, -, tells, idle⟩ := run_keeps_protocol failures request script
  have first : decision? .connAck script = some ⟨0, .ok (), script.drop 2⟩ := rfl
  have second : decision? .pubAck (script.drop 2) = some ⟨9000, .ok (), []⟩ := rfl
  have prompt : Prompt failures script := by
    refine ⟨fun _ d found => ?_, fun _ _ d found _ e ends => ?_⟩
    · cases first.symm.trans found
      decide
    · cases first.symm.trans found
      cases second.symm.trans ends
      decide
  have published : (run failures request script).outcome = .ok () :=
    (tells prompt).2.mpr ⟨rfl, rfl, [.pubAck], [.message "/domain/a/response" []], [], by decide⟩
  have stale := idle [] .pubAck script.tail rfl rfl (by decide)
  obtain ⟨middle, farewell, entries, -, exchanged⟩ := opened rfl
  refine ⟨(unopened "down" rfl).1, ?_, published, stale.symm.trans published⟩
  cases exchanged with
  | unaccepted silent unseen fails => exact absurd published fails
  | published waiting rest same before after accepted succeeds =>
    exact ⟨body, waiting, rest, farewell, written, same ▸ entries, accepted, (succeeds.mp published).2⟩

end DeviceBus.Publication
