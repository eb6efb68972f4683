import DeviceBus.Request
import DeviceBus.Session.Trace

/-! Publishing one control request: write its body, connect, publish once the broker has accepted the connection,
wait for the acknowledgement, and disconnect whatever has happened since the connection was opened. Each of the
two waits has a limit of its own, which other events neither extend nor shorten. -/
namespace DeviceBus.Publication
open Session

def limit : Nat := 10000

inductive Awaited
  | connAck
  | pubAck
deriving DecidableEq, Repr

def Awaited.event : Awaited → Broker.Event
  | connAck => .connAck
  | pubAck => .pubAck

inductive WaitFlaw
  | timedOut (awaited : Awaited)
  | failed (code : Int) (reason : String)
  | closed
deriving DecidableEq, Repr

def WaitFlaw.message : WaitFlaw → String
  | .timedOut awaited => "No " ++ awaited.event.inspect ++ " received within 10s"
  | .failed code reason => "Transport failure with code " ++ Decimal.intText code ++ ": " ++ reason
  | .closed => "The broker closed the connection"

def WaitFlaw.error (flaw : WaitFlaw) : ClientError := ⟨.transport, flaw.message⟩

structure Stretch (α : Type) where
  entries : List Entry
  outcome : Except α Unit
  rest : List Step

def Stretch.after {α : Type} (entries : List Entry) (s : Stretch α) : Stretch α :=
  { s with entries := entries ++ s.entries }

def decide? (awaited : Awaited) (event : Broker.Event) : Option (Except WaitFlaw Unit) :=
  if event = awaited.event then some (.ok ())
  else match event with
    | .failed code reason => some (.error (.failed code reason))
    | .disconnected => some (.error .closed)
    | _ => none

def await (awaited : Awaited) (left : Nat) : List Step → Stretch WaitFlaw
  | [] => ⟨[], .error (.timedOut awaited), []⟩
  | .wait ms :: rest =>
    if ms < left then await awaited (left - ms) rest else ⟨[], .error (.timedOut awaited), rest⟩
  | .cancel :: rest => ⟨[], .error (.timedOut awaited), rest⟩
  | .dropReceiver :: rest => await awaited left rest
  | .event event :: rest =>
    match decide? awaited event with
    | some outcome => ⟨[.poll event], outcome, rest⟩
    | none =>
      (await awaited left rest).after [.poll event, .log (.stillWaiting awaited.event event)]

def publish (failures : Failures) (request : Request) (body : Bytes) (script : List Step) : Stretch ClientError :=
  let call := Entry.call (.publish request.topic.text body .atLeastOnce)
  match failures.publish with
  | some info => ⟨[call], .error (callError info), script⟩
  | none =>
    let wait := await .pubAck limit script
    match wait.outcome with
    | .ok () => ⟨call :: wait.entries ++ [.log (.published request.topic)], .ok (), wait.rest⟩
    | .error flaw => ⟨call :: wait.entries, .error flaw.error, wait.rest⟩

def exchange (failures : Failures) (request : Request) (body : Bytes) (script : List Step) : Stretch ClientError :=
  let wait := await .connAck limit script
  match wait.outcome with
  | .ok () => (publish failures request body wait.rest).after wait.entries
  | .error flaw => ⟨wait.entries, .error flaw.error, wait.rest⟩

def send (failures : Failures) (request : Request) (body : Bytes) (script : List Step) : Stretch ClientError :=
  match failures.connect with
  | some info => ⟨[.call .connect], .error (callError info), script⟩
  | none =>
    let middle := exchange failures request body script
    ⟨.call .connect :: middle.entries ++ leave failures, middle.outcome, middle.rest⟩

def run (failures : Failures) (request : Request) (script : List Step) : Stretch ClientError :=
  match request.bodyBytes with
  | .error flaw => ⟨[], .error (.ofData flaw.error), script⟩
  | .ok body => send failures request body script

end DeviceBus.Publication
