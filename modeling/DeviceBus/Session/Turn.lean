import DeviceBus.Session.Dispatch
import DeviceBus.Session.Trace

/-! What a session does on one event. The phase decides which events it expects: an acceptance while
connecting, the answer to its subscription while subscribing, messages from then on. The end of the
connection is taken in every phase, and any other event changes nothing. -/
namespace DeviceBus.Session

structure Setup where
  context : CipherContext
  failures : Failures

inductive Next
  | stay (phase : Phase)
  | finish (phase : Phase) (exit : Exit)
deriving DecidableEq, Repr

structure Turn where
  entries : List Entry
  deliveries : List Delivery
  next : Next

def faultedBy (code : Int) : Next := .finish .faulted (.faulted code)

def onAccepted (failures : Failures) : Turn :=
  let asked := [.log .connected, .call (.subscribe Topic.wildcard .atMostOnce)]
  match failures.subscribe with
  | none => ⟨asked, [], .stay .subscribing⟩
  | some info => ⟨asked ++ [.log (.cannotSubscribe (callError info))], [], faultedBy Broker.protocolError⟩

def onSubscribed (failures : Failures) (granted : Bool) : Turn :=
  if granted then ⟨[.log .listening], [], .stay .listening⟩
  else ⟨.log .subscriptionRefused :: leave failures, [], faultedBy Broker.protocolError⟩

def onMessage (context : CipherContext) (phase : Phase) (topic : String) (body : Bytes) : Turn :=
  let dispatch := Dispatch.ofMessage context topic body
  ⟨dispatch.notices.map .log ++ dispatch.errors.map fun e => .log (.notDecoded topic e),
    dispatch.deliveries, .stay phase⟩

def onUnexpected (phase : Phase) (event : Broker.Event) : Turn :=
  ⟨[.log (.eventIgnored phase event)], [], .stay phase⟩

def turn (setup : Setup) (phase : Phase) (event : Broker.Event) : Turn :=
  match event with
  | .connAck => if phase = .connecting then onAccepted setup.failures else onUnexpected phase event
  | .subAck granted =>
    if phase = .subscribing then onSubscribed setup.failures granted else onUnexpected phase event
  | .message topic body =>
    if phase = .subscribing ∨ phase = .listening then onMessage setup.context phase topic body
    else onUnexpected phase event
  | .disconnected => ⟨[.log .disconnected], [], .finish .disconnected .disconnected⟩
  | .failed code reason => ⟨[.log (.transportFailed code reason)], [], faultedBy code⟩
  | .pubAck | .ignored => onUnexpected phase event

end DeviceBus.Session
