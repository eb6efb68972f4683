import DeviceBus.Notice

/-! What can be observed of a client: the calls it makes on its transport, the events it polls and the lines
it logs, in their order. A script says what a transport does: which calls fail, and what polling it
brings. -/
namespace DeviceBus.Session

inductive Entry
  | call (c : Broker.Call)
  | poll (event : Broker.Event)
  | log (notice : Notice)
deriving DecidableEq, Repr

structure Failures where
  connect : Option String
  subscribe : Option String
  publish : Option String
  disconnect : Option String
deriving DecidableEq, Repr

def Failures.none : Failures := ⟨.none, .none, .none, .none⟩

def callError (info : String) : ClientError := ⟨.transport, info⟩

/-- What comes next when a transport is polled. Polling does not return any more after the last step, nor once the client
is told to end its session. -/
inductive Step
  | event (e : Broker.Event)
  | wait (ms : Nat)
  | cancel
  | dropReceiver
deriving DecidableEq, Repr

def leave (failures : Failures) : List Entry :=
  .call .disconnect ::
    match failures.disconnect with
    | some info => [.log (.cannotDisconnect (callError info))]
    | none => []

end DeviceBus.Session
