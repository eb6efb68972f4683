import DeviceBus.Broker.Failure
import DeviceBus.Broker.Filter
import DeviceBus.Broker.Settings

/-! The connection of a client to its broker. Opening it makes a session with an empty queue of requests, unless the
interval between keep-alive messages is too short; that aborts the caller. A disconnection ends the session and is
remembered until the next opening, even if its request is refused or waits. What goes on between session and broker
while an action runs is given from outside: requests leave the queue only once the broker has accepted the session, so
with a broker that cannot be reached they stay in it. -/
namespace DeviceBus.Broker

structure Connection where
  settings : Settings
  session : Option (List Call)
  disconnected : Bool
deriving DecidableEq, Repr

inductive Action
  | call (c : Call)
  | poll
deriving DecidableEq, Repr

inductive Answer
  | done
  | refused (e : ClientError)
  | polled (event : Event)
  /-- The call waits for a place in the queue and never returns. -/
  | waiting
deriving DecidableEq, Repr

inductive KeepAliveFlaw
  | tooShort
deriving DecidableEq, Repr

def KeepAliveFlaw.message : KeepAliveFlaw → String
  | .tooShort => "Keep alives should be >= 5 secs"

def leastKeepAlive : UInt16 := 5

def Settings.checkKeepAlive (s : Settings) : Except KeepAliveFlaw Unit :=
  if s.keepAlive < leastKeepAlive then .error .tooShort else .ok ()

/-- What polling a session brings, unless nothing ever does; how many of its queued requests go out, oldest first; and
whether its queue takes requests at all. -/
structure Traffic where
  event : Option Event
  sent : Nat
  accepts : Bool
deriving DecidableEq, Repr

def Traffic.unreachable (dial : DialFault) : Traffic := ⟨some dial.failure.event, 0, true⟩

namespace Connection

def capacity : Nat := 10

def ofSettings (settings : Settings) : Connection := ⟨settings, none, false⟩

def push (c : Connection) (queue : List Call) (request : Call) : Answer × Connection :=
  if queue.length < capacity then (.done, { c with session := some (queue ++ [request]) })
  else (.waiting, c)

def request (c : Connection) (accepted : Bool) (request : Call) : Answer × Connection :=
  match c.session with
  | none => (.refused .notConnected, c)
  | some queue => if accepted then c.push queue request else (.refused .refusedRequest, c)

def disconnectIn (traffic : Traffic) (c : Connection) : Answer × Connection :=
  match c.session with
  | none => (.done, c)
  | some queue =>
    (if traffic.accepts then (if queue.length < capacity then .done else .waiting) else .refused .refusedRequest,
      { c with session := none, disconnected := true })

def pollIn (traffic : Traffic) (c : Connection) : Answer × Connection :=
  match c.session with
  | some queue =>
    ((traffic.event.map Answer.polled).getD .waiting, { c with session := some (queue.drop traffic.sent) })
  | none =>
    (.polled (if c.disconnected then .disconnected else .failed noConnection ClientError.notConnected.info), c)

def actIn (traffic : Traffic) (c : Connection) : Action → Except KeepAliveFlaw (Answer × Connection)
  | .call .connect => do
    c.settings.checkKeepAlive
    return (.done, { c with session := some [], disconnected := false })
  | .call (.subscribe filter qos) =>
    .ok (c.request (canSubscribe filter && traffic.accepts) (.subscribe filter qos))
  | .call (.publish topic body qos) =>
    .ok (c.request (canPublish topic && traffic.accepts) (.publish topic body qos))
  | .call .disconnect => .ok (c.disconnectIn traffic)
  | .poll => .ok (c.pollIn traffic)

def runIn (c : Connection) : List (Action × Traffic) → Except KeepAliveFlaw (List Answer × Connection)
  | [] => .ok ([], c)
  | (action, traffic) :: rest => do
    let (answer, c) ← c.actIn traffic action
    let (answers, c) ← runIn c rest
    return (answer :: answers, c)

def run (dial : DialFault) (c : Connection) (actions : List Action) : Except KeepAliveFlaw (List Answer × Connection) :=
  c.runIn (actions.map (·, .unreachable dial))

end Connection
end DeviceBus.Broker
