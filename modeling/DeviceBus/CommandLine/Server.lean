import DeviceBus.Session.Trace

/-! A broker that serves one client once, and what can be seen of the two: the packets that the client sends
and the lines that it logs. -/
namespace DeviceBus.CommandLine
open Broker Session

inductive Finish
  | close
  | disconnect
  | interrupt
deriving DecidableEq, Repr

structure Server where
  connAck : Option Nat
  pubAck : Option Nat
  subAck : List Nat
  messages : List (Bytes × Bytes)
  finish : Finish
deriving DecidableEq, Repr

inductive Arrival
  | packet (connecting : Bool) (p : Packet)
  | interrupt
deriving DecidableEq, Repr

namespace Server

def shuttingDown : Nat := 139

def finishArrival (s : Server) : Arrival :=
  match s.finish with
  | .close => .packet false .close
  | .disconnect => .packet false (.disconnect shuttingDown none)
  | .interrupt => .interrupt

def afterConnect (s : Server) (rest : List Arrival) : List Arrival :=
  match s.connAck with
  | none => [.packet true .close]
  | some code => .packet true (.connAck code) :: rest

def toListener (s : Server) : List Arrival :=
  s.afterConnect
    (if s.subAck.isEmpty then [.packet false .close]
    else
      .packet false (.subAck s.subAck) ::
        s.messages.map (fun (topic, body) => .packet false (.publish topic body 1)) ++ [s.finishArrival])

def toPublisher (s : Server) : List Arrival :=
  s.afterConnect
    [.packet false
      (match s.pubAck with
        | some reason => .pubAck reason
        | none => .close)]

end Server

def dialStep (fault : DialFault) : Step := .event fault.failure.event

def Arrival.step : Arrival → Step
  | packet connecting p => .event (p.event connecting)
  | interrupt => .cancel

inductive Sending
  | connect (clientId : String) (keepAlive : Nat)
  | subscribe (filter : String) (qos : QoS)
  | publish (topic : String) (body : Bytes) (qos : QoS)
  | pubAck
  | disconnect
deriving DecidableEq, Repr

inductive Sight
  | sent (s : Sending)
  | logged (notice : Notice)
deriving DecidableEq, Repr

def packetNotices : Packet → List Notice
  | .subAck codes =>
    let answers := codes.filterMap SubscribeAnswer.ofCode?
    if granted answers then [] else [.filtersRefused answers]
  | .publish topic _ _ =>
    match Utf8.decode topic with
    | .ok _ => []
    | .error fault => [.topicNotUtf8 fault]
  | _ => []

def packetReplies : Packet → List Sending
  | .publish .. => [.pubAck]
  | _ => []

def Arrival.sights : Arrival → List Sight
  | packet _ p =>
    match p.fault? with
    | some _ => []
    | none => (packetReplies p).map .sent ++ (packetNotices p).map .logged
  | interrupt => []

def sendingOf (clientId : String) (keepAlive : Nat) : Call → Sending
  | .connect => .connect clientId keepAlive
  | .subscribe filter qos => .subscribe filter qos
  | .publish topic body qos => .publish topic body qos
  | .disconnect => .disconnect

def failedEvent : Event → Bool
  | .failed .. => true
  | _ => false

def sights (send : Call → Sending) (alive : Bool) : List Entry → List Arrival → List Sight
  | [], _ => []
  | .call c :: entries, arrivals =>
    (if alive then [.sent (send c)] else []) ++ sights send alive entries arrivals
  | .log .cancelled :: entries, arrivals =>
    .logged .interrupted :: .logged .cancelled :: sights send alive entries arrivals
  | .log notice :: entries, arrivals => .logged notice :: sights send alive entries arrivals
  | .poll event :: entries, [] => sights send (alive && !failedEvent event) entries []
  | .poll event :: entries, arrival :: arrivals =>
    arrival.sights ++ sights send (alive && !failedEvent event) entries arrivals

def Sight.sending? : Sight → Option Sending
  | sent s => some s
  | logged _ => none

def Sight.notice? : Sight → Option Notice
  | sent _ => none
  | logged notice => some notice

structure Outcome where
  status : Nat
  lines : List String
  notices : List Notice
  sendings : List Sending
deriving DecidableEq, Repr

namespace Outcome

def usageError : Outcome := ⟨2, [], [], []⟩

def failureStatus : Nat := 1

def abortedStatus : Nat := 101

def failed (e : ClientError) : Outcome := ⟨failureStatus, [], [.failed e], []⟩

def aborted (notices : List Notice) : Outcome := ⟨abortedStatus, [], notices, []⟩

def shown (notices : List Notice) : List Notice := notices.filter fun n => n.level ≠ .debug

def ofSights (status : Nat) (lines : List String) (before : List Notice) (seen : List Sight)
    (after : List Notice) : Outcome :=
  ⟨status, lines, shown (before ++ seen.filterMap Sight.notice? ++ after),
    seen.filterMap Sight.sending?⟩

end Outcome
end DeviceBus.CommandLine
