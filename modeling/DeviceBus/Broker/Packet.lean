import DeviceBus.Broker.Failure
import DeviceBus.Text.Utf8

/-! What a broker sends, and the event that a client makes of it. Packets that break the format fail the
connection before their place in the exchange is looked at. -/
namespace DeviceBus.Broker

inductive Packet
  | connAck (code : Nat)
  | subAck (codes : List Nat)
  | pubAck (reason : Nat)
  | publish (topic body : Bytes) (qos : Nat)
  | disconnect (reason : Nat) (text : Option String)
  | pingResp
  | unsubAck
  | close
deriving DecidableEq, Repr

inductive SubscribeAnswer
  | success (qos : QoS)
  | failure (reason : String)
deriving DecidableEq, Repr

namespace SubscribeAnswer

def isSuccess : SubscribeAnswer → Bool
  | success _ => true
  | failure _ => false

def inspect : SubscribeAnswer → String
  | success qos => "Success(" ++ qos.label ++ ")"
  | failure reason => reason

def failures : List (Nat × String) :=
  [(128, "Unspecified"), (131, "ImplementationSpecific"), (135, "NotAuthorized"),
    (143, "TopicFilterInvalid"), (145, "PkidInUse"), (151, "QuotaExceeded"),
    (158, "SharedSubscriptionsNotSupported"), (161, "SubscriptionIdNotSupported"),
    (162, "WildcardSubscriptionsNotSupported")]

def ofCode? (code : Nat) : Option SubscribeAnswer :=
  match QoS.ofLevel? code with
  | some qos => some (success qos)
  | none => (failures.lookup code).map failure

end SubscribeAnswer

def granted (answers : List SubscribeAnswer) : Bool :=
  !answers.isEmpty && answers.all SubscribeAnswer.isSuccess

def refusals : List (Nat × String) :=
  [(128, "UnspecifiedError"), (129, "MalformedPacket"), (130, "ProtocolError"),
    (131, "ImplementationSpecificError"), (132, "UnsupportedProtocolVersion"),
    (133, "ClientIdentifierNotValid"), (134, "BadUserNamePassword"), (135, "NotAuthorized"),
    (136, "ServerUnavailable"), (137, "ServerBusy"), (138, "Banned"), (140, "BadAuthenticationMethod"),
    (144, "TopicNameInvalid"), (149, "PacketTooLarge"), (151, "QuotaExceeded"),
    (159, "ConnectionRateExceeded")]

def disconnections : List (Nat × String) :=
  [(0, "NormalDisconnection"), (4, "DisconnectWithWillMessage"), (128, "UnspecifiedError"),
    (129, "MalformedPacket"), (130, "ProtocolError"), (131, "ImplementationSpecificError"),
    (135, "NotAuthorized"), (137, "ServerBusy"), (139, "ServerShuttingDown"), (141, "KeepAliveTimeout"),
    (142, "SessionTakenOver"), (143, "TopicFilterInvalid"), (144, "TopicNameInvalid"),
    (147, "ReceiveMaximumExceeded"), (148, "TopicAliasInvalid"), (149, "PacketTooLarge"),
    (150, "MessageRateTooHigh"), (151, "QuotaExceeded"), (152, "AdministrativeAction"),
    (153, "PayloadFormatInvalid"), (154, "RetainNotSupported"), (155, "QoSNotSupported"),
    (156, "UseAnotherServer"), (157, "ServerMoved"), (158, "SharedSubscriptionNotSupported"),
    (159, "ConnectionRateExceeded"), (160, "MaximumConnectTime"),
    (161, "SubscriptionIdentifiersNotSupported"), (162, "WildcardSubscriptionsNotSupported")]

namespace Packet

def name : Packet → String
  | connAck _ => "ConnAck"
  | subAck _ => "SubAck"
  | pubAck _ => "PubAck"
  | publish .. => "Publish"
  | disconnect .. => "Disconnect"
  | pingResp => "PingResp(PingResp)"
  | unsubAck => "UnsubAck"
  | close => "Close"

/-- The length of a published packet after its fixed header: the topic with its own length, an identifier if
deliveries are acknowledged, an empty list of properties, and the body. -/
def publishLength (topic body : Bytes) (qos : Nat) : Nat :=
  2 + topic.length + (if 0 < qos then 2 else 0) + 1 + body.length

def answers (codes : List Nat) : Except PacketFault (List SubscribeAnswer) :=
  if codes.isEmpty then .error .malformed
  else codes.mapM fun code =>
    match SubscribeAnswer.ofCode? code with
    | some answer => .ok answer
    | none => .error (.subscribeCode code)

def publishLengthFault (topic body : Bytes) (qos : Nat) : Option PacketFault :=
  let length := publishLength topic body qos
  if packetLimit < length then some (.tooLong length) else none

def fault? : Packet → Option PacketFault
  | connAck code => if code = 0 ∨ (refusals.lookup code).isSome then none else some (.connectCode code)
  | subAck codes =>
    match answers codes with
    | .ok _ => none
    | .error fault => some fault
  | publish topic body qos => publishLengthFault topic body qos
  | disconnect reason _ =>
    if (disconnections.lookup reason).isSome then none else some (.connectCode reason)
  | pubAck _ | pingResp | unsubAck | close => none

def dueEvent : Packet → Event
  | connAck code =>
    if code = 0 then .connAck else (Failure.refused ((refusals.lookup code).getD "")).event
  | subAck codes => .subAck (granted (codes.filterMap SubscribeAnswer.ofCode?))
  | pubAck _ => .pubAck
  | publish topic body _ =>
    match Utf8.toString? topic with
    | some topic => .message topic body
    | none => .ignored
  | disconnect reason text =>
    (Failure.state (.serverDisconnect ((disconnections.lookup reason).getD "") text)).event
  | pingResp | unsubAck => .ignored
  | close => (Failure.state .aborted).event

def answersConnect : Packet → Bool
  | connAck _ | close => true
  | _ => false

def event (connecting : Bool) (packet : Packet) : Event :=
  match packet.fault? with
  | some fault => (Failure.state (.packet fault)).event
  | none =>
    if connecting && !packet.answersConnect then (Failure.unexpectedPacket packet.name).event
    else packet.dueEvent

end Packet
end DeviceBus.Broker
