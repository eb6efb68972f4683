import DeviceBus.Decimal.Integer
import DeviceBus.Text.Quoted

/-! What a client asks of a transport, and what the transport reports back. -/
namespace DeviceBus.Broker

inductive QoS
  | atMostOnce
  | atLeastOnce
  | exactlyOnce
deriving DecidableEq, Repr

namespace QoS

def level : QoS → Nat
  | atMostOnce => 0
  | atLeastOnce => 1
  | exactlyOnce => 2

def ofLevel? : Nat → Option QoS
  | 0 => some atMostOnce
  | 1 => some atLeastOnce
  | 2 => some exactlyOnce
  | _ => none

def label : QoS → String
  | atMostOnce => "AtMostOnce"
  | atLeastOnce => "AtLeastOnce"
  | exactlyOnce => "ExactlyOnce"

end QoS

inductive Call
  | connect
  | subscribe (filter : String) (qos : QoS)
  | publish (topic : String) (body : Bytes) (qos : QoS)
  | disconnect
deriving DecidableEq, Repr

inductive Event
  | connAck
  | subAck (granted : Bool)
  | pubAck
  | message (topic : String) (body : Bytes)
  | disconnected
  | failed (code : Int) (reason : String)
  | ignored
deriving DecidableEq, Repr

def Event.inspect : Event → String
  | connAck => "ConnAck"
  | subAck granted => "SubAck \x7b granted: " ++ (if granted then "true" else "false") ++ " \x7d"
  | pubAck => "PubAck"
  | message topic body =>
    "Message \x7b topic: " ++ Quoted.text topic ++ ", body: " ++ Quoted.bytes body ++ " \x7d"
  | disconnected => "Disconnected"
  | failed code reason =>
    "Failed \x7b code: " ++ Decimal.intText code ++ ", reason: " ++ Quoted.text reason ++ " \x7d"
  | ignored => "Ignored"

end DeviceBus.Broker
