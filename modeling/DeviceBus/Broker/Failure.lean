import DeviceBus.Broker.Event

/-! How a connection fails, with the code that a session ends with. A refusal by the broker and an error of
the network have codes of their own; all else is an error of the protocol. -/
namespace DeviceBus.Broker

def protocolError : Int := 2

def noConnection : Int := 4

def connectionRefused : Int := 5

def connectionLost : Int := 7

def packetLimit : Nat := 10240

inductive PacketFault
  | connectCode (code : Nat)
  | subscribeCode (code : Nat)
  | malformed
  | tooLong (length : Nat)
deriving DecidableEq, Repr

def PacketFault.message : PacketFault → String
  | .connectCode code => s!"Invalid return code received as response for connect = {code}"
  | .subscribeCode code => s!"Invalid subscribe reason code = {code}"
  | .malformed => "Packet is malformed"
  | .tooLong length =>
    s!"Max Payload size of {packetLimit} has been exceeded by packet of {length} bytes"

inductive StateFault
  | invalidState
  | unsolicited (packetId : Nat)
  | awaitPingResp
  | aborted
  | packet (fault : PacketFault)
  | serverDisconnect (reason : String) (text : Option String)
deriving DecidableEq, Repr

def StateFault.message : StateFault → String
  | .invalidState => "Invalid state for a given operation"
  | .unsolicited packetId => s!"Received unsolicited ack pkid: {packetId}"
  | .awaitPingResp => "Last pingreq isn't acked"
  | .aborted => "Connection closed by peer abruptly"
  | .packet fault => "Mqtt serialization/deserialization error: " ++ fault.message
  | .serverDisconnect reason text =>
    "Server sent disconnect with reason `" ++
      (match text with
        | some t => "Some(" ++ Quoted.text t ++ ")"
        | none => "None") ++ "` and code '" ++ reason ++ "' "

inductive Failure
  | refused (reason : String)
  | network (reason : String)
  | state (fault : StateFault)
  | timedOut
  | requestsDone
  /-- Another packet came where the connection was to be accepted. -/
  | unexpectedPacket (packet : String)
deriving DecidableEq, Repr

namespace Failure

def code : Failure → Int
  | refused _ => connectionRefused
  | network _ => connectionLost
  | state _ | timedOut | requestsDone | unexpectedPacket _ => protocolError

def message : Failure → String
  | refused reason => "Connection refused, return code: `" ++ reason ++ "`"
  | network reason => "I/O: " ++ reason
  | state fault => "Mqtt state: " ++ fault.message
  | timedOut => "Timeout"
  | requestsDone => "Requests done"
  | unexpectedPacket packet => "Expected ConnAck packet, received: " ++ packet

def event (f : Failure) : Event := .failed f.code f.message

end Failure

inductive DialFault
  | refused
  | unreachable
deriving DecidableEq, Repr

def DialFault.failure : DialFault → Failure
  | .refused => .network "Connection refused (os error 111)"
  | .unreachable => .network "Network is unreachable (os error 101)"

end DeviceBus.Broker
