import DeviceBus.DataError

/-! Reports of a client of the broker: a kind and an information. What is wrong with data becomes such a
report under a kind of its own, or as a matter of configuration or of protocol. -/
namespace DeviceBus

inductive ClientErrorKind
  | transport
  | malformedEnvelope
  | encoding
  | decryption
  | protocol
  | config
deriving DecidableEq, Repr

def ClientErrorKind.label : ClientErrorKind → String
  | .transport => "Transport"
  | .malformedEnvelope => "Malformed Envelope"
  | .encoding => "Encoding"
  | .decryption => "Decryption"
  | .protocol => "Protocol"
  | .config => "Config"

def ClientErrorKind.ofData : DataErrorKind → ClientErrorKind
  | .malformedEnvelope => .malformedEnvelope
  | .encoding => .encoding
  | .decryption => .decryption
  | .invalidKey | .invalidIv => .config
  | .topic | .request => .protocol

structure ClientError where
  kind : ClientErrorKind
  info : String
deriving DecidableEq, Repr

namespace ClientError

def text (e : ClientError) : String := e.kind.label ++ ": " ++ e.info

def ofData (e : DataError) : ClientError := ⟨.ofData e.kind, e.description⟩

def refusedRequest : ClientError := ⟨.transport, "Failed to send mqtt requests to eventloop"⟩

def notConnected : ClientError := ⟨.transport, "The transport is not connected"⟩

end ClientError
end DeviceBus
