/-! Reports of what is wrong with data of the bus: a kind and a description. The modules that refuse data have
causes of their own, which they word as such reports. -/
namespace DeviceBus

inductive DataErrorKind
  | topic
  | request
  | malformedEnvelope
  | encoding
  | decryption
  | invalidKey
  | invalidIv
deriving DecidableEq, Repr

def DataErrorKind.label : DataErrorKind → String
  | .topic => "Topic"
  | .request => "Request"
  | .malformedEnvelope => "Malformed Envelope"
  | .encoding => "Encoding"
  | .decryption => "Decryption"
  | .invalidKey => "Invalid Key"
  | .invalidIv => "Invalid IV"

structure DataError where
  kind : DataErrorKind
  description : String
deriving DecidableEq, Repr

def DataError.text (e : DataError) : String := e.kind.label ++ ": " ++ e.description

end DeviceBus
