import DeviceBus.DataError
import DeviceBus.Topic

/-! Addresses of device resources: an endpoint, then the segments of a resource path. The constructors accept
only segments that can stand in a topic, so an address can be published on and read back. -/
namespace DeviceBus

inductive AddressFlaw
  | emptySegment
  | reserved (segment : String)
  | emptyPath
deriving DecidableEq, Repr

def AddressFlaw.message : AddressFlaw → String
  | .emptySegment => "empty topic segment"
  | .reserved segment => "topic segment `" ++ segment ++ "` contains a reserved character"
  | .emptyPath => "empty resource path"

def AddressFlaw.error (flaw : AddressFlaw) : DataError := ⟨.topic, flaw.message⟩

structure Address where
  endpoint : String
  resource : List String
deriving DecidableEq, Repr

inductive Verb
  | read
  | subscribe
  | unsubscribe
deriving DecidableEq, Repr

namespace Verb

def all : List Verb := [.read, .subscribe, .unsubscribe]

def label : Verb → String
  | .read => "Read"
  | .subscribe => "Subscribe"
  | .unsubscribe => "Unsubscribe"

def collection : Verb → String
  | .read => "endpoints"
  | .subscribe | .unsubscribe => "subscriptions"

end Verb

namespace Address

def isReserved (c : Char) : Bool := c == '/' || c == '+' || c == '#'

def checkSegment (segment : String) : Except AddressFlaw String :=
  if segment.toList.isEmpty then .error .emptySegment
  else if segment.toList.any isReserved then .error (.reserved segment)
  else .ok segment

/-- The first flaw wins, the endpoint being looked at first. -/
def ofSegments (endpoint : String) (resource : List String) : Except AddressFlaw Address := do
  let endpoint ← checkSegment endpoint
  let resource ← resource.mapM checkSegment
  return ⟨endpoint, resource⟩

def ofObject (endpoint object instanceId resource : String) : Except AddressFlaw Address :=
  ofSegments endpoint [object, instanceId, resource]

def ofPath (endpoint path : String) : Except AddressFlaw Address :=
  match Segments.stripLead path.toList with
  | [] => .error .emptyPath
  | text => ofSegments endpoint (Segments.split text)

def segments (a : Address) : List String := a.endpoint :: a.resource

def resourceUri (a : Address) : String := Segments.join a.resource

end Address

namespace Topic

def request (verb : Verb) (address : Address) : Topic :=
  ⟨Segments.join ("request" :: "domain" :: verb.collection :: address.segments)⟩

def discovery : Topic := ⟨Segments.join ["request", "domain", "endpoints"]⟩

end Topic
end DeviceBus
