import DeviceBus.Text.Segments

/-! Topics of the bus. Traffic for subscribers lives under the root `domain`, control requests under
`request/domain`; the last segment of the former says what a message is. -/
namespace DeviceBus

structure Topic where
  text : String
deriving DecidableEq, Repr

inductive TopicKind
  | notification
  | controlResponse
  | other
deriving DecidableEq, Repr

namespace Topic

def wildcard : String := "/domain/#"

def segments (t : Topic) : List String := Segments.ofPath t.text

def inNamespace (t : Topic) : Bool :=
  match t.segments with
  | root :: first :: _ => root == "domain" && first != ""
  | _ => false

def kindOfLast : Option String → TopicKind
  | some last =>
    if last = "notification" then .notification
    else if last = "response" ∨ last = "async-response" then .controlResponse
    else .other
  | none => .other

def classify (t : Topic) : TopicKind :=
  if t.inNamespace then kindOfLast (t.segments.drop 1).getLast? else .other

def endpointName (t : Topic) : Option String :=
  if t.classify = .notification then t.segments[1]?.filter (· != "notification") else none

def resourceUri (t : Topic) : Option String :=
  match t.endpointName with
  | none => none
  | some _ =>
    match (t.segments.drop 2).dropLast with
    | [] => none
    | resource => some (Segments.join resource)

/-- The same by a cut through the segments, made wherever there is an endpoint with no look at how many there are. -/
def resourceCut (t : Topic) : Except Segments.CutFault (Option String) :=
  match t.endpointName with
  | none => .ok none
  | some _ =>
    (Segments.cut t.segments 2 (t.segments.length - 1)).map fun resource =>
      if resource.isEmpty then none else some (Segments.join resource)

end Topic
end DeviceBus
