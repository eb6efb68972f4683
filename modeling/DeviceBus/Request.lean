import DeviceBus.Address
import DeviceBus.Json.Printer
import DeviceBus.Text.Sink

/-! Control requests: a topic and a JSON body. The bus takes booleans in bodies as the strings `true` and
`false`. -/
namespace DeviceBus

inductive RequestBody
  /-- Whether the bus answers at once: reads ask for that, subscriptions do not. -/
  | sync (now : Bool)
  | unsubscribe
  | discovery (endpointType : String) (stale : Bool)
deriving DecidableEq, Repr

structure Request where
  topic : Topic
  body : RequestBody
deriving DecidableEq, Repr

namespace RequestBody

def flag (b : Bool) : Json := .string (if b then "true" else "false")

def members : RequestBody → List (String × Json)
  | sync now => [("sync", flag now)]
  | unsubscribe => [("unsubscribe", flag true)]
  | discovery endpointType stale => [("type", .string endpointType), ("stale", flag stale)]

def text (body : RequestBody) : String := Json.text (.object body.members)

end RequestBody

structure RequestFlaw where
  topic : Topic
  reason : String
deriving DecidableEq, Repr

def RequestFlaw.message (flaw : RequestFlaw) : String :=
  "Impossible to encode the body for `" ++ flaw.topic.text ++ "`: " ++ flaw.reason

def RequestFlaw.error (flaw : RequestFlaw) : DataError := ⟨.request, flaw.message⟩

namespace Request

def writeBody (request : Request) (sink : Sink) : Except RequestFlaw Bytes :=
  (sink.write [] request.body.text.toList).mapError (⟨request.topic, ·⟩)

def bodyBytes (request : Request) : Except RequestFlaw Bytes := request.writeBody .memory

def read (address : Address) : Request := ⟨.request .read address, .sync true⟩

def subscribe (address : Address) : Request := ⟨.request .subscribe address, .sync false⟩

def unsubscribe (address : Address) : Request := ⟨.request .unsubscribe address, .unsubscribe⟩

def discover (endpointType : String) (stale : Bool) : Request :=
  ⟨.discovery, .discovery endpointType stale⟩

def ofVerb : Verb → Address → Request
  | .read => read
  | .subscribe => subscribe
  | .unsubscribe => unsubscribe

end Request
end DeviceBus
