import DeviceBus.DataError
import DeviceBus.Decimal.Integer
import DeviceBus.Json.Reader
import DeviceBus.Text.Blank

/-! Notification bodies: a JSON array of objects, each of which is a record with a payload. Devices name the
other fields in several ways; the first name that holds a value of the right type counts, and a field
that none of them gives takes its default. -/
namespace DeviceBus

structure Record where
  resourcePath : String
  payload : String
  timestamp : Option Json
  endpoint : Option String
  contentType : Option String
  maxAge : Option Nat

inductive ElementFlaw
  | notObject
  | payloadNotString
  | payloadMissing
deriving DecidableEq, Repr

inductive EnvelopeFlaw
  | notUtf8 (fault : Utf8.Fault)
  | notJson (fault : Json.Fault)
  | notArray
  | element (index : Nat) (flaw : ElementFlaw)
deriving DecidableEq, Repr

def ElementFlaw.message : ElementFlaw → String
  | .notObject => "is not a JSON object"
  | .payloadNotString => "has a non-string `payload`"
  | .payloadMissing => "lacks `payload`"

def EnvelopeFlaw.message : EnvelopeFlaw → String
  | .notUtf8 fault => "Body is not UTF-8 text: " ++ fault.message
  | .notJson fault => "Body is not valid JSON: " ++ fault.message
  | .notArray => "Body is not a JSON array"
  | .element index flaw => s!"Element {index} " ++ flaw.message

def EnvelopeFlaw.error (flaw : EnvelopeFlaw) : DataError := ⟨.malformedEnvelope, flaw.message⟩

namespace Envelope

def pathKeys : List String := ["resourcePath", "path", "uri"]

def endpointKeys : List String := ["endpoint", "ep", "id"]

def contentTypeKeys : List String := ["ct", "content_type"]

def maxAgeKeys : List String := ["max-age", "max_age"]

def first? {α : Type} (members : List (String × Json)) (keys : List String) (f : Json → Option α) :
    Option α :=
  keys.findSome? fun key => (Json.member? members key).bind f

def seconds? : Json → Option Nat
  | .number (.integer n) => if 0 ≤ n then some n.toNat else none
  | .string s => Decimal.readNat? 0x10000000000000000 (Blank.trim s.toList)
  | _ => none

def recordOf (members : List (String × Json)) (payload : String) : Record where
  resourcePath := (first? members pathKeys Json.string?).getD ""
  payload := payload
  timestamp := (Json.member? members "timestamp").filter fun v => !v.isNull
  endpoint := first? members endpointKeys Json.string?
  contentType := first? members contentTypeKeys Json.string?
  maxAge := first? members maxAgeKeys seconds?

def readElement : Json → Except ElementFlaw Record
  | .object members =>
    match Json.member? members "payload" with
    | some (.string payload) => .ok (recordOf members payload)
    | some _ => .error .payloadNotString
    | none => .error .payloadMissing
  | _ => .error .notObject

def readElements (index : Nat) : List Json → Except EnvelopeFlaw (List Record)
  | [] => .ok []
  | v :: rest => do
    let record ← (readElement v).mapError (.element index)
    let records ← readElements (index + 1) rest
    return record :: records

def ofJson : Json → Except EnvelopeFlaw (List Record)
  | .array elements => readElements 0 elements
  | _ => .error .notArray

def read (body : Bytes) : Except EnvelopeFlaw (List Record) := do
  let text ← (Utf8.decode body).mapError .notUtf8
  let value ← (Json.read text).mapError .notJson
  ofJson value

end Envelope
end DeviceBus
