/-! JSON values. The members of an object are kept in the order of their keys, each key once, so that equal
objects are equal as values. -/
namespace DeviceBus

/-- An integer that fits 64 bits, signed or not, or any other number. -/
inductive JsonNumber
  | integer (n : Int)
  | float (x : Float)

inductive Json
  | null
  | bool (b : Bool)
  | number (n : JsonNumber)
  | string (s : String)
  | array (elements : List Json)
  | object (members : List (String × Json))

namespace Json

def insertMember (key : String) (value : Json) : List (String × Json) → List (String × Json)
  | [] => [(key, value)]
  | (k, v) :: rest =>
    if key < k then (key, value) :: (k, v) :: rest
    else if key = k then (key, value) :: rest
    else (k, v) :: insertMember key value rest

def ofMembers (written : List (String × Json)) : Json :=
  .object (written.foldl (fun members (key, value) => insertMember key value members) [])

def member? (members : List (String × Json)) (key : String) : Option Json := members.lookup key

def string? : Json → Option String
  | .string s => some s
  | _ => none

def isNull : Json → Bool
  | .null => true
  | _ => false

end Json
end DeviceBus
