import DeviceBus.Proofs.Json.RoundTrip
import DeviceBus.Proofs.Text.Utf8
import DeviceBus.Proofs.Topic.Addresses
import DeviceBus.Request

/-! What a request was made for shows in its topic and its body. Different addresses have different topics, since no
segment holds a slash; what shares a topic differs in the body, whose text tells its members apart
whatever characters an endpoint type holds. -/
namespace DeviceBus

namespace RequestBody

section Members

def stringMembers (fields : List (String × String)) : List (String × Json) :=
  fields.map fun (key, s) => (key, .string s)

def remainder : List (String × String) → List Char
  | [] => []
  | field :: fields => ',' :: Json.writeMembers (stringMembers (field :: fields))

theorem writeMembers_cons (field : String × String) (fields : List (String × String)) :
    Json.writeMembers (stringMembers (field :: fields)) =
      Json.writeString field.1 ++ ':' :: (Json.writeString field.2 ++ remainder fields) := by
  cases fields with
  | nil => simp only [stringMembers, List.map_cons, List.map_nil, Json.writeMembers, Json.write, remainder, List.append_nil]
  | cons next fields =>
    simp only [remainder, stringMembers, List.map_cons, Json.writeMembers, Json.write, List.append_assoc,
      List.cons_append]

theorem writeMembers_inj {fields others : List (String × String)}
    (same : Json.writeMembers (stringMembers fields) ++ ['\x7d'] =
      Json.writeMembers (stringMembers others) ++ ['\x7d']) : fields = others := by
  -- the closing brace decides where the members end: it can neither open one nor part two of them
  induction fields generalizing others with
  | nil =>
    cases others with
    | nil => rfl
    | cons other others =>
      rw [writeMembers_cons] at same
      cases same
  | cons field fields ih =>
    cases others with
    | nil =>
      rw [writeMembers_cons] at same
      cases same
    | cons other others =>
      simp only [writeMembers_cons, List.append_assoc, List.cons_append] at same
      obtain ⟨key, same⟩ := Json.writeString_append_inj same
      obtain ⟨value, same⟩ := Json.writeString_append_inj (List.cons.inj same).2
      have first : field = other := Prod.ext key value
      cases fields with
      | nil =>
        cases others with
        | nil => rw [first]
        | cons next others => cases same
      | cons next fields =>
        cases others with
        | nil => cases same
        | cons another others => rw [first, ih (List.cons.inj same).2]

end Members

def fields : RequestBody → List (String × String)
  | sync now => [("sync", if now then "true" else "false")]
  | unsubscribe => [("unsubscribe", "true")]
  | discovery endpointType stale => [("type", endpointType), ("stale", if stale then "true" else "false")]

theorem members_eq_fields (body : RequestBody) : body.members = stringMembers body.fields := by
  cases body <;> rfl

theorem flag_inj {one other : Bool} (same : (if one then "true" else "false") = if other then "true" else "false") :
    one = other := by
  cases one <;> cases other <;> simp_all

theorem fields_inj {one other : RequestBody} (same : one.fields = other.fields) : one = other := by
  cases one with
  | sync now =>
    cases other with
    | sync later =>
      simp only [fields, List.cons.injEq, Prod.mk.injEq, true_and, and_true] at same
      rw [flag_inj same]
    | unsubscribe => simp [fields] at same
    | discovery endpointType stale => simp [fields] at same
  | unsubscribe =>
    cases other with
    | sync later => simp [fields] at same
    | unsubscribe => rfl
    | discovery endpointType stale => simp [fields] at same
  | discovery endpointType stale =>
    cases other with
    | sync later => simp [fields] at same
    | unsubscribe => simp [fields] at same
    | discovery another fresh =>
      simp only [fields, List.cons.injEq, Prod.mk.injEq, true_and, and_true] at same
      rw [same.1, flag_inj same.2]

theorem toList_text (body : RequestBody) : body.text.toList = Json.write (.object body.members) := String.toList_ofList

theorem text_inj {one other : RequestBody} (same : one.text = other.text) : one = other := by
  have texts := congrArg String.toList same
  simp only [toList_text, Json.write, members_eq_fields, List.cons_append] at texts
  exact fields_inj (writeMembers_inj (List.cons.inj texts).2)

end RequestBody

namespace Sink

theorem write_memory (held : Bytes) (text : List Char) : memory.write held text = .ok (held ++ Utf8.encode text) := by
  induction text generalizing held with
  | nil =>
    rw [write, List.foldlM_nil, Utf8.encode, List.flatMap_nil, List.append_nil]
    rfl
  | cons c text ih =>
    have first : memory.write held (c :: text) = memory.write (held ++ Utf8.encodeChar c) text := rfl
    rw [first, ih, List.append_assoc]
    rfl

end Sink

namespace Request

theorem bodyBytes_eq (request : Request) : request.bodyBytes = .ok (Utf8.ofString request.body.text) := by
  rw [bodyBytes, writeBody, Sink.write_memory]
  rfl

theorem body_inj {one other : Request} (same : one.bodyBytes = other.bodyBytes) : one.body = other.body := by
  rw [bodyBytes_eq, bodyBytes_eq] at same
  exact RequestBody.text_inj (String.toList_inj.mp (Utf8.encode_injective (Except.ok.inj same)))

end Request

namespace Topic

variable {a b : Address} {verb other : Verb}

theorem request_inj (accepted : a.Accepted) (also : b.Accepted) (same : request verb a = request other b) :
    verb.collection = other.collection ∧ a = b := by
  have segments := congrArg Topic.segments same
  rw [segments_request verb accepted, segments_request other also] at segments
  cases a
  cases b
  simp only [Address.segments, List.cons.injEq] at segments
  obtain ⟨-, -, collection, endpoint, resource⟩ := segments
  exact ⟨collection, by rw [endpoint, resource]⟩

private theorem request_ne_discovery (verb : Verb) (accepted : a.Accepted) : request verb a ≠ discovery := by
  intro same
  have segments := congrArg Topic.segments same
  have alone : discovery.segments = ["request", "domain", "endpoints"] := by decide
  rw [segments_request verb accepted, alone, Address.segments] at segments
  simp only [List.cons.injEq, reduceCtorEq, and_false] at segments

end Topic

inductive Purpose
  | read (address : Address)
  | subscribe (address : Address)
  | unsubscribe (address : Address)
  | discover (endpointType : String) (stale : Bool)
deriving DecidableEq, Repr

namespace Purpose

def request : Purpose → Request
  | read address => .read address
  | subscribe address => .subscribe address
  | unsubscribe address => .unsubscribe address
  | discover endpointType stale => .discover endpointType stale

def Accepted : Purpose → Prop
  | read address | subscribe address | unsubscribe address => address.Accepted
  | discover _ _ => True

variable {one other : Purpose}

private theorem eq_of_request (accepted : one.Accepted) (also : other.Accepted)
    (topics : one.request.topic = other.request.topic) (bodies : one.request.body = other.request.body) :
    one = other := by
  cases one with
  | read a =>
    cases other with
    | read b => rw [(Topic.request_inj accepted also topics).2]
    | subscribe b => cases bodies
    | unsubscribe b => cases bodies
    | discover endpointType stale => cases bodies
  | subscribe a =>
    cases other with
    | read b => cases bodies
    | subscribe b => rw [(Topic.request_inj accepted also topics).2]
    | unsubscribe b => cases bodies
    | discover endpointType stale => cases bodies
  | unsubscribe a =>
    cases other with
    | read b => cases bodies
    | subscribe b => cases bodies
    | unsubscribe b => rw [(Topic.request_inj accepted also topics).2]
    | discover endpointType stale => cases bodies
  | discover endpointType stale =>
    cases other with
    | read b => cases bodies
    | subscribe b => cases bodies
    | unsubscribe b => cases bodies
    | discover another fresh =>
      cases bodies
      rfl

/-- A request is known from what is sent of it, its topic and the bytes of its body. In particular the topics of a
collection tell the addresses apart, and none of them is that of a discovery. -/
theorem known_from_wire :
    (∀ one other : Purpose, one.Accepted → other.Accepted → one.request.topic = other.request.topic →
      one.request.bodyBytes = other.request.bodyBytes → one = other) ∧
    (∀ (verb other : Verb) (a b : Address), a.Accepted → b.Accepted → Topic.request verb a = Topic.request other b →
      verb.collection = other.collection ∧ a = b) ∧
    ∀ (verb : Verb) (a : Address), a.Accepted → Topic.request verb a ≠ Topic.discovery := by
  refine ⟨?_, fun verb other a b => Topic.request_inj, fun verb a => Topic.request_ne_discovery verb⟩
  intro one other accepted also topics bodies
  exact eq_of_request accepted also topics (Request.body_inj bodies)

theorem known_from_wire_of_subscription :
    let a : Address := ⟨"ep", ["303", "0", "5700"]⟩
    Address.ofObject "ep" "303" "0" "5700" = .ok a ∧
      (subscribe a).request.topic = (unsubscribe a).request.topic ∧
      (subscribe a).request.bodyBytes ≠ (unsubscribe a).request.bodyBytes ∧
      Topic.request .read a ≠ Topic.discovery := by
  intro a
  have made : Address.ofObject "ep" "303" "0" "5700" = .ok a := rfl
  have accepted : a.Accepted := .ofObject made
  obtain ⟨apart, -, addressed⟩ := known_from_wire
  refine ⟨made, rfl, ?_, addressed .read a accepted⟩
  intro bodies
  cases apart (subscribe a) (unsubscribe a) accepted accepted rfl bodies

end Purpose

end DeviceBus
