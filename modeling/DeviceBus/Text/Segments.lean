/-! Texts made of segments that slashes part. `split` and `join` are inverse: a text with a leading slash is
the join of its segments, and segments without a slash are those of their join. -/
namespace DeviceBus.Segments

def pieces (separator : Char) : List Char → List (List Char)
  | [] => [[]]
  | c :: rest =>
    if c = separator then [] :: pieces separator rest
    else match pieces separator rest with
      | [] => [[c]]
      | piece :: others => (c :: piece) :: others

def split (text : List Char) : List String := (pieces '/' text).map String.ofList

def join (segments : List String) : String :=
  String.ofList (segments.flatMap fun segment => '/' :: segment.toList)

def ofPath (text : String) : List String :=
  match text.toList with
  | '/' :: rest => split rest
  | _ => []

def stripLead : List Char → List Char
  | '/' :: rest => rest
  | text => text

/-- A cut whose bounds are out of order, or beyond the last segment. -/
structure CutFault where
  first : Nat
  last : Nat
  length : Nat
deriving DecidableEq, Repr

def cut (segments : List String) (first last : Nat) : Except CutFault (List String) :=
  if first ≤ last ∧ last ≤ segments.length then .ok ((segments.take last).drop first)
  else .error ⟨first, last, segments.length⟩

end DeviceBus.Segments
