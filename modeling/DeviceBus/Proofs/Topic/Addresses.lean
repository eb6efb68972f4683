import DeviceBus.Address
import DeviceBus.Outcome
import DeviceBus.Proofs.Text.Segments

/-! Which addresses there are. Both constructors refuse segments that are empty or hold a reserved character; what they
let through can be joined to a topic and split again. -/
namespace DeviceBus.Address

structure ValidSegment (s : String) : Prop where
  nonempty : s ≠ ""
  clear : ∀ c ∈ s.toList, isReserved c = false

theorem ValidSegment.no_slash {s : String} (valid : ValidSegment s) : '/' ∉ s.toList := by
  intro slash
  cases valid.clear '/' slash

theorem ValidSegment.no_wildcard {s : String} (valid : ValidSegment s) : '+' ∉ s.toList ∧ '#' ∉ s.toList := by
  constructor
  · intro plus
    cases valid.clear '+' plus
  · intro hash
    cases valid.clear '#' hash

inductive Accepted : Address → Prop
  | ofPath {endpoint path : String} {a : Address} (made : Address.ofPath endpoint path = .ok a) : Accepted a
  | ofObject {endpoint object instanceId resource : String} {a : Address}
      (made : Address.ofObject endpoint object instanceId resource = .ok a) : Accepted a

theorem checkSegment_ok {s t : String} (checked : checkSegment s = .ok t) : t = s ∧ ValidSegment s := by
  unfold checkSegment at checked
  split at checked
  · cases checked
  · next nonempty =>
    split at checked
    · cases checked
    · next clear =>
      cases checked
      refine ⟨rfl, ?_, ?_⟩
      · rintro rfl
        exact nonempty rfl
      · simpa using clear

theorem mapM_checkSegment_ok {segments checked : List String} (ok : segments.mapM checkSegment = .ok checked) :
    checked = segments ∧ ∀ s ∈ segments, ValidSegment s := by
  induction segments generalizing checked with
  | nil =>
    cases ok
    exact ⟨rfl, nofun⟩
  | cons s segments ih =>
    rw [List.mapM_cons] at ok
    obtain ⟨first, here, ok⟩ := except_bind_ok ok
    obtain ⟨others, later, same⟩ := except_bind_ok ok
    obtain ⟨rfl, valid⟩ := checkSegment_ok here
    obtain ⟨rfl, all⟩ := ih later
    cases same
    exact ⟨rfl, List.forall_mem_cons.mpr ⟨valid, all⟩⟩

theorem ofSegments_ok {endpoint : String} {resource : List String} {a : Address}
    (made : ofSegments endpoint resource = .ok a) :
    a = ⟨endpoint, resource⟩ ∧ ∀ s ∈ a.segments, ValidSegment s := by
  obtain ⟨first, here, made⟩ := except_bind_ok made
  obtain ⟨others, later, same⟩ := except_bind_ok made
  obtain ⟨rfl, valid⟩ := checkSegment_ok here
  obtain ⟨rfl, all⟩ := mapM_checkSegment_ok later
  cases same
  exact ⟨rfl, List.forall_mem_cons.mpr ⟨valid, all⟩⟩

section Valid

private theorem checkSegment_of_valid {s : String} (valid : ValidSegment s) : checkSegment s = .ok s := by
  have nonempty : ¬ s.toList.isEmpty = true := by
    rw [List.isEmpty_iff, ← String.toList_empty, String.toList_inj]
    exact valid.nonempty
  have clear : ¬ s.toList.any isReserved = true := by simpa using valid.clear
  rw [checkSegment, if_neg nonempty, if_neg clear]

private theorem mapM_checkSegment_of_valid {segments : List String} (valid : ∀ s ∈ segments, ValidSegment s) :
    segments.mapM checkSegment = .ok segments := by
  induction segments with
  | nil => rfl
  | cons s segments ih =>
    rw [List.forall_mem_cons] at valid
    rw [List.mapM_cons, checkSegment_of_valid valid.1, ih valid.2]
    rfl

theorem ofSegments_of_valid (a : Address) (valid : ∀ s ∈ a.segments, ValidSegment s) :
    ofSegments a.endpoint a.resource = .ok a := by
  rw [segments, List.forall_mem_cons] at valid
  rw [ofSegments, checkSegment_of_valid valid.1, mapM_checkSegment_of_valid valid.2]
  rfl

end Valid

namespace Accepted

variable {a : Address}

theorem segments_valid (accepted : Accepted a) : a.resource ≠ [] ∧ ∀ s ∈ a.segments, ValidSegment s := by
  cases accepted with
  | @ofPath _ path _ made =>
    unfold Address.ofPath at made
    split at made
    · cases made
    · obtain ⟨rfl, valid⟩ := ofSegments_ok made
      refine ⟨?_, valid⟩
      simpa [Segments.split] using Segments.pieces_ne_nil '/' (Segments.stripLead path.toList)
  | ofObject made =>
    obtain ⟨rfl, valid⟩ := ofSegments_ok made
    exact ⟨List.cons_ne_nil _ _, valid⟩

theorem endpoint_valid (accepted : Accepted a) : ValidSegment a.endpoint :=
  accepted.segments_valid.2 _ List.mem_cons_self

theorem no_slash (accepted : Accepted a) : ∀ s ∈ a.segments, '/' ∉ s.toList :=
  fun s member => (accepted.segments_valid.2 s member).no_slash

end Accepted

end DeviceBus.Address

namespace DeviceBus.Topic

theorem segments_request (verb : Verb) {a : Address} (accepted : a.Accepted) :
    (request verb a).segments = "request" :: "domain" :: verb.collection :: a.segments := by
  have collection : '/' ∉ verb.collection.toList := by
    cases verb <;> decide
  apply Segments.ofPath_join (List.cons_ne_nil _ _)
  simp only [List.forall_mem_cons]
  exact ⟨by decide, by decide, collection, accepted.no_slash⟩

end DeviceBus.Topic
