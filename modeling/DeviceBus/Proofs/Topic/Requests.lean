import DeviceBus.Proofs.Session.Routing
import DeviceBus.Proofs.Topic.Addresses
import DeviceBus.Proofs.Topic.Grammar

/-! The topics on which requests go out. All their segments are valid, so none of them is empty or a wildcard, and their root is
not that of the namespace: a subscriber that hears a request decodes nothing of it. -/
namespace DeviceBus.Topic

/-- A topic on which a request goes out, about an address or for all endpoints. -/
inductive Requesting : Topic → Prop
  | about (verb : Verb) {a : Address} (accepted : a.Accepted) : Requesting (request verb a)
  | discovery : Requesting discovery

variable {t : Topic}

private theorem valid_request (verb : Verb) {a : Address} (accepted : a.Accepted) :
    ∀ s ∈ (request verb a).segments, Address.ValidSegment s := by
  have collection : Address.ValidSegment verb.collection := by
    cases verb <;> exact (Address.checkSegment_ok rfl).2
  rw [segments_request verb accepted]
  simp only [List.forall_mem_cons]
  exact ⟨(Address.checkSegment_ok rfl).2, (Address.checkSegment_ok rfl).2, collection, accepted.segments_valid.2⟩

theorem classify_of_root {root : String} {rest : List String} (parts : t.segments = root :: rest)
    (other : root ≠ "domain") : t.classify = .other := by
  refine classify_of_outside (Bool.eq_false_iff.mpr fun inside => ?_)
  obtain ⟨first, others, same, -⟩ := inNamespace_iff.mp inside
  rw [parts] at same
  exact other (List.cons.inj same).1

namespace Requesting

private theorem exists_segments (requesting : Requesting t) : ∃ rest, t.segments = "request" :: rest := by
  cases requesting with
  | about verb accepted => exact ⟨_, segments_request verb accepted⟩
  | discovery => exact ⟨["domain", "endpoints"], by decide⟩

theorem segments_valid (requesting : Requesting t) : ∀ s ∈ t.segments, Address.ValidSegment s := by
  cases requesting with
  | about verb accepted => exact valid_request verb accepted
  | discovery =>
    rw [show Topic.discovery.segments = ["request", "domain", "endpoints"] by decide]
    exact (Address.mapM_checkSegment_ok rfl).2

private theorem not_mem_text (requesting : Requesting t) {c : Char} (other : c ≠ '/')
    (absent : ∀ s ∈ t.segments, c ∉ s.toList) : c ∉ t.text.toList := by
  obtain ⟨rest, parts⟩ := requesting.exists_segments
  have some : Segments.ofPath t.text ≠ [] := by
    rw [← segments, parts]
    exact List.cons_ne_nil _ _
  have whole : Segments.join t.segments = t.text := Segments.join_ofPath some
  -- The text is its segments with slashes between them.
  intro member
  rw [← whole] at member
  rcases Segments.mem_join member with slash | ⟨s, present, inside⟩
  · exact other slash
  · exact absent s present inside

theorem classify_eq (requesting : Requesting t) : t.classify = .other := by
  obtain ⟨rest, parts⟩ := requesting.exists_segments
  exact classify_of_root parts (by decide)

end Requesting

/-- An address has an endpoint and a resource, with nothing in them that has a meaning in topics. What goes out on a topic
made from it, or on that of a discovery, is passed over by those who subscribe to the namespace. -/
theorem requests_pass_unread :
    (∀ a : Address, a.Accepted → 2 ≤ a.segments.length ∧ Segments.cut a.segments 0 1 = .ok [a.endpoint] ∧
      ∀ s ∈ a.segments, s ≠ "" ∧ '/' ∉ s.toList ∧ '+' ∉ s.toList ∧ '#' ∉ s.toList) ∧
    (∀ (verb : Verb) (a : Address), a.Accepted →
      (request verb a).segments = "request" :: "domain" :: verb.collection :: a.segments) ∧
    ∀ t, Requesting t → '+' ∉ t.text.toList ∧ '#' ∉ t.text.toList ∧ "" ∉ t.segments ∧ t.classify = .other ∧
      ∀ context body, (Session.Dispatch.ofMessage context t.text body).deliveries = [] ∧
        (Session.Dispatch.ofMessage context t.text body).errors = [] := by
  refine ⟨fun a accepted => ?_, fun verb a => segments_request verb, fun t requesting => ?_⟩
  · obtain ⟨resource, valid⟩ := accepted.segments_valid
    have first : 0 < a.resource.length := List.length_pos_iff.mpr resource
    refine ⟨by rw [Address.segments, List.length_cons]; omega, rfl, fun s member => ?_⟩
    exact ⟨(valid s member).nonempty, (valid s member).no_slash, (valid s member).no_wildcard⟩
  · have valid := requesting.segments_valid
    have other := requesting.classify_eq
    refine ⟨requesting.not_mem_text (by decide) fun s member => (valid s member).no_wildcard.1,
      requesting.not_mem_text (by decide) fun s member => (valid s member).no_wildcard.2,
      fun empty => (valid "" empty).nonempty rfl, other, fun context body => ?_⟩
    rw [Session.Dispatch.ofMessage_other context body other]
    exact ⟨rfl, rfl⟩

theorem requests_pass_unread_of_words :
    let a : Address := ⟨"domain", ["ep", "notification"]⟩
    a.Accepted ∧ 2 ≤ a.segments.length ∧
      (request .subscribe a).text = "/request/domain/subscriptions/domain/ep/notification" ∧
      (request .subscribe a).segments = ["request", "domain", "subscriptions", "domain", "ep", "notification"] ∧
      (request .subscribe a).classify = .other := by
  intro a
  have made : Address.ofPath "domain" "/ep/notification" = .ok a := rfl
  have accepted : a.Accepted := .ofPath made
  obtain ⟨addresses, segments, topics⟩ := requests_pass_unread
  obtain ⟨-, -, -, kind, -⟩ := topics _ (.about .subscribe accepted)
  exact ⟨accepted, (addresses a accepted).1, by decide, segments .subscribe a accepted, kind⟩

end DeviceBus.Topic
