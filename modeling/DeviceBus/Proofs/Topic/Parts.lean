import DeviceBus.Proofs.Topic.Grammar
import DeviceBus.Proofs.Topic.Notifications

/-! The parts of a notification topic rebuild it. A topic with an endpoint has at least three segments, the root, the
endpoint and the last one, so a cut between the latter two is never out of bounds; and with what is cut out the topic
is that of an address, be it one that can be constructed or not. -/
namespace DeviceBus.Topic

variable {t : Topic} {endpoint : String} {resource : List String}

private theorem last_of_notification (kind : t.classify = .notification) :
    t.inNamespace = true ∧ (t.segments.drop 1).getLast? = some "notification" := by
  cases inside : t.inNamespace with
  | false =>
    rw [classify_of_outside inside] at kind
    cases kind
  | true =>
    rw [classify, inside, if_pos rfl, kindOfLast_eq_notification_iff] at kind
    exact ⟨rfl, kind⟩

private theorem segments_of_endpointName (named : t.endpointName = some endpoint) :
    endpoint ≠ "" ∧ ∃ resource, t.segments = "domain" :: endpoint :: (resource ++ ["notification"]) := by
  rw [endpointName] at named
  split at named
  · next kind =>
    obtain ⟨inside, last⟩ := last_of_notification kind
    obtain ⟨first, others, parts, nonempty⟩ := inNamespace_iff.mp inside
    rw [parts, List.drop_one, List.tail_cons] at last
    rw [parts, Option.filter_eq_some_iff] at named
    obtain ⟨same, other⟩ := named
    cases same
    rcases List.eq_nil_or_concat others with rfl | ⟨resource, word, rfl⟩
    · cases last
      simp at other
    · rw [List.concat_eq_append] at parts last
      rw [← List.cons_append, List.getLast?_concat] at last
      cases last
      exact ⟨nonempty, resource, parts⟩
  · cases named

private theorem resourceUri_of_parts (named : t.endpointName = some endpoint)
    (parts : t.segments = "domain" :: endpoint :: (resource ++ ["notification"])) :
    t.resourceUri = if resource = [] then none else some (Segments.join resource) := by
  have between : (t.segments.drop 2).dropLast = resource := by
    rw [parts]
    exact List.dropLast_concat
  rw [resourceUri, named, between]
  cases resource <;> rfl

private theorem cut_of_parts (parts : t.segments = "domain" :: endpoint :: (resource ++ ["notification"])) :
    Segments.cut t.segments 2 (t.segments.length - 1) = .ok resource := by
  rw [parts, Segments.cut, if_pos (by simp)]
  simp

theorem eq_notification_of_parts (parts : t.segments = "domain" :: endpoint :: (resource ++ ["notification"])) :
    t = notification ⟨endpoint, resource⟩ := by
  have some : Segments.ofPath t.text ≠ [] := by
    rw [← segments, parts]
    exact List.cons_ne_nil _ _
  have whole : Segments.join t.segments = t.text := Segments.join_ofPath some
  rw [notification_eq, Address.segments, List.cons_append, ← parts, whole]

private theorem resourceCut_eq (t : Topic) : t.resourceCut = .ok t.resourceUri := by
  cases named : t.endpointName with
  | none => rw [resourceCut, resourceUri, named]
  | some endpoint =>
    obtain ⟨-, resource, parts⟩ := segments_of_endpointName named
    rw [resourceUri_of_parts named parts, resourceCut, named]
    simp only [cut_of_parts parts, Except.map]
    cases resource <;> rfl

/-- The parts of every topic: the cut that finds its resource is within bounds, a resource comes with an endpoint, and
endpoint and resource between them make up the whole text. -/
theorem parts_rebuild_topic (t : Topic) :
    t.resourceCut = .ok t.resourceUri ∧
    (∀ uri, t.resourceUri = some uri →
      uri ≠ "" ∧ uri.toList.head? = some '/' ∧ ∃ endpoint, t.endpointName = some endpoint) ∧
    ∀ endpoint, t.endpointName = some endpoint → endpoint ≠ "" ∧ '/' ∉ endpoint.toList ∧
      t.text = "/domain/" ++ endpoint ++ t.resourceUri.getD "" ++ "/notification" := by
  refine ⟨resourceCut_eq t, fun uri found => ?_, fun endpoint named => ?_⟩
  · cases named : t.endpointName with
    | none =>
      rw [resourceUri, named] at found
      cases found
    | some endpoint =>
      obtain ⟨-, resource, parts⟩ := segments_of_endpointName named
      rw [resourceUri_of_parts named parts] at found
      cases resource with
      | nil => cases found
      | cons first others =>
        cases found
        have lead : (Segments.join (first :: others)).toList.head? = some '/' := by
          rw [Segments.toList_join]
          rfl
        refine ⟨fun empty => ?_, lead, endpoint, rfl⟩
        rw [empty] at lead
        cases lead
  · obtain ⟨nonempty, resource, parts⟩ := segments_of_endpointName named
    refine ⟨nonempty, ?_, ?_⟩
    · have present : endpoint ∈ t.segments := by simp [parts]
      exact Segments.ofPath_free t.text endpoint present
    · have uri : t.resourceUri.getD "" = Segments.join resource := by
        rw [resourceUri_of_parts named parts]
        cases resource <;> rfl
      rw [uri]
      exact congrArg Topic.text (eq_notification_of_parts parts)

theorem parts_rebuild_topic_of_empty_segments :
    let t : Topic := ⟨"/domain/a//notification/notification"⟩
    t.endpointName = some "a" ∧ t.resourceUri = some "//notification" ∧
      t.text = "/domain/" ++ "a" ++ "//notification" ++ "/notification" := by
  intro t
  have named : t.endpointName = some "a" := by decide
  have uri : t.resourceUri = some "//notification" := by decide
  obtain ⟨-, -, whole⟩ := (parts_rebuild_topic t).2.2 "a" named
  rw [uri] at whole
  exact ⟨named, uri, whole⟩

end DeviceBus.Topic
