import DeviceBus.Proofs.Topic.Addresses

/-! The topics on which devices report. The topic of an address names its endpoint and its resource between the root and
the last segment. All of it is read back for every endpoint but one: a segment that is the word for
notifications is not taken for an endpoint, although an address may have it there. -/
namespace DeviceBus.Topic

def notification (a : Address) : Topic := ⟨"/domain/" ++ a.endpoint ++ a.resourceUri ++ "/notification"⟩

variable {a : Address}

theorem notification_eq (a : Address) :
    notification a = ⟨Segments.join ("domain" :: (a.segments ++ ["notification"]))⟩ := by
  rw [notification, Topic.mk.injEq, ← String.toList_inj]
  simp only [String.toList_append, Address.resourceUri, Segments.toList_join, Address.segments, List.flatMap_cons,
    List.cons_append, List.flatMap_append, List.flatMap_nil, List.append_assoc]
  rfl

theorem segments_notification (accepted : a.Accepted) :
    (notification a).segments = "domain" :: a.endpoint :: (a.resource ++ ["notification"]) := by
  have free : ∀ s ∈ "domain" :: (a.segments ++ ["notification"]), '/' ∉ s.toList := by
    simp only [List.forall_mem_cons, List.forall_mem_append, List.not_mem_nil, false_implies, implies_true, and_true]
    exact ⟨by decide, accepted.no_slash, by decide⟩
  rw [segments, notification_eq, Segments.ofPath_join (List.cons_ne_nil _ _) free]
  rfl

theorem classify_notification (accepted : a.Accepted) : (notification a).classify = .notification := by
  have inside : (notification a).inNamespace = true := by
    rw [inNamespace, segments_notification accepted]
    simpa using accepted.endpoint_valid.nonempty
  have last : ((notification a).segments.drop 1).getLast? = some "notification" := by
    rw [segments_notification accepted, List.drop_one, List.tail_cons, ← List.cons_append, List.getLast?_concat]
  rw [classify, inside, last]
  rfl

theorem endpointName_notification (accepted : a.Accepted) :
    (notification a).endpointName = if a.endpoint = "notification" then none else some a.endpoint := by
  rw [endpointName, if_pos (classify_notification accepted), segments_notification accepted]
  by_cases word : a.endpoint = "notification"
  · simp [word]
  · simp [word]

theorem resourceUri_notification (accepted : a.Accepted) :
    (notification a).resourceUri = if a.endpoint = "notification" then none else some a.resourceUri := by
  rw [resourceUri, endpointName_notification accepted]
  by_cases word : a.endpoint = "notification"
  · rw [if_pos word, if_pos word]
  · obtain ⟨first, others, parts⟩ := List.exists_cons_of_ne_nil accepted.segments_valid.1
    have between : ((notification a).segments.drop 2).dropLast = first :: others := by
      rw [segments_notification accepted, ← parts]
      exact List.dropLast_concat
    rw [if_neg word, if_neg word, between, Address.resourceUri, parts]

/-- The topic of an accepted address is that of a notification. Endpoint and resource are read back from it, whatever
words they are made of, unless the endpoint is the word `notification`; then neither is found. -/
theorem notification_reads_back (accepted : a.Accepted) :
    (notification a).classify = .notification ∧
    ((notification a).endpointName = some a.endpoint ↔ a.endpoint ≠ "notification") ∧
    ((notification a).resourceUri = some a.resourceUri ↔ a.endpoint ≠ "notification") ∧
    (a.endpoint = "notification" → (notification a).endpointName = none ∧ (notification a).resourceUri = none) := by
  have endpoint := endpointName_notification accepted
  have resource := resourceUri_notification accepted
  refine ⟨classify_notification accepted, ?_, ?_, ?_⟩
  · rw [endpoint]
    by_cases word : a.endpoint = "notification" <;> simp [word]
  · rw [resource]
    by_cases word : a.endpoint = "notification" <;> simp [word]
  · intro word
    rw [endpoint, resource, if_pos word, if_pos word]
    exact ⟨rfl, rfl⟩

theorem notification_reads_back_of_words :
    let a : Address := ⟨"domain", ["notification", "response"]⟩
    a.Accepted ∧ (notification a).text = "/domain/domain/notification/response/notification" ∧
      (notification a).endpointName = some "domain" ∧ (notification a).resourceUri = some "/notification/response" := by
  intro a
  have made : Address.ofPath "domain" "/notification/response" = .ok a := rfl
  have accepted : a.Accepted := .ofPath made
  obtain ⟨-, endpoint, resource, -⟩ := notification_reads_back accepted
  exact ⟨accepted, by decide, endpoint.mpr (by decide), resource.mpr (by decide)⟩

/-- An endpoint of that name is accepted, and is lost. -/
theorem notification_endpoint_lost :
    let a : Address := ⟨"notification", ["x"]⟩
    Address.ofPath "notification" "x" = .ok a ∧ (notification a).text = "/domain/notification/x/notification" ∧
      (notification a).classify = .notification ∧ (notification a).endpointName = none ∧
      (notification a).resourceUri = none := by
  refine ⟨rfl, ?_, ?_, ?_, ?_⟩ <;> decide

end DeviceBus.Topic
