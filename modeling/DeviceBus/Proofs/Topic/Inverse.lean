import DeviceBus.Proofs.Text.Segments
import DeviceBus.Topic

/-! Topics and lists of segments determine each other. A topic that begins with a slash is put together again from its
segments, and segments are found again in the topic that is put together from them, the empty ones too. -/
namespace DeviceBus.Topic

theorem segments_of_join_iff (segments : List String) :
    (⟨Segments.join segments⟩ : Topic).segments = segments ↔ ∀ s ∈ segments, '/' ∉ s.toList := by
  constructor
  · intro same s member
    rw [← same] at member
    exact Segments.ofPath_free _ s member
  · intro free
    by_cases none : segments = []
    · subst none
      rfl
    · exact Segments.ofPath_join none free

/-- Splitting a topic and joining segments undo each other, on every topic that begins with a slash and on every list of
segments without one. A topic that does not begin with a slash has no segments. -/
theorem splitting_inverts_joining (t : Topic) (segments : List String) :
    ((∃ rest, t.text = "/" ++ rest) → t.segments ≠ [] ∧ Segments.join t.segments = t.text) ∧
    ((¬ ∃ rest, t.text = "/" ++ rest) → t.segments = []) ∧
    ((⟨Segments.join segments⟩ : Topic).segments = segments ↔ ∀ s ∈ segments, '/' ∉ s.toList) := by
  refine ⟨?_, Segments.ofPath_eq_nil_iff.mpr, segments_of_join_iff segments⟩
  intro led
  have some : Segments.ofPath t.text ≠ [] := fun none => Segments.ofPath_eq_nil_iff.mp none led
  exact ⟨some, Segments.join_ofPath some⟩

theorem splitting_inverts_joining_of_empty_segments :
    (⟨"/a//b/"⟩ : Topic).segments = ["a", "", "b", ""] ∧ Segments.join ["a", "", "b", ""] = "/a//b/" ∧
      (⟨"/"⟩ : Topic).segments = [""] ∧ (⟨"a/b"⟩ : Topic).segments = [] := by
  have led : ∃ rest, (⟨"/a//b/"⟩ : Topic).text = "/" ++ rest := ⟨"a//b/", by decide⟩
  have bare : ¬ ∃ rest, (⟨"a/b"⟩ : Topic).text = "/" ++ rest := by
    rintro ⟨rest, same⟩
    rw [← String.toList_inj, String.toList_append] at same
    cases same
  obtain ⟨-, joined⟩ := (splitting_inverts_joining ⟨"/a//b/"⟩ []).1 led
  have parts : (⟨"/a//b/"⟩ : Topic).segments = ["a", "", "b", ""] := by decide
  have lone : Segments.join [""] = "/" := by decide
  refine ⟨parts, parts ▸ joined, ?_, (splitting_inverts_joining ⟨"a/b"⟩ []).2.1 bare⟩
  rw [← lone]
  exact (splitting_inverts_joining ⟨""⟩ [""]).2.2.mpr (by decide)

end DeviceBus.Topic
