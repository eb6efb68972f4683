import DeviceBus.Proofs.Text.Segments
import DeviceBus.Topic

/-! The kinds of topics as a grammar of texts. A topic lies in the namespace if its text is the root, a slash, and a rest
that does not begin with a slash; the kind of such a topic is that of the word which the rest is, or ends in after
a slash. Splitting finds the same. -/
namespace DeviceBus.Topic

structure Rooted (t : Topic) (rest : String) : Prop where
  text : t.text = "/domain/" ++ rest
  nonempty : rest ≠ ""
  lead : rest.toList.head? ≠ some '/'

def EndsIn (word text : String) : Prop := text = word ∨ ∃ before, text = before ++ ("/" ++ word)

theorem kindOfLast_eq_notification_iff {last : Option String} :
    kindOfLast last = .notification ↔ last = some "notification" := by
  cases last with
  | none => simp [kindOfLast]
  | some word =>
    rw [kindOfLast, Option.some_inj]
    split
    · next same => simp [same]
    · next other =>
      split <;> simp [other]

theorem kindOfLast_eq_controlResponse_iff {last : Option String} :
    kindOfLast last = .controlResponse ↔ last = some "response" ∨ last = some "async-response" := by
  cases last with
  | none => simp [kindOfLast]
  | some word =>
    rw [kindOfLast, Option.some_inj, Option.some_inj]
    split
    · next same => simp [same]
    · next other =>
      split
      · next response => simpa using response
      · next neither => simpa using neither

section Words

variable {text word : String}

theorem getLast?_split_iff (free : '/' ∉ word.toList) :
    (Segments.split text.toList).getLast? = some word ↔ EndsIn word text := by
  have pieces : (Segments.split text.toList).getLast? = some word ↔
      (Segments.pieces '/' text.toList).getLast? = some word.toList := by
    rw [Segments.split, List.getLast?_map, Option.map_eq_some_iff]
    constructor
    · rintro ⟨piece, last, rfl⟩
      rw [last, String.toList_ofList]
    · intro last
      exact ⟨_, last, String.ofList_toList⟩
  rw [pieces, Segments.getLast?_pieces_iff free, EndsIn, String.toList_inj]
  refine or_congr_right ⟨?_, ?_⟩
  · rintro ⟨before, same⟩
    refine ⟨String.ofList before, ?_⟩
    rw [← String.toList_inj, same, String.toList_append, String.toList_append, String.toList_ofList]
    rfl
  · rintro ⟨before, rfl⟩
    refine ⟨before.toList, ?_⟩
    rw [String.toList_append, String.toList_append]
    rfl

theorem head?_split_eq_empty_iff :
    (Segments.split text.toList).head? = some "" ↔ text = "" ∨ text.toList.head? = some '/' := by
  have empty : text = "" ↔ text.toList = [] := by rw [← String.toList_inj]; rfl
  rw [empty, ← Segments.head?_pieces_eq_nil_iff, Segments.split, List.head?_map, Option.map_eq_some_iff]
  constructor
  · rintro ⟨piece, first, same⟩
    rw [first, String.ofList_eq_empty_iff.mp same]
  · intro first
    exact ⟨[], first, rfl⟩

end Words

variable {t : Topic} {rest : String}

theorem inNamespace_iff :
    t.inNamespace = true ↔ ∃ first others, t.segments = "domain" :: first :: others ∧ first ≠ "" := by
  unfold inNamespace
  split
  · next root first others same =>
    rw [same, Bool.and_eq_true, beq_iff_eq, bne_iff_ne]
    constructor
    · rintro ⟨rfl, nonempty⟩
      exact ⟨first, others, rfl, nonempty⟩
    · rintro ⟨_, _, same, nonempty⟩
      cases same
      exact ⟨rfl, nonempty⟩
  · next short =>
    refine ⟨nofun, ?_⟩
    rintro ⟨first, others, same, -⟩
    exact absurd same (short _ _ _)

theorem classify_of_outside (outside : t.inNamespace = false) : t.classify = .other := by
  rw [classify, outside]
  rfl

theorem rooted_iff :
    Rooted t rest ↔
      t.segments = "domain" :: Segments.split rest.toList ∧ (Segments.split rest.toList).head? ≠ some "" := by
  rw [ne_eq, head?_split_eq_empty_iff, not_or]
  constructor
  · rintro ⟨text, nonempty, lead⟩
    refine ⟨?_, nonempty, lead⟩
    have whole : t.text.toList = '/' :: ("domain".toList ++ '/' :: rest.toList) := by
      rw [text, String.toList_append]
      rfl
    rw [segments, Segments.ofPath, whole]
    exact congrArg (List.map String.ofList) (Segments.pieces_append (by decide) rest.toList)
  · rintro ⟨parts, nonempty, lead⟩
    refine ⟨?_, nonempty, lead⟩
    have some : Segments.ofPath t.text ≠ [] := by
      rw [← segments, parts]
      exact List.cons_ne_nil _ _
    have whole : Segments.join t.segments = t.text := Segments.join_ofPath some
    rw [← whole, parts, ← String.toList_inj, Segments.toList_join, List.flatMap_cons, ← Segments.toList_join,
      Segments.toList_join_split, String.toList_append]
    rfl

theorem exists_rooted_iff : t.inNamespace = true ↔ ∃ rest, Rooted t rest := by
  rw [inNamespace_iff]
  constructor
  · rintro ⟨first, others, parts, nonempty⟩
    have free : ∀ s ∈ first :: others, '/' ∉ s.toList := by
      intro s member
      have present : s ∈ t.segments := parts ▸ List.mem_cons_of_mem _ member
      exact Segments.ofPath_free t.text s present
    have split := Segments.split_join free
    refine ⟨String.ofList (first.toList ++ (Segments.join others).toList), rooted_iff.mpr ?_⟩
    rw [String.toList_ofList, split]
    exact ⟨parts, by simpa using nonempty⟩
  · rintro ⟨rest, rooted⟩
    obtain ⟨parts, first⟩ := rooted_iff.mp rooted
    cases same : Segments.split rest.toList with
    | nil => exact absurd same (by simpa [Segments.split] using Segments.pieces_ne_nil '/' rest.toList)
    | cons head others =>
      rw [same] at parts first
      exact ⟨head, others, parts, by simpa using first⟩

theorem Rooted.classify_eq (rooted : Rooted t rest) :
    t.classify = kindOfLast (Segments.split rest.toList).getLast? := by
  rw [classify, exists_rooted_iff.mpr ⟨rest, rooted⟩, if_pos rfl, (rooted_iff.mp rooted).1, List.drop_one, List.tail_cons]

theorem Rooted.notification_iff (rooted : Rooted t rest) : t.classify = .notification ↔ EndsIn "notification" rest := by
  rw [rooted.classify_eq, kindOfLast_eq_notification_iff, getLast?_split_iff (by decide)]

theorem Rooted.controlResponse_iff (rooted : Rooted t rest) :
    t.classify = .controlResponse ↔ EndsIn "response" rest ∨ EndsIn "async-response" rest := by
  rw [rooted.classify_eq, kindOfLast_eq_controlResponse_iff, getLast?_split_iff (by decide), getLast?_split_iff (by decide)]

/-- The kind of a topic, by its text alone. -/
theorem classify_by_grammar (t : Topic) :
    (t.inNamespace = true ↔ ∃ rest, Rooted t rest) ∧
    (∀ rest, Rooted t rest →
      (t.classify = .notification ↔ EndsIn "notification" rest) ∧
      (t.classify = .controlResponse ↔ EndsIn "response" rest ∨ EndsIn "async-response" rest)) ∧
    (t.classify = .other ↔ ∀ rest, Rooted t rest →
      ¬ EndsIn "notification" rest ∧ ¬ EndsIn "response" rest ∧ ¬ EndsIn "async-response" rest) := by
  refine ⟨exists_rooted_iff, fun rest rooted => ⟨rooted.notification_iff, rooted.controlResponse_iff⟩, ?_⟩
  constructor
  · intro other rest rooted
    rw [← rooted.notification_iff, ← not_or, ← rooted.controlResponse_iff, other]
    exact ⟨nofun, nofun⟩
  · intro neither
    cases inside : t.inNamespace with
    | false => exact classify_of_outside inside
    | true =>
      obtain ⟨rest, rooted⟩ := exists_rooted_iff.mp inside
      have excluded := neither rest rooted
      rw [← rooted.notification_iff, ← not_or, ← rooted.controlResponse_iff] at excluded
      cases kind : t.classify with
      | notification => exact absurd kind excluded.1
      | controlResponse => exact absurd kind excluded.2
      | other => rfl

theorem classify_by_grammar_of_words :
    let t : Topic := ⟨"/domain/async-response"⟩
    let u : Topic := ⟨"/domain/a/renotification"⟩
    Rooted t "async-response" ∧ t.classify = .controlResponse ∧ Rooted u "a/renotification" ∧ u.classify ≠ .notification := by
  intro t u
  have first : Rooted t "async-response" := ⟨by decide, by decide, by decide⟩
  have second : Rooted u "a/renotification" := ⟨by decide, by decide, by decide⟩
  refine ⟨first, ?_, second, ?_⟩
  · exact ((classify_by_grammar t).2.1 _ first).2.mpr (.inr (.inl rfl))
  · intro notification
    have ends := ((classify_by_grammar u).2.1 _ second).1.mp notification
    rw [← getLast?_split_iff (by decide)] at ends
    exact absurd ends (by decide)

end DeviceBus.Topic
