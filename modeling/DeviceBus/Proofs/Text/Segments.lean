import DeviceBus.Text.Segments

/-! Segments read back. A piece of a text ends at the next separator, so the segments of a join are the ones that were
joined, provided that none of them holds a slash. No segment of a text does, and their join is the text again. -/
namespace DeviceBus.Segments

private theorem pieces_eq_singleton {separator : Char} {piece : List Char} (free : separator ∉ piece) :
    pieces separator piece = [piece] := by
  induction piece with
  | nil => rfl
  | cons c piece ih =>
    obtain ⟨other, free⟩ := not_or.mp (mt List.mem_cons.mpr free)
    rw [pieces, if_neg (Ne.symm other), ih free]

theorem pieces_ne_nil (separator : Char) (text : List Char) : pieces separator text ≠ [] := by
  fun_cases pieces separator text <;> simp

private theorem pieces_append_separator (separator : Char) (before after : List Char) :
    pieces separator (before ++ separator :: after) = pieces separator before ++ pieces separator after := by
  induction before with
  | nil => simp [pieces]
  | cons c before ih =>
    rw [List.cons_append, pieces, pieces, ih]
    split
    · rfl
    · obtain ⟨piece, others, same⟩ := List.exists_cons_of_ne_nil (pieces_ne_nil separator before)
      rw [same]
      rfl

theorem pieces_append {separator : Char} {piece : List Char} (free : separator ∉ piece) (rest : List Char) :
    pieces separator (piece ++ separator :: rest) = piece :: pieces separator rest := by
  rw [pieces_append_separator, pieces_eq_singleton free, List.singleton_append]

private theorem pieces_flatMap (separator : Char) (text : List Char) :
    ((pieces separator text).flatMap fun piece => separator :: piece) = separator :: text := by
  induction text with
  | nil => rfl
  | cons c text ih =>
    rw [pieces]
    split
    · next same =>
      rw [List.flatMap_cons, ih, same]
      rfl
    · obtain ⟨piece, others, same⟩ := List.exists_cons_of_ne_nil (pieces_ne_nil separator text)
      rw [same] at ih ⊢
      simpa using ih

private theorem pieces_free (separator : Char) (text : List Char) : ∀ piece ∈ pieces separator text, separator ∉ piece := by
  induction text with
  | nil => simp [pieces]
  | cons c text ih =>
    rw [pieces]
    split
    · simpa using ih
    · next other =>
      obtain ⟨piece, others, same⟩ := List.exists_cons_of_ne_nil (pieces_ne_nil separator text)
      rw [same, List.forall_mem_cons] at ih
      rw [same, List.forall_mem_cons, List.mem_cons, not_or]
      exact ⟨⟨Ne.symm other, ih.1⟩, ih.2⟩

theorem getLast?_pieces_iff {separator : Char} {text word : List Char} (free : separator ∉ word) :
    (pieces separator text).getLast? = some word ↔ text = word ∨ ∃ before, text = before ++ separator :: word := by
  constructor
  · intro last
    obtain ⟨init, same⟩ := List.getLast?_eq_some_iff.mp last
    have whole := pieces_flatMap separator text
    rw [same, List.flatMap_append, List.flatMap_singleton] at whole
    cases init with
    | nil => exact .inl (List.cons.inj whole).2.symm
    | cons piece others => exact .inr ⟨_, (List.cons.inj whole).2.symm⟩
  · rintro (rfl | ⟨before, rfl⟩)
    · rw [pieces_eq_singleton free, List.getLast?_singleton]
    · rw [pieces_append_separator, pieces_eq_singleton free, List.getLast?_concat]

theorem head?_pieces_eq_nil_iff {separator : Char} {text : List Char} :
    (pieces separator text).head? = some [] ↔ text = [] ∨ text.head? = some separator := by
  cases text with
  | nil => simp [pieces]
  | cons c text =>
    obtain ⟨piece, others, same⟩ := List.exists_cons_of_ne_nil (pieces_ne_nil separator text)
    by_cases here : c = separator <;> simp [pieces, same, here]

theorem toList_join (segments : List String) :
    (join segments).toList = segments.flatMap fun segment => '/' :: segment.toList :=
  String.toList_ofList

theorem mem_join {c : Char} {segments : List String} (member : c ∈ (join segments).toList) :
    c = '/' ∨ ∃ s ∈ segments, c ∈ s.toList := by
  rw [toList_join, List.mem_flatMap] at member
  obtain ⟨s, present, inside⟩ := member
  rcases List.mem_cons.mp inside with slash | inside
  · exact .inl slash
  · exact .inr ⟨s, present, inside⟩

theorem split_join {first : String} {others : List String} (free : ∀ s ∈ first :: others, '/' ∉ s.toList) :
    split (first.toList ++ (join others).toList) = first :: others := by
  have here := free first List.mem_cons_self
  induction others generalizing first with
  | nil =>
    rw [toList_join, List.flatMap_nil, List.append_nil, split, pieces_eq_singleton here, List.map_singleton,
      String.ofList_toList]
  | cons next others ih =>
    have later := fun s member => free s (List.mem_cons_of_mem _ member)
    have tail := ih later (later next List.mem_cons_self)
    rw [toList_join] at tail
    rw [toList_join, List.flatMap_cons, List.cons_append, split, pieces_append here, List.map_cons,
      String.ofList_toList]
    exact congrArg _ tail

theorem toList_intercalate (first : String) (others : List String) :
    ("/".intercalate (first :: others)).toList = first.toList ++ (join others).toList := by
  induction others generalizing first with
  | nil => rw [String.intercalate_singleton, toList_join, List.flatMap_nil, List.append_nil]
  | cons next others ih =>
    rw [String.intercalate_cons_cons, String.toList_append, ih, toList_join, toList_join, List.flatMap_cons,
      String.toList_append, List.append_assoc]
    rfl

theorem ofPath_join {segments : List String} (some : segments ≠ []) (free : ∀ s ∈ segments, '/' ∉ s.toList) :
    ofPath (join segments) = segments := by
  obtain ⟨first, others, rfl⟩ := List.exists_cons_of_ne_nil some
  have text : (join (first :: others)).toList = '/' :: (first.toList ++ (join others).toList) := by
    rw [toList_join, toList_join]
    rfl
  rw [ofPath, text]
  exact split_join free

private theorem split_free (text : List Char) : ∀ s ∈ split text, '/' ∉ s.toList := by
  intro s member
  obtain ⟨piece, present, rfl⟩ := List.mem_map.mp member
  rw [String.toList_ofList]
  exact pieces_free '/' text piece present

theorem toList_join_split (text : List Char) : (join (split text)).toList = '/' :: text := by
  rw [toList_join, split, List.flatMap_map]
  simpa using pieces_flatMap '/' text

/-- The segments of a text are the ones without a slash that make it up, with slashes between them. -/
theorem split_eq_iff {text : String} {segments : List String} :
    split text.toList = segments ↔
      segments ≠ [] ∧ "/".intercalate segments = text ∧ ∀ s ∈ segments, '/' ∉ s.toList := by
  constructor
  · rintro rfl
    have some : split text.toList ≠ [] := by simpa [split] using pieces_ne_nil '/' text.toList
    refine ⟨some, ?_, split_free text.toList⟩
    have whole := toList_join_split text.toList
    obtain ⟨first, others, same⟩ := List.exists_cons_of_ne_nil some
    rw [same, toList_join, List.flatMap_cons, List.cons_append, ← toList_join] at whole
    rw [same, ← String.toList_inj, toList_intercalate, (List.cons.inj whole).2]
  · rintro ⟨some, rfl, free⟩
    obtain ⟨first, others, rfl⟩ := List.exists_cons_of_ne_nil some
    rw [toList_intercalate, split_join free]

theorem join_ofPath {text : String} (some : ofPath text ≠ []) : join (ofPath text) = text := by
  rw [← String.toList_inj]
  revert some
  unfold ofPath
  split
  · next rest same => exact fun _ => (toList_join_split rest).trans same.symm
  · exact fun some => absurd rfl some

theorem ofPath_eq_nil_iff {text : String} : ofPath text = [] ↔ ¬ ∃ rest, text = "/" ++ rest := by
  constructor
  · rintro none ⟨rest, rfl⟩
    have led : ofPath ("/" ++ rest) = split rest.toList := by
      rw [ofPath, String.toList_append]
      rfl
    have some : split rest.toList ≠ [] := by simpa [split] using pieces_ne_nil '/' rest.toList
    exact some (led.symm.trans none)
  · intro bare
    unfold ofPath
    split
    · next rest same =>
      refine absurd ⟨String.ofList rest, ?_⟩ bare
      rw [← String.toList_inj, same, String.toList_append]
      exact congrArg ('/' :: ·) String.toList_ofList.symm
    · rfl

theorem ofPath_free (text : String) : ∀ s ∈ ofPath text, '/' ∉ s.toList := by
  unfold ofPath
  split
  · exact split_free _
  · nofun

end DeviceBus.Segments
