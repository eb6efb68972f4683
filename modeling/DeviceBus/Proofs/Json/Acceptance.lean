import DeviceBus.Proofs.Json.Brackets
import DeviceBus.Proofs.Json.Strings

/-! Which texts are read, and what as: exactly the texts of the grammar, each as the value of its document. A reader of
values is given a bound on the number of items and a depth; a bound as long as the text is
enough, since every item takes a character. -/
namespace DeviceBus.Json

section Words

private theorem readWord_append (value : Json) (word rest : List Char) :
    readWord value word (word ++ rest) = .ok (value, rest) := by
  induction word with
  | nil => rw [List.nil_append, readWord]
  | cons c word ih => rw [List.cons_append, readWord, if_pos rfl, ih]

private theorem eq_of_readWord {value v : Json} {word text rest : List Char}
    (read : readWord value word text = .ok (v, rest)) : value = v ∧ text = word ++ rest := by
  induction word generalizing text with
  | nil =>
    cases read
    exact ⟨rfl, rfl⟩
  | cons w word ih =>
    cases text with
    | nil => cases read
    | cons c text =>
      rw [readWord] at read
      split at read
      · next same =>
        obtain ⟨rfl, rfl⟩ := ih read
        exact ⟨rfl, by rw [same, List.cons_append]⟩
      · cases read

end Words

section Scalars

variable {c : Char} {text rest : List Char}

private theorem readValue_scalar (fuel depth : Nat) (visible : isSpace c = false) (list : c ≠ '[') (object : c ≠ '\x7b') :
    readValue fuel depth (c :: rest) = readScalar c rest := by
  rw [readValue, skipSpace_cons visible]
  simp only [list, object, if_false]

private theorem readValue_word {fuel depth : Nat} {value : Json} {word : List Char} (visible : isSpace c = false)
    (list : c ≠ '[') (object : c ≠ '\x7b') (scalar : ∀ text, readScalar c text = readWord value word text) :
    readValue fuel depth (c :: word ++ rest) = .ok (value, rest) := by
  rw [List.cons_append, readValue_scalar fuel depth visible list object, scalar]
  exact readWord_append value word rest

private theorem readScalar_digit (digit : c.isDigit = true) (rest : List Char) :
    readScalar c rest = (readNumber false (c :: rest)).map fun (n, rest) => (.number n, rest) := by
  unfold readScalar
  iterate 5
    rw [if_neg (by rintro rfl; cases digit)]
  rw [if_pos digit]

private theorem visible_of_digit (digit : c.isDigit = true) :
    isSpace c = false ∧ c ≠ '[' ∧ c ≠ '\x7b' ∧ c ≠ ']' ∧ c ≠ '\x7d' := by
  have visible : isSpace c = false := by
    cases space : isSpace c with
    | false => rfl
    | true =>
      simp only [isSpace, Bool.or_eq_true, decide_eq_true_eq] at space
      rcases space with ((rfl | rfl) | rfl) | rfl <;> cases digit
  refine ⟨visible, ?_, ?_, ?_, ?_⟩
  all_goals
    rintro rfl
    cases digit

private theorem NumeralText.exists_digit {n : Numeral} (numeral : NumeralText n text) :
    ∃ c more, text = c :: more ∧ c.isDigit = true := by
  obtain ⟨whole, -, -⟩ := numeral
  obtain ⟨c, more, same⟩ := List.exists_cons_of_ne_nil whole.nonempty
  exact ⟨c, _, by rw [same, List.cons_append], whole.all c (by rw [same]; exact List.mem_cons_self)⟩

theorem NumberText.readValue {number : JsonNumber} (form : NumberText number text) (ends : Ends rest)
    (fuel depth : Nat) : readValue fuel depth (text ++ rest) = .ok (.number number, rest) := by
  cases form with
  | positive sign numeral value =>
    have read := numeral.readNumber value ends
    obtain ⟨c, more, rfl, digit⟩ := numeral.exists_digit
    obtain ⟨visible, list, object, -⟩ := visible_of_digit digit
    rw [sign, List.cons_append] at read
    rw [List.cons_append, readValue_scalar fuel depth visible list object, readScalar_digit digit, read]
    rfl
  | negative sign numeral value =>
    have read := numeral.readNumber value ends
    rw [sign] at read
    rw [List.cons_append, readValue_scalar fuel depth rfl (by decide) (by decide)]
    simp only [readScalar, read]
    rfl

end Scalars

section Completeness

private theorem readValue_skipSpace (fuel depth : Nat) (text : List Char) :
    readValue fuel depth (skipSpace text) = readValue fuel depth text := by
  rw [readValue, readValue, skipSpace_skipSpace]

private theorem readValue_append {gap : List Char} (blank : Blank gap) (fuel depth : Nat) (text : List Char) :
    readValue fuel depth (gap ++ text) = readValue fuel depth text := by
  rw [← readValue_skipSpace, skipSpace_append blank, readValue_skipSpace]

theorem Written.opens {depth : Nat} {d : Document} {text : List Char} (written : Written depth d text) :
    Opens text := by
  induction written with
  | null => exact .cons rfl (by decide) (by decide) _
  | true => exact .cons rfl (by decide) (by decide) _
  | false => exact .cons rfl (by decide) (by decide) _
  | number form =>
    cases form with
    | positive _ numeral =>
      obtain ⟨c, more, rfl, digit⟩ := numeral.exists_digit
      obtain ⟨visible, -, -, list, object⟩ := visible_of_digit digit
      exact .cons visible list object _
    | negative => exact .cons rfl (by decide) (by decide) _
  | string form =>
    cases form
    exact .cons rfl (by decide) (by decide) _
  | array => exact .cons rfl (by decide) (by decide) _
  | object => exact .cons rfl (by decide) (by decide) _
  | spaced early _ _ ih => exact (ih.append _).blank_append early

private theorem Entry.Labelled.exists_key {e : Entry} (labelled : e.Labelled) (rest : List Char) :
    ∃ before inside after, e.form ++ rest = before ++ '"' :: inside ∧ Blank before ∧ Blank after ∧
      readString inside = .ok (e.key, after ++ ':' :: (e.text ++ rest)) := by
  obtain ⟨before, name, after, label, early, named, late⟩ := labelled
  obtain ⟨inside, same, read⟩ := named.readString (after ++ ':' :: (e.text ++ rest))
  refine ⟨before, inside, after, ?_, early, late, read⟩
  rw [← same, Entry.form, label]
  simp only [List.append_assoc, List.cons_append]

theorem Entry.Labelled.opens {e : Entry} (labelled : e.Labelled) : Opens e.form := by
  obtain ⟨before, inside, after, same, early, -⟩ := labelled.exists_key []
  rw [List.append_nil] at same
  exact ⟨before, '"', inside, same, early, rfl, by decide, by decide⟩

theorem Entry.Labelled.readMember {e : Entry} (labelled : e.Labelled) {value : Reader Json} {rest left : List Char}
    {v : Json} (read : value (e.text ++ rest) = .ok (v, left)) :
    readMember value (skipSpace (e.form ++ rest)) = .ok ((e.key, v), left) := by
  obtain ⟨before, inside, after, same, early, late, key⟩ := labelled.exists_key rest
  rw [same, skipSpace_append early, skipSpace_cons rfl]
  simp only [Json.readMember, key, bind, Except.bind, skipSpace_append late,
    skipSpace_cons (show isSpace ':' = false from rfl), read]
  rfl

theorem Written.readValue {depth : Nat} {d : Document} {text : List Char} (written : Written depth d text)
    {fuel : Nat} (enough : text.length ≤ fuel) {rest : List Char} (ends : Ends rest) :
    ∃ left, readValue fuel depth (text ++ rest) = .ok (d.value, left) ∧ skipSpace left = skipSpace rest := by
  induction written generalizing fuel rest with
  | null => exact ⟨rest, readValue_word rfl (by decide) (by decide) fun _ => rfl, rfl⟩
  | true => exact ⟨rest, readValue_word rfl (by decide) (by decide) fun _ => rfl, rfl⟩
  | false => exact ⟨rest, readValue_word rfl (by decide) (by decide) fun _ => rfl, rfl⟩
  | @number depth n text form => exact ⟨rest, form.readValue ends fuel depth, rfl⟩
  | @string depth s text form =>
    obtain ⟨inside, same, read⟩ := form.readString rest
    refine ⟨rest, ?_, rfl⟩
    rw [same, readValue_scalar fuel depth rfl (by decide) (by decide)]
    simp only [readScalar, if_true, read]
    rfl
  | @array depth gap elements blank each ih =>
    simp only [List.length_append, List.length_cons, List.length_nil] at enough
    have enclosed : Enclosed listBracket (Json.readValue fuel depth) Element.text (·.document.value) elements := by
      refine ⟨.inl rfl, fun e member => (each e member).opens, fun e member rest ends => ?_⟩
      have part := length_form_le Element.text member
      rw [readValue_skipSpace]
      exact ih e member (by omega) ends
    have read := enclosed.readBracket blank (show (separated Element.text elements).length ≤ fuel by omega) rest
    refine ⟨rest, ?_, rfl⟩
    simp only [List.cons_append, List.append_assoc, List.nil_append]
    rw [Json.readValue, skipSpace_cons rfl]
    simp only [if_true, bind, Except.bind]
    rw [show (']' : Char) = listBracket.close from rfl, read, Document.value, Document.values_eq, List.map_map]
    rfl
  | @object depth gap entries blank labelled each ih =>
    simp only [List.length_append, List.length_cons, List.length_nil] at enough
    have enclosed : Enclosed objectBracket (readMember (Json.readValue fuel depth)) Entry.form
        (fun e => (e.key, e.document.value)) entries := by
      refine ⟨.inr rfl, fun e member => (labelled e member).opens, fun e member rest ends => ?_⟩
      have part := length_form_le Entry.form member
      rw [Entry.form, List.length_append, List.length_cons] at part
      obtain ⟨left, read, skipped⟩ := ih e member (show e.text.length ≤ fuel by omega) ends
      exact ⟨left, (labelled e member).readMember read, skipped⟩
    have read := enclosed.readBracket blank (show (separated Entry.form entries).length ≤ fuel by omega) rest
    refine ⟨rest, ?_, rfl⟩
    simp only [List.cons_append, List.append_assoc, List.nil_append]
    rw [Json.readValue, skipSpace_cons rfl]
    simp only [show ('\x7b' : Char) ≠ '[' by decide, if_false, if_true, bind, Except.bind]
    rw [show ('\x7d' : Char) = objectBracket.close from rfl, read, Document.value, Document.memberValues_eq,
      List.map_map]
    rfl
  | @spaced depth d before text after early form late ih =>
    simp only [List.length_append] at enough
    obtain ⟨left, read, skipped⟩ := ih (show text.length ≤ fuel by omega) (ends.append late)
    refine ⟨left, ?_, by rw [skipped, skipSpace_append late]⟩
    rw [List.append_assoc, List.append_assoc, readValue_append early, read]

end Completeness

section Soundness

private theorem written_of_readScalar {depth : Nat} {c : Char} {text rest : List Char} {v : Json}
    (read : readScalar c text = .ok (v, rest)) :
    ∃ d form, Written depth d form ∧ d.value = v ∧ c :: text = form ++ rest := by
  unfold readScalar at read
  split at read
  · next quote =>
    obtain ⟨⟨s, left⟩, taken, same⟩ := except_map_ok read
    cases same
    obtain ⟨form, isText, same⟩ := stringText_of_readString taken
    exact ⟨.string s, form, .string isText, rfl, by rw [quote, same]⟩
  split at read
  · next letter =>
    obtain ⟨rfl, rfl⟩ := eq_of_readWord read
    exact ⟨.null, _, .null, rfl, by rw [letter]; rfl⟩
  split at read
  · next letter =>
    obtain ⟨rfl, rfl⟩ := eq_of_readWord read
    exact ⟨.bool true, _, .true, rfl, by rw [letter]; rfl⟩
  split at read
  · next letter =>
    obtain ⟨rfl, rfl⟩ := eq_of_readWord read
    exact ⟨.bool false, _, .false, rfl, by rw [letter]; rfl⟩
  split at read
  · next minus =>
    obtain ⟨⟨number, left⟩, taken, same⟩ := except_map_ok read
    cases same
    obtain ⟨n, form, sign, numeral, value, rfl⟩ := numeralText_of_readNumber taken
    exact ⟨.number number, '-' :: form, .number (.negative sign numeral value), rfl, by rw [minus, List.cons_append]⟩
  split at read
  · obtain ⟨⟨number, left⟩, taken, same⟩ := except_map_ok read
    cases same
    obtain ⟨n, form, sign, numeral, value, same⟩ := numeralText_of_readNumber taken
    exact ⟨.number number, form, .number (.positive sign numeral value), rfl, same⟩
  · cases read

private theorem covered_elements {depth : Nat} {value : Reader Json}
    (sound : ∀ {text v left}, value text = .ok (v, left) →
      ∃ d form, Written depth d form ∧ d.value = v ∧ text = form ++ left) :
    Covered value Element.text (·.document.value) fun e => Written depth e.document e.text where
  sound read := by
    obtain ⟨d, form, written, same, rfl⟩ := sound read
    exact ⟨⟨d, form⟩, written, same, rfl⟩
  spaced {e before after} written early late := ⟨⟨e.document, _⟩, .spaced early written late, rfl, rfl⟩

private theorem covered_entries {depth : Nat} {value : Reader Json}
    (sound : ∀ {text v left}, value text = .ok (v, left) →
      ∃ d form, Written depth d form ∧ d.value = v ∧ text = form ++ left) :
    Covered (readMember value) Entry.form (fun e => (e.key, e.document.value))
      fun e => e.Labelled ∧ Written depth e.document e.text where
  sound {text member left} read := by
    unfold readMember at read
    split at read
    · obtain ⟨⟨key, afterKey⟩, taken, next⟩ := except_bind_ok read
      obtain ⟨name, named, same⟩ := stringText_of_readString taken
      simp only at next
      split at next
      · cases next
      · next more skipped =>
        obtain ⟨gap, blank, rfl⟩ := exists_blank_of_skipSpace skipped
        obtain ⟨⟨v, last⟩, given, done⟩ := except_bind_ok next
        obtain ⟨d, form, written, rfl, rfl⟩ := sound given
        cases done
        refine ⟨⟨key, name ++ gap, d, form⟩, ⟨⟨[], name, gap, rfl, blank_nil, named, blank⟩, written⟩, rfl, ?_⟩
        rw [same, Entry.form]
        simp only [List.append_assoc, List.cons_append]
      · cases next
    · cases read
  spaced {e before after} proper early late := by
    obtain ⟨⟨start, name, stop, label, isBlank, named, alsoBlank⟩, written⟩ := proper
    refine ⟨⟨e.key, before ++ e.label, e.document, e.text ++ after⟩, ⟨?_, ?_⟩, rfl, ?_⟩
    · exact ⟨before ++ start, name, stop, by rw [label, List.append_assoc],
        List.forall_mem_append.mpr ⟨early, isBlank⟩, named, alsoBlank⟩
    · have spaced := Written.spaced blank_nil written late
      rwa [List.nil_append] at spaced
    · simp only [Entry.form, List.append_assoc, List.cons_append]

private theorem written_of_readValue {fuel depth : Nat} {text rest : List Char} {v : Json}
    (read : readValue fuel depth text = .ok (v, rest)) :
    ∃ d form, Written depth d form ∧ d.value = v ∧ text = form ++ rest := by
  induction depth using Nat.strongRecOn generalizing text rest v with
  | ind depth ih =>
  rw [readValue] at read
  split at read
  · cases read
  next c more skipped =>
  obtain ⟨gap, blank, rfl⟩ := exists_blank_of_skipSpace skipped
  -- The space at the front belongs to the text, whatever comes after it.
  suffices bare : ∃ d form, Written depth d form ∧ d.value = v ∧ c :: more = form ++ rest by
    obtain ⟨d, form, written, same, shape⟩ := bare
    exact ⟨d, gap ++ (form ++ []), .spaced blank written blank_nil, same, by
      rw [shape, List.append_nil, List.append_assoc]⟩
  split at read
  · next bracket =>
    split at read
    · cases read
    next depth =>
    obtain ⟨⟨elements, left⟩, items, same⟩ := except_bind_ok read
    cases same
    obtain ⟨gap, xs, blank, written, rfl, rfl⟩ :=
      (covered_elements (ih depth (Nat.lt_succ_self depth))).items_of_readBracket items
    refine ⟨_, _, .array blank written, ?_, ?_⟩
    · rw [Document.value, Document.values_eq, List.map_map]
      rfl
    · rw [bracket]
      simp only [List.append_assoc, List.cons_append, List.nil_append]
      rfl
  split at read
  · next bracket =>
    split at read
    · cases read
    next depth =>
    obtain ⟨⟨members, left⟩, items, same⟩ := except_bind_ok read
    cases same
    obtain ⟨gap, xs, blank, proper, rfl, rfl⟩ :=
      (covered_entries (ih depth (Nat.lt_succ_self depth))).items_of_readBracket items
    refine ⟨_, _, .object blank (fun e member => (proper e member).1) fun e member => (proper e member).2, ?_, ?_⟩
    · rw [Document.value, Document.memberValues_eq, List.map_map]
      rfl
    · rw [bracket]
      simp only [List.append_assoc, List.cons_append, List.nil_append]
      rfl
  · exact written_of_readScalar read

end Soundness

/-- A text is read exactly if it is a text for a document, and it is read as the value of that document. -/
theorem read_eq_ok_iff {text : List Char} {v : Json} :
    read text = .ok v ↔ ∃ d, Written nestingLimit d text ∧ d.value = v := by
  constructor
  · intro accepted
    obtain ⟨⟨value, rest⟩, taken, ended⟩ := except_bind_ok (except_mapError_ok accepted)
    obtain ⟨d, form, written, same, rfl⟩ := written_of_readValue taken
    simp only at ended
    split at ended
    · next skipped =>
      cases ended
      obtain ⟨gap, blank, rfl⟩ := exists_blank_of_skipSpace skipped
      rw [List.append_nil]
      exact ⟨d, .spaced blank_nil written blank, same⟩
    · cases ended
  · rintro ⟨d, written, rfl⟩
    obtain ⟨left, whole, skipped⟩ := written.readValue (Nat.le_refl _) ends_nil
    rw [List.append_nil] at whole
    have ended : skipSpace left = [] := skipped
    simp only [read, whole, bind, Except.bind, ended]
    rfl

end DeviceBus.Json
