import DeviceBus.Proofs.Json.Numbers

/-! Brackets, read as the grammar has them. Nothing here depends on what stands between the commas: the items have forms and
results, and a reader of items has to take every form to its result, and no other text. The reader
passes over space wherever it may stand, and the space around an item is taken to be part of it. -/
namespace DeviceBus.Json

section Space

variable {gap text rest : List Char}

theorem blank_nil : Blank [] := nofun

theorem skipSpace_cons {c : Char} (visible : isSpace c = false) (rest : List Char) :
    skipSpace (c :: rest) = c :: rest :=
  List.dropWhile_cons_of_neg (by rw [visible]; exact Bool.false_ne_true)

theorem skipSpace_append (blank : Blank gap) (text : List Char) : skipSpace (gap ++ text) = skipSpace text :=
  List.dropWhile_append_of_pos blank

theorem exists_blank_of_skipSpace (skipped : skipSpace text = rest) : ∃ gap, Blank gap ∧ text = gap ++ rest := by
  refine ⟨text.takeWhile isSpace, List.all_eq_true.mp List.all_takeWhile, ?_⟩
  rw [← skipped]
  exact List.takeWhile_append_dropWhile.symm

theorem skipSpace_skipSpace (text : List Char) : skipSpace (skipSpace text) = skipSpace text := by
  obtain ⟨gap, blank, same⟩ := exists_blank_of_skipSpace (rfl : skipSpace text = skipSpace text)
  calc skipSpace (skipSpace text) = skipSpace (gap ++ skipSpace text) := (skipSpace_append blank _).symm
    _ = skipSpace text := congrArg skipSpace same.symm

end Space

def Opens (text : List Char) : Prop :=
  ∃ gap c rest, text = gap ++ c :: rest ∧ Blank gap ∧ isSpace c = false ∧ c ≠ ']' ∧ c ≠ '\x7d'

namespace Opens

variable {text : List Char}

theorem cons {c : Char} (visible : isSpace c = false) (list : c ≠ ']') (object : c ≠ '\x7d') (rest : List Char) :
    Opens (c :: rest) :=
  ⟨[], c, rest, rfl, blank_nil, visible, list, object⟩

theorem append (opens : Opens text) (rest : List Char) : Opens (text ++ rest) := by
  obtain ⟨gap, c, more, rfl, same⟩ := opens
  exact ⟨gap, c, more ++ rest, by rw [List.append_assoc, List.cons_append], same⟩

theorem blank_append {gap : List Char} (blank : Blank gap) (opens : Opens text) : Opens (gap ++ text) := by
  obtain ⟨more, c, rest, rfl, spaces, same⟩ := opens
  exact ⟨gap ++ more, c, rest, (List.append_assoc ..).symm, List.forall_mem_append.mpr ⟨blank, spaces⟩, same⟩

theorem skipSpace (opens : Opens text) : ∃ c rest, skipSpace text = c :: rest ∧ c ≠ ']' ∧ c ≠ '\x7d' := by
  obtain ⟨gap, c, rest, rfl, blank, visible, other⟩ := opens
  exact ⟨c, rest, by rw [skipSpace_append blank, skipSpace_cons visible], other⟩

private theorem length_pos (opens : Opens text) : 0 < text.length := by
  obtain ⟨gap, c, rest, rfl, -⟩ := opens
  rw [List.length_append, List.length_cons]
  omega

end Opens

section Separated

variable {α : Type} {form : α → List Char}

private theorem separated_cons {xs : List α} (more : xs ≠ []) (x : α) :
    separated form (x :: xs) = form x ++ ',' :: separated form xs := by
  obtain ⟨y, xs, rfl⟩ := List.exists_cons_of_ne_nil more
  rfl

private theorem separated_opens {x : α} (opens : Opens (form x)) (xs : List α) : Opens (separated form (x :: xs)) := by
  cases xs with
  | nil => exact opens
  | cons y xs => exact opens.append _

private theorem separated_prepend {x y : α} {gap : List Char} (same : form y = gap ++ form x) (xs : List α) :
    separated form (y :: xs) = gap ++ separated form (x :: xs) := by
  cases xs with
  | nil => exact same
  | cons z xs => rw [separated, separated, same, List.append_assoc]

theorem length_form_le (form : α → List Char) {x : α} {xs : List α} (member : x ∈ xs) :
    (form x).length ≤ (separated form xs).length := by
  fun_induction separated form xs with
  | case1 => cases member
  | case2 y => exact Nat.le_of_eq (congrArg (fun z => (form z).length) (List.mem_singleton.mp member))
  | case3 y z rest ih =>
    rw [List.length_append, List.length_cons]
    rcases List.mem_cons.mp member with rfl | later
    · omega
    · have bound := ih later
      omega

private theorem length_le_length_separated {xs : List α} (opens : ∀ x ∈ xs, Opens (form x)) :
    xs.length ≤ (separated form xs).length := by
  fun_induction separated form xs with
  | case1 => exact Nat.le_refl 0
  | case2 x => exact (opens x List.mem_cons_self).length_pos
  | case3 x y rest ih =>
    have one := (opens x List.mem_cons_self).length_pos
    have more := ih fun z member => opens z (List.mem_cons_of_mem _ member)
    simp only [List.length_append, List.length_cons] at more ⊢
    omega

end Separated

section Completeness

variable {α β : Type} {bracket : Bracket} {item : Reader β} {form : α → List Char} {result : α → β}

/-- What a bracket and the items in it must be for a reader of the items to read the bracket. -/
structure Enclosed (bracket : Bracket) (item : Reader β) (form : α → List Char) (result : α → β) (xs : List α) :
    Prop where
  closing : bracket.close = ']' ∨ bracket.close = '\x7d'
  opens : ∀ x ∈ xs, Opens (form x)
  reads : ∀ x ∈ xs, ∀ rest, Ends rest →
    ∃ left, item (skipSpace (form x ++ rest)) = .ok (result x, left) ∧ skipSpace left = skipSpace rest

namespace Enclosed

variable {x : α} {xs : List α}

theorem tail (enclosed : Enclosed bracket item form result (x :: xs)) : Enclosed bracket item form result xs where
  closing := enclosed.closing
  opens y member := enclosed.opens y (List.mem_cons_of_mem _ member)
  reads y member := enclosed.reads y (List.mem_cons_of_mem _ member)

private theorem skipSpace_close (enclosed : Enclosed bracket item form result xs) (rest : List Char) :
    skipSpace (bracket.close :: rest) = bracket.close :: rest := by
  rcases enclosed.closing with same | same <;> rw [same] <;> exact skipSpace_cons rfl rest

private theorem comma_ne_close (enclosed : Enclosed bracket item form result xs) : ',' ≠ bracket.close := by
  rcases enclosed.closing with same | same <;> rw [same] <;> decide

private theorem skipSpace_opens (enclosed : Enclosed bracket item form result xs) {text : List Char} (opens : Opens text) :
    ∃ c rest, skipSpace text = c :: rest ∧ c ≠ bracket.close := by
  obtain ⟨c, rest, same, list, object⟩ := opens.skipSpace
  refine ⟨c, rest, same, ?_⟩
  rcases enclosed.closing with close | close <;> rw [close] <;> assumption

theorem afterComma (enclosed : Enclosed bracket item form result xs) {text : List Char} (opens : Opens text) :
    afterComma bracket.close text = .ok (skipSpace text) := by
  obtain ⟨c, rest, same, other⟩ := enclosed.skipSpace_opens opens
  rw [Json.afterComma, same]
  exact if_neg other

theorem readItems (enclosed : Enclosed bracket item form result (x :: xs)) {fuel : Nat} (enough : xs.length < fuel)
    (rest : List Char) :
    readItems bracket item fuel (skipSpace (separated form (x :: xs) ++ bracket.close :: rest)) =
      .ok ((x :: xs).map result, rest) := by
  induction xs generalizing x fuel with
  | nil =>
    obtain ⟨fuel, rfl⟩ := Nat.exists_eq_succ_of_ne_zero (Nat.ne_zero_of_lt enough)
    obtain ⟨left, read, skipped⟩ :=
      enclosed.reads x List.mem_cons_self (bracket.close :: rest) (.cons (.inr (.inr enclosed.closing)) rest)
    rw [enclosed.skipSpace_close] at skipped
    simp only [separated, Json.readItems, read, bind, Except.bind, skipped, if_true]
    rfl
  | cons y xs ih =>
    obtain ⟨fuel, rfl⟩ := Nat.exists_eq_succ_of_ne_zero (Nat.ne_zero_of_lt enough)
    have next : Opens (separated form (y :: xs) ++ bracket.close :: rest) :=
      (separated_opens (enclosed.tail.opens y List.mem_cons_self) xs).append _
    have others := ih enclosed.tail (Nat.lt_of_succ_lt_succ enough)
    obtain ⟨left, read, skipped⟩ := enclosed.reads x List.mem_cons_self
      (',' :: (separated form (y :: xs) ++ bracket.close :: rest)) (.cons (.inr (.inl rfl)) _)
    rw [skipSpace_cons rfl] at skipped
    simp only [separated, List.append_assoc, List.cons_append, Json.readItems, read, bind, Except.bind, skipped,
      enclosed.comma_ne_close, if_false, if_true, enclosed.afterComma next, others]
    rfl

theorem readBracket (enclosed : Enclosed bracket item form result xs) {gap : List Char} (blank : Blank gap)
    {fuel : Nat} (enough : (separated form xs).length ≤ fuel) (rest : List Char) :
    readBracket bracket item fuel (gap ++ (separated form xs ++ bracket.close :: rest)) =
      .ok (xs.map result, rest) := by
  cases xs with
  | nil =>
    rw [separated, List.nil_append, Json.readBracket, skipSpace_append blank, enclosed.skipSpace_close]
    exact if_pos rfl
  | cons x xs =>
    have count := length_le_length_separated enclosed.opens
    have items := enclosed.readItems (Nat.lt_of_lt_of_le (Nat.lt_of_succ_le count) enough) rest
    obtain ⟨c, more, same, other⟩ := enclosed.skipSpace_opens
      ((separated_opens (enclosed.opens x List.mem_cons_self) xs).append (bracket.close :: rest))
    rw [same] at items
    rw [Json.readBracket, skipSpace_append blank, same]
    exact (if_neg other).trans items

end Enclosed

end Completeness

section Soundness

variable {α β : Type} {bracket : Bracket} {item : Reader β} {form : α → List Char} {result : α → β}
  {Proper : α → Prop} {fuel : Nat} {text rest : List Char} {values : List β}

/-- The reader takes nothing but forms of proper items, and such an item may have space around it. -/
structure Covered (item : Reader β) (form : α → List Char) (result : α → β) (Proper : α → Prop) : Prop where
  sound : ∀ {text value left}, item text = .ok (value, left) →
    ∃ x, Proper x ∧ result x = value ∧ text = form x ++ left
  spaced : ∀ {x before after}, Proper x → Blank before → Blank after →
    ∃ y, Proper y ∧ result y = result x ∧ form y = before ++ (form x ++ after)

private theorem skipSpace_of_afterComma {close : Char} (passed : afterComma close text = .ok rest) :
    skipSpace text = rest := by
  unfold afterComma at passed
  split at passed
  · cases passed
  · next same =>
    split at passed
    · cases passed
    · cases passed
      exact same

namespace Covered

private theorem items_of_readItems (covered : Covered item form result Proper)
    (read : readItems bracket item fuel text = .ok (values, rest)) :
    ∃ x xs, (∀ y ∈ x :: xs, Proper y) ∧ (x :: xs).map result = values ∧
      text = separated form (x :: xs) ++ bracket.close :: rest := by
  induction fuel generalizing text values with
  | zero => cases read
  | succ fuel ih =>
    obtain ⟨⟨value, left⟩, first, afterFirst⟩ := except_bind_ok read
    obtain ⟨bare, isProper, rfl, rfl⟩ := covered.sound first
    simp only at afterFirst
    split at afterFirst
    · cases afterFirst
    next c more skipped =>
    -- The space behind an item is part of it.
    obtain ⟨gap, blank, rfl⟩ := exists_blank_of_skipSpace skipped
    obtain ⟨x, proper, sameResult, spaced⟩ := covered.spaced isProper blank_nil blank
    rw [List.nil_append] at spaced
    split at afterFirst
    · next close =>
      cases afterFirst
      exact ⟨x, [], List.forall_mem_singleton.mpr proper, by rw [List.map_singleton, sameResult],
        by rw [separated, spaced, List.append_assoc, close]⟩
    split at afterFirst
    · next comma =>
      obtain ⟨next, passed, afterComma⟩ := except_bind_ok afterFirst
      obtain ⟨⟨others, last⟩, readOthers, same⟩ := except_bind_ok afterComma
      cases same
      obtain ⟨y, ys, others, rfl, rfl⟩ := ih readOthers
      -- The space before an item is part of it too.
      obtain ⟨gap, blank, rfl⟩ := exists_blank_of_skipSpace (skipSpace_of_afterComma passed)
      obtain ⟨z, alsoProper, alsoResult, shape⟩ :=
        covered.spaced (others y List.mem_cons_self) blank blank_nil
      rw [List.append_nil] at shape
      refine ⟨x, z :: ys, ?_, ?_, ?_⟩
      · exact List.forall_mem_cons.mpr
          ⟨proper, List.forall_mem_cons.mpr ⟨alsoProper, (List.forall_mem_cons.mp others).2⟩⟩
      · rw [List.map_cons, List.map_cons, sameResult, alsoResult, List.map_cons]
      · rw [separated_cons (List.cons_ne_nil z ys), separated_prepend shape, spaced, comma]
        simp only [List.append_assoc, List.cons_append]
    · cases afterFirst

theorem items_of_readBracket (covered : Covered item form result Proper)
    (read : readBracket bracket item fuel text = .ok (values, rest)) :
    ∃ gap xs, Blank gap ∧ (∀ x ∈ xs, Proper x) ∧ xs.map result = values ∧
      text = gap ++ (separated form xs ++ bracket.close :: rest) := by
  cases skipped : skipSpace text with
  | nil =>
    simp only [readBracket, skipped] at read
    cases read
  | cons c more =>
    obtain ⟨gap, blank, rfl⟩ := exists_blank_of_skipSpace skipped
    simp only [readBracket, skipped] at read
    split at read
    · next close =>
      cases read
      exact ⟨gap, [], blank, nofun, rfl, by rw [close]; rfl⟩
    · obtain ⟨x, xs, proper, results, same⟩ := covered.items_of_readItems read
      exact ⟨gap, x :: xs, blank, proper, results, by rw [same]⟩

end Covered

end Soundness

end DeviceBus.Json
