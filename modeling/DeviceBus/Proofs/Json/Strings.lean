import DeviceBus.Json.Printer
import DeviceBus.Proofs.Json.Grammar

/-! Strings, read as the grammar has them. The reader takes exactly the texts between quotes that stand for characters,
and what is written for a string is such a text: every character stands by itself, behind a backslash with
a letter, or, a control character without such a letter, with its number. -/
namespace DeviceBus.Json

section Escapes

variable {c : Char} {text rest : List Char}

private theorem readQuad_digits {p q r s : Char} {n : Nat} (digits : hexQuad? p q r s = some n) (text : List Char) :
    readQuad (p :: q :: r :: s :: text) = .ok (n, text) := by
  simp only [readQuad, digits]

private theorem digits_of_readQuad {n : Nat} (read : readQuad text = .ok (n, rest)) :
    ∃ p q r s, text = p :: q :: r :: s :: rest ∧ hexQuad? p q r s = some n := by
  unfold readQuad at read
  split at read
  · next p q r s more =>
    split at read
    · next digits =>
      cases read
      exact ⟨p, q, r, s, rfl, digits⟩
    · cases read
  · cases read

private theorem eq_of_expectEscape (read : expectEscape c text = .ok rest) : text = c :: rest := by
  unfold expectEscape at read
  split at read
  · cases read
  · split at read
    · next same =>
      cases read
      rw [same]
    · cases read

private theorem readEscape_hex (text : List Char) : readEscape ('u' :: text) = readHexEscape text := rfl

private theorem readEscape_of_escape {form : List Char} (escape : Escape c form) (text : List Char) :
    readEscape (form ++ text) = .ok (c, text) := by
  cases escape with
  | letter listed => simp only [List.cons_append, List.nil_append, readEscape, listed]
  | number digits low high =>
    simp only [List.cons_append, List.nil_append, readEscape_hex, readHexEscape, readQuad_digits digits, bind,
      Except.bind, low, high, Bool.false_eq_true, if_false]
  | pair digits more high low =>
    -- The first half is no second half, since the two have ranges apart.
    have first : ∀ n, isHighSurrogate n = true → isLowSurrogate n = false := by
      intro n inside
      simp only [isHighSurrogate, Bool.and_eq_true, decide_eq_true_eq] at inside
      simp only [isLowSurrogate, Bool.and_eq_false_iff, decide_eq_false_iff_not]
      omega
    simp only [List.cons_append, List.nil_append, readEscape_hex, readHexEscape, readQuad_digits digits, bind,
      Except.bind, first _ high, high, readLowHalf, expectEscape, readQuad_digits more, low, Bool.false_eq_true,
      if_false, if_true]

private theorem escape_of_readHexEscape (read : readHexEscape text = .ok (c, rest)) :
    ∃ form, Escape c ('u' :: form) ∧ text = form ++ rest := by
  obtain ⟨⟨n, more⟩, quad, decided⟩ := except_bind_ok read
  obtain ⟨p, q, r, s, rfl, digits⟩ := digits_of_readQuad quad
  simp only at decided
  split at decided
  · cases decided
  next low =>
  rw [Bool.not_eq_true] at low
  split at decided
  · next high =>
    obtain ⟨first, slash, afterSlash⟩ := except_bind_ok decided
    obtain ⟨second, letter, afterLetter⟩ := except_bind_ok afterSlash
    obtain ⟨⟨half, last⟩, more, joined⟩ := except_bind_ok afterLetter
    obtain ⟨t, u, v, w, rfl, others⟩ := digits_of_readQuad more
    simp only at joined
    split at joined
    · next lowHalf =>
      rw [Except.ok.injEq, Prod.mk.injEq] at joined
      obtain ⟨rfl, rfl⟩ := joined
      rw [eq_of_expectEscape slash, eq_of_expectEscape letter]
      exact ⟨[p, q, r, s, '\\', 'u', t, u, v, w], .pair digits others high lowHalf, rfl⟩
    · cases joined
  · next high =>
    rw [Bool.not_eq_true] at high
    cases decided
    exact ⟨[p, q, r, s], .number digits low high, rfl⟩

private theorem escape_of_readEscape (read : readEscape text = .ok (c, rest)) :
    ∃ form, Escape c form ∧ text = form ++ rest := by
  cases text with
  | nil => cases read
  | cons first text =>
    rw [readEscape] at read
    split at read
    · next listed =>
      cases read
      exact ⟨[first], .letter listed, rfl⟩
    · split at read
      · next same =>
        obtain ⟨form, escape, rfl⟩ := escape_of_readHexEscape read
        exact ⟨'u' :: form, escape, by rw [same]; rfl⟩
      · cases read

end Escapes

section Reading

def andThen (c : Char) (result : Except Stop (List Char × List Char)) : Except Stop (List Char × List Char) :=
  result.map fun (cs, rest) => (c :: cs, rest)

private theorem readChars_escape {text more : List Char} {c : Char} (escape : readEscape text = .ok (c, more)) :
    readChars ('\\' :: text) = andThen c (readChars more) := by
  rw [readChars, if_neg (by decide), if_pos rfl]
  split
  · next stop failed =>
    rw [escape] at failed
    cases failed
  · next escaped left same =>
    rw [escape] at same
    cases same
    rfl

private theorem readChars_itself {c : Char} (text : List Char) (notQuote : c ≠ '"') (notSlash : c ≠ '\\')
    (printed : ¬ c.toNat < 0x20) : readChars (c :: text) = andThen c (readChars text) := by
  rw [readChars, if_neg notQuote, if_neg notSlash, if_neg printed]
  rfl

private theorem readChars_of_characters {cs text : List Char} (characters : Characters cs text) (rest : List Char) :
    readChars (text ++ '"' :: rest) = .ok (cs, rest) := by
  induction characters with
  | nil => rw [List.nil_append, readChars, if_pos rfl]
  | plain notQuote notSlash printed _ ih =>
    rw [List.cons_append, readChars_itself _ notQuote notSlash printed, ih]
    rfl
  | escaped escape _ ih =>
    rw [List.cons_append, List.append_assoc, readChars_escape (readEscape_of_escape escape _), ih]
    rfl

private theorem characters_of_readChars {text cs rest : List Char} (read : readChars text = .ok (cs, rest)) :
    ∃ inside, Characters cs inside ∧ text = inside ++ '"' :: rest := by
  fun_induction readChars text generalizing cs with
  | case1 => cases read
  | case2 rest =>
    cases read
    exact ⟨[], .nil, rfl⟩
  | case3 text _ stop failed => cases read
  | case4 text escaped more escape _ _ ih =>
    obtain ⟨⟨later, left⟩, read, same⟩ := except_map_ok read
    cases same
    obtain ⟨inside, characters, rfl⟩ := ih read
    obtain ⟨form, stands, rfl⟩ := escape_of_readEscape escape
    exact ⟨'\\' :: (form ++ inside), .escaped stands characters, by rw [List.cons_append, List.append_assoc]⟩
  | case5 c text _ _ control => cases read
  | case6 c text notQuote notSlash printed ih =>
    obtain ⟨⟨later, left⟩, read, same⟩ := except_map_ok read
    cases same
    obtain ⟨inside, characters, rfl⟩ := ih read
    exact ⟨c :: inside, .plain notQuote notSlash printed characters, rfl⟩

theorem StringText.readString {s : String} {text : List Char} (form : StringText s text) (rest : List Char) :
    ∃ inside, text ++ rest = '"' :: inside ∧ readString inside = .ok (s, rest) := by
  obtain ⟨inner⟩ := form
  refine ⟨_, by rw [List.cons_append, List.append_assoc, List.singleton_append], ?_⟩
  rw [Json.readString, readChars_of_characters inner]
  rfl

theorem stringText_of_readString {s : String} {text rest : List Char} (read : readString text = .ok (s, rest)) :
    ∃ form, StringText s form ∧ '"' :: text = form ++ rest := by
  obtain ⟨⟨cs, left⟩, read, same⟩ := except_map_ok read
  cases same
  obtain ⟨inside, characters, rfl⟩ := characters_of_readChars read
  exact ⟨_, .quoted characters, by rw [List.cons_append, List.append_assoc, List.singleton_append]⟩

end Reading

section Writing

private theorem escape_control {c : Char} (control : c.toNat < 0x20) :
    Escape c ['u', '0', '0', Quoted.hexDigit (c.toNat / 16), Quoted.hexDigit (c.toNat % 16)] := by
  have quads : ∀ n < 0x20, hexQuad? '0' '0' (Quoted.hexDigit (n / 16)) (Quoted.hexDigit (n % 16)) = some n := by
    decide +kernel
  have surrogates : ∀ n < 0x20, isLowSurrogate n = false ∧ isHighSurrogate n = false := by decide
  obtain ⟨low, high⟩ := surrogates c.toNat control
  have escape := Escape.number (quads c.toNat control) low high
  rwa [Char.ofNat_toNat] at escape

private theorem characters_escapeChar (c : Char) {cs text : List Char} (rest : Characters cs text) :
    Characters (c :: cs) (escapeChar c ++ text) := by
  have letter : ∀ l, letterEscapes.lookup l = some c → Characters (c :: cs) (['\\', l] ++ text) := fun l listed =>
    .escaped (.letter listed) rest
  unfold escapeChar
  split
  · next same => exact letter '"' (by rw [same]; rfl)
  next notQuote =>
  split
  · next same => exact letter '\\' (by rw [same]; rfl)
  next notSlash =>
  split
  · next same => exact letter 'b' (by rw [same]; rfl)
  split
  · next same => exact letter 't' (by rw [same]; rfl)
  split
  · next same => exact letter 'n' (by rw [same]; rfl)
  split
  · next same => exact letter 'f' (by rw [same]; rfl)
  split
  · next same => exact letter 'r' (by rw [same]; rfl)
  split
  · next control => exact .escaped (escape_control control) rest
  · next printed => exact .plain notQuote notSlash printed rest

private theorem characters_flatMap (cs : List Char) : Characters cs (cs.flatMap escapeChar) := by
  induction cs with
  | nil => exact .nil
  | cons c cs ih => exact characters_escapeChar c ih

theorem stringText_writeString (s : String) : StringText s (writeString s) := by
  have quoted := StringText.quoted (characters_flatMap s.toList)
  rwa [String.ofList_toList] at quoted

theorem writeString_append_inj {s t : String} {rest more : List Char}
    (same : writeString s ++ rest = writeString t ++ more) : s = t ∧ rest = more := by
  obtain ⟨text, form, read⟩ := (stringText_writeString s).readString rest
  obtain ⟨other, shape, also⟩ := (stringText_writeString t).readString more
  rw [form, shape] at same
  cases same
  rw [read] at also
  cases also
  exact ⟨rfl, rfl⟩

end Writing

end DeviceBus.Json
