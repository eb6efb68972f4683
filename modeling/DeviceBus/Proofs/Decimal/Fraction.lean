import DeviceBus.Decimal.Fraction
import DeviceBus.Proofs.Decimal.Integer
import DeviceBus.Proofs.Json.Grammar

/-! The texts of decimal numbers, apart from how they are read. An integer is a row of digits with a sign at most; a fraction
has a point before, among or after its digits, or none, and a power of ten at most. What is read as a number is such a
text, and every such text is read as what it denotes. -/
namespace DeviceBus.Decimal

open Json (Digits)

inductive SignText : Bool → List Char → Prop
  | none : SignText false []
  | plus : SignText false ['+']
  | minus : SignText true ['-']

inductive IntegerText : Int → List Char → Prop
  | signed {negative : Bool} {sign ds : List Char} (front : SignText negative sign) (digits : Digits ds) :
      IntegerText (if negative then -(value ds : Int) else value ds) (sign ++ ds)

inductive PointedText : List Char → List Char → List Char → Prop
  | whole {ds : List Char} (digits : Digits ds) : PointedText ds [] ds
  | point {ds places : List Char} (digits : Digits ds) (more : ∀ c ∈ places, c.isDigit = true) :
      PointedText ds places (ds ++ '.' :: places)
  | places {places : List Char} (digits : Digits places) : PointedText [] places ('.' :: places)

inductive PowerText : Int → List Char → Prop
  | none : PowerText 0 []
  | marked {mark : Char} {exponent : Int} {text : List Char} (mark_eq : mark = 'e' ∨ mark = 'E')
      (number : IntegerText exponent text) : PowerText exponent (mark :: text)

inductive FractionText : Fraction → List Char → Prop
  | parts {negative : Bool} {sign whole places pointed power : List Char} {exponent : Int}
      (front : SignText negative sign) (digits : PointedText whole places pointed) (scale : PowerText exponent power) :
      FractionText ⟨negative, value (whole ++ places), exponent - places.length⟩ (sign ++ (pointed ++ power))

section Signs

variable {negative : Bool} {sign text : List Char}

theorem SignText.takeSign (front : SignText negative sign) (unsigned : ∀ c ∈ text.head?, c ≠ '-' ∧ c ≠ '+') :
    takeSign (sign ++ text) = (negative, text) := by
  cases front with
  | none =>
    rw [List.nil_append]
    unfold Decimal.takeSign
    split
    · exact absurd rfl (unsigned '-' rfl).1
    · exact absurd rfl (unsigned '+' rfl).2
    · rfl
  | plus => rfl
  | minus => rfl

private theorem signText_takeSign (text : List Char) :
    ∃ sign, SignText (takeSign text).1 sign ∧ text = sign ++ (takeSign text).2 := by
  unfold takeSign
  split
  · exact ⟨['-'], .minus, rfl⟩
  · exact ⟨['+'], .plus, rfl⟩
  · exact ⟨[], .none, rfl⟩

private theorem unsigned_of_digit {c : Char} (digit : c.isDigit = true) : c ≠ '-' ∧ c ≠ '+' := by
  constructor <;> rintro rfl <;> cases digit

end Signs

section Integers

variable {text : List Char} {n : Int}

theorem SignText.readSigned? {negative : Bool} {sign : List Char} (front : SignText negative sign)
    (unsigned : ∀ c ∈ text.head?, c ≠ '-' ∧ c ≠ '+') :
    readSigned? (sign ++ text) = (readDigits? text).map fun (n : Nat) => if negative then -(n : Int) else n := by
  cases front with
  | none =>
    rw [List.nil_append]
    unfold Decimal.readSigned?
    split
    · exact absurd rfl (unsigned '-' rfl).1
    · exact absurd rfl (unsigned '+' rfl).2
    · rfl
  | plus => rfl
  | minus =>
    rw [List.cons_append, List.nil_append, Decimal.readSigned?]
    cases readDigits? text <;> rfl

private theorem integerText_of_readSigned? (read : readSigned? text = some n) : IntegerText n text := by
  have form {negative : Bool} {sign rest : List Char} {m : Nat} (front : SignText negative sign)
      (read : readDigits? rest = some m) : IntegerText (if negative then -(m : Int) else m) (sign ++ rest) := by
    obtain ⟨nonempty, all, rfl⟩ := readDigits?_eq_some_iff.mp read
    exact .signed front ⟨nonempty, all⟩
  unfold readSigned? at read
  split at read
  · obtain ⟨k, lifted, rfl⟩ := Option.map_eq_some_iff.mp read
    obtain ⟨m, digits, same⟩ := Option.bind_eq_some_iff.mp lifted
    cases same
    exact form .minus digits
  · obtain ⟨m, digits, rfl⟩ := Option.map_eq_some_iff.mp read
    exact form .plus digits
  · obtain ⟨m, digits, rfl⟩ := Option.map_eq_some_iff.mp read
    exact form .none digits

theorem readSigned?_eq_some_iff : readSigned? text = some n ↔ IntegerText n text := by
  refine ⟨integerText_of_readSigned?, fun form => ?_⟩
  cases form with
  | signed front digits =>
    rw [front.readSigned? fun c first => unsigned_of_digit (digits.all c (List.mem_of_head? first)),
      readDigits?_eq_some_iff.mpr ⟨digits.nonempty, digits.all, rfl⟩, Option.map_some]

theorem readInt?_eq_some_iff {low high : Int} :
    readInt? low high text = some n ↔ IntegerText n text ∧ low ≤ n ∧ n ≤ high := by
  rw [readInt?, Option.filter_eq_some_iff, readSigned?_eq_some_iff, Bool.and_eq_true, decide_eq_true_eq, decide_eq_true_eq]

theorem IntegerText.mem (form : IntegerText n text) : ∀ c ∈ text, c = '-' ∨ c = '+' ∨ c.isDigit = true := by
  intro c member
  cases form with
  | signed front digits =>
    rcases List.mem_append.mp member with signed | digit
    · cases front with
      | none => cases signed
      | plus => exact .inr (.inl (List.mem_singleton.mp signed))
      | minus => exact .inl (List.mem_singleton.mp signed)
    · exact .inr (.inr (digits.all c digit))

theorem not_integerText_of_other {c : Char} (minus : c ≠ '-') (plus : c ≠ '+') (other : c.isDigit = false) :
    ¬ IntegerText n (c :: text) := by
  intro form
  rcases form.mem c List.mem_cons_self with same | same | digit
  · exact minus same
  · exact plus same
  · rw [other] at digit
    cases digit

theorem IntegerText.unique {m : Int} (form : IntegerText n text) (other : IntegerText m text) : n = m := by
  rw [← readSigned?_eq_some_iff] at form other
  exact Option.some.inj (form.symm.trans other)

theorem IntegerText.no_point (form : IntegerText n text) : '.' ∉ text := by
  intro member
  rcases form.mem '.' member with minus | plus | digit
  · exact absurd minus (by decide)
  · exact absurd plus (by decide)
  · cases digit

theorem integerText_intText (n : Int) : IntegerText n (intText n).toList := by
  have digits : Json.Digits (digits n.natAbs) := ⟨digits_ne_nil _, fun c => isDigit_of_mem_digits⟩
  rw [intText, String.toList_ofList]
  split
  · next negative =>
    have form := IntegerText.signed .minus digits
    rw [value_digits, if_pos rfl, Int.ofNat_natAbs_of_nonpos (Int.le_of_lt negative), Int.neg_neg] at form
    exact form
  · next natural =>
    have form := IntegerText.signed .none digits
    rw [value_digits, if_neg Bool.false_ne_true, Int.natAbs_of_nonneg (Int.not_lt.mp natural)] at form
    exact form

end Integers

section Fractions

variable {text rest whole places pointed : List Char} {exponent : Int} {x : Fraction}

theorem readExponent?_eq_some_iff : readExponent? text = some exponent ↔ PowerText exponent text := by
  cases text with
  | nil =>
    constructor
    · intro read
      cases read
      exact .none
    · intro form
      cases form
      rfl
  | cons mark text =>
    rw [readExponent?]
    split
    · next marked =>
      rw [readSigned?_eq_some_iff]
      refine ⟨fun number => .marked marked number, fun form => ?_⟩
      cases form with
      | marked _ number => exact number
    · next unmarked =>
      constructor
      · intro read
        cases read
      · intro form
        cases form with
        | marked marked _ => exact absurd marked unmarked

theorem PowerText.head (scale : PowerText exponent text) : ∀ c ∈ text.head?, c.isDigit = false ∧ c ≠ '.' := by
  intro c first
  cases scale with
  | none => cases first
  | marked marked _ =>
    cases first
    rcases marked with rfl | rfl <;> decide

theorem PointedText.head (digits : PointedText whole places pointed) (rest : List Char) :
    ∀ c ∈ (pointed ++ rest).head?, c ≠ '-' ∧ c ≠ '+' := by
  intro c first
  cases digits with
  | whole digits =>
    obtain ⟨d, more, rfl⟩ := List.exists_cons_of_ne_nil digits.nonempty
    cases first
    exact unsigned_of_digit (digits.all c List.mem_cons_self)
  | point digits _ =>
    obtain ⟨d, more, rfl⟩ := List.exists_cons_of_ne_nil digits.nonempty
    cases first
    exact unsigned_of_digit (digits.all c List.mem_cons_self)
  | places digits =>
    cases first
    decide

theorem PointedText.nonempty (digits : PointedText whole places pointed) : (whole.isEmpty && places.isEmpty) = false := by
  cases digits with
  | whole digits | point digits _ =>
    rw [List.isEmpty_eq_false_iff.mpr digits.nonempty, Bool.false_and]
  | places digits => rw [List.isEmpty_eq_false_iff.mpr digits.nonempty, Bool.and_false]

private theorem takePlaces_self (ended : ∀ c ∈ rest.head?, c ≠ '.') : takePlaces rest = ([], rest) := by
  unfold takePlaces
  split
  · exact absurd rfl (ended '.' rfl)
  · rfl

private theorem PointedText.span (digits : PointedText whole places pointed)
    (ended : ∀ c ∈ rest.head?, c.isDigit = false ∧ c ≠ '.') :
    (pointed ++ rest).takeWhile Char.isDigit = whole ∧
      takePlaces ((pointed ++ rest).dropWhile Char.isDigit) = (places, rest) := by
  have undigit : ∀ c ∈ rest.head?, c.isDigit = false := fun c first => (ended c first).1
  have afterPoint : ∀ {ds : List Char}, (∀ c ∈ ds, c.isDigit = true) → takePlaces ('.' :: (ds ++ rest)) = (ds, rest) := by
    intro ds digits
    obtain ⟨taken, left⟩ := span_digits digits undigit
    rw [takePlaces, taken, left]
  have pointEnds : ∀ text : List Char, ∀ c ∈ ('.' :: text).head?, c.isDigit = false := by
    rintro text c ⟨⟩
    rfl
  cases digits with
  | whole digits =>
    obtain ⟨taken, left⟩ := span_digits digits.all undigit
    rw [taken, left, takePlaces_self fun c first => (ended c first).2]
    exact ⟨rfl, rfl⟩
  | point digits more =>
    obtain ⟨taken, left⟩ := span_digits digits.all (pointEnds (places ++ rest))
    rw [List.append_assoc, List.cons_append, taken, left, afterPoint more]
    exact ⟨rfl, rfl⟩
  | places digits => exact ⟨rfl, afterPoint digits.all⟩

private theorem pointedText_of_span (text : List Char) {whole places rest : List Char}
    (taken : text.takeWhile Char.isDigit = whole) (left : takePlaces (text.dropWhile Char.isDigit) = (places, rest))
    (nonempty : (whole.isEmpty && places.isEmpty) = false) :
    ∃ pointed, PointedText whole places pointed ∧ text = pointed ++ rest := by
  have split : text = whole ++ text.dropWhile Char.isDigit := by
    rw [← taken, List.takeWhile_append_dropWhile]
  have digits : ∀ c ∈ whole, c.isDigit = true := by
    rw [← taken]
    exact List.all_eq_true.mp List.all_takeWhile
  unfold takePlaces at left
  split at left
  · next after point =>
    obtain ⟨rfl, rfl⟩ := Prod.mk.inj left
    have more : ∀ c ∈ after.takeWhile Char.isDigit, c.isDigit = true := List.all_eq_true.mp List.all_takeWhile
    have shape : text = whole ++ '.' :: (after.takeWhile Char.isDigit ++ after.dropWhile Char.isDigit) := by
      rw [List.takeWhile_append_dropWhile, ← point]
      exact split
    by_cases none : whole = []
    · rw [none] at nonempty shape ⊢
      have some : after.takeWhile Char.isDigit ≠ [] := List.isEmpty_eq_false_iff.mp nonempty
      exact ⟨_, .places ⟨some, more⟩, shape⟩
    · refine ⟨_, .point ⟨none, digits⟩ more, ?_⟩
      rw [List.append_assoc, List.cons_append]
      exact shape
  · obtain ⟨rfl, rfl⟩ := Prod.mk.inj left
    rw [List.isEmpty_nil, Bool.and_true] at nonempty
    exact ⟨whole, .whole ⟨List.isEmpty_eq_false_iff.mp nonempty, digits⟩, split⟩

private theorem fractionText_of_readFraction? (read : readFraction? text = some x) : FractionText x text := by
  obtain ⟨sign, front, signed⟩ := signText_takeSign text
  unfold readFraction? at read
  generalize takeSign text = taken at *
  obtain ⟨negative, body⟩ := taken
  simp only at front signed read
  generalize whole : body.takeWhile Char.isDigit = ds, left : takePlaces (body.dropWhile Char.isDigit) = after at read
  obtain ⟨places, rest⟩ := after
  simp only at read
  split at read
  · cases read
  · next nonempty =>
    rw [Bool.not_eq_true] at nonempty
    obtain ⟨exponent, scale, rfl⟩ := Option.map_eq_some_iff.mp read
    obtain ⟨pointed, digits, rfl⟩ := pointedText_of_span body whole left nonempty
    rw [signed]
    exact .parts front digits (readExponent?_eq_some_iff.mp scale)

theorem readFraction?_eq_some_iff : readFraction? text = some x ↔ FractionText x text := by
  refine ⟨fractionText_of_readFraction?, fun form => ?_⟩
  cases form with
  | @parts negative sign whole places pointed power exponent front digits scale =>
    obtain ⟨taken, left⟩ := digits.span scale.head
    simp only [readFraction?, front.takeSign (digits.head power), taken, left, digits.nonempty, Bool.false_eq_true,
      if_false, readExponent?_eq_some_iff.mpr scale, Option.map_some]

end Fractions

end DeviceBus.Decimal
