import DeviceBus.Json.Printer
import DeviceBus.Proofs.Decimal.Integer
import DeviceBus.Proofs.Json.Grammar

/-! Numbers, read as the grammar has them. Digits, places and an exponent reach as far as they can, so a numeral ends only
where the text goes on with something that none of them has. An integer is written as its digits, and it
comes back where 64 bits hold it. -/
namespace DeviceBus.Json

/-- A text that may follow a value: nothing, space, or what parts and closes the items of a bracket. -/
def Ends (rest : List Char) : Prop := ∀ c ∈ rest.head?, isSpace c = true ∨ c = ',' ∨ c = ']' ∨ c = '\x7d'

theorem ends_nil : Ends [] := nofun

theorem Ends.cons {c : Char} (ends : isSpace c = true ∨ c = ',' ∨ c = ']' ∨ c = '\x7d') (rest : List Char) :
    Ends (c :: rest) := by
  intro first same
  cases same
  exact ends

theorem Ends.append {gap rest : List Char} (blank : Blank gap) (ends : Ends rest) : Ends (gap ++ rest) := by
  cases gap with
  | nil => exact ends
  | cons c gap => exact .cons (.inl (blank c List.mem_cons_self)) _

private theorem Ends.not_numeral {rest : List Char} (ends : Ends rest) :
    ∀ c ∈ rest.head?, c.isDigit = false ∧ c ≠ '.' ∧ c ≠ 'e' ∧ c ≠ 'E' := by
  intro c first
  have parts : c = ' ' ∨ c = '\n' ∨ c = '\t' ∨ c = '\r' ∨ c = ',' ∨ c = ']' ∨ c = '\x7d' := by
    have cases := ends c first
    simp only [isSpace, Bool.or_eq_true, decide_eq_true_eq, or_assoc] at cases
    exact cases
  rcases parts with rfl | rfl | rfl | rfl | rfl | rfl | rfl <;> decide

section Digits

variable {ds rest text : List Char}

private theorem readDigits_append (digits : Digits ds) (ended : ∀ c ∈ rest.head?, c.isDigit = false) :
    readDigits (ds ++ rest) = .ok (ds, rest) := by
  obtain ⟨taken, left⟩ := Decimal.span_digits digits.all ended
  obtain ⟨first, more, rfl⟩ := List.exists_cons_of_ne_nil digits.nonempty
  rw [List.cons_append] at taken left ⊢
  rw [readDigits, if_pos (digits.all first List.mem_cons_self), taken, left]

private theorem digits_of_readDigits (read : readDigits text = .ok (ds, rest)) : Digits ds ∧ text = ds ++ rest := by
  cases text with
  | nil => cases read
  | cons c text =>
    rw [readDigits] at read
    split at read
    · next digit =>
      cases read
      refine ⟨⟨?_, List.all_eq_true.mp List.all_takeWhile⟩, List.takeWhile_append_dropWhile.symm⟩
      rw [List.takeWhile_cons_of_pos digit]
      exact List.cons_ne_nil _ _
    · cases read

private theorem readWhole_append (whole : WholeText ds) (ended : ∀ c ∈ rest.head?, c.isDigit = false) :
    readWhole (ds ++ rest) = .ok (ds, rest) := by
  simp only [readWhole, readDigits_append whole.toDigits ended, bind, Except.bind]
  split
  · next next more => cases whole.lead rfl
  · rfl

private theorem wholeText_of_readWhole (read : readWhole text = .ok (ds, rest)) : WholeText ds ∧ text = ds ++ rest := by
  obtain ⟨⟨whole, left⟩, taken, checked⟩ := except_bind_ok read
  obtain ⟨digits, rfl⟩ := digits_of_readDigits taken
  simp only at checked
  split at checked
  · cases checked
  · next other =>
    cases checked
    refine ⟨⟨digits, fun lead => ?_⟩, rfl⟩
    match ds with
    | [c] => rw [Option.some.inj lead]
    | c :: next :: more => exact absurd (congrArg (· :: next :: more) (Option.some.inj lead)) (other next more)

end Digits

section Parts

variable {rest text : List Char} {places : Option (List Char)} {exponent : Option (Bool × List Char)}

theorem PlacesText.read (form : PlacesText places text)
    (ended : ∀ c ∈ rest.head?, c.isDigit = false ∧ c ≠ '.') : readPlaces (text ++ rest) = .ok (places, rest) := by
  cases form with
  | none =>
    rw [List.nil_append]
    unfold readPlaces
    split
    · exact absurd rfl (ended '.' rfl).2
    · rfl
  | point digits =>
    rw [List.cons_append, readPlaces, readDigits_append digits fun c first => (ended c first).1]
    rfl

private theorem placesText_of_readPlaces (read : readPlaces text = .ok (places, rest)) :
    ∃ form, PlacesText places form ∧ text = form ++ rest := by
  unfold readPlaces at read
  split at read
  · obtain ⟨⟨ds, left⟩, taken, same⟩ := except_map_ok read
    obtain ⟨digits, rfl⟩ := digits_of_readDigits taken
    cases same
    exact ⟨'.' :: ds, .point digits, rfl⟩
  · cases read
    exact ⟨[], .none, rfl⟩

private theorem readExponentDigits_append {ds : List Char} (down : Bool) (digits : Digits ds)
    (ended : ∀ c ∈ rest.head?, c.isDigit = false) :
    readExponentDigits down (ds ++ rest) = .ok (some (down, ds), rest) := by
  rw [readExponentDigits, readDigits_append digits ended]
  rfl

private theorem digits_of_readExponentDigits {down : Bool} (read : readExponentDigits down text = .ok (exponent, rest)) :
    ∃ ds, exponent = some (down, ds) ∧ Digits ds ∧ text = ds ++ rest := by
  obtain ⟨⟨ds, left⟩, taken, same⟩ := except_map_ok read
  obtain ⟨digits, rfl⟩ := digits_of_readDigits taken
  cases same
  exact ⟨ds, rfl, digits, rfl⟩

private theorem readExponent_marked {mark : Char} (marked : mark = 'e' ∨ mark = 'E') (text : List Char) :
    readExponent (mark :: text) =
      match text with
      | '+' :: more => readExponentDigits false more
      | '-' :: more => readExponentDigits true more
      | _ => readExponentDigits false text :=
  if_pos marked

theorem ExponentText.read (form : ExponentText exponent text) (ends : Ends rest) :
    readExponent (text ++ rest) = .ok (exponent, rest) := by
  have ended : ∀ c ∈ rest.head?, c.isDigit = false := fun c first => (ends.not_numeral c first).1
  cases form with
  | none =>
    cases rest with
    | nil => rfl
    | cons c rest =>
      obtain ⟨-, -, small, capital⟩ := ends.not_numeral c rfl
      exact if_neg (not_or.mpr ⟨small, capital⟩)
  | @bare mark ds marked digits =>
    obtain ⟨c, more, rfl⟩ := List.exists_cons_of_ne_nil digits.nonempty
    have digit := digits.all c List.mem_cons_self
    have taken := readExponentDigits_append false digits ended
    rw [List.cons_append] at taken
    rw [List.cons_append, List.cons_append, readExponent_marked marked]
    split
    · next same =>
      cases same
      cases digit
    · next same =>
      cases same
      cases digit
    · exact taken
  | up marked digits => exact (readExponent_marked marked _).trans (readExponentDigits_append false digits ended)
  | down marked digits => exact (readExponent_marked marked _).trans (readExponentDigits_append true digits ended)

private theorem exponentText_of_readExponent (read : readExponent text = .ok (exponent, rest)) :
    ∃ form, ExponentText exponent form ∧ text = form ++ rest := by
  cases text with
  | nil =>
    cases read
    exact ⟨[], .none, rfl⟩
  | cons c text =>
    by_cases marked : c = 'e' ∨ c = 'E'
    · rw [readExponent_marked marked] at read
      split at read
      · obtain ⟨ds, rfl, digits, rfl⟩ := digits_of_readExponentDigits read
        exact ⟨c :: '+' :: ds, .up marked digits, rfl⟩
      · obtain ⟨ds, rfl, digits, rfl⟩ := digits_of_readExponentDigits read
        exact ⟨c :: '-' :: ds, .down marked digits, rfl⟩
      · obtain ⟨ds, rfl, digits, rfl⟩ := digits_of_readExponentDigits read
        exact ⟨c :: ds, .bare marked digits, rfl⟩
    · rw [show readExponent (c :: text) = .ok (none, c :: text) from if_neg marked] at read
      cases read
      exact ⟨[], .none, rfl⟩

theorem ExponentText.head (form : ExponentText exponent text) (ends : Ends rest) :
    ∀ c ∈ (text ++ rest).head?, c.isDigit = false ∧ c ≠ '.' := by
  have marks : ∀ {mark : Char}, mark = 'e' ∨ mark = 'E' → mark.isDigit = false ∧ mark ≠ '.' := by
    rintro mark (rfl | rfl) <;> decide
  intro c first
  cases form with
  | none =>
    obtain ⟨digit, point, -⟩ := ends.not_numeral c first
    exact ⟨digit, point⟩
  | bare marked => exact Option.some.inj first ▸ marks marked
  | up marked => exact Option.some.inj first ▸ marks marked
  | down marked => exact Option.some.inj first ▸ marks marked

theorem PlacesText.head (form : PlacesText places text) (ended : ∀ c ∈ rest.head?, c.isDigit = false) :
    ∀ c ∈ (text ++ rest).head?, c.isDigit = false := by
  intro c first
  cases form with
  | none => exact ended c first
  | point digits => exact Option.some.inj first ▸ rfl

end Parts

section Numerals

theorem NumeralText.readNumber {n : Numeral} {text rest : List Char} {number : JsonNumber}
    (numeral : NumeralText n text) (value : n.value = .ok number) (ends : Ends rest) :
    readNumber n.negative (text ++ rest) = .ok (number, rest) := by
  obtain ⟨whole, fraction, power⟩ := numeral
  have afterPlaces := power.head ends
  have afterWhole := fraction.head fun c first => (afterPlaces c first).1
  simp only [List.append_assoc, Json.readNumber, readWhole_append whole afterWhole, fraction.read afterPlaces,
    power.read ends, bind, Except.bind, value]
  rfl

theorem numeralText_of_readNumber {negative : Bool} {text rest : List Char} {number : JsonNumber}
    (read : readNumber negative text = .ok (number, rest)) :
    ∃ n form, n.negative = negative ∧ NumeralText n form ∧ n.value = .ok number ∧ text = form ++ rest := by
  obtain ⟨⟨ds, _⟩, readWhole, afterWhole⟩ := except_bind_ok read
  obtain ⟨⟨fraction, _⟩, readPlaces, afterPlaces⟩ := except_bind_ok afterWhole
  obtain ⟨⟨power, left⟩, readExponent, valued⟩ := except_bind_ok afterPlaces
  obtain ⟨whole, rfl⟩ := wholeText_of_readWhole readWhole
  obtain ⟨places, isPlaces, rfl⟩ := placesText_of_readPlaces readPlaces
  obtain ⟨exponent, isExponent, rfl⟩ := exponentText_of_readExponent readExponent
  simp only at valued
  split at valued
  · next value =>
    cases valued
    exact ⟨⟨negative, ds, fraction, power⟩, _, rfl, .parts whole isPlaces isExponent, value,
      by simp only [List.append_assoc]⟩
  · cases valued

end Numerals

section Integers

private theorem le_foldl_value (text : List Char) (n : Nat) :
    n ≤ text.foldl (fun n c => 10 * n + Decimal.digitValue c) n := by
  induction text generalizing n with
  | nil => exact Nat.le_refl n
  | cons c text ih =>
    have later := ih (10 * n + Decimal.digitValue c)
    rw [List.foldl_cons]
    omega

private theorem absorb_eq_foldl (text : List Char) (n : Nat)
    (fits : text.foldl (fun n c => 10 * n + Decimal.digitValue c) n < 0x10000000000000000) :
    absorb n text = (text.foldl (fun n c => 10 * n + Decimal.digitValue c) n, 0) := by
  induction text generalizing n with
  | nil => rfl
  | cons c text ih =>
    rw [List.foldl_cons] at fits ⊢
    have small : 10 * n + Decimal.digitValue c < 0x10000000000000000 :=
      Nat.lt_of_le_of_lt (le_foldl_value text _) fits
    simp only [absorb, small, if_true]
    exact ih _ fits

private theorem value_whole (negative : Bool) {ds : List Char} (fits : Decimal.value ds < 0x10000000000000000) :
    Numeral.value ⟨negative, ds, none, none⟩ = .ok (ofInteger negative (Decimal.value ds)) := by
  have absorbed : absorb 0 ds = (Decimal.value ds, 0) := absorb_eq_foldl ds 0 fits
  simp only [Numeral.value, Numeral.significand, absorbed, Option.getD_none, absorb]
  rfl

private theorem value_digits_numeral (negative : Bool) {n : Nat} (fits : n < 0x10000000000000000) :
    Numeral.value ⟨negative, Decimal.digits n, none, none⟩ = .ok (ofInteger negative n) := by
  have denotes := Decimal.value_digits n
  rw [value_whole negative (by rw [denotes]; exact fits), denotes]

private theorem numeralText_digits (negative : Bool) (n : Nat) :
    NumeralText ⟨negative, Decimal.digits n, none, none⟩ (Decimal.digits n) := by
  have whole : WholeText (Decimal.digits n) :=
    { nonempty := Decimal.digits_ne_nil n
      all := fun c => Decimal.isDigit_of_mem_digits
      lead := by
        intro zero
        obtain ⟨more, same⟩ := List.head?_eq_some_iff.mp zero
        rw [same, Decimal.digits_lead_zero same] }
  have numeral : NumeralText ⟨negative, Decimal.digits n, none, none⟩ (Decimal.digits n ++ ([] ++ [])) :=
    .parts whole .none .none
  rwa [List.append_nil, List.append_nil] at numeral

theorem numberText_intText {n : Int} (low : -0x8000000000000000 ≤ n) (high : n < 0x10000000000000000) :
    NumberText (.integer n) (Decimal.intText n).toList := by
  have fits : n.natAbs < 0x10000000000000000 := by omega
  rw [show (Decimal.intText n).toList = if n < 0 then '-' :: Decimal.digits n.natAbs else Decimal.digits n.natAbs from
    String.toList_ofList]
  split
  · next negative =>
    have whole : ofInteger true n.natAbs = .integer n := by
      have nonzero : n.natAbs ≠ 0 := by omega
      have small : ¬ 0x8000000000000000 < n.natAbs := by omega
      simp only [ofInteger, Bool.not_true, Bool.false_eq_true, if_false, nonzero, small, decide_false, Bool.or_self]
      congr 1
      omega
    exact .negative rfl (numeralText_digits true n.natAbs) (whole ▸ value_digits_numeral true fits)
  · next positive =>
    have whole : ofInteger false n.natAbs = .integer n := by
      rw [ofInteger, Int.natAbs_of_nonneg (by omega)]
      rfl
    exact .positive rfl (numeralText_digits false n.natAbs) (whole ▸ value_digits_numeral false fits)

end Integers

section Whole

variable {n : Numeral} {text : List Char} {k : Int}

private theorem foldl_of_absorb {ds : List Char} {start m : Nat} (small : start < 0x10000000000000000)
    (absorbed : absorb start ds = (m, 0)) :
    ds.foldl (fun n c => 10 * n + Decimal.digitValue c) start = m ∧ m < 0x10000000000000000 := by
  induction ds generalizing start with
  | nil =>
    cases absorbed
    exact ⟨rfl, small⟩
  | cons c ds ih =>
    rw [absorb] at absorbed
    split at absorbed
    · next fits => exact ih fits absorbed
    · cases absorbed

private theorem ofScaled_ne_integer (negative : Bool) (unread : Nat) (x : Option Float) :
    ofScaled negative unread x ≠ .ok (.integer k) := by
  cases x <;> nofun

private theorem Numeral.parts_of_integer (value : n.value = .ok (.integer k)) :
    n.places = none ∧ n.exponent = none ∧ Decimal.value n.whole < 0x10000000000000000 ∧
      ofInteger n.negative (Decimal.value n.whole) = .integer k := by
  obtain ⟨negative, whole, places, exponent⟩ := n
  simp only [Numeral.value] at value
  split at value
  · split at value
    · next plain =>
      simp only [Bool.and_eq_true, Option.isNone_iff_eq_none, decide_eq_true_eq] at plain
      obtain ⟨rfl, exact⟩ := plain
      obtain ⟨m, beyond, absorbed⟩ : ∃ m beyond, absorb 0 whole = (m, beyond) := ⟨_, _, rfl⟩
      simp only [Numeral.significand, absorbed, Option.getD_none, absorb] at exact value
      have none : beyond = 0 := by simpa using exact
      obtain ⟨rfl, small⟩ := foldl_of_absorb (by decide) (none ▸ absorbed)
      exact ⟨rfl, rfl, small, Except.ok.inj value⟩
    · exact absurd value (ofScaled_ne_integer _ _ _)
  · split at value
    · exact absurd value (ofScaled_ne_integer _ _ _)
    · exact absurd value (ofScaled_ne_integer _ _ _)

private theorem ofInteger_eq_natCast {negative : Bool} {m j : Nat} (same : ofInteger negative m = .integer (j : Int)) :
    negative = false ∧ m = j := by
  unfold ofInteger at same
  split at same
  · next positive =>
    simp only [JsonNumber.integer.injEq, Bool.not_eq_true'] at same positive
    exact ⟨positive, Int.ofNat_inj.mp same⟩
  · split at same
    · cases same
    · next held =>
      simp only [Bool.or_eq_true, decide_eq_true_eq, not_or] at held
      simp only [JsonNumber.integer.injEq] at same
      omega

private theorem NumberText.whole_of_natCast {j : Nat} (form : NumberText (.integer j) text) :
    WholeText text ∧ Decimal.value text = j ∧ j < 0x10000000000000000 := by
  cases form with
  | @positive n _ _ sign numeral value =>
    obtain ⟨whole, fraction, power⟩ := numeral
    obtain ⟨places, exponent, small, same⟩ := Numeral.parts_of_integer value
    rw [places] at fraction
    rw [exponent] at power
    cases fraction
    cases power
    obtain ⟨-, rfl⟩ := ofInteger_eq_natCast same
    rw [List.append_nil, List.append_nil]
    exact ⟨whole, rfl, small⟩
  | negative sign numeral value =>
    obtain ⟨-, -, -, same⟩ := Numeral.parts_of_integer value
    rw [sign] at same
    cases (ofInteger_eq_natCast same).1

private theorem NumberText.eq_natCast_of_whole {number : JsonNumber} (form : NumberText number text) (plain : WholeText text)
    (small : Decimal.value text < 0x10000000000000000) : number = .integer (Decimal.value text : Nat) := by
  have digits := plain.all
  cases form with
  | @positive n _ _ sign numeral value =>
    -- A point or an exponent would leave a character that is no digit.
    obtain ⟨whole, fraction, power⟩ := numeral
    simp only [List.forall_mem_append] at digits
    obtain ⟨negative, ds, places, exponent⟩ := n
    cases sign
    cases fraction with
    | point => exact absurd (digits.2.1 '.' List.mem_cons_self) (by decide)
    | none =>
      have marks : ∀ {mark : Char}, mark = 'e' ∨ mark = 'E' → ¬ mark.isDigit = true := by
        rintro mark (rfl | rfl) <;> decide
      cases power with
      | bare marked | up marked | down marked =>
        exact absurd (digits.2.2 _ List.mem_cons_self) (marks marked)
      | none =>
        simp only [List.append_nil] at small ⊢
        rw [value_whole false small] at value
        exact (Except.ok.inj value).symm
  | negative => exact absurd (digits '-' List.mem_cons_self) (by decide)

/-- Of all texts for numbers, those for a natural number that 64 bits hold are its digits, without a sign, a point or an
exponent. -/
theorem numberText_natCast_iff {number : JsonNumber} (form : NumberText number text) {j : Nat} :
    number = .integer j ↔ WholeText text ∧ Decimal.value text = j ∧ j < 0x10000000000000000 := by
  constructor
  · rintro rfl
    exact form.whole_of_natCast
  · rintro ⟨plain, rfl, small⟩
    exact form.eq_natCast_of_whole plain small

end Whole

end DeviceBus.Json
