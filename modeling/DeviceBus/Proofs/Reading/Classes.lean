import DeviceBus.Notification
import DeviceBus.Proofs.Decimal.Fraction
import DeviceBus.Proofs.Text.Blank
import DeviceBus.Proofs.Text.Canonical

/-! The classes of plaintexts. Bytes that are no text are kept; a text is a float, an integer or a boolean if the part of it
between blanks is a text for one, and at most one of these classes fits; any other text is kept as a whole. -/
namespace DeviceBus.Reading

open Decimal (Fraction FractionText IntegerText)

/-- A text without blanks around it is the text of a number or of a boolean. -/
inductive Denotes (inner : List Char) : Reading → Prop
  | float {x : Fraction} (point : '.' ∈ inner) (form : FractionText x inner) : Denotes inner (.float x.toFloat)
  | integer {n : Int64} (form : IntegerText n.toInt inner) : Denotes inner (.integer n)
  | yes (word : inner = "true".toList) : Denotes inner (.boolean true)
  | no (word : inner = "false".toList) : Denotes inner (.boolean false)

inductive Classed (s : String) : Reading → Prop
  | scalar {r : Reading} (denotes : Denotes (Blank.trim s.toList) r) : Classed s r
  | text (other : ∀ r, ¬ Denotes (Blank.trim s.toList) r) : Classed s (.text s)

variable {inner chars : List Char} {r : Reading} {s : String}

section Scalars

theorem float?_eq_some_iff {x : Float} :
    float? inner = some x ↔ '.' ∈ inner ∧ ∃ f, FractionText f inner ∧ f.toFloat = x := by
  unfold float?
  split
  · next point =>
    rw [Decimal.readFloat?, Option.map_eq_some_iff]
    simp only [Decimal.readFraction?_eq_some_iff, List.contains_iff_mem.mp point, true_and]
  · next absent =>
    refine ⟨nofun, fun ⟨point, _⟩ => ?_⟩
    exact absurd (List.contains_iff_mem.mpr point) absent

private theorem float?_eq_none (absent : '.' ∉ inner) : float? inner = none := by
  refine Option.eq_none_iff_forall_not_mem.mpr fun x read => ?_
  exact absent (float?_eq_some_iff.mp read).1

private theorem toInt_ofInt {n : Int} (low : -0x8000000000000000 ≤ n) (high : n ≤ 0x7FFFFFFFFFFFFFFF) :
    (Int64.ofInt n).toInt = n :=
  Int64.toInt_ofInt_of_le low (Int.lt_add_one_iff.mpr high)

theorem integer?_eq_some_iff {n : Int64} : integer? inner = some n ↔ IntegerText n.toInt inner := by
  rw [integer?, Option.map_eq_some_iff]
  constructor
  · rintro ⟨m, read, rfl⟩
    obtain ⟨form, low, high⟩ := Decimal.readInt?_eq_some_iff.mp read
    rwa [toInt_ofInt low high]
  · intro form
    refine ⟨n.toInt, Decimal.readInt?_eq_some_iff.mpr ⟨form, n.le_toInt, ?_⟩, Int64.ofInt_toInt n⟩
    exact Int.lt_add_one_iff.mp n.toInt_lt

private theorem integer?_eq_none (unspelled : ∀ n, ¬ IntegerText n inner) : integer? inner = none := by
  refine Option.eq_none_iff_forall_not_mem.mpr fun n read => ?_
  exact unspelled n.toInt (integer?_eq_some_iff.mp read)

private theorem not_integerText_true (n : Int) : ¬ IntegerText n "true".toList :=
  Decimal.not_integerText_of_other (by decide) (by decide) (by decide)

private theorem not_integerText_false (n : Int) : ¬ IntegerText n "false".toList :=
  Decimal.not_integerText_of_other (by decide) (by decide) (by decide)

end Scalars

section Texts

theorem Denotes.ofText_eq (denotes : Denotes (Blank.trim chars) r) : ofText chars = r := by
  dsimp only [ofText]
  generalize Blank.trim chars = inner at denotes
  cases denotes with
  | float point form =>
    have read := float?_eq_some_iff.mpr ⟨point, _, form, rfl⟩
    simp only [read]
  | integer form => simp only [float?_eq_none form.no_point, integer?_eq_some_iff.mpr form]
  | yes word =>
    have unpointed : float? inner = none := float?_eq_none (by rw [word]; decide)
    have unsigned : integer? inner = none := integer?_eq_none (word ▸ not_integerText_true)
    simp only [unpointed, unsigned, if_pos word]
  | no word =>
    have unpointed : float? inner = none := float?_eq_none (by rw [word]; decide)
    have unsigned : integer? inner = none := integer?_eq_none (word ▸ not_integerText_false)
    have other : inner ≠ "true".toList := by rw [word]; decide
    simp only [unpointed, unsigned, if_neg other, if_pos word]

theorem ofText_cases (chars : List Char) :
    Denotes (Blank.trim chars) (ofText chars) ∨
      ofText chars = .text (String.ofList chars) ∧ ∀ r, ¬ Denotes (Blank.trim chars) r := by
  dsimp only [ofText]
  generalize Blank.trim chars = inner
  cases fraction : float? inner with
  | some x =>
    obtain ⟨point, f, form, rfl⟩ := float?_eq_some_iff.mp fraction
    exact .inl (.float point form)
  | none =>
    cases whole : integer? inner with
    | some n => exact .inl (.integer (integer?_eq_some_iff.mp whole))
    | none =>
      dsimp only
      split
      · next word => exact .inl (.yes word)
      split
      · next word => exact .inl (.no word)
      next notTrue notFalse =>
      refine .inr ⟨rfl, fun r denotes => ?_⟩
      cases denotes with
      | float point form => exact absurd (float?_eq_some_iff.mpr ⟨point, _, form, rfl⟩) (by rw [fraction]; exact nofun)
      | integer form => exact absurd (integer?_eq_some_iff.mpr form) (by rw [whole]; exact nofun)
      | yes word => exact notTrue word
      | no word => exact notFalse word

theorem ofText_eq_iff : ofText s.toList = r ↔ Classed s r := by
  constructor
  · rintro rfl
    rcases ofText_cases s.toList with denotes | ⟨kept, other⟩
    · exact .scalar denotes
    · rw [kept, String.ofList_toList]
      exact .text other
  · intro classed
    cases classed with
    | scalar denotes => exact denotes.ofText_eq
    | text other =>
      rcases ofText_cases s.toList with denotes | ⟨kept, -⟩
      · exact absurd denotes (other _)
      · rw [kept, String.ofList_toList]

end Texts

section Plaintexts

variable {plaintext : Bytes}

theorem ofPlaintext_of_text (encoded : s.toUTF8.data.toList = plaintext) : ofPlaintext plaintext = ofText s.toList := by
  rw [ofPlaintext, (Utf8.decode_eq_ok_toList_iff plaintext s).mpr encoded]

theorem ofPlaintext_of_bytes (undecoded : ∀ s : String, s.toUTF8.data.toList ≠ plaintext) :
    ofPlaintext plaintext = .binary plaintext := by
  rw [ofPlaintext]
  cases decoded : Utf8.decode plaintext with
  | error fault => rfl
  | ok chars =>
    rw [← String.toList_ofList (l := chars), Utf8.decode_eq_ok_toList_iff] at decoded
    exact absurd decoded (undecoded _)

private theorem ofText_ne_binary (chars : List Char) (bytes : Bytes) : ofText chars ≠ .binary bytes := by
  intro same
  rcases ofText_cases chars with denotes | ⟨kept, -⟩
  · rw [same] at denotes
    cases denotes
  · rw [same] at kept
    cases kept

theorem ofPlaintext_eq_binary_iff {bytes : Bytes} :
    ofPlaintext plaintext = .binary bytes ↔ bytes = plaintext ∧ ∀ s : String, s.toUTF8.data.toList ≠ plaintext := by
  constructor
  · intro kept
    have undecoded : ∀ s : String, s.toUTF8.data.toList ≠ plaintext := fun s encoded =>
      ofText_ne_binary s.toList bytes ((ofPlaintext_of_text encoded).symm.trans kept)
    rw [ofPlaintext_of_bytes undecoded] at kept
    cases kept
    exact ⟨rfl, undecoded⟩
  · rintro ⟨rfl, undecoded⟩
    exact ofPlaintext_of_bytes undecoded

theorem text?_eq_none_iff (path : String) (plaintext : Bytes) :
    (Notification.mk path plaintext).text? = none ↔ ∀ s : String, s.toUTF8.data.toList ≠ plaintext := by
  rw [Notification.text?, Option.eq_none_iff_forall_ne_some]
  exact forall_congr' fun s => not_congr (Utf8.toString?_eq_some_iff plaintext s)

private theorem ofText_integer {n : Int} (form : IntegerText n (Blank.trim s.toList)) :
    (∃ m : Int64, m.toInt = n ∧ ofText s.toList = .integer m) ∨
      (n < -0x8000000000000000 ∨ 0x7FFFFFFFFFFFFFFF < n) ∧ ofText s.toList = .text s := by
  by_cases fits : -0x8000000000000000 ≤ n ∧ n ≤ 0x7FFFFFFFFFFFFFFF
  · have same := toInt_ofInt fits.1 fits.2
    have exact : IntegerText (Int64.ofInt n).toInt (Blank.trim s.toList) := by rwa [same]
    exact .inl ⟨Int64.ofInt n, same, Denotes.ofText_eq (.integer exact)⟩
  · refine .inr ⟨by omega, ofText_eq_iff.mpr (.text fun r denotes => ?_)⟩
    cases denotes with
    | float point _ => exact form.no_point point
    | @integer m other =>
      have same := form.unique other
      have bounds : -0x8000000000000000 ≤ m.toInt ∧ m.toInt < 0x8000000000000000 := ⟨m.le_toInt, m.toInt_lt⟩
      omega
    | yes word => exact not_integerText_true n (word ▸ form)
    | no word => exact not_integerText_false n (word ▸ form)

/-- Every plaintext has its class. What is not the bytes of a string stays as it is. A string is read as the number or the boolean
that its part between blanks is a text for, and is kept as a whole if there is none; so an integer that 64 bits do not hold
stays a text, and blanks around a number or a boolean do not matter. -/
theorem plaintext_classes (plaintext : Bytes) :
    (∀ bytes, ofPlaintext plaintext = .binary bytes ↔
      bytes = plaintext ∧ ∀ s : String, s.toUTF8.data.toList ≠ plaintext) ∧
    (∀ path, (Notification.mk path plaintext).text? = none ↔ ofPlaintext plaintext = .binary plaintext) ∧
    ∀ s : String, s.toUTF8.data.toList = plaintext →
      (∀ r, ofPlaintext plaintext = r ↔ Classed s r) ∧
      (∀ n, IntegerText n (Blank.trim s.toList) →
        (∃ m : Int64, m.toInt = n ∧ ofPlaintext plaintext = .integer m) ∨
          (n < -0x8000000000000000 ∨ 0x7FFFFFFFFFFFFFFF < n) ∧ ofPlaintext plaintext = .text s) ∧
      ∀ before after, Blank.Blanks before → Blank.Blanks after → (∀ t, ofPlaintext plaintext ≠ .text t) →
        ofPlaintext (String.ofList (before ++ (s.toList ++ after))).toUTF8.data.toList = ofPlaintext plaintext := by
  refine ⟨fun bytes => ofPlaintext_eq_binary_iff, fun path => ?_, fun s encoded => ?_⟩
  · rw [text?_eq_none_iff, ofPlaintext_eq_binary_iff, eq_self, true_and]
  rw [ofPlaintext_of_text encoded]
  refine ⟨fun r => ofText_eq_iff, fun n => ofText_integer, fun before after early late known => ?_⟩
  rcases ofText_cases s.toList with denotes | ⟨kept, -⟩
  · rw [ofPlaintext_of_text rfl, String.toList_ofList]
    refine Denotes.ofText_eq ?_
    rwa [Blank.trim_surrounded early late]
  · exact absurd kept (known _)

theorem plaintext_classes_of_samples :
    let great : String := "9223372036854775808"
    ofPlaintext [0xFF, 0x00] = .binary [0xFF, 0x00] ∧
      ofPlaintext "72".toUTF8.data.toList = .integer 72 ∧
      ofPlaintext (String.ofList ([' '] ++ ("72".toList ++ ['\n']))).toUTF8.data.toList = .integer 72 ∧
      ofPlaintext great.toUTF8.data.toList = .text great := by
  intro great
  have undecoded : ∀ s : String, s.toUTF8.data.toList ≠ [0xFF, 0x00] := by
    intro s encoded
    rw [← Utf8.decode_eq_ok_toList_iff, Utf8.decode, Utf8.decodeFrom] at encoded
    cases encoded
  obtain ⟨classed, -, blanks⟩ := (plaintext_classes "72".toUTF8.data.toList).2.2 "72" rfl
  obtain ⟨-, limits, -⟩ := (plaintext_classes great.toUTF8.data.toList).2.2 great rfl
  have small : IntegerText (72 : Int64).toInt (Blank.trim "72".toList) :=
    Decimal.readSigned?_eq_some_iff.mp (by decide)
  have large : IntegerText 9223372036854775808 (Blank.trim great.toList) :=
    Decimal.readSigned?_eq_some_iff.mp (by decide +kernel)
  have number := (classed (.integer 72)).mpr (.scalar (.integer small))
  refine ⟨((plaintext_classes [0xFF, 0x00]).1 _).mpr ⟨rfl, undecoded⟩, number, ?_, ?_⟩
  · have padded := blanks [' '] ['\n'] (List.forall_mem_singleton.mpr rfl) (List.forall_mem_singleton.mpr rfl)
      (by rw [number]; exact fun t => by rintro ⟨⟩)
    exact padded.trans number
  · rcases limits 9223372036854775808 large with ⟨m, same, -⟩ | ⟨-, kept⟩
    · exact absurd m.toInt_lt (by rw [same]; decide)
    · exact kept

end Plaintexts

end DeviceBus.Reading
