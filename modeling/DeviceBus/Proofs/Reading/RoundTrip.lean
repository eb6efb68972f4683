import DeviceBus.Proofs.Reading.Classes

/-! Readings read back. The text that is shown for an integer, a boolean or a text is itself a plaintext of the same reading;
that of an integer is its decimal text, for every integer of 64 bits. -/
namespace DeviceBus.Decimal

theorem IntegerText.bare {n : Int} {text : List Char} (form : IntegerText n text) : Blank.Bare text := by
  refine Blank.bare_of_unblank fun c member => ?_
  rcases form.mem c member with rfl | rfl | digit
  · decide
  · decide
  · exact Blank.isBlank_of_isDigit digit

end DeviceBus.Decimal

namespace DeviceBus.Reading

/-- Readings of which nothing is lost in their text. -/
inductive Plain : Reading → Prop
  | integer (n : Int64) : Plain (.integer n)
  | boolean (b : Bool) : Plain (.boolean b)
  | text (s : String) : Plain (.text s)

variable {plaintext : Bytes} {s : String}

theorem ofPlaintext_string (s : String) : ofPlaintext s.toUTF8.data.toList = ofText s.toList := ofPlaintext_of_text rfl

theorem ofPlaintext_intText (n : Int64) : ofPlaintext (Decimal.intText n.toInt).toUTF8.data.toList = .integer n := by
  have form := Decimal.integerText_intText n.toInt
  rw [ofPlaintext_string]
  refine Denotes.ofText_eq (.integer ?_)
  rwa [Blank.trim_eq_self form.bare]

theorem ofPlaintext_boolean (b : Bool) : ofPlaintext (display (.boolean b)).toUTF8.data.toList = .boolean b := by
  rw [ofPlaintext_string]
  cases b with
  | true => exact Denotes.ofText_eq (.yes (by decide))
  | false => exact Denotes.ofText_eq (.no (by decide))

private theorem toUTF8_of_ofPlaintext (kept : ofPlaintext plaintext = .text s) : s.toUTF8.data.toList = plaintext := by
  by_cases decoded : ∃ t : String, t.toUTF8.data.toList = plaintext
  · obtain ⟨t, encoded⟩ := decoded
    rw [ofPlaintext_of_text encoded, ofText_eq_iff] at kept
    cases kept with
    | scalar denotes => cases denotes
    | text other => exact encoded
  · rw [ofPlaintext_of_bytes (not_exists.mp decoded)] at kept
    cases kept

/-- The text of an integer, a boolean or a text that was read is read as the same again, and the decimal text of every integer
of 64 bits is read as that integer. -/
theorem display_reads_back :
    (∀ plaintext, Plain (ofPlaintext plaintext) →
      ofPlaintext (ofPlaintext plaintext).display.toUTF8.data.toList = ofPlaintext plaintext) ∧
    ∀ n : Int64, ofPlaintext (toString n.toInt).toUTF8.data.toList = .integer n := by
  refine ⟨fun plaintext plain => ?_, fun n => ?_⟩
  · generalize same : ofPlaintext plaintext = reading at plain
    cases plain with
    | integer n => exact ofPlaintext_intText n
    | boolean b => exact ofPlaintext_boolean b
    | text s =>
      rw [display, toUTF8_of_ofPlaintext same]
      exact same
  · rw [← Decimal.intText_eq_toString]
    exact ofPlaintext_intText n

theorem display_reads_back_of_padded :
    let number : Bytes := " -7\n".toUTF8.data.toList
    let text : Bytes := " 7 of 9 ".toUTF8.data.toList
    ofPlaintext number = .integer (-7) ∧
      ofPlaintext (ofPlaintext number).display.toUTF8.data.toList = .integer (-7) ∧
      ofPlaintext text = .text " 7 of 9 " ∧
      ofPlaintext (ofPlaintext text).display.toUTF8.data.toList = .text " 7 of 9 " ∧
      ofPlaintext "-9223372036854775808".toUTF8.data.toList = .integer Int64.minValue := by
  intro number text
  have seven : ofPlaintext number = .integer (-7) := by
    rw [ofPlaintext_string]
    exact Denotes.ofText_eq (.integer (Decimal.readSigned?_eq_some_iff.mp (by decide)))
  have counted : ofPlaintext text = .text " 7 of 9 " := by
    rw [ofPlaintext_string]
    rfl
  obtain ⟨printed, limits⟩ := display_reads_back
  refine ⟨seven, ?_, counted, ?_, ?_⟩
  · exact (printed number (seven ▸ .integer (-7))).trans seven
  · exact (printed text (counted ▸ .text " 7 of 9 ")).trans counted
  · exact limits Int64.minValue

end DeviceBus.Reading
