import DeviceBus.Outcome
import DeviceBus.Proofs.Text.Utf8

/-! UTF-8 gives every text one byte string: what can be decoded at all is what encoding writes. The range of a second
byte depends on the first one, so that no number is spelled longer than needed and none is a surrogate or beyond
the last character. -/
namespace DeviceBus.Utf8

theorem toNat_ofNat {n : Nat} (valid : n < 0xD800 ∨ 0xDFFF < n ∧ n < 0x110000) : (Char.ofNat n).toNat = n := by
  rw [Char.ofNat, dif_pos valid]
  rfl

section Sequences

variable {a b c d : UInt8} {more : Nat} {low high : UInt8}

def Tail (b : UInt8) : Prop := 0x80 ≤ b.toNat ∧ b.toNat ≤ 0xBF

theorem isContinuation_iff : isContinuation b = true ↔ Tail b := by
  simp only [isContinuation, Tail, UInt8.le_iff_toNat_le, Bool.and_eq_true, decide_eq_true_eq, UInt8.reduceToNat]

def LeadsTwo (a b : UInt8) : Prop := 0xC2 ≤ a.toNat ∧ a.toNat ≤ 0xDF ∧ Tail b

/-- The first two bytes of a sequence of three: a longer spelling than needed, or a surrogate, cannot begin so. -/
def LeadsThree (a b : UInt8) : Prop :=
  0xE0 ≤ a.toNat ∧ a.toNat ≤ 0xEF ∧ Tail b ∧ (a.toNat = 0xE0 → 0xA0 ≤ b.toNat) ∧ (a.toNat = 0xED → b.toNat ≤ 0x9F)

/-- The first two bytes of a sequence of four: nothing beyond the last character begins so. -/
def LeadsFour (a b : UInt8) : Prop :=
  0xF0 ≤ a.toNat ∧ a.toNat ≤ 0xF4 ∧ Tail b ∧ (a.toNat = 0xF0 → 0x90 ≤ b.toNat) ∧ (a.toNat = 0xF4 → b.toNat ≤ 0x8F)

theorem lead_cases (found : Lead.ofByte? a = some ⟨more, low, high⟩) (above : low ≤ b) (below : b ≤ high) :
    (more = 1 ∧ LeadsTwo a b) ∨ (more = 2 ∧ LeadsThree a b) ∨ (more = 3 ∧ LeadsFour a b) := by
  simp only [Lead.ofByte?, UInt8.lt_iff_toNat_lt, UInt8.le_iff_toNat_le, ← UInt8.toNat_inj,
    UInt8.reduceToNat] at found above below
  unfold LeadsTwo LeadsThree LeadsFour Tail
  repeat' split at found
  all_goals cases found
  all_goals
    simp only [UInt8.reduceToNat] at above below
    omega

private theorem toUInt8_eq {n : Nat} (same : n = a.toNat) : n.toUInt8 = a := by
  rw [same]
  exact UInt8.ofNat_toNat

private theorem encodeChar_one (small : a.toNat < 0x80) : encodeChar (Char.ofNat a.toNat) = [a] := by
  have number : (Char.ofNat a.toNat).toNat = a.toNat := toNat_ofNat (by omega)
  simp only [encodeChar, number, if_pos small, toUInt8_eq (a := a) rfl]

private theorem encodeChar_two (leads : LeadsTwo a b) :
    encodeChar (Char.ofNat (a.toNat % 0x20 * 0x40 + b.toNat % 0x40)) = [a, b] := by
  obtain ⟨least, most, second⟩ := leads
  unfold Tail at second
  generalize form : a.toNat % 0x20 * 0x40 + b.toNat % 0x40 = n
  have number : (Char.ofNat n).toNat = n := toNat_ofNat (by omega)
  simp only [encodeChar, number, if_neg (by omega : ¬ n < 0x80), if_pos (by omega : n < 0x800)]
  rw [toUInt8_eq (by omega : 0xC0 + n / 0x40 = a.toNat), toUInt8_eq (by omega : 0x80 + n % 0x40 = b.toNat)]

private theorem encodeChar_three (leads : LeadsThree a b) (third : Tail c) :
    encodeChar (Char.ofNat (a.toNat % 0x10 * 0x1000 + b.toNat % 0x40 * 0x40 + c.toNat % 0x40)) = [a, b, c] := by
  obtain ⟨least, most, second, short, surrogate⟩ := leads
  unfold Tail at second third
  generalize form : a.toNat % 0x10 * 0x1000 + b.toNat % 0x40 * 0x40 + c.toNat % 0x40 = n
  have number : (Char.ofNat n).toNat = n := toNat_ofNat (by omega)
  simp only [encodeChar, number, if_neg (by omega : ¬ n < 0x80), if_neg (by omega : ¬ n < 0x800),
    if_pos (by omega : n < 0x10000)]
  rw [toUInt8_eq (by omega : 0xE0 + n / 0x1000 = a.toNat), toUInt8_eq (by omega : 0x80 + n / 0x40 % 0x40 = b.toNat),
    toUInt8_eq (by omega : 0x80 + n % 0x40 = c.toNat)]

private theorem encodeChar_four (leads : LeadsFour a b) (third : Tail c) (fourth : Tail d) :
    encodeChar (Char.ofNat (a.toNat % 0x08 * 0x40000 + b.toNat % 0x40 * 0x1000 + c.toNat % 0x40 * 0x40 +
      d.toNat % 0x40)) = [a, b, c, d] := by
  obtain ⟨least, most, second, short, last⟩ := leads
  unfold Tail at second third fourth
  generalize form : a.toNat % 0x08 * 0x40000 + b.toNat % 0x40 * 0x1000 + c.toNat % 0x40 * 0x40 + d.toNat % 0x40 = n
  have number : (Char.ofNat n).toNat = n := toNat_ofNat (by omega)
  simp only [encodeChar, number, if_neg (by omega : ¬ n < 0x80), if_neg (by omega : ¬ n < 0x800),
    if_neg (by omega : ¬ n < 0x10000)]
  rw [toUInt8_eq (by omega : 0xF0 + n / 0x40000 = a.toNat),
    toUInt8_eq (by omega : 0x80 + n / 0x1000 % 0x40 = b.toNat),
    toUInt8_eq (by omega : 0x80 + n / 0x40 % 0x40 = c.toNat), toUInt8_eq (by omega : 0x80 + n % 0x40 = d.toNat)]

private theorem encodeChar_of_scan {rest : Bytes} {char : Char} (scanned : scan a rest = .char char more) :
    ∃ sequence back, rest = sequence ++ back ∧ sequence.length = more ∧ encodeChar char = a :: sequence := by
  unfold scan at scanned
  split at scanned
  · next small =>
    cases scanned
    exact ⟨[], rest, rfl, rfl, encodeChar_one (UInt8.lt_iff_toNat_lt.mp small)⟩
  split at scanned
  · cases scanned
  next lead found =>
  obtain ⟨announced, low, high⟩ := lead
  split at scanned
  · cases scanned
  next b rest =>
  split at scanned
  · cases scanned
  next inside =>
  simp only [Bool.or_eq_true, decide_eq_true_eq, not_or, UInt8.not_lt] at inside
  rcases lead_cases found inside.1 inside.2 with ⟨rfl, leads⟩ | ⟨rfl, leads⟩ | ⟨rfl, leads⟩
  · simp only [if_true] at scanned
    cases scanned
    exact ⟨[b], rest, rfl, rfl, encodeChar_two leads⟩
  · simp only [Nat.reduceEqDiff, if_false, if_true] at scanned
    split at scanned
    · cases scanned
    next c rest =>
    split at scanned
    · cases scanned
    next third =>
    rw [Bool.not_eq_true', Bool.not_eq_false, isContinuation_iff] at third
    cases scanned
    exact ⟨[b, c], rest, rfl, rfl, encodeChar_three leads third⟩
  · simp only [Nat.reduceEqDiff, if_false] at scanned
    split at scanned
    · cases scanned
    next c rest =>
    split at scanned
    · cases scanned
    next third =>
    split at scanned
    · cases scanned
    next d rest =>
    split at scanned
    · cases scanned
    next fourth =>
    rw [Bool.not_eq_true', Bool.not_eq_false, isContinuation_iff] at third fourth
    cases scanned
    exact ⟨[b, c, d], rest, rfl, rfl, encodeChar_four leads third fourth⟩

end Sequences

theorem encode_of_decodeFrom {index : Nat} {bytes : Bytes} {text : List Char}
    (decoded : decodeFrom index bytes = .ok text) : encode text = bytes := by
  fun_induction decodeFrom index bytes generalizing text with
  | case1 index =>
    cases decoded
    rfl
  | case2 index a rest c more scanned ih =>
    obtain ⟨later, read, rfl⟩ := except_map_ok decoded
    obtain ⟨sequence, back, rfl, rfl, written⟩ := encodeChar_of_scan scanned
    rw [List.drop_left] at read ih
    rw [encode, List.flatMap_cons, written, ← encode, ih read, List.cons_append]
  | case3 index a rest valid scanned => cases decoded
  | case4 index a rest scanned => cases decoded

theorem decode_eq_ok_iff (bytes : Bytes) (text : List Char) : decode bytes = .ok text ↔ bytes = encode text := by
  constructor
  · intro decoded
    exact (encode_of_decodeFrom decoded).symm
  · rintro rfl
    exact decode_encode text

theorem encodeChar_eq_utf8EncodeChar (c : Char) : encodeChar c = String.utf8EncodeChar c := by
  have valid : c.toNat < 0xD800 ∨ 0xDFFF < c.toNat ∧ c.toNat < 0x110000 := c.valid
  unfold encodeChar String.utf8EncodeChar
  simp only [Char.toNat_val]
  generalize c.toNat = n at valid
  simp only [← Nat.lt_add_one_iff, Nat.reduceAdd]
  split
  · rfl
  split
  · rw [Nat.mod_eq_of_lt (a := n / 64) (by omega), Nat.add_comm (n / 64), Nat.add_comm (n % 64)]
  split
  · rw [Nat.mod_eq_of_lt (a := n / 4096) (by omega), Nat.add_comm (n / 4096), Nat.add_comm (n / 64 % 64),
      Nat.add_comm (n % 64)]
  · rw [Nat.mod_eq_of_lt (a := n / 262144) (by omega), Nat.add_comm (n / 262144), Nat.add_comm (n / 4096 % 64),
      Nat.add_comm (n / 64 % 64), Nat.add_comm (n % 64)]

theorem ofString_eq_toUTF8 (s : String) : ofString s = s.toUTF8.data.toList := by
  have same : encodeChar = String.utf8EncodeChar := funext encodeChar_eq_utf8EncodeChar
  rw [ofString, encode, same, String.toUTF8, ← String.utf8Encode_toList, List.utf8Encode, List.data_toByteArray]

theorem decode_eq_ok_toList_iff (bytes : Bytes) (s : String) : decode bytes = .ok s.toList ↔ s.toUTF8.data.toList = bytes := by
  rw [decode_eq_ok_iff, ← ofString_eq_toUTF8, ofString, eq_comm]

theorem toString?_eq_some_iff (bytes : Bytes) (s : String) : toString? bytes = some s ↔ s.toUTF8.data.toList = bytes := by
  rw [← decode_eq_ok_toList_iff, toString?, Option.map_eq_some_iff]
  constructor
  · rintro ⟨chars, decoded, rfl⟩
    cases read : decode bytes with
    | error fault => rw [read] at decoded; cases decoded
    | ok text =>
      rw [read] at decoded
      cases decoded
      rw [String.toList_ofList]
  · intro decoded
    exact ⟨s.toList, by rw [decoded]; rfl, String.ofList_toList⟩

end DeviceBus.Utf8
