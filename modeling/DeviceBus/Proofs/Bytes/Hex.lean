import DeviceBus.Bytes.Hex
import DeviceBus.Outcome
import DeviceBus.Proofs.Text.Canonical

/-! Hexadecimal texts. Reading takes exactly the texts that spell bytes, two digits in either case for each of them. Of any
other text it tells that the number of its bytes is odd, or else the first of them that is no digit. -/
namespace DeviceBus.Hex

/-- A digit in either case, with its number. -/
def Digit (c : Char) (n : Nat) : Prop :=
  "0123456789abcdef".toList[n]? = some c ∨ "0123456789ABCDEF".toList[n]? = some c

instance (c : Char) (n : Nat) : Decidable (Digit c n) := inferInstanceAs (Decidable (_ ∨ _))

def IsDigit (c : Char) : Prop := ∃ n, Digit c n

/-- Two digits for each byte, the one of its high half first. -/
inductive Spells : List Char → Bytes → Prop
  | nil : Spells [] []
  | cons {high low : Char} {h l : Nat} {text : List Char} {bytes : Bytes} (first : Digit high h) (second : Digit low l)
      (rest : Spells text bytes) : Spells (high :: low :: text) ((16 * h + l).toUInt8 :: bytes)

/-- Why a text spells no bytes. A byte that is part of a character beyond the first ones is no digit. -/
inductive Misspelt (text : String) : Fault → Prop
  | oddLength (odd : (Utf8.ofString text).length % 2 = 1) : Misspelt text .oddLength
  | badDigit {byte : UInt8} {index : Nat} (even : (Utf8.ofString text).length % 2 = 0)
      (here : (Utf8.ofString text)[index]? = some byte) (foreign : ¬ IsDigit (Char.ofNat byte.toNat))
      (first : ∀ before < index, ∀ b, (Utf8.ofString text)[before]? = some b → IsDigit (Char.ofNat b.toNat)) :
      Misspelt text (.badDigit byte index)

section Digits

variable {c : Char} {n : Nat} {b : UInt8}

theorem Digit.lt (digit : Digit c n) : n < 16 := by
  rcases digit with listed | listed <;> exact (List.getElem?_eq_some_iff.mp listed).1

private theorem digit_of_digit? (valued : digit? b = some n) : Digit (Char.ofNat b.toNat) n ∧ b < 0x80 := by
  have table : ∀ k < 256, ∀ n ∈ digit? k.toUInt8, Digit (Char.ofNat k) n ∧ k < 0x80 := by decide +kernel
  have entry := table b.toNat b.toNat_lt n
  rw [Nat.toUInt8, UInt8.ofNat_toNat] at entry
  exact entry valued

theorem Digit.byte (digit : Digit c n) : c.toNat < 0x80 ∧ digit? c.toNat.toUInt8 = some n := by
  -- `Option.all`, as a quantifier over characters may be decided by going through all of them.
  have table : ∀ row ∈ ["0123456789abcdef".toList, "0123456789ABCDEF".toList], ∀ n < 16,
      row[n]?.all (fun c => c.toNat < 0x80 ∧ digit? c.toNat.toUInt8 = some n) = true := by decide +kernel
  have bound := digit.lt
  rcases digit with listed | listed
  · have entry := table _ List.mem_cons_self n bound
    rw [listed] at entry
    exact of_decide_eq_true entry
  · have entry := table _ (List.mem_cons_of_mem _ List.mem_cons_self) n bound
    rw [listed] at entry
    exact of_decide_eq_true entry

theorem digit?_eq_none_iff : digit? b = none ↔ ¬ IsDigit (Char.ofNat b.toNat) := by
  constructor
  · rintro none ⟨n, digit⟩
    obtain ⟨small, valued⟩ := digit.byte
    have number : (Char.ofNat b.toNat).toNat = b.toNat := Utf8.toNat_ofNat (.inl (Nat.lt_trans b.toNat_lt (by decide)))
    rw [number, Nat.toUInt8, UInt8.ofNat_toNat, none] at valued
    cases valued
  · intro foreign
    cases valued : digit? b with
    | none => rfl
    | some n => exact absurd ⟨n, (digit_of_digit? valued).1⟩ foreign

theorem Digit.encodeChar (digit : Digit c n) : Utf8.encodeChar c = [c.toNat.toUInt8] := by
  simp only [Utf8.encodeChar, if_pos digit.byte.1]

end Digits

section Reading

variable {text : List Char} {bytes digits : Bytes} {fault : Fault}

theorem Spells.decodeFrom_encode (spells : Spells text bytes) (index : Nat) :
    decodeFrom index (Utf8.encode text) = .ok bytes := by
  induction spells generalizing index with
  | nil => rfl
  | cons first second rest ih =>
    rw [Utf8.encode, List.flatMap_cons, List.flatMap_cons, first.encodeChar, second.encodeChar]
    simp only [List.singleton_append, decodeFrom, first.byte.2, second.byte.2]
    rw [← Utf8.encode, ih]
    rfl

private theorem spells_of_decodeFrom {index : Nat} (decoded : decodeFrom index digits = .ok bytes) :
    Spells (digits.map fun b => Char.ofNat b.toNat) bytes ∧ ∀ b ∈ digits, ∃ n, digit? b = some n := by
  fun_induction decodeFrom index digits generalizing bytes with
  | case1 =>
    cases decoded
    exact ⟨.nil, nofun⟩
  | case2 => cases decoded
  | case3 => cases decoded
  | case4 => cases decoded
  | case5 index high low rest h l second first ih =>
    obtain ⟨later, further, rfl⟩ := except_map_ok decoded
    obtain ⟨spells, valued⟩ := ih further
    refine ⟨.cons (digit_of_digit? first).1 (digit_of_digit? second).1 spells, ?_⟩
    exact List.forall_mem_cons.mpr ⟨⟨h, first⟩, List.forall_mem_cons.mpr ⟨⟨l, second⟩, valued⟩⟩

private theorem Spells.length_encode (spells : Spells text bytes) : (Utf8.encode text).length = 2 * bytes.length := by
  induction spells with
  | nil => rfl
  | cons first second rest ih =>
    rw [Utf8.encode, List.flatMap_cons, List.flatMap_cons, first.encodeChar, second.encodeChar]
    simp only [List.singleton_append, List.length_cons]
    rw [← Utf8.encode, ih]
    omega

theorem decode_eq_ok_iff {value : String} : decode value = .ok bytes ↔ Spells value.toList bytes := by
  constructor
  · intro decoded
    rw [decode] at decoded
    split at decoded
    · cases decoded
    · obtain ⟨spells, valued⟩ := spells_of_decodeFrom decoded
      have small : ∀ b ∈ Utf8.ofString value, b < 0x80 := by
        intro b member
        obtain ⟨n, digit⟩ := valued b member
        exact (digit_of_digit? digit).2
      have same : (Utf8.ofString value).map (fun b => Char.ofNat b.toNat) = value.toList :=
        Utf8.encode_injective (Utf8.encode_ascii _ small)
      rwa [same] at spells
  · intro spells
    have even : ¬ (Utf8.ofString value).length % 2 = 1 := by
      rw [Utf8.ofString, spells.length_encode]
      omega
    rw [decode, if_neg even]
    exact spells.decodeFrom_encode 0

private theorem first_of_decodeFrom {index : Nat} (even : digits.length % 2 = 0)
    (failed : decodeFrom index digits = .error fault) :
    ∃ byte place, fault = .badDigit byte (index + place) ∧ digits[place]? = some byte ∧ digit? byte = none ∧
      ∀ before < place, ∀ b, digits[before]? = some b → ∃ n, digit? b = some n := by
  fun_induction decodeFrom index digits with
  | case1 => cases failed
  | case2 => cases even
  | case3 index high low rest foreign =>
    cases failed
    exact ⟨high, 0, rfl, rfl, foreign, nofun⟩
  | case4 index high low rest h foreign first =>
    cases failed
    refine ⟨low, 1, rfl, rfl, foreign, fun before early b here => ?_⟩
    obtain rfl : before = 0 := by omega
    cases here
    exact ⟨h, first⟩
  | case5 index high low rest h l second first ih =>
    have evenRest : rest.length % 2 = 0 := by
      simp only [List.length_cons] at even
      omega
    cases later : decodeFrom (index + 2) rest with
    | ok bytes =>
      rw [later] at failed
      cases failed
    | error fault =>
      rw [later] at failed
      cases failed
      obtain ⟨byte, place, rfl, here, foreign, early⟩ := ih evenRest later
      refine ⟨byte, place + 2, by rw [Nat.add_right_comm, Nat.add_assoc], here, foreign, fun before earlier b there => ?_⟩
      match before with
      | 0 =>
        cases there
        exact ⟨h, first⟩
      | 1 =>
        cases there
        exact ⟨l, second⟩
      | before + 2 => exact early before (by omega) b there

private theorem misspelt_of_decode {value : String} (failed : decode value = .error fault) : Misspelt value fault := by
  rw [decode] at failed
  split at failed
  · next odd =>
    cases failed
    exact .oddLength odd
  · next even =>
    have even : (Utf8.ofString value).length % 2 = 0 := by omega
    obtain ⟨byte, place, rfl, here, foreign, early⟩ := first_of_decodeFrom even failed
    rw [Nat.zero_add]
    refine .badDigit even here (digit?_eq_none_iff.mp foreign) fun before earlier b there => ?_
    obtain ⟨n, valued⟩ := early before earlier b there
    exact ⟨n, (digit_of_digit? valued).1⟩

theorem Misspelt.unique {value : String} {other : Fault} (misspelt : Misspelt value fault) (also : Misspelt value other) :
    fault = other := by
  cases misspelt with
  | oddLength odd =>
    cases also with
    | oddLength => rfl
    | badDigit even => omega
  | @badDigit byte index even here foreign first =>
    cases also with
    | oddLength odd => omega
    | @badDigit byte' index' even' here' foreign' first' =>
      obtain earlier | rfl | later := Nat.lt_trichotomy index index'
      · exact absurd (first' index earlier byte here) foreign
      · rw [Option.some.inj (here.symm.trans here')]
      · exact absurd (first index' later byte' here') foreign'

theorem Misspelt.not_spells {value : String} (misspelt : Misspelt value fault) : ¬ Spells value.toList bytes := by
  intro spells
  have decoded : decodeFrom 0 (Utf8.ofString value) = .ok bytes := spells.decodeFrom_encode 0
  cases misspelt with
  | oddLength odd =>
    rw [Utf8.ofString, spells.length_encode] at odd
    omega
  | badDigit even here foreign first =>
    obtain ⟨n, valued⟩ := (spells_of_decodeFrom decoded).2 _ (List.mem_of_getElem? here)
    exact foreign ⟨n, (digit_of_digit? valued).1⟩

theorem decode_eq_error_iff {value : String} : decode value = .error fault ↔ Misspelt value fault := by
  refine ⟨misspelt_of_decode, fun misspelt => ?_⟩
  cases decoded : decode value with
  | ok bytes => exact absurd (decode_eq_ok_iff.mp decoded) misspelt.not_spells
  | error other => rw [(misspelt_of_decode decoded).unique misspelt]

theorem Spells.unique {other : Bytes} (spells : Spells text bytes) (also : Spells text other) : bytes = other := by
  rw [← String.toList_ofList (l := text), ← decode_eq_ok_iff] at spells also
  exact Except.ok.inj (spells.symm.trans also)

theorem Spells.length_eq (spells : Spells text bytes) : text.length = 2 * bytes.length := by
  induction spells with
  | nil => rfl
  | cons first second rest ih =>
    simp only [List.length_cons, ih]
    omega

theorem Spells.isDigit (spells : Spells text bytes) : ∀ c ∈ text, IsDigit c := by
  induction spells with
  | nil => nofun
  | cons first second rest ih =>
    exact List.forall_mem_cons.mpr ⟨⟨_, first⟩, List.forall_mem_cons.mpr ⟨⟨_, second⟩, ih⟩⟩

theorem exists_spells {count : Nat} (length : text.length = 2 * count) (digits : ∀ c ∈ text, IsDigit c) :
    ∃ bytes, Spells text bytes ∧ bytes.length = count := by
  induction count generalizing text with
  | zero =>
    rw [List.length_eq_zero_iff.mp length]
    exact ⟨[], .nil, rfl⟩
  | succ count ih =>
    match text with
    | [] => cases length
    | [c] =>
      rw [List.length_singleton] at length
      omega
    | high :: low :: text =>
      obtain ⟨⟨h, first⟩, digits⟩ := List.forall_mem_cons.mp digits
      obtain ⟨⟨l, second⟩, digits⟩ := List.forall_mem_cons.mp digits
      have rest : text.length = 2 * count := by
        simp only [List.length_cons] at length
        omega
      obtain ⟨bytes, spells, same⟩ := ih rest digits
      exact ⟨_, .cons first second spells, congrArg (· + 1) same⟩

end Reading

theorem spells_encode (bytes : Bytes) : Spells (encode bytes).toList bytes := by
  have table : ∀ n < 16, Digit (Quoted.hexDigit n) n := by decide
  rw [encode, String.toList_ofList]
  induction bytes with
  | nil => exact .nil
  | cons b rest ih =>
    have bound := b.toNat_lt
    have whole : (16 * (b.toNat / 16) + b.toNat % 16).toUInt8 = b := by
      rw [Nat.div_add_mod, Nat.toUInt8, UInt8.ofNat_toNat]
    have spells := Spells.cons (table (b.toNat / 16) (by omega)) (table (b.toNat % 16) (by omega)) ih
    rwa [whole] at spells

theorem decode_encode (bytes : Bytes) : decode (encode bytes) = .ok bytes := decode_eq_ok_iff.mpr (spells_encode bytes)

end DeviceBus.Hex
