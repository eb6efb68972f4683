import DeviceBus.Decimal.Integer

/-! The digits of a number denote it, and no zero leads them unless it stands alone. What is read as a number is a row of digits,
with a sign at most in front of it. -/
namespace DeviceBus.Decimal

private theorem isDigit_digitChar (n : Nat) : (digitChar n).isDigit = true := by
  have table : ∀ k < 10, (Char.ofNat (0x30 + k)).isDigit = true := by decide
  exact table (n % 10) (Nat.mod_lt n (by decide))

private theorem digitValue_digitChar (n : Nat) : digitValue (digitChar n) = n % 10 := by
  have table : ∀ k < 10, digitValue (Char.ofNat (0x30 + k)) = k := by decide
  exact table (n % 10) (Nat.mod_lt n (by decide))

theorem isDigit_of_mem_digits {n : Nat} {c : Char} (member : c ∈ digits n) : c.isDigit = true := by
  fun_induction digits n with
  | case1 n small =>
    rw [List.mem_singleton.mp member]
    exact isDigit_digitChar n
  | case2 n large ih =>
    rcases List.mem_append.mp member with early | last
    · exact ih early
    · rw [List.mem_singleton.mp last]
      exact isDigit_digitChar (n % 10)

theorem digits_ne_nil (n : Nat) : digits n ≠ [] := by
  rw [digits]
  split
  · exact List.cons_ne_nil _ _
  · exact List.append_ne_nil_of_right_ne_nil _ (List.cons_ne_nil _ _)

private theorem value_append_singleton (text : List Char) (c : Char) :
    value (text ++ [c]) = 10 * value text + digitValue c := by
  rw [value, List.foldl_append]
  rfl

theorem value_digits (n : Nat) : value (digits n) = n := by
  fun_induction digits n with
  | case1 n small =>
    have digit := digitValue_digitChar n
    rw [Nat.mod_eq_of_lt small] at digit
    rw [value, List.foldl_cons, List.foldl_nil, digit]
    omega
  | case2 n large ih =>
    rw [value_append_singleton, ih, digitValue_digitChar]
    omega

private theorem head?_digits_ne_zero {n : Nat} (positive : n ≠ 0) : (digits n).head? ≠ some '0' := by
  fun_induction digits n with
  | case1 n small =>
    have table : ∀ k < 10, k ≠ 0 → (digitChar k) ≠ '0' := by decide
    intro zero
    exact table n small positive (Option.some.inj zero)
  | case2 n large ih =>
    obtain ⟨first, more, shape⟩ := List.exists_cons_of_ne_nil (digits_ne_nil (n / 10))
    rw [shape] at ih ⊢
    exact ih (by omega)

theorem digits_lead_zero {n : Nat} {more : List Char} (zero : digits n = '0' :: more) : more = [] := by
  by_cases positive : n = 0
  · rw [positive, digits, if_pos (by decide)] at zero
    exact (List.cons.inj zero).2.symm
  · have head := head?_digits_ne_zero positive
    rw [zero] at head
    exact absurd rfl head

section Printing

private theorem digitChar_eq {n : Nat} (small : n < 10) : digitChar n = n.digitChar := by
  have table : ∀ k < 10, digitChar k = k.digitChar := by decide
  exact table n small

theorem digits_eq_toDigits (n : Nat) : digits n = Nat.toDigits 10 n := by
  fun_induction digits n with
  | case1 n small => rw [Nat.toDigits_of_lt_base small, digitChar_eq small]
  | case2 n large ih =>
    have last : digitChar (n % 10) = (n % 10).digitChar := digitChar_eq (Nat.mod_lt n (by decide))
    rw [Nat.toDigits_of_base_le (by decide) (Nat.not_lt.mp large), ih, last]

theorem intText_eq_toString (n : Int) : intText n = toString n := by
  rw [Int.toString_eq_repr]
  cases n with
  | ofNat m =>
    have natural : ¬ (Int.ofNat m : Int) < 0 := Int.not_lt.mpr (Int.natCast_nonneg m)
    rw [intText, if_neg natural, Int.repr, Nat.repr_eq_ofList_toDigits, digits_eq_toDigits]
    rfl
  | negSucc m =>
    rw [intText, if_pos (Int.negSucc_lt_zero m), Int.repr, Nat.repr_eq_ofList_toDigits, digits_eq_toDigits,
      ← String.toList_inj]
    simp

end Printing

section Reading

theorem span_digits {ds rest : List Char} (digits : ∀ c ∈ ds, c.isDigit = true)
    (ended : ∀ c ∈ rest.head?, c.isDigit = false) :
    (ds ++ rest).takeWhile Char.isDigit = ds ∧ (ds ++ rest).dropWhile Char.isDigit = rest := by
  have none : rest.takeWhile Char.isDigit = [] ∧ rest.dropWhile Char.isDigit = rest := by
    cases rest with
    | nil => exact ⟨rfl, rfl⟩
    | cons c rest =>
      have other := ended c rfl
      simp only [List.takeWhile_cons, List.dropWhile_cons, other, Bool.false_eq_true, if_false, and_self]
  rw [List.takeWhile_append_of_pos digits, List.dropWhile_append_of_pos digits, none.1, none.2, List.append_nil]
  exact ⟨rfl, rfl⟩

variable {text : List Char} {n : Nat}

theorem readDigits?_eq_some_iff :
    readDigits? text = some n ↔ text ≠ [] ∧ (∀ c ∈ text, c.isDigit = true) ∧ value text = n := by
  rw [readDigits?]
  split
  · next refused =>
    simp only [Bool.or_eq_true, List.isEmpty_iff, Bool.not_eq_true', List.all_eq_false] at refused
    refine ⟨nofun, ?_⟩
    rintro ⟨nonempty, digits, -⟩
    rcases refused with empty | ⟨c, member, other⟩
    · exact absurd empty nonempty
    · exact absurd (digits c member) other
  · next accepted =>
    simp only [Bool.or_eq_true, List.isEmpty_iff, Bool.not_eq_true', not_or, Bool.not_eq_false, List.all_eq_true] at accepted
    rw [Option.some_inj]
    exact ⟨fun same => ⟨accepted.1, accepted.2, same⟩, fun ⟨_, _, same⟩ => same⟩

theorem readNat?_eq_some_iff {bound : Nat} : readNat? bound text = some n ↔
    ∃ sign ds, text = sign ++ ds ∧ (sign = [] ∨ sign = ['+']) ∧ readDigits? ds = some n ∧ n < bound := by
  unfold readNat?
  rw [Option.filter_eq_some_iff, decide_eq_true_eq]
  constructor
  · rintro ⟨read, small⟩
    split at read
    · next rest => exact ⟨['+'], rest, rfl, .inr rfl, read, small⟩
    · exact ⟨[], text, rfl, .inl rfl, read, small⟩
  · rintro ⟨sign, ds, rfl, rfl | rfl, read, small⟩
    · refine ⟨?_, small⟩
      rw [List.nil_append]
      split
      · exact absurd ((readDigits?_eq_some_iff.mp read).2.1 '+' List.mem_cons_self) (by decide)
      · exact read
    · exact ⟨read, small⟩

end Reading

end DeviceBus.Decimal
