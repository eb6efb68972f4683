import DeviceBus.Bytes.Base64

/-! Base64 is read back: decoding what encoding writes gives the bytes again. -/
namespace DeviceBus.Base64

private theorem value?_symbol {n : Nat} (bound : n < 64) : value? (symbol n) = some n := by
  have table : ∀ n < 64, value? (symbol n) = some n := by decide +kernel
  exact table n bound

private theorem symbol_ne_pad {n : Nat} (bound : n < 64) : symbol n ≠ pad := by
  have table : ∀ n < 64, symbol n ≠ pad := by decide +kernel
  exact table n bound

private theorem symbolAt_symbol {n : Nat} (offset : Nat) (bound : n < 64) :
    symbolAt offset (symbol n) = .ok n := by
  rw [symbolAt, value?_symbol bound]

section Groups

variable (a b c : UInt8)

private theorem joinQuad_three : joinQuad (a.toNat / 4) (a.toNat % 4 * 16 + b.toNat / 16)
    (b.toNat % 16 * 4 + c.toNat / 64) (c.toNat % 64) = [a, b, c] := by
  have ha := a.toNat_lt
  have hb := b.toNat_lt
  have hc := c.toNat_lt
  have first : 4 * (a.toNat / 4) + (a.toNat % 4 * 16 + b.toNat / 16) / 16 = a.toNat := by omega
  have second : (a.toNat % 4 * 16 + b.toNat / 16) % 16 * 16 + (b.toNat % 16 * 4 + c.toNat / 64) / 4 =
      b.toNat := by omega
  have third : (b.toNat % 16 * 4 + c.toNat / 64) % 4 * 64 + c.toNat % 64 = c.toNat := by omega
  simp only [joinQuad, first, second, third]
  simp

private theorem joinQuad_two : (joinQuad (a.toNat / 4) (a.toNat % 4 * 16 + b.toNat / 16)
    (b.toNat % 16 * 4) 0).take 2 = [a, b] := by
  have full := joinQuad_three a b 0
  simp only [UInt8.toNat_zero, Nat.zero_div, Nat.zero_mod, Nat.add_zero] at full
  rw [full]
  rfl

private theorem joinQuad_one : (joinQuad (a.toNat / 4) (a.toNat % 4 * 16) 0 0).take 1 = [a] := by
  have full := joinQuad_three a 0 0
  simp only [UInt8.toNat_zero, Nat.zero_div, Nat.zero_mod, Nat.add_zero, Nat.zero_mul] at full
  rw [full]
  rfl

end Groups

private theorem readTail_symbol {n : Nat} (start place : Nat) (rest : Bytes) (bound : n < 64) :
    readTail start place none (symbol n :: rest) =
      (readTail start (place + 1) none rest).map fun tail =>
        ⟨(symbol n, n) :: tail.symbols, tail.pads⟩ := by
  rw [readTail, if_neg (symbol_ne_pad bound)]
  simp only [symbolAt_symbol _ bound]
  cases readTail start (place + 1) none rest <;> rfl

private theorem decodeFrom_quad (offset : Nat) (a b c d : UInt8) :
    decodeFrom offset [a, b, c, d] = (readTail offset 0 none [a, b, c, d]).bind (joinTail offset) := rfl

private theorem decodeFrom_symbols {p q r s : Nat} (offset : Nat) {rest : Bytes} (more : rest ≠ [])
    (first : p < 64) (second : q < 64) (third : r < 64) (fourth : s < 64) :
    decodeFrom offset (symbol p :: symbol q :: symbol r :: symbol s :: rest) =
      (decodeFrom (offset + 4) rest).map (joinQuad p q r s ++ ·) := by
  obtain ⟨e, rest, rfl⟩ := List.exists_cons_of_ne_nil more
  simp only [decodeFrom, symbolAt_symbol, first, second, third, fourth]
  cases decodeFrom (offset + 4) (e :: rest) <;> rfl

theorem encode_eq_nil_iff (bytes : Bytes) : encode bytes = [] ↔ bytes = [] := by
  fun_cases encode bytes <;> simp

private theorem length_encode_mod (bytes : Bytes) : (encode bytes).length % 4 = 0 := by
  fun_induction encode bytes with
  | case1 => rfl
  | case2 a => simp
  | case3 a b => simp
  | case4 a b c rest ih =>
    simp only [List.length_cons]
    omega

theorem decodeFrom_encode (offset : Nat) (bytes : Bytes) : decodeFrom offset (encode bytes) = .ok bytes := by
  fun_induction encode bytes generalizing offset with
  | case1 => rfl
  | case2 a =>
    have ha := a.toNat_lt
    rw [decodeFrom_quad, readTail_symbol _ _ _ (by omega), readTail_symbol _ _ _ (by omega)]
    have last : a.toNat % 4 * 16 % 16 = 0 := by omega
    simp [readTail, joinTail, last, joinQuad_one, Except.map, Except.bind, bind, pure, Except.pure]
  | case3 a b =>
    have ha := a.toNat_lt
    have hb := b.toNat_lt
    rw [decodeFrom_quad, readTail_symbol _ _ _ (by omega), readTail_symbol _ _ _ (by omega),
      readTail_symbol _ _ _ (by omega)]
    have last : b.toNat % 16 * 4 % 4 = 0 := by omega
    simp [readTail, joinTail, last, joinQuad_two, Except.map, Except.bind, bind, pure, Except.pure]
  | case4 a b c rest ih =>
    have ha := a.toNat_lt
    have hb := b.toNat_lt
    have hc := c.toNat_lt
    by_cases last : rest = []
    · subst last
      rw [encode, decodeFrom_quad, readTail_symbol _ _ _ (by omega), readTail_symbol _ _ _ (by omega),
        readTail_symbol _ _ _ (by omega), readTail_symbol _ _ _ (by omega)]
      simp [readTail, joinTail, joinQuad_three, Except.map, Except.bind]
    · rw [decodeFrom_symbols offset (mt (encode_eq_nil_iff rest).mp last) (by omega) (by omega)
        (by omega) (by omega), ih, joinQuad_three]
      rfl

theorem decode_encode (bytes : Bytes) : decode (encode bytes) = .ok bytes := by
  have size := length_encode_mod bytes
  have whole : checkLast (encode bytes) = .ok () := by
    unfold checkLast
    split
    · rw [if_neg (by omega)]
    · rfl
  rw [decode, whole]
  exact decodeFrom_encode 0 bytes

theorem encode_ascii (bytes : Bytes) : ∀ b ∈ encode bytes, b < 0x80 := by
  have ascii {n : Nat} (bound : n < 64) : symbol n < 0x80 := by
    have table : ∀ n < 64, symbol n < 0x80 := by decide +kernel
    exact table n bound
  have padding : pad < 0x80 := by decide
  fun_induction encode bytes with
  | case1 => simp
  | case2 a =>
    have ha := a.toNat_lt
    simp only [List.forall_mem_cons]
    exact ⟨ascii (by omega), ascii (by omega), padding, padding, by simp⟩
  | case3 a b =>
    have ha := a.toNat_lt
    have hb := b.toNat_lt
    simp only [List.forall_mem_cons]
    exact ⟨ascii (by omega), ascii (by omega), ascii (by omega), padding, by simp⟩
  | case4 a b c rest ih =>
    have ha := a.toNat_lt
    have hb := b.toNat_lt
    have hc := c.toNat_lt
    simp only [List.forall_mem_cons]
    exact ⟨ascii (by omega), ascii (by omega), ascii (by omega), ascii (by omega), ih⟩

end DeviceBus.Base64
