import DeviceBus.Outcome
import DeviceBus.Proofs.Bytes.Base64

/-! Base64 gives every byte string one spelling: what can be decoded at all is what encoding writes. Quads of four
symbols have no other spelling. The last quad has none because its padding has to fill it up, and because
the bits of its last symbol that no byte uses have to be zero. -/
namespace DeviceBus.Base64

private theorem symbol_of_value? {b : UInt8} {n : Nat} (valued : value? b = some n) : n < 64 ∧ symbol n = b := by
  have table : ∀ k < 256, ∀ n ∈ value? (UInt8.ofNat k), n < 64 ∧ symbol n = UInt8.ofNat k := by decide +kernel
  have entry := table b.toNat b.toNat_lt n
  rw [UInt8.ofNat_toNat] at entry
  exact entry valued

private theorem value?_of_symbolAt {offset : Nat} {b : UInt8} {n : Nat} (found : symbolAt offset b = .ok n) :
    value? b = some n := by
  unfold symbolAt at found
  split at found
  · next valued =>
    cases found
    exact valued
  · cases found

section Groups

variable {p q r s : Nat}

private theorem encode_joinQuad (first : p < 64) (second : q < 64) (third : r < 64) (fourth : s < 64) (rest : Bytes) :
    encode (joinQuad p q r s ++ rest) = symbol p :: symbol q :: symbol r :: symbol s :: encode rest := by
  have a : (4 * p + q / 16).toUInt8.toNat = 4 * p + q / 16 := by simp; omega
  have b : (q % 16 * 16 + r / 4).toUInt8.toNat = q % 16 * 16 + r / 4 := by simp; omega
  have c : (r % 4 * 64 + s).toUInt8.toNat = r % 4 * 64 + s := by simp; omega
  have atP : (4 * p + q / 16) / 4 = p := by omega
  have atQ : (4 * p + q / 16) % 4 * 16 + (q % 16 * 16 + r / 4) / 16 = q := by omega
  have atR : (q % 16 * 16 + r / 4) % 16 * 4 + (r % 4 * 64 + s) / 64 = r := by omega
  have atS : (r % 4 * 64 + s) % 64 = s := by omega
  simp only [joinQuad, List.cons_append, List.nil_append, encode, a, b, c, atP, atQ, atR, atS]

private theorem encode_take_two (first : p < 64) (second : q < 64) (third : r < 64) (unused : r % 4 = 0) :
    encode ((joinQuad p q r 0).take 2) = [symbol p, symbol q, symbol r, pad] := by
  have a : (4 * p + q / 16).toUInt8.toNat = 4 * p + q / 16 := by simp; omega
  have b : (q % 16 * 16 + r / 4).toUInt8.toNat = q % 16 * 16 + r / 4 := by simp; omega
  have atP : (4 * p + q / 16) / 4 = p := by omega
  have atQ : (4 * p + q / 16) % 4 * 16 + (q % 16 * 16 + r / 4) / 16 = q := by omega
  have atR : (q % 16 * 16 + r / 4) % 16 * 4 = r := by omega
  simp only [joinQuad, List.take_succ_cons, List.take_zero, encode, a, b, atP, atQ, atR]

private theorem encode_take_one (first : p < 64) (second : q < 64) (unused : q % 16 = 0) :
    encode ((joinQuad p q 0 0).take 1) = [symbol p, symbol q, pad, pad] := by
  have a : (4 * p + q / 16).toUInt8.toNat = 4 * p + q / 16 := by simp; omega
  have atP : (4 * p + q / 16) / 4 = p := by omega
  have atQ : (4 * p + q / 16) % 4 * 16 = q := by omega
  simp only [joinQuad, List.take_succ_cons, List.take_zero, encode, a, atP, atQ]

end Groups

def Tail.text (tail : Tail) : Bytes := tail.symbols.map Prod.fst ++ List.replicate tail.pads pad

def Tail.Valued (tail : Tail) : Prop := ∀ entry ∈ tail.symbols, value? entry.1 = some entry.2

private theorem readTail_padded {start place : Nat} {offset : Option Nat} {rest : Bytes} {tail : Tail}
    (read : readTail start place offset (pad :: rest) = .ok tail) :
    ∃ first later, readTail start (place + 1) (some first) rest = .ok later ∧
      tail = ⟨later.symbols, later.pads + 1⟩ := by
  unfold readTail at read
  rw [if_pos rfl] at read
  split at read
  · cases read
  · obtain ⟨later, more, same⟩ := except_bind_ok read
    cases same
    exact ⟨_, later, more, rfl⟩

private theorem readTail_valued {start place : Nat} {offset : Option Nat} {b : UInt8} {rest : Bytes} {tail : Tail}
    (other : b ≠ pad) (read : readTail start place offset (b :: rest) = .ok tail) :
    offset = none ∧ ∃ n later, value? b = some n ∧ readTail start (place + 1) none rest = .ok later ∧
      tail = ⟨(b, n) :: later.symbols, later.pads⟩ := by
  unfold readTail at read
  rw [if_neg other] at read
  cases offset with
  | some offset => cases read
  | none =>
    obtain ⟨n, found, read⟩ := except_bind_ok read
    obtain ⟨later, more, same⟩ := except_bind_ok read
    cases same
    exact ⟨rfl, n, later, value?_of_symbolAt found, more, rfl⟩

private theorem text_of_readTail {start place : Nat} {offset : Option Nat} {text : Bytes} {tail : Tail}
    (read : readTail start place offset text = .ok tail) :
    tail.text = text ∧ tail.Valued ∧ (offset ≠ none → tail.symbols = []) := by
  -- once padding has begun no symbol can follow, which the induction needs to know
  induction text generalizing place offset tail with
  | nil =>
    cases read
    exact ⟨rfl, by simp [Tail.Valued], fun _ => rfl⟩
  | cons b rest ih =>
    by_cases padding : b = pad
    · subst padding
      obtain ⟨_, later, more, rfl⟩ := readTail_padded read
      obtain ⟨same, -, alone⟩ := ih more
      have none : later.symbols = [] := alone (Option.some_ne_none _)
      refine ⟨?_, ?_, fun _ => none⟩
      · rw [← same, Tail.text, Tail.text, none, List.replicate_succ]
        rfl
      · simp [Tail.Valued, none]
    · obtain ⟨rfl, n, later, valued, more, rfl⟩ := readTail_valued padding read
      obtain ⟨same, others, -⟩ := ih more
      refine ⟨?_, ?_, fun padded => absurd rfl padded⟩
      · rw [← same]
        rfl
      · simp only [Tail.Valued, List.mem_cons, forall_eq_or_imp]
        exact ⟨valued, others⟩

private theorem encode_of_joinTail {start : Nat} {tail : Tail} {data : Bytes} (joined : joinTail start tail = .ok data)
    (few : tail.text.length ≤ 4) (valued : tail.Valued) : encode data = tail.text := by
  have spelled : ∀ entry ∈ tail.symbols, entry.2 < 64 ∧ symbol entry.2 = entry.1 :=
    fun entry member => symbol_of_value? (valued entry member)
  unfold Tail.text at few ⊢
  unfold joinTail at joined
  split at joined
  case h_1 => cases joined
  case h_2 => cases joined
  case h_3 a p b q symbols =>
    simp only [symbols, List.forall_mem_cons] at spelled
    obtain ⟨⟨first, atA⟩, ⟨second, atB⟩, -⟩ := spelled
    by_cases filled : tail.pads = 2
    · by_cases unused : q % 16 = 0
      · simp only [filled, unused, ne_eq, not_true, if_false, Except.ok.injEq] at joined
        rw [← joined, encode_take_one first second unused, symbols, filled, atA, atB]
        rfl
      · simp [filled, unused] at joined
    · simp [filled] at joined
  case h_4 a p b q c r symbols =>
    simp only [symbols, List.forall_mem_cons] at spelled
    obtain ⟨⟨first, atA⟩, ⟨second, atB⟩, ⟨third, atC⟩, -⟩ := spelled
    by_cases filled : tail.pads = 1
    · by_cases unused : r % 4 = 0
      · simp only [filled, unused, ne_eq, not_true, if_false, Except.ok.injEq] at joined
        rw [← joined, encode_take_two first second third unused, symbols, filled, atA, atB, atC]
        rfl
      · simp [filled, unused] at joined
    · simp [filled] at joined
  case h_5 a p b q c r d s more symbols =>
    cases joined
    have size : tail.symbols.length = more.length + 4 := by simp [symbols]
    simp only [List.length_append, List.length_map, List.length_replicate] at few
    have alone : more = [] := List.eq_nil_of_length_eq_zero (by omega)
    have bare : tail.pads = 0 := by omega
    simp only [symbols, List.forall_mem_cons] at spelled
    obtain ⟨⟨first, atA⟩, ⟨second, atB⟩, ⟨third, atC⟩, ⟨fourth, atD⟩, -⟩ := spelled
    have whole := encode_joinQuad first second third fourth []
    rw [List.append_nil, atA, atB, atC, atD] at whole
    rw [whole, symbols, alone, bare]
    rfl

private theorem decodeFrom_more {offset : Nat} {a b c d e : UInt8} {rest data : Bytes}
    (decoded : decodeFrom offset (a :: b :: c :: d :: e :: rest) = .ok data) :
    ∃ p q r s bytes, (value? a = some p ∧ value? b = some q ∧ value? c = some r ∧ value? d = some s) ∧
      decodeFrom (offset + 4) (e :: rest) = .ok bytes ∧ data = joinQuad p q r s ++ bytes := by
  rw [decodeFrom] at decoded
  obtain ⟨p, first, decoded⟩ := except_bind_ok decoded
  obtain ⟨q, second, decoded⟩ := except_bind_ok decoded
  obtain ⟨r, third, decoded⟩ := except_bind_ok decoded
  obtain ⟨s, fourth, decoded⟩ := except_bind_ok decoded
  obtain ⟨bytes, later, same⟩ := except_bind_ok decoded
  cases same
  refine ⟨p, q, r, s, bytes, ⟨?_, ?_, ?_, ?_⟩, later, rfl⟩
  · exact value?_of_symbolAt first
  · exact value?_of_symbolAt second
  · exact value?_of_symbolAt third
  · exact value?_of_symbolAt fourth

theorem encode_of_decodeFrom {offset : Nat} {text data : Bytes} (decoded : decodeFrom offset text = .ok data) :
    encode data = text := by
  fun_induction decodeFrom offset text generalizing data with
  | case1 =>
    cases decoded
    rfl
  | case2 offset a b c d e rest ih =>
    obtain ⟨p, q, r, s, bytes, ⟨first, second, third, fourth⟩, later, rfl⟩ := decodeFrom_more decoded
    obtain ⟨boundP, atP⟩ := symbol_of_value? first
    obtain ⟨boundQ, atQ⟩ := symbol_of_value? second
    obtain ⟨boundR, atR⟩ := symbol_of_value? third
    obtain ⟨boundS, atS⟩ := symbol_of_value? fourth
    rw [encode_joinQuad boundP boundQ boundR boundS, ih later, atP, atQ, atR, atS]
  | case3 offset quad notNil short =>
    obtain ⟨tail, read, joined⟩ := except_bind_ok decoded
    obtain ⟨same, valued, -⟩ := text_of_readTail read
    have few : quad.length ≤ 4 := by
      rcases quad with _ | ⟨a, _ | ⟨b, _ | ⟨c, _ | ⟨d, _ | ⟨e, rest⟩⟩⟩⟩⟩
      case cons.cons.cons.cons.cons => exact absurd rfl (short a b c d e rest)
      all_goals simp
    rw [← same] at few ⊢
    exact encode_of_joinTail joined few valued

theorem decode_eq_ok_iff (text data : Bytes) : decode text = .ok data ↔ text = encode data := by
  constructor
  · intro decoded
    obtain ⟨-, -, rest⟩ := except_bind_ok decoded
    exact (encode_of_decodeFrom rest).symm
  · rintro rfl
    exact decode_encode data

end DeviceBus.Base64
