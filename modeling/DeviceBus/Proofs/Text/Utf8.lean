import DeviceBus.Text.Utf8

/-! UTF-8 is read back: the sequence of every character is scanned as that character, so that decoding what
encoding writes gives the text again. -/
namespace DeviceBus.Utf8

private theorem toNat_toUInt8 {m : Nat} (bound : m < 256) : m.toUInt8.toNat = m := by
  rw [Nat.toUInt8, UInt8.toNat_ofNat', Nat.mod_eq_of_lt bound]

private theorem ofByte?_toUInt8 {m : Nat} (bound : m < 256) :
    Lead.ofByte? m.toUInt8 =
      if m < 0xC2 then none
      else if m ≤ 0xDF then some ⟨1, 0x80, 0xBF⟩
      else if m = 0xE0 then some ⟨2, 0xA0, 0xBF⟩
      else if m = 0xED then some ⟨2, 0x80, 0x9F⟩
      else if m ≤ 0xEF then some ⟨2, 0x80, 0xBF⟩
      else if m = 0xF0 then some ⟨3, 0x90, 0xBF⟩
      else if m ≤ 0xF3 then some ⟨3, 0x80, 0xBF⟩
      else if m = 0xF4 then some ⟨3, 0x80, 0x8F⟩
      else none := by
  simp only [Lead.ofByte?, UInt8.lt_iff_toNat_lt, UInt8.le_iff_toNat_le, ← UInt8.toNat_inj,
    toNat_toUInt8 bound, UInt8.reduceToNat]

/-- The byte `m` announces so many more bytes, and `k` may be the first of them. -/
def Admits (more m k : Nat) : Prop :=
  ∃ lead, Lead.ofByte? m.toUInt8 = some lead ∧ lead.more = more ∧
    lead.low.toNat ≤ k ∧ k ≤ lead.high.toNat

section Leads

variable {m k : Nat}

private theorem admits_two (low : 0xC2 ≤ m) (high : m ≤ 0xDF) (next : 0x80 ≤ k ∧ k ≤ 0xBF) : Admits 1 m k := by
  have lead := ofByte?_toUInt8 (by omega : m < 256)
  rw [if_neg (by omega), if_pos high] at lead
  exact ⟨_, lead, rfl, next⟩

private theorem admits_three (low : 0xE0 ≤ m) (high : m ≤ 0xEF) (next : 0x80 ≤ k ∧ k ≤ 0xBF)
    (short : m = 0xE0 → 0xA0 ≤ k) (surrogate : m = 0xED → k ≤ 0x9F) : Admits 2 m k := by
  have lead := ofByte?_toUInt8 (by omega : m < 256)
  rw [if_neg (by omega), if_neg (by omega)] at lead
  by_cases first : m = 0xE0
  · rw [if_pos first] at lead
    exact ⟨_, lead, rfl, short first, next.2⟩
  by_cases second : m = 0xED
  · rw [if_neg first, if_pos second] at lead
    exact ⟨_, lead, rfl, next.1, surrogate second⟩
  · rw [if_neg first, if_neg second, if_pos high] at lead
    exact ⟨_, lead, rfl, next⟩

private theorem admits_four (low : 0xF0 ≤ m) (high : m ≤ 0xF4) (next : 0x80 ≤ k ∧ k ≤ 0xBF)
    (short : m = 0xF0 → 0x90 ≤ k) (last : m = 0xF4 → k ≤ 0x8F) : Admits 3 m k := by
  have lead := ofByte?_toUInt8 (by omega : m < 256)
  rw [if_neg (by omega), if_neg (by omega), if_neg (by omega), if_neg (by omega), if_neg (by omega)] at lead
  by_cases first : m = 0xF0
  · rw [if_pos first] at lead
    exact ⟨_, lead, rfl, short first, next.2⟩
  by_cases inside : m ≤ 0xF3
  · rw [if_neg first, if_pos inside] at lead
    exact ⟨_, lead, rfl, next⟩
  · have top : m = 0xF4 := by omega
    rw [if_neg first, if_neg inside, if_pos top] at lead
    exact ⟨_, lead, rfl, next.1, last top⟩

end Leads

section Scanning

variable {m k j i : Nat} (rest : Bytes)

private theorem scan_one (bound : m < 0x80) : scan m.toUInt8 rest = .char (Char.ofNat m) 0 := by
  have hm := toNat_toUInt8 (by omega : m < 256)
  rw [scan, if_pos, hm]
  rw [UInt8.lt_iff_toNat_lt, hm]
  exact bound

private theorem scan_lead {more : Nat} (bound : 0x80 ≤ m) (admits : Admits more m k) (bm : m < 256) (bk : k < 256) :
    scan m.toUInt8 (k.toUInt8 :: rest) =
      if more = 1 then .char (Char.ofNat (m % 0x20 * 0x40 + k % 0x40)) 1
      else match rest with
        | [] => .cut
        | c :: rest =>
          if !isContinuation c then .broken 2
          else if more = 2 then
            .char (Char.ofNat (m % 0x10 * 0x1000 + k % 0x40 * 0x40 + c.toNat % 0x40)) 2
          else match rest with
            | [] => .cut
            | d :: _ =>
              if !isContinuation d then .broken 3
              else .char (Char.ofNat (m % 0x08 * 0x40000 + k % 0x40 * 0x1000 +
                c.toNat % 0x40 * 0x40 + d.toNat % 0x40)) 3 := by
  obtain ⟨lead, found, rfl, low, high⟩ := admits
  have hm := toNat_toUInt8 bm
  have hk := toNat_toUInt8 bk
  have multi : ¬m.toUInt8 < 0x80 := by
    rw [UInt8.lt_iff_toNat_lt, hm]
    exact Nat.not_lt.mpr bound
  have inside : (k.toUInt8 < lead.low || lead.high < k.toUInt8) = false := by
    simp only [UInt8.lt_iff_toNat_lt, hk, Bool.or_eq_false_iff, decide_eq_false_iff_not]
    omega
  rw [scan, if_neg multi]
  simp only [found, inside, hm, hk, Bool.false_eq_true, if_false]
  rfl

private theorem isContinuation_toUInt8 (low : 0x80 ≤ k) (high : k ≤ 0xBF) : isContinuation k.toUInt8 = true := by
  simp only [isContinuation, UInt8.le_iff_toNat_le, toNat_toUInt8 (by omega : k < 256), UInt8.reduceToNat,
    Bool.and_eq_true, decide_eq_true_eq]
  exact ⟨low, high⟩

end Scanning

private theorem scan_encodeChar (c : Char) (rest : Bytes) :
    ∃ first more, encodeChar c = first :: more ∧ scan first (more ++ rest) = .char c more.length := by
  have valid : c.toNat < 0xD800 ∨ 0xDFFF < c.toNat ∧ c.toNat < 0x110000 := c.valid
  have whole := Char.ofNat_toNat c
  unfold encodeChar
  generalize c.toNat = n at valid whole
  subst whole
  simp only
  split
  · exact ⟨_, [], rfl, scan_one rest (by assumption)⟩
  split
  · refine ⟨_, [_], rfl, ?_⟩
    rw [List.singleton_append, scan_lead rest (by omega)
      (admits_two (by omega) (by omega) (by omega)) (by omega) (by omega), if_pos rfl]
    congr 2
    omega
  split
  · refine ⟨_, [_, _], rfl, ?_⟩
    rw [List.cons_append, List.singleton_append, scan_lead _ (by omega)
      (admits_three (by omega) (by omega) (by omega) (by omega) (by omega)) (by omega) (by omega)]
    simp only [isContinuation_toUInt8 (by omega : 0x80 ≤ 0x80 + n % 0x40) (by omega),
      toNat_toUInt8 (by omega : 0x80 + n % 0x40 < 256), Bool.not_true, Bool.false_eq_true, if_false,
      reduceIte, Nat.reduceEqDiff]
    congr 2
    omega
  · refine ⟨_, [_, _, _], rfl, ?_⟩
    rw [List.cons_append, List.cons_append, List.singleton_append, scan_lead _ (by omega)
      (admits_four (by omega) (by omega) (by omega) (by omega) (by omega)) (by omega) (by omega)]
    simp only [isContinuation_toUInt8 (by omega : 0x80 ≤ 0x80 + n % 0x40) (by omega),
      isContinuation_toUInt8 (by omega : 0x80 ≤ 0x80 + n / 0x40 % 0x40) (by omega),
      toNat_toUInt8 (by omega : 0x80 + n % 0x40 < 256), toNat_toUInt8 (by omega : 0x80 + n / 0x40 % 0x40 < 256),
      Bool.not_true, Bool.false_eq_true, if_false, Nat.reduceEqDiff]
    congr 2
    omega

theorem decodeFrom_encode (index : Nat) (text : List Char) : decodeFrom index (encode text) = .ok text := by
  induction text generalizing index with
  | nil =>
    rw [encode, List.flatMap_nil, decodeFrom]
  | cons c rest ih =>
    obtain ⟨first, more, written, scanned⟩ := scan_encodeChar c (encode rest)
    have split : encode (c :: rest) = first :: (more ++ encode rest) := by
      rw [encode, List.flatMap_cons, written]
      rfl
    rw [split, decodeFrom, scanned]
    simp only [List.drop_left, ih]
    rfl

theorem decode_encode (text : List Char) : decode (encode text) = .ok text := decodeFrom_encode 0 text

theorem decode_ofString (text : String) : decode (ofString text) = .ok text.toList := decode_encode _

theorem encode_injective {one other : List Char} (same : encode one = encode other) : one = other := by
  have back := decode_encode one
  rw [same, decode_encode] at back
  exact (Except.ok.inj back).symm

theorem mem_encodeChar {c : Char} {b : UInt8} (member : b ∈ encodeChar c) : b.toNat = c.toNat ∨ 0x80 ≤ b.toNat := by
  have valid : c.toNat < 0xD800 ∨ 0xDFFF < c.toNat ∧ c.toNat < 0x110000 := c.valid
  have above : ∀ m : Nat, 0x80 ≤ m → m < 256 → 0x80 ≤ m.toUInt8.toNat := by
    intro m low high
    rwa [toNat_toUInt8 high]
  unfold encodeChar at member
  simp only at member
  split at member
  · rw [List.mem_singleton.mp member]
    exact .inl (toNat_toUInt8 (by omega))
  right
  split at member
  · simp only [List.mem_cons, List.not_mem_nil, or_false] at member
    rcases member with rfl | rfl <;> exact above _ (by omega) (by omega)
  split at member
  · simp only [List.mem_cons, List.not_mem_nil, or_false] at member
    rcases member with rfl | rfl | rfl <;> exact above _ (by omega) (by omega)
  · simp only [List.mem_cons, List.not_mem_nil, or_false] at member
    rcases member with rfl | rfl | rfl | rfl <;> exact above _ (by omega) (by omega)

theorem encode_ascii (bytes : Bytes) (ascii : ∀ b ∈ bytes, b < 0x80) :
    encode (bytes.map fun b => Char.ofNat b.toNat) = bytes := by
  induction bytes with
  | nil => rfl
  | cons b rest ih =>
    have small : b.toNat < 0x80 := by
      have head := ascii b List.mem_cons_self
      rwa [UInt8.lt_iff_toNat_lt] at head
    have table : ∀ n < 0x80, (Char.ofNat n).toNat = n := by decide +kernel
    have head : encodeChar (Char.ofNat b.toNat) = [b] := by
      simp only [encodeChar, table _ small, if_pos small]
      simp
    have tail := ih fun x member => ascii x (List.mem_cons_of_mem _ member)
    rw [List.map_cons, encode, List.flatMap_cons, head, List.singleton_append]
    exact congrArg _ tail

end DeviceBus.Utf8
