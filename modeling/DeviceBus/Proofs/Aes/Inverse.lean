import DeviceBus.Aes.Cipher

/-! Decryption undoes encryption. Each step of a round has its inverse, so the rounds are undone one by one
under any keys, and the chained mode block by block: a block is recovered before the next one needs it. -/
namespace DeviceBus.Aes

section Field

theorem xor_left_comm (a b c : UInt8) : a ^^^ (b ^^^ c) = b ^^^ (a ^^^ c) := by ac_rfl

private theorem xor_cancel_left (a b : UInt8) : a ^^^ (a ^^^ b) = b := by
  rw [← UInt8.xor_assoc, UInt8.xor_self, UInt8.zero_xor]

private theorem xor_cancel_right (a b : UInt8) : (a ^^^ b) ^^^ b = a := by
  rw [UInt8.xor_assoc, UInt8.xor_self, UInt8.xor_zero]

private theorem xor_cancel_pair (a b c : UInt8) : (a ^^^ c) ^^^ (b ^^^ c) = a ^^^ b := by
  rw [UInt8.xor_assoc, xor_left_comm c, UInt8.xor_self, UInt8.xor_zero]

theorem lt_half_iff (b : UInt8) : b < 0x80 ↔ b.toBitVec.msb = false := by
  rw [UInt8.lt_iff_toBitVec_lt, BitVec.msb_eq_false_iff_two_mul_lt, BitVec.lt_def]
  change b.toBitVec.toNat < 128 ↔ _
  omega

private theorem double_xor (a b : UInt8) : double (a ^^^ b) = double a ^^^ double b := by
  simp only [double, lt_half_iff, UInt8.toBitVec_xor, BitVec.msb_xor, UInt8.shiftLeft_xor]
  cases a.toBitVec.msb <;> cases b.toBitVec.msb
  · rfl
  · exact UInt8.xor_assoc ..
  · simp only [Bool.xor_false, reduceCtorEq, if_false, if_true]
    ac_rfl
  · exact (xor_cancel_pair ..).symm

private theorem tables_inverse : (substitutionTable.toList.map fun b => inverseTable.toList[b.toNat]?) =
    (List.range 256).map fun n => some (UInt8.ofNat n) := by
  decide +kernel

private theorem unsubstitute_substitute (b : UInt8) : unsubstitute (substitute b) = b := by
  have entry := congrArg (fun entries => entries[b.toNat]?) tables_inverse
  simp only [List.getElem?_map, List.getElem?_range b.toNat_lt, Option.map_some, UInt8.ofNat_toNat] at entry
  obtain ⟨s, found, back⟩ := Option.map_eq_some_iff.mp entry
  rw [Array.getElem?_toList] at found back
  simp only [unsubstitute, substitute, Array.getD_eq_getD_getElem?, found, Option.getD_some, back]

end Field

namespace Column

private theorem unmix_row (p q r t : UInt8) {mp mq mr mt : UInt8}
    (first : mp = double p ^^^ (double q ^^^ q) ^^^ r ^^^ t)
    (second : mq = double q ^^^ (double r ^^^ r) ^^^ t ^^^ p)
    (third : mr = double r ^^^ (double t ^^^ t) ^^^ p ^^^ q)
    (fourth : mt = double t ^^^ (double p ^^^ p) ^^^ q ^^^ r) :
    double (double (double (mp ^^^ mq ^^^ mr ^^^ mt) ^^^ mp ^^^ mr) ^^^ mp ^^^ mq) ^^^
      mq ^^^ mr ^^^ mt = p := by
  -- as polynomials in the doubling the two matrices are inverse already, so its additivity is all that is needed of the field
  subst first second third fourth
  simp only [double_xor, UInt8.xor_assoc, UInt8.xor_comm, xor_left_comm, UInt8.xor_self,
    xor_cancel_left, UInt8.xor_zero]

private theorem unmix_mix (s : Column) : s.mix.unmix = s := by
  cases s
  simp only [mix, unmix, mk.injEq]
  refine ⟨?_, ?_, ?_, ?_⟩ <;> exact unmix_row _ _ _ _ rfl rfl rfl rfl

private theorem map_unsubstitute (s : Column) : (s.map substitute).map unsubstitute = s := by
  simp [map, unsubstitute_substitute]

theorem add_cancel (s t : Column) : (s.add t).add t = s := by
  simp only [add, xor_cancel_right]

end Column

namespace Block

private theorem unmix_mix (s : Block) : s.mix.unmix = s := by
  simp [mix, unmix, mapColumns, Column.unmix_mix]

private theorem unshift_shift (s : Block) : s.shift.unshift = s := rfl

private theorem unsubstitute_substitute (s : Block) : s.substitute.unsubstitute = s := by
  simp [substitute, unsubstitute, mapColumns, Column.map_unsubstitute]

theorem add_cancel (s t : Block) : (s.add t).add t = s := by
  simp [add, Column.add_cancel]

end Block

theorem unrounds_rounds (keys : List Block) (s : Block) : unrounds keys (rounds keys s) = s := by
  -- the induction follows the keys, whose last one does not mix
  induction keys generalizing s with
  | nil => rfl
  | cons key more ih =>
    cases more with
    | nil =>
      rw [rounds, unrounds, Block.add_cancel, Block.unshift_shift, Block.unsubstitute_substitute]
    | cons next more =>
      rw [rounds, unrounds, ih, Block.add_cancel, Block.unmix_mix, Block.unshift_shift,
        Block.unsubstitute_substitute]

theorem decryptBlock_encryptBlock (keys : List Block) (s : Block) :
    decryptBlock keys (encryptBlock keys s) = s := by
  cases keys with
  | nil => rfl
  | cons key more => rw [encryptBlock, decryptBlock, unrounds_rounds, Block.add_cancel]

theorem decryptChain_encryptChain (keys : List Block) (previous : Block) (blocks : List Block) :
    decryptChain keys previous (encryptChain keys previous blocks) = blocks := by
  induction blocks generalizing previous with
  | nil => rfl
  | cons s rest ih =>
    rw [encryptChain, decryptChain, decryptBlock_encryptBlock, Block.add_cancel, ih]

theorem length_encryptChain (keys : List Block) (previous : Block) (blocks : List Block) :
    (encryptChain keys previous blocks).length = blocks.length := by
  induction blocks generalizing previous with
  | nil => rfl
  | cons s rest ih => rw [encryptChain, List.length_cons, ih, List.length_cons]

theorem length_decryptChain (keys : List Block) (previous : Block) (blocks : List Block) :
    (decryptChain keys previous blocks).length = blocks.length := by
  induction blocks generalizing previous with
  | nil => rfl
  | cons c rest ih => rw [decryptChain, List.length_cons, ih, List.length_cons]

end DeviceBus.Aes
