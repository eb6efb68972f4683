import DeviceBus.Proofs.Aes.Permutation
import DeviceBus.Proofs.Payload.Acceptance

/-! Payloads written again. Decryption accepts any amount of padding, encryption adds the least. What has been decrypted
can therefore be encrypted again, to the payload that it came from if its padding filled up one block only,
and otherwise to a first part of it. -/
namespace DeviceBus.CipherContext

section Padding

variable {plaintext data : Bytes} {count : Nat}

def trailingPadding (data : Bytes) : Nat := (data.reverse.takeWhile (· == padding)).length

private theorem trailingPadding_append (kept : plaintext.getLast? ≠ some padding) (count : Nat) :
    trailingPadding (plaintext ++ List.replicate count padding) = count := by
  have stops : plaintext.reverse.takeWhile (· == padding) = [] := by
    rw [List.getLast?_eq_head?_reverse] at kept
    cases reversed : plaintext.reverse with
    | nil => rfl
    | cons last rest =>
      rw [reversed] at kept
      have other : (last == padding) = false := by simpa using kept
      rw [List.takeWhile_cons, other]
      rfl
  have pads : ∀ b ∈ List.replicate count padding, (b == padding) = true := fun b member => by
    simp [List.eq_of_mem_replicate member]
  rw [trailingPadding, List.reverse_append, List.reverse_replicate, List.takeWhile_append_of_pos pads, stops,
    List.append_nil, List.length_replicate]

private theorem length_append_padding (whole : 16 ∣ plaintext.length + count) :
    (plaintext ++ List.replicate count padding).length % 16 = 0 := by
  rw [List.length_append, List.length_replicate]
  exact Nat.mod_eq_zero_of_dvd whole

private theorem replicate_prefix {fewer : Nat} (less : fewer ≤ count) :
    List.replicate fewer padding <+: List.replicate count padding :=
  List.prefix_replicate_iff.mpr ⟨by rwa [List.length_replicate], by rw [List.length_replicate]⟩

private theorem addPadding_isPrefix (some : 1 ≤ count) (whole : 16 ∣ plaintext.length + count) :
    addPadding plaintext <+: plaintext ++ List.replicate count padding := by
  rw [addPadding, List.prefix_append_right_inj]
  apply replicate_prefix
  simp only [blockSize]
  omega

theorem addPadding_eq_iff (some : 1 ≤ count) (whole : 16 ∣ plaintext.length + count) :
    addPadding plaintext = plaintext ++ List.replicate count padding ↔ count ≤ 16 := by
  rw [addPadding, List.append_cancel_left_eq, List.replicate_inj]
  simp only [blockSize, or_true, and_true]
  omega

end Padding

section Chain

variable (context : CipherContext) {data more : Bytes}

theorem encryptBytes_decryptBytes (whole : data.length % 16 = 0) :
    context.encryptBytes (context.decryptBytes data) = data := by
  rw [encryptBytes, decryptBytes, Aes.Block.ofBytes_flatMap, Aes.encryptChain_decryptChain,
    Aes.Block.flatMap_ofBytes data whole]

private theorem encryptBytes_prefix (whole : data.length % 16 = 0) (first : data <+: more) :
    context.encryptBytes data <+: context.encryptBytes more := by
  obtain ⟨later, rfl⟩ := first
  have blocks : Aes.Block.ofBytes data <+: Aes.Block.ofBytes (data ++ later) := by
    rw [Aes.Block.ofBytes_append whole]
    exact List.prefix_append _ _
  exact (Aes.encryptChain_prefix context.keys context.iv blocks).flatMap _

theorem encryptBytes_inj (one : data.length % 16 = 0) (other : more.length % 16 = 0) :
    context.encryptBytes data = context.encryptBytes more ↔ data = more := by
  constructor
  · intro same
    rw [← decryptBytes_encryptBytes context one, same, decryptBytes_encryptBytes context other]
  · rintro rfl
    rfl

end Chain

section Payloads

variable (context : CipherContext) {payload : String} {plaintext data more : Bytes}

theorem eq_payloadOf_iff : payload = payloadOf data ↔ Utf8.ofString payload = Base64.encode data := by
  rw [← ofString_payloadOf]
  constructor
  · rintro rfl
    rfl
  · intro same
    exact String.toList_inj.mp (Utf8.encode_injective same)

theorem decode_payloadOf_iff : Base64.decode (Utf8.ofString payload) = .ok data ↔ payload = payloadOf data :=
  (Base64.decode_eq_ok_iff _ _).trans eq_payloadOf_iff.symm

theorem payloadOf_inj : payloadOf data = payloadOf more ↔ data = more := by
  rw [← decode_payloadOf_iff, ofString_payloadOf, Base64.decode_encode]
  exact ⟨Except.ok.inj, congrArg _⟩

private theorem exists_padding_of_decrypt (decrypted : context.decrypt payload = .ok plaintext) :
    ∃ data count, payload = payloadOf data ∧ data.length % 16 = 0 ∧
      context.decryptBytes data = plaintext ++ List.replicate count padding ∧ 1 ≤ count ∧
      16 ∣ plaintext.length + count ∧ plaintext.getLast? ≠ some padding := by
  obtain ⟨data, carries, padded, stripped⟩ := (decrypt_eq_ok_iff context payload plaintext).mp decrypted
  obtain ⟨front, count, split, kept⟩ := exists_append_padding (context.decryptBytes data)
  have same : plaintext = front := by
    rw [stripped.eq_stripPadding, split, stripPadding_append_replicate, stripPadding_eq_self kept]
  subst same
  have length := length_decryptBytes context carries.whole
  rw [split, List.length_append, List.length_replicate] at length
  refine ⟨data, count, eq_payloadOf_iff.mpr carries.spelled, Nat.mod_eq_zero_of_dvd carries.whole, split, ?_,
    length ▸ carries.whole, kept⟩
  by_contra none
  rw [split, Nat.lt_one_iff.mp (Nat.lt_of_not_le none), List.replicate_zero, List.append_nil] at padded
  exact kept padded

private theorem decrypt_padded {count : Nat} (kept : plaintext.getLast? ≠ some padding) (some : 1 ≤ count)
    (whole : 16 ∣ plaintext.length + count) :
    context.decrypt (payloadOf (context.encryptBytes (plaintext ++ List.replicate count padding))) = .ok plaintext := by
  have blocks := length_append_padding whole
  have length := length_encryptBytes context blocks
  have back := decryptBytes_encryptBytes context blocks
  have last : (plaintext ++ List.replicate count padding).getLast? = .some padding := by
    rw [List.getLast?_append, List.getLast?_replicate, if_neg (by omega)]
    rfl
  rw [decrypt_payloadOf context (by rw [length, blocks]) (by simp [length]; omega) (by rw [back, last]), back,
    stripPadding_append_replicate, stripPadding_eq_self kept]

/-- A plaintext that was decrypted is encrypted to a first part of the data that it came from, and to all of it exactly
where no more than a block of padding was there. The other way round, however many bytes of padding fill up the
blocks behind a plaintext, the payload of their encryption decrypts to the plaintext. -/
theorem reencryption (context : CipherContext) :
    (∀ payload plaintext, context.decrypt payload = .ok plaintext →
      ∃ again data first, context.encrypt plaintext = .ok again ∧
        Base64.decode (Utf8.ofString payload) = .ok data ∧ Base64.decode (Utf8.ofString again) = .ok first ∧
        first <+: data ∧ context.decrypt again = .ok plaintext ∧
        (again = payload ↔ trailingPadding (context.decryptBytes data) ≤ 16)) ∧
    ∀ (plaintext : Bytes) (count : Nat), plaintext.getLast? ≠ some 0x7B → 1 ≤ count →
      16 ∣ plaintext.length + count →
      let data := context.encryptBytes (plaintext ++ List.replicate count 0x7B)
      (∃ payload, Base64.decode (Utf8.ofString payload) = .ok data) ∧
      ∀ payload, Base64.decode (Utf8.ofString payload) = .ok data → context.decrypt payload = .ok plaintext := by
  constructor
  · intro payload plaintext decrypted
    obtain ⟨data, count, rfl, blocks, split, some, whole, kept⟩ := exists_padding_of_decrypt context decrypted
    have size := length_addPadding plaintext
    have least : (addPadding plaintext).length % 16 = 0 := by omega
    have source : data = context.encryptBytes (plaintext ++ List.replicate count padding) := by
      rw [← split, encryptBytes_decryptBytes context blocks]
    refine ⟨_, data, _, encrypt_of_kept context kept, decode_payloadOf_iff.mpr rfl, decode_payloadOf_iff.mpr rfl, ?_,
      decrypt_encryptBytes context kept, ?_⟩
    · rw [source]
      exact encryptBytes_prefix context least (addPadding_isPrefix some whole)
    · rw [payloadOf_inj, split, trailingPadding_append kept, source,
        encryptBytes_inj context least (length_append_padding whole), addPadding_eq_iff some whole]
  · intro plaintext count kept some whole data
    refine ⟨⟨payloadOf data, decode_payloadOf_iff.mpr rfl⟩, fun payload spelled => ?_⟩
    rw [decode_payloadOf_iff.mp spelled]
    exact decrypt_padded context kept some whole

theorem reencryption_of_two_blocks :
    let context : CipherContext := ⟨.bits128, Aes.roundKeys .bits128 (List.replicate 16 0), .zero⟩
    let payload := "uJlvRO47jbJKebX634lO+Nhio7IHU8Wa/tA3D9fMqkw="
    context.decrypt payload = .ok [0x31] ∧
      ∃ again, context.encrypt [0x31] = .ok again ∧ again ≠ payload ∧ context.decrypt again = .ok [0x31] := by
  intro context payload
  obtain ⟨forward, backward⟩ := reencryption context
  have spelled : Base64.decode (Utf8.ofString payload) =
      .ok (context.encryptBytes ([0x31] ++ List.replicate 31 0x7B)) := by decide +kernel
  have decrypted : context.decrypt payload = .ok [0x31] :=
    (backward [0x31] 31 (by decide) (by decide) (by decide)).2 payload spelled
  obtain ⟨again, data, first, encrypted, carried, -, -, back, same⟩ := forward payload [0x31] decrypted
  refine ⟨decrypted, again, encrypted, fun equal => ?_, back⟩
  have few := same.mp equal
  rw [carried] at spelled
  rw [Except.ok.inj spelled, decryptBytes_encryptBytes context (by decide)] at few
  exact absurd few (by decide)

end Payloads

end DeviceBus.CipherContext
