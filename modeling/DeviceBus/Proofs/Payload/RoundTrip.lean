import DeviceBus.Payload
import DeviceBus.Proofs.Aes.Blocks
import DeviceBus.Proofs.Aes.Inverse
import DeviceBus.Proofs.Bytes.Base64
import DeviceBus.Proofs.Text.Utf8
import Mathlib.Order.Bounds.Defs

/-! Payloads are read back. A plaintext is padded to whole blocks, encrypted in its chain and written in base64;
each layer is undone in turn, and the bytes that are stripped at the end are those that were added. -/
namespace DeviceBus.CipherContext

section Padding

variable (plaintext : Bytes)

theorem length_addPadding : (addPadding plaintext).length = 16 * (plaintext.length / 16 + 1) := by
  simp only [addPadding, blockSize, List.length_append, List.length_replicate]
  omega

theorem isLeast_length_addPadding :
    IsLeast {n | 16 ∣ n ∧ plaintext.length < n} (addPadding plaintext).length := by
  rw [length_addPadding]
  refine ⟨⟨Nat.dvd_mul_right .., by omega⟩, ?_⟩
  rintro n ⟨⟨k, rfl⟩, longer⟩
  omega

private theorem getLast?_addPadding : (addPadding plaintext).getLast? = some padding := by
  have count : blockSize - plaintext.length % blockSize ≠ 0 := by
    simp only [blockSize]
    omega
  rw [addPadding, List.getLast?_append, List.getLast?_replicate, if_neg count]
  rfl

theorem stripPadding_append_replicate (count : Nat) :
    stripPadding (plaintext ++ List.replicate count padding) = stripPadding plaintext := by
  simp only [stripPadding, List.reverse_append, List.reverse_replicate]
  congr 1
  exact List.dropWhile_append_of_pos fun b member => by simp [List.eq_of_mem_replicate member]

theorem stripPadding_eq_self {plaintext : Bytes} (kept : plaintext.getLast? ≠ some padding) :
    stripPadding plaintext = plaintext := by
  have stops : plaintext.reverse.dropWhile (· == padding) = plaintext.reverse := by
    rw [List.getLast?_eq_head?_reverse] at kept
    cases reversed : plaintext.reverse with
    | nil => rfl
    | cons last rest =>
      rw [reversed] at kept
      have other : (last == padding) = false := by simpa using kept
      rw [List.dropWhile_cons, other]
      rfl
  rw [stripPadding, stops, List.reverse_reverse]

theorem stripPadding_addPadding {plaintext : Bytes} (kept : plaintext.getLast? ≠ some padding) :
    stripPadding (addPadding plaintext) = plaintext := by
  rw [addPadding, stripPadding_append_replicate, stripPadding_eq_self kept]

end Padding

section Chain

variable (context : CipherContext) {data : Bytes}

theorem decryptBytes_encryptBytes (whole : data.length % 16 = 0) :
    context.decryptBytes (context.encryptBytes data) = data := by
  rw [decryptBytes, encryptBytes, Aes.Block.ofBytes_flatMap, Aes.decryptChain_encryptChain,
    Aes.Block.flatMap_ofBytes data whole]

theorem length_encryptBytes (whole : data.length % 16 = 0) :
    (context.encryptBytes data).length = data.length := by
  rw [encryptBytes, Aes.Block.length_flatMap_toBytes, Aes.length_encryptChain,
    ← Aes.Block.length_flatMap_toBytes, Aes.Block.flatMap_ofBytes data whole]

end Chain

theorem ofString_payloadOf (data : Bytes) : Utf8.ofString (payloadOf data) = Base64.encode data := by
  rw [payloadOf, Utf8.ofString, String.toList_ofList]
  exact Utf8.encode_ascii _ (Base64.encode_ascii data)

theorem encrypt_of_kept (context : CipherContext) {plaintext : Bytes}
    (kept : plaintext.getLast? ≠ some padding) :
    context.encrypt plaintext = .ok (payloadOf (context.encryptBytes (addPadding plaintext))) := by
  rw [encrypt, if_neg kept]

theorem decrypt_payloadOf (context : CipherContext) {data : Bytes} (whole : data.length % 16 = 0)
    (nonempty : data.length ≠ 0) (padded : (context.decryptBytes data).getLast? = some padding) :
    context.decrypt (payloadOf data) = .ok (stripPadding (context.decryptBytes data)) := by
  have shape : ¬(data.length = 0 ∨ data.length % blockSize ≠ 0) := by
    simp only [blockSize]
    omega
  simp only [decrypt, ofString_payloadOf, Base64.decode_encode]
  change (if data.length = 0 ∨ data.length % blockSize ≠ 0 then _ else _) = _
  rw [if_neg shape, if_pos padded]

theorem decrypt_encryptBytes (context : CipherContext) {plaintext : Bytes}
    (kept : plaintext.getLast? ≠ some padding) :
    context.decrypt (payloadOf (context.encryptBytes (addPadding plaintext))) = .ok plaintext := by
  have size := length_addPadding plaintext
  have whole : (addPadding plaintext).length % 16 = 0 := by omega
  have same := decryptBytes_encryptBytes context whole
  have length := length_encryptBytes context whole
  rw [decrypt_payloadOf context (by omega) (by omega), same, stripPadding_addPadding kept]
  rw [same]
  exact getLast?_addPadding plaintext

theorem encrypt_eq_error_iff (context : CipherContext) (plaintext : Bytes) (flaw : PlaintextFlaw) :
    context.encrypt plaintext = .error flaw ↔ plaintext.getLast? = some padding := by
  by_cases ends : plaintext.getLast? = some padding
  · simp [encrypt, ends]
  · simp [encrypt_of_kept context ends, ends]

theorem ofByteLength?_eq_some_iff (length : Nat) :
    (∃ size, Aes.KeySize.ofByteLength? length = some size) ↔ length = 16 ∨ length = 24 ∨ length = 32 := by
  fun_cases Aes.KeySize.ofByteLength? length <;> simp_all

theorem ofBytes_eq_ok_iff (key iv : Bytes) :
    (∃ context, ofBytes key iv = .ok context) ↔
      (key.length = 16 ∨ key.length = 24 ∨ key.length = 32) ∧ iv.length = 16 := by
  rw [← ofByteLength?_eq_some_iff, ofBytes]
  cases Aes.KeySize.ofByteLength? key.length with
  | none => simp
  | some size => by_cases whole : iv.length = blockSize <;> simp_all [blockSize]

theorem ofBytes_of_misfit {key : Bytes} (iv : Bytes) (other : key.length ∉ [16, 24, 32]) :
    ofBytes key iv = .error (.keyLength key.length) := by
  have unknown : Aes.KeySize.ofByteLength? key.length = none := by
    rw [Option.eq_none_iff_forall_ne_some]
    intro size found
    have known := (ofByteLength?_eq_some_iff key.length).mp ⟨size, found⟩
    exact other (by simpa using known)
  rw [ofBytes, unknown]

theorem ofBytes_of_fit {key iv : Bytes} (fits : key.length ∈ [16, 24, 32]) (other : iv.length ≠ 16) :
    ofBytes key iv = .error (.ivLength iv.length) := by
  obtain ⟨size, found⟩ := (ofByteLength?_eq_some_iff key.length).mpr (by simpa using fits)
  rw [ofBytes, found]
  exact if_pos other

theorem exists_ofBytes {key iv : Bytes} (fits : key.length ∈ [16, 24, 32]) (whole : iv.length = 16) :
    ∃ context, ofBytes key iv = .ok context :=
  (ofBytes_eq_ok_iff key iv).mpr ⟨by simpa using fits, whole⟩

section Keys

variable {context : CipherContext} {key iv : Bytes}

private theorem length_of_ofByteLength? {length : Nat} {size : Aes.KeySize}
    (found : Aes.KeySize.ofByteLength? length = some size) : length = 4 * size.columns := by
  unfold Aes.KeySize.ofByteLength? at found
  split at found <;> cases found <;> rfl

theorem chaining_of_built (built : ofBytes key iv = .ok context) :
    Aes.Chaining.ofBytes? context.size key iv = some ⟨context.keys, context.iv⟩ := by
  unfold ofBytes at built
  split at built
  · cases built
  · next size found =>
    split at built
    · cases built
    · next whole =>
      cases built
      have length := length_of_ofByteLength? found
      exact if_pos ⟨length, Classical.not_not.mp whole⟩

private theorem encrypt?_of_whole (context : CipherContext) {data : Bytes} (whole : data.length % 16 = 0) :
    Aes.Chaining.encrypt? ⟨context.keys, context.iv⟩ data = some (context.encryptBytes data) :=
  if_pos whole

theorem encryptFrom_of_built (built : ofBytes key iv = .ok context) (plaintext : Bytes) :
    context.encryptFrom key iv plaintext = (context.encrypt plaintext).mapError .plaintext := by
  have whole : (addPadding plaintext).length % 16 = 0 := by
    have size := length_addPadding plaintext
    omega
  rw [encryptFrom, encrypt, chaining_of_built built]
  simp only [encrypt?_of_whole context whole]
  split <;> rfl

end Keys

/-- Keys of 16, 24 or 32 bytes with a vector of 16 make a context. Under it no payload exists exactly for the
plaintexts that end with the padding byte; the ciphertext of any other one has the least whole number of
blocks that is longer, and its payload decrypts to the plaintext. Made ready anew from the key and the vector, the
cipher refuses neither of them, nor the padded plaintext. -/
theorem encrypt_lossless (key iv : Bytes) :
    ((∃ context, ofBytes key iv = .ok context) ↔
      (key.length = 16 ∨ key.length = 24 ∨ key.length = 32) ∧ iv.length = 16) ∧
    ∀ context, ofBytes key iv = .ok context → ∀ plaintext : Bytes,
      ((∃ flaw, context.encrypt plaintext = .error flaw) ↔ plaintext.getLast? = some 0x7B) ∧
      (∀ flaw, context.encrypt plaintext = .error flaw → flaw.error.kind = .encoding) ∧
      (plaintext.getLast? ≠ some 0x7B →
        let data := context.encryptBytes (addPadding plaintext)
        IsLeast {n | 16 ∣ n ∧ plaintext.length < n} data.length ∧
        ∃ payload, context.encrypt plaintext = .ok payload ∧
          Utf8.ofString payload = Base64.encode data ∧ context.decrypt payload = .ok plaintext) ∧
      context.encryptFrom key iv plaintext = (context.encrypt plaintext).mapError .plaintext := by
  refine ⟨ofBytes_eq_ok_iff key iv, ?_⟩
  intro context built plaintext
  refine ⟨?_, fun flaw failed => rfl, ?_, encryptFrom_of_built built plaintext⟩
  · simp only [encrypt_eq_error_iff]
    exact ⟨fun ⟨_, ends⟩ => ends, fun ends => ⟨.endsWithPadding, ends⟩⟩
  · intro kept data
    have size := length_addPadding plaintext
    have length : data.length = (addPadding plaintext).length :=
      length_encryptBytes context (by omega)
    refine ⟨?_, payloadOf data, encrypt_of_kept context kept, ofString_payloadOf data,
      decrypt_encryptBytes context kept⟩
    rw [length]
    exact isLeast_length_addPadding plaintext

end DeviceBus.CipherContext
