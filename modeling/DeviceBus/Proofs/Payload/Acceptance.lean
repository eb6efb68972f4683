import Mathlib.Data.List.Induction
import DeviceBus.Proofs.Bytes.Canonical
import DeviceBus.Proofs.Payload.RoundTrip

/-! Which payloads are decrypted, to what, and how the others fail. A payload carries at most one byte string, the
chain is decrypted block by block, and of its bytes the padding at the end goes, however much of it there is. -/
namespace DeviceBus.CipherContext

section Stripping

/-- What remains of a byte string without the padding at its end: its longest first part that does not end in padding. -/
structure Stripped (data rest : Bytes) : Prop where
  first : rest <+: data
  kept : rest.getLast? ≠ some padding
  longest : ∀ other, other <+: data → other.getLast? ≠ some padding → other <+: rest

variable {data rest : Bytes}

theorem exists_append_padding (data : Bytes) :
    ∃ front count, data = front ++ List.replicate count padding ∧ front.getLast? ≠ some padding := by
  induction data using List.reverseRecOn with
  | nil => exact ⟨[], 0, rfl, by simp⟩
  | append_singleton data last ih =>
    by_cases pads : last = padding
    · obtain ⟨front, count, same, kept⟩ := ih
      refine ⟨front, count + 1, ?_, kept⟩
      rw [same, pads, List.replicate_succ', List.append_assoc]
    · exact ⟨data ++ [last], 0, by simp, by simpa using pads⟩

private theorem stripped_append_padding (kept : rest.getLast? ≠ some padding) (count : Nat) :
    Stripped (rest ++ List.replicate count padding) rest := by
  refine ⟨List.prefix_append rest _, kept, fun other early other_kept => ?_⟩
  rcases List.prefix_or_prefix_of_prefix early (List.prefix_append rest _) with within | ⟨more, rfl⟩
  · exact within
  · -- a longer first part goes on into the padding, and would end with it
    have pads : more <+: List.replicate count padding := (List.prefix_append_right_inj rest).mp early
    obtain ⟨-, same⟩ := List.prefix_replicate_iff.mp pads
    have none : more.length = 0 := by
      by_contra some
      rw [same, List.getLast?_append, List.getLast?_replicate, if_neg some] at other_kept
      exact other_kept rfl
    have nothing : more = [] := List.eq_nil_of_length_eq_zero none
    subst nothing
    exact ⟨[], by simp⟩

theorem stripped_stripPadding (data : Bytes) : Stripped data (stripPadding data) := by
  obtain ⟨front, count, rfl, kept⟩ := exists_append_padding data
  rw [stripPadding_append_replicate, stripPadding_eq_self kept]
  exact stripped_append_padding kept count

theorem Stripped.eq_stripPadding (stripped : Stripped data rest) : rest = stripPadding data := by
  have canonical := stripped_stripPadding data
  have one : rest <+: stripPadding data := canonical.longest rest stripped.first stripped.kept
  have two : stripPadding data <+: rest := stripped.longest _ canonical.first canonical.kept
  exact one.eq_of_length (Nat.le_antisymm one.length_le two.length_le)

private theorem Stripped.length_lt (stripped : Stripped data rest) (padded : data.getLast? = some padding) :
    rest.length < data.length := by
  apply Nat.lt_of_le_of_ne stripped.first.length_le
  intro same
  have whole : rest = data := stripped.first.eq_of_length same
  rw [whole] at stripped
  exact stripped.kept padded

private theorem Stripped.eq_nil (stripped : Stripped data rest) (pads : ∀ b ∈ data, b = padding) : rest = [] := by
  by_contra some
  have last := List.getLast_mem some
  have same : rest.getLast some = padding := pads _ (stripped.first.subset last)
  apply stripped.kept
  rw [List.getLast?_eq_some_getLast some, same]

end Stripping

section Layers

/-- A payload carries the byte string that it spells, if this makes up one block or more. -/
structure Carries (payload : String) (data : Bytes) : Prop where
  spelled : Utf8.ofString payload = Base64.encode data
  nonempty : data.length ≠ 0
  whole : 16 ∣ data.length

variable (context : CipherContext) {payload : String} {data : Bytes}

theorem length_decryptBytes (whole : 16 ∣ data.length) : (context.decryptBytes data).length = data.length := by
  have same := Aes.Block.flatMap_ofBytes data (Nat.mod_eq_zero_of_dvd whole)
  rw [decryptBytes, Aes.Block.length_flatMap_toBytes, Aes.length_decryptChain, ← Aes.Block.length_flatMap_toBytes, same]

theorem Carries.shape (carries : Carries payload data) : ¬(data.length = 0 ∨ data.length % blockSize ≠ 0) := by
  have nonempty := carries.nonempty
  have whole := Nat.mod_eq_zero_of_dvd carries.whole
  simp only [blockSize]
  omega

private theorem decrypt_of_carries (carries : Carries payload data) :
    context.decrypt payload =
      if (context.decryptBytes data).getLast? = some padding then .ok (stripPadding (context.decryptBytes data))
      else .error .notPadded := by
  have read := (Base64.decode_eq_ok_iff _ data).mpr carries.spelled
  simp only [decrypt, read]
  change (if data.length = 0 ∨ data.length % blockSize ≠ 0 then _ else _) = _
  rw [if_neg carries.shape]

private theorem exists_flaw_of_not_carries (nothing : ∀ data, ¬ Carries payload data) :
    ∃ flaw : PayloadFlaw, flaw.error.kind = .encoding ∧
      ∀ context : CipherContext, context.decrypt payload = .error flaw := by
  cases read : Base64.decode (Utf8.ofString payload) with
  | error fault =>
    refine ⟨.notBase64 fault, rfl, fun context => ?_⟩
    simp only [decrypt, read]
    rfl
  | ok data =>
    have spelled := (Base64.decode_eq_ok_iff _ data).mp read
    have shape : data.length = 0 ∨ data.length % blockSize ≠ 0 := by
      by_contra good
      rw [not_or] at good
      exact nothing data ⟨spelled, good.1, Nat.dvd_of_mod_eq_zero (Classical.not_not.mp good.2)⟩
    refine ⟨.cipherLength data.length, rfl, fun context => ?_⟩
    simp only [decrypt, read]
    change (if data.length = 0 ∨ data.length % blockSize ≠ 0 then _ else _) = _
    rw [if_pos shape]

theorem decrypt_error_unique {context other : CipherContext} {flaw its : PayloadFlaw}
    (failed : context.decrypt payload = .error flaw) (also : other.decrypt payload = .error its) : flaw = its := by
  by_cases carried : ∃ data, Carries payload data
  · obtain ⟨data, carries⟩ := carried
    have unpadded : ∀ {context : CipherContext} {flaw}, context.decrypt payload = .error flaw → flaw = .notPadded := by
      intro context flaw failed
      rw [decrypt_of_carries context carries] at failed
      split at failed
      · cases failed
      · exact (Except.error.inj failed).symm
    rw [unpadded failed, unpadded also]
  · obtain ⟨common, -, same⟩ := exists_flaw_of_not_carries (not_exists.mp carried)
    rw [same] at failed also
    exact (Except.error.inj failed).symm.trans (Except.error.inj also)

theorem Carries.unique {other : Bytes} (carries : Carries payload data) (also : Carries payload other) :
    data = other := by
  have one := (Base64.decode_eq_ok_iff _ data).mpr carries.spelled
  have two := (Base64.decode_eq_ok_iff _ other).mpr also.spelled
  rw [one] at two
  exact Except.ok.inj two

theorem decrypt_eq_ok_iff (payload : String) (plaintext : Bytes) :
    context.decrypt payload = .ok plaintext ↔
      ∃ data, Carries payload data ∧ (context.decryptBytes data).getLast? = some padding ∧
        Stripped (context.decryptBytes data) plaintext := by
  constructor
  · intro decrypted
    by_cases carried : ∃ data, Carries payload data
    · obtain ⟨data, carries⟩ := carried
      rw [decrypt_of_carries context carries] at decrypted
      split at decrypted
      · next padded =>
        cases decrypted
        exact ⟨data, carries, padded, stripped_stripPadding _⟩
      · cases decrypted
    · obtain ⟨flaw, -, failed⟩ := exists_flaw_of_not_carries (not_exists.mp carried)
      rw [failed] at decrypted
      cases decrypted
  · rintro ⟨data, carries, padded, stripped⟩
    rw [decrypt_of_carries context carries, if_pos padded, stripped.eq_stripPadding]

theorem decrypt_encoding_iff (payload : String) :
    (∃ flaw, context.decrypt payload = .error flaw ∧ flaw.error.kind = .encoding) ↔
      ¬ ∃ data, Carries payload data := by
  constructor
  · rintro ⟨flaw, failed, kind⟩ ⟨data, carries⟩
    rw [decrypt_of_carries context carries] at failed
    split at failed
    · cases failed
    · cases failed
      cases kind
  · intro nothing
    obtain ⟨flaw, kind, failed⟩ := exists_flaw_of_not_carries (not_exists.mp nothing)
    exact ⟨flaw, failed context, kind⟩

theorem decrypt_decryption_iff (payload : String) :
    (∃ flaw, context.decrypt payload = .error flaw ∧ flaw.error.kind = .decryption) ↔
      ∃ data, Carries payload data ∧ (context.decryptBytes data).getLast? ≠ some padding := by
  constructor
  · rintro ⟨flaw, failed, kind⟩
    by_cases carried : ∃ data, Carries payload data
    · obtain ⟨data, carries⟩ := carried
      refine ⟨data, carries, fun padded => ?_⟩
      rw [decrypt_of_carries context carries, if_pos padded] at failed
      cases failed
    · obtain ⟨other, encoding, same⟩ := exists_flaw_of_not_carries (not_exists.mp carried)
      rw [same] at failed
      cases failed
      rw [encoding] at kind
      cases kind
  · rintro ⟨data, carries, unpadded⟩
    refine ⟨.notPadded, ?_, rfl⟩
    rw [decrypt_of_carries context carries, if_neg unpadded]

end Layers

section Keys

variable {context : CipherContext} {key iv : Bytes}

private theorem decrypt?_of_whole (context : CipherContext) {data : Bytes} (whole : data.length % 16 = 0) :
    Aes.Chaining.decrypt? ⟨context.keys, context.iv⟩ data = some (context.decryptBytes data) :=
  if_pos whole

theorem decryptFrom_of_built (built : ofBytes key iv = .ok context) (payload : String) :
    context.decryptFrom key iv payload = (context.decrypt payload).mapError .payload := by
  rw [decryptFrom, decrypt, chaining_of_built built]
  cases Base64.decode (Utf8.ofString payload) with
  | error fault => rfl
  | ok data =>
    change (if data.length = 0 ∨ data.length % blockSize ≠ 0 then _ else _) =
      Except.mapError _ (if data.length = 0 ∨ data.length % blockSize ≠ 0 then _ else _)
    by_cases shape : data.length = 0 ∨ data.length % blockSize ≠ 0
    · rw [if_pos shape, if_pos shape]
      rfl
    · have whole : data.length % 16 = 0 := Classical.not_not.mp (not_or.mp shape).2
      simp only [if_neg shape, decrypt?_of_whole context whole]
      split <;> rfl

end Keys

/-- What decryption does, for every context that was built from a key and a vector, and every payload. It succeeds exactly
for a payload that is the base64 of whole blocks, one or more, whose decryption ends with padding. It gives the
longest first part of that decryption that does not, which is shorter than the data and empty where all is
padding. A payload of no such blocks is an error of encoding, one whose decryption does not end with padding
an error of decryption. Made ready anew from the key and the vector, the cipher refuses neither of them,
nor the data. -/
theorem decrypt_outcomes (key iv : Bytes) (context : CipherContext) (built : ofBytes key iv = .ok context)
    (payload : String) :
    (∀ plaintext, context.decrypt payload = .ok plaintext ↔
      ∃ data, Carries payload data ∧ (context.decryptBytes data).getLast? = some 0x7B ∧
        Stripped (context.decryptBytes data) plaintext) ∧
    (∀ data plaintext, Carries payload data → context.decrypt payload = .ok plaintext →
      plaintext.getLast? ≠ some 0x7B ∧ plaintext.length < data.length ∧
        ((∀ b ∈ context.decryptBytes data, b = 0x7B) → plaintext = [])) ∧
    ((∃ flaw, context.decrypt payload = .error flaw ∧ flaw.error.kind = .encoding) ↔
      ¬ ∃ data, Carries payload data) ∧
    ((∃ flaw, context.decrypt payload = .error flaw ∧ flaw.error.kind = .decryption) ↔
      ∃ data, Carries payload data ∧ (context.decryptBytes data).getLast? ≠ some 0x7B) ∧
    context.decryptFrom key iv payload = (context.decrypt payload).mapError .payload := by
  refine ⟨decrypt_eq_ok_iff context payload, ?_, decrypt_encoding_iff context payload,
    decrypt_decryption_iff context payload, decryptFrom_of_built built payload⟩
  intro data plaintext carries decrypted
  obtain ⟨same, also, padded, stripped⟩ := (decrypt_eq_ok_iff context payload plaintext).mp decrypted
  obtain rfl := carries.unique also
  have length := length_decryptBytes context carries.whole
  have shorter := stripped.length_lt padded
  rw [length] at shorter
  exact ⟨stripped.kept, shorter, stripped.eq_nil⟩

theorem decrypt_outcomes_of_block :
    let zeros : Bytes := List.replicate 16 0
    let context : CipherContext := ⟨.bits128, Aes.roundKeys .bits128 zeros, .zero⟩
    let payload := "Z1FM+6Mh4mYsD2w8OEg+qA=="
    ofBytes zeros zeros = .ok context ∧ context.decrypt payload = .ok [0x7B, 0x31] ∧
      context.decryptFrom zeros zeros payload = .ok [0x7B, 0x31] := by
  intro zeros context payload
  have built : ofBytes zeros zeros = .ok context := by rfl
  obtain ⟨accepts, -, -, -, anew⟩ := decrypt_outcomes zeros zeros context built payload
  have spelled : Base64.decode (Utf8.ofString payload) =
      .ok [103, 81, 76, 251, 163, 33, 226, 102, 44, 15, 108, 60, 56, 72, 62, 168] := by decide +kernel
  have carries : Carries payload _ := ⟨(Base64.decode_eq_ok_iff _ _).mp spelled, by decide, by decide⟩
  have plain : context.decryptBytes [103, 81, 76, 251, 163, 33, 226, 102, 44, 15, 108, 60, 56, 72, 62, 168] =
      [0x7B, 0x31] ++ List.replicate 14 padding := by decide +kernel
  have stripped : Stripped ([0x7B, 0x31] ++ List.replicate 14 padding) [0x7B, 0x31] :=
    stripped_append_padding (by decide) 14
  have decrypted : context.decrypt payload = .ok [0x7B, 0x31] := by
    refine (accepts _).mpr ⟨_, carries, ?_, ?_⟩
    · rw [plain]
      decide
    · rw [plain]
      exact stripped
  refine ⟨built, decrypted, ?_⟩
  rw [anew, decrypted]
  rfl

end DeviceBus.CipherContext
