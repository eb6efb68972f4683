import Mathlib.Data.FinEnum
import Mathlib.Data.Finite.Prod
import Mathlib.Data.Fintype.EquivFin
import DeviceBus.Proofs.Aes.Blocks
import DeviceBus.Proofs.Aes.Inverse

/-! Encryption also undoes decryption. Under any keys no two blocks are encrypted alike, and there are finitely many
blocks, so every block is the encryption of one. In the chained mode a block depends on those before it only, so
that what begins alike is encrypted alike so far. -/
namespace DeviceBus.Aes

instance : Finite Column :=
  Finite.of_injective (fun s : Column => (s.a, s.b, s.c, s.d)) fun s t same => by
    cases s
    cases t
    simpa using same

instance : Finite Block :=
  Finite.of_injective (fun s : Block => (s.w, s.x, s.y, s.z)) fun s t same => by
    cases s
    cases t
    simpa using same

theorem encryptBlock_decryptBlock (keys : List Block) (c : Block) : encryptBlock keys (decryptBlock keys c) = c := by
  have undone : Function.LeftInverse (decryptBlock keys) (encryptBlock keys) := decryptBlock_encryptBlock keys
  have onto : Function.Surjective (encryptBlock keys) := Finite.injective_iff_surjective.mp undone.injective
  exact undone.rightInverse_of_surjective onto c

theorem encryptChain_decryptChain (keys : List Block) (previous : Block) (blocks : List Block) :
    encryptChain keys previous (decryptChain keys previous blocks) = blocks := by
  induction blocks generalizing previous with
  | nil => rfl
  | cons c rest ih => rw [decryptChain, encryptChain, Block.add_cancel, encryptBlock_decryptBlock, ih]

theorem encryptChain_prefix (keys : List Block) (previous : Block) {blocks more : List Block}
    (first : blocks <+: more) : encryptChain keys previous blocks <+: encryptChain keys previous more := by
  induction blocks generalizing previous more with
  | nil => exact List.nil_prefix
  | cons s rest ih =>
    obtain ⟨later, rfl⟩ := first
    exact (List.prefix_cons_inj _).mpr (ih _ (List.prefix_append rest later))

namespace Block

theorem ofBytes_append {front : Bytes} (whole : front.length % 16 = 0) (back : Bytes) :
    ofBytes (front ++ back) = ofBytes front ++ ofBytes back := by
  have split (blocks : List Block) : ofBytes (blocks.flatMap toBytes ++ back) = blocks ++ ofBytes back := by
    induction blocks with
    | nil => rfl
    | cons s rest ih =>
      have head : ofBytes (s.toBytes ++ (rest.flatMap toBytes ++ back)) = s :: ofBytes (rest.flatMap toBytes ++ back) :=
        rfl
      rw [List.flatMap_cons, List.append_assoc, head, ih, List.cons_append]
  have same := split (ofBytes front)
  rwa [flatMap_ofBytes front whole] at same

end Block

end DeviceBus.Aes
